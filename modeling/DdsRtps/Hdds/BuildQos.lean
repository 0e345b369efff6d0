/-
# `DdsRtps.Hdds.BuildQos` — from the options to the QoS, and to the verdict

`ShapeOptions::build_qos` of srcRs/HDDS/src/main.rs.  The QoS builder of the
hdds crate is not in the repository: `QosBuilder` is its calls, with what each
does to the part of the QoS that `check_writer_reader_compat` reads (`view`).
The calls after one another leave the options in the QoS (`view_buildQos`).

`disagreement` is the table of the policies on which a publisher and a
subscriber can disagree, said in options.  The check finds what the table says
(`checkWriterReaderCompat_qosOf`).
-/
import DdsRtps.Hdds.QosOrder
import DdsRtps.Hdds.ShapeOptions

namespace DdsRtps.Hdds

/-- The calls of the hdds crate on a QoS, and what the check sees of them. -/
structure QosBuilder (Q : Type) where
  view : Q → QoS
  /-- `QoS::best_effort()` and `QoS::reliable()`. -/
  ofReliability : Reliability → Q
  /-- `volatile`, `transient_local`, `transient` and `persistent`. -/
  durability : Durability → Q → Q
  keepLast : Nat → Q → Q
  keepAll : Q → Q
  dataRepresentationXcdr1 : Q → Q
  dataRepresentationXcdr2 : Q → Q
  ownershipExclusive : Q → Q
  ownershipShared : Q → Q
  ownershipStrength : Int → Q → Q
  deadlineMillis : Nat → Q → Q
  lifespanMillis : Nat → Q → Q
  timeBasedFilterMillis : Nat → Q → Q
  partitionSingle : String → Q → Q
  /-- `presentation_instance`, `presentation_topic_coherent` and
  `presentation_group_coherent_ordered`. -/
  presentation : AccessScope → Q → Q
  view_ofReliability : ∀ r, view (ofReliability r) =
    ⟨[], r, .shared, defaultDeadline, .volatile, []⟩
  view_durability : ∀ d q, view (durability d q) = { view q with durability := d }
  view_keepLast : ∀ n q, view (keepLast n q) = view q
  view_keepAll : ∀ q, view (keepAll q) = view q
  view_xcdr1 : ∀ q, view (dataRepresentationXcdr1 q) = { view q with dataRepresentation := [0] }
  view_xcdr2 : ∀ q, view (dataRepresentationXcdr2 q) = { view q with dataRepresentation := [2] }
  view_exclusive : ∀ q, view (ownershipExclusive q) = { view q with ownershipKind := .exclusive }
  view_shared : ∀ q, view (ownershipShared q) = { view q with ownershipKind := .shared }
  view_strength : ∀ n q, view (ownershipStrength n q) = view q
  view_deadline : ∀ n q, view (deadlineMillis n q) =
    { view q with deadlinePeriod := n * 1000000 }
  view_lifespan : ∀ n q, view (lifespanMillis n q) = view q
  view_timeBasedFilter : ∀ n q, view (timeBasedFilterMillis n q) = view q
  view_partition : ∀ p q, view (partitionSingle p q) = { view q with partitionNames := [p] }
  view_presentation : ∀ a q, view (presentation a q) = view q

/-- `build_qos`. -/
def buildQos {Q : Type} (b : QosBuilder Q) (self : ShapeOptions) : Q :=
  let qos := b.ofReliability self.reliabilityKind
  let qos := b.durability self.durabilityKind qos
  let qos :=
    if self.historyDepth > 0 then b.keepLast self.historyDepth.toNat qos
    else if self.historyDepth = 0 then b.keepAll qos
    else qos
  let qos := match self.dataRepresentation with
    | .default => qos
    | .xcdr1 => b.dataRepresentationXcdr1 qos
    | .xcdr2 => b.dataRepresentationXcdr2 qos
  let qos :=
    if self.ownershipStrength ≥ 0 then
      b.ownershipStrength self.ownershipStrength (b.ownershipExclusive qos)
    else b.ownershipShared qos
  let qos :=
    if self.deadlineIntervalMs > 0 then b.deadlineMillis self.deadlineIntervalMs.toNat qos
    else qos
  let qos :=
    if self.lifespanMs > 0 then b.lifespanMillis self.lifespanMs.toNat qos else qos
  let qos :=
    if self.timebasedfilterIntervalMs > 0 then
      b.timeBasedFilterMillis self.timebasedfilterIntervalMs.toNat qos
    else qos
  let qos := match self.partition_ with
    | some partition_ => b.partitionSingle partition_ qos
    | none => qos
  if self.coherentSetEnabled || self.orderedAccessEnabled then
    b.presentation self.coherentAccessScope qos
  else qos

/-! ## What the check sees of it -/

/-- The representations that a choice of `-x` lists. -/
def DataRepresentation.ids : DataRepresentation → List Nat
  | .default => []
  | .xcdr1 => [0]
  | .xcdr2 => [2]

/-- The QoS of the options, as far as it is read. -/
def qosOf (opts : ShapeOptions) : QoS where
  dataRepresentation := opts.dataRepresentation.ids
  reliability := opts.reliabilityKind
  ownershipKind := if 0 ≤ opts.ownershipStrength then .exclusive else .shared
  deadlinePeriod :=
    if 0 < opts.deadlineIntervalMs then opts.deadlineIntervalMs.toNat * 1000000
    else defaultDeadline
  durability := opts.durabilityKind
  partitionNames := opts.partition_.toList

theorem view_buildQos {Q : Type} (b : QosBuilder Q) (opts : ShapeOptions) :
    b.view (buildQos b opts) = qosOf opts := by
  unfold buildQos
  extract_lets q₁ q₂ q₃ q₄ q₅ q₆ q₇ q₈ q₉
  have h₂ : b.view q₂ = ⟨[], opts.reliabilityKind, .shared, defaultDeadline,
      opts.durabilityKind, []⟩ := by
    simp [q₂, q₁, b.view_durability, b.view_ofReliability]
  have h₃ : b.view q₃ = b.view q₂ := by
    simp only [q₃, apply_ite b.view, b.view_keepLast, b.view_keepAll, ite_self]
  have h₄ : b.view q₄ =
      { b.view q₃ with dataRepresentation := opts.dataRepresentation.ids } := by
    cases hx : opts.dataRepresentation <;>
      simp [q₄, hx, DataRepresentation.ids, b.view_xcdr1, b.view_xcdr2, h₃, h₂]
  have h₅ : b.view q₅ = { b.view q₄ with
      ownershipKind := if 0 ≤ opts.ownershipStrength then .exclusive else .shared } := by
    by_cases hs : 0 ≤ opts.ownershipStrength <;>
      simp [q₅, hs, b.view_strength, b.view_exclusive, b.view_shared]
  have h₆ : b.view q₆ = { b.view q₅ with
      deadlinePeriod := if 0 < opts.deadlineIntervalMs then
        opts.deadlineIntervalMs.toNat * 1000000 else defaultDeadline } := by
    by_cases hf : 0 < opts.deadlineIntervalMs
    · simp [q₆, hf, b.view_deadline]
    · simp [q₆, hf, h₅, h₄, h₃, h₂]
  have h₇ : b.view q₇ = b.view q₆ := by
    simp only [q₇, apply_ite b.view, b.view_lifespan, ite_self]
  have h₈ : b.view q₈ = b.view q₇ := by
    simp only [q₈, apply_ite b.view, b.view_timeBasedFilter, ite_self]
  have h₉ : b.view q₉ = { b.view q₈ with partitionNames := opts.partition_.toList } := by
    cases hp : opts.partition_ with
    | none => simp [q₉, hp, h₈, h₇, h₆, h₅, h₄, h₃, h₂]
    | some p => simp [q₉, hp, b.view_partition]
  simp only [apply_ite b.view, b.view_presentation, ite_self]
  rw [h₉, h₈, h₇, h₆, h₅, h₄, h₃, h₂]
  rfl

/-! ## The verdict, in options -/

/-- One side alone has a partition, or both have and the two do not meet. -/
def partitionsApart : Option String → Option String → Bool
  | none, none => false
  | some w, some r => !partitionsMeet w r
  | _, _ => true

/-- The first policy on which a publisher with one set of options and a
subscriber with another disagree. -/
def disagreement (pub sub : ShapeOptions) : Option Policy :=
  if pub.dataRepresentation ≠ .default ∧ sub.dataRepresentation ≠ .default ∧
      pub.dataRepresentation ≠ sub.dataRepresentation then some .dataRepresentation
  else if pub.reliabilityKind = .bestEffort ∧ sub.reliabilityKind = .reliable then
    some .reliability
  else if ¬(0 ≤ pub.ownershipStrength ↔ 0 ≤ sub.ownershipStrength) then some .ownership
  else if 0 < sub.deadlineIntervalMs ∧ sub.deadlineIntervalMs < pub.deadlineIntervalMs then
    some .deadline
  else if durabilityRank pub.durabilityKind < durabilityRank sub.durabilityKind then
    some .durability
  else if partitionsApart pub.partition_ sub.partition_ then some .partition
  else none

/-- A deadline in milliseconds is not the default one. -/
theorem millis_ne_defaultDeadline {n : Int} (h : n < 2 ^ 32) :
    n.toNat * 1000000 ≠ defaultDeadline := by
  unfold defaultDeadline
  omega

theorem tooSlow_qosOf_iff {pub sub : ShapeOptions} (hpub : pub.deadlineIntervalMs < 2 ^ 32)
    (hsub : sub.deadlineIntervalMs < 2 ^ 32) :
    TooSlow (qosOf pub) (qosOf sub) ↔
      0 < sub.deadlineIntervalMs ∧ sub.deadlineIntervalMs < pub.deadlineIntervalMs := by
  have hp := millis_ne_defaultDeadline hpub
  have hs := millis_ne_defaultDeadline hsub
  simp only [TooSlow, qosOf]
  by_cases hp0 : 0 < pub.deadlineIntervalMs
  · by_cases hs0 : 0 < sub.deadlineIntervalMs
    · rw [if_pos hp0, if_pos hs0]
      constructor
      · rintro ⟨-, -, hlt⟩
        exact ⟨hs0, by omega⟩
      · rintro ⟨-, hlt⟩
        exact ⟨hp, hs, by omega⟩
    · simp [hs0]
  · simp only [if_neg hp0, ne_eq, not_true_eq_false, false_and, false_iff, not_and]
    omega

theorem noCommonRepresentation_qosOf_iff (pub sub : ShapeOptions) :
    NoCommonRepresentation (qosOf pub) (qosOf sub) ↔
      pub.dataRepresentation ≠ .default ∧ sub.dataRepresentation ≠ .default ∧
        pub.dataRepresentation ≠ sub.dataRepresentation := by
  simp only [NoCommonRepresentation, qosOf]
  cases pub.dataRepresentation <;> cases sub.dataRepresentation <;>
    simp [DataRepresentation.ids]

theorem partitionCheck_toList (w r : Option String) :
    (if w.toList.isEmpty && r.toList.isEmpty then none
      else if w.toList.isEmpty || r.toList.isEmpty then some Policy.partition
      else if w.toList.any (fun p => r.toList.any (fun q => partitionsMeet p q)) then none
      else some Policy.partition) = if partitionsApart w r then some .partition else none := by
  cases w with
  | none => cases r <;> rfl
  | some p =>
      cases r with
      | none => rfl
      | some q => cases h : partitionsMeet p q <;> simp [partitionsApart, h]

/-- The check of the QoS of two sets of options finds what the table says. -/
theorem checkWriterReaderCompat_qosOf {pub sub : ShapeOptions}
    (hpub : pub.deadlineIntervalMs < 2 ^ 32) (hsub : sub.deadlineIntervalMs < 2 ^ 32)
    (x y : DataRepresentation) :
    checkWriterReaderCompat (qosOf pub) x (qosOf sub) y true true = disagreement pub sub := by
  have hownership : (qosOf pub).ownershipKind ≠ (qosOf sub).ownershipKind ↔
      ¬(0 ≤ pub.ownershipStrength ↔ 0 ≤ sub.ownershipStrength) := by
    simp only [qosOf]
    by_cases hp : 0 ≤ pub.ownershipStrength <;> by_cases hs : 0 ≤ sub.ownershipStrength <;>
      simp [hp, hs]
  have hslow : ((qosOf pub).deadlinePeriod ≠ defaultDeadline ∧
      (qosOf sub).deadlinePeriod ≠ defaultDeadline ∧
        (qosOf pub).deadlinePeriod > (qosOf sub).deadlinePeriod) ↔
      0 < sub.deadlineIntervalMs ∧ sub.deadlineIntervalMs < pub.deadlineIntervalMs :=
    tooSlow_qosOf_iff hpub hsub
  unfold checkWriterReaderCompat disagreement
  simp only [noCommonRepresentation_iff, noCommonRepresentation_qosOf_iff, if_true, hownership,
    hslow, ← partitionCheck_toList]
  rfl

end DdsRtps.Hdds
