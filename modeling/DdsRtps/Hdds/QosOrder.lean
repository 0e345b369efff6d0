/-
# `DdsRtps.Hdds.QosOrder` — the check and the order of the policies

A writer offers and a reader requests.  The check of
`DdsRtps.Hdds.Qos` is a conjunction, one condition for each policy
(`checkWriterReaderCompat_eq_none_iff`), and a compatible pair should stay
compatible when the offer is made stronger or the request weaker.

It does for reliability and durability.  The deadline is not compared if one
side has the default, so the longest period is compatible with every request,
and a shorter one need not be: that is the one case in which a pair is lost
(`checkWriterReaderCompat_mono_iff`).
-/
import DdsRtps.Hdds.Qos

namespace DdsRtps.Hdds

/-! ## The check, policy by policy -/

/-- Both sides announce representations, and share none. -/
def NoCommonRepresentation (w r : QoS) : Prop :=
  w.dataRepresentation ≠ [] ∧ r.dataRepresentation ≠ [] ∧
    ∀ x ∈ w.dataRepresentation, x ∉ r.dataRepresentation

/-- A best-effort writer, and a reader that is reliable. -/
def TooUnreliable (w r : QoS) : Prop :=
  w.reliability = .bestEffort ∧ r.reliability = .reliable

/-- The ownership that is read off a writer. -/
def inferredOwnership (w : QoS) (hasExplicitOwnership hasOwnershipStrength : Bool) :
    OwnershipKind :=
  if hasExplicitOwnership then w.ownershipKind
  else if hasOwnershipStrength then .exclusive
  else .shared

/-- Neither period is the default, and the writer's is the longer. -/
def TooSlow (w r : QoS) : Prop :=
  w.deadlinePeriod ≠ defaultDeadline ∧ r.deadlinePeriod ≠ defaultDeadline ∧
    r.deadlinePeriod < w.deadlinePeriod

/-- Both sides are in the default partition, or in two that meet. -/
def MeetInPartition (w r : QoS) : Prop :=
  (w.partitionNames = [] ∧ r.partitionNames = []) ∨
    ∃ p ∈ w.partitionNames, ∃ q ∈ r.partitionNames, partitionsMeet p q = true

/-- What a compatible pair is. -/
structure Compatible (w r : QoS) (hasExplicitOwnership hasOwnershipStrength : Bool) : Prop where
  representation : ¬NoCommonRepresentation w r
  reliability : ¬TooUnreliable w r
  ownership : inferredOwnership w hasExplicitOwnership hasOwnershipStrength = r.ownershipKind
  deadline : ¬TooSlow w r
  durability : durabilityRank r.durability ≤ durabilityRank w.durability
  partition : MeetInPartition w r

theorem noCommonRepresentation_iff (w r : QoS) :
    (!w.dataRepresentation.isEmpty && !r.dataRepresentation.isEmpty &&
        !w.dataRepresentation.any (r.dataRepresentation.contains ·)) = true ↔
      NoCommonRepresentation w r := by
  rw [NoCommonRepresentation, Bool.and_eq_true, Bool.and_eq_true, and_assoc]
  simp

/-- The last check, on the partitions. -/
theorem partitionCheck_eq_none_iff (w r : QoS) :
    (if w.partitionNames.isEmpty && r.partitionNames.isEmpty then none
      else if w.partitionNames.isEmpty || r.partitionNames.isEmpty then some Policy.partition
      else if w.partitionNames.any (fun p => r.partitionNames.any (fun q => partitionsMeet p q))
        then none
      else some Policy.partition) = none ↔ MeetInPartition w r := by
  rw [MeetInPartition]
  cases hw : w.partitionNames with
  | nil => cases hr : r.partitionNames <;> simp
  | cons p ps =>
      cases hr : r.partitionNames with
      | nil => simp
      | cons q qs =>
          simp only [List.isEmpty_cons, Bool.and_self, Bool.or_self, Bool.false_eq_true, if_false,
            ite_eq_left_iff, reduceCtorEq, imp_false, not_not, false_and, false_or, List.any_eq_true]

theorem ite_some_eq_none_iff {α : Type} {c : Prop} [Decidable c] {a : α} {o : Option α} :
    (if c then some a else o) = none ↔ ¬c ∧ o = none := by
  split <;> simp [*]

/-- The check finds nothing, exactly if the pair is compatible. -/
theorem checkWriterReaderCompat_eq_none_iff (w r : QoS) (wRepr rRepr : DataRepresentation)
    (explicit strength : Bool) :
    checkWriterReaderCompat w wRepr r rRepr explicit strength = none ↔
      Compatible w r explicit strength := by
  rw [checkWriterReaderCompat]
  simp only
  rw [ite_some_eq_none_iff, noCommonRepresentation_iff, ite_some_eq_none_iff,
    ite_some_eq_none_iff, not_not, ite_some_eq_none_iff, ite_some_eq_none_iff, not_lt,
    partitionCheck_eq_none_iff]
  constructor
  · intro ⟨hrepresentation, hreliability, hownership, hdeadline, hdurability, hpartition⟩
    exact ⟨hrepresentation, hreliability, hownership, hdeadline, hdurability, hpartition⟩
  · intro h
    exact ⟨h.representation, h.reliability, h.ownership, h.deadline, h.durability, h.partition⟩

/-! ## Stronger offers and weaker requests -/

/-- The second writer offers no less, and is the same in what has no order. -/
structure Offers (w w' : QoS) : Prop where
  representation : w'.dataRepresentation = w.dataRepresentation
  reliability : w.reliability = .reliable → w'.reliability = .reliable
  ownership : w'.ownershipKind = w.ownershipKind
  deadline : w'.deadlinePeriod ≤ w.deadlinePeriod
  durability : durabilityRank w.durability ≤ durabilityRank w'.durability
  partition : w'.partitionNames = w.partitionNames

/-- The second reader requests no more, and is the same in what has no order. -/
structure Requests (r r' : QoS) : Prop where
  representation : r'.dataRepresentation = r.dataRepresentation
  reliability : r.reliability = .bestEffort → r'.reliability = .bestEffort
  ownership : r'.ownershipKind = r.ownershipKind
  deadline : r.deadlinePeriod ≤ r'.deadlinePeriod
  durability : durabilityRank r'.durability ≤ durabilityRank r.durability
  partition : r'.partitionNames = r.partitionNames

/-- The writer had the default period, and has now one that is too long. -/
def LosesDefault (w w' r' : QoS) : Prop :=
  w.deadlinePeriod = defaultDeadline ∧ TooSlow w' r'

theorem tooUnreliable_mono {w w' r r' : QoS} (hoffer : Offers w w') (hrequest : Requests r r')
    (h : ¬TooUnreliable w r) : ¬TooUnreliable w' r' := by
  intro ⟨hw', hr'⟩
  refine h ⟨?_, ?_⟩
  · cases hw : w.reliability with
    | bestEffort => rfl
    | reliable =>
        rw [hoffer.reliability hw] at hw'
        cases hw'
  · cases hr : r.reliability with
    | reliable => rfl
    | bestEffort =>
        rw [hrequest.reliability hr] at hr'
        cases hr'

/-- A deadline is lost only with the default of the writer. -/
theorem tooSlow_iff_losesDefault {w w' r r' : QoS} (hoffer : Offers w w')
    (hrequest : Requests r r') (hlongest : r'.deadlinePeriod ≤ defaultDeadline)
    (h : ¬TooSlow w r) : TooSlow w' r' ↔ LosesDefault w w' r' := by
  constructor
  · intro hslow
    refine ⟨?_, hslow⟩
    by_contra hw
    -- the reader's new period is below the longest, and so was its old one
    have hr : r.deadlinePeriod < defaultDeadline :=
      lt_of_le_of_lt hrequest.deadline (lt_of_le_of_ne hlongest hslow.2.1)
    refine h ⟨hw, hr.ne, ?_⟩
    calc r.deadlinePeriod ≤ r'.deadlinePeriod := hrequest.deadline
      _ < w'.deadlinePeriod := hslow.2.2
      _ ≤ w.deadlinePeriod := hoffer.deadline
  · intro hloses
    exact hloses.2

/-- A compatible pair stays compatible if more is offered and less requested, but
where the writer loses the default period. -/
theorem checkWriterReaderCompat_mono_iff (wRepr rRepr : DataRepresentation)
    (explicit strength : Bool) {w w' r r' : QoS} (hoffer : Offers w w')
    (hrequest : Requests r r') (hlongest : r'.deadlinePeriod ≤ defaultDeadline)
    (hcompat : checkWriterReaderCompat w wRepr r rRepr explicit strength = none) :
    checkWriterReaderCompat w' wRepr r' rRepr explicit strength = none ↔
      ¬LosesDefault w w' r' := by
  rw [checkWriterReaderCompat_eq_none_iff] at hcompat ⊢
  rw [← tooSlow_iff_losesDefault hoffer hrequest hlongest hcompat.deadline]
  constructor
  · intro h
    exact h.deadline
  · intro hdeadline
    refine ⟨?_, tooUnreliable_mono hoffer hrequest hcompat.reliability, ?_, hdeadline, ?_, ?_⟩
    · rw [NoCommonRepresentation, hoffer.representation, hrequest.representation]
      exact hcompat.representation
    · rw [inferredOwnership, hoffer.ownership, hrequest.ownership]
      exact hcompat.ownership
    · calc durabilityRank r'.durability ≤ durabilityRank r.durability := hrequest.durability
        _ ≤ durabilityRank w.durability := hcompat.durability
        _ ≤ durabilityRank w'.durability := hoffer.durability
    · rw [MeetInPartition, hoffer.partition, hrequest.partition]
      exact hcompat.partition

/-- A QoS with a deadline in seconds, and nothing else announced. -/
def qosOfDeadline (reliability : Reliability) (durability : Durability) (secs : Nat) : QoS where
  dataRepresentation := []
  reliability := reliability
  ownershipKind := .shared
  deadlinePeriod := secs * 1000000000
  durability := durability
  partitionNames := []

theorem checkWriterReaderCompat_mono_iff_fiveSeconds :
    checkWriterReaderCompat (qosOfDeadline .reliable .transientLocal 5) .xcdr1
        (qosOfDeadline .bestEffort .volatile 8) .xcdr1 true true = none ↔
      ¬LosesDefault (qosOfDeadline .bestEffort .volatile 6)
        (qosOfDeadline .reliable .transientLocal 5) (qosOfDeadline .bestEffort .volatile 8) :=
  checkWriterReaderCompat_mono_iff .xcdr1 .xcdr1 true true
    (w := qosOfDeadline .bestEffort .volatile 6) (r := qosOfDeadline .bestEffort .volatile 7)
    ⟨rfl, nofun, rfl, by decide, by decide, rfl⟩ ⟨rfl, fun _ => rfl, rfl, by decide, by decide, rfl⟩
    (by decide) (by decide)

/-- A reader that asks for a second is served by the default, and by five seconds it
is not. -/
theorem shorterDeadline_not_compatible :
    Offers (qosOfDeadline .bestEffort .volatile (2 ^ 64 - 1))
        (qosOfDeadline .bestEffort .volatile 5) ∧
      checkWriterReaderCompat (qosOfDeadline .bestEffort .volatile (2 ^ 64 - 1)) .xcdr1
        (qosOfDeadline .bestEffort .volatile 1) .xcdr1 true true = none ∧
      checkWriterReaderCompat (qosOfDeadline .bestEffort .volatile 5) .xcdr1
        (qosOfDeadline .bestEffort .volatile 1) .xcdr1 true true = some .deadline := by
  refine ⟨⟨rfl, nofun, rfl, by decide, by decide, rfl⟩, by decide, by decide⟩

end DdsRtps.Hdds
