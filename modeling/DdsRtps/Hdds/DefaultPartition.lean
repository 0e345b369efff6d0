/-
# `DdsRtps.Hdds.DefaultPartition` — no partitions, and the partition without a name

The check of `DdsRtps.Hdds.Qos` has a branch of its own for an endpoint that
names no partitions: it is compatible with another that names none, and with
nothing else.  An endpoint whose only partition is the empty string goes to the
search for two names that meet, where `""` meets itself and every name made of
stars.  So the two are not the same, and `replaceDefault_iff` says, for either
side and for both, in which pairs the difference can be seen.
-/
import DdsRtps.Hdds.QosOrder

namespace DdsRtps.Hdds

open Utf8 (asBytes)

/-- The same endpoint with other partitions. -/
def QoS.withPartitions (q : QoS) (names : List String) : QoS := { q with partitionNames := names }

/-- No partitions replaced by the one without a name. -/
def QoS.replaceDefault (q : QoS) : QoS :=
  if q.partitionNames = [] then q.withPartitions [""] else q

/-- Every policy but the partition is compatible. -/
def OtherwiseCompatible (w r : QoS) (hasExplicitOwnership hasOwnershipStrength : Bool) : Prop :=
  Compatible (w.withPartitions []) (r.withPartitions []) hasExplicitOwnership hasOwnershipStrength

/-- The name is empty, or made of stars. -/
def OnlyStars (name : String) : Prop := ∀ b ∈ asBytes name, b = starByte

instance (name : String) : Decidable (OnlyStars name) :=
  List.decidableBAll (fun b => b = starByte) (asBytes name)

theorem partitionsMeet_comm (p q : String) : partitionsMeet p q = partitionsMeet q p := by
  rw [partitionsMeet, partitionsMeet, Bool.or_assoc, Bool.or_assoc,
    Bool.or_comm (fnmatchGlob (asBytes p) (asBytes q) == some true), BEq.comm]

theorem onlyStars_empty : OnlyStars "" := by
  have hempty : asBytes "" = [] := rfl
  intro b hb
  rw [hempty] at hb
  exact absurd hb List.not_mem_nil

/-- What meets the empty name. -/
theorem partitionsMeet_empty_iff (q : String) : partitionsMeet "" q = true ↔ OnlyStars q := by
  have hempty : asBytes "" = [] := rfl
  rw [partitionsMeet, Bool.or_eq_true, Bool.or_eq_true, beq_iff_eq, beq_iff_eq, beq_iff_eq,
    hempty, fnmatchGlob_eq_true_iff, fnmatchGlob_eq_true_iff, Glob.pinned_nil_iff,
    Glob.pinned_empty_text_iff, ← OnlyStars]
  constructor
  · rintro ((rfl | hq) | hstars)
    · exact onlyStars_empty
    · simp [OnlyStars, hq]
    · exact hstars
  · intro hstars
    exact .inr hstars

/-! ## The check depends on the partitions through whether they meet -/

section
variable (w r : QoS) (wRepr rRepr : DataRepresentation) (explicit strength : Bool)

theorem compatible_iff_otherwise :
    Compatible w r explicit strength ↔
      OtherwiseCompatible w r explicit strength ∧ MeetInPartition w r := by
  constructor
  · intro h
    exact ⟨⟨h.representation, h.reliability, h.ownership, h.deadline, h.durability,
      .inl ⟨rfl, rfl⟩⟩, h.partition⟩
  · intro ⟨h, hmeet⟩
    exact ⟨h.representation, h.reliability, h.ownership, h.deadline, h.durability, hmeet⟩

/-- Where another policy fails the partitions are not looked at. -/
theorem check_of_not_otherwise (h : ¬OtherwiseCompatible w r explicit strength)
    (ps qs : List String) :
    checkWriterReaderCompat (w.withPartitions ps) wRepr (r.withPartitions qs) rRepr explicit
      strength = checkWriterReaderCompat w wRepr r rRepr explicit strength := by
  refine ite_congr rfl (fun _ => rfl) fun hrepresentation => ?_
  refine ite_congr rfl (fun _ => rfl) fun hreliability => ?_
  refine ite_congr rfl (fun _ => rfl) fun hownership => ?_
  refine ite_congr rfl (fun _ => rfl) fun hdeadline => ?_
  refine ite_congr rfl (fun _ => rfl) fun hdurability => ?_
  rw [noCommonRepresentation_iff] at hrepresentation
  exact absurd ⟨hrepresentation, hreliability, not_not.mp hownership, hdeadline,
    not_lt.mp hdurability, .inl ⟨rfl, rfl⟩⟩ h

open Classical in
/-- Where no other policy fails the partitions decide. -/
theorem check_of_otherwise (h : OtherwiseCompatible w r explicit strength) :
    checkWriterReaderCompat w wRepr r rRepr explicit strength =
      if MeetInPartition w r then none else some .partition := by
  by_cases hmeet : MeetInPartition w r
  · rw [if_pos hmeet, checkWriterReaderCompat_eq_none_iff, compatible_iff_otherwise]
    exact ⟨h, hmeet⟩
  · rw [if_neg hmeet]
    refine (if_neg ?_).trans <| (if_neg h.reliability).trans <|
      (if_neg (not_not.mpr h.ownership)).trans <| (if_neg h.deadline).trans <|
      (if_neg (not_lt.mpr h.durability)).trans ?_
    · rw [noCommonRepresentation_iff]
      exact h.representation
    · refine Or.resolve_left ?_ (mt (partitionCheck_eq_none_iff w r).mp hmeet)
      dsimp only
      split_ifs <;> simp only [or_true, or_false]

/-- Two pairs that differ in their partitions only get the same answer exactly if
their partitions both meet or both do not, or another policy decides before. -/
theorem check_withPartitions_eq_iff (ps qs : List String) :
    checkWriterReaderCompat (w.withPartitions ps) wRepr (r.withPartitions qs) rRepr explicit
        strength = checkWriterReaderCompat w wRepr r rRepr explicit strength ↔
      (OtherwiseCompatible w r explicit strength →
        (MeetInPartition (w.withPartitions ps) (r.withPartitions qs) ↔ MeetInPartition w r)) := by
  by_cases h : OtherwiseCompatible w r explicit strength
  · have h' : OtherwiseCompatible (w.withPartitions ps) (r.withPartitions qs) explicit strength := h
    rw [check_of_otherwise _ _ _ _ _ _ h, check_of_otherwise _ _ _ _ _ _ h']
    split_ifs <;> simp_all
  · simp [check_of_not_otherwise _ _ _ _ _ _ h, h]

end

/-! ## The replacement -/

theorem replaceDefault_of_nil {q : QoS} (h : q.partitionNames = []) :
    q.replaceDefault = q.withPartitions [""] := if_pos h

theorem replaceDefault_of_ne_nil {q : QoS} (h : q.partitionNames ≠ []) : q.replaceDefault = q :=
  if_neg h

theorem meetInPartition_comm (w r : QoS) : MeetInPartition w r ↔ MeetInPartition r w := by
  rw [MeetInPartition, MeetInPartition, and_comm]
  refine or_congr Iff.rfl ⟨?_, ?_⟩
  · rintro ⟨p, hp, q, hq, hmeet⟩
    exact ⟨q, hq, p, hp, by rwa [partitionsMeet_comm]⟩
  · rintro ⟨q, hq, p, hp, hmeet⟩
    exact ⟨p, hp, q, hq, by rwa [partitionsMeet_comm]⟩

/-- An endpoint without partitions meets those without partitions. -/
theorem meetInPartition_of_nil {w : QoS} (hw : w.partitionNames = []) (r : QoS) :
    MeetInPartition w r ↔ r.partitionNames = [] := by
  simp [MeetInPartition, hw]

/-- Some partition of the endpoint meets the one without a name. -/
def MeetsUnnamed (q : QoS) : Prop := ∃ name ∈ q.partitionNames, OnlyStars name

theorem meetInPartition_unnamed (w r : QoS) :
    MeetInPartition (w.withPartitions [""]) r ↔ MeetsUnnamed r := by
  simp [MeetInPartition, QoS.withPartitions, MeetsUnnamed, partitionsMeet_empty_iff]

theorem not_meetsUnnamed_of_nil {q : QoS} (h : q.partitionNames = []) : ¬MeetsUnnamed q := by
  simp [MeetsUnnamed, h]

section
variable (w r : QoS) (wRepr rRepr : DataRepresentation) (explicit strength : Bool)

theorem check_replaceDefault_writer :
    checkWriterReaderCompat w.replaceDefault wRepr r rRepr explicit strength =
        checkWriterReaderCompat w wRepr r rRepr explicit strength ↔
      ¬(OtherwiseCompatible w r explicit strength ∧ w.partitionNames = [] ∧
        (r.partitionNames = [] ∨ MeetsUnnamed r)) := by
  by_cases hw : w.partitionNames = []
  · rw [replaceDefault_of_nil hw]
    refine (check_withPartitions_eq_iff w r wRepr rRepr explicit strength [""]
      r.partitionNames).trans ?_
    show (_ → (MeetInPartition (w.withPartitions [""]) r ↔ MeetInPartition w r)) ↔ _
    rw [meetInPartition_unnamed, meetInPartition_of_nil hw]
    have hnot := not_meetsUnnamed_of_nil (q := r)
    tauto
  · simp [replaceDefault_of_ne_nil hw, hw]

theorem check_replaceDefault_reader :
    checkWriterReaderCompat w wRepr r.replaceDefault rRepr explicit strength =
        checkWriterReaderCompat w wRepr r rRepr explicit strength ↔
      ¬(OtherwiseCompatible w r explicit strength ∧ r.partitionNames = [] ∧
        (w.partitionNames = [] ∨ MeetsUnnamed w)) := by
  by_cases hr : r.partitionNames = []
  · rw [replaceDefault_of_nil hr]
    refine (check_withPartitions_eq_iff w r wRepr rRepr explicit strength w.partitionNames
      [""]).trans ?_
    show (_ → (MeetInPartition w (r.withPartitions [""]) ↔ MeetInPartition w r)) ↔ _
    rw [meetInPartition_comm w, meetInPartition_comm w, meetInPartition_unnamed,
      meetInPartition_of_nil hr]
    have hnot := not_meetsUnnamed_of_nil (q := w)
    tauto
  · simp [replaceDefault_of_ne_nil hr, hr]

/-- Replaced on both sides: what was compatible stays so, and an endpoint that named
no partitions now meets the stars of the other side. -/
theorem check_replaceDefault_both :
    checkWriterReaderCompat w.replaceDefault wRepr r.replaceDefault rRepr explicit strength =
        checkWriterReaderCompat w wRepr r rRepr explicit strength ↔
      ¬(OtherwiseCompatible w r explicit strength ∧
        (w.partitionNames = [] ∧ MeetsUnnamed r ∨ r.partitionNames = [] ∧ MeetsUnnamed w)) := by
  by_cases hw : w.partitionNames = [] <;> by_cases hr : r.partitionNames = []
  · -- the default on both sides, before and after
    have hmeet : MeetInPartition (w.withPartitions [""]) (r.withPartitions [""]) :=
      (meetInPartition_unnamed w _).mpr ⟨"", by simp [QoS.withPartitions], onlyStars_empty⟩
    rw [replaceDefault_of_nil hw, replaceDefault_of_nil hr, check_withPartitions_eq_iff]
    simp [hmeet, meetInPartition_of_nil hw, hr, not_meetsUnnamed_of_nil hw,
      not_meetsUnnamed_of_nil hr]
  · rw [replaceDefault_of_ne_nil hr, check_replaceDefault_writer]
    simp [hr]
  · rw [replaceDefault_of_ne_nil hw, check_replaceDefault_reader]
    simp [hw]
  · simp [replaceDefault_of_ne_nil hw, replaceDefault_of_ne_nil hr, hw, hr]

/-- An endpoint that names no partitions is compatible with the others that name none. -/
theorem check_of_nil (h : OtherwiseCompatible w r explicit strength)
    (hnil : w.partitionNames = [] ∨ r.partitionNames = []) :
    checkWriterReaderCompat w wRepr r rRepr explicit strength = none ↔
      w.partitionNames = [] ∧ r.partitionNames = [] := by
  rw [checkWriterReaderCompat_eq_none_iff, compatible_iff_otherwise]
  rcases hnil with hw | hr
  · simp [h, hw, meetInPartition_of_nil hw]
  · rw [meetInPartition_comm, meetInPartition_of_nil hr]
    simp [h, hr]

open Classical in
/-- Where the other side meets the partition without a name, the replacement makes a match
of a refusal. -/
theorem check_of_meetsUnnamed (h : OtherwiseCompatible w r explicit strength)
    (hmeets : w.partitionNames = [] ∧ MeetsUnnamed r ∨ r.partitionNames = [] ∧ MeetsUnnamed w) :
    checkWriterReaderCompat w wRepr r rRepr explicit strength = some .partition ∧
      checkWriterReaderCompat w.replaceDefault wRepr r.replaceDefault rRepr explicit strength =
        none := by
  rcases hmeets with ⟨hw, hmeets⟩ | ⟨hr, hmeets⟩
  · have hr : r.partitionNames ≠ [] := fun hr => not_meetsUnnamed_of_nil hr hmeets
    have h' : OtherwiseCompatible (w.withPartitions [""]) r explicit strength := h
    rw [replaceDefault_of_nil hw, replaceDefault_of_ne_nil hr, check_of_otherwise _ _ _ _ _ _ h,
      check_of_otherwise _ _ _ _ _ _ h']
    exact ⟨if_neg (mt (meetInPartition_of_nil hw r).mp hr),
      if_pos ((meetInPartition_unnamed w r).mpr hmeets)⟩
  · have hw : w.partitionNames ≠ [] := fun hw => not_meetsUnnamed_of_nil hw hmeets
    have h' : OtherwiseCompatible w (r.withPartitions [""]) explicit strength := h
    rw [replaceDefault_of_ne_nil hw, replaceDefault_of_nil hr, check_of_otherwise _ _ _ _ _ _ h,
      check_of_otherwise _ _ _ _ _ _ h', meetInPartition_comm w, meetInPartition_comm w]
    exact ⟨if_neg (mt (meetInPartition_of_nil hr w).mp hw),
      if_pos ((meetInPartition_unnamed r w).mpr hmeets)⟩

open Classical in
/-- And where both name none, the replacement on one side makes a refusal of a match. -/
theorem check_of_nil_nil (h : OtherwiseCompatible w r explicit strength)
    (hw : w.partitionNames = []) (hr : r.partitionNames = []) :
    checkWriterReaderCompat w wRepr r rRepr explicit strength = none ∧
      checkWriterReaderCompat w.replaceDefault wRepr r rRepr explicit strength =
        some .partition ∧
      checkWriterReaderCompat w wRepr r.replaceDefault rRepr explicit strength =
        some .partition := by
  have hwriter : OtherwiseCompatible (w.withPartitions [""]) r explicit strength := h
  have hreader : OtherwiseCompatible w (r.withPartitions [""]) explicit strength := h
  have hunnamed (q : QoS) : (q.withPartitions [""]).partitionNames ≠ [] := List.cons_ne_nil _ _
  refine ⟨(check_of_nil w r wRepr rRepr explicit strength h (.inl hw)).mpr ⟨hw, hr⟩, ?_, ?_⟩
  · rw [replaceDefault_of_nil hw, check_of_otherwise _ _ _ _ _ _ hwriter, meetInPartition_comm]
    exact if_neg (mt (meetInPartition_of_nil hr _).mp (hunnamed w))
  · rw [replaceDefault_of_nil hr, check_of_otherwise _ _ _ _ _ _ hreader]
    exact if_neg (mt (meetInPartition_of_nil hw _).mp (hunnamed r))

/-- **The default partition is not the partition without a name.**  An empty list is
compatible with the empty list only, and what its replacement changes on the
writer's side, on the reader's and on both is said exactly: a refusal becomes a match
where the other side meets the partition without a name, and a match becomes a refusal
where one of two empty lists is replaced. -/
theorem replaceDefault_iff :
    (OtherwiseCompatible w r explicit strength →
      w.partitionNames = [] ∨ r.partitionNames = [] →
        (checkWriterReaderCompat w wRepr r rRepr explicit strength = none ↔
          w.partitionNames = [] ∧ r.partitionNames = [])) ∧
    (checkWriterReaderCompat w.replaceDefault wRepr r.replaceDefault rRepr explicit strength =
        checkWriterReaderCompat w wRepr r rRepr explicit strength ↔
      ¬(OtherwiseCompatible w r explicit strength ∧
        (w.partitionNames = [] ∧ MeetsUnnamed r ∨ r.partitionNames = [] ∧ MeetsUnnamed w))) ∧
    (checkWriterReaderCompat w.replaceDefault wRepr r rRepr explicit strength =
        checkWriterReaderCompat w wRepr r rRepr explicit strength ↔
      ¬(OtherwiseCompatible w r explicit strength ∧ w.partitionNames = [] ∧
        (r.partitionNames = [] ∨ MeetsUnnamed r))) ∧
    (checkWriterReaderCompat w wRepr r.replaceDefault rRepr explicit strength =
        checkWriterReaderCompat w wRepr r rRepr explicit strength ↔
      ¬(OtherwiseCompatible w r explicit strength ∧ r.partitionNames = [] ∧
        (w.partitionNames = [] ∨ MeetsUnnamed w))) ∧
    (OtherwiseCompatible w r explicit strength →
      (w.partitionNames = [] ∧ MeetsUnnamed r ∨ r.partitionNames = [] ∧ MeetsUnnamed w) →
        checkWriterReaderCompat w wRepr r rRepr explicit strength = some .partition ∧
          checkWriterReaderCompat w.replaceDefault wRepr r.replaceDefault rRepr explicit
            strength = none) ∧
    (OtherwiseCompatible w r explicit strength → w.partitionNames = [] → r.partitionNames = [] →
      checkWriterReaderCompat w wRepr r rRepr explicit strength = none ∧
        checkWriterReaderCompat w.replaceDefault wRepr r rRepr explicit strength =
          some .partition ∧
        checkWriterReaderCompat w wRepr r.replaceDefault rRepr explicit strength =
          some .partition) :=
  ⟨check_of_nil w r wRepr rRepr explicit strength,
    check_replaceDefault_both w r wRepr rRepr explicit strength,
    check_replaceDefault_writer w r wRepr rRepr explicit strength,
    check_replaceDefault_reader w r wRepr rRepr explicit strength,
    check_of_meetsUnnamed w r wRepr rRepr explicit strength,
    check_of_nil_nil w r wRepr rRepr explicit strength⟩

end

/-- A QoS with partitions, and the defaults otherwise. -/
def qosOfPartitions (names : List String) : QoS where
  dataRepresentation := []
  reliability := .reliable
  ownershipKind := .shared
  deadlinePeriod := defaultDeadline
  durability := .volatile
  partitionNames := names

/-- A writer without partitions and a reader in `*`: no match, and a match once the
writer is in the partition without a name. -/
theorem replaceDefault_ne_star :
    checkWriterReaderCompat (qosOfPartitions []) .xcdr1 (qosOfPartitions ["*"]) .xcdr1
        false false = some .partition ∧
      checkWriterReaderCompat (qosOfPartitions []).replaceDefault .xcdr1
        (qosOfPartitions ["*"]).replaceDefault .xcdr1 false false = none := by
  decide

end DdsRtps.Hdds
