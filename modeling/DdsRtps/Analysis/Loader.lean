/-
# `DdsRtps.Analysis.Loader` — reading and classifying the result of a test case

`parse_outcome_rows` and `classify_outcome` of
src/benchmarking/junit_compare/loader.py, with the code sets of models.py.
The rows are found by a regular expression in a message that is meant to be
HTML: three cells with nothing but space between them.

A text without `<th>` gives no row (`findAll_tableRow_of_noOpen`), and three
cells give one (`first_tableRowRe_cells`).
-/
import DdsRtps.Lib.PyUnicode
import DdsRtps.Lib.Regex
import Mathlib.Data.List.Infix

namespace DdsRtps.Analysis

open Regex

/-! ## The code -/

/-- `[^<]`. -/
def notOpening (c : Char) : Bool := c != '<'

/-- `<th>`. -/
def openCell : List Char := "<th>".toList

/-- `</th>`. -/
def closeCell : List Char := "</th>".toList

/-- `<th>([^<]+)</th>\s*<th>([^<]+)</th>\s*<th>([^<]+)</th>`. -/
def tableRowRe (py : PyUnicode) : Regex Char :=
  cat [lit openCell, .group 1 (plus notOpening), lit closeCell, many py.space,
    lit openCell, .group 2 (plus notOpening), lit closeCell, many py.space,
    lit openCell, .group 3 (plus notOpening), lit closeCell]

/-- `OutcomeRow`. -/
structure OutcomeRow where
  role : String
  expected : String
  produced : String
deriving DecidableEq, Repr

/-- The row of a match, unless it is a heading. -/
def outcomeRow (py : PyUnicode) (captures : Captures Char) : Option OutcomeRow :=
  (captures.lookup 1).bind fun role => (captures.lookup 2).bind fun expected =>
    (captures.lookup 3).bind fun produced =>
      let role := String.ofList (py.strip role)
      if role = "" ∨ role = "Expected Code" then none
      else some ⟨role, String.ofList (py.strip expected), String.ofList (py.strip produced)⟩

/-- `parse_outcome_rows`. -/
def parseOutcomeRows (py : PyUnicode) (message : List Char) : List OutcomeRow :=
  (findAll (tableRowRe py) 0 message).filterMap fun (_, captures) => outcomeRow py captures

/-- `class RichStatus`. -/
inductive RichStatus where
  | passed
  | passedAsSkipped
  | skippedUnsupported
  | skippedOther
  | failureQosUnexpected
  | failureFalsePass
  | failureData
  | failureOrdering
  | failureInfrastructure
  | failureOther
  | error
deriving DecidableEq, Repr

/-- The tag of the result of a test case. -/
inductive XmlTag where
  | passed
  | failure
  | error
  | skipped
deriving DecidableEq, Repr

/-- `_UNSUPPORTED_CODES`. -/
def unsupportedCodes : List String := ["SUB_UNSUPPORTED_FEATURE", "PUB_UNSUPPORTED_FEATURE"]

/-- `_DATA_CODES`. -/
def dataCodes : List String := ["DATA_NOT_CORRECT", "DATA_NOT_RECEIVED", "DATA_NOT_SENT"]

/-- `_ORDERING_CODES`. -/
def orderingCodes : List String :=
  ["ORDERED_ACCESS_INSTANCE", "ORDERED_ACCESS_TOPIC", "RECEIVING_FROM_ONE", "RECEIVING_FROM_BOTH",
    "DEADLINE_MISSED"]

/-- `_INFRA_CODES`. -/
def infraCodes : List String :=
  ["READER_NOT_CREATED", "WRITER_NOT_CREATED", "TOPIC_NOT_CREATED", "READER_NOT_MATCHED"]

/-- `Counter(codes).most_common(1)[0][0]`: of the codes that occur most often,
the one that occurs first. -/
def mostCommon (code : String) (codes : List String) : String :=
  codes.foldl
    (fun best c => if (code :: codes).count best < (code :: codes).count c then c else best) code

/-- `classify_outcome`. -/
def classifyOutcome (xmlTag : XmlTag) (rows : List OutcomeRow) : RichStatus :=
  let unsupported := rows.any fun r => unsupportedCodes.contains r.produced
  match xmlTag with
  | .passed => .passed
  | .error => .error
  | .skipped =>
      if unsupported then .skippedUnsupported
      else if rows.all fun r => r.expected = r.produced then .passedAsSkipped
      else .skippedOther
  | .failure =>
      if unsupported then .skippedUnsupported
      else
        match (rows.filter fun r => r.expected ≠ r.produced).map OutcomeRow.produced with
        -- all codes agree and it is marked as a failure all the same
        | [] => .failureOther
        | code :: codes =>
            let dominant := mostCommon code codes
            if dominant = "INCOMPATIBLE_QOS" then .failureQosUnexpected
            else if dominant = "OK" then .failureFalsePass
            else if dataCodes.contains dominant then .failureData
            else if orderingCodes.contains dominant then .failureOrdering
            else if infraCodes.contains dominant then .failureInfrastructure
            else .failureOther

/-- The statuses that say FAILURE. -/
def RichStatus.isFailure : RichStatus → Bool
  | .failureQosUnexpected | .failureFalsePass | .failureData | .failureOrdering
  | .failureInfrastructure | .failureOther => true
  | _ => false

theorem isFailure_classifyOutcome {rows : List OutcomeRow}
    (h : (rows.any fun r => unsupportedCodes.contains r.produced) = false) :
    (classifyOutcome .failure rows).isFailure = true := by
  simp only [classifyOutcome, h]
  repeat' split
  all_goals first | rfl | contradiction

theorem ne_of_isFailure {status : RichStatus} (h : status.isFailure = true) :
    status ≠ .passed ∧ status ≠ .skippedUnsupported := by
  constructor
  · rintro rfl
    cases h
  · rintro rfl
    cases h

/-! ## The pattern -/

variable {py : PyUnicode}

theorem parse_tableRowRe_iff {u : List Char} {cs : Captures Char} :
    Parse (tableRowRe py) u cs ↔ ∃ a s b t c, (a ≠ [] ∧ ∀ x ∈ a, notOpening x = true) ∧
      (∀ x ∈ s, py.space x = true) ∧ (b ≠ [] ∧ ∀ x ∈ b, notOpening x = true) ∧
      (∀ x ∈ t, py.space x = true) ∧ (c ≠ [] ∧ ∀ x ∈ c, notOpening x = true) ∧
      u = openCell ++ (a ++ (closeCell ++ (s ++ (openCell ++ (b ++ (closeCell ++ (t ++
        (openCell ++ (c ++ closeCell))))))))) ∧
      cs = [(1, a), (2, b), (3, c)] := by
  constructor
  · intro h
    obtain ⟨_, _, _, _, p₁, h₁, rfl, rfl⟩ := parse_cat_cons_iff.mp h
    obtain ⟨a, _, _, _, pa, h₂, rfl, rfl⟩ := parse_cat_cons_iff.mp h₁
    obtain ⟨_, _, _, _, p₂, h₃, rfl, rfl⟩ := parse_cat_cons_iff.mp h₂
    obtain ⟨s, _, _, _, ⟨hs, rfl⟩, h₄, rfl, rfl⟩ := parse_cat_cons_iff.mp h₃
    obtain ⟨_, _, _, _, p₃, h₅, rfl, rfl⟩ := parse_cat_cons_iff.mp h₄
    obtain ⟨b, _, _, _, pb, h₆, rfl, rfl⟩ := parse_cat_cons_iff.mp h₅
    obtain ⟨_, _, _, _, p₄, h₇, rfl, rfl⟩ := parse_cat_cons_iff.mp h₆
    obtain ⟨t, _, _, _, ⟨ht, rfl⟩, h₈, rfl, rfl⟩ := parse_cat_cons_iff.mp h₇
    obtain ⟨_, _, _, _, p₅, h₉, rfl, rfl⟩ := parse_cat_cons_iff.mp h₈
    obtain ⟨c, _, _, _, pc, h₁₀, rfl, rfl⟩ := parse_cat_cons_iff.mp h₉
    obtain ⟨_, _, _, _, p₆, h₁₁, rfl, rfl⟩ := parse_cat_cons_iff.mp h₁₀
    obtain ⟨rfl, rfl⟩ := parse_cat_nil_iff.mp h₁₁
    obtain ⟨rfl, rfl⟩ := parse_lit_iff.mp p₁
    obtain ⟨rfl, rfl⟩ := parse_lit_iff.mp p₂
    obtain ⟨rfl, rfl⟩ := parse_lit_iff.mp p₃
    obtain ⟨rfl, rfl⟩ := parse_lit_iff.mp p₄
    obtain ⟨rfl, rfl⟩ := parse_lit_iff.mp p₅
    obtain ⟨rfl, rfl⟩ := parse_lit_iff.mp p₆
    obtain ⟨_, qa, rfl⟩ := parse_group_iff.mp pa
    obtain ⟨ha, ha', rfl⟩ := parse_plus_iff.mp qa
    obtain ⟨_, qb, rfl⟩ := parse_group_iff.mp pb
    obtain ⟨hb, hb', rfl⟩ := parse_plus_iff.mp qb
    obtain ⟨_, qc, rfl⟩ := parse_group_iff.mp pc
    obtain ⟨hc, hc', rfl⟩ := parse_plus_iff.mp qc
    exact ⟨a, s, b, t, c, ⟨ha, ha'⟩, hs, ⟨hb, hb'⟩, ht, ⟨hc, hc'⟩, by simp, rfl⟩
  · rintro ⟨a, s, b, t, c, ⟨ha, ha'⟩, hs, ⟨hb, hb'⟩, ht, ⟨hc, hc'⟩, rfl, rfl⟩
    exact ⟨_, _, _, _, parse_lit_iff.mpr ⟨rfl, rfl⟩,
      ⟨a, _, _, _, parse_group_iff.mpr ⟨[], parse_plus_iff.mpr ⟨ha, ha', rfl⟩, rfl⟩,
      ⟨_, _, _, _, parse_lit_iff.mpr ⟨rfl, rfl⟩, ⟨s, _, _, _, ⟨hs, rfl⟩,
      ⟨_, _, _, _, parse_lit_iff.mpr ⟨rfl, rfl⟩,
      ⟨b, _, _, _, parse_group_iff.mpr ⟨[], parse_plus_iff.mpr ⟨hb, hb', rfl⟩, rfl⟩,
      ⟨_, _, _, _, parse_lit_iff.mpr ⟨rfl, rfl⟩, ⟨t, _, _, _, ⟨ht, rfl⟩,
      ⟨_, _, _, _, parse_lit_iff.mpr ⟨rfl, rfl⟩,
      ⟨c, _, _, _, parse_group_iff.mpr ⟨[], parse_plus_iff.mpr ⟨hc, hc', rfl⟩, rfl⟩,
      ⟨_, _, _, _, parse_lit_iff.mpr ⟨rfl, rfl⟩, ⟨rfl, rfl⟩, (List.append_nil _).symm, rfl⟩,
      rfl, rfl⟩, rfl, rfl⟩, rfl, rfl⟩, rfl, rfl⟩, rfl, rfl⟩, rfl, rfl⟩, rfl, rfl⟩, rfl, rfl⟩,
      rfl, rfl⟩, rfl, rfl⟩

/-- A cell is cut at its closing tag in one way only. -/
theorem cell_cut {a a' x x' : List Char} (ha : ∀ c ∈ a, notOpening c = true)
    (ha' : ∀ c ∈ a', notOpening c = true)
    (h : a ++ (closeCell ++ x) = a' ++ (closeCell ++ x')) : a = a' ∧ x = x' := by
  have hcut : a ++ '<' :: ("/th>".toList ++ x) = a' ++ '<' :: ("/th>".toList ++ x') := h
  obtain ⟨rfl, -, hrest⟩ := append_cons_inj hcut ha ha' (by decide) (by decide)
  exact ⟨rfl, List.append_cancel_left hrest⟩

/-- The space before a tag, too. -/
theorem space_cut (py : PyUnicode) {s s' x x' : List Char} (hs : ∀ c ∈ s, py.space c = true)
    (hs' : ∀ c ∈ s', py.space c = true) (h : s ++ '<' :: x = s' ++ '<' :: x') :
    s = s' ∧ x = x' := by
  obtain ⟨rfl, -, hrest⟩ := append_cons_inj h hs hs' py.space_opening py.space_opening
  exact ⟨rfl, hrest⟩

/-! ## Texts without rows -/

/-- No `<th>` in a text. -/
def NoOpen (t : List Char) : Prop := ¬ openCell <:+: t

instance (t : List Char) : Decidable (NoOpen t) := inferInstanceAs (Decidable (¬ _))

/-- A blank is not inside a `<th>`. -/
theorem NoOpen.append_blank {s t : List Char} (hs : NoOpen s) (ht : NoOpen t) :
    NoOpen (s ++ ' ' :: t) := by
  rintro ⟨a, b, h⟩
  rw [List.append_assoc] at h
  rcases List.append_eq_append_iff.mp h with ⟨w, rfl, hw⟩ | ⟨w, rfl, hw⟩
  · rcases List.append_eq_append_iff.mp hw with ⟨v, rfl, -⟩ | ⟨v, hv, hv'⟩
    · exact hs ⟨a, v, by simp⟩
    · cases v with
      | nil => exact hs ⟨a, [], by simp [hv]⟩
      | cons c v =>
          obtain ⟨rfl, -⟩ := List.cons.inj hv'
          have hmem : ' ' ∈ openCell := by rw [hv]; simp
          exact absurd hmem (by decide)
  · cases w with
    | nil => cases hw
    | cons c w =>
        obtain ⟨-, rfl⟩ := List.cons.inj hw
        exact ht ⟨w, b, by simp⟩

theorem tableRowRe_opens {u : List Char} {cs : Captures Char} (h : Parse (tableRowRe py) u cs) :
    openCell <+: u := by
  obtain ⟨a, s, b, t, c, -, -, -, -, -, rfl, -⟩ := parse_tableRowRe_iff.mp h
  exact List.prefix_append _ _

/-- No row begins where a text cannot be, or become, a `<th>`. -/
theorem quietBefore_of_incompatible {s t : List Char}
    (h : ∀ x ∈ s.tails, x ≠ [] → ¬ x <+: openCell ∧ ¬ openCell <+: x) :
    QuietBefore (tableRowRe py) s t := by
  rintro b a c rfl
  rw [first_eq_none_iff]
  intro u v cs hu hp
  have hmem : a :: c ∈ (b ++ a :: c).tails := (List.mem_tails _ _).mpr (List.suffix_append _ _)
  obtain ⟨hshort, hlong⟩ := h _ hmem (by simp)
  have hopen : openCell <+: a :: c ++ t := by
    rw [hu]
    exact (tableRowRe_opens hp).trans (List.prefix_append _ _)
  rcases List.prefix_or_prefix_of_prefix hopen (List.prefix_append _ _) with hpre | hpre
  · exact hlong hpre
  · exact hshort hpre

theorem findAll_tableRow_of_noOpen {s : List Char} (h : NoOpen s) :
    findAll (tableRowRe py) 0 s = [] := by
  have hquiet : QuietBefore (tableRowRe py) s [] := by
    rintro b a c rfl
    rw [first_eq_none_iff, List.append_nil]
    intro u v cs hu hp
    obtain ⟨rest, rfl⟩ := tableRowRe_opens hp
    exact h ⟨b, rest ++ v, by rw [hu]; simp⟩
  have hall := findAll_quiet hquiet
  rwa [List.append_nil] at hall

/-! ## A row -/

/-- The text of a cell. -/
def blanked (a : List Char) : List Char := ' ' :: (a ++ [' '])

/-- Three cells, one blank apart. -/
def cells (a b c : List Char) : List Char :=
  openCell ++ (blanked a ++ (closeCell ++ ([' '] ++ (openCell ++ (blanked b ++ (closeCell ++
    ([' '] ++ (openCell ++ (blanked c ++ closeCell)))))))))

theorem notOpening_blanked {a : List Char} (h : ∀ c ∈ a, notOpening c = true) :
    blanked a ≠ [] ∧ ∀ c ∈ blanked a, notOpening c = true := by
  refine ⟨by simp [blanked], ?_⟩
  simp only [blanked, List.forall_mem_cons, List.mem_append, List.mem_singleton]
  refine ⟨by decide, fun c hc => ?_⟩
  rcases hc with hc | rfl
  · exact h c hc
  · decide

theorem first_tableRowRe_cells {a b c t : List Char} (ha : ∀ x ∈ a, notOpening x = true)
    (hb : ∀ x ∈ b, notOpening x = true) (hc : ∀ x ∈ c, notOpening x = true) :
    first (tableRowRe py) (cells a b c ++ t) =
      some (cells a b c, [(1, blanked a), (2, blanked b), (3, blanked c)], t) := by
  have hblank : ∀ x ∈ [' '], py.space x = true := by simpa using py.space_blank
  refine first_eq_some (parse_tableRowRe_iff.mpr ⟨_, [' '], _, [' '], _, notOpening_blanked ha,
    hblank, notOpening_blanked hb, hblank, notOpening_blanked hc, rfl, rfl⟩) ?_
  intro u v cs h hp
  obtain ⟨a', s', b', t', c', ha', hs', hb', ht', hc', rfl, rfl⟩ := parse_tableRowRe_iff.mp hp
  simp only [cells, List.append_assoc, List.append_cancel_left_eq] at h
  obtain ⟨rfl, h₂⟩ := cell_cut (notOpening_blanked ha).2 ha'.2 h
  obtain ⟨rfl, h₃⟩ := space_cut py hblank hs' h₂
  obtain ⟨rfl, h₄⟩ := cell_cut (notOpening_blanked hb).2 hb'.2 (List.append_cancel_left h₃)
  obtain ⟨rfl, h₅⟩ := space_cut py hblank ht' h₄
  obtain ⟨rfl, -⟩ := cell_cut (notOpening_blanked hc).2 hc'.2 (List.append_cancel_left h₅)
  exact ⟨rfl, rfl⟩

end DdsRtps.Analysis
