/-
# `DdsRtps.Benchmarking.Retries` — the pairs that left no report

benchmarking/run_tests_parallel.sh runs all pairs, and then those again that
have no report or an empty one, `PAIR_RETRIES` times at most.  What is still
missing is written to missing_pairs.txt, and the script exits with 3; with 1 if
there is no report at all, before it comes to that.

`PAIR_RETRIES` is whatever the environment says.  What `[` does not take for a
number allows no retry, nor does a negative number; and no number of retries
gets above the largest number there is, so with that one the script goes on
until nothing is missing.
-/
import DdsRtps.Lib.Loop
import Mathlib.Algebra.Group.Int.Defs
import Mathlib.Algebra.Group.Nat.Defs
import Mathlib.Data.List.FinRange

namespace DdsRtps.Benchmarking

/-! ## The code -/

/-- A pair: the names of its executables, without `_shape_main_linux`. -/
structure Pair where
  pubName : String
  subName : String
deriving DecidableEq, Repr

/-- The name of a pair in `junit_report-...xml` and in missing_pairs.txt. -/
def Pair.label (p : Pair) : String := p.pubName ++ "---" ++ p.subName

/-- What is at the place of a report. -/
inductive ReportFile where
  | absent
  | empty
  | nonEmpty
deriving DecidableEq, Repr

/-- The reports in `$SCRIPT_DIR`, by label. -/
abbrev Reports := String → ReportFile

/-- `isspace`. -/
def isSpace (c : Char) : Bool :=
  c = ' ' || c = '\t' || c = '\n' || c = '\x0b' || c = '\x0c' || c = '\r'

/-- `strtoimax`: blanks, a sign and digits, with what stands behind them. -/
def strtoimax (text : List Char) : Option (Int × List Char) :=
  let trimmed := text.dropWhile isSpace
  let negative := trimmed.head? = some '-'
  let unsigned := if negative ∨ trimmed.head? = some '+' then trimmed.tail else trimmed
  let digits := unsigned.takeWhile Char.isDigit
  let size : Int := Nat.ofDigitChars 10 digits 0
  if digits = [] then none
  else some (if negative then -size else size, unsigned.dropWhile Char.isDigit)

/-- What `[` takes for a number: no more than blanks and tabs behind it, and not too large. -/
def legalNumber (text : List Char) : Option Int :=
  match strtoimax text with
  | none => none
  | some (value, rest) =>
      if rest.all (fun c => c = ' ' || c = '\t') ∧ -2 ^ 63 ≤ value ∧ value < 2 ^ 63 then some value
      else none

/-- `${PAIR_RETRIES:-2}`, as the loop reads it. -/
def pairRetries (env : Option String) : Option Int :=
  match env with
  | none => some 2
  | some text => if text = "" then some 2 else legalNumber text.toList

section Script

variable (pairs : List Pair)

/-- The label of the pair with an index. -/
def labelAt (i : Fin pairs.length) : String := pairs[i].label

/-- `run_pass`: each of the pairs runs, and what it leaves is copied; `.absent` is nothing
to copy. -/
def runPass (outcome : Fin pairs.length → ReportFile) (indices : List (Fin pairs.length))
    (reports : Reports) : Reports :=
  indices.foldl (fun reports i =>
    if outcome i = .absent then reports
    else Function.update reports (labelAt pairs i) (outcome i)) reports

/-- `collect_missing`. -/
def collectMissing (reports : Reports) : List (Fin pairs.length) :=
  (List.finRange pairs.length).filter fun i => reports (labelAt pairs i) ≠ .nonEmpty

/-- The variables of the script, and the passes that it has run. -/
structure State where
  passes : List (List (Fin pairs.length))
  reports : Reports
  missing : List (Fin pairs.length)
  attempt : Int64

/-- What the script leaves. -/
structure Finished where
  passes : List (List (Fin pairs.length))
  missingPairs : List String
  exitCode : Nat

variable (retries : Option Int) (outcome : Nat → Fin pairs.length → ReportFile)

/-- The first pass, of all pairs. -/
def start : State pairs :=
  let reports := runPass pairs (outcome 0) (List.finRange pairs.length) fun _ => .absent
  { passes := [List.finRange pairs.length]
    reports := reports
    missing := collectMissing pairs reports
    attempt := 1 }

/-- The head of the loop, and a retry. -/
def retryTurn (st : State pairs) : State pairs ⊕ State pairs :=
  if st.missing ≠ [] ∧ retries.any (fun v => st.attempt.toInt ≤ v) then
    let reports := runPass pairs (outcome st.passes.length) st.missing st.reports
    .inl {
      passes := st.passes ++ [st.missing]
      reports := reports
      missing := collectMissing pairs reports
      attempt := st.attempt + 1 }
  else .inr st

/-- Behind the loop; the reports are generated without an error. -/
def finish (st : State pairs) : Finished pairs where
  passes := st.passes
  missingPairs := st.missing.map (labelAt pairs)
  exitCode :=
    if ∀ i, st.reports (labelAt pairs i) = .absent then 1
    else if st.missing ≠ [] then 3
    else 0

end Script

/-- benchmarking/run_tests_parallel.sh, from the first pass on; `outcome` is what each pair
leaves in each pass. -/
def runTestsParallel (pairs : List Pair) (env : Option String)
    (outcome : Nat → Fin pairs.length → ReportFile) (fuel : Nat) : Option (Finished pairs) :=
  (Loop.run (retryTurn pairs (pairRetries env) outcome) fuel (start pairs outcome)).map
    (finish pairs)

/-! ## One pass -/

section Passes

variable {pairs : List Pair} {outcome : Fin pairs.length → ReportFile}

theorem mem_collectMissing_iff {reports : Reports} {i : Fin pairs.length} :
    i ∈ collectMissing pairs reports ↔ reports (labelAt pairs i) ≠ .nonEmpty := by
  rw [collectMissing, List.mem_filter, decide_eq_true_iff]
  exact and_iff_right (List.mem_finRange i)

/-- A report stays if no pair of its name runs. -/
theorem runPass_of_forall_ne {indices : List (Fin pairs.length)} {label : String}
    (h : ∀ i ∈ indices, labelAt pairs i ≠ label) (reports : Reports) :
    runPass pairs outcome indices reports label = reports label := by
  induction indices generalizing reports with
  | nil => rfl
  | cons i indices ih =>
      obtain ⟨hne, hrest⟩ := List.forall_mem_cons.mp h
      rw [runPass, List.foldl_cons, ← runPass, ih hrest]
      split
      · rfl
      · exact Function.update_of_ne hne.symm _ _

/-- Where the names are distinct, a report is what its own pair leaves. -/
theorem runPass_labelAt (hinj : Function.Injective (labelAt pairs))
    (indices : List (Fin pairs.length)) (reports : Reports) (i : Fin pairs.length) :
    runPass pairs outcome indices reports (labelAt pairs i) =
      if i ∈ indices ∧ outcome i ≠ .absent then outcome i else reports (labelAt pairs i) := by
  induction indices generalizing reports with
  | nil => simp [runPass]
  | cons j indices ih =>
      rw [runPass, List.foldl_cons, ← runPass, ih]
      by_cases hji : j = i
      · subst hji
        by_cases habsent : outcome j = .absent
        · simp [habsent]
        · simp [habsent]
      · have hne : labelAt pairs i ≠ labelAt pairs j := fun heq => hji (hinj heq).symm
        have hsame : (if outcome j = .absent then reports
            else Function.update reports (labelAt pairs j) (outcome j)) (labelAt pairs i) =
            reports (labelAt pairs i) := by
          split
          · rfl
          · exact Function.update_of_ne hne _ _
        rw [hsame]
        simp [Ne.symm hji]

end Passes

/-! ## All passes -/

section Protocol

variable (pairs : List Pair) (outcome : Nat → Fin pairs.length → ReportFile)

/-- The reports after so many passes. -/
def reportsAfter (passes : List (List (Fin pairs.length))) : Nat → Reports
  | 0 => fun _ => .absent
  | k + 1 => runPass pairs (outcome k) (passes[k]?.getD []) (reportsAfter passes k)

/-- A pair is covered after so many passes: its report is there, and not empty. -/
def Covered (passes : List (List (Fin pairs.length))) (k : Nat) (i : Fin pairs.length) : Prop :=
  reportsAfter pairs outcome passes k (labelAt pairs i) = .nonEmpty

instance (passes : List (List (Fin pairs.length))) (k : Nat) (i : Fin pairs.length) :
    Decidable (Covered pairs outcome passes k i) :=
  inferInstanceAs (Decidable (_ = _))

/-- **The protocol**: how often the passes are run and of which pairs, what is missing in the
end, and what the script exits with. -/
structure Protocol (env : Option String) (r : Finished pairs) : Prop where
  bound : r.passes.length ≤ 1 + ((pairRetries env).getD 0).toNat
  first : r.passes.head? = some (List.finRange pairs.length)
  retried : ∀ k, k + 1 < r.passes.length → r.passes[k + 1]? =
    some ((List.finRange pairs.length).filter fun i => ¬Covered pairs outcome r.passes (k + 1) i)
  missing : r.missingPairs = ((List.finRange pairs.length).filter fun i =>
    ∀ k ≤ r.passes.length, ¬Covered pairs outcome r.passes k i).map (labelAt pairs)
  zero : r.exitCode = 0 ↔ ∀ i, Covered pairs outcome r.passes r.passes.length i
  three : (∃ i, ¬Covered pairs outcome r.passes r.passes.length i) →
    (∃ i, reportsAfter pairs outcome r.passes r.passes.length (labelAt pairs i) ≠ .absent) →
    r.exitCode = 3
  one : (∀ i, reportsAfter pairs outcome r.passes r.passes.length (labelAt pairs i) = .absent) →
    r.exitCode = 1
  own : (pairs.map Pair.label).Nodup → ∀ k ≤ r.passes.length, ∀ i,
    Covered pairs outcome r.passes k i ↔
      ∃ j < k, i ∈ r.passes[j]?.getD [] ∧ outcome j i = .nonEmpty

/-- The pairs that a retry runs are those that were not covered before it. -/
def RetriesMissing (passes : List (List (Fin pairs.length))) : Prop :=
  ∀ k, k + 1 < passes.length → passes[k + 1]? =
    some (collectMissing pairs (reportsAfter pairs outcome passes (k + 1)))

/-- What the variables say of the passes so far. -/
structure State.Knows (st : State pairs) : Prop where
  reports : st.reports = reportsAfter pairs outcome st.passes st.passes.length
  missing : st.missing = collectMissing pairs st.reports
  attempt : st.attempt.toInt = st.passes.length
  first : st.passes.head? = some (List.finRange pairs.length)
  retried : RetriesMissing pairs outcome st.passes

variable {pairs outcome}

theorem collectMissing_reportsAfter (passes : List (List (Fin pairs.length))) (k : Nat) :
    collectMissing pairs (reportsAfter pairs outcome passes k) =
      (List.finRange pairs.length).filter fun i => ¬Covered pairs outcome passes k i :=
  rfl

/-- Later passes do not change what was there after the earlier ones. -/
theorem reportsAfter_append (passes : List (List (Fin pairs.length)))
    (pass : List (Fin pairs.length)) {k : Nat} (hk : k ≤ passes.length) :
    reportsAfter pairs outcome (passes ++ [pass]) k = reportsAfter pairs outcome passes k := by
  induction k with
  | zero => rfl
  | succ k ih =>
      rw [reportsAfter, reportsAfter, ih (by omega), List.getElem?_append_left (by omega)]

theorem knows_start : (start pairs outcome).Knows pairs outcome where
  reports := rfl
  missing := rfl
  attempt := rfl
  first := rfl
  retried k hk := absurd hk (by simp [start])

/-- A retry runs the pairs that are missing. -/
theorem State.Knows.retry {st : State pairs} (h : st.Knows pairs outcome)
    (hsize : st.passes.length < 2 ^ 63 - 1) {reports : Reports}
    (hreports : reports = runPass pairs (outcome st.passes.length) st.missing st.reports) :
    State.Knows pairs outcome {
      passes := st.passes ++ [st.missing]
      reports := reports
      missing := collectMissing pairs reports
      attempt := st.attempt + 1 } where
  reports := by
    simp only [List.length_append, List.length_singleton]
    rw [hreports, reportsAfter, reportsAfter_append _ _ le_rfl, h.reports,
      List.getElem?_concat_length, Option.getD_some]
  missing := rfl
  attempt := by
    simp only [List.length_append, List.length_singleton]
    rw [Int64.toInt_add, h.attempt]
    show ((st.passes.length : Int) + 1).bmod (2 ^ 64) = _
    rw [Int.bmod_eq_of_le (by omega) (by omega)]
    rfl
  first := by
    simp only [List.head?_append, h.first, Option.some_or]
  retried := by
    intro k hk
    simp only [List.length_append, List.length_singleton] at hk
    simp only
    rw [reportsAfter_append _ _ (by omega)]
    rcases Nat.lt_or_ge (k + 1) st.passes.length with hlt | hge
    · rw [List.getElem?_append_left hlt]
      exact h.retried k hlt
    · have hlast : k + 1 = st.passes.length := by omega
      rw [hlast, List.getElem?_concat_length, h.missing, h.reports]

/-- What is covered after one pass or more is not run again. -/
theorem Covered.succ {passes : List (List (Fin pairs.length))}
    (hretried : RetriesMissing pairs outcome passes)
    {k : Nat} {i : Fin pairs.length} (h : Covered pairs outcome passes k i)
    (hk : k < passes.length) : Covered pairs outcome passes (k + 1) i := by
  cases k with
  | zero => cases h
  | succ k =>
      rw [Covered, reportsAfter, hretried k hk, Option.getD_some, runPass_of_forall_ne]
      · exact h
      · intro j hj heq
        exact mem_collectMissing_iff.mp hj (heq ▸ h)

theorem Covered.of_le {passes : List (List (Fin pairs.length))}
    (hretried : RetriesMissing pairs outcome passes)
    {k m : Nat} {i : Fin pairs.length} (h : Covered pairs outcome passes k i) (hle : k ≤ m)
    (hm : m ≤ passes.length) : Covered pairs outcome passes m i := by
  induction m, hle using Nat.le_induction with
  | base => exact h
  | succ m hle ih => exact (ih (by omega)).succ hretried (by omega)

theorem labelAt_injective (hnodup : (pairs.map Pair.label).Nodup) :
    Function.Injective (labelAt pairs) := by
  intro i j heq
  have hlength : pairs.length = (pairs.map Pair.label).length := (List.length_map _).symm
  have hget : (pairs.map Pair.label).get (i.cast hlength) =
      (pairs.map Pair.label).get (j.cast hlength) := by
    simpa [labelAt] using heq
  exact Fin.cast_injective hlength (List.nodup_iff_injective_get.mp hnodup hget)

/-- With distinct names, a pair is covered if it left a report in a pass in which it ran. -/
theorem covered_iff (hnodup : (pairs.map Pair.label).Nodup)
    {passes : List (List (Fin pairs.length))} (hretried : RetriesMissing pairs outcome passes)
    {k : Nat} (hk : k ≤ passes.length) (i : Fin pairs.length) :
    Covered pairs outcome passes k i ↔
      ∃ j < k, i ∈ passes[j]?.getD [] ∧ outcome j i = .nonEmpty := by
  have hinj := labelAt_injective hnodup
  induction k with
  | zero => exact iff_of_false (by intro h; cases h) (by simp)
  | succ k ih =>
      have hbefore := ih (by omega)
      constructor
      · intro hcovered
        by_cases hold : Covered pairs outcome passes k i
        · obtain ⟨j, hj, hran⟩ := hbefore.mp hold
          exact ⟨j, by omega, hran⟩
        · rw [Covered, reportsAfter, runPass_labelAt hinj] at hcovered
          split at hcovered
          · rename_i hran
            exact ⟨k, by omega, hran.1, hcovered⟩
          · exact absurd hcovered hold
      · rintro ⟨j, hj, hran, hwrote⟩
        rcases Nat.lt_succ_iff_lt_or_eq.mp hj with hlt | rfl
        · exact (hbefore.mpr ⟨j, hlt, hran, hwrote⟩).succ hretried (by omega)
        · rw [Covered, reportsAfter, runPass_labelAt hinj, if_pos ⟨hran, by rw [hwrote]; decide⟩,
            hwrote]

/-- The loop is left with the pairs missing that were never covered. -/
theorem State.Knows.missing_iff {st : State pairs} (h : st.Knows pairs outcome) :
    st.missing = (List.finRange pairs.length).filter fun i =>
      ∀ k ≤ st.passes.length, ¬Covered pairs outcome st.passes k i := by
  rw [h.missing, h.reports, collectMissing_reportsAfter]
  refine List.filter_congr fun i _ => ?_
  rw [decide_eq_decide]
  constructor
  · intro hnot k hk hcovered
    exact hnot (hcovered.of_le h.retried hk le_rfl)
  · intro hall
    exact hall _ le_rfl

/-- What the script leaves, once the loop is left. -/
theorem State.Knows.protocol {st : State pairs} (h : st.Knows pairs outcome) (hne : pairs ≠ [])
    {env : Option String} (hbound : st.passes.length ≤ 1 + ((pairRetries env).getD 0).toNat) :
    Protocol pairs outcome env (finish pairs st) := by
  have hmissing : st.missing = [] ↔ ∀ i, Covered pairs outcome st.passes st.passes.length i := by
    rw [h.missing, h.reports, collectMissing_reportsAfter, List.filter_eq_nil_iff]
    simp only [List.mem_finRange, true_implies, decide_eq_true_eq, not_not]
  have hreports : ∀ i, reportsAfter pairs outcome (finish pairs st).passes
      (finish pairs st).passes.length (labelAt pairs i) = st.reports (labelAt pairs i) :=
    fun i => (congrFun h.reports (labelAt pairs i)).symm
  have hcode : (finish pairs st).exitCode =
      if ∀ i, st.reports (labelAt pairs i) = .absent then 1
      else if st.missing ≠ [] then 3 else 0 := rfl
  refine ⟨hbound, h.first, h.retried, ?_, ?_, ?_, ?_, fun hnodup k hk i =>
    covered_iff hnodup h.retried hk i⟩
  · exact congrArg (List.map (labelAt pairs)) h.missing_iff
  · rw [hcode]
    constructor
    · intro hzero
      split at hzero
      · cases hzero
      · split at hzero
        · cases hzero
        · rename_i hnone
          exact hmissing.mp (not_not.mp hnone)
    · intro hall
      have hpos : 0 < pairs.length := List.length_pos_iff.mpr hne
      have hsome : ¬∀ i, st.reports (labelAt pairs i) = .absent := by
        intro habsent
        have hcovered := hall ⟨0, hpos⟩
        rw [Covered, hreports, habsent] at hcovered
        cases hcovered
      rw [if_neg hsome, if_neg (not_not.mpr (hmissing.mpr hall))]
  · rintro ⟨i, hnot⟩ ⟨j, hpresent⟩
    rw [hreports] at hpresent
    rw [hcode, if_neg fun habsent => hpresent (habsent j),
      if_pos fun hnil => hnot (hmissing.mp hnil i)]
  · intro habsent
    rw [hcode, if_pos fun i => (hreports i).symm.trans (habsent i)]

/-! ## The whole run -/

theorem lt_of_legalNumber {text : List Char} {v : Int} (h : legalNumber text = some v) :
    v < 2 ^ 63 := by
  rw [legalNumber] at h
  split at h
  · cases h
  · split at h
    · rename_i hrange
      obtain rfl := Option.some.inj h
      exact hrange.2.2
    · cases h

theorem lt_of_pairRetries {env : Option String} {v : Int} (h : pairRetries env = some v) :
    v < 2 ^ 63 := by
  cases env with
  | none =>
      obtain rfl := Option.some.inj h
      decide
  | some text =>
      rw [pairRetries] at h
      split at h
      · obtain rfl := Option.some.inj h
        decide
      · exact lt_of_legalNumber h

/-- One turn: nothing is missing or the retries are used up, or the missing pairs run again. -/
theorem State.Knows.turn {st st' : State pairs} (h : st.Knows pairs outcome) {env : Option String}
    (hmax : pairRetries env ≠ some (2 ^ 63 - 1))
    (hturn : retryTurn pairs (pairRetries env) outcome st = .inl st') :
    st'.Knows pairs outcome ∧ st'.passes.length = st.passes.length + 1 ∧
      st.passes.length ≤ ((pairRetries env).getD 0).toNat := by
  rw [retryTurn] at hturn
  split at hturn
  · rename_i hcond
    obtain ⟨v, hv, hle⟩ := (Option.any_eq_true _ _).mp hcond.2
    rw [h.attempt, decide_eq_true_iff] at hle
    have hlt := lt_of_pairRetries hv
    have hne : v ≠ 2 ^ 63 - 1 := fun heq => hmax (heq ▸ hv)
    obtain rfl := Sum.inl.inj hturn
    refine ⟨h.retry (by omega) rfl, by simp, ?_⟩
    rw [hv, Option.getD_some]
    omega
  · cases hturn

/-- **The retry protocol**: the script ends, after one pass and the retries at most. -/
theorem retry_protocol (hne : pairs ≠ []) (env : Option String)
    (hmax : pairRetries env ≠ some (2 ^ 63 - 1)) :
    ∃ fuel r, runTestsParallel pairs env outcome fuel = some r ∧ Protocol pairs outcome env r := by
  have hinv : ∀ st st', (st.Knows pairs outcome ∧
      st.passes.length ≤ 1 + ((pairRetries env).getD 0).toNat) →
      retryTurn pairs (pairRetries env) outcome st = .inl st' →
      (st'.Knows pairs outcome ∧ st'.passes.length ≤ 1 + ((pairRetries env).getD 0).toNat) ∧
        1 + ((pairRetries env).getD 0).toNat - st'.passes.length <
          1 + ((pairRetries env).getD 0).toNat - st.passes.length := by
    rintro st st' ⟨hknows, -⟩ hturn
    obtain ⟨hknows', hlength, hle⟩ := hknows.turn hmax hturn
    exact ⟨⟨hknows', by omega⟩, by omega⟩
  have hstart : (start pairs outcome).Knows pairs outcome ∧
      (start pairs outcome).passes.length ≤ 1 + ((pairRetries env).getD 0).toNat :=
    ⟨knows_start, Nat.le_add_right 1 _⟩
  obtain ⟨st, hst⟩ := Option.isSome_iff_exists.mp (Loop.isSome_of_measure _ _ hinv _ _ hstart
    (Nat.lt_succ_self _))
  have hleft := Loop.post_of_inv _ (fun st => st.Knows pairs outcome ∧
      st.passes.length ≤ 1 + ((pairRetries env).getD 0).toNat)
    (fun st st' h hturn => (hinv st st' h hturn).1) ?_ _ _ _ hstart hst
  · exact ⟨_, _, by rw [runTestsParallel, hst]; rfl, hleft.1.protocol hne hleft.2⟩
  · intro st b h hturn
    rw [retryTurn] at hturn
    split at hturn
    · cases hturn
    · obtain rfl := Sum.inr.inj hturn
      exact h

/-- With the largest number of retries there is, the script waits for ever for a pair that never
leaves a report. -/
theorem runTestsParallel_eq_none (hnodup : (pairs.map Pair.label).Nodup) {env : Option String}
    (hmax : pairRetries env = some (2 ^ 63 - 1)) {i : Fin pairs.length}
    (hnever : ∀ k, outcome k i ≠ .nonEmpty) (fuel : Nat) :
    runTestsParallel pairs env outcome fuel = none := by
  have hstays : ∀ (k : Nat) (indices : List (Fin pairs.length)) (reports : Reports),
      reports (labelAt pairs i) ≠ .nonEmpty →
        i ∈ collectMissing pairs (runPass pairs (outcome k) indices reports) := by
    intro k indices reports hreport
    rw [mem_collectMissing_iff, runPass_labelAt (labelAt_injective hnodup)]
    split
    · exact hnever k
    · exact hreport
  rw [runTestsParallel, Option.map_eq_none_iff]
  refine Loop.run_eq_none_of_inv
    (fun st => st.missing = collectMissing pairs st.reports ∧ i ∈ st.missing) ?_ fuel _
    ⟨rfl, hstays 0 _ _ (by simp)⟩
  rintro st ⟨hmissing, hi⟩
  have hle : st.attempt.toInt ≤ 2 ^ 63 - 1 := Int.le_sub_one_of_lt st.attempt.toInt_lt
  refine ⟨_, if_pos ⟨List.ne_nil_of_mem hi, ?_⟩, rfl, hstays _ _ _ ?_⟩
  · rw [hmissing] at hi
    exact mem_collectMissing_iff.mp hi
  · rw [hmax, Option.any_some]
    exact decide_eq_true hle

end Protocol

/-! ## A pair that leaves no report -/

def onePair : List Pair := [⟨"connext_dds-7.7.0", "opendds-3.35.0-dev"⟩]

def noReports (_ : Nat) (_ : Fin onePair.length) : ReportFile := .absent

def twoPairs : List Pair :=
  [⟨"connext_dds-7.7.0", "opendds-3.35.0-dev"⟩, ⟨"connext_dds-7.7.0", "dust_dds-0.14.0"⟩]

/-- The first pair leaves an empty report, and a whole one when it runs again; the second
leaves none. -/
def secondTry (k : Nat) (i : Fin twoPairs.length) : ReportFile :=
  if i.val = 0 then if k = 0 then .empty else .nonEmpty else .absent

theorem runTestsParallel_le {pairs : List Pair} {env : Option String}
    {outcome : Nat → Fin pairs.length → ReportFile} {n m : Nat} {r : Finished pairs}
    (h : runTestsParallel pairs env outcome n = some r) (hle : n ≤ m) :
    runTestsParallel pairs env outcome m = some r := by
  obtain ⟨st, hst, rfl⟩ := Option.map_eq_some_iff.mp h
  rw [runTestsParallel, Loop.run_le hst hle]
  rfl

/-- All pairs run, both again, and the second once more. -/
theorem retry_protocol_twoPairs :
    ∃ fuel r, runTestsParallel twoPairs none secondTry fuel = some r ∧
      Protocol twoPairs secondTry none r ∧
      r.passes.map List.length = [2, 2, 1] ∧
      r.missingPairs = ["connext_dds-7.7.0---dust_dds-0.14.0"] ∧ r.exitCode = 3 := by
  obtain ⟨fuel, r, hrun, hprotocol⟩ := retry_protocol (by decide : twoPairs ≠ []) none
    (by decide)
  have hresult : (runTestsParallel twoPairs none secondTry 3).map
      (fun r => (r.passes.map List.length, r.missingPairs, r.exitCode)) =
        some ([2, 2, 1], ["connext_dds-7.7.0---dust_dds-0.14.0"], 3) := by decide +kernel
  obtain ⟨r', hrun', hr'⟩ := Option.map_eq_some_iff.mp hresult
  have hsame := (runTestsParallel_le hrun (le_max_left fuel 3)).symm.trans
    (runTestsParallel_le hrun' (le_max_right fuel 3))
  obtain rfl := Option.some.inj hsame
  obtain ⟨hpasses, hmissing⟩ := Prod.mk.inj hr'
  obtain ⟨hmissing, hcode⟩ := Prod.mk.inj hmissing
  exact ⟨fuel, r, hrun, hprotocol, hpasses, hmissing, hcode⟩

/-- Without any report the script exits with 1; a negative number of retries does not keep it
from its first pass, and with the largest it does not end. -/
theorem not_retry_protocol :
    (¬ ∀ (pairs : List Pair) (env : Option String) (outcome : Nat → Fin pairs.length → ReportFile)
        (fuel : Nat) (r : Finished pairs), (pairs.map Pair.label).Nodup →
        runTestsParallel pairs env outcome fuel = some r → r.missingPairs ≠ [] →
        r.exitCode = 3) ∧
      (¬ ∀ (pairs : List Pair) (env : Option String) (v : Int)
        (outcome : Nat → Fin pairs.length → ReportFile) (fuel : Nat) (r : Finished pairs),
        (pairs.map Pair.label).Nodup → pairRetries env = some v →
        runTestsParallel pairs env outcome fuel = some r → (r.passes.length : Int) ≤ 1 + v) ∧
      ¬ ∀ (pairs : List Pair) (env : Option String)
        (outcome : Nat → Fin pairs.length → ReportFile), (pairs.map Pair.label).Nodup →
        ∃ fuel r, runTestsParallel pairs env outcome fuel = some r := by
  have hnodup : (onePair.map Pair.label).Nodup := List.nodup_singleton _
  refine ⟨fun hall => ?_, fun hall => ?_, fun hall => ?_⟩
  · have hthree := hall onePair none noReports 3 _ hnodup rfl (by decide)
    exact absurd hthree (by decide)
  · have hbound := hall onePair (some "-1") (-1) noReports 1 _ hnodup (by decide +kernel) rfl
    exact absurd hbound (by decide)
  · obtain ⟨fuel, r, hrun⟩ := hall onePair (some "9223372036854775807") noReports hnodup
    have hzero : 0 < onePair.length := Nat.succ_pos 0
    rw [runTestsParallel_eq_none (i := ⟨0, hzero⟩) hnodup (by decide +kernel)
      fun k hk => by cases hk] at hrun
    cases hrun

end DdsRtps.Benchmarking
