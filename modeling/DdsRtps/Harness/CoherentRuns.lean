/-
# `DdsRtps.Harness.CoherentRuns` — the verdict on complete coherent sets

A subscriber that reads complete coherent sets delivers, in each cycle, a block
of three samples of every instance.  `_coherent_sets_w_instances` counts three
or four of them: four where the sample right before the block has the same
color, an instance of another topic or the last one of the cycle before
(`incomplete_iff`).  So its verdict on such a run is not a matter of the sets,
but of the order of the blocks (`fails_run_iff`).
-/
import DdsRtps.Harness.CoherentSets
import Mathlib.Algebra.BigOperators.Group.List.Basic

namespace DdsRtps.Harness

/-! ## Samples one after the other -/

/-- The color of the last sample so far. -/
def lastColor (previous : Option (List Char)) (is : List Instance) : Option (List Char) :=
  (is.getLast?.map Prod.snd).or previous

/-- How many samples of `first` have another sample right behind them. -/
def followed (first : Instance) : List Instance → Nat
  | i :: j :: is => (if i = first then 1 else 0) + followed first (j :: is)
  | _ => 0

/-- The counts after some samples. -/
def countSamples : Option (List Char) → (Instance → Option Nat) → List Instance →
    Instance → Option Nat
  | _, counts, [] => counts
  | previous, counts, i :: is =>
      countSamples (some i.2)
        (if previous = some i.2 then Function.update counts i (some ((counts i).getD 1 + 1))
        else counts) is

theorem lastColor_cons (previous : Option (List Char)) (i : Instance) (is : List Instance) :
    lastColor previous (i :: is) = lastColor (some i.2) is := by
  cases is with
  | nil => rfl
  | cons j is =>
      simp only [lastColor, List.getLast?_cons_cons]
      rw [List.getLast?_eq_some_getLast (List.cons_ne_nil j is)]
      rfl

theorem lastColor_append (previous : Option (List Char)) (is js : List Instance) :
    lastColor previous (is ++ js) = lastColor (lastColor previous is) js := by
  simp only [lastColor, List.getLast?_append, Option.map_or, Option.or_assoc]

theorem followed_toList_append (first : Instance) (i : Option Instance) (j : Instance)
    (js : List Instance) :
    followed first (i.toList ++ j :: js) =
      (if i = some first then 1 else 0) + followed first (j :: js) := by
  cases i with
  | none => simp
  | some i => simp [followed]

namespace Tally

/-- The loop reads samples. -/
def samples (first : Instance) : Option Instance → List Instance → Tally → Tally
  | _, [], t => t
  | i, j :: js, t => samples first (some j) js ((t.expectSample first i).sample j)

theorem samples_eq (first : Instance) (i : Option Instance) (js : List Instance) (t : Tally) :
    t.samples first i js =
      { previous := lastColor t.previous js
        counts := countSamples t.previous t.counts js
        anySample := t.anySample || !js.isEmpty
        ignored := t.ignored
        sets := t.sets
        total := t.total + js.length
        ofFirst := t.ofFirst + followed first (i.toList ++ js) } := by
  induction js generalizing i t with
  | nil => cases i <;> simp [samples, lastColor, countSamples, followed]
  | cons j js ih =>
      have hlater : (some j).toList ++ js = j :: js := rfl
      have hofFirst : (t.expectSample first i).ofFirst + followed first (j :: js) =
          t.ofFirst + followed first (i.toList ++ j :: js) := by
        have hfirst : (t.expectSample first i).ofFirst =
            if i = some first then t.ofFirst + 1 else t.ofFirst := rfl
        rw [followed_toList_append, hfirst]
        split <;> omega
      have htotal : t.total + 1 + js.length = t.total + (j :: js).length := by
        rw [List.length_cons]
        omega
      rw [samples, ih, lastColor_cons, hlater]
      exact Tally.mk.injEq .. |>.mpr
        ⟨rfl, rfl, by simp [sample], rfl, rfl, htotal, hofFirst⟩

variable {first : Instance} {expectedTotal : Nat}

theorem fails_samples_iff {js : List Instance} {events : List Event} {i : Option Instance}
    {t : Tally} (ht : t.ofFirst < 100) :
    t.Fails first expectedTotal (js.map .sample ++ events) i ↔
      (t.samples first i js).ofFirst < 100 ∧
        (t.samples first i js).Fails first expectedTotal events (js.getLast?.or i) := by
  induction js generalizing i t with
  | nil => exact ⟨fun h => ⟨ht, h⟩, fun h => h.2⟩
  | cons j js ih =>
      have hlast : (j :: js).getLast?.or i = js.getLast?.or (some j) := by
        rw [List.getLast?_cons]
        cases js.getLast? <;> rfl
      rw [hlast]
      constructor
      · rintro ⟨hlt, hf⟩
        have hlt' : ((t.expectSample first i).sample j).ofFirst < 100 := hlt
        exact (ih hlt').mp hf
      · intro h
        have hlt : ((t.expectSample first i).sample j).ofFirst < 100 := by
          have hle := h.1
          rw [samples, samples_eq] at hle
          exact lt_of_le_of_lt (Nat.le_add_right _ _) hle
        exact ⟨hlt, (ih hlt).mpr h⟩

/-- Samples alone are never judged. -/
theorem not_fails_samples (js : List Instance) (i : Option Instance) (t : Tally) :
    ¬ t.Fails first expectedTotal (js.map .sample) i := by
  induction js generalizing i t with
  | nil => exact id
  | cons j js ih =>
      rintro ⟨-, hf⟩
      exact ih _ _ hf

/-- A cycle that the loop reads to its end. -/
theorem fails_cycle_iff {js : List Instance} {events : List Event} {i : Option Instance}
    {t : Tally} (ht : t.ofFirst < 100) :
    t.Fails first expectedTotal (js.map .sample ++ .readingSets :: events) i ↔
      t.ofFirst + followed first (i.toList ++ js) < 100 ∧ t.sets + 1 ≤ 500 ∧
        ((t.samples first i js).expectSets.Incomplete expectedTotal ∨
          (t.samples first i js).expectSets.close.Fails first expectedTotal events none) := by
  rw [fails_samples_iff ht, Fails, samples_eq]
  constructor
  · rintro ⟨hlt, hsets, -, hf⟩
    exact ⟨hlt, hsets, hf⟩
  · rintro ⟨hlt, hsets, hf⟩
    exact ⟨hlt, hsets, hlt, hf⟩

end Tally

/-! ## Blocks of three -/

/-- A block for each of the instances. -/
def blocks (is : List Instance) : List Instance := is.flatMap fun i => [i, i, i]

theorem blocks_cons (i : Instance) (is : List Instance) :
    blocks (i :: is) = i :: i :: i :: blocks is := rfl

theorem lastColor_blocks (previous : Option (List Char)) (is : List Instance) :
    lastColor previous (blocks is) = lastColor previous is := by
  induction is generalizing previous with
  | nil => rfl
  | cons i is ih => simp only [blocks_cons, lastColor_cons, ih]

/-- No block stands right behind a sample of its own color, the first of them
behind a sample of the color `previous`. -/
def Apart (previous : Option (List Char)) (is : List Instance) : Prop :=
  (previous :: is.map fun i => some i.2).IsChain (· ≠ ·)

instance (previous : Option (List Char)) (is : List Instance) : Decidable (Apart previous is) :=
  inferInstanceAs (Decidable (List.IsChain _ _))

theorem apart_cons_iff {previous : Option (List Char)} {i : Instance} {is : List Instance} :
    Apart previous (i :: is) ↔ previous ≠ some i.2 ∧ Apart (some i.2) is := by
  rw [Apart, List.map_cons, List.isChain_cons_cons]
  rfl

/-- A block counts three, and four behind its own color. -/
theorem countSamples_block {previous : Option (List Char)} {counts : Instance → Option Nat}
    {i : Instance} (h : counts i = none) (is : List Instance) :
    countSamples previous counts (i :: i :: i :: is) =
      countSamples (some i.2)
        (Function.update counts i (some (if previous = some i.2 then 4 else 3))) is := by
  simp only [countSamples, if_true]
  split <;> simp [h]

theorem exists_countSamples_blocks_iff {previous : Option (List Char)}
    {counts : Instance → Option Nat} {is : List Instance} (hnodup : is.Nodup)
    (h : ∀ i ∈ is, counts i = none) :
    (∃ i n, countSamples previous counts (blocks is) i = some n ∧ n % 3 ≠ 0) ↔
      (∃ i n, counts i = some n ∧ n % 3 ≠ 0) ∨ ¬ Apart previous is := by
  induction is generalizing previous counts with
  | nil => simp [blocks, countSamples, Apart]
  | cons i is ih =>
      obtain ⟨hnot, hnodup⟩ := List.nodup_cons.mp hnodup
      rw [List.forall_mem_cons] at h
      have hrest : ∀ n, ∀ j ∈ is, Function.update counts i (some n) j = none := by
        intro n j hj
        have hne : j ≠ i := fun heq => hnot (heq ▸ hj)
        rw [Function.update_of_ne hne]
        exact h.2 j hj
      rw [blocks_cons, countSamples_block h.1, ih hnodup (hrest _), apart_cons_iff]
      have hone : (∃ j n, Function.update counts i
            (some (if previous = some i.2 then 4 else 3)) j = some n ∧ n % 3 ≠ 0) ↔
          (∃ j n, counts j = some n ∧ n % 3 ≠ 0) ∨ previous = some i.2 := by
        constructor
        · rintro ⟨j, n, hj, hn⟩
          by_cases hji : j = i
          · subst hji
            rw [Function.update_self] at hj
            obtain rfl := Option.some.inj hj
            by_contra hnone
            rw [not_or] at hnone
            rw [if_neg hnone.2] at hn
            exact hn rfl
          · rw [Function.update_of_ne hji] at hj
            exact .inl ⟨j, n, hj, hn⟩
        · rintro (⟨j, n, hj, hn⟩ | hprev)
          · have hji : j ≠ i := by
              rintro rfl
              rw [h.1] at hj
              cases hj
            exact ⟨j, n, by rw [Function.update_of_ne hji, hj], hn⟩
          · exact ⟨i, 4, by rw [Function.update_self, if_pos hprev], by decide⟩
      rw [hone, or_assoc, not_and_or, not_ne_iff]

/-! ## Cycles -/

/-- What the loop meets in a cycle. -/
def cycleEvents (is : List Instance) : List Event := (blocks is).map .sample ++ [.readingSets]

/-- A cycle of complete sets: a block for each of some instances, together a
multiple of `expectedTotal` samples. -/
structure Complete (expectedTotal : Nat) (is : List Instance) : Prop where
  nodup : is.Nodup
  dvd : expectedTotal ∣ (blocks is).length

/-- How many cycles have samples. -/
def withSamples (cycles : List (List Instance)) : Nat := cycles.countP (!·.isEmpty)

theorem withSamples_cons (is : List Instance) (cycles : List (List Instance)) :
    withSamples (is :: cycles) = withSamples cycles + if is = [] then 0 else 1 := by
  cases is with
  | nil => simp [withSamples]
  | cons i is => simp [withSamples]

namespace Tally

/-- Where a cycle begins. -/
def start (previous : Option (List Char)) (ignored sets ofFirst : Nat) : Tally where
  previous := previous
  counts _ := none
  anySample := false
  ignored := ignored
  sets := sets
  total := 0
  ofFirst := ofFirst

variable {first : Instance} {expectedTotal : Nat}

/-- The next cycle begins. -/
theorem close_of_anySample {t : Tally} (h : t.anySample = true) :
    t.close = start t.previous (t.ignored - 1) t.sets t.ofFirst :=
  if_pos h

/-- Where a complete cycle is judged, the verdict is one on the order of its
blocks. -/
theorem incomplete_samples_start_iff {previous : Option (List Char)} {ignored sets ofFirst : Nat}
    {is : List Instance} (h : Complete expectedTotal is) :
    ((start previous ignored sets ofFirst).samples first none (blocks is)).expectSets.Incomplete
        expectedTotal ↔ is ≠ [] ∧ ignored = 0 ∧ ¬ Apart previous is := by
  have hdvd : (0 + (blocks is).length) % expectedTotal = 0 := by
    rw [Nat.zero_add]
    exact Nat.mod_eq_zero_of_dvd h.dvd
  have hany : (false || !(blocks is).isEmpty) = true ↔ is ≠ [] := by
    cases is <;> simp [blocks]
  have hcounts : (∃ i n, countSamples previous (fun _ => none) (blocks is) i = some n ∧
      n % 3 ≠ 0) ↔ _ := exists_countSamples_blocks_iff h.nodup fun _ _ => rfl
  rw [samples_eq]
  simp only [expectSets, Incomplete, start, hdvd, hany, hcounts, ne_eq, not_true_eq_false,
    false_or, reduceCtorEq, false_and, exists_false]

theorem close_samples_start (previous : Option (List Char)) (ignored sets ofFirst : Nat)
    (is : List Instance) :
    ((start previous ignored sets ofFirst).samples first none (blocks is)).expectSets.close =
      start (lastColor previous is) (if is = [] then ignored else ignored - 1) (sets + 1)
        (ofFirst + followed first (blocks is)) := by
  rw [samples_eq, ← lastColor_blocks previous is]
  cases is with
  | nil => rfl
  | cons i is => rfl

/-- The run of complete cycles that the loop cannot pass. -/
theorem fails_run_iff {closed : List (List Instance)} {left : List Instance}
    {previous : Option (List Char)} {ignored sets ofFirst : Nat}
    (hclosed : ∀ is ∈ closed, Complete expectedTotal is) (hofFirst : ofFirst < 100) :
    (start previous ignored sets ofFirst).Fails first expectedTotal
        (closed.flatMap cycleEvents ++ left.map .sample) none ↔
      ∃ before is after, closed = before ++ is :: after ∧ is ≠ [] ∧
        ignored ≤ withSamples before ∧ sets + before.length + 1 ≤ 500 ∧
        ofFirst + ((before ++ [is]).map fun is => followed first (blocks is)).sum < 100 ∧
        ¬ Apart (lastColor previous before.flatten) is := by
  induction closed generalizing previous ignored sets ofFirst with
  | nil =>
      refine iff_of_false (not_fails_samples left none _) ?_
      rintro ⟨before, is, after, hnil, -⟩
      cases before <;> cases hnil
  | cons is closed ih =>
      obtain ⟨his, hclosed⟩ := List.forall_mem_cons.mp hclosed
      have hevents : (is :: closed).flatMap cycleEvents ++ left.map .sample =
          (blocks is).map .sample ++
            .readingSets :: (closed.flatMap cycleEvents ++ left.map .sample) := by
        simp [cycleEvents]
      rw [hevents, fails_cycle_iff hofFirst, incomplete_samples_start_iff his,
        close_samples_start]
      change ofFirst + followed first (blocks is) < 100 ∧ sets + 1 ≤ 500 ∧ _ ↔ _
      constructor
      · rintro ⟨hfollowed, hsets, ⟨hne, hignored, hapart⟩ | hlater⟩
        · exact ⟨[], is, closed, rfl, hne, by omega, hsets, by simpa using hfollowed, hapart⟩
        · obtain ⟨before, is', after, rfl, hne, hignored, hlen, hsum, hapart⟩ :=
            (ih hclosed hfollowed).mp hlater
          refine ⟨is :: before, is', after, rfl, hne, ?_, ?_, ?_, ?_⟩
          · rw [withSamples_cons]
            split at hignored <;> simp only [*, if_true, if_false] <;> omega
          · rw [List.length_cons]
            omega
          · rw [List.cons_append, List.map_cons, List.sum_cons]
            omega
          · rwa [List.flatten_cons, lastColor_append]
      · rintro ⟨before, is', after, hsplit, hne, hignored, hlen, hsum, hapart⟩
        cases before with
        | nil =>
            obtain ⟨rfl, rfl⟩ := List.cons.inj hsplit
            exact ⟨by simpa using hsum, hlen, .inl ⟨hne, Nat.le_zero.mp hignored, hapart⟩⟩
        | cons b before =>
            obtain ⟨rfl, rfl⟩ := List.cons.inj hsplit
            rw [List.cons_append, List.map_cons, List.sum_cons] at hsum
            rw [List.length_cons] at hlen
            rw [List.flatten_cons, lastColor_append] at hapart
            rw [withSamples_cons] at hignored
            have hfollowed : ofFirst + followed first (blocks is) < 100 := by omega
            refine ⟨hfollowed, by omega, .inr ((ih hclosed hfollowed).mpr
              ⟨before, is', after, rfl, hne, ?_, by omega, by omega, hapart⟩)⟩
            split at hignored <;> simp only [*, if_true, if_false] <;> omega

/-- Where the loop is entered: the first sample has been read. -/
def begun (i : Instance) : Tally where
  previous := some i.2
  counts _ := none
  anySample := true
  ignored := 2
  sets := 0
  total := 0
  ofFirst := 0

theorem tracks_begun (i : Instance) : Tracks i (CheckState.initial.readSample i) (begun i) where
  isFirst := CheckState.isFirst_readSample_initial i
  previous := rfl
  counts := by
    rw [CheckState.held_readSample]
    rfl
  anySample := rfl
  ignored := rfl
  sets := rfl
  total := rfl
  ofFirst := rfl
  produced := by
    intro hproduced
    cases hproduced

/-- The run of complete cycles, from its first sample on, that the loop cannot
pass. -/
theorem fails_begun_iff {closed : List (List Instance)} {left : List Instance} {i : Instance}
    {events : List Event} (hclosed : ∀ is ∈ closed, Complete expectedTotal is)
    (hrun : .sample i :: events = closed.flatMap cycleEvents ++ left.map .sample) :
    (begun i).Fails i expectedTotal events (some i) ↔
      ∃ before is after, closed = before ++ is :: after ∧ 2 ≤ withSamples before ∧
        before.length + 1 ≤ 500 ∧
        ((before ++ [is]).map fun is => followed i (blocks is)).sum < 100 ∧
        ¬ Apart (lastColor none before.flatten) is := by
  cases closed with
  | nil =>
      refine iff_of_false ?_ ?_
      · obtain ⟨j, left, rfl⟩ : ∃ j left', left = j :: left' := by
          cases left with
          | nil => cases hrun
          | cons j left => exact ⟨j, left, rfl⟩
        obtain ⟨-, rfl⟩ := List.cons.inj hrun
        exact not_fails_samples left _ _
      · rintro ⟨before, is, after, hnil, -⟩
        cases before <;> cases hnil
  | cons is closed =>
      obtain ⟨-, hlater⟩ := List.forall_mem_cons.mp hclosed
      cases is with
      | nil => cases hrun
      | cons j is =>
          have hcycle : ((j :: is) :: closed).flatMap cycleEvents ++ left.map .sample =
              .sample j :: ((j :: j :: blocks is).map .sample ++
                .readingSets :: (closed.flatMap cycleEvents ++ left.map .sample)) := by
            simp [cycleEvents, blocks_cons]
          rw [hcycle] at hrun
          obtain ⟨hij, rfl⟩ := List.cons.inj hrun
          obtain rfl := Event.sample.inj hij
          have hopen : (begun i).ofFirst < 100 := by simp [begun]
          -- the first cycle with samples is not judged
          have hjudged : ¬ ((begun i).samples i (some i) (i :: i :: blocks is)).expectSets.Incomplete
              expectedTotal := by
            rw [samples_eq]
            rintro ⟨-, hignored, -⟩
            cases hignored
          have hclose : ((begun i).samples i (some i) (i :: i :: blocks is)).expectSets.close =
              start (lastColor none (i :: is)) 1 1 (followed i (blocks (i :: is))) := by
            rw [samples_eq, close_of_anySample rfl, ← lastColor_blocks none (i :: is), blocks_cons]
            simp [start, begun, expectSets, lastColor_cons]
          rw [fails_cycle_iff hopen, hclose]
          have hzero : (begun i).ofFirst + followed i ((some i).toList ++ i :: i :: blocks is) =
              followed i (blocks (i :: is)) := Nat.zero_add _
          rw [hzero]
          constructor
          · rintro ⟨hfollowed, -, hbad | hfails⟩
            · exact absurd hbad hjudged
            · obtain ⟨before, is', after, rfl, -, hignored, hlen, hsum, hapart⟩ :=
                (fails_run_iff hlater hfollowed).mp hfails
              refine ⟨(i :: is) :: before, is', after, rfl, ?_, ?_, ?_, ?_⟩
              · rw [withSamples_cons, if_neg (List.cons_ne_nil i is)]
                omega
              · rw [List.length_cons]
                omega
              · rw [List.cons_append, List.map_cons, List.sum_cons]
                exact hsum
              · rwa [List.flatten_cons, lastColor_append]
          · rintro ⟨before, is', after, hsplit, hwith, hlen, hsum, hapart⟩
            cases before with
            | nil => simp [withSamples] at hwith
            | cons b before =>
                obtain ⟨rfl, rfl⟩ := List.cons.inj hsplit
                rw [withSamples_cons, if_neg (List.cons_ne_nil i is)] at hwith
                rw [List.length_cons] at hlen
                rw [List.cons_append, List.map_cons, List.sum_cons] at hsum
                rw [List.flatten_cons, lastColor_append] at hapart
                have hfollowed : followed i (blocks (i :: is)) < 100 := by omega
                have hne : is' ≠ [] := by
                  rintro rfl
                  exact hapart (by simp [Apart])
                exact ⟨hfollowed, by simp [begun], .inr ((fails_run_iff hlater hfollowed).mpr
                  ⟨before, is', after, rfl, hne, by omega, by omega, hsum, hapart⟩)⟩

end Tally

end DdsRtps.Harness
