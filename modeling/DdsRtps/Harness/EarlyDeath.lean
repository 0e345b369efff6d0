/-
# `DdsRtps.Harness.EarlyDeath` — a process that dies at its start

`pexpect.spawnu` raises when the executable cannot be started, and the process
ends there: its event is not set, and its slot still holds an `int`.

A run can always be continued until each process has ended or waits in vain
(`exists_complete_or_deadlocked`).  If one has died, it ends badly either way: in a
deadlock, or with the name of an `int`.  So the test case survives exactly the
runs in which no process dies (`survives_iff`).
-/
import DdsRtps.Harness.Shutdown
import Mathlib.Algebra.BigOperators.Fin
import Mathlib.Algebra.Order.BigOperators.Group.Finset

namespace DdsRtps.Harness

open Transition

variable {specs : List EntitySpec} {dies : Fin specs.length → Bool}

/-! ## How far a run is from its end -/

/-- A bound on the steps of `run_test` that are still to do. -/
def MainAt.weight (n : Nat) : MainAt → Nat
  | .starting k => n - k + n + 3
  | .joining k => n - k + 1
  | .done _ => 0

/-- A bound on the steps of the process of an entity and of its child. -/
def State.entityWeight {n : Nat} (s : State n) (i : Fin n) : Nat :=
  (s.phase i).weight + if s.eof i then 0 else 1

/-- A bound on the steps that are still to do. -/
def State.weight {n : Nat} (s : State n) : Nat :=
  ∑ i, s.entityWeight i + s.main.weight n

/-- One entity comes nearer to its end. -/
theorem weight_lt {n : Nat} {s s' : State n} {i : Fin n} (hmain : s'.main = s.main)
    (hother : ∀ q, q ≠ i → s'.entityWeight q ≤ s.entityWeight q)
    (hlt : s'.entityWeight i < s.entityWeight i) : s'.weight < s.weight := by
  have hsum : ∑ q, s'.entityWeight q < ∑ q, s.entityWeight q := by
    refine Finset.sum_lt_sum (fun q _ => ?_) ⟨i, Finset.mem_univ i, hlt⟩
    by_cases hq : q = i
    · subst hq
      exact hlt.le
    · exact hother q hq
  rw [State.weight, State.weight, hmain]
  omega

theorem weight_apply_lt {n : Nat} {s : State n} {i : Fin n} {e : Effect n} (heof : s.eof i = true)
    (hlt : e.phase.weight < (s.phase i).weight) : (s.apply i e).weight < s.weight := by
  refine weight_lt (i := i) rfl (fun q hq => ?_) ?_
  · rw [State.entityWeight, State.entityWeight, phase_apply_of_ne s i e hq]
    cases hended : s.eof q with
    | true => rw [eof_apply_mono s i e hended]
    | false => split <;> simp
  · rw [State.entityWeight, State.entityWeight, phase_apply_self, heof, eof_apply_mono s i e heof]
    exact Nat.add_lt_add_right hlt _

theorem weight_childEnds_lt {n : Nat} {s : State n} {i : Fin n} (heof : s.eof i = false) :
    ({ s with eof := Function.update s.eof i true } : State n).weight < s.weight := by
  refine weight_lt (i := i) rfl (fun q hq => ?_) ?_
  · simp [State.entityWeight, Function.update_of_ne hq]
  · simp [State.entityWeight, heof]

/-- Only where `run_test` is changes. -/
theorem weight_moved_lt {n : Nat} {s : State n} {place : MainAt}
    (hlt : place.weight n < s.main.weight n) :
    ({ s with main := place } : State n).weight < s.weight := by
  have hsame : ∑ q, State.entityWeight { s with main := place } q = ∑ q, s.entityWeight q := rfl
  rw [State.weight, State.weight, hsame]
  exact Nat.add_lt_add_left hlt _

theorem weight_mainTurns_lt {s s' : State specs.length} {output : Fin specs.length → List Char}
    (h : Inv dies s) (hturns : MainTurns s output s.main s') : s'.weight < s.weight := by
  have hmain := h.main
  generalize hat : s.main = place at hmain hturns
  cases hturns with
  | @starts k hk =>
      have hunstarted := (hmain.2 ⟨k, hk⟩).mpr le_rfl
      have hsum : ∑ q, State.entityWeight
          { s with main := .starting (k + 1), phase := Function.update s.phase ⟨k, hk⟩ .spawning } q ≤
          ∑ q, s.entityWeight q := by
        refine Finset.sum_le_sum fun q _ => ?_
        by_cases hq : q = ⟨k, hk⟩
        · subst hq
          simp [State.entityWeight, hunstarted, Phase.weight]
        · simp [State.entityWeight, Function.update_of_ne hq]
      rw [State.weight, State.weight, hat]
      simp only [MainAt.weight]
      omega
  | started hk =>
      refine weight_moved_lt ?_
      rw [hat]
      simp only [MainAt.weight]
      omega
  | joins hk hended =>
      refine weight_moved_lt ?_
      rw [hat]
      simp only [MainAt.weight]
      omega
  | joined hk =>
      refine weight_moved_lt ?_
      rw [hat]
      exact Nat.succ_pos _

/-! ## Where a run ends -/

/-- A blocked process does not step. -/
theorem turn_of_blocked {s : State specs.length} {i : Fin specs.length} (h : Blocked s i)
    (reply : Reply) : turn specs dies s i reply = none := by
  cases hturn : turn specs dies s i reply with
  | none => rfl
  | some e =>
      have hturns := turns_of_turn hturn
      obtain ⟨hstarted, hended, -⟩ := hturns.started
      rcases h with hun | hend | ⟨p, rest, hwaits, hunset⟩
      · exact absurd hun hstarted
      · rw [hend] at hended
        cases hended
      · rw [hwaits] at hturns
        cases hturns with
        | waits hset =>
            rw [hunset] at hset
            cases hset

/-- Every run can be continued until all is over, or nothing goes on. -/
theorem exists_complete_or_deadlocked {s : State specs.length}
    (h : (protocol specs dies).Reachable anyStep s) :
    ∃ t, (protocol specs dies).Reachable anyStep t ∧
      (t.complete ∨ Deadlocked specs dies t) := by
  obtain ⟨t, ht, hleast⟩ := h.exists_minimal State.weight
  have hinv := inv_of_reachable ht
  refine ⟨t, ht, ?_⟩
  -- no child is left to end, and no process can come nearer to its end
  have heof : ∀ i, t.eof i = true := by
    intro i
    cases hi : t.eof i with
    | true => rfl
    | false =>
        exact absurd (weight_childEnds_lt hi)
          (Nat.not_lt.mpr (hleast (.childEnds i) _ trivial rfl))
  have hblocked : ∀ i, Blocked t i := by
    intro i
    by_contra hfree
    obtain ⟨reply, e, hturn, hlt⟩ := exists_turn dies hfree
    refine absurd (weight_apply_lt (heof i) (hlt (heof i)))
      (Nat.not_lt.mpr (hleast (.turn i reply) _ trivial ?_))
    exact Option.map_eq_some_iff.mpr ⟨e, hturn, rfl⟩
  have hmain : ∀ output, mainStep specs t output = none := by
    intro output
    cases hstep : mainStep specs t output with
    | none => rfl
    | some t' =>
        exact absurd (weight_mainTurns_lt hinv (mainTurns_of_mainStep hstep))
          (Nat.not_lt.mpr (hleast (.main output) _ trivial hstep))
  by_cases hcomplete : t.complete
  · exact .inl hcomplete
  · refine .inr ⟨hcomplete, fun a ha => ?_⟩
    cases a with
    | main output => exact hmain output
    | turn i reply =>
        rw [step, turn_of_blocked (hblocked i)]
        rfl
    | childEnds i => cases ha

/-! ## What a test case survives -/

variable (specs dies) in
/-- No run hangs, and a run that ends has a result, which says so if a process
died. -/
structure Survives : Prop where
  noDeadlock : ∀ s, (protocol specs dies).Reachable anyStep s → ¬Deadlocked specs dies s
  recorded : ∀ s result, (protocol specs dies).Reachable anyStep s → s.main = .done result →
    ∃ r, result = .ok r ∧ ((∃ i, dies i = true) → r ≠ .passed)

/-- A process that died has left its slot as it was. -/
theorem raises_of_dies {s : State specs.length} (h : Inv dies s) {i : Fin specs.length}
    (hdies : dies i = true) {result : Except PyError CaseResult} (hdone : s.main = .done result) :
    result = .error .attributeError := by
  have hmain := h.main
  rw [hdone] at hmain
  obtain ⟨hended, output, rfl⟩ := hmain
  have hslot : s.codes i = none := by
    have hi := h.phase i
    have hend := hended i
    generalize s.phase i = phase at hi hend
    cases phase with
    | died => exact hi.2.2
    | exited =>
        rw [hi.1.lives] at hdies
        cases hdies
    | _ => cases hend
  refine evaluate_of_missing ⟨_, List.mem_map.mpr ⟨i, List.mem_finRange i, rfl⟩, ?_⟩
  exact hslot

/-- Where no process dies, every slot holds a code at the end. -/
theorem result_of_lives {s : State specs.length} (h : Inv dies s) (hlives : ∀ i, dies i = false)
    {result : Except PyError CaseResult} (hdone : s.main = .done result) :
    ∃ r, result = .ok r := by
  have hmain := h.main
  rw [hdone] at hmain
  obtain ⟨hended, output, rfl⟩ := hmain
  have hslot : ∀ i, ∃ code, s.codes i = some code := by
    intro i
    have hi := h.phase i
    have hend := hended i
    generalize s.phase i = phase at hi hend
    cases phase with
    | died =>
        have hdies := hi.1
        rw [hlives i] at hdies
        cases hdies
    | exited => exact Option.isSome_iff_exists.mp hi.2.1
    | _ => cases hend
  choose code hcode using hslot
  have hjoined : joined specs s output = ((List.finRange specs.length).map fun i =>
      (⟨specs[i].parameters, specs[i].expectedCode, code i, output i⟩ : Entity)).map
        Entity.joined := by
    rw [joined, List.map_map]
    refine List.map_congr_left fun i _ => ?_
    rw [hcode i]
    rfl
  rw [hjoined, evaluate, mapM_toEntity_joined, PyError.ok_bind]
  split
  · exact ⟨_, rfl⟩
  · exact ⟨_, rfl⟩

variable (specs dies) in
/-- A test case survives, exactly if no process dies at its start. -/
theorem survives_iff : Survives specs dies ↔ ∀ i, dies i = false := by
  constructor
  · intro h i
    cases hdies : dies i with
    | false => rfl
    | true =>
        have hstart : (protocol specs dies).Reachable anyStep (initial specs.length) := .init rfl
        obtain ⟨s, hs, hcomplete | hdead⟩ := exists_complete_or_deadlocked hstart
        · obtain ⟨⟨result, hdone⟩, -⟩ := hcomplete
          obtain ⟨r, hr, -⟩ := h.recorded s result hs hdone
          rw [raises_of_dies (inv_of_reachable hs) hdies hdone] at hr
          cases hr
        · exact absurd hdead (h.noDeadlock s hs)
  · intro hlives
    refine ⟨fun s hs => not_deadlocked (inv_of_reachable hs) hlives, fun s result hs hdone => ?_⟩
    obtain ⟨r, rfl⟩ := result_of_lives (inv_of_reachable hs) hlives hdone
    refine ⟨r, rfl, fun ⟨i, hdies⟩ => ?_⟩
    rw [hlives i] at hdies
    cases hdies

/-! ## A publisher that cannot be started -/

/-- The publisher dies at its start. -/
def publisherDies (i : Fin squarePair.length) : Bool := i = pairPublisher

/-- Both processes are started, and the publisher is joined.  The subscriber waits
for a topic in vain, and sets its event. -/
def schedule : List (Action squarePair.length) :=
  [.main fun _ => [], .main fun _ => [], .main fun _ => [], .turn pairPublisher .none,
    .main fun _ => [], .turn pairSubscriber .none, .turn pairSubscriber (.index 2),
    .turn pairSubscriber .none]

/-- The subscriber waits for ever for a publisher that has died. -/
theorem deadlocked_publisherDies :
    ∃ s, (protocol squarePair publisherDies).Reachable anyStep s ∧
      Deadlocked squarePair publisherDies s ∧ s.phase pairPublisher = .died ∧
      s.phase pairSubscriber = .waiting [pairPublisher] := by
  refine ⟨_, reachable_of_perform schedule (.init rfl) rfl, ⟨?_, ?_⟩, rfl, rfl⟩
  · rintro ⟨⟨result, hdone⟩, -⟩
    cases hdone
  · intro a ha
    cases a with
    | main output => rfl
    | turn i reply =>
        rw [step, turn_of_blocked]
        · rfl
        · obtain ⟨i, hi⟩ := i
          cases i with
          | zero => exact .inr (.inl rfl)
          | succ i =>
              cases i with
              | zero => exact .inr (.inr ⟨pairPublisher, [], rfl, rfl⟩)
              | succ i => exact absurd hi (by simp [squarePair])
    | childEnds i => cases ha

end DdsRtps.Harness
