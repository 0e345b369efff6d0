/-
# `DdsRtps.Harness.Shutdown` — how the processes of a test case end

Publishers wait for all subscribers, or for the end of their own child, and
subscribers wait for all publishers.  What a process has seen of the events
stays true, since no event is cleared; so where a process is says which events
are set (`PhaseOk`), and this is kept by every step (`inv_of_reachable`).

If no process dies at its start, a process that cannot step waits for a
publisher that can, and no deadlock is reachable (`not_deadlocked`).
-/
import DdsRtps.Harness.RunTest

namespace DdsRtps.Harness

open Transition

variable {specs : List EntitySpec}

/-- All events of a role are set. -/
def AllFinished (s : State specs.length) (r : Role) : Prop :=
  ∀ q, role specs q = r → s.finished q = true

/-- The list is of a role, and all events of the role that are not in it are
set. -/
def FinishedBut (s : State specs.length) (r : Role) (rest : List (Fin specs.length)) : Prop :=
  (∀ q ∈ rest, role specs q = r) ∧ ∀ q, role specs q = r → q ∈ rest ∨ s.finished q = true

/-- Here a code is written already: at the samples, and when the main part is
over. -/
def PublisherAt.hasCode : Option PublisherAt → Bool
  | none | some (.saving _) | some (.nextSample _) => true
  | _ => false

variable (dies : Fin specs.length → Bool)

/-- A process that is past its start. -/
structure Running (s : State specs.length) (i : Fin specs.length) (r : Role) (set : Bool) :
    Prop where
  role : role specs i = r
  lives : dies i = false
  finished : s.finished i = set

/-- What holds where a process is. -/
def PhaseOk (s : State specs.length) (i : Fin specs.length) : Phase specs.length → Prop
  | .unstarted | .spawning => s.finished i = false ∧ s.codes i = none
  | .publishing place => Running dies s i .publisher false ∧
      (PublisherAt.hasCode (some place) = true → (s.codes i).isSome = true)
  | .subscribing _ => Running dies s i .subscriber false
  | .draining rest => Running dies s i .publisher false ∧ (s.codes i).isSome = true ∧
      FinishedBut s .subscriber rest
  | .reading => Running dies s i .publisher false ∧ (s.codes i).isSome = true
  | .leaving => Running dies s i .publisher false ∧ (s.codes i).isSome = true ∧
      (AllFinished s .subscriber ∨ s.eof i = true)
  | .setting => Running dies s i .subscriber false ∧ (s.codes i).isSome = true
  | .waiting rest => Running dies s i .subscriber true ∧ (s.codes i).isSome = true ∧
      FinishedBut s .publisher rest
  | .stopping | .exited => Running dies s i (role specs i) true ∧ (s.codes i).isSome = true ∧
      (role specs i = .subscriber → AllFinished s .publisher)
  | .died => dies i = true ∧ s.finished i = false ∧ s.codes i = none

/-- What holds where `run_test` is. -/
def MainOk (s : State specs.length) : MainAt → Prop
  | .starting k => k ≤ specs.length ∧ ∀ i : Fin specs.length, s.phase i = .unstarted ↔ k ≤ i
  | .joining k => (∀ i, s.phase i ≠ .unstarted) ∧
      ∀ i : Fin specs.length, i < k → (s.phase i).ended = true
  | .done result => (∀ i, (s.phase i).ended = true) ∧
      ∃ output, result = evaluate (joined specs s output)

/-- What holds in every state that is reached. -/
structure Inv (s : State specs.length) : Prop where
  phase : ∀ i, PhaseOk dies s i (s.phase i)
  main : MainOk s s.main

variable {dies}

/-! ## What another process does -/

theorem FinishedBut.mono {s s' : State specs.length} {r : Role} {rest : List (Fin specs.length)}
    (hset : ∀ q, s.finished q = true → s'.finished q = true) (h : FinishedBut s r rest) :
    FinishedBut s' r rest :=
  ⟨h.1, fun q hq => (h.2 q hq).imp_right (hset q)⟩

theorem FinishedBut.nil {s : State specs.length} {r : Role} (h : FinishedBut s r []) :
    AllFinished s r :=
  fun q hq => (h.2 q hq).resolve_left List.not_mem_nil

theorem FinishedBut.tail {s : State specs.length} {r : Role} {q : Fin specs.length}
    {rest : List (Fin specs.length)} (h : FinishedBut s r (q :: rest))
    (hq : s.finished q = true) : FinishedBut s r rest := by
  refine ⟨fun p hp => h.1 p (List.mem_cons_of_mem _ hp), fun p hp => ?_⟩
  rcases h.2 p hp with hmem | hset
  · rcases List.mem_cons.mp hmem with rfl | hmem
    · exact .inr hq
    · exact .inl hmem
  · exact .inr hset

/-- Before a loop over the events of a role, nothing is known. -/
theorem finishedBut_ofRole (s : State specs.length) (r : Role) :
    FinishedBut s r (ofRole specs r) := by
  refine ⟨fun q hq => ?_, fun q hq => .inl ?_⟩
  · rw [ofRole, List.mem_filter] at hq
    exact of_decide_eq_true hq.2
  · rw [ofRole, List.mem_filter]
    exact ⟨List.mem_finRange q, decide_eq_true hq⟩

/-- What holds where a process is, still holds when others go on. -/
theorem PhaseOk.mono {s s' : State specs.length} {i : Fin specs.length}
    {phase : Phase specs.length} (hset : ∀ q, s.finished q = true → s'.finished q = true)
    (hfinished : s'.finished i = s.finished i) (hcodes : s'.codes i = s.codes i)
    (heof : s.eof i = true → s'.eof i = true) (h : PhaseOk dies s i phase) :
    PhaseOk dies s' i phase := by
  have hrunning : ∀ {r set}, Running dies s i r set → Running dies s' i r set :=
    fun hr => ⟨hr.role, hr.lives, hfinished.trans hr.finished⟩
  cases phase with
  | unstarted | spawning | died =>
      rw [PhaseOk, hfinished, hcodes]
      exact h
  | publishing place =>
      rw [PhaseOk, hcodes]
      exact ⟨hrunning h.1, h.2⟩
  | subscribing place => exact hrunning h
  | draining rest =>
      rw [PhaseOk, hcodes]
      exact ⟨hrunning h.1, h.2.1, h.2.2.mono hset⟩
  | reading | setting =>
      rw [PhaseOk, hcodes]
      exact ⟨hrunning h.1, h.2⟩
  | leaving =>
      rw [PhaseOk, hcodes]
      exact ⟨hrunning h.1, h.2.1, h.2.2.imp (fun hall q hq => hset q (hall q hq)) heof⟩
  | waiting rest =>
      rw [PhaseOk, hcodes]
      exact ⟨hrunning h.1, h.2.1, h.2.2.mono hset⟩
  | stopping | exited =>
      rw [PhaseOk, hcodes]
      exact ⟨hrunning h.1, h.2.1, fun hr q hq => hset q (h.2.2 hr q hq)⟩

/-- The events and the slots are all that matters, and which children have ended. -/
theorem PhaseOk.congr {s s' : State specs.length} {i : Fin specs.length}
    {phase : Phase specs.length} (h : PhaseOk dies s i phase)
    (hfinished : s'.finished = s.finished) (hcodes : s'.codes = s.codes)
    (heof : ∀ q, s.eof q = true → s'.eof q = true) : PhaseOk dies s' i phase :=
  h.mono (fun q hq => (congrFun hfinished q).trans hq) (congrFun hfinished i) (congrFun hcodes i)
    (heof i)

/-! ## What a process does -/

variable (dies) in
/-- The steps of the process of an entity, by where it is. -/
inductive Turns (s : State specs.length) (i : Fin specs.length) :
    Phase specs.length → Effect specs.length → Prop
  | dies : dies i = true → Turns s i .spawning { phase := .died }
  | publishes : dies i = false → role specs i = .publisher →
      Turns s i .spawning { phase := .publishing .topic }
  | subscribes : dies i = false → role specs i = .subscriber →
      Turns s i .spawning { phase := .subscribing .topic }
  | publishing {place next : PublisherAt} {code : Option ReturnCode} {reply : Reply} :
      publisherMain (writesSamples (specs.get i).parameters) (s.eof i) place reply =
        some (some next, code) →
      Turns s i (.publishing place) { phase := .publishing next, code := code }
  | published {place : PublisherAt} {code : Option ReturnCode} {reply : Reply} :
      publisherMain (writesSamples (specs.get i).parameters) (s.eof i) place reply =
        some (none, code) →
      Turns s i (.publishing place)
        { phase := .draining (ofRole specs .subscriber), code := code }
  | subscribing {place next : SubscriberAt} {code : Option ReturnCode} {reply : Reply} :
      subscriberMain (s.eof i) place reply = some (some next, code) →
      Turns s i (.subscribing place) { phase := .subscribing next, code := code }
  | subscribed {place : SubscriberAt} {code : Option ReturnCode} {reply : Reply} :
      subscriberMain (s.eof i) place reply = some (none, code) →
      Turns s i (.subscribing place) { phase := .setting, code := code }
  | drained : Turns s i (.draining []) { phase := .leaving }
  | sees {q : Fin specs.length} {rest : List (Fin specs.length)} : s.finished q = true →
      Turns s i (.draining (q :: rest)) { phase := .draining rest }
  | misses {q : Fin specs.length} {rest : List (Fin specs.length)} : s.finished q = false →
      Turns s i (.draining (q :: rest)) { phase := .reading }
  | reads : Turns s i .reading { phase := .draining (ofRole specs .subscriber) }
  | ends : s.eof i = true → Turns s i .reading { phase := .leaving }
  | leaves : Turns s i .leaving { phase := .stopping, sets := true }
  | sets : Turns s i .setting { phase := .waiting (ofRole specs .publisher), sets := true }
  | waited : Turns s i (.waiting []) { phase := .stopping }
  | waits {p : Fin specs.length} {rest : List (Fin specs.length)} : s.finished p = true →
      Turns s i (.waiting (p :: rest)) { phase := .waiting rest }
  | stops : Turns s i .stopping { phase := .exited, stops := true }

theorem turns_of_turn {s : State specs.length} {i : Fin specs.length} {reply : Reply}
    {e : Effect specs.length} (h : turn specs dies s i reply = some e) :
    Turns dies s i (s.phase i) e := by
  unfold turn at h
  split at h
  case h_1 hphase =>
    obtain rfl := Option.some.inj h
    rw [hphase]
    by_cases hdies : dies i = true
    · rw [if_pos hdies]
      exact .dies hdies
    · rw [if_neg hdies]
      have hlives : dies i = false := by simpa using hdies
      cases hrole : role specs i with
      | publisher => exact .publishes hlives hrole
      | subscriber => exact .subscribes hlives hrole
  case h_2 place reply hphase =>
    obtain ⟨⟨next, code⟩, hmain, rfl⟩ := Option.map_eq_some_iff.mp h
    rw [hphase]
    cases next with
    | none => exact .published hmain
    | some next => exact .publishing hmain
  case h_3 place reply hphase =>
    obtain ⟨⟨next, code⟩, hmain, rfl⟩ := Option.map_eq_some_iff.mp h
    rw [hphase]
    cases next with
    | none => exact .subscribed hmain
    | some next => exact .subscribing hmain
  case h_4 hphase =>
    obtain rfl := Option.some.inj h
    rw [hphase]
    exact .drained
  case h_5 q rest hphase =>
    obtain rfl := Option.some.inj h
    rw [hphase]
    cases hset : s.finished q with
    | true => exact .sees hset
    | false => exact .misses hset
  case h_6 hphase =>
    obtain rfl := Option.some.inj h
    rw [hphase]
    exact .reads
  case h_7 hphase =>
    obtain rfl := Option.some.inj h
    rw [hphase]
    exact .reads
  case h_8 hphase =>
    rw [hphase]
    by_cases heof : s.eof i = true
    · rw [if_pos heof] at h
      obtain rfl := Option.some.inj h
      exact .ends heof
    · rw [if_neg heof] at h
      cases h
  case h_9 hphase =>
    obtain rfl := Option.some.inj h
    rw [hphase]
    exact .leaves
  case h_10 hphase =>
    obtain rfl := Option.some.inj h
    rw [hphase]
    exact .sets
  case h_11 hphase =>
    obtain rfl := Option.some.inj h
    rw [hphase]
    exact .waited
  case h_12 p rest hphase =>
    rw [hphase]
    by_cases hset : s.finished p = true
    · rw [if_pos hset] at h
      obtain rfl := Option.some.inj h
      exact .waits hset
    · rw [if_neg hset] at h
      cases h
  case h_13 hphase =>
    obtain rfl := Option.some.inj h
    rw [hphase]
    exact .stops
  case h_14 => cases h

/-- The steps of `run_test`, by where it is. -/
inductive MainTurns (s : State specs.length) (output : Fin specs.length → List Char) :
    MainAt → State specs.length → Prop
  | starts {k : Nat} (hk : k < specs.length) :
      MainTurns s output (.starting k)
        { s with main := .starting (k + 1), phase := Function.update s.phase ⟨k, hk⟩ .spawning }
  | started {k : Nat} : specs.length ≤ k →
      MainTurns s output (.starting k) { s with main := .joining 0 }
  | joins {k : Nat} (hk : k < specs.length) : (s.phase ⟨k, hk⟩).ended = true →
      MainTurns s output (.joining k) { s with main := .joining (k + 1) }
  | joined {k : Nat} : specs.length ≤ k →
      MainTurns s output (.joining k) { s with main := .done (evaluate (joined specs s output)) }

theorem mainTurns_of_mainStep {s s' : State specs.length}
    {output : Fin specs.length → List Char} (h : mainStep specs s output = some s') :
    MainTurns s output s.main s' := by
  unfold mainStep at h
  split at h
  case h_1 k hat =>
    rw [hat]
    split at h
    · rename_i hk
      obtain rfl := Option.some.inj h
      exact .starts hk
    · rename_i hk
      obtain rfl := Option.some.inj h
      exact .started (Nat.le_of_not_lt hk)
  case h_2 k hat =>
    rw [hat]
    split at h
    · rename_i hk
      split at h
      · rename_i hended
        obtain rfl := Option.some.inj h
        exact .joins hk hended
      · cases h
    · rename_i hk
      obtain rfl := Option.some.inj h
      exact .joined (Nat.le_of_not_lt hk)
  case h_3 => cases h

/-! ## A step of a process -/

section Apply

variable {n : Nat} (s : State n) (i : Fin n) (e : Effect n)

@[simp] theorem phase_apply_self : (s.apply i e).phase i = e.phase := Function.update_self ..

theorem phase_apply_of_ne {q : Fin n} (h : q ≠ i) : (s.apply i e).phase q = s.phase q :=
  Function.update_of_ne h ..

@[simp] theorem finished_apply_self : (s.apply i e).finished i = (e.sets || s.finished i) := by
  rw [State.apply]
  cases e.sets with
  | true => exact Function.update_self ..
  | false => rfl

theorem finished_apply_of_ne {q : Fin n} (h : q ≠ i) :
    (s.apply i e).finished q = s.finished q := by
  rw [State.apply]
  cases e.sets with
  | true => exact Function.update_of_ne h ..
  | false => rfl

theorem finished_apply_mono {q : Fin n} (h : s.finished q = true) :
    (s.apply i e).finished q = true := by
  by_cases hq : q = i
  · subst hq
    rw [finished_apply_self, h, Bool.or_true]
  · rw [finished_apply_of_ne s i e hq, h]

theorem eof_apply_mono {q : Fin n} (h : s.eof q = true) : (s.apply i e).eof q = true := by
  rw [State.apply]
  cases e.stops with
  | true =>
      by_cases hq : q = i
      · subst hq
        exact Function.update_self ..
      · exact (Function.update_of_ne hq ..).trans h
  | false => exact h

theorem codes_apply_of_ne {q : Fin n} (h : q ≠ i) : (s.apply i e).codes q = s.codes q := by
  rw [State.apply]
  cases e.code with
  | none => rfl
  | some code => exact Function.update_of_ne h ..

@[simp] theorem codes_apply_self_isSome :
    ((s.apply i e).codes i).isSome = (e.code.isSome || (s.codes i).isSome) := by
  rw [State.apply]
  cases e.code with
  | none => rfl
  | some code => exact congrArg Option.isSome (Function.update_self i (some code) s.codes)

end Apply

/-- When the main part of a publisher is over, or at its samples, a code is
written. -/
theorem publisherMain_code {writes eof : Bool} {place : PublisherAt} {reply : Reply}
    {next : Option PublisherAt} {code : Option ReturnCode}
    (h : publisherMain writes eof place reply = some (next, code))
    (hnext : PublisherAt.hasCode next = true) :
    code.isSome = true ∨ PublisherAt.hasCode (some place) = true := by
  unfold publisherMain at h
  repeat' split at h
  all_goals cases h
  all_goals first | exact .inl rfl | exact .inr rfl | cases hnext

theorem subscriberMain_code {eof : Bool} {place : SubscriberAt} {reply : Reply}
    {code : Option ReturnCode} (h : subscriberMain eof place reply = some (none, code)) :
    code.isSome = true := by
  unfold subscriberMain at h
  repeat' split at h
  all_goals cases h
  all_goals rfl

/-- What holds where a process is, holds where it goes. -/
theorem phaseOk_turns {s : State specs.length} {i : Fin specs.length}
    {phase : Phase specs.length} {e : Effect specs.length} (h : PhaseOk dies s i phase)
    (hturns : Turns dies s i phase e) : PhaseOk dies (s.apply i e) i e.phase := by
  -- the events that are set stay set
  have hmono : ∀ {r rest}, FinishedBut s r rest → FinishedBut (s.apply i e) r rest :=
    fun hbut => hbut.mono fun q hq => finished_apply_mono s i e hq
  have hall : ∀ {r}, AllFinished s r → AllFinished (s.apply i e) r :=
    fun hset q hq => finished_apply_mono s i e (hset q hq)
  have hrunning : ∀ {r}, Running dies s i r false → e.sets = false →
      Running dies (s.apply i e) i r false :=
    fun hr hsets => ⟨hr.role, hr.lives, by rw [finished_apply_self, hsets, hr.finished]; rfl⟩
  have hset : ∀ {r set}, Running dies s i r set → e.sets = true ∨ set = true →
      Running dies (s.apply i e) i r true := by
    intro r set hr hsets
    refine ⟨hr.role, hr.lives, ?_⟩
    rw [finished_apply_self, hr.finished]
    rcases hsets with hsets | hsets
    · rw [hsets, Bool.true_or]
    · rw [hsets, Bool.or_true]
  have hcode : (s.codes i).isSome = true → ((s.apply i e).codes i).isSome = true := by
    intro hsome
    rw [codes_apply_self_isSome, hsome, Bool.or_true]
  cases hturns with
  | dies hdies => exact ⟨hdies, h.1, h.2⟩
  | publishes hlives hrole => exact ⟨⟨hrole, hlives, h.1⟩, nofun⟩
  | subscribes hlives hrole => exact ⟨hrole, hlives, h.1⟩
  | publishing hmain =>
      refine ⟨hrunning h.1 rfl, fun hnext => ?_⟩
      rw [codes_apply_self_isSome, Bool.or_eq_true]
      exact (publisherMain_code hmain hnext).imp_right h.2
  | published hmain =>
      refine ⟨hrunning h.1 rfl, ?_, finishedBut_ofRole _ _⟩
      rw [codes_apply_self_isSome, Bool.or_eq_true]
      exact (publisherMain_code hmain rfl).imp_right h.2
  | subscribing hmain => exact hrunning h rfl
  | subscribed hmain =>
      refine ⟨hrunning h rfl, ?_⟩
      rw [codes_apply_self_isSome, subscriberMain_code hmain, Bool.true_or]
  | drained => exact ⟨hrunning h.1 rfl, hcode h.2.1, .inl (hall h.2.2.nil)⟩
  | sees hq => exact ⟨hrunning h.1 rfl, hcode h.2.1, hmono (h.2.2.tail hq)⟩
  | misses hq => exact ⟨hrunning h.1 rfl, hcode h.2.1⟩
  | reads => exact ⟨hrunning h.1 rfl, hcode h.2, finishedBut_ofRole _ _⟩
  | ends heof => exact ⟨hrunning h.1 rfl, hcode h.2, .inr (eof_apply_mono s i _ heof)⟩
  | leaves =>
      have hrole := h.1.role
      refine ⟨hset ⟨rfl, h.1.lives, h.1.finished⟩ (.inl rfl), hcode h.2.1, fun hr => ?_⟩
      rw [hrole] at hr
      cases hr
  | sets => exact ⟨hset h.1 (.inl rfl), hcode h.2, finishedBut_ofRole _ _⟩
  | waited =>
      exact ⟨hset ⟨rfl, h.1.lives, h.1.finished⟩ (.inr rfl), hcode h.2.1,
        fun _ => hall h.2.2.nil⟩
  | waits hp => exact ⟨hset h.1 (.inr rfl), hcode h.2.1, hmono (h.2.2.tail hp)⟩
  | stops => exact ⟨hset h.1 (.inr rfl), hcode h.2.1, fun hr => hall (h.2.2 hr)⟩

/-- A process that steps is started and has not ended, and so it is after. -/
theorem Turns.started {s : State specs.length} {i : Fin specs.length}
    {phase : Phase specs.length} {e : Effect specs.length} (h : Turns dies s i phase e) :
    phase ≠ .unstarted ∧ phase.ended = false ∧ e.phase ≠ .unstarted := by
  cases h <;> exact ⟨nofun, rfl, nofun⟩

/-! ## The invariant -/

theorem inv_initial : Inv dies (initial specs.length) where
  phase _ := ⟨rfl, rfl⟩
  main := ⟨Nat.zero_le _, fun _ => ⟨fun _ => Nat.zero_le _, fun _ => rfl⟩⟩

/-- A step of a process leaves `run_test` where it is. -/
theorem mainOk_apply {s : State specs.length} {i : Fin specs.length} {e : Effect specs.length}
    {place : MainAt} (hmain : MainOk s place) (hturns : Turns dies s i (s.phase i) e) :
    MainOk (s.apply i e) place := by
  obtain ⟨hstarted, hended, hafter⟩ := hturns.started
  cases place with
  | starting k =>
      refine ⟨hmain.1, fun q => ?_⟩
      rw [← hmain.2 q]
      by_cases hq : q = i
      · subst hq
        rw [phase_apply_self]
        exact ⟨fun hun => absurd hun hafter, fun hun => absurd hun hstarted⟩
      · rw [phase_apply_of_ne s i e hq]
  | joining k =>
      refine ⟨fun q => ?_, fun q hk => ?_⟩
      · by_cases hq : q = i
        · subst hq
          rw [phase_apply_self]
          exact hafter
        · rw [phase_apply_of_ne s i e hq]
          exact hmain.1 q
      · by_cases hq : q = i
        · subst hq
          rw [hmain.2 q hk] at hended
          cases hended
        · rw [phase_apply_of_ne s i e hq]
          exact hmain.2 q hk
  | done result =>
      rw [hmain.1 i] at hended
      cases hended

theorem inv_turn {s : State specs.length} {i : Fin specs.length} {e : Effect specs.length}
    (h : Inv dies s) (hturns : Turns dies s i (s.phase i) e) : Inv dies (s.apply i e) := by
  refine ⟨fun q => ?_, mainOk_apply h.main hturns⟩
  by_cases hq : q = i
  · subst hq
    rw [phase_apply_self]
    exact phaseOk_turns (h.phase q) hturns
  · rw [phase_apply_of_ne s i e hq]
    exact (h.phase q).mono (fun p hp => finished_apply_mono s i e hp)
      (finished_apply_of_ne s i e hq) (codes_apply_of_ne s i e hq)
      (eof_apply_mono s i e)

/-- Only where `run_test` is changes. -/
theorem Inv.moved {s : State specs.length} (h : Inv dies s) {place : MainAt}
    (hplace : MainOk s place) : Inv dies { s with main := place } := by
  refine ⟨fun q => (h.phase q).congr rfl rfl fun _ hp => hp, ?_⟩
  cases place <;> exact hplace

/-- A process is started. -/
theorem inv_starts {s : State specs.length} (h : Inv dies s) {k : Nat} (hk : k < specs.length)
    (hat : s.main = .starting k) :
    Inv dies
      { s with main := .starting (k + 1), phase := Function.update s.phase ⟨k, hk⟩ .spawning } := by
  have hmain := h.main
  rw [hat] at hmain
  have hother : ∀ q : Fin specs.length, q ≠ ⟨k, hk⟩ →
      Function.update s.phase ⟨k, hk⟩ .spawning q = s.phase q :=
    fun q hq => Function.update_of_ne hq ..
  refine ⟨fun q => ?_, hk, fun q => ?_⟩
  · by_cases hq : q = ⟨k, hk⟩
    · subst hq
      have hunstarted := h.phase ⟨k, hk⟩
      rw [(hmain.2 ⟨k, hk⟩).mpr le_rfl] at hunstarted
      simp only [Function.update_self]
      exact hunstarted
    · simp only [hother q hq]
      exact (h.phase q).congr rfl rfl fun _ hp => hp
  · by_cases hq : q = ⟨k, hk⟩
    · subst hq
      simp only [Function.update_self]
      exact ⟨nofun, fun hle => absurd hle (Nat.not_succ_le_self k)⟩
    · simp only [hother q hq, hmain.2 q]
      have hne : (q : Nat) ≠ k := fun heq => hq (Fin.ext heq)
      omega

/-- What `run_test` itself does. -/
theorem inv_mainTurns {s s' : State specs.length} {output : Fin specs.length → List Char}
    (h : Inv dies s) (hturns : MainTurns s output s.main s') : Inv dies s' := by
  have hmain := h.main
  generalize hat : s.main = place at hmain hturns
  cases hturns with
  | starts hk => exact inv_starts h hk hat
  | started hk =>
      refine h.moved ⟨fun q hun => ?_, nofun⟩
      have hle := (hmain.2 q).mp hun
      exact absurd q.isLt (Nat.not_lt.mpr (hk.trans hle))
  | @joins k hk hended =>
      refine h.moved ⟨hmain.1, fun q hq => ?_⟩
      rcases Nat.lt_succ_iff_lt_or_eq.mp hq with hlt | heq
      · exact hmain.2 q hlt
      · obtain rfl : q = ⟨k, hk⟩ := Fin.ext heq
        exact hended
  | joined hk => exact h.moved ⟨fun q => hmain.2 q (q.isLt.trans_le hk), output, rfl⟩

theorem inv_of_reachable {s : State specs.length}
    (h : (protocol specs dies).Reachable anyStep s) : Inv dies s := by
  refine h.invariant (Inv dies) ?_ ?_
  · rintro s rfl
    exact inv_initial
  · intro s a s' hinv _ hstep
    cases a with
    | main output => exact inv_mainTurns hinv (mainTurns_of_mainStep hstep)
    | turn i reply =>
        obtain ⟨e, hturn, rfl⟩ := Option.map_eq_some_iff.mp hstep
        exact inv_turn hinv (turns_of_turn hturn)
    | childEnds i =>
        obtain rfl := Option.some.inj hstep
        refine ⟨fun q => (hinv.phase q).congr rfl rfl fun p hp => ?_, hinv.main⟩
        by_cases hpi : p = i
        · subst hpi
          exact Function.update_self ..
        · exact (Function.update_of_ne hpi ..).trans hp

/-! ## Who can step -/

/-- A process that cannot step: it is not started, it has ended, or it waits for an
event that is not set. -/
def Blocked (s : State specs.length) (i : Fin specs.length) : Prop :=
  s.phase i = .unstarted ∨ (s.phase i).ended = true ∨
    ∃ p rest, s.phase i = .waiting (p :: rest) ∧ s.finished p = false

/-- A bound on the steps that a process has still to do, when its child has
ended. -/
def Phase.weight {n : Nat} : Phase n → Nat
  | .unstarted => n + 9
  | .spawning => n + 8
  | .publishing _ | .subscribing _ => n + 7
  | .setting => n + 6
  | .draining rest => rest.length + 5
  | .waiting rest => rest.length + 4
  | .reading => 4
  | .leaving => 3
  | .stopping => 2
  | .exited | .died => 0

theorem length_ofRole_le (r : Role) : (ofRole specs r).length ≤ specs.length := by
  calc (ofRole specs r).length ≤ (List.finRange specs.length).length :=
        List.length_filter_le _ _
    _ = specs.length := List.length_finRange

/-- Every wait for the child can end the main part of a publisher. -/
theorem exists_publisherMain (writes eof : Bool) (place : PublisherAt) :
    ∃ reply code, publisherMain writes eof place reply = some (none, code) := by
  cases place with
  | topic | writer => exact ⟨.index 2, _, rfl⟩
  | reader | firstSample | nextSample => exact ⟨.index 3, _, rfl⟩
  | saving => exact ⟨.sample false, _, rfl⟩

theorem exists_subscriberMain (eof : Bool) (place : SubscriberAt) :
    ∃ reply code, subscriberMain eof place reply = some (none, code) := by
  cases place with
  | topic => exact ⟨.index 2, _, rfl⟩
  | reader => exact ⟨.index 3, _, rfl⟩
  | data => exact ⟨.index 4, _, rfl⟩
  | check => exact ⟨.code .ok, _, rfl⟩

variable (dies) in
/-- A process that is not blocked can step, and if its child has ended it can come
nearer to its own end. -/
theorem exists_turn {s : State specs.length} {i : Fin specs.length} (h : ¬Blocked s i) :
    ∃ reply e, turn specs dies s i reply = some e ∧
      (s.eof i = true → e.phase.weight < (s.phase i).weight) := by
  have hle : ∀ r, (ofRole specs r).length ≤ specs.length := length_ofRole_le
  unfold turn
  cases hphase : s.phase i with
  | unstarted => exact absurd (.inl hphase) h
  | exited | died => exact absurd (.inr (.inl (by rw [hphase]; rfl))) h
  | spawning =>
      refine ⟨.none, _, rfl, fun _ => ?_⟩
      simp only
      split
      · simp [Phase.weight]
      · split <;> simp [Phase.weight]
  | publishing place =>
      obtain ⟨reply, code, hmain⟩ :=
        exists_publisherMain (writesSamples specs[i].parameters) (s.eof i) place
      refine ⟨reply, { phase := .draining (ofRole specs .subscriber), code := code }, ?_,
        fun _ => ?_⟩
      · simp only [hmain, Option.map_some, Option.elim_none]
      · have hlen := hle .subscriber
        simp only [Phase.weight]
        omega
  | subscribing place =>
      obtain ⟨reply, code, hmain⟩ := exists_subscriberMain (s.eof i) place
      refine ⟨reply, { phase := .setting, code := code }, ?_, fun _ => ?_⟩
      · simp only [hmain, Option.map_some, Option.elim_none]
      · simp [Phase.weight]
  | draining rest =>
      cases rest with
      | nil => exact ⟨.none, _, rfl, fun _ => by simp [Phase.weight]⟩
      | cons q rest =>
          refine ⟨.none, _, rfl, fun _ => ?_⟩
          simp only
          split <;> simp [Phase.weight]
  | reading =>
      cases heof : s.eof i with
      | true => exact ⟨.eof, _, rfl, fun _ => by simp [Phase.weight]⟩
      | false => exact ⟨.data, _, rfl, fun heq => absurd heq Bool.false_ne_true⟩
  | leaving => exact ⟨.none, _, rfl, fun _ => by simp [Phase.weight]⟩
  | setting =>
      refine ⟨.none, _, rfl, fun _ => ?_⟩
      have hlen := hle .publisher
      simp only [Phase.weight]
      omega
  | waiting rest =>
      cases rest with
      | nil => exact ⟨.none, _, rfl, fun _ => by simp [Phase.weight]⟩
      | cons p rest =>
          cases hset : s.finished p with
          | true =>
              refine ⟨.none, { phase := .waiting rest }, by simp [hset], fun _ => ?_⟩
              simp [Phase.weight]
          | false => exact absurd (.inr (.inr ⟨p, rest, hphase, hset⟩)) h
  | stopping => exact ⟨.none, _, rfl, fun _ => by simp [Phase.weight]⟩

/-- If `run_test` cannot step, all is over, or it waits for a process that has not
ended. -/
theorem complete_or_waits {s : State specs.length} (h : Inv dies s)
    (hstuck : ∀ output, mainStep specs s output = none) :
    s.complete ∨ (∀ i, s.phase i ≠ .unstarted) ∧ ∃ i, (s.phase i).ended = false := by
  have hmain := h.main
  have hstuck := hstuck fun _ => []
  unfold mainStep at hstuck
  cases hat : s.main with
  | starting k =>
      simp only [hat] at hstuck
      split at hstuck <;> cases hstuck
  | joining k =>
      rw [hat] at hmain
      simp only [hat] at hstuck
      split at hstuck
      · rename_i hk
        split at hstuck
        · cases hstuck
        · rename_i hended
          exact .inr ⟨hmain.1, ⟨k, hk⟩, by simpa using hended⟩
      · cases hstuck
  | done result =>
      rw [hat] at hmain
      exact .inl ⟨⟨result, hat⟩, hmain.1⟩

/-- What is waited for in vain is a publisher that died. -/
theorem exists_died_of_blocked {s : State specs.length} (h : Inv dies s)
    (hblocked : ∀ i, Blocked s i) (hstarted : ∀ i, s.phase i ≠ .unstarted)
    {i : Fin specs.length} (hended : (s.phase i).ended = false) :
    ∃ p, role specs p = .publisher ∧ dies p = true := by
  rcases hblocked i with hun | hend | ⟨p, rest, hwaits, hunset⟩
  · exact absurd hun (hstarted i)
  · rw [hend] at hended
    cases hended
  · have hi := h.phase i
    rw [hwaits] at hi
    have hrole := hi.2.2.1 p List.mem_cons_self
    have hp := h.phase p
    refine ⟨p, hrole, ?_⟩
    rcases hblocked p with hun | hend | ⟨q, rest', hwaits', -⟩
    · exact absurd hun (hstarted p)
    · cases hphase : s.phase p with
      | died =>
          rw [hphase] at hp
          exact hp.1
      | exited =>
          rw [hphase] at hp
          rw [hp.1.finished] at hunset
          cases hunset
      | _ =>
          rw [hphase] at hend
          cases hend
    · rw [hwaits'] at hp
      rw [hp.1.role] at hrole
      cases hrole

/-- In a deadlock every process is blocked. -/
theorem Deadlocked.blocked {s : State specs.length} (h : Deadlocked specs dies s)
    (i : Fin specs.length) : Blocked s i := by
  by_contra hfree
  obtain ⟨reply, e, hturn, -⟩ := exists_turn dies hfree
  have hstuck := h.2 (.turn i reply) rfl
  rw [step, hturn] at hstuck
  cases hstuck

/-- If no process dies at its start, there is no deadlock. -/
theorem not_deadlocked {s : State specs.length} (h : Inv dies s)
    (hlives : ∀ i, dies i = false) : ¬Deadlocked specs dies s := by
  intro hdead
  rcases complete_or_waits h fun output => hdead.2 (.main output) rfl with
    hcomplete | ⟨hstarted, i, hended⟩
  · exact hdead.1 hcomplete
  · obtain ⟨p, -, hdies⟩ := exists_died_of_blocked h hdead.blocked hstarted hended
    rw [hlives p] at hdies
    cases hdies

/-! ## The shutdown protocol -/

theorem finished_mainStep {s s' : State specs.length} {output : Fin specs.length → List Char}
    (h : mainStep specs s output = some s') : s'.finished = s.finished := by
  have hturns := mainTurns_of_mainStep h
  generalize s.main = place at hturns
  cases hturns <;> rfl

/-- What a publisher has seen when it sets its event. -/
theorem allFinished_or_eof_of_sets {s s' : State specs.length} {a : Action specs.length}
    {p : Fin specs.length} (h : Inv dies s) (hrole : role specs p = .publisher)
    (hstep : step specs dies s a = some s') (hbefore : s.finished p = false)
    (hafter : s'.finished p = true) : AllFinished s .subscriber ∨ s.eof p = true := by
  cases a with
  | main output =>
      rw [finished_mainStep hstep, hbefore] at hafter
      cases hafter
  | childEnds i =>
      obtain rfl := Option.some.inj hstep
      rw [hbefore] at hafter
      cases hafter
  | turn i reply =>
      obtain ⟨e, hturn, rfl⟩ := Option.map_eq_some_iff.mp hstep
      obtain rfl : p = i := by
        by_contra hne
        rw [finished_apply_of_ne s i e hne, hbefore] at hafter
        cases hafter
      rw [finished_apply_self, hbefore, Bool.or_false] at hafter
      have hp := h.phase p
      have hturns := turns_of_turn hturn
      -- only two steps set an event, and one of them is a subscriber's
      generalize s.phase p = phase at hp hturns
      cases hturns with
      | leaves => exact hp.2.2
      | sets =>
          rw [hp.1.role] at hrole
          cases hrole
      | _ => cases hafter

/-- What a subscriber has seen when it stops its child. -/
theorem allFinished_of_stops {s : State specs.length} {i : Fin specs.length} {reply : Reply}
    {e : Effect specs.length} (h : Inv dies s) (hrole : role specs i = .subscriber)
    (hturn : turn specs dies s i reply = some e) (hstops : e.stops = true) :
    AllFinished s .publisher := by
  have hi := h.phase i
  have hturns := turns_of_turn hturn
  -- one step alone stops a child
  generalize s.phase i = phase at hi hturns
  cases hturns with
  | stops => exact hi.2.2 hrole
  | _ => cases hstops

/-- In every run of the protocol in which all children are started: there is no
deadlock; a publisher sets its event only when the events of all subscribers are set or
its own child has ended; and a subscriber stops its child only when the events of all
publishers are set. -/
theorem shutdown_protocol {s : State specs.length}
    (h : (protocol specs fun _ => false).Reachable anyStep s) :
    ¬Deadlocked specs (fun _ => false) s ∧
      (∀ p a s', role specs p = .publisher → step specs (fun _ => false) s a = some s' →
        s.finished p = false → s'.finished p = true →
          AllFinished s .subscriber ∨ s.eof p = true) ∧
      ∀ i reply e, role specs i = .subscriber →
        turn specs (fun _ => false) s i reply = some e → e.stops = true →
          AllFinished s .publisher := by
  have hinv := inv_of_reachable h
  refine ⟨not_deadlocked hinv fun _ => rfl, ?_, ?_⟩
  · intro p a s' hrole hstep hbefore hafter
    exact allFinished_or_eof_of_sets hinv hrole hstep hbefore hafter
  · intro i reply e hrole hturn hstops
    exact allFinished_of_stops hinv hrole hturn hstops

/-! ## A run of two processes -/

variable (specs dies) in
/-- The steps of a schedule, one after another. -/
def perform (s : State specs.length) : List (Action specs.length) → Option (State specs.length)
  | [] => some s
  | a :: schedule => (step specs dies s a).bind fun s => perform s schedule

theorem reachable_of_perform {s t : State specs.length} (schedule : List (Action specs.length))
    (h : (protocol specs dies).Reachable anyStep s) (ht : perform specs dies s schedule = some t) :
    (protocol specs dies).Reachable anyStep t := by
  induction schedule generalizing s with
  | nil =>
      obtain rfl := Option.some.inj ht
      exact h
  | cons a schedule ih =>
      obtain ⟨s', hstep, hrest⟩ := Option.bind_eq_some_iff.mp ht
      exact ih (h.step trivial hstep) hrest

/-- A publisher of squares and a subscriber. -/
def squarePair : List EntitySpec :=
  [⟨"-P -t Square", .publisher, by decide +kernel, .ok⟩,
    ⟨"-S -t Square", .subscriber, by decide +kernel, .ok⟩]

/-- The publisher of the pair. -/
def pairPublisher : Fin squarePair.length := ⟨0, by decide⟩

/-- The subscriber of the pair. -/
def pairSubscriber : Fin squarePair.length := ⟨1, by decide⟩

/-- Both wait for a topic in vain.  The publisher reads from its child until the
subscriber has set its event. -/
def untilDrained : List (Action squarePair.length) :=
  [.main fun _ => [], .main fun _ => [], .turn pairPublisher .none,
    .turn pairPublisher (.index 2), .turn pairPublisher .none, .turn pairSubscriber .none,
    .turn pairSubscriber (.index 2), .turn pairSubscriber .none, .turn pairPublisher .timeout,
    .turn pairPublisher .none, .turn pairPublisher .none]

/-- The publisher sets its event, and the subscriber sees it. -/
def untilWaited : List (Action squarePair.length) :=
  untilDrained ++ [.turn pairPublisher .none, .turn pairSubscriber .none,
    .turn pairSubscriber .none]

theorem shutdown_protocol_squarePair :
    (∃ s s', perform squarePair (fun _ => false) (initial squarePair.length) untilDrained = some s ∧
      step squarePair (fun _ => false) s (.turn pairPublisher .none) = some s' ∧
      s.finished pairPublisher = false ∧ s'.finished pairPublisher = true ∧
      AllFinished s .subscriber) ∧
    ∃ t e, perform squarePair (fun _ => false) (initial squarePair.length) untilWaited = some t ∧
      ¬Deadlocked squarePair (fun _ => false) t ∧
      turn squarePair (fun _ => false) t pairSubscriber .none = some e ∧ e.stops = true ∧
      AllFinished t .publisher := by
  constructor
  · refine ⟨_, _, rfl, rfl, rfl, rfl, ?_⟩
    have hsets := (shutdown_protocol (reachable_of_perform untilDrained (.init rfl) rfl)).2.1
      pairPublisher (.turn pairPublisher .none) _ rfl rfl rfl rfl
    -- its own child is still running
    exact hsets.resolve_right nofun
  · have hstops := shutdown_protocol (reachable_of_perform untilWaited (.init rfl) rfl)
    exact ⟨_, _, rfl, hstops.1, rfl, rfl, hstops.2.2 pairSubscriber .none _ rfl rfl rfl⟩

end DdsRtps.Harness
