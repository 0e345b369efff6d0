/-
# `DdsRtps.Benchmarking.ParallelPass` — a pass, with its jobs at once

`run_pass` and `wait_for_slot` of benchmarking/run_tests_parallel.sh.  A pass
starts a `run_pair` in the background for each of its pairs, but first waits
until fewer than `MAX_JOBS` of those it knows are alive: it asks `kill -0` for
one pid after the other, while the jobs go on and end.

`DdsRtps.Benchmarking.Retries` has a pass as one step, `runPass`.  Here jobs
and shell take their steps in any order, and what a pass leaves is what
`runPass` says (`pass_refines_runPass`).

The pid of a job is its number in the pass.  A pid can be used again for some
other process, so `kill -0` may say of a job that has ended that it is alive.
-/
import DdsRtps.Benchmarking.Retries
import DdsRtps.Lib.Transition
import Mathlib.Algebra.BigOperators.Group.List.Basic
import Mathlib.Algebra.GroupWithZero.Nat
import Mathlib.Data.List.Perm.Subperm

namespace DdsRtps.Benchmarking

open Transition

/-! ## The code -/

/-- Where a `run_pair` is: before its report is copied, behind that, or gone. -/
inductive JobState where
  | running
  | copied
  | ended
deriving DecidableEq, Repr

/-- A job in the background. -/
structure Job (n : Nat) where
  pair : Fin n
  state : JobState
deriving DecidableEq, Repr

/-- Where the shell is: in the loop of `wait_for_slot` over `RUNNING_PIDS`, with what
it has put into `alive`, in `wait`, or behind that. -/
inductive Phase where
  | scanning (pids alive : List Nat)
  | waiting
  | done
deriving DecidableEq, Repr

/-- The shell in `run_pass`, its jobs and the reports. -/
structure Pass (pairs : List Pair) where
  phase : Phase
  todo : List (Fin pairs.length)
  runningPids : List Nat
  jobs : List (Job pairs.length)
  reports : Reports

/-- `[ ${#RUNNING_PIDS[@]} -lt "$MAX_JOBS" ]`. -/
def slotFree (maxJobs : String) (running : Nat) : Bool :=
  (legalNumber maxJobs.toList).any fun v => (running : Int) < v

/-- The head of the loop of `run_pass`. -/
def enterLoop {n : Nat} (todo : List (Fin n)) (runningPids : List Nat) : Phase :=
  if todo = [] then .waiting else .scanning runningPids []

/-- Who takes a step. -/
inductive PassAct where
  | shell
  | job (pid : Nat)
deriving DecidableEq, Repr

section Code

variable {pairs : List Pair}

/-- The jobs that have not ended. -/
def Pass.alive (st : Pass pairs) : List Nat :=
  (List.range st.jobs.length).filter fun pid =>
    (st.jobs[pid]?).any fun job => job.state ≠ .ended

variable (outcome : Fin pairs.length → ReportFile) (maxJobs : String)

/-- A step of the shell or of a job. -/
inductive Pass.Step (st : Pass pairs) : PassAct → Pass pairs → Prop
  | probe {pid : Nat} {pids alive : List Nat} {answer : Bool} :
      st.phase = .scanning (pid :: pids) alive → (pid ∈ st.alive → answer = true) →
      Step st .shell
        { st with phase := .scanning pids (if answer then alive ++ [pid] else alive) }
  | sleep {alive : List Nat} : st.phase = .scanning [] alive →
      slotFree maxJobs alive.length = false →
      Step st .shell { st with phase := .scanning alive [], runningPids := alive }
  | start {alive : List Nat} {i : Fin pairs.length} {todo : List (Fin pairs.length)} :
      st.phase = .scanning [] alive → slotFree maxJobs alive.length = true → st.todo = i :: todo →
      Step st .shell { st with
        phase := enterLoop todo (alive ++ [st.jobs.length])
        todo := todo
        runningPids := alive ++ [st.jobs.length]
        jobs := st.jobs ++ [⟨i, .running⟩] }
  | wait : st.phase = .waiting → st.alive = [] →
      Step st .shell { st with phase := .done, runningPids := [] }
  | copy {pid : Nat} {i : Fin pairs.length} : st.jobs[pid]? = some ⟨i, .running⟩ →
      outcome i ≠ .absent →
      Step st (.job pid) { st with
        jobs := st.jobs.set pid ⟨i, .copied⟩
        reports := Function.update st.reports (labelAt pairs i) (outcome i) }
  | exit {pid : Nat} {i : Fin pairs.length} {s : JobState} : st.jobs[pid]? = some ⟨i, s⟩ →
      (s = .copied ∨ s = .running ∧ outcome i = .absent) →
      Step st (.job pid) { st with jobs := st.jobs.set pid ⟨i, .ended⟩ }

/-- All runs of a pass, over what is there before it. -/
def passSystem (indices : List (Fin pairs.length)) (before : Reports) :
    System (Pass pairs) PassAct where
  init st := st = ⟨enterLoop indices [], indices, [], [], before⟩
  step := Pass.Step outcome maxJobs

end Code

/-! ## What holds in every run -/

section Invariants

variable {pairs : List Pair} {outcome : Fin pairs.length → ReportFile} {maxJobs : String}
  {indices : List (Fin pairs.length)} {before : Reports}

/-- The pids that may still be alive, as far as the shell knows. -/
def Pass.tracked (st : Pass pairs) : List Nat :=
  match st.phase with
  | .scanning pids alive => alive ++ pids
  | .waiting => st.runningPids
  | .done => []

/-- How many jobs `MAX_JOBS` allows. -/
def jobLimit (maxJobs : String) : Nat := ((legalNumber maxJobs.toList).getD 0).toNat

@[simp] theorem tracked_scanning (pids alive : List Nat) (todo : List (Fin pairs.length))
    (runningPids : List Nat) (jobs : List (Job pairs.length)) (reports : Reports) :
    (⟨.scanning pids alive, todo, runningPids, jobs, reports⟩ : Pass pairs).tracked =
      alive ++ pids := rfl

variable (maxJobs indices) in
/-- What the shell has right: the order, the pids of the jobs that are alive, and how
many they are. -/
structure Pass.Throttled (st : Pass pairs) : Prop where
  order : st.jobs.map Job.pair ++ st.todo = indices
  tracked : ∀ pid ∈ st.alive, pid ∈ st.tracked
  few : st.tracked.length ≤ jobLimit maxJobs
  scanning : (∃ pids alive, st.phase = .scanning pids alive) ↔ st.todo ≠ []

theorem mem_alive_iff {st : Pass pairs} {pid : Nat} :
    pid ∈ st.alive ↔ ∃ job, st.jobs[pid]? = some job ∧ job.state ≠ .ended := by
  rw [Pass.alive, List.mem_filter, List.mem_range, Option.any_eq_true]
  constructor
  · rintro ⟨-, job, hjob, hstate⟩
    exact ⟨job, hjob, by simpa using hstate⟩
  · rintro ⟨job, hjob, hstate⟩
    exact ⟨(List.getElem?_eq_some_iff.mp hjob).1, job, hjob, by simpa using hstate⟩

/-- A job that has taken a step is still the job of its pair. -/
theorem map_pair_set {n : Nat} {jobs : List (Job n)} {pid : Nat} {i : Fin n} {s s' : JobState}
    (h : jobs[pid]? = some ⟨i, s⟩) : (jobs.set pid ⟨i, s'⟩).map Job.pair = jobs.map Job.pair := by
  obtain ⟨hlt, hjob⟩ := List.getElem?_eq_some_iff.mp h
  have hlt' : pid < (jobs.map Job.pair).length := by rwa [List.length_map]
  calc (jobs.set pid ⟨i, s'⟩).map Job.pair = (jobs.map Job.pair).set pid i := List.map_set
    _ = (jobs.map Job.pair).set pid (jobs.map Job.pair)[pid] := by rw [List.getElem_map, hjob]
    _ = jobs.map Job.pair := List.set_getElem_self hlt'

/-- A step of a job makes nobody alive. -/
theorem alive_of_set {st st' : Pass pairs} {pid : Nat} {i : Fin pairs.length} {s s' : JobState}
    (h : st.jobs[pid]? = some ⟨i, s⟩) (hs : s ≠ .ended)
    (hset : st'.jobs = st.jobs.set pid ⟨i, s'⟩) {q : Nat} (hq : q ∈ st'.alive) :
    q ∈ st.alive := by
  obtain ⟨job, hjob, hstate⟩ := mem_alive_iff.mp hq
  rw [hset, List.getElem?_set] at hjob
  rw [mem_alive_iff]
  split at hjob
  case isTrue heq => exact ⟨_, heq ▸ h, hs⟩
  case isFalse => exact ⟨job, hjob, hstate⟩

/-- What an exit is of had not ended. -/
theorem ne_ended_of_exit {i : Fin pairs.length} {s : JobState}
    (h : s = .copied ∨ s = .running ∧ outcome i = .absent) : s ≠ .ended := by
  rcases h with rfl | ⟨rfl, -⟩ <;> decide

theorem Pass.Throttled.of_job {st : Pass pairs} (h : st.Throttled maxJobs indices) {pid : Nat}
    {i : Fin pairs.length} {s : JobState} (hjob : st.jobs[pid]? = some ⟨i, s⟩) (hs : s ≠ .ended)
    (s' : JobState) (reports : Reports) :
    ({ st with jobs := st.jobs.set pid ⟨i, s'⟩, reports := reports } : Pass pairs).Throttled
      maxJobs indices where
  order := by
    rw [map_pair_set hjob]
    exact h.order
  tracked q hq := h.tracked q (alive_of_set hjob hs rfl hq)
  few := h.few
  scanning := h.scanning

/-- With a free slot there is room for one more. -/
theorem lt_jobLimit {n : Nat} (h : slotFree maxJobs n = true) : n < jobLimit maxJobs := by
  obtain ⟨v, hv, hlt⟩ := Option.any_eq_true _ _ |>.mp h
  have hn : (n : Int) < v := of_decide_eq_true hlt
  rw [jobLimit, hv, Option.getD_some]
  omega

/-- The pids that the loop goes on with are those that were known. -/
theorem tracked_enterLoop (todo : List (Fin pairs.length)) (pids : List Nat)
    (jobs : List (Job pairs.length)) (reports : Reports) :
    (⟨enterLoop todo pids, todo, pids, jobs, reports⟩ : Pass pairs).tracked = pids := by
  rw [enterLoop]
  split <;> rfl

theorem enterLoop_scanning_iff {n : Nat} {todo : List (Fin n)} {runningPids : List Nat} :
    (∃ pids alive, enterLoop todo runningPids = .scanning pids alive) ↔ todo ≠ [] := by
  constructor
  · rintro ⟨pids, alive, hphase⟩ rfl
    cases hphase
  · exact fun hne => ⟨runningPids, [], if_neg hne⟩

theorem Pass.Throttled.step {st st' : Pass pairs} {a : PassAct} (h : st.Throttled maxJobs indices)
    (hstep : Pass.Step outcome maxJobs st a st') : st'.Throttled maxJobs indices := by
  cases hstep with
  | @probe pid pids alive answer hphase halive =>
      have htracked : st.tracked = alive ++ pid :: pids := by rw [Pass.tracked, hphase]
      have htodo : st.todo ≠ [] := h.scanning.mp ⟨_, _, hphase⟩
      refine ⟨h.order, fun q hq => ?_, ?_, iff_of_true ⟨_, _, rfl⟩ htodo⟩
      · have hmem := h.tracked q hq
        rw [htracked, List.mem_append, List.mem_cons] at hmem
        rw [tracked_scanning]
        by_cases hpid : q = pid
        · have hyes : answer = true := halive (hpid ▸ hq)
          simp [hyes, hpid]
        · cases answer <;> simp <;> tauto
      · have hfew := h.few
        rw [htracked] at hfew
        refine le_trans ?_ hfew
        rw [tracked_scanning]
        cases answer <;> simp
  | @sleep alive hphase hfree =>
      have htracked : st.tracked = alive ++ [] := by rw [Pass.tracked, hphase]
      have htodo : st.todo ≠ [] := h.scanning.mp ⟨_, _, hphase⟩
      refine ⟨h.order, fun q hq => ?_, ?_, iff_of_true ⟨_, _, rfl⟩ htodo⟩
      · simpa [htracked] using h.tracked q hq
      · simpa [htracked] using h.few
  | @start alive i todo hphase hfree htodo =>
      have htracked : st.tracked = alive ++ [] := by rw [Pass.tracked, hphase]
      refine ⟨?_, fun q hq => ?_, ?_, enterLoop_scanning_iff⟩
      · simpa [htodo] using h.order
      · rw [tracked_enterLoop, List.mem_append, List.mem_singleton]
        obtain ⟨job, hjob, hstate⟩ := mem_alive_iff.mp hq
        rw [List.getElem?_append] at hjob
        split at hjob
        case isTrue =>
          left
          simpa [htracked] using h.tracked q (mem_alive_iff.mpr ⟨job, hjob, hstate⟩)
        case isFalse hge =>
          right
          have hlt := (List.getElem?_eq_some_iff.mp hjob).1
          rw [List.length_singleton] at hlt
          omega
      · rw [tracked_enterLoop, List.length_append]
        exact lt_jobLimit hfree
  | wait hphase halive =>
      have htodo : ¬st.todo ≠ [] := fun hne => by simpa [hphase] using h.scanning.mpr hne
      refine ⟨h.order, fun q hq => ?_, Nat.zero_le _, iff_of_false (by simp) htodo⟩
      have hq' : q ∈ st.alive := hq
      rw [halive] at hq'
      exact hq'
  | copy hjob hne => exact h.of_job hjob (by decide) _ _
  | exit hjob hs => exact h.of_job hjob (ne_ended_of_exit hs) .ended st.reports

theorem throttled_init (maxJobs : String) (indices : List (Fin pairs.length)) (before : Reports) :
    (⟨enterLoop indices [], indices, [], [], before⟩ : Pass pairs).Throttled maxJobs indices where
  order := rfl
  tracked pid hpid := by simp [Pass.alive] at hpid
  few := by
    rw [tracked_enterLoop]
    exact Nat.zero_le _
  scanning := enterLoop_scanning_iff

theorem throttled_of_reachable {st : Pass pairs}
    (h : (passSystem outcome maxJobs indices before).Reachable anyStep st) :
    st.Throttled maxJobs indices :=
  h.invariant _ (fun _ hinit => hinit ▸ throttled_init maxJobs indices before)
    fun _ _ _ hst _ hstep => hst.step hstep

variable (outcome before) in
/-- What is where a report goes: what the last job of that name has copied, or what was
there before. -/
structure Pass.Reported (st : Pass pairs) : Prop where
  hit : ∀ (pid : Nat) (i : Fin pairs.length) (s : JobState), st.jobs[pid]? = some ⟨i, s⟩ →
    s ≠ .running → outcome i ≠ .absent → st.reports (labelAt pairs i) = outcome i
  missed : ∀ label, (∀ (pid : Nat) (i : Fin pairs.length) (s : JobState),
    st.jobs[pid]? = some ⟨i, s⟩ → s ≠ .running → outcome i ≠ .absent → labelAt pairs i ≠ label) →
    st.reports label = before label

theorem Pass.Reported.copied {st : Pass pairs} (hinj : Function.Injective (labelAt pairs))
    (h : st.Reported outcome before) {pid : Nat} {i : Fin pairs.length}
    (hjob : st.jobs[pid]? = some ⟨i, .running⟩) (hne : outcome i ≠ .absent) :
    ({ st with
        jobs := st.jobs.set pid ⟨i, .copied⟩
        reports := Function.update st.reports (labelAt pairs i) (outcome i) } :
      Pass pairs).Reported outcome before := by
  have hnew : (st.jobs.set pid ⟨i, .copied⟩)[pid]? = some ⟨i, .copied⟩ :=
    List.getElem?_set_self (List.getElem?_eq_some_iff.mp hjob).1
  constructor
  · intro q j s hq hs hj
    by_cases hij : j = i
    · subst hij
      exact Function.update_self ..
    · have hlabel : labelAt pairs j ≠ labelAt pairs i := fun heq => hij (hinj heq)
      have hpq : pid ≠ q := by
        rintro rfl
        rw [hnew] at hq
        cases hq
        exact hij rfl
      refine (Function.update_of_ne hlabel _ _).trans ?_
      exact h.hit q j s (List.getElem?_set_ne hpq ▸ hq) hs hj
  · intro label hlabel
    have hi : labelAt pairs i ≠ label := hlabel pid i .copied hnew (by decide) hne
    refine (Function.update_of_ne hi.symm _ _).trans ?_
    refine h.missed label fun q j s hq hs hj => ?_
    by_cases hpq : pid = q
    · subst hpq
      rw [hjob] at hq
      cases hq
      exact hi
    · exact hlabel q j s (by rwa [List.getElem?_set_ne hpq]) hs hj

/-- An exit changes no report, and there is none to come. -/
theorem Pass.Reported.exited {st : Pass pairs} (h : st.Reported outcome before) {pid : Nat}
    {i : Fin pairs.length} {s : JobState} (hjob : st.jobs[pid]? = some ⟨i, s⟩)
    (hs : s = .copied ∨ s = .running ∧ outcome i = .absent) :
    ({ st with jobs := st.jobs.set pid ⟨i, .ended⟩ } : Pass pairs).Reported outcome before := by
  have hnew : (st.jobs.set pid ⟨i, .ended⟩)[pid]? = some ⟨i, .ended⟩ :=
    List.getElem?_set_self (List.getElem?_eq_some_iff.mp hjob).1
  -- where something was to copy, the job was behind that before its exit
  have hbehind : outcome i ≠ .absent → s ≠ .running := by
    rintro hne rfl
    rcases hs with hcopied | ⟨-, habsent⟩
    · cases hcopied
    · exact hne habsent
  constructor
  · intro q j s' hq hs' hj
    by_cases hpq : pid = q
    · subst hpq
      rw [hnew] at hq
      cases hq
      exact h.hit pid i s hjob (hbehind hj) hj
    · exact h.hit q j s' (List.getElem?_set_ne hpq ▸ hq) hs' hj
  · intro label hlabel
    refine h.missed label fun q j s' hq hs' hj => ?_
    by_cases hpq : pid = q
    · subst hpq
      rw [hjob] at hq
      cases hq
      exact hlabel pid i .ended hnew (by decide) hj
    · exact hlabel q j s' (by rwa [List.getElem?_set_ne hpq]) hs' hj

/-- A job that has just begun has copied nothing. -/
theorem Pass.Reported.started {st : Pass pairs} (h : st.Reported outcome before)
    (i : Fin pairs.length) (phase : Phase) (todo : List (Fin pairs.length))
    (runningPids : List Nat) :
    (⟨phase, todo, runningPids, st.jobs ++ [⟨i, .running⟩], st.reports⟩ : Pass pairs).Reported
      outcome before := by
  constructor
  · intro q j s hq hs hj
    rw [List.getElem?_append] at hq
    split at hq
    case isTrue => exact h.hit q j s hq hs hj
    case isFalse =>
      obtain ⟨-, hstate⟩ := Job.mk.inj (List.mem_singleton.mp (List.mem_of_getElem? hq))
      exact absurd hstate hs
  · intro label hlabel
    refine h.missed label fun q j s hq hs hj => hlabel q j s ?_ hs hj
    rw [List.getElem?_append_left (List.getElem?_eq_some_iff.mp hq).1]
    exact hq

theorem Pass.Reported.step (hinj : Function.Injective (labelAt pairs)) {st st' : Pass pairs}
    {a : PassAct} (h : st.Reported outcome before) (hstep : Pass.Step outcome maxJobs st a st') :
    st'.Reported outcome before := by
  cases hstep with
  | probe => exact ⟨h.hit, h.missed⟩
  | sleep => exact ⟨h.hit, h.missed⟩
  | start => exact h.started _ _ _ _
  | wait => exact ⟨h.hit, h.missed⟩
  | copy hjob hne => exact h.copied hinj hjob hne
  | exit hjob hs => exact h.exited hjob hs

theorem reported_of_reachable (hinj : Function.Injective (labelAt pairs)) {st : Pass pairs}
    (h : (passSystem outcome maxJobs indices before).Reachable anyStep st) :
    st.Reported outcome before := by
  refine h.invariant _ ?_ fun _ _ _ hst _ hstep => hst.step hinj hstep
  rintro _ rfl
  exact ⟨fun pid i s hjob => by simp at hjob, fun label _ => rfl⟩

/-- With every job gone, the reports are those of the pass as one step. -/
theorem Pass.Reported.eq_runPass (hinj : Function.Injective (labelAt pairs)) {st : Pass pairs}
    (h : st.Reported outcome before) (hjobs : st.jobs.map Job.pair = indices)
    (hgone : st.alive = []) : st.reports = runPass pairs outcome indices before := by
  have hended : ∀ (pid : Nat) (i : Fin pairs.length) (s : JobState),
      st.jobs[pid]? = some ⟨i, s⟩ → s = .ended := by
    intro pid i s hjob
    by_contra hs
    have hmem : pid ∈ st.alive := mem_alive_iff.mpr ⟨_, hjob, hs⟩
    rw [hgone] at hmem
    exact absurd hmem List.not_mem_nil
  have hmem_of (pid : Nat) (i : Fin pairs.length) (s : JobState)
      (hjob : st.jobs[pid]? = some ⟨i, s⟩) : i ∈ indices :=
    hjobs ▸ List.mem_map.mpr ⟨_, List.mem_of_getElem? hjob, rfl⟩
  funext label
  by_cases hlabel : ∃ i, labelAt pairs i = label
  · obtain ⟨i, rfl⟩ := hlabel
    rw [runPass_labelAt hinj]
    split
    case isTrue hi =>
      obtain ⟨job, hjob, rfl⟩ := List.mem_map.mp (hjobs ▸ hi.1)
      obtain ⟨pid, hpid⟩ := List.getElem?_of_mem hjob
      have hstate : job.state = .ended := hended pid job.pair job.state hpid
      exact h.hit pid job.pair job.state hpid (by rw [hstate]; decide) hi.2
    case isFalse hi =>
      refine h.missed _ fun pid j s hjob _ hj heq => hi ?_
      obtain rfl := hinj heq
      exact ⟨hmem_of pid j s hjob, hj⟩
  · rw [not_exists] at hlabel
    rw [runPass_of_forall_ne fun i _ => hlabel i]
    exact h.missed label fun _ i _ _ _ _ => hlabel i

/-! ## A pass comes to an end -/

/-- How far a job is from its end. -/
def JobState.ahead : JobState → Nat
  | .running => 2
  | .copied => 1
  | .ended => 0

/-- How many probes and sleeps the shell has before it, when all jobs are gone. -/
def Phase.ahead : Phase → Nat
  | .scanning pids alive => pids.length + 2 * alive.length
  | .waiting => 1
  | .done => 0

theorem ahead_scanning_nil (alive : List Nat) :
    (Phase.scanning [] alive).ahead = 2 * alive.length := Nat.zero_add _

/-- What is left to do. -/
def Pass.ahead (st : Pass pairs) : Nat :=
  (st.jobs.map fun job => job.state.ahead).sum + 4 * st.todo.length + st.phase.ahead

/-- What is ahead of the jobs gets less when one of them takes a step. -/
theorem sum_ahead_set_lt {n : Nat} {jobs : List (Job n)} {pid : Nat} {i : Fin n}
    {s s' : JobState} (hjob : jobs[pid]? = some ⟨i, s⟩) (hless : s'.ahead < s.ahead) :
    ((jobs.set pid ⟨i, s'⟩).map fun job => job.state.ahead).sum <
      (jobs.map fun job => job.state.ahead).sum := by
  induction jobs generalizing pid with
  | nil => simp at hjob
  | cons job jobs ih =>
      cases pid with
      | zero =>
          obtain rfl : job = ⟨i, s⟩ := Option.some.inj hjob
          simpa using hless
      | succ pid =>
          have hjob' : jobs[pid]? = some ⟨i, s⟩ := hjob
          simpa using ih hjob'

/-- Unless it is done, a pass can always get further. -/
theorem Pass.Throttled.exists_ahead_lt {st : Pass pairs} (h : st.Throttled maxJobs indices)
    (hfree : slotFree maxJobs 0 = true) (hdone : st.phase ≠ .done) :
    ∃ a st', Pass.Step outcome maxJobs st a st' ∧ st'.ahead < st.ahead := by
  by_cases halive : st.alive = []
  case neg =>
    obtain ⟨pid, hpid⟩ := List.exists_mem_of_ne_nil _ halive
    obtain ⟨⟨i, s⟩, hjob, hs⟩ := mem_alive_iff.mp hpid
    by_cases hcopy : s = .running ∧ outcome i ≠ .absent
    · obtain ⟨rfl, hne⟩ := hcopy
      refine ⟨_, _, .copy hjob hne, ?_⟩
      have hless := sum_ahead_set_lt hjob
        (show JobState.copied.ahead < JobState.running.ahead by decide)
      simp only [Pass.ahead]
      omega
    · have hexit : s = .copied ∨ s = .running ∧ outcome i = .absent := by
        cases s with
        | running => exact .inr ⟨rfl, not_not.mp fun hne => hcopy ⟨rfl, hne⟩⟩
        | copied => exact .inl rfl
        | ended => exact absurd rfl hs
      refine ⟨_, _, .exit hjob hexit, ?_⟩
      have hpos : JobState.ended.ahead < s.ahead := by
        rcases hexit with rfl | ⟨rfl, -⟩ <;> decide
      have hless := sum_ahead_set_lt hjob hpos
      simp only [Pass.ahead]
      omega
  case pos =>
    cases hphase : st.phase with
    | done => exact absurd hphase hdone
    | waiting =>
        refine ⟨_, _, .wait hphase halive, ?_⟩
        simp [Pass.ahead, Phase.ahead, hphase]
    | scanning pids alive =>
        cases pids with
        | cons pid pids =>
            have hgone : pid ∈ st.alive → false = true := by simp [halive]
            refine ⟨_, _, .probe hphase hgone, ?_⟩
            simp [Pass.ahead, Phase.ahead, hphase]
        | nil =>
            cases hslot : slotFree maxJobs alive.length with
            | false =>
                -- the shell knows of somebody, or it would not have to sleep
                have hsome : alive.length ≠ 0 := fun hzero => by
                  rw [hzero, hfree] at hslot
                  cases hslot
                refine ⟨_, _, .sleep hphase hslot, ?_⟩
                simp only [Pass.ahead, Phase.ahead, hphase, List.length_nil]
                omega
            | true =>
                cases htodo : st.todo with
                | nil => exact absurd htodo (h.scanning.mp ⟨_, _, hphase⟩)
                | cons i todo =>
                    refine ⟨_, _, .start hphase hslot htodo, ?_⟩
                    have hphase' : (enterLoop todo (alive ++ [st.jobs.length])).ahead ≤
                        alive.length + 1 := by
                      rw [enterLoop]
                      split <;> simp [Phase.ahead]
                    have hnew : JobState.running.ahead = 2 := rfl
                    simp only [Pass.ahead, hphase, htodo, ahead_scanning_nil, List.map_append,
                      List.map_cons, List.map_nil, List.sum_append, List.sum_cons, List.sum_nil,
                      List.length_cons, hnew]
                    omega

variable (outcome maxJobs) in
/-- All ways on from a state. -/
def passFrom (st : Pass pairs) : System (Pass pairs) PassAct where
  init st' := st' = st
  step := Pass.Step outcome maxJobs

theorem Pass.Throttled.exists_done {st : Pass pairs} (h : st.Throttled maxJobs indices)
    (hfree : slotFree maxJobs 0 = true) :
    ∃ st', (passFrom outcome maxJobs st).Reachable anyStep st' ∧ st'.phase = .done := by
  have hstart : (passFrom outcome maxJobs st).Reachable anyStep st := .init rfl
  obtain ⟨st', hreach, hleast⟩ := hstart.exists_minimal Pass.ahead
  refine ⟨st', hreach, ?_⟩
  by_contra hdone
  have hst' : st'.Throttled maxJobs indices :=
    hreach.invariant _ (fun _ hinit => hinit ▸ h) fun _ _ _ hst _ hstep => hst.step hstep
  obtain ⟨a, next, hstep, hless⟩ :
      ∃ a next, Pass.Step outcome maxJobs st' a next ∧ next.ahead < st'.ahead :=
    hst'.exists_ahead_lt hfree hdone
  exact absurd (hleast a next trivial hstep) (Nat.not_le.mpr hless)

/-! ## A pass -/

theorem Pass.Throttled.length_alive_le {st : Pass pairs} (h : st.Throttled maxJobs indices) :
    st.alive.length ≤ jobLimit maxJobs := by
  have hnodup : st.alive.Nodup := List.nodup_range.filter _
  have hsub : st.alive ⊆ st.tracked := h.tracked
  exact (List.subperm_of_subset hnodup hsub).length_le.trans h.few

theorem Pass.Throttled.alive_of_done {st : Pass pairs} (h : st.Throttled maxJobs indices)
    (hdone : st.phase = .done) : st.alive = [] := by
  have htracked : st.tracked = [] := by rw [Pass.tracked, hdone]
  exact List.eq_nil_iff_forall_not_mem.mpr fun pid hpid =>
    absurd (htracked ▸ h.tracked pid hpid) List.not_mem_nil

theorem Pass.Throttled.jobs_of_done {st : Pass pairs} (h : st.Throttled maxJobs indices)
    (hdone : st.phase = .done) : st.jobs.map Job.pair = indices := by
  have htodo : st.todo = [] := by
    by_contra hne
    simpa [hdone] using h.scanning.mpr hne
  rw [← h.order, htodo, List.append_nil]

/-- Never are more jobs alive than `MAX_JOBS` allows, and they start in the order of their
pairs.  When the pass is done they are all gone, each pair had one, and the reports are what
`runPass` says, whatever the order of the jobs was.  And a pass that may start a job at all
can always come to that. -/
theorem pass_refines_runPass {st : Pass pairs}
    (h : (passSystem outcome maxJobs indices before).Reachable anyStep st) :
    st.alive.length ≤ jobLimit maxJobs ∧ st.jobs.map Job.pair <+: indices ∧
      (st.phase = .done → st.alive = [] ∧ st.jobs.map Job.pair = indices ∧
        ((pairs.map Pair.label).Nodup → st.reports = runPass pairs outcome indices before)) ∧
      (slotFree maxJobs 0 = true →
        ∃ st', (passFrom outcome maxJobs st).Reachable anyStep st' ∧ st'.phase = .done) := by
  have hst := throttled_of_reachable h
  refine ⟨hst.length_alive_le, ⟨st.todo, hst.order⟩, fun hdone => ?_, hst.exists_done⟩
  have hgone := hst.alive_of_done hdone
  have hjobs := hst.jobs_of_done hdone
  refine ⟨hgone, hjobs, fun hnodup => ?_⟩
  have hreported := reported_of_reachable (labelAt_injective hnodup) h
  exact hreported.eq_runPass (labelAt_injective hnodup) hjobs hgone

end Invariants

/-- The first pair that runs. -/
def firstPair : Fin twoPairs.length := ⟨0, by decide⟩

/-- The second one. -/
def secondPair : Fin twoPairs.length := ⟨1, by decide⟩

/-- Both pairs are running. -/
def bothRun : Pass twoPairs :=
  ⟨.waiting, [], [0, 1], [⟨firstPair, .running⟩, ⟨secondPair, .running⟩], fun _ => .absent⟩

theorem reachable_bothRun :
    (passSystem (secondTry 1) "2" [firstPair, secondPair] fun _ => .absent).Reachable anyStep
      bothRun := by
  let one : Pass twoPairs :=
    ⟨.scanning [0] [], [secondPair], [0], [⟨firstPair, .running⟩], fun _ => .absent⟩
  let probed : Pass twoPairs := { one with phase := .scanning [] [0] }
  have hstart : Pass.Step (secondTry 1) "2"
      ⟨enterLoop [firstPair, secondPair] [], [firstPair, secondPair], [], [], fun _ => .absent⟩
      .shell one :=
    @Pass.Step.start _ _ _ _ [] firstPair [secondPair] rfl (by decide) rfl
  have hprobe : Pass.Step (secondTry 1) "2" one .shell probed :=
    @Pass.Step.probe _ _ _ _ 0 [] [] true rfl fun _ => rfl
  have hsecond : Pass.Step (secondTry 1) "2" probed .shell bothRun :=
    @Pass.Step.start _ _ _ _ [0] secondPair [] rfl (by decide) rfl
  exact .step (.step (.step (.init rfl) trivial hstart) trivial hprobe) trivial hsecond

/-- The second has left nothing, and the first its report. -/
def bothRan : Pass twoPairs :=
  ⟨.done, [], [], [⟨firstPair, .ended⟩, ⟨secondPair, .ended⟩],
    Function.update (fun _ => .absent) (labelAt twoPairs firstPair) .nonEmpty⟩

theorem reachable_bothRan :
    (passSystem (secondTry 1) "2" [firstPair, secondPair] fun _ => .absent).Reachable anyStep
      bothRan := by
  let without : Pass twoPairs :=
    { bothRun with jobs := [⟨firstPair, .running⟩, ⟨secondPair, .ended⟩] }
  let copied : Pass twoPairs :=
    { bothRan with
      phase := .waiting
      runningPids := [0, 1]
      jobs := [⟨firstPair, .copied⟩, ⟨secondPair, .ended⟩] }
  let gone : Pass twoPairs := { bothRan with phase := .waiting, runningPids := [0, 1] }
  have hexit : Pass.Step (secondTry 1) "2" bothRun (.job 1) without :=
    .exit rfl (.inr ⟨rfl, rfl⟩)
  have hcopy : Pass.Step (secondTry 1) "2" without (.job 0) copied := .copy rfl (by decide)
  have hend : Pass.Step (secondTry 1) "2" copied (.job 0) gone := .exit rfl (.inl rfl)
  have hwait : Pass.Step (secondTry 1) "2" gone .shell bothRan := .wait rfl (by decide)
  exact .step (.step (.step (.step reachable_bothRun trivial hexit) trivial hcopy) trivial hend)
    trivial hwait

theorem pass_refines_runPass_twoPairs :
    bothRun.alive.length = 2 ∧ bothRun.alive.length ≤ jobLimit "2" ∧ bothRan.alive = [] ∧
      bothRan.reports =
        runPass twoPairs (secondTry 1) [firstPair, secondPair] fun _ => .absent := by
  obtain ⟨hfew, -⟩ := pass_refines_runPass reachable_bothRun
  obtain ⟨-, -, hdone, -⟩ := pass_refines_runPass reachable_bothRan
  obtain ⟨hgone, -, hreports⟩ := hdone rfl
  exact ⟨by decide, hfew, hgone, hreports (by decide)⟩

end DdsRtps.Benchmarking
