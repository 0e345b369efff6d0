/-
# `DdsRtps.Harness.RunTest` — the processes of a test case

`run_test` of interoperability_report.py as a protocol: the process of
`run_test` itself, and for each entity a process that runs
`run_publisher_shape_main` or `run_subscriber_shape_main`.  They share an event
for each entity, and a list with a slot for the code of each.

A step is one step of one process, or the end of a child (`Action`).  What a
process is told, the index that `pexpect` returns or the code of the check
function, is part of the action, so that every choice is some run.

  * the events of a list are looked at one by one, as `all` and the loop over
    `wait` do it;
  * a child is ended by itself, at any time, or by `stop_process`; only then
    does `pexpect` report the end of the file;
  * a process for which `pexpect.spawnu` raises ends there.

The queues are left out: a `put` does not wait, and only the check function
takes from them.  When all processes are joined, the codes are compared
(`evaluate`): with all codes there, that is `runTest` (`evaluate_eq_runTest`).
-/
import DdsRtps.Harness.Report
import DdsRtps.Lib.PyError
import DdsRtps.Lib.Transition
import Mathlib.Data.List.FinRange
import Mathlib.Logic.Function.Basic

namespace DdsRtps.Harness

open Transition

/-! ## The entities -/

/-- An entity that `run_test` is called with.  One that is neither a publisher
nor a subscriber raises before there are any processes. -/
structure EntitySpec where
  parameters : String
  role : Role
  isRole : roleOf parameters = some role
  expectedCode : ReturnCode

/-- `'-w ' in parameters or parameters.endswith('-w')`. -/
def writesSamples (parameters : String) : Bool :=
  "-w ".toList <:+: parameters.toList || "-w".toList <:+ parameters.toList

/-- `MAX_SAMPLES_SAVED`. -/
def maxSamplesSaved : Nat := 500

/-! ## The main part of a process -/

/-- What a process is told in a step. -/
inductive Reply where
  /-- Nothing. -/
  | none
  /-- The index that `expect` returns. -/
  | index (k : Nat)
  /-- Whether the sample is found by `re.search`. -/
  | sample (found : Bool)
  /-- What the check function returns. -/
  | code (c : ReturnCode)
  /-- `read_nonblocking` returns. -/
  | data
  /-- `read_nonblocking` raises `pexpect.TIMEOUT`. -/
  | timeout
  /-- `read_nonblocking` raises `pexpect.EOF`. -/
  | eof
deriving DecidableEq, Repr

/-- Where `run_publisher_shape_main` waits for its child. -/
inductive PublisherAt where
  | topic
  | writer
  | reader
  | firstSample
  | saving (x : Nat)
  | nextSample (x : Nat)
deriving DecidableEq, Repr

/-- Where `run_subscriber_shape_main` does. -/
inductive SubscriberAt where
  | topic
  | reader
  | data
  | check
deriving DecidableEq, Repr

/-- The index that stands for the end of the file, which is the last one. -/
def expected (eofIndex : Nat) (eof : Bool) (k : Nat) : Bool := k < eofIndex || (k == eofIndex && eof)

/-- A step of the main part of a publisher: where it goes on, unless the main
part is over, and the code that is written. -/
def publisherMain (writes eof : Bool) :
    PublisherAt → Reply → Option (Option PublisherAt × Option ReturnCode)
  | .topic, .index k =>
      if !expected 3 eof k then none
      else if k = 2 ∨ k = 3 then some (none, some .topicNotCreated)
      else if k = 1 then some (none, some .pubUnsupportedFeature)
      else some (some .writer, none)
  | .writer, .index k =>
      if !expected 3 eof k then none
      else if k = 2 ∨ k = 3 then some (none, some .writerNotCreated)
      else if k = 1 then some (none, some .pubUnsupportedFeature)
      else some (some .reader, none)
  | .reader, .index k =>
      if !expected 4 eof k then none
      else if k = 3 ∨ k = 4 then some (none, some .readerNotMatched)
      else if k = 1 then some (none, some .incompatibleQos)
      else if k = 2 then some (none, some .pubUnsupportedFeature)
      else if writes then some (some .firstSample, none)
      else some (none, some .ok)
  | .firstSample, .index k =>
      if !expected 4 eof k then none
      else if k = 1 then some (none, some .deadlineMissed)
      else if k = 3 ∨ k = 4 then some (none, some .dataNotSent)
      else if k = 2 then some (none, some .pubUnsupportedFeature)
      else some (some (.saving 0), some .ok)
  | .saving x, .sample found =>
      if found then some (some (.nextSample x), none) else some (none, some .dataNotCorrect)
  | .nextSample x, .index k =>
      if !expected 4 eof k then none
      else if k = 1 then some (none, some .deadlineMissed)
      else if k = 2 then some (none, some .pubUnsupportedFeature)
      else if k = 3 ∨ k = 4 then some (none, some .dataNotSent)
      else if x + 1 < maxSamplesSaved then some (some (.saving (x + 1)), none)
      else some (none, none)
  | _, _ => none

/-- A step of the main part of a subscriber. -/
def subscriberMain (eof : Bool) :
    SubscriberAt → Reply → Option (Option SubscriberAt × Option ReturnCode)
  | .topic, .index k =>
      if !expected 3 eof k then none
      else if k = 2 ∨ k = 3 then some (none, some .topicNotCreated)
      else if k = 1 then some (none, some .subUnsupportedFeature)
      else some (some .reader, none)
  | .reader, .index k =>
      if !expected 4 eof k then none
      else if k = 3 ∨ k = 4 then some (none, some .readerNotCreated)
      else if k = 1 then some (none, some .filterNotCreated)
      else if k = 2 then some (none, some .subUnsupportedFeature)
      else some (some .data, none)
  | .data, .index k =>
      if !expected 5 eof k then none
      else if k = 1 then some (none, some .incompatibleQos)
      else if k = 2 then some (none, some .deadlineMissed)
      else if k = 4 ∨ k = 5 then some (none, some .dataNotReceived)
      else if k = 3 then some (none, some .subUnsupportedFeature)
      else some (some .check, none)
  | .check, .code c => some (none, some c)
  | _, _ => none

/-! ## The end of a test case -/

/-- An entity whose process is joined.  A slot that no code was written to holds
an `int`. -/
structure JoinedEntity where
  parameters : String
  expectedCode : ReturnCode
  slot : Option ReturnCode
  output : List Char

/-- The name of the code of an entity; an `int` has no `name`. -/
def JoinedEntity.toEntity (e : JoinedEntity) : Except PyError Entity :=
  match e.slot with
  | some code => .ok ⟨e.parameters, e.expectedCode, code, e.output⟩
  | none => .error .attributeError

/-- The end of `run_test`: the codes are compared, and if they differ the name of
every code goes into the message. -/
def evaluate (joined : List JoinedEntity) : Except PyError CaseResult :=
  if joined.all fun e => some e.expectedCode = e.slot then .ok .passed
  else do
    let entities ← joined.mapM JoinedEntity.toEntity
    let names := (entityTypes 0 0 entities).getD []
    let message := removeAnsiColors (rawMessage (names.zip entities))
    return if entities.any fun e => e.returnCode.isUnsupported then .skipped message
      else .failure message

/-- The entity with its code in the slot. -/
def Entity.joined (e : Entity) : JoinedEntity :=
  ⟨e.parameters, e.expectedCode, some e.returnCode, e.output⟩

theorem mapM_toEntity_joined (entities : List Entity) :
    (entities.map Entity.joined).mapM JoinedEntity.toEntity = .ok entities := by
  induction entities with
  | nil => rfl
  | cons e entities ih =>
      rw [List.map_cons, List.mapM_cons, ih]
      rfl

/-- With every code there, the end of the test case is the one that the codes
give. -/
theorem evaluate_eq_runTest {entities : List Entity} {result : CaseResult}
    (h : runTest entities = some result) : evaluate (entities.map Entity.joined) = .ok result := by
  obtain ⟨names, hnames, rfl⟩ := Option.map_eq_some_iff.mp h
  have hall : ((entities.map Entity.joined).all fun e => some e.expectedCode = e.slot) =
      entities.all fun e => e.expectedCode = e.returnCode := by
    rw [List.all_map]
    simp [Function.comp_def, Entity.joined]
  rw [evaluate, hall, mapM_toEntity_joined, PyError.ok_bind, hnames]
  simp only [Option.getD_some]
  split
  · rfl
  · rfl

/-- With a slot that holds an `int`, the end of the test case raises. -/
theorem evaluate_of_missing {joined : List JoinedEntity} (h : ∃ e ∈ joined, e.slot = none) :
    evaluate joined = .error .attributeError := by
  obtain ⟨e, he, hslot⟩ := h
  have hall : ¬(joined.all fun e => some e.expectedCode = e.slot) = true := by
    intro hall
    have hsame := of_decide_eq_true (List.all_eq_true.mp hall e he)
    rw [hslot] at hsame
    cases hsame
  have hraise : joined.mapM JoinedEntity.toEntity = .error .attributeError := by
    clear hall
    induction joined with
    | nil => cases he
    | cons a joined ih =>
        rw [List.mapM_cons]
        rcases List.mem_cons.mp he with rfl | he
        · rw [JoinedEntity.toEntity, hslot]
          rfl
        · rw [ih he]
          cases ha : a.slot with
          | none =>
              rw [JoinedEntity.toEntity, ha]
              rfl
          | some code =>
              rw [JoinedEntity.toEntity, ha]
              rfl
  rw [evaluate, if_neg hall, hraise]
  rfl

/-! ## The protocol -/

/-- Where a process is. -/
inductive Phase (n : Nat) where
  | unstarted
  | spawning
  | publishing (place : PublisherAt)
  | subscribing (place : SubscriberAt)
  /-- A publisher looks at the events of the subscribers; these are left. -/
  | draining (rest : List (Fin n))
  /-- A publisher reads from its child. -/
  | reading
  /-- A publisher has left the loop, and sets its event. -/
  | leaving
  /-- A subscriber sets its event. -/
  | setting
  /-- A subscriber waits for the publishers; these are left. -/
  | waiting (rest : List (Fin n))
  /-- The child is stopped. -/
  | stopping
  | exited
  /-- Ended by an exception. -/
  | died
deriving DecidableEq, Repr

/-- The process is no more. -/
def Phase.ended {n : Nat} : Phase n → Bool
  | .exited | .died => true
  | _ => false

/-- Where `run_test` is. -/
inductive MainAt where
  /-- Starting the processes; so many are started. -/
  | starting (k : Nat)
  /-- Joining them. -/
  | joining (k : Nat)
  /-- Returned, or raised. -/
  | done (result : Except PyError CaseResult)

/-- The states of the protocol. -/
structure State (n : Nat) where
  main : MainAt
  phase : Fin n → Phase n
  /-- The event of the entity is set. -/
  finished : Fin n → Bool
  /-- The child has reached the end of its file. -/
  eof : Fin n → Bool
  /-- The slots, if a code is written. -/
  codes : Fin n → Option ReturnCode

/-- The steps. -/
inductive Action (n : Nat) where
  /-- A step of `run_test`; the outputs are read at its end. -/
  | main (output : Fin n → List Char)
  /-- A step of the process of an entity. -/
  | turn (i : Fin n) (reply : Reply)
  /-- The child of an entity ends by itself. -/
  | childEnds (i : Fin n)

/-- What a step of a process changes. -/
structure Effect (n : Nat) where
  phase : Phase n
  code : Option ReturnCode := none
  sets : Bool := false
  stops : Bool := false

namespace State

variable {n : Nat}

/-- The state after a step of a process. -/
def apply (s : State n) (i : Fin n) (e : Effect n) : State n where
  main := s.main
  phase := Function.update s.phase i e.phase
  finished := if e.sets then Function.update s.finished i true else s.finished
  eof := if e.stops then Function.update s.eof i true else s.eof
  codes := if e.code.isSome then Function.update s.codes i e.code else s.codes

end State

variable (specs : List EntitySpec) (dies : Fin specs.length → Bool)

/-- The role of an entity. -/
def role (i : Fin specs.length) : Role := specs[i].role

/-- The entities of a role, in order. -/
def ofRole (r : Role) : List (Fin specs.length) :=
  (List.finRange specs.length).filter fun i => role specs i = r

/-- A step of the process of an entity. -/
def turn (s : State specs.length) (i : Fin specs.length) (reply : Reply) :
    Option (Effect specs.length) :=
  match s.phase i, reply with
  | .spawning, .none =>
      some { phase :=
        if dies i then .died
        else
          match role specs i with
          | .publisher => .publishing .topic
          | .subscriber => .subscribing .topic }
  | .publishing place, reply =>
      (publisherMain (writesSamples specs[i].parameters) (s.eof i) place reply).map
        fun (next, code) =>
          { phase := next.elim (.draining (ofRole specs .subscriber)) .publishing, code := code }
  | .subscribing place, reply =>
      (subscriberMain (s.eof i) place reply).map fun (next, code) =>
        { phase := next.elim .setting .subscribing, code := code }
  | .draining [], .none => some { phase := .leaving }
  | .draining (q :: rest), .none =>
      some { phase := if s.finished q then .draining rest else .reading }
  | .reading, .data => some { phase := .draining (ofRole specs .subscriber) }
  | .reading, .timeout => some { phase := .draining (ofRole specs .subscriber) }
  | .reading, .eof => if s.eof i then some { phase := .leaving } else none
  | .leaving, .none => some { phase := .stopping, sets := true }
  | .setting, .none => some { phase := .waiting (ofRole specs .publisher), sets := true }
  | .waiting [], .none => some { phase := .stopping }
  | .waiting (p :: rest), .none => if s.finished p then some { phase := .waiting rest } else none
  | .stopping, .none => some { phase := .exited, stops := true }
  | _, _ => none

/-- The entities when all processes are joined. -/
def joined (s : State specs.length) (output : Fin specs.length → List Char) :
    List JoinedEntity :=
  (List.finRange specs.length).map fun i =>
    ⟨specs[i].parameters, specs[i].expectedCode, s.codes i, output i⟩

/-- A step of `run_test`. -/
def mainStep (s : State specs.length) (output : Fin specs.length → List Char) :
    Option (State specs.length) :=
  match s.main with
  | .starting k =>
      if h : k < specs.length then
        some { s with main := .starting (k + 1), phase := Function.update s.phase ⟨k, h⟩ .spawning }
      else some { s with main := .joining 0 }
  | .joining k =>
      if h : k < specs.length then
        if (s.phase ⟨k, h⟩).ended then some { s with main := .joining (k + 1) } else none
      else some { s with main := .done (evaluate (joined specs s output)) }
  | .done _ => none

/-- A step. -/
def step (s : State specs.length) : Action specs.length → Option (State specs.length)
  | .main output => mainStep specs s output
  | .turn i reply => (turn specs dies s i reply).map (s.apply i)
  | .childEnds i => some { s with eof := Function.update s.eof i true }

/-- Before the first process is started. -/
def initial (n : Nat) : State n where
  main := .starting 0
  phase _ := .unstarted
  finished _ := false
  eof _ := false
  codes _ := none

/-- The protocol, in which `pexpect.spawnu` raises for some of the entities. -/
def protocol : System (State specs.length) (Action specs.length) where
  init s := s = initial specs.length
  step s a s' := step specs dies s a = some s'

/-- A step of a process, not of a child. -/
def Action.ofProcess {n : Nat} : Action n → Bool
  | .childEnds _ => false
  | _ => true

/-- `run_test` has returned or raised, and every process has ended. -/
def State.complete {n : Nat} (s : State n) : Prop :=
  (∃ result, s.main = .done result) ∧ ∀ i, (s.phase i).ended = true

/-- Some process has not ended, and no process can step. -/
def Deadlocked (s : State specs.length) : Prop :=
  ¬s.complete ∧ ∀ a : Action specs.length, a.ofProcess = true → step specs dies s a = none

end DdsRtps.Harness
