/-
# `DdsRtps.ShapeMain.RustDds` — the poll loop of RustDDS

`main` of RustDDS/src/main.rs, from its loop on.  It waits for one of four events,
handles those that have come, moves the shape, and writes it when `loop_delay` has
gone by since it was last written.

The events are edge-triggered: what has come is reported once.  So the program has
to take all there is before it waits again, while more may come at any moment.  It
does: nothing is lost and nothing is left behind by a wait (`poll_loop_accounted`).

The other promise is the rate.  Two writes are more than `loop_delay` apart; that
they are no more than twice that apart holds where the program is never late, and
that is sharp, since an event that comes just before the time of a write makes the
program wait once more.
-/
import DdsRtps.Lib.Transition
import Mathlib.Data.List.Chain
import Mathlib.Data.List.Nodup
import Mathlib.Logic.Function.Basic
import Mathlib.Logic.Function.Iterate

namespace DdsRtps.ShapeMain.RustDds

open Transition

/-! ## The shape -/

/-- `struct Shape`. -/
structure Shape where
  color : String
  x : Int32
  y : Int32
  shapesize : Int32
deriving DecidableEq, Repr

/-- `DA_WIDTH`. -/
def daWidth : Int32 := 240

/-- `DA_HEIGHT`. -/
def daHeight : Int32 := 270

/-- `move_shape`; half of the shape stays in the area, too. -/
@[irreducible] def moveShape (shape : Shape) (xv yv : Int32) : Shape × Int32 × Int32 :=
  let halfSize := shape.shapesize / 2 + 1
  let x := shape.x + xv
  let y := shape.y + yv
  let (x, xvNew) := if x < halfSize then (halfSize, -xv) else (x, xv)
  let (x, xvNew) := if x > daWidth - halfSize then (daWidth - halfSize, -xv) else (x, xvNew)
  let (y, yvNew) := if y < halfSize then (halfSize, -yv) else (y, yv)
  let (y, yvNew) := if y > daHeight - halfSize then (daHeight - halfSize, -yv) else (y, yvNew)
  ({ shape with x := x, y := y }, xvNew, yvNew)

/-! ## The loop -/

/-- The tokens of the poll. -/
inductive Token where
  | stopProgram
  | readerReady
  | readerStatusReady
  | writerStatusReady
deriving DecidableEq, Repr

/-- What comes with a token: an interrupt, a sample or the key of a disposed
instance, a status. -/
inductive Incoming where
  | stop
  | value (shape : Shape)
  | disposedKey (key : String)
  | status (text : String)
deriving DecidableEq, Repr

/-- Whether this is something that comes with the token. -/
def Token.carries : Token → Incoming → Bool
  | .stopProgram, .stop => true
  | .readerReady, .value _ => true
  | .readerReady, .disposedKey _ => true
  | .readerStatusReady, .status _ => true
  | .writerStatusReady, .status _ => true
  | _, _ => false

/-- A line that is printed. -/
inductive Line where
  | taken (token : Token) (item : Incoming)
  | readerError
  | done
deriving DecidableEq, Repr

/-- What `main` reads of the command line; the times are in nanoseconds. -/
structure Options where
  isPublisher : Bool
  isSubscriber : Bool
  color : String
  loopDelay : Nat
deriving DecidableEq, Repr

/-- What is registered with the poll. -/
def Options.registered (opts : Options) : Token → Bool
  | .stopProgram => true
  | .readerReady => opts.isSubscriber
  | .readerStatusReady => opts.isSubscriber
  | .writerStatusReady => opts.isPublisher

/-- Where the program is: it waits, it has these events to handle, or it has returned. -/
inductive Place where
  | polling
  | handling (events : List Token)
  | returned
deriving DecidableEq, Repr

/-- The variables of the loop; for each token, what has come, what of that is not
taken yet, and whether it has come since the last poll; the clock, and when the last
poll began; the lines and the writes, with their times. -/
structure State where
  place : Place
  arrived : Token → List Incoming
  waiting : Token → List Incoming
  ready : Token → Bool
  shape : Shape
  xVel : Int32
  yVel : Int32
  now : Nat
  polledAt : Nat
  lastWrite : Nat
  output : List Line
  written : List (Nat × Shape)

/-- Before the loop, at some time. -/
def init (opts : Options) (xVel yVel : Int32) (start : Nat) : State where
  place := .polling
  arrived _ := []
  waiting _ := []
  ready _ := false
  shape := { color := opts.color, x := 0, y := 0, shapesize := 21 }
  xVel := xVel
  yVel := yVel
  now := start
  polledAt := start
  lastWrite := start
  output := []
  written := []

/-- The shape has moved. -/
def State.moved (st : State) : State :=
  { st with
    shape := (moveShape st.shape st.xVel st.yVel).1
    xVel := (moveShape st.shape st.xVel st.yVel).2.1
    yVel := (moveShape st.shape st.xVel st.yVel).2.2 }

/-- A publisher writes the shape, if its time has come. -/
def State.writeShape (opts : Options) (st : State) : State :=
  if opts.isPublisher && st.lastWrite + opts.loopDelay < st.now then
    { st with written := st.written ++ [(st.now, st.shape)], lastWrite := st.now }
  else st

/-- The end of a turn: move, write, and wait again. -/
def State.finishTurn (opts : Options) (st : State) : State :=
  let st := st.moved.writeShape opts
  { st with place := .polling, polledAt := st.now }

/-- The next one of what waits for a token is taken. -/
def State.take (st : State) (token : Token) (item : Incoming) (rest : List Incoming) : State :=
  { st with
    waiting := Function.update st.waiting token rest
    output := st.output ++ [.taken token item] }

/-- What the program does next, when it has events to handle. -/
def State.handle (opts : Options) (st : State) : List Token → State
  | [] => st.finishTurn opts
  | .stopProgram :: events =>
      match st.waiting .stopProgram with
      | [] => { st with place := .handling events }
      | _ :: rest =>
          { st with
            waiting := Function.update st.waiting .stopProgram rest
            output := st.output ++ [.done]
            place := .returned }
  | token :: events =>
      match st.waiting token with
      | [] => { st with place := .handling events }
      | item :: rest => st.take token item rest

/-- Who makes a step: the outside, the poll, or the program. -/
inductive Action where
  | arrive (token : Token) (item : Incoming)
  | pass (time : Nat)
  | poll (events : List Token)
  | handle
  | readerError
deriving DecidableEq, Repr

/-- A step.  The poll reports all that has come since the last one, in any order; a
reader that fails is asked again. -/
inductive State.Step (opts : Options) (st : State) : Action → State → Prop
  | arrive {token : Token} {item : Incoming} : opts.registered token = true →
      token.carries item = true →
      Step opts st (.arrive token item)
        { st with
          arrived := Function.update st.arrived token (st.arrived token ++ [item])
          waiting := Function.update st.waiting token (st.waiting token ++ [item])
          ready := Function.update st.ready token true }
  | pass {time : Nat} : Step opts st (.pass time) { st with now := st.now + time }
  | poll {events : List Token} : st.place = .polling → events.Nodup →
      (∀ token, token ∈ events ↔ st.ready token = true) →
      Step opts st (.poll events)
        { st with place := .handling events, ready := fun _ => false }
  | handle {events : List Token} : st.place = .handling events →
      Step opts st .handle (st.handle opts events)
  | readerError {events : List Token} : st.place = .handling (.readerReady :: events) →
      Step opts st .readerError { st with output := st.output ++ [.readerError] }

/-- `if random() { gen_range(1..5) } else { gen_range(-5..-1) }`. -/
def Velocity (v : Int32) : Prop := (1 ≤ v.toInt ∧ v.toInt < 5) ∨ (-5 ≤ v.toInt ∧ v.toInt < -1)

/-- All runs. -/
def pollSystem (opts : Options) : System State Action where
  init st := ∃ xVel yVel start, Velocity xVel ∧ Velocity yVel ∧
    st = RustDds.init opts xVel yVel start
  step := State.Step opts

/-! ## What a step does -/

/-- The events that are still to be handled. -/
def State.events (st : State) : List Token :=
  match st.place with
  | .handling events => events
  | _ => []

/-- The item, if the line is one that was taken for this token; `Done.` is printed for an
interrupt. -/
def Line.takenFor (token : Token) : Line → Option Incoming
  | .taken token' item => if token' = token then some item else none
  | .readerError => none
  | .done => if .stopProgram = token then some .stop else none

/-- What has been taken for a token, in order. -/
def takenFor (token : Token) (output : List Line) : List Incoming :=
  output.filterMap (Line.takenFor token)

variable {opts : Options} {st st' : State} {a : Action}

/-- The program ends its turn, returns, is done with a token, or takes what waits for it. -/
theorem State.handle_cases (opts : Options) (st : State) (events : List Token) :
    (events = [] ∧ st.handle opts events = st.finishTurn opts) ∨
    (∃ rest item items, events = .stopProgram :: rest ∧ st.waiting .stopProgram = item :: items ∧
      st.handle opts events =
        { st with
          waiting := Function.update st.waiting .stopProgram items
          output := st.output ++ [.done]
          place := .returned }) ∨
    (∃ token rest, events = token :: rest ∧ st.waiting token = [] ∧
      st.handle opts events = { st with place := .handling rest }) ∨
    ∃ token rest item items, events = token :: rest ∧ token ≠ .stopProgram ∧
      st.waiting token = item :: items ∧ st.handle opts events = st.take token item items := by
  cases events with
  | nil => exact .inl ⟨rfl, rfl⟩
  | cons token rest =>
      right
      cases hwaiting : st.waiting token with
      | nil =>
          refine .inr (.inl ⟨token, rest, rfl, hwaiting, ?_⟩)
          cases token <;> simp [State.handle, hwaiting]
      | cons item items =>
          by_cases hstop : token = .stopProgram
          · subst hstop
            refine .inl ⟨rest, item, items, rfl, hwaiting, ?_⟩
            simp [State.handle, hwaiting]
          · refine .inr (.inr ⟨token, rest, item, items, rfl, hstop, hwaiting, ?_⟩)
            cases token <;> simp_all [State.handle]

/-- The end of a turn: the shape is written if it is late enough for that, or not. -/
theorem State.finishTurn_cases (opts : Options) (st : State) :
    (opts.isPublisher = true ∧ st.lastWrite + opts.loopDelay < st.now ∧
      st.finishTurn opts =
        { st with
          shape := st.moved.shape
          xVel := st.moved.xVel
          yVel := st.moved.yVel
          written := st.written ++ [(st.now, st.moved.shape)]
          lastWrite := st.now
          place := .polling
          polledAt := st.now }) ∨
    ((opts.isPublisher = true → st.now ≤ st.lastWrite + opts.loopDelay) ∧
      st.finishTurn opts =
        { st with
          shape := st.moved.shape
          xVel := st.moved.xVel
          yVel := st.moved.yVel
          place := .polling
          polledAt := st.now }) := by
  have hdue : (opts.isPublisher && decide (st.lastWrite + opts.loopDelay < st.now)) = true ↔
      opts.isPublisher = true ∧ st.lastWrite + opts.loopDelay < st.now := by
    rw [Bool.and_eq_true, decide_eq_true_eq]
  rw [State.finishTurn]
  by_cases hwrite : opts.isPublisher = true ∧ st.lastWrite + opts.loopDelay < st.now
  · left
    have hwritten : st.moved.writeShape opts =
        { st.moved with
          written := st.moved.written ++ [(st.moved.now, st.moved.shape)]
          lastWrite := st.moved.now } := if_pos (hdue.mpr hwrite)
    rw [hwritten]
    exact ⟨hwrite.1, hwrite.2, rfl⟩
  · right
    have hkept : st.moved.writeShape opts = st.moved := if_neg (mt hdue.mp hwrite)
    rw [hkept]
    rw [not_and, Nat.not_lt] at hwrite
    exact ⟨hwrite, rfl⟩

/-- It leaves alone what has come. -/
theorem State.finishTurn_frame (opts : Options) (st : State) :
    (st.finishTurn opts).place = .polling ∧ (st.finishTurn opts).arrived = st.arrived ∧
      (st.finishTurn opts).waiting = st.waiting ∧ (st.finishTurn opts).ready = st.ready ∧
      (st.finishTurn opts).output = st.output := by
  rcases st.finishTurn_cases opts with ⟨-, -, heq⟩ | ⟨-, heq⟩
  · rw [heq]
    exact ⟨rfl, rfl, rfl, rfl, rfl⟩
  · rw [heq]
    exact ⟨rfl, rfl, rfl, rfl, rfl⟩

/-! ## What comes is taken -/

/-- Nothing is lost, and what waits has been noticed. -/
structure State.Accounted (opts : Options) (st : State) : Prop where
  taken : ∀ token, takenFor token st.output ++ st.waiting token = st.arrived token
  carried : ∀ token, ∀ item ∈ st.waiting token, token.carries item = true
  noticed : st.place ≠ .returned → ∀ token, st.waiting token ≠ [] →
    st.ready token = true ∨ token ∈ st.events
  registered : ∀ token, st.ready token = true ∨ token ∈ st.events → opts.registered token = true

theorem accounted_init (opts : Options) (xVel yVel : Int32) (start : Nat) :
    (RustDds.init opts xVel yVel start).Accounted opts where
  taken _ := rfl
  carried _ _ h := absurd h List.not_mem_nil
  noticed _ _ h := absurd rfl h
  registered _ h := by rcases h with h | h <;> cases h

section Taken

variable {token other : Token} (output : List Line)

theorem takenFor_done :
    takenFor .stopProgram (output ++ [.done]) = takenFor .stopProgram output ++ [.stop] := by
  simp [takenFor, Line.takenFor]

theorem takenFor_done_of_ne (h : other ≠ .stopProgram) :
    takenFor other (output ++ [.done]) = takenFor other output := by
  simp [takenFor, Line.takenFor, h.symm]

theorem takenFor_readerError :
    takenFor token (output ++ [.readerError]) = takenFor token output := by
  simp [takenFor, Line.takenFor]

theorem takenFor_taken (item : Incoming) :
    takenFor token (output ++ [.taken token item]) = takenFor token output ++ [item] := by
  simp [takenFor, Line.takenFor]

theorem takenFor_taken_of_ne (h : other ≠ token) (item : Incoming) :
    takenFor other (output ++ [.taken token item]) = takenFor other output := by
  simp [takenFor, Line.takenFor, h.symm]

end Taken

/-- What carries an interrupt. -/
theorem eq_stop_of_carries {item : Incoming} (h : Token.stopProgram.carries item = true) :
    item = .stop := by
  cases item with
  | stop => rfl
  | value => cases h
  | disposedKey => cases h
  | status => cases h

/-- When the head of what waits is taken, what is left is still what its token carries. -/
theorem State.Accounted.carried_update (h : st.Accounted opts) {token : Token} {item : Incoming}
    {items : List Incoming} (hwaiting : st.waiting token = item :: items) (other : Token) :
    ∀ item' ∈ Function.update st.waiting token items other, other.carries item' = true := by
  intro item' hitem
  by_cases hsame : other = token
  · subst hsame
    rw [Function.update_self] at hitem
    refine h.carried other item' ?_
    rw [hwaiting]
    exact List.mem_cons_of_mem _ hitem
  · rw [Function.update_of_ne hsame] at hitem
    exact h.carried other item' hitem

theorem State.Accounted.handle (h : st.Accounted opts) {events : List Token}
    (hplace : st.place = .handling events) : (st.handle opts events).Accounted opts := by
  have hevents : st.events = events := by rw [State.events, hplace]
  have hnotreturned : st.place ≠ .returned := by
    rw [hplace]
    nofun
  rcases st.handle_cases opts events with ⟨rfl, heq⟩ | ⟨rest, item, items, rfl, hwaiting, heq⟩ |
    ⟨token, rest, rfl, hwaiting, heq⟩ | ⟨token, rest, item, items, rfl, hstop, hwaiting, heq⟩
  · obtain ⟨hpolling, harrived, hwaiting, hready, houtput⟩ := st.finishTurn_frame opts
    have hnone : (st.finishTurn opts).events = [] := by rw [State.events, hpolling]
    rw [heq]
    refine ⟨?_, ?_, fun _ token hne => ?_, fun token htoken => ?_⟩
    · rw [houtput, hwaiting, harrived]
      exact h.taken
    · rw [hwaiting]
      exact h.carried
    · rw [hwaiting] at hne
      rw [hready, hnone, ← hevents]
      exact h.noticed hnotreturned token hne
    · rw [hready, hnone, ← hevents] at htoken
      exact h.registered token htoken
  · rw [heq]
    refine ⟨fun token => ?_, h.carried_update hwaiting, fun hne => absurd rfl hne,
      fun token htoken => ?_⟩
    · dsimp only
      rw [← h.taken token]
      by_cases hstop : token = .stopProgram
      · obtain rfl : item = .stop :=
          eq_stop_of_carries (h.carried _ item (hwaiting ▸ List.mem_cons_self))
        rw [hstop, takenFor_done, Function.update_self, hwaiting, List.append_assoc]
        rfl
      · rw [takenFor_done_of_ne _ hstop, Function.update_of_ne hstop]
    · rcases htoken with htoken | htoken
      · exact h.registered token (.inl htoken)
      · cases htoken
  · rw [heq]
    refine ⟨h.taken, h.carried, fun _ other hne => ?_, fun other hother => ?_⟩
    · rcases h.noticed hnotreturned other hne with hready | hmem
      · exact .inl hready
      · rw [hevents] at hmem
        rcases List.mem_cons.mp hmem with rfl | hmem
        · exact absurd hwaiting hne
        · exact .inr hmem
    · refine h.registered other (hother.imp id fun hmem => ?_)
      rw [hevents]
      exact List.mem_cons_of_mem _ hmem
  · rw [heq]
    refine ⟨fun other => ?_, h.carried_update hwaiting, fun _ other hne => ?_,
      fun other hother => ?_⟩
    · dsimp only [State.take]
      rw [← h.taken other]
      by_cases hsame : other = token
      · rw [hsame, takenFor_taken, Function.update_self, hwaiting, List.append_assoc]
        rfl
      · rw [takenFor_taken_of_ne _ hsame, Function.update_of_ne hsame]
    · have hevents' : (st.take token item items).events = st.events := rfl
      rw [hevents']
      by_cases hsame : other = token
      · rw [hevents, hsame]
        exact .inr List.mem_cons_self
      · rw [State.take] at hne
        dsimp only at hne
        rw [Function.update_of_ne hsame] at hne
        exact h.noticed hnotreturned other hne
    · exact h.registered other hother

theorem State.Accounted.step (h : st.Accounted opts) (hstep : st.Step opts a st') :
    st'.Accounted opts := by
  cases hstep with
  | @arrive token item hregistered hcarries =>
      refine ⟨fun other => ?_, fun other item' hitem => ?_, fun hplace other hne => ?_,
        fun other hother => ?_⟩
      · dsimp only
        by_cases hsame : other = token
        · subst hsame
          rw [Function.update_self, Function.update_self, ← List.append_assoc, h.taken other]
        · rw [Function.update_of_ne hsame, Function.update_of_ne hsame]
          exact h.taken other
      · dsimp only at hitem
        by_cases hsame : other = token
        · subst hsame
          rw [Function.update_self, List.mem_append, List.mem_singleton] at hitem
          rcases hitem with hitem | rfl
          · exact h.carried other item' hitem
          · exact hcarries
        · rw [Function.update_of_ne hsame] at hitem
          exact h.carried other item' hitem
      · by_cases hsame : other = token
        · subst hsame
          exact .inl (Function.update_self ..)
        · dsimp only at hne ⊢
          rw [Function.update_of_ne hsame] at hne ⊢
          exact h.noticed hplace other hne
      · by_cases hsame : other = token
        · exact hsame ▸ hregistered
        · dsimp only at hother
          rw [Function.update_of_ne hsame] at hother
          exact h.registered other hother
  | pass => exact ⟨h.taken, h.carried, h.noticed, h.registered⟩
  | @poll events hplace hnodup hall =>
      have hnone : st.events = [] := by rw [State.events, hplace]
      refine ⟨h.taken, h.carried, fun _ token hne => ?_, fun token htoken => ?_⟩
      · have hplace' : st.place ≠ .returned := by
          rw [hplace]
          nofun
        rcases h.noticed hplace' token hne with hready | hmem
        · exact .inr ((hall token).mpr hready)
        · rw [hnone] at hmem
          cases hmem
      · rcases htoken with htoken | htoken
        · cases htoken
        · exact h.registered token (.inl ((hall token).mp htoken))
  | handle hplace => exact h.handle hplace
  | readerError hplace =>
      refine ⟨fun token => ?_, h.carried, h.noticed, h.registered⟩
      dsimp only
      rw [takenFor_readerError]
      exact h.taken token

theorem accounted_of_reachable (h : (pollSystem opts).Reachable anyStep st) :
    st.Accounted opts :=
  h.invariant _ (fun _ ⟨_, _, _, _, _, hinit⟩ => hinit ▸ accounted_init ..)
    fun _ _ _ hst _ hstep => hst.step hstep

/-! ## Nothing is left behind -/

/-- A step of the program alone. -/
def State.program (opts : Options) (st : State) : State :=
  match st.place with
  | .handling events => st.handle opts events
  | _ => st

/-- What waits for a token is taken until nothing does. -/
theorem exists_drained (opts : Options) {token : Token} {rest : List Token}
    (hstop : token ≠ .stopProgram) (hplace : st.place = .handling (token :: rest)) :
    ∃ n, (State.program opts)^[n] st =
      { st with
        waiting := Function.update st.waiting token []
        output := st.output ++ (st.waiting token).map (.taken token)
        place := .handling rest } := by
  induction hwaiting : st.waiting token generalizing st with
  | nil =>
      refine ⟨1, ?_⟩
      have hupdate : Function.update st.waiting token [] = st.waiting :=
        Function.update_eq_self_iff.mpr hwaiting.symm
      rw [Function.iterate_one, State.program, hplace, hupdate]
      cases token <;> simp_all [State.handle]
  | cons item items ih =>
      obtain ⟨n, hn⟩ := @ih (st.take token item items) hplace (Function.update_self ..)
      refine ⟨n + 1, ?_⟩
      have hstep : st.program opts = st.take token item items := by
        rw [State.program, hplace]
        cases token <;> simp_all [State.handle]
      rw [Function.iterate_succ_apply, hstep, hn]
      simp [State.take]

/-- The events of a poll are handled, unless the program returns. -/
theorem exists_handled (opts : Options) {events : List Token} (hplace : st.place = .handling events)
    (hnodup : events.Nodup) :
    ∃ n, ((State.program opts)^[n] st).place = .returned ∨
      (((State.program opts)^[n] st).place = .polling ∧
        (∀ token ∈ events, ((State.program opts)^[n] st).waiting token = []) ∧
        ∀ token, token ∉ events →
          ((State.program opts)^[n] st).waiting token = st.waiting token) := by
  induction events generalizing st with
  | nil =>
      obtain ⟨hpolling, -, hwaiting, -, -⟩ := st.finishTurn_frame opts
      have hprogram : st.program opts = st.finishTurn opts := by
        rw [State.program, hplace]
        rfl
      refine ⟨1, .inr ?_⟩
      rw [Function.iterate_one, hprogram, hpolling, hwaiting]
      exact ⟨rfl, nofun, fun _ _ => rfl⟩
  | cons token rest ih =>
      obtain ⟨hnotin, hnodup⟩ := List.nodup_cons.mp hnodup
      by_cases hstop : token = .stopProgram ∧ st.waiting token ≠ []
      · obtain ⟨rfl, hne⟩ := hstop
        obtain ⟨item, items, hwaiting⟩ := List.exists_cons_of_ne_nil hne
        refine ⟨1, .inl ?_⟩
        rw [Function.iterate_one, State.program, hplace]
        simp [State.handle, hwaiting]
      · -- the token is done with, and the others are left alone
        obtain ⟨n, hn⟩ : ∃ n, ((State.program opts)^[n] st).place = .handling rest ∧
            ((State.program opts)^[n] st).waiting = Function.update st.waiting token [] := by
          by_cases hone : token = .stopProgram
          · have hnil : st.waiting token = [] := by
              by_contra hne
              exact hstop ⟨hone, hne⟩
            have hupdate : Function.update st.waiting token [] = st.waiting :=
              Function.update_eq_self_iff.mpr hnil.symm
            refine ⟨1, ?_⟩
            rw [Function.iterate_one, State.program, hplace, hupdate]
            subst hone
            simp [State.handle, hnil]
          · obtain ⟨n, hn⟩ := exists_drained opts hone hplace
            refine ⟨n, ?_⟩
            rw [hn]
            exact ⟨rfl, rfl⟩
        obtain ⟨m, hm⟩ := ih hn.1 hnodup
        refine ⟨m + n, ?_⟩
        rw [Function.iterate_add_apply]
        refine hm.imp id fun ⟨hpolling, hin, hout⟩ => ⟨hpolling, fun other hother => ?_,
          fun other hother => ?_⟩
        · rcases List.mem_cons.mp hother with rfl | hmem
          · rw [hout other hnotin, hn.2, Function.update_self]
          · exact hin other hmem
        · rw [List.mem_cons, not_or] at hother
          rw [hout other hother.2, hn.2, Function.update_of_ne hother.1]

/-- **Nothing that comes is lost or left behind.**  In every state that any run comes to:
what came for a token is what was taken for it and what still waits, in order; what
waits where the program waits has been noticed, so that one poll, and what the
program does then, takes all of it or ends the program; and no token is reported of
which the program has no reader or writer. -/
theorem poll_loop_accounted (h : (pollSystem opts).Reachable anyStep st) :
    (∀ token, takenFor token st.output ++ st.waiting token = st.arrived token) ∧
    (∀ token ∈ st.events, opts.registered token = true) ∧
    (st.place = .polling → (∀ token, st.waiting token ≠ [] → st.ready token = true) ∧
      ∀ events polled, st.Step opts (.poll events) polled →
        ∃ n, ((State.program opts)^[n] polled).place = .returned ∨
          (((State.program opts)^[n] polled).place = .polling ∧
            ∀ token, ((State.program opts)^[n] polled).waiting token = [])) := by
  have hst := accounted_of_reachable h
  refine ⟨hst.taken, fun token htoken => hst.registered token (.inr htoken), fun hplace => ?_⟩
  have hnone : st.events = [] := by rw [State.events, hplace]
  have hready : ∀ token, st.waiting token ≠ [] → st.ready token = true := by
    intro token hne
    have hplace' : st.place ≠ .returned := by
      rw [hplace]
      nofun
    rcases hst.noticed hplace' token hne with hready | hmem
    · exact hready
    · rw [hnone] at hmem
      cases hmem
  refine ⟨hready, fun events polled hpoll => ?_⟩
  cases hpoll with
  | poll _ hnodup hall =>
      obtain ⟨n, hn⟩ := @exists_handled
        { st with place := .handling events, ready := fun _ => false } opts events rfl hnodup
      refine ⟨n, hn.imp id fun ⟨hpolling, hin, hout⟩ => ⟨hpolling, fun token => ?_⟩⟩
      by_cases hmem : token ∈ events
      · exact hin token hmem
      · rw [hout token hmem]
        by_contra hne
        exact hmem ((hall token).mpr (hready token hne))

/-- A subscriber, and a sample that comes while it waits. -/
def redSubscriber : Options where
  isPublisher := false
  isSubscriber := true
  color := "RED"
  loopDelay := 200000000

/-- What comes is this one. -/
def redShape : Incoming := .value { color := "RED", x := 20, y := 30, shapesize := 21 }

def oneSample : State :=
  { RustDds.init redSubscriber 1 1 0 with
    arrived := Function.update (fun _ => []) .readerReady [redShape]
    waiting := Function.update (fun _ => []) .readerReady [redShape]
    ready := Function.update (fun _ => false) .readerReady true }

/-- The poll has reported it. -/
def sampleReported : State :=
  { oneSample with place := .handling [.readerReady], ready := fun _ => false }

/-- And the program has taken it. -/
def sampleTaken : State := sampleReported.handle redSubscriber [.readerReady]

theorem poll_loop_accounted_oneSample :
    oneSample.ready .readerReady = true ∧ takenFor .readerReady sampleTaken.output = [redShape] ∧
      redSubscriber.registered .readerReady = true := by
  have hinit : (pollSystem redSubscriber).Reachable anyStep (RustDds.init redSubscriber 1 1 0) :=
    .init ⟨1, 1, 0, .inl (by decide), .inl (by decide), rfl⟩
  have harrive : State.Step redSubscriber (RustDds.init redSubscriber 1 1 0)
      (.arrive .readerReady redShape) oneSample := .arrive rfl rfl
  have harrived := hinit.step trivial harrive
  have hpoll : State.Step redSubscriber oneSample (.poll [.readerReady]) sampleReported :=
    .poll rfl (List.nodup_singleton _) fun token => by cases token <;> decide
  have hhandle : State.Step redSubscriber sampleReported .handle sampleTaken := .handle rfl
  have htaken := (harrived.step trivial hpoll).step trivial hhandle
  obtain ⟨-, -, hwaits⟩ := poll_loop_accounted harrived
  obtain ⟨haccounted, hregistered, -⟩ := poll_loop_accounted htaken
  have hnone : sampleTaken.waiting .readerReady = [] := rfl
  have hcame : sampleTaken.arrived .readerReady = [redShape] := rfl
  refine ⟨(hwaits rfl).1 .readerReady (by decide), ?_,
    hregistered .readerReady List.mem_cons_self⟩
  rw [← hcame, ← haccounted .readerReady, hnone, List.append_nil]

/-! ## Where the shape is -/

/-- Within the area, with half of the shape. -/
def InArea (shape : Shape) : Prop :=
  11 ≤ shape.x.toInt ∧ shape.x.toInt ≤ 229 ∧ 11 ≤ shape.y.toInt ∧ shape.y.toInt ≤ 259

/-- A coordinate at a place `p`, and its velocity, back between two borders. -/
def bounced (low high p v : Int32) : Int32 × Int32 :=
  let (p, vNew) := if p < low then (low, -v) else (p, v)
  if p > high then (high, -v) else (p, vNew)

theorem moveShape_eq (shape : Shape) (xv yv : Int32) :
    moveShape shape xv yv =
      ({ shape with
          x := (bounced (shape.shapesize / 2 + 1) (daWidth - (shape.shapesize / 2 + 1))
            (shape.x + xv) xv).1
          y := (bounced (shape.shapesize / 2 + 1) (daHeight - (shape.shapesize / 2 + 1))
            (shape.y + yv) yv).1 },
        (bounced (shape.shapesize / 2 + 1) (daWidth - (shape.shapesize / 2 + 1))
          (shape.x + xv) xv).2,
        (bounced (shape.shapesize / 2 + 1) (daHeight - (shape.shapesize / 2 + 1))
          (shape.y + yv) yv).2) := by
  simp only [moveShape, bounced]

theorem moveShape_frame (shape : Shape) (xv yv : Int32) :
    (moveShape shape xv yv).1.color = shape.color ∧
      (moveShape shape xv yv).1.shapesize = shape.shapesize := by
  rw [moveShape_eq]
  exact ⟨rfl, rfl⟩

theorem bounced_between (low high : Int32) (h : low.toInt ≤ high.toInt) (p v : Int32) :
    low.toInt ≤ (bounced low high p v).1.toInt ∧ (bounced low high p v).1.toInt ≤ high.toInt := by
  rw [bounced]
  by_cases hlow : p < low
  · have hborder : ¬low > high := by
      rw [gt_iff_lt, Int32.lt_iff_toInt_lt]
      omega
    simp only [hlow, if_true, hborder, if_false]
    exact ⟨Int.le_refl _, h⟩
  · have hp := Int.not_lt.mp (mt Int32.lt_iff_toInt_lt.mpr hlow)
    by_cases hhigh : p > high
    · simp only [hlow, hhigh, if_true, if_false]
      exact ⟨h, Int.le_refl _⟩
    · have hp' := Int.not_lt.mp (mt Int32.lt_iff_toInt_lt.mpr hhigh)
      simp only [hlow, hhigh, if_false]
      exact ⟨hp, hp'⟩

/-- Wherever the shape was, it is in the area then. -/
theorem moveShape_inArea {shape : Shape} (hsize : shape.shapesize = 21) (xv yv : Int32) :
    InArea (moveShape shape xv yv).1 := by
  rw [moveShape_eq, hsize]
  have hx := bounced_between (21 / 2 + 1) (daWidth - (21 / 2 + 1)) (by decide)
    (shape.x + xv) xv
  have hy := bounced_between (21 / 2 + 1) (daHeight - (21 / 2 + 1)) (by decide)
    (shape.y + yv) yv
  exact ⟨hx.1, hx.2, hy.1, hy.2⟩

/-! ## When the shape is written -/

/-- The times of the writes. -/
def State.times (st : State) : List Nat := st.written.map Prod.fst

/-- What is written is in the area and has the colour that was asked for, and more than
`loop_delay` lies between two writes. -/
structure State.Paced (opts : Options) (st : State) : Prop where
  color : st.shape.color = opts.color
  shapesize : st.shape.shapesize = 21
  inArea : ∀ w ∈ st.written, InArea w.2 ∧ w.2.color = opts.color
  apart : st.times.IsChain fun a b => a + opts.loopDelay < b
  last : ∀ time ∈ st.times.getLast?, time = st.lastWrite

theorem State.Paced.finishTurn (h : st.Paced opts) : (st.finishTurn opts).Paced opts := by
  have harea : InArea st.moved.shape := moveShape_inArea h.shapesize st.xVel st.yVel
  obtain ⟨hcolor, hsize⟩ := moveShape_frame st.shape st.xVel st.yVel
  have hcolor' : st.moved.shape.color = opts.color := hcolor.trans h.color
  have hsize' : st.moved.shape.shapesize = 21 := hsize.trans h.shapesize
  rcases st.finishTurn_cases opts with ⟨-, hlate, heq⟩ | ⟨-, heq⟩
  · rw [heq]
    refine ⟨hcolor', hsize', fun w hw => ?_, ?_, ?_⟩
    · rcases List.mem_append.mp hw with hw | hw
      · exact h.inArea w hw
      · obtain rfl := List.mem_singleton.mp hw
        exact ⟨harea, hcolor'⟩
    · rw [State.times, List.map_append, List.isChain_append]
      refine ⟨h.apart, List.isChain_singleton _, fun a ha b hb => ?_⟩
      obtain rfl := h.last a ha
      obtain rfl := Option.some.inj hb
      exact hlate
    · intro time htime
      rw [State.times, List.map_append, List.map_singleton, List.getLast?_concat] at htime
      exact (Option.some.inj htime).symm
  · rw [heq]
    exact ⟨hcolor', hsize', h.inArea, h.apart, h.last⟩

theorem State.Paced.step (h : st.Paced opts) (hstep : st.Step opts a st') : st'.Paced opts := by
  cases hstep with
  | arrive => exact ⟨h.color, h.shapesize, h.inArea, h.apart, h.last⟩
  | pass => exact ⟨h.color, h.shapesize, h.inArea, h.apart, h.last⟩
  | poll => exact ⟨h.color, h.shapesize, h.inArea, h.apart, h.last⟩
  | readerError => exact ⟨h.color, h.shapesize, h.inArea, h.apart, h.last⟩
  | @handle events hplace =>
      rcases st.handle_cases opts events with ⟨-, heq⟩ | ⟨_, _, _, -, -, heq⟩ |
        ⟨_, _, -, -, heq⟩ | ⟨_, _, _, _, -, -, -, heq⟩
      · rw [heq]
        exact h.finishTurn
      · rw [heq]
        exact ⟨h.color, h.shapesize, h.inArea, h.apart, h.last⟩
      · rw [heq]
        exact ⟨h.color, h.shapesize, h.inArea, h.apart, h.last⟩
      · rw [heq]
        exact ⟨h.color, h.shapesize, h.inArea, h.apart, h.last⟩

theorem paced_of_reachable {allowed : State → Action → Prop}
    (h : (pollSystem opts).Reachable allowed st) : st.Paced opts := by
  refine h.invariant _ (fun st ⟨xVel, yVel, start, _, _, hinit⟩ => ?_)
    fun _ _ _ hst _ hstep => hst.step hstep
  rw [hinit]
  exact ⟨rfl, rfl, fun _ hw => (List.not_mem_nil hw).elim, List.isChain_nil, nofun⟩

/-- The program is never late: time passes where it waits alone, and no longer than the
poll is to wait. -/
def promptly (opts : Options) (st : State) : Action → Prop
  | .pass time => st.place = .polling ∧ st.now + time ≤ st.polledAt + opts.loopDelay
  | _ => True

/-- The last write is no more than twice the delay ago. -/
structure State.Close (opts : Options) (st : State) : Prop where
  now : st.now ≤ st.lastWrite + 2 * opts.loopDelay
  polled : st.place = .polling → st.polledAt ≤ st.lastWrite + opts.loopDelay
  close : st.times.IsChain fun a b => b ≤ a + 2 * opts.loopDelay
  last : ∀ time ∈ st.times.getLast?, time = st.lastWrite

theorem State.Close.finishTurn (hpublisher : opts.isPublisher = true) (h : st.Close opts) :
    (st.finishTurn opts).Close opts := by
  rcases st.finishTurn_cases opts with ⟨-, -, heq⟩ | ⟨hsoon, heq⟩
  · rw [heq]
    refine ⟨Nat.le_add_right _ _, fun _ => Nat.le_add_right _ _, ?_, fun time htime => ?_⟩
    · rw [State.times, List.map_append, List.isChain_append]
      refine ⟨h.close, List.isChain_singleton _, fun a ha b hb => ?_⟩
      obtain rfl := h.last a ha
      obtain rfl := Option.some.inj hb
      exact h.now
    · rw [State.times, List.map_append, List.map_singleton, List.getLast?_concat] at htime
      exact (Option.some.inj htime).symm
  · rw [heq]
    exact ⟨h.now, fun _ => hsoon hpublisher, h.close, h.last⟩

theorem State.Close.step (hpublisher : opts.isPublisher = true) (h : st.Close opts)
    (hprompt : promptly opts st a) (hstep : st.Step opts a st') : st'.Close opts := by
  cases hstep with
  | arrive => exact ⟨h.now, h.polled, h.close, h.last⟩
  | pass =>
      obtain ⟨hplace, htime⟩ := hprompt
      have hpolled := h.polled hplace
      exact ⟨by dsimp only; omega, h.polled, h.close, h.last⟩
  | poll => exact ⟨h.now, nofun, h.close, h.last⟩
  | readerError => exact ⟨h.now, h.polled, h.close, h.last⟩
  | @handle events hplace =>
      rcases st.handle_cases opts events with ⟨-, heq⟩ | ⟨_, _, _, -, -, heq⟩ |
        ⟨_, _, -, -, heq⟩ | ⟨_, _, _, _, -, -, -, heq⟩
      · rw [heq]
        exact h.finishTurn hpublisher
      · rw [heq]
        exact ⟨h.now, nofun, h.close, h.last⟩
      · rw [heq]
        exact ⟨h.now, nofun, h.close, h.last⟩
      · rw [heq]
        exact ⟨h.now, h.polled, h.close, h.last⟩

theorem close_of_reachable (hpublisher : opts.isPublisher = true)
    (h : (pollSystem opts).Reachable (promptly opts) st) : st.Close opts := by
  refine h.invariant _ (fun st ⟨xVel, yVel, start, _, _, hinit⟩ => ?_)
    fun _ _ _ hst hprompt hstep => hst.step hpublisher hprompt hstep
  rw [hinit]
  exact ⟨Nat.le_add_right _ _, fun _ => Nat.le_add_right _ _, List.isChain_nil, nofun⟩

/-- The program has just written and waits, and nothing has come. -/
structure State.Fresh (st : State) (time : Nat) : Prop where
  place : st.place = .polling
  now : st.now = time
  polledAt : st.polledAt = time
  lastWrite : st.lastWrite = time
  ready : ∀ token, st.ready token = false
  waiting : st.waiting .writerStatusReady = []

theorem reachable_iterate (h : (pollSystem opts).Reachable (promptly opts) st) (n : Nat) :
    (pollSystem opts).Reachable (promptly opts) ((State.program opts)^[n] st) := by
  induction n generalizing st with
  | zero => exact h
  | succ n ih =>
      rw [Function.iterate_succ_apply]
      refine ih ?_
      cases hplace : st.place with
      | polling =>
          rw [State.program, hplace]
          exact h
      | returned =>
          rw [State.program, hplace]
          exact h
      | handling events =>
          rw [State.program, hplace]
          exact h.step (a := Action.handle) trivial (.handle hplace)

/-- A turn that ends too early for a write. -/
theorem reachable_early (h : (pollSystem opts).Reachable (promptly opts) st)
    (hplace : st.place = .handling []) (hearly : st.now ≤ st.lastWrite + opts.loopDelay) :
    (pollSystem opts).Reachable (promptly opts)
      { st with
        shape := st.moved.shape
        xVel := st.moved.xVel
        yVel := st.moved.yVel
        place := .polling
        polledAt := st.now } := by
  rcases st.finishTurn_cases opts with ⟨-, hlate, -⟩ | ⟨-, heq⟩
  · omega
  · rw [← heq]
    exact h.step (a := Action.handle) trivial (.handle hplace)

/-- And one that writes. -/
theorem reachable_late (hpublisher : opts.isPublisher = true)
    (h : (pollSystem opts).Reachable (promptly opts) st) (hplace : st.place = .handling [])
    (hlate : st.lastWrite + opts.loopDelay < st.now) :
    (pollSystem opts).Reachable (promptly opts)
      { st with
        shape := st.moved.shape
        xVel := st.moved.xVel
        yVel := st.moved.yVel
        written := st.written ++ [(st.now, st.moved.shape)]
        lastWrite := st.now
        place := .polling
        polledAt := st.now } := by
  rcases st.finishTurn_cases opts with ⟨-, -, heq⟩ | ⟨hearly, -⟩
  · rw [← heq]
    exact h.step (a := Action.handle) trivial (.handle hplace)
  · have hsoon := hearly hpublisher
    omega

/-- A status that comes within the delay puts the next write off. -/
theorem exists_write_after (hpublisher : opts.isPublisher = true) {time : Nat} (early : Nat)
    (hearly : 0 < early) (hle : early ≤ opts.loopDelay)
    (h : (pollSystem opts).Reachable (promptly opts) st) (hfresh : st.Fresh time) :
    ∃ st', (pollSystem opts).Reachable (promptly opts) st' ∧
      st'.Fresh (time + (early + opts.loopDelay)) ∧
      st'.times = st.times ++ [time + (early + opts.loopDelay)] := by
  obtain ⟨hplace, hnow, hpolled, hlast, hready, hwaiting⟩ := hfresh
  -- the status comes, and is reported
  have hpassed := h.step (show promptly opts st (.pass early) from ⟨hplace, by omega⟩) .pass
  have harrived := hpassed.step (a := Action.arrive .writerStatusReady (.status "")) trivial
    (.arrive hpublisher rfl)
  have hreported := harrived.step (a := Action.poll [.writerStatusReady]) trivial
    (.poll hplace (List.nodup_singleton _) fun token => by
      by_cases htoken : token = .writerStatusReady
      · simp [htoken]
      · simp [htoken, hready token])
  obtain ⟨n, hn⟩ := @exists_drained
    { st with
      now := st.now + early
      arrived := Function.update st.arrived .writerStatusReady
        (st.arrived .writerStatusReady ++ [.status ""])
      waiting := Function.update st.waiting .writerStatusReady
        (st.waiting .writerStatusReady ++ [.status ""])
      ready := fun _ => false
      place := .handling [.writerStatusReady] } opts .writerStatusReady [] nofun rfl
  have hdrained := reachable_iterate hreported n
  rw [hn] at hdrained
  -- too early for a write: the program waits once more
  have hwaits := reachable_early hdrained rfl (by dsimp only; omega)
  have hpassed' := hwaits.step
    (show promptly opts _ (.pass opts.loopDelay) from ⟨rfl, by dsimp only [State.moved]; omega⟩)
    .pass
  have hreported' := hpassed'.step (a := Action.poll []) trivial
    (.poll rfl List.nodup_nil fun _ => by simp)
  have hwrites := reachable_late hpublisher hreported' rfl (by dsimp only [State.moved]; omega)
  have hsum : st.now + early + opts.loopDelay = time + (early + opts.loopDelay) := by omega
  refine ⟨_, hwrites, ⟨rfl, hsum, hsum, hsum, fun _ => rfl, ?_⟩, ?_⟩
  · dsimp only [State.moved]
    exact Function.update_self ..
  · rw [State.times, List.map_append, ← hsum]
    rfl

/-- **How far two writes are apart.**  More than `loop_delay`, in every run, and what is
written is in the area.  Where the program is never late, it is no more than twice
that, and all distances between the two come up. -/
theorem write_rate (opts : Options) (hpublisher : opts.isPublisher = true) :
    (∀ st, (pollSystem opts).Reachable anyStep st →
      (st.times.IsChain fun a b => a + opts.loopDelay < b) ∧
        ∀ w ∈ st.written, InArea w.2 ∧ w.2.color = opts.color) ∧
    ∀ gap, (∃ st, (pollSystem opts).Reachable (promptly opts) st ∧
        ∃ a, [a, a + gap] <:+: st.times) ↔
      opts.loopDelay < gap ∧ gap ≤ 2 * opts.loopDelay := by
  refine ⟨fun st h => ?_, fun gap => ⟨?_, ?_⟩⟩
  · have hpaced := paced_of_reachable h
    exact ⟨hpaced.apart, hpaced.inArea⟩
  · rintro ⟨st, h, a, hinfix⟩
    have hapart : [a, a + gap].IsChain _ := List.IsChain.infix (paced_of_reachable h).apart hinfix
    have hclose : [a, a + gap].IsChain _ :=
      List.IsChain.infix (close_of_reachable hpublisher h).close hinfix
    rw [List.isChain_pair] at hapart hclose
    omega
  · rintro ⟨hlow, hhigh⟩
    have hinit : (pollSystem opts).Reachable (promptly opts) (RustDds.init opts 1 1 0) :=
      .init ⟨1, 1, 0, .inl (by decide), .inl (by decide), rfl⟩
    obtain ⟨early, rfl⟩ : ∃ early, gap = early + opts.loopDelay :=
      ⟨gap - opts.loopDelay, by omega⟩
    obtain ⟨st, h, hfresh, htimes⟩ := exists_write_after hpublisher early (by omega)
      (by omega) hinit (⟨rfl, rfl, rfl, rfl, fun _ => rfl, rfl⟩ : State.Fresh _ 0)
    obtain ⟨st', h', -, htimes'⟩ := exists_write_after hpublisher early (by omega)
      (by omega) h hfresh
    refine ⟨st', h', 0 + (early + opts.loopDelay), [], [], ?_⟩
    rw [htimes', htimes]
    rfl

/-- A publisher without a deadline. -/
def redPublisher : Options where
  isPublisher := true
  isSubscriber := false
  color := "RED"
  loopDelay := 200000000

theorem write_rate_redPublisher :
    ∃ st, (pollSystem redPublisher).Reachable (promptly redPublisher) st ∧
      ∃ a, [a, a + 400000000] <:+: st.times :=
  ((write_rate redPublisher rfl).2 400000000).mpr (by decide)

end DdsRtps.ShapeMain.RustDds
