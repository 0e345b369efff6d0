/-
# `DdsRtps.ShapeMain.ZigTopics` — several topics in Zig

`createExtraTopics`, `runPublisher` and `runSubscriber` of srcZig/shape_main.zig
keep a topic, a name, a listener context and an endpoint for each topic, in arrays
of `MAX_TOPICS`.  An index beyond them stops the program, and so does
`num_topics - 1` below zero; whether one comes to that is all that is asked of the
entities here.

The loop of the publisher is that of `Zig.step`: what a turn uses is read from its
calls, which are about the topics (`extends_step`).
-/
import DdsRtps.Lib.CheckedArray
import DdsRtps.ShapeMain.Zig
import DdsRtps.ShapeMain.ZigOptions

namespace DdsRtps.ShapeMain.Zig

open CheckedArray (Ends)

/-- `MAX_TOPICS`. -/
def maxTopics : Nat := 16

/-- The errors that a function may return. -/
inductive ZigError where
  | outOfMemory
  | topicFailed
  | publisherFailed
  | dataWriterFailed
  | subscriberFailed
  | dataReaderFailed
  | writeFailed
deriving DecidableEq, Repr

/-- What a function ends with if it does not return: an error, or a check of Zig
stops the program. -/
inductive Stop where
  | error (e : ZigError)
  | underflow
  | outOfBounds (index : Nat)
deriving DecidableEq, Repr

/-- An entity; `nil` is none. -/
abbrev Handle := Option Nat

/-- What a turn of the subscriber sees: `g_all_done`, and how often it takes from the
reader of a topic. -/
structure ReaderSeen where
  allDone : Bool
  takes : Nat → Nat

/-- What the program finds: which allocations are made, which entities it is given,
and what the turns of its loop see. -/
structure World where
  participant : Bool
  createTopic : Nat → Handle
  allocName : Nat → Bool
  publisher : Bool
  subscriber : Bool
  buildQos : Bool
  createDatawriter : Nat → Handle
  createDatareader : Nat → Handle
  allocPayload : Bool
  writerTurns : List Seen
  readerTurns : List ReaderSeen

variable {α : Type}

/-- `xs[i]`. -/
def load (xs : Vector α maxTopics) (i : Nat) : Except Stop α := CheckedArray.read .outOfBounds xs i

/-- `xs[i] = a`. -/
def store (xs : Vector α maxTopics) (i : Nat) (a : α) : Except Stop (Vector α maxTopics) :=
  CheckedArray.write .outOfBounds xs i a

/-- An error, unless it went well. -/
def ensure (ok : Bool) (e : ZigError) : Except Stop Unit :=
  if ok then .ok () else .error (.error e)

/-- `for (0..n)`, for what a turn uses. -/
def forAllBelow (n : Nat) (use : Nat → Except Stop Unit) : Except Stop Unit :=
  (List.range n).foldlM (fun _ i => use i) ()

/-! ## Multi-topic helpers -/

/-- `ExtraTopics`, without the base topic. -/
structure ExtraTopics where
  topics : Vector Handle maxTopics
  names : Vector String maxTopics
  count : UInt32

/-- The first names are freed. -/
def freeNames (names : Vector String maxTopics) (n : Nat) : Except Stop Unit :=
  forAllBelow n fun i => do
    let _ ← load names i
    .ok ()

namespace ExtraTopics

def deinitNames (self : ExtraTopics) : Except Stop Unit := freeNames self.names self.count.toNat

def topicAt (self : ExtraTopics) (base : Handle) (i : Nat) : Except Stop Handle :=
  if i = 0 then .ok base else load self.topics (i - 1)

def nameAt (self : ExtraTopics) (baseName : String) (i : Nat) : Except Stop String :=
  if i = 0 then .ok baseName else load self.names (i - 1)

end ExtraTopics

variable (world : World) (opts : CommandLine.Options)

/-- A turn of `createExtraTopics`; the place of a name is looked up before it is
allocated. -/
def createExtraTopic (et : ExtraTopics) (i : Nat) : Except Stop ExtraTopics := do
  let names ← store et.names i (opts.topicName ++ toString (i + 1))
  let _ ← ensure (world.allocName i) .outOfMemory
  let topics ← store et.topics i (world.createTopic (i + 1))
  match world.createTopic (i + 1) with
  | none => do
      let _ ← freeNames names (i + 1)
      .error (.error .topicFailed)
  | some _ => .ok { et with topics := topics, names := names }

def createExtraTopics : Except Stop ExtraTopics :=
  if opts.numTopics = 0 then .error .underflow
  else
    let et : ExtraTopics :=
      { topics := .replicate maxTopics none
        names := .replicate maxTopics ""
        count := opts.numTopics - 1 }
    (List.range et.count.toNat).foldlM (createExtraTopic world opts) et

/-- What a loop comes to: it is left, or it goes on. -/
def loopResult {σ : Type} : σ ⊕ Except Stop Bool → Except Stop Bool
  | .inl _ => .ok false
  | .inr result => result

/-- What is returned, or that the loop goes on, with the `defer` of a function; it is
passed over where the program is stopped. -/
def deferring (cleanup : Except Stop Unit) : Except Stop Bool → Except Stop Bool
  | .ok false => .ok false
  | .ok true => do
      let _ ← cleanup
      .ok true
  | .error (.error e) => do
      let _ ← cleanup
      .error (.error e)
  | .error stop => .error stop

/-! ## Publisher -/

/-- The arrays of `runPublisher`. -/
structure Writers where
  lctxs : Vector String maxTopics
  dwHandles : Vector Handle maxTopics
  typedWriters : Vector Handle maxTopics

/-- `undefined`. -/
def Writers.undefined : Writers where
  lctxs := .replicate maxTopics ""
  dwHandles := .replicate maxTopics none
  typedWriters := .replicate maxTopics none

/-- The writer of a topic. -/
def createWriter (base : Handle) (et : ExtraTopics) (writers : Writers) (i : Nat) :
    Except Stop Writers := do
  let tn ← et.nameAt opts.topicName i
  let lctxs ← store writers.lctxs i tn
  let _ ← et.topicAt base i
  let dwHandles ← store writers.dwHandles i (world.createDatawriter i)
  let handle ← load dwHandles i
  let _ ← ensure handle.isSome .dataWriterFailed
  let typedWriters ← store writers.typedWriters i handle
  .ok { lctxs := lctxs, dwHandles := dwHandles, typedWriters := typedWriters }

/-- The options that the loop of `runPublisher` reads. -/
def loopOptions : Options where
  color := opts.color
  shapesize := opts.shapesize
  numIterations := opts.numIterations.toInt
  numInstances := opts.numInstances
  additionalPayload := opts.additionalPayload
  sizeModulo := opts.sizeModulo
  finalInstanceState := opts.finalInstanceState
  orderedAccess := opts.orderedAccess
  coherentAccess := opts.coherentAccess
  numTopics := opts.numTopics
  coherentSampleCount := opts.coherentSampleCount

variable (writers : Writers)

/-- What a call uses of the arrays. -/
def useCall : Call → Except Stop Unit
  | .write ti _ _ => do
      let _ ← load writers.typedWriters ti
      if opts.printWriterSamples then do
        let _ ← load writers.lctxs ti
        .ok ()
      else .ok ()
  | .unregisterInstance ti _ => do
      let _ ← load writers.typedWriters ti
      .ok ()
  | .dispose ti _ => do
      let _ ← load writers.typedWriters ti
      .ok ()
  | .beginCoherentChanges => .ok ()
  | .endCoherentChanges => .ok ()

def useCalls (calls : List Call) : Except Stop Unit :=
  calls.foldlM (fun _ call => useCall opts writers call) ()

/-- `if (!printed_matched)`. -/
def useMatched (seen : Seen) (s : State) : Except Stop Unit :=
  if s.printedMatched then .ok ()
  else do
    let _ ← load writers.dwHandles 0
    if seen.matched then do
      let _ ← load writers.lctxs 0
      .ok ()
    else .ok ()

/-- After the loop, on a finite run: the allocation of a colour may fail, and then the
readers are not waited for. -/
def useFinal (seen : Seen) : Except Stop Bool :=
  if opts.numIterations.toInt ≥ 0 then
    match cutAfter (finalCalls (loopOptions opts)) seen.cut with
    | some made => do
        let _ ← useCalls opts writers made
        .error (.error .outOfMemory)
    | none => do
        let _ ← useCalls opts writers (finalCalls (loopOptions opts))
        let _ ← forAllBelow opts.numTopics.toNat fun ti => do
          let _ ← load writers.typedWriters ti
          .ok ()
        .ok true
  else .ok true

/-- Is the loop left? -/
def leaves (seen : Seen) (s : State) : Bool :=
  seen.allDone || (opts.numIterations.toInt ≥ 0 && s.iteration ≥ opts.numIterations.toInt)

/-- A turn of the publisher, with what it uses of the arrays. -/
def writerTurn (seen : Seen) (s : State) : State ⊕ Except Stop Bool :=
  if leaves opts seen s then .inr (useFinal opts writers seen)
  else
    match useMatched writers seen s with
    | .error stop => .inr (.error stop)
    | .ok _ =>
        match step (loopOptions opts) seen s with
        | .inl s' =>
            match useCalls opts writers (s'.calls.drop s.calls.length) with
            | .error stop => .inr (.error stop)
            | .ok _ => .inl s'
        | .inr returned => .inr do
            let _ ← useCalls opts writers (returned.calls.drop s.calls.length)
            if returned.ok then .ok true else .error (.error .writeFailed)

/-- The loop, as far as the turns that it sees; is it left? -/
def writerLoop : Except Stop Bool :=
  loopResult (Loop.drive (writerTurn opts writers) world.writerTurns (init (loopOptions opts)))

def runPublisher (base : Handle) : Except Stop Bool := do
  let et ← createExtraTopics world opts
  deferring et.deinitNames do
    let _ ← ensure world.publisher .publisherFailed
    let _ ← ensure world.buildQos .outOfMemory
    let writers ← (List.range opts.numTopics.toNat).foldlM (createWriter world opts base et)
      Writers.undefined
    let _ ← ensure (opts.additionalPayload = 0 || world.allocPayload) .outOfMemory
    writerLoop world opts writers

/-! ## Subscriber -/

/-- The arrays of `runSubscriber`. -/
structure Readers where
  lctxs : Vector String maxTopics
  drHandles : Vector Handle maxTopics
  typedReaders : Vector Handle maxTopics

/-- `undefined`. -/
def Readers.undefined : Readers where
  lctxs := .replicate maxTopics ""
  drHandles := .replicate maxTopics none
  typedReaders := .replicate maxTopics none

/-- The reader of a topic, which is looked up by its name. -/
def createReader (et : ExtraTopics) (readers : Readers) (i : Nat) : Except Stop Readers := do
  let tn ← et.nameAt opts.topicName i
  let lctxs ← store readers.lctxs i tn
  let drHandles ← store readers.drHandles i (world.createDatareader i)
  let handle ← load drHandles i
  let _ ← ensure handle.isSome .dataReaderFailed
  let typedReaders ← store readers.typedReaders i handle
  .ok { lctxs := lctxs, drHandles := drHandles, typedReaders := typedReaders }

variable (readers : Readers)

/-- What is used to read a topic: all samples at once with `-R`, or one by one. -/
def useTopic (seen : ReaderSeen) (ti : Nat) : Except Stop Unit := do
  let _ ← load readers.lctxs ti
  forAllBelow (if opts.readOnly then 1 else seen.takes ti) fun _ => do
    let _ ← load readers.typedReaders ti
    .ok ()

/-- A turn of the subscriber, from the number of those before it. -/
def readerTurn (seen : ReaderSeen) (iteration : Int) : Int ⊕ Except Stop Bool :=
  if seen.allDone || (opts.numIterations.toInt ≥ 0 && iteration ≥ opts.numIterations.toInt) then
    .inr (.ok true)
  else
    match forAllBelow opts.numTopics.toNat (useTopic opts readers seen) with
    | .error stop => .inr (.error stop)
    | .ok _ => .inl (iteration + 1)

/-- The loop, as far as the turns that it sees; is it left? -/
def readerLoop : Except Stop Bool :=
  loopResult (Loop.drive (readerTurn opts readers) world.readerTurns 0)

def runSubscriber : Except Stop Bool := do
  let et ← createExtraTopics world opts
  deferring et.deinitNames do
    let _ ← et.nameAt opts.topicName 0  -- of the filtered topic
    let _ ← ensure world.subscriber .subscriberFailed
    let _ ← ensure world.buildQos .outOfMemory
    let readers ← (List.range opts.numTopics.toNat).foldlM (createReader world opts et)
      Readers.undefined
    readerLoop world opts readers

/-! ## main -/

/-- `main`, with the options; has it come to its end? -/
def main : Except Stop Bool :=
  if !opts.publish && !opts.subscribe then .ok true
  else if !world.participant then .ok true
  else
    match world.createTopic 0 with
    | none => .ok true
    | some base =>
        if opts.publish then runPublisher world opts (some base) else runSubscriber world opts

/-- The program, with its arguments. -/
def run (args : List String) : Except Stop Bool :=
  match CommandLine.parseArgs args with
  | .accepted opts => main world opts
  | _ => .ok true

/-! ## The calls of the publisher -/

/-- A call is about one of the first topics, or about none. -/
def Call.Below (n : Nat) : Call → Prop
  | .write ti _ _ => ti < n
  | .unregisterInstance ti _ => ti < n
  | .dispose ti _ => ti < n
  | .beginCoherentChanges => True
  | .endCoherentChanges => True

/-- There are more calls, about the first topics. -/
def Extends (n : Nat) (calls calls' : List Call) : Prop :=
  ∃ more, (∀ call ∈ more, Call.Below n call) ∧ calls' = calls ++ more

variable {options : Options} {n : Nat} {calls calls' calls'' : List Call}

theorem extends_refl (n : Nat) (calls : List Call) : Extends n calls calls :=
  ⟨[], List.forall_mem_nil _, (List.append_nil calls).symm⟩

theorem Extends.append (h : Extends n calls calls') {more : List Call}
    (hmore : ∀ call ∈ more, Call.Below n call) : Extends n calls (calls' ++ more) := by
  obtain ⟨more', hmore', rfl⟩ := h
  refine ⟨more' ++ more, ?_, List.append_assoc _ _ _⟩
  intro call hcall
  rcases List.mem_append.mp hcall with hcall | hcall
  · exact hmore' call hcall
  · exact hmore call hcall

theorem Extends.below_drop (h : Extends n calls calls') :
    ∀ call ∈ calls'.drop calls.length, Call.Below n call := by
  obtain ⟨more, hmore, rfl⟩ := h
  rw [List.drop_left]
  exact hmore

theorem below_of_regular (h : ∀ call ∈ calls, call.Regular options.numTopics.toNat
      options.numInstances.toNat (keyColor options)) :
    ∀ call ∈ calls, Call.Below options.numTopics.toNat call := by
  intro call hcall
  have hregular := h call hcall
  cases call with
  | write ti inst shape => exact hregular.1
  | beginCoherentChanges => trivial
  | endCoherentChanges => trivial
  | unregisterInstance ti inst => exact hregular.elim
  | dispose ti inst => exact hregular.elim

theorem below_finalCalls :
    ∀ call ∈ finalCalls options, Call.Below options.numTopics.toNat call := by
  unfold finalCalls
  split
  · refine forall_mem_forAll fun ti hti inst _ call hcall => ?_
    split at hcall
    · obtain rfl := List.mem_singleton.mp hcall
      exact hti
    · obtain rfl := List.mem_singleton.mp hcall
      exact hti
  · exact List.forall_mem_nil _

theorem below_cutAfter {made : List Call} {cut : Option Nat}
    (h : ∀ call ∈ calls, Call.Below n call) (hmade : cutAfter calls cut = some made) :
    ∀ call ∈ made, Call.Below n call := by
  cases cut with
  | none => cases hmade
  | some m =>
      rw [cutAfter] at hmade
      split at hmade
      · obtain rfl := Option.some.inj hmade
        exact fun call hcall => h call (List.mem_of_mem_take hcall)
      · cases hmade

theorem extends_write (seen : Seen) (s : State) :
    Extends options.numTopics.toNat s.calls
      ((write options seen s).elim State.calls Returned.calls) := by
  have hwrites := below_of_regular (wholeTurn_writes options seen.random s.shape).regular
  have hbegun : ∀ call ∈ if gating options then [Call.beginCoherentChanges] else [],
      Call.Below options.numTopics.toNat call := below_of_regular (regular_begin _)
  have hended : ∀ call ∈ if gating options then [Call.endCoherentChanges] else [],
      Call.Below options.numTopics.toNat call := below_of_regular (regular_end _)
  have hstart := (extends_refl options.numTopics.toNat s.calls).append hbegun
  unfold write
  cases hcut : cutAfter (if gating options then writeSet options seen.random s.shape
      else writeTurn options seen.random s.shape).2 seen.cut with
  | some made =>
      simp only [hcut]
      exact hstart.append (below_cutAfter hwrites hcut)
  | none =>
      simp only [hcut]
      exact (hstart.append hwrites).append hended

/-- What a turn of the publisher calls is about the topics. -/
theorem extends_step (options : Options) (seen : Seen) (s : State) :
    Extends options.numTopics.toNat s.calls
      ((step options seen s).elim State.calls Returned.calls) := by
  unfold step
  split
  · exact (extends_refl _ s.calls).append below_finalCalls
  · split
    · exact extends_refl _ s.calls
    · show Extends _ _ (Sum.elim _ _ (if _ then _ else _))
      split
      · exact extends_refl _ s.calls
      · exact extends_write seen { s with printedMatched := s.printedMatched || seen.matched }

end DdsRtps.ShapeMain.Zig
