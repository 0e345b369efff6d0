/-
# `DdsRtps.Hdds.MatchNotifier` — what the HDDS shape_main prints about matches

`MatchNotifier` of srcRs/HDDS/src/main.rs: two lists of local endpoints, the
set of topics found incompatible, and three functions that print.  Each of the
three is a loop over a list with one `println!` at most in a turn; the turns
are `catchUpWriter`, `catchUpReader`, `notifyWriter` and `notifyReader`, and
the functions are their folds.

What is printed is a `Line`; `Line.text` is the text of the `println!`.  A
turn returns the line together with the pair of endpoints it was printed for,
so that "printed on account of a pair" has a meaning.

The discovery FSM of the hdds crate is not in the repository.  It is a
parameter, `DiscoveryFsm`: what it answers is a function of the announcements
it has taken in, and what it finds on a topic was announced on that topic.
-/
import DdsRtps.Hdds.Qos

namespace DdsRtps.Hdds

/-- `enum EndpointKind`. -/
inductive EndpointKind where
  | reader
  | writer
deriving DecidableEq, Repr

/-- `struct EndpointInfo`, as far as it is read. -/
structure EndpointInfo where
  endpointGuid : List UInt8
  kind : EndpointKind
  topicName : String
  typeName : String
  qos : QoS
  hasExplicitOwnership : Bool
  hasOwnershipStrength : Bool
deriving DecidableEq, Repr

/-- `&guid.as_bytes()[..12]`. -/
def EndpointInfo.prefix12 (e : EndpointInfo) : List UInt8 := e.endpointGuid.take 12

/-- `struct LocalEndpoint`. -/
structure LocalEndpoint where
  topic : String
  qos : QoS
  dataRepr : DataRepresentation
deriving DecidableEq, Repr

/-- The lines the notifier prints. -/
inductive Line where
  | publicationMatched (topic typeName : String)
  | subscriptionMatched (topic typeName : String)
  | offeredIncompatibleQos (topic : String) (policy : Policy)
  | requestedIncompatibleQos (topic : String) (policy : Policy)
deriving DecidableEq, Repr

/-- The text of a line. -/
def Line.text : Line → String
  | .publicationMatched topic typeName =>
      "on_publication_matched() topic: '" ++ topic ++ "'  type: '" ++ typeName ++
        "' : matched readers 1 (change = 1)"
  | .subscriptionMatched topic typeName =>
      "on_subscription_matched() topic: '" ++ topic ++ "'  type: '" ++ typeName ++
        "' : matched writers 1 (change = 1)"
  | .offeredIncompatibleQos topic policy =>
      "on_offered_incompatible_qos() topic: '" ++ topic ++ "' policy: " ++ policy.name
  | .requestedIncompatibleQos topic policy =>
      "on_requested_incompatible_qos() topic: '" ++ topic ++ "' policy: " ++ policy.name

/-- A printed line and the pair it was printed for. -/
structure Printed where
  ep : LocalEndpoint
  remote : EndpointInfo
  line : Line
deriving DecidableEq, Repr

/-- The discovery FSM, as far as it is asked: its answers after a list of
announcements taken in. -/
structure DiscoveryFsm where
  findReadersForTopic : List EndpointInfo → String → List EndpointInfo
  findWritersForTopic : List EndpointInfo → String → List EndpointInfo
  isEndpointParticipantConfirmed : List EndpointInfo → List UInt8 → Bool
  /-- What is found on a topic was taken in as a reader of it. -/
  of_mem_findReaders : ∀ {seen : List EndpointInfo} {t : String} {e : EndpointInfo},
    e ∈ findReadersForTopic seen t → e ∈ seen ∧ e.kind = .reader ∧ e.topicName = t
  /-- What is found on a topic was taken in as a writer of it. -/
  of_mem_findWriters : ∀ {seen : List EndpointInfo} {t : String} {e : EndpointInfo},
    e ∈ findWritersForTopic seen t → e ∈ seen ∧ e.kind = .writer ∧ e.topicName = t

/-- `struct MatchNotifier`. -/
structure MatchNotifier where
  writerEndpoints : List LocalEndpoint
  readerEndpoints : List LocalEndpoint
  localPrefix : List UInt8
  incompatibleTopics : List String
deriving DecidableEq, Repr

namespace MatchNotifier

/-- `MatchNotifier::new`. -/
def new (localPrefix : List UInt8) : MatchNotifier where
  writerEndpoints := []
  readerEndpoints := []
  localPrefix := localPrefix
  incompatibleTopics := []

/-- `mark_incompatible`. -/
def markIncompatible (self : MatchNotifier) (topic : String) : MatchNotifier :=
  { self with incompatibleTopics := self.incompatibleTopics.insert topic }

/-- The check of a local writer against a remote reader. -/
def writerCompat (ep : LocalEndpoint) (remote : EndpointInfo) : Option Policy :=
  checkWriterReaderCompat ep.qos ep.dataRepr remote.qos (inferDataReprFromQos remote.qos) true true

/-- The check of a local reader against a remote writer. -/
def readerCompat (ep : LocalEndpoint) (remote : EndpointInfo) : Option Policy :=
  checkWriterReaderCompat remote.qos (inferDataReprFromQos remote.qos) ep.qos ep.dataRepr
    remote.hasExplicitOwnership remote.hasOwnershipStrength

/-- One turn of the catch-up loop of `add_writer_topic`. -/
def catchUpWriter (self : MatchNotifier) (confirmed : Bool) (ep : LocalEndpoint)
    (remote : EndpointInfo) : MatchNotifier × List Printed :=
  if remote.prefix12 = self.localPrefix then (self, [])
  else if !confirmed then (self, [])
  else
    match writerCompat ep remote with
    | some policy =>
        if policy ≠ .partition then
          (self.markIncompatible ep.topic, [⟨ep, remote, .offeredIncompatibleQos ep.topic policy⟩])
        else (self, [])
    | none => (self, [])

/-- One turn of the catch-up loop of `add_reader_topic`. -/
def catchUpReader (self : MatchNotifier) (confirmed : Bool) (ep : LocalEndpoint)
    (remote : EndpointInfo) : MatchNotifier × List Printed :=
  if remote.prefix12 = self.localPrefix then (self, [])
  else if !confirmed then (self, [])
  else
    match readerCompat ep remote with
    | some .partition => (self, [])
    | some policy =>
        (self.markIncompatible ep.topic, [⟨ep, remote, .requestedIncompatibleQos ep.topic policy⟩])
    | none => (self, [⟨ep, remote, .subscriptionMatched ep.topic remote.typeName⟩])

/-- One turn of the loop of `on_endpoint_discovered` over the local writers. -/
def notifyWriter (self : MatchNotifier) (endpoint : EndpointInfo) (ep : LocalEndpoint) :
    MatchNotifier × List Printed :=
  if ep.topic = endpoint.topicName then
    match writerCompat ep endpoint with
    | some .partition => (self, [])
    | some policy =>
        (self.markIncompatible ep.topic, [⟨ep, endpoint, .offeredIncompatibleQos ep.topic policy⟩])
    | none =>
        if ep.topic ∈ self.incompatibleTopics then (self, [])
        else (self, [⟨ep, endpoint, .publicationMatched ep.topic endpoint.typeName⟩])
  else (self, [])

/-- One turn of the loop of `on_endpoint_discovered` over the local readers. -/
def notifyReader (self : MatchNotifier) (endpoint : EndpointInfo) (ep : LocalEndpoint) :
    MatchNotifier × List Printed :=
  if ep.topic = endpoint.topicName then
    match readerCompat ep endpoint with
    | some .partition => (self, [])
    | some policy =>
        (self.markIncompatible ep.topic, [⟨ep, endpoint, .requestedIncompatibleQos ep.topic policy⟩])
    | none => (self, [⟨ep, endpoint, .subscriptionMatched ep.topic endpoint.typeName⟩])
  else (self, [])

/-- A loop of turns, with what they print in order. -/
def loop {α : Type} (turn : MatchNotifier → α → MatchNotifier × List Printed) :
    MatchNotifier → List α → MatchNotifier × List Printed
  | self, [] => (self, [])
  | self, a :: rest =>
      let (self, out) := turn self a
      let (self, out') := loop turn self rest
      (self, out ++ out')

/-- The endpoints `on_endpoint_discovered` goes through. -/
def listening (self : MatchNotifier) (endpoint : EndpointInfo) : List LocalEndpoint :=
  if endpoint.prefix12 = self.localPrefix then []
  else
    match endpoint.kind with
    | .reader => self.writerEndpoints
    | .writer => self.readerEndpoints

/-- One turn of `on_endpoint_discovered`. -/
def notify (self : MatchNotifier) (endpoint : EndpointInfo) (ep : LocalEndpoint) :
    MatchNotifier × List Printed :=
  match endpoint.kind with
  | .reader => self.notifyWriter endpoint ep
  | .writer => self.notifyReader endpoint ep

/-- `add_writer_topic`. -/
def addWriterTopic (fsm : DiscoveryFsm) (seen : List EndpointInfo) (self : MatchNotifier)
    (ep : LocalEndpoint) : MatchNotifier × List Printed :=
  let self := { self with writerEndpoints := self.writerEndpoints ++ [ep] }
  loop (fun self remote =>
    self.catchUpWriter (fsm.isEndpointParticipantConfirmed seen remote.endpointGuid) ep remote)
    self (fsm.findReadersForTopic seen ep.topic)

/-- `add_reader_topic`. -/
def addReaderTopic (fsm : DiscoveryFsm) (seen : List EndpointInfo) (self : MatchNotifier)
    (ep : LocalEndpoint) : MatchNotifier × List Printed :=
  let self := { self with readerEndpoints := self.readerEndpoints ++ [ep] }
  loop (fun self remote =>
    self.catchUpReader (fsm.isEndpointParticipantConfirmed seen remote.endpointGuid) ep remote)
    self (fsm.findWritersForTopic seen ep.topic)

/-- `on_endpoint_discovered`. -/
def onEndpointDiscovered (self : MatchNotifier) (endpoint : EndpointInfo) :
    MatchNotifier × List Printed :=
  loop (fun self ep => self.notify endpoint ep) self (self.listening endpoint)

end MatchNotifier

end DdsRtps.Hdds
