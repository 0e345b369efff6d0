/-
# `DdsRtps.Hdds.MatchRuns` — registration and discovery, interleaved

A run of the process, as far as matches are concerned: any number of calls of
`add_writer_topic` and `add_reader_topic`, and any number of discoveries, each
of which first reaches the FSM and then the listener.  A call is not atomic.
What other threads can see of it is one step each:

  * `push` the endpoint onto its list, which waits for the lock;
  * `ask` the FSM what it has on the topic;
  * `scan` one endpoint of the answer, printing what that turn prints;

and of a discovery

  * `insert` into the FSM;
  * `call` the listener, which takes the lock of its list, unless the endpoint
    is one of our own;
  * `notify` about one endpoint of the list; the lock is held to the last.

`addTopic` and `onEndpointDiscovered` are the runs in which a call is left
alone from its first step to its last (`reachable_addTopic`,
`reachable_onEndpointDiscovered`).
-/
import DdsRtps.Hdds.MatchNotifier
import DdsRtps.Lib.Transition

namespace DdsRtps.Hdds

open Transition (System)

/-! ## Both sides as one -/

/-- Whom an endpoint matches with. -/
def EndpointKind.peer : EndpointKind → EndpointKind
  | .reader => .writer
  | .writer => .reader

@[simp] theorem EndpointKind.peer_peer (k : EndpointKind) : k.peer.peer = k := by
  cases k <;> rfl

/-- What a local endpoint asks the FSM for. -/
def DiscoveryFsm.find (fsm : DiscoveryFsm) : EndpointKind → List EndpointInfo → String →
    List EndpointInfo
  | .writer => fsm.findReadersForTopic
  | .reader => fsm.findWritersForTopic

theorem DiscoveryFsm.of_mem_find {fsm : DiscoveryFsm} {k : EndpointKind}
    {seen : List EndpointInfo} {t : String} {e : EndpointInfo} (h : e ∈ fsm.find k seen t) :
    e ∈ seen ∧ e.kind = k.peer ∧ e.topicName = t := by
  cases k with
  | writer => exact fsm.of_mem_findReaders h
  | reader => exact fsm.of_mem_findWriters h

/-- Once `e` is in, the FSM holds it and its participant is confirmed, all
through a history of announcements. -/
def DiscoveryFsm.Holds (fsm : DiscoveryFsm) (history : List EndpointInfo) (e : EndpointInfo) :
    Prop :=
  ∀ seen, seen <+: history → e ∈ seen →
    e ∈ fsm.find e.kind.peer seen e.topicName ∧
      fsm.isEndpointParticipantConfirmed seen e.endpointGuid = true

theorem DiscoveryFsm.Holds.mono {fsm : DiscoveryFsm} {history history' : List EndpointInfo}
    {e : EndpointInfo} (h : fsm.Holds history' e) (hle : history <+: history') :
    fsm.Holds history e :=
  fun seen hseen he => h seen (hseen.trans hle) he

namespace MatchNotifier

/-- The local endpoints of a kind. -/
def endpoints (self : MatchNotifier) : EndpointKind → List LocalEndpoint
  | .writer => self.writerEndpoints
  | .reader => self.readerEndpoints

/-- The push at the head of `add_writer_topic` and `add_reader_topic`. -/
def push (self : MatchNotifier) (ep : LocalEndpoint) : EndpointKind → MatchNotifier
  | .writer => { self with writerEndpoints := self.writerEndpoints ++ [ep] }
  | .reader => { self with readerEndpoints := self.readerEndpoints ++ [ep] }

@[simp] theorem endpoints_push (self : MatchNotifier) (ep : LocalEndpoint) (k k' : EndpointKind) :
    (self.push ep k).endpoints k' =
      if k' = k then self.endpoints k' ++ [ep] else self.endpoints k' := by
  cases k <;> cases k' <;> rfl

@[simp] theorem localPrefix_push (self : MatchNotifier) (ep : LocalEndpoint) (k : EndpointKind) :
    (self.push ep k).localPrefix = self.localPrefix := by
  cases k <;> rfl

@[simp] theorem incompatibleTopics_push (self : MatchNotifier) (ep : LocalEndpoint)
    (k : EndpointKind) : (self.push ep k).incompatibleTopics = self.incompatibleTopics := by
  cases k <;> rfl

@[simp] theorem endpoints_markIncompatible (self : MatchNotifier) (t : String) (k : EndpointKind) :
    (self.markIncompatible t).endpoints k = self.endpoints k := by
  cases k <;> rfl

@[simp] theorem mem_incompatibleTopics_markIncompatible (self : MatchNotifier) (t t' : String) :
    t' ∈ (self.markIncompatible t).incompatibleTopics ↔ t' = t ∨ t' ∈ self.incompatibleTopics :=
  List.mem_insert_iff

theorem listening_eq (self : MatchNotifier) (e : EndpointInfo) :
    self.listening e =
      if e.prefix12 = self.localPrefix then [] else self.endpoints e.kind.peer := by
  unfold listening
  cases e.kind <;> rfl

/-- One turn of a catch-up loop, of either kind. -/
def catchUp (self : MatchNotifier) (k : EndpointKind) (confirmed : Bool) (ep : LocalEndpoint)
    (remote : EndpointInfo) : MatchNotifier × List Printed :=
  match k with
  | .writer => self.catchUpWriter confirmed ep remote
  | .reader => self.catchUpReader confirmed ep remote

/-- `add_writer_topic` or `add_reader_topic`. -/
def addTopic (fsm : DiscoveryFsm) (seen : List EndpointInfo) (self : MatchNotifier)
    (k : EndpointKind) (ep : LocalEndpoint) : MatchNotifier × List Printed :=
  match k with
  | .writer => addWriterTopic fsm seen self ep
  | .reader => addReaderTopic fsm seen self ep

theorem addTopic_eq (fsm : DiscoveryFsm) (seen : List EndpointInfo) (self : MatchNotifier)
    (k : EndpointKind) (ep : LocalEndpoint) :
    addTopic fsm seen self k ep =
      loop (fun self remote =>
        self.catchUp k (fsm.isEndpointParticipantConfirmed seen remote.endpointGuid) ep remote)
        (self.push ep k) (fsm.find k seen ep.topic) := by
  cases k <;> rfl

/-- The check of a local endpoint of kind `k` against a remote one. -/
def compat : EndpointKind → LocalEndpoint → EndpointInfo → Option Policy
  | .writer => writerCompat
  | .reader => readerCompat

/-- The line for a match of a local endpoint of kind `k`. -/
def matchedLine : EndpointKind → String → String → Line
  | .writer => .publicationMatched
  | .reader => .subscriptionMatched

/-- The line for an incompatibility, on the side of kind `k`. -/
def incompatibleLine : EndpointKind → String → Policy → Line
  | .writer => .offeredIncompatibleQos
  | .reader => .requestedIncompatibleQos

/-- The line a pair calls for.  A partition mismatch calls for none. -/
def dueLine (k : EndpointKind) (ep : LocalEndpoint) (remote : EndpointInfo) : Option Line :=
  match compat k ep remote with
  | none => some (matchedLine k ep.topic remote.typeName)
  | some .partition => none
  | some policy => some (incompatibleLine k ep.topic policy)

theorem dueLine_of_compat_none {k : EndpointKind} {ep : LocalEndpoint} {remote : EndpointInfo}
    (h : compat k ep remote = none) :
    dueLine k ep remote = some (matchedLine k ep.topic remote.typeName) := by
  simp [dueLine, h]

theorem dueLine_of_compat_some {k : EndpointKind} {ep : LocalEndpoint} {remote : EndpointInfo}
    {policy : Policy} (h : compat k ep remote = some policy) (hp : policy ≠ .partition) :
    dueLine k ep remote = some (incompatibleLine k ep.topic policy) := by
  cases policy <;> simp_all [dueLine]

theorem compat_ne_partition_of_dueLine {k : EndpointKind} {ep : LocalEndpoint}
    {remote : EndpointInfo} {line : Line} (h : dueLine k ep remote = some line) :
    compat k ep remote ≠ some .partition := by
  intro hp
  simp [dueLine, hp] at h

/-! ## What one turn can do -/

/-- A turn is about one pair.  It prints the line the pair calls for or none,
it leaves the lists alone, and it marks no topic but that of an incompatible
pair. -/
structure TurnSpec (notifier : MatchNotifier) (k : EndpointKind) (ep : LocalEndpoint)
    (remote : EndpointInfo) (result : MatchNotifier × List Printed) : Prop where
  endpoints_eq : result.1.endpoints = notifier.endpoints
  localPrefix_eq : result.1.localPrefix = notifier.localPrefix
  printed : ∀ p ∈ result.2, p.ep = ep ∧ p.remote = remote ∧ dueLine k ep remote = some p.line
  marked : ∀ t ∈ result.1.incompatibleTopics, t ∈ notifier.incompatibleTopics ∨
    t = ep.topic ∧ ∃ policy, compat k ep remote = some policy ∧ policy ≠ .partition

theorem turnSpec_silent (self : MatchNotifier) (k : EndpointKind) (ep : LocalEndpoint)
    (remote : EndpointInfo) : TurnSpec self k ep remote (self, []) where
  endpoints_eq := rfl
  localPrefix_eq := rfl
  printed := by simp
  marked := fun _ ht => .inl ht

theorem turnSpec_matched {self : MatchNotifier} {k : EndpointKind} {ep : LocalEndpoint}
    {remote : EndpointInfo} (h : compat k ep remote = none) :
    TurnSpec self k ep remote
      (self, [⟨ep, remote, matchedLine k ep.topic remote.typeName⟩]) where
  endpoints_eq := rfl
  localPrefix_eq := rfl
  printed := by simp [dueLine_of_compat_none h]
  marked := fun _ ht => .inl ht

theorem turnSpec_incompatible {self : MatchNotifier} {k : EndpointKind} {ep : LocalEndpoint}
    {remote : EndpointInfo} {policy : Policy} (h : compat k ep remote = some policy)
    (hp : policy ≠ .partition) :
    TurnSpec self k ep remote
      (self.markIncompatible ep.topic,
        [⟨ep, remote, incompatibleLine k ep.topic policy⟩]) where
  endpoints_eq := funext fun _ => endpoints_markIncompatible ..
  localPrefix_eq := rfl
  printed := by simp [dueLine_of_compat_some h hp]
  marked := by
    intro t ht
    rcases (mem_incompatibleTopics_markIncompatible ..).mp ht with rfl | ht
    · exact .inr ⟨rfl, policy, h, hp⟩
    · exact .inl ht

theorem catchUp_spec (self : MatchNotifier) (k : EndpointKind) (confirmed : Bool)
    (ep : LocalEndpoint) (remote : EndpointInfo) :
    TurnSpec self k ep remote (self.catchUp k confirmed ep remote) := by
  cases k with
  | writer =>
      simp only [catchUp, catchUpWriter]
      repeat' split
      all_goals first
        | exact turnSpec_silent ..
        | exact turnSpec_incompatible (k := .writer) ‹_› ‹_›
  | reader =>
      simp only [catchUp, catchUpReader]
      repeat' split
      all_goals first
        | exact turnSpec_silent ..
        | exact turnSpec_matched (k := .reader) ‹_›
        | exact turnSpec_incompatible (k := .reader) ‹_› (by simp_all)

theorem notify_spec (self : MatchNotifier) (remote : EndpointInfo) (ep : LocalEndpoint) :
    TurnSpec self remote.kind.peer ep remote (self.notify remote ep) := by
  unfold notify
  split
  · rename_i hk
    rw [hk]
    unfold notifyWriter
    repeat' split
    all_goals first
      | exact turnSpec_silent ..
      | exact turnSpec_matched (k := .writer) ‹_›
      | exact turnSpec_incompatible (k := .writer) ‹_› (by simp_all)
  · rename_i hk
    rw [hk]
    unfold notifyReader
    repeat' split
    all_goals first
      | exact turnSpec_silent ..
      | exact turnSpec_matched (k := .reader) ‹_›
      | exact turnSpec_incompatible (k := .reader) ‹_› (by simp_all)

theorem notify_of_topic_ne {self : MatchNotifier} {ep : LocalEndpoint} {remote : EndpointInfo}
    (h : ep.topic ≠ remote.topicName) : self.notify remote ep = (self, []) := by
  unfold notify notifyWriter notifyReader
  cases remote.kind <;> simp [h]

/-- The catch-up of a reader prints what is due. -/
theorem catchUp_reader_prints {self : MatchNotifier} {ep : LocalEndpoint} {remote : EndpointInfo}
    {line : Line} (hlocal : remote.prefix12 ≠ self.localPrefix)
    (h : dueLine .reader ep remote = some line) :
    ⟨ep, remote, line⟩ ∈ (self.catchUp .reader true ep remote).2 := by
  simp only [dueLine, compat] at h
  simp only [catchUp, catchUpReader, if_neg hlocal]
  split at h <;> simp_all [matchedLine, incompatibleLine]

/-- The listener prints what is due to a reader. -/
theorem notify_reader_prints {self : MatchNotifier} {ep : LocalEndpoint} {remote : EndpointInfo}
    {line : Line} (hkind : remote.kind = .writer) (htopic : ep.topic = remote.topicName)
    (h : dueLine .reader ep remote = some line) :
    ⟨ep, remote, line⟩ ∈ (self.notify remote ep).2 := by
  simp only [dueLine, compat] at h
  simp only [notify, hkind, notifyReader, if_pos htopic]
  split at h <;> simp_all [matchedLine, incompatibleLine]

/-- The listener prints a match of a writer, unless its topic was found
incompatible. -/
theorem notify_writer_prints {self : MatchNotifier} {ep : LocalEndpoint} {remote : EndpointInfo}
    (hkind : remote.kind = .reader) (htopic : ep.topic = remote.topicName)
    (h : writerCompat ep remote = none) (hclean : ep.topic ∉ self.incompatibleTopics) :
    ⟨ep, remote, .publicationMatched ep.topic remote.typeName⟩ ∈ (self.notify remote ep).2 := by
  simp only [notify, hkind, notifyWriter, if_pos htopic, h, if_neg hclean]
  exact List.mem_singleton.mpr rfl

end MatchNotifier

/-! ## The runs -/

/-- A call of `add_writer_topic` or `add_reader_topic`, past its push: what its
loop has still to go through, once the FSM was asked. -/
structure AddCall where
  kind : EndpointKind
  ep : LocalEndpoint
  todo : Option (List EndpointInfo)
deriving DecidableEq, Repr

/-- A discovery, past its insertion in the FSM: what the listener's loop has
still to go through, once it was called. -/
structure Discovery where
  remote : EndpointInfo
  todo : Option (List LocalEndpoint)
deriving DecidableEq, Repr

/-- The state of a run. -/
structure World where
  notifier : MatchNotifier
  adds : List AddCall
  discoveries : List Discovery
  log : List Printed
deriving DecidableEq, Repr

namespace World

/-- What the FSM has taken in. -/
def seen (w : World) : List EndpointInfo := w.discoveries.map Discovery.remote

/-- No listener holds the lock of the endpoints of this kind. -/
def Unlocked (w : World) (k : EndpointKind) : Prop :=
  ∀ d ∈ w.discoveries, d.remote.kind = k.peer → d.todo = none ∨ d.todo = some []

/-- At the start nothing is registered and nothing discovered. -/
def start (localPrefix : List UInt8) : World := ⟨MatchNotifier.new localPrefix, [], [], []⟩

/-- What a step is. -/
inductive Label where
  | push (k : EndpointKind) (ep : LocalEndpoint)
  | ask
  | scan
  | insert (e : EndpointInfo)
  | call
  | notify
deriving DecidableEq, Repr

/-- One step of one thread. -/
inductive Step (fsm : DiscoveryFsm) : World → Label → World → Prop
  | push {w : World} {k : EndpointKind} {ep : LocalEndpoint} : w.Unlocked k →
      Step fsm w (.push k ep)
        { w with notifier := w.notifier.push ep k, adds := w.adds ++ [⟨k, ep, none⟩] }
  | ask {w : World} {l₁ l₂ : List AddCall} {k : EndpointKind} {ep : LocalEndpoint} :
      w.adds = l₁ ++ ⟨k, ep, none⟩ :: l₂ →
      Step fsm w .ask
        { w with adds := l₁ ++ ⟨k, ep, some (fsm.find k w.seen ep.topic)⟩ :: l₂ }
  | scan {w : World} {l₁ l₂ : List AddCall} {k : EndpointKind} {ep : LocalEndpoint}
      {remote : EndpointInfo} {rest : List EndpointInfo} {result : MatchNotifier × List Printed} :
      w.adds = l₁ ++ ⟨k, ep, some (remote :: rest)⟩ :: l₂ →
      w.notifier.catchUp k (fsm.isEndpointParticipantConfirmed w.seen remote.endpointGuid)
        ep remote = result →
      Step fsm w .scan
        { w with notifier := result.1, adds := l₁ ++ ⟨k, ep, some rest⟩ :: l₂,
                 log := w.log ++ result.2 }
  | insert {w : World} {e : EndpointInfo} :
      Step fsm w (.insert e) { w with discoveries := w.discoveries ++ [⟨e, none⟩] }
  | call {w : World} {l₁ l₂ : List Discovery} {e : EndpointInfo} :
      w.discoveries = l₁ ++ ⟨e, none⟩ :: l₂ →
      (e.prefix12 ≠ w.notifier.localPrefix → w.Unlocked e.kind.peer) →
      Step fsm w .call
        { w with discoveries := l₁ ++ ⟨e, some (w.notifier.listening e)⟩ :: l₂ }
  | notify {w : World} {l₁ l₂ : List Discovery} {e : EndpointInfo} {ep : LocalEndpoint}
      {rest : List LocalEndpoint} {result : MatchNotifier × List Printed} :
      w.discoveries = l₁ ++ ⟨e, some (ep :: rest)⟩ :: l₂ →
      w.notifier.notify e ep = result →
      Step fsm w .notify
        { w with notifier := result.1, discoveries := l₁ ++ ⟨e, some rest⟩ :: l₂,
                 log := w.log ++ result.2 }

/-- The runs of a process with this GUID prefix. -/
def system (fsm : DiscoveryFsm) (localPrefix : List UInt8) : System World Label where
  init w := w = start localPrefix
  step := Step fsm

/-- What was registered. -/
def registered (w : World) : List (EndpointKind × LocalEndpoint) :=
  w.adds.map fun a => (a.kind, a.ep)

theorem mem_seen {w : World} {d : Discovery} (h : d ∈ w.discoveries) : d.remote ∈ w.seen :=
  List.mem_map_of_mem h

theorem mem_registered {w : World} {a : AddCall} (h : a ∈ w.adds) :
    (a.kind, a.ep) ∈ w.registered :=
  List.mem_map.mpr ⟨a, h, rfl⟩

theorem seen_replace {w : World} {l₁ l₂ : List Discovery} {e : EndpointInfo}
    {t : Option (List LocalEndpoint)} (t' : Option (List LocalEndpoint))
    (h : w.discoveries = l₁ ++ ⟨e, t⟩ :: l₂) :
    (l₁ ++ ⟨e, t'⟩ :: l₂).map Discovery.remote = w.seen := by
  simp [seen, h]

theorem registered_replace {w : World} {l₁ l₂ : List AddCall} {k : EndpointKind}
    {ep : LocalEndpoint} {t : Option (List EndpointInfo)} (t' : Option (List EndpointInfo))
    (h : w.adds = l₁ ++ ⟨k, ep, t⟩ :: l₂) :
    (l₁ ++ ⟨k, ep, t'⟩ :: l₂).map (fun a => (a.kind, a.ep)) = w.registered := by
  simp [registered, h]

theorem mem_replace {α : Type} {l₁ l₂ : List α} {x y z : α} (h : x ∈ l₁ ++ y :: l₂) :
    x = y ∨ x ∈ l₁ ++ z :: l₂ := by
  simp only [List.mem_append, List.mem_cons] at h ⊢
  tauto

/-- The FSM forgets nothing in a step. -/
theorem Step.seen_isPrefix {fsm : DiscoveryFsm} {w w' : World} {a : Label}
    (h : Step fsm w a w') : w.seen <+: w'.seen := by
  cases h with
  | @insert e => exact ⟨[e], by simp [seen]⟩
  | call hd => exact ⟨[], by rw [List.append_nil]; exact (seen_replace _ hd).symm⟩
  | notify hd => exact ⟨[], by rw [List.append_nil]; exact (seen_replace _ hd).symm⟩
  | push | ask | scan => exact List.prefix_rfl

/-- Nothing registered is forgotten in a step. -/
theorem Step.registered_isPrefix {fsm : DiscoveryFsm} {w w' : World} {a : Label}
    (h : Step fsm w a w') : w.registered <+: w'.registered := by
  cases h with
  | @push k ep => exact ⟨[(k, ep)], by simp [registered]⟩
  | ask ha => exact ⟨[], by rw [List.append_nil]; exact (registered_replace _ ha).symm⟩
  | scan ha => exact ⟨[], by rw [List.append_nil]; exact (registered_replace _ ha).symm⟩
  | insert | call | notify => exact List.prefix_rfl

/-- Some endpoint registered on the topic met an incompatible one. -/
def Incompatible (w : World) (k : EndpointKind) (t : String) : Prop :=
  ∃ ep e, (k, ep) ∈ w.registered ∧ ep.topic = t ∧ e ∈ w.seen ∧ e.kind = k.peer ∧ e.topicName = t ∧
    ∃ policy, MatchNotifier.compat k ep e = some policy ∧ policy ≠ .partition

theorem Incompatible.mono {w w' : World} {k : EndpointKind} {t : String}
    (hr : w.registered ⊆ w'.registered) (hs : w.seen ⊆ w'.seen) :
    w.Incompatible k t → w'.Incompatible k t := by
  rintro ⟨ep, e, hep, ht, he, hrest⟩
  exact ⟨ep, e, hr hep, ht, hs he, hrest⟩

/-! ## What every state of a run satisfies -/

/-- The lists of the notifier and of the loops hold what was registered and
announced, what is printed is due, and a marked topic deserves its mark. -/
structure Sound (localPrefix : List UInt8) (w : World) : Prop where
  localPrefix_eq : w.notifier.localPrefix = localPrefix
  mem_endpoints : ∀ k ep, ep ∈ w.notifier.endpoints k ↔ (k, ep) ∈ w.registered
  scanned : ∀ a ∈ w.adds, ∀ l, a.todo = some l → ∀ e ∈ l,
    e ∈ w.seen ∧ e.kind = a.kind.peer ∧ e.topicName = a.ep.topic
  notified : ∀ d ∈ w.discoveries, ∀ l, d.todo = some l → ∀ ep ∈ l,
    (d.remote.kind.peer, ep) ∈ w.registered
  log_due : ∀ p ∈ w.log, MatchNotifier.dueLine p.remote.kind.peer p.ep p.remote = some p.line
  marked : ∀ t ∈ w.notifier.incompatibleTopics, ∃ k, w.Incompatible k t

theorem sound_start (localPrefix : List UInt8) : (start localPrefix).Sound localPrefix where
  localPrefix_eq := rfl
  mem_endpoints := by
    intro k ep
    cases k <;> simp [start, MatchNotifier.new, MatchNotifier.endpoints, registered]
  scanned := by simp [start]
  notified := by simp [start]
  log_due := by simp [start]
  marked := by simp [start, MatchNotifier.new]

/-- A turn about a registered and an announced endpoint of one topic keeps
what is printed due and the marks deserved. -/
theorem Sound.turn {localPrefix : List UInt8} {w : World} (w' : World) {k : EndpointKind}
    {ep : LocalEndpoint} {e : EndpointInfo} {result : MatchNotifier × List Printed}
    (hw : w.Sound localPrefix) (hspec : MatchNotifier.TurnSpec w.notifier k ep e result)
    (hr : w'.registered = w.registered) (hs : w'.seen = w.seen)
    (hn : w'.notifier = result.1) (hlog : w'.log = w.log ++ result.2)
    (hk : e.kind = k.peer) (hep : (k, ep) ∈ w.registered) (he : e ∈ w.seen)
    (htopic : e.topicName = ep.topic) :
    (∀ p ∈ w'.log, MatchNotifier.dueLine p.remote.kind.peer p.ep p.remote = some p.line) ∧
      ∀ t ∈ w'.notifier.incompatibleTopics, ∃ k, w'.Incompatible k t := by
  have hmono : ∀ {k t}, w.Incompatible k t → w'.Incompatible k t :=
    Incompatible.mono (hr ▸ List.Subset.refl _) (hs ▸ List.Subset.refl _)
  constructor
  · intro p hp
    rw [hlog, List.mem_append] at hp
    rcases hp with hp | hp
    · exact hw.log_due p hp
    · obtain ⟨hpe, hpr, hline⟩ := hspec.printed p hp
      rw [hpe, hpr, hk, EndpointKind.peer_peer]
      exact hline
  · intro t ht
    rw [hn] at ht
    rcases hspec.marked t ht with ht | ⟨rfl, policy, hcompat, hp⟩
    · obtain ⟨k', h⟩ := hw.marked t ht
      exact ⟨k', hmono h⟩
    · exact ⟨k, hmono ⟨ep, e, hep, rfl, he, hk, htopic, policy, hcompat, hp⟩⟩

/-- The adding calls that a step leaves alone. -/
theorem Sound.scanned_frame {localPrefix : List UInt8} {w w' : World} (hw : w.Sound localPrefix)
    (ha : w'.adds = w.adds) (hs : w.seen ⊆ w'.seen) :
    ∀ a ∈ w'.adds, ∀ l, a.todo = some l → ∀ e ∈ l,
      e ∈ w'.seen ∧ e.kind = a.kind.peer ∧ e.topicName = a.ep.topic := by
  intro a ha' l hl e he
  obtain ⟨hseen, hrest⟩ := hw.scanned a (ha ▸ ha') l hl e he
  exact ⟨hs hseen, hrest⟩

/-- The discoveries that a step leaves alone. -/
theorem Sound.notified_frame {localPrefix : List UInt8} {w w' : World} (hw : w.Sound localPrefix)
    (hd : w'.discoveries = w.discoveries) (hr : w.registered ⊆ w'.registered) :
    ∀ d ∈ w'.discoveries, ∀ l, d.todo = some l → ∀ ep ∈ l,
      (d.remote.kind.peer, ep) ∈ w'.registered :=
  fun d hd' l hl ep hep => hr (hw.notified d (hd ▸ hd') l hl ep hep)

/-- The marks that a step leaves alone. -/
theorem Sound.marked_frame {localPrefix : List UInt8} {w w' : World} (hw : w.Sound localPrefix)
    (hn : w'.notifier.incompatibleTopics = w.notifier.incompatibleTopics)
    (hr : w.registered ⊆ w'.registered) (hs : w.seen ⊆ w'.seen) :
    ∀ t ∈ w'.notifier.incompatibleTopics, ∃ k, w'.Incompatible k t := by
  intro t ht
  obtain ⟨k, h⟩ := hw.marked t (hn ▸ ht)
  exact ⟨k, h.mono hr hs⟩

/-- The endpoints that a step leaves alone. -/
theorem Sound.mem_endpoints_frame {localPrefix : List UInt8} {w w' : World}
    (hw : w.Sound localPrefix) (hn : w'.notifier.endpoints = w.notifier.endpoints)
    (hr : w'.registered = w.registered) :
    ∀ k ep, ep ∈ w'.notifier.endpoints k ↔ (k, ep) ∈ w'.registered := by
  intro k ep
  rw [hn, hr]
  exact hw.mem_endpoints k ep

theorem Sound.step {fsm : DiscoveryFsm} {localPrefix : List UInt8} {w w' : World} {a : Label}
    (hw : w.Sound localPrefix) (h : Step fsm w a w') : w'.Sound localPrefix := by
  have hr := h.registered_isPrefix.subset
  have hs := h.seen_isPrefix.subset
  cases h with
  | @push k ep hfree =>
      refine ⟨by simpa using hw.localPrefix_eq, ?_, ?_, hw.notified_frame rfl hr, hw.log_due,
        hw.marked_frame (by simp) hr hs⟩
      · intro k' ep'
        have hmem := hw.mem_endpoints k' ep'
        by_cases hk : k' = k <;> simp_all [registered]
      · intro c hc l hl e he
        rcases List.mem_append.mp hc with hc | hc
        · exact hw.scanned c hc l hl e he
        · rw [List.mem_singleton.mp hc] at hl
          cases hl
  | @ask l₁ l₂ k ep ha =>
      refine ⟨hw.localPrefix_eq, hw.mem_endpoints_frame rfl (registered_replace _ ha), ?_,
        hw.notified_frame rfl hr, hw.log_due, hw.marked_frame rfl hr hs⟩
      intro c hc l hl e he
      rcases mem_replace hc with rfl | hc
      · obtain rfl := Option.some.inj hl
        exact DiscoveryFsm.of_mem_find he
      · exact hw.scanned c (ha ▸ hc) l hl e he
  | @scan l₁ l₂ k ep remote rest result ha hresult =>
      have hspec := hresult ▸ MatchNotifier.catchUp_spec w.notifier k _ ep remote
      have hin : (⟨k, ep, some (remote :: rest)⟩ : AddCall) ∈ w.adds := by simp [ha]
      obtain ⟨he, hk, htopic⟩ := hw.scanned _ hin _ rfl remote List.mem_cons_self
      obtain ⟨hlog, hmarked⟩ := hw.turn ({ w with
          notifier := result.1, adds := l₁ ++ ⟨k, ep, some rest⟩ :: l₂,
          log := w.log ++ result.2 })
        hspec (registered_replace _ ha) rfl rfl rfl hk (mem_registered hin) he htopic
      refine ⟨hspec.localPrefix_eq.trans hw.localPrefix_eq,
        hw.mem_endpoints_frame hspec.endpoints_eq (registered_replace _ ha), ?_,
        hw.notified_frame rfl hr, hlog, hmarked⟩
      intro c hc l hl e he
      rcases mem_replace hc with rfl | hc
      · obtain rfl := Option.some.inj hl
        exact hw.scanned _ hin _ rfl e (List.mem_cons_of_mem _ he)
      · exact hw.scanned c (ha ▸ hc) l hl e he
  | @insert e =>
      refine ⟨hw.localPrefix_eq, hw.mem_endpoints, hw.scanned_frame rfl hs, ?_, hw.log_due,
        hw.marked_frame rfl hr hs⟩
      intro d hd l hl ep' hep'
      rcases List.mem_append.mp hd with hd | hd
      · exact hw.notified d hd l hl ep' hep'
      · rw [List.mem_singleton.mp hd] at hl
        cases hl
  | @call l₁ l₂ e hd hfree =>
      refine ⟨hw.localPrefix_eq, hw.mem_endpoints, hw.scanned_frame rfl hs, ?_, hw.log_due,
        hw.marked_frame rfl hr hs⟩
      intro d hd' l hl ep' hep'
      rcases mem_replace hd' with rfl | hd'
      · obtain rfl := Option.some.inj hl
        rw [MatchNotifier.listening_eq] at hep'
        split at hep'
        · cases hep'
        · exact (hw.mem_endpoints _ _).mp hep'
      · exact hw.notified d (hd ▸ hd') l hl ep' hep'
  | @notify l₁ l₂ e ep rest result hd hresult =>
      have hspec := hresult ▸ MatchNotifier.notify_spec w.notifier e ep
      have hin : (⟨e, some (ep :: rest)⟩ : Discovery) ∈ w.discoveries := by simp [hd]
      have hep := hw.notified _ hin _ rfl ep List.mem_cons_self
      have hturn : (∀ p ∈ w.log ++ result.2,
            MatchNotifier.dueLine p.remote.kind.peer p.ep p.remote = some p.line) ∧
          ∀ t ∈ result.1.incompatibleTopics, ∃ k, Incompatible { w with
            notifier := result.1, discoveries := l₁ ++ ⟨e, some rest⟩ :: l₂,
            log := w.log ++ result.2 } k t := by
        by_cases htopic : ep.topic = e.topicName
        · exact hw.turn ({ w with
              notifier := result.1, discoveries := l₁ ++ ⟨e, some rest⟩ :: l₂,
              log := w.log ++ result.2 })
            hspec rfl (seen_replace _ hd) rfl rfl (by simp) hep (mem_seen hin) htopic.symm
        · rw [MatchNotifier.notify_of_topic_ne htopic] at hresult
          subst hresult
          refine ⟨by simpa using hw.log_due, fun t ht => ?_⟩
          obtain ⟨k', h⟩ := hw.marked t ht
          exact ⟨k', h.mono hr hs⟩
      refine ⟨hspec.localPrefix_eq.trans hw.localPrefix_eq,
        hw.mem_endpoints_frame hspec.endpoints_eq rfl, hw.scanned_frame rfl hs, ?_,
        hturn.1, hturn.2⟩
      intro d hd' l hl ep' hep'
      rcases mem_replace hd' with rfl | hd'
      · obtain rfl := Option.some.inj hl
        exact hw.notified _ hin _ rfl ep' (List.mem_cons_of_mem _ hep')
      · exact hw.notified d (hd ▸ hd') l hl ep' hep'

theorem sound_of_reachable {fsm : DiscoveryFsm} {localPrefix : List UInt8}
    {allowed : World → Label → Prop} {w : World}
    (h : (system fsm localPrefix).Reachable allowed w) : w.Sound localPrefix :=
  h.invariant _ (fun _ hw => hw ▸ sound_start localPrefix) (fun _ _ _ hw _ hs => hw.step hs)

/-! ## Calls that are left alone -/

section Alone

variable {fsm : DiscoveryFsm} {localPrefix : List UInt8} {allowed : World → Label → Prop}

/-- From `scan` to `scan` to the end of the loop. -/
theorem reachable_scanAll (hscan : ∀ w, allowed w .scan) {k : EndpointKind} {ep : LocalEndpoint}
    {l₁ l₂ : List AddCall} (todo : List EndpointInfo) {w : World}
    (hw : (system fsm localPrefix).Reachable allowed w)
    (ha : w.adds = l₁ ++ ⟨k, ep, some todo⟩ :: l₂)
    {result : MatchNotifier × List Printed}
    (hresult : MatchNotifier.loop (fun self remote => self.catchUp k
      (fsm.isEndpointParticipantConfirmed w.seen remote.endpointGuid) ep remote)
      w.notifier todo = result) :
    (system fsm localPrefix).Reachable allowed
      { w with notifier := result.1, adds := l₁ ++ ⟨k, ep, some []⟩ :: l₂,
               log := w.log ++ result.2 } := by
  induction todo generalizing w result with
  | nil =>
      subst hresult
      simp only [MatchNotifier.loop, List.append_nil, ← ha]
      exact hw
  | cons remote rest ih =>
      have hstep := System.Reachable.step hw (hscan w) (Step.scan ha rfl)
      have hrest := ih hstep rfl rfl
      subst hresult
      simp only [List.append_assoc] at hrest
      exact hrest

/-- A call of `add_writer_topic` or `add_reader_topic` from its first step to
its last. -/
theorem reachable_addTopic (hask : ∀ w, allowed w .ask) (hscan : ∀ w, allowed w .scan)
    (k : EndpointKind) (ep : LocalEndpoint) {w : World}
    (hw : (system fsm localPrefix).Reachable allowed w) (hpush : allowed w (.push k ep))
    (hfree : w.Unlocked k) :
    (system fsm localPrefix).Reachable allowed
      { w with notifier := (MatchNotifier.addTopic fsm w.seen w.notifier k ep).1,
               adds := w.adds ++ [⟨k, ep, some []⟩],
               log := w.log ++ (MatchNotifier.addTopic fsm w.seen w.notifier k ep).2 } := by
  have hpushed := System.Reachable.step hw hpush (Step.push hfree)
  have hasked := System.Reachable.step hpushed (hask _) (Step.ask rfl)
  rw [MatchNotifier.addTopic_eq]
  exact reachable_scanAll hscan _ hasked rfl rfl

/-- From `notify` to `notify` to the end of the loop. -/
theorem reachable_notifyAll (hnotify : ∀ w, allowed w .notify) {e : EndpointInfo}
    {l₁ l₂ : List Discovery} (todo : List LocalEndpoint) {w : World}
    (hw : (system fsm localPrefix).Reachable allowed w)
    (hd : w.discoveries = l₁ ++ ⟨e, some todo⟩ :: l₂)
    {result : MatchNotifier × List Printed}
    (hresult : MatchNotifier.loop (fun self ep => self.notify e ep) w.notifier todo = result) :
    (system fsm localPrefix).Reachable allowed
      { w with notifier := result.1, discoveries := l₁ ++ ⟨e, some []⟩ :: l₂,
               log := w.log ++ result.2 } := by
  induction todo generalizing w result with
  | nil =>
      subst hresult
      simp only [MatchNotifier.loop, List.append_nil, ← hd]
      exact hw
  | cons ep rest ih =>
      have hstep := System.Reachable.step hw (hnotify w) (Step.notify hd rfl)
      have hrest := ih hstep rfl rfl
      subst hresult
      simp only [List.append_assoc] at hrest
      exact hrest

/-- A discovery from its insertion in the FSM to the end of the listener. -/
theorem reachable_onEndpointDiscovered (hinsert : ∀ w e, allowed w (.insert e))
    (hcall : ∀ w, allowed w .call) (hnotify : ∀ w, allowed w .notify) {e : EndpointInfo}
    {w : World} (hw : (system fsm localPrefix).Reachable allowed w)
    (hfree : w.Unlocked e.kind.peer) :
    (system fsm localPrefix).Reachable allowed
      { w with notifier := (w.notifier.onEndpointDiscovered e).1,
               discoveries := w.discoveries ++ [⟨e, some []⟩],
               log := w.log ++ (w.notifier.onEndpointDiscovered e).2 } := by
  have hinserted := System.Reachable.step hw (hinsert w e) Step.insert
  have hcalled := System.Reachable.step hinserted (hcall _) (Step.call rfl fun _ d hd hk => by
    rcases List.mem_append.mp hd with hd | hd
    · exact hfree d hd hk
    · exact .inl (by rw [List.mem_singleton.mp hd]))
  exact reachable_notifyAll hnotify _ hcalled rfl rfl

end Alone

end World

end DdsRtps.Hdds
