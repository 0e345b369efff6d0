/-
# `DdsRtps.Hdds.Agreement` — what a publisher and a subscriber print about each other

Two processes of srcRs/HDDS/src/main.rs, one that publishes and one that
subscribes.  Each builds its endpoints and is then a run of
`DdsRtps.Hdds.MatchRuns`: it registers them, and takes in the announcements of
the other, and of third parties, at any time and in any order.  An endpoint is
announced from when it is built, which is before it is registered.

Each process makes up its mind on its own, the publisher from its own QoS and
the announced QoS of the reader, the subscriber the other way round.  Once
everything announced has been taken in and every call has ended, the two agree:
they name the same policy, or they are matched (`parties_agree`).

How the hdds crate announces an endpoint is a parameter: `Announces` is what
becomes of the QoS on the way.  A QoS without data representations may arrive
with both.
-/
import DdsRtps.Hdds.BuildQos
import DdsRtps.Hdds.NoMatchLost
import Mathlib.Logic.Function.Basic

namespace DdsRtps.Hdds

open Transition (System)
open MatchNotifier (writerCompat readerCompat)

/-! ## The two processes -/

/-- Which of the two. -/
inductive Side where
  | publisher
  | subscriber
deriving DecidableEq, Repr

namespace Side

/-- The other one. -/
def other : Side → Side
  | publisher => subscriber
  | subscriber => publisher

/-- What it registers: `run_publisher` writers and `run_subscriber` readers. -/
def kind : Side → EndpointKind
  | publisher => .writer
  | subscriber => .reader

@[simp] theorem other_other (s : Side) : s.other.other = s := by cases s <;> rfl

@[simp] theorem kind_other (s : Side) : s.other.kind = s.kind.peer := by cases s <;> rfl

end Side

/-- `topic_name_at`. -/
def topicNameAt (base : String) (idx : Nat) : String :=
  if idx = 0 then base else base ++ toString idx

/-- What becomes of a QoS that is announced. -/
structure Announces (own announced : QoS) : Prop where
  reliability : announced.reliability = own.reliability
  ownershipKind : announced.ownershipKind = own.ownershipKind
  deadlinePeriod : announced.deadlinePeriod = own.deadlinePeriod
  durability : announced.durability = own.durability
  partitionNames : announced.partitionNames = own.partitionNames
  restricted : own.dataRepresentation ≠ [] →
    announced.dataRepresentation = own.dataRepresentation
  unrestricted : own.dataRepresentation = [] → announced.dataRepresentation = [] ∨
    0 ∈ announced.dataRepresentation ∧ 2 ∈ announced.dataRepresentation

theorem Announces.refl (qos : QoS) : Announces qos qos :=
  ⟨rfl, rfl, rfl, rfl, rfl, fun _ => rfl, .inl⟩

/-- A process: its command line, and its part of the hdds crate. -/
structure Participant where
  args : List String
  options : ShapeOptions
  parsed : parse args = .accepted options
  fsm : DiscoveryFsm
  localPrefix : List UInt8
  /-- What the others are told of an endpoint. -/
  announce : LocalEndpoint → EndpointInfo

/-- Two processes that are to meet. -/
structure Deployment (Q : Type) where
  builder : QosBuilder Q
  party : Side → Participant
  publish : ∀ s, (party s).options.publish = true ↔ s = .publisher
  prefix_ne : ∀ s : Side, (party s.other).localPrefix ≠ (party s).localPrefix
  announce_kind : ∀ s ep, ((party s).announce ep).kind = s.kind
  announce_topic : ∀ s ep, ((party s).announce ep).topicName = ep.topic
  announce_type : ∀ s ep, ((party s).announce ep).typeName = "ShapeType"
  announce_prefix : ∀ s ep, ((party s).announce ep).prefix12 = (party s).localPrefix
  announce_qos : ∀ s ep, Announces ep.qos ((party s).announce ep).qos
  announce_ownership : ∀ ep, inferredOwnership ep.qos
    ((party .publisher).announce ep).hasExplicitOwnership
    ((party .publisher).announce ep).hasOwnershipStrength = ep.qos.ownershipKind

namespace Deployment

variable {Q : Type} (d : Deployment Q)

/-- The options of a process. -/
def options (s : Side) : ShapeOptions := (d.party s).options

/-- The endpoint of a topic; the name of the first is `topic_name`, which the
parser has made sure of. -/
def endpointAt (s : Side) (idx : Nat) : LocalEndpoint where
  topic := topicNameAt ((d.options s).topicName.getD "") idx
  qos := d.builder.view (buildQos d.builder (d.options s))
  dataRepr := (d.options s).dataRepresentation

/-- The endpoints of a process, one for each topic. -/
def endpoints (s : Side) : List LocalEndpoint :=
  (List.range (d.options s).numTopics.toNat).map (d.endpointAt s)

/-- The policy on which the two disagree. -/
def verdict : Option Policy := disagreement (d.options .publisher) (d.options .subscriber)

end Deployment

/-- Where the two processes are: the endpoints built, and the two runs. -/
structure Joint where
  built : Side → List LocalEndpoint
  world : Side → World

/-- What a step is. -/
inductive Act where
  | build (s : Side) (ep : LocalEndpoint)
  | step (s : Side) (l : World.Label)
deriving DecidableEq, Repr

namespace Joint

variable {Q : Type} (d : Deployment Q)

/-- What a process may do: it registers what it has built, and is told of the
other one's endpoints as they are, and once they are built. -/
def Permitted (st : Joint) (s : Side) : World.Label → Prop
  | .push k ep => k = s.kind ∧ ep ∈ st.built s
  | .insert e => e.prefix12 = (d.party s.other).localPrefix →
      ∃ ep ∈ st.built s.other, e = (d.party s.other).announce ep
  | _ => True

/-- A step of one of the two. -/
inductive Step : Joint → Act → Joint → Prop
  | build {st : Joint} {s : Side} {ep : LocalEndpoint} : ep ∈ d.endpoints s →
      Step st (.build s ep)
        { st with built := Function.update st.built s (st.built s ++ [ep]) }
  | step {st : Joint} {s : Side} {l : World.Label} {w : World} : st.Permitted d s l →
      World.Step (d.party s).fsm (st.world s) l w →
      Step st (.step s l) { st with world := Function.update st.world s w }

/-- At the start nothing is built. -/
def start : Joint := ⟨fun _ => [], fun s => World.start (d.party s).localPrefix⟩

/-- All runs of the two. -/
def system : System Joint Act where
  init st := st = start d
  step := Step d

variable {d}

/-- Each of the two is on a run of its own. -/
theorem reachable_world {st : Joint} (h : (system d).Reachable Transition.anyStep st) (s : Side) :
    (World.system (d.party s).fsm (d.party s).localPrefix).Reachable Transition.anyStep
      (st.world s) := by
  induction h with
  | init h =>
      obtain rfl := h
      exact .init rfl
  | step _ _ hstep ih =>
      cases hstep with
      | build => exact ih
      | @step s' l w _ hw =>
          by_cases hs : s = s'
          · subst hs
            simp only [Function.update_self]
            exact ih.step trivial hw
          · simp only [Function.update_of_ne hs]
            exact ih

/-! ## Where endpoints and announcements come from -/

/-- What was built is an endpoint of the process, what was registered was
built, and what was taken in of the other is an endpoint of it. -/
structure Known (d : Deployment Q) (st : Joint) : Prop where
  built_mem : ∀ s, ∀ ep ∈ st.built s, ep ∈ d.endpoints s
  registered_mem : ∀ s, ∀ r ∈ (st.world s).registered, r.1 = s.kind ∧ r.2 ∈ d.endpoints s
  seen_mem : ∀ s, ∀ e ∈ (st.world s).seen, e.prefix12 = (d.party s.other).localPrefix →
    ∃ ep ∈ d.endpoints s.other, e = (d.party s.other).announce ep

theorem known_step {st st' : Joint} {a : Act} (h : Known d st) (hstep : Step d st a st') :
    Known d st' := by
  cases hstep with
  | @build s ep hep =>
      refine ⟨fun s' ep' hep' => ?_, h.registered_mem, h.seen_mem⟩
      by_cases hs : s' = s
      · subst hs
        simp only [Function.update_self, List.mem_append, List.mem_singleton] at hep'
        rcases hep' with hep' | rfl
        · exact h.built_mem s' ep' hep'
        · exact hep
      · simp only [Function.update_of_ne hs] at hep'
        exact h.built_mem s' ep' hep'
  | @step s l w hl hw =>
      refine ⟨h.built_mem, fun s' r hr => ?_, fun s' e he hprefix => ?_⟩
      · by_cases hs : s' = s
        · subst hs
          simp only [Function.update_self] at hr
          rcases hw.mem_registered hr with hr | rfl
          · exact h.registered_mem s' r hr
          · exact ⟨hl.1, h.built_mem s' _ hl.2⟩
        · simp only [Function.update_of_ne hs] at hr
          exact h.registered_mem s' r hr
      · by_cases hs : s' = s
        · subst hs
          simp only [Function.update_self] at he
          rcases hw.mem_seen he with he | rfl
          · exact h.seen_mem s' e he hprefix
          · obtain ⟨ep, hep, heq⟩ := hl hprefix
            exact ⟨ep, h.built_mem s'.other ep hep, heq⟩
        · simp only [Function.update_of_ne hs] at he
          exact h.seen_mem s' e he hprefix

theorem known_of_reachable {st : Joint} (h : (system d).Reachable Transition.anyStep st) :
    Known d st := by
  refine h.invariant (Known d) ?_ fun st a st' hk _ hstep => known_step hk hstep
  rintro st rfl
  exact ⟨by simp [start], by simp [start, World.start, World.registered],
    by simp [start, World.start, World.seen]⟩

end Joint

/-! ## Each makes up its mind alone -/

theorem noCommonRepresentation_announced {pub sub : ShapeOptions} {w r : QoS}
    (hw : Announces (qosOf pub) w) (hr : Announces (qosOf sub) r) :
    NoCommonRepresentation w r ↔ NoCommonRepresentation (qosOf pub) (qosOf sub) := by
  obtain ⟨-, -, -, -, -, hwr, hwu⟩ := hw
  obtain ⟨-, -, -, -, -, hrr, hru⟩ := hr
  rw [noCommonRepresentation_qosOf_iff]
  simp only [qosOf] at hwr hwu hrr hru
  unfold NoCommonRepresentation
  -- a side without a restriction announces nothing, or both
  cases hp : pub.dataRepresentation <;> cases hs : sub.dataRepresentation <;>
    simp only [hp, hs, DataRepresentation.ids, ne_eq, not_true_eq_false, not_false_eq_true,
      List.cons_ne_nil, forall_const, false_implies] at hwr hwu hrr hru
  · rcases hwu with h | ⟨h, -⟩
    · simp [h]
    · rcases hru with h' | ⟨h', -⟩
      · simp [h']
      · simpa using fun _ _ => ⟨0, h, h'⟩
  · rcases hwu with h | ⟨h, -⟩ <;> simp [h, hrr]
  · rcases hwu with h | ⟨-, h⟩ <;> simp [h, hrr]
  · rcases hru with h | ⟨h, -⟩ <;> simp [h, hwr]
  · simp [hwr, hrr]
  · simp [hwr, hrr]
  · rcases hru with h | ⟨-, h⟩ <;> simp [h, hwr]
  · simp [hwr, hrr]
  · simp [hwr, hrr]

/-- The check does not notice that its QoS came by announcement. -/
theorem checkWriterReaderCompat_announced {pub sub : ShapeOptions} {w r : QoS}
    (hw : Announces (qosOf pub) w) (hr : Announces (qosOf sub) r) {explicit strength : Bool}
    (hownership : inferredOwnership w explicit strength = (qosOf pub).ownershipKind)
    (x y : DataRepresentation) :
    checkWriterReaderCompat w x r y explicit strength =
      checkWriterReaderCompat (qosOf pub) x (qosOf sub) y true true := by
  unfold inferredOwnership at hownership
  have hrepresentation := noCommonRepresentation_announced hw hr
  rw [← noCommonRepresentation_iff, ← noCommonRepresentation_iff, ← Bool.eq_iff_iff]
    at hrepresentation
  unfold checkWriterReaderCompat
  simp only [hrepresentation, hw.reliability, hr.reliability, hownership, hr.ownershipKind, hw.deadlinePeriod,
    hr.deadlinePeriod, hw.durability, hr.durability, hw.partitionNames, hr.partitionNames, if_true]

namespace Deployment

variable {Q : Type} (d : Deployment Q)

theorem deadline_lt (s : Side) : (d.options s).deadlineIntervalMs < 2 ^ 32 :=
  (inType_parse .deadlineInterval (d.party s).parsed).2

theorem qos_of_mem {s : Side} {ep : LocalEndpoint} (h : ep ∈ d.endpoints s) :
    ep.qos = qosOf (d.options s) := by
  obtain ⟨idx, -, rfl⟩ := List.mem_map.mp h
  exact view_buildQos ..

/-- Either side finds the verdict, from its own QoS and what it was told. -/
theorem compat_eq_verdict {s : Side} {ep ep' : LocalEndpoint} (h : ep ∈ d.endpoints s)
    (h' : ep' ∈ d.endpoints s.other) :
    MatchNotifier.compat s.kind ep ((d.party s.other).announce ep') = d.verdict := by
  have hqos := d.qos_of_mem h
  have hannounced := d.qos_of_mem h' ▸ d.announce_qos s.other ep'
  rw [Deployment.verdict, ← checkWriterReaderCompat_qosOf (d.deadline_lt _) (d.deadline_lt _)]
  cases s with
  | publisher =>
      simp only [MatchNotifier.compat, Side.kind, writerCompat, hqos]
      exact checkWriterReaderCompat_announced (Announces.refl _) hannounced rfl _ _
  | subscriber =>
      simp only [MatchNotifier.compat, Side.kind, readerCompat, hqos]
      refine checkWriterReaderCompat_announced hannounced (Announces.refl _) ?_ _ _
      have hinferred := d.announce_ownership ep'
      rw [d.qos_of_mem h'] at hinferred
      unfold inferredOwnership at hinferred ⊢
      rw [hannounced.ownershipKind]
      exact hinferred

/-- A topic that both have. -/
def Shared (topic : String) : Prop :=
  ∀ s, ∃ ep ∈ d.endpoints s, ep.topic = topic

end Deployment

/-! ## What both print -/

namespace Joint

variable {Q : Type} {d : Deployment Q}

/-- The process has printed the line on account of the other one. -/
def Prints (d : Deployment Q) (st : Joint) (s : Side) (line : Line) : Prop :=
  ∃ p ∈ (st.world s).log, p.line = line ∧ p.remote.prefix12 = (d.party s.other).localPrefix

/-- Every endpoint is registered, every endpoint of the other is taken in, the
calls have ended, and no FSM has dropped what it had taken in. -/
structure Settled (d : Deployment Q) (st : Joint) : Prop where
  added : ∀ s, ∀ ep ∈ d.endpoints s, ⟨s.kind, ep, some []⟩ ∈ (st.world s).adds
  discovered : ∀ s, ∀ ep ∈ d.endpoints s.other,
    ⟨(d.party s.other).announce ep, some []⟩ ∈ (st.world s).discoveries
  holds : ∀ s, ∀ ep ∈ d.endpoints s.other,
    (d.party s).fsm.Holds (st.world s).seen ((d.party s.other).announce ep)

/-- Every line on account of the other is the one that the verdict calls for,
on a topic that both have. -/
theorem due_of_prints {st : Joint} (h : (system d).Reachable Transition.anyStep st) {s : Side}
    {line : Line} (hline : Prints d st s line) :
    ∃ ep ∈ d.endpoints s, ∃ ep' ∈ d.endpoints s.other, ep.topic = ep'.topic ∧
      MatchNotifier.dueLine s.kind ep ((d.party s.other).announce ep') = some line := by
  obtain ⟨p, hp, rfl, hprefix⟩ := hline
  have hworld := reachable_world h s
  have hknown := known_of_reachable h
  obtain ⟨hregistered, hseen, htopic⟩ := World.logKnown_of_reachable hworld p hp
  obtain ⟨hkind, hep⟩ := hknown.registered_mem s _ hregistered
  obtain ⟨ep', hep', hremote⟩ := hknown.seen_mem s _ hseen hprefix
  refine ⟨p.ep, hep, ep', hep', ?_, ?_⟩
  · rw [htopic, hremote, d.announce_topic]
  · have hdue := (World.sound_of_reachable hworld).log_due p hp
    rw [← hremote, ← hkind]
    exact hdue

/-- The prompt line of two endpoints that share a topic is printed in the end. -/
theorem prints_of_prompt {st : Joint} (h : (system d).Reachable Transition.anyStep st)
    (hsettled : Settled d st) {s : Side} {ep ep' : LocalEndpoint} (hep : ep ∈ d.endpoints s)
    (hep' : ep' ∈ d.endpoints s.other) (htopic : ep.topic = ep'.topic) {line : Line}
    (hline : MatchNotifier.Prompt s.kind ep ((d.party s.other).announce ep') line) :
    Prints d st s line := by
  have hmeet : (st.world s).Meets (d.party s).fsm (d.party s).localPrefix s.kind
      ⟨s.kind, ep, some []⟩ ⟨(d.party s.other).announce ep', some []⟩ :=
    { kind_local := rfl
      kind_remote := by rw [d.announce_kind, Side.kind_other]
      topic := by rw [d.announce_topic, htopic]
      not_local := by rw [d.announce_prefix]; exact d.prefix_ne s
      holds := hsettled.holds s ep' hep' }
  exact ⟨_, World.prompt_printed (reachable_world h s) (hsettled.added s ep hep)
    (hsettled.discovered s ep' hep') hmeet ⟨rfl, rfl⟩ hline, rfl, d.announce_prefix _ _⟩

theorem shared_of_mem {s : Side} {ep ep' : LocalEndpoint} (hep : ep ∈ d.endpoints s)
    (hep' : ep' ∈ d.endpoints s.other) (htopic : ep.topic = ep'.topic) : d.Shared ep.topic := by
  intro s'
  by_cases hs : s' = s
  · exact hs ▸ ⟨ep, hep, rfl⟩
  · have hother : s' = s.other := by cases s <;> cases s' <;> first | rfl | exact absurd rfl hs
    exact hother ▸ ⟨ep', hep', htopic.symm⟩

/-- **In every state**, what a process prints on account of the other is what
the verdict calls for. -/
theorem verdict_of_prints {st : Joint} (h : (system d).Reachable Transition.anyStep st) {s : Side}
    {line : Line} (hline : Prints d st s line) :
    ∃ topic, d.Shared topic ∧
      ((d.verdict = none ∧ line = MatchNotifier.matchedLine s.kind topic "ShapeType") ∨
        ∃ policy, d.verdict = some policy ∧ policy ≠ .partition ∧
          line = MatchNotifier.incompatibleLine s.kind topic policy) := by
  obtain ⟨ep, hep, ep', hep', htopic, hdue⟩ := due_of_prints h hline
  have hcompat := d.compat_eq_verdict hep hep'
  refine ⟨ep.topic, shared_of_mem hep hep' htopic, ?_⟩
  cases hverdict : d.verdict with
  | none =>
      rw [hverdict] at hcompat
      rw [MatchNotifier.dueLine_of_compat_none hcompat, d.announce_type] at hdue
      exact .inl ⟨rfl, (Option.some.inj hdue).symm⟩
  | some policy =>
      rw [hverdict] at hcompat
      have hp : policy ≠ .partition := fun hp =>
        MatchNotifier.compat_ne_partition_of_dueLine hdue (hp ▸ hcompat)
      rw [MatchNotifier.dueLine_of_compat_some hcompat hp] at hdue
      exact .inr ⟨policy, rfl, hp, (Option.some.inj hdue).symm⟩

/-- Once all is settled, each side prints the incompatibilities of the verdict. -/
theorem prints_incompatible_iff {st : Joint} (h : (system d).Reachable Transition.anyStep st)
    (hsettled : Settled d st) (s : Side) (topic : String) (policy : Policy) :
    Prints d st s (MatchNotifier.incompatibleLine s.kind topic policy) ↔
      d.Shared topic ∧ d.verdict = some policy ∧ policy ≠ .partition := by
  constructor
  · intro hline
    obtain ⟨topic', hshared, ⟨-, heq⟩ | ⟨policy', hverdict, hp, heq⟩⟩ := verdict_of_prints h hline
    · cases s <;> cases heq
    · have hsame : topic = topic' ∧ policy = policy' := by
        cases s <;> (cases heq; exact ⟨rfl, rfl⟩)
      obtain ⟨rfl, rfl⟩ := hsame
      exact ⟨hshared, hverdict, hp⟩
  · rintro ⟨hshared, hverdict, hp⟩
    obtain ⟨ep, hep, rfl⟩ := hshared s
    obtain ⟨ep', hep', htopic⟩ := hshared s.other
    have hcompat := (d.compat_eq_verdict hep hep').trans hverdict
    exact prints_of_prompt h hsettled hep hep' htopic.symm
      (MatchNotifier.prompt_incompatible hcompat hp)

/-- Once all is settled, the subscriber prints the match of the verdict. -/
theorem prints_subscriptionMatched_iff {st : Joint}
    (h : (system d).Reachable Transition.anyStep st) (hsettled : Settled d st)
    (topic typeName : String) :
    Prints d st .subscriber (.subscriptionMatched topic typeName) ↔
      d.Shared topic ∧ d.verdict = none ∧ typeName = "ShapeType" := by
  constructor
  · intro hline
    obtain ⟨topic', hshared, ⟨hverdict, heq⟩ | ⟨policy, -, -, heq⟩⟩ := verdict_of_prints h hline
    · cases heq
      exact ⟨hshared, hverdict, rfl⟩
    · cases heq
  · rintro ⟨hshared, hverdict, rfl⟩
    obtain ⟨ep, hep, rfl⟩ := hshared .subscriber
    obtain ⟨ep', hep', htopic⟩ := hshared .publisher
    have hcompat := (d.compat_eq_verdict (s := .subscriber) hep hep').trans hverdict
    have hdue := MatchNotifier.dueLine_of_compat_none hcompat
    rw [d.announce_type] at hdue
    exact prints_of_prompt h hsettled hep hep' htopic.symm (MatchNotifier.prompt_reader hdue)

/-- **The two agree.**  In every run of both, in whatever order the endpoints
are built, announced and registered, once all is settled: the publisher names
a policy on a topic exactly when the subscriber does, it is the same one, the
first on which the options disagree; the subscriber has matched exactly if
there is none; and the publisher has matched only where the subscriber has. -/
theorem parties_agree {st : Joint} (h : (system d).Reachable Transition.anyStep st)
    (hsettled : Settled d st) (topic : String) :
    (∀ policy, Prints d st .publisher (.offeredIncompatibleQos topic policy) ↔
      d.Shared topic ∧ d.verdict = some policy ∧ policy ≠ .partition) ∧
    (∀ policy, Prints d st .subscriber (.requestedIncompatibleQos topic policy) ↔
      d.Shared topic ∧ d.verdict = some policy ∧ policy ≠ .partition) ∧
    (∀ typeName, Prints d st .subscriber (.subscriptionMatched topic typeName) ↔
      d.Shared topic ∧ d.verdict = none ∧ typeName = "ShapeType") ∧
    ∀ typeName, Prints d st .publisher (.publicationMatched topic typeName) →
      Prints d st .subscriber (.subscriptionMatched topic typeName) := by
  refine ⟨prints_incompatible_iff h hsettled .publisher topic,
    prints_incompatible_iff h hsettled .subscriber topic,
    prints_subscriptionMatched_iff h hsettled topic, fun typeName hline => ?_⟩
  obtain ⟨topic', hshared, ⟨hverdict, heq⟩ | ⟨policy, -, -, heq⟩⟩ := verdict_of_prints h hline
  · cases heq
    exact (prints_subscriptionMatched_iff h hsettled _ _).mpr ⟨hshared, hverdict, rfl⟩
  · cases heq

/-! ## A concrete run -/

/-- While the other one waits, a process may go on by itself. -/
theorem reachable_alone {st : Joint} (h : (system d).Reachable Transition.anyStep st) (s : Side)
    (hstart : st.world s = World.start (d.party s).localPrefix) {w : World}
    (hw : (World.system (d.party s).fsm (d.party s).localPrefix).Reachable
      (fun _ l => st.Permitted d s l) w) :
    (system d).Reachable Transition.anyStep
      { st with world := Function.update st.world s w } := by
  induction hw with
  | init hw =>
      obtain rfl := hw
      rw [← hstart, Function.update_eq_self]
      exact h
  | @step w w' l _ hl hstep ih =>
      have hstep : World.Step (d.party s).fsm w l w' := hstep
      have hbefore : World.Step (d.party s).fsm (Function.update st.world s w s) l w' := by
        simpa using hstep
      have hstep' : Joint.Step d ⟨st.built, Function.update st.world s w⟩ (.step s l)
          ⟨st.built, Function.update (Function.update st.world s w) s w'⟩ :=
        Step.step hl hbefore
      have hreach := System.Reachable.step ih trivial hstep'
      simpa using hreach

end Joint

/-- The part of the QoS that is read, as a QoS. -/
def readBuilder : QosBuilder QoS where
  view := id
  ofReliability r := ⟨[], r, .shared, defaultDeadline, .volatile, []⟩
  durability x q := { q with durability := x }
  keepLast _ q := q
  keepAll q := q
  dataRepresentationXcdr1 q := { q with dataRepresentation := [0] }
  dataRepresentationXcdr2 q := { q with dataRepresentation := [2] }
  ownershipExclusive q := { q with ownershipKind := .exclusive }
  ownershipShared q := { q with ownershipKind := .shared }
  ownershipStrength _ q := q
  deadlineMillis n q := { q with deadlinePeriod := n * 1000000 }
  lifespanMillis _ q := q
  timeBasedFilterMillis _ q := q
  partitionSingle x q := { q with partitionNames := [x] }
  presentation _ q := q
  view_ofReliability _ := rfl
  view_durability _ _ := rfl
  view_keepLast _ _ := rfl
  view_keepAll _ := rfl
  view_xcdr1 _ := rfl
  view_xcdr2 _ := rfl
  view_exclusive _ := rfl
  view_shared _ := rfl
  view_strength _ _ := rfl
  view_deadline _ _ := rfl
  view_lifespan _ _ := rfl
  view_timeBasedFilter _ _ := rfl
  view_partition _ _ := rfl
  view_presentation _ _ := rfl

/-- `-P -t Square -b`, and `-S -t Square -r`. -/
def squareArgs : Side → List String
  | .publisher => ["hdds_shape_main", "-P", "-t", "Square", "-b"]
  | .subscriber => ["hdds_shape_main", "-S", "-t", "Square", "-r"]

/-- What the parser makes of them. -/
def squareOptions : Side → ShapeOptions
  | .publisher =>
      { ShapeOptions.default_ with
        publish := true, topicName := some "Square", reliabilityKind := .bestEffort,
        color := some "BLUE" }
  | .subscriber => { ShapeOptions.default_ with subscribe := true, topicName := some "Square" }

theorem parse_squareArgs (s : Side) : parse (squareArgs s) = .accepted (squareOptions s) := by
  cases s <;> decide

/-- The prefix of its GUIDs. -/
def squarePrefix : Side → List UInt8
  | .publisher => List.replicate 12 1
  | .subscriber => List.replicate 12 2

/-- The two processes, each with an FSM that remembers everything. -/
def squareDeployment : Deployment QoS where
  builder := readBuilder
  party s :=
    { args := squareArgs s
      options := squareOptions s
      parsed := parse_squareArgs s
      fsm := World.rememberAll
      localPrefix := squarePrefix s
      announce := fun ep =>
        ⟨squarePrefix s ++ [0, 0, 0, 0], s.kind, ep.topic, "ShapeType", ep.qos, true, true⟩ }
  publish s := by cases s <;> decide
  prefix_ne s := by cases s <;> decide
  announce_kind _ _ := rfl
  announce_topic _ _ := rfl
  announce_type _ _ := rfl
  announce_prefix s ep := by cases s <;> rfl
  announce_qos _ ep := Announces.refl ep.qos
  announce_ownership _ := rfl

/-- A process that has built and registered its endpoint, and has then taken in
the one of the other. -/
def squareWorld (s : Side) : World :=
  let ep := squareDeployment.endpointAt s 0
  let e := (squareDeployment.party s.other).announce (squareDeployment.endpointAt s.other 0)
  let added := MatchNotifier.addTopic World.rememberAll [] (MatchNotifier.new (squarePrefix s))
    s.kind ep
  let discovered := added.1.onEndpointDiscovered e
  ⟨discovered.1, [⟨s.kind, ep, some []⟩], [⟨e, some []⟩], added.2 ++ discovered.2⟩

/-- Both of them. -/
def squareJoint : Joint := ⟨fun s => [squareDeployment.endpointAt s 0], squareWorld⟩

theorem reachable_squareWorld {allowed : World → World.Label → Prop} (s : Side)
    (hpush : ∀ w, allowed w (.push s.kind (squareDeployment.endpointAt s 0)))
    (hinsert : ∀ w, allowed w (.insert
      ((squareDeployment.party s.other).announce (squareDeployment.endpointAt s.other 0))))
    (hrest : ∀ w, allowed w .ask ∧ allowed w .scan ∧ allowed w .call ∧ allowed w .notify) :
    (World.system World.rememberAll (squarePrefix s)).Reachable allowed (squareWorld s) := by
  have hstart : (World.system World.rememberAll (squarePrefix s)).Reachable allowed
      (World.start (squarePrefix s)) := .init rfl
  have hadded := World.reachable_addTopic (fun w => (hrest w).1) (fun w => (hrest w).2.1) s.kind
    (squareDeployment.endpointAt s 0) hstart (hpush _) (by simp [World.Unlocked, World.start])
  have hinserted := System.Reachable.step hadded (hinsert _) World.Step.insert
  have hcalled := System.Reachable.step hinserted (hrest _).2.2.1
    (World.Step.call (List.nil_append _).symm fun _ x hx _ =>
      .inl (by rw [List.mem_singleton.mp hx]))
  exact World.reachable_notifyAll (fun w => (hrest w).2.2.2) _ hcalled rfl rfl

theorem reachable_squareJoint :
    (Joint.system squareDeployment).Reachable Transition.anyStep squareJoint := by
  have hmem : ∀ s, squareDeployment.endpointAt s 0 ∈ squareDeployment.endpoints s := by
    intro s
    cases s <;> decide
  have hstart : (Joint.system squareDeployment).Reachable Transition.anyStep
      (Joint.start squareDeployment) := .init rfl
  have hpub := hstart.step trivial (Joint.Step.build (hmem .publisher))
  have hsub := hpub.step trivial (Joint.Step.build (hmem .subscriber))
  have hbuilt : ∀ world, (⟨Function.update (Function.update (fun _ => []) Side.publisher
      ([] ++ [squareDeployment.endpointAt .publisher 0])) .subscriber
        ([] ++ [squareDeployment.endpointAt .subscriber 0]), world⟩ : Joint) =
      ⟨squareJoint.built, world⟩ := by
    intro world
    congr 1
    funext s
    cases s <;> rfl
  have hsub : (Joint.system squareDeployment).Reachable Transition.anyStep
      ⟨squareJoint.built, (Joint.start squareDeployment).world⟩ := by
    rw [← hbuilt]
    exact hsub
  have hpermitted : ∀ world s,
      (World.system World.rememberAll (squarePrefix s)).Reachable
        (fun _ l => (⟨squareJoint.built, world⟩ : Joint).Permitted squareDeployment s l)
        (squareWorld s) := by
    intro world s
    exact reachable_squareWorld s (fun _ => ⟨rfl, List.mem_singleton.mpr rfl⟩)
      (fun _ _ => ⟨_, List.mem_singleton.mpr rfl, rfl⟩) fun _ => ⟨trivial, trivial, trivial, trivial⟩
  have hfirst := Joint.reachable_alone hsub .publisher rfl
    (hpermitted (Joint.start squareDeployment).world .publisher)
  have hsecond := Joint.reachable_alone hfirst .subscriber rfl (hpermitted _ .subscriber)
  have hfinal : squareJoint = ⟨squareJoint.built, Function.update (Function.update
      (Joint.start squareDeployment).world .publisher (squareWorld .publisher)) .subscriber
        (squareWorld .subscriber)⟩ := by
    unfold squareJoint
    congr 1
    funext s
    cases s <;> rfl
  rw [hfinal]
  exact hsecond

theorem settled_squareJoint : Joint.Settled squareDeployment squareJoint where
  added := by
    intro s
    cases s <;> decide
  discovered := by
    intro s
    cases s <;> decide
  holds _ _ _ := World.rememberAll_holds _ _

/-- The best-effort publisher and the reliable subscriber agree on why not. -/
theorem parties_agree_square :
    Joint.Prints squareDeployment squareJoint .publisher
        (.offeredIncompatibleQos "Square" .reliability) ∧
      Joint.Prints squareDeployment squareJoint .subscriber
        (.requestedIncompatibleQos "Square" .reliability) := by
  obtain ⟨hpub, hsub, -⟩ :=
    Joint.parties_agree reachable_squareJoint settled_squareJoint "Square"
  have hshared : squareDeployment.Shared "Square" ∧
      squareDeployment.verdict = some .reliability ∧ Policy.reliability ≠ .partition :=
    ⟨fun s => by cases s <;> decide, by decide, by decide⟩
  exact ⟨(hpub _).mpr hshared, (hsub _).mpr hshared⟩

end DdsRtps.Hdds
