/-
# `DdsRtps.Hdds.MatchOrder` — lines of a writer and the order of discovery

What is printed on a remote reader does not depend on the readers before it,
but for one thing: on a topic that is marked incompatible no match is printed.
The run of the notifier over remote readers is thus a feed through a gate
(`DdsRtps.Lib.Gate`), which a reader that is refused closes for its topic.

The refusals are the same lines in every order, and so are all lines exactly if,
on every topic on which a reader is refused, the refused readers have the same
matches to print, and the others none (`perm_linesOf_iff`).
-/
import DdsRtps.Hdds.MatchNotifier
import DdsRtps.Lib.Gate

namespace DdsRtps.Hdds

/-- The topic that a line is about. -/
def Line.topic : Line → String
  | .publicationMatched topic _ => topic
  | .subscriptionMatched topic _ => topic
  | .offeredIncompatibleQos topic _ => topic
  | .requestedIncompatibleQos topic _ => topic

namespace MatchNotifier

/-- Remote endpoints are discovered one after another. -/
def discoverAll (self : MatchNotifier) (es : List EndpointInfo) : MatchNotifier × List Printed :=
  loop onEndpointDiscovered self es

/-- The lines that are printed. -/
def linesOf (self : MatchNotifier) (es : List EndpointInfo) : List Line :=
  (self.discoverAll es).2.map Printed.line

/-! ## The lines on one remote reader -/

/-- The policy for which a writer on the topic refuses a reader. -/
def refusal (e : EndpointInfo) (ep : LocalEndpoint) : Option Policy :=
  if ep.topic = e.topicName then (writerCompat ep e).filter (· ≠ .partition) else none

/-- The lines on the refusals. -/
def refusalLines (e : EndpointInfo) (eps : List LocalEndpoint) : List Line :=
  eps.filterMap fun ep => (refusal e ep).map (.offeredIncompatibleQos ep.topic ·)

/-- The lines on the matches, of the writers before the first that refuses. -/
def matchLines (e : EndpointInfo) (eps : List LocalEndpoint) : List Line :=
  ((eps.takeWhile fun ep => refusal e ep = none).filter fun ep =>
    ep.topic = e.topicName ∧ writerCompat ep e = none).map
    fun ep => .publicationMatched ep.topic e.typeName

/-- A writer refuses the reader. -/
def refused (e : EndpointInfo) (eps : List LocalEndpoint) : Bool :=
  eps.any fun ep => (refusal e ep).isSome

/-- The notifier after the turns over a reader. -/
structure AfterReader (before after : MatchNotifier) (e : EndpointInfo)
    (eps : List LocalEndpoint) : Prop where
  writers : after.writerEndpoints = before.writerEndpoints
  localPrefix : after.localPrefix = before.localPrefix
  topics : ∀ t, t ∈ after.incompatibleTopics ↔
    t ∈ before.incompatibleTopics ∨ (t = e.topicName ∧ refused e eps = true)

/-- One turn: what a writer does with a reader. -/
theorem notifyWriter_cases (self : MatchNotifier) (e : EndpointInfo) (ep : LocalEndpoint) :
    (∃ policy, ep.topic = e.topicName ∧ refusal e ep = some policy ∧
        self.notifyWriter e ep =
          (self.markIncompatible ep.topic, [⟨ep, e, .offeredIncompatibleQos ep.topic policy⟩])) ∨
      (refusal e ep = none ∧ ep.topic = e.topicName ∧ writerCompat ep e = none ∧
        self.notifyWriter e ep =
          (self, if e.topicName ∈ self.incompatibleTopics then []
            else [⟨ep, e, .publicationMatched ep.topic e.typeName⟩])) ∨
      (refusal e ep = none ∧ ¬(ep.topic = e.topicName ∧ writerCompat ep e = none) ∧
        self.notifyWriter e ep = (self, [])) := by
  by_cases htopic : ep.topic = e.topicName
  · cases hcompat : writerCompat ep e with
    | none =>
        refine .inr (.inl ⟨?_, htopic, rfl, ?_⟩)
        · rw [refusal, if_pos htopic, hcompat]
          rfl
        · rw [notifyWriter, if_pos htopic, hcompat, ← htopic]
          simp only
          split <;> rfl
    | some policy =>
        by_cases hpartition : policy = .partition
        · subst hpartition
          refine .inr (.inr ⟨?_, fun hboth => (nomatch hboth.2), ?_⟩)
          · rw [refusal, if_pos htopic, hcompat]
            rfl
          · rw [notifyWriter, if_pos htopic, hcompat]
        · refine .inl ⟨policy, htopic, ?_, ?_⟩
          · rw [refusal, if_pos htopic, hcompat]
            simp [hpartition]
          · rw [notifyWriter, if_pos htopic, hcompat]
            cases policy <;> first | rfl | exact absurd rfl hpartition
  · refine .inr (.inr ⟨if_neg htopic, fun hboth => htopic hboth.1, ?_⟩)
    rw [notifyWriter, if_neg htopic]

theorem refusalLines_cons_of_none {e : EndpointInfo} {ep : LocalEndpoint}
    {eps : List LocalEndpoint} (h : refusal e ep = none) :
    refusalLines e (ep :: eps) = refusalLines e eps := by
  simp [refusalLines, h]

/-- A writer that refuses the reader. -/
theorem AfterReader.refuses {self after : MatchNotifier} {e : EndpointInfo} {ep : LocalEndpoint}
    {eps : List LocalEndpoint} {policy : Policy}
    (h : AfterReader (self.markIncompatible ep.topic) after e eps)
    (htopic : ep.topic = e.topicName) (hrefusal : refusal e ep = some policy) :
    AfterReader self after e (ep :: eps) := by
  have hrefused : refused e (ep :: eps) = true := by simp [refused, hrefusal]
  refine ⟨h.writers, h.localPrefix, fun t => ?_⟩
  rw [h.topics, hrefused, markIncompatible, List.mem_insert_iff, htopic]
  constructor
  · rintro ((h | h) | ⟨h, -⟩)
    · exact .inr ⟨h, rfl⟩
    · exact .inl h
    · exact .inr ⟨h, rfl⟩
  · rintro (h | ⟨h, -⟩)
    · exact .inl (.inr h)
    · exact .inl (.inl h)

/-- A writer that does not. -/
theorem AfterReader.passes {self after : MatchNotifier} {e : EndpointInfo} {ep : LocalEndpoint}
    {eps : List LocalEndpoint} (h : AfterReader self after e eps) (hrefusal : refusal e ep = none) :
    AfterReader self after e (ep :: eps) := by
  refine ⟨h.writers, h.localPrefix, fun t => ?_⟩
  rw [h.topics]
  simp [refused, hrefusal]

/-- The loop over the writers. -/
theorem loop_notifyWriter (self : MatchNotifier) (e : EndpointInfo) (eps : List LocalEndpoint) :
    AfterReader self (loop (fun self ep => self.notifyWriter e ep) self eps).1 e eps ∧
      ((loop (fun self ep => self.notifyWriter e ep) self eps).2.map Printed.line).Perm
        (refusalLines e eps ++
          if e.topicName ∈ self.incompatibleTopics then [] else matchLines e eps) := by
  induction eps generalizing self with
  | nil =>
      refine ⟨⟨rfl, rfl, fun t => ?_⟩, ?_⟩
      · simp [loop, refused]
      · simp [loop, refusalLines, matchLines]
  | cons ep eps ih =>
      rw [loop]
      simp only
      rcases notifyWriter_cases self e ep with
        ⟨policy, htopic, hrefusal, hturn⟩ | ⟨hrefusal, htopic, hcompat, hturn⟩ |
          ⟨hrefusal, hnot, hturn⟩
      · rw [hturn]
        obtain ⟨hafter, hlines⟩ := ih (self.markIncompatible ep.topic)
        refine ⟨hafter.refuses htopic hrefusal, ?_⟩
        have hmarked : e.topicName ∈ (self.markIncompatible ep.topic).incompatibleTopics := by
          simp [markIncompatible, htopic]
        have hmatch : matchLines e (ep :: eps) = [] := by simp [matchLines, hrefusal]
        have hrefusals : refusalLines e (ep :: eps) =
            .offeredIncompatibleQos ep.topic policy :: refusalLines e eps := by
          simp [refusalLines, hrefusal]
        rw [if_pos hmarked, List.append_nil] at hlines
        rw [hmatch, ite_self, List.append_nil, hrefusals]
        exact hlines.cons _
      · rw [hturn]
        obtain ⟨hafter, hlines⟩ := ih self
        refine ⟨hafter.passes hrefusal, ?_⟩
        rw [refusalLines_cons_of_none hrefusal]
        simp only
        split
        · rename_i hmarked
          rw [if_pos hmarked] at hlines
          exact hlines
        · rename_i hopen
          rw [if_neg hopen] at hlines
          have hmatch : matchLines e (ep :: eps) =
              .publicationMatched ep.topic e.typeName :: matchLines e eps := by
            simp [matchLines, hrefusal, htopic, hcompat]
          rw [hmatch]
          exact (hlines.cons _).trans List.perm_middle.symm
      · rw [hturn]
        obtain ⟨hafter, hlines⟩ := ih self
        refine ⟨hafter.passes hrefusal, ?_⟩
        have hmatch : matchLines e (ep :: eps) = matchLines e eps := by
          simp [matchLines, hrefusal, hnot]
        rw [refusalLines_cons_of_none hrefusal, hmatch]
        exact hlines

/-! ## The run over the remote readers -/

/-- The writers that hear of a reader: none, if it is our own. -/
def hearing (writers : List LocalEndpoint) (localPrefix : List UInt8) (e : EndpointInfo) :
    List LocalEndpoint :=
  if e.prefix12 = localPrefix then [] else writers

theorem onEndpointDiscovered_reader {self : MatchNotifier} {e : EndpointInfo}
    (hreader : e.kind = .reader) :
    self.onEndpointDiscovered e =
      loop (fun self ep => self.notifyWriter e ep) self
        (hearing self.writerEndpoints self.localPrefix e) := by
  have hturn : (fun (self : MatchNotifier) ep => self.notify e ep) =
      fun self ep => self.notifyWriter e ep := by
    funext self ep
    rw [notify, hreader]
  rw [onEndpointDiscovered, hturn, listening, hreader, hearing]

/-- The refusals, and what passes the gate of the incompatible topics. -/
theorem linesOf_perm (self : MatchNotifier) {es : List EndpointInfo}
    (hreader : ∀ e ∈ es, e.kind = .reader) :
    (self.linesOf es).Perm
      (es.flatMap (fun e => refusalLines e (hearing self.writerEndpoints self.localPrefix e)) ++
        Gate.run EndpointInfo.topicName
          (fun e => matchLines e (hearing self.writerEndpoints self.localPrefix e))
          (fun e => refused e (hearing self.writerEndpoints self.localPrefix e))
          self.incompatibleTopics es) := by
  induction es generalizing self with
  | nil => exact List.Perm.refl _
  | cons e es ih =>
      rw [List.forall_mem_cons] at hreader
      obtain ⟨hafter, hlines⟩ := loop_notifyWriter self e
        (hearing self.writerEndpoints self.localPrefix e)
      rw [← onEndpointDiscovered_reader hreader.1] at hafter hlines
      have hrest := ih (self.onEndpointDiscovered e).1 hreader.2
      have hclosed : ∀ t, t ∈ (self.onEndpointDiscovered e).1.incompatibleTopics ↔
          t ∈ (if refused e (hearing self.writerEndpoints self.localPrefix e) then
            e.topicName :: self.incompatibleTopics else self.incompatibleTopics) := by
        intro t
        rw [hafter.topics]
        split
        · rename_i hrefused
          rw [hrefused, List.mem_cons, and_iff_left rfl, or_comm]
        · rename_i hrefused
          simp [hrefused]
      rw [hafter.writers, hafter.localPrefix, Gate.run_congr hclosed] at hrest
      have hcons : self.linesOf (e :: es) =
          (self.onEndpointDiscovered e).2.map Printed.line ++
            (self.onEndpointDiscovered e).1.linesOf es := by
        rw [linesOf, discoverAll, loop]
        simp only [List.map_append]
        rfl
      rw [hcons, Gate.run, List.flatMap_cons]
      refine (hlines.append hrest).trans ?_
      -- the refusals of the others go before what is heard of this one
      rw [List.append_assoc, List.append_assoc]
      refine List.Perm.append_left _ ?_
      rw [← List.append_assoc, ← List.append_assoc]
      exact List.Perm.append_right _ List.perm_append_comm

theorem topic_of_mem_matchLines {e : EndpointInfo} {eps : List LocalEndpoint} :
    ∀ line ∈ matchLines e eps, line.topic = e.topicName := by
  intro line hline
  obtain ⟨ep, hep, rfl⟩ := List.mem_map.mp hline
  have hboth := of_decide_eq_true (List.mem_filter.mp hep).2
  exact hboth.1

/-- A line on an incompatible QoS that was offered. -/
def isRefusalLine : Line → Bool
  | .offeredIncompatibleQos _ _ => true
  | _ => false

/-- On a topic that is not yet marked, and on which a reader is refused, every
refused reader has the same matches before its refusal, and the other readers have
none. -/
def RefusalsSettle (self : MatchNotifier) (es : List EndpointInfo) : Prop :=
  Gate.Agree EndpointInfo.topicName
    (fun e => matchLines e (hearing self.writerEndpoints self.localPrefix e))
    (fun e => refused e (hearing self.writerEndpoints self.localPrefix e))
    self.incompatibleTopics es

theorem filter_isRefusalLine_run (self : MatchNotifier) (closed : List String)
    (es : List EndpointInfo) :
    (Gate.run EndpointInfo.topicName
        (fun e => matchLines e (hearing self.writerEndpoints self.localPrefix e))
        (fun e => refused e (hearing self.writerEndpoints self.localPrefix e))
        closed es).filter isRefusalLine = [] := by
  induction es generalizing closed with
  | nil => rfl
  | cons e es ih =>
      rw [Gate.run, List.filter_append, ih, List.append_nil]
      split
      · rfl
      · rw [List.filter_eq_nil_iff]
        intro line hline
        obtain ⟨ep, -, rfl⟩ := List.mem_map.mp hline
        exact Bool.false_ne_true

/-- The lines on refusals are the same in every order of the readers, and all lines
are, exactly if the refusals settle their topics. -/
theorem perm_linesOf_iff (self : MatchNotifier) {es : List EndpointInfo}
    (hreader : ∀ e ∈ es, e.kind = .reader) :
    (∀ es', es'.Perm es →
        ((self.linesOf es').filter isRefusalLine).Perm
          ((self.linesOf es).filter isRefusalLine)) ∧
      ((∀ es', es'.Perm es → (self.linesOf es').Perm (self.linesOf es)) ↔
        self.RefusalsSettle es) := by
  have hreader' : ∀ {es' : List EndpointInfo}, es'.Perm es → ∀ e ∈ es', e.kind = .reader :=
    fun hperm e he => hreader e (hperm.mem_iff.mp he)
  constructor
  · intro es' hperm
    have hlines := (linesOf_perm self hreader).filter isRefusalLine
    have hlines' := (linesOf_perm self (hreader' hperm)).filter isRefusalLine
    rw [List.filter_append, filter_isRefusalLine_run, List.append_nil] at hlines hlines'
    exact (hlines'.trans ((hperm.flatMap_right _).filter _)).trans hlines.symm
  · rw [RefusalsSettle, ← Gate.forall_perm_run_iff fun _ => topic_of_mem_matchLines]
    constructor
    · intro h es' hperm
      have hlines := ((linesOf_perm self (hreader' hperm)).symm.trans (h es' hperm)).trans
        (linesOf_perm self hreader)
      -- the refusals are the same lines, and cancel
      exact (List.perm_append_left_iff _).mp
        (((hperm.symm.flatMap_right _).append_right _).trans hlines)
    · intro h es' hperm
      refine ((linesOf_perm self (hreader' hperm)).trans ?_).trans (linesOf_perm self hreader).symm
      exact (hperm.flatMap_right _).append (h es' hperm)

/-! ## Two readers of one topic -/

/-- The QoS of an endpoint that announces nothing. -/
def plainQos : QoS where
  dataRepresentation := []
  reliability := .bestEffort
  ownershipKind := .shared
  deadlinePeriod := defaultDeadline
  durability := .volatile
  partitionNames := []

/-- A notifier with one writer on `Square`. -/
def squareNotifier : MatchNotifier where
  writerEndpoints := [⟨"Square", plainQos, .default⟩]
  readerEndpoints := []
  localPrefix := List.replicate 12 0
  incompatibleTopics := []

/-- A remote reader of `Square`. -/
def squareReader (guid : UInt8) (qos : QoS) : EndpointInfo where
  endpointGuid := List.replicate 16 guid
  kind := .reader
  topicName := "Square"
  typeName := "ShapeType"
  qos := qos
  hasExplicitOwnership := true
  hasOwnershipStrength := true

/-- A reader that matches. -/
def plainReader : EndpointInfo := squareReader 1 plainQos

/-- A reader that the writer cannot serve. -/
def reliableReader : EndpointInfo := squareReader 2 { plainQos with reliability := .reliable }

theorem linesOf_plainReader_reliableReader :
    squareNotifier.linesOf [plainReader, reliableReader] =
      [.publicationMatched "Square" "ShapeType", .offeredIncompatibleQos "Square" .reliability] := by
  decide

theorem linesOf_reliableReader_plainReader :
    squareNotifier.linesOf [reliableReader, plainReader] =
      [.offeredIncompatibleQos "Square" .reliability] := by
  decide

/-- The match is printed only if it comes first. -/
theorem not_perm_linesOf_reliableReader :
    [reliableReader, plainReader].Perm [plainReader, reliableReader] ∧
      ¬(squareNotifier.linesOf [reliableReader, plainReader]).Perm
        (squareNotifier.linesOf [plainReader, reliableReader]) := by
  constructor
  · exact List.Perm.swap _ _ _
  · rw [linesOf_plainReader_reliableReader, linesOf_reliableReader_plainReader]
    intro hperm
    exact absurd hperm.length_eq (by decide)

theorem perm_linesOf_iff_twoReaders :
    (∀ es', es'.Perm [plainReader, reliableReader] →
        ((squareNotifier.linesOf es').filter isRefusalLine).Perm
          ((squareNotifier.linesOf [plainReader, reliableReader]).filter isRefusalLine)) ∧
      ((∀ es', es'.Perm [plainReader, reliableReader] →
          (squareNotifier.linesOf es').Perm
            (squareNotifier.linesOf [plainReader, reliableReader])) ↔
        squareNotifier.RefusalsSettle [plainReader, reliableReader]) :=
  perm_linesOf_iff squareNotifier (by decide)

end MatchNotifier

end DdsRtps.Hdds
