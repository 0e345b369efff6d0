/-
# `DdsRtps.Hdds.PromptLines` — the lines that are never lost

A catch-up loop and the listener's loop both print the lines of a reader, and
both print the incompatibilities of a writer; only the match of a writer is
left to the listener.  The lines that neither loop leaves to the other are
prompt (`Prompt`).

A pair of a registered and an announced endpoint is always in one of five
places (`Settling`): the FSM is yet to be asked, the listener is yet to be
called, the pair is in the hands of the catch-up loop, it is in the hands of
the listener's loop, or its prompt line is out.  No step takes it back.
-/
import DdsRtps.Hdds.MatchRuns

namespace DdsRtps.Hdds

namespace MatchNotifier

/-- A line that is due, and is not the match of a writer. -/
def Prompt (k : EndpointKind) (ep : LocalEndpoint) (remote : EndpointInfo) (line : Line) : Prop :=
  dueLine k ep remote = some line ∧ (k = .writer → compat k ep remote ≠ none)

theorem prompt_reader {ep : LocalEndpoint} {remote : EndpointInfo} {line : Line}
    (h : dueLine .reader ep remote = some line) : Prompt .reader ep remote line :=
  ⟨h, nofun⟩

theorem prompt_incompatible {k : EndpointKind} {ep : LocalEndpoint} {remote : EndpointInfo}
    {policy : Policy} (h : compat k ep remote = some policy) (hp : policy ≠ .partition) :
    Prompt k ep remote (incompatibleLine k ep.topic policy) :=
  ⟨dueLine_of_compat_some h hp, by simp [h]⟩

/-- A prompt line of a writer is about an incompatibility. -/
theorem Prompt.exists_policy {ep : LocalEndpoint} {remote : EndpointInfo} {line : Line}
    (h : Prompt .writer ep remote line) :
    ∃ policy, writerCompat ep remote = some policy ∧ policy ≠ .partition ∧
      line = .offeredIncompatibleQos ep.topic policy := by
  obtain ⟨hdue, hne⟩ := h
  obtain ⟨policy, hpolicy⟩ := Option.ne_none_iff_exists'.mp (hne rfl)
  have hp : policy ≠ .partition := fun hp =>
    compat_ne_partition_of_dueLine hdue (hp ▸ hpolicy)
  have hline := hdue.symm.trans (dueLine_of_compat_some hpolicy hp)
  exact ⟨policy, hpolicy, hp, Option.some.inj hline⟩

theorem catchUp_prints {self : MatchNotifier} {k : EndpointKind} {ep : LocalEndpoint}
    {remote : EndpointInfo} {line : Line} (hlocal : remote.prefix12 ≠ self.localPrefix)
    (h : Prompt k ep remote line) : ⟨ep, remote, line⟩ ∈ (self.catchUp k true ep remote).2 := by
  cases k with
  | reader => exact catchUp_reader_prints hlocal h.1
  | writer =>
      obtain ⟨policy, hpolicy, hp, rfl⟩ := h.exists_policy
      simp [catchUp, catchUpWriter, hlocal, hpolicy, hp]

theorem notify_prints {self : MatchNotifier} {k : EndpointKind} {ep : LocalEndpoint}
    {remote : EndpointInfo} {line : Line} (hkind : remote.kind = k.peer)
    (htopic : ep.topic = remote.topicName) (h : Prompt k ep remote line) :
    ⟨ep, remote, line⟩ ∈ (self.notify remote ep).2 := by
  cases k with
  | reader => exact notify_reader_prints hkind htopic h.1
  | writer =>
      obtain ⟨policy, hpolicy, hp, rfl⟩ := h.exists_policy
      have hkind : remote.kind = .reader := hkind
      rw [notify, hkind]
      simp only [notifyWriter, if_pos htopic, hpolicy]
      exact List.mem_singleton.mpr rfl

end MatchNotifier

open MatchNotifier (Prompt)

namespace World

/-- A local endpoint of kind `k` and a remote one that it is to meet: they are
on one topic, the remote one is not our own, and the FSM holds it. -/
structure Meets (fsm : DiscoveryFsm) (localPrefix : List UInt8) (w : World) (k : EndpointKind)
    (a : AddCall) (d : Discovery) : Prop where
  kind_local : a.kind = k
  kind_remote : d.remote.kind = k.peer
  topic : d.remote.topicName = a.ep.topic
  not_local : d.remote.prefix12 ≠ localPrefix
  holds : fsm.Holds w.seen d.remote

/-- Both calls have come to their end. -/
def BothDone (a : AddCall) (d : Discovery) : Prop := a.todo = some [] ∧ d.todo = some []

/-- Where a local endpoint and a remote one are with each other. -/
def Settling (w : World) (k : EndpointKind) (a : AddCall) (d : Discovery) : Prop :=
  a.todo = none ∨ d.todo = none ∨ (∃ l, a.todo = some l ∧ d.remote ∈ l) ∨
    (∃ l, d.todo = some l ∧ a.ep ∈ l) ∨
      ∀ line, Prompt k a.ep d.remote line → ⟨a.ep, d.remote, line⟩ ∈ w.log

theorem Settling.of_log {w w' : World} {k : EndpointKind} {a : AddCall} {d : Discovery}
    (h : w.Settling k a d) (hlog : w.log ⊆ w'.log) : w'.Settling k a d := by
  rcases h with h | h | h | h | h
  · exact .inl h
  · exact .inr (.inl h)
  · exact .inr (.inr (.inl h))
  · exact .inr (.inr (.inr (.inl h)))
  · exact .inr (.inr (.inr (.inr fun line hline => hlog (h line hline))))

/-- Nothing prompt is lost between endpoints that are to meet. -/
def AllSettling (fsm : DiscoveryFsm) (localPrefix : List UInt8) (w : World) : Prop :=
  ∀ k, ∀ a ∈ w.adds, ∀ d ∈ w.discoveries, w.Meets fsm localPrefix k a d → w.Settling k a d

theorem allSettling_step {fsm : DiscoveryFsm} {localPrefix : List UInt8} {w w' : World}
    {l : Label} (hsound : w.Sound localPrefix) (hw : w.AllSettling fsm localPrefix)
    (h : Step fsm w l w') : w'.AllSettling fsm localPrefix := by
  have hs := h.seen_isPrefix
  intro k a ha d hd hmeet
  have hholds := hmeet.holds.mono hs
  -- the same pair in the state before, where it is there
  have hold : ∀ a₀ ∈ w.adds, ∀ d₀ ∈ w.discoveries, a₀.kind = a.kind → a₀.ep = a.ep →
      d₀.remote = d.remote → w.Settling k a₀ d₀ := fun a₀ ha₀ d₀ hd₀ hk hep hr =>
    hw k a₀ ha₀ d₀ hd₀ ⟨hk.trans hmeet.kind_local, hr ▸ hmeet.kind_remote,
      hr ▸ hep ▸ hmeet.topic, hr ▸ hmeet.not_local, hr ▸ hholds⟩
  cases h with
  | push =>
      rcases List.mem_append.mp ha with ha | ha
      · exact (hold a ha d hd rfl rfl rfl).of_log (List.Subset.refl _)
      · exact .inl (by rw [List.mem_singleton.mp ha])
  | insert =>
      rcases List.mem_append.mp hd with hd | hd
      · exact (hold a ha d hd rfl rfl rfl).of_log (List.Subset.refl _)
      · exact .inr (.inl (by rw [List.mem_singleton.mp hd]))
  | @ask l₁ l₂ k' ep hadds =>
      rcases mem_replace ha with rfl | ha
      · -- the answer of the FSM has the remote endpoint in it
        have hfound := (hholds w.seen List.prefix_rfl (mem_seen hd)).1
        obtain rfl : k' = k := hmeet.kind_local
        rw [hmeet.kind_remote, hmeet.topic, EndpointKind.peer_peer] at hfound
        exact .inr (.inr (.inl ⟨_, rfl, hfound⟩))
      · exact (hold a (hadds ▸ ha) d hd rfl rfl rfl).of_log (List.Subset.refl _)
  | @scan l₁ l₂ k' ep remote rest result hadds hresult =>
      rcases mem_replace ha with rfl | ha
      · have hin : (⟨k', ep, some (remote :: rest)⟩ : AddCall) ∈ w.adds := by simp [hadds]
        rcases hold _ hin d hd rfl rfl rfl with h | h | ⟨l, hl, h⟩ | h | h
        · cases h
        · exact .inr (.inl h)
        · obtain rfl := Option.some.inj hl
          rcases List.mem_cons.mp h with hhead | h
          · -- its turn has come
            refine .inr (.inr (.inr (.inr fun line hline => List.mem_append_right _ ?_)))
            obtain rfl : k' = k := hmeet.kind_local
            have hconfirmed := (hholds w.seen List.prefix_rfl (mem_seen hd)).2
            rw [← hresult, ← hhead, hconfirmed]
            exact MatchNotifier.catchUp_prints (hsound.localPrefix_eq ▸ hmeet.not_local) hline
          · exact .inr (.inr (.inl ⟨_, rfl, h⟩))
        · exact .inr (.inr (.inr (.inl h)))
        · exact .inr (.inr (.inr (.inr fun line hline =>
            List.mem_append_left _ (h line hline))))
      · exact (hold a (hadds ▸ ha) d hd rfl rfl rfl).of_log (List.subset_append_left _ _)
  | @call l₁ l₂ e hdisc hfree =>
      rcases mem_replace hd with rfl | hd
      · -- the listener goes through a list that has the local endpoint in it
        refine .inr (.inr (.inr (.inl ⟨_, rfl, ?_⟩)))
        rw [MatchNotifier.listening_eq, if_neg (hsound.localPrefix_eq ▸ hmeet.not_local),
          hmeet.kind_remote, EndpointKind.peer_peer, hsound.mem_endpoints]
        have hreg := mem_registered ha
        rwa [hmeet.kind_local] at hreg
      · exact (hold a ha d (hdisc ▸ hd) rfl rfl rfl).of_log (List.Subset.refl _)
  | @notify l₁ l₂ e ep rest result hdisc hresult =>
      rcases mem_replace hd with rfl | hd
      · have hin : (⟨e, some (ep :: rest)⟩ : Discovery) ∈ w.discoveries := by simp [hdisc]
        rcases hold a ha _ hin rfl rfl rfl with h | h | h | ⟨l, hl, h⟩ | h
        · exact .inl h
        · cases h
        · exact .inr (.inr (.inl h))
        · obtain rfl := Option.some.inj hl
          rcases List.mem_cons.mp h with rfl | h
          · -- its turn has come
            refine .inr (.inr (.inr (.inr fun line hline => List.mem_append_right _ ?_)))
            rw [← hresult]
            exact MatchNotifier.notify_prints hmeet.kind_remote hmeet.topic.symm hline
          · exact .inr (.inr (.inr (.inl ⟨_, rfl, h⟩)))
        · exact .inr (.inr (.inr (.inr fun line hline =>
            List.mem_append_left _ (h line hline))))
      · exact (hold a ha d (hdisc ▸ hd) rfl rfl rfl).of_log (List.subset_append_left _ _)

theorem settling_of_reachable {fsm : DiscoveryFsm} {localPrefix : List UInt8}
    {allowed : World → Label → Prop} {w : World} {k : EndpointKind} {a : AddCall} {d : Discovery}
    (h : (system fsm localPrefix).Reachable allowed w) (ha : a ∈ w.adds)
    (hd : d ∈ w.discoveries) (hmeet : w.Meets fsm localPrefix k a d) : w.Settling k a d := by
  have hinv := h.invariant (fun w => w.Sound localPrefix ∧ w.AllSettling fsm localPrefix) (by
      rintro w rfl
      exact ⟨sound_start localPrefix, by simp [AllSettling, start]⟩) (by
      rintro w l w' ⟨hsound, hw⟩ - hstep
      exact ⟨hsound.step hstep, allSettling_step hsound hw hstep⟩)
  exact hinv.2 k a ha d hd hmeet

/-- When both calls have ended, the prompt lines of the pair are out. -/
theorem prompt_printed {fsm : DiscoveryFsm} {localPrefix : List UInt8}
    {allowed : World → Label → Prop} {w : World} {k : EndpointKind} {a : AddCall} {d : Discovery}
    (h : (system fsm localPrefix).Reachable allowed w) (ha : a ∈ w.adds)
    (hd : d ∈ w.discoveries) (hmeet : w.Meets fsm localPrefix k a d) (hdone : BothDone a d)
    {line : Line} (hline : Prompt k a.ep d.remote line) :
    ⟨a.ep, d.remote, line⟩ ∈ w.log := by
  obtain ⟨hadone, hddone⟩ := hdone
  have hsettling := settling_of_reachable h ha hd hmeet
  have hprinted : ∀ line, Prompt k a.ep d.remote line → ⟨a.ep, d.remote, line⟩ ∈ w.log := by
    simpa [Settling, hadone, hddone] using hsettling
  exact hprinted line hline

/-! ## Whom a line is about -/

theorem Step.mem_seen {fsm : DiscoveryFsm} {w w' : World} {l : Label} {e : EndpointInfo}
    (h : Step fsm w l w') (he : e ∈ w'.seen) : e ∈ w.seen ∨ l = .insert e := by
  cases h with
  | @insert e' =>
      simp only [seen, List.map_append, List.map_cons, List.map_nil, List.mem_append,
        List.mem_singleton] at he
      rcases he with he | rfl
      · exact .inl he
      · exact .inr rfl
  | call hd =>
      rw [seen, seen_replace _ hd] at he
      exact .inl he
  | notify hd =>
      rw [seen, seen_replace _ hd] at he
      exact .inl he
  | push | ask | scan => exact .inl he

theorem Step.mem_registered {fsm : DiscoveryFsm} {w w' : World} {l : Label}
    {r : EndpointKind × LocalEndpoint} (h : Step fsm w l w') (hr : r ∈ w'.registered) :
    r ∈ w.registered ∨ l = .push r.1 r.2 := by
  cases h with
  | @push k ep hfree =>
      simp only [registered, List.map_append, List.map_cons, List.map_nil, List.mem_append,
        List.mem_singleton] at hr
      rcases hr with hr | rfl
      · exact .inl hr
      · exact .inr rfl
  | ask ha =>
      rw [registered, registered_replace _ ha] at hr
      exact .inl hr
  | scan ha =>
      rw [registered, registered_replace _ ha] at hr
      exact .inl hr
  | insert | call | notify => exact .inl hr

/-- Every line is about a registered endpoint and an announced one, on a topic
that they have in common. -/
def LogKnown (w : World) : Prop :=
  ∀ p ∈ w.log, (p.remote.kind.peer, p.ep) ∈ w.registered ∧ p.remote ∈ w.seen ∧
    p.ep.topic = p.remote.topicName

theorem logKnown_step {fsm : DiscoveryFsm} {localPrefix : List UInt8} {w w' : World} {l : Label}
    (hsound : w.Sound localPrefix) (hw : w.LogKnown) (h : Step fsm w l w') : w'.LogKnown := by
  have hr := h.registered_isPrefix.subset
  have hs := h.seen_isPrefix.subset
  have hold : ∀ p ∈ w.log, (p.remote.kind.peer, p.ep) ∈ w'.registered ∧ p.remote ∈ w'.seen ∧
      p.ep.topic = p.remote.topicName := fun p hp =>
    ⟨hr (hw p hp).1, hs (hw p hp).2.1, (hw p hp).2.2⟩
  cases h with
  | push | ask | insert | call => exact hold
  | @scan l₁ l₂ k ep remote rest result ha hresult =>
      intro p hp
      rcases List.mem_append.mp hp with hp | hp
      · exact hold p hp
      · have hspec := hresult ▸ MatchNotifier.catchUp_spec w.notifier k _ ep remote
        have hin : (⟨k, ep, some (remote :: rest)⟩ : AddCall) ∈ w.adds := by simp [ha]
        obtain ⟨he, hk, htopic⟩ := hsound.scanned _ hin _ rfl remote List.mem_cons_self
        obtain ⟨hpep, hpremote, -⟩ := hspec.printed p hp
        have hreg : (k, ep) ∈ w.registered := World.mem_registered hin
        rw [hpep, hpremote, hk, EndpointKind.peer_peer]
        exact ⟨hr hreg, hs he, htopic.symm⟩
  | @notify l₁ l₂ e ep rest result hd hresult =>
      intro p hp
      rcases List.mem_append.mp hp with hp | hp
      · exact hold p hp
      · have hspec := hresult ▸ MatchNotifier.notify_spec w.notifier e ep
        have hin : (⟨e, some (ep :: rest)⟩ : Discovery) ∈ w.discoveries := by simp [hd]
        obtain ⟨hpep, hpremote, -⟩ := hspec.printed p hp
        have htopic : ep.topic = e.topicName := by
          by_contra hne
          rw [← hresult, MatchNotifier.notify_of_topic_ne hne] at hp
          cases hp
        rw [hpep, hpremote]
        exact ⟨hr (hsound.notified _ hin _ rfl ep List.mem_cons_self),
          hs (World.mem_seen hin), htopic⟩

theorem logKnown_of_reachable {fsm : DiscoveryFsm} {localPrefix : List UInt8}
    {allowed : World → Label → Prop} {w : World}
    (h : (system fsm localPrefix).Reachable allowed w) : w.LogKnown := by
  have hinv := h.invariant (fun w => w.Sound localPrefix ∧ w.LogKnown) (by
      rintro w rfl
      exact ⟨sound_start localPrefix, by simp [LogKnown, start]⟩) (by
      rintro w l w' ⟨hsound, hw⟩ - hstep
      exact ⟨hsound.step hstep, logKnown_step hsound hw hstep⟩)
  exact hinv.2

end World

end DdsRtps.Hdds
