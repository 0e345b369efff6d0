/-
# `DdsRtps.Discovery.StoreInvariant` — what holds of the store after any packets

`Store.Sound` is the invariant of the loop over the packets, and `Store.Grows`
is what one more packet, and so any number of them, does to a store.  Both are
shown for the two ways in which a participant is recorded, and for the
endpoints; `sound_foldlM_parsePacket` and `grows_foldlM_parsePacket` are the
two runs.
-/
import DdsRtps.Discovery.Packets

namespace DdsRtps.Discovery

/-- Participants under their own prefix, no locator and no endpoint twice. -/
structure Store.Sound (store : Store) : Prop where
  ownPrefix : ∀ guid part, store.participants.get? guid = some part → part.guidPrefix = guid
  locators : ∀ guid part, store.participants.get? guid = some part → part.locators.Nodup
  endpoints : (store.endpoints.map Endpoint.key).Nodup

/-- No participant, locator or endpoint goes away, and no endpoint changes. -/
structure Store.Grows (store store' : Store) : Prop where
  participants : ∀ guid part, store.participants.get? guid = some part →
    ∃ part', store'.participants.get? guid = some part' ∧ part.locators <+: part'.locators
  endpoints : store.endpoints <+: store'.endpoints

theorem Store.sound_empty : Store.empty.Sound where
  ownPrefix := nofun
  locators := nofun
  endpoints := List.nodup_nil

theorem Store.grows_refl (store : Store) : store.Grows store where
  participants _ part h := ⟨part, h, List.prefix_rfl⟩
  endpoints := List.prefix_rfl

theorem Store.Grows.trans {a b c : Store} (hab : a.Grows b) (hbc : b.Grows c) : a.Grows c where
  participants guid part h := by
    obtain ⟨part', h', hlocators⟩ := hab.participants guid part h
    obtain ⟨part'', h'', hlocators'⟩ := hbc.participants guid part' h'
    exact ⟨part'', h'', hlocators.trans hlocators'⟩
  endpoints := hab.endpoints.trans hbc.endpoints

variable {py : PyInterp}

/-! ## The participants after a packet -/

/-- A participant after a packet is one from before, or one from before with the
packet's news, or a new one. -/
theorem recordParticipant_cases {spdp : Spdp} {header : Header}
    {participants participants' : PyDict (List Char) Participant}
    (h : recordParticipant py spdp header participants = .ok participants') :
    participants' = participants ∨
      (∃ guid, participants' = participants.modify guid (augment spdp)) ∨
      ∃ guid part, newParticipant py spdp header guid = .ok part ∧
        participants.get? guid = none ∧ participants' = participants.setDefault guid part := by
  unfold recordParticipant at h
  split at h
  · exact .inl (Except.ok.inj h).symm
  · rename_i guid _
    split at h
    · rename_i hnone
      obtain ⟨part, hpart, h⟩ := PyError.bind_eq_ok_iff.mp h
      exact .inr (.inr ⟨guid, part, hpart, hnone, (Except.ok.inj h).symm⟩)
    · exact .inr (.inl ⟨guid, (Except.ok.inj h).symm⟩)

theorem guidPrefix_augment (spdp : Spdp) (part : Participant) :
    (augment spdp part).guidPrefix = part.guidPrefix := by
  unfold augment
  simp only
  split <;> split <;> rfl

theorem locators_augment (spdp : Spdp) (part : Participant) :
    (augment spdp part).locators = Keyed.addAll id part.locators spdp.locatorsFound := by
  unfold augment
  simp only
  split <;> split <;> rfl

theorem nodup_addAll_id {l : List Locator} (h : l.Nodup) (offered : List Locator) :
    (Keyed.addAll id l offered).Nodup := by
  rw [← List.map_id (Keyed.addAll id l offered)]
  exact Keyed.nodup_addAll (by rwa [List.map_id]) offered

/-- A new participant has the prefix that it is recorded under, and no locator
twice. -/
theorem newParticipant_ok {spdp : Spdp} {header : Header} {guid : List Char}
    {part : Participant} (h : newParticipant py spdp header guid = .ok part) :
    part.guidPrefix = guid ∧ part.locators.Nodup := by
  unfold newParticipant at h
  obtain ⟨version, -, h⟩ := PyError.bind_eq_ok_iff.mp h
  obtain rfl := Except.ok.inj h
  exact ⟨rfl, nodup_addAll_id List.nodup_nil _⟩

/-- A participant after a packet: its prefix, and its locators. -/
theorem get?_recordParticipant {spdp : Spdp} {header : Header}
    {participants participants' : PyDict (List Char) Participant}
    (h : recordParticipant py spdp header participants = .ok participants')
    {guid : List Char} {part' : Participant} (hget : participants'.get? guid = some part') :
    (∃ part, participants.get? guid = some part ∧ part'.guidPrefix = part.guidPrefix ∧
        (part'.locators = part.locators ∨
          part'.locators = Keyed.addAll id part.locators spdp.locatorsFound)) ∨
      (participants.get? guid = none ∧ part'.guidPrefix = guid ∧ part'.locators.Nodup) := by
  rcases recordParticipant_cases h with rfl | ⟨key, rfl⟩ | ⟨key, part, hnew, hnone, rfl⟩
  · exact .inl ⟨part', hget, rfl, .inl rfl⟩
  · rw [PyDict.get?_modify, Option.map_eq_some_iff] at hget
    obtain ⟨part, hpart, heq⟩ := hget
    refine .inl ⟨part, hpart, ?_⟩
    rw [← heq]
    split
    · exact ⟨guidPrefix_augment spdp part, .inr (locators_augment spdp part)⟩
    · exact ⟨rfl, .inl rfl⟩
  · rw [PyDict.get?_setDefault] at hget
    split at hget
    · rename_i hkey
      subst hkey
      rw [hnone] at hget
      obtain rfl := Option.some.inj hget
      exact .inr ⟨hnone, newParticipant_ok hnew⟩
    · exact .inl ⟨part', hget, rfl, .inl rfl⟩

theorem get?_recordParticipant_of_some {spdp : Spdp} {header : Header}
    {participants participants' : PyDict (List Char) Participant}
    (h : recordParticipant py spdp header participants = .ok participants')
    {guid : List Char} {part : Participant} (hget : participants.get? guid = some part) :
    ∃ part', participants'.get? guid = some part' ∧ part.locators <+: part'.locators := by
  rcases recordParticipant_cases h with rfl | ⟨key, rfl⟩ | ⟨key, new, -, hnone, rfl⟩
  · exact ⟨part, hget, List.prefix_rfl⟩
  · rw [PyDict.get?_modify, hget]
    refine ⟨_, rfl, ?_⟩
    split
    · rw [locators_augment]
      exact Keyed.prefix_addAll _ _
    · exact List.prefix_rfl
  · rw [PyDict.get?_setDefault, if_neg (by rintro rfl; rw [hget] at hnone; cases hnone)]
    exact ⟨part, hget, List.prefix_rfl⟩

/-! ## A packet -/

theorem sound_parsePacket {store store' : Store} {pkt : Json} (hsound : store.Sound)
    (h : parsePacket py store pkt = .ok store') : store'.Sound := by
  obtain ⟨header, spdp, -, -, hrecord, hendpoints⟩ := parsePacket_cases h
  refine ⟨?_, ?_, ?_⟩
  · intro guid part' hget
    rcases get?_recordParticipant hrecord hget with ⟨part, hpart, hhead, -⟩ | ⟨-, hhead, -⟩
    · rw [hhead]
      exact hsound.ownPrefix guid part hpart
    · exact hhead
  · intro guid part' hget
    rcases get?_recordParticipant hrecord hget with
      ⟨part, hpart, -, hlocators | hlocators⟩ | ⟨-, -, hnodup⟩
    · rw [hlocators]
      exact hsound.locators guid part hpart
    · rw [hlocators]
      exact nodup_addAll_id (hsound.locators guid part hpart) _
    · exact hnodup
  · rw [hendpoints]
    exact Keyed.nodup_addAll hsound.endpoints _

theorem grows_parsePacket {store store' : Store} {pkt : Json}
    (h : parsePacket py store pkt = .ok store') : store.Grows store' := by
  obtain ⟨header, spdp, -, -, hrecord, hendpoints⟩ := parsePacket_cases h
  refine ⟨fun guid part hget => get?_recordParticipant_of_some hrecord hget, ?_⟩
  rw [hendpoints]
  exact Keyed.prefix_addAll _ _

/-! ## Any packets -/

theorem sound_foldlM_parsePacket {store store' : Store} {rawPackets : List Json}
    (hsound : store.Sound) (h : rawPackets.foldlM (parsePacket py) store = .ok store') :
    store'.Sound := by
  induction rawPackets generalizing store with
  | nil =>
      obtain rfl := Except.ok.inj h
      exact hsound
  | cons pkt rawPackets ih =>
      obtain ⟨middle, hpkt, hrest⟩ := PyError.bind_eq_ok_iff.mp h
      exact ih (sound_parsePacket hsound hpkt) hrest

theorem grows_foldlM_parsePacket {store store' : Store} {rawPackets : List Json}
    (h : rawPackets.foldlM (parsePacket py) store = .ok store') : store.Grows store' := by
  induction rawPackets generalizing store with
  | nil =>
      obtain rfl := Except.ok.inj h
      exact store.grows_refl
  | cons pkt rawPackets ih =>
      obtain ⟨middle, hpkt, hrest⟩ := PyError.bind_eq_ok_iff.mp h
      exact (grows_parsePacket hpkt).trans (ih hrest)

/-- After any packets the store is sound, and any further packets only let it
grow. -/
theorem summary_sound_and_grows {before : List Json} {summary : Summary}
    (h : parseDiscoveryData py before = .ok summary) :
    summary.toStore.Sound ∧
      ∀ further summary', parseDiscoveryData py (before ++ further) = .ok summary' →
        summary'.toStore.Sound ∧ summary.toStore.Grows summary'.toStore := by
  have hstore := (parseDiscoveryData_eq_ok_iff.mp h).1
  have hsound : summary.toStore.Sound := sound_foldlM_parsePacket Store.sound_empty hstore
  refine ⟨hsound, fun further summary' h' => ?_⟩
  have hstore' := (parseDiscoveryData_eq_ok_iff.mp h').1
  rw [parsePackets, PyError.foldlM_append] at hstore'
  rw [parsePackets] at hstore
  rw [hstore, PyError.ok_bind] at hstore'
  exact ⟨sound_foldlM_parsePacket hsound hstore', grows_foldlM_parsePacket hstore'⟩

/-- A participant and one of its writers. -/
def announcement : Json :=
  .obj [("_source".toList, .obj [("layers".toList, .obj [("rtps".toList, .obj
    [("rtps.guidPrefix".toList, .str "010f45d27c3a000001000000".toList),
     ("rtps.locator.ipv4".toList, .str "10.0.0.1".toList),
     ("rtps.locator.port".toList, .str "7410".toList),
     ("rtps.param.topicName".toList, .str "Square".toList),
     ("rtps.param.typeName".toList, .str "ShapeType".toList),
     ("rtps.param.endpoint_guid".toList,
      .str "010f45d27c3a000001000000000001c2".toList)])])])]

/-- The same participant, with another locator and its mask. -/
def secondAnnouncement : Json :=
  .obj [("_source".toList, .obj [("layers".toList, .obj [("rtps".toList, .obj
    [("rtps.guidPrefix".toList, .str "010f45d27c3a000001000000".toList),
     ("rtps.locator.ipv4".toList, .str "10.0.0.2".toList),
     ("rtps.locator.port".toList, .str "7411".toList),
     ("rtps.param.builtin_endpoint_set".toList, .str "0x0000003f".toList)])])])]

/-- The second packet adds a locator to the participant of the first. -/
theorem summary_sound_and_grows_secondAnnouncement :
    ∃ summary summary', parseDiscoveryData .ascii [announcement] = .ok summary ∧
      parseDiscoveryData .ascii ([announcement] ++ [secondAnnouncement]) = .ok summary' ∧
      summary.participants.items.map (fun item => item.2.locators.length) = [1] ∧
      summary'.participants.items.map (fun item => item.2.locators.length) = [2] ∧
      summary.toStore.Sound ∧ summary'.toStore.Sound ∧ summary.toStore.Grows summary'.toStore := by
  have hfirst : (parseDiscoveryData .ascii [announcement]).toOption.map
      (fun summary => summary.participants.items.map fun item => item.2.locators.length) =
        some [1] := by decide +kernel
  have hsecond : (parseDiscoveryData .ascii ([announcement] ++ [secondAnnouncement])).toOption.map
      (fun summary => summary.participants.items.map fun item => item.2.locators.length) =
        some [2] := by decide +kernel
  obtain ⟨summary, hsummary, hone⟩ := PyError.exists_ok_of_toOption_map hfirst
  obtain ⟨summary', hsummary', htwo⟩ := PyError.exists_ok_of_toOption_map hsecond
  obtain ⟨hsound, hmore⟩ := summary_sound_and_grows hsummary
  exact ⟨summary, summary', hsummary, hsummary', hone, htwo, hsound,
    hmore [secondAnnouncement] summary' hsummary'⟩

end DdsRtps.Discovery
