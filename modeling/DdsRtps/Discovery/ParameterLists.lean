/-
# `DdsRtps.Discovery.ParameterLists` — one endpoint for each parameter list

A parameter list is a smallest part of the tree of a packet that carries a
topic, a type and a GUID (`parameterLists`).  The sniffer does not look for
these: it records the outermost dicts whose sweep is complete, each as one
endpoint.  So it tells the lists of a packet (`RecordsLists`) exactly if every
such dict holds one list, which has the last word on every field in the dict
(`recordsLists_iff`).

The dict of the layer is itself outermost when the last topic and the last type
in it are not empty.  A packet with two lists is then recorded as one endpoint,
with fields of both (`not_recordsLists_of_two`).
-/
import DdsRtps.Discovery.Packets

namespace DdsRtps.Discovery

/-! ## The lists of a packet -/

variable (py : PyInterp)

/-- A topic, a type and a GUID of at least 24 digits are given. -/
def carries (n : Json) : Bool :=
  !(readings (topicNameOf py) n).isEmpty && !(readings (typeNameOf py) n).isEmpty &&
    !(readings (endpointGuidOf py) n).isEmpty

/-- The parameter lists of a tree. -/
def parameterLists (rtps : Json) : List Json := rtps.innermost (carries py)

/-- A value is one of those given, or the default where none is. -/
def FromOr {α : Type} (default a : α) (values : List α) : Prop :=
  a ∈ values ∨ (values = [] ∧ a = default)

/-- The fields of an endpoint are those of a parameter list. -/
structure ComesFrom (ep : Endpoint) (n : Json) : Prop where
  topicName : ep.topicName ∈ readings (topicNameOf py) n
  typeName : ep.typeName ∈ readings (typeNameOf py) n
  endpointGuid : ep.endpointGuid ∈ readings (endpointGuidOf py) n
  entityKind : ep.entityKind = some (entityKindOf ep.endpointGuid)
  reliability : FromOr "BEST_EFFORT".toList ep.reliability (readings (reliabilityOf py) n)
  durability : FromOr "VOLATILE".toList ep.durability (readings (durabilityOf py) n)
  ownership : FromOr "SHARED".toList ep.ownership (readings (ownershipOf py) n)
  historyDepth : FromOr none ep.historyDepth ((readings (historyDepthOf py) n).map some)

/-- After the packets before, the packet is read, and one endpoint is recorded
for each of its parameter lists, with the fields of that list. -/
def RecordsLists (before : List Json) (pkt : Json) : Prop :=
  ∃ summary summary', parseDiscoveryData py before = .ok summary ∧
    parseDiscoveryData py (before ++ [pkt]) = .ok summary' ∧
    ∃ new, summary'.endpoints = summary.endpoints ++ new ∧
      List.Forall₂ (ComesFrom py) new (parameterLists py (layersRtps pkt))

/-- For every field, the last value in the dict around a list is one that the
list gives, or the default where it gives none. -/
structure HasLastWord (d n : Json) : Prop where
  topicName : ∀ v ∈ (readings (topicNameOf py) d).getLast?, v ∈ readings (topicNameOf py) n
  typeName : ∀ v ∈ (readings (typeNameOf py) d).getLast?, v ∈ readings (typeNameOf py) n
  endpointGuid :
    ∀ v ∈ (readings (endpointGuidOf py) d).getLast?, v ∈ readings (endpointGuidOf py) n
  reliability : ∀ v ∈ (readings (reliabilityOf py) d).getLast?,
    FromOr "BEST_EFFORT".toList v (readings (reliabilityOf py) n)
  durability : ∀ v ∈ (readings (durabilityOf py) d).getLast?,
    FromOr "VOLATILE".toList v (readings (durabilityOf py) n)
  ownership : ∀ v ∈ (readings (ownershipOf py) d).getLast?,
    FromOr "SHARED".toList v (readings (ownershipOf py) n)
  historyDepth :
    ∀ v ∈ (readings (historyDepthOf py) d).getLast?, v ∈ readings (historyDepthOf py) n

/-- The keys under which a tree offers endpoints. -/
def offeredKeys (rtps : Json) : List (List Char × List Char) :=
  (offered py .null rtps).map Endpoint.key

/-- The outermost complete dicts of a tree hold one list each, which has the last
word there, and offer no endpoint twice nor one that is known. -/
structure OneListEach (rtps : Json) (known : List Endpoint) : Prop where
  lists : List.Forall₂ (fun d n => parameterLists py d = [n] ∧ HasLastWord py d n)
    (rtps.outermost (complete py)) (parameterLists py rtps)
  nodup : (offeredKeys py rtps).Nodup
  fresh : ∀ key ∈ offeredKeys py rtps, key ∉ known.map Endpoint.key

/-! ## The endpoint of a complete dict -/

/-- What the sweep of a dict gives, field by field. -/
structure IsSweep (d : Json) (ep : Endpoint) : Prop where
  topicName : (readings (topicNameOf py) d).getLast? = some ep.topicName
  typeName : (readings (typeNameOf py) d).getLast? = some ep.typeName
  endpointGuid : (readings (endpointGuidOf py) d).getLast? = some ep.endpointGuid
  entityKind : ep.entityKind = some (entityKindOf ep.endpointGuid)
  reliability :
    ep.reliability = (readings (reliabilityOf py) d).getLast?.getD "BEST_EFFORT".toList
  durability : ep.durability = (readings (durabilityOf py) d).getLast?.getD "VOLATILE".toList
  ownership : ep.ownership = (readings (ownershipOf py) d).getLast?.getD "SHARED".toList
  historyDepth : ep.historyDepth = (readings (historyDepthOf py) d).getLast?

theorem isSweep_of_endpointOf {srcIp d : Json} {ep : Endpoint}
    (h : endpointOf py srcIp d = some ep) : IsSweep py d ep := by
  unfold endpointOf Cand.endpoint? at h
  rw [sweep_eq] at h
  split at h
  · rename_i topic type guid htopic htype hguid
    split at h
    · obtain rfl := Option.some.inj h
      exact ⟨htopic, htype, hguid, by simp only at hguid ⊢; rw [hguid]; rfl, rfl, rfl, rfl, rfl⟩
    · cases h
  · cases h

/-- A complete sweep has read all three. -/
theorem carries_of_complete {d : Json} (h : complete py d = true) : carries py d = true := by
  rw [complete, ← Cand.isSome_endpoint? .null, Option.isSome_iff_exists] at h
  obtain ⟨ep, hep⟩ := h
  have hsweep := isSweep_of_endpointOf py hep
  have hne : ∀ {α : Type} {l : List α} {a : α}, l.getLast? = some a → (!l.isEmpty) = true := by
    intro α l a hlast
    cases l with
    | nil => cases hlast
    | cons => rfl
  rw [carries, hne hsweep.topicName, hne hsweep.typeName, hne hsweep.endpointGuid]
  rfl

theorem readings_subset {α : Type} {f : List Char × Json → Option α} {d n : Json}
    (h : n.fieldsOf ⊆ d.fieldsOf) : readings f n ⊆ readings f d :=
  fun _ hv => by
    obtain ⟨field, hfield, hf⟩ := List.mem_filterMap.mp hv
    exact List.mem_filterMap.mpr ⟨field, h hfield, hf⟩

/-- A field with a default, in a dict around a list. -/
theorem fromOr_getLast_iff {α : Type} (default : α) {inner outer : List α}
    (h : inner ⊆ outer) :
    FromOr default (outer.getLast?.getD default) inner ↔
      ∀ v ∈ outer.getLast?, FromOr default v inner := by
  cases hlast : outer.getLast? with
  | none =>
      rw [List.getLast?_eq_none_iff] at hlast
      rw [hlast, List.subset_nil] at h
      exact ⟨fun _ => nofun, fun _ => .inr ⟨h, rfl⟩⟩
  | some v => simp

theorem fromOr_none_iff {α : Type} {inner outer : List α} (h : inner ⊆ outer) :
    FromOr none outer.getLast? (inner.map some) ↔ ∀ v ∈ outer.getLast?, v ∈ inner := by
  cases hlast : outer.getLast? with
  | none =>
      rw [List.getLast?_eq_none_iff] at hlast
      rw [hlast, List.subset_nil] at h
      exact ⟨fun _ => nofun, fun _ => .inr ⟨by rw [h]; rfl, rfl⟩⟩
  | some v => simp [FromOr]

/-- The endpoint of a dict comes from a list in it, exactly if the list has the
last word there. -/
theorem comesFrom_iff {srcIp d n : Json} {ep : Endpoint} (hep : endpointOf py srcIp d = some ep)
    (hn : n.fieldsOf ⊆ d.fieldsOf) : ComesFrom py ep n ↔ HasLastWord py d n := by
  have h := isSweep_of_endpointOf py hep
  have hmem : ∀ {α : Type} {l : List α} {a : α} {r : List α}, l.getLast? = some a →
      (a ∈ r ↔ ∀ v ∈ l.getLast?, v ∈ r) := by
    intro α l a r hlast
    simp [hlast]
  have htopic := hmem (r := readings (topicNameOf py) n) h.topicName
  have htype := hmem (r := readings (typeNameOf py) n) h.typeName
  have hguid := hmem (r := readings (endpointGuidOf py) n) h.endpointGuid
  have hreliability := fromOr_getLast_iff "BEST_EFFORT".toList
    (readings_subset (f := reliabilityOf py) hn)
  have hdurability := fromOr_getLast_iff "VOLATILE".toList
    (readings_subset (f := durabilityOf py) hn)
  have hownership := fromOr_getLast_iff "SHARED".toList
    (readings_subset (f := ownershipOf py) hn)
  have hdepth := fromOr_none_iff (readings_subset (f := historyDepthOf py) hn)
  rw [← h.reliability] at hreliability
  rw [← h.durability] at hdurability
  rw [← h.ownership] at hownership
  rw [← h.historyDepth] at hdepth
  constructor
  · intro hfrom
    exact ⟨htopic.mp hfrom.topicName, htype.mp hfrom.typeName, hguid.mp hfrom.endpointGuid,
      hreliability.mp hfrom.reliability, hdurability.mp hfrom.durability,
      hownership.mp hfrom.ownership, by rw [← h.historyDepth]; exact hdepth.mp hfrom.historyDepth⟩
  · intro hword
    exact ⟨htopic.mpr hword.topicName, htype.mpr hword.typeName, hguid.mpr hword.endpointGuid,
      h.entityKind, hreliability.mpr hword.reliability, hdurability.mpr hword.durability,
      hownership.mpr hword.ownership,
      hdepth.mpr (by rw [h.historyDepth]; exact hword.historyDepth)⟩

/-! ## What a packet adds -/

variable {py}

/-- Two relations to what is offered by the same dicts. -/
theorem forall₂_iff {α β γ : Type*} {R : α → β → Prop} {S Q : α → γ → Prop}
    {P : β → γ → Prop} {as : List α} {bs : List β} {cs : List γ} (hR : List.Forall₂ R as bs)
    (hS : List.Forall₂ S as cs) (h : ∀ a b c, R a b → S a c → (P b c ↔ Q a c)) :
    List.Forall₂ P bs cs ↔ List.Forall₂ Q as cs := by
  induction hR generalizing cs with
  | nil =>
      cases hS
      exact ⟨fun _ => .nil, fun _ => .nil⟩
  | cons hr _ ih =>
      cases hS with
      | cons hs hrest =>
          rw [List.forall₂_cons, List.forall₂_cons, h _ _ _ hr hs, ih hrest]

variable (py) in
/-- Every outermost complete dict offers its endpoint. -/
theorem forall₂_offered (srcIp rtps : Json) :
    List.Forall₂ (fun d ep => endpointOf py srcIp d = some ep) (rtps.outermost (complete py))
      (offered py srcIp rtps) := by
  have hall : ∀ d ∈ rtps.outermost (complete py), ∃ ep, endpointOf py srcIp d = some ep := by
    intro d hd
    have hcomplete := Json.outermost_property d hd
    rw [complete, ← Cand.isSome_endpoint? srcIp] at hcomplete
    exact Option.isSome_iff_exists.mp hcomplete
  rw [offered]
  generalize rtps.outermost (complete py) = ds at hall ⊢
  induction ds with
  | nil => exact .nil
  | cons d ds ih =>
      rw [List.forall_mem_cons] at hall
      obtain ⟨ep, hep⟩ := hall.1
      rw [List.filterMap_cons_some hep]
      exact .cons hep (ih hall.2)

/-- The sender is not in the key. -/
theorem map_key_offered (srcIp rtps : Json) :
    (offered py srcIp rtps).map Endpoint.key = offeredKeys py rtps := by
  have hkey : ∀ d, (endpointOf py srcIp d).map Endpoint.key =
      (endpointOf py .null d).map Endpoint.key := by
    intro d
    unfold endpointOf Cand.endpoint?
    split
    · split <;> rfl
    · rfl
  rw [offeredKeys, offered, offered, List.map_filterMap, List.map_filterMap]
  exact List.filterMap_congr fun d _ => hkey d

theorem addAll_offered_iff {srcIp rtps : Json} {known : List Endpoint} :
    Keyed.addAll Endpoint.key known (offered py srcIp rtps) = known ++ offered py srcIp rtps ↔
      (offeredKeys py rtps).Nodup ∧ ∀ key ∈ offeredKeys py rtps, key ∉ known.map Endpoint.key := by
  rw [Keyed.addAll_eq_append_iff, map_key_offered, ← map_key_offered srcIp rtps, List.forall_mem_map]

/-- An endpoint for each list is added, exactly if each complete dict has one
list. -/
theorem addAll_tells_iff {srcIp rtps : Json} {known : List Endpoint} :
    (∃ new, Keyed.addAll Endpoint.key known (offered py srcIp rtps) = known ++ new ∧
      List.Forall₂ (ComesFrom py) new (parameterLists py rtps)) ↔
      OneListEach py rtps known := by
  have hoffered := forall₂_offered py srcIp rtps
  have hinside : ∀ d n, parameterLists py d = [n] → n.fieldsOf ⊆ d.fieldsOf := by
    intro d n hn
    refine Json.fieldsOf_subset_of_mem_innermost (p := carries py) n ?_
    rw [← parameterLists, hn]
    exact List.mem_singleton_self n
  constructor
  · intro ⟨new, hadd, hfrom⟩
    obtain ⟨new', hsub, hadd'⟩ :=
      Keyed.addAll_eq_append Endpoint.key known (offered py srcIp rtps)
    obtain rfl := List.append_cancel_left (hadd.symm.trans hadd')
    -- there are no more lists than endpoints, so the dicts have one each
    have hlen : (parameterLists py rtps).length ≤ (rtps.outermost (complete py)).length := by
      rw [← hfrom.length_eq, hoffered.length_eq]
      exact hsub.length_le
    have hone := Json.forall₂_outermost_innermost (p := carries py) (q := complete py)
      (fun d => carries_of_complete py) hlen
    obtain rfl : new = offered py srcIp rtps := by
      refine hsub.eq_of_length_le ?_
      rw [hfrom.length_eq, ← hoffered.length_eq]
      exact hone.length_eq.le
    have hnew := addAll_offered_iff.mp hadd
    refine ⟨?_, hnew.1, hnew.2⟩
    refine (forall₂_iff hoffered hone fun d ep n hep hn => ?_).mp hfrom
    rw [comesFrom_iff py hep (hinside d n hn)]
    exact ⟨fun hword => ⟨hn, hword⟩, And.right⟩
  · intro h
    refine ⟨offered py srcIp rtps, addAll_offered_iff.mpr ⟨h.nodup, h.fresh⟩, ?_⟩
    refine (forall₂_iff hoffered h.lists fun d ep n hep hn => ?_).mpr h.lists
    rw [comesFrom_iff py hep (hinside d n hn.1)]
    exact ⟨fun hword => ⟨hn.1, hword⟩, And.right⟩

/-- The capture tells the lists of its last packet, exactly if the packets before
it and the packet are read, and each complete dict in it has one list. -/
theorem recordsLists_iff (py : PyInterp) (before : List Json) (pkt : Json) :
    RecordsLists py before pkt ↔
      PacketReadable py pkt ∧ ∃ summary, parseDiscoveryData py before = .ok summary ∧
        OneListEach py (layersRtps pkt) summary.endpoints := by
  constructor
  · intro ⟨summary, summary', hbefore, hafter, htells⟩
    have hstore := (parseDiscoveryData_eq_ok_iff.mp hbefore).1
    have hpkt := (parseDiscoveryData_eq_ok_iff.mp hafter).1
    rw [parsePackets_concat, hstore, PyError.ok_bind] at hpkt
    obtain ⟨header, -, -, -, -, hendpoints⟩ := parsePacket_cases hpkt
    rw [hendpoints] at htells
    exact ⟨(parsePacket_ok_iff py _ _).mp ⟨_, hpkt⟩, summary, hbefore, addAll_tells_iff.mp htells⟩
  · intro ⟨hreadable, summary, hbefore, hone⟩
    have hstore := (parseDiscoveryData_eq_ok_iff.mp hbefore).1
    obtain ⟨store', hpkt⟩ := (parsePacket_ok_iff py summary.toStore pkt).mpr hreadable
    obtain ⟨header, -, -, -, -, hendpoints⟩ := parsePacket_cases hpkt
    refine ⟨summary, { store' with totalRtpsPackets := (before ++ [pkt]).length }, hbefore, ?_, ?_⟩
    · refine parseDiscoveryData_eq_ok_iff.mpr ⟨?_, rfl⟩
      rw [parsePackets_concat, hstore, PyError.ok_bind, hpkt]
    · rw [hendpoints]
      exact addAll_tells_iff.mpr hone

/-- Where the dict of the layer is itself complete, two lists are too many. -/
theorem not_recordsLists_of_two {before : List Json} {pkt : Json}
    {entries : List (List Char × Json)} (hrtps : layersRtps pkt = .obj entries)
    (hcomplete : complete py (.obj entries) = true)
    (htwo : 2 ≤ (parameterLists py (.obj entries)).length) : ¬RecordsLists py before pkt := by
  intro ⟨summary, summary', hbefore, hafter, new, hnew, hfrom⟩
  have hstore := (parseDiscoveryData_eq_ok_iff.mp hbefore).1
  have hpkt := (parseDiscoveryData_eq_ok_iff.mp hafter).1
  rw [parsePackets_concat, hstore, PyError.ok_bind] at hpkt
  obtain ⟨header, -, -, -, -, hendpoints⟩ := parsePacket_cases hpkt
  rw [hendpoints, hrtps] at hnew
  rw [hrtps] at hfrom
  have hlists := (addAll_tells_iff.mp ⟨new, hnew, hfrom⟩).lists.length_eq
  rw [Json.outermost, if_pos hcomplete, List.length_singleton] at hlists
  omega

/-- A packet with two submessages, of which the second says nothing of its
reliability. -/
def twoSubmessages : Json :=
  let announce (topic guid : String) (more : List (List Char × Json)) : Json :=
    .obj
      ([("rtps.param.topicName".toList, .str topic.toList),
        ("rtps.param.typeName".toList, .str "ShapeType".toList),
        ("rtps.param.endpoint_guid".toList, .str guid.toList)] ++ more)
  let rtps : Json :=
    .obj
      [("DATA(w)".toList, announce "Square" "010f45d27c3a000001000000000001c2"
          [("rtps.reliability_kind".toList, .str "2".toList)]),
       ("DATA(r)".toList, announce "Circle" "010f45d27c3a000001000000000002c7" [])]
  .obj [("_source".toList, .obj [("layers".toList, .obj [("rtps".toList, rtps)])])]

/-- One endpoint is recorded of the two lists, with the reliability of the
other. -/
theorem twoSubmessages_mixed :
    (parameterLists .ascii (layersRtps twoSubmessages)).map (readings (endpointGuidOf .ascii)) =
        [["010f45d27c3a000001000000000001c2".toList],
         ["010f45d27c3a000001000000000002c7".toList]] ∧
      (parseDiscoveryData .ascii [twoSubmessages]).toOption.map
          (fun summary => summary.endpoints.map fun ep => (ep.topicName, ep.reliability)) =
        some [("Circle".toList, "RELIABLE".toList)] ∧
      ¬RecordsLists .ascii [] twoSubmessages := by
  refine ⟨by decide +kernel, by decide +kernel, ?_⟩
  exact not_recordsLists_of_two rfl (by decide +kernel) (by decide +kernel)

end DdsRtps.Discovery
