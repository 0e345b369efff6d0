/-
# `DdsRtps.Discovery.Packets` — `parse_discovery_data`

Packet by packet the sniffer reads the layers, walks the tree for a participant
and searches it for endpoints.  What it has recorded is the state; the three
parts of a packet's turn are `readHeader`, `recordParticipant` after the walk,
and `extractSedpEndpoints`.

A turn can raise in the layers, in the walk and in the search, and nowhere else
(`parsePacket_ok_iff`); whether it does depends on the packet alone, so a
capture is read exactly if each of its packets is (`parsePackets_ok_iff`).
-/
import DdsRtps.Discovery.Endpoints
import DdsRtps.Discovery.Participants

namespace DdsRtps.Discovery

/-- What `parse_discovery_data` has recorded. -/
structure Store where
  participants : PyDict (List Char) Participant
  endpoints : List Endpoint

/-- Nothing is recorded yet. -/
def Store.empty : Store := ⟨PyDict.empty, []⟩

/-- The summary, less the time of the analysis. -/
structure Summary extends Store where
  totalRtpsPackets : Nat

/-- `if isinstance(v, list): v = v[0]`. -/
def firstOfList : Json → Except PyError Json
  | .arr [] => .error .indexError
  | .arr (v :: _) => .ok v
  | v => .ok v

/-- `v.get(key)`. -/
def getNone (v : Json) (key : List Char) : Except PyError Json := v.get key .null

/-- The layers and the header fields of a packet. -/
def readHeader (pkt : Json) : Except PyError Header := do
  let source ← pkt.get "_source".toList (.obj [])
  let layers ← source.get "layers".toList (.obj [])
  let rtps ← layers.get "rtps".toList (.obj [])
  let ipLayer ← layers.get "ip".toList (.obj [])
  let srcIp ← ipLayer.get "ip.src".toList (← layers.get "ip.src".toList (.str "unknown".toList))
  let dstIp ← ipLayer.get "ip.dst".toList (← layers.get "ip.dst".toList (.str "unknown".toList))
  let srcIp ← firstOfList srcIp
  -- the destination is read and not used
  let _ ← firstOfList dstIp
  let headerGuid ← rtps.get "rtps.guidPrefix".toList (← getNone rtps "rtps.guidPrefix.src".toList)
  let headerVendor ← getNone rtps "rtps.vendorId".toList
  let headerVersion ← getNone rtps "rtps.version".toList
  return {
    rtps := rtps
    srcIp := srcIp
    guid := headerGuid
    vendor := headerVendor
    version := headerVersion }

variable (py : PyInterp)

/-- The turn of the loop of `parse_discovery_data` over a packet. -/
def parsePacket (store : Store) (pkt : Json) : Except PyError Store := do
  let header ← readHeader pkt
  let spdp ← walkTree (inspectSpdpNode py) header.rtps Spdp.empty
  let participants ← recordParticipant py spdp header store.participants
  let endpoints ← extractSedpEndpoints py header.srcIp header.rtps store.endpoints
  return ⟨participants, endpoints⟩

/-- The loop of `parse_discovery_data`. -/
def parsePackets (rawPackets : List Json) : Except PyError Store :=
  rawPackets.foldlM (parsePacket py) Store.empty

/-- `parse_discovery_data`. -/
def parseDiscoveryData (rawPackets : List Json) : Except PyError Summary := do
  let store ← parsePackets py rawPackets
  return { store with totalRtpsPackets := rawPackets.length }

/-! ## The layers -/

/-- The entry of a dict, or a default. -/
def entryOr (key : List Char) (default : Json) : Json → Json
  | .obj entries => (entries.lookup key).getD default
  | _ => default

/-- The layers of a packet. -/
def layersOf (pkt : Json) : Json :=
  entryOr "layers".toList (.obj []) (entryOr "_source".toList (.obj []) pkt)

/-- The tree of a packet. -/
def layersRtps (pkt : Json) : Json := entryOr "rtps".toList (.obj []) (layersOf pkt)

theorem exists_obj_of_get {v : Json} {key : List Char} {default r : Json}
    (h : v.get key default = .ok r) : ∃ entries, v = .obj entries := by
  cases v with
  | obj entries => exact ⟨entries, rfl⟩
  | null | bool | int | float | str | arr => cases h

theorem get_eq_entryOr {v : Json} {key : List Char} {default r : Json}
    (h : v.get key default = .ok r) : entryOr key default v = r := by
  obtain ⟨entries, rfl⟩ := exists_obj_of_get h
  exact Except.ok.inj h

/-- The tree is the entry of the layers, a dict, and its version is an entry of
it. -/
theorem readHeader_rtps {pkt : Json} {header : Header} (h : readHeader pkt = .ok header) :
    ∃ source layers entries, pkt.get "_source".toList (.obj []) = .ok source ∧
      source.get "layers".toList (.obj []) = .ok layers ∧
      layers.get "rtps".toList (.obj []) = .ok header.rtps ∧ header.rtps = .obj entries ∧
      header.version = (entries.lookup "rtps.version".toList).getD .null := by
  unfold readHeader at h
  obtain ⟨source, hsource, h⟩ := PyError.bind_eq_ok_iff.mp h
  obtain ⟨layers, hlayers, h⟩ := PyError.bind_eq_ok_iff.mp h
  obtain ⟨rtps, hrtps, h⟩ := PyError.bind_eq_ok_iff.mp h
  obtain ⟨ipLayer, -, h⟩ := PyError.bind_eq_ok_iff.mp h
  obtain ⟨_, -, h⟩ := PyError.bind_eq_ok_iff.mp h
  obtain ⟨_, -, h⟩ := PyError.bind_eq_ok_iff.mp h
  obtain ⟨_, -, h⟩ := PyError.bind_eq_ok_iff.mp h
  obtain ⟨_, -, h⟩ := PyError.bind_eq_ok_iff.mp h
  obtain ⟨srcIp, -, h⟩ := PyError.bind_eq_ok_iff.mp h
  obtain ⟨_, -, h⟩ := PyError.bind_eq_ok_iff.mp h
  obtain ⟨_, -, h⟩ := PyError.bind_eq_ok_iff.mp h
  obtain ⟨guid, -, h⟩ := PyError.bind_eq_ok_iff.mp h
  obtain ⟨vendor, -, h⟩ := PyError.bind_eq_ok_iff.mp h
  obtain ⟨version, hversion, h⟩ := PyError.bind_eq_ok_iff.mp h
  obtain rfl := Except.ok.inj h
  obtain ⟨entries, rfl⟩ := exists_obj_of_get hversion
  exact ⟨source, layers, entries, hsource, hlayers, hrtps, rfl,
    (Except.ok.inj hversion).symm⟩

theorem layersRtps_eq {pkt : Json} {header : Header} (h : readHeader pkt = .ok header) :
    layersRtps pkt = header.rtps := by
  obtain ⟨source, layers, entries, hsource, hlayers, hrtps, -⟩ := readHeader_rtps h
  unfold layersRtps layersOf
  rw [get_eq_entryOr hsource, get_eq_entryOr hlayers, get_eq_entryOr hrtps]

/-! ## What raises -/

/-- A tree that is read without an exception: the decoders take every value that
the walk gives them, and the search meets no blank value. -/
structure TreeReadable (rtps : Json) : Prop where
  nodes : ∀ node ∈ rtps.dictsOf, nodeReadable py node = true
  words : Worded py rtps

theorem isVersionKey_version : isVersionKey py "rtps.version".toList = true := by
  unfold isVersionKey
  rw [decide_eq_true_eq]
  exact .inr rfl

/-- The version in the header is one that the walk meets. -/
theorem versionReadable_header {entries : List (List Char × Json)}
    (h : nodeReadable py entries = true) :
    versionReadable ((entries.lookup "rtps.version".toList).getD .null) = true := by
  cases hlookup : entries.lookup "rtps.version".toList with
  | none => rfl
  | some v =>
      have hmem : ("rtps.version".toList, v) ∈ entries := by
        obtain ⟨l, r, rfl, -⟩ := List.lookup_eq_some_iff.mp hlookup
        exact List.mem_append_right _ List.mem_cons_self
      have hitem := List.all_eq_true.mp h _ hmem
      simp only [itemReadable, Bool.and_eq_true] at hitem
      have hversion := hitem.1.1.1
      rw [isVersionKey_version, versionVal, hlookup] at hversion
      exact hversion

/-- A packet whose layers and tree are read. -/
def PacketReadable (pkt : Json) : Prop :=
  ∃ header, readHeader pkt = .ok header ∧ TreeReadable py header.rtps

/-- A packet is read exactly if its layers are, and its tree is. -/
theorem parsePacket_ok_iff (store : Store) (pkt : Json) :
    (∃ store', parsePacket py store pkt = .ok store') ↔ PacketReadable py pkt := by
  unfold parsePacket PacketReadable
  cases hheader : readHeader pkt with
  | error e => exact ⟨nofun, nofun⟩
  | ok header =>
      obtain ⟨-, -, entries, -, -, -, hrtps, hversion⟩ := readHeader_rtps hheader
      rw [PyError.ok_bind]
      constructor
      · intro ⟨store', h⟩
        obtain ⟨spdp, hwalk, h⟩ := PyError.bind_eq_ok_iff.mp h
        obtain ⟨participants, -, h⟩ := PyError.bind_eq_ok_iff.mp h
        obtain ⟨endpoints, hextract, -⟩ := PyError.bind_eq_ok_iff.mp h
        refine ⟨header, rfl, (walkTree_ok_iff py _ _).mp ⟨spdp, hwalk⟩, ?_⟩
        by_contra hblank
        rw [hrtps] at hextract hblank
        rw [extractSedpEndpoints_blank py _ hblank] at hextract
        cases hextract
      · intro ⟨header', heq, hnodes, hwords⟩
        obtain rfl := Except.ok.inj heq
        obtain ⟨spdp, hwalk⟩ := (walkTree_ok_iff py Spdp.empty _).mpr hnodes
        have hroot : nodeReadable py entries = true :=
          hnodes entries (by rw [hrtps]; exact List.mem_cons_self)
        obtain ⟨participants, hrecord⟩ := recordParticipant_ok py spdp header
          (by rw [hversion]; exact versionReadable_header py hroot) store.participants
        rw [hwalk, PyError.ok_bind, hrecord, PyError.ok_bind,
          extractSedpEndpoints_eq py _ _ hwords]
        exact ⟨_, rfl⟩

/-- A capture is read exactly if each of its packets is. -/
theorem parsePackets_ok_iff (rawPackets : List Json) :
    (∃ store, parsePackets py rawPackets = .ok store) ↔
      ∀ pkt ∈ rawPackets, PacketReadable py pkt :=
  PyError.foldlM_ok_iff (fun store pkt _ => parsePacket_ok_iff py store pkt) Store.empty

theorem parsePackets_concat (before : List Json) (pkt : Json) :
    parsePackets py (before ++ [pkt]) =
      parsePackets py before >>= fun store => parsePacket py store pkt := by
  rw [parsePackets, PyError.foldlM_append]
  refine bind_congr fun store => ?_
  rw [PyError.foldlM_cons]
  cases parsePacket py store pkt <;> rfl

variable {py}

/-- What a packet that is read does to the store. -/
theorem parsePacket_cases {store store' : Store} {pkt : Json}
    (h : parsePacket py store pkt = .ok store') :
    ∃ header spdp, readHeader pkt = .ok header ∧
      walkTree (inspectSpdpNode py) header.rtps Spdp.empty = .ok spdp ∧
      recordParticipant py spdp header store.participants = .ok store'.participants ∧
      store'.endpoints = Keyed.addAll Endpoint.key store.endpoints
        (offered py header.srcIp (layersRtps pkt)) := by
  obtain ⟨header, hheader, hreadable⟩ := (parsePacket_ok_iff py store pkt).mp ⟨store', h⟩
  rw [parsePacket, hheader, PyError.ok_bind] at h
  obtain ⟨spdp, hwalk, h⟩ := PyError.bind_eq_ok_iff.mp h
  obtain ⟨participants, hrecord, h⟩ := PyError.bind_eq_ok_iff.mp h
  rw [extractSedpEndpoints_eq py _ _ hreadable.words, PyError.ok_bind] at h
  obtain rfl := Except.ok.inj h
  rw [layersRtps_eq hheader]
  exact ⟨header, spdp, hheader, hwalk, hrecord, rfl⟩

theorem parseDiscoveryData_eq_ok_iff {rawPackets : List Json} {summary : Summary} :
    parseDiscoveryData py rawPackets = .ok summary ↔
      parsePackets py rawPackets = .ok summary.toStore ∧
        summary.totalRtpsPackets = rawPackets.length := by
  rw [parseDiscoveryData]
  cases parsePackets py rawPackets with
  | error e => exact ⟨nofun, nofun⟩
  | ok store =>
      constructor
      · intro h
        obtain rfl := Except.ok.inj h
        exact ⟨rfl, rfl⟩
      · intro ⟨hstore, htotal⟩
        obtain rfl := Except.ok.inj hstore
        rw [PyError.ok_bind, ← htotal]
        rfl

end DdsRtps.Discovery
