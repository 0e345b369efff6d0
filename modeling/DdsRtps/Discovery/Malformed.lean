/-
# `DdsRtps.Discovery.Malformed` — which packets end the analysis

What a decoder cannot read it keeps as text or leaves out (`Lenient`).  Not
every value is caught: a capture whose layers are dicts is read exactly if no
packet has an empty list as address, a version or a mask that is no number, a
lease beyond the floats, a port that only looks like a number, or, next to the
markers of an endpoint, a kind or depth without a word
(`parseDiscoveryData_total_iff`).
-/
import DdsRtps.Discovery.Packets

namespace DdsRtps.Discovery

/-! ## The layers -/

def isDict : Json → Bool
  | .obj _ => true
  | _ => false

/-- `_source`, `layers`, `ip` and `rtps` are dicts, where they are given. -/
structure Layered (pkt : Json) : Prop where
  packet : isDict pkt = true
  source : isDict (entryOr "_source".toList (.obj []) pkt) = true
  layers : isDict (layersOf pkt) = true
  ip : isDict (entryOr "ip".toList (.obj []) (layersOf pkt)) = true
  rtps : isDict (layersRtps pkt) = true

/-- The address of a packet, of the layer `ip` or else of the layers. -/
def addressOf (key : List Char) (pkt : Json) : Json :=
  entryOr key (entryOr key (.str "unknown".toList) (layersOf pkt))
    (entryOr "ip".toList (.obj []) (layersOf pkt))

/-- No address is an empty list. -/
structure AddressGiven (pkt : Json) : Prop where
  src : addressOf "ip.src".toList pkt ≠ .arr []
  dst : addressOf "ip.dst".toList pkt ≠ .arr []

theorem get_of_isDict {v : Json} (h : isDict v = true) (key : List Char) (default : Json) :
    v.get key default = .ok (entryOr key default v) := by
  cases v with
  | obj entries => rfl
  | null | bool | int | float | str | arr => cases h

theorem isDict_of_get {v : Json} {key : List Char} {default r : Json}
    (h : v.get key default = .ok r) : isDict v = true := by
  obtain ⟨entries, rfl⟩ := exists_obj_of_get h
  rfl

theorem firstOfList_ok_iff (v : Json) : (∃ r, firstOfList v = .ok r) ↔ v ≠ .arr [] := by
  cases v with
  | null | bool | int | float | str | obj => exact ⟨fun _ => nofun, fun _ => ⟨_, rfl⟩⟩
  | arr items =>
      cases items with
      | nil => exact ⟨nofun, fun h => absurd rfl h⟩
      | cons v items => exact ⟨fun _ => nofun, fun _ => ⟨_, rfl⟩⟩

/-- The layers of a packet are read exactly if they are dicts, and no address is an
empty list. -/
theorem readHeader_ok_iff (pkt : Json) :
    (∃ header, readHeader pkt = .ok header) ↔ Layered pkt ∧ AddressGiven pkt := by
  constructor
  · intro ⟨header, h⟩
    unfold readHeader getNone at h
    obtain ⟨source, hsource, h⟩ := PyError.bind_eq_ok_iff.mp h
    obtain ⟨layers, hlayers, h⟩ := PyError.bind_eq_ok_iff.mp h
    obtain ⟨rtps, hrtps, h⟩ := PyError.bind_eq_ok_iff.mp h
    obtain ⟨ipLayer, hip, h⟩ := PyError.bind_eq_ok_iff.mp h
    obtain ⟨src, hsrc, h⟩ := PyError.bind_eq_ok_iff.mp h
    obtain ⟨ipSrc, hipSrc, h⟩ := PyError.bind_eq_ok_iff.mp h
    obtain ⟨dst, hdst, h⟩ := PyError.bind_eq_ok_iff.mp h
    obtain ⟨ipDst, hipDst, h⟩ := PyError.bind_eq_ok_iff.mp h
    obtain ⟨_, hfirstSrc, h⟩ := PyError.bind_eq_ok_iff.mp h
    obtain ⟨_, hfirstDst, h⟩ := PyError.bind_eq_ok_iff.mp h
    obtain ⟨guid, hguid, -⟩ := PyError.bind_eq_ok_iff.mp h
    have hsourceOf := get_eq_entryOr hsource
    have hlayersOf : layersOf pkt = layers := by
      unfold layersOf
      rw [hsourceOf, get_eq_entryOr hlayers]
    have hipOf := get_eq_entryOr hip
    have haddress : ∀ {key : List Char} {fallback r : Json},
        layers.get key (.str "unknown".toList) = .ok fallback →
        ipLayer.get key fallback = .ok r → addressOf key pkt = r := by
      intro key fallback r hfallback hr
      unfold addressOf
      rw [hlayersOf, hipOf, get_eq_entryOr hfallback, get_eq_entryOr hr]
    refine ⟨⟨isDict_of_get hsource, ?_, ?_, ?_, ?_⟩, ⟨?_, ?_⟩⟩
    · rw [hsourceOf]
      exact isDict_of_get hlayers
    · rw [hlayersOf]
      exact isDict_of_get hrtps
    · rw [hlayersOf, hipOf]
      exact isDict_of_get hipSrc
    · unfold layersRtps
      rw [hlayersOf, get_eq_entryOr hrtps]
      exact isDict_of_get hguid
    · rw [haddress hsrc hipSrc]
      exact (firstOfList_ok_iff _).mp ⟨_, hfirstSrc⟩
    · rw [haddress hdst hipDst]
      exact (firstOfList_ok_iff _).mp ⟨_, hfirstDst⟩
  · intro ⟨hlayered, hgiven⟩
    obtain ⟨src, hsrc⟩ := (firstOfList_ok_iff _).mpr hgiven.src
    obtain ⟨dst, hdst⟩ := (firstOfList_ok_iff _).mpr hgiven.dst
    have hlayers := hlayered.layers
    have hip := hlayered.ip
    have hrtps := hlayered.rtps
    unfold addressOf at hsrc hdst
    unfold layersRtps at hrtps
    unfold layersOf at hlayers hip hrtps hsrc hdst
    unfold readHeader getNone
    simp only [get_of_isDict hlayered.packet, get_of_isDict hlayered.source, get_of_isDict hlayers,
      get_of_isDict hip, get_of_isDict hrtps, PyError.ok_bind, hsrc, hdst]
    exact ⟨_, rfl⟩

/-! ## What is kept -/

variable (py : PyInterp)

/-- The first word of a value is a number. -/
def Numeric (v : Json) : Prop :=
  ∃ word n, py.firstWord (v.text py) = .ok word ∧ py.readInt true word = .ok n

/-- A value that is no number is kept as text, or left out. -/
structure Lenient : Prop where
  kind : ∀ kinds v kind, decodeKind py kinds v = .ok kind → ¬Numeric py v → kind = v.text py
  depth : ∀ v depth, decodeDepth py v = .ok depth → ¬Numeric py v → depth = none
  version : ∀ v t, decodeVersion py v = .ok t →
    (∃ n, t = versionText n) ∨ (v = .null ∧ t = "unknown".toList) ∨ t = py.strip (v.text py)
  mask : ∀ v mask flags, decodeBuiltinEndpoints py v = .ok (mask, flags) →
    (∃ n, mask = "0x".toList ++ PyInterp.hexText 8 n ∧ flags = builtinFlags n) ∨
      (flags = [] ∧ (v = .null ∧ mask = "0x00000000".toList ∨ mask = v.text py))
  lease : ∀ v e, toFloat py v = .error e → e ≠ .overflowError → decodeLease py v = .ok none
  port : ∀ v port, portOf py v = .ok port → (∃ n, port = .number n) ∨ port = .text (v.text py)

theorem exists_readInt_error {v : Json} {word : List Char} (hnot : ¬Numeric py v)
    (hword : py.firstWord (v.text py) = .ok word) : ∃ e, py.readInt true word = .error e := by
  cases hread : py.readInt true word with
  | ok n => exact absurd ⟨word, n, hword, hread⟩ hnot
  | error e => exact ⟨e, rfl⟩

theorem decodeKind_of_not_numeric {kinds : List (Int × List Char)} {v : Json} {kind : List Char}
    (h : decodeKind py kinds v = .ok kind) (hnot : ¬Numeric py v) : kind = v.text py := by
  obtain ⟨word, hword, h⟩ := PyError.bind_eq_ok_iff.mp h
  obtain ⟨e, he⟩ := exists_readInt_error py hnot hword
  rw [he] at h
  exact (Except.ok.inj h).symm

theorem decodeDepth_of_not_numeric {v : Json} {depth : Option Int}
    (h : decodeDepth py v = .ok depth) (hnot : ¬Numeric py v) : depth = none := by
  obtain ⟨word, hword, h⟩ := PyError.bind_eq_ok_iff.mp h
  obtain ⟨e, he⟩ := exists_readInt_error py hnot hword
  rw [he] at h
  exact (Except.ok.inj h).symm

theorem decodeVersion_cases {v : Json} {t : List Char} (h : decodeVersion py v = .ok t) :
    (∃ n, t = versionText n) ∨ (v = .null ∧ t = "unknown".toList) ∨ t = py.strip (v.text py) := by
  cases v with
  | null => exact .inr (.inl ⟨rfl, (Except.ok.inj h).symm⟩)
  | bool b => exact .inl ⟨_, (Except.ok.inj h).symm⟩
  | int n => exact .inl ⟨_, (Except.ok.inj h).symm⟩
  | float f =>
      cases f with
      | finite r isZero whole => exact .inl ⟨_, (Except.ok.inj h).symm⟩
      | nan | inf negative => cases h
  | str | arr | obj =>
      simp only [decodeVersion] at h
      split at h
      · split at h
        · exact .inl ⟨_, (Except.ok.inj h).symm⟩
        · exact .inr (.inr (Except.ok.inj h).symm)
      · exact .inr (.inr (Except.ok.inj h).symm)

theorem decodeBuiltinEndpoints_cases {v : Json} {mask : List Char} {flags : List (List Char)}
    (h : decodeBuiltinEndpoints py v = .ok (mask, flags)) :
    (∃ n, mask = "0x".toList ++ PyInterp.hexText 8 n ∧ flags = builtinFlags n) ∨
      (flags = [] ∧ (v = .null ∧ mask = "0x00000000".toList ∨ mask = v.text py)) := by
  unfold decodeBuiltinEndpoints at h
  cases v with
  | null =>
      obtain ⟨rfl, rfl⟩ := Prod.mk.inj (Except.ok.inj h)
      exact .inr ⟨rfl, .inl ⟨rfl, rfl⟩⟩
  | bool b =>
      obtain ⟨rfl, rfl⟩ := Prod.mk.inj (Except.ok.inj h)
      exact .inl ⟨_, rfl, rfl⟩
  | int n =>
      obtain ⟨rfl, rfl⟩ := Prod.mk.inj (Except.ok.inj h)
      exact .inl ⟨_, rfl, rfl⟩
  | float f =>
      cases f with
      | finite r isZero whole =>
          obtain ⟨rfl, rfl⟩ := Prod.mk.inj (Except.ok.inj h)
          exact .inl ⟨_, rfl, rfl⟩
      | nan =>
          obtain ⟨rfl, rfl⟩ := Prod.mk.inj (Except.ok.inj h)
          exact .inr ⟨rfl, .inr rfl⟩
      | inf negative => cases h
  | arr | obj =>
      obtain ⟨rfl, rfl⟩ := Prod.mk.inj (Except.ok.inj h)
      exact .inr ⟨rfl, .inr rfl⟩
  | str s =>
      simp only at h
      cases hread : py.readInt false s with
      | ok n =>
          rw [hread] at h
          obtain ⟨rfl, rfl⟩ := Prod.mk.inj (Except.ok.inj h)
          exact .inl ⟨_, rfl, rfl⟩
      | error e =>
          obtain rfl := readInt_error py hread
          rw [hread] at h
          obtain ⟨rfl, rfl⟩ := Prod.mk.inj (Except.ok.inj h)
          exact .inr ⟨rfl, .inr rfl⟩

theorem decodeLease_of_toFloat_error {v : Json} {e : PyError} (h : toFloat py v = .error e)
    (hoverflow : e ≠ .overflowError) : decodeLease py v = .ok none := by
  cases v with
  | null => rfl
  | bool b => cases b <;> cases h
  | int n =>
      simp only [toFloat] at h
      split at h
      · cases h
      · exact absurd (Except.error.inj h).symm hoverflow
  | float f => cases h
  | str s =>
      simp only [decodeLease, toFloat] at h ⊢
      cases hfloat : py.floatOfText s with
      | none => rfl
      | some f =>
          rw [hfloat] at h
          cases h
  | arr | obj => rfl

theorem portOf_cases {v : Json} {port : Port} (h : portOf py v = .ok port) :
    (∃ n, port = .number n) ∨ port = .text (v.text py) := by
  unfold portOf at h
  simp only at h
  split at h
  · obtain ⟨word, -, h⟩ := PyError.bind_eq_ok_iff.mp h
    obtain ⟨n, -, h⟩ := PyError.bind_eq_ok_iff.mp h
    exact .inl ⟨n, (Except.ok.inj h).symm⟩
  · exact .inr (Except.ok.inj h).symm

theorem lenient : Lenient py where
  kind _ _ _ := decodeKind_of_not_numeric py
  depth _ _ := decodeDepth_of_not_numeric py
  version _ _ := decodeVersion_cases py
  mask _ _ _ := decodeBuiltinEndpoints_cases py
  lease _ _ := decodeLease_of_toFloat_error py
  port _ _ := portOf_cases py

/-! ## Which captures are read -/

theorem exists_summary_iff (rawPackets : List Json) :
    (∃ summary, parseDiscoveryData py rawPackets = .ok summary) ↔
      ∀ pkt ∈ rawPackets, PacketReadable py pkt := by
  rw [← parsePackets_ok_iff, parseDiscoveryData]
  cases parsePackets py rawPackets with
  | error e =>
      constructor
      · rintro ⟨summary, hsummary⟩
        cases hsummary
      · rintro ⟨store, hstore⟩
        cases hstore
  | ok store => exact ⟨fun _ => ⟨store, rfl⟩, fun _ => ⟨_, rfl⟩⟩

theorem packetReadable_iff (pkt : Json) :
    PacketReadable py pkt ↔
      Layered pkt ∧ AddressGiven pkt ∧ TreeReadable py (layersRtps pkt) := by
  rw [← and_assoc, ← readHeader_ok_iff, PacketReadable]
  constructor
  · intro ⟨header, hheader, htree⟩
    refine ⟨⟨header, hheader⟩, ?_⟩
    rw [layersRtps_eq hheader]
    exact htree
  · intro ⟨⟨header, hheader⟩, htree⟩
    rw [layersRtps_eq hheader] at htree
    exact ⟨header, hheader, htree⟩

/-- A capture of layered packets is read, what is unreadable in it kept as text or
left out, exactly if the addresses are given and the trees readable. -/
theorem parseDiscoveryData_total_iff {rawPackets : List Json}
    (hlayered : ∀ pkt ∈ rawPackets, Layered pkt) :
    ((∃ summary, parseDiscoveryData py rawPackets = .ok summary) ∧ Lenient py) ↔
      ∀ pkt ∈ rawPackets, AddressGiven pkt ∧ TreeReadable py (layersRtps pkt) := by
  rw [and_iff_left (lenient py), exists_summary_iff]
  constructor
  · intro h pkt hpkt
    exact ((packetReadable_iff py pkt).mp (h pkt hpkt)).2
  · intro h pkt hpkt
    exact (packetReadable_iff py pkt).mpr ⟨hlayered pkt hpkt, h pkt hpkt⟩

/-- A packet of one dict. -/
def packetOf (entries : List (List Char × Json)) : Json :=
  .obj [("_source".toList, .obj [("layers".toList, .obj [("rtps".toList, .obj entries)])])]

theorem layered_packetOf (entries : List (List Char × Json)) : Layered (packetOf entries) :=
  ⟨rfl, rfl, rfl, rfl, rfl⟩

/-- A topic, a GUID, and a reliability. -/
def announced (reliability : String) : Json :=
  packetOf
    [("rtps.param.topicName".toList, .str "Square".toList),
     ("rtps.param.endpoint_guid".toList, .str "010f45d27c3a000001000000000001c2".toList),
     ("rtps.reliability_kind".toList, .str reliability.toList)]

/-- A locator with a port. -/
def locatedAt (port : String) : Json :=
  packetOf
    [("rtps.locator.ipv4".toList, .str "10.0.0.1".toList),
     ("rtps.locator.port".toList, .str port.toList)]

theorem parseDiscoveryData_total_iff_noNumber :
    (∃ summary, parseDiscoveryData .ascii [announced "none", locatedAt "a"] = .ok summary) ∧
      Lenient .ascii := by
  refine (parseDiscoveryData_total_iff .ascii
    (List.forall_mem_cons.mpr ⟨layered_packetOf _,
      List.forall_mem_singleton.mpr (layered_packetOf _)⟩)).mpr ?_
  refine List.forall_mem_cons.mpr ⟨?_, List.forall_mem_singleton.mpr ?_⟩
  · exact ⟨⟨nofun, nofun⟩, List.all_eq_true.mp (by decide +kernel), fun _ => by decide +kernel⟩
  · exact ⟨⟨nofun, nofun⟩, List.all_eq_true.mp (by decide +kernel), fun _ => by decide +kernel⟩

/-- An empty reliability ends the analysis, and so does a port with a leading
zero. -/
theorem emptyReliability_raises :
    (Layered (announced "") ∧ (parseDiscoveryData .ascii [announced ""]).isOk = false) ∧
      Layered (locatedAt "07400") ∧
        (parseDiscoveryData .ascii [locatedAt "07400"]).isOk = false :=
  ⟨⟨layered_packetOf _, by decide +kernel⟩, layered_packetOf _, by decide +kernel⟩

end DdsRtps.Discovery
