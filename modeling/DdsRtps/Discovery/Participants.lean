/-
# `DdsRtps.Discovery.Participants` — SPDP participants of a packet

`inspect_spdp_node` runs over every dict of a packet and collects what it finds
of a participant: the last value of a field wins, and locators add up.  The
result makes a new participant, or adds to one that is known.

The run over the packet is where it can raise: a value that one of the decoders
does not take ends it (`walkTree_ok_iff`), and after it nothing does
(`recordParticipant_ok`).
-/
import DdsRtps.Discovery.Decode
import DdsRtps.Lib.Keyed
import DdsRtps.Lib.PyDict

namespace DdsRtps.Discovery

open PyInterp

/-- The port of a locator: its number, or the text where it is none. -/
inductive Port where
  | number (n : Int)
  | text (t : List Char)
deriving DecidableEq

structure Locator where
  /-- `"type"`. -/
  kind : List Char
  ip : List Char
  port : Port
deriving DecidableEq

/-- `found_spdp` and `locators_found`. -/
structure Spdp where
  guidPrefix : Option (List Char)
  vendorId : Option (List Char)
  vendorName : Option (List Char)
  protocolVersion : Option (List Char)
  leaseDurationSec : Option PyFloat
  builtinEndpointsMask : Option (List Char)
  builtinEndpointsFlags : Option (List (List Char))
  locatorsFound : List Locator

/-- Nothing is found yet. -/
def Spdp.empty : Spdp := ⟨none, none, none, none, none, none, none, []⟩

/-- `v or w`. -/
def pyOr (v w : Json) : Json := if v.truthy then v else w

/-- `node.get(key)`. -/
def getOrNone (node : List (List Char × Json)) (key : List Char) : Json :=
  (node.lookup key).getD .null

variable (py : PyInterp)

/-- `float(v)`. -/
def toFloat : Json → Except PyError PyFloat
  | .str s =>
      match py.floatOfText s with
      | some f => .ok f
      | none => .error .valueError
  | .bool true => .ok (.finite "1.0".toList false 1)
  | .bool false => .ok (.finite "0.0".toList true 0)
  | .int n =>
      match py.floatOfInt n with
      | some f => .ok f
      | none => .error .overflowError
  | .float f => .ok f
  | .null | .arr _ | .obj _ => .error .typeError

/-- The lease, where there is a number. -/
def decodeLease : Json → Except PyError (Option PyFloat)
  | .null => .ok none
  | sec =>
      match toFloat py sec with
      | .ok lease => .ok (some lease)
      | .error .valueError | .error .typeError => .ok none
      | .error e => .error e

/-- The port as the report shows it. -/
def portOf (v : Json) : Except PyError Port :=
  let t := v.text py
  if py.allDigits t ∨ startsHex t then do
    let word ← py.firstWord t
    let n ← py.readInt true word
    return .number n
  else .ok (.text t)

/-! ## The fields of a participant -/

variable (node : List (List Char × Json)) (k : List Char) (v : Json) (spdp : Spdp)

/-- A key of the participant's GUID. -/
def isGuidKey : Bool :=
  "pid_participant_guid".toList <:+: py.lower k ∨ k = "rtps.param.participant_guid".toList

/-- A key of the vendor. -/
def isVendorKey : Bool := "pid_vendor_id".toList <:+: py.lower k ∨ k = "rtps.vendorId".toList

/-- A key of the version. -/
def isVersionKey : Bool :=
  "pid_protocol_version".toList <:+: py.lower k ∨ k = "rtps.version".toList

/-- A key of the lease. -/
def isLeaseKey : Bool :=
  "pid_participant_lease_duration".toList <:+: py.lower k ∨ "lease_duration".toList <:+: py.lower k

/-- A key of the builtin endpoints. -/
def isBuiltinKey : Bool :=
  "pid_builtin_endpoint_set".toList <:+: py.lower k ∨
    "builtin_endpoint_set".toList <:+: py.lower k

/-- A key of a locator. -/
def isLocatorKey : Bool := "locator".toList <:+: py.lower k

/-- The value that the version is read from. -/
def versionVal : Json := (node.lookup "rtps.version".toList).getD v

def leaseVal : Json := getOrNone node "rtps.param.ntpTime.sec".toList

def maskVal : Json := (node.lookup "rtps.param.builtin_endpoint_set".toList).getD v

def locatorIp : Json :=
  pyOr (getOrNone node "rtps.locator.ipv4".toList) (getOrNone node "rtps.locator_udp_v4.ip".toList)

def locatorPort : Json :=
  pyOr (getOrNone node "rtps.locator.port".toList)
    (getOrNone node "rtps.locator_udp_v4.port".toList)

def inspectGuid : Spdp :=
  if isGuidKey py k then
    let guidVal := (node.lookup "rtps.param.participant_guid".toList).getD v
    -- a shorter GUID is its own prefix
    { spdp with guidPrefix := some ((formatGuid py guidVal).take 24) }
  else spdp

def inspectVendor : Spdp :=
  if isVendorKey py k then
    let (vHex, vName) := decodeVendor py ((node.lookup "rtps.vendorId".toList).getD v)
    { spdp with
      vendorId := some vHex
      vendorName := some vName }
  else spdp

def inspectVersion : Except PyError Spdp :=
  if isVersionKey py k then do
    let version ← decodeVersion py (versionVal node v)
    return { spdp with protocolVersion := some version }
  else .ok spdp

def inspectLease : Except PyError Spdp :=
  if isLeaseKey py k then do
    let lease ← decodeLease py (leaseVal node)
    return { spdp with leaseDurationSec := lease <|> spdp.leaseDurationSec }
  else .ok spdp

def inspectBuiltin : Except PyError Spdp :=
  if isBuiltinKey py k then do
    let (maskHex, flags) ← decodeBuiltinEndpoints py (maskVal node v)
    return { spdp with
      builtinEndpointsMask := some maskHex
      builtinEndpointsFlags := some flags }
  else .ok spdp

def inspectLocator : Except PyError Spdp :=
  if isLocatorKey py k ∧ (locatorIp node).truthy ∧ (locatorPort node).truthy then do
    let kind :=
      if "metatraffic".toList <:+: py.lower k then "metatraffic_unicast".toList
      else if "multicast".toList <:+: py.lower k then "multicast".toList
      else "unicast".toList
    let port ← portOf py (locatorPort node)
    return { spdp with
      locatorsFound := spdp.locatorsFound ++ [⟨kind, (locatorIp node).text py, port⟩] }
  else .ok spdp

/-- The turn of the loop of `inspect_spdp_node` over an item. -/
def inspectSpdpItem (spdp : Spdp) (item : List Char × Json) : Except PyError Spdp := do
  let (k, v) := item
  let spdp := inspectGuid py node k v spdp
  let spdp := inspectVendor py node k v spdp
  let spdp ← inspectVersion py node k v spdp
  let spdp ← inspectLease py node k spdp
  let spdp ← inspectBuiltin py node k v spdp
  inspectLocator py node k spdp

/-- `inspect_spdp_node`. -/
def inspectSpdpNode (spdp : Spdp) (node : List (List Char × Json)) : Except PyError Spdp :=
  node.foldlM (inspectSpdpItem py node) spdp

/-! ## The walk -/

section

variable {σ : Type} (callback : σ → List (List Char × Json) → Except PyError σ)

mutual

/-- `walk_tree`, with what the callback changes as a state. -/
def walkTree : Json → σ → Except PyError σ
  | .obj entries, s => do
      let s ← callback s entries
      walkTreeEntries entries s
  | .arr items, s => walkTreeItems items s
  | _, s => .ok s

def walkTreeEntries : List (List Char × Json) → σ → Except PyError σ
  | [], s => .ok s
  | (_, v) :: entries, s => do
      let s ← walkTree v s
      walkTreeEntries entries s

def walkTreeItems : List Json → σ → Except PyError σ
  | [], s => .ok s
  | item :: items, s => do
      let s ← walkTree item s
      walkTreeItems items s

end

/-- The walk calls back for every dict, each before those in it. -/
theorem walkTree_eq_foldlM (j : Json) (s : σ) :
    walkTree callback j s = j.dictsOf.foldlM callback s := by
  induction j using Json.induct generalizing s with
  | null | bool | int | float | str => rfl
  | arr items ih =>
      rw [walkTree, Json.dictsOf]
      induction items generalizing s with
      | nil => rfl
      | cons v items ihs =>
          rw [List.forall_mem_cons] at ih
          rw [walkTreeItems, Json.dictsOfItems, PyError.foldlM_append, ih.1]
          exact bind_congr fun s => ihs ih.2 s
  | obj entries ih =>
      rw [walkTree, Json.dictsOf, PyError.foldlM_cons]
      refine bind_congr fun s => ?_
      induction entries generalizing s with
      | nil => rfl
      | cons e entries ihs =>
          rw [List.forall_mem_cons] at ih
          rw [walkTreeEntries, Json.dictsOfEntries, PyError.foldlM_append, ih.1]
          exact bind_congr fun s => ihs ih.2 s

end

/-! ## What raises -/

/-- A version that is a number or a text. -/
def versionReadable : Json → Bool
  | .float .nan | .float (.inf _) => false
  | _ => true

/-- A mask that is not endless. -/
def maskReadable : Json → Bool
  | .float (.inf _) => false
  | _ => true

/-- A lease that is not too long for a float. -/
def leaseReadable : Json → Bool
  | .int n => (py.floatOfInt n).isSome
  | _ => true

/-- A port that is a number, if it looks like one. -/
def portReadable (v : Json) : Bool := (portOf py v).isOk

theorem decodeVersion_ok_iff (v : Json) :
    (∃ t, decodeVersion py v = .ok t) ↔ versionReadable v = true := by
  unfold decodeVersion versionReadable
  cases v with
  | null | bool b | int n => exact ⟨fun _ => rfl, fun _ => ⟨_, rfl⟩⟩
  | float f =>
      cases f with
      | finite r isZero whole => exact ⟨fun _ => rfl, fun _ => ⟨_, rfl⟩⟩
      | nan | inf negative => exact ⟨nofun, nofun⟩
  | str | arr | obj =>
      refine ⟨fun _ => rfl, fun _ => ?_⟩
      simp only
      split
      · split <;> exact ⟨_, rfl⟩
      · exact ⟨_, rfl⟩

theorem decodeLease_ok_iff (v : Json) :
    (∃ lease, decodeLease py v = .ok lease) ↔ leaseReadable py v = true := by
  cases v with
  | null | arr | obj | float f => exact ⟨fun _ => rfl, fun _ => ⟨_, rfl⟩⟩
  | bool b => cases b <;> exact ⟨fun _ => rfl, fun _ => ⟨_, rfl⟩⟩
  | int n =>
      simp only [decodeLease, leaseReadable, toFloat]
      cases py.floatOfInt n with
      | none => exact ⟨nofun, nofun⟩
      | some f => exact ⟨fun _ => rfl, fun _ => ⟨_, rfl⟩⟩
  | str s =>
      refine ⟨fun _ => rfl, fun _ => ?_⟩
      simp only [decodeLease, toFloat]
      cases py.floatOfText s <;> exact ⟨_, rfl⟩

theorem readInt_error {auto : Bool} {t : List Char} {e : PyError}
    (h : py.readInt auto t = .error e) : e = .valueError := by
  unfold PyInterp.readInt at h
  simp only at h
  split at h
  · cases h
  · exact (Except.error.inj h).symm

theorem decodeBuiltinEndpoints_ok_iff (v : Json) :
    (∃ p, decodeBuiltinEndpoints py v = .ok p) ↔ maskReadable v = true := by
  unfold decodeBuiltinEndpoints maskReadable
  cases v with
  | null | bool b | int n | arr | obj => exact ⟨fun _ => rfl, fun _ => ⟨_, rfl⟩⟩
  | float f =>
      cases f with
      | finite r isZero whole | nan => exact ⟨fun _ => rfl, fun _ => ⟨_, rfl⟩⟩
      | inf negative => exact ⟨nofun, nofun⟩
  | str s =>
      refine ⟨fun _ => rfl, fun _ => ?_⟩
      simp only
      cases hread : py.readInt false s with
      | ok n => exact ⟨_, rfl⟩
      | error e =>
          obtain rfl := readInt_error py hread
          exact ⟨_, rfl⟩

/-- A value is decoded where the key asks for it, and nothing is done otherwise. -/
theorem guarded_ok_iff {α β : Type} {key readable : Bool} {decoded : Except PyError α}
    {record : α → Except PyError β} {kept : β} (hrecord : ∀ a, ∃ s, record a = .ok s)
    (hdecoded : (∃ a, decoded = .ok a) ↔ readable = true) :
    (∃ s, (if key then decoded >>= record else .ok kept) = .ok s) ↔
      (!key || readable) = true := by
  cases key with
  | true =>
      rw [Bool.not_true, Bool.false_or, if_pos rfl]
      refine (PyError.exists_bind_ok_iff hdecoded fun a => ?_).trans (and_iff_left trivial)
      exact ⟨fun _ => trivial, fun _ => hrecord a⟩
  | false => simp

theorem inspectVersion_ok_iff :
    (∃ s, inspectVersion py node k v spdp = .ok s) ↔
      (!isVersionKey py k || versionReadable (versionVal node v)) = true :=
  guarded_ok_iff (fun _ => ⟨_, rfl⟩) (decodeVersion_ok_iff py _)

theorem inspectLease_ok_iff :
    (∃ s, inspectLease py node k spdp = .ok s) ↔
      (!isLeaseKey py k || leaseReadable py (leaseVal node)) = true :=
  guarded_ok_iff (fun _ => ⟨_, rfl⟩) (decodeLease_ok_iff py _)

theorem inspectBuiltin_ok_iff :
    (∃ s, inspectBuiltin py node k v spdp = .ok s) ↔
      (!isBuiltinKey py k || maskReadable (maskVal node v)) = true :=
  guarded_ok_iff (fun _ => ⟨_, rfl⟩) (decodeBuiltinEndpoints_ok_iff py _)

/-- A locator is recorded from an item. -/
def hasLocator : Bool := isLocatorKey py k && (locatorIp node).truthy && (locatorPort node).truthy

theorem inspectLocator_ok_iff :
    (∃ s, inspectLocator py node k spdp = .ok s) ↔
      (!hasLocator py node k || portReadable py (locatorPort node)) = true := by
  rw [inspectLocator, portReadable, hasLocator]
  split
  · rename_i hlocator
    simp only [hlocator, Bool.and_self, Bool.not_true, Bool.false_or]
    cases portOf py (locatorPort node) with
    | error e => exact ⟨nofun, nofun⟩
    | ok port => exact ⟨fun _ => rfl, fun _ => ⟨_, rfl⟩⟩
  · rename_i hlocator
    refine ⟨fun _ => ?_, fun _ => ⟨_, rfl⟩⟩
    rw [not_and_or, not_and_or] at hlocator
    simp only [Bool.not_eq_true] at hlocator
    rcases hlocator with h | h | h <;> simp [h]

/-- An item of which the decoders take every value that they are given. -/
def itemReadable (item : List Char × Json) : Bool :=
  (!isVersionKey py item.1 || versionReadable (versionVal node item.2)) &&
    (!isLeaseKey py item.1 || leaseReadable py (leaseVal node)) &&
    (!isBuiltinKey py item.1 || maskReadable (maskVal node item.2)) &&
    (!hasLocator py node item.1 || portReadable py (locatorPort node))

theorem inspectSpdpItem_ok_iff (item : List Char × Json) :
    (∃ s, inspectSpdpItem py node spdp item = .ok s) ↔ itemReadable py node item = true := by
  rw [itemReadable, Bool.and_assoc, Bool.and_assoc, Bool.and_eq_true, Bool.and_eq_true,
    Bool.and_eq_true]
  exact PyError.exists_bind_ok_iff (inspectVersion_ok_iff py node _ _ _) fun s =>
    PyError.exists_bind_ok_iff (inspectLease_ok_iff py node _ s) fun s =>
      PyError.exists_bind_ok_iff (inspectBuiltin_ok_iff py node _ _ s) fun s =>
        inspectLocator_ok_iff py node _ s

/-- A dict of which all items are readable. -/
def nodeReadable : Bool := node.all (itemReadable py node)

/-- The walk ends exactly if every dict is readable. -/
theorem walkTree_ok_iff (j : Json) :
    (∃ s, walkTree (inspectSpdpNode py) j spdp = .ok s) ↔
      ∀ node ∈ j.dictsOf, nodeReadable py node = true := by
  rw [walkTree_eq_foldlM]
  refine PyError.foldlM_ok_iff (fun s node _ => ?_) spdp
  rw [nodeReadable, List.all_eq_true]
  exact PyError.foldlM_ok_iff (fun s item _ => inspectSpdpItem_ok_iff py node s item) s

/-! ## The participants -/

/-- An entry of `summary["participants"]`. -/
structure Participant where
  guidPrefix : List Char
  srcIp : Json
  vendorId : List Char
  vendorName : List Char
  protocolVersion : List Char
  leaseDurationSec : PyFloat
  builtinEndpointsMask : List Char
  builtinEndpointsFlags : List (List Char)
  locators : List Locator

/-- What a packet says besides its tree. -/
structure Header where
  rtps : Json
  srcIp : Json
  guid : Json
  vendor : Json
  version : Json

variable (header : Header)

/-- `guid_p`, where an empty text is no prefix. -/
def guidP : Option (List Char) :=
  let found := spdp.guidPrefix.filter (· ≠ [])
  let fallback :=
    if header.guid.truthy then some ((formatGuid py header.guid).take 24) else none
  (found <|> fallback).filter (· ≠ [])

/-- `proto_ver`. -/
def protoVer : Except PyError (List Char) :=
  match spdp.protocolVersion.filter (· ≠ []) with
  | some version => .ok version
  | none => decodeVersion py header.version

/-- The participant that is recorded first. -/
def newParticipant (guid : List Char) : Except PyError Participant := do
  let vendorVal : Json :=
    match spdp.vendorId.filter (· ≠ []) with
    | some id => .str id
    | none => header.vendor
  let (vHex, vName) := decodeVendor py vendorVal
  let version ← protoVer py spdp header
  return {
    guidPrefix := guid
    srcIp := header.srcIp
    vendorId := vHex
    vendorName := vName
    protocolVersion := version
    leaseDurationSec := spdp.leaseDurationSec.getD (.finite "20.0".toList false 20)
    builtinEndpointsMask := spdp.builtinEndpointsMask.getD "unknown".toList
    builtinEndpointsFlags := spdp.builtinEndpointsFlags.getD []
    locators := Keyed.addAll id [] spdp.locatorsFound }

/-- What a packet adds to a participant that is known. -/
def augment (part : Participant) : Participant :=
  let flags := spdp.builtinEndpointsFlags.getD []
  let part :=
    if part.builtinEndpointsFlags = [] ∧ flags ≠ [] then
      { part with
        builtinEndpointsMask := spdp.builtinEndpointsMask.getD part.builtinEndpointsMask
        builtinEndpointsFlags := flags }
    else part
  let part :=
    match spdp.leaseDurationSec.filter PyFloat.truthy with
    | some lease => { part with leaseDurationSec := lease }
    | none => part
  { part with locators := Keyed.addAll id part.locators spdp.locatorsFound }

/-- The participants after a packet. -/
def recordParticipant (participants : PyDict (List Char) Participant) :
    Except PyError (PyDict (List Char) Participant) :=
  match guidP py spdp header with
  | none => .ok participants
  | some guid =>
      match participants.get? guid with
      | none => do
          let part ← newParticipant py spdp header guid
          return participants.setDefault guid part
      | some _ => .ok (participants.modify guid (augment spdp))

/-- After the walk only a version can raise. -/
theorem recordParticipant_ok (h : versionReadable header.version = true)
    (participants : PyDict (List Char) Participant) :
    ∃ participants', recordParticipant py spdp header participants = .ok participants' := by
  obtain ⟨version, hversion⟩ := (decodeVersion_ok_iff py header.version).mpr h
  have hproto : ∃ version, protoVer py spdp header = .ok version := by
    unfold protoVer
    split
    · exact ⟨_, rfl⟩
    · exact ⟨version, hversion⟩
  have hnew : ∀ guid, ∃ part, newParticipant py spdp header guid = .ok part := by
    intro guid
    obtain ⟨version, hversion⟩ := hproto
    unfold newParticipant
    rw [hversion]
    exact ⟨_, rfl⟩
  rw [recordParticipant]
  split
  · exact ⟨_, rfl⟩
  · rename_i guid _
    split
    · obtain ⟨part, hpart⟩ := hnew guid
      rw [hpart]
      exact ⟨_, rfl⟩
    · exact ⟨_, rfl⟩

end DdsRtps.Discovery
