/-
# `DdsRtps.Discovery.Decode` — the values of the dissector

The functions of the discovery sniffer that turn a value of a dissected packet
into what the report shows.  Most fall back on the text of the value; what
raises is a version that is no number, an endless mask, and a kind without a
word.
-/
import DdsRtps.Lib.PyJson

namespace DdsRtps.Discovery

open PyInterp

/-- `VENDOR_MAP`. -/
def vendorMap : List (List Char × List Char) :=
  [("0101".toList, "RTI Connext DDS".toList),
   ("0102".toList, "OpenSplice DDS".toList),
   ("0103".toList, "OpenDDS".toList),
   ("0104".toList, "MilSoft".toList),
   ("0105".toList, "Twin Oaks CoreDX DDS".toList),
   ("0106".toList, "Lakos".toList),
   ("0107".toList, "PrismTech".toList),
   ("0108".toList, "OAMAS".toList),
   ("0109".toList, "THALES".toList),
   ("010a".toList, "ATIS".toList),
   ("010f".toList, "eProsima Fast DDS".toList),
   ("0110".toList, "Eclipse Cyclone DDS".toList),
   ("0111".toList, "GurumNetworks GurumDDS".toList),
   ("0112".toList, "RustDDS".toList),
   ("0113".toList, "Shadow Security DDS".toList),
   ("0114".toList, "Dust DDS".toList),
   ("0120".toList, "Intercom DDS".toList)]

/-- `BUILTIN_ENDPOINTS_MAP`. -/
def builtinEndpointsMap : List (Int × List Char) :=
  [(0x00000001, "DISC_BUILTIN_ENDPOINT_PARTICIPANT_ANNOUNCER".toList),
   (0x00000002, "DISC_BUILTIN_ENDPOINT_PARTICIPANT_DETECTOR".toList),
   (0x00000004, "DISC_BUILTIN_ENDPOINT_PUBLICATION_ANNOUNCER".toList),
   (0x00000008, "DISC_BUILTIN_ENDPOINT_PUBLICATION_DETECTOR".toList),
   (0x00000010, "DISC_BUILTIN_ENDPOINT_SUBSCRIPTION_ANNOUNCER".toList),
   (0x00000020, "DISC_BUILTIN_ENDPOINT_SUBSCRIPTION_DETECTOR".toList),
   (0x00000040, "DISC_BUILTIN_ENDPOINT_PARTICIPANT_PROXY_ANNOUNCER".toList),
   (0x00000080, "DISC_BUILTIN_ENDPOINT_PARTICIPANT_PROXY_DETECTOR".toList),
   (0x00000100, "DISC_BUILTIN_ENDPOINT_PARTICIPANT_STATE_ANNOUNCER".toList),
   (0x00000200, "DISC_BUILTIN_ENDPOINT_PARTICIPANT_STATE_DETECTOR".toList),
   (0x00000400, "BUILTIN_ENDPOINT_PARTICIPANT_MESSAGE_DATA_WRITER".toList),
   (0x00000800, "BUILTIN_ENDPOINT_PARTICIPANT_MESSAGE_DATA_READER".toList),
   (0x00001000, "BITS_TYPE_LOOKUP_SERVICE_REQUEST_DATA_WRITER".toList),
   (0x00002000, "BITS_TYPE_LOOKUP_SERVICE_REQUEST_DATA_READER".toList),
   (0x00004000, "BITS_TYPE_LOOKUP_SERVICE_REPLY_DATA_WRITER".toList),
   (0x00008000, "BITS_TYPE_LOOKUP_SERVICE_REPLY_DATA_READER".toList),
   (0x00010000, "DISC_BUILTIN_ENDPOINT_PUBLICATION_SECURE_ANNOUNCER".toList),
   (0x00020000, "DISC_BUILTIN_ENDPOINT_PUBLICATION_SECURE_DETECTOR".toList),
   (0x00040000, "DISC_BUILTIN_ENDPOINT_SUBSCRIPTION_SECURE_ANNOUNCER".toList),
   (0x00080000, "DISC_BUILTIN_ENDPOINT_SUBSCRIPTION_SECURE_DETECTOR".toList),
   (0x00100000, "BUILTIN_ENDPOINT_PARTICIPANT_MESSAGE_SECURE_DATA_WRITER".toList),
   (0x00200000, "BUILTIN_ENDPOINT_PARTICIPANT_MESSAGE_SECURE_DATA_READER".toList),
   (0x00400000, "DISC_BUILTIN_ENDPOINT_PARTICIPANT_SECURE_ANNOUNCER".toList),
   (0x00800000, "DISC_BUILTIN_ENDPOINT_PARTICIPANT_SECURE_DETECTOR".toList)]

/-- `RELIABILITY_KINDS`. -/
def reliabilityKinds : List (Int × List Char) :=
  [(1, "BEST_EFFORT".toList), (2, "RELIABLE".toList)]

/-- `DURABILITY_KINDS`. -/
def durabilityKinds : List (Int × List Char) :=
  [(0, "VOLATILE".toList), (1, "TRANSIENT_LOCAL".toList), (2, "TRANSIENT".toList),
   (3, "PERSISTENT".toList)]

/-- `OWNERSHIP_KINDS`. -/
def ownershipKinds : List (Int × List Char) :=
  [(0, "SHARED".toList), (1, "EXCLUSIVE".toList)]

variable (py : PyInterp)

/-- `normalize_hex`. -/
def normalizeHex (length : Nat) : Json → List Char
  | .null => []
  | .bool b => hexText length (if b then 1 else 0)
  | .int n => hexText length n
  | v =>
      let s := py.lower (py.strip (v.text py))
      let s := if startsHex s then s.drop 2 else s
      zfill length (delete '.' (delete ':' s))

/-- `format_guid`. -/
def formatGuid (rawGuid : Json) : List Char :=
  if rawGuid.truthy then
    let rawGuid :=
      match rawGuid with
      | .arr (first :: _) => first
      | v => v
    let s := delete '.' (delete ':' (py.lower (py.strip (rawGuid.text py))))
    if startsHex s then s.drop 2 else s
  else "unknown".toList

/-- `decode_vendor`. -/
def decodeVendor (vendorVal : Json) : List Char × List Char :=
  let norm := normalizeHex py 4 vendorVal
  let name := (vendorMap.lookup norm).getD ("Unknown DDS Vendor (".toList ++ norm ++ [')'])
  let formatted := if norm.length = 4 then norm.take 2 ++ '.' :: norm.drop 2 else norm
  (formatted, name)

/-- The two bytes of a version. -/
def versionText (val : Int) : List Char :=
  intText (val / 256 % 256) ++ '.' :: intText (val % 256)

/-- `decode_version`. -/
def decodeVersion : Json → Except PyError (List Char)
  | .null => .ok "unknown".toList
  | .bool b => .ok (versionText (if b then 1 else 0))
  | .int n => .ok (versionText n)
  | .float f => f.toInt.map versionText
  | v =>
      let s := py.strip (v.text py)
      if startsHex s ∧ 6 ≤ s.length then
        match py.readInt false s with
        | .ok n => .ok (versionText n)
        | .error _ => .ok s
      else .ok s

/-- The names of the bits of a mask. -/
def builtinFlags (val : Int) : List (List Char) :=
  (builtinEndpointsMap.filter fun e => val / e.1 % 2 ≠ 0).map Prod.snd

/-- `decode_builtin_endpoints`. -/
def decodeBuiltinEndpoints (maskVal : Json) : Except PyError (List Char × List (List Char)) :=
  let int : Except PyError Int :=
    match maskVal with
    | .str s => py.readInt false s
    | .bool b => .ok (if b then 1 else 0)
    | .int n => .ok n
    | .float f => f.toInt
    | .null | .arr _ | .obj _ => .error .typeError
  match maskVal, int with
  | .null, _ => .ok ("0x00000000".toList, [])
  | _, .ok n => .ok ("0x".toList ++ hexText 8 n, builtinFlags n)
  | v, .error .valueError | v, .error .typeError => .ok (v.text py, [])
  | _, .error e => .error e

/-- The kind of a QoS policy: the name of its number, or the text where there is
no number.  A text without a word raises, and the caller does not catch it. -/
def decodeKind (kinds : List (Int × List Char)) (v : Json) : Except PyError (List Char) := do
  let word ← py.firstWord (v.text py)
  match py.readInt true word with
  | .ok n => return (kinds.lookup n).getD ("0x".toList ++ hexText 0 n)
  | .error _ => return v.text py

/-- The depth of the history, where there is a number. -/
def decodeDepth (v : Json) : Except PyError (Option Int) := do
  let word ← py.firstWord (v.text py)
  match py.readInt true word with
  | .ok n => return some n
  | .error _ => return none

/-- The kind of an entity, by the last byte of its GUID. -/
def entityKindOf (guid : List Char) : List Char :=
  let kindHex := guid.drop (guid.length - 2)
  if kindHex = "02".toList ∨ kindHex = "03".toList then "DataWriter".toList
  else if kindHex = "04".toList ∨ kindHex = "07".toList then "DataReader".toList
  else "Entity (0x".toList ++ kindHex ++ [')']

/-! ## What raises -/

/-- There is a word in the text of a value. -/
def hasWord (v : Json) : Bool := (v.text py).any fun c => !py.space c

theorem exists_firstWord {v : Json} (h : hasWord py v = true) :
    ∃ word, py.firstWord (v.text py) = .ok word := by
  obtain ⟨c, hc, hspace⟩ := List.any_eq_true.mp h
  rw [PyInterp.firstWord]
  cases hdrop : (v.text py).dropWhile py.space with
  | nil =>
      rw [List.dropWhile_eq_nil_iff.mp hdrop c hc] at hspace
      cases hspace
  | cons d r =>
      have hd : py.space d = false := by
        have hhead := List.head_dropWhile_not py.space (l := v.text py) (by simp [hdrop])
        simpa [hdrop] using hhead
      rw [List.takeWhile_cons_of_pos (by simp [hd])]
      exact ⟨_, rfl⟩

theorem firstWord_of_no_word {v : Json} (h : hasWord py v = false) :
    py.firstWord (v.text py) = .error .indexError := by
  have hdrop : (v.text py).dropWhile py.space = [] := by
    refine List.dropWhile_eq_nil_iff.mpr fun c hc => ?_
    simpa using List.any_eq_false.mp h c hc
  rw [PyInterp.firstWord, hdrop]
  rfl

/-- A kind is read, if there is a word to read. -/
theorem exists_decodeKind (kinds : List (Int × List Char)) {v : Json}
    (h : hasWord py v = true) : ∃ kind, decodeKind py kinds v = .ok kind := by
  obtain ⟨word, hword⟩ := exists_firstWord py h
  rw [decodeKind, hword, PyError.ok_bind]
  cases py.readInt true word <;> exact ⟨_, rfl⟩

theorem decodeKind_of_no_word (kinds : List (Int × List Char)) {v : Json}
    (h : hasWord py v = false) : decodeKind py kinds v = .error .indexError := by
  rw [decodeKind, firstWord_of_no_word py h]
  rfl

theorem exists_decodeDepth {v : Json} (h : hasWord py v = true) :
    ∃ depth, decodeDepth py v = .ok depth := by
  obtain ⟨word, hword⟩ := exists_firstWord py h
  rw [decodeDepth, hword, PyError.ok_bind]
  cases py.readInt true word <;> exact ⟨_, rfl⟩

theorem decodeDepth_of_no_word {v : Json} (h : hasWord py v = false) :
    decodeDepth py v = .error .indexError := by
  rw [decodeDepth, firstWord_of_no_word py h]
  rfl

end DdsRtps.Discovery
