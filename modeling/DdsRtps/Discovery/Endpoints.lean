/-
# `DdsRtps.Discovery.Endpoints` — SEDP endpoints of a packet

`extract_sedp_endpoints` goes down the tree of a packet.  At a dict whose text
has the markers of an endpoint it sweeps everything in the dict into one
candidate, where the last value of a field wins; a complete candidate is
recorded, and the search goes no deeper.

So what is recorded are the sweeps of the outermost dicts whose sweep is
complete (`extractSedpEndpoints_eq`), in document order, less those whose GUID
and topic are known.  A sweep is, field by field, the last reading of the field
in the dict (`sweep_eq`).
-/
import DdsRtps.Discovery.Decode
import DdsRtps.Lib.Keyed

namespace DdsRtps.Discovery

variable (py : PyInterp)

/-! ## The candidate -/

/-- The key of a topic, which is also a marker of an endpoint. -/
def topicNameKey : List Char := "rtps.param.topicName".toList

/-- The key of a GUID, and the marker. -/
def endpointGuidKey : List Char := "rtps.param.endpoint_guid".toList

/-- The branch that a key takes in `inspect_cand`. -/
inductive Param where
  | topicName
  | typeName
  | endpointGuid
  | reliability
  | durability
  | ownership
  | historyDepth
  | typeObject
  | other
deriving DecidableEq, Repr

/-- The `elif`s of `inspect_cand`. -/
def paramOf (k : List Char) : Param :=
  if k = topicNameKey then .topicName
  else if k = "rtps.param.typeName".toList then .typeName
  else if k = endpointGuidKey then .endpointGuid
  else if k = "rtps.reliability_kind".toList then .reliability
  else if k = "rtps.durability".toList then .durability
  else if k = "rtps.ownership".toList then .ownership
  else if k = "rtps.history_depth".toList ∨ k = "rtps.param.history.depth".toList then
    .historyDepth
  else if "typeobject".toList <:+: py.lower k ∨ "type_information".toList <:+: py.lower k ∨
      "pid_type_object".toList <:+: py.lower k then
    .typeObject
  else .other

/-- `cand`. -/
@[ext]
structure Cand where
  topicName : Option (List Char)
  typeName : Option (List Char)
  endpointGuid : Option (List Char)
  entityKind : Option (List Char)
  reliability : Option (List Char)
  durability : Option (List Char)
  ownership : Option (List Char)
  historyDepth : Option Int
  hasTypeObject : Bool

/-- `cand = {}`. -/
def Cand.empty : Cand := ⟨none, none, none, none, none, none, none, none, false⟩

/-- The turn of the loop of `inspect_cand` over an item. -/
def inspectField (cand : Cand) (field : List Char × Json) : Except PyError Cand :=
  let v := field.2
  match paramOf py field.1 with
  | .topicName => .ok { cand with topicName := some (v.text py) }
  | .typeName => .ok { cand with typeName := some (v.text py) }
  | .endpointGuid =>
      let guidFull := formatGuid py v
      if 24 ≤ guidFull.length then
        .ok { cand with
          endpointGuid := some guidFull
          entityKind := some (entityKindOf guidFull) }
      else .ok cand
  | .reliability => do
      let kind ← decodeKind py reliabilityKinds v
      return { cand with reliability := some kind }
  | .durability => do
      let kind ← decodeKind py durabilityKinds v
      return { cand with durability := some kind }
  | .ownership => do
      let kind ← decodeKind py ownershipKinds v
      return { cand with ownership := some kind }
  | .historyDepth => do
      match ← decodeDepth py v with
      | some depth => return { cand with historyDepth := some depth }
      | none => return cand
  | .typeObject => .ok { cand with hasTypeObject := true }
  | .other => .ok cand

mutual

/-- `inspect_cand`. -/
def inspectCand : Json → Cand → Except PyError Cand
  | .obj entries, cand => inspectCandEntries entries cand
  | .arr items, cand => inspectCandItems items cand
  | _, cand => .ok cand

def inspectCandEntries : List (List Char × Json) → Cand → Except PyError Cand
  | [], cand => .ok cand
  | (k, v) :: entries, cand => do
      let cand ← inspectField py cand (k, v)
      let cand ← inspectCand v cand
      inspectCandEntries entries cand

def inspectCandItems : List Json → Cand → Except PyError Cand
  | [], cand => .ok cand
  | item :: items, cand => do
      let cand ← inspectCand item cand
      inspectCandItems items cand

end

/-! ## The search -/

/-- An entry of `summary["endpoints"]`. -/
structure Endpoint where
  topicName : List Char
  typeName : List Char
  endpointGuid : List Char
  entityKind : Option (List Char)
  reliability : List Char
  durability : List Char
  ownership : List Char
  historyDepth : Option Int
  hasTypeObject : Bool
  srcIp : Json

/-- No two endpoints have the same GUID and topic. -/
def Endpoint.key (ep : Endpoint) : List Char × List Char := (ep.endpointGuid, ep.topicName)

/-- What becomes of a candidate that has a topic, a type and a GUID. -/
def Cand.endpoint? (srcIp : Json) (cand : Cand) : Option Endpoint :=
  match cand.topicName, cand.typeName, cand.endpointGuid with
  | some topic, some type, some guid =>
      if topic ≠ [] ∧ type ≠ [] ∧ guid ≠ [] then
        some
          { topicName := topic
            typeName := type
            endpointGuid := guid
            entityKind := cand.entityKind
            reliability := cand.reliability.getD "BEST_EFFORT".toList
            durability := cand.durability.getD "VOLATILE".toList
            ownership := cand.ownership.getD "SHARED".toList
            historyDepth := cand.historyDepth
            hasTypeObject := cand.hasTypeObject
            srcIp := srcIp }
      else none
  | _, _, _ => none

/-- The text of a node has the markers of an endpoint. -/
def marked (node : Json) : Bool :=
  topicNameKey <:+: node.dumps ∧
    (endpointGuidKey <:+: node.dumps ∨ "PID_ENDPOINT_GUID".toList <:+: node.dumps)

variable (srcIp : Json)

mutual

/-- `extract_sedp_endpoints`. -/
def extractSedpEndpoints : Json → List Endpoint → Except PyError (List Endpoint)
  | .obj entries, endpoints =>
      if marked (.obj entries) then do
        let cand ← inspectCand py (.obj entries) Cand.empty
        match cand.endpoint? srcIp with
        | some ep => return Keyed.add Endpoint.key endpoints ep
        | none => extractSedpEntries entries endpoints
      else extractSedpEntries entries endpoints
  | .arr items, endpoints => extractSedpItems items endpoints
  | _, endpoints => .ok endpoints

def extractSedpEntries : List (List Char × Json) → List Endpoint → Except PyError (List Endpoint)
  | [], endpoints => .ok endpoints
  | (_, v) :: entries, endpoints => do
      let endpoints ← extractSedpEndpoints v endpoints
      extractSedpEntries entries endpoints

def extractSedpItems : List Json → List Endpoint → Except PyError (List Endpoint)
  | [], endpoints => .ok endpoints
  | item :: items, endpoints => do
      let endpoints ← extractSedpEndpoints item endpoints
      extractSedpItems items endpoints

end

/-! ## The readings of a field -/

variable (field : List Char × Json)

def topicNameOf : Option (List Char) :=
  match paramOf py field.1 with
  | .topicName => some (field.2.text py)
  | _ => none

def typeNameOf : Option (List Char) :=
  match paramOf py field.1 with
  | .typeName => some (field.2.text py)
  | _ => none

/-- A GUID of at least 24 digits. -/
def endpointGuidOf : Option (List Char) :=
  match paramOf py field.1 with
  | .endpointGuid =>
      if 24 ≤ (formatGuid py field.2).length then some (formatGuid py field.2) else none
  | _ => none

def reliabilityOf : Option (List Char) :=
  match paramOf py field.1 with
  | .reliability => (decodeKind py reliabilityKinds field.2).toOption
  | _ => none

def durabilityOf : Option (List Char) :=
  match paramOf py field.1 with
  | .durability => (decodeKind py durabilityKinds field.2).toOption
  | _ => none

def ownershipOf : Option (List Char) :=
  match paramOf py field.1 with
  | .ownership => (decodeKind py ownershipKinds field.2).toOption
  | _ => none

def historyDepthOf : Option Int :=
  match paramOf py field.1 with
  | .historyDepth => (decodeDepth py field.2).toOption.join
  | _ => none

/-- The value of a field is read word by word, and has none. -/
def blank : Bool :=
  match paramOf py field.1 with
  | .reliability | .durability | .ownership | .historyDepth => !hasWord py field.2
  | _ => false

/-! ## A sweep is the last readings -/

/-- The candidate after a field that is not blank. -/
def sweepField (cand : Cand) (field : List Char × Json) : Cand where
  topicName := topicNameOf py field <|> cand.topicName
  typeName := typeNameOf py field <|> cand.typeName
  endpointGuid := endpointGuidOf py field <|> cand.endpointGuid
  entityKind := (endpointGuidOf py field).map entityKindOf <|> cand.entityKind
  reliability := reliabilityOf py field <|> cand.reliability
  durability := durabilityOf py field <|> cand.durability
  ownership := ownershipOf py field <|> cand.ownership
  historyDepth := historyDepthOf py field <|> cand.historyDepth
  hasTypeObject := paramOf py field.1 == .typeObject || cand.hasTypeObject

theorem inspectField_eq {cand : Cand} {field : List Char × Json} (h : blank py field = false) :
    inspectField py cand field = .ok (sweepField py cand field) := by
  unfold blank at h
  unfold inspectField sweepField topicNameOf typeNameOf endpointGuidOf reliabilityOf durabilityOf
    ownershipOf historyDepthOf
  cases hparam : paramOf py field.1 with
  | topicName | typeName | typeObject | other => rfl
  | endpointGuid =>
      simp only
      split <;> rfl
  | reliability =>
      have hword : hasWord py field.2 = true := by simpa [hparam] using h
      obtain ⟨kind, heq⟩ := exists_decodeKind py reliabilityKinds hword
      simp only [heq]
      rfl
  | durability =>
      have hword : hasWord py field.2 = true := by simpa [hparam] using h
      obtain ⟨kind, heq⟩ := exists_decodeKind py durabilityKinds hword
      simp only [heq]
      rfl
  | ownership =>
      have hword : hasWord py field.2 = true := by simpa [hparam] using h
      obtain ⟨kind, heq⟩ := exists_decodeKind py ownershipKinds hword
      simp only [heq]
      rfl
  | historyDepth =>
      have hword : hasWord py field.2 = true := by simpa [hparam] using h
      obtain ⟨depth, heq⟩ := exists_decodeDepth py hword
      simp only [heq]
      cases depth <;> rfl

theorem inspectField_blank {cand : Cand} {field : List Char × Json} (h : blank py field = true) :
    inspectField py cand field = .error .indexError := by
  unfold blank at h
  unfold inspectField
  cases hparam : paramOf py field.1 with
  | topicName | typeName | endpointGuid | typeObject | other =>
      rw [hparam] at h
      cases h
  | reliability | durability | ownership =>
      have hword : hasWord py field.2 = false := by simpa [hparam] using h
      simp only [decodeKind_of_no_word py _ hword]
      rfl
  | historyDepth =>
      have hword : hasWord py field.2 = false := by simpa [hparam] using h
      simp only [decodeDepth_of_no_word py hword]
      rfl

/-- The recursion meets the fields in document order. -/
theorem inspectCand_eq_foldlM (j : Json) (cand : Cand) :
    inspectCand py j cand = j.fieldsOf.foldlM (inspectField py) cand := by
  induction j using Json.induct generalizing cand with
  | null | bool | int | float | str => rfl
  | arr items ih =>
      rw [inspectCand, Json.fieldsOf]
      induction items generalizing cand with
      | nil => rfl
      | cons v items ihs =>
          rw [List.forall_mem_cons] at ih
          rw [inspectCandItems, Json.fieldsOfItems, PyError.foldlM_append, ih.1]
          exact bind_congr fun cand => ihs ih.2 cand
  | obj entries ih =>
      rw [inspectCand, Json.fieldsOf]
      induction entries generalizing cand with
      | nil => rfl
      | cons e entries ihs =>
          rw [List.forall_mem_cons] at ih
          rw [inspectCandEntries, Json.fieldsOfEntries, PyError.foldlM_cons]
          refine bind_congr fun cand => ?_
          rw [PyError.foldlM_append, ih.1]
          exact bind_congr fun cand => ihs ih.2 cand

/-- What `inspect_cand` leaves in `cand`. -/
def sweep (j : Json) : Cand := j.fieldsOf.foldl (sweepField py) Cand.empty

theorem inspectCand_eq {j : Json} (h : j.fieldsOf.any (blank py) = false) :
    inspectCand py j Cand.empty = .ok (sweep py j) := by
  rw [inspectCand_eq_foldlM, sweep]
  refine PyError.foldlM_eq_foldl (fun cand field hfield => inspectField_eq py ?_) _
  simpa using List.any_eq_false.mp h field hfield

theorem inspectCand_blank {j : Json} (h : j.fieldsOf.any (blank py) = true) :
    inspectCand py j Cand.empty = .error .indexError := by
  rw [inspectCand_eq_foldlM]
  exact PyError.foldlM_eq_error h (fun cand field _ => inspectField_blank py)
    (fun cand field _ hfield => ⟨_, inspectField_eq py hfield⟩) _

/-- The values that the fields of a tree give, in document order. -/
def readings {α : Type} (f : List Char × Json → Option α) (j : Json) : List α :=
  j.fieldsOf.filterMap f

theorem foldl_orElse {α β : Type} (f : α → Option β) (l : List α) (b : Option β) :
    l.foldl (fun b a => f a <|> b) b = ((l.filterMap f).getLast? <|> b) := by
  induction l generalizing b with
  | nil => rfl
  | cons a l ih =>
      rw [List.foldl_cons, ih]
      cases hf : f a with
      | none => simp [hf]
      | some c =>
          rw [List.filterMap_cons_some hf, List.getLast?_cons]
          cases (l.filterMap f).getLast? <;> rfl

variable {py}

/-- A field of the candidate that only its own readings set. -/
theorem sweep_field {α : Type} (get : Cand → Option α) (f : List Char × Json → Option α)
    (hstep : ∀ cand field, get (sweepField py cand field) = (f field <|> get cand))
    (hempty : get Cand.empty = none) (j : Json) :
    get (sweep py j) = (readings f j).getLast? := by
  have hfold : j.fieldsOf.foldl (fun b field => f field <|> b) (get Cand.empty) =
      get (sweep py j) :=
    List.foldl_hom get fun cand field => (hstep cand field).symm
  rw [← hfold, foldl_orElse, hempty, readings]
  cases (j.fieldsOf.filterMap f).getLast? <;> rfl

variable (py)

theorem sweep_eq (j : Json) :
    sweep py j =
      { topicName := (readings (topicNameOf py) j).getLast?
        typeName := (readings (typeNameOf py) j).getLast?
        endpointGuid := (readings (endpointGuidOf py) j).getLast?
        entityKind := (readings (endpointGuidOf py) j).getLast?.map entityKindOf
        reliability := (readings (reliabilityOf py) j).getLast?
        durability := (readings (durabilityOf py) j).getLast?
        ownership := (readings (ownershipOf py) j).getLast?
        historyDepth := (readings (historyDepthOf py) j).getLast?
        hasTypeObject := (sweep py j).hasTypeObject } := by
  have hkind : (sweep py j).entityKind =
      (readings (endpointGuidOf py) j).getLast?.map entityKindOf := by
    rw [sweep_field Cand.entityKind (fun field => (endpointGuidOf py field).map entityKindOf)
      (fun _ _ => rfl) rfl, readings, readings, ← List.getLast?_map, List.map_filterMap]
  exact Cand.ext
    (sweep_field Cand.topicName _ (fun _ _ => rfl) rfl j)
    (sweep_field Cand.typeName _ (fun _ _ => rfl) rfl j)
    (sweep_field Cand.endpointGuid _ (fun _ _ => rfl) rfl j)
    hkind
    (sweep_field Cand.reliability _ (fun _ _ => rfl) rfl j)
    (sweep_field Cand.durability _ (fun _ _ => rfl) rfl j)
    (sweep_field Cand.ownership _ (fun _ _ => rfl) rfl j)
    (sweep_field Cand.historyDepth _ (fun _ _ => rfl) rfl j)
    rfl

/-! ## What is recorded -/

/-- The candidate has a topic, a type and a GUID. -/
def Cand.isComplete (cand : Cand) : Bool :=
  cand.topicName.any (· ≠ []) && cand.typeName.any (· ≠ []) && cand.endpointGuid.any (· ≠ [])

theorem Cand.isSome_endpoint? (srcIp : Json) (cand : Cand) :
    (cand.endpoint? srcIp).isSome = cand.isComplete := by
  unfold Cand.endpoint? Cand.isComplete
  cases cand.topicName with
  | none => rfl
  | some topic =>
      cases cand.typeName with
      | none => simp
      | some type =>
          cases cand.endpointGuid with
          | none => simp
          | some guid =>
              simp only [Option.any_some]
              split
              · rename_i h
                simp [h]
              · rename_i h
                simpa using h

/-- The sweep of a dict is complete. -/
def complete (node : Json) : Bool := (sweep py node).isComplete

/-- The endpoint that the sweep of a dict gives. -/
def endpointOf (srcIp : Json) (node : Json) : Option Endpoint :=
  (sweep py node).endpoint? srcIp

/-- The endpoints that a tree offers. -/
def offered (srcIp : Json) (j : Json) : List Endpoint :=
  (j.outermost (complete py)).filterMap (endpointOf py srcIp)

theorem exists_field_of_reading {α : Type} {f : List Char × Json → Option α} {j : Json}
    (h : (readings f j).getLast?.isSome = true) : ∃ field ∈ j.fieldsOf, (f field).isSome = true := by
  obtain ⟨a, ha⟩ := Option.isSome_iff_exists.mp h
  obtain ⟨field, hfield, hf⟩ := List.mem_filterMap.mp (List.mem_of_getLast? ha)
  exact ⟨field, hfield, Option.isSome_iff_exists.mpr ⟨a, hf⟩⟩

theorem key_of_topicName {k : List Char} (h : paramOf py k = .topicName) : k = topicNameKey := by
  unfold paramOf at h
  split_ifs at h
  assumption

theorem key_of_endpointGuid {k : List Char} (h : paramOf py k = .endpointGuid) :
    k = endpointGuidKey := by
  unfold paramOf at h
  split_ifs at h
  assumption

theorem escape_topicNameKey : topicNameKey.flatMap Json.escapeChar = topicNameKey := by
  decide +kernel

theorem escape_endpointGuidKey : endpointGuidKey.flatMap Json.escapeChar = endpointGuidKey := by
  decide +kernel

/-- A complete sweep has read a topic and a GUID, so the text has the markers. -/
theorem marked_of_complete {node : Json} (h : complete py node = true) : marked node = true := by
  have htopic : (readings (topicNameOf py) node).getLast?.isSome = true := by
    rw [complete, sweep_eq, Cand.isComplete, Bool.and_assoc, Bool.and_eq_true] at h
    exact Option.isSome_of_any h.1
  have hguid : (readings (endpointGuidOf py) node).getLast?.isSome = true := by
    rw [complete, sweep_eq, Cand.isComplete, Bool.and_eq_true] at h
    exact Option.isSome_of_any h.2
  obtain ⟨field, hfield, hsome⟩ := exists_field_of_reading htopic
  obtain ⟨field', hfield', hsome'⟩ := exists_field_of_reading hguid
  have hkey : field.1 = topicNameKey := by
    refine key_of_topicName py ?_
    unfold topicNameOf at hsome
    split at hsome
    · assumption
    · cases hsome
  have hkey' : field'.1 = endpointGuidKey := by
    refine key_of_endpointGuid py ?_
    unfold endpointGuidOf at hsome'
    split at hsome'
    · assumption
    · cases hsome'
  unfold marked
  rw [decide_eq_true_eq]
  exact ⟨Json.key_infix_dumps escape_topicNameKey field hfield hkey,
    .inl (Json.key_infix_dumps escape_endpointGuidKey field' hfield' hkey')⟩

/-- The text of a part is in the text of the whole. -/
theorem marked_of_part {part whole : Json} (hin : part.dumps <:+: whole.dumps)
    (h : marked part = true) : marked whole = true := by
  unfold marked at h ⊢
  rw [decide_eq_true_eq] at h ⊢
  exact ⟨h.1.trans hin, h.2.imp (·.trans hin) (·.trans hin)⟩

variable (srcIp : Json)

theorem offered_arr (items : List Json) :
    offered py srcIp (.arr items) = items.flatMap (offered py srcIp) := by
  rw [offered, Json.outermost, Json.outermostItems_eq, List.filterMap_flatMap]
  rfl

theorem offered_obj_of_complete {entries : List (List Char × Json)} {ep : Endpoint}
    (h : endpointOf py srcIp (.obj entries) = some ep) :
    offered py srcIp (.obj entries) = [ep] := by
  have hcomplete : complete py (.obj entries) = true := by
    rw [complete, ← Cand.isSome_endpoint? srcIp, ← endpointOf, h]
    rfl
  rw [offered, Json.outermost, if_pos hcomplete, List.filterMap_cons_some h, List.filterMap_nil]

theorem offered_obj {entries : List (List Char × Json)}
    (h : endpointOf py srcIp (.obj entries) = none) :
    offered py srcIp (.obj entries) = entries.flatMap fun e => offered py srcIp e.2 := by
  have hcomplete : ¬complete py (.obj entries) = true := by
    rw [complete, ← Cand.isSome_endpoint? srcIp, ← endpointOf, h]
    exact Bool.false_ne_true
  rw [offered, Json.outermost, if_neg hcomplete, Json.outermostEntries_eq,
    List.filterMap_flatMap]
  rfl

theorem addAll_append (endpoints a b : List Endpoint) :
    Keyed.addAll Endpoint.key endpoints (a ++ b) =
      Keyed.addAll Endpoint.key (Keyed.addAll Endpoint.key endpoints a) b := by
  rw [Keyed.addAll, List.foldl_append]
  rfl

theorem extractSedpItems_eq {items : List Json}
    (h : ∀ v ∈ items, ∀ endpoints, extractSedpEndpoints py srcIp v endpoints =
      .ok (Keyed.addAll Endpoint.key endpoints (offered py srcIp v)))
    (endpoints : List Endpoint) :
    extractSedpItems py srcIp items endpoints =
      .ok (Keyed.addAll Endpoint.key endpoints (items.flatMap (offered py srcIp))) := by
  induction items generalizing endpoints with
  | nil => rfl
  | cons v items ih =>
      rw [List.forall_mem_cons] at h
      rw [extractSedpItems, h.1, PyError.ok_bind, ih h.2, List.flatMap_cons, addAll_append]

theorem extractSedpEntries_eq {entries : List (List Char × Json)}
    (h : ∀ e ∈ entries, ∀ endpoints, extractSedpEndpoints py srcIp e.2 endpoints =
      .ok (Keyed.addAll Endpoint.key endpoints (offered py srcIp e.2)))
    (endpoints : List Endpoint) :
    extractSedpEntries py srcIp entries endpoints =
      .ok (Keyed.addAll Endpoint.key endpoints
        (entries.flatMap fun e => offered py srcIp e.2)) := by
  induction entries generalizing endpoints with
  | nil => rfl
  | cons e entries ih =>
      rw [List.forall_mem_cons] at h
      rw [extractSedpEntries, h.1, PyError.ok_bind, ih h.2, List.flatMap_cons, addAll_append]

/-- No value that the search sweeps raises. -/
def Worded (j : Json) : Prop := marked j = true → j.fieldsOf.any (blank py) = false

theorem Worded.item {items : List Json} (h : Worded py (.arr items)) {v : Json} (hv : v ∈ items) :
    Worded py v := by
  intro hmarked
  have hwhole := h (marked_of_part (Json.dumps_infix_arr hv) hmarked)
  rw [Json.fieldsOf, Json.fieldsOfItems_eq, List.any_flatMap, List.any_eq_false] at hwhole
  simpa using hwhole v hv

theorem Worded.entry {entries : List (List Char × Json)} (h : Worded py (.obj entries))
    {e : List Char × Json} (he : e ∈ entries) : Worded py e.2 := by
  intro hmarked
  have hwhole := h (marked_of_part (Json.dumps_infix_obj he) hmarked)
  rw [Json.fieldsOf, Json.fieldsOfEntries_eq, List.any_flatMap, List.any_eq_false] at hwhole
  have hentry := hwhole e he
  rw [List.any_cons, Bool.or_eq_true, not_or] at hentry
  simpa using hentry.2

/-- The search records what the tree offers, unless it is known. -/
theorem extractSedpEndpoints_eq (j : Json) (h : Worded py j) (endpoints : List Endpoint) :
    extractSedpEndpoints py srcIp j endpoints =
      .ok (Keyed.addAll Endpoint.key endpoints (offered py srcIp j)) := by
  induction j using Json.induct generalizing endpoints with
  | null | bool | int | float | str => rfl
  | arr items ih =>
      rw [extractSedpEndpoints, offered_arr]
      exact extractSedpItems_eq py srcIp (fun v hv => ih v hv (h.item py hv)) endpoints
  | obj entries ih =>
      have hentries := extractSedpEntries_eq py srcIp
        (fun e he => ih e he (h.entry py he)) endpoints
      rw [extractSedpEndpoints]
      split
      · rename_i hmarked
        rw [inspectCand_eq py (h hmarked), PyError.ok_bind]
        cases hep : endpointOf py srcIp (.obj entries) with
        | some ep =>
            rw [offered_obj_of_complete py srcIp hep]
            rw [endpointOf] at hep
            rw [hep]
            rfl
        | none =>
            rw [offered_obj py srcIp hep]
            rw [endpointOf] at hep
            rw [hep]
            exact hentries
      · rename_i hmarked
        have hnone : endpointOf py srcIp (.obj entries) = none := by
          by_contra hsome
          rw [← ne_eq, Option.ne_none_iff_isSome, endpointOf, Cand.isSome_endpoint?] at hsome
          exact hmarked (marked_of_complete py hsome)
        rw [offered_obj py srcIp hnone]
        exact hentries

/-- A marked dict with a blank value raises. -/
theorem extractSedpEndpoints_blank {entries : List (List Char × Json)}
    (h : ¬Worded py (.obj entries)) (endpoints : List Endpoint) :
    extractSedpEndpoints py srcIp (.obj entries) endpoints = .error .indexError := by
  rw [Worded, Classical.not_imp, Bool.not_eq_false] at h
  rw [extractSedpEndpoints, if_pos h.1, inspectCand_blank py h.2]
  rfl

end DdsRtps.Discovery
