/-
# `DdsRtps.Discovery.JunitReport` — the verdicts on what was discovered

Two of the test cases that `generate_junit_report` makes of a summary: the
builtin endpoints of the participants, and the QoS of the endpoints.

The second compares every writer with every reader.  Endpoints on different
topics never match, so it is exact only where a clash over topics does not
stand alone (`qosTestCase_exact_iff`).
-/
import DdsRtps.Discovery.Packets

namespace DdsRtps.Discovery

/-- A test case, with the message of its failure. -/
structure TestCase where
  name : List Char
  systemOut : List Char
  failure : Option (List Char)
deriving DecidableEq

/-- A test case that fails if there are issues. -/
def TestCase.ofIssues (name : List Char) (lines issues : List (List Char)) : TestCase where
  name := name
  systemOut := List.intercalate ['\n'] lines
  failure := if issues = [] then none else some (List.intercalate "; ".toList issues)

theorem TestCase.isSome_failure (name : List Char) (lines issues : List (List Char)) :
    (TestCase.ofIssues name lines issues).failure.isSome = true ↔ issues ≠ [] := by
  rw [ofIssues]
  split
  · rename_i h
    simp [h]
  · rename_i h
    simp [h]

/-! ## The builtin endpoints -/

/-- The lines on a participant. -/
def builtinLine (guid : List Char) (part : Participant) : List Char :=
  "Participant ".toList ++ guid.take 12 ++ " Built-in Mask: ".toList ++ part.builtinEndpointsMask ++
    "\n  Flags: ".toList ++
    (if part.builtinEndpointsFlags = [] then "None or Default".toList
    else List.intercalate ", ".toList part.builtinEndpointsFlags)

/-- The mask without a bit. -/
def emptyMask : List Char := "0x00000000".toList

/-- `Test_SPDP_Builtin_Endpoints`. -/
def builtinTestCase (participants : PyDict (List Char) Participant) : TestCase :=
  TestCase.ofIssues "Test_SPDP_Builtin_Endpoints".toList
    (participants.items.map fun item => builtinLine item.1 item.2)
    (participants.items.filterMap fun item =>
      if item.2.builtinEndpointsMask = emptyMask then
        some ("Participant ".toList ++ item.1 ++ " reported empty builtin endpoint set".toList)
      else none)

theorem builtinTestCase_failed_iff (participants : PyDict (List Char) Participant) :
    (builtinTestCase participants).failure.isSome = true ↔
      ∃ guid part, participants.get? guid = some part ∧ part.builtinEndpointsMask = emptyMask := by
  rw [builtinTestCase, TestCase.isSome_failure, ne_eq, List.filterMap_eq_nil_iff]
  constructor
  · intro h
    by_contra hnone
    refine h fun item hitem => if_neg fun hmask => hnone ?_
    exact ⟨item.1, item.2, PyDict.mem_items_iff.mp hitem, hmask⟩
  · intro ⟨guid, part, hget, hmask⟩ hall
    have hitem := hall (guid, part) (PyDict.mem_items_iff.mpr hget)
    rw [if_pos hmask] at hitem
    cases hitem

/-! ## The QoS of the endpoints -/

variable (py : PyInterp)

/-- `entity_kind`, lower case. -/
def kindLower (ep : Endpoint) : List Char := py.lower (ep.entityKind.getD "Endpoint".toList)

def isWriter (ep : Endpoint) : Bool := "writer".toList <:+: kindLower py ep

def isReader (ep : Endpoint) : Bool := !isWriter py ep && "reader".toList <:+: kindLower py ep

/-- `dur_order`. -/
def durOrder : List (List Char × Nat) :=
  [("VOLATILE".toList, 0), ("TRANSIENT_LOCAL".toList, 1), ("TRANSIENT".toList, 2),
   ("PERSISTENT".toList, 3)]

/-- The level of a durability; one that is not in the order counts as volatile. -/
def durLevel (durability : List Char) : Nat := (durOrder.lookup durability).getD 0

/-- The lines on a writer and a reader. -/
def pairingLine (w r : Endpoint) : List Char :=
  "Pairing Writer (".toList ++ w.endpointGuid ++ ") [".toList ++ w.reliability ++ ", ".toList ++
    w.durability ++ "] vs ".toList ++ "Reader (".toList ++ r.endpointGuid ++ ") [".toList ++
    r.reliability ++ ", ".toList ++ r.durability ++ "]".toList

/-- The writer is best effort where the reader asks for more. -/
def reliabilityClash (w r : Endpoint) : Prop :=
  w.reliability = "BEST_EFFORT".toList ∧ r.reliability = "RELIABLE".toList

instance (w r : Endpoint) : Decidable (reliabilityClash w r) := by
  unfold reliabilityClash
  infer_instance

/-- What is wrong with a writer and a reader. -/
def qosErrors (w r : Endpoint) : List (List Char) :=
  (if reliabilityClash w r then
    ["Incompatible Reliability: Writer is BEST_EFFORT but Reader requested RELIABLE".toList]
  else []) ++
  if durLevel w.durability < durLevel r.durability then
    ["Incompatible Durability: Writer offered ".toList ++ w.durability ++
      " but Reader requested ".toList ++ r.durability]
  else []

/-- All writers with all readers. -/
def pairings (endpoints : List Endpoint) : List (Endpoint × Endpoint) :=
  (endpoints.filter (isWriter py)).flatMap fun w =>
    (endpoints.filter (isReader py)).map fun r => (w, r)

/-- `Test_SEDP_QoS_Compatibility`. -/
def qosTestCase (endpoints : List Endpoint) : TestCase :=
  TestCase.ofIssues "Test_SEDP_QoS_Compatibility".toList
    ("Evaluating QoS profiles between DataWriter and DataReader:".toList ::
      if pairings py endpoints = [] then
        ["Single-sided endpoint or no paired endpoints detected in capture window.".toList]
      else (pairings py endpoints).map fun p => pairingLine p.1 p.2)
    ((pairings py endpoints).flatMap fun p => qosErrors p.1 p.2)

/-- The offer falls short of the request, where an unknown durability counts as
volatile. -/
def Clash (w r : Endpoint) : Prop :=
  reliabilityClash w r ∨ durLevel w.durability < durLevel r.durability

theorem qosErrors_ne_nil_iff (w r : Endpoint) : qosErrors w r ≠ [] ↔ Clash w r := by
  unfold qosErrors Clash
  split <;> split <;> simp_all

theorem qosTestCase_failed_iff (endpoints : List Endpoint) :
    (qosTestCase py endpoints).failure.isSome = true ↔
      ∃ w ∈ endpoints, ∃ r ∈ endpoints, isWriter py w = true ∧ isReader py r = true ∧ Clash w r := by
  rw [qosTestCase, TestCase.isSome_failure, ne_eq, List.flatMap_eq_nil_iff]
  constructor
  · intro h
    by_contra hnone
    refine h fun p hp => ?_
    obtain ⟨w, hw, hpair⟩ := List.mem_flatMap.mp hp
    obtain ⟨r, hr, rfl⟩ := List.mem_map.mp hpair
    rw [List.mem_filter] at hw hr
    by_contra hne
    exact hnone ⟨w, hw.1, r, hr.1, hw.2, hr.2, (qosErrors_ne_nil_iff w r).mp hne⟩
  · intro ⟨w, hw, r, hr, hwriter, hreader, hclash⟩ hall
    have hpair : (w, r) ∈ pairings py endpoints :=
      List.mem_flatMap.mpr ⟨w, List.mem_filter.mpr ⟨hw, hwriter⟩,
        List.mem_map_of_mem (List.mem_filter.mpr ⟨hr, hreader⟩)⟩
    exact (qosErrors_ne_nil_iff w r).mpr hclash (hall (w, r) hpair)

/-! ## Pairs that can match -/

/-- A durability is weaker than another, in the order of the two. -/
def WeakerDurability (offered requested : List Char) : Prop :=
  ∃ i j, durOrder.lookup offered = some i ∧ durOrder.lookup requested = some j ∧ i < j

/-- On one topic the writer offers less than the reader requests. -/
def Mismatch (w r : Endpoint) : Prop :=
  w.topicName = r.topicName ∧ (reliabilityClash w r ∨ WeakerDurability w.durability r.durability)

/-- A writer and a reader that fall short of each other. -/
def HasMismatch (endpoints : List Endpoint) : Prop :=
  ∃ w ∈ endpoints, ∃ r ∈ endpoints, isWriter py w = true ∧ isReader py r = true ∧ Mismatch w r

theorem Mismatch.clash {w r : Endpoint} (h : Mismatch w r) : Clash w r := by
  refine h.2.imp_right ?_
  intro ⟨i, j, hi, hj, hlt⟩
  rw [durLevel, durLevel, hi, hj]
  exact hlt

/-- The verdict is exact, exactly if there is a mismatch on a topic, or no writer
clashes with any reader. -/
theorem qosTestCase_exact_iff (endpoints : List Endpoint) :
    ((qosTestCase py endpoints).failure.isSome = true ↔ HasMismatch py endpoints) ↔
      HasMismatch py endpoints ∨
        ∀ w ∈ endpoints, ∀ r ∈ endpoints, isWriter py w = true → isReader py r = true →
          ¬Clash w r := by
  rw [qosTestCase_failed_iff]
  constructor
  · intro h
    by_cases hmismatch : HasMismatch py endpoints
    · exact .inl hmismatch
    · refine .inr fun w hw r hr hwriter hreader hclash => hmismatch (h.mp ?_)
      exact ⟨w, hw, r, hr, hwriter, hreader, hclash⟩
  · intro h
    constructor
    · intro ⟨w, hw, r, hr, hwriter, hreader, hclash⟩
      exact h.resolve_right fun hnone => hnone w hw r hr hwriter hreader hclash
    · intro ⟨w, hw, r, hr, hwriter, hreader, hmismatch⟩
      exact ⟨w, hw, r, hr, hwriter, hreader, hmismatch.clash⟩

/-- An endpoint of a shape. -/
def shapeEndpoint (topic kind guid reliability : String) : Endpoint where
  topicName := topic.toList
  typeName := "ShapeType".toList
  endpointGuid := guid.toList
  entityKind := some kind.toList
  reliability := reliability.toList
  durability := "VOLATILE".toList
  ownership := "SHARED".toList
  historyDepth := none
  hasTypeObject := false
  srcIp := .str "10.0.0.1".toList

def squareWriter : Endpoint :=
  shapeEndpoint "Square" "DataWriter" "010f45d27c3a00000100000000000102" "BEST_EFFORT"

def circleReader : Endpoint :=
  shapeEndpoint "Circle" "DataReader" "010f45d27c3a00000200000000000107" "RELIABLE"

/-- A best-effort writer of squares fails the test because of a reliable reader of
circles. -/
theorem squareWriter_circleReader_fails :
    let endpoints := [squareWriter, circleReader]
    ¬((qosTestCase .ascii endpoints).failure.isSome = true ↔ HasMismatch .ascii endpoints) := by
  intro endpoints h
  have hfailed : (qosTestCase .ascii endpoints).failure.isSome = true := by decide +kernel
  obtain ⟨w, hw, r, hr, hwriter, hreader, htopic, -⟩ := h.mp hfailed
  have hw' : w = squareWriter := by
    rcases List.mem_pair.mp hw with rfl | rfl
    · rfl
    · exact absurd hwriter (by decide +kernel)
  have hr' : r = circleReader := by
    rcases List.mem_pair.mp hr with rfl | rfl
    · exact absurd hreader (by decide +kernel)
    · rfl
  rw [hw', hr'] at htopic
  exact absurd htopic (by decide +kernel)

end DdsRtps.Discovery
