/-
# `DdsRtps.Discovery.History` — the JSON file of the sniffer

`run_discovery_sniffer` of src/discovery/rtps_discovery_sniffer.py, as far as its
JSON file goes.  The first run writes its summary as it is.  A second run finds
a dict without `runs`, takes it for the summary of one run, and reads the key of
that run off its metadata; later runs add to `runs`.  What cannot be merged is
written over.

The file is opened for writing before `json.dump` goes through the value, and
`json.dump` raises at an integer of more than 4300 decimal digits; a port or a
history depth that was captured in hexadecimal digits can be one.  The text then
breaks off, the next run cannot load it, and starts over.

`Holds` says what the file is after given runs, in both shapes, and a run whose
summary can be written takes it from one to the next (`holds_afterRun`).  After
a run whose summary cannot, it holds nothing.

A file is what `json.load` makes of it, and `json.load` gives back what
`json.dump` wrote to its end.  The order of the fields in an endpoint is not
kept; two dicts do not differ in it.
-/
import DdsRtps.Discovery.Packets

namespace DdsRtps.Discovery

/-! ## The code -/

/-- A port as it is written. -/
def Port.toJson : Port → Json
  | .number n => .int n
  | .text t => .str t

def Locator.toJson (l : Locator) : Json :=
  .obj [("type".toList, .str l.kind), ("ip".toList, .str l.ip), ("port".toList, l.port.toJson)]

def Participant.toJson (p : Participant) : Json :=
  .obj [("guid_prefix".toList, .str p.guidPrefix), ("src_ip".toList, p.srcIp),
    ("vendor_id".toList, .str p.vendorId), ("vendor_name".toList, .str p.vendorName),
    ("protocol_version".toList, .str p.protocolVersion),
    ("lease_duration_sec".toList, .float p.leaseDurationSec),
    ("builtin_endpoints_mask".toList, .str p.builtinEndpointsMask),
    ("builtin_endpoints_flags".toList, .arr (p.builtinEndpointsFlags.map .str)),
    ("locators".toList, .arr (p.locators.map Locator.toJson))]

def Endpoint.toJson (ep : Endpoint) : Json :=
  .obj ([("topic_name".toList, .str ep.topicName), ("type_name".toList, .str ep.typeName),
      ("endpoint_guid".toList, .str ep.endpointGuid)] ++
    (ep.entityKind.map fun kind => ("entity_kind".toList, .str kind)).toList ++
    [("reliability".toList, .str ep.reliability), ("durability".toList, .str ep.durability),
      ("ownership".toList, .str ep.ownership)] ++
    (ep.historyDepth.map fun depth => ("history_depth".toList, .int depth)).toList ++
    (if ep.hasTypeObject then [("has_type_object".toList, .bool true)] else []) ++
    [("src_ip".toList, ep.srcIp)])

/-- A run of the sniffer: its arguments, `args.timestamp or get_current_timestamp()`, the time
of the analysis, and the packets that were dissected. -/
structure Run where
  publisher : Option (List Char)
  subscriber : Option (List Char)
  interface : List Char
  timestamp : List Char
  analyzedAt : List Char
  rawPackets : List Json

/-- An argument that is given, and not empty. -/
def given (arg : Option (List Char)) : Option (List Char) := arg.filter (· ≠ [])

namespace Run

variable (run : Run)

/-- `summary["metadata"]`, once the run has added to it. -/
def metadata (totalRtpsPackets : Nat) : Json :=
  .obj ([("total_rtps_packets".toList, .int totalRtpsPackets),
      ("analyzed_at".toList, .str run.analyzedAt), ("interface".toList, .str run.interface),
      ("timestamp".toList, .str run.timestamp)] ++
    ((given run.publisher).map fun p => ("publisher".toList, .str p)).toList ++
    ((given run.subscriber).map fun s => ("subscriber".toList, .str s)).toList)

/-- `summary`. -/
def summaryJson (summary : Summary) : Json :=
  .obj [("metadata".toList, run.metadata summary.totalRtpsPackets),
    ("participants".toList,
      .obj (summary.participants.items.map fun (guid, p) => (guid, p.toJson))),
    ("endpoints".toList, .arr (summary.endpoints.map Endpoint.toJson))]

/-- `f"{pub}---{sub}"`. -/
def pairOf (pub sub : List Char) : List Char := pub ++ "---".toList ++ sub

/-- `pair_key`. -/
def pairKey : List Char :=
  match given run.publisher, given run.subscriber with
  | some pub, some sub => pairOf pub sub
  | _, _ => "run_".toList ++ run.timestamp

end Run

/-- The file of the summaries: absent, or what `json.load` makes of its content. -/
abbrev JsonFile := Option (Except PyError Json)

variable (py : PyInterp)

/-- `first_key`, read off what is taken for the summary of the first run. -/
def firstKey (existing : Json) : Except PyError (List Char) := do
  let firstPub ← (← existing.get "metadata".toList (.obj [])).get "publisher".toList (.str [])
  let firstSub ← (← existing.get "metadata".toList (.obj [])).get "subscriber".toList (.str [])
  return if firstPub.truthy && firstSub.truthy then Run.pairOf (firstPub.text py) (firstSub.text py)
    else "run_1".toList

/-- What `existing` becomes in the `try` block. -/
def merge (run : Run) (summary existing : Json) : Except PyError Json :=
  match existing with
  | .obj entries =>
      match entries.lookup "runs".toList with
      | some runs => do
          let runs ← runs.setItem run.pairKey summary
          return .obj (Json.setEntry entries "runs".toList runs)
      | none => do
          let first ← firstKey py existing
          return .obj
            [("metadata".toList, .obj [("timestamp".toList, .str run.timestamp)]),
              ("runs".toList, .obj (Json.setEntry [(first, existing)] run.pairKey summary))]
  -- neither branch: what is written stays the summary
  | _ => .ok summary

/-- `to_write`. -/
def toWrite (run : Run) (summary : Json) (file : JsonFile) : Json :=
  match file with
  | none => summary
  | some content =>
      match content >>= merge py run summary with
      | .ok written => written
      | .error _ => summary

/-- `json.dump` into the opened file: the file behind it, and what is raised.  A text that breaks
off in the dict it began with is none that `json.load` takes. -/
def dump (v : Json) : JsonFile × Except PyError Unit :=
  if v.dumpable then (some (.ok v), .ok ()) else (some (.error .valueError), .error .valueError)

/-- `run_discovery_sniffer`, up to its report: the file behind the run, and what is raised. -/
def runDiscoverySniffer (run : Run) (file : JsonFile) : JsonFile × Except PyError Unit :=
  match parseDiscoveryData py run.rawPackets with
  -- the run has not come to its file
  | .error e => (file, .error e)
  | .ok summary => dump (toWrite py run (run.summaryJson summary) file)

/-- The file behind a run. -/
def afterRun (file : JsonFile) (run : Run) : JsonFile := (runDiscoverySniffer py run file).1

/-! ## What the file holds -/

/-- The publisher and the subscriber of a run are given. -/
structure Run.Paired (run : Run) (pub sub : List Char) : Prop where
  publisher : given run.publisher = some pub
  subscriber : given run.subscriber = some sub

/-- An entry of the history: the key of a run and the summary it wrote. -/
abbrev Entry := List Char × Json

/-- The entry of a run that is not cut short. -/
def Run.entry (run : Run) : Option Entry :=
  (parseDiscoveryData py run.rawPackets).toOption.map fun summary =>
    (run.pairKey, run.summaryJson summary)

/-- A summary that a run with both names has written, with its key. -/
def IsEntry (e : Entry) : Prop :=
  ∃ (run : Run) (pub sub : List Char) (summary : Summary), run.Paired pub sub ∧
    e = (run.pairKey, run.summaryJson summary)

/-- A history. -/
def historyJson (timestamp : List Char) (es : List Entry) : Json :=
  .obj [("metadata".toList, .obj [("timestamp".toList, .str timestamp)]), ("runs".toList, .obj es)]

/-- The file after runs with these entries: absent, the summary of the one run, or all
summaries under `runs`. -/
def Holds : List Entry → JsonFile → Prop
  | [], file => file = none
  | [e], file => file = some (.ok e.2) ∧ IsEntry e
  | es, file => ∃ timestamp, file = some (.ok (historyJson timestamp es))

variable {py}

theorem given_eq_some {arg : Option (List Char)} {t : List Char} (h : given arg = some t) :
    t ≠ [] := by
  obtain ⟨_, hne⟩ := Option.filter_eq_some_iff.mp h
  simpa using hne

theorem Run.Paired.pairKey_eq {run : Run} {pub sub : List Char} (h : run.Paired pub sub) :
    run.pairKey = Run.pairOf pub sub := by
  rw [Run.pairKey, h.publisher, h.subscriber]

theorem Run.Paired.get_publisher {run : Run} {pub sub : List Char} (h : run.Paired pub sub)
    (n : Nat) (default : Json) :
    (run.metadata n).get "publisher".toList default = .ok (.str pub) := by
  rw [Run.metadata, h.publisher, h.subscriber]
  rfl

theorem Run.Paired.get_subscriber {run : Run} {pub sub : List Char} (h : run.Paired pub sub)
    (n : Nat) (default : Json) :
    (run.metadata n).get "subscriber".toList default = .ok (.str sub) := by
  rw [Run.metadata, h.publisher, h.subscriber]
  rfl

theorem truthy_str {t : List Char} (h : t ≠ []) : (Json.str t).truthy = true := by
  rw [Json.truthy, Bool.not_eq_true', List.isEmpty_eq_false_iff]
  exact h

/-- The key of the first run is read off its summary. -/
theorem firstKey_summaryJson {run : Run} {pub sub : List Char} (h : run.Paired pub sub)
    (summary : Summary) : firstKey py (run.summaryJson summary) = .ok run.pairKey := by
  have hmetadata : (run.summaryJson summary).get "metadata".toList (.obj []) =
      .ok (run.metadata summary.totalRtpsPackets) := rfl
  rw [firstKey, hmetadata, PyError.ok_bind, h.get_publisher, PyError.ok_bind, PyError.ok_bind,
    h.get_subscriber, PyError.ok_bind, truthy_str (given_eq_some h.publisher),
    truthy_str (given_eq_some h.subscriber), h.pairKey_eq]
  rfl

/-- The summary of a run is not taken for a history: it is moved under its key. -/
theorem merge_summaryJson {first : Run} {pub sub : List Char} (hfirst : first.Paired pub sub)
    (summary : Summary) (run : Run) (hnew : run.pairKey ≠ first.pairKey) (new : Json) :
    merge py run new (first.summaryJson summary) =
      .ok (historyJson run.timestamp
        [(first.pairKey, first.summaryJson summary), (run.pairKey, new)]) := by
  have hsummary : merge py run new (first.summaryJson summary) = (do
      let key ← firstKey py (first.summaryJson summary)
      return historyJson run.timestamp
        (Json.setEntry [(key, first.summaryJson summary)] run.pairKey new)) := rfl
  rw [hsummary, firstKey_summaryJson hfirst, PyError.ok_bind,
    Json.setEntry_of_notMem (by simpa using hnew)]
  rfl

/-- A history gets one entry more. -/
theorem merge_historyJson {es : List Entry} {run : Run} (hnew : run.pairKey ∉ es.map Prod.fst)
    (timestamp : List Char) (new : Json) :
    merge py run new (historyJson timestamp es) =
      .ok (historyJson timestamp (es ++ [(run.pairKey, new)])) := by
  have hruns : merge py run new (historyJson timestamp es) =
      .ok (historyJson timestamp (Json.setEntry es run.pairKey new)) := rfl
  rw [hruns, Json.setEntry_of_notMem hnew]

variable (py)

/-- What a run writes makes its file the next one. -/
theorem holds_toWrite {es : List Entry} {file : JsonFile} (hfile : Holds es file) {run : Run}
    {pub sub : List Char} (hpaired : run.Paired pub sub) (hnew : run.pairKey ∉ es.map Prod.fst)
    (summary : Summary) :
    Holds (es ++ [(run.pairKey, run.summaryJson summary)])
      (some (.ok (toWrite py run (run.summaryJson summary) file))) := by
  match es, hfile with
  | [], hfile =>
      obtain rfl := hfile
      exact ⟨rfl, run, pub, sub, summary, hpaired, rfl⟩
  | [e], hfile =>
      obtain ⟨rfl, first, pub', sub', summary', hfirst, rfl⟩ := hfile
      rw [toWrite, PyError.ok_bind, merge_summaryJson hfirst _ _ (by simpa using hnew)]
      exact ⟨_, rfl⟩
  | e :: e' :: es, hfile =>
      obtain ⟨timestamp, rfl⟩ := hfile
      rw [toWrite, PyError.ok_bind, merge_historyJson hnew]
      exact ⟨timestamp, rfl⟩

/-! ## What can be written -/

/-- The numbers of a summary have at most as many digits as `json.dump` gives out: those of the
ports, the history depths, and what stands for a source address. -/
structure Summary.Writable (summary : Summary) : Prop where
  total : summary.totalRtpsPackets < 10 ^ PyInterp.maxStrDigits
  ports : ∀ item ∈ summary.participants.items, ∀ l ∈ item.2.locators, ∀ n,
    l.port = .number n → n.natAbs < 10 ^ PyInterp.maxStrDigits
  depths : ∀ ep ∈ summary.endpoints, ∀ depth, ep.historyDepth = some depth →
    depth.natAbs < 10 ^ PyInterp.maxStrDigits
  participantIps : ∀ item ∈ summary.participants.items, item.2.srcIp.dumpable = true
  endpointIps : ∀ ep ∈ summary.endpoints, ep.srcIp.dumpable = true

theorem Locator.dumpable_toJson_iff (l : Locator) :
    l.toJson.dumpable = true ↔
      ∀ n, l.port = .number n → n.natAbs < 10 ^ PyInterp.maxStrDigits := by
  cases hport : l.port with
  | number n => simp [Locator.toJson, Port.toJson, hport]
  | text t => simp [Locator.toJson, Port.toJson, hport]

theorem Participant.dumpable_toJson_iff (p : Participant) :
    p.toJson.dumpable = true ↔ p.srcIp.dumpable = true ∧
      ∀ l ∈ p.locators, ∀ n, l.port = .number n → n.natAbs < 10 ^ PyInterp.maxStrDigits := by
  have hflags : (Json.arr (p.builtinEndpointsFlags.map .str)).dumpable = true := by simp
  have hlocators : (Json.arr (p.locators.map Locator.toJson)).dumpable = true ↔
      ∀ l ∈ p.locators, ∀ n, l.port = .number n → n.natAbs < 10 ^ PyInterp.maxStrDigits := by
    rw [Json.dumpable_arr_iff, List.forall_mem_map]
    exact forall₂_congr fun l _ => l.dumpable_toJson_iff
  rw [Participant.toJson, Json.dumpable_obj_iff]
  simp only [List.forall_mem_cons, hflags, hlocators, Json.dumpable_str, Json.dumpable_float,
    List.not_mem_nil, false_imp_iff, implies_true, true_and, and_true]

theorem Endpoint.dumpable_toJson_iff (ep : Endpoint) :
    ep.toJson.dumpable = true ↔
      (∀ depth, ep.historyDepth = some depth → depth.natAbs < 10 ^ PyInterp.maxStrDigits) ∧
        ep.srcIp.dumpable = true := by
  rw [Endpoint.toJson]
  cases ep.entityKind <;> cases ep.historyDepth <;> cases ep.hasTypeObject <;> simp

theorem Run.dumpable_metadata_iff (run : Run) (total : Nat) :
    (run.metadata total).dumpable = true ↔ total < 10 ^ PyInterp.maxStrDigits := by
  rw [Run.metadata]
  cases given run.publisher <;> cases given run.subscriber <;> simp

/-- A summary is written to its end exactly if its numbers are short. -/
theorem dumpable_summaryJson_iff (run : Run) (summary : Summary) :
    (run.summaryJson summary).dumpable = true ↔ summary.Writable := by
  have hparticipants : (Json.obj (summary.participants.items.map
      fun (guid, p) => (guid, p.toJson))).dumpable = true ↔
      ∀ item ∈ summary.participants.items, item.2.srcIp.dumpable = true ∧
        ∀ l ∈ item.2.locators, ∀ n, l.port = .number n →
          n.natAbs < 10 ^ PyInterp.maxStrDigits := by
    rw [Json.dumpable_obj_iff, List.forall_mem_map]
    exact forall₂_congr fun item _ => item.2.dumpable_toJson_iff
  have hendpoints : (Json.arr (summary.endpoints.map Endpoint.toJson)).dumpable = true ↔
      ∀ ep ∈ summary.endpoints,
        (∀ depth, ep.historyDepth = some depth → depth.natAbs < 10 ^ PyInterp.maxStrDigits) ∧
          ep.srcIp.dumpable = true := by
    rw [Json.dumpable_arr_iff, List.forall_mem_map]
    exact forall₂_congr fun ep _ => ep.dumpable_toJson_iff
  rw [Run.summaryJson, Json.dumpable_obj_iff]
  simp only [List.forall_mem_cons, run.dumpable_metadata_iff, hparticipants, hendpoints,
    List.not_mem_nil, false_imp_iff, implies_true, and_true]
  constructor
  · rintro ⟨htotal, hps, heps⟩
    exact ⟨htotal, fun item h => (hps item h).2, fun ep h => (heps ep h).1,
      fun item h => (hps item h).1, fun ep h => (heps ep h).2⟩
  · intro h
    exact ⟨h.total, fun item hi => ⟨h.participantIps item hi, h.ports item hi⟩,
      fun ep hep => ⟨h.depths ep hep, h.endpointIps ep hep⟩⟩

theorem dumpable_historyJson_iff (timestamp : List Char) (es : List Entry) :
    (historyJson timestamp es).dumpable = true ↔ ∀ e ∈ es, e.2.dumpable = true := by
  simp [historyJson]

/-- A file that holds given summaries can be written exactly if each of them can. -/
theorem dumpable_iff_of_holds {es : List Entry} {v : Json} (hfile : Holds es (some (.ok v))) :
    v.dumpable = true ↔ ∀ e ∈ es, e.2.dumpable = true := by
  match es, hfile with
  | [e], hfile =>
      obtain rfl := Except.ok.inj (Option.some.inj hfile.1)
      rw [List.forall_mem_singleton]
  | e :: e' :: es, hfile =>
      obtain ⟨timestamp, heq⟩ := hfile
      obtain rfl := Except.ok.inj (Option.some.inj heq)
      exact dumpable_historyJson_iff timestamp _

/-! ## A run -/

theorem Run.entry_eq {run : Run} {summary : Summary}
    (h : parseDiscoveryData py run.rawPackets = .ok summary) :
    run.entry py = some (run.pairKey, run.summaryJson summary) := by
  rw [Run.entry, h]
  rfl

/-- A run adds its entry, if it is not cut short and nothing stops it in writing. -/
theorem holds_afterRun {es : List Entry} {file : JsonFile} (hfile : Holds es file) {run : Run}
    {pub sub : List Char} (hpaired : run.Paired pub sub) (hnew : run.pairKey ∉ es.map Prod.fst)
    (hdump : ∀ e ∈ es ++ (run.entry py).toList, e.2.dumpable = true) :
    Holds (es ++ (run.entry py).toList) (afterRun py file run) := by
  unfold afterRun runDiscoverySniffer
  unfold Run.entry at hdump ⊢
  cases hsummary : parseDiscoveryData py run.rawPackets with
  | error e => simpa [Except.toOption] using hfile
  | ok summary =>
      rw [hsummary] at hdump
      have hwritten := holds_toWrite py hfile hpaired hnew summary
      have hdumpable := (dumpable_iff_of_holds hwritten).mpr hdump
      simp only [dump, hdumpable, if_true]
      exact hwritten

/-- A run whose summary cannot be written leaves a file that cannot be loaded. -/
theorem afterRun_of_not_dumpable {es : List Entry} {file : JsonFile} (hfile : Holds es file)
    {run : Run} {pub sub : List Char} (hpaired : run.Paired pub sub)
    (hnew : run.pairKey ∉ es.map Prod.fst) {e : Entry} (hentry : run.entry py = some e)
    (hdump : ¬e.2.dumpable = true) : afterRun py file run = some (.error .valueError) := by
  obtain ⟨summary, hsummary, rfl⟩ := Option.map_eq_some_iff.mp hentry
  have hwritten := holds_toWrite py hfile hpaired hnew summary
  have hstops : ¬(toWrite py run (run.summaryJson summary) file).dumpable = true := by
    rw [dumpable_iff_of_holds hwritten]
    exact fun hall => hdump (hall _ (List.mem_append_right _ List.mem_cons_self))
  rw [afterRun, runDiscoverySniffer, PyError.toOption_eq_some_iff.mp hsummary]
  simp only [dump, hstops]
  rfl

/-- On a file that cannot be loaded a run starts over. -/
theorem afterRun_of_error {run : Run} {summary : Summary}
    (hsummary : parseDiscoveryData py run.rawPackets = .ok summary)
    (hdump : (run.summaryJson summary).dumpable = true) (e : PyError) :
    afterRun py (some (.error e)) run = some (.ok (run.summaryJson summary)) := by
  have hover : toWrite py run (run.summaryJson summary) (some (.error e)) =
      run.summaryJson summary := rfl
  rw [afterRun, runDiscoverySniffer, hsummary]
  simp only [hover, dump, hdump, if_true]

/-! ## A sequence of runs -/

/-- The entries of runs, without those of the runs that were cut short. -/
def entries (runs : List Run) : List Entry := runs.filterMap (Run.entry py)

theorem entries_concat (runs : List Run) (run : Run) :
    entries py (runs ++ [run]) = entries py runs ++ (run.entry py).toList := by
  rw [entries, List.filterMap_append, ← entries, List.filterMap_cons]
  cases run.entry py with
  | none => rfl
  | some e => rfl

theorem keys_entries_sublist (runs : List Run) :
    ((entries py runs).map Prod.fst).Sublist (runs.map Run.pairKey) := by
  induction runs with
  | nil => exact .slnil
  | cons run runs ih =>
      rw [entries, List.filterMap_cons, List.map_cons]
      cases hentry : run.entry py with
      | none => exact ih.cons _
      | some e =>
          obtain ⟨summary, -, rfl⟩ := Option.map_eq_some_iff.mp hentry
          exact ih.cons_cons _

/-- The key of a further run is none of those in the file. -/
theorem pairKey_notMem_entries {runs : List Run} {run : Run}
    (hkeys : ((runs ++ [run]).map Run.pairKey).Nodup) :
    run.pairKey ∉ (entries py runs).map Prod.fst := by
  rw [List.map_append, List.nodup_append] at hkeys
  intro hmem
  have hold := (keys_entries_sublist py runs).subset hmem
  exact hkeys.2.2 _ hold _ List.mem_cons_self rfl

/-- What the file is after a sequence of runs, all of which can write. -/
theorem holds_runs {runs : List Run} (hpaired : ∀ run ∈ runs, ∃ pub sub, run.Paired pub sub)
    (hkeys : (runs.map Run.pairKey).Nodup)
    (hdump : ∀ e ∈ entries py runs, e.2.dumpable = true) :
    Holds (entries py runs) (runs.foldl (afterRun py) none) := by
  induction runs using List.reverseRecOn with
  | nil => rfl
  | append_singleton runs run ih =>
      obtain ⟨pub, sub, hrun⟩ := hpaired run (List.mem_append_right _ List.mem_cons_self)
      rw [entries_concat] at hdump
      have hfile := ih (fun r hr => hpaired r (List.mem_append_left _ hr))
        (hkeys.sublist ((List.sublist_append_left _ _).map _))
        (fun e he => hdump e (List.mem_append_left _ he))
      have hnext := holds_afterRun py hfile hrun (pairKey_notMem_entries py hkeys) hdump
      rw [List.foldl_append, entries_concat]
      exact hnext

/-! ## No run is lost -/

/-- No summary is lost: a single one is the file, and several are there under the keys of
their runs. -/
def Kept (es : List Entry) (file : JsonFile) : Prop :=
  (∀ e, es = [e] → file = some (.ok e.2)) ∧
    (2 ≤ es.length →
      ∃ metadata history, file =
          some (.ok (.obj [("metadata".toList, metadata), ("runs".toList, .obj history)])) ∧
        ∀ e ∈ es, history.lookup e.1 = some e.2)

theorem kept_of_holds {es : List Entry} {file : JsonFile} (hfile : Holds es file)
    (hnodup : (es.map Prod.fst).Nodup) : Kept es file := by
  refine ⟨?_, ?_⟩
  · rintro e rfl
    exact hfile.1
  · intro hlen
    match es, hlen with
    | e :: e' :: es, _ =>
        obtain ⟨timestamp, rfl⟩ := hfile
        exact ⟨_, _, rfl, fun e he => Json.lookup_of_mem hnodup he⟩

/-- In a file that cannot be loaded every summary is lost. -/
theorem not_kept_error {es : List Entry} (hne : es ≠ []) (e : PyError) :
    ¬Kept es (some (.error e)) := by
  intro ⟨hone, hmore⟩
  match es, hne with
  | [e'], _ => cases hone e' rfl
  | e' :: e'' :: es, _ =>
      obtain ⟨metadata, history, heq, -⟩ := hmore (by simp)
      cases heq

theorem dumpable_entries_iff (runs : List Run) :
    (∀ e ∈ entries py runs, e.2.dumpable = true) ↔ ∀ run ∈ runs, ∀ summary,
      parseDiscoveryData py run.rawPackets = .ok summary → summary.Writable := by
  rw [entries, List.forall_mem_filterMap]
  refine forall₂_congr fun run _ => ?_
  constructor
  · intro h summary hsummary
    have hdump := h _ (Run.entry_eq py hsummary)
    exact (dumpable_summaryJson_iff run summary).mp hdump
  · intro h e he
    obtain ⟨summary, hsummary, rfl⟩ := Option.map_eq_some_iff.mp he
    rw [dumpable_summaryJson_iff]
    exact h summary (PyError.toOption_eq_some_iff.mp hsummary)

/-- Where no summary is lost, each could be written: behind the first that could not, the file
cannot be loaded. -/
theorem dumpable_of_kept {runs : List Run} (hpaired : ∀ run ∈ runs, ∃ pub sub, run.Paired pub sub)
    (hkeys : (runs.map Run.pairKey).Nodup)
    (hkept : ∀ before, before <+: runs →
      Kept (entries py before) (before.foldl (afterRun py) none)) :
    ∀ e ∈ entries py runs, e.2.dumpable = true := by
  induction runs using List.reverseRecOn with
  | nil => exact List.forall_mem_nil _
  | append_singleton runs run ih =>
      obtain ⟨pub, sub, hrun⟩ := hpaired run (List.mem_append_right _ List.mem_cons_self)
      have hpaired' : ∀ r ∈ runs, ∃ pub sub, r.Paired pub sub :=
        fun r hr => hpaired r (List.mem_append_left _ hr)
      have hkeys' := hkeys.sublist ((List.sublist_append_left runs [run]).map Run.pairKey)
      have hbefore := ih hpaired' hkeys'
        fun before h => hkept before (h.trans (List.prefix_append _ _))
      have hfile := holds_runs py hpaired' hkeys' hbefore
      have hlast := hkept _ List.prefix_rfl
      rw [entries_concat, List.foldl_append] at hlast
      rw [entries_concat, List.forall_mem_append]
      refine ⟨hbefore, ?_⟩
      intro e he
      have hentry := Option.mem_toList.mp he
      by_contra hdump
      have hstops :=
        afterRun_of_not_dumpable py hfile hrun (pairKey_notMem_entries py hkeys) hentry hdump
      rw [List.foldl_cons, List.foldl_nil, hstops, hentry] at hlast
      exact not_kept_error (by simp) _ hlast

/-- **No run is lost exactly if each can be written.**  After every run the file has the
summaries of all runs so far, as long as no port and no history depth is too long a number. -/
theorem history_kept_iff {runs : List Run}
    (hpaired : ∀ run ∈ runs, ∃ pub sub, run.Paired pub sub)
    (hkeys : (runs.map Run.pairKey).Nodup) :
    (∀ before, before <+: runs →
        Kept (entries py before) (before.foldl (afterRun py) none)) ↔
      ∀ run ∈ runs, ∀ summary,
        parseDiscoveryData py run.rawPackets = .ok summary → summary.Writable := by
  rw [← dumpable_entries_iff]
  constructor
  · exact dumpable_of_kept py hpaired hkeys
  · intro hdump before hbefore
    have hsub : (entries py before).Sublist (entries py runs) :=
      hbefore.sublist.filterMap _
    have hkeys' : (before.map Run.pairKey).Nodup := hkeys.sublist (hbefore.sublist.map _)
    have hfile := holds_runs py (fun r hr => hpaired r (hbefore.subset hr)) hkeys'
      fun e he => hdump e (hsub.subset he)
    exact kept_of_holds hfile ((keys_entries_sublist py before).nodup hkeys')

/-- A run of two products. -/
def pairRun (publisher subscriber : String) (rawPackets : List Json) : Run where
  publisher := some publisher.toList
  subscriber := some subscriber.toList
  interface := "any".toList
  timestamp := "20260922-19_02_32".toList
  analyzedAt := "2026-09-22T19:02:37".toList
  rawPackets := rawPackets

theorem paired_pairRun {publisher subscriber : String} {rawPackets : List Json}
    (hpub : publisher.toList ≠ []) (hsub : subscriber.toList ≠ []) :
    (pairRun publisher subscriber rawPackets).Paired publisher.toList subscriber.toList where
  publisher := by simp [pairRun, given, hpub]
  subscriber := by simp [pairRun, given, hsub]

/-! ## A number that is too long -/

/-- What a packet says of a writer and the depth of its history. -/
def depthFields (depth : List Char) : List (List Char × Json) :=
  [("rtps.param.topicName".toList, .str "Square".toList),
    ("rtps.param.typeName".toList, .str "ShapeType".toList),
    ("rtps.param.endpoint_guid".toList, .str "010f45d27c3a000001000000000001c2".toList),
    ("rtps.history_depth".toList, .str depth)]

def depthPacket (depth : List Char) : Json :=
  .obj [("_source".toList, .obj [("layers".toList, .obj
    [("rtps".toList, .obj (depthFields depth))])])]

/-- `0xff…f`. -/
def hexDigits (n : Nat) : List Char := '0' :: 'x' :: List.replicate n 'f'

theorem readDigits_replicate (n value count : Nat) :
    PyInterp.readDigits 16 value count true (List.replicate n 'f') =
      some (16 ^ n * (value + 1) - 1, count + n) := by
  induction n generalizing value count with
  | zero => simp [PyInterp.readDigits]
  | succ n ih =>
      have hdigit : PyInterp.readDigits 16 value count true (List.replicate (n + 1) 'f') =
          PyInterp.readDigits 16 (16 * value + 15) (count + 1) true (List.replicate n 'f') := rfl
      rw [hdigit, ih, pow_succ, Nat.mul_assoc, Nat.mul_add 16]
      congr 2
      omega

theorem mem_hexDigits {n : Nat} {c : Char} (h : c ∈ hexDigits n) : c = '0' ∨ c = 'x' ∨ c = 'f' := by
  rcases List.mem_cons.mp h with rfl | h
  · exact .inl rfl
  · rcases List.mem_cons.mp h with rfl | h
    · exact .inr (.inl rfl)
    · exact .inr (.inr (List.eq_of_mem_replicate h))

theorem firstWord_hexDigits (n : Nat) :
    PyInterp.ascii.firstWord (hexDigits n) = .ok (hexDigits n) := by
  have hall : ((hexDigits n).dropWhile PyInterp.ascii.space).takeWhile
      (fun c => !PyInterp.ascii.space c) = hexDigits n := by
    refine List.takeWhile_eq_self_iff.mpr fun c hc => ?_
    rcases mem_hexDigits hc with rfl | rfl | rfl <;> rfl
  rw [PyInterp.firstWord, hall]
  rfl

/-- There is nothing to cut off around the digits, and no sign before them. -/
theorem readInt_hexDigits (n : Nat) :
    PyInterp.ascii.readInt true (hexDigits (n + 1)) = .ok ((16 ^ (n + 1) - 1 : Nat) : Int) := by
  have hmap : (hexDigits (n + 1)).map PyInterp.ascii.asciiDigit = hexDigits (n + 1) := by
    have hsame : ∀ c ∈ hexDigits (n + 1), PyInterp.ascii.asciiDigit c = id c := by
      intro c hc
      rcases mem_hexDigits hc with rfl | rfl | rfl <;> rfl
    rw [List.map_congr_left hsame, List.map_id]
  have hfront : (hexDigits (n + 1)).dropWhile PyInterp.isBlank = hexDigits (n + 1) := rfl
  have hend : (hexDigits (n + 1)).reverse.dropWhile PyInterp.isBlank =
      (hexDigits (n + 1)).reverse := by
    refine List.dropWhile_eq_self_iff.mpr fun hlen => ?_
    have hc := List.mem_reverse.mp (List.getElem_mem hlen)
    rcases mem_hexDigits hc with h | h | h <;> rw [h] <;> decide
  have hnatural : PyInterp.readNatural true (hexDigits (n + 1)) = some (16 ^ (n + 1) - 1) := by
    have hdigits : PyInterp.readNatural true (hexDigits (n + 1)) =
        (PyInterp.readDigits 16 15 1 true (List.replicate n 'f')).map Prod.fst := rfl
    rw [hdigits, readDigits_replicate, pow_succ]
    rfl
  have hread : ((PyInterp.readNatural true (hexDigits (n + 1))).map fun n => (n : Int)) =
      some ((16 ^ (n + 1) - 1 : Nat) : Int) := by
    rw [hnatural]
    rfl
  rw [PyInterp.readInt, hmap, hfront, hend, List.reverse_reverse]
  split
  · rename_i value hvalue
    exact congrArg Except.ok (Option.some.inj (hvalue.symm.trans hread))
  · rename_i hvalue
    cases hvalue.symm.trans hread

/-- The depth is the number of its digits. -/
theorem decodeDepth_hexDigits (n : Nat) :
    decodeDepth .ascii (.str (hexDigits (n + 1))) =
      .ok (some ((16 ^ (n + 1) - 1 : Nat) : Int)) := by
  have htext : (Json.str (hexDigits (n + 1))).text .ascii = hexDigits (n + 1) := rfl
  rw [decodeDepth, htext, firstWord_hexDigits, PyError.ok_bind, readInt_hexDigits]
  rfl

/-- The sniffer takes a depth as it is. -/
theorem parseDiscoveryData_depthPacket {t : List Char} {depth : Int}
    (hdepth : decodeDepth .ascii (.str t) = .ok (some depth)) :
    ∃ summary, parseDiscoveryData .ascii [depthPacket t] = .ok summary ∧
      ∃ ep ∈ summary.endpoints, ep.historyDepth = some depth := by
  have hword : hasWord .ascii (.str t) = true := by
    by_contra hnone
    rw [decodeDepth_of_no_word .ascii (Bool.eq_false_iff.mpr hnone)] at hdepth
    cases hdepth
  have hblank : (Json.obj (depthFields t)).fieldsOf.any (blank .ascii) = false := by
    have hfields : (Json.obj (depthFields t)).fieldsOf.any (blank .ascii) =
        (!hasWord .ascii (.str t) || false) := rfl
    rw [hfields, hword]
    rfl
  have hendpoint : ∃ ep, endpointOf .ascii (.str "unknown".toList) (.obj (depthFields t)) =
      some ep ∧ ep.historyDepth = ((decodeDepth .ascii (.str t)).toOption.join <|> none) :=
    ⟨_, rfl, rfl⟩
  obtain ⟨ep, hep, hlast⟩ := hendpoint
  have hreadable : PacketReadable .ascii (depthPacket t) :=
    ⟨_, rfl, List.forall_mem_singleton.mpr rfl, fun _ => hblank⟩
  obtain ⟨store, hstore⟩ := (parsePacket_ok_iff .ascii .empty _).mpr hreadable
  have hendpoints : store.endpoints = Keyed.addAll Endpoint.key []
      (offered .ascii (.str "unknown".toList) (.obj (depthFields t))) := by
    obtain ⟨header, spdp, hheader, -, -, hadd⟩ := parsePacket_cases hstore
    obtain rfl := Except.ok.inj hheader
    exact hadd
  rw [offered_obj_of_complete .ascii _ hep] at hendpoints
  refine ⟨⟨store, 1⟩, ?_, ep, ?_, ?_⟩
  · rw [parseDiscoveryData_eq_ok_iff, parsePackets, PyError.foldlM_cons, hstore]
    exact ⟨rfl, rfl⟩
  · rw [hendpoints]
    exact List.mem_cons_self
  · rw [hlast, hdepth]
    rfl

/-- Three runs, the second of which captures the depth `0xff…f`. -/
def threeRuns (digits : Nat) : List Run :=
  [pairRun "hdds" "dust_dds" [], pairRun "dust_dds" "hdds" [depthPacket (hexDigits digits)],
    pairRun "hdds" "hdds" []]

theorem paired_threeRuns (digits : Nat) :
    ∀ run ∈ threeRuns digits, ∃ pub sub, run.Paired pub sub := by
  simp only [threeRuns, List.forall_mem_cons, List.not_mem_nil, false_imp_iff, implies_true,
    and_true]
  exact ⟨⟨_, _, paired_pairRun (by decide) (by decide)⟩,
    ⟨_, _, paired_pairRun (by decide) (by decide)⟩, ⟨_, _, paired_pairRun (by decide) (by decide)⟩⟩

theorem nodup_threeRuns (digits : Nat) : ((threeRuns digits).map Run.pairKey).Nodup := by
  have hkeys : (threeRuns digits).map Run.pairKey =
      ["hdds---dust_dds".toList, "dust_dds---hdds".toList, "hdds---hdds".toList] := rfl
  rw [hkeys]
  decide

/-- With four digits the first summary is moved when the second comes, and the third is added. -/
theorem history_kept_iff_threeRuns :
    Kept (entries .ascii ((threeRuns 4).take 2))
        (((threeRuns 4).take 2).foldl (afterRun .ascii) none) ∧
      Kept (entries .ascii (threeRuns 4)) ((threeRuns 4).foldl (afterRun .ascii) none) :=
  have hkept := (history_kept_iff .ascii (paired_threeRuns 4) (nodup_threeRuns 4)).mpr
    ((dumpable_entries_iff .ascii (threeRuns 4)).mp (by decide +kernel))
  ⟨hkept _ (List.take_prefix 2 _), hkept _ List.prefix_rfl⟩

/-- If the depth is too long, the second run breaks off in writing, the third starts over, and
what the first run wrote is gone. -/
theorem threeRuns_lost {n : Nat} (hlong : 10 ^ PyInterp.maxStrDigits ≤ 16 ^ (n + 1) - 1) :
    ((threeRuns (n + 1)).take 2).foldl (afterRun .ascii) none = some (.error .valueError) ∧
      ¬Kept (entries .ascii (threeRuns (n + 1)))
        ((threeRuns (n + 1)).foldl (afterRun .ascii) none) := by
  have hpaired := paired_threeRuns (n + 1)
  have hnodup := nodup_threeRuns (n + 1)
  obtain ⟨summary, hsummary, ep, hep, hdepth⟩ :=
    parseDiscoveryData_depthPacket (decodeDepth_hexDigits n)
  have hentry : (pairRun "dust_dds" "hdds" [depthPacket (hexDigits (n + 1))]).entry .ascii =
      some (Run.pairKey _, Run.summaryJson _ summary) :=
    Run.entry_eq .ascii hsummary
  have hwritable : ¬summary.Writable := by
    intro h
    exact absurd (h.depths ep hep _ hdepth) (Nat.not_lt.mpr hlong)
  have hfirst : Holds (entries .ascii [pairRun "hdds" "dust_dds" []])
      ([pairRun "hdds" "dust_dds" []].foldl (afterRun .ascii) none) := by
    refine holds_runs .ascii (fun run hrun => ?_) (List.nodup_singleton _) (by decide +kernel)
    obtain rfl := List.mem_singleton.mp hrun
    exact hpaired _ List.mem_cons_self
  have hkeys : (([pairRun "hdds" "dust_dds" []] ++
      [pairRun "dust_dds" "hdds" [depthPacket (hexDigits (n + 1))]]).map Run.pairKey).Nodup :=
    (List.nodup_append.mp (hnodup : (List.map Run.pairKey _ ++ [_]).Nodup)).1
  have hsecond : ((threeRuns (n + 1)).take 2).foldl (afterRun .ascii) none =
      some (.error .valueError) :=
    afterRun_of_not_dumpable .ascii hfirst (paired_pairRun (by decide) (by decide))
      (pairKey_notMem_entries .ascii hkeys) hentry
      (fun h => hwritable ((dumpable_summaryJson_iff _ summary).mp h))
  have hthird : (threeRuns (n + 1)).foldl (afterRun .ascii) none =
      some (.ok ((pairRun "hdds" "hdds" []).summaryJson ⟨.empty, 0⟩)) := by
    have hstep : (threeRuns (n + 1)).foldl (afterRun .ascii) none =
        afterRun .ascii (((threeRuns (n + 1)).take 2).foldl (afterRun .ascii) none)
          (pairRun "hdds" "hdds" []) := rfl
    rw [hstep, hsecond]
    exact afterRun_of_error .ascii rfl (by decide +kernel) _
  have hlen : 2 ≤ (entries .ascii (threeRuns (n + 1))).length := by
    have hentries : entries .ascii (threeRuns (n + 1)) =
        [((pairRun "hdds" "dust_dds" []).pairKey, _)] ++
          ((pairRun "dust_dds" "hdds" [depthPacket (hexDigits (n + 1))]).entry .ascii).toList ++
          [((pairRun "hdds" "hdds" []).pairKey, _)] :=
      (entries_concat .ascii [_, _] (pairRun "hdds" "hdds" [])).trans
        (congrArg (· ++ _) (entries_concat .ascii [_] _))
    rw [hentries, hentry]
    simp
  refine ⟨hsecond, ?_⟩
  intro hkept
  rw [hthird] at hkept
  obtain ⟨metadata, history, heq, -⟩ := hkept.2 hlen
  have hshape := congrArg List.length (Json.obj.inj (Except.ok.inj (Option.some.inj heq)))
  cases hshape

/-- 3600 digits are too many. -/
theorem not_history_kept : ∃ runs : List Run,
    (∀ run ∈ runs, ∃ pub sub, run.Paired pub sub) ∧ (runs.map Run.pairKey).Nodup ∧
      ¬Kept (entries .ascii runs) (runs.foldl (afterRun .ascii) none) :=
  ⟨threeRuns (3599 + 1), paired_threeRuns _, nodup_threeRuns _,
    (threeRuns_lost (by decide +kernel)).2⟩

end DdsRtps.Discovery
