/-
# `DdsRtps.Hdds.ShapeOptions` — the command line of the HDDS shape_main

`ShapeOptions` and `ShapeOptions::parse` of srcRs/HDDS/src/main.rs.  The arms of
its `match` are of three kinds, each a table here: switches, options with a
number, which differ in the field and in being `u32` or `i32`, and options with
another value.

A number option that is given has its last number at the end, one that is not
has its default (`get_parse`).  What is printed besides the error of a refusal,
and what `-v` does to the log, is left out.
-/
import DdsRtps.Hdds.Qos

namespace DdsRtps.Hdds

inductive AccessScope where
  | instance_
  | topic
  | group
deriving DecidableEq, Repr

/-- `struct ShapeOptions`; the numbers are in the ranges of their types
(`inType_parse`). -/
structure ShapeOptions where
  domainId : Int
  reliabilityKind : Reliability
  durabilityKind : Durability
  dataRepresentation : DataRepresentation
  historyDepth : Int
  ownershipStrength : Int
  topicName : Option String
  color : Option String
  partition_ : Option String
  publish : Bool
  subscribe : Bool
  timebasedfilterIntervalMs : Int
  deadlineIntervalMs : Int
  lifespanMs : Int
  daWidth : Int
  daHeight : Int
  shapesize : Int
  printWriterSamples : Bool
  useRead : Bool
  writePeriodMs : Int
  readPeriodMs : Int
  numIterations : Int
  numInstances : Int
  numTopics : Int
  unregister : Bool
  dispose : Bool
  coherentAccessScope : AccessScope
  coherentAccessScopeSet : Bool
  coherentSetEnabled : Bool
  orderedAccessEnabled : Bool
  coherentSetSampleCount : Int
  additionalPayloadSize : Int
  takeReadNextInstance : Bool
  periodicAnnouncementPeriodMs : Int
  datafragSize : Int
  cftExpression : Option String
  sizeModulo : Int
deriving DecidableEq, Repr

namespace ShapeOptions

/-- `ShapeOptions::default`. -/
def default_ : ShapeOptions where
  domainId := 0
  reliabilityKind := .reliable
  durabilityKind := .volatile
  dataRepresentation := .default
  historyDepth := -1
  ownershipStrength := -1
  topicName := none
  color := none
  partition_ := none
  publish := false
  subscribe := false
  timebasedfilterIntervalMs := 0
  deadlineIntervalMs := 0
  lifespanMs := 0
  daWidth := 240
  daHeight := 270
  shapesize := 20
  printWriterSamples := false
  useRead := false
  writePeriodMs := 33
  readPeriodMs := 100
  numIterations := 0
  numInstances := 1
  numTopics := 1
  unregister := false
  dispose := false
  coherentAccessScope := .instance_
  coherentAccessScopeSet := false
  coherentSetEnabled := false
  orderedAccessEnabled := false
  coherentSetSampleCount := 0
  additionalPayloadSize := 0
  takeReadNextInstance := true
  periodicAnnouncementPeriodMs := 0
  datafragSize := 0
  cftExpression := none
  sizeModulo := 0

end ShapeOptions

/-! ## Numbers -/

/-- The digits of a number, at least one. -/
def readDigits (digits : List Char) : Option Nat :=
  if digits ≠ [] ∧ digits.all Char.isDigit then
    some (digits.foldl (fun n c => 10 * n + (c.toNat - '0'.toNat)) 0)
  else none

/-- `str::parse::<u32>`: a sign is `+` only. -/
def parseU32 (text : String) : Option Int :=
  let digits := match text.toList with
    | '+' :: digits => digits
    | digits => digits
  (readDigits digits).bind fun n => if n < 2 ^ 32 then some n else none

/-- `str::parse::<i32>`. -/
def parseI32 (text : String) : Option Int :=
  let value := match text.toList with
    | '+' :: digits => (readDigits digits).map fun n => (n : Int)
    | '-' :: digits => (readDigits digits).map fun n => -(n : Int)
    | digits => (readDigits digits).map fun n => (n : Int)
  value.bind fun n => if -2 ^ 31 ≤ n ∧ n < 2 ^ 31 then some n else none

/-- The options that have a number. -/
inductive NumOpt where
  | domainId
  | historyDepth
  | ownershipStrength
  | deadlineInterval
  | shapesize
  | writePeriod
  | readPeriod
  | timeFilter
  | lifespan
  | numIterations
  | numInstances
  | numTopics
  | coherentSampleCount
  | additionalPayloadSize
  | periodicAnnouncement
  | datafragSize
  | sizeModulo
deriving DecidableEq, Repr

namespace NumOpt

/-- The arms with a number, by their flags. -/
def table : List (String × NumOpt) :=
  [("-d", domainId), ("-k", historyDepth), ("-s", ownershipStrength), ("-f", deadlineInterval),
    ("-z", shapesize), ("--write-period", writePeriod), ("--read-period", readPeriod),
    ("--time-filter", timeFilter), ("--lifespan", lifespan), ("--num-iterations", numIterations),
    ("--num-instances", numInstances), ("--num-topics", numTopics),
    ("--coherent-sample-count", coherentSampleCount),
    ("--additional-payload-size", additionalPayloadSize),
    ("--periodic-announcement", periodicAnnouncement), ("--datafrag-size", datafragSize),
    ("--size-modulo", sizeModulo)]

/-- Is the field an `i32`? -/
def signed : NumOpt → Bool
  | historyDepth | ownershipStrength | shapesize => true
  | _ => false

/-- `args[i].parse()`. -/
def parse (k : NumOpt) (text : String) : Option Int :=
  if k.signed then parseI32 text else parseU32 text

/-- A value of the field's type. -/
def InType (k : NumOpt) (v : Int) : Prop :=
  if k.signed then -2 ^ 31 ≤ v ∧ v < 2 ^ 31 else 0 ≤ v ∧ v < 2 ^ 32

/-- `opts.field = v`. -/
def set (opts : ShapeOptions) (v : Int) : NumOpt → ShapeOptions
  | domainId => { opts with domainId := v }
  | historyDepth => { opts with historyDepth := v }
  | ownershipStrength => { opts with ownershipStrength := v }
  | deadlineInterval => { opts with deadlineIntervalMs := v }
  | shapesize => { opts with shapesize := v }
  | writePeriod => { opts with writePeriodMs := v }
  | readPeriod => { opts with readPeriodMs := v }
  | timeFilter => { opts with timebasedfilterIntervalMs := v }
  | lifespan => { opts with lifespanMs := v }
  | numIterations => { opts with numIterations := v }
  | numInstances => { opts with numInstances := v }
  | numTopics => { opts with numTopics := v }
  | coherentSampleCount => { opts with coherentSetSampleCount := v }
  | additionalPayloadSize => { opts with additionalPayloadSize := v }
  | periodicAnnouncement => { opts with periodicAnnouncementPeriodMs := v }
  | datafragSize => { opts with datafragSize := v }
  | sizeModulo => { opts with sizeModulo := v }

/-- `opts.field`. -/
def get (opts : ShapeOptions) : NumOpt → Int
  | domainId => opts.domainId
  | historyDepth => opts.historyDepth
  | ownershipStrength => opts.ownershipStrength
  | deadlineInterval => opts.deadlineIntervalMs
  | shapesize => opts.shapesize
  | writePeriod => opts.writePeriodMs
  | readPeriod => opts.readPeriodMs
  | timeFilter => opts.timebasedfilterIntervalMs
  | lifespan => opts.lifespanMs
  | numIterations => opts.numIterations
  | numInstances => opts.numInstances
  | numTopics => opts.numTopics
  | coherentSampleCount => opts.coherentSetSampleCount
  | additionalPayloadSize => opts.additionalPayloadSize
  | periodicAnnouncement => opts.periodicAnnouncementPeriodMs
  | datafragSize => opts.datafragSize
  | sizeModulo => opts.sizeModulo

end NumOpt

/-! ## The other arms -/

/-- The arms without a value. -/
def switches : List (String × (ShapeOptions → ShapeOptions)) :=
  [("-P", fun opts => { opts with publish := true }),
    ("-S", fun opts => { opts with subscribe := true }),
    ("-b", fun opts => { opts with reliabilityKind := .bestEffort }),
    ("-r", fun opts => { opts with reliabilityKind := .reliable }),
    ("-R", fun opts => { opts with useRead := true }),
    ("-w", fun opts => { opts with printWriterSamples := true }),
    ("--coherent", fun opts => { opts with coherentSetEnabled := true }),
    ("--ordered", fun opts => { opts with orderedAccessEnabled := true }),
    ("--take-read", fun opts => { opts with takeReadNextInstance := false })]

/-- What a value does to the options, or the error that it makes the parser print. -/
abbrev Reader := String → Except (Option String) (ShapeOptions → ShapeOptions)

/-- A value that is taken as it is. -/
def textReader (set : ShapeOptions → String → ShapeOptions) : Reader :=
  fun value => .ok fun opts => set opts value

/-- A value of which the first letter counts, with the error for a letter that
is none of these. -/
def letterReader (error : String → Option String)
    (letters : List (Char × (ShapeOptions → ShapeOptions))) : Reader := fun value =>
  match value.toList with
  | [] => .error none
  | c :: _ =>
      match letters.lookup c with
      | some update => .ok update
      | none => .error (error value)

/-- `-x`. -/
def representationReader : Reader := fun value =>
  if value = "1" then .ok fun opts => { opts with dataRepresentation := .xcdr1 }
  else if value = "2" then .ok fun opts => { opts with dataRepresentation := .xcdr2 }
  else .error none

/-- The arms with another value. -/
def readers : List (String × Reader) :=
  [("-v", letterReader (fun value => some ("unrecognized value for verbosity " ++ value))
      [('d', id), ('e', id)]),
    ("-t", textReader fun opts value => { opts with topicName := some value }),
    ("-c", textReader fun opts value => { opts with color := some value }),
    ("-p", textReader fun opts value => { opts with partition_ := some value }),
    ("-x", representationReader),
    ("-D", letterReader (fun _ => none)
      [('v', fun opts => { opts with durabilityKind := .volatile }),
        ('l', fun opts => { opts with durabilityKind := .transientLocal }),
        ('t', fun opts => { opts with durabilityKind := .transient }),
        ('p', fun opts => { opts with durabilityKind := .persistent })]),
    ("--final-instance-state", letterReader (fun _ => none)
      [('u', fun opts => { opts with unregister := true }),
        ('d', fun opts => { opts with dispose := true })]),
    ("--access-scope", letterReader (fun _ => none)
      [('i', fun opts =>
          { opts with coherentAccessScopeSet := true, coherentAccessScope := .instance_ }),
        ('t', fun opts =>
          { opts with coherentAccessScopeSet := true, coherentAccessScope := .topic }),
        ('g', fun opts =>
          { opts with coherentAccessScopeSet := true, coherentAccessScope := .group })]),
    ("--cft", textReader fun opts value => { opts with cftExpression := some value })]

/-- The arm of a flag that has a value. -/
def readerOf (flag : String) : Option Reader :=
  match NumOpt.table.lookup flag with
  | some k => some fun value =>
      match k.parse value with
      | some v => .ok fun opts => k.set opts v
      | none => .error none
  | none => readers.lookup flag

/-! ## The parser -/

/-- What becomes of a command line: the process exits, or the parser returns. -/
inductive Outcome where
  | exited
  | refused (error : Option String)
  | accepted (opts : ShapeOptions)
deriving DecidableEq, Repr

/-- "warning: color was not specified". -/
def defaultColor (opts : ShapeOptions) : ShapeOptions :=
  if opts.publish && opts.color = none then { opts with color := some "BLUE" } else opts

/-- Validation (matches C++ validate()). -/
def validate (opts : ShapeOptions) : Outcome :=
  if opts.topicName = none then .refused (some "please specify topic name [-t]")
  else if !opts.publish && !opts.subscribe then
    .refused (some "please specify publish [-P] or subscribe [-S]")
  else if opts.publish && opts.subscribe then
    .refused (some "please specify only one of: publish [-P] or subscribe [-S]")
  else
    let opts := defaultColor opts
    if opts.subscribe && opts.color.isSome && opts.cftExpression.isSome then
      .refused (some "error: cannot specify both --cft and -c for subscriber applications")
    else if opts.unregister && opts.dispose then
      .refused (some "error, cannot configure unregister and dispose at the same time")
    else .accepted opts

/-- The loop of `parse`. -/
def parseArgs : List String → ShapeOptions → Outcome
  | [], opts => validate opts
  | arg :: rest, opts =>
      if arg = "-h" ∨ arg = "--help" then .exited
      else
        match switches.lookup arg with
        | some update => parseArgs rest (update opts)
        | none =>
            match readerOf arg with
            | none => .refused (some ("Error: Unknown option " ++ arg))
            | some reader =>
                match rest with
                | [] => .refused none
                | value :: rest =>
                    match reader value with
                    | .error error => .refused error
                    | .ok update => parseArgs rest (update opts)

/-- `ShapeOptions::parse`; the first argument is the program. -/
def parse (args : List String) : Outcome := parseArgs (args.drop 1) ShapeOptions.default_

/-! ## The number of an option -/

/-- The number options of a command line with their numbers, in order. -/
def numbersGiven : List String → List (NumOpt × Int)
  | [] => []
  | arg :: rest =>
      match switches.lookup arg with
      | some _ => numbersGiven rest
      | none =>
          match rest with
          | [] => []
          | value :: rest =>
              match NumOpt.table.lookup arg with
              | some k => ((k.parse value).map (k, ·)).toList ++ numbersGiven rest
              | none => numbersGiven rest

/-- The last number of an option. -/
def lastOf (k : NumOpt) (numbers : List (NumOpt × Int)) : Option Int :=
  numbers.foldl (fun last p => if p.1 = k then some p.2 else last) none

/-- The last number that a command line gives an option. -/
def lastGiven (k : NumOpt) (args : List String) : Option Int :=
  lastOf k (numbersGiven (args.drop 1))

theorem foldl_last (k : NumOpt) (numbers : List (NumOpt × Int)) (last : Option Int) :
    numbers.foldl (fun last p => if p.1 = k then some p.2 else last) last
      = (lastOf k numbers).or last := by
  unfold lastOf
  induction numbers generalizing last with
  | nil => rfl
  | cons p numbers ih =>
      rw [List.foldl_cons, List.foldl_cons, ih, ih (if p.1 = k then some p.2 else none)]
      by_cases hp : p.1 = k <;> simp [hp]

theorem lastOf_cons (k : NumOpt) (p : NumOpt × Int) (numbers : List (NumOpt × Int)) :
    lastOf k (p :: numbers) = (lastOf k numbers).or (if p.1 = k then some p.2 else none) := by
  rw [← foldl_last]
  rfl

namespace NumOpt

@[simp] theorem get_set (k : NumOpt) (opts : ShapeOptions) (v : Int) :
    k.get (k.set opts v) = v := by
  cases k <;> rfl

/-- Each option has a field of its own. -/
theorem get_set_of_ne {k l : NumOpt} (h : l ≠ k) (opts : ShapeOptions) (v : Int) :
    k.get (l.set opts v) = k.get opts := by
  cases l <;> cases k <;> first | rfl | exact absurd rfl h

end NumOpt

/-- The update sets none of the numbers. -/
def KeepsNumbers (update : ShapeOptions → ShapeOptions) : Prop :=
  ∀ k opts, NumOpt.get (update opts) k = NumOpt.get opts k

theorem mem_of_lookup {β : Type} {table : List (String × β)} {flag : String} {b : β}
    (h : table.lookup flag = some b) : (flag, b) ∈ table := by
  obtain ⟨before, after, rfl, -⟩ := List.lookup_eq_some_iff.1 h
  simp

theorem switches_keep : ∀ s ∈ switches, KeepsNumbers s.2 := by
  intro s hs
  simp only [switches, List.mem_cons, List.not_mem_nil, or_false] at hs
  rcases hs with rfl | rfl | rfl | rfl | rfl | rfl | rfl | rfl | rfl <;>
    exact fun k _ => by cases k <;> rfl

/-- No value makes the reader set a number. -/
def ReadsNoNumber (reader : Reader) : Prop :=
  ∀ value update, reader value = .ok update → KeepsNumbers update

section Readers

variable {P : (ShapeOptions → ShapeOptions) → Prop} {value : String}
  {update : ShapeOptions → ShapeOptions}

theorem textReader_keeps {set : ShapeOptions → String → ShapeOptions}
    (hset : ∀ value, P fun opts => set opts value) (h : textReader set value = .ok update) :
    P update := by
  cases h
  exact hset value

theorem letterReader_keeps {error : String → Option String}
    {letters : List (Char × (ShapeOptions → ShapeOptions))} (hletters : ∀ l ∈ letters, P l.2)
    (h : letterReader error letters value = .ok update) : P update := by
  unfold letterReader at h
  split at h
  · cases h
  · rename_i c _ _
    split at h
    · rename_i heq
      cases h
      obtain ⟨before, after, rfl, -⟩ := List.lookup_eq_some_iff.1 heq
      exact hletters (c, update) (by simp)
    · cases h

theorem representationReader_keeps (hone : P fun opts => { opts with dataRepresentation := .xcdr1 })
    (htwo : P fun opts => { opts with dataRepresentation := .xcdr2 })
    (h : representationReader value = .ok update) : P update := by
  unfold representationReader at h
  split_ifs at h
  · cases h
    exact hone
  · cases h
    exact htwo

end Readers

theorem readers_keep : ∀ r ∈ readers, ReadsNoNumber r.2 := by
  simp only [readers, List.forall_mem_cons]
  refine ⟨fun _ _ => letterReader_keeps ?_, fun _ _ => textReader_keeps ?_,
    fun _ _ => textReader_keeps ?_, fun _ _ => textReader_keeps ?_,
    fun _ _ => representationReader_keeps ?_ ?_, fun _ _ => letterReader_keeps ?_,
    fun _ _ => letterReader_keeps ?_, fun _ _ => letterReader_keeps ?_,
    fun _ _ => textReader_keeps ?_, nofun⟩
  case refine_2 | refine_3 | refine_4 | refine_10 => exact fun _ k _ => by cases k <;> rfl
  case refine_5 | refine_6 => exact fun k _ => by cases k <;> rfl
  all_goals
    simp only [List.forall_mem_cons]
    repeat' apply And.intro
  all_goals
    first
      | exact List.forall_mem_nil _
      | exact fun k _ => by cases k <;> rfl

theorem defaultColor_keeps : KeepsNumbers defaultColor := by
  intro k opts
  unfold defaultColor
  split
  · cases k <;> rfl
  · rfl

/-- What an accepted set of options is. -/
theorem validate_eq_accepted {opts opts' : ShapeOptions} (h : validate opts = .accepted opts') :
    opts' = defaultColor opts ∧ opts.topicName ≠ none ∧ opts.publish = !opts.subscribe ∧
      ¬((defaultColor opts).subscribe && (defaultColor opts).color.isSome &&
        (defaultColor opts).cftExpression.isSome) ∧
      ¬((defaultColor opts).unregister && (defaultColor opts).dispose) := by
  dsimp only [validate] at h
  split_ifs at h with htopic hnone hboth hfilter hfinal
  cases h
  refine ⟨rfl, htopic, ?_, hfilter, hfinal⟩
  cases hpublish : opts.publish <;> cases hsubscribe : opts.subscribe <;> simp_all

/-- An arm with a value reads a number or sets none. -/
theorem readerOf_eq_ok {flag value : String} {reader : Reader}
    {update : ShapeOptions → ShapeOptions} (hreader : readerOf flag = some reader)
    (hvalue : reader value = .ok update) :
    (∃ k v, NumOpt.table.lookup flag = some k ∧ k.parse value = some v ∧
      update = fun opts => k.set opts v) ∨
    (NumOpt.table.lookup flag = none ∧ KeepsNumbers update) := by
  unfold readerOf at hreader
  split at hreader
  · rename_i k hk
    cases hreader
    simp only at hvalue
    split at hvalue
    · rename_i v hv
      cases hvalue
      exact .inl ⟨k, v, hk, hv, rfl⟩
    · cases hvalue
  · rename_i hnone
    exact .inr ⟨hnone, readers_keep _ (mem_of_lookup hreader) value update hvalue⟩

/-- What an accepted command line makes of a number field: the last number given
to it, and what was there before when none is given. -/
theorem get_parseArgs (k : NumOpt) {args : List String} {opts opts' : ShapeOptions}
    (h : parseArgs args opts = .accepted opts') :
    k.get opts' = (lastOf k (numbersGiven args)).getD (k.get opts) := by
  fun_induction parseArgs args opts with
  | case1 opts =>
      rw [(validate_eq_accepted h).1, defaultColor_keeps]
      rfl
  | case2 => cases h
  | case3 arg rest opts _ update hs ih =>
      have hkeep := switches_keep _ (mem_of_lookup hs) k opts
      have hgiven : numbersGiven (arg :: rest) = numbersGiven rest := by
        rw [numbersGiven.eq_def]
        simp only [hs]
      rw [ih h, hgiven, hkeep]
  | case4 => cases h
  | case5 => cases h
  | case6 => cases h
  | case7 arg opts _ hs reader hreader value rest update hvalue ih =>
      rw [ih h]
      rcases readerOf_eq_ok hreader hvalue with ⟨l, v, hl, hv, rfl⟩ | ⟨hl, hkeep⟩
      · have hgiven : numbersGiven (arg :: value :: rest) = (l, v) :: numbersGiven rest := by
          simp [numbersGiven, hs, hl, hv]
        rw [hgiven, lastOf_cons]
        by_cases hlk : l = k
        · subst hlk
          cases lastOf l (numbersGiven rest) <;> simp
        · rw [NumOpt.get_set_of_ne hlk]
          simp [hlk]
      · rw [hkeep]
        simp [numbersGiven, hs, hl]

/-- A number option of an accepted command line has the last number given to it,
and its default when none is given. -/
theorem get_parse (k : NumOpt) {args : List String} {opts : ShapeOptions}
    (h : parse args = .accepted opts) :
    k.get opts = (lastGiven k args).getD (k.get ShapeOptions.default_) :=
  get_parseArgs k h

/-! ## The box -/

/-- The width and the height of the box. -/
def box (opts : ShapeOptions) : Int × Int := (opts.daWidth, opts.daHeight)

/-- The update leaves the box alone. -/
def KeepsBox (update : ShapeOptions → ShapeOptions) : Prop := ∀ opts, box (update opts) = box opts

theorem switches_keep_box : ∀ s ∈ switches, KeepsBox s.2 := by
  intro s hs
  simp only [switches, List.mem_cons, List.not_mem_nil, or_false] at hs
  rcases hs with rfl | rfl | rfl | rfl | rfl | rfl | rfl | rfl | rfl <;> exact fun _ => rfl

theorem readers_keep_box :
    ∀ r ∈ readers, ∀ value update, r.2 value = .ok update → KeepsBox update := by
  simp only [readers, List.forall_mem_cons]
  refine ⟨fun _ _ => letterReader_keeps ?_, fun _ _ => textReader_keeps ?_,
    fun _ _ => textReader_keeps ?_, fun _ _ => textReader_keeps ?_,
    fun _ _ => representationReader_keeps ?_ ?_, fun _ _ => letterReader_keeps ?_,
    fun _ _ => letterReader_keeps ?_, fun _ _ => letterReader_keeps ?_,
    fun _ _ => textReader_keeps ?_, nofun⟩
  case refine_2 | refine_3 | refine_4 | refine_10 => exact fun _ _ => rfl
  case refine_5 | refine_6 => exact fun _ => rfl
  all_goals
    simp only [List.forall_mem_cons]
    repeat' apply And.intro
  all_goals
    first
      | exact List.forall_mem_nil _
      | exact fun _ => rfl

theorem readerOf_keeps_box {flag value : String} {reader : Reader}
    {update : ShapeOptions → ShapeOptions} (hreader : readerOf flag = some reader)
    (hvalue : reader value = .ok update) : KeepsBox update := by
  unfold readerOf at hreader
  split at hreader
  · rename_i k hk
    cases hreader
    simp only at hvalue
    split at hvalue
    · cases hvalue
      exact fun _ => by cases k <;> rfl
    · cases hvalue
  · exact readers_keep_box _ (mem_of_lookup hreader) value update hvalue

/-- No option sets the size of the box. -/
theorem box_parseArgs {args : List String} {opts opts' : ShapeOptions}
    (h : parseArgs args opts = .accepted opts') : box opts' = box opts := by
  fun_induction parseArgs args opts with
  | case1 opts =>
      rw [(validate_eq_accepted h).1]
      unfold defaultColor
      split <;> rfl
  | case2 => cases h
  | case3 arg rest opts _ update hs ih =>
      rw [ih h, switches_keep_box _ (mem_of_lookup hs)]
  | case4 => cases h
  | case5 => cases h
  | case6 => cases h
  | case7 arg opts _ hs reader hreader value rest update hvalue ih =>
      rw [ih h, readerOf_keeps_box hreader hvalue]

/-- So it is 240 and 270. -/
theorem box_parse {args : List String} {opts : ShapeOptions} (h : parse args = .accepted opts) :
    opts.daWidth = 240 ∧ opts.daHeight = 270 := Prod.mk.inj (box_parseArgs h)

/-! ## The types of the numbers -/

theorem parseU32_bounds {text : String} {v : Int} (h : parseU32 text = some v) :
    0 ≤ v ∧ v < 2 ^ 32 := by
  simp only [parseU32, Option.bind_eq_some_iff] at h
  obtain ⟨n, -, hn⟩ := h
  split_ifs at hn
  cases hn
  omega

theorem parseI32_bounds {text : String} {v : Int} (h : parseI32 text = some v) :
    -2 ^ 31 ≤ v ∧ v < 2 ^ 31 := by
  simp only [parseI32, Option.bind_eq_some_iff] at h
  obtain ⟨n, -, hn⟩ := h
  split_ifs at hn with hrange
  cases hn
  exact hrange

theorem NumOpt.inType_of_parse {k : NumOpt} {text : String} {v : Int}
    (h : k.parse text = some v) : k.InType v := by
  unfold NumOpt.parse at h
  unfold NumOpt.InType
  split_ifs at h ⊢
  · exact parseI32_bounds h
  · exact parseU32_bounds h

/-- Every default is in its type. -/
theorem NumOpt.inType_default (k : NumOpt) : k.InType (k.get ShapeOptions.default_) := by
  cases k <;> simp [NumOpt.InType, NumOpt.signed, NumOpt.get, ShapeOptions.default_]

theorem inType_of_mem_numbersGiven {k : NumOpt} {v : Int} {args : List String}
    (h : (k, v) ∈ numbersGiven args) : k.InType v := by
  fun_induction numbersGiven args with
  | case1 => cases h
  | case2 _ _ _ _ ih => exact ih h
  | case3 => cases h
  | case4 _ _ value rest l _ ih =>
      rcases List.mem_append.1 h with hmem | hmem
      · simp only [Option.mem_toList, Option.map_eq_some_iff, Prod.mk.injEq] at hmem
        obtain ⟨_, hparse, rfl, rfl⟩ := hmem
        exact NumOpt.inType_of_parse hparse
      · exact ih hmem
  | case5 _ _ _ _ _ ih => exact ih h

theorem mem_of_lastOf {k : NumOpt} {v : Int} {numbers : List (NumOpt × Int)}
    (h : lastOf k numbers = some v) : (k, v) ∈ numbers := by
  induction numbers with
  | nil => cases h
  | cons p numbers ih =>
      rw [lastOf_cons] at h
      rcases Option.or_eq_some_iff.1 h with hlast | ⟨-, hp⟩
      · exact List.mem_cons_of_mem _ (ih hlast)
      · split_ifs at hp with hk
        cases hp
        subst hk
        exact List.mem_cons_self

/-- A number that a command line gives is in the option's type. -/
theorem inType_of_lastGiven {k : NumOpt} {v : Int} {args : List String}
    (h : lastGiven k args = some v) : k.InType v :=
  inType_of_mem_numbersGiven (mem_of_lastOf h)

/-- The numbers of an accepted command line are in the ranges of their types. -/
theorem inType_parse (k : NumOpt) {args : List String} {opts : ShapeOptions}
    (h : parse args = .accepted opts) : k.InType (k.get opts) := by
  rw [get_parse k h]
  cases hlast : lastGiven k args with
  | none => exact k.inType_default
  | some v => exact inType_of_lastGiven hlast

end DdsRtps.Hdds
