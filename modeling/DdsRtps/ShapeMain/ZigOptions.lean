/-
# `DdsRtps.ShapeMain.ZigOptions` — the command line in Zig

`Options` and `parseArgs` of srcZig/shape_main.zig.  The arms are of two kinds, each
a table here: switches, and options with a value.  A number that cannot be read is
an error with `try`, and with `catch` it is the default; no number is checked
further.

What is printed is left out, and so is what kind of an error a number is.
-/
import DdsRtps.Lib.Utf8
import Mathlib.Algebra.Group.Int.Defs
import Mathlib.Algebra.Group.Nat.Defs

namespace DdsRtps.ShapeMain.Zig

/-! ## Numbers -/

/-- `std.fmt.charToDigit`, to base 10. -/
def charToDigit (c : UInt8) : Option Nat :=
  if '0'.toUInt8 ≤ c ∧ c ≤ '9'.toUInt8 then some (c.toNat - '0'.toNat) else none

/-- The digits of a number; a `_` may stand between them. -/
def parseDigits (buf : List UInt8) : Option Nat :=
  if buf = [] ∨ buf.head? = some '_'.toUInt8 ∨ buf.getLast? = some '_'.toUInt8 then none
  else
    ((buf.filter (· ≠ '_'.toUInt8)).mapM charToDigit).map fun digits =>
      digits.foldl (fun n digit => 10 * n + digit) 0

/-- `std.fmt.parseInt`, for a type with this range. -/
def parseInt (lo hi : Int) (v : String) : Option Int :=
  let value := match v.toList with
    | '+' :: digits => (parseDigits (Utf8.asBytes (String.ofList digits))).map fun n => (n : Int)
    | '-' :: digits => (parseDigits (Utf8.asBytes (String.ofList digits))).map fun n => -(n : Int)
    | _ => (parseDigits (Utf8.asBytes v)).map fun n => (n : Int)
  value.bind fun n => if lo ≤ n ∧ n ≤ hi then some n else none

def parseU16 (v : String) : Option UInt16 :=
  (parseInt 0 (2 ^ 16 - 1) v).map fun n => .ofNat n.toNat

def parseU32 (v : String) : Option UInt32 :=
  (parseInt 0 (2 ^ 32 - 1) v).map fun n => .ofNat n.toNat

def parseU64 (v : String) : Option UInt64 :=
  (parseInt 0 (2 ^ 64 - 1) v).map fun n => .ofNat n.toNat

def parseI32 (v : String) : Option Int32 := (parseInt (-2 ^ 31) (2 ^ 31 - 1) v).map .ofInt

def parseI64 (v : String) : Option Int64 := (parseInt (-2 ^ 63) (2 ^ 63 - 1) v).map .ofInt

/-! ## The options -/

namespace CommandLine

/-- `Options`. -/
structure Options where
  publish : Bool := false
  subscribe : Bool := false
  domainId : UInt32 := 0
  bestEffort : Bool := false
  reliable : Bool := false
  historyDepth : Int32 := -1
  deadlineMs : UInt64 := 0
  lifespanMs : UInt64 := 0
  ownershipStrength : Int32 := -1
  topicName : String := "Square"
  color : Option String := none
  partition_ : Option String := none
  durability : UInt8 := 'v'.toUInt8
  dataRepresentation : UInt16 := 1
  printWriterSamples : Bool := false
  shapesize : Int32 := 20
  writePeriodMs : UInt64 := 33
  readPeriodMs : UInt64 := 100
  numIterations : Int64 := -1
  numInstances : UInt32 := 1
  additionalPayload : UInt32 := 0
  sizeModulo : Int32 := 0
  cftExpression : Option String := none
  timeFilterMs : UInt64 := 0
  finalInstanceState : UInt8 := 0
  accessScope : UInt8 := 'i'.toUInt8
  orderedAccess : Bool := false
  coherentAccess : Bool := false
  numTopics : UInt32 := 1
  takeRead : Bool := false
  readOnly : Bool := false
  coherentSampleCount : UInt32 := 0
  periodicAnnouncementMs : UInt32 := 0
  datafragSize : UInt16 := 0
deriving DecidableEq, Repr

/-- The errors of `parseArgs`. -/
inductive ArgError where
  | missingValue
  | invalidNumber
  | invalidValue
deriving DecidableEq, Repr

/-- What a value does to the options, or the error that it is. -/
abbrev Reader := String → Except ArgError (Options → Options)

/-- `try`. -/
def tryNumber {α : Type} (parse : String → Option α) (set : Options → α → Options) : Reader :=
  fun v =>
    match parse v with
    | some n => .ok fun opts => set opts n
    | none => .error .invalidNumber

/-- `catch`, with a default. -/
def catchNumber {α : Type} (parse : String → Option α) (fallback : α)
    (set : Options → α → Options) : Reader :=
  fun v => .ok fun opts => set opts ((parse v).getD fallback)

/-- A value that is taken as it is. -/
def textReader (set : Options → String → Options) : Reader := fun v => .ok fun opts => set opts v

/-- A value of which the first byte counts. -/
def byteReader (fallback : UInt8) (set : Options → UInt8 → Options) : Reader :=
  fun v => .ok fun opts => set opts ((Utf8.asBytes v).head?.getD fallback)

/-- `-Z` and `--datafrag-size`. -/
def datafragReader : Reader := fun v =>
  match parseU16 v with
  | some n => .ok fun opts => { opts with datafragSize := n }
  | none => .error .invalidValue

/-! ## The arms -/

/-- The arms without a value. -/
def switches : List (String × (Options → Options)) :=
  [("-P", fun opts => { opts with publish := true }),
    ("-S", fun opts => { opts with subscribe := true }),
    ("-b", fun opts => { opts with bestEffort := true }),
    ("-r", fun opts => { opts with reliable := true }),
    ("-w", fun opts => { opts with printWriterSamples := true }),
    ("-R", fun opts => { opts with readOnly := true }),
    ("--ordered", fun opts => { opts with orderedAccess := true }),
    ("--coherent", fun opts => { opts with coherentAccess := true }),
    ("--take-read", fun opts => { opts with takeRead := true })]

/-- The arms with a value. -/
def readers : List (List String × Reader) :=
  [(["-d"], tryNumber parseU32 fun opts n => { opts with domainId := n }),
    (["-k"], tryNumber parseI32 fun opts n => { opts with historyDepth := n }),
    (["-f", "--deadline"], tryNumber parseU64 fun opts n => { opts with deadlineMs := n }),
    (["-s"], tryNumber parseI32 fun opts n => { opts with ownershipStrength := n }),
    (["-t"], textReader fun opts v => { opts with topicName := v }),
    (["-c"], textReader fun opts v => { opts with color := some v }),
    (["-p"], textReader fun opts v => { opts with partition_ := some v }),
    (["-D"], byteReader 'v'.toUInt8 fun opts b => { opts with durability := b }),
    (["-x"], catchNumber parseU16 1 fun opts n => { opts with dataRepresentation := n }),
    (["-z"], catchNumber parseI32 20 fun opts n => { opts with shapesize := n }),
    (["-n", "--num-instances"],
      catchNumber parseU32 1 fun opts n => { opts with numInstances := n }),
    (["--write-period"], catchNumber parseU64 33 fun opts n => { opts with writePeriodMs := n }),
    (["--read-period"], catchNumber parseU64 100 fun opts n => { opts with readPeriodMs := n }),
    (["--num-iterations", "-i"],
      catchNumber parseI64 (-1) fun opts n => { opts with numIterations := n }),
    (["--additional-payload", "--additional-payload-size"],
      catchNumber parseU32 0 fun opts n => { opts with additionalPayload := n }),
    (["--size-modulo"], catchNumber parseI32 0 fun opts n => { opts with sizeModulo := n }),
    (["--cft"], textReader fun opts v => { opts with cftExpression := some v }),
    (["--time-filter"], catchNumber parseU64 0 fun opts n => { opts with timeFilterMs := n }),
    (["--lifespan"], catchNumber parseU64 0 fun opts n => { opts with lifespanMs := n }),
    (["--final-instance-state"],
      byteReader 0 fun opts b => { opts with finalInstanceState := b }),
    (["--access-scope"], byteReader 'i'.toUInt8 fun opts b => { opts with accessScope := b }),
    (["--num-topics"], catchNumber parseU32 1 fun opts n => { opts with numTopics := n }),
    (["--coherent-sample-count"],
      catchNumber parseU32 0 fun opts n => { opts with coherentSampleCount := n }),
    (["--periodic-announcement"],
      catchNumber parseU32 0 fun opts n => { opts with periodicAnnouncementMs := n }),
    (["-Z", "--datafrag-size"], datafragReader)]

/-- The arm of an option with a value. -/
def readerOf (arg : String) : Option Reader :=
  (readers.find? fun arm => arm.1.contains arg).map Prod.snd

/-! ## The parser -/

/-- What becomes of a command line: the process exits, or the parser returns. -/
inductive Parsed where
  | exited
  | refused (error : ArgError)
  | accepted (opts : Options)

/-- Publisher default color. -/
def defaultColor (opts : Options) : Options :=
  if opts.publish && opts.color = none then { opts with color := some "BLUE" } else opts

/-- The loop of `parseArgs`. -/
def parseFrom : List String → Options → Parsed
  | [], opts => .accepted (defaultColor opts)
  | arg :: rest, opts =>
      match switches.lookup arg with
      | some update => parseFrom rest (update opts)
      | none =>
          match readerOf arg with
          | some reader =>
              match rest with
              | [] => .refused .missingValue
              | v :: rest =>
                  match reader v with
                  | .ok update => parseFrom rest (update opts)
                  | .error error => .refused error
          | none =>
              if arg = "--publisher-matches" ∨ arg = "--subscriber-matches" then
                match rest with
                | [] => .accepted (defaultColor opts)
                | _ :: rest => parseFrom rest opts
              else if arg = "-h" ∨ arg = "--help" then .exited
              else parseFrom rest opts  -- unrecognised

/-- `parseArgs`, after the name of the program. -/
def parseArgs (args : List String) : Parsed := parseFrom args {}

end CommandLine

end DdsRtps.ShapeMain.Zig
