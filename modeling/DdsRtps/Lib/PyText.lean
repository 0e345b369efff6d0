/-
# `DdsRtps.Lib.PyText` — texts and numbers of Python

What a Python program does to texts: `lower`, `split`, `replace`, `zfill`,
`repr`, and `int(text, base)` with the base 16 or 0.  The tables of the
interpreter beyond ASCII are a parameter, and so is the arithmetic of floats:
of a float only what a program can see of it is kept.
-/
import DdsRtps.Lib.PyError
import DdsRtps.Lib.PyUnicode

/-- What a program can see of a float. -/
inductive PyFloat where
  /-- `repr`, whether it is zero, and `int`. -/
  | finite (repr : List Char) (isZero : Bool) (whole : Int)
  | nan
  | inf (negative : Bool)
deriving DecidableEq, Repr

namespace PyFloat

def repr : PyFloat → List Char
  | .finite r _ _ => r
  | .nan => "nan".toList
  | .inf false => "inf".toList
  | .inf true => "-inf".toList

/-- `bool(f)`. -/
def truthy : PyFloat → Bool
  | .finite _ isZero _ => !isZero
  | .nan | .inf _ => true

/-- `int(f)`. -/
def toInt : PyFloat → Except PyError Int
  | .finite _ _ whole => .ok whole
  | .nan => .error .valueError
  | .inf _ => .error .overflowError

end PyFloat

/-- A Python interpreter: its character tables, and its floats. -/
structure PyInterp extends PyUnicode where
  /-- `str.lower`, which is not a function of the characters alone. -/
  lower : List Char → List Char
  /-- The digit a character beyond ASCII stands for in `int(text)`. -/
  decimal : Char → Option Nat
  /-- `str.isdigit` of one character. -/
  isDigit : Char → Bool
  /-- `str.isprintable` of one character beyond ASCII. -/
  isPrintable : Char → Bool
  /-- `float(text)`, unless it raises `ValueError`. -/
  floatOfText : List Char → Option PyFloat
  /-- `float(n)`, unless it raises `OverflowError`. -/
  floatOfInt : Int → Option PyFloat
  lower_ascii : ∀ t : List Char, (∀ c ∈ t, c.toNat < 128) → lower t = t.map Char.toLower
  isDigit_ascii : ∀ c : Char, c.toNat < 128 → isDigit c = c.isDigit

namespace PyInterp

/-- An interpreter without letters beyond ASCII, and without floats. -/
def ascii : PyInterp where
  toPyUnicode := PyUnicode.ascii
  lower t := t.map Char.toLower
  decimal _ := none
  isDigit c := c.isDigit
  isPrintable _ := false
  floatOfText _ := none
  floatOfInt _ := none
  lower_ascii _ _ := rfl
  isDigit_ascii _ _ := rfl

variable (py : PyInterp)

/-! ## Words -/

/-- `t.split()[0]`. -/
def firstWord (t : List Char) : Except PyError (List Char) :=
  match (t.dropWhile py.space).takeWhile fun c => !py.space c with
  | [] => .error .indexError
  | w => .ok w

/-- `t.replace(c, "")`. -/
def delete (c : Char) (t : List Char) : List Char := t.filter (· != c)

/-- `t.isdigit()`. -/
def allDigits (t : List Char) : Bool := !t.isEmpty && t.all py.isDigit

/-- `t.zfill(width)`. -/
def zfill (width : Nat) (t : List Char) : List Char :=
  let zeros := List.replicate (width - t.length) '0'
  match t with
  | '+' :: r => '+' :: (zeros ++ r)
  | '-' :: r => '-' :: (zeros ++ r)
  | r => zeros ++ r

/-- `t.startswith("0x")`. -/
def startsHex (t : List Char) : Bool := "0x".toList.isPrefixOf t

/-- `repr(t)`. -/
def reprText (t : List Char) : List Char :=
  let quote := if '\'' ∈ t ∧ '"' ∉ t then '"' else '\''
  let hex (width : Nat) (c : Char) :=
    List.replicate (width - (Nat.toDigits 16 c.toNat).length) '0' ++ Nat.toDigits 16 c.toNat
  let escape (c : Char) : List Char :=
    if c = quote ∨ c = '\\' then ['\\', c]
    else if c = '\t' then ['\\', 't']
    else if c = '\n' then ['\\', 'n']
    else if c = '\r' then ['\\', 'r']
    else if c.toNat < 32 ∨ c.toNat = 127 then '\\' :: 'x' :: hex 2 c
    else if c.toNat < 127 ∨ py.isPrintable c then [c]
    else if c.toNat < 256 then '\\' :: 'x' :: hex 2 c
    else if c.toNat < 65536 then '\\' :: 'u' :: hex 4 c
    else '\\' :: 'U' :: hex 8 c
  quote :: (t.flatMap escape ++ [quote])

/-! ## Integers -/

/-- `str(n)`. -/
def intText (n : Int) : List Char :=
  (if n < 0 then ['-'] else []) ++ Nat.toDigits 10 n.natAbs

/-- `f"{n:0{width}x}"`; the width counts the sign. -/
def hexText (width : Nat) (n : Int) : List Char :=
  let digits := Nat.toDigits 16 n.natAbs
  let sign := if n < 0 then ['-'] else []
  sign ++ List.replicate (width - sign.length - digits.length) '0' ++ digits

/-- The value of a digit, up to base 36. -/
def digitValue (c : Char) : Option Nat :=
  if c.isDigit then some (c.toNat - 48)
  else if c.isLower then some (c.toNat - 87)
  else if c.isUpper then some (c.toNat - 55)
  else none

/-- Digits, with at most one `_` between two of them: their value and their
number. -/
def readDigits (base value count : Nat) (afterDigit : Bool) : List Char → Option (Nat × Nat)
  | [] => if afterDigit then some (value, count) else none
  | c :: t =>
      if c = '_' then
        if afterDigit then readDigits base value count false t else none
      else
        match digitValue c with
        | some d =>
            if d < base then readDigits base (base * value + d) (count + 1) true t else none
        | none => none

/-- `sys.get_int_max_str_digits()`: a longer decimal number raises. -/
def maxStrDigits : Nat := 4300

/-- Digits after the prefix of their base, where one `_` may stand first. -/
def readPrefixed (base : Nat) (t : List Char) : Option Nat :=
  (readDigits base 0 0 false (if t.head? = some '_' then t.tail else t)).map Prod.fst

/-- A number of base 16, or, with `auto`, of the base that its prefix names. -/
def readNatural (auto : Bool) : List Char → Option Nat
  | '0' :: 'x' :: t | '0' :: 'X' :: t => readPrefixed 16 t
  | t =>
      if auto then
        match t with
        | '0' :: 'o' :: t | '0' :: 'O' :: t => readPrefixed 8 t
        | '0' :: 'b' :: t | '0' :: 'B' :: t => readPrefixed 2 t
        | t =>
            match readDigits 10 0 0 false t with
            | some (n, count) =>
                -- a number that starts with 0 is 0
                if count ≤ maxStrDigits ∧ (t.head? = some '0' → n = 0) then some n else none
            | none => none
      else (readDigits 16 0 0 false t).map Prod.fst

/-- What `int` makes of a character before it looks for digits. -/
def asciiDigit (c : Char) : Char :=
  if c.toNat < 127 then c
  else if py.space c then ' '
  else
    match py.decimal c with
    | some d => Nat.digitChar d
    | none => '?'

/-- The blanks that `int` skips. -/
def isBlank (c : Char) : Bool := [9, 10, 11, 12, 13, 32].contains c.toNat

/-- `int(t, 0)` with `auto`, and else `int(t, 16)`. -/
def readInt (auto : Bool) (t : List Char) : Except PyError Int :=
  let t := ((t.map py.asciiDigit).dropWhile isBlank).reverse.dropWhile isBlank |>.reverse
  let value :=
    match t with
    | '-' :: t => (readNatural auto t).map fun n => -(n : Int)
    | '+' :: t => (readNatural auto t).map fun n => (n : Int)
    | t => (readNatural auto t).map fun n => (n : Int)
  match value with
  | some n => .ok n
  | none => .error .valueError

example : readInt ascii true "0x1F_0".toList = .ok 496 := by decide

example : readInt ascii true "007".toList = .error .valueError := by decide

end PyInterp
