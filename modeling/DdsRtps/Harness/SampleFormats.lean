/-
# `DdsRtps.Harness.SampleFormats` — the line of a sample in three languages

The subscriber of srcZig/shape_main.zig beside those of `SampleLines`.  For the
coordinates it has `{d:0>3}`, which fills with zeros on the left whatever stands
there; so that a sign is not printed among them, it casts `x` and `y` to `u32`
first, and the cast of a negative number panics.  A line goes through a buffer of
2048 bytes, and what does not fit is dropped without a message.

The C++ and the HDDS subscribers print each valid sample; C++ goes on to say so
if its instance is gone.  The Zig subscriber says that the instance is gone in
place of the sample.
-/
import DdsRtps.Harness.SampleLines
import DdsRtps.ShapeMain.Drain
import Mathlib.Data.List.TakeDrop

namespace DdsRtps.Harness

open ShapeMain (InstanceState)

/-! ## The code -/

namespace Zig

/-- `@as(u32, @intCast(x))`; a negative number panics. -/
def intCast (x : Int32) : Option UInt32 := if 0 ≤ x then some x.toUInt32 else none

/-- `{s:<10}`, the width in bytes. -/
def formatString (s : String) : List Char :=
  s.toList ++ List.replicate (10 - (Utf8.asBytes s).length) ' '

/-- `{d:0>3}`. -/
def formatCoordinate (n : UInt32) : List Char :=
  List.replicate (3 - (Nat.toDigits 10 n.toNat).length) '0' ++ Nat.toDigits 10 n.toNat

/-- `last_byte`. -/
def lastByte (payload : List UInt8) : Option UInt8 :=
  if payload.length > 0 then payload[payload.length - 1]? else none

/-- `stdoutPrint`, of a text in ASCII. -/
def stdoutPrint (text : List Char) : List Char := text.take 2048

/-- `state_str`. -/
def stateStr (state : InstanceState) : String :=
  if state = .notAliveDisposed then "NOT_ALIVE_DISPOSED_INSTANCE_STATE"
  else "NOT_ALIVE_NO_WRITERS_INSTANCE_STATE"

/-- What is printed for an instance that is gone; `cached` is the color that `ih_to_color` has
for its handle. -/
def printNotAlive (state : InstanceState) (cached : Option String) (r : Received) : List Char :=
  let keyColor := if r.sample.color = "" then cached.getD r.sample.color else r.sample.color
  stdoutPrint (formatString r.topic ++ [' '] ++ formatString keyColor ++ [' '] ++
    (stateStr state).toList ++ ['\n'])

/-- What is printed for a sample that is handed out. -/
def printSample (state : InstanceState) (cached : Option String) (r : Received) :
    Option (List Char) :=
  if state = .notAliveNoWriters ∨ state = .notAliveDisposed then
    -- the sample is not printed: `continue`
    some (printNotAlive state cached r)
  else do
    let x ← intCast r.sample.x
    let y ← intCast r.sample.y
    let line := formatString r.topic ++ [' '] ++ formatString r.sample.color ++ [' '] ++
      formatCoordinate x ++ [' '] ++ formatCoordinate y ++ [' ', '['] ++
      showInt r.sample.shapesize.toInt ++ [']']
    match lastByte r.sample.additionalPayloadSize with
    | some lb =>
        return stdoutPrint (line ++ " \x7b".toList ++ Nat.toDigits 10 lb.toNat ++ "\x7d\n".toList)
    | none => return stdoutPrint (line ++ ['\n'])

end Zig

/-! ## Lines of the same text -/

/-- A string in ASCII, as a string of the IDL without a zero. -/
def Ascii (s : String) : Prop := ∀ c ∈ s.toList, 0 < c.toNat ∧ c.toNat < 128

instance (s : String) : Decidable (Ascii s) :=
  List.decidableBAll (fun c : Char => 0 < c.toNat ∧ c.toNat < 128) s.toList

/-- A sample with strings in ASCII. -/
structure AsciiReceived extends Received where
  topic_ascii : Ascii topic
  color_ascii : Ascii sample.color

theorem Ascii.length_asBytes {s : String} (h : Ascii s) :
    (Utf8.asBytes s).length = s.toList.length := by
  have hone : ∀ c ∈ s.toList, (String.utf8EncodeChar c).length = 1 := by
    intro c hc
    rw [String.length_utf8EncodeChar, Char.utf8Size_eq_one_iff, UInt32.le_iff_toNat_le]
    exact Nat.le_of_lt_succ (h c hc).2
  rw [Utf8.asBytes, List.length_flatMap, List.map_congr_left hone, List.map_const']
  simp

theorem lastByte_eq (payload : List UInt8) : Zig.lastByte payload = payload.getLast? := by
  rw [Zig.lastByte, List.getLast?_eq_getElem?]
  split
  · rfl
  · rename_i hnot
    have hnil : payload = [] := List.length_eq_zero_iff.mp (Nat.eq_zero_of_not_pos hnot)
    rw [hnil]
    rfl

theorem formatCoordinate_eq {x : Int32} (h : 0 ≤ x.toInt) :
    Zig.formatCoordinate x.toUInt32 = showInt03 x.toInt := by
  obtain ⟨n, hn⟩ := Int.eq_ofNat_of_zero_le h
  have hnat : x.toUInt32.toNat = n := by
    have hle : 0 ≤ x := by rwa [Int32.le_iff_toInt_le, Int32.toInt_zero]
    rw [Int32.toNat_toUInt32_of_le hle, Int32.toNatClampNeg, hn, Int.toNat_natCast]
  rw [Zig.formatCoordinate, hnat, hn]
  rfl

/-- The number of characters that are printed for a payload. -/
def payloadLength (payload : List UInt8) : Nat :=
  match payload.getLast? with
  | none => 0
  | some byte => 3 + (Nat.toDigits 10 byte.toNat).length

/-- The number of characters of a line. -/
def Received.lineLength (r : Received) : Nat :=
  max 10 r.topic.toList.length + max 10 r.sample.color.toList.length +
    max 3 (showInt r.sample.x.toInt).length + max 3 (showInt r.sample.y.toInt).length +
    (showInt r.sample.shapesize.toInt).length + payloadLength r.sample.additionalPayloadSize + 6

theorem length_showInt03 (n : Int) : (showInt03 n).length = max 3 (showInt n).length := by
  cases n with
  | ofNat n =>
      rw [showInt03, showInt, List.length_append, List.length_replicate]
      omega
  | negSucc n =>
      rw [showInt03, showInt, List.length_cons, List.length_append, List.length_replicate,
        List.length_cons]
      omega

/-- A number begins with a digit or a sign. -/
theorem exists_showInt03 (n : Int) : ∃ c t, showInt03 n = c :: t ∧ c ≠ 'N' := by
  cases n with
  | ofNat n =>
      obtain ⟨hne, hdigits⟩ := showInt03_of_nonneg (Int.natCast_nonneg n)
      obtain ⟨c, t, heq⟩ := List.exists_cons_of_ne_nil hne
      refine ⟨c, t, heq, ?_⟩
      rintro rfl
      have hdigit := hdigits 'N' (heq ▸ List.mem_cons_self)
      revert hdigit
      decide
  | negSucc n => exact ⟨'-', _, rfl, by decide⟩

theorem length_payloadSuffix (payload : List UInt8) :
    (payloadSuffix payload).length = payloadLength payload := by
  rw [payloadSuffix, payloadLength]
  cases payload.getLast? with
  | none => rfl
  | some byte =>
      show ([' ', '\x7b'] ++ Nat.toDigits 10 byte.toNat ++ ['\x7d']).length =
        3 + (Nat.toDigits 10 byte.toNat).length
      rw [List.length_append, List.length_append, List.length_cons, List.length_singleton,
        List.length_singleton]
      omega

namespace AsciiReceived

variable (r : AsciiReceived)

/-- Bytes and characters are the same in ASCII. -/
theorem padded_eq {s : String} (h : Ascii s) (sub : Subscriber) :
    padded sub s = s.toList ++ List.replicate (10 - s.toList.length) ' ' := by
  rw [padded]
  cases sub with
  | cxx => rw [Subscriber.width, h.length_asBytes]
  | hdds => rfl

theorem formatString_eq {s : String} (h : Ascii s) (sub : Subscriber) :
    Zig.formatString s = padded sub s := by
  rw [padded_eq h, Zig.formatString, h.length_asBytes]

theorem length_padded {s : String} (h : Ascii s) (sub : Subscriber) :
    (padded sub s).length = max 10 s.toList.length := by
  rw [padded_eq h, List.length_append, List.length_replicate]
  omega

/-- The C++ and the HDDS subscribers print the same line. -/
theorem line_eq (sub : Subscriber) : r.line sub = r.line .cxx := by
  rw [Received.line, Received.line, padded_eq r.topic_ascii, padded_eq r.topic_ascii,
    padded_eq r.color_ascii, padded_eq r.color_ascii]

theorem length_line (sub : Subscriber) : (r.line sub).length = r.lineLength := by
  simp only [Received.line, Received.lineLength, List.length_append, List.length_cons,
    List.length_nil, length_padded r.topic_ascii, length_padded r.color_ascii, length_showInt03,
    length_payloadSuffix]
  omega

/-- What the Zig subscriber prints of an instance that is alive, where it does not panic. -/
theorem printSample_eq (hx : 0 ≤ r.sample.x.toInt) (hy : 0 ≤ r.sample.y.toInt)
    (cached : Option String) :
    Zig.printSample .alive cached r.toReceived =
      some (Zig.stdoutPrint (r.line .cxx ++ ['\n'])) := by
  have hcast : ∀ x : Int32, 0 ≤ x.toInt → Zig.intCast x = some x.toUInt32 := by
    intro x hx
    refine if_pos ?_
    rwa [Int32.le_iff_toInt_le, Int32.toInt_zero]
  rw [Zig.printSample, if_neg (by decide), hcast _ hx, hcast _ hy, lastByte_eq, Received.line,
    payloadSuffix, ← formatString_eq r.topic_ascii, ← formatString_eq r.color_ascii,
    ← formatCoordinate_eq hx, ← formatCoordinate_eq hy]
  cases r.sample.additionalPayloadSize.getLast? with
  | none => simp
  | some byte => simp

theorem printSample_eq_none (h : ¬(0 ≤ r.sample.x.toInt ∧ 0 ≤ r.sample.y.toInt))
    (cached : Option String) : Zig.printSample .alive cached r.toReceived = none := by
  have hpanic : ∀ x : Int32, ¬0 ≤ x.toInt → Zig.intCast x = none := by
    intro x hx
    refine if_neg ?_
    rwa [Int32.le_iff_toInt_le, Int32.toInt_zero]
  rw [Zig.printSample, if_neg (by decide)]
  by_cases hx : 0 ≤ r.sample.x.toInt
  · rw [hpanic r.sample.y fun hy => h ⟨hx, hy⟩]
    cases Zig.intCast r.sample.x with
    | none => rfl
    | some x => rfl
  · rw [hpanic r.sample.x hx]
    rfl

theorem stdoutPrint_prefix_of_eq {text out : List Char} (h : Zig.stdoutPrint text = out) :
    out <+: text := h ▸ List.take_prefix 2048 text

/-- The line of an instance that is gone is not that of a sample: behind the color stands a
letter, and no number. -/
theorem printNotAlive_ne (state : InstanceState) :
    Zig.printNotAlive state none r.toReceived ≠ r.line .cxx ++ ['\n'] := by
  have hcolor : (if r.sample.color = "" then (none : Option String).getD r.sample.color
      else r.sample.color) = r.sample.color := ite_self _
  obtain ⟨letters, hletters⟩ : ∃ letters, (Zig.stateStr state).toList = 'N' :: letters := by
    unfold Zig.stateStr
    split <;> exact ⟨_, rfl⟩
  obtain ⟨c, number, hnumber, hc⟩ := exists_showInt03 r.sample.x.toInt
  intro h
  rw [Zig.printNotAlive, hcolor, formatString_eq r.topic_ascii .cxx,
    formatString_eq r.color_ascii .cxx, hletters, Received.line, hnumber] at h
  have hline := stdoutPrint_prefix_of_eq h
  simp only [List.append_assoc, List.cons_append, List.prefix_append_right_inj,
    List.nil_append, List.cons_prefix_cons] at hline
  exact hc hline.2.2.1

theorem printSample_of_ne_alive {state : InstanceState} (h : state ≠ .alive)
    (cached : Option String) (r : Received) :
    Zig.printSample state cached r = some (Zig.printNotAlive state cached r) := by
  refine if_pos ?_
  cases state with
  | alive => exact absurd rfl h
  | notAliveNoWriters => exact .inl rfl
  | notAliveDisposed => exact .inr rfl

/-- A sample at the left of the border. -/
def atMinusOne : AsciiReceived where
  topic := "Square"
  sample := { color := "BLUE", x := -1, y := 2, shapesize := 20, additionalPayloadSize := [] }
  topic_ascii := by decide
  color_ascii := by decide

end AsciiReceived

end DdsRtps.Harness
