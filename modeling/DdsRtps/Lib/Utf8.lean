/-
# `DdsRtps.Lib.Utf8` — the bytes of a string, and reading them back leniently

`asBytes` is the UTF-8 image of a string.  `fromUtf8Lossy` reads any bytes:
a well-formed sequence is its character, and what is not well formed becomes
U+FFFD, one for each maximal subpart (the rule of the Unicode standard that
Rust's `String::from_utf8_lossy` follows).

Two facts are used: well-formed bytes are read back as they were written
(`fromUtf8Lossy_asBytes`), and a cut through a string costs at most three
characters at the cut (`length_lossyChars_take_le`).
-/
import Mathlib.Data.List.Basic

namespace Utf8

/-- `s.as_bytes()`. -/
def asBytes (s : String) : List UInt8 := s.toList.flatMap String.utf8EncodeChar

/-- The character whose UTF-8 image the bytes begin with, if they do. -/
def decodeChar? (bs : List UInt8) : Option Char := bs.toByteArray.utf8DecodeChar? 0

/-- `b` is between `lo` and `hi`. -/
def inRange (lo hi b : UInt8) : Bool := lo ≤ b && b ≤ hi

/-- Which second bytes may follow the first byte `b₀` of a sequence of three
or four. -/
def secondOk (b₀ b₁ : UInt8) : Bool :=
  if b₀ = 0xE0 then inRange 0xA0 0xBF b₁
  else if b₀ = 0xED then inRange 0x80 0x9F b₁
  else if b₀ = 0xF0 then inRange 0x90 0xBF b₁
  else if b₀ = 0xF4 then inRange 0x80 0x8F b₁
  else inRange 0x80 0xBF b₁

/-- The length of the maximal subpart that ill-formed bytes begin with: as much
as could still have become a sequence, and at least one byte. -/
def badLen : List UInt8 → Nat
  | b₀ :: b₁ :: b₂ :: _ =>
      if inRange 0xE0 0xEF b₀ then (if secondOk b₀ b₁ then 2 else 1)
      else if inRange 0xF0 0xF4 b₀ then
        (if secondOk b₀ b₁ then (if inRange 0x80 0xBF b₂ then 3 else 2) else 1)
      else 1
  | [b₀, b₁] => if inRange 0xE0 0xF4 b₀ && secondOk b₀ b₁ then 2 else 1
  | _ => 1

/-- The characters of `String::from_utf8_lossy`; the first argument counts the
bytes of the current sequence that are still to be passed over. -/
def lossyChars : Nat → List UInt8 → List Char
  | _, [] => []
  | n + 1, _ :: bs => lossyChars n bs
  | 0, b :: bs =>
      match decodeChar? (b :: bs) with
      | some c => c :: lossyChars (c.utf8Size - 1) bs
      | none => '\uFFFD' :: lossyChars (badLen (b :: bs) - 1) bs

/-- `String::from_utf8_lossy`. -/
def fromUtf8Lossy (bs : List UInt8) : String := String.ofList (lossyChars 0 bs)

theorem decodeChar?_encode_append (c : Char) (bs : List UInt8) :
    decodeChar? (String.utf8EncodeChar c ++ bs) = some c := by
  rw [decodeChar?, List.toByteArray_append]
  exact ByteArray.utf8DecodeChar?_utf8EncodeChar_append

theorem lossyChars_skip : ∀ (skip bs : List UInt8),
    lossyChars skip.length (skip ++ bs) = lossyChars 0 bs
  | [], _ => rfl
  | _ :: skip, bs => lossyChars_skip skip bs

/-- A well-formed sequence is read as its character. -/
theorem lossyChars_encode_append (c : Char) (bs : List UInt8) :
    lossyChars 0 (String.utf8EncodeChar c ++ bs) = c :: lossyChars 0 bs := by
  have hdec := decodeChar?_encode_append c bs
  have hlen := String.length_utf8EncodeChar c
  cases henc : String.utf8EncodeChar c with
  | nil =>
      rw [henc] at hlen
      have hpos := c.utf8Size_pos
      simp at hlen
      omega
  | cons b enc =>
      rw [henc] at hdec hlen
      rw [List.cons_append, lossyChars, ← List.cons_append, hdec]
      simp only [List.length_cons] at hlen
      show c :: lossyChars (c.utf8Size - 1) (enc ++ bs) = _
      rw [← hlen, Nat.add_sub_cancel, lossyChars_skip]

theorem lossyChars_encode (cs : List Char) (bs : List UInt8) :
    lossyChars 0 (cs.flatMap String.utf8EncodeChar ++ bs) = cs ++ lossyChars 0 bs := by
  induction cs with
  | nil => rfl
  | cons c cs ih =>
      rw [List.flatMap_cons, List.append_assoc, lossyChars_encode_append, ih, List.cons_append]

/-- What was written as a string is read back as that string. -/
@[simp] theorem fromUtf8Lossy_asBytes (s : String) : fromUtf8Lossy (asBytes s) = s := by
  have h := lossyChars_encode s.toList []
  simp only [List.append_nil, lossyChars] at h
  rw [fromUtf8Lossy, asBytes, h, String.ofList_toList]

/-- No more characters than bytes. -/
theorem length_lossyChars_le : ∀ (n : Nat) (bs : List UInt8),
    (lossyChars n bs).length ≤ bs.length
  | _, [] => by simp [lossyChars]
  | n + 1, _ :: bs => Nat.le_succ_of_le (length_lossyChars_le n bs)
  | 0, b :: bs => by
      rw [lossyChars]
      split
      · simpa using length_lossyChars_le _ bs
      · simpa using length_lossyChars_le _ bs

/-- A cut through a string, or up to three bytes behind it, leaves at most
three characters that are not of the string. -/
theorem length_lossyChars_take_le : ∀ (cs : List Char) (bs : List UInt8) (k : Nat),
    k ≤ (cs.flatMap String.utf8EncodeChar).length + 3 →
      (lossyChars 0 ((cs.flatMap String.utf8EncodeChar ++ bs).take k)).length ≤ cs.length + 3
  | [], bs, k, hk => by
      have hle := length_lossyChars_le 0 (bs.take k)
      have htake := List.length_take_le k bs
      simp only [List.flatMap_nil, List.nil_append, List.length_nil] at hk ⊢
      omega
  | c :: cs, bs, k, hk => by
      have hc := c.utf8Size_le_four
      rw [List.flatMap_cons, List.length_append, String.length_utf8EncodeChar] at hk
      rw [List.flatMap_cons, List.append_assoc, List.length_cons]
      by_cases hcut : k < (String.utf8EncodeChar c).length
      · -- the cut is inside `c`
        have hle := length_lossyChars_le 0
          ((String.utf8EncodeChar c ++ (cs.flatMap String.utf8EncodeChar ++ bs)).take k)
        have htake := List.length_take_le k
          (String.utf8EncodeChar c ++ (cs.flatMap String.utf8EncodeChar ++ bs))
        rw [String.length_utf8EncodeChar] at hcut
        omega
      · rw [List.take_append, List.take_of_length_le (Nat.le_of_not_lt hcut),
          lossyChars_encode_append, List.length_cons]
        have ih := length_lossyChars_take_le cs bs (k - (String.utf8EncodeChar c).length)
          (by rw [String.length_utf8EncodeChar]; omega)
        omega

/-- A byte below `0xC0` that begins a string is a whole character. -/
theorem utf8EncodeChar_eq_of_lt {c : Char} {b : UInt8} {bs : List UInt8}
    (h : String.utf8EncodeChar c = b :: bs) (hb : b.toNat < 0xC0) : bs = [] := by
  unfold String.utf8EncodeChar at h
  dsimp only at h
  split at h
  · exact (List.cons.inj h).2.symm
  · exfalso
    -- every longer sequence begins with `0xC0` or more
    split at h
    · rw [← (List.cons.inj h).1, UInt8.toNat_ofNat'] at hb
      omega
    · split at h
      · rw [← (List.cons.inj h).1, UInt8.toNat_ofNat'] at hb
        omega
      · rw [← (List.cons.inj h).1, UInt8.toNat_ofNat'] at hb
        omega

theorem exists_cons_of_flatMap_eq_cons {cs : List Char} {b : UInt8} {bs : List UInt8}
    (h : cs.flatMap String.utf8EncodeChar = b :: bs) (hb : b.toNat < 0xC0) :
    ∃ c cs', cs = c :: cs' ∧ cs'.flatMap String.utf8EncodeChar = bs := by
  cases cs with
  | nil => simp at h
  | cons c cs' =>
      refine ⟨c, cs', rfl, ?_⟩
      rw [List.flatMap_cons] at h
      have hlen := String.length_utf8EncodeChar c
      have hpos := c.utf8Size_pos
      cases henc : String.utf8EncodeChar c with
      | nil =>
          rw [henc] at hlen
          simp at hlen
          omega
      | cons b' enc =>
          rw [henc, List.cons_append] at h
          obtain ⟨rfl, hrest⟩ := List.cons.inj h
          rw [utf8EncodeChar_eq_of_lt henc hb, List.nil_append] at hrest
          exact hrest

end Utf8
