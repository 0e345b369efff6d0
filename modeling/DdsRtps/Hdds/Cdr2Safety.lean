/-
# `DdsRtps.Hdds.Cdr2Safety` — the codec on buffers of every length

The encoder checks the length of its buffer four times and writes the padding
of the color between the second check and the third.  A buffer in which the
color ends but its padding does not passes the one and is not seen by the other
in time: `encodeCdr2Le_of_short` says what a short buffer gives, and
`encodesSafely_iff` that this gap is all that is wrong with it.

The decoder has a check before every read.  One triple for each of its parts
(`ensures_decodeColor` and so on) says where it ends relative to the end of the
slice; only the alignment behind the color can step past it, by three bytes at
most, and the check of the integers catches that.
-/
import DdsRtps.Hdds.Cdr2

namespace DdsRtps.Hdds

open Rust (Result Slice slice copyFromSlice store zeroFill usizeAdd toLeBytes fromLeBytes
  i32ToLeBytes i32FromLeBytes)
open Utf8 (asBytes fromUtf8Lossy)

namespace ShapeType

/-! ## The encoder -/

/-- The bytes of the color on the wire begin at 8; its NUL ends here. -/
def colorEnd (v : ShapeType) : Nat := 8 + (asBytes v.color).length + 1

/-- The buffer ends in the padding behind the color. -/
def EndsInPadding (v : ShapeType) (dst : List UInt8) : Prop :=
  v.colorEnd ≤ dst.length ∧ dst.length < v.colorEnd + colorPadding (asBytes v.color).length

instance (v : ShapeType) (dst : List UInt8) : Decidable (v.EndsInPadding dst) :=
  inferInstanceAs (Decidable (_ ∧ _))

theorem endsInPadding_iff {v : ShapeType} {dst : List UInt8} :
    v.EndsInPadding dst ↔ 9 + (asBytes v.color).length ≤ dst.length ∧
      dst.length < 9 + (asBytes v.color).length + colorPadding (asBytes v.color).length := by
  unfold EndsInPadding colorEnd
  omega

/-- In a buffer that is too short the encoder says so, unless the buffer ends in
the padding of the color: there it writes past the end. -/
theorem encodeCdr2Le_of_short {v : ShapeType} {dst : List UInt8}
    (h : dst.length < (cdr2Bytes v).length) :
    v.encodeCdr2Le dst = if v.EndsInPadding dst then .panic else .err .bufferTooSmall := by
  have hlen := length_cdr2Bytes v
  have hfields := length_cdr2Fields v
  have hgap := @endsInPadding_iff v dst
  have hpad : (4 - (4 + 4 + (asBytes v.color).length + 1) % 4) % 4 =
      colorPadding (asBytes v.color).length := by
    unfold colorPadding
    omega
  unfold encodeCdr2Le
  simp only [Nat.zero_add, hpad]
  -- the DHEADER
  by_cases hheader : dst.length < 4
  · rw [if_pos hheader, if_neg (by rw [hgap]; omega)]
  rw [if_neg hheader]
  -- the color
  by_cases hcolor : dst.length < 4 + 4 + ((asBytes v.color).length + 1)
  · rw [if_pos hcolor, if_neg (by rw [hgap]; omega)]
  rw [if_neg hcolor]
  obtain ⟨d, rest, rfl, hd⟩ : ∃ d rest, dst = d ++ rest ∧ d.length = 4 :=
    ⟨dst.take 4, dst.drop 4, (List.take_append_drop 4 dst).symm, by simp; omega⟩
  simp only [List.length_append, hd] at h hcolor hgap
  rw [Rust.copyFromSlice_extend (by simp [hd]) (by simp) (by simp; omega), Result.ok_bind,
    Rust.copyFromSlice_extend (by simp [hd]) (by simp) (by simp; omega), Result.ok_bind,
    Rust.store_extend (by simp [hd]; omega) (by simp; omega), Result.ok_bind]
  -- its padding, before any check
  by_cases hin : v.EndsInPadding (d ++ rest)
  · have hends := hgap.mp hin
    rw [if_pos hin, Rust.zeroFill_eq_panic (by simp [hd]; omega) (by simp [hd]; omega)]
    rfl
  have hpast := mt hgap.mpr hin
  rw [if_neg hin]
  rw [Rust.zeroFill_extend (by simp [hd]; omega) (by simp; omega), Result.ok_bind]
  -- x, y, shapesize
  by_cases hi32s : rest.length < 5 + (asBytes v.color).length +
      colorPadding (asBytes v.color).length + 12
  · rw [if_pos (by simp [hd]; omega)]
  rw [if_neg (by simp [hd]; omega),
    Rust.copyFromSlice_extend (by simp [hd]; omega) (by simp) (by simp; omega), Result.ok_bind,
    Rust.copyFromSlice_extend (by simp [hd]; omega) (by simp) (by simp; omega), Result.ok_bind,
    Rust.copyFromSlice_extend (by simp [hd]; omega) (by simp) (by simp; omega), Result.ok_bind]
  -- the payload
  rw [if_pos (by simp [hd]; omega)]

/-- What is asked of an encoder: it writes what there is to write when it fits,
reports a buffer that is too small, and panics on none. -/
def EncodesSafely (v : ShapeType) (dst : List UInt8) : Prop :=
  v.encodeCdr2Le dst ≠ .panic ∧
    ((∃ out, v.encodeCdr2Le dst = .ok ((encoded v).length, out)) ↔
      (encoded v).length ≤ dst.length) ∧
    (dst.length < (encoded v).length → v.encodeCdr2Le dst = .err .bufferTooSmall)

/-- **The encoder is safe exactly outside the padding.** -/
theorem encodesSafely_iff (v : ShapeType) (dst : List UInt8) :
    v.EncodesSafely dst ↔ ¬ v.EndsInPadding dst := by
  have hlen := length_cdr2Bytes v
  have hfields := length_cdr2Fields v
  rw [EncodesSafely, encoded_eq]
  rcases Nat.lt_or_ge dst.length (cdr2Bytes v).length with hshort | hroom
  · rw [encodeCdr2Le_of_short hshort]
    by_cases hin : v.EndsInPadding dst
    · simp [hin]
    · simp [hin, hshort]
  · have hin : ¬ v.EndsInPadding dst := by
      rw [endsInPadding_iff]
      omega
    rw [encodeCdr2Le_eq_ok hroom]
    simp [hin, hroom]

/-- A color of four bytes in a buffer of thirteen: the color with its NUL takes
the last byte, and the padding is written behind it. -/
theorem not_encodesSafely_blue :
    (⟨"BLUE", 0, 0, 20, []⟩ : ShapeType).encodeCdr2Le (List.replicate 13 0) = .panic ∧
      ¬ (⟨"BLUE", 0, 0, 20, []⟩ : ShapeType).EncodesSafely (List.replicate 13 0) := by
  have hpanic :
      (⟨"BLUE", 0, 0, 20, []⟩ : ShapeType).encodeCdr2Le (List.replicate 13 0) = .panic := by
    decide
  exact ⟨hpanic, fun h => h.1 hpanic⟩

/-! ## The decoder -/

/-- An offset at most three bytes past a slice, plus a 32-bit length. -/
theorem lt_usizeBound (src : Slice) {o n : Nat} (ho : o ≤ src.len + 3) (hn : n ≤ 2 ^ 32) :
    o + n < Rust.usizeBound := by
  have hmax : src.len ≤ Rust.isizeMax := src.length_le
  rw [Rust.isizeMax] at hmax
  rw [Rust.usizeBound]
  omega

variable (src : Slice)

theorem ensures_skipDheader : (skipDheader src).Ensures (· ≤ src.len) := by
  apply Result.Ensures.ite_err
  intro hlen
  apply (Rust.ensures_slice (Nat.zero_le _) (Nat.le_of_not_lt hlen)).bind
  intro first hfirst
  have hlt := Rust.fromLeBytes_lt_of_length hfirst
  dsimp only
  split
  · apply (Rust.ensures_usizeAdd (by rw [Rust.usizeBound]; omega)).bind
    rintro covered rfl
    split
    · exact (Rust.ensures_usizeAdd (by decide)).imp (by omega)
    · exact Nat.zero_le _
  · exact Nat.zero_le _

theorem ensures_alignTo4 {o : Nat} (ho : o ≤ src.len) :
    (alignTo4 o).Ensures (· ≤ src.len + 3) := by
  apply (Rust.ensures_usizeAdd (lt_usizeBound src (by omega) (by decide))).bind
  rintro raised rfl
  rw [Result.ensures_ok]
  omega

/-- The color ends in the slice, and its padding at most three bytes behind it. -/
theorem ensures_decodeColor {o : Nat} (ho : o ≤ src.len) :
    (decodeColor src o).Ensures (fun (_, o') => o' ≤ src.len + 3) := by
  apply (Rust.ensures_usizeAdd (lt_usizeBound src (by omega) (by decide))).bind
  rintro _ rfl
  apply Result.Ensures.ite_err
  intro hlen
  have hread := Nat.le_of_not_lt hlen
  apply Rust.ensures_readField (lt_usizeBound src (by omega) (by decide)) hread
  intro bytes hbytes
  have hstrLen : Rust.fromLeBytes bytes < 2 ^ 32 := Rust.fromLeBytes_lt_of_length hbytes
  apply (Rust.ensures_usizeAdd (lt_usizeBound src (by omega) (by omega))).bind
  rintro _ rfl
  apply Result.Ensures.ite_err
  intro hstr
  have hend : (if fromLeBytes bytes > 0 then fromLeBytes bytes - 1 else 0) ≤
      fromLeBytes bytes := by
    split <;> omega
  apply (Rust.ensures_usizeAdd (lt_usizeBound src (by omega) (by omega))).bind
  rintro _ rfl
  apply (Rust.ensures_slice (by omega) (show _ ≤ src.len by omega)).bind
  intro color _
  apply (Rust.ensures_usizeAdd (lt_usizeBound src (by omega) (by omega))).bind
  rintro _ rfl
  exact (ensures_alignTo4 src (by omega)).bind fun o' ho' => ho'

/-- Three bytes past the end are as good as the end: the check catches them. -/
theorem ensures_decodeI32s {o : Nat} (ho : o ≤ src.len + 3) :
    (decodeI32s src o).Ensures (fun (_, _, _, o') => o' ≤ src.len) := by
  apply (Rust.ensures_usizeAdd (lt_usizeBound src ho (by decide))).bind
  rintro _ rfl
  apply Result.Ensures.ite_err
  intro hlen
  have hread : o + 4 + 4 + 4 ≤ src.len := Nat.le_of_not_lt hlen
  apply Rust.ensures_readField (lt_usizeBound src ho (by decide)) (show _ ≤ src.len by omega)
  intro x _
  apply Rust.ensures_readField (lt_usizeBound src (by omega) (by decide))
    (show _ ≤ src.len by omega)
  intro y _
  apply Rust.ensures_readField (lt_usizeBound src (by omega) (by decide)) hread
  intro shapesize _
  exact hread

theorem ensures_decodePayload {o : Nat} (ho : o ≤ src.len) :
    (decodePayload src o).Ensures (fun (_, o') => o' ≤ src.len) := by
  apply (Rust.ensures_usizeAdd (lt_usizeBound src (by omega) (by decide))).bind
  rintro _ rfl
  apply Result.Ensures.ite_err
  intro hlen
  have hread := Nat.le_of_not_lt hlen
  apply Rust.ensures_readField (lt_usizeBound src (by omega) (by decide)) hread
  intro bytes hbytes
  have hseqLen : Rust.fromLeBytes bytes < 2 ^ 32 := Rust.fromLeBytes_lt_of_length hbytes
  dsimp only
  split
  · apply (Rust.ensures_usizeAdd (lt_usizeBound src (by omega) (by omega))).bind
    rintro _ rfl
    apply Result.Ensures.ite_err
    intro hseq
    have hfit := Nat.le_of_not_lt hseq
    apply Rust.ensures_readField (lt_usizeBound src (by omega) (by omega)) hfit
    intro data _
    exact hfit
  · exact hread

theorem ensures_decodeFields {o : Nat} (ho : o ≤ src.len) :
    (decodeFields src o).Ensures (fun (_, consumed) => consumed ≤ src.len) := by
  apply (ensures_decodeColor src ho).bind
  rintro ⟨color, o₁⟩ ho₁
  apply (ensures_decodeI32s src ho₁).bind
  rintro ⟨x, y, shapesize, o₂⟩ ho₂
  apply (ensures_decodePayload src ho₂).bind
  rintro ⟨payload, o₃⟩ ho₃
  exact ho₃

/-- **The decoder is safe on every slice**: it does not panic, and what it
consumes is in the slice. -/
theorem decodeCdr2Le_safe :
    decodeCdr2Le src ≠ .panic ∧
      ∀ v consumed, decodeCdr2Le src = .ok (v, consumed) → consumed ≤ src.len := by
  have h : (decodeCdr2Le src).Ensures (fun (_, consumed) => consumed ≤ src.len) :=
    (ensures_skipDheader src).bind fun o ho => ensures_decodeFields src ho
  rw [Result.ensures_iff] at h
  exact ⟨h.1, fun v consumed hok => h.2 (v, consumed) hok⟩

end ShapeType

end DdsRtps.Hdds
