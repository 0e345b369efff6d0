/-
# `DdsRtps.Hdds.Cdr2` — the wire form of a sample, there and back

`encode_cdr2_le` writes a DHEADER, the color with its NUL and padding, three
integers and the payload; `cdr2Bytes` is that byte string, and
`encodeCdr2Le_eq_ok` says the encoder leaves exactly it at the front of any
buffer with room for it.  `decodeFields_eq_ok` reads the fields back at any
multiple of four, which is all the DHEADER shifts them by.

The decoder guesses whether there is a DHEADER from the first four bytes
alone.  On what the encoder wrote the guess is right
(`skipDheader_cdr2Bytes`), and the round trip follows.  On a payload without
DHEADER the same four bytes are the length field of the color, and from 16 on
the guess is wrong; `decode_without_dheader_iff` says this is the only way to
lose such a payload, and that it always loses it.
-/
import DdsRtps.Hdds.ShapeType

namespace DdsRtps.Hdds

open Rust (Result Slice slice copyFromSlice store zeroFill usizeAdd toLeBytes fromLeBytes
  i32ToLeBytes i32FromLeBytes)
open Utf8 (asBytes fromUtf8Lossy)

namespace ShapeType

/-- The padding behind a string of `n` bytes and its NUL. -/
def colorPadding (n : Nat) : Nat := (4 - (n + 1) % 4) % 4

/-- The fields of a sample on the wire, without the DHEADER. -/
def cdr2Fields (v : ShapeType) : List UInt8 :=
  toLeBytes 4 ((asBytes v.color).length + 1) ++ asBytes v.color ++ [0] ++
    List.replicate (colorPadding (asBytes v.color).length) 0 ++
    i32ToLeBytes v.x ++ i32ToLeBytes v.y ++ i32ToLeBytes v.shapesize ++
    toLeBytes 4 v.additionalPayloadSize.length ++ v.additionalPayloadSize

/-- A sample on the wire. -/
def cdr2Bytes (v : ShapeType) : List UInt8 :=
  toLeBytes 4 (cdr2Fields v).length ++ cdr2Fields v

theorem length_cdr2Fields (v : ShapeType) :
    (cdr2Fields v).length = (asBytes v.color).length +
      colorPadding (asBytes v.color).length + v.additionalPayloadSize.length + 21 := by
  simp [cdr2Fields]
  omega

theorem length_cdr2Bytes (v : ShapeType) : (cdr2Bytes v).length = (cdr2Fields v).length + 4 := by
  simp [cdr2Bytes]
  omega

/-- The last field writes nothing when it is empty, and that is as good as
writing it. -/
theorem writeSeq_extend {w rest src : List UInt8} {o : Nat} (ho : o = w.length)
    (hfit : src.length ≤ rest.length) :
    (if src.length > 0 then do
        let dst ← copyFromSlice (ε := CdrError) (w ++ rest) o (o + src.length) src
        .ok (o + src.length, dst)
      else .ok (o, w ++ rest)) =
      .ok (o + src.length, w ++ src ++ rest.drop src.length) := by
  split
  · rw [Rust.copyFromSlice_extend ho rfl hfit, Result.ok_bind]
  · next h =>
      obtain rfl : src = [] := List.length_eq_zero_iff.mp (by omega)
      simp

/-- With room for all of it, the encoder writes the wire form of the sample
at the front of the buffer and leaves the rest alone. -/
theorem encodeCdr2Le_eq_ok {v : ShapeType} {dst : List UInt8}
    (h : (cdr2Bytes v).length ≤ dst.length) :
    v.encodeCdr2Le dst =
      .ok ((cdr2Bytes v).length, cdr2Bytes v ++ dst.drop (cdr2Bytes v).length) := by
  have hlen := length_cdr2Bytes v
  have hfields := length_cdr2Fields v
  have hpad : (4 - (4 + 4 + (asBytes v.color).length + 1) % 4) % 4 =
      colorPadding (asBytes v.color).length := by
    unfold colorPadding
    omega
  obtain ⟨d, rest, rfl, hd⟩ : ∃ d rest, dst = d ++ rest ∧ d.length = 4 :=
    ⟨dst.take 4, dst.drop 4, (List.take_append_drop 4 dst).symm, by simp; omega⟩
  simp only [List.length_append, hd] at h
  unfold encodeCdr2Le
  simp only [Nat.zero_add, hpad]
  -- the header is passed over, and the color written
  rw [if_neg (by simp; omega), if_neg (by simp; omega),
    Rust.copyFromSlice_extend (by simp [hd]) (by simp) (by simp; omega), Result.ok_bind,
    Rust.copyFromSlice_extend (by simp [hd]) (by simp) (by simp; omega), Result.ok_bind,
    Rust.store_extend (by simp [hd]; omega) (by simp; omega), Result.ok_bind,
    Rust.zeroFill_extend (by simp [hd]; omega) (by simp; omega), Result.ok_bind]
  -- x, y, shapesize
  rw [if_neg (by simp; omega),
    Rust.copyFromSlice_extend (by simp [hd]; omega) (by simp) (by simp; omega), Result.ok_bind,
    Rust.copyFromSlice_extend (by simp [hd]; omega) (by simp) (by simp; omega), Result.ok_bind,
    Rust.copyFromSlice_extend (by simp [hd]; omega) (by simp) (by simp; omega), Result.ok_bind]
  -- the payload
  rw [if_neg (by simp; omega),
    Rust.copyFromSlice_extend (by simp [hd]; omega) (by simp) (by simp; omega), Result.ok_bind,
    writeSeq_extend (by simp [hd]; omega) (by simp; omega), Result.ok_bind]
  -- and the header, now that the size is known
  have hsize : 4 + 4 + (asBytes v.color).length + 1 + colorPadding (asBytes v.color).length +
      4 + 4 + 4 + 4 + v.additionalPayloadSize.length = (cdr2Bytes v).length := by omega
  have hrest : 4 + (asBytes v.color).length + 1 + colorPadding (asBytes v.color).length +
      4 + 4 + 4 + 4 + v.additionalPayloadSize.length = (cdr2Fields v).length := by omega
  have hpayload : (cdr2Bytes v).length - 4 = (cdr2Fields v).length := by omega
  simp only [hsize, hpayload, List.append_assoc]
  conv => lhs; lhs; arg 3; rw [← hd]
  rw [Rust.copyFromSlice_front (by simp [hd]), Result.ok_bind]
  have hdrop : (d ++ rest).drop (cdr2Bytes v).length = rest.drop (cdr2Fields v).length := by
    rw [hlen, List.drop_append, List.drop_eq_nil_of_le (by omega), hd, List.nil_append,
      Nat.add_sub_cancel]
  simp only [hdrop, List.drop_drop, Rust.length_toLeBytes, Rust.length_i32ToLeBytes, hrest]
  simp only [cdr2Bytes, cdr2Fields, List.append_assoc]

/-! ## Reading the fields back -/

theorem usizeAdd_eq (src : Slice) {a b : Nat} (ha : a ≤ src.len) (hb : b < 2 ^ 33) :
    usizeAdd (ε := CdrError) a b = .ok (a + b) :=
  Rust.usizeAdd_of_le (ha.trans src.length_le) hb

theorem decodeColor_eq_ok {src : Slice} {o : Nat} {color : String} {tail : List UInt8}
    (h : Rust.At src.bytes o (toLeBytes 4 ((asBytes color).length + 1) ++ (asBytes color ++ ([0] ++
      (List.replicate (colorPadding (asBytes color).length) 0 ++ tail)))))
    (halign : o % 4 = 0) (hsize : (asBytes color).length + 1 < 2 ^ 32) :
    decodeColor src o = .ok (color, o + 4 + (asBytes color).length + 1 +
      colorPadding (asBytes color).length) := by
  have hcolor := h.next (b := o + 4) (by simp)
  have hend : o + 4 + ((asBytes color).length + 1) ≤ src.len := ((hcolor.next rfl).next rfl).le
  rw [decodeColor, usizeAdd_eq src (by omega) (by decide), Result.ok_bind,
    if_neg (by omega), Result.ok_bind, h.slice (by simp)]
  simp only [Result.ok_bind, Rust.fromLeBytes_toLeBytes_of_lt hsize, if_pos (Nat.succ_pos _),
    Nat.add_sub_cancel]
  rw [usizeAdd_eq src (by omega) (by omega), Result.ok_bind, if_neg (by omega),
    usizeAdd_eq src (by omega) (by omega), Result.ok_bind, hcolor.slice rfl]
  simp only [Result.ok_bind, Utf8.fromUtf8Lossy_asBytes]
  have hpadded : (o + 4 + ((asBytes color).length + 1) + 3) / 4 * 4 =
      o + 4 + (asBytes color).length + 1 + colorPadding (asBytes color).length := by
    unfold colorPadding
    omega
  rw [alignTo4, usizeAdd_eq src hend (by decide), Result.ok_bind, Result.ok_bind, hpadded]

theorem decodeI32s_eq_ok {src : Slice} {o : Nat} {x y shapesize : Int32} {tail : List UInt8}
    (h : Rust.At src.bytes o
      (i32ToLeBytes x ++ (i32ToLeBytes y ++ (i32ToLeBytes shapesize ++ tail)))) :
    decodeI32s src o = .ok (x, y, shapesize, o + 4 + 4 + 4) := by
  have hy := h.next (b := o + 4) (by simp)
  have hs := hy.next (b := o + 4 + 4) (by simp)
  have hend : o + 4 + 4 + 4 ≤ src.len := (hs.next (by simp)).le
  rw [decodeI32s, usizeAdd_eq src (by omega) (by decide), Result.ok_bind,
    if_neg (by omega), usizeAdd_eq src (by omega) (by decide), Result.ok_bind,
    h.slice (by simp)]
  simp only [Result.ok_bind]
  rw [usizeAdd_eq src (by omega) (by decide), Result.ok_bind, hy.slice (by simp)]
  simp only [Result.ok_bind]
  rw [usizeAdd_eq src (by omega) (by decide), Result.ok_bind, hs.slice (by simp)]
  simp

theorem decodePayload_eq_ok {src : Slice} {o : Nat} {payload tail : List UInt8}
    (h : Rust.At src.bytes o (toLeBytes 4 payload.length ++ (payload ++ tail)))
    (hsize : payload.length < 2 ^ 32) :
    decodePayload src o = .ok (payload, o + 4 + payload.length) := by
  have hpayload := h.next (b := o + 4) (by simp)
  have hend : o + 4 + payload.length ≤ src.len := (hpayload.next rfl).le
  rw [decodePayload, usizeAdd_eq src (by omega) (by decide), Result.ok_bind,
    if_neg (by omega), Result.ok_bind, h.slice (by simp)]
  simp only [Result.ok_bind, Rust.fromLeBytes_toLeBytes_of_lt hsize]
  split
  · rw [usizeAdd_eq src (by omega) (by omega), Result.ok_bind, if_neg (by omega),
      Result.ok_bind, hpayload.slice rfl]
    simp
  · obtain rfl : payload = [] := List.length_eq_zero_iff.mp (by omega)
    simp

/-- The fields of a sample, at an offset that is a multiple of four and with
anything behind them, are read as that sample. -/
theorem decodeFields_eq_ok {v : ShapeType} {src : Slice} (pre tail : List UInt8)
    (hsrc : src.bytes = pre ++ cdr2Fields v ++ tail) (halign : pre.length % 4 = 0)
    (hsize : (cdr2Fields v).length < 2 ^ 32) :
    decodeFields src pre.length = .ok (v, pre.length + (cdr2Fields v).length) := by
  have hfields := length_cdr2Fields v
  have hcolor := Rust.at_append pre (cdr2Fields v ++ tail)
  rw [← List.append_assoc, ← hsrc] at hcolor
  simp only [cdr2Fields, List.append_assoc] at hcolor
  have hx := (((hcolor.next rfl).next rfl).next rfl).next rfl
  have hseq := ((hx.next rfl).next rfl).next rfl
  simp only [Rust.length_toLeBytes, Rust.length_i32ToLeBytes, List.length_replicate,
    List.length_singleton] at hx hseq
  rw [decodeFields, decodeColor_eq_ok hcolor halign (by omega), Result.ok_bind]
  dsimp only
  rw [decodeI32s_eq_ok hx, Result.ok_bind]
  dsimp only
  rw [decodePayload_eq_ok hseq (by omega), Result.ok_bind, hfields]
  exact congrArg (fun n => Result.ok (v, n)) (by omega)

/-! ## The round trip -/

/-- What the encoder leaves in a fresh buffer of `max_cdr2_size()` bytes. -/
def encoded (v : ShapeType) : List UInt8 :=
  match v.encodeCdr2Le (List.replicate v.maxCdr2Size 0) with
  | .ok (n, dst) => dst.take n
  | _ => []

theorem colorPadding_le (n : Nat) : colorPadding n ≤ 3 := by
  unfold colorPadding
  omega

/-- `max_cdr2_size` covers the worst padding. -/
theorem length_cdr2Bytes_le (v : ShapeType) : (cdr2Bytes v).length ≤ v.maxCdr2Size := by
  have hpad := colorPadding_le (asBytes v.color).length
  rw [length_cdr2Bytes, length_cdr2Fields, maxCdr2Size]
  omega

theorem encoded_eq (v : ShapeType) : encoded v = cdr2Bytes v := by
  rw [encoded, encodeCdr2Le_eq_ok (by simpa using length_cdr2Bytes_le v)]
  simp

/-- On what the encoder wrote the heuristic sees the DHEADER. -/
theorem skipDheader_cdr2Bytes {v : ShapeType} {src : Slice} {tail : List UInt8}
    (hsrc : src.bytes = cdr2Bytes v ++ tail) (hsize : (cdr2Fields v).length < 2 ^ 32) :
    skipDheader src = .ok 4 := by
  have hfields := length_cdr2Fields v
  have hlen : src.len = (cdr2Fields v).length + 4 + tail.length := by
    rw [Slice.len, hsrc, List.length_append, length_cdr2Bytes]
  have hmax : src.len ≤ Rust.isizeMax := src.length_le
  have atHeader : Rust.At src.bytes 0
      (toLeBytes 4 (cdr2Fields v).length ++ (cdr2Fields v ++ tail)) :=
    ⟨Nat.zero_le _, by rw [hsrc, cdr2Bytes, List.append_assoc, List.drop_zero]⟩
  rw [skipDheader, if_neg (by omega), atHeader.slice (by simp), Result.ok_bind]
  simp only [Rust.fromLeBytes_toLeBytes_of_lt hsize]
  rw [if_pos (by omega), Rust.usizeAdd_of_le (by omega) (by decide), Result.ok_bind,
    if_pos (by omega)]
  rfl

theorem decodeCdr2Le_cdr2Bytes {v : ShapeType} {src : Slice} (tail : List UInt8)
    (hsrc : src.bytes = cdr2Bytes v ++ tail) (hsize : (cdr2Bytes v).length < 2 ^ 32) :
    decodeCdr2Le src = .ok (v, (cdr2Bytes v).length) := by
  rw [length_cdr2Bytes] at hsize ⊢
  rw [decodeCdr2Le, skipDheader_cdr2Bytes hsrc (by omega), Result.ok_bind]
  have h := decodeFields_eq_ok (toLeBytes 4 (cdr2Fields v).length) tail hsrc (by simp) (by omega)
  rwa [Rust.length_toLeBytes, Nat.add_comm] at h

/-- **The round trip.**  A sample whose encoding fits the 32-bit lengths of
the format is written into a buffer of `max_cdr2_size()` bytes, and the bytes
written, with anything behind them, are read back as that sample. -/
theorem decodeCdr2Le_encodeCdr2Le (v : ShapeType) (hsize : (encoded v).length < 2 ^ 32)
    (dst : List UInt8) (hdst : dst.length = v.maxCdr2Size) :
    ∃ n out, v.encodeCdr2Le dst = .ok (n, out) ∧
      ∀ (src : Slice) (tail : List UInt8), src.bytes = out.take n ++ tail →
        decodeCdr2Le src = .ok (v, n) := by
  rw [encoded_eq] at hsize
  refine ⟨_, _, encodeCdr2Le_eq_ok (by rw [hdst]; exact length_cdr2Bytes_le v), ?_⟩
  intro src tail hsrc
  rw [List.take_left] at hsrc
  exact decodeCdr2Le_cdr2Bytes _ hsrc hsize

/-- A red circle of size 30 with a payload of two bytes. -/
theorem decodeCdr2Le_encodeCdr2Le_red :
    (encoded ⟨"RED", 10, -5, 30, [7, 255]⟩).length < 2 ^ 32 ∧
      ∃ n out, (⟨"RED", 10, -5, 30, [7, 255]⟩ : ShapeType).encodeCdr2Le (List.replicate 33 0) =
          .ok (n, out) ∧
        ∀ (src : Slice) (tail : List UInt8), src.bytes = out.take n ++ tail →
          decodeCdr2Le src = .ok (⟨"RED", 10, -5, 30, [7, 255]⟩, n) :=
  ⟨by decide, decodeCdr2Le_encodeCdr2Le _ (by decide) _ (by decide)⟩

/-! ## A payload without its DHEADER -/

/-- What the color of a decoder that returns is made of. -/
theorem decodeColor_inv {src : Slice} {o o' : Nat} {color : String}
    (h : decodeColor src o = .ok (color, o')) :
    ∃ strLen, strLen = fromLeBytes ((src.bytes.drop o).take 4) ∧
      color = fromUtf8Lossy ((src.bytes.drop (o + 4)).take (strLen - 1)) ∧
      o' = (o + 4 + strLen + 3) / 4 * 4 := by
  simp only [decodeColor, alignTo4, Result.bind_eq_ok, Result.ite_err_eq_ok, Rust.usizeAdd_eq_ok,
    Rust.slice_eq_ok, Result.ok.injEq, Prod.mk.injEq, and_assoc, exists_and_left,
    exists_eq_left', Nat.add_sub_cancel_left] at h
  obtain ⟨-, -, -, -, -, -, -, -, -, -, -, -, -, hcolor, ho'⟩ := h
  refine ⟨_, rfl, ?_, ho'.symm⟩
  rw [← hcolor]
  congr 2
  split <;> omega

theorem decodeI32s_inv {src : Slice} {o o' : Nat} {x y s : Int32}
    (h : decodeI32s src o = .ok (x, y, s, o')) : o' = o + 4 + 4 + 4 := by
  simp only [decodeI32s, Result.bind_eq_ok, Result.ite_err_eq_ok, Rust.usizeAdd_eq_ok,
    Rust.slice_eq_ok, Result.ok.injEq, Prod.mk.injEq, and_assoc, exists_and_left,
    exists_eq_left'] at h
  omega

/-- The payload a decoder returns lies in the slice. -/
theorem decodePayload_inv {src : Slice} {o o' : Nat} {payload : List UInt8}
    (h : decodePayload src o = .ok (payload, o')) : o + 4 + payload.length ≤ src.len := by
  simp only [decodePayload, Result.bind_eq_ok, Result.ite_err_eq_ok, Rust.usizeAdd_eq_ok,
    Rust.slice_eq_ok, and_assoc, exists_and_left, exists_eq_left'] at h
  obtain ⟨-, hfit, -, -, -, -, h⟩ := h
  split at h
  · simp only [Result.bind_eq_ok, Result.ite_err_eq_ok, Rust.usizeAdd_eq_ok, Rust.slice_eq_ok,
      Result.ok.injEq, Prod.mk.injEq, and_assoc, exists_and_left, exists_eq_left'] at h
    obtain ⟨-, -, -, -, hle, -, rfl, -⟩ := h
    rw [List.length_take, List.length_drop, Slice.len]
    omega
  · simp only [Result.ok.injEq, Prod.mk.injEq] at h
    rw [← h.1, List.length_nil]
    omega

/-- What a decoder that returns has read: the color from its own length
field, and behind it, aligned, sixteen bytes and a payload. -/
theorem decodeFields_inv {src : Slice} {o k : Nat} {w : ShapeType}
    (h : decodeFields src o = .ok (w, k)) :
    ∃ strLen, strLen = fromLeBytes ((src.bytes.drop o).take 4) ∧
      w.color = fromUtf8Lossy ((src.bytes.drop (o + 4)).take (strLen - 1)) ∧
      (o + 4 + strLen + 3) / 4 * 4 + 16 + w.additionalPayloadSize.length ≤ src.len := by
  simp only [decodeFields, Result.bind_eq_ok, Prod.exists, Result.ok.injEq, Prod.mk.injEq] at h
  obtain ⟨color, o₁, hcolor, x, y, s, o₂, hi32s, payload, o₃, hpayload, rfl, -⟩ := h
  obtain ⟨strLen, hstrLen, hcolor', rfl⟩ := decodeColor_inv hcolor
  obtain rfl := decodeI32s_inv hi32s
  have hfit := decodePayload_inv hpayload
  refine ⟨strLen, hstrLen, hcolor', ?_⟩
  show _ + 16 + payload.length ≤ src.len
  omega

/-- The color field, and whatever is behind it. -/
theorem exists_cdr2Fields_eq (v : ShapeType) :
    ∃ post, cdr2Fields v =
      toLeBytes 4 ((asBytes v.color).length + 1) ++ (asBytes v.color ++ ([0] ++ post)) := by
  simp only [cdr2Fields, List.append_assoc]
  exact ⟨_, rfl⟩

/-- Without its DHEADER a payload is taken for one with a DHEADER exactly when
the length field of the color reaches 16. -/
theorem skipDheader_cdr2Fields {v : ShapeType} {src : Slice} (hsrc : src.bytes = cdr2Fields v)
    (hsize : (cdr2Fields v).length < 2 ^ 32) :
    skipDheader src = .ok (if (asBytes v.color).length + 1 ≥ 16 then 4 else 0) := by
  have hfields := length_cdr2Fields v
  have hlen : src.len = (cdr2Fields v).length := by rw [Slice.len, hsrc]
  have hmax : src.len ≤ Rust.isizeMax := src.length_le
  obtain ⟨post, hpost⟩ := exists_cdr2Fields_eq v
  have hstart : Rust.At src.bytes 0
      (toLeBytes 4 ((asBytes v.color).length + 1) ++ (asBytes v.color ++ ([0] ++ post))) :=
    ⟨Nat.zero_le _, by rw [hsrc, hpost, List.drop_zero]⟩
  rw [skipDheader, if_neg (by omega), hstart.slice (by simp), Result.ok_bind]
  simp only [Rust.fromLeBytes_toLeBytes_of_lt (show (asBytes v.color).length + 1 < 2 ^ 32 by omega)]
  split
  · rw [Rust.usizeAdd_of_le (by omega) (by decide), Result.ok_bind, if_pos (by omega)]
    rfl
  · rfl

/-- Four bytes that stand for a number below `0xC0` are that number and three
zeros. -/
theorem bytes_of_fromLeBytes_lt {a b c d : UInt8} (h : fromLeBytes [a, b, c, d] < 0xC0) :
    a.toNat < 0xC0 ∧ b.toNat < 0xC0 ∧ c.toNat < 0xC0 ∧ d.toNat < 0xC0 := by
  simp only [fromLeBytes] at h
  omega

/-- A color of fifteen bytes or more is not read back behind a header that is
not there: what the decoder then takes for the color begins four characters
late and has no room to make up for them. -/
theorem decodeFields_ne_of_long_color {v : ShapeType} {src : Slice} {k : Nat}
    (hsrc : src.bytes = cdr2Fields v) (hlong : 15 ≤ (asBytes v.color).length)
    (hbound : (asBytes v.color).length ≤ 128) : decodeFields src 4 ≠ .ok (v, k) := by
  intro h
  obtain ⟨strLen, hstrLen, hcolor, hfit⟩ := decodeFields_inv h
  have hfields := length_cdr2Fields v
  have hlen : src.len = (cdr2Fields v).length := by rw [Slice.len, hsrc]
  have hle : strLen ≤ (asBytes v.color).length := by
    rw [hlen, hfields] at hfit
    unfold colorPadding at hfit
    omega
  -- the color begins with the four bytes that were taken for its length
  obtain ⟨a, b, c, d, rest, hcolorBytes⟩ :
      ∃ a b c d rest, asBytes v.color = a :: b :: c :: d :: rest := by
    match hb : asBytes v.color, hlong with
    | a :: b :: c :: d :: rest, _ => exact ⟨a, b, c, d, rest, rfl⟩
  obtain ⟨post, hpost⟩ := exists_cdr2Fields_eq v
  have hdrop : src.bytes.drop 4 = asBytes v.color ++ ([0] ++ post) := by
    rw [hsrc, hpost]
    exact List.drop_left' (by simp)
  rw [hdrop, hcolorBytes] at hstrLen
  obtain ⟨ha, hb, hc, hd⟩ := bytes_of_fromLeBytes_lt (a := a) (b := b) (c := c) (d := d) (by
    rw [show [a, b, c, d] = (a :: b :: c :: d :: rest ++ ([0] ++ post)).take 4 from rfl, ← hstrLen]
    omega)
  -- so the color begins with four one-byte characters
  obtain ⟨c₁, cs₁, hchars, h₁⟩ := Utf8.exists_cons_of_flatMap_eq_cons hcolorBytes ha
  obtain ⟨c₂, cs₂, rfl, h₂⟩ := Utf8.exists_cons_of_flatMap_eq_cons h₁ hb
  obtain ⟨c₃, cs₃, rfl, h₃⟩ := Utf8.exists_cons_of_flatMap_eq_cons h₂ hc
  obtain ⟨c₄, cs₄, rfl, hrest⟩ := Utf8.exists_cons_of_flatMap_eq_cons h₃ hd
  have hdrop8 : src.bytes.drop (4 + 4) = cs₄.flatMap String.utf8EncodeChar ++ ([0] ++ post) := by
    rw [← List.drop_drop, hdrop, hcolorBytes, hrest]
    rfl
  have hcount := congrArg List.length (congrArg String.toList hcolor)
  rw [Utf8.fromUtf8Lossy, String.toList_ofList, hchars, hdrop8] at hcount
  have hshort := Utf8.length_lossyChars_take_le cs₄ ([0] ++ post) (strLen - 1) (by
    rw [hrest]
    rw [hcolorBytes] at hle
    simp only [List.length_cons] at hle
    omega)
  simp only [List.length_cons] at hcount
  omega

/-- **What the DHEADER heuristic costs.**  A legal color and its sample are
read from the plain payload as they are from the delimited one exactly when the
color has at most 14 bytes. -/
theorem decode_without_dheader_iff (v : ShapeType) (hcolor : (asBytes v.color).length ≤ 128)
    (hsize : (encoded v).length < 2 ^ 32) (delimited plain : Slice)
    (hdelimited : delimited.bytes = encoded v) (hplain : plain.bytes = (encoded v).drop 4) :
    (∃ w k k', decodeCdr2Le delimited = .ok (w, k) ∧ decodeCdr2Le plain = .ok (w, k')) ↔
      (asBytes v.color).length ≤ 14 := by
  rw [encoded_eq] at hsize hdelimited hplain
  have hdrop : (cdr2Bytes v).drop 4 = cdr2Fields v := List.drop_left' (by simp)
  rw [hdrop] at hplain
  have hlen := length_cdr2Bytes v
  have hfull := decodeCdr2Le_cdr2Bytes [] (by simpa using hdelimited) hsize
  have hheader := skipDheader_cdr2Fields hplain (by omega)
  constructor
  · rintro ⟨w, k, k', hw, hw'⟩
    obtain ⟨rfl, -⟩ := Prod.mk.inj (Result.ok.inj (hfull.symm.trans hw))
    by_contra hlong
    rw [decodeCdr2Le, hheader, if_pos (by omega), Result.ok_bind] at hw'
    exact decodeFields_ne_of_long_color hplain (by omega) hcolor hw'
  · intro hshort
    refine ⟨v, _, (cdr2Fields v).length, hfull, ?_⟩
    rw [decodeCdr2Le, hheader, if_neg (by omega), Result.ok_bind]
    have h := decodeFields_eq_ok [] [] (by simpa using hplain) rfl (by omega)
    rwa [List.length_nil, Nat.zero_add] at h

/-- A sample whose color has fifteen bytes. -/
def olive : ShapeType := ⟨"DARKOLIVEGREEN3", 10, 20, 30, []⟩

theorem decode_without_dheader_iff_olive :
    (∃ w k k', decodeCdr2Le ⟨encoded olive, by decide⟩ = .ok (w, k) ∧
        decodeCdr2Le ⟨(encoded olive).drop 4, by decide⟩ = .ok (w, k')) ↔
      (asBytes olive.color).length ≤ 14 :=
  decode_without_dheader_iff olive (by decide) (by decide) ⟨encoded olive, by decide⟩
    ⟨(encoded olive).drop 4, by decide⟩ rfl rfl

/-- Its plain payload is refused, the first four letters of the color being
taken for a length, while the delimited one is read. -/
theorem olive_plain_refused :
    (asBytes olive.color).length ≤ 128 ∧ (encoded olive).length < 2 ^ 32 ∧
      decodeCdr2Le ⟨encoded olive, by decide⟩ = .ok (olive, 40) ∧
      decodeCdr2Le ⟨(encoded olive).drop 4, by decide⟩ = .err .unexpectedEof ∧
      ¬ ∃ w k k', decodeCdr2Le ⟨encoded olive, by decide⟩ = .ok (w, k) ∧
        decodeCdr2Le ⟨(encoded olive).drop 4, by decide⟩ = .ok (w, k') := by
  have hplain : decodeCdr2Le ⟨(encoded olive).drop 4, by decide⟩ = .err .unexpectedEof := by
    decide
  refine ⟨by decide, by decide, by decide, hplain, ?_⟩
  rintro ⟨w, k, k', -, hw⟩
  rw [hplain] at hw
  cases hw

end ShapeType

end DdsRtps.Hdds
