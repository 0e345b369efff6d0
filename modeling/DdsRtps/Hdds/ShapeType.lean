/-
# `DdsRtps.Hdds.ShapeType` — the sample type of the HDDS shape_main

The type and its three byte-level functions, from srcRs/HDDS/src/main.rs:
`encode_cdr2_le`, `decode_cdr2_le` and `compute_key_hash`.  They are written
as the source writes them: one running `offset`, the length check before each
field, and the writes in between, each of which panics when it leaves the
buffer.  A buffer that is written is returned with the result.

Lengths of things in memory are `Nat`; a length that goes through `as u32` is
cut to 32 bits where the source cuts it.
-/
import DdsRtps.Lib.Rust
import DdsRtps.Lib.Utf8

namespace DdsRtps.Hdds

open Rust (Result Slice slice copyFromSlice copyFromSlice_eq_ok store zeroFill usizeAdd toLeBytes
  fromLeBytes i32ToLeBytes i32FromLeBytes)
open Utf8 (asBytes fromUtf8Lossy)

/-- `struct ShapeType`. -/
structure ShapeType where
  color : String
  x : Int32
  y : Int32
  shapesize : Int32
  additionalPayloadSize : List UInt8
deriving DecidableEq, Repr

/-- The `CdrError`s these functions return. -/
inductive CdrError where
  | bufferTooSmall
  | unexpectedEof
deriving DecidableEq, Repr

namespace ShapeType

/-- `max_cdr2_size`. -/
def maxCdr2Size (self : ShapeType) : Nat :=
  4 +
  4 + (asBytes self.color).length + 1 + 3 +
  12 +
  4 + self.additionalPayloadSize.length

/-- `encode_cdr2_le`: the number of bytes written, and the buffer. -/
def encodeCdr2Le (self : ShapeType) (dst : List UInt8) : Result CdrError (Nat × List UInt8) := do
  let offset := 0
  -- the DHEADER is left open here and filled at the end
  if dst.length < 4 then .err .bufferTooSmall else
  let dheaderPos := offset
  let offset := offset + 4
  let payloadStart := offset
  -- color
  let colorBytes := asBytes self.color
  let strLen := colorBytes.length + 1
  if dst.length < offset + 4 + strLen then .err .bufferTooSmall else
  let dst ← copyFromSlice dst offset (offset + 4) (toLeBytes 4 strLen)
  let offset := offset + 4
  let dst ← copyFromSlice dst offset (offset + colorBytes.length) colorBytes
  let offset := offset + colorBytes.length
  let dst ← store dst offset 0
  let offset := offset + 1
  -- align to 4; no length check stands before this fill
  let padding := (4 - offset % 4) % 4
  let dst ← zeroFill dst offset padding
  let offset := offset + padding
  -- x, y, shapesize
  if dst.length < offset + 12 then .err .bufferTooSmall else
  let dst ← copyFromSlice dst offset (offset + 4) (i32ToLeBytes self.x)
  let offset := offset + 4
  let dst ← copyFromSlice dst offset (offset + 4) (i32ToLeBytes self.y)
  let offset := offset + 4
  let dst ← copyFromSlice dst offset (offset + 4) (i32ToLeBytes self.shapesize)
  let offset := offset + 4
  -- additional_payload_size
  let seqLen := self.additionalPayloadSize.length
  if dst.length < offset + 4 + seqLen then .err .bufferTooSmall else
  let dst ← copyFromSlice dst offset (offset + 4) (toLeBytes 4 seqLen)
  let offset := offset + 4
  let (offset, dst) ← (if seqLen > 0 then do
      let dst ← copyFromSlice dst offset (offset + seqLen) self.additionalPayloadSize
      .ok (offset + seqLen, dst)
    else .ok (offset, dst))
  -- the DHEADER
  let payloadSize := offset - payloadStart
  let dst ← copyFromSlice dst dheaderPos (dheaderPos + 4) (toLeBytes 4 payloadSize)
  .ok (offset, dst)

/-- The DHEADER heuristic of `decode_cdr2_le`: where the fields begin. -/
def skipDheader (src : Slice) : Result CdrError Nat := do
  if src.len < 4 then .err .unexpectedEof else
  let firstU32 := fromLeBytes (← slice src.bytes 0 4)
  if firstU32 ≥ 16 then
    let covered ← usizeAdd firstU32 4
    if covered ≤ src.len then usizeAdd 0 4 else .ok 0
  else .ok 0

/-- `(offset + 3) & !3`. -/
def alignTo4 (offset : Nat) : Result CdrError Nat := do
  let raised ← usizeAdd offset 3
  .ok (raised / 4 * 4)

/-- The color of `decode_cdr2_le`, and the aligned offset behind it. -/
def decodeColor (src : Slice) (offset : Nat) : Result CdrError (String × Nat) := do
  if src.len < (← usizeAdd offset 4) then .err .unexpectedEof else
  let strLen := fromLeBytes (← slice src.bytes offset (← usizeAdd offset 4))
  let offset ← usizeAdd offset 4
  if src.len < (← usizeAdd offset strLen) then .err .unexpectedEof else
  let colorEnd := if strLen > 0 then strLen - 1 else 0
  let color := fromUtf8Lossy (← slice src.bytes offset (← usizeAdd offset colorEnd))
  let offset ← usizeAdd offset strLen
  let offset ← alignTo4 offset
  .ok (color, offset)

/-- `x`, `y` and `shapesize` of `decode_cdr2_le`, and the offset behind them. -/
def decodeI32s (src : Slice) (offset : Nat) : Result CdrError (Int32 × Int32 × Int32 × Nat) := do
  if src.len < (← usizeAdd offset 12) then .err .unexpectedEof else
  let x := i32FromLeBytes (← slice src.bytes offset (← usizeAdd offset 4))
  let offset ← usizeAdd offset 4
  let y := i32FromLeBytes (← slice src.bytes offset (← usizeAdd offset 4))
  let offset ← usizeAdd offset 4
  let shapesize := i32FromLeBytes (← slice src.bytes offset (← usizeAdd offset 4))
  let offset ← usizeAdd offset 4
  .ok (x, y, shapesize, offset)

/-- `additional_payload_size` of `decode_cdr2_le`, and the offset behind it. -/
def decodePayload (src : Slice) (offset : Nat) : Result CdrError (List UInt8 × Nat) := do
  if src.len < (← usizeAdd offset 4) then .err .unexpectedEof else
  let seqLen := fromLeBytes (← slice src.bytes offset (← usizeAdd offset 4))
  let offset ← usizeAdd offset 4
  if seqLen > 0 then
    if src.len < (← usizeAdd offset seqLen) then .err .unexpectedEof else
    let data ← slice src.bytes offset (← usizeAdd offset seqLen)
    let offset ← usizeAdd offset seqLen
    .ok (data, offset)
  else
    .ok ([], offset)

/-- `decode_cdr2_le` behind the heuristic: the fields, from `offset` on. -/
def decodeFields (src : Slice) (offset : Nat) : Result CdrError (ShapeType × Nat) := do
  let (color, offset) ← decodeColor src offset
  let (x, y, shapesize, offset) ← decodeI32s src offset
  let (additionalPayloadSize, offset) ← decodePayload src offset
  .ok (⟨color, x, y, shapesize, additionalPayloadSize⟩, offset)

/-- `decode_cdr2_le`: the value and the number of bytes consumed. -/
def decodeCdr2Le (src : Slice) : Result CdrError (ShapeType × Nat) := do
  let offset ← skipDheader src
  decodeFields src offset

/-- `md5_hash`, as it is built: the package has no feature `xtypes`, and without it there is
no digest. -/
def md5Hash (_data : List UInt8) : Result CdrError (List UInt8) := .panic

/-- `compute_key_hash`. -/
def computeKeyHash (self : ShapeType) : Result CdrError (List UInt8) := do
  let colorBytes := asBytes self.color
  let strLen := (colorBytes.length + 1) % 2 ^ 32
  let serializedLen := 4 + strLen
  let keyBuf := List.replicate serializedLen 0
  let keyBuf ← copyFromSlice keyBuf 0 4 (toLeBytes 4 strLen).reverse
  let keyBuf ← copyFromSlice keyBuf 4 (4 + colorBytes.length) colorBytes
  if serializedLen ≤ 16 then
    copyFromSlice (List.replicate 16 0) 0 serializedLen keyBuf
  else
    md5Hash keyBuf

/-- There is a key hash for a color that fits into it, with its length and a zero; any other
color ends the program. -/
theorem computeKeyHash_ok_iff (self : ShapeType) :
    (∃ keyHash, self.computeKeyHash = .ok keyHash) ↔ (asBytes self.color).length < 12 := by
  have hlength : ∀ n, (toLeBytes 4 n).reverse.length = 4 := fun n => by simp
  constructor
  · intro ⟨keyHash, h⟩
    rw [computeKeyHash, Result.bind_eq_ok] at h
    obtain ⟨keyBuf, hfirst, h⟩ := h
    obtain ⟨-, rfl⟩ := copyFromSlice_eq_ok.mp hfirst
    obtain ⟨keyBuf, hcolor, h⟩ := Result.bind_eq_ok.mp h
    obtain ⟨⟨-, hfits, -⟩, -⟩ := copyFromSlice_eq_ok.mp hcolor
    split at h
    · rename_i hshort
      simp only [List.length_append, List.length_take, List.length_drop, List.length_replicate,
        hlength] at hfits
      omega
    · cases h
  · intro hshort
    have hstrLen : ((asBytes self.color).length + 1) % 2 ^ 32 = (asBytes self.color).length + 1 :=
      Nat.mod_eq_of_lt (by omega)
    have hshort' : 4 + ((asBytes self.color).length + 1) ≤ 16 := by omega
    rw [computeKeyHash, hstrLen]
    simp only [Result.bind_eq_ok, if_pos hshort', copyFromSlice_eq_ok]
    refine ⟨_, _, ⟨⟨by omega, by simp, hlength _⟩, rfl⟩, _, ⟨⟨by omega, ?_, by omega⟩, rfl⟩,
      ⟨by omega, by simpa using hshort', ?_⟩, rfl⟩
    · simp only [List.length_append, List.length_take, List.length_drop, List.length_replicate,
        hlength]
      omega
    · simp only [List.length_append, List.length_take, List.length_drop, List.length_replicate,
        hlength]
      omega

end ShapeType

end DdsRtps.Hdds
