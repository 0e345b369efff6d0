/-
# `DdsRtps.Lib.Rust` — the Rust under byte-level code

Just enough of the language to translate a serialiser line by line: a result
that may also be a panic, `usize` addition that panics when it overflows,
ranges of a slice that panic when they are out of bounds, and the
little-endian images of fixed-width integers.

A slice is never longer than `isize::MAX` bytes.  That is a fact of the
language and not a check of any program, so it is a field of `Slice`; what it
buys is `usizeAdd_of_le`, that an offset inside a slice plus a 32-bit length
cannot overflow.

Reading goes by `At`, which says what a slice reads from a position on:
`At.slice` takes the next segment and `At.next` passes over it.  Writing goes
by `copyFromSlice_extend`: a write just behind what has been written extends
it and leaves the rest alone.

`Ensures` is the triple of this little language: no panic, and what holds of
the value when there is one.  Its rules follow a body statement by statement.
-/
import Mathlib.Tactic.Ring
import Mathlib.Tactic.NormNum

namespace Rust

/-! ## Results and panics -/

/-- `Result<α, ε>`, or a panic. -/
inductive Result (ε α : Type) where
  | ok (a : α)
  | err (e : ε)
  | panic
deriving DecidableEq, Repr

namespace Result

variable {ε α β : Type}

/-- `?` : an error or a panic is passed on. -/
def bind (x : Result ε α) (f : α → Result ε β) : Result ε β :=
  match x with
  | .ok a => f a
  | .err e => .err e
  | .panic => .panic

instance : Monad (Result ε) where
  pure := .ok
  bind := bind

@[simp] theorem ok_bind (a : α) (f : α → Result ε β) : (ok a >>= f) = f a := rfl
@[simp] theorem err_bind (e : ε) (f : α → Result ε β) : (err e >>= f) = err e := rfl
@[simp] theorem panic_bind (f : α → Result ε β) : (panic >>= f) = panic := rfl
@[simp] theorem pure_eq (a : α) : (pure a : Result ε α) = ok a := rfl

theorem bind_eq_ok {x : Result ε α} {f : α → Result ε β} {b : β} :
    (x >>= f) = ok b ↔ ∃ a, x = ok a ∧ f a = ok b := by
  cases x <;> simp

/-- An early `return Err(e)`. -/
theorem ite_err_eq_ok {c : Prop} [Decidable c] {e : ε} {x : Result ε α} {a : α} :
    (if c then .err e else x) = ok a ↔ ¬ c ∧ x = ok a := by
  split <;> simp_all

/-! ### Triples -/

/-- `x` does not panic, and the value it returns, if any, has `P`. -/
def Ensures (P : α → Prop) : Result ε α → Prop
  | .ok a => P a
  | .err _ => True
  | .panic => False

@[simp] theorem ensures_ok {P : α → Prop} {a : α} : Ensures P (ok a : Result ε α) ↔ P a := Iff.rfl
@[simp] theorem ensures_err {P : α → Prop} {e : ε} : Ensures P (err e : Result ε α) := trivial
@[simp] theorem not_ensures_panic {P : α → Prop} : ¬ Ensures P (panic : Result ε α) := id

theorem Ensures.bind {P : α → Prop} {Q : β → Prop} {x : Result ε α} {f : α → Result ε β}
    (hx : Ensures P x) (hf : ∀ a, P a → Ensures Q (f a)) : Ensures Q (x >>= f) := by
  cases x with
  | ok a => exact hf a hx
  | err e => trivial
  | panic => exact hx.elim

theorem Ensures.imp {P Q : α → Prop} {x : Result ε α} (hx : Ensures P x)
    (h : ∀ a, P a → Q a) : Ensures Q x := by
  cases x with
  | ok a => exact h a hx
  | err e => trivial
  | panic => exact hx.elim

/-- An early `return Err(e)`: behind it its condition is false. -/
theorem Ensures.ite_err {P : α → Prop} {c : Prop} [Decidable c] {e : ε} {x : Result ε α}
    (h : ¬ c → Ensures P x) : Ensures P (if c then .err e else x) := by
  split
  · trivial
  · next hc => exact h hc

theorem ensures_iff {P : α → Prop} {x : Result ε α} :
    Ensures P x ↔ x ≠ panic ∧ ∀ a, x = ok a → P a := by
  cases x <;> simp

end Result

/-! ## `usize` -/

/-- `usize::MAX + 1` on a 64-bit target. -/
def usizeBound : Nat := 2 ^ 64

/-- `isize::MAX` on a 64-bit target. -/
def isizeMax : Nat := 2 ^ 63 - 1

/-- `a + b` on `usize`. -/
def usizeAdd {ε : Type} (a b : Nat) : Result ε Nat :=
  if a + b < usizeBound then .ok (a + b) else .panic

/-- A borrowed run of bytes. -/
structure Slice where
  bytes : List UInt8
  length_le : bytes.length ≤ isizeMax

/-- `s.len()`. -/
def Slice.len (s : Slice) : Nat := s.bytes.length

theorem usizeAdd_of_le {ε : Type} {a b : Nat} (ha : a ≤ isizeMax) (hb : b < 2 ^ 33) :
    usizeAdd (ε := ε) a b = .ok (a + b) := by
  rw [usizeAdd, if_pos]
  rw [isizeMax] at ha
  rw [usizeBound]
  omega

theorem usizeAdd_eq_ok {ε : Type} {a b c : Nat} :
    usizeAdd (ε := ε) a b = .ok c ↔ a + b < usizeBound ∧ a + b = c := by
  unfold usizeAdd
  split <;> simp_all

theorem ensures_usizeAdd {ε : Type} {a b : Nat} (h : a + b < usizeBound) :
    (usizeAdd (ε := ε) a b).Ensures (· = a + b) := by
  rw [usizeAdd, if_pos h]
  rfl

/-! ## Ranges -/

/-- `&s[a..b]`. -/
def slice {ε : Type} (s : List UInt8) (a b : Nat) : Result ε (List UInt8) :=
  if a ≤ b ∧ b ≤ s.length then .ok ((s.drop a).take (b - a)) else .panic

/-- `dst[a..b].copy_from_slice(src)`. -/
def copyFromSlice {ε : Type} (dst : List UInt8) (a b : Nat) (src : List UInt8) :
    Result ε (List UInt8) :=
  if a ≤ b ∧ b ≤ dst.length ∧ src.length = b - a then
    .ok (dst.take a ++ src ++ dst.drop b)
  else .panic

theorem copyFromSlice_eq_ok {ε : Type} {dst src r : List UInt8} {a b : Nat} :
    copyFromSlice (ε := ε) dst a b src = .ok r ↔
      (a ≤ b ∧ b ≤ dst.length ∧ src.length = b - a) ∧ dst.take a ++ src ++ dst.drop b = r := by
  unfold copyFromSlice
  split <;> simp_all

/-- `dst[i] = x`. -/
def store {ε : Type} (dst : List UInt8) (i : Nat) (x : UInt8) : Result ε (List UInt8) :=
  if i < dst.length then .ok (dst.set i x) else .panic

/-- `for i in 0..n { dst[offset + i] = 0; }`. -/
def zeroFill {ε : Type} (dst : List UInt8) (offset : Nat) : Nat → Result ε (List UInt8)
  | 0 => .ok dst
  | n + 1 => do
      let dst ← zeroFill dst offset n
      store dst (offset + n) 0

section Ranges
variable {ε : Type}

/-- From the position `a` on, `s` reads `rest`. -/
structure At (s : List UInt8) (a : Nat) (rest : List UInt8) : Prop where
  le : a ≤ s.length
  drop_eq : s.drop a = rest

theorem at_append (pre rest : List UInt8) : At (pre ++ rest) pre.length rest where
  le := by simp
  drop_eq := by simp

/-- Passing over a segment. -/
theorem At.next {s mid post : List UInt8} {a b : Nat} (h : At s a (mid ++ post))
    (hb : b = a + mid.length) : At s b post := by
  have hlen := congrArg List.length h.drop_eq
  have hle := h.le
  rw [List.length_drop, List.length_append] at hlen
  subst hb
  refine ⟨by omega, ?_⟩
  rw [← List.drop_drop, h.drop_eq]
  simp

/-- Reading a segment. -/
theorem At.slice {s mid post : List UInt8} {a b : Nat} (h : At s a (mid ++ post))
    (hb : b = a + mid.length) : slice (ε := ε) s a b = .ok mid := by
  have hnext := (h.next hb).le
  subst hb
  rw [Rust.slice, if_pos ⟨by omega, hnext⟩, h.drop_eq]
  simp

theorem slice_eq_ok {s t : List UInt8} {a b : Nat} :
    slice (ε := ε) s a b = .ok t ↔ (a ≤ b ∧ b ≤ s.length) ∧ (s.drop a).take (b - a) = t := by
  unfold slice
  split <;> simp_all

theorem ensures_slice {s : List UInt8} {a b : Nat} (ha : a ≤ b) (hb : b ≤ s.length) :
    (slice (ε := ε) s a b).Ensures (·.length = b - a) := by
  rw [slice, if_pos ⟨ha, hb⟩, Result.ensures_ok, List.length_take, List.length_drop]
  omega

/-- Reading a field and stepping over it: `s[a..a + n]`, then `a += n`. -/
theorem ensures_readField {α : Type} {P : α → Prop} {s : List UInt8} {a n : Nat}
    {f : List UInt8 → Nat → Result ε α} (hmax : a + n < usizeBound) (hfit : a + n ≤ s.length)
    (hf : ∀ bytes, bytes.length = n → (f bytes (a + n)).Ensures P) :
    (usizeAdd a n >>= fun e => slice s a e >>= fun bytes =>
      usizeAdd a n >>= fun a' => f bytes a').Ensures P := by
  apply (ensures_usizeAdd hmax).bind
  rintro _ rfl
  apply (ensures_slice (Nat.le_add_right a n) hfit).bind
  intro bytes hbytes
  apply (ensures_usizeAdd hmax).bind
  rintro _ rfl
  exact hf bytes (by rw [hbytes, Nat.add_sub_cancel_left])

/-- A write just behind what has been written. -/
theorem copyFromSlice_extend {w rest src : List UInt8} {a b : Nat} (ha : a = w.length)
    (hb : b = a + src.length) (hfit : src.length ≤ rest.length) :
    copyFromSlice (ε := ε) (w ++ rest) a b src = .ok (w ++ src ++ rest.drop src.length) := by
  subst ha hb
  rw [copyFromSlice, if_pos]
  · simp
  · simp only [List.length_append]
    omega

theorem store_extend {w rest : List UInt8} {i : Nat} {x : UInt8} (hi : i = w.length)
    (hfit : 0 < rest.length) :
    store (ε := ε) (w ++ rest) i x = .ok (w ++ [x] ++ rest.drop 1) := by
  subst hi
  cases rest with
  | nil => simp at hfit
  | cons r rest =>
      rw [store, if_pos (by simp)]
      simp

theorem zeroFill_extend {w rest : List UInt8} {o : Nat} (ho : o = w.length) :
    ∀ {n : Nat}, n ≤ rest.length →
      zeroFill (ε := ε) (w ++ rest) o n = .ok (w ++ List.replicate n 0 ++ rest.drop n) := by
  intro n
  induction n with
  | zero =>
      intro _
      simp [zeroFill]
  | succ n ih =>
      intro hn
      rw [zeroFill, ih (by omega), Result.ok_bind,
        store_extend (by simp [ho]) (by simp; omega), List.drop_drop, List.replicate_succ',
        List.append_assoc w]

/-- A fill that begins inside the buffer and does not end there panics. -/
theorem zeroFill_eq_panic {dst : List UInt8} {o : Nat} (ho : o ≤ dst.length) :
    ∀ {n : Nat}, dst.length < o + n → zeroFill (ε := ε) dst o n = .panic := by
  intro n
  induction n with
  | zero => intro h; omega
  | succ n ih =>
      intro h
      rw [zeroFill]
      by_cases hn : dst.length < o + n
      · rw [ih hn]
        rfl
      · -- the first `n` bytes fit, and the last is one too many
        have hlen : o = (dst.take o).length := by rw [List.length_take, Nat.min_eq_left ho]
        have hfit : n ≤ (dst.drop o).length := by
          rw [List.length_drop]
          omega
        have hfill := zeroFill_extend (ε := ε) hlen hfit
        rw [List.take_append_drop] at hfill
        rw [hfill, Result.ok_bind, store, if_neg]
        simp only [List.length_append, ← hlen, List.length_replicate, List.length_drop]
        omega

/-- Filling a field at the very beginning, after the fact. -/
theorem copyFromSlice_front {w rest src : List UInt8} (h : src.length = w.length) :
    copyFromSlice (ε := ε) (w ++ rest) 0 w.length src = .ok (src ++ rest) := by
  rw [copyFromSlice, if_pos (by simp [h])]
  simp

end Ranges

/-! ## Little-endian images -/

/-- The `k` low bytes of `n`, the lowest first: `to_le_bytes`. -/
def toLeBytes : Nat → Nat → List UInt8
  | 0, _ => []
  | k + 1, n => UInt8.ofNat n :: toLeBytes k (n / 256)

/-- The number a little-endian image stands for: `from_le_bytes`. -/
def fromLeBytes : List UInt8 → Nat
  | [] => 0
  | b :: bs => b.toNat + 256 * fromLeBytes bs

@[simp] theorem length_toLeBytes : ∀ k n : Nat, (toLeBytes k n).length = k
  | 0, _ => rfl
  | k + 1, n => by simp [toLeBytes, length_toLeBytes k]

theorem fromLeBytes_toLeBytes : ∀ k n : Nat, fromLeBytes (toLeBytes k n) = n % 256 ^ k
  | 0, n => by simp [toLeBytes, fromLeBytes, Nat.mod_one]
  | k + 1, n => by
      rw [toLeBytes, fromLeBytes, fromLeBytes_toLeBytes k, Nat.pow_succ, Nat.mul_comm (256 ^ k),
        Nat.mod_mul]
      simp

theorem fromLeBytes_toLeBytes_of_lt {n : Nat} (h : n < 2 ^ 32) :
    fromLeBytes (toLeBytes 4 n) = n := by
  rw [fromLeBytes_toLeBytes]
  exact Nat.mod_eq_of_lt h

theorem fromLeBytes_lt : ∀ bs : List UInt8, fromLeBytes bs < 256 ^ bs.length
  | [] => by simp [fromLeBytes]
  | b :: bs => by
      have hb := b.toNat_lt
      have hbs := fromLeBytes_lt bs
      rw [fromLeBytes, List.length_cons, Nat.pow_succ]
      omega

/-- A `u32` is below `2 ^ 32`. -/
theorem fromLeBytes_lt_of_length {bs : List UInt8} (h : bs.length = 4) :
    fromLeBytes bs < 2 ^ 32 := by
  have hlt := fromLeBytes_lt bs
  rw [h] at hlt
  exact hlt

/-- `i32::to_le_bytes`. -/
def i32ToLeBytes (x : Int32) : List UInt8 := toLeBytes 4 x.toBitVec.toNat

/-- `i32::from_le_bytes`. -/
def i32FromLeBytes (bs : List UInt8) : Int32 := Int32.ofBitVec (BitVec.ofNat 32 (fromLeBytes bs))

@[simp] theorem length_i32ToLeBytes (x : Int32) : (i32ToLeBytes x).length = 4 := by
  simp [i32ToLeBytes]

@[simp] theorem i32FromLeBytes_i32ToLeBytes (x : Int32) : i32FromLeBytes (i32ToLeBytes x) = x := by
  rw [i32FromLeBytes, i32ToLeBytes, fromLeBytes_toLeBytes_of_lt x.toBitVec.isLt]
  simp

end Rust
