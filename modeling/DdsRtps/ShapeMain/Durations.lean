/-
# `DdsRtps.ShapeMain.Durations` — from milliseconds to the periods of the QoS

`--deadline`, `--lifespan` and `--time-filter` are given in milliseconds.  The
parsers of srcCxx/shape_main.cxx and srcC/shape_main.c keep microseconds in a
`useconds_t`, which has 32 bits, and the QoS are set from these.

What is kept is the product modulo 2^32, so a period is exact up to 4294967 ms; the
C++ parser multiplies the lifespan as an int, which is undefined from 2147484 ms
on (`periods_exact_iff`).
-/
import DdsRtps.Lib.CInt

namespace DdsRtps.ShapeMain

/-- The options that are periods. -/
inductive Period where
  | timeFilter
  | deadline
  | lifespan
deriving DecidableEq, Repr

/-! ## C++ -/

namespace Cxx

/-- `timebasedfilter_interval_us`, from what the parser has read. -/
def timebasedfilterIntervalUs (convertedParam : Int32) : UInt32 := convertedParam.toUInt32 * 1000

/-- `deadline_interval_us`. -/
def deadlineIntervalUs (convertedParam : Int32) : UInt32 := convertedParam.toUInt32 * 1000

/-- `lifespan_us`. -/
def lifespanUs (convertedParam : Int32) : Option UInt32 :=
  (CInt.mul convertedParam 1000).map Int32.toUInt32

/-- What the parser keeps of an option. -/
def periodUs : Period → Int32 → Option UInt32
  | .timeFilter, convertedParam => some (timebasedfilterIntervalUs convertedParam)
  | .deadline, convertedParam => some (deadlineIntervalUs convertedParam)
  | .lifespan, convertedParam => lifespanUs convertedParam

/-- `parse_ok`, as far as a period is concerned. -/
def parseOk (convertedParam : Int32) : Bool := !(convertedParam < 0)

/-- A duration of the QoS. -/
structure Duration where
  sec : Int32
  nanosec : UInt32
deriving DecidableEq, Repr

/-- What a product that has the QoS sets; nothing, if there is no period. -/
def setPeriod (us : UInt32) : Option Duration :=
  if us > 0 then
    some { sec := (us / 1000000).toInt32, nanosec := us % 1000000 * 1000 }
  else none

end Cxx

/-! ## C -/

namespace C

/-- `timebasedfilter_interval_us`, `deadline_interval_us` and `lifespan_us`: the product
has 64 bits, and 32 of them are kept. -/
def periodUs (timeInput : Int64) : UInt32 := (timeInput * 1000).toUInt64.toUInt32

/-- `parse_ok`, as far as a period is concerned. -/
def parseOk (timeInput : Int64) : Bool := !(timeInput < 0)

/-- The nanoseconds that are passed on. -/
def periodNs (us : UInt32) : Int64 := us.toUInt64.toInt64 * 1000

/-- `set_time_based_filter`. -/
def setTimeBasedFilter (ns : Int64) : Option Int64 := if ns ≥ 0 then some ns else none

/-- `set_deadline_interval`. -/
def setDeadlineInterval (ns : Int64) : Option Int64 := if ns > 0 then some ns else none

/-- `set_lifespan`. -/
def setLifespan (ns : Int64) : Option Int64 := if ns > 0 then some ns else none

/-- What is set, if anything. -/
def setPeriod : Period → Int64 → Option Int64
  | .timeFilter => setTimeBasedFilter
  | .deadline => setDeadlineInterval
  | .lifespan => setLifespan

end C

/-! ## Exact periods -/

/-- The C++ application accepts so many milliseconds, and sets as many. -/
def Cxx.Exact (period : Period) (ms : Nat) : Prop :=
  Cxx.parseOk (Int32.ofNat ms) = true ∧
    ∃ us, Cxx.periodUs period (Int32.ofNat ms) = some us ∧
      match Cxx.setPeriod us with
      | none => ms = 0
      | some duration => ms ≠ 0 ∧ duration.nanosec.toNat < 10 ^ 9 ∧
          duration.sec.toInt * 10 ^ 9 + duration.nanosec.toNat = ms * 10 ^ 6

/-- The C application does.  A filter of 0 is what there is by default. -/
def C.Exact (period : Period) (ms : Nat) : Prop :=
  C.parseOk (Int64.ofNat ms) = true ∧
    match C.setPeriod period (C.periodNs (C.periodUs (Int64.ofNat ms))) with
    | none => ms = 0
    | some ns => (ms = 0 → period = .timeFilter) ∧ ns.toInt = ms * 10 ^ 6

/-- The longest exact period, in milliseconds. -/
def Period.longest : Period → Nat
  | .timeFilter => 4294967
  | .deadline => 4294967
  | .lifespan => 2147483

variable {ms : Nat}

/-! ## Seconds and nanoseconds -/

/-- The split by seconds loses nothing. -/
theorem cxx_setPeriod_of_pos {us : UInt32} (h : 0 < us.toNat) :
    ∃ duration, Cxx.setPeriod us = some duration ∧ duration.nanosec.toNat < 10 ^ 9 ∧
      duration.sec.toInt * 10 ^ 9 + duration.nanosec.toNat = us.toNat * 1000 := by
  have hpos : us > 0 := UInt32.lt_iff_toNat_lt.mpr h
  have hlt := us.toNat_lt
  refine ⟨_, if_pos hpos, ?_⟩
  have hsec : (us / 1000000).toInt32.toInt = (us.toNat / 1000000 : Nat) := by
    rw [← UInt32.ofNat_toNat (x := us / 1000000), UInt32.toInt32_ofNat', UInt32.toNat_div]
    refine Int32.toInt_ofNat_of_lt ?_
    show us.toNat / 1000000 < 2 ^ 31
    omega
  have hnanosec : (us % 1000000 * 1000).toNat = us.toNat % 1000000 * 1000 := by
    rw [UInt32.toNat_mul, UInt32.toNat_mod]
    exact Nat.mod_eq_of_lt (by
      have := Nat.mod_lt us.toNat (show 0 < 1000000 by decide)
      show us.toNat % 1000000 * 1000 < 2 ^ 32
      omega)
  show (us % 1000000 * 1000).toNat < 10 ^ 9 ∧ (us / 1000000).toInt32.toInt * 10 ^ 9 +
    ((us % 1000000 * 1000).toNat : Int) = us.toNat * 1000
  rw [hsec, hnanosec]
  omega

theorem cxx_setPeriod_of_zero {us : UInt32} (h : us.toNat = 0) : Cxx.setPeriod us = none := by
  refine if_neg fun hpos => ?_
  have hlt := UInt32.lt_iff_toNat_lt.mp hpos
  rw [h] at hlt
  exact Nat.not_lt_zero _ hlt

theorem c_periodNs_toInt (us : UInt32) : (C.periodNs us).toInt = us.toNat * 1000 := by
  have hlt := us.toNat_lt
  have hus : us.toUInt64.toInt64.toInt = us.toNat := by
    rw [← UInt64.ofNat_toNat (x := us.toUInt64), UInt64.toInt64_ofNat', UInt32.toNat_toUInt64]
    exact Int64.toInt_ofNat_of_lt (Nat.lt_trans hlt (by decide))
  have hthousand : (1000 : Int64).toInt = 1000 := by decide
  rw [C.periodNs, Int64.toInt_mul, hus, hthousand]
  exact Int.bmod_eq_of_le (by omega) (by omega)

/-! ## What is kept -/

theorem c_periodUs_toNat :
    (C.periodUs (Int64.ofNat ms)).toNat = ms * 1000 % 2 ^ 32 := by
  have hproduct : Int64.ofNat ms * 1000 = Int64.ofNat (ms * 1000) := (Int64.ofNat_mul ms 1000).symm
  rw [C.periodUs, hproduct, Int64.toUInt64_ofNat', UInt64.toNat_toUInt32, UInt64.toNat_ofNat']
  omega

theorem cxx_periodUs_toNat : ((Int32.ofNat ms).toUInt32 * 1000).toNat = ms * 1000 % 2 ^ 32 := by
  rw [UInt32.toNat_mul, Int32.toUInt32_ofNat', UInt32.toNat_ofNat']
  exact Nat.mod_mul_mod ms 1000 (2 ^ 32)

theorem cxx_lifespanUs (h : ms < 2 ^ 31) :
    Cxx.lifespanUs (Int32.ofNat ms) =
      if ms ≤ 2147483 then some ((Int32.ofNat ms).toUInt32 * 1000) else none := by
  have hms : (Int32.ofNat ms).toInt = ms := Int32.toInt_ofNat_of_lt h
  have hthousand : (1000 : Int32).toInt = 1000 := by decide
  rw [Cxx.lifespanUs, CInt.mul, hms, hthousand]
  split
  · have hrange : CInt.InRange ((ms : Int) * 1000) := ⟨by omega, by omega⟩
    rw [CInt.ofInt?_of_inRange hrange, Option.map_some, Int32.ofInt_mul, Int32.ofInt_eq_ofNat,
      Int32.toUInt32_mul]
    rfl
  · have hrange : ¬CInt.InRange ((ms : Int) * 1000) := fun hrange => by
      have := hrange.2
      omega
    rw [CInt.ofInt?_of_not_inRange hrange]
    rfl

/-! ## Exact periods -/

/-- 32 bits hold the microseconds, or fewer of them. -/
theorem kept_eq_iff : ms * 1000 % 2 ^ 32 = ms * 1000 ↔ ms ≤ 4294967 := by
  rw [Nat.mod_eq_iff_lt (by decide)]
  omega

/-- What is kept comes to the period in nanoseconds if it is all of it. -/
theorem kept_mul_eq_iff {kept : Nat} (h : kept = ms * 1000 % 2 ^ 32) :
    (kept : Int) * 1000 = ms * 10 ^ 6 ↔ ms ≤ 4294967 := by
  rw [← kept_eq_iff, ← h]
  omega

/-- Where nothing is kept, all is only if there was nothing. -/
theorem eq_zero_iff_of_kept (h : ms * 1000 % 2 ^ 32 = 0) : ms = 0 ↔ ms ≤ 4294967 := by
  rw [← kept_eq_iff, h, eq_comm (a := 0), Nat.mul_eq_zero, or_iff_left (by decide)]

/-- What the C++ application sets, from the microseconds that it has kept. -/
theorem cxx_set_iff {us : UInt32} (hus : us.toNat = ms * 1000 % 2 ^ 32) :
    (match Cxx.setPeriod us with
      | none => ms = 0
      | some duration => ms ≠ 0 ∧ duration.nanosec.toNat < 10 ^ 9 ∧
          duration.sec.toInt * 10 ^ 9 + duration.nanosec.toNat = ms * 10 ^ 6) ↔ ms ≤ 4294967 := by
  rcases Nat.eq_zero_or_pos us.toNat with hzero | hpos
  · rw [cxx_setPeriod_of_zero hzero]
    exact eq_zero_iff_of_kept (hus.symm.trans hzero)
  · obtain ⟨duration, hset, hnanosec, htotal⟩ := cxx_setPeriod_of_pos hpos
    rw [hset]
    show ms ≠ 0 ∧ duration.nanosec.toNat < 10 ^ 9 ∧
      duration.sec.toInt * 10 ^ 9 + duration.nanosec.toNat = ms * 10 ^ 6 ↔ _
    have hne : ms ≠ 0 := by
      rintro rfl
      exact Nat.ne_of_gt hpos hus
    rw [htotal, kept_mul_eq_iff hus, and_iff_right hne, and_iff_right hnanosec]

theorem cxx_exact_iff (period : Period) (h : ms < 2 ^ 31) :
    Cxx.Exact period ms ↔ ms ≤ period.longest := by
  have hms : (Int32.ofNat ms).toInt = ms := Int32.toInt_ofNat_of_lt h
  have haccepted : Cxx.parseOk (Int32.ofNat ms) = true := by
    have hnot : ¬Int32.ofNat ms < 0 := by
      rw [Int32.lt_iff_toInt_lt, hms, Int32.toInt_zero]
      omega
    simp [Cxx.parseOk, hnot]
  rw [Cxx.Exact, and_iff_right haccepted]
  cases period with
  | timeFilter =>
      simp only [Cxx.periodUs, Option.some.injEq, exists_eq_left']
      exact cxx_set_iff cxx_periodUs_toNat
  | deadline =>
      simp only [Cxx.periodUs, Option.some.injEq, exists_eq_left']
      exact cxx_set_iff cxx_periodUs_toNat
  | lifespan =>
      simp only [Cxx.periodUs, cxx_lifespanUs h, Period.longest]
      split
      · rename_i hlow
        simp only [Option.some.injEq, exists_eq_left']
        refine (cxx_set_iff cxx_periodUs_toNat).trans ?_
        omega
      · rename_i hhigh
        simp [hhigh]

/-- What the C application sets of a period that is set only if there is one. -/
theorem c_set_iff {period : Period} {ns : Int64} {kept : Nat} (hkept : kept = ms * 1000 % 2 ^ 32)
    (hns : ns.toInt = kept * 1000) :
    (match if ns > 0 then some ns else none with
      | none => ms = 0
      | some ns => (ms = 0 → period = .timeFilter) ∧ ns.toInt = ms * 10 ^ 6) ↔ ms ≤ 4294967 := by
  have hpos : ns > 0 ↔ 0 < ns.toInt := by
    rw [gt_iff_lt, Int64.lt_iff_toInt_lt, Int64.toInt_zero]
  by_cases hset : ns > 0
  · have hset' := hpos.mp hset
    rw [if_pos hset]
    have hne : ms ≠ 0 := by
      rintro rfl
      rw [hns, hkept] at hset'
      exact absurd hset' (by decide)
    show (ms = 0 → period = .timeFilter) ∧ ns.toInt = ms * 10 ^ 6 ↔ _
    rw [hns, kept_mul_eq_iff hkept, and_iff_right fun hzero => absurd hzero hne]
  · have hset' := mt hpos.mpr hset
    have hzero : kept = 0 := by
      clear hkept
      omega
    rw [if_neg hset]
    exact eq_zero_iff_of_kept (hkept.symm.trans hzero)

theorem c_exact_iff (period : Period) (h : ms < 2 ^ 31) :
    C.Exact period ms ↔ ms ≤ 4294967 := by
  have hms : (Int64.ofNat ms).toInt = ms :=
    Int64.toInt_ofNat_of_lt (Nat.lt_trans h (by decide))
  have haccepted : C.parseOk (Int64.ofNat ms) = true := by
    have hnot : ¬Int64.ofNat ms < 0 := by
      rw [Int64.lt_iff_toInt_lt, hms, Int64.toInt_zero]
      omega
    simp [C.parseOk, hnot]
  have hkept : (C.periodUs (Int64.ofNat ms)).toNat = ms * 1000 % 2 ^ 32 := c_periodUs_toNat
  have hns := c_periodNs_toInt (C.periodUs (Int64.ofNat ms))
  rw [C.Exact, and_iff_right haccepted]
  generalize C.periodNs (C.periodUs (Int64.ofNat ms)) = ns at hns
  cases period with
  | timeFilter =>
      have hset : C.setPeriod .timeFilter ns = some ns := by
        refine if_pos ?_
        rw [ge_iff_le, Int64.le_iff_toInt_le, Int64.toInt_zero]
        omega
      rw [hset]
      show (ms = 0 → Period.timeFilter = .timeFilter) ∧ ns.toInt = ms * 10 ^ 6 ↔ _
      rw [hns, kept_mul_eq_iff hkept, and_iff_right fun _ => rfl]
  | deadline => exact c_set_iff hkept hns
  | lifespan => exact c_set_iff hkept hns

/-- **Durations are exact** up to the longest period that the microseconds hold, and no
further. -/
theorem periods_exact_iff (period : Period) (h : ms < 2 ^ 31) :
    Cxx.Exact period ms ∧ C.Exact period ms ↔ ms ≤ period.longest := by
  rw [cxx_exact_iff period h, c_exact_iff period h]
  cases period with
  | timeFilter => exact and_self_iff
  | deadline => exact and_self_iff
  | lifespan =>
      show ms ≤ 2147483 ∧ ms ≤ 4294967 ↔ ms ≤ 2147483
      omega

theorem periods_exact_hour :
    Cxx.Exact .deadline 3600000 ∧ C.Exact .deadline 3600000 ↔ 3600000 ≤ Period.longest .deadline :=
  periods_exact_iff .deadline (by decide)

/-- A deadline of 4294968 ms is set to 704 µs. -/
theorem not_periods_exact :
    ¬ ∀ (period : Period) (ms : Nat), ms < 2 ^ 31 → Cxx.Exact period ms ∧ C.Exact period ms := by
  intro h
  obtain ⟨-, us, hus, hset⟩ := (h .deadline 4294968 (by decide)).1
  obtain rfl := Option.some.inj hus
  have hshort : Cxx.setPeriod (Cxx.deadlineIntervalUs (Int32.ofNat 4294968)) =
      some ⟨0, 704000⟩ := by decide
  rw [hshort] at hset
  exact absurd hset.2.2 (by decide)

end DdsRtps.ShapeMain
