/-
# `DdsRtps.ShapeMain.CoherentCalls` — whether coherent sets are closed

The calls of a publisher fall into sets, from `begin_coherent_changes` to
`end_coherent_changes`, unless one is begun within another, ended without being
begun, or open when instances are unregistered or at the end (`scan`).

The C++ publisher ends a set only in the turn that completes it.  A run that
stops before leaves its last set open, and after 2^32 turns the number of the
turn starts again, perhaps within a set (`sets_closed_iff`).
-/
import DdsRtps.ShapeMain.Cxx

namespace DdsRtps.ShapeMain

/-! ## Sets of calls -/

/-- The sets so far, and the one that is open. -/
structure Scan where
  opened : Option (List Call)
  sets : List (List Call)
deriving DecidableEq, Repr

/-- Reads a call. -/
def Scan.read : Scan → Call → Option Scan
  | ⟨none, sets⟩, .beginCoherentChanges => some ⟨some [], sets⟩
  | ⟨none, _⟩, .endCoherentChanges => none
  | ⟨none, sets⟩, _ => some ⟨none, sets⟩
  | ⟨some set, sets⟩, .endCoherentChanges => some ⟨none, sets ++ [set]⟩
  | ⟨some set, sets⟩, .write i j shape => some ⟨some (set ++ [.write i j shape]), sets⟩
  | ⟨some _, _⟩, _ => none

/-- Reads several calls. -/
def Scan.readAll (s : Scan) (calls : List Call) : Option Scan := calls.foldlM Scan.read s

/-- The sets of all calls. -/
def scan (calls : List Call) : Option Scan := Scan.readAll ⟨none, []⟩ calls

/-- The sets are begun and ended in turn, none is left open, and each has so
many samples of every instance of every topic. -/
def ClosedAndComplete (count numTopics numInstances : Nat) (calls : List Call) : Prop :=
  ∃ sets, scan calls = some ⟨none, sets⟩ ∧
    ∀ set ∈ sets, ∀ i < numTopics, ∀ j < numInstances, set.countP (Call.writesTo i j) = count

theorem Scan.readAll_append (s : Scan) (calls calls' : List Call) :
    s.readAll (calls ++ calls') = (s.readAll calls).bind fun s' => s'.readAll calls' :=
  List.foldlM_append

/-- A call that writes. -/
def Call.isWrite : Call → Bool
  | .write _ _ _ => true
  | _ => false

/-- A call after the loop. -/
def Call.isFinal : Call → Bool
  | .unregisterInstance _ _ => true
  | .dispose _ _ => true
  | _ => false

theorem Scan.readAll_writes_opened {calls : List Call} (h : ∀ call ∈ calls, call.isWrite = true)
    (set : List Call) (sets : List (List Call)) :
    Scan.readAll ⟨some set, sets⟩ calls = some ⟨some (set ++ calls), sets⟩ := by
  induction calls generalizing set with
  | nil => rw [List.append_nil]; rfl
  | cons call calls ih =>
      obtain ⟨hcall, hcalls⟩ := List.forall_mem_cons.mp h
      cases call with
      | write i j shape =>
          refine (ih hcalls (set ++ [.write i j shape])).trans ?_
          rw [List.append_assoc]
          rfl
      | _ => cases hcall

/-- Outside of a set, nothing but its begin and its end matters. -/
theorem Scan.readAll_closed {calls : List Call}
    (h : ∀ call ∈ calls, call.isWrite = true ∨ call.isFinal = true) (sets : List (List Call)) :
    Scan.readAll ⟨none, sets⟩ calls = some ⟨none, sets⟩ := by
  induction calls with
  | nil => rfl
  | cons call calls ih =>
      obtain ⟨hcall, hcalls⟩ := List.forall_mem_cons.mp h
      cases call with
      | beginCoherentChanges => rcases hcall with hcall | hcall <;> cases hcall
      | endCoherentChanges => rcases hcall with hcall | hcall <;> cases hcall
      | _ => exact ih hcalls

/-- A set that is open when the loop is left stays open. -/
theorem Scan.readAll_final_opened {calls : List Call} (h : ∀ call ∈ calls, call.isFinal = true)
    (set : List Call) (sets sets' : List (List Call)) :
    Scan.readAll ⟨some set, sets⟩ calls ≠ some ⟨none, sets'⟩ := by
  cases calls with
  | nil => nofun
  | cons call calls =>
      have hcall := h call List.mem_cons_self
      cases call with
      | unregisterInstance i j => nofun
      | dispose i j => nofun
      | _ => cases hcall

theorem isWrite_writeAll {numTopics numInstances : Nat} {sample : Nat → Hdds.ShapeType} :
    ∀ call ∈ writeAll numTopics numInstances sample, call.isWrite = true := by
  refine forall_mem_forAll fun i _ j _ call hcall => ?_
  rw [List.mem_singleton.mp hcall]
  rfl

/-- A turn writes once to every instance of every topic. -/
theorem countP_writeAll {numTopics numInstances i j : Nat} (hi : i < numTopics)
    (hj : j < numInstances) (sample : Nat → Hdds.ShapeType) :
    (writeAll numTopics numInstances sample).countP (Call.writesTo i j) = 1 := by
  have hsizes := congrArg List.length (sizesOf_writeAll hi hj sample)
  rw [sizesOf, List.length_filterMap_eq_countP] at hsizes
  exact hsizes

/-! ## Sets that are begun and ended in turns -/

/-- The sets after so many turns: one is open unless the last is complete. -/
structure Grouped (count numTopics numInstances t : Nat) (s : Scan) : Prop where
  closed : t % count = 0 → s.opened = none
  opened : t % count ≠ 0 → ∃ set, s.opened = some set ∧
    ∀ i < numTopics, ∀ j < numInstances, set.countP (Call.writesTo i j) = t % count
  complete : ∀ set ∈ s.sets, ∀ i < numTopics, ∀ j < numInstances,
    set.countP (Call.writesTo i j) = count

section Turn

variable {count numTopics numInstances t : Nat} {s : Scan} {writes : List Call}
  (hcount : 2 ≤ count) (hwrites : ∀ call ∈ writes, call.isWrite = true)
  (hone : ∀ i < numTopics, ∀ j < numInstances, writes.countP (Call.writesTo i j) = 1)
  (hs : Grouped count numTopics numInstances t s)

include hcount hwrites hone hs

/-- The first turn of a set. -/
theorem Grouped.first (hfirst : t % count = 0) :
    ∃ s', s.readAll (.beginCoherentChanges :: writes) = some s' ∧
      Grouped count numTopics numInstances (t + 1) s' := by
  obtain ⟨opened, sets⟩ := s
  obtain rfl : opened = none := hs.closed hfirst
  have hnext : (t + 1) % count = t % count + 1 := by
    rw [succ_mod_eq (by omega), if_pos (by omega)]
  refine ⟨_, Scan.readAll_writes_opened hwrites [] sets, ?_, fun _ => ⟨_, rfl, ?_⟩, hs.complete⟩
  · intro hzero
    omega
  · intro i hi j hj
    rw [List.nil_append, hone i hi j hj, hnext, hfirst]

/-- A turn within a set, not the last. -/
theorem Grouped.middle (hfirst : t % count ≠ 0) (hlast : t % count + 1 ≠ count) :
    ∃ s', s.readAll writes = some s' ∧ Grouped count numTopics numInstances (t + 1) s' := by
  obtain ⟨opened, sets⟩ := s
  obtain ⟨set, hopened, hset⟩ := hs.opened hfirst
  obtain rfl : opened = some set := hopened
  have hlt := Nat.mod_lt t (Nat.lt_of_lt_of_le Nat.zero_lt_two hcount)
  have hnext : (t + 1) % count = t % count + 1 := by
    rw [succ_mod_eq (by omega), if_pos (by omega)]
  refine ⟨_, Scan.readAll_writes_opened hwrites set sets, ?_, fun _ => ⟨_, rfl, ?_⟩, hs.complete⟩
  · intro hzero
    omega
  · intro i hi j hj
    rw [List.countP_append, hone i hi j hj, hset i hi j hj, hnext]

/-- The last turn of a set. -/
theorem Grouped.last (hlast : t % count + 1 = count) :
    ∃ s', s.readAll (writes ++ [.endCoherentChanges]) = some s' ∧
      Grouped count numTopics numInstances (t + 1) s' := by
  obtain ⟨opened, sets⟩ := s
  obtain ⟨set, hopened, hset⟩ := hs.opened (by omega)
  obtain rfl : opened = some set := hopened
  have hnext : (t + 1) % count = 0 := by
    rw [succ_mod_eq (by omega), if_neg (by omega)]
  refine ⟨⟨none, sets ++ [set ++ writes]⟩, ?_, fun _ => rfl, fun hne => absurd hnext hne, ?_⟩
  · rw [Scan.readAll_append, Scan.readAll_writes_opened hwrites set sets]
    rfl
  · intro set' hset' i hi j hj
    rcases List.mem_append.mp hset' with hold | hnew
    · exact hs.complete set' hold i hi j hj
    · rw [List.mem_singleton.mp hnew, List.countP_append, hone i hi j hj, hset i hi j hj, hlast]

end Turn

namespace Cxx

variable {options : Options} {start : Start}

theorem isFinal_finalCalls : ∀ call ∈ finalCalls options, call.isFinal = true := by
  rw [finalCalls]
  split
  · refine forall_mem_forAll fun i _ j _ call hcall => ?_
    rcases List.mem_append.mp hcall with hcall | hcall
    · split at hcall
      · rw [List.mem_singleton.mp hcall]
        rfl
      · cases hcall
    · split at hcall
      · rw [List.mem_singleton.mp hcall]
        rfl
      · cases hcall
  · exact List.forall_mem_nil _

/-! ## Without sets -/

/-- A publisher that does not group its samples begins no set. -/
theorem scan_after_ungrouped (h : grouped options = false) (t : Nat) :
    scan (after options start t).calls = some ⟨none, []⟩ := by
  induction t with
  | zero => rfl
  | succ t ih =>
      rw [after_succ]
      simp only [turn, begins, ends, h, Bool.false_and, Bool.false_eq_true, if_false,
        List.append_nil]
      rw [scan, Scan.readAll_append, ← scan, ih]
      exact Scan.readAll_closed (fun call hcall => .inl (isWrite_writeAll call hcall)) []

/-! ## With sets -/

variable (hgrouped : grouped options = true) (hcount : 2 ≤ options.coherentSetSampleCount.toNat)

include hgrouped in
theorem begins_iff (n : UInt32) :
    begins options n = true ↔ n.toNat % options.coherentSetSampleCount.toNat = 0 := by
  rw [begins, hgrouped, Bool.true_and, beq_iff_eq, ← UInt32.toNat_inj, UInt32.toNat_mod]
  rfl

include hgrouped hcount in
theorem ends_iff (n : UInt32) :
    ends options n = true ↔ n.toNat % options.coherentSetSampleCount.toNat =
      options.coherentSetSampleCount.toNat - 1 := by
  have hone : (1 : UInt32) ≤ options.coherentSetSampleCount := by
    rw [UInt32.le_iff_toNat_le]
    exact Nat.le_of_lt hcount
  rw [ends, hgrouped, Bool.true_and, beq_iff_eq, ← UInt32.toNat_inj, UInt32.toNat_mod,
    UInt32.toNat_sub_of_le _ _ hone]
  rfl

variable (options start) in
/-- The calls of a turn. -/
theorem calls_after_succ (t : Nat) :
    ∃ sample, (after options start (t + 1)).calls = (after options start t).calls ++
      ((if begins options (after options start t).n then [.beginCoherentChanges] else []) ++
        writeAll options.numTopics.toNat options.numInstances.toNat sample ++
        (if ends options (after options start t).n then [.endCoherentChanges] else [])) := by
  rw [after_succ, turn]
  simp only [List.append_assoc]
  exact ⟨_, rfl⟩

include hgrouped hcount in
/-- A turn keeps the sets, as long as its number says where it is in its set. -/
theorem grouped_turn {t : Nat} {s : Scan}
    (hnumber : t % 2 ^ 32 % options.coherentSetSampleCount.toNat =
      t % options.coherentSetSampleCount.toNat)
    (hscan : scan (after options start t).calls = some s)
    (hs : Grouped options.coherentSetSampleCount.toNat options.numTopics.toNat
      options.numInstances.toNat t s) :
    ∃ s', scan (after options start (t + 1)).calls = some s' ∧
      Grouped options.coherentSetSampleCount.toNat options.numTopics.toNat
        options.numInstances.toNat (t + 1) s' := by
  have hn : (after options start t).n.toNat % options.coherentSetSampleCount.toNat =
      t % options.coherentSetSampleCount.toNat := by
    rw [n_after, hnumber]
  have hbegins : begins options (after options start t).n = true ↔ _ := begins_iff hgrouped _
  have hends : ends options (after options start t).n = true ↔ _ := ends_iff hgrouped hcount _
  rw [hn] at hbegins hends
  obtain ⟨sample, hcalls⟩ := calls_after_succ options start t
  rw [hcalls, scan, Scan.readAll_append, ← scan, hscan, Option.bind_some]
  have hone : ∀ i < options.numTopics.toNat, ∀ j < options.numInstances.toNat, _ :=
    fun i hi j hj => countP_writeAll hi hj sample
  by_cases hfirst : t % options.coherentSetSampleCount.toNat = 0
  · have hnot : ¬ ends options (after options start t).n = true := by
      rw [hends, hfirst]
      omega
    rw [if_pos (hbegins.mpr hfirst), if_neg hnot, List.append_nil]
    exact hs.first hcount isWrite_writeAll hone hfirst
  · rw [if_neg (mt hbegins.mp hfirst), List.nil_append]
    by_cases hlast : t % options.coherentSetSampleCount.toNat + 1 =
        options.coherentSetSampleCount.toNat
    · rw [if_pos (hends.mpr (by omega))]
      exact hs.last hcount isWrite_writeAll hone hlast
    · rw [if_neg (mt hends.mp (by omega)), List.append_nil]
      exact hs.middle hcount isWrite_writeAll hone hfirst hlast

variable (start) in
include hgrouped hcount in
/-- The sets of a run whose turns are numbered right: none is longer than 2^32
turns, or the sets are as long as to begin again there. -/
theorem scan_after {t : Nat} (h : t ≤ 2 ^ 32 ∨ options.coherentSetSampleCount.toNat ∣ 2 ^ 32) :
    ∃ s, scan (after options start t).calls = some s ∧
      Grouped options.coherentSetSampleCount.toNat options.numTopics.toNat
        options.numInstances.toNat t s := by
  induction t with
  | zero =>
      exact ⟨⟨none, []⟩, rfl, fun _ => rfl, fun hne => absurd (Nat.zero_mod _) hne,
        List.forall_mem_nil _⟩
  | succ t ih =>
      obtain ⟨s, hscan, hs⟩ := ih (h.imp_left Nat.le_of_succ_le)
      refine grouped_turn hgrouped hcount ?_ hscan hs
      rcases h with hle | hdvd
      · rw [Nat.mod_eq_of_lt hle]
      · exact Nat.mod_mod_of_dvd t hdvd

include hgrouped hcount in
/-- Behind 2^32 turns the number is 0 again, and a set begins within another. -/
theorem scan_after_wrapped (hdvd : ¬ options.coherentSetSampleCount.toNat ∣ 2 ^ 32) (t : Nat) :
    scan (after options start (2 ^ 32 + 1 + t)).calls = none := by
  induction t with
  | zero =>
      obtain ⟨s, hscan, hs⟩ := scan_after start hgrouped hcount (.inl le_rfl)
      obtain ⟨set, hopened, -⟩ := hs.opened (fun hzero => hdvd (Nat.dvd_of_mod_eq_zero hzero))
      obtain ⟨opened, sets⟩ := s
      obtain rfl : opened = some set := hopened
      have hbegins : begins options (after options start (2 ^ 32)).n = true := by
        rw [begins_iff hgrouped, n_after, Nat.mod_self, Nat.zero_mod]
      obtain ⟨sample, hcalls⟩ := calls_after_succ options start (2 ^ 32)
      rw [Nat.add_zero, hcalls, scan, Scan.readAll_append, ← scan, hscan, Option.bind_some,
        if_pos hbegins]
      rfl
  | succ t ih =>
      obtain ⟨sample, hcalls⟩ := calls_after_succ options start (2 ^ 32 + 1 + t)
      rw [← Nat.add_assoc, hcalls, scan, Scan.readAll_append, ← scan, ih]
      rfl

/-! ## A run -/

/-- The sets of a run are closed and complete, exactly if it groups nothing or
stops after a multiple of their length, with the turns numbered right. -/
theorem sets_closed_iff {signals : List Bool} {calls : List Call}
    (hcount : 2 ≤ options.coherentSetSampleCount)
    (hrun : runPublisher options start signals = some calls) :
    ClosedAndComplete options.coherentSetSampleCount.toNat options.numTopics.toNat
        options.numInstances.toNat calls ↔
      (options.coherentSetEnabled = false ∧ options.orderedAccessEnabled = false) ∨
        options.coherentSetSampleCount.toNat ∣ turnsMade options signals ∧
          (turnsMade options signals ≤ 2 ^ 32 ∨
            options.coherentSetSampleCount.toNat ∣ 2 ^ 32) := by
  have htwo : 2 ≤ options.coherentSetSampleCount.toNat := UInt32.le_iff_toNat_le.mp hcount
  have hscan : scan calls = (scan (after options start (turnsMade options signals)).calls).bind
      fun s => s.readAll (finalCalls options) := by
    rw [runPublisher_eq_some hrun, scan, Scan.readAll_append]
    rfl
  have hfinal : ∀ sets, Scan.readAll ⟨none, sets⟩ (finalCalls options) = some ⟨none, sets⟩ :=
    Scan.readAll_closed fun call hcall => .inr (isFinal_finalCalls call hcall)
  rw [ClosedAndComplete, hscan]
  generalize turnsMade options signals = t
  cases hgrouped : grouped options with
  | false =>
      have hneither : options.coherentSetEnabled = false ∧
          options.orderedAccessEnabled = false := by
        have hne : (options.coherentSetSampleCount != 0) = true := by
          rw [bne_iff_ne]
          intro hzero
          rw [hzero] at htwo
          exact absurd htwo (by decide)
        rwa [grouped, hne, Bool.and_true, Bool.or_eq_false_iff] at hgrouped
      rw [scan_after_ungrouped hgrouped, Option.bind_some, hfinal]
      exact ⟨fun _ => .inl hneither, fun _ => ⟨[], rfl, List.forall_mem_nil _⟩⟩
  | true =>
      have heither : ¬ (options.coherentSetEnabled = false ∧
          options.orderedAccessEnabled = false) := by
        rintro ⟨hcoherent, hordered⟩
        rw [grouped, hcoherent, hordered] at hgrouped
        cases hgrouped
      rw [or_iff_right heither]
      by_cases hnumbered : t ≤ 2 ^ 32 ∨ options.coherentSetSampleCount.toNat ∣ 2 ^ 32
      · obtain ⟨⟨opened, sets⟩, hs, hsets⟩ := scan_after start hgrouped htwo hnumbered
        rw [hs, Option.bind_some, and_iff_left hnumbered, Nat.dvd_iff_mod_eq_zero]
        by_cases hzero : t % options.coherentSetSampleCount.toNat = 0
        · obtain rfl : opened = none := hsets.closed hzero
          rw [hfinal]
          exact ⟨fun _ => hzero, fun _ => ⟨sets, rfl, hsets.complete⟩⟩
        · obtain ⟨set, hopened, -⟩ := hsets.opened hzero
          obtain rfl : opened = some set := hopened
          refine ⟨fun ⟨sets', hread, _⟩ => ?_, fun h => absurd h hzero⟩
          exact absurd hread (Scan.readAll_final_opened isFinal_finalCalls set sets sets')
      · have hlt : 2 ^ 32 + 1 ≤ t := by omega
        obtain ⟨k, rfl⟩ := Nat.exists_eq_add_of_le hlt
        rw [scan_after_wrapped hgrouped htwo fun hdvd => hnumbered (.inr hdvd)]
        constructor
        · rintro ⟨sets, hnone, -⟩
          cases hnone
        · rintro ⟨-, h⟩
          exact absurd h hnumbered

/-- One topic, one instance, sets of two samples. -/
def pairs (numIterations : UInt32) : Options where
  color := "BLUE"
  shapesize := 20
  sizeModulo := 0
  additionalPayloadSize := 0
  coherentSetEnabled := true
  orderedAccessEnabled := false
  coherentSetSampleCount := 2
  numTopics := 1
  numInstances := 1
  numIterations := numIterations
  unregister := true
  dispose := false
  daWidth := 240
  daHeight := 270

/-- Four iterations are two sets. -/
theorem sets_closed_pairs :
    ∃ calls, runPublisher (pairs 4) ⟨0, 0, 1, 1⟩ [false, false, false, false, false] = some calls ∧
      (ClosedAndComplete (pairs 4).coherentSetSampleCount.toNat (pairs 4).numTopics.toNat
          (pairs 4).numInstances.toNat calls ↔
        ((pairs 4).coherentSetEnabled = false ∧ (pairs 4).orderedAccessEnabled = false) ∨
          (pairs 4).coherentSetSampleCount.toNat ∣
              turnsMade (pairs 4) [false, false, false, false, false] ∧
            (turnsMade (pairs 4) [false, false, false, false, false] ≤ 2 ^ 32 ∨
              (pairs 4).coherentSetSampleCount.toNat ∣ 2 ^ 32)) := by
  have hrun : runPublisher (pairs 4) ⟨0, 0, 1, 1⟩ [false, false, false, false, false] =
      some _ := rfl
  exact ⟨_, hrun, sets_closed_iff (by decide) hrun⟩

/-- Three iterations leave a set open. -/
theorem not_sets_closed :
    ¬ ∀ (options : Options) (start : Start) (signals : List Bool) (calls : List Call),
      2 ≤ options.coherentSetSampleCount → runPublisher options start signals = some calls →
      ClosedAndComplete options.coherentSetSampleCount.toNat options.numTopics.toNat
        options.numInstances.toNat calls := by
  intro h
  obtain ⟨sets, hsets, -⟩ := h (pairs 3) ⟨0, 0, 1, 1⟩ [false, false, false, false] _ (by decide) rfl
  cases hsets

end Cxx

end DdsRtps.ShapeMain
