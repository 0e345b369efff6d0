/-
# `DdsRtps.ShapeMain.FinalCalls` — the final state of the instances

With `--final-instance-state` a publisher unregisters (`u`) or disposes (`d`)
its instances before it returns.  The C++ and DustDDS publishers ask for the
option alone, and come to these calls whatever ends the loop.  The Zig publisher
asks for a number of iterations: a run without one, as a run is by default, ends
at an interrupt and leaves its instances as they are.  It leaves them so too
when it gives up because no reader has matched.

What the three have in common is `FinalStateProduced.of_regular`: a loop whose
calls are no final ones, and calls after the loop that go to every instance.
-/
import DdsRtps.ShapeMain.CoherentCalls
import DdsRtps.ShapeMain.DustDds
import DdsRtps.ShapeMain.Zig

namespace DdsRtps.ShapeMain

open Hdds (ShapeType)

/-- What may be asked for with `--final-instance-state`. -/
inductive FinalState where
  | unregistered
  | disposed
deriving DecidableEq, Repr

/-- The call that brings an instance into the state. -/
def FinalState.call : FinalState → Nat → Nat → Call
  | .unregistered => .unregisterInstance
  | .disposed => .dispose

/-- The call is made, and nothing is written to the instance after it. -/
def Concluded (call : Call) (i j : Nat) (calls : List Call) : Prop :=
  ∃ before after, calls = before ++ call :: after ∧ ∀ later ∈ after, later.writesTo i j = false

/-- Every instance that was written to is brought into the state that was asked
for, by its key, and none is disposed unless that was. -/
structure FinalStateProduced (requested : FinalState → Prop) (key : Nat → String)
    (calls : List Call) : Prop where
  key : ∀ i j shape, .write i j shape ∈ calls → shape.color = key j
  concluded : ∀ state, requested state → ∀ i j shape, .write i j shape ∈ calls →
    Concluded (state.call i j) i j calls
  undisposed : ¬ requested .disposed → ∀ i j, .dispose i j ∉ calls

/-! ## The calls of the loop and the calls after it -/

theorem writesTo_of_isFinal {call : Call} (h : call.isFinal = true) (i j : Nat) :
    call.writesTo i j = false := by
  cases call with
  | unregisterInstance i' j' => rfl
  | dispose i' j' => rfl
  | _ => cases h

section Regular

variable {numTopics numInstances : Nat} {key : Nat → String} {requested : FinalState → Prop}
  {made final : List Call}

theorem FinalStateProduced.of_regular
    (hmade : ∀ call ∈ made, call.Regular numTopics numInstances key)
    (hfinal : ∀ call ∈ final, call.isFinal = true)
    (hall : ∀ state, requested state → ∀ i < numTopics, ∀ j < numInstances,
      state.call i j ∈ final)
    (hundisposed : ¬ requested .disposed → ∀ i j, .dispose i j ∉ final) :
    FinalStateProduced requested key (made ++ final) := by
  have hwrite : ∀ i j shape, .write i j shape ∈ made ++ final →
      i < numTopics ∧ j < numInstances ∧ shape.color = key j := by
    intro i j shape hmem
    rcases List.mem_append.mp hmem with hmem | hmem
    · exact hmade _ hmem
    · cases hfinal _ hmem
  refine ⟨fun i j shape hmem => (hwrite i j shape hmem).2.2, ?_, ?_⟩
  · intro state hstate i j shape hmem
    obtain ⟨hi, hj, -⟩ := hwrite i j shape hmem
    obtain ⟨before, after, rfl⟩ := List.append_of_mem (hall state hstate i hi j hj)
    refine ⟨made ++ before, after, (List.append_assoc _ _ _).symm, ?_⟩
    intro later hlater
    exact writesTo_of_isFinal
      (hfinal later (List.mem_append_right _ (List.mem_cons_of_mem _ hlater))) i j
  · intro hnot i j hmem
    rcases List.mem_append.mp hmem with hmem | hmem
    · exact hmade _ hmem
    · exact hundisposed hnot i j hmem

/-- Without final calls, nothing may be asked for, or nothing written. -/
theorem finalStateProduced_regular_iff
    (hmade : ∀ call ∈ made, call.Regular numTopics numInstances key) :
    FinalStateProduced requested key made ↔
      (∀ state, ¬ requested state) ∨ ∀ i j shape, .write i j shape ∉ made := by
  constructor
  · intro h
    by_contra hboth
    obtain ⟨hstate, hmem⟩ := not_or.mp hboth
    push Not at hstate hmem
    obtain ⟨state, hstate⟩ := hstate
    obtain ⟨i, j, shape, hmem⟩ := hmem
    obtain ⟨before, after, heq, -⟩ := h.concluded state hstate i j shape hmem
    have hregular : (state.call i j).Regular numTopics numInstances key := by
      refine hmade _ ?_
      rw [heq]
      exact List.mem_append_right _ List.mem_cons_self
    cases state with
    | unregistered => exact hregular
    | disposed => exact hregular
  · intro h
    refine ⟨fun i j shape hmem => (hmade _ hmem).2.2, ?_, fun _ i j hmem => hmade _ hmem⟩
    intro state hstate i j shape hmem
    rcases h with h | h
    · exact absurd hstate (h state)
    · exact absurd hmem (h i j shape)

end Regular

/-! ## C++ -/

namespace Cxx

variable {options : Options} {start : Start}

/-- `options->unregister` and `options->dispose`. -/
def requested (options : Options) : FinalState → Prop
  | .unregistered => options.unregister = true
  | .disposed => options.dispose = true

/-- The colour of an instance. -/
def keyColor (options : Options) (j : Nat) : String :=
  if options.numInstances > 1 then instanceColor options.color j else options.color

theorem color_sampleOf {shape : ShapeType} (h : shape.color = options.color) (j : Nat) :
    (sampleOf options shape j).color = keyColor options j := by
  rw [sampleOf, keyColor]
  split
  · rfl
  · exact h

/-- What every turn keeps. -/
structure Regular (options : Options) (s : State) : Prop where
  color : s.moving.shape.color = options.color
  calls : ∀ call ∈ s.calls,
    call.Regular options.numTopics.toNat options.numInstances.toNat (keyColor options)

theorem regular_turn {s : State} (h : Regular options s) : Regular options (turn options s) where
  color := h.color
  calls := by
    refine List.forall_mem_append.mpr ⟨List.forall_mem_append.mpr
      ⟨List.forall_mem_append.mpr ⟨h.calls, regular_begin _⟩, ?_⟩, regular_end _⟩
    refine (wholeTurn_writeAll fun j => color_sampleOf ?_ j).regular
    exact h.color

/-- Wherever the loop is left. -/
theorem regular_drive (start : Start) {signals : List Bool} {s : State}
    (h : Loop.drive (step options) signals (init options start) = .inr s) : Regular options s := by
  have hinit : Regular options (init options start) := ⟨rfl, nofun⟩
  refine Loop.drive_inr_inv (Regular options) (Regular options) ?_ ?_ hinit h
  · intro signalled s s' hregular hstep
    rw [step] at hstep
    split at hstep
    · cases hstep
    · obtain rfl := Sum.inl.inj hstep
      exact regular_turn hregular
  · intro signalled s s' hregular hstep
    rw [step] at hstep
    split at hstep
    · obtain rfl := Sum.inr.inj hstep
      exact hregular
    · cases hstep

theorem mem_finalCalls {state : FinalState} (h : requested options state) {i j : Nat}
    (hi : i < options.numTopics.toNat) (hj : j < options.numInstances.toNat) :
    state.call i j ∈ finalCalls options := by
  have hasked : (options.dispose || options.unregister) = true := by
    cases state with
    | unregistered => rw [show options.unregister = true from h, Bool.or_true]
    | disposed => rw [show options.dispose = true from h, Bool.true_or]
  rw [finalCalls, if_pos hasked]
  refine mem_forAll.mpr ⟨i, hi, j, hj, ?_⟩
  cases state with
  | unregistered =>
      rw [if_pos (show options.unregister = true from h)]
      exact List.mem_cons_self
  | disposed =>
      rw [if_pos (show options.dispose = true from h)]
      exact List.mem_append_right _ (List.mem_singleton.mpr rfl)

theorem dispose_notMem_finalCalls (h : ¬ requested options .disposed) (i j : Nat) :
    .dispose i j ∉ finalCalls options := by
  intro hmem
  rw [finalCalls] at hmem
  split at hmem
  · obtain ⟨i', -, j', -, hmem⟩ := mem_forAll.mp hmem
    rw [if_neg (show ¬ options.dispose = true from h), List.append_nil] at hmem
    split at hmem
    · cases List.mem_singleton.mp hmem
    · cases hmem
  · cases hmem

/-- Whatever ends the loop. -/
theorem finalStateProduced (start : Start) {signals : List Bool} {s : State}
    (h : Loop.drive (step options) signals (init options start) = .inr s) :
    FinalStateProduced (requested options) (fun j => (sampleOf options s.moving.shape j).color)
      (s.calls ++ finalCalls options) := by
  have hregular := regular_drive start h
  have hkey : (fun j => (sampleOf options s.moving.shape j).color) = keyColor options :=
    funext (color_sampleOf hregular.color)
  rw [hkey]
  exact .of_regular hregular.calls isFinal_finalCalls
    (fun _ hstate _ hi _ hj => mem_finalCalls hstate hi hj) dispose_notMem_finalCalls

end Cxx

/-! ## DustDDS -/

namespace DustDds

variable {options : Options} {start : Start}

/-- `options.final_instance_state`. -/
def requested (options : Options) : FinalState → Prop
  | .unregistered => options.finalInstanceState = some .u
  | .disposed => options.finalInstanceState = some .d

/-- What every turn keeps. -/
def Regular (options : Options) (s : State) : Prop :=
  ∀ call ∈ s.calls, call.Regular options.numTopics.toNat options.numInstances.toNat
    (instanceColor (baseColor options))

theorem regular_turn {s : State} (h : Regular options s) : Regular options (turn options s) :=
  List.forall_mem_append.mpr ⟨h, (wholeTurn_writeAll fun _ => rfl).regular⟩

theorem step_cases (got : Bool) (s : State) :
    step options got s = .inr s ∨ step options got s = .inr (turn options s) ∨
      step options got s = .inl (turn options s) := by
  cases got with
  | true => exact .inl rfl
  | false =>
      by_cases hlast : options.numIterations ≠ 0 ∧ (turn options s).n ≥ options.numIterations
      · exact .inr (.inl (if_pos hlast))
      · exact .inr (.inr (if_neg hlast))

/-- Wherever the loop is left, before a turn or after it. -/
theorem regular_drive (start : Start) {received : List Bool} {s : State}
    (h : Loop.drive (step options) received (init options start) = .inr s) :
    Regular options s := by
  have hinit : Regular options (init options start) := nofun
  refine Loop.drive_inr_inv (Regular options) (Regular options) ?_ ?_ hinit h
  · intro got s s' hregular hstep
    rcases step_cases got s with hleft | hleft | hgoes
    · cases hleft.symm.trans hstep
    · cases hleft.symm.trans hstep
    · obtain rfl := Sum.inl.inj (hgoes.symm.trans hstep)
      exact regular_turn hregular
  · intro got s s' hregular hstep
    rcases step_cases got s with hleft | hleft | hgoes
    · obtain rfl := Sum.inr.inj (hleft.symm.trans hstep)
      exact hregular
    · obtain rfl := Sum.inr.inj (hleft.symm.trans hstep)
      exact regular_turn hregular
    · cases hgoes.symm.trans hstep

theorem isFinal_finalCalls : ∀ call ∈ finalCalls options, call.isFinal = true := by
  rw [finalCalls]
  split
  · refine forall_mem_forAll fun i _ j _ call hcall => ?_
    obtain rfl := List.mem_singleton.mp hcall
    rfl
  · refine forall_mem_forAll fun i _ j _ call hcall => ?_
    obtain rfl := List.mem_singleton.mp hcall
    rfl
  · exact List.forall_mem_nil _

theorem mem_finalCalls {state : FinalState} (h : requested options state) {i j : Nat}
    (hi : i < options.numTopics.toNat) (hj : j < options.numInstances.toNat) :
    state.call i j ∈ finalCalls options := by
  cases state with
  | unregistered =>
      rw [finalCalls, show options.finalInstanceState = some .u from h]
      exact mem_forAll.mpr ⟨i, hi, j, hj, List.mem_singleton.mpr rfl⟩
  | disposed =>
      rw [finalCalls, show options.finalInstanceState = some .d from h]
      exact mem_forAll.mpr ⟨i, hi, j, hj, List.mem_singleton.mpr rfl⟩

theorem dispose_notMem_finalCalls (h : ¬ requested options .disposed) (i j : Nat) :
    .dispose i j ∉ finalCalls options := by
  intro hmem
  rw [finalCalls] at hmem
  split at hmem
  · obtain ⟨i', -, j', -, hmem⟩ := mem_forAll.mp hmem
    cases List.mem_singleton.mp hmem
  · rename_i hd
    exact h hd
  · cases hmem

/-- Whatever ends the loop. -/
theorem finalStateProduced (start : Start) {received : List Bool} {s : State}
    (h : Loop.drive (step options) received (init options start) = .inr s) :
    FinalStateProduced (requested options) (fun j => (sampleOf options s.moving.shape j).color)
      (s.calls ++ finalCalls options) :=
  .of_regular (regular_drive start h) isFinal_finalCalls
    (fun _ hstate _ hi _ hj => mem_finalCalls hstate hi hj) dispose_notMem_finalCalls

end DustDds

/-! ## Zig -/

namespace Zig

variable {options : Options}

/-- `opts.final_instance_state`. -/
def requested (options : Options) : FinalState → Prop
  | .unregistered => options.finalInstanceState = 'u'.toUInt8
  | .disposed => options.finalInstanceState = 'd'.toUInt8

/-- What every turn keeps. -/
structure Regular (options : Options) (s : State) : Prop where
  calls : ∀ call ∈ s.calls,
    call.Regular options.numTopics.toNat options.numInstances.toNat (keyColor options)
  nonneg : 0 ≤ s.iteration
  start : s.iteration = 0 → s.calls = []
  every : 0 < s.iteration → ∀ i < options.numTopics.toNat, ∀ j < options.numInstances.toNat,
    ∃ shape, .write i j shape ∈ s.calls

theorem write_inl {seen : Seen} {s s' : State} (h : write options seen s = .inl s') :
    ∃ writes, WholeTurn options.numTopics.toNat options.numInstances.toNat (keyColor options)
        writes ∧
      s'.iteration = s.iteration + 1 ∧
      s'.calls = s.calls ++ (if gating options then [.beginCoherentChanges] else []) ++ writes ++
        if gating options then [.endCoherentChanges] else [] := by
  have hwhole := wholeTurn_writes options seen.random s.shape
  rw [write] at h
  generalize (if gating options then writeSet options seen.random s.shape
    else writeTurn options seen.random s.shape) = made at h hwhole
  obtain ⟨shape, writes⟩ := made
  dsimp only at h
  split at h
  · cases h
  · obtain rfl := Sum.inl.inj h
    exact ⟨writes, hwhole, rfl, rfl⟩

theorem regular_write {seen : Seen} {s s' : State} (hregular : Regular options s)
    (h : write options seen s = .inl s') : Regular options s' := by
  obtain ⟨writes, hwhole, hiteration, hcalls⟩ := write_inl h
  have hnonneg := hregular.nonneg
  refine ⟨?_, by omega, fun hzero => by omega, ?_⟩
  · rw [hcalls]
    exact List.forall_mem_append.mpr ⟨List.forall_mem_append.mpr
      ⟨List.forall_mem_append.mpr ⟨hregular.calls, regular_begin _⟩, hwhole.regular⟩,
      regular_end _⟩
  · intro _ i hi j hj
    obtain ⟨shape, hshape⟩ := hwhole.every i hi j hj
    rw [hcalls]
    exact ⟨shape, List.mem_append_left _ (List.mem_append_right _ hshape)⟩

/-- The loop is left at its head: by an interrupt, or with the iterations made. -/
def LeftAtHead (options : Options) (seen : Seen) (s : State) : Prop :=
  seen.allDone = true ∨ (options.numIterations ≥ 0 ∧ s.iteration ≥ options.numIterations)

theorem regular_step {seen : Seen} {s s' : State} (hregular : Regular options s)
    (h : step options seen s = .inl s') : Regular options s' := by
  have hmatched : Regular options
      { s with printedMatched := s.printedMatched || seen.matched } :=
    ⟨hregular.calls, hregular.nonneg, hregular.start, hregular.every⟩
  rw [step] at h
  split at h
  · cases h
  · split at h
    · cases h
    · dsimp only at h
      split at h
      · obtain rfl := Sum.inl.inj h
        exact hmatched
      · exact regular_write hmatched h

theorem regular_init : Regular options (init options) where
  calls := fun _ hcall => absurd hcall List.not_mem_nil
  nonneg := le_rfl
  start := fun _ => rfl
  every := fun hpos => absurd hpos (lt_irrefl _)

theorem regular_drive {seen : List Seen} {s : State}
    (h : Loop.drive (step options) seen (init options) = .inl s) : Regular options s :=
  Loop.drive_inl_inv (Regular options) (fun _ _ _ hregular hstep => regular_step hregular hstep)
    regular_init h

/-- The two ways to return: with the final calls, and after ten seconds without them. -/
theorem step_returns {seen : Seen} {s : State} {calls : List Call}
    (h : step options seen s = .inr ⟨true, calls⟩) :
    (LeftAtHead options seen s ∧ calls = s.calls ++ finalCalls options) ∨
      (¬ LeftAtHead options seen s ∧ calls = s.calls) := by
  rw [step] at h
  split at h
  · rename_i hleft
    exact .inl ⟨hleft, (congrArg Returned.calls (Sum.inr.inj h)).symm⟩
  · rename_i hleft
    refine .inr ⟨hleft, ?_⟩
    split at h
    · exact (congrArg Returned.calls (Sum.inr.inj h)).symm
    · dsimp only at h
      split at h
      · cases h
      · rw [write] at h
        dsimp only at h
        split at h
        · exact absurd (congrArg Returned.ok (Sum.inr.inj h)) Bool.false_ne_true
        · cases h

theorem isFinal_finalCalls : ∀ call ∈ finalCalls options, call.isFinal = true := by
  rw [finalCalls]
  split
  · refine forall_mem_forAll fun i _ j _ call hcall => ?_
    split at hcall
    · obtain rfl := List.mem_singleton.mp hcall
      rfl
    · obtain rfl := List.mem_singleton.mp hcall
      rfl
  · exact List.forall_mem_nil _

theorem mem_finalCalls {state : FinalState} (hfinite : options.numIterations ≥ 0)
    (h : requested options state) {i j : Nat} (hi : i < options.numTopics.toNat)
    (hj : j < options.numInstances.toNat) : state.call i j ∈ finalCalls options := by
  rw [finalCalls, if_pos hfinite]
  refine mem_forAll.mpr ⟨i, hi, j, hj, ?_⟩
  cases state with
  | unregistered =>
      have hu : options.finalInstanceState = 'u'.toUInt8 := h
      rw [hu, if_neg (by decide)]
      exact List.mem_singleton.mpr rfl
  | disposed =>
      rw [if_pos (show options.finalInstanceState = 'd'.toUInt8 from h)]
      exact List.mem_singleton.mpr rfl

theorem dispose_notMem_finalCalls (h : ¬ requested options .disposed) (i j : Nat) :
    .dispose i j ∉ finalCalls options := by
  intro hmem
  rw [finalCalls] at hmem
  split at hmem
  · obtain ⟨i', -, j', -, hmem⟩ := mem_forAll.mp hmem
    rw [if_neg (show ¬ options.finalInstanceState = 'd'.toUInt8 from h)] at hmem
    cases List.mem_singleton.mp hmem
  · cases hmem

/-- The final calls are made, or nothing is there to be done. -/
def Concludes (options : Options) (last : Seen) (s : State) : Prop :=
  (∀ state, ¬ requested options state) ∨ options.numTopics = 0 ∨ options.numInstances = 0 ∨
    s.iteration ≤ 0 ∨ (options.numIterations ≥ 0 ∧ LeftAtHead options last s)

theorem notMem_write_iff {s : State} (hregular : Regular options s) :
    (∀ i j shape, .write i j shape ∉ s.calls) ↔
      options.numTopics = 0 ∨ options.numInstances = 0 ∨ s.iteration ≤ 0 := by
  constructor
  · intro hnone
    by_contra hnot
    simp only [not_or, not_le] at hnot
    obtain ⟨htopics, hinstances, hiteration⟩ := hnot
    obtain ⟨shape, hshape⟩ := hregular.every hiteration 0 (toNat_pos htopics) 0
      (toNat_pos hinstances)
    exact hnone 0 0 shape hshape
  · rintro (hzero | hzero | hzero) i j shape hmem
    · have hi := (hregular.calls _ hmem).1
      rw [hzero] at hi
      exact Nat.not_lt_zero _ hi
    · have hj := (hregular.calls _ hmem).2.1
      rw [hzero] at hj
      exact Nat.not_lt_zero _ hj
    · have hcalls := hregular.start (le_antisymm hzero hregular.nonneg)
      rw [hcalls] at hmem
      cases hmem

/-- The state is produced where the final calls are made, or nothing is there to be done. -/
theorem finalStateProduced_iff {seen : List Seen} {last : Seen} {s : State} {calls : List Call}
    (hs : Loop.drive (step options) seen (init options) = .inl s)
    (hlast : step options last s = .inr ⟨true, calls⟩) :
    FinalStateProduced (requested options) (keyColor options) calls ↔ Concludes options last s := by
  have hregular := regular_drive hs
  by_cases hfinal : options.numIterations ≥ 0 ∧ LeftAtHead options last s
  · obtain ⟨hfinite, hleft⟩ := hfinal
    refine iff_of_true ?_ (.inr (.inr (.inr (.inr ⟨hfinite, hleft⟩))))
    rcases step_returns hlast with ⟨-, rfl⟩ | ⟨hnot, -⟩
    · exact .of_regular hregular.calls isFinal_finalCalls
        (fun _ hstate _ hi _ hj => mem_finalCalls hfinite hstate hi hj) dispose_notMem_finalCalls
    · exact absurd hleft hnot
  · have hcalls : calls = s.calls := by
      rcases step_returns hlast with ⟨hleft, rfl⟩ | ⟨-, rfl⟩
      · rw [finalCalls, if_neg fun hfinite => hfinal ⟨hfinite, hleft⟩, List.append_nil]
      · rfl
    rw [hcalls, finalStateProduced_regular_iff hregular.calls, notMem_write_iff hregular, Concludes]
    tauto

end Zig

/-! ## The three publishers -/

/-- A publisher that returns, and the state in which it leaves its loop. -/
inductive Publication where
  | cxx (options : Cxx.Options) (start : Start) (signals : List Bool) (s : Cxx.State)
      (left : Loop.drive (Cxx.step options) signals (Cxx.init options start) = .inr s)
  | dustDds (options : DustDds.Options) (start : Start) (received : List Bool) (s : DustDds.State)
      (left : Loop.drive (DustDds.step options) received (DustDds.init options start) = .inr s)
  | zig (options : Zig.Options) (seen : List Zig.Seen) (last : Zig.Seen) (s : Zig.State)
      (calls : List Call)
      (came : Loop.drive (Zig.step options) seen (Zig.init options) = .inl s)
      (left : Zig.step options last s = .inr ⟨true, calls⟩)

namespace Publication

/-- What was asked for with `--final-instance-state`. -/
def requested : Publication → FinalState → Prop
  | cxx options .. => Cxx.requested options
  | dustDds options .. => DustDds.requested options
  | zig options .. => Zig.requested options

/-- The colour of the sample that a final call is given for an instance. -/
def finalKey : Publication → Nat → String
  | cxx options _ _ s _ => fun j => (Cxx.sampleOf options s.moving.shape j).color
  | dustDds options _ _ s _ => fun j => (DustDds.sampleOf options s.moving.shape j).color
  | zig options .. => Zig.keyColor options

/-- All that the publisher has called when it returns. -/
def calls : Publication → List Call
  | cxx options _ _ s _ => s.calls ++ Cxx.finalCalls options
  | dustDds options _ _ s _ => s.calls ++ DustDds.finalCalls options
  | zig _ _ _ _ calls _ _ => calls

/-- Where the final state is due and comes: in C++ and DustDDS always. -/
def Concludes : Publication → Prop
  | cxx .. => True
  | dustDds .. => True
  | zig options _ last s .. => Zig.Concludes options last s

/-- The final instance state that was asked for is produced in every run of the
C++ and DustDDS publishers; in a run of the Zig publisher when it has a number of
iterations and leaves its loop at the head, and else only if nothing was asked
for or nothing was written. -/
theorem produces_iff_concludes (run : Publication) :
    FinalStateProduced run.requested run.finalKey run.calls ↔ run.Concludes := by
  cases run with
  | cxx options start signals s left =>
      exact iff_of_true (Cxx.finalStateProduced start left) trivial
  | dustDds options start received s left =>
      exact iff_of_true (DustDds.finalStateProduced start left) trivial
  | zig options seen last s calls came left => exact Zig.finalStateProduced_iff came left

/-- `--final-instance-state u`, one topic and one instance, in Zig. -/
def unregistering (numIterations : Int) : Zig.Options where
  color := none
  shapesize := 20
  numIterations := numIterations
  numInstances := 1
  additionalPayload := 0
  sizeModulo := 0
  finalInstanceState := 'u'.toUInt8
  orderedAccess := false
  coherentAccess := false
  numTopics := 1
  coherentSampleCount := 0

/-- A turn that writes unless it is interrupted before. -/
def oneTurn (allDone : Bool) : Zig.Seen := ⟨allDone, true, false, fun _ => (0, 0), none⟩

/-- What is written in it. -/
def written : ShapeType :=
  { color := "BLUE", x := 0, y := 0, shapesize := 20, additionalPayloadSize := [] }

/-- The state after it. -/
def onceWritten : Zig.State :=
  { shape := written, printedMatched := true, iteration := 1, calls := [.write 0 0 written] }

/-- A run of one iteration. -/
def finite : Publication :=
  .zig (unregistering 1) [oneTurn false] (oneTurn false) onceWritten
    [.write 0 0 written, .unregisterInstance 0 0] rfl rfl

/-- A run without a number of iterations, interrupted after one. -/
def interrupted : Publication :=
  .zig (unregistering (-1)) [oneTurn false] (oneTurn true) onceWritten [.write 0 0 written] rfl rfl

/-- With one iteration, the instance is unregistered. -/
theorem produces_iff_concludes_finite :
    FinalStateProduced finite.requested finite.finalKey finite.calls := by
  have hleft : Zig.LeftAtHead (unregistering 1) (oneTurn false) onceWritten :=
    .inr ⟨by decide, by decide⟩
  have hconcludes : Zig.Concludes (unregistering 1) (oneTurn false) onceWritten :=
    .inr (.inr (.inr (.inr ⟨by decide, hleft⟩)))
  exact (produces_iff_concludes finite).mpr hconcludes

/-- In the interrupted run it is not. -/
theorem not_produces_interrupted :
    ¬ ∀ run : Publication, FinalStateProduced run.requested run.finalKey run.calls := by
  intro h
  obtain ⟨before, after, heq, -⟩ :=
    (h interrupted).concluded .unregistered rfl 0 0 written (List.mem_singleton.mpr rfl)
  have hmem : Call.unregisterInstance 0 0 ∈ interrupted.calls := by
    rw [heq]
    exact List.mem_append_right _ List.mem_cons_self
  cases List.mem_singleton.mp hmem

end Publication

end DdsRtps.ShapeMain
