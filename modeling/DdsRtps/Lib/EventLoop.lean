/-
# `DdsRtps.Lib.EventLoop` — loops that wait for events

A loop that waits again and again: for an input, and an input may not come in
time or never again.  On an input it waits for the next or returns; on the
other two it returns.

A stream of events may go on for ever.  What a loop does on it is said of the
inputs that the stream begins with (`Begins`), so that everything is proved of
lists: the loop waits after some inputs (`after`), or it returns, right at the
last of them (`LeavesAt`) or when the stream has nothing more to give
(`Returns`).  It returns one value only (`Returns.unique`), and one on every
stream that ends (`exists_returns_of_ends`).
-/
import DdsRtps.Lib.Loop
import Mathlib.Data.List.Induction
import Mathlib.Data.List.Infix

/-- What a wait ends with. -/
inductive Arrival (ι : Type*) where
  | input (i : ι)
  | timeout
  | eof
deriving DecidableEq, Repr

/-- A loop that waits: what it does up to the first wait, and on what a wait
ends with. -/
structure EventLoop (ι σ β : Type*) where
  start : σ ⊕ β
  onInput : ι → σ → σ ⊕ β
  onTimeout : σ → β
  onEof : σ → β

namespace EventLoop

variable {ι σ β : Type*}

/-! ## Streams -/

/-- The first events are these inputs. -/
def Begins (events : Nat → Arrival ι) (inputs : List ι) : Prop :=
  ∀ (k : Nat) (h : k < inputs.length), events k = .input inputs[k]

/-- Nothing comes any more. -/
def Ends (events : Nat → Arrival ι) : Prop :=
  ∃ n, events n = .timeout ∨ events n = .eof

variable {events : Nat → Arrival ι}

theorem begins_nil (events : Nat → Arrival ι) : Begins events [] := by
  intro k h
  cases h

theorem begins_concat_iff {inputs : List ι} {i : ι} :
    Begins events (inputs ++ [i]) ↔ Begins events inputs ∧ events inputs.length = .input i := by
  constructor
  · intro h
    refine ⟨fun k hk => ?_, ?_⟩
    · rw [h k (by simp; omega), List.getElem_append_left hk]
    · rw [h inputs.length (by simp), List.getElem_concat_length rfl]
  · rintro ⟨hbegins, hlast⟩ k hk
    rcases Nat.lt_or_ge k inputs.length with hlt | hge
    · rw [List.getElem_append_left hlt]
      exact hbegins k hlt
    · obtain rfl : k = inputs.length := by
        rw [List.length_append, List.length_singleton] at hk
        omega
      rw [List.getElem_concat_length rfl]
      exact hlast

theorem Begins.of_initial {inputs inputs' : List ι} (h : Begins events inputs)
    (hinitial : inputs' <+: inputs) : Begins events inputs' := by
  intro k hk
  rw [h k (lt_of_lt_of_le hk hinitial.length_le), hinitial.getElem hk]

/-- What a stream begins with is a matter of length alone. -/
theorem Begins.prefix_of_le {inputs inputs' : List ι} (h : Begins events inputs)
    (h' : Begins events inputs') (hle : inputs.length ≤ inputs'.length) : inputs <+: inputs' := by
  rw [List.prefix_iff_eq_take]
  refine List.ext_getElem (by simp [hle]) fun k hk hk' => ?_
  have heq := (h k hk).symm.trans (h' k (lt_of_lt_of_le hk hle))
  rw [List.getElem_take]
  exact Arrival.input.inj heq

theorem Begins.prefix_or {inputs inputs' : List ι} (h : Begins events inputs)
    (h' : Begins events inputs') : inputs <+: inputs' ∨ inputs' <+: inputs := by
  rcases Nat.le_total inputs.length inputs'.length with hle | hle
  · exact .inl (h.prefix_of_le h' hle)
  · exact .inr (h'.prefix_of_le h hle)

/-- Behind an event that is no input there are no inputs. -/
theorem Begins.prefix_of_stop {inputs inputs' : List ι} (h : Begins events inputs)
    (h' : Begins events inputs') (hstop : ∀ i, events inputs.length ≠ .input i) :
    inputs' <+: inputs := by
  refine h'.prefix_of_le h (not_lt.mp fun hlt => ?_)
  exact hstop _ (h' inputs.length hlt)

/-- A stream that ends has a first event that is no input. -/
theorem exists_begins_of_ends (h : Ends events) :
    ∃ inputs, Begins events inputs ∧
      (events inputs.length = .timeout ∨ events inputs.length = .eof) := by
  obtain ⟨n, hn⟩ := h
  by_contra hnone
  -- otherwise the stream begins with inputs of every length
  have hlonger : ∀ k, ∃ inputs, Begins events inputs ∧ inputs.length = k := by
    intro k
    induction k with
    | zero => exact ⟨[], begins_nil events, rfl⟩
    | succ k ih =>
        obtain ⟨inputs, hbegins, hlength⟩ := ih
        cases hevent : events inputs.length with
        | input i =>
            exact ⟨inputs ++ [i], begins_concat_iff.mpr ⟨hbegins, hevent⟩, by simp [hlength]⟩
        | timeout => exact absurd ⟨inputs, hbegins, .inl hevent⟩ hnone
        | eof => exact absurd ⟨inputs, hbegins, .inr hevent⟩ hnone
  obtain ⟨inputs, hbegins, rfl⟩ := hlonger n
  exact hnone ⟨inputs, hbegins, hn⟩

/-- Some inputs, and an event that comes again and again. -/
def streamOf (inputs : List ι) (last : Arrival ι) : Nat → Arrival ι :=
  fun n => (inputs[n]?).elim last .input

theorem begins_streamOf (inputs : List ι) (last : Arrival ι) :
    Begins (streamOf inputs last) inputs := by
  intro k hk
  rw [streamOf, List.getElem?_eq_getElem hk]
  rfl

theorem streamOf_length (inputs : List ι) (last : Arrival ι) :
    streamOf inputs last inputs.length = last := by
  rw [streamOf, List.getElem?_eq_none le_rfl]
  rfl

/-- Behind its inputs such a stream has none. -/
theorem begins_streamOf_iff {inputs inputs' : List ι} {last : Arrival ι}
    (hlast : ∀ i, last ≠ .input i) : Begins (streamOf inputs last) inputs' ↔ inputs' <+: inputs := by
  constructor
  · intro h
    refine (begins_streamOf inputs last).prefix_of_stop h fun i => ?_
    rw [streamOf_length]
    exact hlast i
  · exact (begins_streamOf inputs last).of_initial

/-! ## The loop on some inputs -/

variable (loop : EventLoop ι σ β)

/-- The loop after some inputs: it waits, or it has returned. -/
def after (inputs : List ι) : σ ⊕ β :=
  match loop.start with
  | .inl s => Loop.drive loop.onInput inputs s
  | .inr b => .inr b

theorem after_nil : loop.after [] = loop.start := by
  rw [after]
  cases loop.start with
  | inl s => rfl
  | inr b => rfl

theorem after_concat (inputs : List ι) (i : ι) :
    loop.after (inputs ++ [i]) =
      match loop.after inputs with
      | .inl s => loop.onInput i s
      | .inr b => .inr b := by
  rw [after, after]
  cases loop.start with
  | inl s => exact Loop.drive_concat inputs i s
  | inr b => rfl

/-- The loop returns on the last of some inputs, or at once if there is none. -/
def LeavesAt (inputs : List ι) (b : β) : Prop :=
  (inputs = [] ∧ loop.start = .inr b) ∨
    ∃ before i s, inputs = before ++ [i] ∧ loop.after before = .inl s ∧ loop.onInput i s = .inr b

variable {loop}

theorem LeavesAt.after_eq {inputs : List ι} {b : β} (h : loop.LeavesAt inputs b) :
    loop.after inputs = .inr b := by
  rcases h with ⟨rfl, hstart⟩ | ⟨before, i, s, rfl, hbefore, hlast⟩
  · rw [after_nil, hstart]
  · rw [after_concat, hbefore]
    exact hlast

/-- What has returned stays so. -/
theorem after_eq_inr_of_initial {inputs inputs' : List ι} {b : β} (h : loop.after inputs = .inr b)
    (hinitial : inputs <+: inputs') : loop.after inputs' = .inr b := by
  obtain ⟨more, rfl⟩ := hinitial
  induction more using List.reverseRecOn with
  | nil => rw [List.append_nil, h]
  | append_singleton more i ih => rw [← List.append_assoc, after_concat, ih]

theorem exists_leavesAt {inputs : List ι} {b : β} (h : loop.after inputs = .inr b) :
    ∃ before, before <+: inputs ∧ loop.LeavesAt before b := by
  induction inputs using List.reverseRecOn with
  | nil =>
      rw [after_nil] at h
      exact ⟨[], List.prefix_rfl, .inl ⟨rfl, h⟩⟩
  | append_singleton inputs i ih =>
      cases hbefore : loop.after inputs with
      | inl s =>
          rw [after_concat, hbefore] at h
          exact ⟨inputs ++ [i], List.prefix_rfl, .inr ⟨inputs, i, s, rfl, hbefore, h⟩⟩
      | inr b' =>
          rw [after_concat, hbefore] at h
          obtain rfl := Sum.inr.inj h
          obtain ⟨before, hinitial, hleaves⟩ := ih hbefore
          exact ⟨before, hinitial.trans (List.prefix_append _ _), hleaves⟩

/-- The invariant rule: what every turn keeps is so wherever the loop waits. -/
theorem inv_of_waits (I : List ι → σ → Prop) (hstart : ∀ s, loop.start = .inl s → I [] s)
    (hturn : ∀ inputs i s s', I inputs s → loop.onInput i s = .inl s' → I (inputs ++ [i]) s')
    {inputs : List ι} {s : σ} (h : loop.after inputs = .inl s) : I inputs s := by
  induction inputs using List.reverseRecOn generalizing s with
  | nil => exact hstart s (by rw [← after_nil, h])
  | append_singleton inputs i ih =>
      rw [after_concat] at h
      cases hbefore : loop.after inputs with
      | inl s' =>
          rw [hbefore] at h
          exact hturn inputs i s' s (ih hbefore) h
      | inr b =>
          rw [hbefore] at h
          cases h

/-! ## The loop on a stream -/

variable (loop) in
/-- The loop returns a value: an input makes it return, or the stream has no
more of them. -/
inductive Returns (events : Nat → Arrival ι) : β → Prop
  | left {inputs : List ι} {b : β} : Begins events inputs → loop.LeavesAt inputs b →
      Returns events b
  | timeout {inputs : List ι} {s : σ} : Begins events inputs → loop.after inputs = .inl s →
      events inputs.length = .timeout → Returns events (loop.onTimeout s)
  | eof {inputs : List ι} {s : σ} : Begins events inputs → loop.after inputs = .inl s →
      events inputs.length = .eof → Returns events (loop.onEof s)

/-- A loop that has returned was left at one of the inputs. -/
theorem Returns.of_after {inputs : List ι} {b : β} (hbegins : Begins events inputs)
    (h : loop.after inputs = .inr b) : loop.Returns events b := by
  obtain ⟨before, hinitial, hleaves⟩ := exists_leavesAt h
  exact .left (hbegins.of_initial hinitial) hleaves

variable (loop) in
/-- Some inputs come, and then nothing in time. -/
theorem returns_timeout (inputs : List ι) :
    loop.Returns (streamOf inputs .timeout) ((loop.after inputs).elim loop.onTimeout id) := by
  have hbegins := begins_streamOf inputs .timeout
  cases hafter : loop.after inputs with
  | inl s => exact .timeout hbegins hafter (streamOf_length inputs .timeout)
  | inr b => exact .of_after hbegins hafter

variable (loop) in
/-- Some inputs come, and the stream is at its end. -/
theorem returns_eof (inputs : List ι) :
    loop.Returns (streamOf inputs .eof) ((loop.after inputs).elim loop.onEof id) := by
  have hbegins := begins_streamOf inputs .eof
  cases hafter : loop.after inputs with
  | inl s => exact .eof hbegins hafter (streamOf_length inputs .eof)
  | inr b => exact .of_after hbegins hafter

/-- Where the loop still waits, it does not return before. -/
theorem Returns.of_waits {inputs : List ι} {s : σ} {b : β} (hbegins : Begins events inputs)
    (h : loop.after inputs = .inl s) (hreturns : loop.Returns events b) :
    (∃ inputs', inputs <+: inputs' ∧ Begins events inputs' ∧ loop.LeavesAt inputs' b) ∨
      ∃ inputs' s', inputs <+: inputs' ∧ Begins events inputs' ∧ loop.after inputs' = .inl s' ∧
        (events inputs'.length = .timeout ∧ b = loop.onTimeout s' ∨
          events inputs'.length = .eof ∧ b = loop.onEof s') := by
  cases hreturns with
  | @left inputs' _ hbegins' hleaves =>
      rcases hbegins.prefix_or hbegins' with hle | hle
      · exact .inl ⟨inputs', hle, hbegins', hleaves⟩
      · rw [after_eq_inr_of_initial hleaves.after_eq hle] at h
        cases h
  | @timeout inputs' s' hbegins' hwaits hstop =>
      have hle := hbegins'.prefix_of_stop hbegins (by simp [hstop])
      exact .inr ⟨inputs', s', hle, hbegins', hwaits, .inl ⟨hstop, rfl⟩⟩
  | @eof inputs' s' hbegins' hwaits hstop =>
      have hle := hbegins'.prefix_of_stop hbegins (by simp [hstop])
      exact .inr ⟨inputs', s', hle, hbegins', hwaits, .inr ⟨hstop, rfl⟩⟩

/-- There is one value that a loop returns. -/
theorem Returns.unique {b b' : β} (h : loop.Returns events b) (h' : loop.Returns events b') :
    b = b' := by
  have hstops : ∀ {inputs : List ι} {s : σ}, Begins events inputs → loop.after inputs = .inl s →
      (∀ i, events inputs.length ≠ .input i) → ∀ {b : β}, loop.Returns events b →
      (events inputs.length = .timeout → b = loop.onTimeout s) ∧
        (events inputs.length = .eof → b = loop.onEof s) := by
    intro inputs s hbegins hwaits hstop b hreturns
    rcases hreturns.of_waits hbegins hwaits with ⟨inputs', hle, hbegins', hleaves⟩ |
      ⟨inputs', s', hle, hbegins', hwaits', hlast⟩
    · obtain rfl := hle.eq_of_length_le (hbegins.prefix_of_stop hbegins' hstop).length_le
      rw [hleaves.after_eq] at hwaits
      cases hwaits
    · obtain rfl := hle.eq_of_length_le (hbegins.prefix_of_stop hbegins' hstop).length_le
      obtain rfl := Sum.inl.inj (hwaits.symm.trans hwaits')
      rcases hlast with ⟨htimeout, rfl⟩ | ⟨heof, rfl⟩
      · exact ⟨fun _ => rfl, fun heof => by simp [htimeout] at heof⟩
      · exact ⟨fun htimeout => by simp [heof] at htimeout, fun _ => rfl⟩
  cases h with
  | @left inputs _ hbegins hleaves =>
      cases h' with
      | @left inputs' _ hbegins' hleaves' =>
          rcases hbegins.prefix_or hbegins' with hle | hle
          · have heq := after_eq_inr_of_initial hleaves.after_eq hle
            exact Sum.inr.inj (heq.symm.trans hleaves'.after_eq)
          · have heq := after_eq_inr_of_initial hleaves'.after_eq hle
            exact Sum.inr.inj (hleaves.after_eq.symm.trans heq)
      | timeout hbegins' hwaits' hstop' =>
          exact (hstops hbegins' hwaits' (by simp [hstop']) (.left hbegins hleaves)).1 hstop'
      | eof hbegins' hwaits' hstop' =>
          exact (hstops hbegins' hwaits' (by simp [hstop']) (.left hbegins hleaves)).2 hstop'
  | timeout hbegins hwaits hstop =>
      exact ((hstops hbegins hwaits (by simp [hstop]) h').1 hstop).symm
  | eof hbegins hwaits hstop =>
      exact ((hstops hbegins hwaits (by simp [hstop]) h').2 hstop).symm

/-- The rule for what is returned: every turn keeps an invariant, and every way out turns
it into `Q`. -/
theorem Returns.post (I : σ → Prop) (Q : β → Prop) (hstart : ∀ s, loop.start = .inl s → I s)
    (hleave : ∀ b, loop.start = .inr b → Q b)
    (hturn : ∀ i s s', I s → loop.onInput i s = .inl s' → I s')
    (hexit : ∀ i s b, I s → loop.onInput i s = .inr b → Q b)
    (htimeout : ∀ s, I s → Q (loop.onTimeout s)) (heof : ∀ s, I s → Q (loop.onEof s)) {b : β}
    (h : loop.Returns events b) : Q b := by
  have hwaits : ∀ {inputs : List ι} {s : σ}, loop.after inputs = .inl s → I s := fun hafter =>
    inv_of_waits (fun _ => I) hstart (fun _ => hturn) hafter
  cases h with
  | left _ hleaves =>
      rcases hleaves with ⟨-, hnow⟩ | ⟨before, i, s, -, hbefore, hlast⟩
      · exact hleave _ hnow
      · exact hexit i s _ (hwaits hbefore) hlast
  | timeout _ hafter _ => exact htimeout _ (hwaits hafter)
  | eof _ hafter _ => exact heof _ (hwaits hafter)

/-- On a stream that ends the loop returns. -/
theorem exists_returns_of_ends (loop : EventLoop ι σ β) (h : Ends events) :
    ∃ b, loop.Returns events b := by
  obtain ⟨inputs, hbegins, hstop⟩ := exists_begins_of_ends h
  cases hafter : loop.after inputs with
  | inl s =>
      rcases hstop with htimeout | heof
      · exact ⟨_, .timeout hbegins hafter htimeout⟩
      · exact ⟨_, .eof hbegins hafter heof⟩
  | inr b => exact ⟨b, .of_after hbegins hafter⟩

end EventLoop
