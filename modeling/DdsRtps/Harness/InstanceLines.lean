/-
# `DdsRtps.Harness.InstanceLines` — the lines for instances that are gone

When an instance is disposed or loses its writers, the HDDS subscriber prints
its topic, the first four bytes of its key hash in brackets, and its state.
`test_unregistering_w_instances` and `test_disposing_w_instances` search for a
word, a second word — the color — and the state, with nothing but space
between.  What stands before the state in a HDDS line is a bracket, so no
match can end there (`eventLine_never_understood`).

The bracket can do harm as well: where all eight hex digits are decimal the
line has a `[digits]` in it and passes for a sample (`noSample_eventLine_iff`).
For a short color the four bytes are the length of the color, and they are.
-/
import DdsRtps.Harness.SampleLines

namespace DdsRtps.Harness

open Regex
open PyUnicode (digit)
open Hdds (ShapeType)

/-- `hdds::engine::DisposeKind`. -/
inductive DisposeKind where
  | disposed
  | unregistered
  | disposedUnregistered
deriving DecidableEq, Repr

/-- `state_str`. -/
def DisposeKind.stateStr : DisposeKind → String
  | .disposed => "NOT_ALIVE_DISPOSED_INSTANCE_STATE"
  | .unregistered => "NOT_ALIVE_NO_WRITERS_INSTANCE_STATE"
  | .disposedUnregistered => "NOT_ALIVE_DISPOSED_INSTANCE_STATE"

/-- `{:02x}`. -/
def hex02 (b : UInt8) : List Char :=
  [Nat.digitChar (b.toNat / 16), Nat.digitChar (b.toNat % 16)]

/-- `{:02x}{:02x}{:02x}{:02x}` of the first four bytes of a key hash. -/
def hashText (keyHash : List UInt8) : List Char := (keyHash.take 4).flatMap hex02

/-- The line of a dispose event, without its end. -/
def eventLine (topic : String) (keyHash : List UInt8) (kind : DisposeKind) : List Char :=
  padded .hdds topic ++ [' ', '['] ++ hashText keyHash ++ [']', ' '] ++ kind.stateStr.toList

/-- `\w+\s+(\w+)\s+` and the state: `NOT_ALIVE_NO_WRITERS_INSTANCE_STATE` in
`test_unregistering_w_instances`, `NOT_ALIVE_DISPOSED_INSTANCE_STATE` in
`test_disposing_w_instances`. -/
def instanceState (py : PyUnicode) (state : String) : Regex Char :=
  cat [plus py.word, plus py.space, .group 1 (plus py.word), plus py.space, lit state.toList]

/-- A match of the state pattern ends with the line, `before` standing before
it, and holds this color. -/
def EndsInstance (py : PyUnicode) (kind : DisposeKind) (before line color : List Char) : Prop :=
  ∃ b u cs, before ++ line = b ++ u ∧ Parse (instanceState py kind.stateStr) u cs ∧
    cs.lookup 1 = some color

/-- Whatever stands before a HDDS line, no match of the pattern that the checks
search for ends with it. -/
theorem not_endsInstance (py : PyUnicode) (topic : String) (keyHash : List UInt8)
    (kind : DisposeKind) (before color : List Char) :
    ¬ EndsInstance py kind before (eventLine topic keyHash kind) color := by
  rintro ⟨b, u, cs, h, hp, -⟩
  obtain ⟨w₁, _, _, _, -, h₁, rfl, rfl⟩ := parse_cat_cons_iff.mp hp
  obtain ⟨s₁, _, _, _, -, h₂, rfl, rfl⟩ := parse_cat_cons_iff.mp h₁
  obtain ⟨w₂, _, _, _, pw₂, h₃, rfl, rfl⟩ := parse_cat_cons_iff.mp h₂
  obtain ⟨s₂, _, _, _, ps₂, h₄, rfl, rfl⟩ := parse_cat_cons_iff.mp h₃
  obtain ⟨_, _, _, _, pstate, h₅, rfl, rfl⟩ := parse_cat_cons_iff.mp h₄
  obtain ⟨rfl, rfl⟩ := parse_cat_nil_iff.mp h₅
  obtain ⟨rfl, rfl⟩ := parse_lit_iff.mp pstate
  obtain ⟨-, hs₂, rfl⟩ := parse_plus_iff.mp ps₂
  obtain ⟨_, pword, rfl⟩ := parse_group_iff.mp pw₂
  obtain ⟨hw₂, hw₂', rfl⟩ := parse_plus_iff.mp pword
  -- the state, the space before it, and what is before that, on both sides
  have hcut : (before ++ padded .hdds topic ++ [' ', '['] ++ hashText keyHash ++ [']']) ++ [' '] =
      (b ++ w₁ ++ s₁ ++ w₂) ++ s₂ := by
    have hall : (before ++ padded .hdds topic ++ [' ', '['] ++ hashText keyHash ++ [']'] ++ [' ']) ++
        kind.stateStr.toList = (b ++ w₁ ++ s₁ ++ w₂ ++ s₂) ++ kind.stateStr.toList := by
      simpa [eventLine] using h
    exact List.append_cancel_right hall
  obtain ⟨hends, -⟩ := append_inj_of_endsOutside hcut
    (by simpa using py.space_blank) hs₂
    (endsOutside_append (by simp) (by simpa using py.space_closing))
    (endsOutside_append hw₂ fun c hc => py.space_of_word (hw₂' c hc))
  -- a `]` where a word ends
  have hlast := congrArg List.getLast? hends
  rw [List.getLast?_append_of_ne_nil _ (by simp), List.getLast?_append_of_ne_nil _ hw₂] at hlast
  have hword := hw₂' ']' (List.mem_of_getLast? (Option.mem_def.mpr hlast.symm))
  rw [py.word_closing] at hword
  cases hword

/-- What a HDDS line has to be for the harness: the end of an instance, in some
surroundings at least, and no sample. -/
structure Understood (py : PyUnicode) (topic : String) (keyHash : List UInt8)
    (kind : DisposeKind) : Prop where
  ends : ∃ before color, EndsInstance py kind before (eventLine topic keyHash kind) color
  noSample : NoSample (eventLine topic keyHash kind)

/-- **No HDDS line is understood**, whatever topic, key hash and event it is
for. -/
theorem eventLine_never_understood (py : PyUnicode) (topic : String) (keyHash : List UInt8)
    (kind : DisposeKind) : ¬ Understood py topic keyHash kind := by
  rintro ⟨⟨before, color, h⟩, -⟩
  exact not_endsInstance py topic keyHash kind before color h

/-- The blue square loses its writers: its line ends no instance, and counts as
a sample of size 5. -/
theorem blue_event_misread :
    ∃ keyHash, ShapeType.computeKeyHash ⟨"BLUE", 0, 0, 30, []⟩ = .ok keyHash ∧
      eventLine "Square" keyHash .unregistered =
        "Square     [00000005] NOT_ALIVE_NO_WRITERS_INSTANCE_STATE".toList ∧
      ¬ NoSample (eventLine "Square" keyHash .unregistered) ∧
      ¬ Understood .ascii "Square" keyHash .unregistered := by
  refine ⟨[0, 0, 0, 5, 66, 76, 85, 69, 0, 0, 0, 0, 0, 0, 0, 0], by decide, by decide, ?_, ?_⟩
  · rw [noSample_iff]
    intro h
    exact h "Square     ".toList "00000005".toList " NOT_ALIVE_NO_WRITERS_INSTANCE_STATE".toList
      (by decide) (List.all_eq_true.mp (by decide)) (by decide)
  · rintro ⟨⟨before, color, h⟩, -⟩
    exact not_endsInstance _ _ _ _ _ _ h

/-! ## When it passes for a sample -/

theorem digit_digitChar_iff {n : Nat} : digit n.digitChar = true ↔ n < 10 := by
  rw [digit, Nat.isDigit_digitChar, decide_eq_true_eq]

theorem digit_hashText_iff {keyHash : List UInt8} :
    (∀ c ∈ hashText keyHash, digit c = true) ↔
      ∀ b ∈ keyHash.take 4, b.toNat / 16 < 10 ∧ b.toNat % 16 < 10 := by
  simp only [hashText, List.mem_flatMap, hex02, List.mem_cons, List.not_mem_nil, or_false]
  constructor
  · intro h b hb
    exact ⟨digit_digitChar_iff.mp (h _ ⟨b, hb, .inl rfl⟩),
      digit_digitChar_iff.mp (h _ ⟨b, hb, .inr rfl⟩)⟩
  · rintro h c ⟨b, hb, rfl | rfl⟩
    · exact digit_digitChar_iff.mpr (h b hb).1
    · exact digit_digitChar_iff.mpr (h b hb).2

theorem not_mem_hashText {keyHash : List UInt8} : '[' ∉ hashText keyHash ∧ ']' ∉ hashText keyHash := by
  have hchar : ∀ n < 16, Nat.digitChar n ≠ '[' ∧ Nat.digitChar n ≠ ']' := by decide
  have hmem : ∀ c ∈ hashText keyHash, ∃ n < 16, c = Nat.digitChar n := by
    simp only [hashText, List.mem_flatMap, hex02, List.mem_cons, List.not_mem_nil, or_false]
    rintro c ⟨b, -, rfl | rfl⟩
    · exact ⟨_, by have := b.toNat_lt; omega, rfl⟩
    · exact ⟨_, Nat.mod_lt _ (by decide), rfl⟩
  constructor
  · intro h
    obtain ⟨n, hn, heq⟩ := hmem _ h
    exact (hchar n hn).1 heq.symm
  · intro h
    obtain ⟨n, hn, heq⟩ := hmem _ h
    exact (hchar n hn).2 heq.symm

/-- A HDDS line passes for a sample exactly when its four bytes have decimal
digits only. -/
theorem noSample_eventLine_iff {py : PyUnicode} {topic : String} {keyHash : List UInt8}
    {kind : DisposeKind} (htopic : ∀ c ∈ topic.toList, py.word c = true)
    (hhash : keyHash.length = 16) :
    NoSample (eventLine topic keyHash kind) ↔
      ∃ b ∈ keyHash.take 4, 10 ≤ b.toNat / 16 ∨ 10 ≤ b.toNat % 16 := by
  have hline : eventLine topic keyHash kind =
      (padded .hdds topic ++ [' ']) ++ '[' :: (hashText keyHash ++ ']' ::
        (' ' :: kind.stateStr.toList)) := by
    simp [eventLine]
  have hne : hashText keyHash ≠ [] := by
    cases keyHash with
    | nil => cases hhash
    | cons b rest => simp [hashText, hex02]
  have hbefore : '[' ∉ padded .hdds topic ++ [' '] := by
    simp only [padded, List.mem_append, not_or]
    refine ⟨⟨fun h => ?_, fun h => absurd (List.eq_of_mem_replicate h) (by decide)⟩, by decide⟩
    have hword := htopic _ h
    rw [py.word_bracket] at hword
    cases hword
  have hafter : '[' ∉ ' ' :: kind.stateStr.toList := by
    cases kind <;> decide
  constructor
  · intro h
    by_contra hall
    have hdigit : ∀ c ∈ hashText keyHash, digit c = true := by
      rw [digit_hashText_iff]
      intro b hb
      constructor
      · by_contra hlt
        exact hall ⟨b, hb, .inl (not_lt.mp hlt)⟩
      · by_contra hlt
        exact hall ⟨b, hb, .inr (not_lt.mp hlt)⟩
    exact noSample_iff.mp h _ _ _ hne hdigit hline
  · rintro ⟨b, hb, hbig⟩
    rw [noSample_iff]
    intro a d v hd hdigit h
    rw [hline] at h
    -- the only `[` is the one before the hash
    have ha : a = padded .hdds topic ++ [' '] := by
      rcases List.append_eq_append_iff.mp h with ⟨w, rfl, hw⟩ | ⟨w, hw, hrest⟩
      · cases w with
        | nil => simp
        | cons c w =>
            exfalso
            have hmem : '[' ∈ hashText keyHash ++ ']' :: ' ' :: kind.stateStr.toList := by
              rw [(List.cons.inj hw).2]
              simp
            rcases List.mem_append.mp hmem with hmem | hmem
            · exact not_mem_hashText.1 hmem
            · rcases List.mem_cons.mp hmem with hmem | hmem
              · exact absurd hmem (by decide)
              · exact hafter hmem
      · cases w with
        | nil => simpa using hw.symm
        | cons c w =>
            exfalso
            obtain ⟨rfl, -⟩ := List.cons.inj hrest
            exact hbefore (by rw [hw]; simp)
    rw [ha, List.append_cancel_left_eq] at h
    obtain ⟨hsame, -, -⟩ := append_cons_inj (p := fun c => c != ']') (List.cons.inj h).2
      (fun c hc => by simpa using fun heq => not_mem_hashText.2 (heq ▸ hc))
      (fun c hc => by simpa using fun heq => absurd (heq ▸ hdigit c hc) (by decide))
      (by decide) (by decide)
    rw [← hsame] at hdigit
    have hsmall := digit_hashText_iff.mp hdigit b hb
    omega

end DdsRtps.Harness
