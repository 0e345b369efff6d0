/-
# `DdsRtps.Harness.Report` — the result of a test case and its message

The end of `run_test` in interoperability_report.py: the return codes are
compared with the expected ones, and for a test case that is not passed a
message is made, a table with a row for each entity and then the output of
each, with its escape sequences removed.

`remove_ansi_colors` is applied to the whole message.  `removeAnsiColors_append`
says that this cleans each output by itself: no escape sequence reaches from an
output into the ` <br>` behind it.
-/
import DdsRtps.Harness.ReturnCode
import DdsRtps.Lib.Regex
import Mathlib.Data.List.Infix

namespace DdsRtps.Harness

open Regex

/-! ## Escape sequences -/

/-- `[@-Z\\-_]`. -/
def ansiC1 (c : Char) : Bool :=
  (0x40 ≤ c.toNat && c.toNat ≤ 0x5A) || (0x5C ≤ c.toNat && c.toNat ≤ 0x5F)

/-- `[0-?]`. -/
def ansiParameter (c : Char) : Bool := 0x30 ≤ c.toNat && c.toNat ≤ 0x3F

/-- From the blank to the slash. -/
def ansiIntermediate (c : Char) : Bool := 0x20 ≤ c.toNat && c.toNat ≤ 0x2F

/-- `[@-~]`. -/
def ansiFinal (c : Char) : Bool := 0x40 ≤ c.toNat && c.toNat ≤ 0x7E

/-- `\x1B(?:[@-Z\\-_]|\[[0-?]*I*[@-~])`, where `I` goes from the blank to the
slash. -/
def ansiEscape : Regex Char :=
  cat [lit ['\x1b'], .alt (.one ansiC1)
    (cat [lit ['['], many ansiParameter, many ansiIntermediate, .one ansiFinal])]

/-- `remove_ansi_colors`. -/
def removeAnsiColors (text : List Char) : List Char := deleteAll ansiEscape 0 text

/-! ## The message -/

/-- An entity of a test case: its parameters, the expected code and the code
produced, and the output of its shape_main. -/
structure Entity where
  parameters : String
  expectedCode : ReturnCode
  returnCode : ReturnCode
  output : List Char
deriving DecidableEq, Repr

/-- Publisher or subscriber, by the parameters. -/
inductive Role where
  | publisher
  | subscriber
deriving DecidableEq, Repr

/-- `'-P ' in parameters or parameters.endswith('-P')`, and so for `-S`. -/
def roleOf (parameters : String) : Option Role :=
  if "-P ".toList <:+: parameters.toList ∨ "-P".toList <:+ parameters.toList then some .publisher
  else if "-S ".toList <:+: parameters.toList ∨ "-S".toList <:+ parameters.toList then
    some .subscriber
  else none

/-- `entity_type`: the entities are numbered by role.  `none` is the
`RuntimeError` of an entity that is neither. -/
def entityTypes (publisherNumber subscriberNumber : Nat) : List Entity → Option (List (List Char))
  | [] => some []
  | e :: rest =>
      match roleOf e.parameters with
      | some .publisher =>
          (entityTypes (publisherNumber + 1) subscriberNumber rest).map
            (("Publisher_".toList ++ Nat.toDigits 10 (publisherNumber + 1)) :: ·)
      | some .subscriber =>
          (entityTypes publisherNumber (subscriberNumber + 1) rest).map
            (("Subscriber_".toList ++ Nat.toDigits 10 (subscriberNumber + 1)) :: ·)
      | none => none

/-- Newlines and the SIGINT character become `<br>`. -/
def editOutput (output : List Char) : List Char :=
  output.flatMap fun c => if c = '\n' ∨ c = '\x03' then "<br>".toList else [c]

/-- The head of the table. -/
def tableHead : List Char :=
  ("<table> " ++ "<tr> " ++ "<th/> " ++ "<th> Expected Code </th> " ++ "<th> Code Produced </th> " ++
    "</tr> ").toList

/-- `<th> … </th>`. -/
def cell (text : List Char) : List Char := "<th> ".toList ++ text ++ " </th>".toList

/-- The row of an entity. -/
def tableRow (entityType : List Char) (e : Entity) : List Char :=
  "<tr> ".toList ++ cell entityType ++ [' '] ++ cell e.expectedCode.name.toList ++ [' '] ++
    cell e.returnCode.name.toList ++ " </tr>".toList

/-- The output of an entity, below the table. -/
def information (entityType : List Char) (e : Entity) : List Char :=
  "<strong> Information ".toList ++ entityType ++ " </strong>".toList ++ "<br> ".toList ++
    editOutput e.output ++ " <br>".toList

/-- The message, with its escape sequences. -/
def rawMessage (named : List (List Char × Entity)) : List Char :=
  tableHead ++ named.flatMap (fun (name, e) => tableRow name e) ++ "</table>".toList ++
    named.flatMap (fun (name, e) => information name e)

/-- What a test case is left with: the tag of its result, and the message. -/
inductive CaseResult where
  | passed
  | skipped (message : List Char)
  | failure (message : List Char)
deriving DecidableEq, Repr

/-- `rc in (PUB_UNSUPPORTED_FEATURE, SUB_UNSUPPORTED_FEATURE)`. -/
def ReturnCode.isUnsupported (c : ReturnCode) : Bool :=
  c = .pubUnsupportedFeature || c = .subUnsupportedFeature

/-- The result `run_test` gives to a test case. -/
def runTest (entities : List Entity) : Option CaseResult :=
  (entityTypes 0 0 entities).map fun names =>
    let message := removeAnsiColors (rawMessage (names.zip entities))
    if entities.all fun e => e.expectedCode = e.returnCode then .passed
    else if entities.any fun e => e.returnCode.isUnsupported then .skipped message
    else .failure message

/-! ## Where escape sequences end -/

theorem parse_ansiEscape_iff {u : List Char} {cs : Captures Char} :
    Parse ansiEscape u cs ↔ cs = [] ∧
      ((∃ c, ansiC1 c = true ∧ u = ['\x1b', c]) ∨
        ∃ p i f, (∀ c ∈ p, ansiParameter c = true) ∧ (∀ c ∈ i, ansiIntermediate c = true) ∧
          ansiFinal f = true ∧ u = '\x1b' :: '[' :: (p ++ (i ++ [f]))) := by
  constructor
  · intro h
    obtain ⟨_, _, _, _, pesc, h₁, rfl, rfl⟩ := parse_cat_cons_iff.mp h
    obtain ⟨u, _, _, _, palt, h₂, rfl, rfl⟩ := parse_cat_cons_iff.mp h₁
    obtain ⟨rfl, rfl⟩ := parse_cat_nil_iff.mp h₂
    obtain ⟨rfl, rfl⟩ := parse_lit_iff.mp pesc
    rcases palt with ⟨c, hc, rfl, rfl⟩ | pcsi
    · exact ⟨rfl, .inl ⟨c, hc, rfl⟩⟩
    · obtain ⟨_, _, _, _, popen, h₃, rfl, rfl⟩ := parse_cat_cons_iff.mp pcsi
      obtain ⟨p, _, _, _, ⟨hp, rfl⟩, h₄, rfl, rfl⟩ := parse_cat_cons_iff.mp h₃
      obtain ⟨i, _, _, _, ⟨hi, rfl⟩, h₅, rfl, rfl⟩ := parse_cat_cons_iff.mp h₄
      obtain ⟨_, _, _, _, ⟨f, hf, rfl, rfl⟩, h₆, rfl, rfl⟩ := parse_cat_cons_iff.mp h₅
      obtain ⟨rfl, rfl⟩ := parse_cat_nil_iff.mp h₆
      obtain ⟨rfl, rfl⟩ := parse_lit_iff.mp popen
      exact ⟨rfl, .inr ⟨p, i, f, hp, hi, hf, by simp⟩⟩
  · rintro ⟨rfl, ⟨c, hc, rfl⟩ | ⟨p, i, f, hp, hi, hf, rfl⟩⟩
    · exact ⟨['\x1b'], [], [c], [], parse_lit_iff.mpr ⟨rfl, rfl⟩,
        ⟨[c], [], [], [], .inl ⟨c, hc, rfl, rfl⟩, ⟨rfl, rfl⟩, rfl, rfl⟩, rfl, rfl⟩
    · have hcsi : Parse (cat [lit ['['], many ansiParameter, many ansiIntermediate,
          .one ansiFinal]) ('[' :: (p ++ (i ++ [f]))) [] :=
        ⟨['['], [], _, _, parse_lit_iff.mpr ⟨rfl, rfl⟩, ⟨p, [], _, _, ⟨hp, rfl⟩,
          ⟨i, [], _, _, ⟨hi, rfl⟩, ⟨[f], [], [], [], ⟨f, hf, rfl, rfl⟩, ⟨rfl, rfl⟩, rfl, rfl⟩,
          rfl, rfl⟩, rfl, rfl⟩, by simp, rfl⟩
      exact ⟨['\x1b'], [], _, [], parse_lit_iff.mpr ⟨rfl, rfl⟩,
        ⟨'[' :: (p ++ (i ++ [f])), [], [], [], .inr hcsi, ⟨rfl, rfl⟩, by simp, rfl⟩, rfl, rfl⟩

theorem ansiParameter_of_intermediate {c : Char} (h : ansiIntermediate c = true) :
    ansiParameter c = false := by
  simp only [ansiIntermediate, ansiParameter, Bool.and_eq_true, decide_eq_true_eq,
    Bool.and_eq_false_iff, decide_eq_false_iff_not] at *
  omega

theorem ansiParameter_of_final {c : Char} (h : ansiFinal c = true) : ansiParameter c = false := by
  simp only [ansiFinal, ansiParameter, Bool.and_eq_true, decide_eq_true_eq,
    Bool.and_eq_false_iff, decide_eq_false_iff_not] at *
  omega

theorem ansiIntermediate_of_final {c : Char} (h : ansiFinal c = true) :
    ansiIntermediate c = false := by
  simp only [ansiFinal, ansiIntermediate, Bool.and_eq_true, decide_eq_true_eq,
    Bool.and_eq_false_iff, decide_eq_false_iff_not] at *
  omega

theorem startsOutside_parameter {i v : List Char} {f : Char}
    (hi : ∀ c ∈ i, ansiIntermediate c = true) (hf : ansiFinal f = true) :
    StartsOutside ansiParameter (i ++ f :: v) := by
  intro c hc
  cases i with
  | nil =>
      obtain rfl := Option.some.inj hc
      exact ansiParameter_of_final hf
  | cons d i =>
      obtain rfl := Option.some.inj hc
      exact ansiParameter_of_intermediate (hi _ List.mem_cons_self)

/-- A text has one escape sequence at its head at most. -/
theorem ansiEscape_unique {u u' v v' : List Char} {cs cs' : Captures Char}
    (h : u ++ v = u' ++ v') (hp : Parse ansiEscape u cs) (hp' : Parse ansiEscape u' cs') :
    u' = u ∧ cs' = cs := by
  obtain ⟨rfl, hu⟩ := parse_ansiEscape_iff.mp hp
  obtain ⟨rfl, hu'⟩ := parse_ansiEscape_iff.mp hp'
  refine ⟨?_, rfl⟩
  rcases hu with ⟨c, hc, rfl⟩ | ⟨p, i, f, hparam, hi, hf, rfl⟩
  · rcases hu' with ⟨c', hc', rfl⟩ | ⟨p', i', f', hp', hi', hf', rfl⟩
    · simpa using (List.cons.inj (List.cons.inj h).2).1.symm
    · obtain ⟨rfl, -⟩ := List.cons.inj (List.cons.inj h).2
      exact absurd hc (by decide)
  · rcases hu' with ⟨c', hc', rfl⟩ | ⟨p', i', f', hparam', hi', hf', rfl⟩
    · obtain ⟨rfl, -⟩ := List.cons.inj (List.cons.inj h).2
      exact absurd hc' (by decide)
    · have hbody : p ++ (i ++ f :: v) = p' ++ (i' ++ f' :: v') := by simpa using h
      obtain ⟨rfl, hrest⟩ := append_inj_of_startsOutside hbody hparam hparam'
        (startsOutside_parameter hi hf) (startsOutside_parameter hi' hf')
      obtain ⟨rfl, rfl, -⟩ := append_cons_inj hrest hi hi' (ansiIntermediate_of_final hf)
        (ansiIntermediate_of_final hf')
      rfl

/-- No escape sequence reaches over a blank and a `<`. -/
theorem length_ansiEscape_le {s t u v : List Char} {cs : Captures Char} (hs : s ≠ [])
    (h : s ++ ' ' :: '<' :: t = u ++ v) (hp : Parse ansiEscape u cs) : u.length ≤ s.length := by
  by_contra hlong
  obtain ⟨w, rfl⟩ : ∃ w, u = s ++ w := by
    rcases List.append_eq_append_iff.mp h with ⟨w, hw, -⟩ | ⟨w, rfl, -⟩
    · exact ⟨w, hw⟩
    · simp at hlong
  obtain ⟨w', rfl, htail⟩ : ∃ w', w = ' ' :: w' ∧ ∃ v', '<' :: t = w' ++ v' := by
    rw [List.append_assoc, List.append_cancel_left_eq] at h
    cases w with
    | nil => simp at hlong
    | cons c w =>
        obtain ⟨rfl, hrest⟩ := List.cons.inj h
        exact ⟨w, rfl, v, hrest⟩
  obtain ⟨-, ⟨c, hc, hu⟩ | ⟨p, i, f, hparam, hi, hf, hu⟩⟩ := parse_ansiEscape_iff.mp hp
  · cases s with
    | nil => exact hs rfl
    | cons a s =>
        obtain ⟨-, hu⟩ := List.cons.inj hu
        cases s with
        | nil =>
            obtain ⟨rfl, -⟩ := List.cons.inj hu
            exact absurd hc (by decide)
        | cons b s => simp at hu
  · -- what stands behind the blank is an intermediate or the end
    obtain ⟨s', hbody⟩ : ∃ s', s' ++ ' ' :: w' = p ++ (i ++ [f]) := by
      cases s with
      | nil => exact absurd rfl hs
      | cons a s =>
          obtain ⟨-, hu⟩ := List.cons.inj hu
          cases s with
          | nil => exact absurd (List.cons.inj hu).1 (by decide)
          | cons b s => exact ⟨s, (List.cons.inj hu).2⟩
    have hbehind : ∃ x, i ++ [f] = x ++ ' ' :: w' := by
      rcases List.append_eq_append_iff.mp hbody with ⟨x, rfl, hx⟩ | ⟨x, rfl, hx⟩
      · cases x with
        | nil => exact ⟨[], by simpa using hx.symm⟩
        | cons c x =>
            obtain ⟨rfl, -⟩ := List.cons.inj hx
            exact absurd (hparam ' ' (by simp)) (by decide)
      · exact ⟨x, hx⟩
    obtain ⟨x, hx⟩ := hbehind
    obtain ⟨v', htail⟩ := htail
    cases w' with
    | nil =>
        have hlast := congrArg List.getLast? hx
        simp only [List.getLast?_concat] at hlast
        obtain rfl := Option.some.inj hlast
        exact absurd hf (by decide)
    | cons c w' =>
        obtain ⟨rfl, -⟩ := List.cons.inj htail
        have hmem : '<' ∈ i ++ [f] := by rw [hx]; simp
        rcases List.mem_append.mp hmem with hmem | hmem
        · exact absurd (hi _ hmem) (by decide)
        · rw [← List.mem_singleton.mp hmem] at hf
          exact absurd hf (by decide)

theorem removeAnsiColors_append (s t : List Char) :
    removeAnsiColors (s ++ ' ' :: '<' :: t) =
      removeAnsiColors s ++ removeAnsiColors (' ' :: '<' :: t) := by
  refine deleteAll_append ?_ (Nat.zero_le _)
  rintro b a c rfl
  cases hshort : first ansiEscape (a :: c) with
  | some m =>
      obtain ⟨u, cs, v⟩ := m
      obtain ⟨hsplit, hp⟩ := parse_of_first hshort
      rw [hsplit, List.append_assoc,
        first_eq_some hp fun u' v' cs' h hp' => ansiEscape_unique h hp hp']
      rfl
  | none =>
      cases hlong : first ansiEscape (a :: c ++ ' ' :: '<' :: t) with
      | none => rfl
      | some m =>
          obtain ⟨u, cs, v⟩ := m
          obtain ⟨hsplit, hp⟩ := parse_of_first hlong
          have hle := length_ansiEscape_le (by simp) hsplit hp
          rcases List.append_eq_append_iff.mp hsplit with ⟨w, rfl, -⟩ | ⟨w, hw, -⟩
          · rw [List.length_append] at hle
            obtain rfl : w = [] := List.length_eq_zero_iff.mp (by omega)
            exact absurd hp (first_eq_none_iff.mp hshort _ [] cs (by simp))
          · exact absurd hp (first_eq_none_iff.mp hshort _ w cs hw)

theorem removeAnsiColors_quiet {s : List Char} (h : '\x1b' ∉ s) (t : List Char) :
    removeAnsiColors (s ++ t) = s ++ removeAnsiColors t := by
  refine deleteAll_quiet (quietBefore_of_not_mem (fun u cs hp => ?_) h t)
  obtain ⟨-, ⟨_, -, rfl⟩ | ⟨_, _, _, -, -, -, rfl⟩⟩ := parse_ansiEscape_iff.mp hp
  · rfl
  · rfl

end DdsRtps.Harness
