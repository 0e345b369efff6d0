/-
# `DdsRtps.Analysis.ReportRead` — the analyser reads what the harness reports

The harness writes a message, the analyser finds rows in it.  After the head of
the table, in which three cells never stand together, there is a row for each
entity; what follows the table has no `<th>`, if the outputs have none.  So
the rows found are those of the entities (`parseOutcomeRows_message`), and the
status of the test case is what the codes say (`report_read_back`).
-/
import DdsRtps.Analysis.Loader
import DdsRtps.Harness.Report

namespace DdsRtps.Analysis

open Regex
open Harness

/-! ## Names -/

/-- Letters, digits and `_`. -/
def plain (c : Char) : Bool := c.isAlphanum || c == '_'

theorem toNat_lt_of_isAlphanum {c : Char} (h : c.isAlphanum = true) : c.toNat < 128 := by
  have hranges := isAlphanum_iff.mp h
  omega

theorem space_of_plain (py : PyUnicode) {c : Char} (h : plain c = true) : py.space c = false := by
  refine py.space_of_word ?_
  rw [PyUnicode.word]
  simp only [plain, Bool.or_eq_true] at h ⊢
  rcases h with h | h
  · exact .inl ((py.isAlnum_ascii c (toNat_lt_of_isAlphanum h)).trans h)
  · exact .inr h

theorem notOpening_of_plain {c : Char} (h : plain c = true) : notOpening c = true := by
  rw [notOpening, bne_iff_ne]
  rintro rfl
  exact absurd h (by decide)

/-- A name of an entity or of a code. -/
def IsName (t : List Char) : Prop := t ≠ [] ∧ ∀ c ∈ t, plain c = true

theorem isName_code (c : ReturnCode) : IsName c.name.toList := by
  cases c <;> exact ⟨by decide, List.all_eq_true.mp (by decide)⟩

theorem isName_numbered {prefix_ : List Char} (h : ∀ c ∈ prefix_, plain c = true) (n : Nat) :
    IsName (prefix_ ++ Nat.toDigits 10 n) := by
  refine ⟨by simp [Nat.toDigits_ne_nil], fun c hc => ?_⟩
  rcases List.mem_append.mp hc with hc | hc
  · exact h c hc
  · rw [plain, Char.isAlphanum, Nat.isDigit_of_mem_toDigits (by decide) (by decide) hc]
    simp

theorem isName_entityTypes {entities : List Entity} {p s : Nat} {names : List (List Char)}
    (h : entityTypes p s entities = some names) :
    names.length = entities.length ∧ ∀ name ∈ names, IsName name := by
  induction entities generalizing p s names with
  | nil =>
      obtain rfl := Option.some.inj h
      simp
  | cons e rest ih =>
      have hcons : ∀ {p' s' : Nat} {name : List Char}, IsName name →
          (entityTypes p' s' rest).map (name :: ·) = some names →
          names.length = (e :: rest).length ∧ ∀ name ∈ names, IsName name := by
        intro p' s' name hname h
        obtain ⟨names', hrest, rfl⟩ := Option.map_eq_some_iff.mp h
        obtain ⟨hlen, hall⟩ := ih hrest
        exact ⟨by simp [hlen], List.forall_mem_cons.mpr ⟨hname, hall⟩⟩
      unfold entityTypes at h
      split at h
      · exact hcons (isName_numbered (List.all_eq_true.mp (by decide)) _) h
      · exact hcons (isName_numbered (List.all_eq_true.mp (by decide)) _) h
      · cases h

theorem strip_name (py : PyUnicode) {t : List Char} (h : IsName t) : py.strip (blanked t) = t := by
  refine py.strip_blank_around (fun c hc => ?_) (fun c hc => ?_) h.1
  · exact space_of_plain py (h.2 c (List.mem_of_head? hc))
  · exact space_of_plain py (h.2 c (List.mem_of_getLast? hc))

/-! ## The message without its escape sequences -/

/-- What is left of an output. -/
def cleanOutput (e : Entity) : List Char := removeAnsiColors (editOutput e.output)

/-- What stands before an output. -/
def informationHead (name : List Char) : List Char :=
  "<strong> Information ".toList ++ name ++ " </strong>".toList ++ "<br> ".toList

/-- What is left of the text below the table. -/
def cleanInformation (named : List (List Char × Entity)) : List Char :=
  named.flatMap fun (name, e) => informationHead name ++ (cleanOutput e ++ " <br>".toList)

theorem not_mem_name {c : Char} (hc : plain c = false) {t : List Char} (h : IsName t) : c ∉ t :=
  fun hmem => by
    rw [h.2 c hmem] at hc
    cases hc

theorem information_eq (name : List Char) (e : Entity) (rest : List Char) :
    information name e ++ rest =
      informationHead name ++ (editOutput e.output ++ ' ' :: '<' :: ("br>".toList ++ rest)) := by
  have hbreak : " <br>".toList = ' ' :: '<' :: "br>".toList := rfl
  unfold information informationHead
  simp only [hbreak, List.append_assoc, List.cons_append]

theorem removeAnsiColors_information {named : List (List Char × Entity)}
    (h : ∀ n ∈ named, IsName n.1) :
    removeAnsiColors (named.flatMap fun (name, e) => information name e) =
      cleanInformation named := by
  induction named with
  | nil => rfl
  | cons n named ih =>
      obtain ⟨name, e⟩ := n
      rw [List.forall_mem_cons] at h
      have hhead : '\x1b' ∉ informationHead name := by
        unfold informationHead
        simp only [List.mem_append, not_or]
        exact ⟨⟨⟨by decide, not_mem_name (by decide) h.1⟩, by decide⟩, by decide⟩
      have htail : '\x1b' ∉ " <br>".toList := by decide
      rw [List.flatMap_cons, information_eq, removeAnsiColors_quiet hhead, removeAnsiColors_append]
      have hbreak := removeAnsiColors_quiet htail
        (named.flatMap fun (name, e) => information name e)
      rw [ih h.2] at hbreak
      rw [cleanInformation, List.flatMap_cons, List.append_assoc, List.append_assoc]
      exact congrArg (informationHead name ++ ·) (congrArg (cleanOutput e ++ ·) hbreak)

/-- The rows of the table. -/
def tableRows (named : List (List Char × Entity)) : List Char :=
  named.flatMap fun (name, e) => tableRow name e

theorem tableRow_eq (name : List Char) (e : Entity) :
    tableRow name e = "<tr> ".toList ++ (cells name e.expectedCode.name.toList
      e.returnCode.name.toList ++ " </tr>".toList) := by
  have hopen : "<th> ".toList = openCell ++ [' '] := rfl
  have hclose : " </th>".toList = ' ' :: closeCell := rfl
  unfold tableRow cell cells blanked
  simp only [hopen, hclose, List.append_assoc, List.cons_append, List.nil_append]

theorem not_mem_tableRows {named : List (List Char × Entity)} (h : ∀ n ∈ named, IsName n.1) :
    '\x1b' ∉ tableRows named := by
  intro hmem
  obtain ⟨⟨name, e⟩, hn, hmem⟩ := List.mem_flatMap.mp hmem
  have hnot : '\x1b' ∉ tableRow name e := by
    unfold tableRow cell
    simp only [List.mem_append, not_or]
    exact ⟨⟨⟨⟨⟨⟨by decide, ⟨by decide, not_mem_name (by decide) (h _ hn)⟩, by decide⟩, by decide⟩,
      ⟨by decide, not_mem_name (by decide) (isName_code _)⟩, by decide⟩, by decide⟩,
      ⟨by decide, not_mem_name (by decide) (isName_code _)⟩, by decide⟩, by decide⟩
  exact hnot hmem

/-- The message, cleaned. -/
theorem removeAnsiColors_rawMessage {named : List (List Char × Entity)}
    (h : ∀ n ∈ named, IsName n.1) :
    removeAnsiColors (rawMessage named) =
      tableHead ++ (tableRows named ++ ("</table>".toList ++ cleanInformation named)) := by
  have hhead : '\x1b' ∉ tableHead := by decide
  have hend : '\x1b' ∉ "</table>".toList := by decide
  rw [rawMessage, List.append_assoc, List.append_assoc, removeAnsiColors_quiet hhead,
    ← tableRows, removeAnsiColors_quiet (not_mem_tableRows h), removeAnsiColors_quiet hend,
    removeAnsiColors_information h]

/-! ## The rows found -/

variable {py : PyUnicode}

/-! ### The head of the table -/

/-- A row that begins with a cell goes on with two. -/
theorem behind_cell {a t u v : List Char} {cs : Captures Char}
    (ha : ∀ c ∈ a, notOpening c = true) (hp : Parse (tableRowRe py) u cs)
    (h : openCell ++ (blanked a ++ (closeCell ++ ([' '] ++ '<' :: t))) = u ++ v) :
    ∃ b s w, (∀ c ∈ b, notOpening c = true) ∧ (∀ c ∈ s, py.space c = true) ∧
      t = "th>".toList ++ (b ++ (closeCell ++ (s ++ (openCell ++ w)))) := by
  have hblank : ∀ x ∈ [' '], py.space x = true := by simpa using py.space_blank
  obtain ⟨a', s, b, s', c', ha', hs, hb, hs', -, rfl, -⟩ := parse_tableRowRe_iff.mp hp
  simp only [List.append_assoc, List.append_cancel_left_eq] at h
  obtain ⟨-, h₁⟩ := cell_cut (notOpening_blanked ha).2 ha'.2 h
  obtain ⟨-, h₂⟩ := space_cut py hblank hs h₁
  exact ⟨b, s', _, hb.2, hs', h₂⟩

/-- A cell with no other behind it is not the first of a row. -/
theorem first_cell_alone {a t : List Char} (ha : ∀ c ∈ a, notOpening c = true) :
    first (tableRowRe py)
      (openCell ++ (blanked a ++ (closeCell ++ ([' '] ++ '<' :: '/' :: t)))) = none := by
  rw [first_eq_none_iff]
  intro u v cs h hp
  obtain ⟨b, s, w, -, -, ht⟩ := behind_cell ha hp h
  exact absurd (List.cons.inj ht).1 (by decide)

/-- Nor are two cells. -/
theorem first_cells_two {a b t : List Char} (ha : ∀ c ∈ a, notOpening c = true)
    (hb : ∀ c ∈ b, notOpening c = true) :
    first (tableRowRe py) (openCell ++ (blanked a ++ (closeCell ++ ([' '] ++ (openCell ++
      (blanked b ++ (closeCell ++ ([' '] ++ '<' :: '/' :: t)))))))) = none := by
  have hblank : ∀ x ∈ [' '], py.space x = true := by simpa using py.space_blank
  rw [first_eq_none_iff]
  intro u v cs h hp
  obtain ⟨b', s, w, hb', hs, ht⟩ := behind_cell ha hp h
  obtain ⟨-, h₁⟩ := cell_cut (notOpening_blanked hb).2 hb' (List.append_cancel_left ht)
  obtain ⟨-, h₂⟩ := space_cut py hblank hs h₁
  exact absurd (List.cons.inj h₂).1 (by decide)

theorem quietBefore_openCell {t : List Char} (h : first (tableRowRe py) (openCell ++ t) = none) :
    QuietBefore (tableRowRe py) openCell t := by
  have hbehind : QuietBefore (tableRowRe py) "th>".toList t :=
    quietBefore_of_incompatible (by decide)
  intro b a c hs
  cases b with
  | nil =>
      rw [← List.nil_append (a :: c), ← hs]
      exact h
  | cons d b => exact hbehind b a c (List.cons.inj hs).2

theorem quietBefore_tableHead (t : List Char) : QuietBefore (tableRowRe py) tableHead t := by
  have hhead : tableHead = "<table> <tr> <th/> ".toList ++ (openCell ++
      ((blanked "Expected Code".toList ++ (closeCell ++ [' '])) ++ (openCell ++
        (blanked "Code Produced".toList ++ (closeCell ++ " </tr> ".toList))))) := rfl
  have hrow : " </tr> ".toList = [' '] ++ '<' :: '/' :: "tr> ".toList := rfl
  rw [hhead]
  refine (quietBefore_of_incompatible (by decide)).append ?_
  refine (quietBefore_openCell ?_).append ?_
  · simp only [hrow, List.append_assoc, List.cons_append]
    exact first_cells_two (List.all_eq_true.mp (by decide)) (List.all_eq_true.mp (by decide))
  refine (quietBefore_of_incompatible (by decide)).append ?_
  refine (quietBefore_openCell ?_).append (quietBefore_of_incompatible (by decide))
  simp only [hrow, List.append_assoc, List.cons_append]
  exact first_cell_alone (List.all_eq_true.mp (by decide))

/-! ### The rows -/

/-- The captures of a row. -/
def rowCaptures (named : List Char × Entity) : Captures Char :=
  [(1, blanked named.1), (2, blanked named.2.expectedCode.name.toList),
    (3, blanked named.2.returnCode.name.toList)]

theorem notOpening_of_isName {t : List Char} (h : IsName t) : ∀ c ∈ t, notOpening c = true :=
  fun c hc => notOpening_of_plain (h.2 c hc)

theorem findAll_tableRows {named : List (List Char × Entity)} (h : ∀ n ∈ named, IsName n.1)
    (t : List Char) :
    (findAll (tableRowRe py) 0 (tableRows named ++ t)).map Prod.snd =
      named.map rowCaptures ++ (findAll (tableRowRe py) 0 t).map Prod.snd := by
  induction named with
  | nil => rfl
  | cons n named ih =>
      obtain ⟨name, e⟩ := n
      rw [List.forall_mem_cons] at h
      have hopen : ∀ t', QuietBefore (tableRowRe py) "<tr> ".toList t' :=
        fun t' => quietBefore_of_incompatible (by decide)
      have hclose : ∀ t', QuietBefore (tableRowRe py) " </tr>".toList t' :=
        fun t' => quietBefore_of_incompatible (by decide)
      have hcells : ∀ t', first (tableRowRe py) (cells name e.expectedCode.name.toList
          e.returnCode.name.toList ++ t') = some (_, rowCaptures (name, e), t') :=
        fun t' => first_tableRowRe_cells (notOpening_of_isName h.1)
          (notOpening_of_isName (isName_code _)) (notOpening_of_isName (isName_code _))
      have hrows : tableRows ((name, e) :: named) = tableRow name e ++ tableRows named := rfl
      rw [hrows, tableRow_eq]
      simp only [List.append_assoc]
      rw [findAll_quiet (hopen _), findAll_match (by simp [cells, openCell]) (hcells _),
        findAll_quiet (hclose _), List.map_cons, ih h.2]
      rfl

/-! ### Below the table -/

theorem noOpen_of_not_mem {s : List Char} (h : '<' ∉ s) : NoOpen s :=
  fun hin => h (hin.subset (by decide))

theorem informationHead_eq (name : List Char) :
    informationHead name = "<strong>".toList ++ ' ' :: ("Information".toList ++ ' ' ::
      (name ++ ' ' :: ("</strong><br>".toList ++ [' ']))) := by
  have hinfo : "<strong> Information ".toList =
    "<strong>".toList ++ ' ' :: ("Information".toList ++ [' ']) := rfl
  have hstrong : " </strong>".toList = ' ' :: "</strong>".toList := rfl
  have hbreak : "<br> ".toList = "<br>".toList ++ [' '] := rfl
  have hboth : "</strong><br>".toList = "</strong>".toList ++ "<br>".toList := rfl
  unfold informationHead
  rw [hinfo, hstrong, hbreak, hboth]
  simp only [List.append_assoc, List.cons_append, List.nil_append]

/-- Every word below the table stands between blanks, but for the first, which
is joined to what is before it. -/
theorem noOpen_cleanInformation {named : List (List Char × Entity)}
    (h : ∀ n ∈ named, IsName n.1 ∧ NoOpen (cleanOutput n.2)) {s : List Char}
    (hs : NoOpen (s ++ "<strong>".toList)) (hs' : NoOpen s) :
    NoOpen (s ++ cleanInformation named) := by
  induction named generalizing s with
  | nil => rwa [cleanInformation, List.flatMap_nil, List.append_nil]
  | cons n named ih =>
      obtain ⟨name, e⟩ := n
      rw [List.forall_mem_cons] at h
      obtain ⟨⟨hname, hout⟩, hrest⟩ := h
      have htail : NoOpen ("<br>".toList ++ cleanInformation named) :=
        ih hrest (by decide) (by decide)
      have hname' : NoOpen name := noOpen_of_not_mem (not_mem_name (by decide) hname)
      have hword : NoOpen "Information".toList := by decide
      have hclose : NoOpen "</strong><br>".toList := by decide
      have hbreak : " <br>".toList = ' ' :: "<br>".toList := rfl
      have hcons : cleanInformation ((name, e) :: named) = informationHead name ++
        (cleanOutput e ++ " <br>".toList) ++ cleanInformation named := rfl
      have heq : s ++ cleanInformation ((name, e) :: named) =
          s ++ "<strong>".toList ++ ' ' :: ("Information".toList ++ ' ' :: (name ++ ' ' ::
            ("</strong><br>".toList ++ ' ' :: (cleanOutput e ++ ' ' ::
              ("<br>".toList ++ cleanInformation named))))) := by
        rw [hcons, informationHead_eq, hbreak]
        simp only [List.append_assoc, List.cons_append, List.nil_append]
      rw [heq]
      exact hs.append_blank (hword.append_blank (hname'.append_blank (hclose.append_blank
        (hout.append_blank htail))))

/-! ## What the analyser makes of a test case -/

/-- The row of an entity, as the analyser holds it. -/
def rowOf (named : List Char × Entity) : OutcomeRow :=
  ⟨String.ofList named.1, named.2.expectedCode.name, named.2.returnCode.name⟩

theorem outcomeRow_rowCaptures {n : List Char × Entity} (h : IsName n.1) :
    outcomeRow py (rowCaptures n) = some (rowOf n) := by
  have hcode : ∀ c : ReturnCode, String.ofList (py.strip (blanked c.name.toList)) = c.name :=
    fun c => by rw [strip_name py (isName_code c), String.ofList_toList]
  have hempty : String.ofList n.1 ≠ "" := by
    intro heq
    exact h.1 (by simpa using congrArg String.toList heq)
  have hheading : String.ofList n.1 ≠ "Expected Code" := by
    intro heq
    have hlist : n.1 = "Expected Code".toList := by rw [← heq, String.toList_ofList]
    exact not_mem_name (by decide) h (by rw [hlist]; decide : ' ' ∈ n.1)
  have hrole : (rowCaptures n).lookup 1 = some (blanked n.1) := rfl
  have hexpected : (rowCaptures n).lookup 2 = some (blanked n.2.expectedCode.name.toList) := rfl
  have hproduced : (rowCaptures n).lookup 3 = some (blanked n.2.returnCode.name.toList) := rfl
  unfold outcomeRow rowOf
  simp only [hrole, hexpected, hproduced, Option.bind_some, strip_name py h, hcode, hempty,
    hheading, or_self, if_false]

theorem parseOutcomeRows_message {named : List (List Char × Entity)}
    (h : ∀ n ∈ named, IsName n.1 ∧ NoOpen (cleanOutput n.2)) :
    parseOutcomeRows py (removeAnsiColors (rawMessage named)) = named.map rowOf := by
  have hnames : ∀ n ∈ named, IsName n.1 := fun n hn => (h n hn).1
  have hbelow : NoOpen ("</table>".toList ++ cleanInformation named) :=
    noOpen_cleanInformation h (by decide) (by decide)
  have hrows : (findAll (tableRowRe py) 0 (removeAnsiColors (rawMessage named))).map Prod.snd =
      named.map rowCaptures := by
    rw [removeAnsiColors_rawMessage hnames, findAll_quiet (quietBefore_tableHead _),
      findAll_tableRows hnames, findAll_tableRow_of_noOpen hbelow, List.map_nil, List.append_nil]
  have hparse : ∀ message, parseOutcomeRows py message =
      ((findAll (tableRowRe py) 0 message).map Prod.snd).filterMap (outcomeRow py) := by
    intro message
    rw [parseOutcomeRows, List.filterMap_map]
    rfl
  rw [hparse, hrows, List.filterMap_map, ← List.filterMap_eq_map]
  exact List.filterMap_congr fun n hn => outcomeRow_rowCaptures (hnames n hn)

/-- What `load_results` takes from the element of a test case: its tag, and the
rows of its message. -/
def loadCase (py : PyUnicode) : CaseResult → XmlTag × List OutcomeRow
  | .passed => (.passed, [])
  | .skipped message => (.skipped, parseOutcomeRows py message)
  | .failure message => (.failure, parseOutcomeRows py message)

/-- The message of a test case, if it has one. -/
def message? : CaseResult → Option (List Char)
  | .passed => none
  | .skipped message => some message
  | .failure message => some message

/-- Which of its three results a test case has. -/
theorem runTest_cases {entities : List Entity} {names : List (List Char)}
    (hnames : entityTypes 0 0 entities = some names) :
    (runTest entities = some .passed ∧ ∀ e ∈ entities, e.expectedCode = e.returnCode) ∨
    ((∃ e ∈ entities, e.expectedCode ≠ e.returnCode) ∧
      ((runTest entities = some (.skipped (removeAnsiColors (rawMessage (names.zip entities)))) ∧
          ∃ e ∈ entities, e.returnCode.isUnsupported = true) ∨
        (runTest entities = some (.failure (removeAnsiColors (rawMessage (names.zip entities)))) ∧
          ∀ e ∈ entities, e.returnCode.isUnsupported = false))) := by
  unfold runTest
  rw [hnames, Option.map_some]
  by_cases hagree : ∀ e ∈ entities, e.expectedCode = e.returnCode
  · exact .inl ⟨congrArg some (if_pos (by simpa using hagree)), hagree⟩
  · have hdiffer : ∃ e ∈ entities, e.expectedCode ≠ e.returnCode := by simpa using hagree
    refine .inr ⟨hdiffer, ?_⟩
    by_cases hunsupported : ∃ e ∈ entities, e.returnCode.isUnsupported = true
    · refine .inl ⟨?_, hunsupported⟩
      simp [hagree, hunsupported]
    · have hnone : ∀ e ∈ entities, e.returnCode.isUnsupported = false := by
        simpa using hunsupported
      refine .inr ⟨?_, hnone⟩
      simp [hagree, hunsupported]

theorem contains_unsupportedCodes (c : ReturnCode) :
    unsupportedCodes.contains c.name = c.isUnsupported := by
  cases c <;> decide

theorem any_unsupported_rows (named : List (List Char × Entity)) :
    ((named.map rowOf).any fun r => unsupportedCodes.contains r.produced) =
      (named.map Prod.snd).any fun e => e.returnCode.isUnsupported := by
  simp only [List.any_map, Function.comp_def, rowOf, contains_unsupportedCodes]

/-- The rows read are those of the entities, and the status is what the codes
say. -/
theorem report_read_back (py : PyUnicode) {entities : List Entity} {names : List (List Char)}
    (hnames : entityTypes 0 0 entities = some names)
    (h : ∀ e ∈ entities, ¬ "<th".toList <:+: cleanOutput e) :
    ∃ result, runTest entities = some result ∧ names.length = entities.length ∧
      (∀ message ∈ message? result,
        parseOutcomeRows py message = (names.zip entities).map rowOf) ∧
      ∃ tag rows, loadCase py result = (tag, rows) ∧
        (classifyOutcome tag rows = .passed ↔ ∀ e ∈ entities, e.expectedCode = e.returnCode) ∧
        (classifyOutcome tag rows = .skippedUnsupported ↔
          (∃ e ∈ entities, e.expectedCode ≠ e.returnCode) ∧
            ∃ e ∈ entities, e.returnCode.isUnsupported = true) ∧
        ((classifyOutcome tag rows).isFailure = true ↔
          (∃ e ∈ entities, e.expectedCode ≠ e.returnCode) ∧
            ∀ e ∈ entities, e.returnCode.isUnsupported = false) := by
  obtain ⟨hlen, hall⟩ := isName_entityTypes hnames
  have hparse : parseOutcomeRows py (removeAnsiColors (rawMessage (names.zip entities))) =
      (names.zip entities).map rowOf := by
    refine parseOutcomeRows_message fun n hn => ⟨hall _ (List.of_mem_zip hn).1, ?_⟩
    rintro ⟨a, b, hab⟩
    exact h _ (List.of_mem_zip hn).2 ⟨a, '>' :: b, by rw [← hab]; simp [openCell]⟩
  have hany := any_unsupported_rows (names.zip entities)
  rw [List.map_snd_zip (by omega)] at hany
  rcases runTest_cases hnames with ⟨hrun, hagree⟩ | ⟨hdiffer, ⟨hrun, hunsupported⟩ | ⟨hrun, hnone⟩⟩
  · refine ⟨_, hrun, hlen, by simp [message?], _, _, rfl, ?_⟩
    have hnot : ¬ ∃ e ∈ entities, e.expectedCode ≠ e.returnCode := by simpa using hagree
    exact ⟨⟨fun _ => hagree, fun _ => rfl⟩, ⟨fun hs => (by cases hs), fun hs => absurd hs.1 hnot⟩,
      ⟨fun hs => (by cases hs), fun hs => absurd hs.1 hnot⟩⟩
  · have hstatus : classifyOutcome .skipped ((names.zip entities).map rowOf) =
        .skippedUnsupported := by
      simp only [classifyOutcome, hany, List.any_eq_true.mpr hunsupported, if_true]
    have hnot : ¬ ∀ e ∈ entities, e.expectedCode = e.returnCode := by simpa using hdiffer
    refine ⟨_, hrun, hlen, by simpa [message?] using hparse, .skipped, _,
      congrArg (Prod.mk XmlTag.skipped) hparse, ?_⟩
    rw [hstatus]
    refine ⟨⟨fun hs => (by cases hs), fun hs => absurd hs hnot⟩,
      ⟨fun _ => ⟨hdiffer, hunsupported⟩, fun _ => rfl⟩, ⟨fun hs => (by cases hs), ?_⟩⟩
    rintro ⟨-, hnone⟩
    obtain ⟨e, he, hunsup⟩ := hunsupported
    rw [hnone e he] at hunsup
    cases hunsup
  · have hfailure :=
      isFailure_classifyOutcome (hany.trans (List.any_eq_false.mpr (by simpa using hnone)))
    have hnot : ¬ ∀ e ∈ entities, e.expectedCode = e.returnCode := by simpa using hdiffer
    obtain ⟨hpassed, hskipped⟩ := ne_of_isFailure hfailure
    refine ⟨_, hrun, hlen, by simpa [message?] using hparse, .failure, _,
      congrArg (Prod.mk XmlTag.failure) hparse, ?_⟩
    refine ⟨⟨fun hs => absurd hs hpassed, fun hs => absurd hs hnot⟩,
      ⟨fun hs => absurd hs hskipped, ?_⟩, ⟨fun _ => ⟨hdiffer, hnone⟩, fun _ => hfailure⟩⟩
    rintro ⟨-, e, he, hunsup⟩
    rw [hnone e he] at hunsup
    cases hunsup

/-- A publisher that is not supported, and a subscriber whose output is
coloured. -/
def unsupportedPublisher : List Entity :=
  [⟨"-P -t Square", .ok, .pubUnsupportedFeature, "not supported\n".toList⟩,
    ⟨"-S -t Square", .ok, .dataNotReceived, "\x1b[31m<tr>\x1b[0m".toList⟩]

theorem report_read_back_unsupportedPublisher :
    ∃ result, runTest unsupportedPublisher = some result ∧
      (∀ message ∈ message? result, parseOutcomeRows .ascii message =
        [⟨"Publisher_1", "OK", "PUB_UNSUPPORTED_FEATURE"⟩,
          ⟨"Subscriber_1", "OK", "DATA_NOT_RECEIVED"⟩]) ∧
      ∃ tag rows, loadCase .ascii result = (tag, rows) ∧
        classifyOutcome tag rows = .skippedUnsupported := by
  have hnames : entityTypes 0 0 unsupportedPublisher =
    some ["Publisher_1".toList, "Subscriber_1".toList] := by decide +kernel
  obtain ⟨result, hrun, -, hrows, tag, rows, hload, -, hskipped, -⟩ :=
    report_read_back .ascii hnames (by decide +kernel)
  have hliteral : (["Publisher_1".toList, "Subscriber_1".toList].zip unsupportedPublisher).map
      rowOf = [⟨"Publisher_1", "OK", "PUB_UNSUPPORTED_FEATURE"⟩,
        ⟨"Subscriber_1", "OK", "DATA_NOT_RECEIVED"⟩] := by
    simp [unsupportedPublisher, rowOf, ReturnCode.name]
  rw [hliteral] at hrows
  exact ⟨result, hrun, hrows, tag, rows, hload, hskipped.mpr (by decide +kernel)⟩

end DdsRtps.Analysis
