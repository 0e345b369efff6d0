/-
# `DdsRtps.Analysis.Labels` — the label of a test case, and which others have it

`load_results` holds a test case by its suite, its name and its attributes, and
refuses a document in which two are the same.  The statistics hold it by
`key_label` of src/benchmarking/junit_compare/models.py, one text of the three.

Nothing in the text is escaped.  A label is that of one test case only, if it
can be cut at one place only and if nothing at its end could be attributes
(`label_unique_iff`).
-/
import DdsRtps.Analysis.Aggregate
import Mathlib.Data.Prod.Lex
import Mathlib.Data.String.Basic

namespace DdsRtps.Analysis

/-! ## What can be loaded -/

/-- The XML parser: the characters of a document, and the names that attributes
can have. -/
structure XmlReader where
  char : Char → Prop
  attributeName : String → Prop
  char_ascii : ∀ c : Char, 32 ≤ c.toNat → c.toNat < 127 → char c
  char_attributeName : ∀ k, attributeName k → ∀ c ∈ k.toList, char c
  attributeName_name : attributeName "name"

variable (reader : XmlReader) (py : PyUnicode)

/-- A text of a document. -/
def XmlReader.Text (s : String) : Prop := ∀ c ∈ s.toList, reader.char c

/-- A tree that the parser can give. -/
def XmlReader.Tree (root : XmlElement) : Prop :=
  ∀ e ∈ root.elements, ∀ a ∈ e.attrib.items, reader.attributeName a.1 ∧ reader.Text a.2

/-- A key that `load_results` can produce. -/
def CanLoad (key : ResultKey) : Prop :=
  ∃ root, reader.Tree root ∧ ∃ summary results, loadResults py root = .ok (summary, results) ∧
    key ∈ results.items.map Prod.fst

/-- A name of an attribute that is part of a key. -/
def XmlReader.Attribute (k : String) : Prop :=
  reader.attributeName k ∧ !(["name", "time"].contains k)

/-- What a key can be. -/
structure KeyFormed (key : ResultKey) : Prop where
  suite : reader.Text key.suite
  name : reader.Text key.name
  attributes : ∀ a ∈ key.attributes, reader.Attribute a.1 ∧ reader.Text a.2
  sorted : key.attributes.Pairwise fun a b => itemLe a b = true
  nodup : (key.attributes.map Prod.fst).Nodup

/-! ## Sorted attributes -/

theorem itemLe_iff (a b : String × String) : itemLe a b = true ↔ toLex a ≤ toLex b := by
  rw [Prod.Lex.toLex_le_toLex, itemLe, Bool.or_eq_true, Bool.and_eq_true, decide_eq_true_eq,
    beq_iff_eq, Bool.not_eq_true', decide_eq_false_iff_not, not_lt]

instance : Std.Total fun a b => itemLe a b = true where
  total a b := by
    rw [itemLe_iff, itemLe_iff]
    exact le_total _ _

instance : IsTrans (String × String) fun a b => itemLe a b = true where
  trans a b c hab hbc := by
    rw [itemLe_iff] at *
    exact hab.trans hbc

variable {reader py}

theorem text_get {root e : XmlElement} (hroot : reader.Tree root) (he : e ∈ root.elements)
    (key : String) : reader.Text (e.get key) := by
  rw [XmlElement.get]
  cases hget : e.attrib.get? key with
  | none =>
      intro c hc
      simp at hc
  | some v => exact (hroot e he _ (PyDict.mem_items_iff.mpr hget)).2

/-- The key of a test case in a tree. -/
theorem keyFormed_testResult {root suite case : XmlElement} (hroot : reader.Tree root)
    (hsuite : suite ∈ root.elements) (hcase : case ∈ root.elements) :
    KeyFormed reader (testResult py suite case).key where
  suite := text_get hroot hsuite "name"
  name := text_get hroot hcase "name"
  attributes a ha := by
    have hmem := (List.mem_insertionSort _).mp ha
    obtain ⟨hin, hname⟩ := List.mem_filter.mp hmem
    exact ⟨⟨(hroot case hcase a hin).1, hname⟩, (hroot case hcase a hin).2⟩
  sorted := List.pairwise_insertionSort _ _
  nodup := by
    have hperm := (List.perm_insertionSort (fun a b => itemLe a b = true)
      (case.attrib.items.filter fun a => !(["name", "time"].contains a.1))).map Prod.fst
    exact hperm.nodup_iff.mpr (case.attrib.nodup.sublist (List.filter_sublist.map Prod.fst))

/-- The test case of a key. -/
def caseOf (key : ResultKey) (h : KeyFormed reader key) : XmlElement :=
  .mk "testcase"
    { items := ("name", key.name) :: key.attributes
      nodup := by
        refine List.nodup_cons.mpr ⟨fun hmem => ?_, h.nodup⟩
        obtain ⟨a, ha, hname⟩ := List.mem_map.mp hmem
        have hother := (h.attributes a ha).1.2
        rw [hname] at hother
        cases hother } [] [] []

/-- A suite with one test case. -/
def suiteOf (key : ResultKey) (h : KeyFormed reader key) : XmlElement :=
  named "testsuite" key.suite [caseOf key h]

/-- A document with one test case. -/
def documentOf (key : ResultKey) (h : KeyFormed reader key) : XmlElement :=
  .mk "testsuites" .empty [] [] [suiteOf key h]

theorem key_caseOf (key : ResultKey) (h : KeyFormed reader key) :
    (testResult py (suiteOf key h) (caseOf key h)).key = key := by
  have hfilter : (caseOf key h).attrib.items.filter
      (fun a => !(["name", "time"].contains a.1)) = key.attributes := by
    refine (List.filter_cons_of_neg (by simp)).trans ?_
    exact List.filter_eq_self.mpr fun a ha => (h.attributes a ha).1.2
  have hattributes : (testResult py (suiteOf key h) (caseOf key h)).attributes =
      key.attributes := by
    show List.insertionSort (fun a b => itemLe a b = true) ((caseOf key h).attrib.items.filter
      fun a => !(["name", "time"].contains a.1)) = key.attributes
    rw [hfilter, h.sorted.insertionSort_eq]
  show ResultKey.mk key.suite key.name _ = key
  rw [hattributes]

theorem tree_documentOf (key : ResultKey) (h : KeyFormed reader key) :
    reader.Tree (documentOf key h) := by
  have hall : (documentOf key h).elements = [documentOf key h, suiteOf key h, caseOf key h] := by
    simp [documentOf, suiteOf, named, caseOf, XmlElement.elements, XmlElement.elementsOf]
  intro e he a ha
  rw [hall] at he
  simp only [List.mem_cons, List.not_mem_nil, or_false] at he
  rcases he with rfl | rfl | rfl
  · cases ha
  · obtain rfl := List.mem_singleton.mp ha
    exact ⟨reader.attributeName_name, h.suite⟩
  · rcases List.mem_cons.mp ha with rfl | ha
    · exact ⟨reader.attributeName_name, h.name⟩
    · exact ⟨(h.attributes a ha).1.1, (h.attributes a ha).2⟩

/-- The keys that are loaded are the well-formed ones. -/
theorem canLoad_iff {key : ResultKey} : CanLoad reader py key ↔ KeyFormed reader key := by
  constructor
  · rintro ⟨root, hroot, summary, results, hload, hkey⟩
    rcases loadResults_eq py root with ⟨-, herror⟩ | ⟨-, results', hitems, hok⟩
    · rw [hload] at herror
      cases herror
    · rw [hload] at hok
      obtain ⟨-, rfl⟩ := Prod.mk.inj (Except.ok.inj hok)
      rw [hitems, List.map_map] at hkey
      obtain ⟨r, hr, rfl⟩ := List.mem_map.mp hkey
      obtain ⟨suite, hsuite, hr⟩ := List.mem_flatMap.mp hr
      obtain ⟨case, hcase, rfl⟩ := List.mem_map.mp hr
      refine keyFormed_testResult hroot ?_ (XmlElement.mem_elements_of_findall hsuite hcase)
      rw [XmlElement.elements_eq]
      exact List.mem_cons_of_mem _ (List.mem_of_mem_filter hsuite)
  · intro h
    have hbelow : resultsBelow py (documentOf key h) =
        [testResult py (suiteOf key h) (caseOf key h)] := rfl
    refine ⟨documentOf key h, tree_documentOf key h, ?_⟩
    rcases loadResults_eq py (documentOf key h) with ⟨hdup, -⟩ | ⟨-, results, hitems, hok⟩
    · exact absurd (by rw [hbelow]; exact List.nodup_singleton _) hdup
    · refine ⟨_, results, hok, ?_⟩
      rw [hitems, hbelow, List.map_singleton, List.map_singleton, item, key_caseOf]
      exact List.mem_singleton_self key

/-! ## Cutting a label -/

/-- `" / "`. -/
def separator : List Char := " / ".toList

/-- What stands behind the name in a label. -/
def configText (attributes : Attributes) : List Char :=
  let config := List.intercalate ", ".toList
    (attributes.map fun (k, v) => k.toList ++ "=".toList ++ v.toList)
  if config ≠ [] then " [".toList ++ config ++ "]".toList else []

theorem keyLabel_eq (key : ResultKey) :
    keyLabel key = key.suite.toList ++ separator ++
      (key.name.toList ++ configText key.attributes) := by
  rw [keyLabel, separator, ← List.append_assoc]
  rfl

/-- A text can be cut at a separator in one way only. -/
def CutsOnce (label : List Char) : Prop :=
  ∀ a b a' b', label = a ++ separator ++ b → label = a' ++ separator ++ b' → a = a'

/-- A text that ends as if it had attributes. -/
def EndsInAttributes (reader : XmlReader) (name : List Char) : Prop :=
  ∃ n k v, reader.Attribute k ∧ name = n ++ configText [(k, v)]

theorem configText_single (k v : String) :
    configText [(k, v)] = " [".toList ++ (k.toList ++ "=".toList ++ v.toList) ++ "]".toList := by
  rw [configText]
  simp [List.intercalate]

/-- Several attributes look like one with a longer value. -/
theorem exists_configText_eq (k v : String) (attributes : Attributes) :
    ∃ w, configText ((k, v) :: attributes) = configText [(k, w)] := by
  have hcut : ∃ t, List.intercalate ", ".toList
      (((k, v) :: attributes).map fun (k, v) => k.toList ++ "=".toList ++ v.toList) =
        k.toList ++ "=".toList ++ v.toList ++ t := by
    cases attributes with
    | nil => exact ⟨[], by simp [List.intercalate]⟩
    | cons a attributes =>
        refine ⟨", ".toList ++ List.intercalate ", ".toList
          ((a :: attributes).map fun (k, v) => k.toList ++ "=".toList ++ v.toList), ?_⟩
        simp [List.intercalate]
  obtain ⟨t, ht⟩ := hcut
  refine ⟨String.ofList (v.toList ++ t), ?_⟩
  rw [configText_single, configText, ht]
  simp

/-! ## The characters of a label -/

theorem char_literal (reader : XmlReader) {s : String}
    (h : s.toList.all (fun c => 32 ≤ c.toNat && c.toNat < 127) = true) : reader.Text s := by
  intro c hc
  have hboth := List.all_eq_true.mp h c hc
  rw [Bool.and_eq_true, decide_eq_true_eq, decide_eq_true_eq] at hboth
  exact reader.char_ascii c hboth.1 hboth.2

theorem forall_mem_intercalate {α : Type*} {p : α → Prop} {sep : List α} {l : List (List α)}
    (hsep : ∀ c ∈ sep, p c) (hl : ∀ x ∈ l, ∀ c ∈ x, p c) :
    ∀ c ∈ List.intercalate sep l, p c := by
  induction l with
  | nil =>
      intro c hc
      simp [List.intercalate] at hc
  | cons x l ih =>
      rw [List.forall_mem_cons] at hl
      cases l with
      | nil =>
          intro c hc
          exact hl.1 c (by simpa [List.intercalate] using hc)
      | cons y l =>
          have hsplit : List.intercalate sep (x :: y :: l) =
              x ++ (sep ++ List.intercalate sep (y :: l)) := by
            simp [List.intercalate]
          intro c hc
          rw [hsplit] at hc
          rcases List.mem_append.mp hc with hc | hc
          · exact hl.1 c hc
          · rcases List.mem_append.mp hc with hc | hc
            · exact hsep c hc
            · exact ih hl.2 c hc

theorem char_configText {attributes : Attributes}
    (h : ∀ a ∈ attributes, reader.Attribute a.1 ∧ reader.Text a.2) :
    ∀ c ∈ configText attributes, reader.char c := by
  have hone : ∀ x ∈ attributes.map fun (k, v) => k.toList ++ "=".toList ++ v.toList,
      ∀ c ∈ x, reader.char c := by
    intro x hx c hc
    obtain ⟨a, ha, rfl⟩ := List.mem_map.mp hx
    rcases List.mem_append.mp hc with hc | hc
    · rcases List.mem_append.mp hc with hc | hc
      · exact reader.char_attributeName _ (h a ha).1.1 c hc
      · exact char_literal reader (s := "=") (by decide) c hc
    · exact (h a ha).2 c hc
  intro c hc
  rw [configText] at hc
  split at hc
  · rcases List.mem_append.mp hc with hc | hc
    · rcases List.mem_append.mp hc with hc | hc
      · exact char_literal reader (s := " [") (by decide) c hc
      · exact forall_mem_intercalate (char_literal reader (s := ", ") (by decide)) hone c hc
    · exact char_literal reader (s := "]") (by decide) c hc
  · cases hc

/-- A label is made of characters of the document. -/
theorem char_keyLabel {key : ResultKey} (h : KeyFormed reader key) :
    ∀ c ∈ keyLabel key, reader.char c := by
  intro c hc
  rw [keyLabel_eq] at hc
  rcases List.mem_append.mp hc with hc | hc
  · rcases List.mem_append.mp hc with hc | hc
    · exact h.suite c hc
    · exact char_literal reader (s := " / ") (by decide) c hc
  · rcases List.mem_append.mp hc with hc | hc
    · exact h.name c hc
    · exact char_configText h.attributes c hc

/-! ## Which keys have a label -/

theorem text_ofList {t : List Char} (h : ∀ c ∈ t, reader.char c) :
    reader.Text (String.ofList t) := by
  intro c hc
  rw [String.toList_ofList] at hc
  exact h c hc

variable (py) in
/-- Wherever a label can be cut, it is the label of two names. -/
theorem canLoad_of_cut {key : ResultKey} (h : KeyFormed reader key) {a b : List Char}
    (hcut : keyLabel key = a ++ separator ++ b) :
    CanLoad reader py ⟨String.ofList a, String.ofList b, []⟩ ∧
      keyLabel ⟨String.ofList a, String.ofList b, []⟩ = keyLabel key := by
  have hchar := char_keyLabel h
  rw [hcut] at hchar
  constructor
  · refine canLoad_iff.mpr ⟨text_ofList fun c hc => ?_, text_ofList fun c hc => ?_, ?_, .nil,
      List.nodup_nil⟩
    · exact hchar c (List.mem_append_left _ (List.mem_append_left _ hc))
    · exact hchar c (List.mem_append_right _ hc)
    · intro a ha
      cases ha
  · rw [keyLabel_eq, hcut]
    simp [configText, List.intercalate]

variable (py) in
/-- Whatever looks like attributes at the end of a name can be attributes. -/
theorem canLoad_of_endsInAttributes {key : ResultKey} (h : KeyFormed reader key)
    (hnone : key.attributes = []) {n : List Char} {k v : String} (hk : reader.Attribute k)
    (hname : key.name.toList = n ++ configText [(k, v)]) :
    CanLoad reader py ⟨key.suite, String.ofList n, [(k, v)]⟩ ∧
      keyLabel ⟨key.suite, String.ofList n, [(k, v)]⟩ = keyLabel key := by
  have hchar := h.name
  rw [XmlReader.Text, hname] at hchar
  constructor
  · refine canLoad_iff.mpr ⟨h.suite, text_ofList fun c hc => ?_, ?_, List.pairwise_singleton _ _,
      List.nodup_singleton _⟩
    · exact hchar c (List.mem_append_left _ hc)
    · intro a ha
      obtain rfl := List.mem_singleton.mp ha
      refine ⟨hk, fun c hc => hchar c (List.mem_append_right _ ?_)⟩
      rw [configText_single]
      simp [hc]
  · rw [keyLabel_eq, keyLabel_eq, hnone, hname]
    simp [configText, List.intercalate]

/-- **When a label names one test case**: there are no attributes, the label can be cut
in one way, and the name does not end as if it had attributes. -/
theorem label_unique_iff (reader : XmlReader) (py : PyUnicode) (key : ResultKey)
    (h : CanLoad reader py key) :
    (∀ key', CanLoad reader py key' → key' ≠ key → keyLabel key' ≠ keyLabel key) ↔
      key.attributes = [] ∧ CutsOnce (keyLabel key) ∧
        ¬EndsInAttributes reader key.name.toList := by
  have hformed := canLoad_iff.mp h
  constructor
  · intro hunique
    have hsame : ∀ key', CanLoad reader py key' → keyLabel key' = keyLabel key → key' = key :=
      fun key' hload hlabel => by_contra fun hne => hunique key' hload hne hlabel
    have hcut : ∀ a b, keyLabel key = a ++ separator ++ b →
        (⟨String.ofList a, String.ofList b, []⟩ : ResultKey) = key := by
      intro a b hab
      obtain ⟨hload, hlabel⟩ := canLoad_of_cut py hformed hab
      exact hsame _ hload hlabel
    have hnone : key.attributes = [] := by
      have hall := hcut _ _ (keyLabel_eq key)
      rw [← hall]
    refine ⟨hnone, ?_, ?_⟩
    · intro a b a' b' hab hab'
      have hsuite := congrArg ResultKey.suite ((hcut a b hab).trans (hcut a' b' hab').symm)
      exact String.ofList_inj.mp hsuite
    · rintro ⟨n, k, v, hk, hname⟩
      obtain ⟨hload, hlabel⟩ := canLoad_of_endsInAttributes py hformed hnone hk hname
      have hattributes := congrArg ResultKey.attributes (hsame _ hload hlabel)
      rw [hnone] at hattributes
      cases hattributes
  · rintro ⟨hnone, honce, hend⟩ key' hload hne hlabel
    have hformed' := canLoad_iff.mp hload
    have hsuite : key'.suite.toList = key.suite.toList :=
      honce _ _ _ _ (hlabel ▸ keyLabel_eq key') (keyLabel_eq key)
    have hrest : key'.name.toList ++ configText key'.attributes = key.name.toList := by
      rw [keyLabel_eq, keyLabel_eq, hsuite, hnone] at hlabel
      simpa [configText, List.intercalate] using hlabel
    cases hattributes : key'.attributes with
    | nil =>
        refine hne ?_
        obtain ⟨suite', name', attributes'⟩ := key'
        obtain ⟨suite, name, attributes⟩ := key
        simp only at hsuite hrest hattributes hnone
        rw [hattributes, configText] at hrest
        simp only [List.map_nil, List.intercalate, List.intersperse_nil, List.flatten_nil, ne_eq,
          not_true_eq_false, if_false, List.append_nil] at hrest
        rw [String.toList_inj.mp hsuite, String.toList_inj.mp hrest, hattributes, hnone]
    | cons a rest =>
        obtain ⟨k, v⟩ := a
        obtain ⟨w, hw⟩ := exists_configText_eq k v rest
        refine hend ⟨key'.name.toList, k, w, ?_, ?_⟩
        · exact (hformed'.attributes (k, v) (by rw [hattributes]; exact List.mem_cons_self)).1
        · rw [← hrest, hattributes, hw]

/-! ## Plain names -/

theorem cutsOnce_of_count {label : List Char} (h : label.count '/' = 1) : CutsOnce label := by
  have hsides : ∀ a b, label = a ++ separator ++ b →
      '/' ∉ a ++ [' '] ∧ label = (a ++ [' ']) ++ '/' :: (' ' :: b) := by
    intro a b hab
    have heq : label = (a ++ [' ']) ++ '/' :: (' ' :: b) := by
      rw [hab, separator]
      simp
    rw [heq, List.count_append, List.count_cons_self] at h
    exact ⟨List.count_eq_zero.mp (by omega), heq⟩
  intro a b a' b' hab hab'
  obtain ⟨hnot, heq⟩ := hsides a b hab
  obtain ⟨hnot', heq'⟩ := hsides a' b' hab'
  have hother : ∀ {t : List Char}, '/' ∉ t → ∀ c ∈ t, (c != '/') = true := by
    intro t ht c hc
    rw [bne_iff_ne]
    rintro rfl
    exact ht hc
  obtain ⟨hsame, -, -⟩ := Regex.append_cons_inj (heq.symm.trans heq') (hother hnot) (hother hnot')
    (by decide) (by decide)
  exact List.append_cancel_right hsame

theorem not_endsInAttributes {name : List Char} (h : name.getLast? ≠ some ']') :
    ¬EndsInAttributes reader name := by
  rintro ⟨n, k, v, -, rfl⟩
  rw [configText_single, ← List.append_assoc, List.getLast?_append] at h
  exact h rfl

/-- The printable characters of ASCII, and the names that are made of them. -/
def XmlReader.ascii : XmlReader where
  char c := 32 ≤ c.toNat ∧ c.toNat < 127
  attributeName k :=
    k.toList.head?.any (fun c => c.isAlpha || c == '_') = true ∧ ∀ c ∈ k.toList,
      (32 ≤ c.toNat ∧ c.toNat < 127) ∧ (c.isAlphanum || ['_', '.', '-'].contains c) = true
  char_ascii _ h h' := ⟨h, h'⟩
  char_attributeName _ hk c hc := (hk.2 c hc).1
  attributeName_name := by
    refine ⟨by decide, fun c hc => ?_⟩
    have hletters : c ∈ ['n', 'a', 'm', 'e'] := hc
    simp only [List.mem_cons, List.not_mem_nil, or_false] at hletters
    rcases hletters with rfl | rfl | rfl | rfl
    · decide
    · decide
    · decide
    · decide

theorem canLoad_plain {suite name : String}
    (hsuite : suite.toList.all (fun c => 32 ≤ c.toNat && c.toNat < 127) = true)
    (hname : name.toList.all (fun c => 32 ≤ c.toNat && c.toNat < 127) = true) :
    CanLoad .ascii .ascii ⟨suite, name, []⟩ := by
  refine canLoad_iff.mpr ⟨char_literal _ hsuite, char_literal _ hname, ?_, .nil, List.nodup_nil⟩
  intro a ha
  cases ha

/-- The label `connext---dust / rtps_test_suite_1_Test_Domain_0`, which is that of
one test case. -/
theorem label_unique_domain :
    ((∀ key', CanLoad .ascii .ascii key' →
        key' ≠ ⟨"connext---dust", "rtps_test_suite_1_Test_Domain_0", []⟩ →
        keyLabel key' ≠ keyLabel ⟨"connext---dust", "rtps_test_suite_1_Test_Domain_0", []⟩) ↔
      ([] : List (String × String)) = [] ∧
        CutsOnce (keyLabel ⟨"connext---dust", "rtps_test_suite_1_Test_Domain_0", []⟩) ∧
        ¬EndsInAttributes .ascii "rtps_test_suite_1_Test_Domain_0".toList) ∧
      CutsOnce (keyLabel ⟨"connext---dust", "rtps_test_suite_1_Test_Domain_0", []⟩) ∧
        ¬EndsInAttributes .ascii "rtps_test_suite_1_Test_Domain_0".toList :=
  ⟨label_unique_iff .ascii .ascii ⟨"connext---dust", "rtps_test_suite_1_Test_Domain_0", []⟩
    (canLoad_plain (by decide) (by decide)), cutsOnce_of_count (by decide),
    not_endsInAttributes (by decide)⟩

/-- Two suites of which one name contains the separator. -/
theorem labels_collide :
    ¬ ∀ (reader : XmlReader) (py : PyUnicode) (key key' : ResultKey), CanLoad reader py key →
      CanLoad reader py key' → key ≠ key' → keyLabel key ≠ keyLabel key' := by
  intro h
  refine h .ascii .ascii ⟨"A / B", "C", []⟩ ⟨"A", "B / C", []⟩ (canLoad_plain (by decide) (by decide))
    (canLoad_plain (by decide) (by decide)) (by decide) ?_
  decide

end DdsRtps.Analysis
