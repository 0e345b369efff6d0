/-
# `DdsRtps.Analysis.Breakdown` — the vendors that a label names

The harness names a suite `<pub>---<sub>` (interoperability_report.py), and the
analyser reads the two names back off the label of a test case.  Its pattern
takes one dash in the publisher and one or more in the subscriber; a label it
does not match is passed over, and its failures are in no breakdown
(`breakdown_iff`).
-/
import DdsRtps.Analysis.Aggregate

namespace DdsRtps.Analysis

open Regex

/-- A text before a dash, and one after it. -/
def TwoParts (p q : Char → Bool) (name : List Char) : Prop :=
  ∃ a b, name = a ++ '-' :: b ∧ (a ≠ [] ∧ ∀ c ∈ a, p c = true) ∧ b ≠ [] ∧ ∀ c ∈ b, q c = true

/-- One dash, with a text on both sides. -/
def OneDash (pub : List Char) : Prop := TwoParts notDash notDash pub

variable (py : PyInterp)

/-- A dash, with a text before it and one without spaces after it. -/
def Dashed (sub : List Char) : Prop := TwoParts notDash (notSpace py) sub

/-- A label begins with two names, as the pattern takes them. -/
def Names (label pub sub : List Char) : Prop :=
  ∃ s t v, (∀ c ∈ s, py.space c = true) ∧ OneDash pub ∧ Dashed py sub ∧
    (t ≠ [] ∧ ∀ c ∈ t, py.space c = true) ∧
    label = s ++ (pub ++ '-' :: '-' :: '-' :: (sub ++ (t ++ '/' :: v)))

/-- A label that begins with two names. -/
def Readable (label : List Char) : Prop := ∃ pub sub, Names py label pub sub

/-- The name of a product: no white space, and no `/`. -/
def IsProductName (name : List Char) : Prop := ∀ c ∈ name, py.space c = false ∧ c ≠ '/'

/-- `f"{name_publisher}---{name_subscriber}"`. -/
def suiteName (pub sub : List Char) : List Char := pub ++ '-' :: '-' :: '-' :: sub

variable {py}

/-! ## The pattern -/

theorem parse_twoParts_iff {p q : Char → Bool} {u : List Char} {cs : Captures Char} :
    Parse (cat [plus p, lit ['-'], plus q]) u cs ↔ TwoParts p q u ∧ cs = [] := by
  constructor
  · intro h
    obtain ⟨a, _, _, _, pa, h₁, rfl, rfl⟩ := parse_cat_cons_iff.mp h
    obtain ⟨_, _, _, _, p₁, h₂, rfl, rfl⟩ := parse_cat_cons_iff.mp h₁
    obtain ⟨b, _, _, _, pb, h₃, rfl, rfl⟩ := parse_cat_cons_iff.mp h₂
    obtain ⟨rfl, rfl⟩ := parse_cat_nil_iff.mp h₃
    obtain ⟨rfl, rfl⟩ := parse_lit_iff.mp p₁
    obtain ⟨ha, ha', rfl⟩ := parse_plus_iff.mp pa
    obtain ⟨hb, hb', rfl⟩ := parse_plus_iff.mp pb
    exact ⟨⟨a, b, by simp, ⟨ha, ha'⟩, hb, hb'⟩, rfl⟩
  · rintro ⟨⟨a, b, rfl, ⟨ha, ha'⟩, hb, hb'⟩, rfl⟩
    exact ⟨a, _, _, _, parse_plus_iff.mpr ⟨ha, ha', rfl⟩,
      ⟨_, _, _, _, parse_lit_iff.mpr ⟨rfl, rfl⟩,
      ⟨b, _, _, _, parse_plus_iff.mpr ⟨hb, hb', rfl⟩, ⟨rfl, rfl⟩, (List.append_nil b).symm, rfl⟩,
      rfl, rfl⟩, rfl, rfl⟩

theorem parse_pubSubRe_iff {u : List Char} {cs : Captures Char} :
    Parse (pubSubRe py) u cs ↔ ∃ s pub sub t, (∀ c ∈ s, py.space c = true) ∧ OneDash pub ∧
      Dashed py sub ∧ (t ≠ [] ∧ ∀ c ∈ t, py.space c = true) ∧
      u = s ++ (pub ++ '-' :: '-' :: '-' :: (sub ++ (t ++ ['/']))) ∧
      cs = [(1, pub), (2, sub)] := by
  constructor
  · intro h
    obtain ⟨s, _, _, _, ⟨hs, rfl⟩, h₁, rfl, rfl⟩ := parse_cat_cons_iff.mp h
    obtain ⟨pub, _, _, _, p₁, h₂, rfl, rfl⟩ := parse_cat_cons_iff.mp h₁
    obtain ⟨_, _, _, _, p₂, h₃, rfl, rfl⟩ := parse_cat_cons_iff.mp h₂
    obtain ⟨sub, _, _, _, p₃, h₄, rfl, rfl⟩ := parse_cat_cons_iff.mp h₃
    obtain ⟨t, _, _, _, p₄, h₅, rfl, rfl⟩ := parse_cat_cons_iff.mp h₄
    obtain ⟨_, _, _, _, p₅, h₆, rfl, rfl⟩ := parse_cat_cons_iff.mp h₅
    obtain ⟨rfl, rfl⟩ := parse_cat_nil_iff.mp h₆
    obtain ⟨_, q₁, rfl⟩ := parse_group_iff.mp p₁
    obtain ⟨hpub, rfl⟩ := parse_twoParts_iff.mp q₁
    obtain ⟨rfl, rfl⟩ := parse_lit_iff.mp p₂
    obtain ⟨_, q₃, rfl⟩ := parse_group_iff.mp p₃
    obtain ⟨hsub, rfl⟩ := parse_twoParts_iff.mp q₃
    obtain ⟨ht, ht', rfl⟩ := parse_plus_iff.mp p₄
    obtain ⟨rfl, rfl⟩ := parse_lit_iff.mp p₅
    exact ⟨s, pub, sub, t, hs, hpub, hsub, ⟨ht, ht'⟩, by simp, rfl⟩
  · rintro ⟨s, pub, sub, t, hs, hpub, hsub, ⟨ht, ht'⟩, rfl, rfl⟩
    exact ⟨s, _, _, _, ⟨hs, rfl⟩,
      ⟨pub, _, _, _, parse_group_iff.mpr ⟨[], parse_twoParts_iff.mpr ⟨hpub, rfl⟩, rfl⟩,
      ⟨_, _, _, _, parse_lit_iff.mpr ⟨rfl, rfl⟩,
      ⟨sub, _, _, _, parse_group_iff.mpr ⟨[], parse_twoParts_iff.mpr ⟨hsub, rfl⟩, rfl⟩,
      ⟨t, _, _, _, parse_plus_iff.mpr ⟨ht, ht', rfl⟩,
      ⟨_, _, _, _, parse_lit_iff.mpr ⟨rfl, rfl⟩, ⟨rfl, rfl⟩, (List.append_nil _).symm, rfl⟩,
      rfl, rfl⟩, rfl, rfl⟩, rfl, rfl⟩, rfl, rfl⟩, rfl, rfl⟩

/-- What is found on a label are names at its head. -/
theorem names_of_extractPubSub {label pub sub : List Char}
    (h : extractPubSub py label = some (pub, sub)) : Names py label pub sub := by
  obtain ⟨⟨u, cs, v⟩, hfirst, hgroups⟩ := Option.bind_eq_some_iff.mp h
  obtain ⟨hlabel, hp⟩ := parse_of_first hfirst
  obtain ⟨s, pub', sub', t, hs, hpub, hsub, ht, rfl, rfl⟩ := parse_pubSubRe_iff.mp hp
  obtain ⟨rfl, rfl⟩ : pub' = pub ∧ sub' = sub := Prod.mk.inj (Option.some.inj hgroups)
  exact ⟨s, t, v, hs, hpub, hsub, ht, by rw [hlabel]; simp⟩

/-- A label is passed over, exactly if no two names are at its head. -/
theorem isSome_extractPubSub_iff {label : List Char} :
    (extractPubSub py label).isSome = true ↔ Readable py label := by
  constructor
  · intro h
    obtain ⟨⟨pub, sub⟩, hnames⟩ := Option.isSome_iff_exists.mp h
    exact ⟨pub, sub, names_of_extractPubSub hnames⟩
  · rintro ⟨pub, sub, s, t, v, hs, hpub, hsub, ht, rfl⟩
    cases hfirst : first (pubSubRe py)
        (s ++ (pub ++ '-' :: '-' :: '-' :: (sub ++ (t ++ '/' :: v)))) with
    | none =>
        have hnone := first_eq_none_iff.mp hfirst
        refine absurd (parse_pubSubRe_iff.mpr ⟨s, pub, sub, t, hs, hpub, hsub, ht, rfl, rfl⟩)
          (hnone _ v _ ?_)
        simp
    | some m =>
        obtain ⟨u, cs, v'⟩ := m
        obtain ⟨-, hp⟩ := parse_of_first hfirst
        obtain ⟨_, _, _, _, -, -, -, -, -, rfl⟩ := parse_pubSubRe_iff.mp hp
        rw [extractPubSub, hfirst]
        rfl

/-! ## The names of the harness -/

theorem TwoParts.head_ne_nil {p q : Char → Bool} {name : List Char} (h : TwoParts p q name) :
    name ≠ [] := by
  obtain ⟨a, b, rfl, -, -, -⟩ := h
  simp

/-- A dash-free text is cut at the first dash in one way only. -/
theorem twoParts_cut {q : Char → Bool} {name name' x x' : List Char} {c c' : Char}
    (h : TwoParts notDash q name) (h' : TwoParts notDash q name') (hc : q c = false)
    (hc' : q c' = false) (heq : name ++ c :: x = name' ++ c' :: x') :
    name = name' ∧ c = c' ∧ x = x' := by
  obtain ⟨a, b, rfl, ⟨-, ha⟩, -, hb⟩ := h
  obtain ⟨a', b', rfl, ⟨-, ha'⟩, -, hb'⟩ := h'
  rw [List.append_assoc, List.append_assoc] at heq
  obtain ⟨rfl, -, hrest⟩ := append_cons_inj heq ha ha' (by decide) (by decide)
  obtain ⟨rfl, rfl, rfl⟩ := append_cons_inj hrest hb hb' hc hc'
  exact ⟨rfl, rfl, rfl⟩

/-- The names of the harness are the only ones on its label. -/
theorem names_suiteName {pub sub pub' sub' rest : List Char} (hpub : OneDash pub)
    (hsub : Dashed py sub) (hname : IsProductName py pub)
    (h : Names py (suiteName pub sub ++ ' ' :: '/' :: rest) pub' sub') :
    pub' = pub ∧ sub' = sub := by
  obtain ⟨s, t, v, hs, hpub', hsub', ⟨ht, ht'⟩, heq⟩ := h
  -- no space before the publisher
  obtain rfl : s = [] := by
    cases s with
    | nil => rfl
    | cons c s =>
        obtain ⟨d, pub, rfl⟩ := List.exists_cons_of_ne_nil hpub.head_ne_nil
        obtain ⟨rfl, -⟩ := List.cons.inj heq
        have hspace := hs d List.mem_cons_self
        rw [(hname d List.mem_cons_self).1] at hspace
        cases hspace
  rw [suiteName, List.nil_append, List.append_assoc] at heq
  obtain ⟨rfl, -, hrest⟩ := twoParts_cut hpub hpub' (by decide) (by decide) heq
  obtain ⟨d, t, rfl⟩ := List.exists_cons_of_ne_nil ht
  have hblank : notSpace py ' ' = false := by rw [notSpace, py.space_blank]; rfl
  have hspace : notSpace py d = false := by rw [notSpace, ht' d List.mem_cons_self]; rfl
  obtain ⟨rfl, -, -⟩ := twoParts_cut hsub hsub' hblank hspace
    (List.cons.inj (List.cons.inj hrest).2).2
  exact ⟨rfl, rfl⟩

/-- The key of a test case between two products. -/
def caseKey (pub sub : List Char) (name : String) (attributes : Attributes) : ResultKey :=
  ⟨String.ofList (suiteName pub sub), name, attributes⟩

theorem keyLabel_caseKey (pub sub : List Char) (name : String) (attributes : Attributes) :
    ∃ rest, keyLabel (caseKey pub sub name attributes) =
      suiteName pub sub ++ ' ' :: '/' :: rest := by
  have hslash : " / ".toList = ' ' :: '/' :: " ".toList := rfl
  unfold keyLabel caseKey
  simp only [String.toList_ofList, List.append_assoc, hslash, List.cons_append]
  exact ⟨_, rfl⟩

/-- The two names are read off a label, exactly if they have the dashes that the
pattern takes. -/
theorem extractPubSub_caseKey_iff {pub sub : List Char} (hname : IsProductName py pub)
    (name : String) (attributes : Attributes) :
    extractPubSub py (keyLabel (caseKey pub sub name attributes)) = some (pub, sub) ↔
      OneDash pub ∧ Dashed py sub := by
  obtain ⟨rest, hlabel⟩ := keyLabel_caseKey pub sub name attributes
  rw [hlabel]
  constructor
  · intro h
    obtain ⟨_, _, _, -, hpub, hsub, -, -⟩ := names_of_extractPubSub h
    exact ⟨hpub, hsub⟩
  · intro ⟨hpub, hsub⟩
    have hreadable : Readable py (suiteName pub sub ++ ' ' :: '/' :: rest) := by
      refine ⟨pub, sub, [], [' '], rest, List.forall_mem_nil _, hpub, hsub,
        ⟨List.cons_ne_nil _ _, ?_⟩, ?_⟩
      · simpa using py.space_blank
      · simp [suiteName]
    obtain ⟨⟨pub', sub'⟩, hsome⟩ :=
      Option.isSome_iff_exists.mp (isSome_extractPubSub_iff.mpr hreadable)
    obtain ⟨rfl, rfl⟩ := names_suiteName hpub hsub hname (names_of_extractPubSub hsome)
    exact hsome

/-! ## The sums of a group -/

/-- All failures are in a breakdown, exactly if all failing labels have a name. -/
theorem total_breakdown_eq_iff {files : List ReportFile} {rows : Rows}
    (h : aggregateStatuses py files = .ok rows) (nameOf : List Char → Option (List Char)) :
    (breakdown nameOf ((rows.items.filter fun (_, row) => 0 < row.totalRealFail).map
        fun (label, row) => (label, row.totalRealFail))).total =
          ((rows.items.map Prod.snd).map StatusSummaryRow.totalRealFail).sum ↔
      ∀ r ∈ resultsOf py files, r.richStatus.isRealFail = true →
        (nameOf (keyLabel r.key)).isSome = true := by
  have hraw : ((rows.items.map Prod.snd).map StatusSummaryRow.totalRealFail).sum =
      failsWhere (fun _ => true) rows := by
    rw [failsWhere, PyDict.sumBy, List.map_map]
    rfl
  have hfilter : ∀ q : List Char → Bool,
      (resultsOf py files).countP (fun r => q (keyLabel r.key) && r.richStatus.isRealFail) =
        ((resultsOf py files).filter fun r => r.richStatus.isRealFail).countP
          fun r => q (keyLabel r.key) := by
    intro q
    rw [List.countP_filter]
  rw [total_breakdown_fails, hraw, failsWhere_aggregateStatuses h, failsWhere_aggregateStatuses h,
    hfilter fun label => (nameOf label).isSome, hfilter fun _ => true, List.countP_true,
    List.countP_eq_length]
  simp only [List.mem_filter, and_imp]

/-- The names are read off the label of a test case between two products, exactly if
there is one dash in the publisher and a dash in the subscriber, with texts around it;
and the failures of a group are all in the breakdowns, exactly if every test case that
fails has two such names at the head of its label. -/
theorem breakdown_iff (py : PyInterp) :
    (∀ pub sub, IsProductName py pub → IsProductName py sub → ∀ name attributes,
      (extractPubSub py (keyLabel (caseKey pub sub name attributes)) = some (pub, sub) ↔
        OneDash pub ∧ Dashed py sub)) ∧
      ∀ parallelCount files report,
        buildParallelGroupReport py parallelCount files = .ok report →
          (report.pubFails.total = report.totalFailRaw ∧
              report.subFails.total = report.totalFailRaw ↔
            ∀ r ∈ resultsOf py files, r.richStatus.isRealFail = true →
              Readable py (keyLabel r.key)) := by
  constructor
  · intro pub sub hpub _ name attributes
    exact extractPubSub_caseKey_iff hpub name attributes
  · intro parallelCount files report hreport
    obtain ⟨rows, hrows, hreport⟩ := PyError.bind_eq_ok_iff.mp hreport
    obtain rfl := Except.ok.inj hreport
    have hpubs := total_breakdown_eq_iff hrows (pubOf py)
    have hsubs := total_breakdown_eq_iff hrows (subOf py)
    simp only [pubOf, subOf, Option.isSome_map, isSome_extractPubSub_iff] at hpubs hsubs
    exact ⟨fun h => hpubs.mp h.1, fun h => ⟨hpubs.mpr h, hsubs.mpr h⟩⟩

/-! ## A publisher without a version -/

/-- A report of one test case that failed. -/
def failedReport (pub sub : String) : ReportFile where
  path := "junit_interoperability_report.xml"
  root := named "testsuites" "" [named "testsuite" (pub ++ "---" ++ sub)
    [named "testcase" "rtps_test_suite_1_Test_Domain_0" [named "failure" "" []]]]

theorem isProductName_of_all {name : List Char}
    (h : (name.all fun c => !py.space c && c != '/') = true) : IsProductName py name := by
  intro c hc
  have hboth := List.all_eq_true.mp h c hc
  simpa using hboth

/-- Two products, and the report of a test case between them that failed. -/
theorem breakdown_iff_connext :
    (extractPubSub PyInterp.ascii (keyLabel (caseKey "connext_dds-7.7.0".toList
          "eclipse_cyclone-11.0.1".toList "rtps_test_suite_1_Test_Domain_0" [])) =
        some ("connext_dds-7.7.0".toList, "eclipse_cyclone-11.0.1".toList) ↔
      OneDash "connext_dds-7.7.0".toList ∧
        Dashed PyInterp.ascii "eclipse_cyclone-11.0.1".toList) ∧
      ∃ report, buildParallelGroupReport PyInterp.ascii 1
          [failedReport "connext_dds-7.7.0" "eclipse_cyclone-11.0.1"] = .ok report ∧
        (report.pubFails.total = report.totalFailRaw ∧
            report.subFails.total = report.totalFailRaw ↔
          ∀ r ∈ resultsOf PyInterp.ascii [failedReport "connext_dds-7.7.0" "eclipse_cyclone-11.0.1"],
            r.richStatus.isRealFail = true → Readable PyInterp.ascii (keyLabel r.key)) := by
  have h := breakdown_iff PyInterp.ascii
  exact ⟨h.1 _ _ (isProductName_of_all (by decide +kernel))
    (isProductName_of_all (by decide +kernel)) _ _, _, rfl, h.2 _ _ _ rfl⟩

/-- The failure of `dust_dds` is in the total, and in no breakdown. -/
theorem breakdown_loses_dust_dds :
    extractPubSub PyInterp.ascii (keyLabel (caseKey "dust_dds".toList "connext_dds-7.7.0".toList
        "rtps_test_suite_1_Test_Domain_0" [])) = none ∧
      ∃ report, buildParallelGroupReport PyInterp.ascii 1
          [failedReport "dust_dds" "connext_dds-7.7.0"] = .ok report ∧
        report.totalFailRaw = 1 ∧ report.pubFails.total = 0 ∧ report.subFails.total = 0 := by
  refine ⟨by decide +kernel, _, rfl, ?_, ?_, ?_⟩
  · decide +kernel
  · decide +kernel
  · decide +kernel

end DdsRtps.Analysis
