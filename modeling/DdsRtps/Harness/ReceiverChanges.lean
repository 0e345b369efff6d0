/-
# `DdsRtps.Harness.ReceiverChanges` — which samples show two publishers

The loop of `test_size_receivers` and `test_color_receivers` is left in four
ways: at the end of the output, at a match that is no sample, at the 500th
match behind the first sample, and where two publishers show.  In each of them
it has come to some values and judged them, all but the last without a
complaint (`Examines`); and these alone decide: `RECEIVING_FROM_BOTH` is
returned exactly if the sizes among them change twice, or if the colors among
them are not all the same (`receivingFromBoth_iff`).
-/
import DdsRtps.Harness.Receivers

namespace DdsRtps.Harness

open Regex
open EventLoop (Begins)

/-! ## What is examined -/

namespace ReceiverCheck

variable {κ σ : Type} (check : ReceiverCheck κ σ) (py : PyUnicode) (text : List Char)
  (events : Nat → Arrival (Window Char))

/-- The loop comes to judge the values of all these texts: it has waited behind each of
them but the last, they are samples, and fewer than `MAX_SAMPLES_READ` are behind the
first. -/
structure Judges (windows : List (Window Char)) : Prop where
  begins : Begins events windows
  waits : ∀ before w, before ++ [w] <+: windows →
    ∃ st, (check.eventLoop py text).after before = .inl st
  reads : ∀ t ∈ textsOf text windows, (check.read t).isSome = true
  less : windows.length < maxSamplesRead

/-- The values that are examined: those that the loop comes to judge, with no other
behind them. -/
def Examines (values : List κ) : Prop :=
  ∃ windows, check.Judges py text events windows ∧
    (∀ w, ¬check.Judges py text events (windows ++ [w])) ∧
    (textsOf text windows).map check.read = values.map some

/-- The program is gone while the loop waits. -/
def CutByEof : Prop :=
  ∃ windows st, Begins events windows ∧ (check.eventLoop py text).after windows = .inl st ∧
    events windows.length = .eof

variable {check py text events}

theorem Judges.of_initial {windows windows' : List (Window Char)}
    (h : check.Judges py text events windows') (hinitial : windows <+: windows') :
    check.Judges py text events windows where
  begins := h.begins.of_initial hinitial
  waits before w hbefore := h.waits before w (hbefore.trans hinitial)
  reads t ht := by
    obtain ⟨more, rfl⟩ := hinitial
    refine h.reads t ?_
    rw [textsOf, List.map_append, ← List.cons_append]
    exact List.mem_append_left _ ht
  less := lt_of_le_of_lt hinitial.length_le h.less

/-- The texts of samples have values. -/
theorem exists_values {read : List Char → Option κ} {texts : List (List Char)}
    (h : ∀ t ∈ texts, (read t).isSome = true) :
    ∃ values : List κ, texts.map read = values.map some := by
  induction texts with
  | nil => exact ⟨[], rfl⟩
  | cons t texts ih =>
      rw [List.forall_mem_cons] at h
      obtain ⟨value, hvalue⟩ := Option.isSome_iff_exists.mp h.1
      obtain ⟨values, hvalues⟩ := ih h.2
      exact ⟨value :: values, by rw [List.map_cons, List.map_cons, hvalue, hvalues]⟩

/-- There are two maximal lists of texts only if they are the same. -/
theorem Judges.maximal_unique {windows windows' : List (Window Char)}
    (h : check.Judges py text events windows) (h' : check.Judges py text events windows')
    (hlast : ∀ w, ¬check.Judges py text events (windows ++ [w]))
    (hlast' : ∀ w, ¬check.Judges py text events (windows' ++ [w])) : windows = windows' := by
  have hall : ∀ {ws ws' : List (Window Char)}, ws <+: ws' → check.Judges py text events ws' →
      (∀ w, ¬check.Judges py text events (ws ++ [w])) → ws = ws' := by
    rintro ws ws' ⟨more, rfl⟩ hjudges hmaximal
    cases more with
    | nil => rw [List.append_nil]
    | cons w more =>
        refine absurd (hjudges.of_initial ?_) (hmaximal w)
        exact ⟨more, by rw [List.append_assoc, List.singleton_append]⟩
  rcases h.begins.prefix_or h'.begins with hle | hle
  · exact hall hle h' hlast
  · exact (hall hle h hlast').symm

/-- Some values are examined: the loop cannot go on past `MAX_SAMPLES_READ`. -/
theorem exists_examines (hread : (check.read text).isSome = true) :
    ∃ values, check.Examines py text events values := by
  by_contra hnone
  have hmore : ∀ windows, check.Judges py text events windows →
      ∃ w, check.Judges py text events (windows ++ [w]) := by
    intro windows hjudges
    by_contra hmaximal
    obtain ⟨values, hvalues⟩ := exists_values hjudges.reads
    exact hnone ⟨values, windows, hjudges, not_exists.mp hmaximal, hvalues⟩
  have hlong : ∀ n, ∃ windows, windows.length = n ∧ check.Judges py text events windows := by
    intro n
    induction n with
    | zero =>
        refine ⟨[], rfl, EventLoop.begins_nil events, ?_, ?_, Nat.succ_pos 499⟩
        · intro before w hinitial
          exact absurd (List.prefix_nil.mp hinitial) (by simp)
        · intro t ht
          rw [List.mem_singleton.mp ht]
          exact hread
    | succ n ih =>
        obtain ⟨windows, rfl, hjudges⟩ := ih
        obtain ⟨w, hw⟩ := hmore windows hjudges
        exact ⟨windows ++ [w], by rw [List.length_append, List.length_singleton], hw⟩
  obtain ⟨windows, hlength, hjudges⟩ := hlong maxSamplesRead
  exact absurd hjudges.less (by rw [hlength]; exact lt_irrefl _)

/-! ## What comes of it -/

/-- The last of the values is judged: the loop waits, or two publishers show. -/
theorem Judges.after (hbasic : basicCheck py text = .ok) {windows : List (Window Char)}
    (h : check.Judges py text events windows) :
    (∃ st, check.source text windows = some st.kept ∧
        (check.eventLoop py text).after windows = .inl st) ∨
      check.source text windows = none ∧
        (check.eventLoop py text).after windows = .inr (.ok .receivingFromBoth) := by
  have hturn : ∀ {value : κ} {samplesRead : Nat} {kept : σ}, samplesRead < 500 →
      check.judge kept value = none →
      check.turn (some value) samplesRead kept = .inr (.ok .receivingFromBoth) := by
    intro value samplesRead kept hless hnone
    rw [turn, maxSamplesRead]
    simp only [hless, if_true, hnone]
  cases hsource : check.source text windows with
  | some s =>
      exact .inl ⟨⟨windows.length, s⟩, rfl, (after_eq_inl_iff hbasic).mpr ⟨h.less, hsource, rfl⟩⟩
  | none =>
      refine .inr ⟨rfl, ?_⟩
      rcases List.eq_nil_or_concat windows with rfl | ⟨before, w, rfl⟩
      · obtain ⟨value, hvalue⟩ := Option.isSome_iff_exists.mp (h.reads text List.mem_cons_self)
        rw [source, hvalue, Option.bind_some, textsOf, List.map_nil, List.foldlM_cons, follow,
          hvalue, Option.bind_some] at hsource
        rw [EventLoop.after_nil]
        simp only [eventLoop, hbasic, ne_eq, not_true_eq_false, if_false, hvalue]
        refine hturn (Nat.succ_pos 499) ?_
        cases hjudge : check.judge (check.first value) value with
        | none => rfl
        | some s =>
            rw [hjudge] at hsource
            cases hsource
      · rw [List.concat_eq_append] at h hsource ⊢
        obtain ⟨st, hwaits⟩ := h.waits before w List.prefix_rfl
        obtain ⟨-, hbefore, hcount⟩ := (after_eq_inl_iff hbasic).mp hwaits
        have hmem : w.text ∈ textsOf text (before ++ [w]) := by
          rw [textsOf_append]
          exact List.mem_append_right _ (List.mem_singleton_self _)
        obtain ⟨value, hvalue⟩ := Option.isSome_iff_exists.mp (h.reads w.text hmem)
        rw [source_concat, hbefore, Option.bind_some, follow, hvalue, Option.bind_some] at hsource
        rw [EventLoop.after_concat, hwaits]
        show check.turn (check.read w.text) (st.samplesRead + 1) st.kept = _
        rw [hvalue, hcount]
        refine hturn ?_ hsource
        have hless := h.less
        rwa [List.length_append, List.length_singleton] at hless

/-- Where the loop waits behind the last of the values, nothing of another publisher comes. -/
theorem Judges.returns_of_last (hbasic : basicCheck py text = .ok)
    {windows : List (Window Char)} {st : Receiving σ} (h : check.Judges py text events windows)
    (hlast : ∀ w, ¬check.Judges py text events (windows ++ [w]))
    (hwaits : (check.eventLoop py text).after windows = .inl st) :
    (check.eventLoop py text).Returns events (.ok .receivingFromOne) ∨
      (check.eventLoop py text).Returns events (.ok .dataNotReceived) ∧
        check.CutByEof py text events := by
  cases hnext : events windows.length with
  | timeout => exact .inl (.timeout h.begins hwaits hnext)
  | eof => exact .inr ⟨.eof h.begins hwaits hnext, windows, st, h.begins, hwaits, hnext⟩
  | input w =>
      have hbegins := EventLoop.begins_concat_iff.mpr ⟨h.begins, hnext⟩
      refine .inl (.of_after hbegins ?_)
      rw [EventLoop.after_concat, hwaits]
      refine turn_eq_receivingFromOne_iff.mpr ?_
      obtain ⟨-, -, hcount⟩ := (after_eq_inl_iff hbasic).mp hwaits
      by_contra hneither
      obtain ⟨hread, hless⟩ := not_or.mp hneither
      -- otherwise the value of this text is judged as well
      refine hlast w ⟨hbegins, fun before v hbefore => ?_, fun t ht => ?_, ?_⟩
      · rcases List.prefix_concat_iff.mp hbefore with heq | hshorter
        · obtain ⟨rfl, -⟩ := List.append_inj' heq rfl
          exact ⟨st, hwaits⟩
        · exact h.waits before v hshorter
      · rw [textsOf_append] at ht
        rcases List.mem_append.mp ht with hold | hnew
        · exact h.reads t hold
        · rw [List.mem_singleton.mp hnew]
          exact Option.isSome_iff_ne_none.mpr hread
      · rw [List.length_append, List.length_singleton, maxSamplesRead]
        omega

variable {single : List κ → Prop}

variable (events) in
/-- `RECEIVING_FROM_BOTH` and `RECEIVING_FROM_ONE` by the values that are examined;
`single` says of them that they can be those of one publisher. -/
theorem examined (hbasic : basicCheck py text = .ok) (hread : (check.read text).isSome = true)
    (hsingle : ∀ windows values, (textsOf text windows).map check.read = values.map some →
      (single values ↔ (check.source text windows).isSome = true)) :
    (∃! values, check.Examines py text events values) ∧
      ∀ values, check.Examines py text events values → values.length ≤ maxSamplesRead ∧
        ((check.eventLoop py text).Returns events (.ok .receivingFromBoth) ↔ ¬single values) ∧
        (¬check.CutByEof py text events →
          ((check.eventLoop py text).Returns events (.ok .receivingFromOne) ↔ single values)) := by
  constructor
  · obtain ⟨values, hexamines⟩ : ∃ values, check.Examines py text events values :=
      exists_examines hread
    refine ⟨values, hexamines, fun values' hexamines' => ?_⟩
    obtain ⟨windows, hjudges, hlast, hvalues⟩ := hexamines
    obtain ⟨windows', hjudges', hlast', hvalues'⟩ := hexamines'
    obtain rfl := hjudges.maximal_unique hjudges' hlast hlast'
    exact List.map_injective_iff.mpr (Option.some_injective κ) (hvalues'.symm.trans hvalues)
  · rintro values ⟨windows, hjudges, hlast, hvalues⟩
    have hlength := congrArg List.length hvalues
    rw [List.length_map, List.length_map, textsOf, List.length_cons, List.length_map] at hlength
    refine ⟨hlength ▸ hjudges.less, ?_⟩
    rw [hsingle windows values hvalues]
    rcases hjudges.after hbasic with ⟨st, hsource, hwaits⟩ | ⟨hsource, hleaves⟩
    · rw [hsource, Option.isSome_some]
      rcases hjudges.returns_of_last hbasic hlast hwaits with hone | ⟨hgone, hcut⟩
      · refine ⟨iff_of_false (fun hboth => ?_) (not_not.mpr rfl), fun _ => iff_of_true hone rfl⟩
        cases Except.ok.inj (hone.unique hboth)
      · refine ⟨iff_of_false (fun hboth => ?_) (not_not.mpr rfl), fun hwhole => absurd hcut hwhole⟩
        cases Except.ok.inj (hgone.unique hboth)
    · have hboth := EventLoop.Returns.of_after hjudges.begins hleaves
      rw [hsource, Option.isSome_none]
      refine ⟨iff_of_true hboth Bool.false_ne_true, fun _ => iff_of_false (fun hone => ?_)
        Bool.false_ne_true⟩
      cases Except.ok.inj (hone.unique hboth)

end ReceiverCheck

/-! ## Sizes and colors -/

variable {py : PyUnicode} {text : List Char} {events : Nat → Arrival (Window Char)}

/-- The sizes of one publisher change once at most. -/
theorem sizeChanges_le_one_iff (windows : List (Window Char)) (sizes : List Nat)
    (hsizes : (textsOf text windows).map (basicSize py) = sizes.map some) :
    sizeChanges sizes ≤ 1 ↔ ((testSizeReceivers py).source text windows).isSome = true := by
  rw [← oneSizeChange_iff, OneSizeChange]
  constructor
  · exact fun hchanges => ⟨sizes, hsizes, hchanges⟩
  · rintro ⟨sizes', hsizes', hchanges⟩
    obtain rfl := List.map_injective_iff.mpr (Option.some_injective Nat)
      (hsizes.symm.trans hsizes')
    exact hchanges

/-- The colors of one publisher are all the same. -/
theorem constant_iff (windows : List (Window Char)) (colors : List (List Char))
    (hcolors : (textsOf text windows).map (colorOf py) = colors.map some) :
    (∃ color, ∀ c ∈ colors, c = color) ↔
      ((testColorReceivers py).source text windows).isSome = true := by
  rw [← oneColor_iff, OneColor]
  refine exists_congr fun color => ?_
  have hall : (∀ c ∈ colors.map some, c = some color) ↔
      ∀ t ∈ textsOf text windows, colorOf py t = some color := by
    rw [← hcolors, List.forall_mem_map]
  rw [← hall, List.forall_mem_map]
  exact forall₂_congr fun c _ => (Option.some_inj).symm

variable (events) in
/-- **`RECEIVING_FROM_BOTH` is exact**: behind a well-formed first sample,
`test_size_receivers` returns it if and only if the sizes it examines change twice or more,
and `test_color_receivers` if and only if the colors it examines are not all the same.
Unless the program is gone, the answer is `RECEIVING_FROM_ONE` otherwise. -/
theorem receivingFromBoth_iff (hbasic : basicCheck py text = .ok) :
    ((∃! sizes, (testSizeReceivers py).Examines py text events sizes) ∧
      ∀ sizes, (testSizeReceivers py).Examines py text events sizes →
        sizes.length ≤ maxSamplesRead ∧
        (((testSizeReceivers py).eventLoop py text).Returns events (.ok .receivingFromBoth) ↔
          2 ≤ sizeChanges sizes) ∧
        (¬(testSizeReceivers py).CutByEof py text events →
          (((testSizeReceivers py).eventLoop py text).Returns events (.ok .receivingFromOne) ↔
            sizeChanges sizes ≤ 1))) ∧
    ((∃! colors, (testColorReceivers py).Examines py text events colors) ∧
      ∀ colors, (testColorReceivers py).Examines py text events colors →
        colors.length ≤ maxSamplesRead ∧
        (((testColorReceivers py).eventLoop py text).Returns events (.ok .receivingFromBoth) ↔
          ¬∃ color, ∀ c ∈ colors, c = color) ∧
        (¬(testColorReceivers py).CutByEof py text events →
          (((testColorReceivers py).eventLoop py text).Returns events (.ok .receivingFromOne) ↔
            ∃ color, ∀ c ∈ colors, c = color))) := by
  constructor
  · have hread : ((testSizeReceivers py).read text).isSome = true :=
      Option.isSome_iff_exists.mpr (exists_basicSize hbasic)
    have hexamined := ReceiverCheck.examined events hbasic hread sizeChanges_le_one_iff
    simpa only [not_le, Nat.lt_iff_add_one_le] using hexamined
  · have hread : ((testColorReceivers py).read text).isSome = true :=
      Option.isSome_iff_exists.mpr (exists_colorOf hbasic)
    exact ReceiverCheck.examined events hbasic hread constant_iff

/-- A red sample of size 2 and a blue one of size 1, behind a red one of size 1. -/
def bothColors : Nat → Arrival (Window Char) :=
  EventLoop.streamOf [sampleMatch "RED" 2, sampleMatch "BLUE" 1] .timeout

/-- All three are examined, if the second publisher shows in the last only. -/
theorem examines_bothColors {κ σ : Type} {check : ReceiverCheck κ σ} {values : List κ}
    (hfirst : (check.source (sampleMatch "RED" 1).text []).isSome = true)
    (hsecond : (check.source (sampleMatch "RED" 1).text [sampleMatch "RED" 2]).isSome = true)
    (hthird : check.source (sampleMatch "RED" 1).text
      [sampleMatch "RED" 2, sampleMatch "BLUE" 1] = none)
    (hvalues : (textsOf (sampleMatch "RED" 1).text
      [sampleMatch "RED" 2, sampleMatch "BLUE" 1]).map check.read = values.map some) :
    check.Examines .ascii (sampleMatch "RED" 1).text bothColors values := by
  have hwaits : ∀ {windows : List (Window Char)}, windows.length < 500 →
      (check.source (sampleMatch "RED" 1).text windows).isSome = true →
        ∃ st, (check.eventLoop .ascii (sampleMatch "RED" 1).text).after windows = .inl st := by
    intro windows hless hsource
    obtain ⟨kept, hkept⟩ := Option.isSome_iff_exists.mp hsource
    exact ⟨⟨windows.length, kept⟩, (ReceiverCheck.after_eq_inl_iff basicCheck_sampleMatch_red).mpr
      ⟨hless, hkept, rfl⟩⟩
  refine ⟨_, ⟨EventLoop.begins_streamOf _ _, fun before w hbefore => ?_, fun t ht => ?_,
    by decide⟩, fun w hjudges => ?_, hvalues⟩
  · match before, hbefore with
    | [], _ => exact hwaits (by decide) hfirst
    | [v], hbefore =>
        obtain ⟨rfl, -⟩ := List.cons_prefix_cons.mp hbefore
        exact hwaits (by decide) hsecond
    | v :: v' :: before, hbefore =>
        have hlength := hbefore.length_le
        simp only [List.length_append, List.length_cons, List.length_nil] at hlength
        omega
  · have hmem := List.mem_map_of_mem (f := check.read) ht
    rw [hvalues] at hmem
    obtain ⟨value, -, hvalue⟩ := List.mem_map.mp hmem
    rw [← hvalue]
    rfl
  · obtain ⟨st, hst⟩ := hjudges.waits _ w List.prefix_rfl
    obtain ⟨-, hkept, -⟩ := (ReceiverCheck.after_eq_inl_iff basicCheck_sampleMatch_red).mp hst
    rw [hthird] at hkept
    cases hkept

theorem receivingFromBoth_iff_bothColors :
    ((testSizeReceivers .ascii).eventLoop .ascii (sampleMatch "RED" 1).text).Returns bothColors
        (.ok .receivingFromBoth) ∧
      ((testColorReceivers .ascii).eventLoop .ascii (sampleMatch "RED" 1).text).Returns bothColors
        (.ok .receivingFromBoth) := by
  obtain ⟨⟨-, hsize⟩, ⟨-, hcolor⟩⟩ := receivingFromBoth_iff bothColors basicCheck_sampleMatch_red
  constructor
  · have hsizes := hsize [1, 2, 1] (examines_bothColors (by decide +kernel) (by decide +kernel)
      (by decide +kernel) (by decide +kernel))
    exact hsizes.2.1.mpr (by decide)
  · have hcolors := hcolor ["RED".toList, "RED".toList, "BLUE".toList] (examines_bothColors
      (by decide +kernel) (by decide +kernel) (by decide +kernel) (by decide +kernel))
    refine hcolors.2.1.mpr fun ⟨color, hall⟩ => ?_
    have hred := hall "RED".toList (by simp)
    have hblue := hall "BLUE".toList (by simp)
    exact absurd (hred.trans hblue.symm) (by decide)

end DdsRtps.Harness
