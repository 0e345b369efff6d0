/-
# `DdsRtps.Benchmarking.NamesRoundTrip` — the names are read back

`parse_filename_meta` finds in the name of a report what run_benchmark.sh has put
there if the jobs are digits only, the year has four digits and the seconds are not
negative; otherwise it does not (`roundTrips_iff`).

One way the matcher is followed along the name (`first_newFnameRe`).  The other way
any match has its `-par` where the name has it, since there is one only; so what
stands behind it are the jobs (`isDigit_of_roundTrips`).
-/
import DdsRtps.Benchmarking.ReportNames

namespace DdsRtps.Benchmarking

open Analysis (FileName FilenameMeta parseFilenameMeta chooseAllFiles sortedFiles newFnameRe
  intOfDigits stem decimalDigit batchOf isJunitXml)
open Regex

variable {py : PyInterp}

/-! ## What the matcher finds -/

section Match

variable {day month year hhmm jobs duration runner batch collision : List Char}

/-- All that a name has behind `junit_interoperability_report`. -/
def tagged (day month year hhmm jobs duration runner batch : List Char) : List Char :=
  '-' :: (day ++ (month ++ (year ++ ('-' :: (hhmm ++ ("-par".toList ++ (jobs ++
    ('-' :: (duration ++ ("sec".toList ++ ('-' :: (runner ++ ("-run".toList ++ batch)))))))))))))

theorem first_group_times {n k : Nat} {u : List Char} (hlength : u.length = k)
    (hu : ∀ c ∈ u, c.isDigit = true) (v : List Char) :
    first (.group n (times (decimalDigit py) k)) (u ++ v) = some (u, [(n, u)], v) :=
  first_group n (first_times hlength (fun c hc => decimalDigit_of_isDigit (hu c hc)) v)

theorem first_group_plus {n : Nat} {u v : List Char} (hne : u ≠ [])
    (hu : ∀ c ∈ u, c.isDigit = true) (hv : StartsOutside (decimalDigit py) v) :
    first (.group n (plus (decimalDigit py))) (u ++ v) = some (u, [(n, u)], v) :=
  first_group n (first_plus hne (fun c hc => decimalDigit_of_isDigit (hu c hc)) hv)

theorem startsOutside_cons {c : Char} (h : c.toNat < 128) (h' : c.isDigit = false) (v : List Char) :
    StartsOutside (decimalDigit py) (c :: v) := by
  intro a ha
  obtain rfl := Option.some.inj ha
  rw [decimalDigit_eq_isDigit h]
  exact h'

theorem first_runner (r : Runner) (v : List Char) :
    first (.group 7 (.alt (lit "self-hosted".toList) (lit "ubuntu".toList))) (r.text ++ v) =
      some (r.text, [(7, r.text)], v) := by
  cases r with
  | selfHosted => exact first_group 7 (first_alt_left (first_lit _ v))
  | ubuntu =>
      refine first_group 7 ((first_alt_right ?_).trans (first_lit _ v))
      exact first_lit_eq_none (by decide) _ _

variable (py) in
/-- The matcher goes along the whole name. -/
theorem first_newFnameRe (r : Runner) (hday : day.length = 2 ∧ ∀ c ∈ day, c.isDigit = true)
    (hmonth : month.length = 2 ∧ ∀ c ∈ month, c.isDigit = true)
    (hyear : year.length = 4 ∧ ∀ c ∈ year, c.isDigit = true)
    (hhhmm : hhmm.length = 4 ∧ ∀ c ∈ hhmm, c.isDigit = true)
    (hjobs : jobs ≠ [] ∧ ∀ c ∈ jobs, c.isDigit = true)
    (hduration : duration ≠ [] ∧ ∀ c ∈ duration, c.isDigit = true)
    (hbatch : batch ≠ [] ∧ ∀ c ∈ batch, c.isDigit = true)
    (hcollision : StartsOutside (decimalDigit py) collision) :
    ∃ u, first (newFnameRe py)
        (tagged day month year hhmm jobs duration r.text batch ++ collision) =
      some (u, [(1, day), (2, month), (3, year), (4, hhmm), (5, jobs), (6, duration), (7, r.text),
        (8, batch)], collision) := by
  have htext : tagged day month year hhmm jobs duration r.text batch ++ collision =
      '-' :: (day ++ (month ++ (year ++ (['-'] ++ (hhmm ++ ("-par".toList ++ (jobs ++
        (['-'] ++ (duration ++ ("sec".toList ++ (['-'] ++ (r.text ++ ("-run".toList ++
          (batch ++ collision)))))))))))))) := by
    simp [tagged]
  have hbatches := first_seq (first_optional (first_seq (first_lit "-run".toList _)
    (first_seq (first_group_plus (n := 8) hbatch.1 hbatch.2 hcollision) (first_empty _))))
    (first_empty collision)
  have hrunner := first_optional (first_seq (first_lit ['-'] _)
    (first_seq (first_runner r ("-run".toList ++ (batch ++ collision))) (first_empty _)))
  have hsec : StartsOutside (decimalDigit py)
      ("sec".toList ++ (['-'] ++ (r.text ++ ("-run".toList ++ (batch ++ collision))))) :=
    startsOutside_cons (by decide) (by decide) _
  have hseconds := first_optional (first_seq (first_lit ['-'] _)
    (first_seq (first_group_plus (n := 6) hduration.1 hduration.2 hsec)
      (first_seq (first_lit "sec".toList _) (first_empty _))))
  have hdash : StartsOutside (decimalDigit py) (['-'] ++ (duration ++ ("sec".toList ++
      (['-'] ++ (r.text ++ ("-run".toList ++ (batch ++ collision))))))) :=
    startsOutside_cons (by decide) (by decide) _
  have hparallel := first_group_plus (n := 5) hjobs.1 hjobs.2 hdash
  rw [htext]
  exact ⟨_, first_seq (first_one (by decide) _)
    (first_seq (first_group_times hday.1 hday.2 _)
    (first_seq (first_group_times hmonth.1 hmonth.2 _)
    (first_seq (first_group_times hyear.1 hyear.2 _)
    (first_seq (first_lit ['-'] _)
    (first_seq (first_group_times hhhmm.1 hhhmm.2 _)
    (first_seq (first_lit "-par".toList _)
    (first_seq hparallel
    (first_seq hseconds (first_seq hrunner hbatches)))))))))⟩

/-- Seconds, in a match. -/
theorem parse_seconds {u : List Char} {cs : Captures Char}
    (h : Parse (optional (cat [lit ['-'], .group 6 (plus (decimalDigit py)), lit "sec".toList]))
      u cs) :
    u = [] ∧ cs = [] ∨ ∃ text w, u = '-' :: text ∧ cs = [(6, w)] := by
  rcases h with ⟨_, _, _, _, hdash, h, rfl, rfl⟩ | hempty
  · obtain ⟨rfl, rfl⟩ := parse_lit_iff.mp hdash
    obtain ⟨w, _, _, _, ⟨_, hplus, rfl⟩, ⟨_, _, _, _, hsec, ⟨rfl, rfl⟩, rfl, rfl⟩, rfl, rfl⟩ := h
    obtain ⟨rfl, rfl⟩ := parse_lit_iff.mp hsec
    obtain ⟨-, -, rfl⟩ := parse_plus_iff.mp hplus
    exact .inr ⟨_, w, rfl, rfl⟩
  · exact .inl hempty

/-- A runner, in a match. -/
theorem parse_runner {u : List Char} {cs : Captures Char}
    (h : Parse (optional (cat [lit ['-'],
      .group 7 (.alt (lit "self-hosted".toList) (lit "ubuntu".toList))])) u cs) :
    u = [] ∧ cs = [] ∨ ∃ w, u = '-' :: w ∧ cs = [(7, w)] := by
  rcases h with ⟨_, _, _, _, hdash, ⟨w, _, _, _, ⟨_, halt, rfl⟩, ⟨rfl, rfl⟩, rfl, rfl⟩, rfl, rfl⟩ |
    hempty
  · obtain ⟨rfl, rfl⟩ := parse_lit_iff.mp hdash
    refine .inr ⟨w, ?_, ?_⟩
    · rw [List.append_nil]
      rfl
    · rcases halt with hlit | hlit
      · rw [(parse_lit_iff.mp hlit).2]
        rfl
      · rw [(parse_lit_iff.mp hlit).2]
        rfl
  · exact .inl hempty

/-- The parts of a match, and what is captured of them. -/
theorem parse_newFnameRe {u : List Char} {cs : Captures Char} (h : Parse (newFnameRe py) u cs) :
    ∃ sep day month year hhmm parallel seconds runner batch cs₆ cs₇ cs₈,
      u = sep :: (day ++ (month ++ (year ++ ('-' :: (hhmm ++ ("-par".toList ++ (parallel ++
        (seconds ++ (runner ++ batch))))))))) ∧
      cs = [(1, day), (2, month), (3, year), (4, hhmm), (5, parallel)] ++ (cs₆ ++ (cs₇ ++ cs₈)) ∧
      (sep = '-' || sep = '_') = true ∧
      (day.length = 2 ∧ (∀ c ∈ day, decimalDigit py c = true) ∧ month.length = 2 ∧
        year.length = 4) ∧
      (parallel ≠ [] ∧ ∀ c ∈ parallel, decimalDigit py c = true) ∧
      (seconds = [] ∧ cs₆ = [] ∨ ∃ text w, seconds = '-' :: text ∧ cs₆ = [(6, w)]) ∧
      (runner = [] ∧ cs₇ = [] ∨ ∃ w, runner = '-' :: w ∧ cs₇ = [(7, w)]) ∧
      ∀ w, (7, w) ∉ cs₈ := by
  obtain ⟨_, _, _, _, ⟨sep, hsep, rfl, rfl⟩, h, rfl, rfl⟩ := h
  obtain ⟨day, _, _, _, ⟨_, hday, rfl⟩, h, rfl, rfl⟩ := h
  obtain ⟨month, _, _, _, ⟨_, hmonth, rfl⟩, h, rfl, rfl⟩ := h
  obtain ⟨year, _, _, _, ⟨_, hyear, rfl⟩, h, rfl, rfl⟩ := h
  obtain ⟨_, _, _, _, hdash, h, rfl, rfl⟩ := h
  obtain ⟨hhmm, _, _, _, ⟨_, hhhmm, rfl⟩, h, rfl, rfl⟩ := h
  obtain ⟨_, _, _, _, hpar, h, rfl, rfl⟩ := h
  obtain ⟨parallel, _, _, _, ⟨_, hparallel, rfl⟩, h, rfl, rfl⟩ := h
  obtain ⟨seconds, cs₆, _, _, hseconds, h, rfl, rfl⟩ := h
  obtain ⟨runner, cs₇, _, _, hrunner, h, rfl, rfl⟩ := h
  obtain ⟨batch, cs₈, _, _, hbatch, ⟨rfl, rfl⟩, rfl, rfl⟩ := h
  obtain ⟨hday₂, hdigits, rfl⟩ := parse_times hday
  obtain ⟨hmonth₂, -, rfl⟩ := parse_times hmonth
  obtain ⟨hyear₄, -, rfl⟩ := parse_times hyear
  obtain ⟨rfl, rfl⟩ := parse_lit_iff.mp hdash
  obtain ⟨-, -, rfl⟩ := parse_times hhhmm
  obtain ⟨rfl, rfl⟩ := parse_lit_iff.mp hpar
  obtain ⟨hne, hall, rfl⟩ := parse_plus_iff.mp hparallel
  refine ⟨sep, day, month, year, hhmm, parallel, seconds, runner, batch, cs₆, cs₇, cs₈, ?_, ?_,
    hsep, ⟨hday₂, hdigits, hmonth₂, hyear₄⟩, ⟨hne, hall⟩, parse_seconds hseconds,
    parse_runner hrunner, ?_⟩
  · simp
  · simp
  · intro w hw
    rcases hbatch with ⟨_, _, _, _, hrun, ⟨_, _, _, _, ⟨_, hplus, rfl⟩, ⟨rfl, rfl⟩, rfl, rfl⟩, rfl,
      rfl⟩ | ⟨rfl, rfl⟩
    · obtain ⟨rfl, rfl⟩ := parse_lit_iff.mp hrun
      obtain ⟨-, -, rfl⟩ := parse_plus_iff.mp hplus
      simp at hw
    · cases hw

/-- Nothing in `junit_interoperability_report` begins a match. -/
theorem quietBefore_report (t : List Char) :
    QuietBefore (newFnameRe py) "junit_interoperability_report".toList ('-' :: t) := by
  have hchain : ("junit_interoperability_report".toList ++ ['-']).IsChain fun x y =>
      y.toNat < 128 ∧ ¬((x = '-' || x = '_') = true ∧ y.isDigit = true) := by
    decide
  refine quietBefore_of_isChain (p := fun c => c = '-' || c = '_') (q := decimalDigit py)
    (fun u cs h => ?_) (hchain.imp fun x y h => ?_) t
  · obtain ⟨sep, day, month, year, hhmm, parallel, seconds, runner, batch, _, _, _, rfl, -, hsep,
      ⟨hday, hdigits, -⟩, -⟩ := parse_newFnameRe h
    obtain ⟨d, day', rfl⟩ := List.exists_cons_of_length_eq_add_one hday
    exact ⟨sep, d, _, rfl, hsep, hdigits d List.mem_cons_self⟩
  · rw [decimalDigit_eq_isDigit h.1]
    exact h.2

end Match

/-! ## Numbers -/

/-- A number that begins with a digit is these digits, with blanks behind them. -/
theorem legalNumber_of_isDigit {c : Char} {t : List Char} {v : Int} (hc : c.isDigit = true)
    (h : legalNumber (c :: t) = some v) :
    v = Nat.ofDigitChars 10 ((c :: t).takeWhile Char.isDigit) 0 ∧
      ∀ d ∈ (c :: t).dropWhile Char.isDigit, d = ' ' ∨ d = '\t' := by
  have hne : ∀ s : Char, s.isDigit = false → c ≠ s := by
    rintro s hs rfl
    rw [hc] at hs
    cases hs
  have hspace : isSpace c = false := by
    simp only [isSpace, hne ' ' (by decide), hne '\t' (by decide), hne '\n' (by decide),
      hne '\x0b' (by decide), hne '\x0c' (by decide), hne '\r' (by decide), decide_false,
      Bool.or_self]
  have hminus : ¬some c = some '-' := fun heq => hne '-' (by decide) (Option.some.inj heq)
  have hplus : ¬some c = some '+' := fun heq => hne '+' (by decide) (Option.some.inj heq)
  have hdigits : (c :: t).takeWhile Char.isDigit ≠ [] := by
    rw [List.takeWhile_cons, hc]
    exact List.cons_ne_nil _ _
  have htrim : (c :: t).dropWhile isSpace = c :: t := List.dropWhile_cons_of_neg (by simp [hspace])
  have hvalue : strtoimax (c :: t) = some (((Nat.ofDigitChars 10
      ((c :: t).takeWhile Char.isDigit) 0 : Nat) : Int), (c :: t).dropWhile Char.isDigit) := by
    simp only [strtoimax, htrim, List.head?_cons, hminus, hplus, or_self, if_false, hdigits]
  rw [legalNumber, hvalue] at h
  split at h
  · cases h
  · next value rest heq =>
      obtain ⟨rfl, rfl⟩ := Prod.mk.inj (Option.some.inj heq)
      split at h
      · next hlegal =>
          refine ⟨(Option.some.inj h).symm, fun d hd => ?_⟩
          simpa using List.all_eq_true.mp hlegal.1 d hd
      · cases h

/-- A number has a letter. -/
theorem ne_nil_of_leavesSlot {jobs : List Char} (h : leavesSlot jobs = true) : jobs ≠ [] := by
  rintro rfl
  cases h

/-- Of digits the number is what they say. -/
theorem legalNumber_of_digits {jobs : List Char} (hslot : leavesSlot jobs = true)
    (h : ∀ c ∈ jobs, c.isDigit = true) :
    legalNumber jobs = some ((Nat.ofDigitChars 10 jobs 0 : Nat) : Int) := by
  obtain ⟨c, t, rfl⟩ := List.exists_cons_of_ne_nil (ne_nil_of_leavesSlot hslot)
  obtain ⟨v, hv, -⟩ := (Option.any_eq_true _ _).mp hslot
  rw [hv, (legalNumber_of_isDigit (h c List.mem_cons_self) hv).1, List.takeWhile_eq_self_iff.mpr h]

/-- The digits of a year are four, up to 9999. -/
theorem length_toDigits_year {n : Nat} (h : 1970 ≤ n) :
    (Nat.toDigits 10 n).length = 4 ↔ n < 10000 := by
  have hfour : (Nat.toDigits 10 n).length ≤ 4 ↔ n < 10 ^ 4 :=
    Nat.length_toDigits_le_iff (by decide) (by decide)
  have hthree : (Nat.toDigits 10 n).length ≤ 3 ↔ n < 10 ^ 3 :=
    Nat.length_toDigits_le_iff (by decide) (by decide)
  generalize (Nat.toDigits 10 n).length = len at hfour hthree ⊢
  omega

/-- What `strtoimax` reads. -/
theorem strtoimax_spec {text rest : List Char} {value : Int}
    (h : strtoimax text = some (value, rest)) :
    ∃ blanks sign digits, text = blanks ++ (sign ++ (digits ++ rest)) ∧
      (∀ c ∈ blanks, isSpace c = true) ∧ (∀ c ∈ sign, c = '-' ∨ c = '+') ∧
      ∀ c ∈ digits, c.isDigit = true := by
  have htext := List.takeWhile_append_dropWhile (p := isSpace) (l := text)
  have hblanks : ∀ c ∈ text.takeWhile isSpace, isSpace c = true := fun c hc =>
    List.mem_takeWhile_imp hc
  simp only [strtoimax] at h
  generalize text.dropWhile isSpace = trimmed at h htext
  have hunsigned : ∃ sign unsigned, trimmed = sign ++ unsigned ∧
      (∀ c ∈ sign, c = '-' ∨ c = '+') ∧ unsigned.dropWhile Char.isDigit = rest := by
    split at h
    · next hsign =>
        cases trimmed with
        | nil => simp at hsign
        | cons c t =>
            refine ⟨[c], t, rfl, ?_, ?_⟩
            · rintro d hd
              obtain rfl := List.mem_singleton.mp hd
              exact hsign.imp Option.some.inj Option.some.inj
            · split at h
              · cases h
              · exact (Prod.mk.inj (Option.some.inj h)).2
    · refine ⟨[], trimmed, rfl, List.forall_mem_nil _, ?_⟩
      split at h
      · cases h
      · exact (Prod.mk.inj (Option.some.inj h)).2
  obtain ⟨sign, unsigned, rfl, hsign, rfl⟩ := hunsigned
  refine ⟨_, sign, unsigned.takeWhile Char.isDigit, ?_, hblanks, hsign,
    fun c hc => List.mem_takeWhile_imp hc⟩
  rw [List.takeWhile_append_dropWhile]
  exact htext.symm

/-- The letters of a number. -/
theorem mem_of_legalNumber {text : List Char} {v : Int} (h : legalNumber text = some v) :
    ∀ c ∈ text, isSpace c = true ∨ (c = '-' ∨ c = '+') ∨ c.isDigit = true := by
  rw [legalNumber] at h
  split at h
  · cases h
  · next value rest heq =>
      split at h
      · next hlegal =>
          obtain ⟨blanks, sign, digits, rfl, hblanks, hsign, hdigits⟩ := strtoimax_spec heq
          intro c hc
          simp only [List.mem_append] at hc
          rcases hc with hc | hc | hc | hc
          · exact .inl (hblanks c hc)
          · exact .inr (.inl (hsign c hc))
          · exact .inr (.inr (hdigits c hc))
          · have hblank := List.all_eq_true.mp hlegal.1 c hc
            rw [Bool.or_eq_true, decide_eq_true_eq, decide_eq_true_eq] at hblank
            left
            rcases hblank with rfl | rfl
            · rfl
            · rfl
      · cases h

theorem toNat_lt_of_legalNumber {text : List Char} {v : Int} (h : legalNumber text = some v) :
    ∀ c ∈ text, c.toNat < 128 := by
  intro c hc
  rcases mem_of_legalNumber h c hc with hspace | (rfl | rfl) | hdigit
  · simp only [isSpace, Bool.or_eq_true, decide_eq_true_eq] at hspace
    rcases hspace with ((((rfl | rfl) | rfl) | rfl) | rfl) | rfl <;> decide
  · decide
  · decide
  · exact PyUnicode.toNat_lt_of_isDigit hdigit

theorem not_mem_of_isDigit {a : Char} {text : List Char} (ha : a.isDigit = false)
    (h : ∀ c ∈ text, c.isDigit = true) : a ∉ text := by
  intro hmem
  rw [h a hmem] at ha
  cases ha

/-! ## The round trip -/

/-- What is read is what was written. -/
structure Same (r : Report) (fileMeta : FilenameMeta) : Prop where
  date : fileMeta.date = r.clock.date
  time : fileMeta.time = r.clock.hhmm
  parallel : legalNumber r.jobs = some ((fileMeta.parallel : Nat) : Int)
  duration : fileMeta.durationSec = r.elapsed
  runner : fileMeta.runner = some r.runner.text
  batch : fileMeta.batch = some r.batchNumber

/-- A name is read back. -/
def RoundTrips (py : PyInterp) (r : Report) (name : FileName) : Prop :=
  ∃ fileMeta, parseFilenameMeta py name = some fileMeta ∧ Same r fileMeta

/-- The jobs are digits, the clock was not set back, and the year has four digits. -/
structure Report.Plain (r : Report) : Prop where
  jobs : ∀ c ∈ r.jobs, c.isDigit = true
  elapsed : 0 ≤ r.elapsed
  year : r.clock.year < 10000

theorem Clock.isDigit_day (c : Clock) : ∀ d ∈ twoDigits c.day, d.isDigit = true :=
  isDigit_twoDigits (Nat.lt_of_le_of_lt c.day_range.2 (by decide))

theorem Clock.isDigit_month (c : Clock) : ∀ d ∈ twoDigits c.month, d.isDigit = true :=
  isDigit_twoDigits (Nat.lt_of_le_of_lt c.month_range.2 (by decide))

theorem Clock.isDigit_hhmm (c : Clock) : ∀ d ∈ c.hhmm, d.isDigit = true :=
  List.forall_mem_append.mpr ⟨isDigit_twoDigits (Nat.lt_of_le_of_lt c.hour_range (by decide)),
    isDigit_twoDigits (Nat.lt_of_le_of_lt c.minute_range (by decide))⟩

namespace Report

variable {r : Report} {collision : List Char} {name : FileName}

/-- Behind `junit_interoperability_report`. -/
def tags (r : Report) : List Char :=
  tagged (twoDigits r.clock.day) (twoDigits r.clock.month) (Nat.toDigits 10 r.clock.year)
    r.clock.hhmm r.jobs (decimal r.elapsed) r.runner.text r.batch

theorem dash_suffix (r : Report) : '-' :: r.suffix = r.tags := by
  refine congrArg ('-' :: ·) ?_
  show (twoDigits r.clock.day ++ (twoDigits r.clock.month ++ Nat.toDigits 10 r.clock.year)) ++ _ = _
  rw [List.append_assoc, List.append_assoc]
  rfl

theorem base_eq (r : Report) : r.base = "junit_interoperability_report".toList ++ r.tags :=
  congrArg ("junit_interoperability_report".toList ++ ·) r.dash_suffix

theorem base_ne_nil (r : Report) : r.base ≠ [] :=
  List.append_ne_nil_of_right_ne_nil _ (List.cons_ne_nil _ _)

theorem jobs_ne_nil (r : Report) : r.jobs ≠ [] := ne_nil_of_leavesSlot r.jobs_slot

theorem startsOutside_collision (h : Collision collision) :
    StartsOutside (decimalDigit py) collision := by
  cases h with
  | none => exact fun a ha => nomatch ha
  | number _ => exact startsOutside_cons (by decide) (by decide) _

theorem stem_eq (hname : name = r.base ++ collision ++ ".xml".toList) :
    stem name = "junit_interoperability_report".toList ++ (r.tags ++ collision) := by
  rw [hname, stem_xml (List.append_ne_nil_of_left_ne_nil r.base_ne_nil collision), base_eq,
    List.append_assoc]

/-- A plain report is read back. -/
theorem Plain.roundTrips (h : r.Plain) (hcollision : Collision collision)
    (hname : name = r.base ++ collision ++ ".xml".toList) : RoundTrips py r name := by
  have helapsed := isDigit_toDigits r.elapsed.natAbs
  have hdecimal : decimal r.elapsed = Nat.toDigits 10 r.elapsed.natAbs :=
    if_neg (Int.not_lt.mpr h.elapsed)
  obtain ⟨u, hfirst⟩ := first_newFnameRe py r.runner
    ⟨rfl, r.clock.isDigit_day⟩ ⟨rfl, r.clock.isDigit_month⟩
    ⟨(length_toDigits_year r.clock.year_range).mpr h.year, isDigit_toDigits r.clock.year⟩
    ⟨rfl, r.clock.isDigit_hhmm⟩ ⟨r.jobs_ne_nil, h.jobs⟩ ⟨Nat.toDigits_ne_nil, helapsed⟩
    r.batch_digits (startsOutside_collision hcollision)
  rw [← hdecimal] at hfirst
  have hu : r.tags = u := List.append_cancel_right (parse_of_first hfirst).1
  subst hu
  have hsearch := search_eq_some (quietBefore_report _) hfirst
  refine ⟨_, by rw [parseFilenameMeta, stem_eq hname]; exact congrArg (Option.bind · _) hsearch,
    List.append_assoc _ _ _, rfl, ?_, ?_, rfl, congrArg some (intOfDigits_eq r.batch_digits.2)⟩
  · show legalNumber r.jobs = some ((intOfDigits py r.jobs : Nat) : Int)
    rw [intOfDigits_eq h.jobs]
    exact legalNumber_of_digits r.jobs_slot h.jobs
  · show ((intOfDigits py (decimal r.elapsed) : Nat) : Int) = r.elapsed
    rw [hdecimal, intOfDigits_eq helapsed, Nat.ofDigitChars_ten_toDigits]
    exact Int.natAbs_of_nonneg h.elapsed

/-- A name that is read, with a runner, has its `-par` and one more `-` behind the jobs. -/
theorem parts_of_parseFilenameMeta {fileMeta : FilenameMeta} {text : List Char}
    (h : parseFilenameMeta py name = some fileMeta) (hrunner : fileMeta.runner = some text) :
    ∃ day month year before parallel after, fileMeta.date = day ++ month ++ year ∧
      (day.length = 2 ∧ month.length = 2 ∧ year.length = 4) ∧
      (parallel ≠ [] ∧ ∀ c ∈ parallel, decimalDigit py c = true) ∧
      stem name = before ++ '-' :: 'p' :: ('a' :: 'r' :: (parallel ++ '-' :: after)) := by
  obtain ⟨m, hsearch, h⟩ := Option.bind_eq_some_iff.mp h
  obtain ⟨hstem, hparse, -⟩ := search_spec hsearch
  obtain ⟨sep, day, month, year, hhmm, parallel, seconds, runner, batch, cs₆, cs₇, cs₈, htext,
    hcaptures, -, ⟨hday, -, hmonth, hyear⟩, hparallel, hseconds, hrunners, hbatch⟩ :=
    parse_newFnameRe hparse
  have hgroup : m.group 7 = (cs₆ ++ (cs₇ ++ cs₈)).lookup 7 := by rw [Found.group, hcaptures]; rfl
  have hmeta : fileMeta.date = day ++ month ++ year ∧ fileMeta.runner = m.group 7 := by
    have hday : m.group 1 = some day := by rw [Found.group, hcaptures]; rfl
    have hmonth : m.group 2 = some month := by rw [Found.group, hcaptures]; rfl
    have hyear : m.group 3 = some year := by rw [Found.group, hcaptures]; rfl
    have hhhmm : m.group 4 = some hhmm := by rw [Found.group, hcaptures]; rfl
    have hparallel : m.group 5 = some parallel := by rw [Found.group, hcaptures]; rfl
    rw [hday, hmonth, hyear, hhhmm, hparallel] at h
    obtain rfl := Option.some.inj h
    exact ⟨rfl, rfl⟩
  have hbehind : ∃ t, seconds ++ (runner ++ batch) = '-' :: t := by
    rcases hseconds with ⟨rfl, rfl⟩ | ⟨t, w, rfl, -⟩
    · rcases hrunners with ⟨rfl, rfl⟩ | ⟨w, rfl, -⟩
      · rw [hmeta.2, hgroup] at hrunner
        obtain ⟨l, l', hcs, -⟩ := List.lookup_eq_some_iff.mp hrunner
        refine absurd ?_ (hbatch text)
        show (7, text) ∈ [] ++ ([] ++ cs₈)
        rw [hcs]
        exact List.mem_append_right l List.mem_cons_self
      · exact ⟨w ++ batch, rfl⟩
    · exact ⟨t ++ (runner ++ batch), rfl⟩
  obtain ⟨t, ht⟩ := hbehind
  refine ⟨day, month, year, m.before ++ sep :: (day ++ (month ++ (year ++ '-' :: hhmm))), parallel,
    t ++ m.after, hmeta.1, ⟨hday, hmonth, hyear⟩, hparallel, ?_⟩
  rw [hstem, htext, ht]
  simp

theorem not_mem_jobs (r : Report) : 'p' ∉ r.jobs := by
  obtain ⟨v, hv, -⟩ := (Option.any_eq_true _ _).mp r.jobs_slot
  intro hmem
  exact absurd (mem_of_legalNumber hv 'p' hmem) (by decide)

/-- All that a name has behind the jobs and a `-`. -/
def behind (r : Report) (collision : List Char) : List Char :=
  decimal r.elapsed ++ ("sec".toList ++ ('-' :: (r.runner.text ++
    ("-run".toList ++ (r.batch ++ collision)))))

/-- There is no other `p` behind the one of `-par`. -/
theorem not_mem_behind (r : Report) (hcollision : Collision collision) :
    'p' ∉ 'a' :: 'r' :: (r.jobs ++ '-' :: r.behind collision) := by
  have hdigits : ∀ n, 'p' ∉ Nat.toDigits 10 n := fun n =>
    not_mem_of_isDigit rfl (isDigit_toDigits n)
  have helapsed : 'p' ∉ decimal r.elapsed := by
    rw [decimal]
    split
    · exact List.not_mem_cons_of_ne_of_not_mem (by decide) (hdigits _)
    · exact hdigits _
  have hrunner : 'p' ∉ r.runner.text := by
    cases r.runner with
    | selfHosted => decide
    | ubuntu => decide
  have hbatch : 'p' ∉ r.batch := not_mem_of_isDigit rfl r.batch_digits.2
  have hnumber : 'p' ∉ collision := by
    cases hcollision with
    | none => exact List.not_mem_nil
    | number _ => exact List.not_mem_cons_of_ne_of_not_mem (by decide) (hdigits _)
  simp [behind, r.not_mem_jobs, helapsed, hrunner, hbatch, hnumber]

/-- What stands behind a `-par` of the name. -/
theorem eq_jobs_append {before after : List Char} (hcollision : Collision collision)
    (hname : name = r.base ++ collision ++ ".xml".toList)
    (h : stem name = before ++ '-' :: 'p' :: 'a' :: 'r' :: after) :
    after = r.jobs ++ '-' :: r.behind collision := by
  have hdate : 'p' ∉ ('-' :: (twoDigits r.clock.day ++ (twoDigits r.clock.month ++
      (Nat.toDigits 10 r.clock.year ++ '-' :: r.clock.hhmm)))) ++ ['-'] := by
    have hday : 'p' ∉ twoDigits r.clock.day := not_mem_of_isDigit rfl r.clock.isDigit_day
    have hmonth : 'p' ∉ twoDigits r.clock.month := not_mem_of_isDigit rfl r.clock.isDigit_month
    have hyear : 'p' ∉ Nat.toDigits 10 r.clock.year := not_mem_of_isDigit rfl (isDigit_toDigits _)
    have hhhmm : 'p' ∉ r.clock.hhmm := not_mem_of_isDigit rfl r.clock.isDigit_hhmm
    simp [hday, hmonth, hyear, hhhmm]
  have htags : r.tags ++ collision = ('-' :: (twoDigits r.clock.day ++ (twoDigits r.clock.month ++
      (Nat.toDigits 10 r.clock.year ++ '-' :: r.clock.hhmm)))) ++
        '-' :: 'p' :: 'a' :: 'r' :: (r.jobs ++ '-' :: r.behind collision) := by
    simp [tags, tagged, behind]
  rw [stem_eq hname, htags] at h
  have htail := append_pair_inj (by decide) hdate (r.not_mem_behind hcollision) h.symm
  exact (List.cons.inj (List.cons.inj htail).2).2

/-- A `-` stands behind the jobs that were read, and no blank. -/
theorem isDigit_of_roundTrips {fileMeta : FilenameMeta} (hcollision : Collision collision)
    (hname : name = r.base ++ collision ++ ".xml".toList)
    (h : parseFilenameMeta py name = some fileMeta) (hsame : Same r fileMeta) :
    ∀ c ∈ r.jobs, c.isDigit = true := by
  obtain ⟨-, -, -, before, parallel, after, -, -, ⟨hne, hall⟩, hstem⟩ :=
    parts_of_parseFilenameMeta h hsame.runner
  have hparallel := eq_jobs_append hcollision hname hstem
  obtain ⟨v, hv, -⟩ := (Option.any_eq_true _ _).mp r.jobs_slot
  obtain ⟨c, t, hjobs⟩ := List.exists_cons_of_ne_nil r.jobs_ne_nil
  obtain ⟨d, t', rfl⟩ := List.exists_cons_of_ne_nil hne
  have hdigit : c.isDigit = true := by
    rw [hjobs] at hparallel
    obtain ⟨rfl, -⟩ := List.cons.inj hparallel
    have hascii := toNat_lt_of_legalNumber hv d (by rw [hjobs]; exact List.mem_cons_self)
    exact (decimalDigit_eq_isDigit hascii).symm.trans (hall d List.mem_cons_self)
  have hblanks : ∀ b ∈ r.jobs.dropWhile Char.isDigit, b = ' ' ∨ b = '\t' := by
    rw [hjobs] at hv ⊢
    exact (legalNumber_of_isDigit hdigit hv).2
  have hjobs' := List.takeWhile_append_dropWhile (p := Char.isDigit) (l := r.jobs)
  cases hrest : r.jobs.dropWhile Char.isDigit with
  | nil =>
      rw [hrest, List.append_nil] at hjobs'
      exact List.takeWhile_eq_self_iff.mp hjobs'
  | cons b blanks =>
      rw [hrest] at hblanks hjobs'
      have hblank := hblanks b List.mem_cons_self
      rw [← hjobs', List.append_assoc] at hparallel
      have hdigits : ∀ c ∈ r.jobs.takeWhile Char.isDigit, decimalDigit py c = true := fun c hc =>
        decimalDigit_of_isDigit (List.mem_takeWhile_imp hc)
      obtain ⟨-, rfl, -⟩ := append_cons_inj hparallel hall hdigits
        (decimalDigit_eq_isDigit (by decide))
        (by rcases hblank with rfl | rfl <;> exact decimalDigit_eq_isDigit (by decide))
      exact absurd hblank (by decide)

/-- What is read back was plain. -/
theorem plain_of_roundTrips (hcollision : Collision collision)
    (hname : name = r.base ++ collision ++ ".xml".toList) (h : RoundTrips py r name) : r.Plain := by
  obtain ⟨fileMeta, hparse, hsame⟩ := h
  refine ⟨isDigit_of_roundTrips hcollision hname hparse hsame, ?_, ?_⟩
  · rw [← hsame.duration]
    exact Int.natCast_nonneg _
  · obtain ⟨day, month, year, -, -, -, hdate, ⟨hday, hmonth, hyear⟩, -⟩ :=
      parts_of_parseFilenameMeta hparse hsame.runner
    have hlength := congrArg List.length (hdate.symm.trans hsame.date)
    rw [← length_toDigits_year r.clock.year_range]
    simp only [Clock.date, twoDigits, List.length_append, List.length_cons,
      List.length_nil] at hlength
    omega

end Report

variable {r : Report} {name : FileName} {fuel : Nat} {taken directory : List FileName}
  {files : List (Report × FileName)}

/-- A name is read back if and only if the report is plain. -/
theorem roundTrips_iff (h : safeRename fuel taken r.dst = some name) :
    RoundTrips py r name ↔ r.Plain := by
  obtain ⟨collision, hcollision, hname⟩ := name_of_safeRename h
  exact ⟨Report.plain_of_roundTrips hcollision hname, fun hplain =>
    hplain.roundTrips hcollision hname⟩

theorem isJunitXml_append {report t : List Char} (h : report = "junit_".toList ++ t)
    (u v : List Char) : isJunitXml (report ++ u ++ v ++ ".xml".toList) = true := by
  have happend : report ++ u ++ v ++ ".xml".toList =
      "junit_".toList ++ ((t ++ u ++ v) ++ ".xml".toList) := by
    rw [h]
    simp only [List.append_assoc]
  rw [happend, isJunitXml, Bool.and_eq_true, List.isPrefixOf_iff_prefix,
    List.isSuffixOf_iff_suffix]
  exact ⟨List.prefix_append _ _, List.suffix_append _ _⟩

theorem isJunitXml_of_safeRename (h : safeRename fuel taken r.dst = some name) :
    isJunitXml name = true := by
  obtain ⟨collision, -, rfl⟩ := name_of_safeRename h
  have hreport : "junit_interoperability_report".toList =
      "junit_".toList ++ "interoperability_report".toList := by decide
  exact isJunitXml_append hreport ('-' :: r.suffix) collision

/-! ## A directory of reports -/

/-- The reports in a directory, each under a name that it was given there or elsewhere. -/
structure Holds (directory : List FileName) (files : List (Report × FileName)) : Prop where
  named : ∀ f ∈ files, ∃ fuel taken, safeRename fuel taken f.1.dst = some f.2
  junit : (directory.filter isJunitXml).Perm (files.map Prod.snd)

theorem holds_nil (h : ∀ f ∈ directory, isJunitXml f = false) : Holds directory [] where
  named := List.forall_mem_nil _
  junit := by
    rw [List.filter_eq_nil_iff.mpr fun f hf => Bool.not_eq_true _ ▸ h f hf]
    exact List.Perm.refl []

/-- One more run. -/
theorem Holds.move (h : Holds directory files)
    (hname : safeRename fuel directory r.dst = some name) :
    Holds (name :: directory) ((r, name) :: files) where
  named := List.forall_mem_cons.mpr ⟨⟨fuel, directory, hname⟩, h.named⟩
  junit := by
    rw [List.filter_cons_of_pos (isJunitXml_of_safeRename hname), List.map_cons]
    exact h.junit.cons name

/-- A report always finds a name that is free. -/
theorem Holds.exists_move (h : Holds directory files) (r : Report) :
    ∃ name, name ∉ directory ∧ Holds (name :: directory) ((r, name) :: files) := by
  obtain ⟨name, hname⟩ := safeRename_ends directory r.dst
  exact ⟨name, (safeRename_spec hname).1, h.move hname⟩

/-- The names are read back, and the files of a batch are chosen, and no others. -/
structure Readable (py : PyInterp) (directory : List FileName) (files : List (Report × FileName)) :
    Prop where
  roundTrips : ∀ f ∈ files, RoundTrips py f.1 f.2
  batch : ∀ b, (chooseAllFiles py directory (some b)).Perm
    ((files.filter fun f => f.1.batchNumber = b).map Prod.snd)

theorem perm_chooseAllFiles (h : Holds directory files)
    (hfiles : ∀ f ∈ files, RoundTrips py f.1 f.2) (b : Nat) :
    (chooseAllFiles py directory (some b)).Perm
      ((files.filter fun f => f.1.batchNumber = b).map Prod.snd) := by
  have hsorted : (sortedFiles py directory).Perm (files.map Prod.snd) :=
    (List.perm_insertionSort _ _).trans h.junit
  have hbatch : ∀ f ∈ files, (decide (batchOf py f.2 = some b)) = decide (f.1.batchNumber = b) := by
    intro f hf
    obtain ⟨fileMeta, hparse, hsame⟩ := hfiles f hf
    rw [batchOf, hparse, Option.bind_some, hsame.batch]
    exact decide_eq_decide.mpr Option.some_inj
  have hfilter : (files.map Prod.snd).filter (fun f => batchOf py f = some b) =
      (files.filter fun f => f.1.batchNumber = b).map Prod.snd := by
    rw [List.filter_map]
    exact congrArg _ (List.filter_congr hbatch)
  rw [← hfilter]
  exact hsorted.filter _

/-- The reports of a directory are read as they were named if and only if they are plain. -/
theorem reportNames_iff (py : PyInterp) (h : Holds directory files) :
    Readable py directory files ↔ ∀ f ∈ files, f.1.Plain := by
  have hiff : ∀ f ∈ files, RoundTrips py f.1 f.2 ↔ f.1.Plain := by
    intro f hf
    obtain ⟨fuel, taken, hname⟩ := h.named f hf
    exact roundTrips_iff hname
  constructor
  · intro hreadable f hf
    exact (hiff f hf).mp (hreadable.roundTrips f hf)
  · intro hplain
    have hfiles : ∀ f ∈ files, RoundTrips py f.1 f.2 := fun f hf => (hiff f hf).mpr (hplain f hf)
    exact ⟨hfiles, perm_chooseAllFiles h hfiles⟩

/-- A run on GitHub, with `--jobs` as given. -/
def run618 (jobs : List Char) (hline : '\n' ∉ jobs) (hslot : leavesSlot jobs = true) : Report where
  clock := ⟨30, 8, 2026, 6, 18, by decide, by decide, by decide, by decide, by decide⟩
  jobs := jobs
  elapsed := 1234
  runner := .ubuntu
  batch := "7".toList
  jobs_line := hline
  jobs_slot := hslot
  batch_digits := ⟨by decide, List.all_eq_true.mp (by decide)⟩
  batch_pos := by decide

/-- `--jobs 16`. -/
def sixteen : Report := run618 "16".toList (by decide) (by decide)

/-- The second token of `--jobs "16, 4"`. -/
def spacedFour : Report := run618 " 4".toList (by decide) (by decide)

def sixteenName : FileName :=
  "junit_interoperability_report-30082026-0618-par16-1234sec-ubuntu-run7.xml".toList

def sixteenName₂ : FileName :=
  "junit_interoperability_report-30082026-0618-par16-1234sec-ubuntu-run7_2.xml".toList

def spacedName : FileName :=
  "junit_interoperability_report-30082026-0618-par 4-1234sec-ubuntu-run7.xml".toList

/-- Two runs in one minute, each of 1234 seconds. -/
theorem reportNames_sixteen_twice : Readable PyInterp.ascii [sixteenName₂, sixteenName]
    [(sixteen, sixteenName₂), (sixteen, sixteenName)] := by
  have hplain : sixteen.Plain := ⟨List.all_eq_true.mp (by decide), by decide, by decide⟩
  have hfirst : safeRename 1 [] sixteen.dst = some sixteenName := by decide +kernel
  have hsecond : safeRename 1 [sixteenName] sixteen.dst = some sixteenName₂ := by decide +kernel
  refine (reportNames_iff PyInterp.ascii
    (((holds_nil (List.forall_mem_nil _)).move hfirst).move hsecond)).mpr ?_
  intro f hf
  rcases List.mem_pair.mp hf with rfl | rfl
  · exact hplain
  · exact hplain

/-- A blank before the jobs, and the name is not read. -/
theorem not_reportNames : Holds [spacedName] [(spacedFour, spacedName)] ∧
    ¬Readable PyInterp.ascii [spacedName] [(spacedFour, spacedName)] := by
  have hname : safeRename 1 [] spacedFour.dst = some spacedName := by decide +kernel
  have hnone : parseFilenameMeta PyInterp.ascii spacedName = none := by decide +kernel
  refine ⟨(holds_nil (List.forall_mem_nil _)).move hname, ?_⟩
  intro h
  obtain ⟨fileMeta, hparse, -⟩ := h.roundTrips _ (List.mem_singleton.mpr rfl)
  rw [hnone] at hparse
  cases hparse

end DdsRtps.Benchmarking
