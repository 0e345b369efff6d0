/-
# `DdsRtps.Analysis.FileRegistry` — the reports of a directory, in their order

`parse_filename_meta`, `_file_sort_key`, `choose_all_files` and `choose_files`
of src/benchmarking/junit_compare/file_registry.py.  A name has a timestamp in
one of two formats, and the two are sorted together, as texts:

    20260830-0618            the new one
    2026-08-30-06_18_47      the old one

Within a format the texts are in the order of time.  Between the formats they
are while the years differ; in one year the fifth letter decides, and `-` is
before every digit (`Stamp.key_lt_of_sameYear`).  So the order is right unless
a file in the new format is earlier than one of the same year in the old
(`chronological_iff`).
-/
import DdsRtps.Analysis.Aggregate
import DdsRtps.Lib.TextOrder
import Mathlib.Data.Prod.Lex

namespace DdsRtps.Analysis

open Regex

/-! ## The code -/

/-- The name of a file. -/
abbrev FileName := List Char

/-- `path.stem`: the name up to its last dot, unless that is the first letter or
the last. -/
def stem (name : FileName) : List Char :=
  let suffix := (name.reverse.takeWhile (· != '.')).reverse
  let base := (name.reverse.dropWhile (· != '.')).reverse
  if suffix = [] ∨ base.length ≤ 1 then name else base.dropLast

/-- `junit_*.xml`. -/
def isJunitXml (name : FileName) : Bool :=
  "junit_".toList.isPrefixOf name && ".xml".toList.isSuffixOf (name.drop 6)

variable (py : PyInterp)

/-- `int` of decimal digits. -/
def intOfDigits (digits : List Char) : Nat :=
  digits.foldl (fun n c =>
    10 * n + if c.toNat < 128 then c.toNat - 48 else (py.decimal c).getD 0) 0

/-- `[-_](\d{2})(\d{2})(\d{4})-(\d{4})-par(\d+)` and then
`(?:-(\d+)sec)?(?:-(self-hosted|ubuntu))?(?:-run(\d+))?`. -/
def newFnameRe : Regex Char :=
  cat [.one (fun c => c = '-' || c = '_'), .group 1 (times (decimalDigit py) 2),
    .group 2 (times (decimalDigit py) 2), .group 3 (times (decimalDigit py) 4), lit ['-'],
    .group 4 (times (decimalDigit py) 4), lit "-par".toList, .group 5 (plus (decimalDigit py)),
    optional (cat [lit ['-'], .group 6 (plus (decimalDigit py)), lit "sec".toList]),
    optional (cat [lit ['-'], .group 7 (.alt (lit "self-hosted".toList) (lit "ubuntu".toList))]),
    optional (cat [lit "-run".toList, .group 8 (plus (decimalDigit py))])]

/-- `(\d{4}-\d{2}-\d{2}-\d{2}_\d{2}_\d{2})`. -/
def oldFnameRe : Regex Char :=
  .group 1 (cat [times (decimalDigit py) 4, lit ['-'], times (decimalDigit py) 2, lit ['-'],
    times (decimalDigit py) 2, lit ['-'], times (decimalDigit py) 2, lit ['_'],
    times (decimalDigit py) 2, lit ['_'], times (decimalDigit py) 2])

/-- What `parse_filename_meta` returns. -/
structure FilenameMeta where
  date : List Char
  time : List Char
  parallel : Nat
  durationSec : Nat
  runner : Option (List Char)
  batch : Option Nat
  sortKey : List Char
deriving DecidableEq, Repr

/-- `parse_filename_meta`. -/
def parseFilenameMeta (name : FileName) : Option FilenameMeta :=
  (search (newFnameRe py) (stem name)).bind fun m =>
    (m.group 1).bind fun day => (m.group 2).bind fun month => (m.group 3).bind fun year =>
      (m.group 4).bind fun hhmm => (m.group 5).map fun parallel =>
        { date := day ++ month ++ year
          time := hhmm
          parallel := intOfDigits py parallel
          durationSec := ((m.group 6).map (intOfDigits py)).getD 0
          runner := m.group 7
          batch := (m.group 8).map (intOfDigits py)
          sortKey := year ++ month ++ day ++ '-' :: hhmm }

/-- `_file_sort_key`. -/
def fileSortKey (name : FileName) : List Char × List Char :=
  match parseFilenameMeta py name with
  | some fileMeta => (fileMeta.sortKey, name)
  | none =>
      match (search (oldFnameRe py) (stem name)).bind fun m => m.group 1 with
      | some timestamp => (timestamp, name)
      | none => (name, [])

/-- `a <= b` of two keys. -/
def keyLe (a b : List Char × List Char) : Bool := a.1 < b.1 || (a.1 == b.1 && a.2 ≤ b.2)

/-- The batch of a file. -/
def batchOf (name : FileName) : Option Nat :=
  (parseFilenameMeta py name).bind FilenameMeta.batch

/-- `sorted(directory.glob("junit_*.xml"), key=_file_sort_key)`. -/
def sortedFiles (directory : List FileName) : List FileName :=
  (directory.filter isJunitXml).insertionSort fun a b =>
    keyLe (fileSortKey py a) (fileSortKey py b)

/-- `choose_all_files`. -/
def chooseAllFiles (directory : List FileName) (batch : Option Nat) : List FileName :=
  match batch with
  | none => sortedFiles py directory
  | some b => (sortedFiles py directory).filter fun f => batchOf py f = some b

/-- `choose_files`. -/
def chooseFiles (directory : List FileName) (batch : Option Nat) :
    Except PyError (FileName × FileName) :=
  match (chooseAllFiles py directory batch).reverse with
  | last :: beforeLast :: _ => .ok (beforeLast, last)
  | _ => .error .valueError

/-! ## Timestamps -/

/-- A number of so many digits. -/
abbrev Digits (n : Nat) := { t : List Char // t.length = n ∧ ∀ c ∈ t, c.isDigit = true }

/-- A timestamp, in one of the two formats. -/
inductive Stamp where
  | new (year : Digits 4) (month day : Digits 2) (hhmm : Digits 4)
  | old (year : Digits 4) (month day hour minute second : Digits 2)

namespace Stamp

def year : Stamp → Digits 4
  | new year _ _ _ => year
  | old year _ _ _ _ _ => year

def isNew : Stamp → Bool
  | new _ _ _ _ => true
  | old _ _ _ _ _ _ => false

/-- The digits of year, month, day, hour and minute. -/
def digits : Stamp → List Char
  | new year month day hhmm => year ++ (month ++ (day ++ hhmm))
  | old year month day hour minute _ => year ++ (month ++ (day ++ (hour ++ minute)))

/-- The time to the minute, as one number. -/
def time (s : Stamp) : Nat := Nat.ofDigitChars 10 s.digits 0

/-- The text by which it is sorted. -/
def key : Stamp → List Char
  | new year month day hhmm => year ++ (month ++ (day ++ '-' :: hhmm))
  | old year month day hour minute second =>
      year ++ '-' :: (month ++ '-' :: (day ++ '-' :: (hour ++ '_' :: (minute ++ '_' :: second))))

theorem digits_spec (s : Stamp) : s.digits.length = 12 ∧ ∀ c ∈ s.digits, c.isDigit = true := by
  cases s with
  | new year month day hhmm =>
      constructor
      · simp [digits, year.2.1, month.2.1, day.2.1, hhmm.2.1]
      · simp only [digits, List.forall_mem_append]
        exact ⟨year.2.2, month.2.2, day.2.2, hhmm.2.2⟩
  | old year month day hour minute second =>
      constructor
      · simp [digits, year.2.1, month.2.1, day.2.1, hour.2.1, minute.2.1]
      · simp only [digits, List.forall_mem_append]
        exact ⟨year.2.2, month.2.2, day.2.2, hour.2.2, minute.2.2⟩

/-- Earlier is earlier in the digits. -/
theorem time_lt_iff (s t : Stamp) : s.time < t.time ↔ s.digits < t.digits :=
  TextOrder.ofDigitChars_lt_iff (s.digits_spec.1.trans t.digits_spec.1.symm) s.digits_spec.2
    t.digits_spec.2

/-- In one year, every file of the old format comes first. -/
theorem key_lt_of_sameYear {s t : Stamp} (hs : s.isNew = false) (ht : t.isNew = true)
    (hyear : s.year = t.year) : s.key < t.key := by
  cases s with
  | new => cases hs
  | old year month day hour minute second =>
      cases t with
      | old => cases ht
      | new year' month' day' hhmm' =>
          obtain rfl : year = year' := hyear
          obtain ⟨c, rest, hmonth⟩ := List.exists_cons_of_length_eq_add_one month'.2.1
          have hdigit := month'.2.2 c (by rw [hmonth]; exact List.mem_cons_self)
          rw [key, key, TextOrder.append_lt_append_iff rfl, hmonth, List.cons_append,
            List.cons_lt_cons_iff]
          refine .inr ⟨rfl, .inl ?_⟩
          -- `-` is before every digit
          obtain ⟨hlow, -⟩ := Char.isDigit_iff_toNat.mp hdigit
          exact Char.lt_def.mpr (UInt32.lt_iff_toNat_lt.mpr (lt_of_lt_of_le (by decide) hlow))

/-- An earlier file is sorted first, unless it is new, the other is old and both are of
one year. -/
theorem key_lt_of_time_lt {s t : Stamp} (h : s.time < t.time) :
    s.key < t.key ∨ (s.isNew = true ∧ t.isNew = false ∧ s.year = t.year) := by
  have hlen : ∀ {n : Nat} (a b : Digits n), a.val.length = b.val.length := fun a b =>
    a.2.1.trans b.2.1.symm
  rw [time_lt_iff] at h
  cases s with
  | new year month day hhmm =>
      cases t with
      | new year' month' day' hhmm' =>
          left
          rw [digits, digits, TextOrder.append_lt_append_iff (hlen _ _),
            TextOrder.append_lt_append_iff (hlen _ _),
            TextOrder.append_lt_append_iff (hlen _ _)] at h
          rw [key, key, TextOrder.append_lt_append_iff (hlen _ _),
            TextOrder.append_lt_append_iff (hlen _ _),
            TextOrder.append_lt_append_iff (hlen _ _), List.cons_lt_cons_iff]
          tauto
      | old year' month' day' hour' minute' second' =>
          rw [digits, digits, TextOrder.append_lt_append_iff (hlen _ _)] at h
          rcases h with hyear | ⟨hyear, -⟩
          · left
            rw [key, key, TextOrder.append_lt_append_iff (hlen _ _)]
            exact .inl hyear
          · exact .inr ⟨rfl, rfl, Subtype.ext hyear⟩
  | old year month day hour minute second =>
      left
      cases t with
      | new year' month' day' hhmm' =>
          rw [digits, digits, TextOrder.append_lt_append_iff (hlen _ _)] at h
          rcases h with hyear | ⟨hyear, -⟩
          · rw [key, key, TextOrder.append_lt_append_iff (hlen _ _)]
            exact .inl hyear
          · exact key_lt_of_sameYear rfl rfl (Subtype.ext hyear)
      | old year' month' day' hour' minute' second' =>
          rw [digits, digits, TextOrder.append_lt_append_iff (hlen _ _),
            TextOrder.append_lt_append_iff (hlen _ _), TextOrder.append_lt_append_iff (hlen _ _),
            TextOrder.append_lt_append_iff (hlen _ _)] at h
          rw [key, key, TextOrder.append_lt_append_iff (hlen _ _), List.cons_lt_cons_iff,
            TextOrder.append_lt_append_iff (hlen _ _), List.cons_lt_cons_iff,
            TextOrder.append_lt_append_iff (hlen _ _), List.cons_lt_cons_iff,
            TextOrder.append_lt_append_iff (hlen _ _), List.cons_lt_cons_iff,
            TextOrder.append_lt_append_iff (hlen _ _), List.cons_lt_cons_iff]
          tauto

end Stamp

/-! ## What a name carries -/

/-- A name carries the timestamp that the code finds in it: one in the new format, or
else one in the old. -/
def Carries (name : FileName) : Stamp → Prop
  | .new year month day hhmm => ∃ m, search (newFnameRe py) (stem name) = some m ∧
      m.group 1 = some day.val ∧ m.group 2 = some month.val ∧ m.group 3 = some year.val ∧
        m.group 4 = some hhmm.val
  | .old year month day hour minute second => search (newFnameRe py) (stem name) = none ∧
      ∃ m, search (oldFnameRe py) (stem name) = some m ∧
        m.group 1 = some (Stamp.old year month day hour minute second).key

variable {py}

theorem fileSortKey_of_carries {name : FileName} {s : Stamp} (h : Carries py name s) :
    fileSortKey py name = (s.key, name) := by
  cases s with
  | new year month day hhmm =>
      obtain ⟨m, hsearch, hday, hmonth, hyear, hhhmm⟩ := h
      obtain ⟨parallel, hparallel⟩ : ∃ parallel, m.group 5 = some parallel :=
        exists_lookup_of_mem_cat (r := plus (decimalDigit py)) (by simp)
          (search_spec hsearch).2.1
      rw [fileSortKey, parseFilenameMeta, hsearch]
      simp [hday, hmonth, hyear, hhhmm, hparallel, Stamp.key]
  | old year month day hour minute second =>
      obtain ⟨hnew, m, hsearch, hgroup⟩ := h
      rw [fileSortKey, parseFilenameMeta, hnew, hsearch]
      simp [hgroup]

/-! ## The order of the files -/

theorem keyLe_iff (a b : List Char × List Char) : keyLe a b = true ↔ toLex a ≤ toLex b := by
  rw [Prod.Lex.toLex_le_toLex, keyLe, Bool.or_eq_true, Bool.and_eq_true, decide_eq_true_eq,
    decide_eq_true_eq, beq_iff_eq]

/-- `a` may stand before `b`. -/
abbrev FileLe (py : PyInterp) (a b : FileName) : Prop :=
  keyLe (fileSortKey py a) (fileSortKey py b) = true

instance : Std.Total (FileLe py) where
  total a b := by
    rw [FileLe, FileLe, keyLe_iff, keyLe_iff]
    exact le_total _ _

instance : IsTrans FileName (FileLe py) where
  trans a b c hab hbc := by
    rw [FileLe, keyLe_iff] at *
    exact hab.trans hbc

/-- The file is chosen, whatever its place. -/
structure Kept (py : PyInterp) (directory : List FileName) (batch : Option Nat) (f : FileName) :
    Prop where
  mem : f ∈ directory
  junit : isJunitXml f = true
  batch : ∀ b ∈ batch, batchOf py f = some b

theorem mem_chooseAllFiles_iff {directory : List FileName} {batch : Option Nat} {f : FileName} :
    f ∈ chooseAllFiles py directory batch ↔ Kept py directory batch f := by
  have hfiles : f ∈ sortedFiles py directory ↔ f ∈ directory ∧ isJunitXml f = true := by
    rw [sortedFiles, List.mem_insertionSort, List.mem_filter]
  cases batch with
  | none =>
      rw [chooseAllFiles, hfiles]
      exact ⟨fun h => ⟨h.1, h.2, by simp⟩, fun h => ⟨h.mem, h.junit⟩⟩
  | some b =>
      rw [chooseAllFiles, List.mem_filter, hfiles, decide_eq_true_eq]
      exact ⟨fun h => ⟨h.1.1, h.1.2, by simpa using h.2⟩,
        fun h => ⟨⟨h.mem, h.junit⟩, h.batch b rfl⟩⟩

theorem sorted_chooseAllFiles (directory : List FileName) (batch : Option Nat) :
    (chooseAllFiles py directory batch).Pairwise (FileLe py) := by
  have hsorted := List.pairwise_insertionSort (FileLe py) (directory.filter isJunitXml)
  cases batch with
  | none => exact hsorted
  | some b => exact hsorted.filter _

theorem nodup_chooseAllFiles {directory : List FileName} (h : directory.Nodup)
    (batch : Option Nat) : (chooseAllFiles py directory batch).Nodup := by
  have hperm := List.perm_insertionSort (FileLe py) (directory.filter isJunitXml)
  have hnodup := hperm.nodup_iff.mpr (h.filter isJunitXml)
  cases batch with
  | none => exact hnodup
  | some b => exact hnodup.filter _

/-- What may not stand behind another stands before it. -/
theorem pair_sublist_of_pairwise {α : Type*} {r : α → α → Prop} {l : List α} {a b : α}
    (hl : l.Pairwise r) (ha : a ∈ l) (hb : b ∈ l) (hne : a ≠ b) (hnot : ¬r b a) :
    [a, b].Sublist l := by
  obtain ⟨s, t, rfl⟩ := List.append_of_mem ha
  obtain ⟨-, -, hcross⟩ := List.pairwise_append.mp hl
  rcases List.mem_append.mp hb with hb | hb
  · exact absurd (hcross b hb a List.mem_cons_self) hnot
  · have hbt : b ∈ t := (List.mem_cons.mp hb).resolve_left (Ne.symm hne)
    exact ((List.singleton_sublist.mpr hbt).cons_cons a).trans (List.sublist_append_right s _)

/-- An earlier time in the new format, and a later one in the old, in one year. -/
structure Stamp.Inverted (s t : Stamp) : Prop where
  isNew : s.isNew = true
  isOld : t.isNew = false
  year : s.year = t.year
  time : s.time < t.time

variable {directory : List FileName} {batch : Option Nat} {stamp : FileName → Stamp}

/-- Every file of the directory carries its timestamp. -/
def Stamped (py : PyInterp) (directory : List FileName) (stamp : FileName → Stamp) : Prop :=
  ∀ f ∈ directory, isJunitXml f = true → Carries py f (stamp f)

theorem Kept.fileSortKey_eq {f : FileName} (h : Kept py directory batch f)
    (hstamped : Stamped py directory stamp) : fileSortKey py f = ((stamp f).key, f) :=
  fileSortKey_of_carries (hstamped f h.mem h.junit)

theorem not_fileLe {f g : FileName} (hf : Kept py directory batch f)
    (hg : Kept py directory batch g) (hstamped : Stamped py directory stamp)
    (h : (stamp f).key < (stamp g).key) : ¬FileLe py g f := by
  rw [FileLe, keyLe, hf.fileSortKey_eq hstamped, hg.fileSortKey_eq hstamped]
  simp [h.not_gt, h.ne']

/-- Earlier files are listed first. -/
def InOrder (py : PyInterp) (directory : List FileName) (batch : Option Nat)
    (stamp : FileName → Stamp) : Prop :=
  ∀ f g, Kept py directory batch f → Kept py directory batch g → (stamp f).time < (stamp g).time →
    [f, g].Sublist (chooseAllFiles py directory batch)

/-- Of two files or more, the two that are returned are the latest. -/
def LatestTwo (py : PyInterp) (directory : List FileName) (batch : Option Nat)
    (stamp : FileName → Stamp) : Prop :=
  (∃ f g, Kept py directory batch f ∧ Kept py directory batch g ∧ f ≠ g) →
    ∃ x y, chooseFiles py directory batch = .ok (x, y) ∧ x ≠ y ∧ Kept py directory batch x ∧
      Kept py directory batch y ∧ ∀ f, Kept py directory batch f → f ≠ x → f ≠ y →
        ¬(stamp x).time < (stamp f).time ∧ ¬(stamp y).time < (stamp f).time

theorem inOrder_of_not_inverted (hstamped : Stamped py directory stamp)
    (h : ∀ f g, Kept py directory batch f → Kept py directory batch g →
      ¬(stamp f).Inverted (stamp g)) : InOrder py directory batch stamp := by
  intro f g hf hg htime
  have hne : f ≠ g := by
    rintro rfl
    exact lt_irrefl _ htime
  have hkey : (stamp f).key < (stamp g).key := by
    rcases Stamp.key_lt_of_time_lt htime with hkey | ⟨hnew, hold, hyear⟩
    · exact hkey
    · exact absurd ⟨hnew, hold, hyear, htime⟩ (h f g hf hg)
  exact pair_sublist_of_pairwise (sorted_chooseAllFiles directory batch)
    (mem_chooseAllFiles_iff.mpr hf) (mem_chooseAllFiles_iff.mpr hg) hne
    (not_fileLe hf hg hstamped hkey)

/-- The last two of a list in order are the latest. -/
theorem latestTwo_of_inOrder (hnodup : directory.Nodup) (h : InOrder py directory batch stamp) :
    LatestTwo py directory batch stamp := by
  rintro ⟨f, g, hf, hg, hne⟩
  have hall : (chooseAllFiles py directory batch).Nodup := nodup_chooseAllFiles hnodup batch
  have hf' := mem_chooseAllFiles_iff.mpr hf
  have hg' := mem_chooseAllFiles_iff.mpr hg
  obtain ⟨last, beforeLast, init, hrev⟩ : ∃ y x init,
      (chooseAllFiles py directory batch).reverse = y :: x :: init := by
    match hrev : (chooseAllFiles py directory batch).reverse with
    | y :: x :: init => exact ⟨y, x, init, rfl⟩
    | [y] =>
        rw [← List.mem_reverse, hrev, List.mem_singleton] at hf' hg'
        exact absurd (hf'.trans hg'.symm) hne
    | [] =>
        rw [← List.mem_reverse, hrev] at hf'
        cases hf'
  have hlist : chooseAllFiles py directory batch = init.reverse ++ [beforeLast, last] := by
    rw [← List.reverse_reverse (chooseAllFiles py directory batch), hrev]
    simp
  have hmem : ∀ x, Kept py directory batch x ↔ x ∈ init.reverse ++ [beforeLast, last] := by
    intro x
    rw [← hlist]
    exact mem_chooseAllFiles_iff.symm
  rw [hlist] at hall
  obtain ⟨-, hpair, hapart⟩ := List.nodup_append.mp hall
  refine ⟨beforeLast, last, by rw [chooseFiles, hrev], by simpa using hpair, (hmem _).mpr (by simp),
    (hmem _).mpr (by simp), ?_⟩
  intro x hx hx₁ hx₂
  have hinit : x ∈ init.reverse := by
    rcases List.mem_append.mp ((hmem x).mp hx) with hx | hx
    · exact hx
    · simp [hx₁, hx₂] at hx
  -- behind `x` comes nothing that is listed before it
  have hlater : ∀ z ∈ [beforeLast, last], ¬(stamp z).time < (stamp x).time := by
    intro z hz htime
    have hsub := h z x ((hmem z).mpr (List.mem_append_right _ hz)) hx htime
    rw [hlist] at hsub
    obtain ⟨s, t, heq, hs, ht⟩ := List.sublist_append_iff.mp hsub
    cases s with
    | nil =>
        rw [List.nil_append] at heq
        exact hapart x hinit x (ht.subset (by rw [← heq]; simp)) rfl
    | cons z' s =>
        obtain rfl := (List.cons.inj heq).1
        exact hapart z (hs.subset List.mem_cons_self) z hz rfl
  exact ⟨hlater _ (by simp), hlater _ (by simp)⟩

/-- **When the order is chronological**: no file of the new format is earlier than one
of the old format and of the same year. -/
theorem chronological_iff (py : PyInterp) (directory : List FileName) (batch : Option Nat)
    (stamp : FileName → Stamp) (hnodup : directory.Nodup)
    (hstamped : Stamped py directory stamp) :
    (InOrder py directory batch stamp ∧ LatestTwo py directory batch stamp) ↔
      ∀ f g, Kept py directory batch f → Kept py directory batch g →
        ¬(stamp f).Inverted (stamp g) := by
  constructor
  · rintro ⟨horder, -⟩ f g hf hg hinv
    have hpair := (sorted_chooseAllFiles directory batch).sublist (horder f g hf hg hinv.time)
    have hle : FileLe py f g := (List.pairwise_cons.mp hpair).1 g List.mem_cons_self
    exact not_fileLe hg hf hstamped
      (Stamp.key_lt_of_sameYear hinv.isOld hinv.isNew hinv.year.symm) hle
  · intro h
    have horder := inOrder_of_not_inverted hstamped h
    exact ⟨horder, latestTwo_of_inOrder hnodup horder⟩

/-! ## Files of two winters -/

/-- Digits, written out. -/
def digitsOf {n : Nat} (s : String) (h : s.toList.length = n)
    (h' : s.toList.all Char.isDigit = true) : Digits n :=
  ⟨s.toList, h, List.all_eq_true.mp h'⟩

/-- The first of January 2026 at noon, in the new format. -/
def newYear : FileName := "junit_report-01012026-1200-par1.xml".toList

/-- The evening before, in the old format. -/
def eve2025 : FileName := "junit_report_2025-12-31-20_00_00.xml".toList

/-- The last evening of the year that follows, in the old format. -/
def eve2026 : FileName := "junit_report_2026-12-31-20_00_00.xml".toList

/-- The stamp of an evening. -/
def eveStamp (year : Digits 4) : Stamp :=
  .old year (digitsOf "12" rfl rfl) (digitsOf "31" rfl rfl) (digitsOf "20" rfl rfl)
    (digitsOf "00" rfl rfl) (digitsOf "00" rfl rfl)

def stampOf (f : FileName) : Stamp :=
  if f = newYear then
    .new (digitsOf "2026" rfl rfl) (digitsOf "01" rfl rfl) (digitsOf "01" rfl rfl)
      (digitsOf "1200" rfl rfl)
  else if f = eve2025 then eveStamp (digitsOf "2025" rfl rfl)
  else eveStamp (digitsOf "2026" rfl rfl)

theorem carries_newYear : Carries .ascii newYear (stampOf newYear) := by
  have hcaptures : (search (newFnameRe .ascii) (stem newYear)).map Found.captures =
      some [(1, "01".toList), (2, "01".toList), (3, "2026".toList), (4, "1200".toList),
        (5, "1".toList)] := by
    decide +kernel
  obtain ⟨m, hsearch, hm⟩ := Option.map_eq_some_iff.mp hcaptures
  refine ⟨m, hsearch, ?_, ?_, ?_, ?_⟩ <;>
    · rw [Found.group, hm]
      rfl

theorem carries_eve2025 : Carries .ascii eve2025 (stampOf eve2025) := by
  have hcaptures : (search (oldFnameRe .ascii) (stem eve2025)).map Found.captures =
      some [(1, "2025-12-31-20_00_00".toList)] := by
    decide +kernel
  obtain ⟨m, hsearch, hm⟩ := Option.map_eq_some_iff.mp hcaptures
  refine ⟨Option.isNone_iff_eq_none.mp (by decide +kernel), m, hsearch, ?_⟩
  rw [Found.group, hm]
  rfl

theorem carries_eve2026 : Carries .ascii eve2026 (stampOf eve2026) := by
  have hcaptures : (search (oldFnameRe .ascii) (stem eve2026)).map Found.captures =
      some [(1, "2026-12-31-20_00_00".toList)] := by
    decide +kernel
  obtain ⟨m, hsearch, hm⟩ := Option.map_eq_some_iff.mp hcaptures
  refine ⟨Option.isNone_iff_eq_none.mp (by decide +kernel), m, hsearch, ?_⟩
  rw [Found.group, hm]
  rfl

/-- Around one new year the order is right. -/
theorem chronological_newYear :
    InOrder .ascii [newYear, eve2025] none stampOf ∧
      LatestTwo .ascii [newYear, eve2025] none stampOf := by
  refine (chronological_iff .ascii [newYear, eve2025] none stampOf (by decide) ?_).mpr ?_
  · intro f hf _
    simp only [List.mem_cons, List.not_mem_nil, or_false] at hf
    rcases hf with rfl | rfl
    · exact carries_newYear
    · exact carries_eve2025
  · intro f g hf hg hinv
    have hold := hinv.isOld
    have hyear := hinv.year
    have hnew := hinv.isNew
    have hf := hf.mem
    have hg := hg.mem
    simp only [List.mem_cons, List.not_mem_nil, or_false] at hf hg
    rcases hf with rfl | rfl
    · rcases hg with rfl | rfl
      · cases hold
      · exact absurd (congrArg Subtype.val hyear) (by decide)
    · cases hnew

/-- A noon in January is listed behind the last evening of the year. -/
theorem not_chronological :
    ¬ ∀ (py : PyInterp) (directory : List FileName) (batch : Option Nat)
      (stamp : FileName → Stamp), directory.Nodup → Stamped py directory stamp →
        InOrder py directory batch stamp ∧ LatestTwo py directory batch stamp := by
  intro h
  have hstamped : Stamped .ascii [newYear, eve2026] stampOf := by
    intro f hf _
    simp only [List.mem_cons, List.not_mem_nil, or_false] at hf
    rcases hf with rfl | rfl
    · exact carries_newYear
    · exact carries_eve2026
  obtain ⟨horder, -⟩ := h .ascii [newYear, eve2026] none stampOf (by decide) hstamped
  have hsub := horder newYear eve2026 ⟨by simp, by decide, by simp⟩ ⟨by simp, by decide, by simp⟩
    (by decide +kernel)
  have hlist : chooseAllFiles .ascii [newYear, eve2026] none = [eve2026, newYear] := by
    decide +kernel
  rw [hlist] at hsub
  revert hsub
  decide

end DdsRtps.Analysis
