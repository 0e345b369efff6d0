/-
# `DdsRtps.Harness.ProductNames` — the products of a run, by their executables

`main` of interoperability_report.py names the publisher and the subscriber by
their executables, `<name>_shape_main` with a path before it: it cuts the path
at the first `_shape`, then at the first `-shape`, and takes what is behind the
last slash.

The cuts come before the directory is taken off.  Where there is a separator in
the directory as well, the name is that of the directory in which the first
one stands (`productName_of_first`).
-/
import DdsRtps.Lib.Split

namespace DdsRtps.Harness

open Split

/-! ## The code -/

/-- What follows the name of a product in that of its executable. -/
inductive Separator where
  | underscore
  | hyphen
deriving DecidableEq, Repr

def Separator.text : Separator → List Char
  | .underscore => "_shape".toList
  | .hyphen => "-shape".toList

/-- `path.split('_shape')[0].split('-shape')[0].split('/')[-1]`. -/
def productName (path : List Char) : List Char :=
  last ['/'] (before Separator.hyphen.text (before Separator.underscore.text path))

/-- `name_publisher` and `name_subscriber`. -/
def productNames (publisher subscriber : List Char) : List Char × List Char :=
  (productName publisher, productName subscriber)

/-! ## Executables -/

/-- There is no separator in a text. -/
def Plain (text : List Char) : Prop := ∀ separator : Separator, ¬ separator.text <:+: text

/-- An executable, called as the harness expects it. -/
structure Executable where
  directory : List Char
  name : List Char
  separator : Separator
  rest : List Char
  ends_in_slash : directory = [] ∨ ∃ parent, directory = parent ++ ['/']
  slash_notMem_name : '/' ∉ name
  slash_notMem_rest : '/' ∉ rest
  plain_name : Plain name

def Executable.path (executable : Executable) : List Char :=
  executable.directory ++ executable.name ++ executable.separator.text ++ executable.rest

/-! ## The first separator -/

/-- `shape` is behind the first character of a separator. -/
theorem Separator.text_eq (separator : Separator) :
    ∃ c, separator.text = c :: "shape".toList ∧ c ∉ "shape".toList := by
  cases separator with
  | underscore => exact ⟨'_', rfl, by decide⟩
  | hyphen => exact ⟨'-', rfl, by decide⟩

/-- No separator starts in a plain text before a separator. -/
theorem Plain.noStart {text : List Char} (h : Plain text) (separator next : Separator)
    (rest : List Char) : NoStart separator.text text (next.text ++ rest) := by
  have hplain := h separator
  obtain ⟨c, hc, -⟩ := separator.text_eq
  obtain ⟨x, hx, hnotMem⟩ := next.text_eq
  rw [hc] at hplain ⊢
  rw [hx]
  exact noStart_of_next hplain hnotMem

/-- The cuts find the first separator, whichever it is. -/
theorem before_before_eq {first : List Char} (h : Plain first) (separator : Separator)
    (rest : List Char) :
    before Separator.hyphen.text
      (before Separator.underscore.text (first ++ (separator.text ++ rest))) = first := by
  rw [before_append (h.noStart .underscore separator rest)]
  cases separator with
  | underscore =>
      rw [before_self (by decide), List.append_nil, before_of_not_isInfix (h .hyphen)]
  | hyphen =>
      -- the first `_shape`, if there is one, is behind this `-shape`
      have hno : NoStart Separator.underscore.text Separator.hyphen.text rest :=
        noStart_of_notMem (by decide)
      rw [before_append hno, before_append (h.noStart .hyphen .hyphen _), before_self (by decide),
        List.append_nil]

theorem productName_of_first {first : List Char} (h : Plain first) (separator : Separator)
    (rest : List Char) : productName (first ++ (separator.text ++ rest)) = last ['/'] first := by
  rw [productName, before_before_eq h]

/-- A text that is not plain has a first separator. -/
theorem exists_first_separator {text : List Char} (h : ¬ Plain text) :
    ∃ first separator rest, text = first ++ (Separator.text separator ++ rest) ∧ Plain first := by
  -- as long as there is a separator in what is before, that is shorter
  induction hlength : text.length using Nat.strong_induction_on generalizing text with
  | _ n ih =>
      rw [Plain, not_forall] at h
      obtain ⟨separator, hwithin⟩ := h
      obtain ⟨first, rest, rfl⟩ := not_not.mp hwithin
      by_cases hfirst : Plain first
      · exact ⟨first, separator, rest, List.append_assoc _ _ _, hfirst⟩
      · have hshorter : first.length < n := by
          obtain ⟨c, hc, -⟩ := separator.text_eq
          rw [← hlength, hc, List.length_append, List.length_append, List.length_cons]
          omega
        obtain ⟨first', separator', rest', rfl, hplain⟩ := ih _ hshorter hfirst rfl
        refine ⟨first', separator', rest' ++ (separator.text ++ rest), ?_, hplain⟩
        simp only [List.append_assoc]

/-! ## The name of a product -/

namespace Executable

/-- The directory is plain, or its first separator follows a directory that is called
as the product is. -/
def NamedAlike (executable : Executable) : Prop :=
  Plain executable.directory ∨
    ∃ first separator rest, executable.directory = first ++ (Separator.text separator ++ rest) ∧
      Plain first ∧ (first = executable.name ∨ ∃ parent, first = parent ++ '/' :: executable.name)

variable (executable : Executable)

theorem plain_directory_name (h : Plain executable.directory) :
    Plain (executable.directory ++ executable.name) := by
  intro separator hwithin
  rcases executable.ends_in_slash with hnil | ⟨parent, hparent⟩
  · rw [hnil, List.nil_append] at hwithin
    exact executable.plain_name separator hwithin
  · have hslash : '/' ∉ separator.text := by
      cases separator with
      | underscore => decide
      | hyphen => decide
    rw [hparent, List.append_assoc] at hwithin
    rcases isInfix_append_cons hslash hwithin with hin | hin
    · refine h separator ?_
      rw [hparent]
      exact hin.trans (List.prefix_append parent ['/']).isInfix
    · exact executable.plain_name separator hin

theorem productName_of_plain (h : Plain executable.directory) :
    productName executable.path = executable.name := by
  have hpath : executable.path =
      executable.directory ++ executable.name ++ (executable.separator.text ++ executable.rest) :=
    List.append_assoc _ _ _
  rw [hpath, productName_of_first (executable.plain_directory_name h),
    last_eq_iff executable.slash_notMem_name]
  rcases executable.ends_in_slash with hnil | ⟨parent, hparent⟩
  · left
    rw [hnil, List.nil_append]
  · right
    exact ⟨parent, by rw [hparent, List.append_assoc]; rfl⟩

theorem productName_of_directory {first rest : List Char} {separator : Separator}
    (hdirectory : executable.directory = first ++ (separator.text ++ rest)) (h : Plain first) :
    productName executable.path = last ['/'] first := by
  have hpath : executable.path = first ++ (separator.text ++
      (rest ++ executable.name ++ executable.separator.text ++ executable.rest)) := by
    rw [path, hdirectory]
    simp only [List.append_assoc]
  rw [hpath, productName_of_first h]

theorem productName_path_iff :
    productName executable.path = executable.name ↔ executable.NamedAlike := by
  constructor
  · intro hname
    by_cases hplain : Plain executable.directory
    · exact .inl hplain
    · obtain ⟨first, separator, rest, hdirectory, hfirst⟩ := exists_first_separator hplain
      rw [executable.productName_of_directory hdirectory hfirst,
        last_eq_iff executable.slash_notMem_name] at hname
      exact .inr ⟨first, separator, rest, hdirectory, hfirst, hname⟩
  · rintro (hplain | ⟨first, separator, rest, hdirectory, hfirst, hname⟩)
    · exact executable.productName_of_plain hplain
    · rw [executable.productName_of_directory hdirectory hfirst,
        last_eq_iff executable.slash_notMem_name]
      exact hname

end Executable

/-- **Product names come from the executables** exactly if their directories are plain,
or called as the products are. -/
theorem productNames_path_iff (publisher subscriber : Executable) :
    productNames publisher.path subscriber.path = (publisher.name, subscriber.name) ↔
      publisher.NamedAlike ∧ subscriber.NamedAlike := by
  rw [productNames, Prod.mk.injEq, publisher.productName_path_iff, subscriber.productName_path_iff]

/-- An executable in a directory with a separator in its name. -/
def inShapeTests : Executable where
  directory := "/home/my_shape_tests/".toList
  name := "hdds".toList
  separator := .underscore
  rest := "_main_linux".toList
  ends_in_slash := .inr ⟨"/home/my_shape_tests".toList, rfl⟩
  slash_notMem_name := by decide
  slash_notMem_rest := by decide
  plain_name := by
    intro separator
    cases separator with
    | underscore => decide
    | hyphen => decide

/-- The product is called `my`. -/
theorem not_productNames_path :
    ¬ ∀ publisher subscriber : Executable,
      productNames publisher.path subscriber.path = (publisher.name, subscriber.name) := by
  intro h
  have hname := h inShapeTests inShapeTests
  revert hname
  decide

end DdsRtps.Harness
