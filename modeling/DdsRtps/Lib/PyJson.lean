/-
# `DdsRtps.Lib.PyJson` — JSON values as Python holds them

What `json.loads` gives: nested dicts and lists over scalars.  Over the values
there are

  * `dictsOf` and `fieldsOf`, all dicts and the items of all dicts, in document
    order;
  * `text` and `dumps`, of which a program can search the second for a text:
    the text of a part of a value is in the text of the value
    (`dumps_infix_arr`, `dumps_infix_obj`), and so is every key that has
    nothing to escape (`key_infix_dumps`);
  * `dumpable`, which says that `json.dump` comes to the end of a value;
  * `outermost` and `innermost`, the dicts with a property that are in no other
    one, and the parts with a property that have no other one in them.  If `q`
    implies `p`, every outermost `q` holds an innermost `p`, and when there are
    as many of one as of the other each holds exactly one
    (`forall₂_outermost_innermost`).
-/
import DdsRtps.Lib.PyText
import Mathlib.Algebra.Group.Nat.Defs
import Mathlib.Data.List.Infix
import Mathlib.Data.List.Forall2

/-- A JSON value. -/
inductive Json where
  | null
  | bool (b : Bool)
  | int (n : Int)
  | float (f : PyFloat)
  | str (s : List Char)
  | arr (items : List Json)
  | obj (entries : List (List Char × Json))

namespace Json

/-- Induction over a value: what holds of all parts of a list or a dict holds
of it. -/
theorem induct {P : Json → Prop} (null : P .null) (bool : ∀ b, P (.bool b))
    (int : ∀ n, P (.int n)) (float : ∀ f, P (.float f)) (str : ∀ s, P (.str s))
    (arr : ∀ items, (∀ v ∈ items, P v) → P (.arr items))
    (obj : ∀ entries, (∀ e ∈ entries, P e.2) → P (.obj entries)) (j : Json) : P j :=
  @Json.rec P (fun items => ∀ v ∈ items, P v) (fun entries => ∀ e ∈ entries, P e.2)
    (fun e => P e.2) null bool int float str arr obj (by simp)
    (fun _ _ hv his => List.forall_mem_cons.mpr ⟨hv, his⟩) (by simp)
    (fun _ _ he hes => List.forall_mem_cons.mpr ⟨he, hes⟩) (fun _ _ h => h) j

/-! ## What Python does with a value -/

/-- `bool(v)`. -/
def truthy : Json → Bool
  | .null => false
  | .bool b => b
  | .int n => n != 0
  | .float f => f.truthy
  | .str s => !s.isEmpty
  | .arr items => !items.isEmpty
  | .obj entries => !entries.isEmpty

/-- `v.get(key, default)`. -/
def get (v : Json) (key : List Char) (default : Json) : Except PyError Json :=
  match v with
  | .obj entries => .ok ((entries.lookup key).getD default)
  | _ => .error .attributeError

/-- The entries of a dict after `d[key] = v`: a key that is there keeps its place. -/
def setEntry (entries : List (List Char × Json)) (key : List Char) (v : Json) :
    List (List Char × Json) :=
  if key ∈ entries.map Prod.fst then
    entries.map fun e => if e.1 = key then (key, v) else e
  else entries ++ [(key, v)]

/-- `v[key] = w`, with a key that is a text. -/
def setItem (v : Json) (key : List Char) (w : Json) : Except PyError Json :=
  match v with
  | .obj entries => .ok (.obj (setEntry entries key w))
  | _ => .error .typeError

theorem setEntry_of_notMem {entries : List (List Char × Json)} {key : List Char} {v : Json}
    (h : key ∉ entries.map Prod.fst) : setEntry entries key v = entries ++ [(key, v)] := if_neg h

/-- The entry of a key that is there once. -/
theorem lookup_of_mem {entries : List (List Char × Json)} {key : List Char} {v : Json}
    (hnodup : (entries.map Prod.fst).Nodup) (h : (key, v) ∈ entries) :
    entries.lookup key = some v := by
  induction entries with
  | nil => cases h
  | cons e entries ih =>
      obtain ⟨hnot, hnodup⟩ := List.nodup_cons.mp hnodup
      rcases List.mem_cons.mp h with rfl | h
      · exact List.lookup_cons_self
      · have hne : (key == e.1) = false := by
          rw [beq_eq_false_iff_ne]
          rintro rfl
          exact hnot (List.mem_map.mpr ⟨_, h, rfl⟩)
        rw [List.lookup_cons, hne]
        exact ih hnodup h

section

variable (py : PyInterp)

mutual

/-- `repr(v)`. -/
def repr : Json → List Char
  | .null => "None".toList
  | .bool true => "True".toList
  | .bool false => "False".toList
  | .int n => PyInterp.intText n
  | .float f => f.repr
  | .str s => py.reprText s
  | .arr items => '[' :: (List.intercalate ", ".toList (reprItems items) ++ [']'])
  | .obj entries =>
      '\x7b' :: (List.intercalate ", ".toList (reprEntries entries) ++ ['\x7d'])

def reprItems : List Json → List (List Char)
  | [] => []
  | v :: items => repr v :: reprItems items

def reprEntries : List (List Char × Json) → List (List Char)
  | [] => []
  | (k, v) :: entries => (py.reprText k ++ ": ".toList ++ repr v) :: reprEntries entries

end

/-- `str(v)`. -/
def text : Json → List Char
  | .str s => s
  | v => v.repr py

end

/-! ## The text of a value -/

/-- `json.dumps` of a character. -/
def escapeChar (c : Char) : List Char :=
  let unit (n : Nat) :=
    '\\' :: 'u' :: (List.replicate (4 - (Nat.toDigits 16 n).length) '0' ++ Nat.toDigits 16 n)
  if c = '"' ∨ c = '\\' then ['\\', c]
  else if c = '\n' then ['\\', 'n']
  else if c = '\r' then ['\\', 'r']
  else if c = '\t' then ['\\', 't']
  else if c.toNat = 12 then ['\\', 'f']
  else if c.toNat = 8 then ['\\', 'b']
  else if 32 ≤ c.toNat ∧ c.toNat ≤ 126 then [c]
  else if c.toNat < 65536 then unit c.toNat
  else
    unit (0xd800 + (c.toNat - 0x10000) / 0x400) ++ unit (0xdc00 + (c.toNat - 0x10000) % 0x400)

/-- `json.dumps` of a text. -/
def quoted (t : List Char) : List Char := '"' :: (t.flatMap escapeChar ++ ['"'])

/-- `json.dumps` of a float. -/
def floatText : PyFloat → List Char
  | .finite r _ _ => r
  | .nan => "NaN".toList
  | .inf false => "Infinity".toList
  | .inf true => "-Infinity".toList

mutual

/-- `json.dumps(v)`. -/
def dumps : Json → List Char
  | .null => "null".toList
  | .bool true => "true".toList
  | .bool false => "false".toList
  | .int n => PyInterp.intText n
  | .float f => floatText f
  | .str s => quoted s
  | .arr items => '[' :: (List.intercalate ", ".toList (dumpsItems items) ++ [']'])
  | .obj entries =>
      '\x7b' :: (List.intercalate ", ".toList (dumpsEntries entries) ++ ['\x7d'])

def dumpsItems : List Json → List (List Char)
  | [] => []
  | v :: items => dumps v :: dumpsItems items

def dumpsEntries : List (List Char × Json) → List (List Char)
  | [] => []
  | (k, v) :: entries => (quoted k ++ ": ".toList ++ dumps v) :: dumpsEntries entries

end

theorem dumpsItems_eq (items : List Json) : dumpsItems items = items.map dumps := by
  induction items with
  | nil => rfl
  | cons v items ih => rw [dumpsItems, ih, List.map_cons]

theorem dumpsEntries_eq (entries : List (List Char × Json)) :
    dumpsEntries entries = entries.map fun e => quoted e.1 ++ ": ".toList ++ dumps e.2 := by
  induction entries with
  | nil => rfl
  | cons e entries ih => rw [dumpsEntries, ih, List.map_cons]

theorem infix_intercalate {α : Type*} {sep t : List α} {ts : List (List α)} (h : t ∈ ts) :
    t <:+: List.intercalate sep ts := by
  induction ts with
  | nil => cases h
  | cons u ts ih =>
      cases ts with
      | nil =>
          obtain rfl := List.mem_singleton.mp h
          rw [List.intercalate_singleton]
      | cons u' ts =>
          rw [List.intercalate_cons_cons]
          rcases List.mem_cons.mp h with rfl | h
          · rw [List.append_assoc]
            exact (List.prefix_append _ _).isInfix
          · exact (ih h).trans (List.suffix_append _ _).isInfix

/-- The text of an item is in that of its list. -/
theorem dumps_infix_arr {items : List Json} {v : Json} (h : v ∈ items) :
    v.dumps <:+: (Json.arr items).dumps := by
  rw [dumps, dumpsItems_eq]
  have hmem : v.dumps ∈ items.map dumps := List.mem_map_of_mem h
  exact ((infix_intercalate hmem).trans (List.prefix_append _ _).isInfix).trans
    (List.suffix_cons _ _).isInfix

theorem entry_infix_obj {entries : List (List Char × Json)} {e : List Char × Json}
    (h : e ∈ entries) :
    quoted e.1 ++ ": ".toList ++ e.2.dumps <:+: (Json.obj entries).dumps := by
  rw [dumps, dumpsEntries_eq]
  have hmem := List.mem_map_of_mem (f := fun e => quoted e.1 ++ ": ".toList ++ dumps e.2) h
  exact ((infix_intercalate hmem).trans (List.prefix_append _ _).isInfix).trans
    (List.suffix_cons _ _).isInfix

/-- The text of a value is in that of its dict. -/
theorem dumps_infix_obj {entries : List (List Char × Json)} {e : List Char × Json}
    (h : e ∈ entries) : e.2.dumps <:+: (Json.obj entries).dumps :=
  (List.suffix_append _ _).isInfix.trans (entry_infix_obj h)

/-- The text of a key is in that of its dict. -/
theorem quoted_infix_obj {entries : List (List Char × Json)} {e : List Char × Json}
    (h : e ∈ entries) : quoted e.1 <:+: (Json.obj entries).dumps := by
  have hentry := entry_infix_obj h
  rw [List.append_assoc] at hentry
  exact (List.prefix_append _ _).isInfix.trans hentry

/-! ## What `json.dump` writes -/

mutual

/-- `json.dump` writes a value to its end: every integer of it has at most as many digits as
`int.__repr__` gives out. -/
def dumpable : Json → Bool
  | .int n => n.natAbs < 10 ^ PyInterp.maxStrDigits
  | .arr items => dumpableItems items
  | .obj entries => dumpableEntries entries
  | _ => true

def dumpableItems : List Json → Bool
  | [] => true
  | v :: items => dumpable v && dumpableItems items

def dumpableEntries : List (List Char × Json) → Bool
  | [] => true
  | (_, v) :: entries => dumpable v && dumpableEntries entries

end

theorem dumpableItems_eq_true_iff {items : List Json} :
    dumpableItems items = true ↔ ∀ v ∈ items, v.dumpable = true := by
  induction items with
  | nil => simp [dumpableItems]
  | cons v items ih => rw [dumpableItems, Bool.and_eq_true, ih, List.forall_mem_cons]

theorem dumpableEntries_eq_true_iff {entries : List (List Char × Json)} :
    dumpableEntries entries = true ↔ ∀ e ∈ entries, e.2.dumpable = true := by
  induction entries with
  | nil => simp [dumpableEntries]
  | cons e entries ih => rw [dumpableEntries, Bool.and_eq_true, ih, List.forall_mem_cons]

@[simp] theorem dumpable_bool (b : Bool) : (Json.bool b).dumpable = true := rfl

@[simp] theorem dumpable_float (f : PyFloat) : (Json.float f).dumpable = true := rfl

@[simp] theorem dumpable_str (t : List Char) : (Json.str t).dumpable = true := rfl

@[simp] theorem dumpable_int_iff (n : Int) :
    (Json.int n).dumpable = true ↔ n.natAbs < 10 ^ PyInterp.maxStrDigits := by
  rw [dumpable, decide_eq_true_iff]

@[simp] theorem dumpable_arr_iff {items : List Json} :
    (Json.arr items).dumpable = true ↔ ∀ v ∈ items, v.dumpable = true := by
  rw [dumpable, dumpableItems_eq_true_iff]

@[simp] theorem dumpable_obj_iff {entries : List (List Char × Json)} :
    (Json.obj entries).dumpable = true ↔ ∀ e ∈ entries, e.2.dumpable = true := by
  rw [dumpable, dumpableEntries_eq_true_iff]

/-! ## All dicts, and the items of all dicts -/

mutual

/-- The dicts in a value, each before those in it. -/
def dictsOf : Json → List (List (List Char × Json))
  | .arr items => dictsOfItems items
  | .obj entries => entries :: dictsOfEntries entries
  | _ => []

def dictsOfItems : List Json → List (List (List Char × Json))
  | [] => []
  | v :: items => dictsOf v ++ dictsOfItems items

def dictsOfEntries : List (List Char × Json) → List (List (List Char × Json))
  | [] => []
  | (_, v) :: entries => dictsOf v ++ dictsOfEntries entries

end

mutual

/-- The items of the dicts of a value, each before the items in its value. -/
def fieldsOf : Json → List (List Char × Json)
  | .arr items => fieldsOfItems items
  | .obj entries => fieldsOfEntries entries
  | _ => []

def fieldsOfItems : List Json → List (List Char × Json)
  | [] => []
  | v :: items => fieldsOf v ++ fieldsOfItems items

def fieldsOfEntries : List (List Char × Json) → List (List Char × Json)
  | [] => []
  | (k, v) :: entries => (k, v) :: (fieldsOf v ++ fieldsOfEntries entries)

end

theorem fieldsOfItems_eq (items : List Json) :
    fieldsOfItems items = items.flatMap fieldsOf := by
  induction items with
  | nil => rfl
  | cons v items ih => rw [fieldsOfItems, ih, List.flatMap_cons]

theorem fieldsOfEntries_eq (entries : List (List Char × Json)) :
    fieldsOfEntries entries = entries.flatMap fun e => e :: fieldsOf e.2 := by
  induction entries with
  | nil => rfl
  | cons e entries ih => rw [fieldsOfEntries, ih, List.flatMap_cons, List.cons_append]

/-- A key that has nothing to escape is in the text of every value that holds
it. -/
theorem key_infix_dumps {key : List Char} (hkey : key.flatMap escapeChar = key) {j : Json} :
    ∀ e ∈ fieldsOf j, e.1 = key → key <:+: j.dumps := by
  induction j using induct with
  | null | bool | int | float | str => simp [fieldsOf]
  | arr items ih =>
      rw [fieldsOf, fieldsOfItems_eq]
      intro e he hk
      obtain ⟨v, hv, hmem⟩ := List.mem_flatMap.mp he
      exact (ih v hv e hmem hk).trans (dumps_infix_arr hv)
  | obj entries ih =>
      rw [fieldsOf, fieldsOfEntries_eq]
      intro e he hk
      obtain ⟨e', he', hmem⟩ := List.mem_flatMap.mp he
      rcases List.mem_cons.mp hmem with rfl | hmem
      · have hin : key <:+: quoted e.1 := by
          rw [hk, quoted, hkey]
          exact (List.prefix_append _ _).isInfix.trans (List.suffix_cons _ _).isInfix
        exact hin.trans (quoted_infix_obj he')
      · exact (ih e' he' e hmem hk).trans (dumps_infix_obj he')

/-! ## The dicts with a property -/

mutual

/-- The dicts with a property that are in no other such dict. -/
def outermost (p : Json → Bool) : Json → List Json
  | .arr items => outermostItems p items
  | .obj entries => if p (.obj entries) then [.obj entries] else outermostEntries p entries
  | _ => []

def outermostItems (p : Json → Bool) : List Json → List Json
  | [] => []
  | v :: items => outermost p v ++ outermostItems p items

def outermostEntries (p : Json → Bool) : List (List Char × Json) → List Json
  | [] => []
  | (_, v) :: entries => outermost p v ++ outermostEntries p entries

end

mutual

/-- The lists and dicts with a property that have no other such one in them. -/
def innermost (p : Json → Bool) : Json → List Json
  | .arr items =>
      if (innermostItems p items).isEmpty then
        if p (.arr items) then [.arr items] else []
      else innermostItems p items
  | .obj entries =>
      if (innermostEntries p entries).isEmpty then
        if p (.obj entries) then [.obj entries] else []
      else innermostEntries p entries
  | _ => []

def innermostItems (p : Json → Bool) : List Json → List Json
  | [] => []
  | v :: items => innermost p v ++ innermostItems p items

def innermostEntries (p : Json → Bool) : List (List Char × Json) → List Json
  | [] => []
  | (_, v) :: entries => innermost p v ++ innermostEntries p entries

end

variable {p : Json → Bool}

theorem outermostItems_eq (items : List Json) :
    outermostItems p items = items.flatMap (outermost p) := by
  induction items with
  | nil => rfl
  | cons v items ih => rw [outermostItems, ih, List.flatMap_cons]

theorem outermostEntries_eq (entries : List (List Char × Json)) :
    outermostEntries p entries = entries.flatMap fun e => outermost p e.2 := by
  induction entries with
  | nil => rfl
  | cons e entries ih => rw [outermostEntries, ih, List.flatMap_cons]

theorem innermostItems_eq (items : List Json) :
    innermostItems p items = items.flatMap (innermost p) := by
  induction items with
  | nil => rfl
  | cons v items ih => rw [innermostItems, ih, List.flatMap_cons]

theorem innermostEntries_eq (entries : List (List Char × Json)) :
    innermostEntries p entries = entries.flatMap fun e => innermost p e.2 := by
  induction entries with
  | nil => rfl
  | cons e entries ih => rw [innermostEntries, ih, List.flatMap_cons]

theorem outermost_property {j : Json} : ∀ n ∈ outermost p j, p n = true := by
  induction j using induct with
  | null | bool | int | float | str => simp [outermost]
  | arr items ih =>
      rw [outermost, outermostItems_eq]
      intro n hn
      obtain ⟨v, hv, hmem⟩ := List.mem_flatMap.mp hn
      exact ih v hv n hmem
  | obj entries ih =>
      rw [outermost]
      split
      · rename_i hp
        simpa using hp
      · rw [outermostEntries_eq]
        intro n hn
        obtain ⟨e, he, hmem⟩ := List.mem_flatMap.mp hn
        exact ih e he n hmem

/-- A dict with the property is around an innermost one. -/
theorem innermost_obj_ne_nil {entries : List (List Char × Json)} (h : p (.obj entries) = true) :
    innermost p (.obj entries) ≠ [] := by
  rw [innermost, if_pos h]
  split
  · simp
  · rename_i hne
    simpa using hne

theorem exists_obj_of_mem_outermost {j : Json} :
    ∀ n ∈ outermost p j, ∃ entries, n = .obj entries := by
  induction j using induct with
  | null | bool | int | float | str => simp [outermost]
  | arr items ih =>
      rw [outermost, outermostItems_eq]
      intro n hn
      obtain ⟨v, hv, hmem⟩ := List.mem_flatMap.mp hn
      exact ih v hv n hmem
  | obj entries ih =>
      rw [outermost]
      split
      · intro n hn
        exact ⟨entries, List.mem_singleton.mp hn⟩
      · rw [outermostEntries_eq]
        intro n hn
        obtain ⟨e, he, hmem⟩ := List.mem_flatMap.mp hn
        exact ih e he n hmem

theorem sublist_flatMap {α β : Type*} {f g : α → List β} {l : List α}
    (h : ∀ a ∈ l, (f a).Sublist (g a)) : (l.flatMap f).Sublist (l.flatMap g) := by
  induction l with
  | nil => exact List.Sublist.refl _
  | cons a l ih =>
      rw [List.forall_mem_cons] at h
      rw [List.flatMap_cons, List.flatMap_cons]
      exact h.1.append (ih h.2)

/-- The innermost dicts in the outermost ones of another property are among the
innermost ones. -/
theorem flatMap_outermost_sublist (q : Json → Bool) (j : Json) :
    ((outermost q j).flatMap (innermost p)).Sublist (innermost p j) := by
  induction j using induct with
  | null | bool | int | float | str => exact List.Sublist.refl _
  | arr items ih =>
      have hitems : ((outermostItems q items).flatMap (innermost p)).Sublist
          (innermostItems p items) := by
        rw [innermostItems_eq, outermostItems_eq, List.flatMap_assoc]
        exact sublist_flatMap ih
      rw [outermost, innermost]
      split
      · rename_i hempty
        rw [List.isEmpty_iff.mp hempty, List.sublist_nil] at hitems
        rw [hitems]
        exact List.nil_sublist _
      · exact hitems
  | obj entries ih =>
      rw [outermost]
      split
      · rw [List.flatMap_singleton]
      · have hentries : ((outermostEntries q entries).flatMap (innermost p)).Sublist
            (innermostEntries p entries) := by
          rw [innermostEntries_eq, outermostEntries_eq, List.flatMap_assoc]
          exact sublist_flatMap ih
        rw [innermost]
        split
        · rename_i hempty
          rw [List.isEmpty_iff.mp hempty, List.sublist_nil] at hentries
          rw [hentries]
          exact List.nil_sublist _
        · exact hentries

/-- The fields of an innermost part are fields of the whole. -/
theorem fieldsOf_subset_of_mem_innermost {j : Json} :
    ∀ n ∈ innermost p j, n.fieldsOf ⊆ j.fieldsOf := by
  induction j using induct with
  | null | bool | int | float | str => simp [innermost]
  | arr items ih =>
      intro n hn
      have hcases : n ∈ innermostItems p items ∨ n = .arr items := by
        rw [innermost] at hn
        split_ifs at hn with hempty hp
        · exact .inr (List.mem_singleton.mp hn)
        · cases hn
        · exact .inl hn
      rcases hcases with hmem | rfl
      · rw [innermostItems_eq] at hmem
        obtain ⟨v, hv, hmem⟩ := List.mem_flatMap.mp hmem
        rw [fieldsOf, fieldsOfItems_eq]
        intro e he
        exact List.mem_flatMap.mpr ⟨v, hv, ih v hv n hmem he⟩
      · exact List.Subset.refl _
  | obj entries ih =>
      intro n hn
      have hcases : n ∈ innermostEntries p entries ∨ n = .obj entries := by
        rw [innermost] at hn
        split_ifs at hn with hempty hp
        · exact .inr (List.mem_singleton.mp hn)
        · cases hn
        · exact .inl hn
      rcases hcases with hmem | rfl
      · rw [innermostEntries_eq] at hmem
        obtain ⟨e', he', hmem⟩ := List.mem_flatMap.mp hmem
        rw [fieldsOf, fieldsOfEntries_eq]
        intro e he
        exact List.mem_flatMap.mpr
          ⟨e', he', List.mem_cons_of_mem _ (ih e' he' n hmem he)⟩
      · exact List.Subset.refl _

/-- Lists that are not empty, and together have no more members than they are,
have one member each. -/
theorem forall₂_flatMap {α β : Type*} {f : α → List β} {l : List α} (hne : ∀ a ∈ l, f a ≠ [])
    (hlen : (l.flatMap f).length ≤ l.length) :
    List.Forall₂ (fun a b => f a = [b]) l (l.flatMap f) := by
  have hbound : ∀ {l : List α}, (∀ a ∈ l, f a ≠ []) → l.length ≤ (l.flatMap f).length := by
    intro l
    induction l with
    | nil =>
        intro _
        exact le_rfl
    | cons a l ih =>
        intro h
        rw [List.forall_mem_cons] at h
        have ha := List.length_pos_iff.mpr h.1
        have hl := ih h.2
        rw [List.flatMap_cons, List.length_append, List.length_cons]
        omega
  induction l with
  | nil => exact .nil
  | cons a l ih =>
      rw [List.forall_mem_cons] at hne
      have ha := List.length_pos_iff.mpr hne.1
      have hl := hbound hne.2
      rw [List.flatMap_cons, List.length_append, List.length_cons] at hlen
      obtain ⟨b, hb⟩ := List.length_eq_one_iff.mp (show (f a).length = 1 by omega)
      rw [List.flatMap_cons, hb, List.singleton_append]
      exact .cons hb (ih hne.2 (by omega))

/-- If there are no more innermost dicts than outermost ones of a narrower
property, each of these holds exactly one of those, and there are no others. -/
theorem forall₂_outermost_innermost {q : Json → Bool} (hq : ∀ n, q n = true → p n = true)
    {j : Json} (hlen : (innermost p j).length ≤ (outermost q j).length) :
    List.Forall₂ (fun d n => innermost p d = [n]) (outermost q j) (innermost p j) := by
  have hsub := flatMap_outermost_sublist (p := p) q j
  have hne : ∀ d ∈ outermost q j, innermost p d ≠ [] := by
    intro d hd
    have hpd := hq d (outermost_property d hd)
    obtain ⟨entries, rfl⟩ := exists_obj_of_mem_outermost d hd
    exact innermost_obj_ne_nil hpd
  have hone := forall₂_flatMap hne (hsub.length_le.trans hlen)
  rw [← hsub.eq_of_length_le (hlen.trans hone.length_eq.le)]
  exact hone

end Json
