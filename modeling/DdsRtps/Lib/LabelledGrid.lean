/-
# `DdsRtps.Lib.LabelledGrid` — tables that are written cell by cell

Writes go to the cells of a sheet, and of several to one cell the last is shown.
A table has titles of its columns in one row, titles of its rows in one column,
and things below and beside them; rows and columns are numbered by first
appearance.

What a table consists of is read off its writes by kind (`Lays`).  From that
alone follows that a title is the only write to its cell (`Lays.columnTitle_once`,
`Lays.rowTitle_once`), and that a thing is shown under and beside its own titles
(`Lays.labelled`).
-/
import DdsRtps.Lib.FirstSeen

namespace LabelledGrid

variable {ω β γ : Type*}

/-! ## Cells -/

/-- The last write to a cell. -/
def lastAt (cell : ω → Nat × Nat) (writes : List ω) (c : Nat × Nat) : Option ω :=
  (writes.filter fun w => cell w = c).getLast?

/-- `w` is the only write to its cell. -/
def WrittenOnce (cell : ω → Nat × Nat) (writes : List ω) (w : ω) : Prop :=
  (writes.filter fun w' => cell w' = cell w) = [w]

/-- `read?` finds the writes of one kind, each with its cell. -/
def Reads (cell : ω → Nat × Nat) (content : ω → γ) (kind : β → γ)
    (read? : ω → Option ((Nat × Nat) × β)) : Prop :=
  ∀ w c b, read? w = some (c, b) → content w = kind b ∧ cell w = c

variable {cell : ω → Nat × Nat} {content : ω → γ} {kind : β → γ}
  {read? : ω → Option ((Nat × Nat) × β)} {writes : List ω}

theorem WrittenOnce.lastAt_eq {w : ω} (h : WrittenOnce cell writes w) :
    lastAt cell writes (cell w) = some w := by
  rw [lastAt, h]
  rfl

/-- The writes of one kind to a cell. -/
theorem Reads.filterMap_filter (hread : Reads cell content kind read?) (c : Nat × Nat) :
    (writes.filter fun w => cell w = c).filterMap read? =
      (writes.filterMap read?).filter fun entry => entry.1 = c := by
  induction writes with
  | nil => rfl
  | cons w writes ih =>
      cases hw : read? w with
      | none =>
          rw [List.filterMap_cons_none hw, ← ih, List.filter_cons]
          split
          · rw [List.filterMap_cons_none hw]
          · rfl
      | some entry =>
          have hcell : cell w = entry.1 := (hread w entry.1 entry.2 hw).2
          rw [List.filterMap_cons_some hw, List.filter_cons, List.filter_cons, hcell]
          split
          · rw [List.filterMap_cons_some hw, ih]
          · exact ih

/-- The last of a list on which a partial function is defined. -/
theorem getLast?_filterMap {f : ω → Option β} {l : List ω} (h : ∀ w ∈ l, (f w).isSome = true) :
    (l.filterMap f).getLast? = l.getLast?.bind f := by
  induction l using List.reverseRecOn with
  | nil => rfl
  | append_singleton l w _ =>
      obtain ⟨b, hb⟩ := Option.isSome_iff_exists.mp (h w (by simp))
      have hlast : [w].filterMap f = [b] := List.filterMap_cons_some hb
      rw [List.filterMap_append, hlast, List.getLast?_concat, List.getLast?_concat]
      exact hb.symm

/-- A cell to which writes of one kind only go shows the last of them. -/
theorem Reads.lastAt_bind (hread : Reads cell content kind read?) {c : Nat × Nat}
    (hkind : ∀ w ∈ writes, cell w = c → (read? w).isSome = true) :
    (lastAt cell writes c).bind read? =
      ((writes.filterMap read?).filter fun entry => entry.1 = c).getLast? := by
  rw [← hread.filterMap_filter, lastAt, getLast?_filterMap]
  intro w hw
  rw [List.mem_filter, decide_eq_true_eq] at hw
  exact hkind w hw.1 hw.2

/-- If a kind has one write for each of its cells, and its cells are its own, then each
of its writes is the only one to its cell. -/
theorem Reads.writtenOnce (hread : Reads cell content kind read?)
    (hnodup : ((writes.filterMap read?).map Prod.fst).Nodup) {w : ω} (hw : w ∈ writes)
    (hkind : ∀ w' ∈ writes, cell w' = cell w → (read? w').isSome = true) :
    WrittenOnce cell writes w := by
  have hmem : w ∈ writes.filter fun w' => cell w' = cell w :=
    List.mem_filter.mpr ⟨hw, decide_eq_true rfl⟩
  have hall : ∀ w' ∈ writes.filter fun w' => cell w' = cell w, (read? w').isSome = true := by
    intro w' hw'
    rw [List.mem_filter, decide_eq_true_eq] at hw'
    exact hkind w' hw'.1 hw'.2
  have hlength : ((writes.filter fun w' => cell w' = cell w).filterMap read?).length =
      (writes.filter fun w' => cell w' = cell w).length := by
    rw [List.filterMap_length_eq_length.mpr hall]
  rw [hread.filterMap_filter] at hlength
  -- two entries of one cell would repeat it
  have hone : ((writes.filterMap read?).filter fun entry => entry.1 = cell w).length ≤ 1 := by
    rw [← List.countP_eq_length_filter]
    have hcount := List.nodup_iff_count_le_one.mp hnodup (cell w)
    rw [List.count, List.countP_map] at hcount
    refine le_trans (le_of_eq (List.countP_congr fun entry _ => ?_)) hcount
    simp
  rw [hlength] at hone
  rw [WrittenOnce]
  obtain ⟨w', hw'⟩ := List.length_eq_one_iff.mp
    (le_antisymm hone (List.length_pos_of_mem hmem))
  rw [hw'] at hmem ⊢
  rw [List.mem_singleton.mp hmem]

/-! ## A table -/

section Table

variable {ε α κ : Type*} [DecidableEq α] [DecidableEq κ]

/-- The last thing of a list with the row and the column of `e`. -/
def lastLike (rowKey : ε → α) (columnKey : ε → κ) (l : List ε) (e : ε) : Option ε :=
  (l.filter fun e' => rowKey e' = rowKey e ∧ columnKey e' = columnKey e).getLast?

/-- Different rows and columns are apart, they have their titles, and under and beside its
own titles a thing shows what it is to show. -/
def Labelled (shown : Nat × Nat → Option γ) (titleRow titleColumn : Nat) (rowTitle : α → γ)
    (columnTitle : κ → γ) (rowKey : ε → α) (columnKey : ε → κ) (toShow : ε → Option γ)
    (l : List ε) : Prop :=
  ∃ (rowOf : α → Nat) (columnOf : κ → Nat),
    (∀ a ∈ l, ∀ b ∈ l, rowOf (rowKey a) = rowOf (rowKey b) ↔ rowKey a = rowKey b) ∧
      (∀ a ∈ l, ∀ b ∈ l, columnOf (columnKey a) = columnOf (columnKey b) ↔
        columnKey a = columnKey b) ∧
      ∀ e ∈ l, shown (titleRow, columnOf (columnKey e)) = some (columnTitle (columnKey e)) ∧
        shown (rowOf (rowKey e), titleColumn) = some (rowTitle (rowKey e)) ∧
        shown (rowOf (rowKey e), columnOf (columnKey e)) = toShow e

omit [DecidableEq α] [DecidableEq κ] in
/-- What is made of the things shown, say their texts, is labelled with what is made of the
titles. -/
theorem Labelled.map {δ : Type*} {shown : Nat × Nat → Option γ} {titleRow titleColumn : Nat}
    {rowTitle : α → γ} {columnTitle : κ → γ} {rowKey : ε → α} {columnKey : ε → κ}
    {toShow : ε → Option γ} {l : List ε} (f : γ → δ)
    (h : Labelled shown titleRow titleColumn rowTitle columnTitle rowKey columnKey toShow l) :
    Labelled (fun c => (shown c).map f) titleRow titleColumn (fun a => f (rowTitle a))
      (fun k => f (columnTitle k)) rowKey columnKey (fun e => (toShow e).map f) l := by
  obtain ⟨rowOf, columnOf, hrows, hcolumns, hshown⟩ := h
  refine ⟨rowOf, columnOf, hrows, hcolumns, fun e he => ?_⟩
  obtain ⟨hcolumnTitle, hrowTitle, hvalue⟩ := hshown e he
  simp only [hcolumnTitle, hrowTitle, hvalue, Option.map_some, true_and]

/-- A thing that shares its cell with no other. -/
theorem lastLike_eq_self {rowKey : ε → α} {columnKey : ε → κ} {l : List ε} {e : ε} (he : e ∈ l)
    (halone : ∀ e' ∈ l, rowKey e' = rowKey e → columnKey e' = columnKey e → e' = e) :
    lastLike rowKey columnKey l e = some e := by
  have hmem : e ∈ l.filter fun e' => rowKey e' = rowKey e ∧ columnKey e' = columnKey e :=
    List.mem_filter.mpr ⟨he, by simp⟩
  rw [lastLike]
  cases hlast : (l.filter fun e' => rowKey e' = rowKey e ∧ columnKey e' = columnKey e).getLast? with
  | none =>
      rw [List.getLast?_eq_none_iff] at hlast
      rw [hlast] at hmem
      cases hmem
  | some e' =>
      obtain ⟨hin, hkeys⟩ := List.mem_filter.mp (List.mem_of_getLast? hlast)
      rw [decide_eq_true_eq] at hkeys
      rw [halone e' hin hkeys.1 hkeys.2]

/-- What the writes of a table are, by kind: its things, the titles of its columns and of
its rows, and what stands above it or in its corner. -/
structure Lays (cell : ω → Nat × Nat) (titleRow titleColumn : Nat) (rowKey : ε → α)
    (columnKey : ε → κ) (value? : ω → Option ((Nat × Nat) × ε))
    (rowTitle? : ω → Option ((Nat × Nat) × α)) (columnTitle? : ω → Option ((Nat × Nat) × κ))
    (l : List ε) (writes : List ω) : Prop where
  values : writes.filterMap value? = l.map fun e =>
    (FirstSeen.cell rowKey columnKey titleRow titleColumn l e, e)
  columnTitles : writes.filterMap columnTitle? = (FirstSeen.firsts (l.map columnKey)).map
    fun k => ((titleRow, FirstSeen.numberOf titleColumn (l.map columnKey) k), k)
  rowTitles : writes.filterMap rowTitle? = (FirstSeen.firsts (l.map rowKey)).map
    fun a => ((FirstSeen.numberOf titleRow (l.map rowKey) a, titleColumn), a)
  others : ∀ w ∈ writes, value? w = none → columnTitle? w = none → rowTitle? w = none →
    (cell w).1 < titleRow ∨ cell w = (titleRow, titleColumn)

namespace Lays

variable {titleRow titleColumn : Nat} {rowTitle : α → γ} {columnTitle : κ → γ} {value : ε → γ}
  {rowKey : ε → α} {columnKey : ε → κ} {value? : ω → Option ((Nat × Nat) × ε)}
  {rowTitle? : ω → Option ((Nat × Nat) × α)} {columnTitle? : ω → Option ((Nat × Nat) × κ)}
  {l : List ε}
  (h : Lays cell titleRow titleColumn rowKey columnKey value? rowTitle? columnTitle? l writes)
  (hvalue : Reads cell content value value?) (hrow : Reads cell content rowTitle rowTitle?)
  (hcolumn : Reads cell content columnTitle columnTitle?)

include h

/-- Where a thing is written. -/
theorem value_cell (hvalue : Reads cell content value value?) {w : ω} (hw : w ∈ writes)
    (hsome : (value? w).isSome = true) : titleRow < (cell w).1 ∧ titleColumn < (cell w).2 := by
  obtain ⟨⟨c, e⟩, he⟩ := Option.isSome_iff_exists.mp hsome
  have hmem := List.mem_filterMap.mpr ⟨w, hw, he⟩
  rw [h.values] at hmem
  obtain ⟨e', -, heq⟩ := List.mem_map.mp hmem
  rw [(hvalue w c e he).2, ← (Prod.mk.inj heq).1, FirstSeen.cell, FirstSeen.numberOf,
    FirstSeen.numberOf]
  constructor
  · show titleRow < titleRow + 1 + _
    omega
  · show titleColumn < titleColumn + 1 + _
    omega

/-- Where the title of a column is written. -/
theorem columnTitle_cell (hcolumn : Reads cell content columnTitle columnTitle?) {w : ω}
    (hw : w ∈ writes) (hsome : (columnTitle? w).isSome = true) :
    (cell w).1 = titleRow ∧ titleColumn < (cell w).2 := by
  obtain ⟨⟨c, k⟩, hk⟩ := Option.isSome_iff_exists.mp hsome
  have hmem := List.mem_filterMap.mpr ⟨w, hw, hk⟩
  rw [h.columnTitles] at hmem
  obtain ⟨k', -, heq⟩ := List.mem_map.mp hmem
  rw [(hcolumn w c k hk).2, ← (Prod.mk.inj heq).1, FirstSeen.numberOf]
  refine ⟨rfl, ?_⟩
  show titleColumn < titleColumn + 1 + _
  omega

/-- Where the title of a row is written. -/
theorem rowTitle_cell (hrow : Reads cell content rowTitle rowTitle?) {w : ω} (hw : w ∈ writes)
    (hsome : (rowTitle? w).isSome = true) :
    titleRow < (cell w).1 ∧ (cell w).2 = titleColumn := by
  obtain ⟨⟨c, a⟩, ha⟩ := Option.isSome_iff_exists.mp hsome
  have hmem := List.mem_filterMap.mpr ⟨w, hw, ha⟩
  rw [h.rowTitles] at hmem
  obtain ⟨a', -, heq⟩ := List.mem_map.mp hmem
  rw [(hrow w c a ha).2, ← (Prod.mk.inj heq).1, FirstSeen.numberOf]
  refine ⟨?_, rfl⟩
  show titleRow < titleRow + 1 + _
  omega

include hvalue hrow hcolumn

/-- A write is of one of the kinds, and its cell says of which. -/
theorem kind_cases {w : ω} (hw : w ∈ writes) :
    ((value? w).isSome = true ∧ titleRow < (cell w).1 ∧ titleColumn < (cell w).2) ∨
      ((columnTitle? w).isSome = true ∧ (cell w).1 = titleRow ∧ titleColumn < (cell w).2) ∨
      ((rowTitle? w).isSome = true ∧ titleRow < (cell w).1 ∧ (cell w).2 = titleColumn) ∨
      ((cell w).1 < titleRow ∨ cell w = (titleRow, titleColumn)) := by
  by_cases hv : (value? w).isSome = true
  · exact .inl ⟨hv, h.value_cell hvalue hw hv⟩
  · by_cases hk : (columnTitle? w).isSome = true
    · exact .inr (.inl ⟨hk, h.columnTitle_cell hcolumn hw hk⟩)
    · by_cases ha : (rowTitle? w).isSome = true
      · exact .inr (.inr (.inl ⟨ha, h.rowTitle_cell hrow hw ha⟩))
      · exact .inr (.inr (.inr (h.others w hw (by simpa using hv) (by simpa using hk)
          (by simpa using ha))))

/-- The title of a column is the only write to its cell. -/
theorem columnTitle_once {w : ω} (hw : w ∈ writes) (hsome : (columnTitle? w).isSome = true) :
    WrittenOnce cell writes w := by
  obtain ⟨hfirst, hsecond⟩ := h.columnTitle_cell hcolumn hw hsome
  refine hcolumn.writtenOnce ?_ hw ?_
  · rw [h.columnTitles, List.map_map]
    refine List.Nodup.map_on ?_ (FirstSeen.nodup_firsts _)
    intro k hk k' hk' heq
    exact (FirstSeen.numberOf_inj (FirstSeen.mem_firsts.mp hk) (FirstSeen.mem_firsts.mp hk')).mp
      (Prod.mk.inj heq).2
  · intro w' hw' hcell
    rw [← hcell] at hfirst hsecond
    rcases h.kind_cases hvalue hrow hcolumn hw' with hv | hk | ha | hother | hcorner
    · omega
    · exact hk.1
    · omega
    · omega
    · rw [hcorner] at hsecond
      exact absurd hsecond (lt_irrefl _)

/-- The title of a row is the only write to its cell. -/
theorem rowTitle_once {w : ω} (hw : w ∈ writes) (hsome : (rowTitle? w).isSome = true) :
    WrittenOnce cell writes w := by
  obtain ⟨hfirst, hsecond⟩ := h.rowTitle_cell hrow hw hsome
  refine hrow.writtenOnce ?_ hw ?_
  · rw [h.rowTitles, List.map_map]
    refine List.Nodup.map_on ?_ (FirstSeen.nodup_firsts _)
    intro a ha a' ha' heq
    exact (FirstSeen.numberOf_inj (FirstSeen.mem_firsts.mp ha) (FirstSeen.mem_firsts.mp ha')).mp
      (Prod.mk.inj heq).1
  · intro w' hw' hcell
    rw [← hcell] at hfirst hsecond
    rcases h.kind_cases hvalue hrow hcolumn hw' with hv | hk | ha | hother | hcorner
    · omega
    · omega
    · exact ha.1
    · omega
    · rw [hcorner] at hfirst
      exact absurd hfirst (lt_irrefl _)

/-- Below and beside the titles there are only things. -/
theorem isSome_value_of_cell {e : ε} {w : ω} (hw : w ∈ writes)
    (hcell : cell w = FirstSeen.cell rowKey columnKey titleRow titleColumn l e) :
    (value? w).isSome = true := by
  have hplace : titleRow < (cell w).1 ∧ titleColumn < (cell w).2 := by
    rw [hcell, FirstSeen.cell, FirstSeen.numberOf, FirstSeen.numberOf]
    dsimp only
    omega
  rcases h.kind_cases hvalue hrow hcolumn hw with hv | hk | ha | hother | hcorner
  · exact hv.1
  · omega
  · omega
  · omega
  · rw [hcorner] at hplace
    exact absurd hplace.1 (lt_irrefl _)

/-- Each of their cells shows the last of its own. -/
theorem lastAt_cell {e : ε} (he : e ∈ l) :
    (lastAt cell writes (FirstSeen.cell rowKey columnKey titleRow titleColumn l e)).map content =
      (lastLike rowKey columnKey l e).map value := by
  have hbind := hvalue.lastAt_bind fun w hw hcell =>
    isSome_value_of_cell h hvalue hrow hcolumn (e := e) hw hcell
  have hfilter : ((writes.filterMap value?).filter fun entry =>
      entry.1 = FirstSeen.cell rowKey columnKey titleRow titleColumn l e) =
      (l.filter fun e' => rowKey e' = rowKey e ∧ columnKey e' = columnKey e).map fun e' =>
        (FirstSeen.cell rowKey columnKey titleRow titleColumn l e', e') := by
    rw [h.values, List.filter_map]
    refine congrArg _ (List.filter_congr fun e' he' => ?_)
    simp only [Function.comp_apply, decide_eq_decide]
    exact FirstSeen.cell_eq_iff he' he
  rw [hfilter, List.getLast?_map] at hbind
  rw [lastLike]
  cases hlast : (l.filter fun e' =>
      rowKey e' = rowKey e ∧ columnKey e' = columnKey e).getLast? with
  | none =>
      rw [List.getLast?_eq_none_iff] at hlast
      have hmem : e ∈ l.filter fun e' => rowKey e' = rowKey e ∧ columnKey e' = columnKey e :=
        List.mem_filter.mpr ⟨he, by simp⟩
      rw [hlast] at hmem
      cases hmem
  | some e' =>
      rw [hlast] at hbind
      obtain ⟨w, hw, hread⟩ := Option.bind_eq_some_iff.mp hbind
      rw [hw, Option.map_some, Option.map_some, (hvalue w _ _ hread).1]

/-- A table that is laid out so is labelled, and of things that share a cell it shows the last. -/
theorem labelled : Labelled (fun c => (lastAt cell writes c).map content) titleRow titleColumn
    rowTitle columnTitle rowKey columnKey (fun e => (lastLike rowKey columnKey l e).map value)
    l := by
  refine ⟨FirstSeen.numberOf titleRow (l.map rowKey),
    FirstSeen.numberOf titleColumn (l.map columnKey), ?_, ?_, ?_⟩
  · intro a ha b hb
    exact FirstSeen.numberOf_inj (List.mem_map_of_mem ha) (List.mem_map_of_mem hb)
  · intro a ha b hb
    exact FirstSeen.numberOf_inj (List.mem_map_of_mem ha) (List.mem_map_of_mem hb)
  · intro e he
    refine ⟨?_, ?_, h.lastAt_cell hvalue hrow hcolumn he⟩
    · have hmem := List.mem_map_of_mem (f := fun k =>
        ((titleRow, FirstSeen.numberOf titleColumn (l.map columnKey) k), k))
        (FirstSeen.mem_firsts.mpr (List.mem_map_of_mem (f := columnKey) he))
      rw [← h.columnTitles] at hmem
      obtain ⟨w, hw, hread⟩ := List.mem_filterMap.mp hmem
      obtain ⟨hcontent, hcell⟩ := hcolumn w _ _ hread
      have honce := h.columnTitle_once hvalue hrow hcolumn hw (by rw [hread]; rfl)
      dsimp only
      rw [← hcell, honce.lastAt_eq, Option.map_some, hcontent]
    · have hmem := List.mem_map_of_mem (f := fun a =>
        ((FirstSeen.numberOf titleRow (l.map rowKey) a, titleColumn), a))
        (FirstSeen.mem_firsts.mpr (List.mem_map_of_mem (f := rowKey) he))
      rw [← h.rowTitles] at hmem
      obtain ⟨w, hw, hread⟩ := List.mem_filterMap.mp hmem
      obtain ⟨hcontent, hcell⟩ := hrow w _ _ hread
      have honce := h.rowTitle_once hvalue hrow hcolumn hw (by rw [hread]; rfl)
      dsimp only
      rw [← hcell, honce.lastAt_eq, Option.map_some, hcontent]

end Lays

end Table

end LabelledGrid
