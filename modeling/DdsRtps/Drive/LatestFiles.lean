/-
# `DdsRtps.Drive.LatestFiles` — the latest files of a drive

`get_subfolder_files` and `get_latest_files_url` of get_latest_file_urls.py.  The
service is not part of the sources; it answers a request for the files of a folder
with a page of them and the token of the next page, if there is one.

The loop over the pages keeps what is on the last one.  So a file on another page is
missed, with all that is in a folder there: the workbooks and archives that are
found are those of the tree exactly if no folder that is come to has one before its
last page (`latest_files_iff`).

The times are texts of one format, which compare as the times do.  How deep Python
recurses is not limited here.
-/
import DdsRtps.Lib.FirstMax
import DdsRtps.Lib.Loop
import DdsRtps.Lib.PagedTree
import Mathlib.Data.String.Basic
import Mathlib.Order.Filter.AtTopBot.Basic
import Mathlib.Order.Filter.Finite

namespace DdsRtps.Drive

open Filter (atTop)

/-- What is read of a file or a folder. -/
structure Item where
  id : String
  webViewLink : Option String
  mimeType : String
  modifiedTime : String
deriving DecidableEq, Repr

/-- A page of `files().list(..)`. -/
structure Response where
  files : Option (List Item)
  nextPageToken : Option String

/-- `files().list(..).execute()`, for the files in a folder from a page on. -/
abbrev Service := String → Option String → Response

def folderType : String := "application/vnd.google-apps.folder"

def xlsxType : String := "application/vnd.openxmlformats-officedocument.spreadsheetml.sheet"

def zipType : String := "application/zip"

/-- `xlsx_files` and `zip_files`. -/
structure Files where
  xlsx : List Item
  zip : List Item
deriving DecidableEq, Repr

/-- `response.get('files', [])`. -/
def Response.items (response : Response) : List Item := response.files.getD []

variable (service : Service)

/-- A turn of the loop over the pages. -/
def nextPage (folderId : String) (pageToken : Option String) : Option String ⊕ List Item :=
  let response := service folderId pageToken
  match response.nextPageToken with
  | none => .inr response.items
  | some token => if token = "" then .inr response.items else .inl (some token)

/-- A turn of the loop over the items. -/
def addItem (getSubfolderFiles : String → Option Files) (files : Files) (item : Item) :
    Option Files :=
  if item.mimeType = folderType then
    (getSubfolderFiles item.id).map fun sub =>
      { xlsx := files.xlsx ++ sub.xlsx, zip := files.zip ++ sub.zip }
  else if item.mimeType = xlsxType then some { files with xlsx := files.xlsx ++ [item] }
  else if item.mimeType = zipType then some { files with zip := files.zip ++ [item] }
  else some files

/-- `get_subfolder_files`, with so many pages of a folder and so many folders inside one
another at most. -/
def getSubfolderFiles : Nat → String → Option Files
  | 0, _ => none
  | fuel + 1, folderId =>
      (Loop.run (nextPage service folderId) (fuel + 1) none).bind fun items =>
        items.foldlM (addItem fun id => getSubfolderFiles fuel id) ⟨[], []⟩

/-- The link of the latest file: `max` gives the first of several. -/
def latestUrl : List Item → Option String
  | [] => none
  | file :: files => (firstMax Item.modifiedTime file files).webViewLink

/-- `get_latest_files_url`. -/
def getLatestFilesUrl (fuel : Nat) (folderId : String) : Option (Option String × Option String) :=
  (getSubfolderFiles service fuel folderId).map fun files =>
    (latestUrl files.xlsx, latestUrl files.zip)

/-! ## The tree -/

/-- What is listed of a folder from a page on: the items on the last page, and those
before. -/
inductive ListsFrom (folderId : String) : Option String → List Item → List Item → Prop
  | last {pageToken : Option String}
      (h : ∀ token, (service folderId pageToken).nextPageToken = some token → token = "") :
      ListsFrom folderId pageToken [] (service folderId pageToken).items
  | more {pageToken : Option String} {token : String} {before last : List Item}
      (h : (service folderId pageToken).nextPageToken = some token) (hne : token ≠ "")
      (hrest : ListsFrom folderId (some token) before last) :
      ListsFrom folderId pageToken ((service folderId pageToken).items ++ before) last

variable {service} {folderId : String} {pageToken : Option String}
  {before last before' last' : List Item}

theorem ListsFrom.unique (h : ListsFrom service folderId pageToken before last)
    (h' : ListsFrom service folderId pageToken before' last') :
    before = before' ∧ last = last' := by
  induction h generalizing before' last' with
  | last hlast =>
      cases h' with
      | last _ => exact ⟨rfl, rfl⟩
      | more hmore hne _ => exact absurd (hlast _ hmore) hne
  | more hmore hne _ ih =>
      cases h' with
      | last hlast => exact absurd (hlast _ hmore) hne
      | more hmore' _ hrest' =>
          obtain rfl := Option.some.inj (hmore.symm.trans hmore')
          obtain ⟨rfl, rfl⟩ := ih hrest'
          exact ⟨rfl, rfl⟩

/-- The folder that an item is. -/
def subfolder (item : Item) : Option String :=
  if item.mimeType = folderType then some item.id else none

variable (service) in
/-- The folders, with the pages that the service splits them into. -/
def tree : PagedTree String Item where
  sub := subfolder
  Lists := fun folderId => ListsFrom service folderId none
  unique := ListsFrom.unique

def isXlsx (item : Item) : Bool := item.mimeType = xlsxType

def isZip (item : Item) : Bool := item.mimeType = zipType

/-! ## What is found -/

/-- From some number on, if the numbers before are. -/
theorem eventually_of_succ {P Q : Nat → Prop} (h : ∀ᶠ n in atTop, Q n)
    (hstep : ∀ n, Q n → P (n + 1)) : ∀ᶠ n in atTop, P n := by
  obtain ⟨N, hN⟩ := Filter.eventually_atTop.mp h
  refine Filter.eventually_atTop.mpr ⟨N + 1, fun n hn => ?_⟩
  obtain ⟨n, rfl⟩ : ∃ m, n = m + 1 := ⟨n - 1, by omega⟩
  exact hstep n (hN n (Nat.le_of_succ_le_succ hn))

/-- With enough turns the loop ends with the last page. -/
theorem run_nextPage (h : ListsFrom service folderId pageToken before last) :
    ∀ᶠ fuel in atTop, Loop.run (nextPage service folderId) fuel pageToken = some last := by
  induction h with
  | @last pageToken hlast =>
      refine eventually_of_succ (.of_forall fun _ => trivial) fun fuel _ => ?_
      refine Loop.run_succ_inr ?_
      cases htoken : (service folderId pageToken).nextPageToken with
      | none => simp only [nextPage, htoken]
      | some token => simp only [nextPage, htoken, if_pos (hlast token htoken)]
  | @more pageToken token before last hmore hne _ ih =>
      refine eventually_of_succ ih fun fuel hfuel => ?_
      have hturn : nextPage service folderId pageToken = .inl (some token) := by
        simp only [nextPage, hmore, if_neg hne]
      rw [Loop.run_succ_inl hturn]
      exact hfuel

/-- A file goes to the files of its kind. -/
theorem addFile (files : Files) (item : Item) :
    (if item.mimeType = xlsxType then some { files with xlsx := files.xlsx ++ [item] }
      else if item.mimeType = zipType then some { files with zip := files.zip ++ [item] }
      else some files) =
      some ⟨files.xlsx ++ [item].filter isXlsx, files.zip ++ [item].filter isZip⟩ := by
  have hne : xlsxType ≠ zipType := by decide
  split
  · next hxlsx => simp [isXlsx, isZip, hxlsx, hne]
  · next hxlsx =>
      split
      · next hzip => simp [isXlsx, isZip, hzip, hne.symm]
      · next hzip => simp [isXlsx, isZip, hxlsx, hzip]

/-- The loop over the items, given what is found in the folders. -/
theorem foldlM_addItem {find : String → Option Files} {below : Item → List Item}
    {items : List Item} (h : ∀ item ∈ items, ∀ id, subfolder item = some id →
      find id = some ⟨(below item).filter isXlsx, (below item).filter isZip⟩) (files : Files) :
    items.foldlM (addItem find) files =
      some ⟨files.xlsx ++ (items.flatMap ((tree service).leaves below)).filter isXlsx,
        files.zip ++ (items.flatMap ((tree service).leaves below)).filter isZip⟩ := by
  induction items generalizing files with
  | nil => simp
  | cons item items ih =>
      rw [List.forall_mem_cons] at h
      have hitem : addItem find files item =
          some ⟨files.xlsx ++ ((tree service).leaves below item).filter isXlsx,
            files.zip ++ ((tree service).leaves below item).filter isZip⟩ := by
        by_cases hfolder : item.mimeType = folderType
        · have hsub : subfolder item = some item.id := if_pos hfolder
          have hleaves : (tree service).leaves below item = below item :=
            PagedTree.leaves_of_some hsub
          rw [addItem, if_pos hfolder, h.1 item.id hsub, hleaves]
          rfl
        · have hleaves : (tree service).leaves below item = [item] :=
            PagedTree.leaves_of_none (if_neg hfolder)
          rw [addItem, if_neg hfolder, hleaves]
          exact addFile files item
      rw [List.foldlM_cons, hitem]
      show items.foldlM (addItem find) _ = _
      rw [ih h.2, List.flatMap_cons, List.filter_append, List.filter_append, List.append_assoc,
        List.append_assoc]

/-- What is returned is what the tree keeps. -/
theorem getSubfolderFiles_of_kept {kept : List Item} (h : (tree service).Kept folderId kept) :
    ∀ᶠ fuel in atTop, getSubfolderFiles service fuel folderId =
      some ⟨kept.filter isXlsx, kept.filter isZip⟩ := by
  induction h with
  | @node folderId before last below hlists _ ih =>
      have hbelow : ∀ᶠ fuel in atTop, ∀ item ∈ last, ∀ id, subfolder item = some id →
          getSubfolderFiles service fuel id =
            some ⟨(below item).filter isXlsx, (below item).filter isZip⟩ := by
        refine (Filter.eventually_all_finite last.finite_toSet).mpr fun item hitem => ?_
        cases hsub : subfolder item with
        | none => exact .of_forall fun _ _ hid => nomatch hid
        | some id =>
            filter_upwards [ih item hitem id hsub] with fuel hfuel id' hid'
            obtain rfl := Option.some.inj hid'
            exact hfuel
      have hpages : ∀ᶠ fuel in atTop,
          Loop.run (nextPage service folderId) (fuel + 1) none = some last :=
        (Filter.tendsto_add_atTop_nat 1).eventually (run_nextPage hlists)
      refine eventually_of_succ (hbelow.and hpages) fun fuel ⟨hfuel, hrun⟩ => ?_
      rw [getSubfolderFiles, hrun, Option.bind_some, foldlM_addItem hfuel]
      rfl

/-! ## The files of the tree -/

/-- The workbooks and archives of a tree are found, each as often as it is there. -/
def FindsFiles (service : Service) (folderId : String) (all : List Item) : Prop :=
  ∃ files, (∀ᶠ fuel in atTop, getSubfolderFiles service fuel folderId = some files) ∧
    files.xlsx.Perm (all.filter isXlsx) ∧ files.zip.Perm (all.filter isZip)

/-- The link of a file that is modified last, if there is a file. -/
def IsLatest (files : List Item) (url : Option String) : Prop :=
  (files = [] → url = none) ∧
    (files ≠ [] → ∃ file ∈ files, (∀ other ∈ files, other.modifiedTime ≤ file.modifiedTime) ∧
      url = file.webViewLink)

/-- The links are those of the latest workbook and the latest archive. -/
def FindsLatest (service : Service) (folderId : String) (all : List Item) : Prop :=
  ∃ urls, (∀ᶠ fuel in atTop, getLatestFilesUrl service fuel folderId = some urls) ∧
    IsLatest (all.filter isXlsx) urls.1 ∧ IsLatest (all.filter isZip) urls.2

theorem isLatest_latestUrl {files all : List Item} (h : files.Perm all) :
    IsLatest all (latestUrl files) := by
  cases files with
  | nil =>
      obtain rfl := h.nil_eq
      exact ⟨fun _ => rfl, fun hne => absurd rfl hne⟩
  | cons file files =>
      refine ⟨fun hnil => ?_, fun _ => ?_⟩
      · rw [hnil] at h
        exact absurd h.eq_nil (List.cons_ne_nil _ _)
      · refine ⟨_, h.subset (firstMax_mem Item.modifiedTime file files), ?_, rfl⟩
        intro other hother
        exact le_firstMax Item.modifiedTime (h.symm.subset hother)

/-- If the files are found, so are the latest. -/
theorem FindsFiles.findsLatest {all : List Item} (h : FindsFiles service folderId all) :
    FindsLatest service folderId all := by
  obtain ⟨files, hfiles, hxlsx, hzip⟩ := h
  refine ⟨(latestUrl files.xlsx, latestUrl files.zip), ?_, isLatest_latestUrl hxlsx,
    isLatest_latestUrl hzip⟩
  filter_upwards [hfiles] with fuel hfuel
  rw [getLatestFilesUrl, hfuel]
  rfl

/-- **No file of a drive is missed** exactly if no folder that is come to has a workbook
or an archive before its last page, or a folder with one. -/
theorem latest_files_iff {all : List Item} (h : (tree service).Whole folderId all) :
    FindsFiles service folderId all ∧ FindsLatest service folderId all ↔
      (tree service).Complete (fun item => isXlsx item || isZip item) folderId := by
  obtain ⟨kept, hkept, hperm⟩ := h.exists_kept_perm_iff
  have hreturns := getSubfolderFiles_of_kept hkept
  rw [PagedTree.complete_or, ← hperm isXlsx, ← hperm isZip]
  constructor
  · rintro ⟨⟨files, hfiles, hxlsx, hzip⟩, -⟩
    obtain ⟨fuel, hfuel, hfuel'⟩ := (hfiles.and hreturns).exists
    obtain rfl := Option.some.inj (hfuel.symm.trans hfuel')
    exact ⟨hxlsx, hzip⟩
  · intro ⟨hxlsx, hzip⟩
    have hfinds : FindsFiles service folderId all := ⟨_, hreturns, hxlsx, hzip⟩
    exact ⟨hfinds, hfinds.findsLatest⟩

/-! ## Two pages -/

/-- A workbook. -/
def workbook (id modifiedTime : String) : Item := ⟨id, some id, xlsxType, modifiedTime⟩

/-- A folder with two files, on two pages. -/
def twoPages (first second : Item) : Service := fun _ pageToken =>
  match pageToken with
  | none => ⟨some [first], some "second"⟩
  | some _ => ⟨some [second], none⟩

theorem whole_twoPages {first second : Item} (hfirst : subfolder first = none)
    (hsecond : subfolder second = none) :
    (tree (twoPages first second)).Whole "root" [first, second] := by
  have hlists : ListsFrom (twoPages first second) "root" none [first] [second] :=
    .more rfl (by decide) (.last fun _ htoken => nomatch htoken)
  have hnone : ∀ item ∈ [first] ++ [second], subfolder item = none := by
    intro item hitem
    rcases List.mem_pair.mp hitem with rfl | rfl
    · exact hfirst
    · exact hsecond
  have hwhole : (tree (twoPages first second)).Whole "root" (([first] ++ [second]).flatMap
      ((tree (twoPages first second)).leaves fun _ => [])) :=
    .node hlists fun item hitem id hid => by cases (hnone item hitem).symm.trans hid
  have hleaves : ([first] ++ [second]).flatMap
      ((tree (twoPages first second)).leaves fun _ => []) = [first, second] := by
    rw [List.flatMap_append, List.flatMap_singleton, List.flatMap_singleton,
      PagedTree.leaves_of_none hfirst, PagedTree.leaves_of_none hsecond]
    rfl
  rw [hleaves] at hwhole
  exact hwhole

/-- A text. -/
def notes : Item := ⟨"notes", none, "text/plain", "2025-01-01T00:00:00.000Z"⟩

/-- A text, and a workbook on the last page. -/
theorem latest_files_twoPages :
    FindsFiles (twoPages notes (workbook "results" "2025-02-01T00:00:00.000Z")) "root"
        [notes, workbook "results" "2025-02-01T00:00:00.000Z"] ∧
      FindsLatest (twoPages notes (workbook "results" "2025-02-01T00:00:00.000Z")) "root"
        [notes, workbook "results" "2025-02-01T00:00:00.000Z"] ↔
      (tree (twoPages notes (workbook "results" "2025-02-01T00:00:00.000Z"))).Complete
        (fun item => isXlsx item || isZip item) "root" :=
  latest_files_iff (whole_twoPages (by decide) (by decide))

/-- A workbook on the first of two pages is missed. -/
theorem not_latest_files :
    ¬ ∀ service folderId all, (tree service).Whole folderId all →
      FindsFiles service folderId all ∧ FindsLatest service folderId all := by
  intro h
  obtain ⟨⟨files, hfiles, hxlsx, -⟩, -⟩ := h
    (twoPages (workbook "new" "2025-03-01T00:00:00.000Z")
      (workbook "old" "2025-02-01T00:00:00.000Z")) "root" _
    (whole_twoPages (by decide) (by decide))
  obtain ⟨fuel, hfuel, hpos⟩ := (hfiles.and (Filter.eventually_ge_atTop 2)).exists
  obtain ⟨fuel, rfl⟩ := Nat.exists_eq_add_of_le' hpos
  have hfound : getSubfolderFiles (twoPages (workbook "new" "2025-03-01T00:00:00.000Z")
      (workbook "old" "2025-02-01T00:00:00.000Z")) (fuel + 2) "root" =
        some ⟨[workbook "old" "2025-02-01T00:00:00.000Z"], []⟩ := rfl
  obtain rfl := Option.some.inj (hfound.symm.trans hfuel)
  exact absurd hxlsx.length_eq (by decide)

end DdsRtps.Drive
