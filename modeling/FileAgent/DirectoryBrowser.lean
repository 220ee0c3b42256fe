import FileAgent.DirectoryTree
import FileAgent.Library.Outline
import FileAgent.Library.Run

set_option relaxedAutoImplicit false
set_option autoImplicit false

/-!
# The tree view of the directory browser

The store of `app/static/js/stores/directoryBrowserStore.js`. It asks the server to scan the source
or the destination directory, and shows the tree it is answered as rows, below directories that the
user has not collapsed. Answers come in any order, also when the modal has been closed, or opened
for the other directory. The flat view with its sorting, and the formats of sizes, times and icons
are left out.

## Main definitions

* `DirectoryBrowser`, `browserStep` — the store, and what the user and the server do.
* `getFlattenedTreeItems` — the rows.
* `lastScan` — the scan that was answered last.
* `RowsFaithful` — the rows show the items of a scan, and these are where the rows show them.

## Main results

* `rows_faithful` — the rows are faithful in every run.
* `answer_shows_all` — an answer is shown completely.
-/

namespace FileAgent

open Transition PosixPath ParentForest RoseTree

/-! ## The store -/

/-- `scanType`, and the endpoint that it leads to. -/
inductive ScanType
  | source
  | destination
  deriving DecidableEq

/-- The two views of the browser. -/
inductive ViewMode
  | tree
  | flat
  deriving DecidableEq

/-- A request that has not been answered. -/
structure ScanRequest where
  scanType : ScanType
  recursive : Bool
  maxDepth : ℤ

/-- The store, and its requests. `defaultExpanded` is never changed. -/
structure DirectoryBrowser where
  isOpen : Bool := false
  currentPath : Text := []
  scanType : Option ScanType := none
  isLoading : Bool := false
  isAccessible : Bool := false
  items : List DirectoryItem := []
  treeStructure : List (RoseTree DirectoryItem) := []
  totalItems : ℕ := 0
  totalFiles : ℕ := 0
  totalDirectories : ℕ := 0
  errorMessage : Option String := none
  showHidden : Bool := false
  recursive : Bool := true
  maxDepth : ℤ := 3
  viewMode : ViewMode := .tree
  expandedDirectories : Finset Text := ∅
  defaultExpanded : Bool := true
  requests : List ScanRequest := []

namespace DirectoryBrowser

/-- `isDirectoryExpanded`. -/
def isDirectoryExpanded (b : DirectoryBrowser) (path : Text) : Bool := path ∈ b.expandedDirectories

mutual

/-- One round of the loop of `_getFlattenedTreeItems`: the rows of an item. -/
def flattenItem (b : DirectoryBrowser) :
    ℕ → RoseTree DirectoryItem → List (DirectoryItem × ℕ)
  | depth, .node item children =>
    if !b.showHidden && item.isHidden then []
    else (item, depth) ::
      if item.isDirectory && !children.isEmpty && b.isDirectoryExpanded item.path then
        getFlattenedTreeItems b (depth + 1) children
      else []

/-- `_getFlattenedTreeItems`: the items with their `depth_level`. -/
def getFlattenedTreeItems (b : DirectoryBrowser) :
    ℕ → List (RoseTree DirectoryItem) → List (DirectoryItem × ℕ)
  | _, [] => []
  | depth, item :: treeItems => flattenItem b depth item ++ getFlattenedTreeItems b depth treeItems

end

/-- `displayItems` in the tree view. -/
def displayItems (b : DirectoryBrowser) : List (DirectoryItem × ℕ) :=
  b.getFlattenedTreeItems 0 b.treeStructure

/-- `expandAllDirectories`. -/
def expandAllDirectories (b : DirectoryBrowser) : DirectoryBrowser :=
  { b with
    expandedDirectories := b.expandedDirectories ∪
      ((b.items.filter DirectoryItem.isDirectory).map DirectoryItem.path).toFinset }

/-- The same where directories are to be expanded by default. -/
def expandByDefault (b : DirectoryBrowser) : DirectoryBrowser :=
  if b.defaultExpanded ∧ b.viewMode = .tree then b.expandAllDirectories else b

/-- Expanding the first levels keeps the path. -/
@[simp] lemma currentPath_expandByDefault (b : DirectoryBrowser) :
    b.expandByDefault.currentPath = b.currentPath := by
  unfold expandByDefault
  split_ifs <;> rfl

/-- Expanding the first levels keeps the tree. -/
@[simp] lemma treeStructure_expandByDefault (b : DirectoryBrowser) :
    b.expandByDefault.treeStructure = b.treeStructure := by
  unfold expandByDefault
  split_ifs <;> rfl

/-- Expanding the first levels keeps the setting. -/
@[simp] lemma defaultExpanded_expandByDefault (b : DirectoryBrowser) :
    b.expandByDefault.defaultExpanded = b.defaultExpanded := by
  unfold expandByDefault
  split_ifs <;> rfl

/-- Expanding the first levels keeps the setting for hidden items. -/
@[simp] lemma showHidden_expandByDefault (b : DirectoryBrowser) :
    b.expandByDefault.showHidden = b.showHidden := by
  unfold expandByDefault
  split_ifs <;> rfl

/-- `resetState`. -/
def resetState (b : DirectoryBrowser) : DirectoryBrowser :=
  { b with
    currentPath := [], scanType := none, isLoading := false, isAccessible := false
    items := [], treeStructure := [], totalItems := 0, totalFiles := 0, totalDirectories := 0
    errorMessage := none }

/-- `scanDirectory`, up to its `fetch`. -/
def scanDirectory (b : DirectoryBrowser) : DirectoryBrowser :=
  match b.scanType with
  | none => b
  | some scanType =>
    { b with
      isLoading := true
      errorMessage := none
      requests := b.requests ++ [⟨scanType, b.recursive, b.maxDepth⟩] }

/-- The rest of `scanDirectory`, when the response is there. -/
def receive (b : DirectoryBrowser) (data : DirectoryScanResult) : DirectoryBrowser :=
  let b : DirectoryBrowser :=
    { b with
      currentPath := data.path, isAccessible := data.isAccessible, items := data.items
      treeStructure := data.tree, totalItems := data.totalItems, totalFiles := data.totalFiles
      totalDirectories := data.totalDirectories, errorMessage := data.errorMessage }
  { b.expandByDefault with isLoading := false }

/-- The same if the request fails. -/
def scanFailed (b : DirectoryBrowser) (message : String) : DirectoryBrowser :=
  { b with
    errorMessage := some ("Failed to scan directory: " ++ message)
    isAccessible := false, items := [], isLoading := false }

/-- `toggleDirectory`. -/
def toggleDirectory (b : DirectoryBrowser) (directoryPath : Text) : DirectoryBrowser :=
  { b with
    expandedDirectories :=
      if b.isDirectoryExpanded directoryPath then b.expandedDirectories.erase directoryPath
      else insert directoryPath b.expandedDirectories }

/-- `toggleViewMode`. -/
def toggleViewMode (b : DirectoryBrowser) : DirectoryBrowser :=
  ({ b with viewMode := if b.viewMode = .tree then .flat else .tree } :
    DirectoryBrowser).expandByDefault

/-- `setMaxDepth`. -/
def setMaxDepth (b : DirectoryBrowser) (depth : ℤ) : DirectoryBrowser :=
  if 1 ≤ depth ∧ depth ≤ 10 then { b with maxDepth := depth } else b

end DirectoryBrowser

/-- What the user does, and the answer to the request `k`: a scan of the file system, or a
failure. -/
inductive BrowserAction
  | openBrowser (scanType : ScanType)
  | closeModal
  | scanDirectory
  | answer (k : ℕ) (fs : BrowsedFiles)
  | fail (k : ℕ) (message : String)
  | toggleDirectory (directoryPath : Text)
  | expandAllDirectories
  | collapseAllDirectories
  | toggleHidden
  | toggleRecursive
  | setMaxDepth (depth : ℤ)
  | toggleViewMode

section Steps

-- The configured directories.
variable (directoryOf : ScanType → Text)

/-- The scan that a request asks for. -/
def ScanRequest.scan (q : ScanRequest) (fs : BrowsedFiles) : DirectoryScanResult :=
  FileAgent.scanDirectory fs (directoryOf q.scanType) q.recursive q.maxDepth

/-- One step. -/
def browserStep (b : DirectoryBrowser) : BrowserAction → Option DirectoryBrowser
  | .openBrowser scanType =>
    some ({ b with scanType := some scanType, isOpen := true } : DirectoryBrowser).scanDirectory
  | .closeModal => some ({ b with isOpen := false } : DirectoryBrowser).resetState
  | .scanDirectory => some b.scanDirectory
  | .answer k fs =>
    b.requests[k]?.map fun q =>
      ({ b with requests := b.requests.eraseIdx k } : DirectoryBrowser).receive
        (q.scan directoryOf fs)
  | .fail k message =>
    b.requests[k]?.map fun _ =>
      ({ b with requests := b.requests.eraseIdx k } : DirectoryBrowser).scanFailed message
  | .toggleDirectory directoryPath => some (b.toggleDirectory directoryPath)
  | .expandAllDirectories => some b.expandAllDirectories
  | .collapseAllDirectories => some { b with expandedDirectories := ∅ }
  | .toggleHidden => some { b with showHidden := !b.showHidden }
  | .toggleRecursive => some { b with recursive := !b.recursive }
  | .setMaxDepth depth => some (b.setMaxDepth depth)
  | .toggleViewMode => some b.toggleViewMode

/-- In no sub-directory that a request has scanned an entry times out. -/
def AnswersInTime (b : DirectoryBrowser) : BrowserAction → Prop
  | .answer k fs => ∀ q, b.requests[k]? = some q →
    ¬ LateTimeout fs (directoryOf q.scanType) q.recursive q.maxDepth
  | _ => True

end Steps

/-- The result of a browser that has no answer. -/
def noScan : DirectoryScanResult := { path := [], isAccessible := false }

section Answers

variable (directoryOf : ScanType → Text)

/-- The scan that is shown after a step: that of the answer, or none when the modal is closed. -/
def scanAfter (shown : DirectoryScanResult) (e : DirectoryBrowser × BrowserAction) :
    DirectoryScanResult :=
  match e.2 with
  | .answer k fs => (e.1.requests[k]?.map fun q => q.scan directoryOf fs).getD shown
  | .closeModal => noScan
  | _ => shown

/-- The scan that was answered last, since the modal was closed. -/
def lastScan (tr : List (DirectoryBrowser × BrowserAction)) : DirectoryScanResult :=
  tr.foldl (scanAfter directoryOf) noScan

end Answers

/-- The item is hidden in its directory, and hidden items are not asked for. -/
def DirectoryBrowser.hides (b : DirectoryBrowser) (item : DirectoryItem) : Bool :=
  !b.showHidden && item.isHidden

/-- The store has the path and the tree of the scan `r`, and its rows show items of the scan, each
once, none that is hidden, and each in the directory that contains it: at depth 0 in the scanned
one, and else in that of the last row above it that is less deep, which is an expanded directory.
No item is missing: those in the scanned directory have rows, and those in an expanded directory
that has one, unless they are hidden. -/
structure RowsFaithful (b : DirectoryBrowser) (r : DirectoryScanResult) : Prop where
  path : b.currentPath = r.path
  tree : b.treeStructure = r.tree
  listed : ∀ row ∈ b.displayItems, row.1 ∈ r.items
  distinct : (b.displayItems.map fun row => row.1.path).Nodup
  visible : ∀ row ∈ b.displayItems, b.hides row.1 = false
  contained : ∀ above x e below, b.displayItems = above ++ (x, e) :: below →
    (e = 0 ∧ LiesIn x r.path) ∨
      ∃ above' p k between, above = above' ++ (p, k) :: between ∧ e = k + 1 ∧
        (∀ row ∈ between, k < row.2) ∧ p.isDirectory = true ∧
        b.isDirectoryExpanded p.path = true ∧ LiesIn x p.path
  roots : ∀ x ∈ r.items, LiesIn x r.path → b.hides x = false → (x, 0) ∈ b.displayItems
  children : ∀ p k, (p, k) ∈ b.displayItems → b.isDirectoryExpanded p.path = true →
    ∀ x ∈ r.items, LiesIn x p.path → b.hides x = false → (x, k + 1) ∈ b.displayItems

/-! ## The rows -/

section Rows

variable {b : DirectoryBrowser} {dir : Text} {r : DirectoryScanResult} {d : ℕ}
  {ts : List (RoseTree DirectoryItem)}

/-- The rows are an outline: items are shown unless they are hidden, and directories are open if
they are expanded. -/
lemma getFlattenedTreeItems_eq (b : DirectoryBrowser) (d : ℕ) (ts : List (RoseTree DirectoryItem)) :
    b.getFlattenedTreeItems d ts =
      outlineOf (fun item => !b.hides item)
        (fun item => item.isDirectory && b.isDirectoryExpanded item.path) d ts := by
  induction ts using forest_induction generalizing d with
  | nil => rw [DirectoryBrowser.getFlattenedTreeItems, outlineOf]
  | cons item children ts ihchildren ihts =>
    rw [DirectoryBrowser.getFlattenedTreeItems, DirectoryBrowser.flattenItem, outlineOf, outline,
      ihts, ihchildren]
    cases hhides : b.hides item with
    | true =>
      rw [DirectoryBrowser.hides] at hhides
      simp [hhides]
    | false =>
      rw [DirectoryBrowser.hides] at hhides
      cases children with
      | nil => simp [hhides, outlineOf]
      | cons c children => simp [hhides]

/-- A scan with a faithful tree, whose items lie below the scanned directory and have paths in their
shortest form. -/
structure FaithfulScan (r : DirectoryScanResult) : Prop extends TreeFaithful r.path r where
  below : ∀ item ∈ r.items, ∃ names, names ≠ [] ∧ Beneath r.path names item.path
  short : ∀ item ∈ r.items, (parse item.path).toText = item.path

/-- The directory that contains an item is one only. -/
lemma LiesIn.parse_eq {x : DirectoryItem} {dir' : Text} (h : LiesIn x dir) (h' : LiesIn x dir') :
    parse dir = parse dir' := by
  obtain ⟨name, hroot, hparts⟩ := h
  obtain ⟨name', hroot', hparts'⟩ := h'
  have hsame : (parse dir).parts = (parse dir').parts :=
    (List.append_inj' (hparts.symm.trans hparts') rfl).1
  exact PurePath.ext (hroot.symm.trans hroot') hsame

/-- What lies in a listed directory does not lie in the scanned one. -/
lemma FaithfulScan.not_liesIn (h : FaithfulScan r) {p x : DirectoryItem} (hp : p ∈ r.items)
    (hx : LiesIn x p.path) : ¬ LiesIn x r.path := by
  intro hroot
  obtain ⟨names, hne, -, hparts⟩ := h.below p hp
  rw [hx.parse_eq hroot] at hparts
  exact hne (List.append_cancel_left ((List.append_nil _).trans hparts)).symm

/-- What lies in the scanned directory is at the root. -/
lemma FaithfulScan.exists_root (h : FaithfulScan r) {x : DirectoryItem} (hx : x ∈ r.items)
    (hlies : LiesIn x r.path) : ∃ t ∈ r.tree, t.item = x := by
  rcases mem_nodesOf_cases (h.once.mem_iff.mpr hx) with hroot | ⟨p, hedge⟩
  · exact hroot
  · have hp : p ∈ r.items := h.once.mem_iff.mp (mem_nodesOf_of_mem_edgesOf hedge)
    exact absurd hlies (h.not_liesIn hp (h.hangs _ hedge).2)

/-- What lies in a listed directory hangs under it. -/
lemma FaithfulScan.edge (h : FaithfulScan r) {p x : DirectoryItem} (hp : p ∈ r.items)
    (hx : x ∈ r.items) (hlies : LiesIn x p.path) : (p, x) ∈ edgesOf r.tree := by
  rcases mem_nodesOf_cases (h.once.mem_iff.mpr hx) with ⟨t, ht, rfl⟩ | ⟨q, hedge⟩
  · exact absurd (h.root t ht) (h.not_liesIn hp hlies)
  · have hq : q ∈ r.items := h.once.mem_iff.mp (mem_nodesOf_of_mem_edgesOf hedge)
    have hpath : q.path = p.path := by
      rw [← h.short q hq, ← h.short p hp, (h.hangs _ hedge).2.parse_eq hlies]
    obtain rfl := List.inj_on_of_nodup_map h.distinct hq hp hpath
    exact hedge

/-- **The rows of a faithful scan.**

**Proof sketch.** The rows are an outline of the tree (`getFlattenedTreeItems_eq`), so each of them
hangs under the last row above it that is less deep (`parent_row`), and roots and children of open
nodes have rows (`root_row`, `child_row`). An item is a root or a child according to its path
(`FaithfulScan.exists_root`, `FaithfulScan.edge`). -/
lemma rowsFaithful_of_faithfulScan (h : FaithfulScan r) (hpath : b.currentPath = r.path)
    (htree : b.treeStructure = r.tree) : RowsFaithful b r := by
  have hrows : b.displayItems = outlineOf (fun item => !b.hides item)
      (fun item => item.isDirectory && b.isDirectoryExpanded item.path) 0 r.tree := by
    rw [DirectoryBrowser.displayItems, getFlattenedTreeItems_eq, htree]
  have hpaths : ((nodesOf r.tree).map DirectoryItem.path).Nodup :=
    (h.once.map DirectoryItem.path).nodup_iff.mpr h.distinct
  have hlisted : ∀ row ∈ b.displayItems, row.1 ∈ r.items := by
    intro row hrow
    rw [hrows] at hrow
    exact h.once.mem_iff.mp (mem_nodesOf hrow)
  refine ⟨hpath, htree, hlisted, ?_, ?_, ?_, ?_, ?_⟩
  · rw [hrows]
    have hsub : (outlineOf (fun item => !b.hides item)
        (fun item => item.isDirectory && b.isDirectoryExpanded item.path) 0 r.tree).map
          (fun row => row.1.path) =
        ((outlineOf (fun item => !b.hides item)
          (fun item => item.isDirectory && b.isDirectoryExpanded item.path) 0 r.tree).map
            Prod.fst).map DirectoryItem.path := by
      rw [List.map_map]
      rfl
    rw [hsub]
    exact (sublist_nodesOf.map DirectoryItem.path).nodup hpaths
  · intro row hrow
    rw [hrows] at hrow
    exact (Bool.not_eq_true' _).mp (shown_of_mem hrow)
  · intro above x e below hsplit
    rw [hrows] at hsplit
    rcases parent_row hsplit with ⟨rfl, t, ht, rfl⟩ |
      ⟨above', p, k, between, rfl, hk, hbetween, hopen, hedge⟩
    · exact Or.inl ⟨rfl, h.root t ht⟩
    · obtain ⟨hdir, hexpanded⟩ := (Bool.and_eq_true _ _).mp hopen
      exact Or.inr ⟨above', p, k, between, rfl, hk, hbetween, hdir, hexpanded, (h.hangs _ hedge).2⟩
  · intro x hx hlies hshown
    obtain ⟨t, ht, rfl⟩ := h.exists_root hx hlies
    rw [hrows]
    exact root_row ht (by rw [hshown]; rfl)
  · intro p k hp hexpanded x hx hlies hshown
    have hedge := h.edge (hlisted _ hp) hx hlies
    rw [hrows] at hp ⊢
    refine child_row hpaths.of_map hp ?_ hedge (by rw [hshown]; rfl)
    rw [(h.hangs _ hedge).1, hexpanded]
    rfl

end Rows

/-! ## The scans -/

section Scans

variable {fs : BrowsedFiles} {dir name : Text} {d : ℕ} {item x : DirectoryItem}
  {items : List DirectoryItem} {scan : Option (Text → Except String DirectoryScanResult)}

/-- The item has the path of an entry. It has no parent, or was found in the directory itself, or in
a sub-directory that is not hidden. -/
structure Listed (dir : Text) (d : ℕ) (items : List DirectoryItem) (item : DirectoryItem) :
    Prop where
  path : ∃ parent name, item.path = itemPath parent name
  parent : item.depthLevel = 0 ∨ (item.depthLevel = d ∧ item.parentPath = some dir) ∨
    ∃ p ∈ items, p.isDirectory = true ∧ p.isHidden = false ∧ item.parentPath = some p.path

/-- The item of an entry is listed in its directory. -/
lemma listed_entryItem (h : entryItem fs dir d name = some item) : Listed dir d items item := by
  refine ⟨⟨dir, name, path_of_entryItem h⟩, ?_⟩
  rcases entryItem_cases h with ⟨-, rfl⟩ | ⟨stat, -, -, -, -, hparent, hdepth⟩
  · exact Or.inl rfl
  · exact Or.inr (Or.inl ⟨hdepth, hparent⟩)

/-- Hidden sub-directories are not scanned.

**Proof sketch.** An item of the level is listed by its entry. One from below was listed there;
its parent is the sub-directory scanned or an item below it, and the sub-directory is an item of
the level that is not hidden, since hidden ones are not scanned. -/
lemma listed_levelItems {entries : List Text}
    (hscan : ∀ f, scan = some f → ∀ sub, ∀ item ∈ itemsFound (f sub),
      Listed sub (d + 1) (itemsFound (f sub)) item) :
    ∀ item ∈ levelItems fs dir d scan entries,
      Listed dir d (levelItems fs dir d scan entries) item := by
  intro item hitem
  cases scan with
  | none =>
    obtain ⟨name, -, h⟩ := List.mem_filterMap.mp hitem
    exact listed_entryItem h
  | some f =>
    rcases List.mem_append.mp hitem with hitem | hitem
    · obtain ⟨name, -, h⟩ := List.mem_filterMap.mp hitem
      exact listed_entryItem h
    · obtain ⟨sub, hsub, hitem⟩ := List.mem_flatMap.mp hitem
      obtain ⟨hlevel, hflags⟩ := List.mem_filter.mp hsub
      obtain ⟨hdir, hhidden⟩ := Bool.and_eq_true_iff.mp hflags
      have hbelow : subdirectoryItems fs f sub = itemsFound (f sub.path) := by
        unfold subdirectoryItems at hitem ⊢
        split_ifs at hitem ⊢
        · cases hitem
        · rfl
      rw [hbelow] at hitem
      obtain ⟨hpath, hparent⟩ := hscan f rfl sub.path item hitem
      refine ⟨hpath, ?_⟩
      rcases hparent with hzero | ⟨-, hparent⟩ | ⟨p, hp, hrest⟩
      · exact Or.inl hzero
      · refine Or.inr (Or.inr ⟨sub, List.mem_append_left _ hlevel, hdir, ?_, hparent⟩)
        exact (Bool.not_eq_true' _).mp hhidden
      · refine Or.inr (Or.inr ⟨p, List.mem_append_right _ (List.mem_flatMap.mpr ⟨sub, hsub, ?_⟩),
          hrest⟩)
        rw [hbelow]
        exact hp

/-- Every item of a level is listed in the directory it names, if this is so below. -/
lemma listed_scanLevel
    (hgathered : ∀ f, scan = some f → ∀ sub, Gathered sub (d + 1) (itemsFound (f sub)))
    (hscan : ∀ f, scan = some f → ∀ sub, ∀ item ∈ itemsFound (f sub),
      Listed sub (d + 1) (itemsFound (f sub)) item) :
    ∀ item ∈ itemsFound (scanLevel fs dir d scan),
      Listed dir d (itemsFound (scanLevel fs dir d scan)) item := by
  by_cases hentries : ∃ entries, Entries fs dir entries
  · obtain ⟨entries, hentries⟩ := hentries
    rw [itemsFound_scanLevel hentries hgathered]
    exact listed_levelItems hscan
  · rw [itemsFound_scanLevel_of_not (not_exists.mp hentries)]
    exact fun item hitem => absurd hitem List.not_mem_nil

/-- **What a scan finds is listed with its parent.**

**Proof sketch.** Induction on the levels left. -/
lemma listed_performDirectoryScan (recursive : Bool) (levels : ℕ) (dir : Text) (d : ℕ) :
    ∀ item ∈ itemsFound (performDirectoryScan fs recursive levels dir d),
      Listed dir d (itemsFound (performDirectoryScan fs recursive levels dir d)) item := by
  induction levels generalizing dir d with
  | zero =>
    rw [performDirectoryScan_eq]
    refine listed_scanLevel (fun f hf => gathered_subscan hf) fun f hf => ?_
    cases hf
  | succ levels ih =>
    rw [performDirectoryScan_eq]
    refine listed_scanLevel (fun f hf => gathered_subscan hf) fun f hf sub => ?_
    rw [subscanOf] at hf
    split_ifs at hf
    cases hf
    exact ih sub (d + 1)

/-- The result of a scan: it is without items, or has gathered them. -/
lemma scanDirectory_cases (fs : BrowsedFiles) (dir : Text) (recursive : Bool) (maxDepth : ℤ) :
    (∃ message, scanDirectory fs dir recursive maxDepth = .inaccessible dir message) ∨
      ∃ items, scanDirectory fs dir recursive maxDepth = .found dir items ∧ Gathered dir 0 items ∧
        ∀ item ∈ items, Listed dir 0 items item := by
  unfold scanDirectory
  split_ifs
  · exact Or.inl ⟨_, rfl⟩
  · exact Or.inl ⟨_, rfl⟩
  · have hgathered : Gathered dir 0
        (itemsFound (performDirectoryScan fs recursive maxDepth.toNat dir 0)) :=
      gathered_performDirectoryScan recursive maxDepth.toNat dir 0
    have hlisted : ∀ item ∈ itemsFound (performDirectoryScan fs recursive maxDepth.toNat dir 0),
        Listed dir 0 (itemsFound (performDirectoryScan fs recursive maxDepth.toNat dir 0))
          item := listed_performDirectoryScan recursive maxDepth.toNat dir 0
    rw [performDirectoryScan_eq] at hgathered hlisted ⊢
    rcases scanLevel_cases fs dir 0 (subscanOf fs recursive 0 maxDepth.toNat) with
      ⟨entries, hentries, heq⟩ | ⟨-, ⟨message, heq⟩ | ⟨message, heq⟩⟩
    · rw [itemsFound_scanLevel hentries fun f hf => gathered_subscan hf] at hgathered hlisted
      rw [heq]
      exact Or.inr ⟨_, rfl, hgathered, hlisted⟩
    · rw [heq]
      exact Or.inl ⟨message, rfl⟩
    · rw [heq]
      exact Or.inl ⟨message, rfl⟩

/-- A scan answers with the path it was asked for. -/
lemma path_scanDirectory (fs : BrowsedFiles) (dir : Text) (recursive : Bool) (maxDepth : ℤ) :
    (scanDirectory fs dir recursive maxDepth).path = dir := by
  rcases scanDirectory_cases fs dir recursive maxDepth with
    ⟨message, heq⟩ | ⟨items, heq, hgathered, -⟩
  · rw [heq]
    rfl
  · rw [heq, hgathered.found_eq]

/-- The items of a scan are the nodes of its tree. -/
lemma nodesOf_scanDirectory (fs : BrowsedFiles) (dir : Text) (recursive : Bool) (maxDepth : ℤ) :
    (nodesOf (scanDirectory fs dir recursive maxDepth).tree).Perm
      (scanDirectory fs dir recursive maxDepth).items := by
  rcases scanDirectory_cases fs dir recursive maxDepth with
    ⟨message, heq⟩ | ⟨items, heq, hgathered, -⟩
  · rw [heq]
    exact List.Perm.refl _
  · rw [heq, hgathered.found_eq]
    exact FlatForest.perm_nodes hgathered.wellPlaced

/-- **What has children in the tree of a scan** is a directory that is not hidden. -/
lemma parent_scanDirectory {recursive : Bool} {maxDepth : ℤ} {e : DirectoryItem × DirectoryItem}
    (he : e ∈ edgesOf (scanDirectory fs dir recursive maxDepth).tree) :
    e.1 ∈ (scanDirectory fs dir recursive maxDepth).items ∧ e.1.isDirectory = true ∧
      e.1.isHidden = false := by
  rcases scanDirectory_cases fs dir recursive maxDepth with
    ⟨message, heq⟩ | ⟨items, heq, hgathered, hlisted⟩
  · rw [heq] at he
    cases he
  · rw [heq, hgathered.found_eq] at he ⊢
    obtain ⟨hmem, hchild⟩ := FlatForest.mem_edges he
    obtain ⟨hinner, hitem, hparent⟩ := FlatForest.mem_childrenOf.mp hchild
    refine ⟨hmem, hinner, ?_⟩
    have hdeep : e.2.depthLevel ≠ 0 := by
      intro hzero
      rw [parent_itemForest_eq_none_iff.mpr hzero] at hparent
      cases hparent
    rw [parent_itemForest hdeep, Option.some.injEq] at hparent
    rcases (hlisted e.2 hitem).parent with hzero | ⟨hzero, -⟩ | ⟨p, hp, -, hhidden, hpath⟩
    · exact absurd hzero hdeep
    · exact absurd hzero hdeep
    · rw [hpath, Option.getD_some] at hparent
      have hsame : p = e.1 := List.inj_on_of_nodup_map hgathered.nodup hp hmem hparent
      exact hsame ▸ hhidden

/-- **A scan in time is faithful.**

**Proof sketch.** The tree is faithful by `treeFaithful_iff`. The items of a scan are gathered, so
each lies below the directory scanned, and their paths are made by joining, so they are as short
as paths are read. -/
lemma faithfulScan_scanDirectory {recursive : Bool} {maxDepth : ℤ}
    (h : ¬ LateTimeout fs dir recursive maxDepth) :
    FaithfulScan (scanDirectory fs dir recursive maxDepth) where
  toTreeFaithful := by
    rw [path_scanDirectory]
    exact (treeFaithful_iff fs dir recursive maxDepth).mpr h
  below := by
    intro item hitem
    rw [path_scanDirectory]
    rcases scanDirectory_cases fs dir recursive maxDepth with
      ⟨message, heq⟩ | ⟨items, heq, hgathered, -⟩
    · rw [heq] at hitem
      cases hitem
    · rw [heq, hgathered.found_eq] at hitem
      obtain ⟨names, hne, hbelow, -⟩ := hgathered.placed item hitem
      exact ⟨names, hne, hbelow⟩
  short := by
    intro item hitem
    rcases scanDirectory_cases fs dir recursive maxDepth with
      ⟨message, heq⟩ | ⟨items, heq, hgathered, hlisted⟩
    · rw [heq] at hitem
      cases hitem
    · rw [heq, hgathered.found_eq] at hitem
      obtain ⟨parent, name, hpath⟩ := (hlisted item hitem).path
      rw [hpath, itemPath, parse_toText_eq]

end Scans

/-! ## Runs -/

section Runs

variable {directoryOf : ScanType → Text} {b b' : DirectoryBrowser} {a : BrowserAction}
  {data : DirectoryScanResult} {q : ScanRequest} {fs : BrowsedFiles} {k : ℕ}
  {tr : List (DirectoryBrowser × BrowserAction)}

/-- The store shows a scan that is faithful. -/
structure ShowsScan (b : DirectoryBrowser) (r : DirectoryScanResult) : Prop where
  path : b.currentPath = r.path
  tree : b.treeStructure = r.tree
  faithful : FaithfulScan r

/-- A browser without a path and a tree shows no scan. -/
lemma showsScan_noScan (hpath : b.currentPath = []) (htree : b.treeStructure = []) :
    ShowsScan b noScan where
  path := hpath
  tree := htree
  faithful :=
    { distinct := List.nodup_nil
      once := List.Perm.refl _
      hangs := fun _ he => absurd he List.not_mem_nil
      root := fun _ ht => absurd ht List.not_mem_nil
      below := fun _ hitem => absurd hitem List.not_mem_nil
      short := fun _ hitem => absurd hitem List.not_mem_nil }

/-- A step that leaves the tree as it is. -/
lemma ShowsScan.congr (h : ShowsScan b data) (hpath : b'.currentPath = b.currentPath)
    (htree : b'.treeStructure = b.treeStructure) : ShowsScan b' data :=
  ⟨hpath.trans h.path, htree.trans h.tree, h.faithful⟩

/-- Asking for a scan keeps what is shown. -/
lemma showsScan_scanDirectory (h : ShowsScan b data) : ShowsScan b.scanDirectory data := by
  unfold DirectoryBrowser.scanDirectory
  cases b.scanType with
  | none => exact h
  | some scanType => exact h.congr rfl rfl

/-- A browser shows the scan it has just received. -/
lemma showsScan_receive (b : DirectoryBrowser) (hfaithful : FaithfulScan data) :
    ShowsScan (b.receive data) data where
  path := by simp [DirectoryBrowser.receive]
  tree := by simp [DirectoryBrowser.receive]
  faithful := hfaithful

/-- **The step lemma**: the path and the tree are replaced together, by an answer or when the modal
is closed.

**Proof sketch.** By cases on the action. An answer puts the path and the tree of its scan in
place (`showsScan_receive`), and closing the modal empties both; asking for a scan, an error and
the view's own settings touch neither. -/
theorem showsScan_step (h : ShowsScan b data) (hok : AnswersInTime directoryOf b a)
    (hs : browserStep directoryOf b a = some b') :
    ShowsScan b' (scanAfter directoryOf data (b, a)) := by
  cases a with
  | openBrowser scanType =>
    obtain rfl := Option.some.inj hs
    exact showsScan_scanDirectory (h.congr rfl rfl)
  | closeModal =>
    obtain rfl := Option.some.inj hs
    exact showsScan_noScan rfl rfl
  | scanDirectory =>
    obtain rfl := Option.some.inj hs
    exact showsScan_scanDirectory h
  | answer k fs =>
    obtain ⟨q, hq, rfl⟩ := Option.map_eq_some_iff.mp hs
    have hscan : scanAfter directoryOf data (b, .answer k fs) = q.scan directoryOf fs := by
      simp [scanAfter, hq]
    rw [hscan]
    exact showsScan_receive _ (faithfulScan_scanDirectory (hok q hq))
  | fail k message =>
    obtain ⟨q, -, rfl⟩ := Option.map_eq_some_iff.mp hs
    exact h.congr rfl rfl
  | setMaxDepth depth =>
    obtain rfl := Option.some.inj hs
    unfold DirectoryBrowser.setMaxDepth
    split_ifs
    · exact h.congr rfl rfl
    · exact h
  | toggleViewMode =>
    obtain rfl := Option.some.inj hs
    refine ShowsScan.congr (b := b) h ?_ ?_ <;> simp [DirectoryBrowser.toggleViewMode]
  | toggleDirectory _ | expandAllDirectories | collapseAllDirectories | toggleHidden |
    toggleRecursive =>
    obtain rfl := Option.some.inj hs
    exact h.congr rfl rfl

/-- **The rows are faithful**: whatever the user does, and in whatever order the requests are
answered, the store has the path and the tree of the scan that was answered last since the modal was
closed, and the tree view shows the items of that scan: none twice, each under the directory that
contains it, and all that are not hidden or in a collapsed directory; provided that no entry of a
sub-directory has timed out in a scan.

**Proof sketch.** The tree and its path are replaced together (`showsScan_step`), by those of a scan
that is faithful (`faithfulScan_scanDirectory`), and `rowsFaithful_of_faithfulScan` reads the rows
off. -/
theorem rows_faithful (hrun : Run (browserStep directoryOf) {} tr b)
    (hok : Meets (AnswersInTime directoryOf) tr) : RowsFaithful b (lastScan directoryOf tr) := by
  have hshows : ShowsScan b (lastScan directoryOf tr) :=
    hrun.invariant_trace (I := fun tr b => ShowsScan b (lastScan directoryOf tr)) hok
      (showsScan_noScan rfl rfl) fun tr s a s' h hok hs => by
        rw [lastScan, List.foldl_concat]
        exact showsScan_step h hok hs
  exact rowsFaithful_of_faithfulScan hshows.faithful hshows.path hshows.tree

/-- Nothing changes `defaultExpanded`.

**Proof sketch.** By cases on the action. The scan, the depth and the view mode are set by cases
on what the store has; none of them touches the flag. -/
lemma defaultExpanded_step (hs : browserStep directoryOf b a = some b') :
    b'.defaultExpanded = b.defaultExpanded := by
  cases a with
  | openBrowser scanType =>
    obtain rfl := Option.some.inj hs
    rfl
  | scanDirectory =>
    obtain rfl := Option.some.inj hs
    unfold DirectoryBrowser.scanDirectory
    cases b.scanType <;> rfl
  | answer k fs =>
    obtain ⟨q, -, rfl⟩ := Option.map_eq_some_iff.mp hs
    simp [DirectoryBrowser.receive]
  | fail k message =>
    obtain ⟨q, -, rfl⟩ := Option.map_eq_some_iff.mp hs
    rfl
  | setMaxDepth depth =>
    obtain rfl := Option.some.inj hs
    unfold DirectoryBrowser.setMaxDepth
    split_ifs <;> rfl
  | toggleViewMode =>
    obtain rfl := Option.some.inj hs
    simp [DirectoryBrowser.toggleViewMode]
  | closeModal | toggleDirectory _ | expandAllDirectories | collapseAllDirectories | toggleHidden |
    toggleRecursive =>
    obtain rfl := Option.some.inj hs
    rfl

/-- Directories of an answer are expanded. -/
lemma isDirectoryExpanded_receive {item : DirectoryItem} (hdefault : b.defaultExpanded = true)
    (hmode : b.viewMode = .tree) (hitem : item ∈ data.items) (hdir : item.isDirectory = true) :
    (b.receive data).isDirectoryExpanded item.path = true := by
  have hpath : item.path ∈ ((data.items.filter DirectoryItem.isDirectory).map
      DirectoryItem.path).toFinset :=
    List.mem_toFinset.mpr (List.mem_map.mpr ⟨item, List.mem_filter.mpr ⟨hitem, hdir⟩, rfl⟩)
  simp only [DirectoryBrowser.receive, DirectoryBrowser.expandByDefault]
  rw [if_pos ⟨hdefault, hmode⟩]
  exact decide_eq_true (Finset.mem_union_right _ hpath)

/-- The rows of an answer. -/
lemma map_fst_displayItems_receive (hdefault : b.defaultExpanded = true)
    (hmode : b.viewMode = .tree) :
    (b.receive (q.scan directoryOf fs)).displayItems.map Prod.fst =
      (nodesOf (q.scan directoryOf fs).tree).filter
        fun item => b.showHidden || !item.isHidden := by
  have hhides : ∀ item, (b.receive (q.scan directoryOf fs)).hides item =
      (!b.showHidden && item.isHidden) := by
    intro item
    simp [DirectoryBrowser.hides, DirectoryBrowser.receive]
  have htree : (b.receive (q.scan directoryOf fs)).treeStructure =
      (q.scan directoryOf fs).tree := by simp [DirectoryBrowser.receive]
  rw [DirectoryBrowser.displayItems, getFlattenedTreeItems_eq, htree, map_fst_outlineOf]
  · simp only [hhides, Bool.not_and, Bool.not_not]
  · intro e he
    obtain ⟨hitem, hdir, hhidden⟩ := parent_scanDirectory he
    have hexpanded : (b.receive (q.scan directoryOf fs)).isDirectoryExpanded e.1.path = true :=
      isDirectoryExpanded_receive hdefault hmode hitem hdir
    rw [hhides, hhidden, hdir, hexpanded, Bool.and_false]
    exact ⟨rfl, rfl⟩

/-- **An answer is shown completely**: in the tree view, the rows after an answer are those of all
items of the scan, but for the hidden ones unless they are asked for.

**Proof sketch.** All directories of the answer are expanded, and only directories that are not
hidden have children. -/
theorem answer_shows_all (hrun : Run (browserStep directoryOf) {} tr b)
    (hs : browserStep directoryOf b (.answer k fs) = some b') (hq : b.requests[k]? = some q)
    (hmode : b.viewMode = .tree) :
    (b'.displayItems.map Prod.fst).Perm
      ((q.scan directoryOf fs).items.filter fun item => b.showHidden || !item.isHidden) := by
  have hok : Meets (fun _ _ => True) tr := fun _ _ => trivial
  have hdefault : b.defaultExpanded = true :=
    hrun.invariant (I := fun b => b.defaultExpanded = true) hok rfl
      fun _ _ _ h _ hs => (defaultExpanded_step hs).trans h
  obtain ⟨q', hq', rfl⟩ := Option.map_eq_some_iff.mp hs
  obtain rfl := Option.some.inj (hq.symm.trans hq')
  have hdefault : ({ b with requests := b.requests.eraseIdx k } :
    DirectoryBrowser).defaultExpanded = true := hdefault
  refine (List.Perm.of_eq (map_fst_displayItems_receive hdefault hmode)).trans ?_
  exact (nodesOf_scanDirectory fs _ q.recursive q.maxDepth).filter _

/-- Where the metadata can always be had, no entry times out. -/
lemma not_timedOutIn (hstat : ∀ path, fs.stat path ≠ .timeout) (levels : ℕ) (dir : Text) :
    ¬ TimedOutIn fs levels dir := by
  have hentry : ∀ dir, ¬ EntryTimesOut fs dir := by
    rintro dir ⟨entries, name, -, -, htimeout⟩
    exact hstat _ htimeout
  induction levels generalizing dir with
  | zero => exact hentry dir
  | succ levels ih =>
    rintro (h | ⟨sub, -, h⟩)
    · exact hentry dir h
    · exact ih sub h

/-- The directory `/in` with a sub-directory. -/
def twoLevels : BrowsedFiles where
  pathExists _ := .ok true
  isDir _ := .ok true
  listDir dir :=
    if dir = "/in".toList then .ok ["a".toList, "b".toList]
    else if dir = "/in/a".toList then .ok ["c".toList] else .ok []
  stat path := .ok { isDirectory := path = "/in/a".toList, size := 0 }
  scanTimesOut _ := false
  listing_nodup := by
    intro dir entries h
    split_ifs at h <;> cases h <;> decide
  listing_names := by
    intro dir entries h
    have hname : ∀ c : Char, c ≠ '.' → c ≠ '/' → IsEntryName [c] := by
      intro c hdot hslash
      exact ⟨⟨by simp, by simp [hdot], by simp [hslash.symm]⟩, by simp⟩
    split_ifs at h <;> cases h <;> simp [hname]

/-- Its browsing: the destination is asked for as well, and answered first. -/
def browseTwoLevels : List BrowserAction :=
  [.openBrowser .destination, .closeModal, .openBrowser .source, .answer 0 twoLevels,
    .answer 0 twoLevels]

/-- The files go from `/in` to its sub-directory. -/
def nestedDirectories : ScanType → Text
  | .source => "/in".toList
  | .destination => "/in/a".toList

/-- The answers of the example arrive in time. -/
lemma answersInTime_twoLevels {p : DirectoryBrowser × BrowserAction} (hp : p.2 ∈ browseTwoLevels) :
    AnswersInTime nestedDirectories p.1 p.2 := by
  obtain ⟨b, a⟩ := p
  have hanswer : AnswersInTime nestedDirectories b (.answer 0 twoLevels) := by
    rintro q - ⟨-, -, levels, -, sub, -, h⟩
    exact not_timedOutIn (fun _ h => (by cases h)) levels sub h
  simp only [browseTwoLevels, List.mem_cons, List.not_mem_nil, or_false] at hp
  rcases hp with rfl | rfl | rfl | rfl | rfl
  · trivial
  · trivial
  · trivial
  · exact hanswer
  · exact hanswer

/-- The rows are those of the answer to the second request. -/
theorem rows_faithful_twoLevels :
    ∃ tr b, Run (browserStep nestedDirectories) {} tr b ∧ tr.map Prod.snd = browseTwoLevels ∧
      b.displayItems.map (fun r => (r.1.path, r.2)) =
        [("/in/a".toList, 0), ("/in/a/c".toList, 1), ("/in/b".toList, 0)] ∧
      lastScan nestedDirectories tr = scanDirectory twoLevels "/in".toList true 3 ∧
      RowsFaithful b (lastScan nestedDirectories tr) := by
  have htest : (replay (browserStep nestedDirectories) {} browseTwoLevels).any (fun b =>
      b.displayItems.map (fun r => (r.1.path, r.2)) =
        [("/in/a".toList, 0), ("/in/a/c".toList, 1), ("/in/b".toList, 0)]) = true := by
    decide +kernel
  obtain ⟨b, hreplay, hb⟩ := (Option.any_eq_true _ _).mp htest
  have hactions := map_snd_traceOf hreplay
  have hscan : lastScan nestedDirectories
      (traceOf (browserStep nestedDirectories) {} browseTwoLevels) =
        scanDirectory twoLevels "/in".toList true 3 := rfl
  refine ⟨_, b, .of_replay hreplay, hactions, of_decide_eq_true hb, hscan, ?_⟩
  refine rows_faithful (.of_replay hreplay) fun p hp => answersInTime_twoLevels ?_
  rw [← hactions]
  exact List.mem_map.mpr ⟨p, hp, rfl⟩

/-- Both directories are `/in`. -/
def onlyDirectory (_ : ScanType) : Text := "/in".toList

/-- The browser that has been opened for the source directory. -/
def openedBrowser : DirectoryBrowser :=
  { isOpen := true, scanType := some .source, isLoading := true
    requests := [{ scanType := .source, recursive := true, maxDepth := 3 }] }

/-- The rows after the answer about two levels. -/
theorem answer_shows_all_twoLevels :
    ∃ b' : DirectoryBrowser,
      browserStep onlyDirectory openedBrowser (.answer 0 twoLevels) = some b' ∧
      (b'.displayItems.map Prod.fst).Perm
        ((scanDirectory twoLevels "/in".toList true 3).items.filter
          fun item => openedBrowser.showHidden || !item.isHidden) := by
  have hopen : browserStep onlyDirectory {} (.openBrowser .source) = some openedBrowser := rfl
  obtain ⟨b', hs⟩ : ∃ b', browserStep onlyDirectory openedBrowser (.answer 0 twoLevels) = some b' :=
    ⟨_, rfl⟩
  have hq : openedBrowser.requests[0]? = some ⟨.source, true, 3⟩ := rfl
  exact ⟨b', hs, answer_shows_all (.snoc .start hopen) hs hq rfl⟩

end Runs

end FileAgent
