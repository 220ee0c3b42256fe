import FileAgent.Library.ParentForest
import FileAgent.Library.PosixPath

set_option relaxedAutoImplicit false
set_option autoImplicit false

/-!
# Browsing a directory

`DirectoryScannerService` of `app/domains/directory_browsing/service.py` gathers the entries of a
directory and of those below it in a flat list, and `DirectoryScanResult` of `models.py` grows a
tree from the list. An entry whose metadata cannot be had in time is listed by its name alone, as if
it were in the scanned directory itself. The duration of a scan is left out.

## Main definitions

* `BrowsedFiles` — the file system, with the operations that time out.
* `DirectoryItem`, `DirectoryScanResult` — an entry, and the result of a scan.
* `performDirectoryScan`, `scanDirectory` — the scan.
* `TreeFaithful` — the tree shows each item under the directory that contains it.
* `LateTimeout` — an entry below a sub-directory that is scanned times out.

## Main results

* `treeFaithful_iff` — when the tree is faithful.
-/

namespace FileAgent

open PosixPath ParentForest

/-! ## The file system -/

/-- How an operation of the file system ends that is given limited time. -/
inductive Probe (α : Type)
  | ok (a : α)
  | timeout
  | raises (message : String)

/-- `os.stat`, with the times that `fromtimestamp` makes of it, if it makes both. -/
structure StatResult where
  isDirectory : Bool
  size : ℕ
  times : Option (ℤ × ℤ) := none

/-- The file system during a scan: what its operations answer, by path, and which scans do not end
in time. A listing has the names of its entries, each once. -/
structure BrowsedFiles where
  pathExists : Text → Probe Bool
  isDir : Text → Probe Bool
  listDir : Text → Probe (List Text)
  stat : Text → Probe StatResult
  scanTimesOut : Text → Bool
  listing_nodup : ∀ dir entries, listDir dir = .ok entries → entries.Nodup
  listing_names : ∀ dir entries, listDir dir = .ok entries → ∀ name ∈ entries, IsEntryName name

/-! ## Items -/

/-- `DirectoryItem`. Its children are in the tree, see `RoseTree`. -/
structure DirectoryItem where
  name : Text
  path : Text
  isDirectory : Bool
  isHidden : Bool := false
  sizeBytes : Option ℕ := none
  createdTime : Option ℤ := none
  modifiedTime : Option ℤ := none
  parentPath : Option Text := none
  depthLevel : ℕ := 0
  relativePath : Text := []
  deriving DecidableEq

/-- `str(Path(parent_path) / item_name)`. -/
def itemPath (parentPath itemName : Text) : Text :=
  ((parse parentPath).joined (parse itemName)).toText

/-- `item_name.startswith(".")`. -/
def isHiddenName (itemName : Text) : Bool := itemName.head? = some '.'

/-- `relative_path`. -/
def relativePathOf (parentPath itemName : Text) (scanRoot : Option Text) : Text :=
  match scanRoot with
  | none => itemName
  | some root =>
    if root = [] then itemName
    else
      match ((parse parentPath).joined (parse itemName)).relativeTo (parse root) with
      | some path => path.toText
      | none => itemPath parentPath itemName

/-- `_get_item_metadata`. There is no item if `stat` raises. -/
def getItemMetadata (fs : BrowsedFiles) (parentPath itemName : Text) (scanRoot : Option Text)
    (currentDepth : ℕ) : Probe (Option DirectoryItem) :=
  match fs.stat (itemPath parentPath itemName) with
  | .raises _ => .ok none
  | .timeout => .timeout
  | .ok stat =>
    .ok (some
      { name := itemName
        path := itemPath parentPath itemName
        isDirectory := stat.isDirectory
        isHidden := isHiddenName itemName
        sizeBytes := if stat.isDirectory then none else some stat.size
        createdTime := stat.times.map Prod.fst
        modifiedTime := stat.times.map Prod.snd
        parentPath := some parentPath
        depthLevel := currentDepth
        relativePath := relativePathOf parentPath itemName scanRoot })

/-- The item without metadata. -/
def basicItem (directoryPath entryName : Text) : DirectoryItem where
  name := entryName
  path := itemPath directoryPath entryName
  isDirectory := false
  isHidden := isHiddenName entryName

/-- The item of an entry, if it has one. -/
def entryItem (fs : BrowsedFiles) (directoryPath : Text) (currentDepth : ℕ) (entryName : Text) :
    Option DirectoryItem :=
  match getItemMetadata fs directoryPath entryName
    (if currentDepth = 0 then some directoryPath else none) currentDepth with
  | .ok item => item
  | .timeout => some (basicItem directoryPath entryName)
  | .raises _ => none

/-! ## The tree -/

/-- The items as the nodes of a forest: those on level zero are at the root, the others are grouped
by `parent_path`, and only directories are given children. -/
def itemForest (items : List DirectoryItem) : FlatForest DirectoryItem Text where
  items := items
  key := DirectoryItem.path
  parent item := if item.depthLevel = 0 then none else some (item.parentPath.getD [])
  inner := DirectoryItem.isDirectory

/-- `_build_tree_structure`. There is no tree if the recursion does not end. -/
def buildTreeStructure (items : List DirectoryItem) : Option (List (RoseTree DirectoryItem)) :=
  (itemForest items).build

/-- `DirectoryScanResult`. -/
structure DirectoryScanResult where
  path : Text
  isAccessible : Bool
  items : List DirectoryItem := []
  tree : List (RoseTree DirectoryItem) := []
  totalItems : ℕ := 0
  totalFiles : ℕ := 0
  totalDirectories : ℕ := 0
  errorMessage : Option String := none

namespace DirectoryScanResult

/-- The result of a scan that fails. -/
def inaccessible (path : Text) (message : String) : DirectoryScanResult where
  path := path
  isAccessible := false
  errorMessage := some message

/-- The result with the items found. -/
def found (path : Text) (items : List DirectoryItem) : DirectoryScanResult :=
  match buildTreeStructure items with
  | none => inaccessible path "Failed to list directory contents: maximum recursion depth exceeded"
  | some tree =>
    { path := path
      isAccessible := true
      items := items
      tree := tree
      totalItems := items.length
      totalFiles := items.countP fun item => !item.isDirectory
      totalDirectories := items.countP fun item => item.isDirectory }

end DirectoryScanResult

/-! ## The scan -/

/-- The items that a scan has found. -/
def itemsFound : Except String DirectoryScanResult → List DirectoryItem
  | .ok result => if result.isAccessible then result.items else []
  | .error _ => []

/-- The items of a sub-directory, by its scan. -/
def subdirectoryItems (fs : BrowsedFiles) (scan : Text → Except String DirectoryScanResult)
    (subdir : DirectoryItem) : List DirectoryItem :=
  if fs.scanTimesOut subdir.path then [] else itemsFound (scan subdir.path)

/-- The items of the entries of a directory, and those of its sub-directories. There is no scan for
sub-directories on the last level. -/
def levelItems (fs : BrowsedFiles) (directoryPath : Text) (currentDepth : ℕ)
    (scan : Option (Text → Except String DirectoryScanResult)) (dirEntries : List Text) :
    List DirectoryItem :=
  let items := dirEntries.filterMap (entryItem fs directoryPath currentDepth)
  let subdirectories := items.filter fun item => item.isDirectory && !item.isHidden
  match scan with
  | none => items
  | some scan => items ++ subdirectories.flatMap (subdirectoryItems fs scan)

/-- `_perform_directory_scan` within the depth limit. -/
def scanLevel (fs : BrowsedFiles) (directoryPath : Text) (currentDepth : ℕ)
    (scan : Option (Text → Except String DirectoryScanResult)) :
    Except String DirectoryScanResult :=
  match fs.pathExists directoryPath with
  | .raises message => .error message
  | .timeout => .ok (.inaccessible directoryPath "Directory accessibility check timed out")
  | .ok false => .ok (.inaccessible directoryPath "Directory does not exist")
  | .ok true =>
    match fs.isDir directoryPath with
    | .raises message => .error message
    | .timeout => .ok (.inaccessible directoryPath "Directory accessibility check timed out")
    | .ok false => .ok (.inaccessible directoryPath "Path is not a directory")
    | .ok true =>
      match fs.listDir directoryPath with
      | .raises message =>
        .ok (.inaccessible directoryPath ("Failed to list directory contents: " ++ message))
      | .timeout => .ok (.inaccessible directoryPath "Directory listing timed out")
      | .ok dirEntries =>
        .ok (.found directoryPath (levelItems fs directoryPath currentDepth scan dirEntries))

/-- `_perform_directory_scan`, with the number of levels left under the depth limit. -/
def performDirectoryScan (fs : BrowsedFiles) (recursive : Bool) :
    ℕ → Text → ℕ → Except String DirectoryScanResult
  | 0, directoryPath, currentDepth => scanLevel fs directoryPath currentDepth none
  | levels + 1, directoryPath, currentDepth =>
    scanLevel fs directoryPath currentDepth
      (if recursive then
          some fun path => performDirectoryScan fs recursive levels path (currentDepth + 1)
        else none)

/-- `_scan_directory`. -/
def scanDirectory (fs : BrowsedFiles) (directoryPath : Text) (recursive : Bool := true)
    (maxDepth : ℤ := 3) : DirectoryScanResult :=
  if fs.scanTimesOut directoryPath then .inaccessible directoryPath "Scan timed out after 30.0s"
  else if maxDepth < 0 then
    .inaccessible directoryPath
      ("Maximum scan depth (" ++ toString maxDepth ++ ") exceeded")
  else
    match performDirectoryScan fs recursive maxDepth.toNat directoryPath 0 with
    | .ok result => result
    | .error message => .inaccessible directoryPath message

/-! ## Faithful trees -/

/-- The names lead from the directory `dir` to `path`. -/
def Beneath (dir : Text) (names : List Text) (path : Text) : Prop :=
  (parse path).root = (parse dir).root ∧ (parse path).parts = (parse dir).parts ++ names

/-- The item lies directly in the directory. -/
def LiesIn (item : DirectoryItem) (dir : Text) : Prop := ∃ name, Beneath dir [name] item.path

/-- Each item occurs once as a node of the tree, every child hangs under the directory that contains
it, and only what lies in the scanned directory is at the root. -/
structure TreeFaithful (dir : Text) (r : DirectoryScanResult) : Prop where
  distinct : (r.items.map DirectoryItem.path).Nodup
  once : (RoseTree.nodesOf r.tree).Perm r.items
  hangs : ∀ e ∈ RoseTree.edgesOf r.tree, e.1.isDirectory = true ∧ LiesIn e.2 e.1.path
  root : ∀ t ∈ r.tree, LiesIn t.item dir

/-! ## Timeouts below sub-directories -/

/-- The directory can be listed. -/
def Entries (fs : BrowsedFiles) (dir : Text) (entries : List Text) : Prop :=
  fs.pathExists dir = .ok true ∧ fs.isDir dir = .ok true ∧ fs.listDir dir = .ok entries

/-- A directory has one listing. -/
lemma Entries.eq {fs : BrowsedFiles} {dir : Text} {entries entries' : List Text}
    (h : Entries fs dir entries) (h' : Entries fs dir entries') : entries = entries' :=
  (Probe.ok.injEq _ _).mp (h.2.2.symm.trans h'.2.2)

/-- The scan of `dir` scans its sub-directory `sub`, in time. -/
def Subscan (fs : BrowsedFiles) (dir sub : Text) : Prop :=
  ∃ entries name stat, Entries fs dir entries ∧ name ∈ entries ∧ sub = itemPath dir name ∧
    isHiddenName name = false ∧ fs.stat sub = .ok stat ∧ stat.isDirectory = true ∧
    fs.scanTimesOut sub = false

/-- The metadata of an entry of `dir` cannot be had in time. -/
def EntryTimesOut (fs : BrowsedFiles) (dir : Text) : Prop :=
  ∃ entries name, Entries fs dir entries ∧ name ∈ entries ∧ fs.stat (itemPath dir name) = .timeout

/-- The same of `dir` or a directory below it that is scanned, so many levels down. -/
def TimedOutIn (fs : BrowsedFiles) : ℕ → Text → Prop
  | 0, dir => EntryTimesOut fs dir
  | levels + 1, dir => EntryTimesOut fs dir ∨ ∃ sub, Subscan fs dir sub ∧ TimedOutIn fs levels sub

/-- An entry of a directory that is scanned below `dir` cannot be had in time. -/
def LateTimeout (fs : BrowsedFiles) (dir : Text) (recursive : Bool) (maxDepth : ℤ) : Prop :=
  fs.scanTimesOut dir = false ∧ recursive = true ∧ ∃ levels : ℕ, maxDepth = levels + 1 ∧
    ∃ sub, Subscan fs dir sub ∧ TimedOutIn fs levels sub

/-! ## The items of a scan -/

section Items

variable {fs : BrowsedFiles} {dir sub path name : Text} {d : ℕ} {names : List Text}
  {item : DirectoryItem} {items : List DirectoryItem}

/-- An entry lies one level below its directory. -/
lemma beneath_itemPath (hname : IsEntryName name) : Beneath dir [name] (itemPath dir name) := by
  have hroot : (parse name).root = [] := rootOf_eq_nil_iff.mpr (head?_part hname.1)
  rw [Beneath, itemPath, parse_toText_eq, root_joined hroot, parts_joined hroot, parts_parse name,
    partsOf_part hname.1]
  exact ⟨rfl, rfl⟩

/-- What lies below a place below a directory lies below the directory. -/
lemma Beneath.trans {more : List Text} (h : Beneath dir names sub) (h' : Beneath sub more path) :
    Beneath dir (names ++ more) path :=
  ⟨h'.1.trans h.1, by rw [h'.2, h.2, List.append_assoc]⟩

/-- The names are those of the path. -/
lemma Beneath.names_eq {names' : List Text} (h : Beneath dir names path)
    (h' : Beneath dir names' path) : names = names' :=
  List.append_cancel_left (h.2.symm.trans h'.2)

/-- An item without metadata, or with the depth and the parent that its path has: the directory, or
an item of a directory below it. -/
def Placed (dir : Text) (d : ℕ) (items : List DirectoryItem) (item : DirectoryItem) : Prop :=
  ∃ names, names ≠ [] ∧ Beneath dir names item.path ∧
    (item.depthLevel = 0 ∧ item.isDirectory = false ∨
      item.depthLevel + 1 = d + names.length ∧
        (names.length = 1 ∧ item.parentPath = some dir ∨
          ∃ p ∈ items, p.isDirectory = true ∧ item.parentPath = some p.path ∧
            Beneath dir names.dropLast p.path))

/-- What is true of the items of a scan. -/
structure Gathered (dir : Text) (d : ℕ) (items : List DirectoryItem) : Prop where
  nodup : (items.map DirectoryItem.path).Nodup
  placed : ∀ item ∈ items, Placed dir d items item

/-- The item of an entry. -/
lemma entryItem_cases (h : entryItem fs dir d name = some item) :
    fs.stat (itemPath dir name) = .timeout ∧ item = basicItem dir name ∨
      ∃ stat, fs.stat (itemPath dir name) = .ok stat ∧ item.path = itemPath dir name ∧
        item.isDirectory = stat.isDirectory ∧ item.isHidden = isHiddenName name ∧
        item.parentPath = some dir ∧ item.depthLevel = d := by
  unfold entryItem getItemMetadata at h
  cases hstat : fs.stat (itemPath dir name) with
  | ok stat =>
    rw [hstat] at h
    obtain rfl := Option.some.inj h
    exact .inr ⟨stat, rfl, rfl, rfl, rfl, rfl, rfl⟩
  | timeout =>
    rw [hstat] at h
    obtain rfl := Option.some.inj h
    exact .inl ⟨rfl, rfl⟩
  | raises message =>
    rw [hstat] at h
    cases h

/-- The item of an entry has the path of the directory with the name added. -/
lemma path_of_entryItem (h : entryItem fs dir d name = some item) :
    item.path = itemPath dir name := by
  rcases entryItem_cases h with ⟨-, rfl⟩ | ⟨-, -, hpath, -⟩
  · rfl
  · exact hpath

/-- An entry has its item on the level of the scan. -/
lemma placed_of_entryItem (hname : IsEntryName name) (h : entryItem fs dir d name = some item) :
    Placed dir d items item := by
  refine ⟨[name], List.cons_ne_nil _ _, ?_, ?_⟩
  · rw [path_of_entryItem h]
    exact beneath_itemPath hname
  · rcases entryItem_cases h with ⟨-, rfl⟩ | ⟨stat, -, -, -, -, hparent, hdepth⟩
    · exact .inl ⟨rfl, rfl⟩
    · exact .inr ⟨by rw [hdepth]; rfl, .inl ⟨rfl, hparent⟩⟩

/-- An entry with metadata has an item. -/
lemma exists_entryItem {stat : StatResult} (h : fs.stat (itemPath dir name) = .ok stat) :
    ∃ item, entryItem fs dir d name = some item ∧ item.path = itemPath dir name ∧
      item.isDirectory = stat.isDirectory ∧ item.isHidden = isHiddenName name := by
  unfold entryItem getItemMetadata
  rw [h]
  exact ⟨_, rfl, rfl, rfl, rfl⟩

/-- The paths of the items, in the order of the entries. -/
lemma paths_sublist (entries : List Text) :
    ((entries.filterMap (entryItem fs dir d)).map DirectoryItem.path).Sublist
      (entries.map (itemPath dir)) := by
  induction entries with
  | nil => exact List.Sublist.slnil
  | cons name entries ih =>
    rw [List.map_cons]
    cases h : entryItem fs dir d name with
    | none =>
      rw [List.filterMap_cons_none h]
      exact ih.cons _
    | some item =>
      rw [List.filterMap_cons_some h, List.map_cons, path_of_entryItem h]
      exact ih.cons_cons _

/-- Entries of one directory have paths of their own. -/
lemma itemPath_inj {name' : Text} (hname : IsEntryName name) (hname' : IsEntryName name')
    (h : itemPath dir name = itemPath dir name') : name = name' := by
  have hbeneath : Beneath dir [name'] (itemPath dir name) := h ▸ beneath_itemPath hname'
  exact List.singleton_inj.mp ((beneath_itemPath hname).names_eq hbeneath)

/-- **The items of the entries of a directory.** -/
lemma gathered_entries {entries : List Text} (hentries : fs.listDir dir = .ok entries) :
    Gathered dir d (entries.filterMap (entryItem fs dir d)) where
  nodup := by
    have hnames := fs.listing_names dir entries hentries
    refine (paths_sublist entries).nodup ?_
    exact List.Nodup.map_on (fun name hname name' hname' h =>
      itemPath_inj (hnames name hname) (hnames name' hname') h)
      (fs.listing_nodup dir entries hentries)
  placed := by
    intro item hitem
    obtain ⟨name, hname, h⟩ := List.mem_filterMap.mp hitem
    exact placed_of_entryItem (fs.listing_names dir entries hentries name hname) h

/-- The items of a sub-directory, seen from the directory. -/
lemma Placed.of_sub (hsub : Beneath dir [name] sub) {p : DirectoryItem} (hp : p ∈ items)
    (hdir : p.isDirectory = true) (hpath : p.path = sub) {subItems : List DirectoryItem}
    (hmem : ∀ item ∈ subItems, item ∈ items) (h : Placed sub (d + 1) subItems item) :
    Placed dir d items item := by
  obtain ⟨names, hne, hbeneath, hcase⟩ := h
  refine ⟨name :: names, List.cons_ne_nil _ _, hsub.trans hbeneath, ?_⟩
  rcases hcase with hbasic | ⟨hdepth, hparent⟩
  · exact .inl hbasic
  · refine .inr ⟨by rw [hdepth, List.length_cons]; omega, .inr ?_⟩
    rw [List.dropLast_cons_of_ne_nil hne]
    rcases hparent with ⟨hone, hparent⟩ | ⟨q, hq, hqdir, hparent, hqpath⟩
    · obtain ⟨last, rfl⟩ := List.length_eq_one_iff.mp hone
      exact ⟨p, hp, hdir, by rw [hpath, hparent], hpath ▸ hsub⟩
    · exact ⟨q, hmem q hq, hqdir, hparent, hsub.trans hqpath⟩

/-- A directory that is scanned below another one, and its item.

**Proof sketch.** An item of the level that is a directory and not hidden is made of an entry
whose stat was answered, which is what a sub-scan asks for; and an entry that is scanned has such
an item. -/
lemma exists_subdirectory_iff {entries : List Text} (hentries : Entries fs dir entries)
    {P : Text → Prop} :
    (∃ p ∈ (entries.filterMap (entryItem fs dir d)).filter fun item =>
        item.isDirectory && !item.isHidden, fs.scanTimesOut p.path = false ∧ P p.path) ↔
      ∃ sub, Subscan fs dir sub ∧ P sub := by
  constructor
  · rintro ⟨p, hp, htime, hP⟩
    obtain ⟨hmem, hflags⟩ := List.mem_filter.mp hp
    obtain ⟨hdir, hhidden⟩ := Bool.and_eq_true_iff.mp hflags
    obtain ⟨name, hname, h⟩ := List.mem_filterMap.mp hmem
    rcases entryItem_cases h with ⟨-, rfl⟩ | ⟨stat, hstat, hpath, hdir', hhidden', -, -⟩
    · cases hdir
    · rw [hpath] at htime hP
      rw [hhidden', Bool.not_eq_true'] at hhidden
      exact ⟨_, ⟨entries, name, stat, hentries, hname, rfl, hhidden, hstat, hdir' ▸ hdir, htime⟩,
        hP⟩
  · rintro ⟨sub, ⟨entries', name, stat, hentries', hname, rfl, hhidden, hstat, hdir, htime⟩, hP⟩
    obtain rfl := hentries'.eq hentries
    obtain ⟨item, hitem, hpath, hdir', hhidden'⟩ := exists_entryItem (d := d) hstat
    refine ⟨item, List.mem_filter.mpr ⟨List.mem_filterMap.mpr ⟨name, hname, hitem⟩, ?_⟩, ?_, ?_⟩
    · rw [hdir', hhidden', hdir, hhidden]
      rfl
    · rw [hpath, htime]
    · rw [hpath]
      exact hP

/-- Sub-directories on one level have no item in common. -/
lemma disjoint_sub {name' sub' : Text} {items' : List DirectoryItem} {d' : ℕ} (hne : name ≠ name')
    (hsub : Beneath dir [name] sub) (hsub' : Beneath dir [name'] sub') (h : Gathered sub d items)
    (h' : Gathered sub' d' items') :
    (items.map DirectoryItem.path).Disjoint (items'.map DirectoryItem.path) := by
  intro path hpath hpath'
  obtain ⟨item, hitem, rfl⟩ := List.mem_map.mp hpath
  obtain ⟨item', hitem', hsame⟩ := List.mem_map.mp hpath'
  obtain ⟨names, -, hbeneath, -⟩ := h.placed item hitem
  obtain ⟨names', -, hbeneath', -⟩ := h'.placed item' hitem'
  rw [hsame] at hbeneath'
  have hnames := (hsub.trans hbeneath).names_eq (hsub'.trans hbeneath')
  rw [List.singleton_append, List.singleton_append, List.cons.injEq] at hnames
  exact hne hnames.1

/-- **The items of a directory and those of its sub-directories.**

**Proof sketch.** The paths of a level are one name below the directory and those of a
sub-directory at least two, so the two parts share no path; two sub-directories have different
names, so neither do the items below them. Each item is placed where it was, with one name more in
front for those below. -/
lemma Gathered.append_sub {level : List DirectoryItem} (hlevel : Gathered dir d level)
    (hnames : ∀ p ∈ level, ∃ name, IsEntryName name ∧ p.path = itemPath dir name)
    {subdirectories : List DirectoryItem} (hsublist : subdirectories.Sublist level)
    (hdirs : ∀ p ∈ subdirectories, p.isDirectory = true)
    {below : DirectoryItem → List DirectoryItem}
    (hbelow : ∀ p, Gathered p.path (d + 1) (below p)) :
    Gathered dir d (level ++ subdirectories.flatMap below) := by
  have hbeneath : ∀ p ∈ level, ∃ name, Beneath dir [name] p.path := by
    intro p hp
    obtain ⟨name, hname, hpath⟩ := hnames p hp
    exact ⟨name, hpath ▸ beneath_itemPath hname⟩
  constructor
  · rw [List.map_append, List.map_flatMap]
    refine List.nodup_append'.mpr ⟨hlevel.nodup, List.nodup_flatMap.mpr
      ⟨fun p _ => (hbelow p).nodup, ?_⟩, ?_⟩
    · have hnodup : subdirectories.Nodup := hsublist.nodup hlevel.nodup.of_map
      refine hnodup.pairwise_of_forall_ne fun p hp q hq hne => ?_
      obtain ⟨name, hname, hpath⟩ := hnames p (hsublist.subset hp)
      obtain ⟨name', hname', hpath'⟩ := hnames q (hsublist.subset hq)
      refine disjoint_sub ?_ (hpath ▸ beneath_itemPath hname) (hpath' ▸ beneath_itemPath hname')
        (hbelow p) (hbelow q)
      rintro rfl
      exact hne (List.inj_on_of_nodup_map hlevel.nodup (hsublist.subset hp) (hsublist.subset hq)
        (hpath.trans hpath'.symm))
    · -- what lies deeper has more names
      intro path hpath hpath'
      obtain ⟨item, hitem, rfl⟩ := List.mem_map.mp hpath
      obtain ⟨p, hp, hmem⟩ := List.mem_flatMap.mp hpath'
      obtain ⟨item', hitem', hsame⟩ := List.mem_map.mp hmem
      obtain ⟨name, hname⟩ := hbeneath item hitem
      obtain ⟨name', hname'⟩ := hbeneath p (hsublist.subset hp)
      obtain ⟨names, hne, hnames', -⟩ := (hbelow p).placed item' hitem'
      rw [hsame] at hnames'
      have heq := hname.names_eq (hname'.trans hnames')
      rw [List.singleton_append, List.cons.injEq] at heq
      exact hne heq.2.symm
  · intro item hitem
    rcases List.mem_append.mp hitem with hitem | hitem
    · obtain ⟨names, hne, hpath, hcase⟩ := hlevel.placed item hitem
      refine ⟨names, hne, hpath, ?_⟩
      rcases hcase with hbasic | ⟨hdepth, hone | ⟨p, hp, hrest⟩⟩
      · exact .inl hbasic
      · exact .inr ⟨hdepth, .inl hone⟩
      · exact .inr ⟨hdepth, .inr ⟨p, List.mem_append_left _ hp, hrest⟩⟩
    · obtain ⟨p, hp, hmem⟩ := List.mem_flatMap.mp hitem
      obtain ⟨name, hname⟩ := hbeneath p (hsublist.subset hp)
      refine Placed.of_sub hname (List.mem_append_left _ (hsublist.subset hp)) (hdirs p hp) rfl
        (fun q hq => ?_) ((hbelow p).placed item hmem)
      exact List.mem_append_right _ (List.mem_flatMap.mpr ⟨p, hp, hq⟩)

/-- The items of a level of the scan. -/
lemma gathered_levelItems {entries : List Text} (hentries : fs.listDir dir = .ok entries)
    {scan : Option (Text → Except String DirectoryScanResult)}
    (hscan : ∀ f, scan = some f → ∀ sub, Gathered sub (d + 1) (itemsFound (f sub))) :
    Gathered dir d (levelItems fs dir d scan entries) := by
  have hlevel : Gathered dir d (entries.filterMap (entryItem fs dir d)) := gathered_entries hentries
  cases scan with
  | none => exact hlevel
  | some f =>
    refine hlevel.append_sub (fun p hp => ?_) List.filter_sublist (fun p hp => ?_) fun p => ?_
    · obtain ⟨name, hname, h⟩ := List.mem_filterMap.mp hp
      exact ⟨name, fs.listing_names dir entries hentries name hname, path_of_entryItem h⟩
    · exact (Bool.and_eq_true_iff.mp (List.mem_filter.mp hp).2).1
    · unfold subdirectoryItems
      split_ifs
      · exact ⟨List.nodup_nil, fun item hitem => absurd hitem List.not_mem_nil⟩
      · exact hscan f rfl p.path

end Items

/-! ## The tree of a scan -/

section Trees

variable {fs : BrowsedFiles} {dir sub : Text} {d : ℕ} {item p c : DirectoryItem}
  {items : List DirectoryItem}

/-- Items of depth 0 are the tops. -/
lemma parent_itemForest_eq_none_iff :
    (itemForest items).parent item = none ↔ item.depthLevel = 0 := by
  simp [itemForest]

/-- The parent of an item of another depth is the one it names. -/
lemma parent_itemForest (h : item.depthLevel ≠ 0) :
    (itemForest items).parent item = some (item.parentPath.getD []) := if_neg h

/-- A directory among the items has the depth that its path has. -/
lemma Gathered.depth_of_isDirectory (h : Gathered dir d items) (hp : p ∈ items)
    (hdir : p.isDirectory = true) {names : List Text} (hnames : Beneath dir names p.path) :
    p.depthLevel + 1 = d + names.length := by
  obtain ⟨names', -, hpath, ⟨-, hfile⟩ | ⟨hdepth, -⟩⟩ := h.placed p hp
  · rw [hdir] at hfile
    cases hfile
  · rw [hdepth, hnames.names_eq hpath]

/-- **A child is listed by the directory it hangs under.**

**Proof sketch.** The parent is found by its path. An item directly in the scanned directory has
no parent among the items, since each of these lies below it. Any other names the path of a
directory that is one name shorter, and the depths are those numbers of names. -/
lemma Gathered.of_mem_childrenOf (h : Gathered dir d items) (hp : p ∈ items)
    (hc : c ∈ (itemForest items).childrenOf p) :
    p.isDirectory = true ∧ c.depthLevel = p.depthLevel + 1 ∧ LiesIn c p.path := by
  obtain ⟨hinner, hmem, hparent⟩ := FlatForest.mem_childrenOf.mp hc
  have hdir : p.isDirectory = true := hinner
  have hdeep : c.depthLevel ≠ 0 := by
    intro hzero
    rw [parent_itemForest_eq_none_iff.mpr hzero] at hparent
    cases hparent
  rw [parent_itemForest hdeep, Option.some.injEq] at hparent
  have hkey : c.parentPath.getD [] = p.path := hparent
  obtain ⟨names, hne, hpath, ⟨hzero, -⟩ | ⟨hdepth, ⟨-, hdirect⟩ | ⟨q, hq, -, hqparent, hqpath⟩⟩⟩ :=
    h.placed c hmem
  · exact absurd hzero hdeep
  · -- no item has the path of the scanned directory
    rw [hdirect, Option.getD_some] at hkey
    obtain ⟨names', hne', hpath', -⟩ := h.placed p hp
    rw [← hkey] at hpath'
    have hsame : (parse dir).parts ++ [] = (parse dir).parts ++ names' := by
      rw [List.append_nil]
      exact hpath'.2
    exact absurd (List.append_cancel_left hsame).symm hne'
  · rw [hqparent, Option.getD_some] at hkey
    rw [hkey] at hqpath
    have hpdepth := h.depth_of_isDirectory hp hdir hqpath
    have hlength : 0 < names.length := List.length_pos_iff.mpr hne
    have hlast : names = names.dropLast ++ [names.getLast hne] :=
      (List.dropLast_append_getLast hne).symm
    refine ⟨hdir, ?_, names.getLast hne, hpath.1.trans hqpath.1.symm, ?_⟩
    · rw [List.length_dropLast] at hpdepth
      omega
    · rw [hpath.2, hqpath.2, List.append_assoc, ← hlast]

/-- Gathered items are ranked by their depth. -/
lemma Gathered.ranked (h : Gathered dir d items) :
    (itemForest items).Ranked DirectoryItem.depthLevel where
  nodup := h.nodup
  step := fun _ hp _ hc => (h.of_mem_childrenOf hp hc).2.1

/-- **In the scan of a whole directory every parent is listed.** -/
lemma Gathered.wellPlaced (h : Gathered dir 0 items) :
    (itemForest items).WellPlaced DirectoryItem.depthLevel where
  toRanked := h.ranked
  top := fun _ _ hparent => parent_itemForest_eq_none_iff.mp hparent
  closed := by
    intro c hc k hparent
    have hdeep : c.depthLevel ≠ 0 := by
      intro hzero
      rw [parent_itemForest_eq_none_iff.mpr hzero] at hparent
      cases hparent
    rw [parent_itemForest hdeep, Option.some.injEq] at hparent
    obtain ⟨names, hne, hpath, ⟨hzero, -⟩ | ⟨hdepth, ⟨hone, -⟩ | ⟨q, hq, hqdir, hqparent, -⟩⟩⟩ :=
      h.placed c hc
    · exact absurd hzero hdeep
    · omega
    · rw [hqparent, Option.getD_some] at hparent
      exact ⟨q, hq, hparent, hqdir⟩

/-- The result with the items has its tree. -/
lemma Gathered.found_eq (h : Gathered dir d items) :
    DirectoryScanResult.found dir items =
      { path := dir
        isAccessible := true
        items := items
        tree := (itemForest items).tops.map ((itemForest items).treeOf items.length)
        totalItems := items.length
        totalFiles := items.countP fun item => !item.isDirectory
        totalDirectories := items.countP fun item => item.isDirectory } := by
  rw [DirectoryScanResult.found, buildTreeStructure, FlatForest.build_eq h.ranked]
  rfl

/-- The items of the result made of gathered items are these items. -/
lemma Gathered.itemsFound_found (h : Gathered dir d items) :
    itemsFound (.ok (DirectoryScanResult.found dir items)) = items := by
  rw [h.found_eq]
  rfl

/-- **When the tree of all items is faithful**: when no item of a sub-directory is on level zero.

**Proof sketch.** Every item occurs once, and children hang under the directory that lists them
(`FlatForest.perm_nodes`, `FlatForest.mem_edges`). At the root are the items on level zero. -/
lemma treeFaithful_found_iff (h : Gathered dir 0 items) :
    TreeFaithful dir (.found dir items) ↔
      ∀ item ∈ items, item.depthLevel = 0 → LiesIn item dir := by
  rw [h.found_eq]
  constructor
  · intro hfaithful item hitem hzero
    have htop : item ∈ (itemForest items).tops :=
      FlatForest.mem_tops.mpr ⟨hitem, parent_itemForest_eq_none_iff.mpr hzero⟩
    have hroot := hfaithful.root _ (List.mem_map.mpr ⟨item, htop, rfl⟩)
    rwa [FlatForest.item_treeOf] at hroot
  · intro hroots
    refine ⟨h.nodup, FlatForest.perm_nodes h.wellPlaced, fun e he => ?_, fun t ht => ?_⟩
    · obtain ⟨hmem, hchild⟩ := FlatForest.mem_edges he
      obtain ⟨hdir, -, hlies⟩ := h.of_mem_childrenOf hmem hchild
      exact ⟨hdir, hlies⟩
    · obtain ⟨item, htop, rfl⟩ := List.mem_map.mp ht
      obtain ⟨hmem, hparent⟩ := FlatForest.mem_tops.mp htop
      rw [FlatForest.item_treeOf]
      exact hroots item hmem (parent_itemForest_eq_none_iff.mp hparent)

end Trees

/-! ## Which items a scan finds -/

section Scan

variable {fs : BrowsedFiles} {dir sub : Text} {d : ℕ} {item : DirectoryItem}
  {entries : List Text} {scan : Option (Text → Except String DirectoryScanResult)}

/-- A directory that can be listed is scanned, and no other one has items.

**Proof sketch.** By cases on the three answers of the file system, in the order in which the scan
asks for them. All three have to be good for the items; an exception of the first two is raised,
and everything else is an inaccessible directory. -/
lemma scanLevel_cases (fs : BrowsedFiles) (dir : Text) (d : ℕ)
    (scan : Option (Text → Except String DirectoryScanResult)) :
    (∃ entries, Entries fs dir entries ∧
        scanLevel fs dir d scan = .ok (.found dir (levelItems fs dir d scan entries))) ∨
      (∀ entries, ¬ Entries fs dir entries) ∧
        ((∃ message, scanLevel fs dir d scan = .error message) ∨
          ∃ message, scanLevel fs dir d scan = .ok (.inaccessible dir message)) := by
  unfold scanLevel Entries
  cases fs.pathExists dir with
  | raises message => exact .inr ⟨fun _ h => (by cases h.1), .inl ⟨_, rfl⟩⟩
  | timeout => exact .inr ⟨fun _ h => (by cases h.1), .inr ⟨_, rfl⟩⟩
  | ok present =>
    cases present with
    | false => exact .inr ⟨fun _ h => (by cases h.1), .inr ⟨_, rfl⟩⟩
    | true =>
      cases fs.isDir dir with
      | raises message => exact .inr ⟨fun _ h => (by cases h.2.1), .inl ⟨_, rfl⟩⟩
      | timeout => exact .inr ⟨fun _ h => (by cases h.2.1), .inr ⟨_, rfl⟩⟩
      | ok isDir =>
        cases isDir with
        | false => exact .inr ⟨fun _ h => (by cases h.2.1), .inr ⟨_, rfl⟩⟩
        | true =>
          cases fs.listDir dir with
          | raises message => exact .inr ⟨fun _ h => (by cases h.2.2), .inr ⟨_, rfl⟩⟩
          | timeout => exact .inr ⟨fun _ h => (by cases h.2.2), .inr ⟨_, rfl⟩⟩
          | ok entries => exact .inl ⟨entries, ⟨rfl, rfl, rfl⟩, rfl⟩

/-- The scan of the sub-directories that a scan with so many levels left makes. -/
def subscanOf (fs : BrowsedFiles) (recursive : Bool) (d : ℕ) :
    ℕ → Option (Text → Except String DirectoryScanResult)
  | 0 => none
  | levels + 1 =>
    if recursive then some fun path => performDirectoryScan fs recursive levels path (d + 1)
    else none

/-- A scan is the scan of one level over the scans below it. -/
lemma performDirectoryScan_eq (recursive : Bool) (levels : ℕ) :
    performDirectoryScan fs recursive levels dir d =
      scanLevel fs dir d (subscanOf fs recursive d levels) := by
  cases levels <;> rfl

/-- The items of a level that can be listed. -/
lemma itemsFound_scanLevel (hentries : Entries fs dir entries)
    (hscan : ∀ f, scan = some f → ∀ sub, Gathered sub (d + 1) (itemsFound (f sub))) :
    itemsFound (scanLevel fs dir d scan) = levelItems fs dir d scan entries := by
  rcases scanLevel_cases fs dir d scan with ⟨entries', hentries', heq⟩ | ⟨hno, -⟩
  · obtain rfl : entries' = entries := by
      have hlist := hentries'.2.2.symm.trans hentries.2.2
      exact (Probe.ok.injEq _ _).mp hlist
    rw [heq, (gathered_levelItems hentries.2.2 hscan).itemsFound_found]
  · exact absurd hentries (hno entries)

/-- A level that cannot be listed has no items. -/
lemma itemsFound_scanLevel_of_not (hno : ∀ entries, ¬ Entries fs dir entries) :
    itemsFound (scanLevel fs dir d scan) = [] := by
  rcases scanLevel_cases fs dir d scan with
    ⟨entries, hentries, -⟩ | ⟨-, ⟨message, heq⟩ | ⟨message, heq⟩⟩
  · exact absurd hentries (hno entries)
  · rw [heq]
    rfl
  · rw [heq]
    rfl

/-- The items of a level are gathered, if those below are. -/
lemma gathered_scanLevel
    (hscan : ∀ f, scan = some f → ∀ sub, Gathered sub (d + 1) (itemsFound (f sub))) :
    Gathered dir d (itemsFound (scanLevel fs dir d scan)) := by
  by_cases hentries : ∃ entries, Entries fs dir entries
  · obtain ⟨entries, hentries⟩ := hentries
    rw [itemsFound_scanLevel hentries hscan]
    exact gathered_levelItems hentries.2.2 hscan
  · rw [itemsFound_scanLevel_of_not (not_exists.mp hentries)]
    exact ⟨List.nodup_nil, fun item hitem => absurd hitem List.not_mem_nil⟩

/-- **What a scan finds is gathered.**

**Proof sketch.** Induction on the levels left: a level is gathered if the scans of its
sub-directories are. -/
lemma gathered_performDirectoryScan (recursive : Bool) (levels : ℕ) (dir : Text) (d : ℕ) :
    Gathered dir d (itemsFound (performDirectoryScan fs recursive levels dir d)) := by
  induction levels generalizing dir d with
  | zero => exact gathered_scanLevel fun f hf => by cases hf
  | succ levels ih =>
    rw [performDirectoryScan_eq]
    refine gathered_scanLevel fun f hf sub => ?_
    rw [subscanOf] at hf
    split_ifs at hf
    cases hf
    exact ih sub (d + 1)

/-- The items of sub-directories. -/
lemma exists_mem_below_iff (hentries : Entries fs dir entries)
    {f : Text → Except String DirectoryScanResult} {Q : DirectoryItem → Prop} :
    (∃ item ∈ ((entries.filterMap (entryItem fs dir d)).filter fun item =>
        item.isDirectory && !item.isHidden).flatMap (subdirectoryItems fs f), Q item) ↔
      ∃ sub, Subscan fs dir sub ∧ ∃ item ∈ itemsFound (f sub), Q item := by
  rw [← exists_subdirectory_iff hentries]
  constructor
  · rintro ⟨item, hitem, hQ⟩
    obtain ⟨p, hp, hmem⟩ := List.mem_flatMap.mp hitem
    unfold subdirectoryItems at hmem
    split_ifs at hmem with htime
    · cases hmem
    · exact ⟨p, hp, Bool.not_eq_true _ ▸ htime, item, hmem, hQ⟩
  · rintro ⟨p, hp, htime, item, hmem, hQ⟩
    refine ⟨item, List.mem_flatMap.mpr ⟨p, hp, ?_⟩, hQ⟩
    rw [subdirectoryItems, htime]
    exact hmem

/-- Below the scanned directory, the items on level zero are those without metadata. -/
lemma exists_depth_zero_entries_iff (hentries : Entries fs dir entries) (hd : d ≠ 0) :
    (∃ item ∈ entries.filterMap (entryItem fs dir d), item.depthLevel = 0) ↔
      EntryTimesOut fs dir := by
  constructor
  · rintro ⟨item, hitem, hzero⟩
    obtain ⟨name, hname, h⟩ := List.mem_filterMap.mp hitem
    rcases entryItem_cases h with ⟨hstat, -⟩ | ⟨-, -, -, -, -, -, hdepth⟩
    · exact ⟨entries, name, hentries, hname, hstat⟩
    · exact absurd (hdepth.symm.trans hzero) hd
  · rintro ⟨entries', name, hentries', hname, hstat⟩
    obtain rfl := hentries'.eq hentries
    refine ⟨basicItem dir name, List.mem_filterMap.mpr ⟨name, hname, ?_⟩, rfl⟩
    rw [entryItem, getItemMetadata, hstat]

/-- **Items of a sub-directory on level zero** are those of entries that timed out.

**Proof sketch.** Induction on the levels left. -/
lemma exists_depth_zero_iff (levels : ℕ) (dir : Text) (hd : d ≠ 0) :
    (∃ item ∈ itemsFound (performDirectoryScan fs true levels dir d), item.depthLevel = 0) ↔
      TimedOutIn fs levels dir := by
  induction levels generalizing dir d with
  | zero =>
    by_cases hentries : ∃ entries, Entries fs dir entries
    · obtain ⟨entries, hentries⟩ := hentries
      rw [performDirectoryScan_eq, itemsFound_scanLevel hentries fun f hf => by cases hf]
      exact exists_depth_zero_entries_iff hentries hd
    · rw [performDirectoryScan_eq, itemsFound_scanLevel_of_not (not_exists.mp hentries)]
      refine iff_of_false (fun h => by obtain ⟨item, hitem, -⟩ := h; cases hitem) ?_
      rintro ⟨entries, name, h, -⟩
      exact hentries ⟨entries, h⟩
  | succ levels ih =>
    by_cases hentries : ∃ entries, Entries fs dir entries
    · obtain ⟨entries, hentries⟩ := hentries
      rw [performDirectoryScan_eq, itemsFound_scanLevel hentries]
      · simp only [subscanOf, if_true, levelItems, List.mem_append, or_and_right, exists_or]
        rw [exists_depth_zero_entries_iff hentries hd, exists_mem_below_iff hentries, TimedOutIn]
        simp only [ih _ (Nat.succ_ne_zero d)]
      · intro f hf sub
        cases hf
        exact gathered_performDirectoryScan true levels sub (d + 1)
    · rw [performDirectoryScan_eq, itemsFound_scanLevel_of_not (not_exists.mp hentries)]
      refine iff_of_false (fun h => by obtain ⟨item, hitem, -⟩ := h; cases hitem) ?_
      rintro (⟨entries, name, h, -⟩ | ⟨sub, ⟨entries, name, stat, h, -⟩, -⟩)
      · exact hentries ⟨entries, h⟩
      · exact hentries ⟨entries, h⟩

/-- An item of an entry lies in the directory. -/
lemma liesIn_of_mem_entries (hentries : Entries fs dir entries)
    (hitem : item ∈ entries.filterMap (entryItem fs dir d)) : LiesIn item dir := by
  obtain ⟨name, hname, h⟩ := List.mem_filterMap.mp hitem
  refine ⟨name, ?_⟩
  rw [path_of_entryItem h]
  exact beneath_itemPath (fs.listing_names dir entries hentries.2.2 name hname)

/-- An item of a sub-directory does not. -/
lemma not_liesIn_of_subscan (hsub : Subscan fs dir sub) {items : List DirectoryItem}
    (h : Gathered sub d items) (hitem : item ∈ items) : ¬ LiesIn item dir := by
  obtain ⟨entries, name, -, hentries, hname, rfl, -⟩ := hsub
  rintro ⟨name', hname'⟩
  obtain ⟨names, hne, hpath, -⟩ := h.placed item hitem
  have hbeneath : Beneath dir [name] (itemPath dir name) :=
    beneath_itemPath (fs.listing_names dir entries hentries.2.2 name hname)
  have hnames := (hbeneath.trans hpath).names_eq hname'
  rw [List.singleton_append, List.cons.injEq] at hnames
  exact hne hnames.2

/-- The items on level zero of a scan with sub-directories. -/
lemma forall_depth_zero_iff (hentries : Entries fs dir entries) (levels : ℕ) :
    (∀ item ∈ levelItems fs dir 0 (subscanOf fs true 0 (levels + 1)) entries,
        item.depthLevel = 0 → LiesIn item dir) ↔
      ¬ ∃ sub, Subscan fs dir sub ∧ TimedOutIn fs levels sub := by
  have hbelow : (∃ sub, Subscan fs dir sub ∧ TimedOutIn fs levels sub) ↔
      ∃ sub, Subscan fs dir sub ∧
        ∃ item ∈ itemsFound (performDirectoryScan fs true levels sub 1), item.depthLevel = 0 := by
    simp only [exists_depth_zero_iff levels _ Nat.one_ne_zero]
  rw [hbelow]
  constructor
  · rintro h ⟨sub, hsub, item, hitem, hzero⟩
    refine not_liesIn_of_subscan hsub (gathered_performDirectoryScan true levels sub 1) hitem
      (h item ?_ hzero)
    obtain ⟨item', hitem', rfl⟩ := (exists_mem_below_iff (d := 0)
      (f := fun path => performDirectoryScan fs true levels path 1) (Q := fun i => i = item)
      hentries).mpr ⟨sub, hsub, item, hitem, rfl⟩
    exact List.mem_append_right _ hitem'
  · intro h item hitem hzero
    rcases List.mem_append.mp hitem with hitem | hitem
    · exact liesIn_of_mem_entries hentries hitem
    · obtain ⟨sub, hsub, item', hitem', rfl⟩ := (exists_mem_below_iff (Q := fun i => i = item)
        hentries).mp ⟨item, hitem, rfl⟩
      exact absurd ⟨sub, hsub, item', hitem', hzero⟩ h

/-- A result without items is faithful. -/
lemma treeFaithful_inaccessible (message : String) :
    TreeFaithful dir (.inaccessible dir message) where
  distinct := List.nodup_nil
  once := List.Perm.refl _
  hangs := fun _ he => absurd he List.not_mem_nil
  root := fun _ ht => absurd ht List.not_mem_nil

/-- The items of a scan below are gathered. -/
lemma gathered_subscan {recursive : Bool} {levels : ℕ}
    {f : Text → Except String DirectoryScanResult}
    (hf : subscanOf fs recursive d levels = some f) (sub : Text) :
    Gathered sub (d + 1) (itemsFound (f sub)) := by
  cases levels with
  | zero => cases hf
  | succ levels =>
    rw [subscanOf] at hf
    split_ifs at hf
    cases hf
    exact gathered_performDirectoryScan recursive levels sub (d + 1)

/-- On the last level, and without recursion, all items lie in the directory. -/
lemma treeFaithful_lastLevel (hentries : Entries fs dir entries) :
    TreeFaithful dir (.found dir (levelItems fs dir 0 none entries)) := by
  have hgathered : Gathered dir 0 (levelItems fs dir 0 none entries) :=
    gathered_levelItems hentries.2.2 fun f hf => by cases hf
  exact (treeFaithful_found_iff hgathered).mpr fun item hitem _ =>
    liesIn_of_mem_entries hentries hitem

/-- **The tree of a scan with so many levels.**

**Proof sketch.** A level that cannot be listed has no items, and no sub-scan either. One that is
listed has a faithful tree if nothing below it is scanned; otherwise the tree is faithful exactly
when no item of a sub-scan has depth 0, which `forall_depth_zero_iff` says of each of them. -/
lemma treeFaithful_performDirectoryScan_iff {recursive : Bool} (levels : ℕ)
    {r : DirectoryScanResult} (hr : performDirectoryScan fs recursive levels dir 0 = .ok r) :
    TreeFaithful dir r ↔ ¬ (recursive = true ∧ ∃ n, levels = n + 1 ∧
      ∃ sub, Subscan fs dir sub ∧ TimedOutIn fs n sub) := by
  rw [performDirectoryScan_eq] at hr
  rcases scanLevel_cases fs dir 0 (subscanOf fs recursive 0 levels) with
    ⟨entries, hentries, heq⟩ | ⟨hno, ⟨message, heq⟩ | ⟨message, heq⟩⟩
  · obtain rfl := Except.ok.inj (heq.symm.trans hr)
    cases levels with
    | zero =>
      refine iff_of_true (treeFaithful_lastLevel hentries) ?_
      rintro ⟨-, n, hn, -⟩
      exact absurd hn (Nat.succ_ne_zero n).symm
    | succ levels =>
      cases recursive with
      | false =>
        refine iff_of_true (treeFaithful_lastLevel hentries) ?_
        rintro ⟨hrec, -⟩
        cases hrec
      | true =>
        have hgathered := gathered_levelItems (d := 0) hentries.2.2
          fun f (hf : subscanOf fs true 0 (levels + 1) = some f) => gathered_subscan hf
        rw [treeFaithful_found_iff hgathered, forall_depth_zero_iff hentries]
        simp
  · rw [heq] at hr
    cases hr
  · obtain rfl := Except.ok.inj (heq.symm.trans hr)
    refine iff_of_true (treeFaithful_inaccessible message) ?_
    rintro ⟨-, n, -, sub, ⟨entries, name, stat, hentries, -⟩, -⟩
    exact hno entries hentries

/-- A scan raises only if the directory itself cannot be looked at. -/
lemma not_entries_of_raises {recursive : Bool} {levels : ℕ} {message : String}
    (hr : performDirectoryScan fs recursive levels dir 0 = .error message) :
    ∀ entries, ¬ Entries fs dir entries := by
  rw [performDirectoryScan_eq] at hr
  rcases scanLevel_cases fs dir 0 (subscanOf fs recursive 0 levels) with
    ⟨entries, hentries, heq⟩ | ⟨hno, -⟩
  · rw [heq] at hr
    cases hr
  · exact hno

/-- **When the tree of a scan is faithful**: unless an entry of a sub-directory that is scanned
cannot be had in time.

**Proof sketch.** The items of a scan have the parents and levels that their paths have, but for
those without metadata, which are on level zero (`gathered_performDirectoryScan`). So the tree is
faithful unless one of these is in a sub-directory (`treeFaithful_found_iff`,
`exists_depth_zero_iff`). -/
theorem treeFaithful_iff (fs : BrowsedFiles) (dir : Text) (recursive : Bool) (maxDepth : ℤ) :
    TreeFaithful dir (scanDirectory fs dir recursive maxDepth) ↔
      ¬ LateTimeout fs dir recursive maxDepth := by
  unfold scanDirectory LateTimeout
  split_ifs with htime hdepth
  · refine iff_of_true (treeFaithful_inaccessible _) ?_
    rintro ⟨hno, -⟩
    rw [htime] at hno
    cases hno
  · refine iff_of_true (treeFaithful_inaccessible _) ?_
    rintro ⟨-, -, levels, hlevels, -⟩
    omega
  · have hlevels : ∀ n : ℕ, maxDepth = n + 1 ↔ maxDepth.toNat = n + 1 := by omega
    rw [Bool.not_eq_true] at htime
    simp only [htime, true_and, hlevels]
    cases hr : performDirectoryScan fs recursive maxDepth.toNat dir 0 with
    | ok r => exact treeFaithful_performDirectoryScan_iff _ hr
    | error message =>
      refine iff_of_true (treeFaithful_inaccessible message) ?_
      rintro ⟨-, n, -, sub, ⟨entries, name, stat, hentries, -⟩, -⟩
      exact not_entries_of_raises hr entries hentries

end Scan

/-- The directory `/d` with a sub-directory `s`, in which one entry cannot be had in time. -/
def slowEntry : BrowsedFiles where
  pathExists _ := .ok true
  isDir _ := .ok true
  listDir dir :=
    if dir = "/d".toList then .ok ["s".toList]
    else if dir = "/d/s".toList then .ok ["x".toList] else .ok []
  stat path := if path = "/d/s".toList then .ok { isDirectory := true, size := 0 } else .timeout
  scanTimesOut _ := false
  listing_nodup := by
    intro dir entries h
    split_ifs at h <;> cases h <;> decide
  listing_names := by
    intro dir entries h
    have hname : ∀ c : Char, c ≠ '.' → c ≠ '/' → IsEntryName [c] := by
      intro c hdot hslash
      exact ⟨⟨by simp, by simp [hdot], by simp [hslash.symm]⟩, by simp⟩
    split_ifs at h <;> cases h <;> simp [hname]

/-- The entry `/d/s/x` is at the root of the tree. -/
theorem slow_entry_at_root :
    ¬ ∀ (fs : BrowsedFiles) (dir : Text) (maxDepth : ℤ),
      TreeFaithful dir (scanDirectory fs dir true maxDepth) := by
  intro h
  have htop : ((scanDirectory slowEntry "/d".toList true 3).tree.any fun t =>
      t.item.path = "/d/s/x".toList) = true := by decide +kernel
  obtain ⟨t, ht, hpath⟩ := List.any_eq_true.mp htop
  obtain ⟨name, -, hparts⟩ := (h slowEntry "/d".toList 3).root t ht
  rw [of_decide_eq_true hpath] at hparts
  have hlength := congrArg List.length hparts
  rw [List.length_append, List.length_singleton] at hlength
  revert hlength
  decide +kernel

end FileAgent
