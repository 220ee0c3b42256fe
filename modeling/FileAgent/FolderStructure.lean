import FileAgent.OutputFolderTemplate

set_option relaxedAutoImplicit false
set_option autoImplicit false

/-!
# The folders of the source at the destination

The scanner walks the source directory and writes down each file by its absolute path. The
destination path is made from that path and the setting that names the source directory. Paths have
their roots here, which `FileOperations` leaves out.

## Main definitions

* `WalkEntry`, `discoverAllFiles` — the scanner's walk.
* `FolderStructure.buildDestinationPathWithTemplate` — the destination path, before numbering.
* `FolderStructurePreserved` — the folders of the source are found again at the destination.

## Main results

* `folderStructurePreserved_iff` — when they are.
-/

namespace FileAgent

open PosixPath

/-! ## The walk of the scanner -/

/-- The test for files that are not copied. -/
def shouldIgnoreFile (py : TextFunctions) (path : Text) : Bool :=
  decide ("test_file".toList <:+: py.lower (nameOf path)) || decide ((nameOf path).head? = some '.')

/-- A directory that the walk comes through: its names below the source directory, and its files. -/
structure WalkEntry where
  dirs : List Text
  files : List Text
  dirs_valid : ∀ c ∈ dirs, IsEntryName c
  files_valid : ∀ c ∈ files, IsEntryName c

/-- The current directory of the process. -/
structure CurrentDirectory where
  text : Text
  absolute : text.head? = some '/'

/-- The path of a file below the source directory, as the scanner writes it down. -/
def discoveredPath (cwd : CurrentDirectory) (sourceDirectory : Text) (dirs : List Text)
    (file : Text) : PurePath :=
  let root := dirs.foldl join (parse sourceDirectory).toText
  parse (abspath cwd.text (join root file))

/-- The files that the scanner finds. -/
def discoverAllFiles (py : TextFunctions) (cwd : CurrentDirectory) (sourceDirectory : Text)
    (sourceExists sourceIsDir : Bool) (walk : List WalkEntry) : Finset PurePath :=
  if !sourceExists then ∅
  else if !sourceIsDir then ∅
  else
    (walk.flatMap fun entry =>
      (entry.files.map (discoveredPath cwd sourceDirectory entry.dirs)).filter fun path =>
        isMxfFile py path.toText && !shouldIgnoreFile py path.toText).toFinset

/-! ## The destination path -/

namespace FolderStructure

/-- The path below the source directory, or the bare name. -/
def calculateRelativePath (sourcePath sourceBase : PurePath) : PurePath :=
  (sourcePath.relativeTo sourceBase).getD (parse (nameOf sourcePath.toText))

/-- The destination that keeps the folders. -/
def buildDestinationPath (sourcePath sourceBase destBase : PurePath) : PurePath :=
  destBase.joined (calculateRelativePath sourcePath sourceBase)

/-- The destination before numbering. -/
def buildDestinationPathWithTemplate (py : TextFunctions)
    (templateEngine : Option OutputFolderTemplateEngine)
    (sourcePath sourceBase destBase : PurePath) : Option PurePath :=
  match templateEngine.filter OutputFolderTemplateEngine.isEnabled with
  | some engine => (engine.generateOutputPath py (nameOf sourcePath.toText)).map parse
  | none => some (buildDestinationPath sourcePath sourceBase destBase)

/-- The destination of a file that the scanner has written down as `filePath`, before numbering. -/
def destinationPath (py : TextFunctions) (templateEngine : Option OutputFolderTemplateEngine)
    (sourceDirectory destinationDirectory filePath : Text) : Option PurePath :=
  buildDestinationPathWithTemplate py templateEngine (parse filePath) (parse sourceDirectory)
    (parse destinationDirectory)

end FolderStructure

open FolderStructure (destinationPath)

/-- The path `q` is that of `file` in the directories `dirs` below the directory `base`. -/
def IsBelow (base : PurePath) (dirs : List Text) (file : Text) (q : PurePath) : Prop :=
  q.root = base.root ∧ q.parts = base.parts ++ (dirs ++ [file])

/-- The folders of the source are found again at the destination, for the files of the set `found`:
every file is copied to where it is below the source directory, and no two to the same place. -/
structure FolderStructurePreserved (py : TextFunctions) (cwd : CurrentDirectory)
    (templateEngine : Option OutputFolderTemplateEngine)
    (sourceDirectory destinationDirectory : Text) (found : Finset PurePath) : Prop where
  destination : ∀ dirs file, (∀ c ∈ dirs, IsEntryName c) → IsEntryName file →
    discoveredPath cwd sourceDirectory dirs file ∈ found →
      ∃ q, destinationPath py templateEngine sourceDirectory destinationDirectory
          (discoveredPath cwd sourceDirectory dirs file).toText = some q ∧
        IsBelow (parse destinationDirectory) dirs file q
  injective : ∀ p ∈ found, ∀ p' ∈ found,
    destinationPath py templateEngine sourceDirectory destinationDirectory p.toText =
      destinationPath py templateEngine sourceDirectory destinationDirectory p'.toText → p = p'

/-- The setting is an absolute path without a part `..`. -/
def PlainDirectory (sourceDirectory : Text) : Prop :=
  sourceDirectory.head? = some '/' ∧ parent ∉ partsOf sourceDirectory

section Paths

variable {py : TextFunctions} {cwd : CurrentDirectory} {src dst file : Text} {dirs : List Text}

/-- The normal form of the source directory. -/
def sourceNormal (cwd : CurrentDirectory) (sourceDirectory : Text) : NormalPath :=
  normalize (parse (join cwd.text sourceDirectory))

/-- The source directory as text has the same normal form. -/
lemma sourceNormal_toText :
    normalize (parse (join cwd.text (parse src).toText)) = sourceNormal cwd src := by
  rw [sourceNormal, normalize_join, normalize_join, parse_toText_eq]

variable (cwd src) in
/-- The source directory is absolute once it is resolved. -/
lemma root_sourceNormal_ne_nil : (sourceNormal cwd src).root ≠ [] := by
  rw [sourceNormal, normalize_root]
  exact rootOf_join_ne_nil cwd.absolute

variable (cwd src) in
/-- **The path that the scanner writes down**: the names of the file behind the normal form of the
source directory.

**Proof sketch.** The scanner joins the names one by one and takes the absolute path at the end.
The names are no `..`, so normalising the walk appends them to the normal form of the source
directory (`normalize_join_walk`), and normalising keeps the root. -/
lemma discoveredPath_eq (hdirs : ∀ c ∈ dirs, IsEntryName c) (hfile : IsEntryName file) :
    (discoveredPath cwd src dirs file).root = (sourceNormal cwd src).root ∧
      (discoveredPath cwd src dirs file).parts =
        (sourceNormal cwd src).names ++ (dirs ++ [file]) := by
  have hparts : ∀ c ∈ dirs ++ [file], IsEntryName c := by
    intro c hc
    rcases List.mem_append.mp hc with hc | hc
    · exact hdirs c hc
    · rwa [List.mem_singleton.mp hc]
  have hwalk : join (dirs.foldl join (parse src).toText) file =
      (dirs ++ [file]).foldl join (parse src).toText := by
    rw [List.foldl_append]
    rfl
  have hnormal := normalize_join_walk (fun c hc => (hparts c hc).1)
    (fun hmem => (hparts parent hmem).2 rfl) cwd.text (parse src).toText
  rw [sourceNormal_toText, ← hwalk] at hnormal
  have hroot : (parse (join cwd.text (join (dirs.foldl join (parse src).toText) file))).root =
      (sourceNormal cwd src).root := by
    rw [← normalize_root, hnormal]
  constructor
  · rw [discoveredPath, parse_abspath]
    exact hroot
  · rw [discoveredPath, parse_abspath, parts_normal_of_root, hnormal]
    rw [hroot]
    exact root_sourceNormal_ne_nil cwd src

variable (cwd) in
/-- A plain directory is its own normal form. -/
lemma sourceNormal_of_plain (h : PlainDirectory src) :
    (sourceNormal cwd src).root = rootOf src ∧ (sourceNormal cwd src).names = partsOf src := by
  rw [sourceNormal, join, if_pos h.1, normalize_of_no_parent h.2]
  exact ⟨rfl, rfl⟩

variable (cwd) in
/-- **Below a plain directory** the scanner's path begins with the setting. -/
lemma relativeTo_of_plain (h : PlainDirectory src) (hdirs : ∀ c ∈ dirs, IsEntryName c)
    (hfile : IsEntryName file) :
    ∃ q, (discoveredPath cwd src dirs file).relativeTo (parse src) = some q ∧ q.root = [] ∧
      q.parts = dirs ++ [file] := by
  obtain ⟨hroot, hparts⟩ := discoveredPath_eq cwd src hdirs hfile
  obtain ⟨hroot', hnames⟩ := sourceNormal_of_plain cwd h
  rw [hnames] at hparts
  have hbegins : (discoveredPath cwd src dirs file).root = (parse src).root ∧
      (parse src).parts <+: (discoveredPath cwd src dirs file).parts := by
    rw [hroot, hroot', hparts]
    exact ⟨rfl, List.prefix_append _ _⟩
  refine ⟨_, if_pos hbegins, rfl, ?_⟩
  show (discoveredPath cwd src dirs file).parts.drop (partsOf src).length = dirs ++ [file]
  rw [hparts, List.drop_left]

/-- **Below any other directory** it does not. -/
lemma relativeTo_of_not_plain (h : ¬ PlainDirectory src) (hdirs : ∀ c ∈ dirs, IsEntryName c)
    (hfile : IsEntryName file) :
    (discoveredPath cwd src dirs file).relativeTo (parse src) = none := by
  obtain ⟨hroot, hparts⟩ := discoveredPath_eq cwd src hdirs hfile
  refine if_neg ?_
  rintro ⟨hsame, hprefix⟩
  refine h ⟨?_, fun hmem => ?_⟩
  · by_contra hrel
    refine root_sourceNormal_ne_nil cwd src ?_
    rw [← hroot, hsame]
    exact rootOf_eq_nil_iff.mpr hrel
  · have hin := hprefix.subset hmem
    rw [hparts, List.mem_append, List.mem_append, List.mem_singleton] at hin
    rcases hin with hin | hin | hin
    · exact (mem_names_normalize hin).2 rfl
    · exact (hdirs parent hin).2 rfl
    · exact hfile.2 hin.symm

/-- The name of the scanner's path is that of the file. -/
lemma nameOf_discoveredPath (hdirs : ∀ c ∈ dirs, IsEntryName c) (hfile : IsEntryName file) :
    nameOf (discoveredPath cwd src dirs file).toText = file := by
  rw [nameOf, ← parts_parse, parse_toText_eq, (discoveredPath_eq cwd src hdirs hfile).2,
    ← List.append_assoc, List.getLastD_concat]

/-- A file found has names. -/
lemma exists_of_mem_discoverAllFiles {sourceExists sourceIsDir : Bool} {walk : List WalkEntry}
    {p : PurePath} (h : p ∈ discoverAllFiles py cwd src sourceExists sourceIsDir walk) :
    ∃ dirs file, (∀ c ∈ dirs, IsEntryName c) ∧ IsEntryName file ∧
      p = discoveredPath cwd src dirs file := by
  unfold discoverAllFiles at h
  split_ifs at h
  · cases h
  · cases h
  · obtain ⟨entry, -, hp⟩ := List.mem_flatMap.mp (List.mem_toFinset.mp h)
    obtain ⟨file, hfile, rfl⟩ := List.mem_map.mp (List.mem_of_mem_filter hp)
    exact ⟨entry.dirs, file, entry.dirs_valid, entry.files_valid file hfile, rfl⟩

end Paths

section Destination

variable {py : TextFunctions} {cwd : CurrentDirectory} {src dst file : Text} {dirs : List Text}
  {templateEngine : Option OutputFolderTemplateEngine}

/-- Without templates, the relative path is put behind the destination directory. -/
lemma destinationPath_of_disabled
    (hoff : templateEngine.filter OutputFolderTemplateEngine.isEnabled = none) (path : PurePath) :
    destinationPath py templateEngine src dst path.toText =
      some (FolderStructure.buildDestinationPath path (parse src) (parse dst)) := by
  rw [destinationPath, FolderStructure.buildDestinationPathWithTemplate, hoff, parse_toText_eq]

/-- **The destination below a plain directory** keeps the folders. -/
lemma isBelow_of_plain (h : PlainDirectory src) (hdirs : ∀ c ∈ dirs, IsEntryName c)
    (hfile : IsEntryName file) :
    IsBelow (parse dst) dirs file
      (FolderStructure.buildDestinationPath (discoveredPath cwd src dirs file) (parse src)
        (parse dst)) := by
  obtain ⟨q, hq, hroot, hparts⟩ := relativeTo_of_plain cwd h hdirs hfile
  rw [FolderStructure.buildDestinationPath, FolderStructure.calculateRelativePath, hq,
    Option.getD_some]
  exact ⟨root_joined hroot, by rw [parts_joined hroot, hparts]⟩

variable (cwd dst) in
/-- **The destination below any other directory** is the bare name. -/
lemma isBelow_of_not_plain (h : ¬ PlainDirectory src) (hdirs : ∀ c ∈ dirs, IsEntryName c)
    (hfile : IsEntryName file) :
    IsBelow (parse dst) [] file
      (FolderStructure.buildDestinationPath (discoveredPath cwd src dirs file) (parse src)
        (parse dst)) := by
  have hroot : (parse file).root = [] := rootOf_eq_nil_iff.mpr (head?_part hfile.1)
  rw [FolderStructure.buildDestinationPath, FolderStructure.calculateRelativePath,
    relativeTo_of_not_plain h hdirs hfile, Option.getD_none, nameOf_discoveredPath hdirs hfile]
  refine ⟨root_joined hroot, ?_⟩
  rw [parts_joined hroot, parts_parse, parts_parse, partsOf_part hfile.1, List.nil_append]

/-- **When the folders of the source are found again**: when the setting is an absolute path without
`..`, or no file lies in a folder below the source directory.

**Proof sketch.** The scanner's path begins with the setting exactly when the setting is such a path
(`relativeTo_of_plain`, `relativeTo_of_not_plain`), and otherwise the destination is the bare name.
Where every file keeps its folders, the destination determines the file. -/
theorem folderStructurePreserved_iff {sourceExists sourceIsDir : Bool} {walk : List WalkEntry}
    (hoff : templateEngine.filter OutputFolderTemplateEngine.isEnabled = none) :
    FolderStructurePreserved py cwd templateEngine src dst
        (discoverAllFiles py cwd src sourceExists sourceIsDir walk) ↔
      PlainDirectory src ∨ ∀ dirs file, (∀ c ∈ dirs, IsEntryName c) → IsEntryName file →
        discoveredPath cwd src dirs file ∈
          discoverAllFiles py cwd src sourceExists sourceIsDir walk → dirs = [] := by
  constructor
  · intro h
    by_cases hplain : PlainDirectory src
    · exact .inl hplain
    · right
      intro dirs file hdirs hfile hfound
      obtain ⟨q, hq, hbelow⟩ := h.destination dirs file hdirs hfile hfound
      rw [destinationPath_of_disabled hoff, Option.some.injEq] at hq
      have hbare := isBelow_of_not_plain cwd dst hplain hdirs hfile
      rw [hq] at hbare
      have hsame : dirs ++ [file] = [] ++ [file] :=
        List.append_cancel_left (hbelow.2.symm.trans hbare.2)
      exact List.append_cancel_right hsame
  · intro h
    have hbelow : ∀ dirs file, (∀ c ∈ dirs, IsEntryName c) → IsEntryName file →
        discoveredPath cwd src dirs file ∈
          discoverAllFiles py cwd src sourceExists sourceIsDir walk →
        IsBelow (parse dst) dirs file
          (FolderStructure.buildDestinationPath (discoveredPath cwd src dirs file) (parse src)
        (parse dst)) := by
      intro dirs file hdirs hfile hfound
      by_cases hplain : PlainDirectory src
      · exact isBelow_of_plain hplain hdirs hfile
      · obtain rfl := h.resolve_left hplain dirs file hdirs hfile hfound
        exact isBelow_of_not_plain cwd dst hplain hdirs hfile
    constructor
    · intro dirs file hdirs hfile hfound
      exact ⟨_, destinationPath_of_disabled hoff _, hbelow dirs file hdirs hfile hfound⟩
    · intro p hp p' hp' hsame
      obtain ⟨dirs, file, hdirs, hfile, rfl⟩ := exists_of_mem_discoverAllFiles hp
      obtain ⟨dirs', file', hdirs', hfile', rfl⟩ := exists_of_mem_discoverAllFiles hp'
      rw [destinationPath_of_disabled hoff, destinationPath_of_disabled hoff,
        Option.some.injEq] at hsame
      have hparts := (hbelow dirs file hdirs hfile hp).2
      rw [hsame, (hbelow dirs' file' hdirs' hfile' hp').2] at hparts
      obtain ⟨rfl, hlast⟩ := List.append_inj' (List.append_cancel_left hparts) rfl
      rw [List.singleton_inj.mp hlast]

/-- The folder `a` below the source directory, with one file. -/
def folderA : WalkEntry where
  dirs := ["a".toList]
  files := ["x.mxf".toList]
  dirs_valid := by
    intro c hc
    rw [List.mem_singleton.mp hc]
    exact ⟨⟨by decide, by decide, by decide⟩, by decide⟩
  files_valid := by
    intro c hc
    rw [List.mem_singleton.mp hc]
    exact ⟨⟨by decide, by decide, by decide⟩, by decide⟩

/-- The process runs in `/work`. -/
def workDirectory : CurrentDirectory := ⟨"/work".toList, rfl⟩

/-- An absolute setting keeps the folder. -/
theorem folderStructurePreserved_absolute :
    FolderStructurePreserved plainText workDirectory none "/src".toList "/dst".toList
      (discoverAllFiles plainText workDirectory "/src".toList true true [folderA]) :=
  (folderStructurePreserved_iff rfl).mpr (.inl ⟨rfl, by decide⟩)

/-- With the setting `media`, the file `media/a/x.mxf` is copied to `/dst/x.mxf`. -/
theorem relative_setting_flattens :
    ¬ ∀ (py : TextFunctions) (cwd : CurrentDirectory)
      (templateEngine : Option OutputFolderTemplateEngine) (src dst : Text)
      (sourceExists sourceIsDir : Bool) (walk : List WalkEntry),
      templateEngine.filter OutputFolderTemplateEngine.isEnabled = none →
        FolderStructurePreserved py cwd templateEngine src dst
          (discoverAllFiles py cwd src sourceExists sourceIsDir walk) := by
  intro h
  have hkept := h plainText workDirectory none "media".toList "/dst".toList true true [folderA] rfl
  have hfound : discoveredPath workDirectory "media".toList ["a".toList] "x.mxf".toList ∈
      discoverAllFiles plainText workDirectory "media".toList true true [folderA] := by
    decide +kernel
  obtain ⟨q, hq, -, hparts⟩ := hkept.destination ["a".toList] "x.mxf".toList folderA.dirs_valid
    (folderA.files_valid _ List.mem_cons_self) hfound
  have hbare : (destinationPath plainText none "media".toList "/dst".toList
      (discoveredPath workDirectory "media".toList ["a".toList] "x.mxf".toList).toText).map
        PurePath.parts = some ["dst".toList, "x.mxf".toList] := by
    decide +kernel
  rw [hq, Option.map_some, hparts] at hbare
  revert hbare
  decide +kernel

end Destination

end FileAgent
