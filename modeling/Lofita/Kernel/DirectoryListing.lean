import Lofita.Foundation.Paths
import Lofita.Kernel.ProgramFiles

/-! # Directory listings of the shell

`rust_vfs_list_print` has no directories to look into: it goes through the paths of the files
in memory and of the devices, prints of each path behind the requested one the next component,
and adds the mount point and the entries of the mounted volume. Its lists name every file that
`cat` finds right below a directory and every entry of the volume's directory, and no name twice
unless the volume has it twice or shares it with a file in memory (`entries_exact`). They lead from
every directory above a file to the file (`files_reached`).
-/

namespace Lofita.Kernel

open Foundation Foundation.Outcome Foundation.Paths Fs Std

/-- The path of a directory, with a separator at its end; a path that is not UTF-8 is taken
as the root. -/
def normalized (reqPath : Option String) : String :=
  let path := reqPath.getD "/"
  if path.toList.getLast? = some '/' then path else path ++ "/"

/-- The entry that `add_entry` prints for a path. -/
def entryName (dirPath fullPath : String) : Option String :=
  (child '/' dirPath.toList fullPath.toList).map String.ofList

/-- The orders in which the hash maps of files and devices are gone through. -/
structure VisitOrder (vfs : VfsState) (dm : DriverManager) where
  ramfsKeys : List String
  driverKeys : List String
  mem_ramfsKeys : ∀ key, key ∈ ramfsKeys ↔ key ∈ vfs.ramfs
  mem_driverKeys : ∀ key, key ∈ driverKeys ↔ key ∈ dm.drivers

/-- The keys in their order. -/
def VisitOrder.sorted (vfs : VfsState) (dm : DriverManager) : VisitOrder vfs dm where
  ramfsKeys := vfs.ramfs.keys
  driverKeys := dm.drivers.keys
  mem_ramfsKeys _ := TreeMap.mem_keys
  mem_driverKeys _ := TreeMap.mem_keys

variable {vfs : VfsState} {dm : DriverManager}

/-- The paths of the mount point, shown on the way to a mounted volume. -/
def mountKeys (vfs : VfsState) (dirPath : String) : List String :=
  if vfs.ext2Fs.isNone then []
  else if dirPath = "/" then ["/mnt/"]
  else if dirPath = "/mnt/" then ["/mnt/ext2/"]
  else []

/-- The entries that `add_entry` prints, in their order. -/
def VisitOrder.entries (order : VisitOrder vfs dm) (dirPath : String) : List String :=
  collect (entryName dirPath) (order.ramfsKeys ++ order.driverKeys ++ mountKeys vfs dirPath) []

/-- A path without the separators at its end. -/
def trimEndSlashes (path : String) : String :=
  String.ofList (path.toList.reverse.dropWhile (· = '/')).reverse

/-- The entries of a directory of the mounted volume. -/
def listMounted (vfs : VfsState) (fuel : Nat) (dm : DriverManager) (dirPath : String) :
    Checked (List String) := do
  let some ext2 := vfs.ext2Fs | return []
  if ¬ hasPrefix "/mnt/ext2/" dirPath then
    return []
  let relPath := String.ofList (dirPath.toList.drop "/mnt/ext2/".length)
  let inodeNum ←
    if relPath = "" then pure ext2RootInode
    else (·.getD 0) <$> ext2.resolvePath dm fuel (trimEndSlashes relPath)
  if inodeNum ≠ 0 then ext2.listDir dm fuel inodeNum else return []

/-- What is printed: the entries, those of the mounted volume, and why there is none. -/
structure DirectoryListing where
  entries : List String
  mounted : List String
  mountError : Option String
deriving DecidableEq, Repr

/-- The line of a name. -/
def entryLine (entry : String) : String := "  " ++ entry ++ "\n"

/-- What `ls` prints, line by line. -/
def DirectoryListing.text (listing : DirectoryListing) : String :=
  String.join (listing.entries.map entryLine) ++ String.join (listing.mounted.map entryLine) ++
    (listing.mountError.elim "" fun err => "  (Ext2 not mounted: " ++ err ++ ")\n") ++
    if listing.entries = [] ∧ listing.mounted = [] ∧ listing.mountError = none then
      "  (empty or directory not found)\n"
    else ""

/-- What `rust_vfs_list_print` finds; `ext2Err` is the error of a failed mount. -/
def listDirectory (ext2Err : Option String) (order : VisitOrder vfs dm) (fuel : Nat)
    (reqPath : Option String) : Checked DirectoryListing := do
  let dirPath := normalized reqPath
  let mounted ← listMounted vfs fuel dm dirPath
  return {
    entries := order.entries dirPath
    mounted
    mountError := if vfs.ext2Fs.isNone ∧ hasPrefix "/mnt/ext2/" dirPath then ext2Err else none }

/-- `rust_vfs_list_print`: the text that is printed. -/
def vfsListPrint (ext2Err : Option String) (order : VisitOrder vfs dm) (fuel : Nat)
    (reqPath : Option String) : Checked String :=
  DirectoryListing.text <$> listDirectory ext2Err order fuel reqPath

/-! ### Entries -/

/-- The name is not empty and has no separator. -/
def IsFileName (name : String) : Prop := name ≠ "" ∧ '/' ∉ name.toList

/-- `cat` finds a file in memory or a device at a path. -/
def CatFinds (vfs : VfsState) (dm : DriverManager) (path : String) : Prop :=
  ∀ fuel, (∃ data, catFile vfs fuel dm path = .ok (.content .memory data)) ∨
    catFile vfs fuel dm path = .ok .device

/-- What is found in the mounted volume is no file in memory and no device. -/
theorem catMounted_source {fuel : Nat} {path : String} {output : CatOutput}
    (printed : catMounted vfs fuel dm path = .ok output) :
    output ≠ .device ∧ ∀ data, output ≠ .content .memory data := by
  unfold catMounted at printed
  split_ifs at printed
  · split at printed
    · obtain ⟨found, _, printed⟩ := ok_bind.mp printed
      split at printed
      · obtain ⟨inode, _, printed⟩ := ok_bind.mp printed
        split at printed
        · split_ifs at printed
          · cases printed
            exact ⟨nofun, nofun⟩
          · obtain ⟨data, _, printed⟩ := ok_bind.mp printed
            cases printed
            exact ⟨nofun, nofun⟩
        · cases printed
          exact ⟨nofun, nofun⟩
      · cases printed
        exact ⟨nofun, nofun⟩
    · cases printed
      exact ⟨nofun, nofun⟩
  · cases printed
    exact ⟨nofun, nofun⟩

/-- What `cat` finds outside the mounted volume. -/
theorem catFinds_iff {path : String} :
    CatFinds vfs dm path ↔ path ∈ vfs.ramfs ∨ path ∈ dm.drivers := by
  constructor
  · intro finds
    by_contra! nowhere
    obtain ⟨notMemory, notDevice⟩ := nowhere
    have found := finds 0
    simp only [catFile, TreeMap.getElem?_eq_none notMemory, notDevice, ↓reduceIte] at found
    rcases found with ⟨data, inMemory⟩ | device
    · exact (catMounted_source inMemory).2 data rfl
    · exact (catMounted_source device).1 rfl
  · intro found fuel
    unfold catFile
    cases memory : vfs.ramfs[path]? with
    | some file => exact .inl ⟨file.content, rfl⟩
    | none =>
        refine .inr (if_pos (found.resolve_left fun inMemory => ?_))
        rw [TreeMap.getElem?_eq_some_getElem inMemory] at memory
        cases memory

/-- An entry is the first part of a key below the directory. -/
theorem entryName_eq_some_iff_child {dirPath fullPath entry : String} :
    entryName dirPath fullPath = some entry ↔
      child '/' dirPath.toList fullPath.toList = some entry.toList := by
  unfold entryName
  rw [Option.map_eq_some_iff]
  constructor
  · rintro ⟨letters, isChild, rfl⟩
    rw [isChild, String.toList_ofList]
  · exact fun isChild => ⟨_, isChild, String.ofList_toList⟩

/-- A path is shown by its last name, or by the directory in which it lies. -/
theorem entryName_eq_some_iff {dirPath fullPath entry : String} :
    entryName dirPath fullPath = some entry ↔
      (IsFileName entry ∧ fullPath = dirPath ++ entry) ∨
        ∃ name rest, '/' ∉ name.toList ∧ entry = name ++ "/" ∧
          fullPath = dirPath ++ (entry ++ rest) := by
  rw [entryName_eq_some_iff_child, child_eq_some_iff]
  refine or_congr ?_ ?_
  · unfold IsFileName
    rw [← @String.toList_inj fullPath, String.toList_append, ne_eq, ne_eq,
      ← @String.toList_inj entry, and_assoc]
    exact and_left_comm
  · constructor
    · rintro ⟨name, rest, plain, isEntry, whole⟩
      refine ⟨String.ofList name, String.ofList rest, ?_, ?_, ?_⟩
      · rwa [String.toList_ofList]
      · rw [← String.toList_inj, String.toList_append, String.toList_ofList, isEntry]
        rfl
      · rw [← String.toList_inj, String.toList_append, String.toList_append,
          String.toList_ofList, whole]
    · rintro ⟨name, rest, plain, rfl, rfl⟩
      exact ⟨name.toList, rest.toList, plain, String.toList_append,
        by rw [String.toList_append, String.toList_append]⟩

/-- A mounted volume adds a directory. -/
def AddsDirectory (vfs : VfsState) (dirPath entry : String) : Prop :=
  vfs.ext2Fs.isSome ∧
    (dirPath = "/" ∧ entry = "mnt/" ∨ dirPath = "/mnt/" ∧ entry = "ext2/")

/-- The entries the mounted volume adds. -/
theorem entryName_mountKeys {dirPath entry : String} :
    (∃ key ∈ mountKeys vfs dirPath, entryName dirPath key = some entry) ↔
      AddsDirectory vfs dirPath entry := by
  have inRoot : entryName "/" "/mnt/" = some "mnt/" := by decide
  have inMnt : entryName "/mnt/" "/mnt/ext2/" = some "ext2/" := by decide
  unfold AddsDirectory mountKeys
  cases vfs.ext2Fs with
  | none => simp
  | some fs =>
      by_cases root : dirPath = "/"
      · subst root
        simp [inRoot, eq_comm]
      · by_cases mnt : dirPath = "/mnt/"
        · subst mnt
          simp [inMnt, eq_comm]
        · simp [root, mnt]

/-- The entries do not depend on the order of the visit. -/
theorem VisitOrder.mem_entries {order : VisitOrder vfs dm} {dirPath entry : String} :
    entry ∈ order.entries dirPath ↔
      (∃ path, CatFinds vfs dm path ∧ entryName dirPath path = some entry) ∨
        AddsDirectory vfs dirPath entry := by
  unfold VisitOrder.entries
  rw [mem_collect, or_iff_right List.not_mem_nil, ← entryName_mountKeys]
  simp only [List.mem_append, or_and_right, exists_or, order.mem_ramfsKeys, order.mem_driverKeys,
    catFinds_iff]

/-- In memory or among the devices, `cat` finds something of this name right in the directory, or
something below a directory of this name. -/
def InMemory (vfs : VfsState) (dm : DriverManager) (dirPath entry : String) : Prop :=
  (IsFileName entry ∧ CatFinds vfs dm (dirPath ++ entry)) ∨
    ∃ name, '/' ∉ name.toList ∧ entry = name ++ "/" ∧
      ∃ rest, CatFinds vfs dm (dirPath ++ (entry ++ rest))

theorem VisitOrder.mem_entries_iff {order : VisitOrder vfs dm} {dirPath entry : String} :
    entry ∈ order.entries dirPath ↔
      InMemory vfs dm dirPath entry ∨ AddsDirectory vfs dirPath entry := by
  rw [VisitOrder.mem_entries]
  refine or_congr_left ?_
  constructor
  · rintro ⟨path, finds, shown⟩
    rcases entryName_eq_some_iff.mp shown with ⟨isName, rfl⟩ | ⟨name, rest, plain, isEntry, rfl⟩
    · exact .inl ⟨isName, finds⟩
    · exact .inr ⟨name, plain, isEntry, rest, finds⟩
  · rintro (⟨isName, finds⟩ | ⟨name, plain, isEntry, rest, finds⟩)
    · exact ⟨_, finds, entryName_eq_some_iff.mpr (.inl ⟨isName, rfl⟩)⟩
    · exact ⟨_, finds, entryName_eq_some_iff.mpr (.inr ⟨name, rest, plain, isEntry, rfl⟩)⟩

/-! ### The mounted volume -/

/-- The names in the directory of the mounted volume that a path leads to. -/
def VolumeNames (vfs : VfsState) (fuel : Nat) (dm : DriverManager) (dirPath : String)
    (names : List String) : Prop :=
  ∃ ext2 rest inodeNum, vfs.ext2Fs = some ext2 ∧ dirPath = "/mnt/ext2/" ++ rest ∧
    ext2.resolvePath dm fuel (trimEndSlashes rest) = .ok (some inodeNum) ∧ inodeNum ≠ 0 ∧
    ext2.listDir dm fuel inodeNum = .ok names

/-- The directories of the volume are not those on the way to it. -/
theorem VolumeNames.not_addsDirectory {fuel : Nat} {dirPath : String} {names : List String}
    (volume : VolumeNames vfs fuel dm dirPath names) {entry : String} :
    ¬ AddsDirectory vfs dirPath entry := by
  obtain ⟨_, rest, _, _, rfl, _⟩ := volume
  have long : 10 ≤ ("/mnt/ext2/" ++ rest).length := by
    rw [String.length_append]
    exact Nat.le_add_right 10 rest.length
  rintro ⟨_, ⟨root, _⟩ | ⟨mnt, _⟩⟩
  · rw [root] at long
    exact absurd long (by decide)
  · rw [mnt] at long
    exact absurd long (by decide)

/-- Where the volume is looked into: at the inode that the rest of the path leads to. -/
theorem listMounted_eq {ext2 : Ext2Fs} (mounted : vfs.ext2Fs = some ext2) (fuel : Nat)
    (rest : String) :
    listMounted vfs fuel dm ("/mnt/ext2/" ++ rest) = do
      let found ← ext2.resolvePath dm fuel (trimEndSlashes rest)
      if found.getD 0 ≠ 0 then ext2.listDir dm fuel (found.getD 0) else return [] := by
  have below : hasPrefix "/mnt/ext2/" ("/mnt/ext2/" ++ rest) = true := by
    unfold hasPrefix
    rw [String.toList_append]
    exact List.isPrefixOf_iff_prefix.mpr (List.prefix_append _ _)
  have relative :
      String.ofList (("/mnt/ext2/" ++ rest).toList.drop "/mnt/ext2/".length) = rest := by
    rw [String.toList_append]
    exact (congrArg String.ofList List.drop_left).trans String.ofList_toList
  unfold listMounted
  simp only [mounted, below, relative, not_true_eq_false, if_false]
  by_cases root : rest = ""
  · subst root
    rfl
  · rw [if_neg root]
    cases ext2.resolvePath dm fuel (trimEndSlashes rest) <;> rfl

/-- What is printed for the mounted volume are the names of the directory, if there is one. -/
theorem listMounted_spec {fuel : Nat} {dirPath : String} {mounted : List String}
    (listed : listMounted vfs fuel dm dirPath = .ok mounted) :
    (∀ names, VolumeNames vfs fuel dm dirPath names → names = mounted) ∧
      (mounted ≠ [] → VolumeNames vfs fuel dm dirPath mounted) := by
  constructor
  · rintro names ⟨ext2, rest, inodeNum, isMounted, rfl, resolved, used, isList⟩
    rw [listMounted_eq isMounted, resolved] at listed
    change (if inodeNum ≠ 0 then ext2.listDir dm fuel inodeNum else _) = _ at listed
    rw [if_pos used, isList] at listed
    exact Except.ok.inj listed
  · intro some_name
    cases isMounted : vfs.ext2Fs with
    | none =>
        simp only [listMounted, isMounted] at listed
        exact absurd (Except.ok.inj listed).symm some_name
    | some ext2 =>
        by_cases below : hasPrefix "/mnt/ext2/" dirPath = true
        · obtain ⟨rest, whole⟩ := List.isPrefixOf_iff_prefix.mp below
          obtain rfl : dirPath = "/mnt/ext2/" ++ String.ofList rest := by
            refine String.toList_inj.mp (whole.symm.trans ?_)
            rw [String.toList_append]
            exact congrArg _ String.toList_ofList.symm
          rw [listMounted_eq isMounted] at listed
          obtain ⟨found, resolved, isList⟩ := ok_bind.mp listed
          split_ifs at isList with used
          · cases found with
            | none => exact absurd rfl used
            | some inodeNum =>
                exact ⟨ext2, _, inodeNum, isMounted, rfl, resolved, used, isList⟩
          · exact absurd (Except.ok.inj isList).symm some_name
        · simp only [listMounted, isMounted, below] at listed
          exact absurd (Except.ok.inj listed).symm some_name

theorem mem_mounted {fuel : Nat} {dirPath name : String} {mounted : List String}
    (listed : listMounted vfs fuel dm dirPath = .ok mounted) :
    name ∈ mounted ↔ ∃ names, VolumeNames vfs fuel dm dirPath names ∧ name ∈ names := by
  obtain ⟨unique, isVolume⟩ := listMounted_spec listed
  constructor
  · exact fun member => ⟨mounted, isVolume (List.ne_nil_of_mem member), member⟩
  · rintro ⟨names, volume, member⟩
    rwa [unique names volume] at member

/-! ### The text -/

/-- Why the volume is not looked into, where a path leads into it. -/
def missingVolume (vfs : VfsState) (ext2Err : Option String) (dirPath : String) : Option String :=
  if vfs.ext2Fs.isNone ∧ hasPrefix "/mnt/ext2/" dirPath then ext2Err else none

/-- What is printed after the names: why the volume is missing, or that there is nothing. -/
def listingNote (missing : Option String) (names : List String) : String :=
  match missing with
  | some err => "  (Ext2 not mounted: " ++ err ++ ")\n"
  | none => if names = [] then "  (empty or directory not found)\n" else ""

theorem join_append (first second : List String) :
    String.join (first ++ second) = String.join first ++ String.join second := by
  have start : String.join first = String.join first ++ "" := String.append_empty.symm
  change (first ++ second).foldl (· ++ ·) "" = _
  rw [List.foldl_append]
  change second.foldl (· ++ ·) (String.join first) = _
  rw [start, List.foldl_assoc, ← start]
  rfl

/-- The text is the line of each name, and the note. -/
theorem DirectoryListing.text_eq (listing : DirectoryListing) :
    listing.text = String.join ((listing.entries ++ listing.mounted).map entryLine) ++
      listingNote listing.mountError (listing.entries ++ listing.mounted) := by
  obtain ⟨entries, mounted, mountError⟩ := listing
  rw [List.map_append, join_append]
  unfold text listingNote
  cases mountError with
  | some err =>
      have noted : ¬ (entries = [] ∧ mounted = [] ∧ some err = none) := fun all => by
        cases all.2.2
      rw [if_neg noted]
      exact String.append_empty
  | none =>
      have nothing : (entries = [] ∧ mounted = [] ∧ (none : Option String) = none) ↔
          entries ++ mounted = [] := by
        rw [List.append_eq_nil_iff, and_iff_left rfl]
      rw [Option.elim_none, String.append_empty]
      exact congrArg _ (if_congr nothing rfl rfl)

theorem vfsListPrint_eq_ok {ext2Err reqPath : Option String} {order : VisitOrder vfs dm}
    {fuel : Nat} {text : String} (printed : vfsListPrint ext2Err order fuel reqPath = .ok text) :
    ∃ mounted, listMounted vfs fuel dm (normalized reqPath) = .ok mounted ∧
      let names := order.entries (normalized reqPath) ++ mounted
      text = String.join (names.map entryLine) ++
        listingNote (missingVolume vfs ext2Err (normalized reqPath)) names := by
  unfold vfsListPrint at printed
  obtain ⟨listing, listed, rfl⟩ := ok_map.mp printed
  obtain ⟨mounted, isMounted, same⟩ := ok_bind.mp listed
  cases same
  exact ⟨mounted, isMounted, DirectoryListing.text_eq _⟩

/-- **Listings are exact.** What is printed for a directory is a line for each name: those of the
files in memory and devices that `cat` finds right in it, those of the directories in which `cat`
finds one, the way to the mounted volume, and the names of its directory there. No name is printed
twice exactly if the volume's directory has none twice and shares none with the files in memory
and the devices. -/
theorem entries_exact (ext2Err : Option String) (order : VisitOrder vfs dm) (fuel : Nat)
    (reqPath : Option String) {text : String}
    (printed : vfsListPrint ext2Err order fuel reqPath = .ok text) :
    ∃ names, text = String.join (names.map entryLine) ++
        listingNote (missingVolume vfs ext2Err (normalized reqPath)) names ∧
      (∀ entry, entry ∈ names ↔ InMemory vfs dm (normalized reqPath) entry ∨
        AddsDirectory vfs (normalized reqPath) entry ∨
        ∃ volume, VolumeNames vfs fuel dm (normalized reqPath) volume ∧ entry ∈ volume) ∧
      (names.Nodup ↔ ∀ volume, VolumeNames vfs fuel dm (normalized reqPath) volume →
        volume.Nodup ∧ ∀ entry ∈ volume, ¬ InMemory vfs dm (normalized reqPath) entry) := by
  obtain ⟨mounted, listed, isText⟩ := vfsListPrint_eq_ok printed
  obtain ⟨unique, isVolume⟩ := listMounted_spec listed
  refine ⟨_, isText, fun entry => ?_, ?_⟩
  · rw [List.mem_append, VisitOrder.mem_entries_iff, mem_mounted listed, or_assoc]
  · have distinct : (order.entries (normalized reqPath)).Nodup := nodup_collect List.nodup_nil
    rw [List.nodup_append', and_iff_right distinct]
    constructor
    · rintro ⟨distinct, apart⟩ volume isNames
      cases unique volume isNames
      refine ⟨distinct, fun entry member inMemory => ?_⟩
      exact apart (VisitOrder.mem_entries_iff.mpr (.inl inMemory)) member
    · intro once
      by_cases nothing : mounted = []
      · rw [nothing]
        exact ⟨List.nodup_nil, List.disjoint_nil_right _⟩
      · have volume := isVolume nothing
        obtain ⟨distinct, apart⟩ := once mounted volume
        refine ⟨distinct, fun entry inEntries member => ?_⟩
        rcases VisitOrder.mem_entries_iff.mp inEntries with inMemory | adds
        · exact apart entry member inMemory
        · exact volume.not_addsDirectory adds

/-- A volume with a file `a`, and a file in memory under the path of it. -/
def doubledVfs : VfsState :=
  { VfsState.shadowed with
    ramfs := VfsState.shadowed.ramfs.insert "/mnt/ext2/a" ⟨"/mnt/ext2/a", []⟩ }

/-- The directory of the volume, where the name is printed twice. -/
theorem entries_exact_root :
    ∃ names, "  a\n  a\n" = String.join (names.map entryLine) ++
        listingNote (missingVolume doubledVfs none (normalized "/mnt/ext2")) names ∧
      (∀ entry, entry ∈ names ↔
        InMemory doubledVfs (Ext2Fs.diskManager VfsState.shadowDisk) (normalized "/mnt/ext2")
          entry ∨
        AddsDirectory doubledVfs (normalized "/mnt/ext2") entry ∨
        ∃ volume, VolumeNames doubledVfs 2 (Ext2Fs.diskManager VfsState.shadowDisk)
          (normalized "/mnt/ext2") volume ∧ entry ∈ volume) ∧
      (names.Nodup ↔ ∀ volume, VolumeNames doubledVfs 2 (Ext2Fs.diskManager VfsState.shadowDisk)
          (normalized "/mnt/ext2") volume →
        volume.Nodup ∧ ∀ entry ∈ volume,
          ¬ InMemory doubledVfs (Ext2Fs.diskManager VfsState.shadowDisk) (normalized "/mnt/ext2")
            entry) :=
  entries_exact none (.sorted doubledVfs (Ext2Fs.diskManager VfsState.shadowDisk)) 2 "/mnt/ext2"
    (by decide +kernel)

/-- An entry that `rust_vfs_list_print` prints for a directory. -/
def Shows (order : VisitOrder vfs dm) (dirPath entry : List Char) : Prop :=
  String.ofList entry ∈ order.entries (normalized (String.ofList dirPath))

theorem normalized_of_getLast? {dirPath : String} (ends : dirPath.toList.getLast? = some '/') :
    normalized dirPath = dirPath := if_pos ends

/-- **Every file can be found.** From each directory above a file in memory or a device, lists
lead to it: each shows the directory of the next, and the last one the file. -/
theorem files_reached (order : VisitOrder vfs dm) {dirPath path : String}
    (isDirectory : dirPath.toList.getLast? = some '/') (finds : CatFinds vfs dm path)
    (above : hasPrefix dirPath path) (strictly : dirPath ≠ path) :
    Descends '/' (Shows order) dirPath.toList path.toList := by
  have foundAt : path.toList ∈ { path | CatFinds vfs dm (String.ofList path) } := by
    rwa [Set.mem_ofPred_eq, String.ofList_toList]
  refine descends_of_prefix ?_ isDirectory foundAt (List.isPrefixOf_iff_prefix.mp above)
    fun same => strictly (String.toList_inj.mp same)
  intro dir file entry ends finds isChild
  unfold Shows
  rw [normalized_of_getLast? (by rwa [String.toList_ofList]), VisitOrder.mem_entries]
  refine .inl ⟨_, finds, entryName_eq_some_iff_child.mpr ?_⟩
  simpa only [String.toList_ofList] using isChild

/-- The way from the root to the disk. -/
theorem files_reached_disk :
    Descends '/' (Shows (.sorted .shadowed (Ext2Fs.diskManager VfsState.shadowDisk)))
      "/".toList "/dev/hda".toList :=
  files_reached _ (by decide) (catFinds_iff.mpr (.inr (by decide))) (by decide) (by decide)

end Lofita.Kernel
