import Lofita.Fs.Directory
import Lofita.Kernel.Spawn

/-! # The files that exec and cat see

`rust_vfs_cat_print` looks a path below `/mnt/ext2/` up in the mounted volume, without this
prefix; `rust_spawn_process` looks the whole path up in it. The two see the same file at a
path exactly if the volume has it both at the path and at the rest of the path
(`exec_cat_agree_iff`).
-/

namespace Lofita

open Foundation Foundation.Outcome Fs Std

namespace Fs.Ext2Fs

variable {fs : Ext2Fs} {dm : DriverManager} {start final : U32} {first second : List String}

/-- The parts lead from one inode of the volume to another. -/
def LeadsTo (fs : Ext2Fs) (dm : DriverManager) (parts : List String) (start final : U32) : Prop :=
  ∃ fuel, fs.resolveParts dm fuel parts start = .ok (some final)

/-- What the parts of a path lead to lies behind the first of them. -/
theorem exists_leadsTo_first (leads : fs.LeadsTo dm (first ++ second) start final) :
    ∃ next, fs.LeadsTo dm first start next := by
  obtain ⟨fuel, resolved⟩ := leads
  rw [resolveParts_append] at resolved
  obtain ⟨next, isFound, _⟩ := some_of_ok_bind resolved rfl nofun
  exact ⟨next, fuel, isFound⟩

/-- The inode is a non-empty regular file. -/
def RegularFile (fs : Ext2Fs) (dm : DriverManager) (inodeNum : U32) : Prop :=
  ∃ inode data, fs.getInode inodeNum dm = .ok (some inode) ∧ inode.iMode &&& 0xF000 = 0x8000 ∧
    fs.readInodeData dm inode = .ok data ∧ data ≠ []

/-- The parts of a path below the mount point. -/
theorem pathParts_mounted (rest : List Char) :
    pathParts (String.ofList ("/mnt/ext2/".toList ++ rest)) =
      "mnt" :: "ext2" :: pathParts (String.ofList rest) := by
  have split : (String.ofList ("/mnt/ext2/".toList ++ rest)).toList.splitOn '/' =
      [] :: "mnt".toList :: "ext2".toList :: (String.ofList rest).toList.splitOn '/' := by
    simp only [String.toList_ofList]
    change ([] ++ '/' :: ("mnt".toList ++ '/' :: ("ext2".toList ++ '/' :: rest))).splitOn '/' = _
    rw [List.splitOn_append_cons_self, List.splitOn_append_cons_self,
      List.splitOn_append_cons_self, List.splitOn_eq_singleton (by decide),
      List.splitOn_eq_singleton (by decide), List.splitOn_eq_singleton (by decide)]
    rfl
  unfold pathParts
  rw [split]
  rfl

end Fs.Ext2Fs

namespace Kernel

/-! ### Printing a file -/

/-- Where a content that is printed comes from. -/
inductive FileSource where
  | memory
  | inode (inodeNum : U32)
deriving DecidableEq, Repr

/-- What `rust_vfs_cat_print` finds at a path. -/
inductive CatOutput where
  | content (source : FileSource) (data : List U8)
  | device
  | isDirectory
  | notFound
deriving DecidableEq, Repr

/-- The text for it; of bytes that are no text only the number is printed. -/
def CatOutput.text (path : String) : CatOutput → String
  | .content _ data =>
      match fromUtf8 data with
      | some text => text ++ "\n"
      | none => "[Binary File - " ++ toString data.length ++ " bytes]\n"
  | .device => "[Device File - use dd or specialized tools to read]\n"
  | .isDirectory => "cat: " ++ path ++ ": Is a directory\n"
  | .notFound => "cat: " ++ path ++ ": No such file or directory\n"

variable (vfs : VfsState) (fuel : Nat) (dm : DriverManager)

/-- The lookup of `rust_vfs_cat_print` in the mounted volume. -/
def catMounted (path : String) : Checked CatOutput := do
  if ¬ hasPrefix "/mnt/ext2/" path then
    return .notFound
  let some ext2 := vfs.ext2Fs | return .notFound
  let relPath := String.ofList (path.toList.drop "/mnt/ext2/".length)
  let some inodeNum ← ext2.resolvePath dm fuel relPath | return .notFound
  let some inode ← ext2.getInode inodeNum dm | return .notFound
  if inode.isDirectory then
    return .isDirectory
  return .content (.inode inodeNum) (← ext2.readInodeData dm inode)

/-- What is found in memory, among the devices and in the mounted volume, in this order. -/
def catFile (path : String) : Checked CatOutput :=
  match vfs.ramfs[path]? with
  | some file => return .content .memory file.content
  | none => if path ∈ dm.drivers then return .device else catMounted vfs fuel dm path

/-- `rust_vfs_cat_print`: the text that is printed. -/
def vfsCatPrint (path : String) : Checked String :=
  CatOutput.text path <$> catFile vfs fuel dm path

/-- `rust_spawn_process` loads bytes from the inode. -/
def Executes (path : String) (inodeNum : U32) : Prop :=
  ∃ fuel data, readProgram vfs fuel dm path = .ok (some (inodeNum, data)) ∧ data.bytes ≠ []

/-- `rust_vfs_cat_print` prints the content of the inode. -/
def Prints (path : String) (inodeNum : U32) : Prop :=
  ∃ fuel data, catFile vfs fuel dm path = .ok (.content (.inode inodeNum) data)

variable {vfs fuel dm} {fs : Ext2Fs} {path : String} {inodeNum : U32}

/-! ### What the two calls see -/

/-- The bytes of a slice are those that are read. -/
theorem readSlice_ok {inode : Ext2Inode} {data : List U8}
    (read : fs.readInodeData dm inode = .ok data) :
    ∃ slice, fs.readSlice dm inode = .ok slice ∧ slice.bytes = data := by
  unfold Ext2Fs.readSlice
  split
  · next failed => cases read.symm.trans failed
  · next bytes done =>
      cases read.symm.trans done
      exact ⟨_, rfl, rfl⟩

/-- The parts of a path with the prefix of the mount point. -/
theorem pathParts_of_below (isBelow : hasPrefix "/mnt/ext2/" path = true) :
    Ext2Fs.pathParts path = ["mnt"] ++ "ext2" ::
      Ext2Fs.pathParts (String.ofList (path.toList.drop "/mnt/ext2/".length)) := by
  obtain ⟨rest, isRest⟩ : "/mnt/ext2/".toList <+: path.toList :=
    List.isPrefixOf_iff_prefix.mp isBelow
  have relative : path.toList.drop "/mnt/ext2/".length = rest := by
    rw [← isRest]
    exact List.drop_left
  have whole := Ext2Fs.pathParts_mounted rest
  rw [isRest, String.ofList_toList] at whole
  rw [relative, whole]
  rfl

/-- A program is read from the inode that the whole path leads to. -/
theorem executes_iff (mounted : vfs.ext2Fs = some fs) (file : fs.RegularFile dm inodeNum) :
    Executes vfs dm path inodeNum ↔
      fs.LeadsTo dm (Ext2Fs.pathParts path) ext2RootInode inodeNum := by
  obtain ⟨inode, data, isInode, _, read, nonempty⟩ := file
  obtain ⟨slice, isSlice, isData⟩ := readSlice_ok read
  refine exists_congr fun fuel => ?_
  constructor
  · rintro ⟨found, programRead, _⟩
    simp only [readProgram, mounted] at programRead
    obtain ⟨other, isResolved, programRead⟩ := some_of_ok_bind programRead rfl nofun
    obtain ⟨otherInode, _, programRead⟩ := some_of_ok_bind programRead rfl nofun
    obtain ⟨_, _, same⟩ := ok_bind.mp programRead
    cases same
    exact isResolved
  · intro resolved
    refine ⟨slice, ?_, by rwa [isData]⟩
    have isResolved : fs.resolvePath dm fuel path = .ok (some inodeNum) := resolved
    simp only [readProgram, mounted, isResolved, isInode, isSlice, bind_ok]
    rfl

/-- A regular file is no directory. -/
theorem not_isDirectory {inode : Ext2Inode} (regular : inode.iMode &&& 0xF000 = 0x8000) :
    inode.isDirectory = false := by
  unfold Ext2Inode.isDirectory
  rw [regular]
  rfl

/-- The content is printed of the inode that the rest of a path below the mount point leads
to. -/
theorem prints_iff (mounted : vfs.ext2Fs = some fs) (notMemory : path ∉ vfs.ramfs)
    (notDevice : path ∉ dm.drivers) (file : fs.RegularFile dm inodeNum) :
    Prints vfs dm path inodeNum ↔ hasPrefix "/mnt/ext2/" path = true ∧
      fs.LeadsTo dm (Ext2Fs.pathParts (String.ofList (path.toList.drop "/mnt/ext2/".length)))
        ext2RootInode inodeNum := by
  obtain ⟨inode, data, isInode, regular, read, _⟩ := file
  unfold Prints catFile
  simp only [TreeMap.getElem?_eq_none notMemory, notDevice, ↓reduceIte]
  by_cases below : hasPrefix "/mnt/ext2/" path = true
  · rw [and_iff_right below]
    refine exists_congr fun fuel => ?_
    unfold catMounted
    simp only [below, not_true_eq_false, ↓reduceIte, mounted]
    constructor
    · rintro ⟨found, printed⟩
      obtain ⟨other, isResolved, printed⟩ := some_of_ok_bind printed rfl nofun
      obtain ⟨otherInode, _, printed⟩ := some_of_ok_bind printed rfl nofun
      simp only at printed
      split_ifs at printed
      · cases printed
      · obtain ⟨_, _, same⟩ := ok_bind.mp printed
        cases same
        exact isResolved
    · intro resolved
      have isResolved : fs.resolvePath dm fuel
          (String.ofList (path.toList.drop "/mnt/ext2/".length)) = .ok (some inodeNum) := resolved
      refine ⟨data, ?_⟩
      simp only [isResolved, isInode, bind_ok, not_isDirectory regular, read]
      rfl
  · refine iff_of_false ?_ fun both => below both.1
    rintro ⟨fuel, found, printed⟩
    simp only [catMounted, below] at printed
    cases printed

/-- If the root of the volume has no entry `mnt`, exec and cat never see the same file at a
path. -/
theorem not_executes_and_prints (mounted : vfs.ext2Fs = some fs) (notMemory : path ∉ vfs.ramfs)
    (notDevice : path ∉ dm.drivers) (noMnt : ∀ next, ¬ fs.LeadsTo dm ["mnt"] ext2RootInode next)
    (file : fs.RegularFile dm inodeNum) :
    ¬ (Executes vfs dm path inodeNum ∧ Prints vfs dm path inodeNum) := by
  rintro ⟨executes, prints⟩
  obtain ⟨isBelow, _⟩ := (prints_iff mounted notMemory notDevice file).mp prints
  have reached := (executes_iff mounted file).mp executes
  rw [pathParts_of_below isBelow] at reached
  obtain ⟨next, mnt⟩ := Ext2Fs.exists_leadsTo_first reached
  exact noMnt next mnt

/-- Below the mount point a regular file is at the path in the volume exactly if it is at the
rest of the path; elsewhere none is at the path. -/
structure SeenAlike (fs : Ext2Fs) (dm : DriverManager) (path : String) : Prop where
  below : ∀ rest, path.toList = "/mnt/ext2/".toList ++ rest →
    ∀ inodeNum, fs.RegularFile dm inodeNum →
      (fs.LeadsTo dm ("mnt" :: "ext2" :: Ext2Fs.pathParts (String.ofList rest)) ext2RootInode
          inodeNum ↔
        fs.LeadsTo dm (Ext2Fs.pathParts (String.ofList rest)) ext2RootInode inodeNum)
  elsewhere : hasPrefix "/mnt/ext2/" path = false → ∀ inodeNum, fs.RegularFile dm inodeNum →
    ¬ fs.LeadsTo dm (Ext2Fs.pathParts path) ext2RootInode inodeNum

/-- **When exec and cat see the same files.** At a path that is neither a file in memory nor
a device, `rust_spawn_process` loads a regular file of the mounted volume exactly if
`rust_vfs_cat_print` prints it, if and only if the volume shows at the path what it shows at
the path without the prefix `/mnt/ext2/`. -/
theorem exec_cat_agree_iff (mounted : vfs.ext2Fs = some fs) (notMemory : path ∉ vfs.ramfs)
    (notDevice : path ∉ dm.drivers) :
    (∀ inodeNum, fs.RegularFile dm inodeNum →
      (Executes vfs dm path inodeNum ↔ Prints vfs dm path inodeNum)) ↔ SeenAlike fs dm path := by
  by_cases isBelow : hasPrefix "/mnt/ext2/" path = true
  · obtain ⟨rest, isRest⟩ : "/mnt/ext2/".toList <+: path.toList :=
      List.isPrefixOf_iff_prefix.mp isBelow
    have relative : path.toList.drop "/mnt/ext2/".length = rest := by
      rw [← isRest]
      exact List.drop_left
    have whole : Ext2Fs.pathParts path =
        "mnt" :: "ext2" :: Ext2Fs.pathParts (String.ofList rest) := by
      rw [pathParts_of_below isBelow, relative]
      rfl
    constructor
    · intro agree
      refine ⟨fun other isOther inodeNum file => ?_, fun outside => ?_⟩
      · cases List.append_cancel_left (isRest.trans isOther)
        have same := agree inodeNum file
        rw [executes_iff mounted file, prints_iff mounted notMemory notDevice file,
          and_iff_right isBelow, whole, relative] at same
        exact same
      · rw [isBelow] at outside
        cases outside
    · intro alike inodeNum file
      rw [executes_iff mounted file, prints_iff mounted notMemory notDevice file,
        and_iff_right isBelow, whole, relative]
      exact alike.below rest isRest.symm inodeNum file
  · have outside : hasPrefix "/mnt/ext2/" path = false := Bool.not_eq_true _ ▸ isBelow
    have nothing {inodeNum : U32} (file : fs.RegularFile dm inodeNum) :
        ¬ Prints vfs dm path inodeNum := fun prints =>
      isBelow ((prints_iff mounted notMemory notDevice file).mp prints).1
    constructor
    · intro agree
      refine ⟨fun rest isRest => ?_, fun _ inodeNum file reached => ?_⟩
      · exact absurd (List.isPrefixOf_iff_prefix.mpr ⟨rest, isRest.symm⟩) isBelow
      · exact nothing file ((agree inodeNum file).mp ((executes_iff mounted file).mpr reached))
    · intro alike inodeNum file
      refine iff_of_false (fun executes => ?_) (nothing file)
      exact alike.elsewhere outside inodeNum file ((executes_iff mounted file).mp executes)

/-- At the path of the file `a` from the root of its volume. -/
theorem exec_cat_agree_iff_shadowed :
    (∀ inodeNum, Ext2Fs.filledFs.RegularFile (Ext2Fs.diskManager VfsState.shadowDisk) inodeNum →
      (Executes .shadowed (Ext2Fs.diskManager VfsState.shadowDisk) "/a" inodeNum ↔
        Prints .shadowed (Ext2Fs.diskManager VfsState.shadowDisk) "/a" inodeNum)) ↔
      SeenAlike Ext2Fs.filledFs (Ext2Fs.diskManager VfsState.shadowDisk) "/a" :=
  exec_cat_agree_iff rfl TreeMap.not_mem_emptyc (by decide)

/-- The file `a` of the volume is executed at `/a` and printed at `/mnt/ext2/a`. -/
theorem not_exec_cat_agree :
    "/a" ∉ VfsState.shadowed.ramfs ∧ "/a" ∉ (Ext2Fs.diskManager VfsState.shadowDisk).drivers ∧
      Ext2Fs.filledFs.RegularFile (Ext2Fs.diskManager VfsState.shadowDisk) 3 ∧
      (Executes .shadowed (Ext2Fs.diskManager VfsState.shadowDisk) "/a" 3 ∧
        ¬ Prints .shadowed (Ext2Fs.diskManager VfsState.shadowDisk) "/a" 3) ∧
      Prints .shadowed (Ext2Fs.diskManager VfsState.shadowDisk) "/mnt/ext2/a" 3 := by
  have file : (do
      let some inode ← Ext2Fs.filledFs.getInode 3 (Ext2Fs.diskManager VfsState.shadowDisk)
        | return none
      let data ← Ext2Fs.filledFs.readInodeData (Ext2Fs.diskManager VfsState.shadowDisk) inode
      return some (inode.iMode, data) : Checked (Option (U16 × List U8))) =
        .ok (some (0x8000, [0x78])) := by
    decide +kernel
  have bytes : (readProgram .shadowed 2 (Ext2Fs.diskManager VfsState.shadowDisk) "/a").map
      (Option.map fun found => (found.1, found.2.bytes)) = .ok (some (3, [0x78])) := by
    decide +kernel
  have notMemory : "/a" ∉ VfsState.shadowed.ramfs := TreeMap.not_mem_emptyc
  have notDevice : "/a" ∉ (Ext2Fs.diskManager VfsState.shadowDisk).drivers := by decide
  refine ⟨notMemory, notDevice, ?_, ⟨?_, ?_⟩, 2, [0x78], by decide +kernel⟩
  · obtain ⟨found, isInode, file⟩ := ok_bind.mp file
    cases found with
    | none => cases file
    | some inode =>
        obtain ⟨data, read, same⟩ := ok_bind.mp file
        obtain ⟨mode, content⟩ := Prod.mk.inj (Option.some.inj (Except.ok.inj same))
        refine ⟨inode, data, isInode, ?_, read, ?_⟩
        · rw [mode]
          decide
        · rw [content]
          exact List.cons_ne_nil _ _
  · obtain ⟨found, read, isFound⟩ := ok_map.mp bytes
    obtain ⟨⟨inodeNum, data⟩, rfl, same⟩ := Option.map_eq_some_iff.mp isFound
    obtain ⟨rfl, content⟩ := Prod.mk.inj same
    refine ⟨2, data, read, ?_⟩
    rw [show data.bytes = [0x78] from content]
    exact List.cons_ne_nil _ _
  · rintro ⟨fuel, data, printed⟩
    have elsewhere : hasPrefix "/mnt/ext2/" "/a" = false := by decide
    simp only [catFile, TreeMap.getElem?_eq_none notMemory, notDevice, ↓reduceIte, catMounted,
      elsewhere] at printed
    cases printed

example :
    vfsCatPrint .shadowed 2 (Ext2Fs.diskManager VfsState.shadowDisk) "/mnt/ext2/a" = .ok "x\n" ∧
      vfsCatPrint .shadowed 2 (Ext2Fs.diskManager VfsState.shadowDisk) "/a" =
        .ok "cat: /a: No such file or directory\n" := by
  decide +kernel

end Kernel

end Lofita
