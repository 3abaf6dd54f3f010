import Mathlib.Data.String.Basic
import Lofita.Fs.Directory
import Lofita.Fs.Holes

/-! # Scanning corrupt directories

The entry loop of `resolve_path` ends unless it passes over an entry of length zero, at
which `list_dir` stops (`findEntry_ends`, `findEntry_stalls`, `listEntries_ends`); so
looking up a path ends exactly if the search in each directory on the way does
(`scans_end_iff`). No scan of some bytes reads out of range exactly if the entries that
the lengths lead to lie in them (`scans_in_bounds_iff`).
-/

namespace Lofita.Fs.Ext2Fs

open Lofita.Foundation Lofita.Foundation.Outcome Lofita.Foundation.Scan

variable {dirData : List U8} {part : String} {offset : Nat}

/-! ### Whether a scan ends -/

/-- The search for a name comes to an entry at an offset. -/
inductive Visits (dirData : List U8) (part : String) : Nat → Prop where
  | first : Visits dirData part 0
  | next {offset : Nat} (visits : Visits dirData part offset)
      (passes : PassesOver dirData part offset) :
      Visits dirData part (offset + (headAt dirData offset).recLen)

/-- The search for a name passes over an entry of length zero, and so comes back to it. -/
def Stalls (dirData : List U8) (part : String) : Prop :=
  ∃ offset, Visits dirData part offset ∧ PassesOver dirData part offset ∧
    (headAt dirData offset).recLen = 0

/-- The search for a name finds an entry with an inode. -/
def Finds (dirData : List U8) (part : String) (inodeNum : U32) : Prop :=
  ∃ offset, Visits dirData part offset ∧ FindsAt dirData part offset ∧
    (headAt dirData offset).inode = inodeNum

/-- The offsets a search visits are those its steps come to. -/
theorem visits_iff : Visits dirData part offset ↔ Comes (findStep dirData part) 0 offset := by
  constructor
  · intro visits
    induction visits with
    | first => exact .start
    | next _ passes ih => exact ih.next (findStep_passes passes)
  · intro comes
    induction comes with
    | start => exact .first
    | next _ goesOn ih =>
        obtain ⟨passes, rfl⟩ := findStep_goOn_iff.mp goesOn
        exact ih.next passes

/-- A search that ends has come to an entry at which it does. -/
theorem findEntry_outcome {fuel : Nat} {outcome : Checked (Option U32)}
    (done : findEntry dirData part fuel 0 = outcome) (ended : outcome ≠ .error .outOfFuel) :
    ∃ last, Visits dirData part last ∧ EndsAt (findStep dirData part) last outcome := by
  rw [findEntry_eq_run] at done
  obtain ⟨last, comes, ends⟩ := run_outcome done ended
  exact ⟨last, visits_iff.mpr comes, ends⟩

/-- A search that ends at an offset it visits returns what it found there. -/
theorem findEntry_of_endsAt {outcome : Checked (Option U32)} (visits : Visits dirData part offset)
    (ends : EndsAt (findStep dirData part) offset outcome) :
    ∃ enough, findEntry dirData part enough 0 = outcome := by
  obtain ⟨enough, done⟩ := run_of_endsAt Fault.outOfFuel (visits_iff.mp visits) ends
  exact ⟨enough, (findEntry_eq_run ..).trans done⟩

/-- A search that does not stall ends within as many steps as there are bytes. -/
theorem findEntry_ends (goesOn : ¬ Stalls dirData part) {fuel : Nat}
    (enough : dirData.length < fuel) : findEntry dirData part fuel 0 ≠ .error .outOfFuel := by
  rw [findEntry_eq_run]
  refine run_ends (fun offset => dirData.length - offset) ?_ ?_ enough
  · intro offset after comes stepped
    obtain ⟨passes, rfl⟩ := findStep_goOn_iff.mp stepped
    have below := passes.head.below
    have positive : (headAt dirData offset).recLen ≠ 0 := fun zero =>
      goesOn ⟨offset, visits_iff.mpr comes, passes, zero⟩
    omega
  · intro offset _ failed
    cases (findStep_error failed).2

/-- A search that stalls runs out of every fuel. -/
theorem findEntry_stalls (stalls : Stalls dirData part) (fuel : Nat) :
    findEntry dirData part fuel 0 = .error .outOfFuel := by
  obtain ⟨offset, visits, passes, zero⟩ := stalls
  rw [findEntry_eq_run]
  refine run_stuck (visits_iff.mp visits) ?_ fuel
  have stepped := findStep_passes passes
  rwa [zero, Nat.add_zero] at stepped

/-- A search that has ended ends the same way with more fuel. -/
theorem findEntry_mono {fuel more : Nat}
    (ended : findEntry dirData part fuel 0 ≠ .error .outOfFuel) (le : fuel ≤ more) :
    findEntry dirData part more 0 = findEntry dirData part fuel 0 := by
  rw [findEntry_eq_run] at ended ⊢
  rw [findEntry_eq_run]
  exact run_mono ended le

/-- A search that gives an inode has found it. -/
theorem finds_of_findEntry {fuel : Nat} {inodeNum : U32}
    (found : findEntry dirData part fuel 0 = .ok (some inodeNum)) :
    Finds dirData part inodeNum := by
  obtain ⟨last, visits, ends⟩ := findEntry_outcome found (by rintro ⟨⟩)
  exact ⟨last, visits, findStep_done ends⟩

/-- An entry that is found is returned. -/
theorem findEntry_of_finds {inodeNum : U32} (finds : Finds dirData part inodeNum) :
    ∃ enough, findEntry dirData part enough 0 = .ok (some inodeNum) := by
  obtain ⟨offset, visits, here, rfl⟩ := finds
  exact findEntry_of_endsAt visits (findStep_finds here)

/-- Searches that end agree. -/
theorem findEntry_unique {fuel more : Nat} {first second : Checked (Option U32)}
    (one : findEntry dirData part fuel 0 = first) (ended : first ≠ .error .outOfFuel)
    (other : findEntry dirData part more 0 = second) (endedToo : second ≠ .error .outOfFuel) :
    first = second := by
  subst one
  subst other
  rw [← findEntry_mono ended (Nat.le_max_left fuel more),
    findEntry_mono endedToo (Nat.le_max_right fuel more)]

/-- **Listing ends**, within as many steps as there are bytes. -/
theorem listEntries_ends {fuel : Nat} (enough : dirData.length < fuel) :
    listEntries dirData fuel ≠ .error .outOfFuel := by
  refine run_ends (fun state => dirData.length - state.1) ?_ ?_ enough
  · rintro ⟨offset, entries⟩ after _ stepped
    obtain ⟨head, positive, rfl⟩ := listStep_goOn stepped
    have below := head.below
    change dirData.length - (offset + _) < dirData.length - offset
    omega
  · rintro ⟨offset, entries⟩ _ failed
    cases (listStep_error failed).2

/-! ### Whether a lookup ends -/

/-- The searches on the way along the parts of a path all end. -/
def ScansEnd (fs : Ext2Fs) (dm : DriverManager) : List String → U32 → Prop
  | [], _ => True
  | part :: rest, current =>
      ∀ dirData, fs.directoryData dm current = .ok (some dirData) →
        ¬ Stalls dirData part ∧ ∀ next, Finds dirData part next → ScansEnd fs dm rest next

variable {fs : Ext2Fs} {dm : DriverManager} {fuel : Nat} {current : U32}

/-! The scans are the only loops that need not end, if the device answers. -/

theorem slice_avoids (data : List U8) (first last : Nat) :
    Avoids .outOfFuel (slice data first last) := by
  unfold slice
  split
  · exact .pure _
  · exact .throw (by decide)

theorem readRecord_avoids {α : Type} (size : Nat) (fields : List U8 → α) (data : List U8) :
    Avoids .outOfFuel (readRecord size fields data) := by
  unfold readRecord
  split
  · exact .throw (by decide)
  · exact .pure _

/-- Reading a block ends where the device answers. -/
theorem readBlock_avoids (answers : dm.Answers fs.devicePath) (block : U32) :
    Avoids .outOfFuel (fs.readBlock block dm) := by
  unfold readBlock DriverManager.readDevice
  cases found : dm.drivers[fs.devicePath]? with
  | none => exact .pure none
  | some driver => exact .map (answers driver found _ _) some

theorem copyBlock_avoids (blockData : List U8) (progress : Progress) :
    Avoids .outOfFuel (fs.copyBlock blockData progress) :=
  .bind (slice_avoids _ _ _) fun _ _ => .pure _

theorem withBlock_avoids (answers : dm.Answers fs.devicePath)
    {use : List U8 → Progress → Checked Progress}
    (uses : ∀ blockData progress, Avoids .outOfFuel (use blockData progress)) (block : U32)
    (progress : Progress) : Avoids .outOfFuel (fs.withBlock dm use block progress) := by
  refine .bind (readBlock_avoids answers block) fun found _ => ?_
  cases found with
  | none => exact .pure progress
  | some blockData => exact uses blockData progress

/-- A loop over pointers ends if its body does. -/
theorem forPointers_avoids {body : U32 → Progress → Checked Progress}
    (bodies : ∀ block progress, Avoids .outOfFuel (body block progress)) (pointers : List U32)
    (progress : Progress) : Avoids .outOfFuel (forPointers body pointers progress) := by
  induction pointers generalizing progress with
  | nil => exact .pure progress
  | cons block rest ih =>
      unfold forPointers
      split
      · exact .pure progress
      · exact .bind (bodies block progress) fun next _ => ih next

/-- Reading a tree of blocks ends. -/
theorem readTree_avoids (answers : dm.Answers fs.devicePath) (depth : Nat) (block : U32)
    (progress : Progress) : Avoids .outOfFuel (fs.readTree dm depth block progress) := by
  induction depth generalizing block progress with
  | zero => exact withBlock_avoids answers copyBlock_avoids block progress
  | succ depth ih =>
      unfold readTree throughBlock
      refine withBlock_avoids answers (fun blockData progress => ?_) block progress
      exact .bind (readRecord_avoids _ _ _) fun pointers _ => forPointers_avoids ih pointers _

/-- Reading the direct blocks ends. -/
theorem readDirect_avoids (answers : dm.Answers fs.devicePath) (pointers : List U32)
    (progress : Progress) : Avoids .outOfFuel (fs.readDirect dm pointers progress) := by
  induction pointers generalizing progress with
  | nil => exact .pure progress
  | cons block rest ih =>
      unfold readDirect
      split
      · exact .pure progress
      · refine .bind (readBlock_avoids answers block) fun found _ => ?_
        cases found with
        | none => exact .pure progress
        | some blockData => exact .bind (copyBlock_avoids blockData progress) fun next _ => ih next

/-- Reading through an indirect block ends. -/
theorem readIndirect_avoids (answers : dm.Answers fs.devicePath) (depth : Nat) (block : U32)
    (progress : Progress) :
    Avoids .outOfFuel (readIndirect (fs.readTree dm depth) block progress) := by
  unfold readIndirect
  split
  · exact readTree_avoids answers depth block progress
  · exact .pure progress

/-- Reading a file ends, whatever its inode says. -/
theorem readInodeData_avoids (answers : dm.Answers fs.devicePath) (inode : Ext2Inode) :
    Avoids .outOfFuel (fs.readInodeData dm inode) := by
  refine .bind (readDirect_avoids answers _ _) fun _ _ => ?_
  refine .bind (readIndirect_avoids answers 1 _ _) fun _ _ => ?_
  refine .bind (readIndirect_avoids answers 2 _ _) fun _ _ => ?_
  exact .bind (readIndirect_avoids answers 3 _ _) fun _ _ => .pure _

theorem getInode_avoids (answers : dm.Answers fs.devicePath) (inodeNum : U32) :
    Avoids .outOfFuel (fs.getInode inodeNum dm) := by
  unfold getInode
  split
  · exact .pure none
  split
  · exact .throw (by decide)
  simp only
  split
  · exact .throw (by decide)
  · refine .bind ?_ fun found _ => ?_
    · unfold DriverManager.readDevice
      cases found : dm.drivers[fs.devicePath]? with
      | none => exact .pure none
      | some driver => exact .map (answers driver found _ _) some
    · cases found with
      | none => exact .pure none
      | some data => exact .map (readRecord_avoids _ _ _) some

/-- Reading a directory ends, so only scanning it may not. -/
theorem directoryData_avoids (answers : dm.Answers fs.devicePath) (inodeNum : U32) :
    Avoids .outOfFuel (fs.directoryData dm inodeNum) := by
  refine .bind (getInode_avoids answers inodeNum) fun found _ => ?_
  cases found with
  | none => exact .pure none
  | some inode =>
      simp only
      split
      · exact .map (readInodeData_avoids answers inode) some
      · exact .pure none

/-- A lookup that ends has searched the directory it starts in to an end. -/
theorem search_of_resolveParts {dirData : List U8} {part : String} {rest : List String}
    (read : fs.directoryData dm current = .ok (some dirData))
    (ended : fs.resolveParts dm fuel (part :: rest) current ≠ .error .outOfFuel) :
    findEntry dirData part fuel 0 ≠ .error .outOfFuel := by
  intro out
  rw [resolveParts_search read, out] at ended
  exact ended rfl

/-- A resolution that has ended ends the same way with more fuel. -/
theorem resolveParts_mono {parts : List String} {more : Nat}
    (ended : fs.resolveParts dm fuel parts current ≠ .error .outOfFuel) (le : fuel ≤ more) :
    fs.resolveParts dm more parts current = fs.resolveParts dm fuel parts current := by
  induction parts generalizing current with
  | nil => rfl
  | cons part rest ih =>
      rcases read : fs.directoryData dm current with _ | (_ | dirData)
      · rw [resolveParts_cons, resolveParts_cons, read]
        rfl
      · rw [resolveParts_cons, resolveParts_cons, read]
        rfl
      · have searched := search_of_resolveParts read ended
        rcases found : findEntry dirData part fuel 0 with _ | (_ | next)
        · rw [resolveParts_search read, resolveParts_search read, findEntry_mono searched le, found]
          rfl
        · rw [resolveParts_search read, resolveParts_search read, findEntry_mono searched le, found]
          rfl
        · rw [resolveParts_found read found] at ended ⊢
          rw [resolveParts_found read ((findEntry_mono searched le).trans found)]
          exact ih ended

/-- Where a resolution ended, each scan on its way did. -/
theorem scansEnd_of_resolveParts {parts : List String}
    (ended : fs.resolveParts dm fuel parts current ≠ .error .outOfFuel) :
    fs.ScansEnd dm parts current := by
  induction parts generalizing current with
  | nil => trivial
  | cons part rest ih =>
      intro dirData read
      have searched := search_of_resolveParts read ended
      refine ⟨fun stalls => searched (findEntry_stalls stalls fuel), fun next finds => ?_⟩
      obtain ⟨enough, found⟩ := findEntry_of_finds finds
      have same := findEntry_unique rfl searched found (by rintro ⟨⟩)
      rw [resolveParts_found read same] at ended
      exact ih ended

/-- Where each scan ends, enough fuel resolves the path. -/
theorem resolveParts_of_scansEnd (answers : dm.Answers fs.devicePath) {parts : List String}
    (ends : fs.ScansEnd dm parts current) :
    ∃ fuel, fs.resolveParts dm fuel parts current ≠ .error .outOfFuel := by
  induction parts generalizing current with
  | nil => exact ⟨0, by rintro ⟨⟩⟩
  | cons part rest ih =>
      rcases read : fs.directoryData dm current with fault | (_ | dirData)
      · refine ⟨0, fun out => ?_⟩
        rw [resolveParts_cons, read, bind_error] at out
        cases out
        exact directoryData_avoids answers current read
      · refine ⟨0, fun out => ?_⟩
        rw [resolveParts_cons, read] at out
        cases out
      · obtain ⟨goesOn, later⟩ := ends dirData read
        have searched := findEntry_ends goesOn (Nat.lt_succ_self dirData.length)
        rcases found : findEntry dirData part (dirData.length + 1) 0 with fault | (_ | next)
        · refine ⟨dirData.length + 1, fun out => ?_⟩
          rw [resolveParts_search read, found, bind_error] at out
          exact searched (found.trans out)
        · refine ⟨dirData.length + 1, fun out => ?_⟩
          rw [resolveParts_search read, found] at out
          cases out
        · obtain ⟨enough, ended⟩ := ih (later next (finds_of_findEntry found))
          have stillFound := (findEntry_mono searched (Nat.le_max_left _ enough)).trans found
          refine ⟨max (dirData.length + 1) enough, ?_⟩
          rw [resolveParts_found read stillFound, resolveParts_mono ended (Nat.le_max_right _ _)]
          exact ended

/-- **A lookup ends** exactly if the searches on its way do. -/
theorem resolveParts_ends_iff (answers : dm.Answers fs.devicePath) (parts : List String)
    (current : U32) :
    (∃ fuel, fs.resolveParts dm fuel parts current ≠ .error .outOfFuel) ↔
      fs.ScansEnd dm parts current :=
  ⟨fun ⟨_, ended⟩ => scansEnd_of_resolveParts ended, resolveParts_of_scansEnd answers⟩

/-! ### Both scans end -/

/-- **The scans end**, the listing of every inode and the lookup of a path, exactly if no
search on the way along the path stalls. The listing stops at an entry of length zero,
which the search passes over forever. -/
theorem scans_end_iff (answers : dm.Answers fs.devicePath) (path : String) :
    ((∀ inodeNum, ∃ fuel, fs.listDir dm fuel inodeNum ≠ .error .outOfFuel) ∧
        ∃ fuel, fs.resolvePath dm fuel path ≠ .error .outOfFuel) ↔
      fs.ScansEnd dm (pathParts path) ext2RootInode := by
  refine (and_iff_right fun inodeNum => ?_).trans
    (resolveParts_ends_iff answers (pathParts path) ext2RootInode)
  rcases read : fs.directoryData dm inodeNum with fault | (_ | dirData)
  · refine ⟨0, fun out => ?_⟩
    rw [listDir_eq, read, bind_error] at out
    cases out
    exact directoryData_avoids answers inodeNum read
  · refine ⟨0, fun out => ?_⟩
    rw [listDir_eq, read] at out
    cases out
  · refine ⟨dirData.length + 1, fun out => ?_⟩
    rw [listDir_eq, read] at out
    exact listEntries_ends (Nat.lt_succ_self _) out

/-! ### A directory of zeros -/

/-- A disk whose root directory takes up a block of zeros. -/
def zeroedDisk (addr : Nat) : U8 :=
  match addr with
  | 2056 => 3
  | 3201 => 0x40
  | 3205 => 4
  | 3240 => 5
  | _ => sampleDisk 64 addr

/-- What is mounted, from the superblock and the table that are read. -/
theorem mount_of_reads {path : String} {sbData bgData : List U8} {superblock : Ext2Superblock}
    {groupsCount : U32} {blockGroups : List Ext2BlockGroupDescriptor}
    (read : dm.readDevice path 1024 (BitVec.ofNat 64 Ext2Superblock.size) = .ok (some sbData))
    (long : ¬ sbData.length < Ext2Superblock.size)
    (record : Ext2Superblock.ofBytes sbData = superblock)
    (magic : superblock.magic = ext2Signature)
    (groups : groupsCountOf superblock = .ok groupsCount)
    (table : dm.readDevice path
      ((if blockSizeOf superblock = 1024 then 2 else 1) * blockSizeOf superblock)
      (groupsCount.setWidth 64 * BitVec.ofNat 64 Ext2BlockGroupDescriptor.size) =
        .ok (some bgData))
    (descriptors : readBlockGroups bgData groupsCount.toNat = .ok blockGroups) :
    mount path dm = .ok (.ok
      { superblock, blockSize := blockSizeOf superblock, inodeSize := inodeSizeOf superblock,
        blockGroups, devicePath := path }) := by
  subst record
  unfold mount
  rw [read, bind_ok]
  simp only
  rw [if_neg long, if_neg (not_not_intro magic), groups, bind_ok, table, bind_ok]
  simp only
  rw [descriptors]
  rfl

/-- The volume with an empty root block is mounted. -/
theorem mount_zeroed : mount "/dev/hda" (diskManager zeroedDisk) = .ok (.ok filledFs) := by
  have read := readDevice_diskManager zeroedDisk 1024 (BitVec.ofNat 64 Ext2Superblock.size)
  have long := long_superblock (readsExactly_diskManager zeroedDisk) read
  exact mount_of_reads read long (by decide +kernel) rfl rfl
    (readDevice_diskManager zeroedDisk _ _) (by decide +kernel)

/-- A device kept in memory answers every request. -/
theorem answers_diskManager (disk : Nat → U8) : (diskManager disk).Answers "/dev/hda" := by
  intro driver found offset size
  obtain ⟨data, read, _⟩ := readsExactly_diskManager disk driver found offset size
  rw [read]
  rintro ⟨⟩

/-- The root directory of that volume is a block of zeros. -/
theorem directoryData_zeroed :
    filledFs.directoryData (diskManager zeroedDisk) ext2RootInode =
      .ok (some (List.replicate 1024 0)) := by
  decide +kernel

/-- In a block of zeros every search stalls. -/
theorem stalls_zeros (part : String) : Stalls (List.replicate 1024 0) part := by
  have free : (headAt (List.replicate 1024 0) 0).inode = 0 := by decide +kernel
  have zero : (headAt (List.replicate 1024 0) 0).recLen = 0 := by decide +kernel
  refine ⟨0, .first, ⟨?_, fun used => absurd free used⟩, zero⟩
  unfold HeadInside
  rw [List.length_replicate]
  decide

/-- The scans on the volume of zeros, for a path that needs one. -/
theorem scans_end_iff_zeroed :
    ((∀ inodeNum, ∃ fuel,
          filledFs.listDir (diskManager zeroedDisk) fuel inodeNum ≠ .error .outOfFuel) ∧
        ∃ fuel, filledFs.resolvePath (diskManager zeroedDisk) fuel "/etc" ≠ .error .outOfFuel) ↔
      filledFs.ScansEnd (diskManager zeroedDisk) (pathParts "/etc") ext2RootInode :=
  scans_end_iff (answers_diskManager zeroedDisk) "/etc"

/-- Looking up a name in a mounted disk never ends. -/
theorem never_ends_in_zeros :
    mount "/dev/hda" (diskManager zeroedDisk) = .ok (.ok filledFs) ∧
      ¬ ((∀ inodeNum, ∃ fuel,
            filledFs.listDir (diskManager zeroedDisk) fuel inodeNum ≠ .error .outOfFuel) ∧
          ∃ fuel,
            filledFs.resolvePath (diskManager zeroedDisk) fuel "/etc" ≠ .error .outOfFuel) := by
  refine ⟨mount_zeroed, ?_⟩
  rintro ⟨_, ends⟩
  have parts : pathParts "/etc" = ["etc"] := by decide +kernel
  have scans := (resolveParts_ends_iff (answers_diskManager zeroedDisk) _ _).mp ends
  rw [parts] at scans
  exact (scans _ directoryData_zeroed).1 (stalls_zeros "etc")

/-! ### Reads out of range -/

/-- The lengths of the entries before lead to an offset. -/
inductive Reaches (dirData : List U8) : Nat → Prop where
  | first : Reaches dirData 0
  | next {offset : Nat} (reaches : Reaches dirData offset) (below : offset < dirData.length) :
      Reaches dirData (offset + (headAt dirData offset).recLen)

/-- A search only comes to offsets the directory has entries at. -/
theorem Visits.reaches (visits : Visits dirData part offset) : Reaches dirData offset := by
  induction visits with
  | first => exact .first
  | next _ passes ih => exact ih.next passes.head.below

theorem reaches_of_listing {state : Nat × List String}
    (comes : Comes (listStep dirData) (0, []) state) : Reaches dirData state.1 := by
  induction comes with
  | start => exact .first
  | next _ goesOn ih =>
      obtain ⟨head, _, rfl⟩ := listStep_goOn goesOn
      exact ih.next head.below

/-- A search reads out of range at an entry that it comes to. -/
theorem breaks_of_findEntry {fuel : Nat}
    (failed : findEntry dirData part fuel 0 = .error .indexOutOfRange) :
    ∃ offset, Visits dirData part offset ∧ BreaksAt dirData offset := by
  obtain ⟨last, visits, ends⟩ := findEntry_outcome failed (by rintro ⟨⟩)
  exact ⟨last, visits, (findStep_error ends).1⟩

/-- A search that comes to a broken entry leaves the directory's bytes. -/
theorem findEntry_of_breaks (visits : Visits dirData part offset)
    (breaks : BreaksAt dirData offset) :
    ∃ fuel, findEntry dirData part fuel 0 = .error .indexOutOfRange :=
  findEntry_of_endsAt visits (findStep_breaks breaks)

/-- The listing reads out of range at an entry that the lengths lead to. -/
theorem breaks_of_listEntries {fuel : Nat}
    (failed : listEntries dirData fuel = .error .indexOutOfRange) :
    ∃ offset, Reaches dirData offset ∧ BreaksAt dirData offset := by
  obtain ⟨⟨last, entries⟩, comes, ends⟩ := run_outcome failed (by rintro ⟨⟩)
  exact ⟨last, reaches_of_listing comes, (listStep_error ends).1⟩

/-! A name of 256 bytes is longer than that of any entry, so its search comes to every
entry before the first one at which a scan reads out of range. -/

/-- A name that no entry can have: its length does not fit in a byte. -/
def longName : String := String.ofList (List.replicate 256 'a')

/-- It is one byte too long. -/
theorem size_longName : longName.utf8ByteSize = 256 := by
  unfold longName
  rw [String.utf8ByteSize_ofList]
  decide +kernel

/-- It is a path of one part. -/
theorem longName_mem_pathParts : longName ∈ pathParts longName := by
  rw [pathParts_name]
  · exact List.mem_singleton_self _
  · intro nothing
    have size := size_longName
    rw [nothing] at size
    exact absurd size (by decide)
  · unfold longName
    rw [String.toList_ofList]
    intro member
    exact absurd (List.eq_of_mem_replicate member) (by decide)

/-- No entry has it, so a search for it goes through the whole directory. -/
theorem nameAt_ne_longName (dirData : List U8) (offset : Nat) :
    nameAt dirData offset ≠ longName := by
  intro same
  have short := size_nameAt dirData offset
  rw [same, size_longName] at short
  exact Nat.lt_irrefl _ short

/-- That search comes to every offset, unless an earlier entry is broken. -/
theorem visits_or_breaks (reaches : Reaches dirData offset) :
    Visits dirData longName offset ∨
      ∃ earlier, Visits dirData longName earlier ∧ BreaksAt dirData earlier := by
  induction reaches with
  | first => exact .inl .first
  | @next offset _ below ih =>
      rcases ih with visits | earlier
      · rcases find_cases dirData longName offset with past | finds | passes | breaks
        · omega
        · exact absurd finds.name.2 (nameAt_ne_longName dirData offset)
        · exact .inl (visits.next passes)
        · exact .inr ⟨offset, visits, breaks⟩
      · exact .inr earlier

/-- **The scans stay in bounds**, the searches for all names and the listing, exactly if
each entry that the lengths lead to lies in the data, its name too if it is used. -/
theorem scans_in_bounds_iff (dirData : List U8) :
    ((∀ path, ∀ part ∈ pathParts path, ∀ fuel,
          findEntry dirData part fuel 0 ≠ .error .indexOutOfRange) ∧
        ∀ fuel, listEntries dirData fuel ≠ .error .indexOutOfRange) ↔
      ∀ offset, Reaches dirData offset → ¬ BreaksAt dirData offset := by
  constructor
  · rintro ⟨searches, _⟩ offset reaches breaks
    rcases visits_or_breaks reaches with visits | ⟨earlier, visits, breaksEarlier⟩
    · obtain ⟨fuel, failed⟩ := findEntry_of_breaks visits breaks
      exact searches longName longName longName_mem_pathParts fuel failed
    · obtain ⟨fuel, failed⟩ := findEntry_of_breaks visits breaksEarlier
      exact searches longName longName longName_mem_pathParts fuel failed
  · intro inside
    constructor
    · intro _ part _ fuel failed
      obtain ⟨offset, visits, breaks⟩ := breaks_of_findEntry failed
      exact inside offset visits.reaches breaks
    · intro fuel failed
      obtain ⟨offset, reaches, breaks⟩ := breaks_of_listEntries failed
      exact inside offset reaches breaks

/-- The name of an entry runs past the end of the directory. -/
theorem reads_past_last_name :
    ¬ ((∀ path, ∀ part ∈ pathParts path, ∀ fuel,
          findEntry [5, 0, 0, 0, 8, 0, 1, 1] part fuel 0 ≠ .error .indexOutOfRange) ∧
        ∀ fuel, listEntries [5, 0, 0, 0, 8, 0, 1, 1] fuel ≠ .error .indexOutOfRange) := by
  rintro ⟨searches, _⟩
  exact searches "a" "a" (by decide +kernel) 1 (by decide +kernel)

end Lofita.Fs.Ext2Fs
