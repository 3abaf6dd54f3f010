import Lofita.Fs.Ext2

/-! # Mounting a corrupt disk

Mounting a disk and looking up inodes on it ends without a division by zero and
without an index out of range exactly if the superblock is `Sound`, or not taken
for one (`mount_safe_iff`): the number of block groups is computed from the block
counts, the group of an inode from the inode counts, and the driver compares neither
divisor with zero, nor one count with the other.
-/

namespace Lofita.Fs

open Lofita.Foundation Lofita.Foundation.Outcome

/-! ### Reads of a device -/

variable {dm dm' : DriverManager} {path : String} {data : List U8}

theorem DriverManager.ReadsExactly.completes (exact : dm.ReadsExactly path) (offset size : U64) :
    Completes (dm.readDevice path offset size) := by
  unfold DriverManager.readDevice
  cases found : dm.drivers[path]? with
  | none => exact .pure none
  | some driver =>
      obtain ⟨data, done, _⟩ := exact driver found offset size
      exact Completes.map ⟨data, done⟩ some

theorem DriverManager.ReadsExactly.length (exact : dm.ReadsExactly path) {offset size : U64}
    (done : dm.readDevice path offset size = .ok (some data)) : data.length = size.toNat := by
  unfold DriverManager.readDevice at done
  cases found : dm.drivers[path]? with
  | none =>
      rw [found] at done
      cases done
  | some driver =>
      rw [found] at done
      obtain ⟨other, read, same⟩ := ok_map.mp done
      cases same
      obtain ⟨_, readToo, length⟩ := exact driver found offset size
      cases read.symm.trans readToo
      exact length

/-- A device that answers one read answers every read. -/
theorem DriverManager.ReadsExactly.again (exact : dm.ReadsExactly path) {offset size : U64}
    (done : dm.readDevice path offset size = .ok (some data)) (offset' size' : U64) :
    ∃ data', dm.readDevice path offset' size' = .ok (some data') ∧ data'.length = size'.toNat := by
  unfold DriverManager.readDevice at done ⊢
  cases found : dm.drivers[path]? with
  | none =>
      rw [found] at done
      cases done
  | some driver =>
      obtain ⟨data', read, length⟩ := exact driver found offset' size'
      exact ⟨data', ok_map.mpr ⟨data', read, rfl⟩, length⟩

/-! ### Safe disks -/

namespace Ext2Fs

/-- Mounting ends without a fault, and so does every lookup of an inode in what is
mounted, also when the device has changed since. -/
structure MountSafe (path : String) (dm : DriverManager) : Prop where
  mounts : Completes (mount path dm)
  looksUp : ∀ fs, mount path dm = .ok (.ok fs) → ∀ dm', dm'.ReadsExactly path →
    ∀ inodeNum, Completes (fs.getInode inodeNum dm')

/-- The counts of a superblock from which groups are computed: neither divisor is
zero, and the group of the last inode, if there are any, is below the number of
groups. -/
structure Sound (superblock : Ext2Superblock) : Prop where
  blocksPerGroup : superblock.blocksPerGroup ≠ 0
  groups : superblock.inodesCount ≠ 0 → superblock.inodesPerGroup ≠ 0 ∧
    (superblock.inodesCount - 1) / superblock.inodesPerGroup <
      (superblock.blocksCount - superblock.firstDataBlock + superblock.blocksPerGroup - 1) /
        superblock.blocksPerGroup

/-- The superblock that is read has the signature. -/
structure Signed (path : String) (dm : DriverManager) (superblock : Ext2Superblock) : Prop where
  read : ∃ data, dm.readDevice path 1024 (BitVec.ofNat 64 Ext2Superblock.size) = .ok (some data) ∧
    Ext2Superblock.ofBytes data = superblock
  magic : superblock.magic = ext2Signature

/-! ### Mounting -/

theorem readBlockGroups_ok {groupsCount : Nat}
    (length : data.length = groupsCount * Ext2BlockGroupDescriptor.size) :
    ∃ blockGroups, readBlockGroups data groupsCount = .ok blockGroups ∧
      blockGroups.length = groupsCount := by
  have each : ∀ i ∈ List.range groupsCount,
      Completes (readRecord Ext2BlockGroupDescriptor.size Ext2BlockGroupDescriptor.ofBytes
        (data.drop (i * Ext2BlockGroupDescriptor.size))) := by
    intro i member
    have below := List.mem_range.mp member
    unfold readRecord Ext2BlockGroupDescriptor.size at *
    rw [if_neg]
    · exact .pure _
    · rw [List.length_drop, length]
      omega
  obtain ⟨blockGroups, done, count⟩ := mapM_ok each
  exact ⟨blockGroups, done, count.trans List.length_range⟩

theorem long_superblock (exact : dm.ReadsExactly path)
    (read : dm.readDevice path 1024 (BitVec.ofNat 64 Ext2Superblock.size) = .ok (some data)) :
    ¬ data.length < Ext2Superblock.size := by
  rw [exact.length read]
  decide

/-- Without the signature nothing is mounted. -/
theorem mount_unsigned (exact : dm.ReadsExactly path)
    (unsigned : ∀ superblock, ¬ Signed path dm superblock) :
    ∃ error, mount path dm = .ok (.error error) := by
  obtain ⟨answer, read⟩ := exact.completes 1024 (BitVec.ofNat 64 Ext2Superblock.size)
  unfold mount
  rw [read, bind_ok]
  cases answer with
  | none => exact ⟨_, rfl⟩
  | some data =>
      simp only
      rw [if_neg (long_superblock exact read),
        if_pos fun magic => unsigned _ ⟨⟨data, read, rfl⟩, magic⟩]
      exact ⟨_, rfl⟩

theorem groupsCountOf_positive {superblock : Ext2Superblock}
    (positive : superblock.blocksPerGroup ≠ 0) :
    groupsCountOf superblock = .ok ((superblock.blocksCount - superblock.firstDataBlock +
      superblock.blocksPerGroup - 1) / superblock.blocksPerGroup) :=
  if_neg positive

/-- The size of a table of block group descriptors does not wrap. -/
theorem tableSize (groupsCount : U32) :
    (groupsCount.setWidth 64 * BitVec.ofNat 64 Ext2BlockGroupDescriptor.size).toNat =
      groupsCount.toNat * Ext2BlockGroupDescriptor.size := by
  have few := groupsCount.isLt
  unfold Ext2BlockGroupDescriptor.size
  rw [BitVec.toNat_mul, BitVec.toNat_setWidth, BitVec.toNat_ofNat]
  omega

/-- A disk whose superblock has the signature is mounted with as many groups as the
counts of the superblock give. -/
theorem mount_signed (exact : dm.ReadsExactly path) {superblock : Ext2Superblock}
    (signed : Signed path dm superblock) (positive : superblock.blocksPerGroup ≠ 0) :
    ∃ fs, mount path dm = .ok (.ok fs) ∧ fs.superblock = superblock ∧ fs.devicePath = path ∧
      fs.blockGroups.length =
        ((superblock.blocksCount - superblock.firstDataBlock + superblock.blocksPerGroup - 1) /
          superblock.blocksPerGroup).toNat := by
  obtain ⟨⟨data, read, rfl⟩, magic⟩ := signed
  unfold mount
  rw [read, bind_ok]
  simp only
  rw [if_neg (long_superblock exact read), if_neg (not_not_intro magic),
    groupsCountOf_positive positive, bind_ok]
  obtain ⟨bgData, table, size⟩ := exact.again read _ _
  rw [table, bind_ok]
  obtain ⟨blockGroups, groups, length⟩ := readBlockGroups_ok (size.trans (tableSize _))
  simp only
  rw [groups]
  exact ⟨_, rfl, rfl, rfl, length⟩

/-- A disk whose superblock has the signature and no blocks per group makes the
mount divide by zero. -/
theorem mount_divides (exact : dm.ReadsExactly path) {superblock : Ext2Superblock}
    (signed : Signed path dm superblock) (zero : superblock.blocksPerGroup = 0) :
    mount path dm = .error .divideByZero := by
  obtain ⟨⟨data, read, rfl⟩, magic⟩ := signed
  unfold mount
  rw [read, bind_ok]
  simp only
  rw [if_neg (long_superblock exact read), if_neg (not_not_intro magic), groupsCountOf,
    if_pos zero]
  rfl

/-! ### Looking up inodes -/

/-- A lookup ends without a fault exactly if there is no such inode, or there is a
group for it. -/
theorem getInode_completes_iff {fs : Ext2Fs} (exact : dm.ReadsExactly fs.devicePath)
    {inodeNum : U32} :
    Completes (fs.getInode inodeNum dm) ↔
      (inodeNum ≠ 0 → inodeNum ≤ fs.superblock.inodesCount →
        fs.superblock.inodesPerGroup ≠ 0 ∧
          ((inodeNum - 1) / fs.superblock.inodesPerGroup).toNat < fs.blockGroups.length) := by
  unfold getInode
  by_cases absent : inodeNum = 0 ∨ fs.superblock.inodesCount < inodeNum
  · rw [if_pos absent]
    refine iff_of_true (.pure none) fun notZero below => absurd absent (not_or.mpr ⟨notZero, ?_⟩)
    exact BitVec.not_lt.mpr below
  · rw [if_neg absent]
    obtain ⟨notZero, notAbove⟩ := not_or.mp absent
    rw [forall_prop_of_true notZero, forall_prop_of_true (BitVec.not_lt.mp notAbove)]
    by_cases zero : fs.superblock.inodesPerGroup = 0
    · rw [if_pos zero]
      exact iff_of_false (not_completes_throw _) fun both => both.1 zero
    · rw [if_neg zero]
      simp only
      cases group : fs.blockGroups[((inodeNum - 1) / fs.superblock.inodesPerGroup).toNat]? with
      | none =>
          refine iff_of_false (not_completes_throw _) fun both => ?_
          exact absurd (List.getElem?_eq_none_iff.mp group) (Nat.not_le_of_lt both.2)
      | some bg =>
          refine iff_of_true ?_ ⟨zero, (List.getElem?_eq_some_iff.mp group).1⟩
          refine (exact.completes _ _).bind fun answer read => ?_
          cases answer with
          | none => exact .pure none
          | some data =>
              refine Completes.map ?_ some
              unfold readRecord
              rw [if_neg]
              · exact .pure _
              · rw [exact.length read]
                decide

/-- **Safe disks.** Mounting a disk, and looking up any inode on it, ends without a
fault exactly if a superblock with the signature is sound. -/
theorem mount_safe_iff (exact : dm.ReadsExactly path) :
    MountSafe path dm ↔ ∀ superblock, Signed path dm superblock → Sound superblock := by
  constructor
  · rintro ⟨mounts, looksUp⟩ superblock signed
    have positive : superblock.blocksPerGroup ≠ 0 := by
      intro zero
      rw [mount_divides exact signed zero] at mounts
      exact nomatch mounts
    refine ⟨positive, fun inodes => ?_⟩
    obtain ⟨fs, mounted, rfl, rfl, groups⟩ := mount_signed exact signed positive
    obtain ⟨divisor, inRange⟩ := (getInode_completes_iff exact).mp
      (looksUp fs mounted dm exact fs.superblock.inodesCount) inodes (BitVec.le_refl _)
    rw [groups] at inRange
    exact ⟨divisor, inRange⟩
  · intro sound
    by_cases signed : ∃ superblock, Signed path dm superblock
    · obtain ⟨superblock, signed⟩ := signed
      obtain ⟨positive, lookups⟩ := sound superblock signed
      obtain ⟨fs, mounted, rfl, rfl, groups⟩ := mount_signed exact signed positive
      refine ⟨⟨_, mounted⟩, fun other mountedToo dm' exact' inodeNum => ?_⟩
      cases mounted.symm.trans mountedToo
      refine (getInode_completes_iff exact').mpr fun notZero within => ?_
      have inodes : fs.superblock.inodesCount ≠ 0 := by
        rintro zero
        rw [zero] at within
        exact notZero (BitVec.le_zero_iff.mp within)
      obtain ⟨divisor, last⟩ := lookups inodes
      refine ⟨divisor, ?_⟩
      rw [groups, BitVec.toNat_udiv]
      rw [BitVec.lt_def, BitVec.toNat_udiv] at last
      refine Nat.lt_of_le_of_lt (Nat.div_le_div_right ?_) last
      bv_omega
    · obtain ⟨error, rejected⟩ := mount_unsigned exact fun superblock is => signed ⟨_, is⟩
      refine ⟨⟨_, rejected⟩, fun fs mounted => ?_⟩
      cases rejected.symm.trans mounted

/-! ### A disk that is not safe -/

/-- A disk that returns its bytes and takes no others. -/
def diskDriver (disk : Nat → U8) : CharDriver where
  read offset size := return (List.range size.toNat).map fun i => disk (offset.toNat + i)
  write _ _ := return 0

def diskManager (disk : Nat → U8) : DriverManager where
  drivers := (∅ : Std.TreeMap String CharDriver).insert "/dev/hda" (diskDriver disk)

theorem readDevice_diskManager (disk : Nat → U8) (offset size : U64) :
    (diskManager disk).readDevice "/dev/hda" offset size =
      .ok (some ((List.range size.toNat).map fun i => disk (offset.toNat + i))) := by
  unfold DriverManager.readDevice diskManager
  rw [Std.TreeMap.getElem?_insert_self]
  rfl

theorem readsExactly_diskManager (disk : Nat → U8) :
    (diskManager disk).ReadsExactly "/dev/hda" := by
  intro driver found offset size
  unfold diskManager at found
  rw [Std.TreeMap.getElem?_insert_self] at found
  cases found
  exact ⟨_, rfl, by rw [List.length_map, List.length_range]⟩

/-- A disk with a superblock for 8 inodes and 64 blocks, and nothing else. -/
def sampleDisk (blocksPerGroup : U8) (addr : Nat) : U8 :=
  match addr with
  | 1024 => 8
  | 1028 => 64
  | 1044 => 1
  | 1056 => blocksPerGroup
  | 1064 => 8
  | 1080 => 0x53
  | 1081 => 0xef
  | _ => 0

def sampleSuperblock (blocksPerGroup : U32) : Ext2Superblock where
  inodesCount := 8
  blocksCount := 64
  firstDataBlock := 1
  logBlockSize := 0
  blocksPerGroup
  inodesPerGroup := 8
  magic := ext2Signature
  revLevel := 0
  inodeSize := 0

theorem mount_safe_iff_sample :
    MountSafe "/dev/hda" (diskManager (sampleDisk 64)) ↔
      ∀ superblock, Signed "/dev/hda" (diskManager (sampleDisk 64)) superblock →
        Sound superblock :=
  mount_safe_iff (readsExactly_diskManager _)

/-- A superblock with no blocks per group stops the mount. -/
theorem divides_by_blocks_per_group :
    (diskManager (sampleDisk 0)).ReadsExactly "/dev/hda" ∧
      ¬ MountSafe "/dev/hda" (diskManager (sampleDisk 0)) := by
  have exact := readsExactly_diskManager (sampleDisk 0)
  refine ⟨exact, fun safe => ?_⟩
  have signed : Signed "/dev/hda" (diskManager (sampleDisk 0)) (sampleSuperblock 0) :=
    ⟨⟨_, readDevice_diskManager _ _ _, by decide +kernel⟩, rfl⟩
  have stops := mount_divides exact signed rfl
  obtain ⟨_, mounted⟩ := safe.mounts
  cases stops.symm.trans mounted

end Ext2Fs

end Lofita.Fs
