import Lofita.Foundation.Pieces
import Lofita.Fs.Mount

/-! # The block map

The pointers of an inode assign a block of the disk to each logical block of the
file (`blockMap`): twelve directly, the next ones through one, two and three levels
of blocks of pointers. Where every block that the size calls for is mapped and can
be read, `read_inode_data` returns the bytes of the mapped blocks in their order
(`reads_block_map`).
-/

namespace Lofita.Fs.Ext2Fs

open Lofita.Foundation Lofita.Foundation.Outcome

variable (fs : Ext2Fs) (dm : DriverManager)

/-! ### The blocks of a file -/

/-- What is in the block of a pointer: a null pointer has no block, and a block that
cannot be read in full has no content. -/
def blockContent (block : U32) : Option (List U8) :=
  match fs.readBlock block dm with
  | .ok (some blockData) =>
      if block ≠ 0 ∧ blockData.length = fs.blockSize.toNat then some blockData else none
  | _ => none

/-- The block that the pointers under a pointer assign to an index, with this many
blocks of pointers on the way. -/
def treeBlock : Nat → U32 → Nat → Option U32
  | 0, block, _ => some block
  | depth + 1, block, i => do
      let blockData ← fs.blockContent dm block
      treeBlock depth (word32 blockData (4 * (i / fs.pointersPerBlock ^ depth)))
        (i % fs.pointersPerBlock ^ depth)

/-- The block that an inode assigns to a logical block. -/
def blockMap (inode : Ext2Inode) (n : Nat) : Option U32 :=
  let p := fs.pointersPerBlock
  if direct : n < 12 then some (inode.iBlock ⟨n, Nat.lt_trans direct (by decide)⟩)
  else if n < 12 + p then fs.treeBlock dm 1 inode.singlyIndirect (n - 12)
  else if n < 12 + p + p ^ 2 then fs.treeBlock dm 2 inode.doublyIndirect (n - (12 + p))
  else if n < 12 + p + p ^ 2 + p ^ 3 then
    fs.treeBlock dm 3 inode.triplyIndirect (n - (12 + p + p ^ 2))
  else none

/-- Every logical block that begins below the size of the file is mapped to a block
that can be read. -/
def Mapped (inode : Ext2Inode) : Prop :=
  ∀ n, n * fs.blockSize.toNat < inode.iSize.toNat →
    ∃ block blockData, fs.blockMap dm inode n = some block ∧
      fs.blockContent dm block = some blockData

/-- A byte of the file, by the block map. -/
def fileByte (inode : Ext2Inode) (k : Nat) : U8 :=
  let blockData := fs.blockMap dm inode (k / fs.blockSize.toNat) >>= fs.blockContent dm
  (blockData.getD []).getD (k % fs.blockSize.toNat) 0

/-- The progress with a number of logical blocks read. -/
def reached (inode : Ext2Inode) (n : Nat) : Progress where
  remaining := inode.iSize.toNat - n * fs.blockSize.toNat
  data := (List.range (min inode.iSize.toNat (n * fs.blockSize.toNat))).map (fs.fileByte dm inode)

variable {fs dm} {inode : Ext2Inode} {block : U32} {blockData : List U8}

/-- A block with content is read whole. -/
theorem blockContent_eq (content : fs.blockContent dm block = some blockData) :
    block ≠ 0 ∧ fs.readBlock block dm = .ok (some blockData) ∧
      blockData.length = fs.blockSize.toNat := by
  unfold blockContent at content
  split at content
  next read =>
    split_ifs at content with full
    cases content
    exact ⟨full.1, read, full.2⟩
  next => cases content

/-! ### Progress -/

/-- Once everything is read, nothing changes. -/
theorem reached_full {n later : Nat} (full : inode.iSize.toNat ≤ n * fs.blockSize.toNat)
    (le : n ≤ later) : fs.reached dm inode n = fs.reached dm inode later := by
  have more : n * fs.blockSize.toNat ≤ later * fs.blockSize.toNat := Nat.mul_le_mul_right _ le
  unfold reached
  rw [Nat.sub_eq_zero_of_le full, Nat.sub_eq_zero_of_le (Nat.le_trans full more),
    Nat.min_eq_left full, Nat.min_eq_left (Nat.le_trans full more)]

/-- Nothing is left once the size is reached. -/
theorem remaining_reached {n : Nat} :
    (fs.reached dm inode n).remaining = 0 ↔ inode.iSize.toNat ≤ n * fs.blockSize.toNat :=
  Nat.sub_eq_zero_iff_le

/-- A byte of a mapped block is a byte of the file. -/
theorem fileByte_mapped {n j : Nat} (mapped : fs.blockMap dm inode n = some block)
    (content : fs.blockContent dm block = some blockData) (inBlock : j < fs.blockSize.toNat) :
    fs.fileByte dm inode (n * fs.blockSize.toNat + j) = blockData.getD j 0 := by
  unfold fileByte
  rw [row_div inBlock, row_mod inBlock, mapped]
  change (Option.getD (fs.blockContent dm block) []).getD j 0 = _
  rw [content]
  rfl

/-- **One block.** Copying a mapped block reads on to the next logical block. -/
theorem copyBlock_reached {n : Nat} (unfinished : n * fs.blockSize.toNat < inode.iSize.toNat)
    (mapped : fs.blockMap dm inode n = some block)
    (content : fs.blockContent dm block = some blockData) :
    fs.copyBlock blockData (fs.reached dm inode n) = .ok (fs.reached dm inode (n + 1)) := by
  obtain ⟨_, _, length⟩ := blockContent_eq content
  have next : (n + 1) * fs.blockSize.toNat = n * fs.blockSize.toNat + fs.blockSize.toNat :=
    Nat.succ_mul _ _
  generalize copied : min (inode.iSize.toNat - n * fs.blockSize.toNat) fs.blockSize.toNat = toCopy
  have part : slice blockData 0 toCopy = .ok (blockData.take toCopy) := by
    unfold slice
    rw [if_pos ⟨Nat.zero_le _, by omega⟩]
    rfl
  have before : min inode.iSize.toNat (n * fs.blockSize.toNat) = n * fs.blockSize.toNat := by omega
  have after : min inode.iSize.toNat ((n + 1) * fs.blockSize.toNat) =
      n * fs.blockSize.toNat + toCopy := by omega
  have bytes : (List.range toCopy).map
        (fun j => fs.fileByte dm inode (n * fs.blockSize.toNat + j)) =
      blockData.take toCopy := by
    refine List.ext_getElem (by rw [List.length_map, List.length_range, List.length_take]; omega) ?_
    intro j below _
    rw [List.length_map, List.length_range] at below
    rw [List.getElem_map, List.getElem_range, List.getElem_take,
      fileByte_mapped mapped content (by omega), List.getD_eq_getElem _ _ (by omega)]
  simp only [copyBlock, reached, copied, part, bind_ok, before, after, List.range_add,
    List.map_append, List.map_map, Function.comp_def, bytes]
  refine congrArg _ ?_
  rw [Progress.mk.injEq]
  exact ⟨by omega, rfl⟩

/-! ### Loops over pointers -/

/-- **The loop rule.** A loop over pointers reads what its iterations read, where
every iteration that has something left to read gets a pointer and reads on. -/
theorem forPointers_reached {body : U32 → Progress → Checked Progress} {pointers : List U32}
    {base : Nat} (capacity : Nat)
    (each : ∀ i (below : i < pointers.length),
      (base + i * capacity) * fs.blockSize.toNat < inode.iSize.toNat →
      pointers[i] ≠ 0 ∧ body pointers[i] (fs.reached dm inode (base + i * capacity)) =
        .ok (fs.reached dm inode (base + (i + 1) * capacity))) :
    forPointers body pointers (fs.reached dm inode base) =
      .ok (fs.reached dm inode (base + pointers.length * capacity)) := by
  induction pointers generalizing base with
  | nil =>
      rw [List.length_nil, Nat.zero_mul]
      rfl
  | cons block rest ih =>
      unfold forPointers
      by_cases full : inode.iSize.toNat ≤ base * fs.blockSize.toNat
      · rw [if_pos (.inr (remaining_reached.mpr full)), reached_full full (Nat.le_add_right _ _)]
        rfl
      · obtain ⟨notNull, reads⟩ := each 0 (Nat.zero_lt_succ _) (by simpa using full)
        have unfinished : ¬ (block = 0 ∨ (fs.reached dm inode base).remaining = 0) :=
          not_or.mpr ⟨notNull, fun none => full (remaining_reached.mp none)⟩
        simp only [List.getElem_cons_zero, Nat.zero_mul, Nat.add_zero, Nat.zero_add,
          Nat.one_mul] at reads
        rw [if_neg unfinished, reads, bind_ok, ih]
        · rw [List.length_cons, Nat.succ_mul, Nat.add_assoc, Nat.add_comm capacity]
        · intro i below left
          have shift : ∀ j, base + capacity + j * capacity = base + (j + 1) * capacity := by
            intro j
            rw [Nat.succ_mul]
            omega
          rw [shift] at left ⊢
          rw [shift]
          exact each (i + 1) (Nat.succ_lt_succ below) left

/-! ### Trees of pointers -/

/-- A block is made of pointers. -/
theorem blockSize_eq (aligned : 4 ∣ fs.blockSize.toNat) :
    fs.blockSize.toNat = 4 * fs.pointersPerBlock := by
  unfold pointersPerBlock
  rw [BitVec.toNat_udiv]
  exact (Nat.mul_div_cancel' aligned).symm

/-- A block with content is used. -/
theorem withBlock_eq {use : List U8 → Progress → Checked Progress} {progress : Progress}
    (content : fs.blockContent dm block = some blockData) :
    fs.withBlock dm use block progress = use blockData progress := by
  unfold withBlock
  rw [(blockContent_eq content).2.1]
  rfl

/-- Its pointers are its words. -/
theorem pointers_eq (aligned : 4 ∣ fs.blockSize.toNat)
    (content : fs.blockContent dm block = some blockData) :
    fs.pointers blockData =
      .ok ((List.range fs.pointersPerBlock).map fun i => word32 blockData (4 * i)) := by
  unfold pointers readRecord
  rw [(blockContent_eq content).2.2, blockSize_eq aligned, if_neg (Nat.lt_irrefl _)]
  rfl

variable (fs dm) in
/-- Reading through a pointer with this many blocks of pointers on the way. -/
def readTree : Nat → U32 → Progress → Checked Progress
  | 0 => fs.withBlock dm fs.copyBlock
  | depth + 1 => fs.throughBlock dm (forPointers (readTree depth))

/-- The pointer in a block that leads to an index. -/
theorem treeBlock_child {depth i j : Nat} (content : fs.blockContent dm block = some blockData)
    (below : j < fs.pointersPerBlock ^ depth) :
    fs.treeBlock dm (depth + 1) block (i * fs.pointersPerBlock ^ depth + j) =
      fs.treeBlock dm depth (word32 blockData (4 * i)) j := by
  change (fs.blockContent dm block >>= fun data => fs.treeBlock dm depth
    (word32 data (4 * ((i * fs.pointersPerBlock ^ depth + j) / fs.pointersPerBlock ^ depth)))
    ((i * fs.pointersPerBlock ^ depth + j) % fs.pointersPerBlock ^ depth)) = _
  rw [content, row_div below, row_mod below]
  rfl

/-- **A tree of pointers** that agrees with the block map from a logical block on is
not null, and reading through it reads on by as many blocks as it has leaves. -/
theorem readTree_reached (aligned : 4 ∣ fs.blockSize.toNat) (positive : 0 < fs.blockSize.toNat)
    (mapped : fs.Mapped dm inode) {depth : Nat} :
    ∀ {block : U32} {base : Nat}, base * fs.blockSize.toNat < inode.iSize.toNat →
      (∀ i < fs.pointersPerBlock ^ depth,
        fs.treeBlock dm depth block i = fs.blockMap dm inode (base + i)) →
      block ≠ 0 ∧ fs.readTree dm depth block (fs.reached dm inode base) =
        .ok (fs.reached dm inode (base + fs.pointersPerBlock ^ depth)) := by
  have size := blockSize_eq aligned
  have room : 0 < fs.pointersPerBlock := by omega
  induction depth with
  | zero =>
      intro block base unfinished agrees
      obtain ⟨block', blockData, here, content⟩ := mapped base unfinished
      cases (agrees 0 Nat.one_pos).trans here
      exact ⟨(blockContent_eq content).1,
        (withBlock_eq content).trans (copyBlock_reached unfinished here content)⟩
  | succ depth ih =>
      intro block base unfinished agrees
      obtain ⟨leaf, _, here, _⟩ := mapped base unfinished
      have found := (agrees 0 (Nat.pow_pos room)).trans here
      obtain ⟨blockData, content, _⟩ := Option.bind_eq_some_iff.mp found
      refine ⟨(blockContent_eq content).1, ?_⟩
      unfold readTree throughBlock
      rw [withBlock_eq content, pointers_eq aligned content, bind_ok]
      refine (forPointers_reached (fs.pointersPerBlock ^ depth) fun i below left => ?_).trans ?_
      · rw [List.length_map, List.length_range] at below
        rw [List.getElem_map, List.getElem_range, Nat.succ_mul i, ← Nat.add_assoc]
        refine ih left fun j inTree => ?_
        rw [← treeBlock_child content inTree, Nat.add_assoc]
        refine agrees _ ?_
        calc i * fs.pointersPerBlock ^ depth + j
            < i * fs.pointersPerBlock ^ depth + fs.pointersPerBlock ^ depth :=
              Nat.add_lt_add_left inTree _
          _ = (i + 1) * fs.pointersPerBlock ^ depth := (Nat.succ_mul _ _).symm
          _ ≤ fs.pointersPerBlock * fs.pointersPerBlock ^ depth := Nat.mul_le_mul_right _ below
          _ = fs.pointersPerBlock ^ (depth + 1) := Nat.pow_succ'.symm
      · rw [List.length_map, List.length_range, ← Nat.pow_succ']

/-! ### A whole file -/

/-- The loop over the direct pointers, which are mapped one after the other. -/
theorem readDirect_reached (mapped : fs.Mapped dm inode) {pointers : List U32} {base : Nat}
    (direct : ∀ i (below : i < pointers.length),
      fs.blockMap dm inode (base + i) = some pointers[i]) :
    fs.readDirect dm pointers (fs.reached dm inode base) =
      .ok (fs.reached dm inode (base + pointers.length)) := by
  induction pointers generalizing base with
  | nil => rfl
  | cons block rest ih =>
      unfold readDirect
      by_cases full : inode.iSize.toNat ≤ base * fs.blockSize.toNat
      · rw [if_pos (.inr (remaining_reached.mpr full)), reached_full full (Nat.le_add_right _ _)]
        rfl
      · have here : fs.blockMap dm inode base = some block := direct 0 (Nat.zero_lt_succ _)
        obtain ⟨_, blockData, same, content⟩ := mapped base (Nat.lt_of_not_le full)
        cases here.symm.trans same
        obtain ⟨notNull, read, _⟩ := blockContent_eq content
        have unfinished : ¬ (block = 0 ∨ (fs.reached dm inode base).remaining = 0) :=
          not_or.mpr ⟨notNull, fun none => full (remaining_reached.mp none)⟩
        rw [if_neg unfinished, read, bind_ok]
        simp only
        rw [copyBlock_reached (Nat.lt_of_not_le full) here content, bind_ok, ih, List.length_cons]
        · rw [Nat.add_assoc, Nat.add_comm 1]
        · intro i below
          rw [Nat.add_assoc, Nat.add_comm 1]
          exact direct (i + 1) (Nat.succ_lt_succ below)

/-- Reading through one of the indirect pointers of an inode. -/
theorem readIndirect_reached (aligned : 4 ∣ fs.blockSize.toNat) (positive : 0 < fs.blockSize.toNat)
    (mapped : fs.Mapped dm inode) (depth : Nat) {base : Nat}
    (agrees : ∀ i < fs.pointersPerBlock ^ depth,
      fs.treeBlock dm depth block i = fs.blockMap dm inode (base + i)) :
    readIndirect (fs.readTree dm depth) block (fs.reached dm inode base) =
      .ok (fs.reached dm inode (base + fs.pointersPerBlock ^ depth)) := by
  unfold readIndirect
  by_cases full : inode.iSize.toNat ≤ base * fs.blockSize.toNat
  · rw [if_neg fun left => Nat.ne_of_gt left.1 (remaining_reached.mpr full),
      reached_full full (Nat.le_add_right _ _)]
    rfl
  · obtain ⟨notNull, reads⟩ :=
      readTree_reached aligned positive mapped (Nat.lt_of_not_le full) agrees
    have left : 0 < (fs.reached dm inode base).remaining :=
      Nat.pos_of_ne_zero fun none => full (remaining_reached.mp none)
    rw [if_pos ⟨left, notNull⟩, reads]

/-- The number of blocks an inode can map. -/
def mappable (fs : Ext2Fs) : Nat :=
  12 + fs.pointersPerBlock + fs.pointersPerBlock ^ 2 + fs.pointersPerBlock ^ 3

/-- The first twelve blocks are pointed to directly. -/
theorem blockMap_direct {i : Nat} (below : i < inode.direct.length) :
    fs.blockMap dm inode i = some inode.direct[i] := by
  have few : i < 12 := Nat.lt_of_lt_of_eq below List.length_ofFn
  have pointer : inode.direct[i] = inode.iBlock ⟨i, Nat.lt_trans few (by decide)⟩ :=
    List.getElem_ofFn below
  unfold blockMap
  rw [dif_pos few]
  exact congrArg some pointer.symm

/-- The next ones through one block of pointers. -/
theorem blockMap_singly {i : Nat} (below : i < fs.pointersPerBlock) :
    fs.blockMap dm inode (12 + i) = fs.treeBlock dm 1 inode.singlyIndirect i := by
  simp only [blockMap]
  rw [dif_neg (by omega), if_pos (by omega), Nat.add_sub_cancel_left]

/-- The next ones through two. -/
theorem blockMap_doubly {i : Nat} (below : i < fs.pointersPerBlock ^ 2) :
    fs.blockMap dm inode (12 + fs.pointersPerBlock + i) =
      fs.treeBlock dm 2 inode.doublyIndirect i := by
  simp only [blockMap]
  rw [dif_neg (by omega), if_neg (by omega), if_pos (by omega), Nat.add_sub_cancel_left]

/-- The last ones through three. -/
theorem blockMap_triply {i : Nat} (below : i < fs.pointersPerBlock ^ 3) :
    fs.blockMap dm inode (12 + fs.pointersPerBlock + fs.pointersPerBlock ^ 2 + i) =
      fs.treeBlock dm 3 inode.triplyIndirect i := by
  simp only [blockMap]
  rw [dif_neg (by omega), if_neg (by omega), if_neg (by omega), if_pos (by omega),
    Nat.add_sub_cancel_left]

theorem blockMap_past {n : Nat} (past : fs.mappable ≤ n) : fs.blockMap dm inode n = none := by
  unfold mappable at past
  simp only [blockMap]
  rw [dif_neg (by omega), if_neg (by omega), if_neg (by omega), if_neg (by omega)]

/-- Reading a mapped file reads its blocks in order. -/
theorem readInodeData_reached (aligned : 4 ∣ fs.blockSize.toNat) (positive : 0 < fs.blockSize.toNat)
    (mapped : fs.Mapped dm inode) :
    fs.readInodeData dm inode = .ok (fs.reached dm inode fs.mappable).data := by
  have start : ({ remaining := inode.iSize.toNat, data := [] } : Progress) =
      fs.reached dm inode 0 := by
    simp [reached]
  have direct : fs.readDirect dm inode.direct (fs.reached dm inode 0) =
      .ok (fs.reached dm inode 12) :=
    readDirect_reached mapped fun i below => by
      rw [Nat.zero_add]
      exact blockMap_direct below
  have singly : readIndirect (fs.readSinglyIndirect dm) inode.singlyIndirect
      (fs.reached dm inode 12) = .ok (fs.reached dm inode (12 + fs.pointersPerBlock)) := by
    have level := readIndirect_reached aligned positive mapped 1
      fun i below => (blockMap_singly (Nat.lt_of_lt_of_eq below (Nat.pow_one _))).symm
    rw [Nat.pow_one] at level
    exact level
  have doubly := readIndirect_reached aligned positive mapped 2
    fun i below => (blockMap_doubly below).symm
  have triply := readIndirect_reached aligned positive mapped 3
    fun i below => (blockMap_triply below).symm
  unfold readInodeData
  rw [start, direct, bind_ok, singly, bind_ok]
  change (do
    let progress ← readIndirect (fs.readTree dm 2) inode.doublyIndirect
      (fs.reached dm inode (12 + fs.pointersPerBlock))
    let progress ← readIndirect (fs.readTree dm 3) inode.triplyIndirect progress
    return progress.data) = _
  rw [doubly, bind_ok, triply]
  rfl

/-- **The block map.** Where all blocks that the size of a file calls for are mapped
and can be read, `read_inode_data` returns as many bytes as the file has, and every
byte is the one at its place in the block that is mapped to its logical block. -/
theorem reads_block_map (aligned : 4 ∣ fs.blockSize.toNat) (positive : 0 < fs.blockSize.toNat)
    (mapped : fs.Mapped dm inode) :
    ∃ data, fs.readInodeData dm inode = .ok data ∧ data.length = inode.iSize.toNat ∧
      ∀ k < inode.iSize.toNat, ∃ block blockData,
        fs.blockMap dm inode (k / fs.blockSize.toNat) = some block ∧
          fs.readBlock block dm = .ok (some blockData) ∧
          data[k]? = blockData[k % fs.blockSize.toNat]? := by
  have enough : inode.iSize.toNat ≤ fs.mappable * fs.blockSize.toNat := by
    by_contra more
    obtain ⟨block, _, found, _⟩ := mapped fs.mappable (Nat.lt_of_not_le more)
    cases (blockMap_past (Nat.le_refl _)).symm.trans found
  refine ⟨_, readInodeData_reached aligned positive mapped, ?_, fun k below => ?_⟩
  · rw [reached, List.length_map, List.length_range, Nat.min_eq_left enough]
  · have split := Nat.div_add_mod' k fs.blockSize.toNat
    have inBlock := Nat.mod_lt k positive
    obtain ⟨block, blockData, found, content⟩ :=
      mapped (k / fs.blockSize.toNat) (Nat.lt_of_le_of_lt (Nat.div_mul_le_self _ _) below)
    obtain ⟨_, read, length⟩ := blockContent_eq content
    refine ⟨block, blockData, found, read, ?_⟩
    have byte := fileByte_mapped found content inBlock
    rw [split] at byte
    have inData : k % fs.blockSize.toNat < blockData.length :=
      Nat.lt_of_lt_of_eq inBlock length.symm
    rw [reached, List.getElem?_map, List.getElem?_range (by omega), Option.map_some, byte,
      List.getElem?_eq_getElem inData, List.getD_eq_getElem _ _ inData]

/-! ### A file with an indirect block -/

/-- A mounted disk whose bytes are all 7. -/
def filledFs : Ext2Fs where
  superblock := sampleSuperblock 64
  blockSize := 1024
  inodeSize := 128
  blockGroups := [{ bgInodeTable := 3 }]
  devicePath := "/dev/hda"

def filledDisk : DriverManager := diskManager fun _ => 7

/-- A file that takes up its direct blocks and the start of another one. -/
def filledInode : Ext2Inode where
  iMode := 0x8000
  iSize := 12388
  iBlock _ := 5

/-- Each of its blocks has content. -/
theorem blockContent_filled {block : U32} (notNull : block ≠ 0) :
    filledFs.blockContent filledDisk block = some (List.replicate 1024 7) := by
  have read : filledFs.readBlock block filledDisk = .ok (some (List.replicate 1024 7)) := by
    refine (readDevice_diskManager _ _ _).trans ?_
    rw [List.map_const', List.length_range]
    rfl
  unfold blockContent
  rw [read]
  exact if_pos ⟨notNull, List.length_replicate⟩

/-- Each file on it is mapped. -/
theorem mapped_filled : filledFs.Mapped filledDisk filledInode := by
  intro n below
  have few : n ≤ 12 := by
    change n * 1024 < 12388 at below
    omega
  rcases Nat.lt_or_eq_of_le few with direct | rfl
  · exact ⟨5, _, dif_pos direct, blockContent_filled (by decide)⟩
  · refine ⟨0x07070707, _, ?_, blockContent_filled (by decide)⟩
    change filledFs.treeBlock filledDisk 1 5 0 = _
    unfold treeBlock
    rw [blockContent_filled (by decide)]
    decide +kernel

theorem reads_block_map_filled :
    ∃ data, filledFs.readInodeData filledDisk filledInode = .ok data ∧ data.length = 12388 ∧
      ∀ k < 12388, ∃ block blockData,
        filledFs.blockMap filledDisk filledInode (k / 1024) = some block ∧
          filledFs.readBlock block filledDisk = .ok (some blockData) ∧
          data[k]? = blockData[k % 1024]? :=
  reads_block_map (by decide) (by decide) mapped_filled

end Lofita.Fs.Ext2Fs
