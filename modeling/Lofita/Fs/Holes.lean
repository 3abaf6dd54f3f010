import Mathlib.Data.List.TakeWhile
import Lofita.Foundation.Pieces
import Lofita.Fs.BlockMap

/-! # Files with holes

A null pointer ends the loop that comes to it, and reading goes on with the next level
of pointers. What `read_inode_data` returns are the bytes of the blocks it comes to, one
after the other (`readInodeData_eq`): those of the logical blocks that are behind no null
pointer of their blocks of pointers (`blocksRead_eq`). A logical block that comes after others
that are behind one is moved forward by as many, and what is returned is a prefix of the file
exactly if no block is moved, or those that are have the bytes of the file at their new places
(`reads_prefix_iff`).
-/

namespace Lofita.Fs.Ext2Fs

open Lofita.Foundation Lofita.Foundation.Outcome

variable (fs : Ext2Fs) (dm : DriverManager)

/-! ### The blocks that are read -/

/-- The bytes of a block, if the device can be read. -/
def bytesOf (block : U32) : List U8 :=
  match fs.readBlock block dm with
  | .ok (some blockData) => blockData
  | _ => []

/-- The pointers of a block before the first null pointer. -/
def pointersIn (block : U32) : List U32 :=
  match fs.readBlock block dm with
  | .ok (some blockData) =>
      ((List.range fs.pointersPerBlock).map fun i => word32 blockData (4 * i)).takeWhile (· ≠ 0)
  | _ => []

/-- The blocks of data that are read through a pointer, with this many blocks of
pointers on the way. -/
def leaves : Nat → U32 → List U32
  | 0, block => [block]
  | depth + 1, block => (fs.pointersIn dm block).flatMap (leaves depth)

/-- The blocks of data that are read through a pointer of the inode. -/
def leavesUnder (depth : Nat) (block : U32) : List U32 :=
  if block = 0 then [] else fs.leaves dm depth block

/-- The blocks of data that are read, one after the other, until the size of the file is
reached. -/
def blocksRead (inode : Ext2Inode) : List U32 :=
  inode.direct.takeWhile (· ≠ 0) ++ fs.leavesUnder dm 1 inode.singlyIndirect ++
    fs.leavesUnder dm 2 inode.doublyIndirect ++ fs.leavesUnder dm 3 inode.triplyIndirect

/-- The file that an inode describes: the bytes of the blocks it maps, and zeros in the
holes. -/
def fileContent (inode : Ext2Inode) : List U8 :=
  (List.range inode.iSize.toNat).map (fs.fileByte dm inode)

/-- The bytes that are returned are a prefix of the file. -/
def ReadsPrefix (inode : Ext2Inode) : Prop :=
  ∃ data, fs.readInodeData dm inode = .ok data ∧ data <+: fs.fileContent dm inode

/-! ### Blocks behind null pointers -/

/-- No pointer on the way from a pointer to an index is null, nor is one before it in its block. -/
def unbrokenUnder : Nat → U32 → Nat → Bool
  | 0, block, _ => block ≠ 0
  | depth + 1, block, i =>
      let q := fs.pointersPerBlock ^ depth
      block ≠ 0 && unbrokenUnder depth ((fs.pointersIn dm block).getD (i / q) 0) (i % q)

/-- No pointer on the way to a logical block is null, nor is one before it in the inode's direct
pointers or in its block of pointers. -/
def unbroken (inode : Ext2Inode) (n : Nat) : Bool :=
  let p := fs.pointersPerBlock
  if n < 12 then (inode.direct.takeWhile (· ≠ 0)).getD n 0 ≠ 0
  else if n < 12 + p then fs.unbrokenUnder dm 1 inode.singlyIndirect (n - 12)
  else if n < 12 + p + p ^ 2 then fs.unbrokenUnder dm 2 inode.doublyIndirect (n - (12 + p))
  else if n < 12 + p + p ^ 2 + p ^ 3 then
    fs.unbrokenUnder dm 3 inode.triplyIndirect (n - (12 + p + p ^ 2))
  else false

/-- The logical blocks before one, without those behind a null pointer. -/
def place (inode : Ext2Inode) (n : Nat) : Nat :=
  ((List.range n).filter (fs.unbroken dm inode)).length

/-- A logical block is behind no null pointer, but one before it is. -/
def Moved (inode : Ext2Inode) (n : Nat) : Prop :=
  fs.unbroken dm inode n = true ∧ ∃ m < n, fs.unbroken dm inode m = false

/-- A logical block that comes after a hole and is behind no null pointer has the bytes that the
file has as many blocks earlier as are missing before it. -/
def HolesHarmless (inode : Ext2Inode) : Prop :=
  ∀ n block, fs.Moved dm inode n → fs.blockMap dm inode n = some block →
    AgreesFrom (fs.fileByte dm inode) inode.iSize.toNat
      (fs.place dm inode n * fs.blockSize.toNat) (fs.bytesOf dm block)

/-- The progress after some blocks, where a file of this size is read. -/
def after (size : Nat) (blocks : List U32) : Progress where
  remaining := size - (blocks.flatMap (fs.bytesOf dm)).length
  data := (blocks.flatMap (fs.bytesOf dm)).take size

variable {fs dm} {size depth : Nat} {block : U32} {inode : Ext2Inode}

/-! ### What a device answers -/

variable (fs dm) in
/-- The device returns every block in full. -/
def Present : Prop :=
  ∀ block, fs.readBlock block dm = .ok (some (fs.bytesOf dm block)) ∧
    (fs.bytesOf dm block).length = fs.blockSize.toNat

/-- A device that answers exactly either returns every block in full, or none. -/
theorem readBlock_cases (exact : dm.ReadsExactly fs.devicePath) :
    (∀ block, fs.readBlock block dm = .ok none) ∨ fs.Present dm := by
  by_cases some : ∃ block data, fs.readBlock block dm = .ok (some data)
  · obtain ⟨block, data, read⟩ := some
    refine .inr fun other => ?_
    obtain ⟨found, readToo, length⟩ :=
      exact.again read (other.setWidth 64 * fs.blockSize) fs.blockSize
    have here : fs.readBlock other dm = .ok (some found) := readToo
    unfold bytesOf
    rw [here]
    exact ⟨rfl, length⟩
  · refine .inl fun block => ?_
    obtain ⟨answer, read⟩ := exact.completes (block.setWidth 64 * fs.blockSize) fs.blockSize
    cases answer with
    | none => exact read
    | some data => exact absurd ⟨block, data, read⟩ some

/-! ### The loops -/

/-- Once the size is reached, further blocks change nothing. -/
theorem after_full {blocks : List U32} (full : (fs.after dm size blocks).remaining = 0)
    (more : List U32) : fs.after dm size (blocks ++ more) = fs.after dm size blocks := by
  have enough : size ≤ (blocks.flatMap (fs.bytesOf dm)).length := Nat.sub_eq_zero_iff_le.mp full
  unfold after
  rw [List.flatMap_append, List.length_append, List.take_append_of_le_length enough,
    Progress.mk.injEq]
  exact ⟨by omega, rfl⟩

/-- **One block** more is read. -/
theorem copyBlock_after {blocks : List U32}
    (full : (fs.bytesOf dm block).length = fs.blockSize.toNat) :
    fs.copyBlock (fs.bytesOf dm block) (fs.after dm size blocks) =
      .ok (fs.after dm size (blocks ++ [block])) := by
  have part : slice (fs.bytesOf dm block) 0
      (min (fs.after dm size blocks).remaining fs.blockSize.toNat) =
        .ok ((fs.bytesOf dm block).take (fs.after dm size blocks).remaining) := by
    unfold slice
    rw [if_pos ⟨Nat.zero_le _, by omega⟩, ← full, List.drop_zero, Nat.sub_zero,
      ← List.take_eq_take_min]
    rfl
  simp only [copyBlock, part, bind_ok]
  refine congrArg _ ?_
  unfold after
  rw [List.flatMap_append, List.flatMap_singleton, List.length_append, List.take_append, full,
    Progress.mk.injEq]
  refine ⟨?_, rfl⟩
  change size - _ - min (size - _) _ = _
  omega

/-- Nothing is read from a device that is not there. -/
theorem after_missing (missing : ∀ block, fs.readBlock block dm = .ok none)
    (earlier more : List U32) : fs.after dm size (earlier ++ more) = fs.after dm size earlier := by
  have nothing : more.flatMap (fs.bytesOf dm) = [] := by
    refine List.flatMap_eq_nil_iff.mpr fun block _ => ?_
    unfold bytesOf
    rw [missing]
  unfold after
  rw [List.flatMap_append, nothing, List.append_nil]

variable (fs dm) in
/-- Through a pointer, a loop body reads some blocks. -/
def Reads (size : Nat) (body : U32 → Progress → Checked Progress) (blocks : U32 → List U32) :
    Prop :=
  ∀ block earlier, body block (fs.after dm size earlier) =
    .ok (fs.after dm size (earlier ++ blocks block))

/-- **The loop rule.** A loop over pointers reads what its body reads through the
pointers before the first null pointer. -/
theorem forPointers_after {body : U32 → Progress → Checked Progress} {blocks : U32 → List U32}
    (reads : fs.Reads dm size body blocks) (pointers earlier : List U32) :
    forPointers body pointers (fs.after dm size earlier) =
      .ok (fs.after dm size (earlier ++ (pointers.takeWhile (· ≠ 0)).flatMap blocks)) := by
  induction pointers generalizing earlier with
  | nil =>
      rw [List.takeWhile_nil, List.flatMap_nil, List.append_nil]
      rfl
  | cons block rest ih =>
      unfold forPointers
      by_cases null : block = 0
      · rw [if_pos (.inl null), List.takeWhile_cons_of_neg (by simpa using null),
          List.flatMap_nil, List.append_nil]
        rfl
      · by_cases full : (fs.after dm size earlier).remaining = 0
        · rw [if_pos (.inr full), after_full full]
          rfl
        · rw [if_neg (not_or.mpr ⟨null, full⟩), reads block earlier, bind_ok, ih,
            List.takeWhile_cons_of_pos (by simpa using null), List.flatMap_cons, List.append_assoc]

/-- Reading through a pointer reads its leaves. -/
theorem reads_readTree (exact : dm.ReadsExactly fs.devicePath) (depth : Nat) :
    fs.Reads dm size (fs.readTree dm depth) (fs.leaves dm depth) := by
  rcases readBlock_cases exact with missing | present
  · intro block earlier
    rw [after_missing missing]
    cases depth with
    | zero =>
        unfold readTree withBlock
        rw [missing]
        rfl
    | succ depth =>
        unfold readTree throughBlock withBlock
        rw [missing]
        rfl
  · induction depth with
    | zero =>
        intro block earlier
        obtain ⟨read, full⟩ := present block
        unfold readTree withBlock
        rw [read]
        exact copyBlock_after full
    | succ depth ih =>
        intro block earlier
        obtain ⟨read, full⟩ := present block
        have pointers : fs.pointers (fs.bytesOf dm block) =
            .ok ((List.range fs.pointersPerBlock).map
              fun i => word32 (fs.bytesOf dm block) (4 * i)) := by
          have enough : ¬ (fs.bytesOf dm block).length < 4 * fs.pointersPerBlock := by
            rw [full]
            unfold pointersPerBlock
            rw [BitVec.toNat_udiv]
            exact Nat.not_lt_of_le (Nat.mul_div_le _ _)
          unfold pointers readRecord
          rw [if_neg enough]
          rfl
        have inBlock : fs.pointersIn dm block =
            ((List.range fs.pointersPerBlock).map
              fun i => word32 (fs.bytesOf dm block) (4 * i)).takeWhile (· ≠ 0) := by
          unfold pointersIn
          rw [read]
        unfold readTree throughBlock withBlock
        rw [read, bind_ok]
        simp only
        rw [pointers, bind_ok, forPointers_after ih]
        unfold leaves
        rw [inBlock]

/-- The loop over the direct pointers. -/
theorem readDirect_after (exact : dm.ReadsExactly fs.devicePath) (pointers earlier : List U32) :
    fs.readDirect dm pointers (fs.after dm size earlier) =
      .ok (fs.after dm size (earlier ++ pointers.takeWhile (· ≠ 0))) := by
  induction pointers generalizing earlier with
  | nil =>
      rw [List.takeWhile_nil, List.append_nil]
      rfl
  | cons block rest ih =>
      unfold readDirect
      by_cases null : block = 0
      · rw [if_pos (.inl null), List.takeWhile_cons_of_neg (by simpa using null), List.append_nil]
        rfl
      · by_cases full : (fs.after dm size earlier).remaining = 0
        · rw [if_pos (.inr full), after_full full]
          rfl
        · rw [if_neg (not_or.mpr ⟨null, full⟩)]
          rcases readBlock_cases exact with missing | present
          · rw [missing, after_missing missing]
            rfl
          · obtain ⟨read, inFull⟩ := present block
            rw [read, bind_ok]
            simp only
            rw [copyBlock_after inFull, bind_ok, ih,
              List.takeWhile_cons_of_pos (by simpa using null), List.append_assoc]
            rfl

/-- Reading through an indirect block goes on behind the blocks before it. -/
theorem readIndirect_after (exact : dm.ReadsExactly fs.devicePath) (depth : Nat) (block : U32)
    (earlier : List U32) :
    readIndirect (fs.readTree dm depth) block (fs.after dm size earlier) =
      .ok (fs.after dm size (earlier ++ fs.leavesUnder dm depth block)) := by
  unfold readIndirect leavesUnder
  by_cases null : block = 0
  · rw [if_neg fun both => both.2 null, if_pos null, List.append_nil]
    rfl
  · rw [if_neg null]
    by_cases full : (fs.after dm size earlier).remaining = 0
    · rw [if_neg fun both => Nat.ne_of_gt both.1 full, after_full full]
      rfl
    · rw [if_pos ⟨Nat.pos_of_ne_zero full, null⟩]
      exact reads_readTree exact depth block earlier

/-- **What is read** from an inode: the bytes of the blocks read, up to its size. -/
theorem readInodeData_eq (exact : dm.ReadsExactly fs.devicePath) (inode : Ext2Inode) :
    fs.readInodeData dm inode =
      .ok (((fs.blocksRead dm inode).flatMap (fs.bytesOf dm)).take inode.iSize.toNat) := by
  have start : ({ remaining := inode.iSize.toNat, data := [] } : Progress) =
      fs.after dm inode.iSize.toNat [] := by
    simp [after]
  have singly := @readIndirect_after fs dm inode.iSize.toNat exact 1 inode.singlyIndirect
  have doubly := @readIndirect_after fs dm inode.iSize.toNat exact 2 inode.doublyIndirect
  have triply := @readIndirect_after fs dm inode.iSize.toNat exact 3 inode.triplyIndirect
  unfold readInodeData
  rw [start, readDirect_after exact, bind_ok]
  change (do
    let progress ← readIndirect (fs.readTree dm 1) inode.singlyIndirect _
    let progress ← readIndirect (fs.readTree dm 2) inode.doublyIndirect progress
    let progress ← readIndirect (fs.readTree dm 3) inode.triplyIndirect progress
    return progress.data) = _
  rw [singly, bind_ok, doubly, bind_ok, triply, List.nil_append]
  rfl

/-! ### Blocks at their places -/

/-- A block of the volume has its bytes. -/
theorem content_of_present (present : fs.Present dm) (notNull : block ≠ 0) :
    fs.blockContent dm block = some (fs.bytesOf dm block) := by
  unfold blockContent
  rw [(present block).1]
  exact if_pos ⟨notNull, (present block).2⟩

/-- A block at its place has the bytes that the file has there. -/
theorem agrees_of_mapped {n : Nat} (notNull : block ≠ 0) (present : fs.Present dm)
    (mapped : fs.blockMap dm inode n = some block) :
    AgreesFrom (fs.fileByte dm inode) size (n * fs.blockSize.toNat) (fs.bytesOf dm block) := by
  intro k below _
  rw [fileByte_mapped mapped (content_of_present present notNull) ((present block).2 ▸ below),
    List.getD_eq_getElem _ _ below]

/-- The pointers read before a hole are not null. -/
theorem ne_zero_of_mem_pointersIn {pointer : U32} (member : pointer ∈ fs.pointersIn dm block) :
    pointer ≠ 0 := by
  unfold pointersIn at member
  split at member
  · simpa using List.mem_takeWhile_imp member
  · exact absurd member List.not_mem_nil

/-! ### Places in the file -/

/-- A null pointer has nothing unbroken under it. -/
theorem ne_zero_of_unbrokenUnder {i : Nat} (kept : fs.unbrokenUnder dm depth block i = true) :
    block ≠ 0 := by
  cases depth with
  | zero => exact of_decide_eq_true kept
  | succ depth => exact of_decide_eq_true (Bool.and_eq_true_iff.mp kept).1

variable (fs dm) in
/-- The blocks that are read through a pointer are those of the indices that are behind no null
pointer. -/
def LeavesInOrder (depth : Nat) : Prop :=
  ∀ block, fs.leavesUnder dm depth block =
    ((List.range (fs.pointersPerBlock ^ depth)).filter (fs.unbrokenUnder dm depth block)).map
      fun i => (fs.treeBlock dm depth block i).getD 0

/-- **A row of pointers**, of which those before the first null pointer are followed. -/
theorem row_in_order (inOrder : fs.LeavesInOrder dm depth) {pointers : List U32} {count : Nat}
    (few : pointers.length ≤ count) {kept : Nat → Bool} {found : Nat → U32}
    (keeps : ∀ j < count, ∀ i < fs.pointersPerBlock ^ depth,
      kept (j * fs.pointersPerBlock ^ depth + i) =
        fs.unbrokenUnder dm depth (pointers.getD j 0) i)
    (finds : ∀ j (below : j < pointers.length), ∀ i < fs.pointersPerBlock ^ depth,
      found (j * fs.pointersPerBlock ^ depth + i) =
        (fs.treeBlock dm depth pointers[j] i).getD 0) :
    pointers.flatMap (fs.leavesUnder dm depth) =
      ((List.range (count * fs.pointersPerBlock ^ depth)).filter kept).map found := by
  have nothing : fs.leavesUnder dm depth 0 = [] := if_pos rfl
  rw [range_mul, List.filter_flatMap, List.map_flatMap, ← flatMap_getD few nothing]
  refine List.flatMap_congr fun j below => ?_
  have inCount := List.mem_range.mp below
  rw [inOrder, List.filter_map, List.map_map]
  have same : (List.range (fs.pointersPerBlock ^ depth)).filter
      (kept ∘ fun i => j * fs.pointersPerBlock ^ depth + i) =
        (List.range (fs.pointersPerBlock ^ depth)).filter
          (fs.unbrokenUnder dm depth (pointers.getD j 0)) :=
    List.filter_congr fun i inRow => keeps j inCount i (List.mem_range.mp inRow)
  rw [same]
  refine List.map_congr_left fun i isKept => ?_
  obtain ⟨inRow, unbroken⟩ := List.mem_filter.mp isKept
  -- only a pointer of the row leads to an index that is kept
  have inPointers : j < pointers.length := by
    by_contra past
    rw [List.getD_eq_default _ _ (Nat.le_of_not_lt past)] at unbroken
    exact ne_zero_of_unbrokenUnder unbroken rfl
  rw [List.getD_eq_getElem _ _ inPointers]
  exact (finds j inPointers i (List.mem_range.mp inRow)).symm

/-- Under pointers that are not null, all their blocks are read. -/
theorem flatMap_leavesUnder {pointers : List U32} (notNull : ∀ pointer ∈ pointers, pointer ≠ 0) :
    pointers.flatMap (fs.leavesUnder dm depth) = pointers.flatMap (fs.leaves dm depth) :=
  List.flatMap_congr fun pointer member => if_neg (notNull pointer member)

/-- A block has so many pointers at most. -/
theorem length_pointersIn (block : U32) :
    (fs.pointersIn dm block).length ≤ fs.pointersPerBlock := by
  unfold pointersIn
  split
  · refine (List.takeWhile_prefix _).length_le.trans ?_
    rw [List.length_map, List.length_range]
  · exact Nat.zero_le _

/-- The pointers before a hole stand in their places. -/
theorem getElem_pointersIn (present : fs.Present dm) {j : Nat}
    (below : j < (fs.pointersIn dm block).length) :
    (fs.pointersIn dm block)[j] = word32 (fs.bytesOf dm block) (4 * j) := by
  have pointers : fs.pointersIn dm block = ((List.range fs.pointersPerBlock).map
      fun i => word32 (fs.bytesOf dm block) (4 * i)).takeWhile (· ≠ 0) := by
    unfold pointersIn
    rw [(present block).1]
  simp only [pointers] at below ⊢
  rw [(List.takeWhile_prefix _).getElem below, List.getElem_map, List.getElem_range]

/-- The indices under a pointer are read in their order. -/
theorem leavesInOrder (present : fs.Present dm) (depth : Nat) :
    fs.LeavesInOrder dm depth := by
  induction depth with
  | zero =>
      intro block
      by_cases null : block = 0
      · simp [leavesUnder, unbrokenUnder, null]
      · have kept : fs.unbrokenUnder dm 0 block 0 = true := decide_eq_true null
        rw [leavesUnder, if_neg null, Nat.pow_zero, List.range_one, List.filter_singleton, kept]
        rfl
  | succ depth ih =>
      intro block
      by_cases null : block = 0
      · have none : (fs.unbrokenUnder dm (depth + 1) block) = fun _ => false := by
          funext i
          simp [unbrokenUnder, null]
        rw [leavesUnder, if_pos null, none, List.filter_false, List.map_nil]
      · have content := content_of_present present null
        rw [leavesUnder, if_neg null, leaves,
          ← flatMap_leavesUnder fun pointer member => ne_zero_of_mem_pointersIn member,
          Nat.pow_succ']
        refine row_in_order ih (length_pointersIn block) ?_ ?_
        · intro j _ i inRow
          simp only [unbrokenUnder]
          rw [row_div inRow, row_mod inRow, decide_eq_true null, Bool.true_and]
        · intro j inPointers i inRow
          rw [treeBlock_child content inRow]
          rw [getElem_pointersIn present inPointers]

/-- A logical block that is behind no null pointer has a block. -/
theorem treeBlock_of_unbroken (present : fs.Present dm) {i : Nat}
    (kept : fs.unbrokenUnder dm depth block i = true) :
    ∃ leaf, fs.treeBlock dm depth block i = some leaf ∧ leaf ≠ 0 := by
  induction depth generalizing block i with
  | zero => exact ⟨block, rfl, of_decide_eq_true kept⟩
  | succ depth ih =>
      have null := ne_zero_of_unbrokenUnder kept
      have under := (Bool.and_eq_true_iff.mp kept).2
      have inPointers : i / fs.pointersPerBlock ^ depth < (fs.pointersIn dm block).length := by
        by_contra past
        rw [List.getD_eq_default _ _ (Nat.le_of_not_lt past)] at under
        exact ne_zero_of_unbrokenUnder under rfl
      rw [List.getD_eq_getElem _ _ inPointers, getElem_pointersIn present inPointers]
        at under
      obtain ⟨leaf, found, notNull⟩ := ih under
      refine ⟨leaf, ?_, notNull⟩
      unfold treeBlock
      rw [content_of_present present null]
      exact found

/-! ### The levels of an inode -/

section Levels

variable {i : Nat}

/-- The direct blocks before the first null pointer. -/
theorem unbroken_direct (direct : i < 12) :
    fs.unbroken dm inode i = decide ((inode.direct.takeWhile (· ≠ 0)).getD i 0 ≠ 0) := if_pos direct

/-- The next blocks, under one pointer. -/
theorem unbroken_singly (below : i < fs.pointersPerBlock) :
    fs.unbroken dm inode (12 + i) = fs.unbrokenUnder dm 1 inode.singlyIndirect i := by
  simp only [unbroken]
  rw [if_neg (by omega), if_pos (by omega), Nat.add_sub_cancel_left]

/-- The next ones, under two levels. -/
theorem unbroken_doubly (below : i < fs.pointersPerBlock ^ 2) :
    fs.unbroken dm inode (12 + fs.pointersPerBlock + i) =
      fs.unbrokenUnder dm 2 inode.doublyIndirect i := by
  simp only [unbroken]
  rw [if_neg (by omega), if_neg (by omega), if_pos (by omega), Nat.add_sub_cancel_left]

/-- The last ones, under three. -/
theorem unbroken_triply (below : i < fs.pointersPerBlock ^ 3) :
    fs.unbroken dm inode (12 + fs.pointersPerBlock + fs.pointersPerBlock ^ 2 + i) =
      fs.unbrokenUnder dm 3 inode.triplyIndirect i := by
  simp only [unbroken]
  rw [if_neg (by omega), if_neg (by omega), if_neg (by omega), if_pos (by omega),
    Nat.add_sub_cancel_left]

/-- A logical block behind no null pointer is one that the inode can map. -/
theorem lt_mappable_of_unbroken {n : Nat} (kept : fs.unbroken dm inode n = true) :
    n < fs.mappable := by
  by_contra past
  unfold mappable at past
  simp only [unbroken] at kept
  rw [if_neg (by omega), if_neg (by omega), if_neg (by omega), if_neg (by omega)] at kept
  cases kept

/-- Reading through an indirect pointer reads the logical blocks of its level that are behind no
null pointer. -/
theorem level_in_order (inode : Ext2Inode) (inOrder : fs.LeavesInOrder dm depth) {base : Nat}
    (keeps : ∀ i < fs.pointersPerBlock ^ depth,
      fs.unbroken dm inode (base + i) = fs.unbrokenUnder dm depth block i)
    (maps : ∀ i < fs.pointersPerBlock ^ depth,
      fs.blockMap dm inode (base + i) = fs.treeBlock dm depth block i) :
    fs.leavesUnder dm depth block =
      (((List.range (fs.pointersPerBlock ^ depth)).map (base + ·)).filter
        (fs.unbroken dm inode)).map fun n => (fs.blockMap dm inode n).getD 0 := by
  rw [inOrder, List.filter_map, List.map_map]
  have same : (List.range (fs.pointersPerBlock ^ depth)).filter
      (fs.unbroken dm inode ∘ (base + ·)) =
        (List.range (fs.pointersPerBlock ^ depth)).filter (fs.unbrokenUnder dm depth block) :=
    List.filter_congr fun i below => keeps i (List.mem_range.mp below)
  rw [same]
  refine List.map_congr_left fun i isKept => ?_
  exact congrArg (Option.getD · 0)
    (maps i (List.mem_range.mp (List.mem_filter.mp isKept).1)).symm

end Levels

/-- **What is read**, by logical blocks: those behind no null pointer, in their order. -/
theorem blocksRead_eq (present : fs.Present dm) :
    fs.blocksRead dm inode =
      ((List.range fs.mappable).filter (fs.unbroken dm inode)).map
        fun n => (fs.blockMap dm inode n).getD 0 := by
  have inOrder := leavesInOrder present
  have length : inode.direct.length = 12 := List.length_ofFn
  have few : (inode.direct.takeWhile (· ≠ 0)).length ≤ 12 :=
    length ▸ (List.takeWhile_prefix _).length_le
  have direct : inode.direct.takeWhile (· ≠ 0) =
      ((List.range (12 * fs.pointersPerBlock ^ 0)).filter (fs.unbroken dm inode)).map
        fun n => (fs.blockMap dm inode n).getD 0 := by
    rw [← row_in_order (inOrder 0) few]
    · rw [flatMap_leavesUnder fun pointer member => by simpa using List.mem_takeWhile_imp member]
      exact (List.flatMap_singleton' _).symm
    · intro j below i zero
      obtain rfl : i = 0 := Nat.lt_one_iff.mp zero
      rw [Nat.pow_zero, Nat.mul_one, Nat.add_zero, unbroken_direct below]
      rfl
    · intro j below i zero
      obtain rfl : i = 0 := Nat.lt_one_iff.mp zero
      have inDirect : j < inode.direct.length :=
        Nat.lt_of_lt_of_le below (List.takeWhile_prefix _).length_le
      rw [Nat.pow_zero, Nat.mul_one, Nat.add_zero, blockMap_direct inDirect,
        (List.takeWhile_prefix _).getElem below]
      rfl
  have singly := level_in_order inode (inOrder 1)
    (fun i below => unbroken_singly (Nat.lt_of_lt_of_eq below (Nat.pow_one _)))
    (fun i below => blockMap_singly (Nat.lt_of_lt_of_eq below (Nat.pow_one _)))
  have doubly := level_in_order inode (inOrder 2) (fun i below => unbroken_doubly below)
    (fun i below => blockMap_doubly below)
  have triply := level_in_order inode (inOrder 3) (fun i below => unbroken_triply below)
    (fun i below => blockMap_triply below)
  rw [Nat.pow_zero, Nat.mul_one] at direct
  rw [Nat.pow_one] at singly
  unfold blocksRead mappable
  rw [direct, singly, doubly, triply]
  simp only [List.range_add, List.filter_append, List.map_append]

/-- An unbroken place has a block. -/
theorem blockMap_of_unbroken (present : fs.Present dm) {n : Nat}
    (kept : fs.unbroken dm inode n = true) :
    ∃ leaf, fs.blockMap dm inode n = some leaf ∧ leaf ≠ 0 := by
  simp only [unbroken, blockMap] at kept ⊢
  split_ifs at kept ⊢ with direct
  · refine ⟨_, rfl, ?_⟩
    have notNull := of_decide_eq_true kept
    have below : n < (inode.direct.takeWhile (· ≠ 0)).length := by
      by_contra past
      exact notNull (List.getD_eq_default _ _ (Nat.le_of_not_lt past))
    rw [List.getD_eq_getElem _ _ below, (List.takeWhile_prefix _).getElem below] at notNull
    unfold Ext2Inode.direct at notNull
    rwa [List.getElem_ofFn] at notNull
  all_goals exact treeBlock_of_unbroken present kept

/-- A logical block with none before it behind a null pointer is at its place. -/
theorem place_eq {n : Nat} (whole : ∀ m < n, fs.unbroken dm inode m = true) :
    fs.place dm inode n = n := by
  unfold place
  rw [List.filter_eq_self.mpr fun m below => whole m (List.mem_range.mp below), List.length_range]

/-- **Files with holes.** What is read from an inode is a prefix of its file exactly if no logical
block comes after a hole, or those that do have the same bytes as the file at the places that they
are moved to. -/
theorem reads_prefix_iff (exact : dm.ReadsExactly fs.devicePath) :
    fs.ReadsPrefix dm inode ↔ fs.HolesHarmless dm inode := by
  have read := readInodeData_eq exact inode
  have prefixIff : fs.ReadsPrefix dm inode ↔ AgreesFrom (fs.fileByte dm inode) inode.iSize.toNat 0
      ((fs.blocksRead dm inode).flatMap (fs.bytesOf dm)) := by
    rw [← take_prefix_iff]
    constructor
    · rintro ⟨data, done, isPrefix⟩
      cases read.symm.trans done
      exact isPrefix
    · exact fun isPrefix => ⟨_, read, isPrefix⟩
  rw [prefixIff]
  rcases readBlock_cases exact with missing | present
  · have nothing : ∀ block, fs.bytesOf dm block = [] := by
      intro block
      unfold bytesOf
      rw [missing]
    have empty : (fs.blocksRead dm inode).flatMap (fs.bytesOf dm) = [] :=
      List.flatMap_eq_nil_iff.mpr fun block _ => nothing block
    rw [empty]
    refine iff_of_true agreesFrom_nil fun n block _ _ => ?_
    rw [nothing]
    exact agreesFrom_nil
  · rw [blocksRead_eq present, List.flatMap_map, agreesFrom_flatMap fun n => (present _).2]
    constructor
    · intro agrees n block moved mapped
      have here := agrees n (lt_mappable_of_unbroken moved.1) moved.1
      rwa [mapped, Option.getD_some, Nat.zero_add] at here
    · intro harmless n _ kept
      obtain ⟨leaf, mapped, notNull⟩ := blockMap_of_unbroken present kept
      rw [mapped, Option.getD_some, Nat.zero_add]
      change AgreesFrom _ _ (fs.place dm inode n * _) _
      by_cases after : ∃ m < n, fs.unbroken dm inode m = false
      · exact harmless n leaf ⟨kept, after⟩ mapped
      · rw [place_eq fun m below => eq_true_of_ne_false fun broken => after ⟨m, below, broken⟩]
        exact agrees_of_mapped notNull present mapped

/-! ### A file with a hole -/

/-- A file of thirteen blocks that begins with a hole of twelve, on the disk whose bytes
are all 7. -/
def holedInode : Ext2Inode where
  iMode := 0x8000
  iSize := 12388
  iBlock i := if i.val = 12 then 5 else 0

theorem reads_prefix_iff_holed :
    filledFs.ReadsPrefix filledDisk holedInode ↔ filledFs.HolesHarmless filledDisk holedInode :=
  reads_prefix_iff (readsExactly_diskManager _)

/-- The data after the hole appears at the start. -/
theorem shifts_past_hole :
    filledDisk.ReadsExactly filledFs.devicePath ∧
      ¬ filledFs.ReadsPrefix filledDisk holedInode := by
  refine ⟨readsExactly_diskManager _, ?_⟩
  rintro ⟨data, done, isPrefix⟩
  have first : List.head? <$> filledFs.readInodeData filledDisk holedInode = .ok (some 7) := by
    decide +kernel
  obtain ⟨_, same, head⟩ := ok_map.mp first
  cases done.symm.trans same
  have hole : (filledFs.fileContent filledDisk holedInode).head? = some 0 := by decide +kernel
  obtain ⟨rest, whole⟩ := isPrefix
  rw [← whole, List.head?_append, head, Option.some_or] at hole
  exact absurd hole (by decide)

end Lofita.Fs.Ext2Fs
