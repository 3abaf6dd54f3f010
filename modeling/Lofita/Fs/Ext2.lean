import Lofita.Foundation.Outcome
import Lofita.Fs.Driver

/-! # The Ext2 driver

`Ext2Fs` of `ext2.rs`: mounting, the block map of an inode, and path lookup. The
arithmetic of the superblock wraps at 32 bits, that of offsets at 64 bits. The scan
of a directory, which need not end, takes at most a given number of steps.
-/

namespace Lofita.Fs

open Lofita.Foundation

/-- What `s_magic` has to be. -/
def ext2Signature : U16 := 0xef53

/-- The inode of the root directory. -/
def ext2RootInode : U32 := 2

/-- The fields of the superblock that the driver uses. -/
structure Ext2Superblock where
  inodesCount : U32
  blocksCount : U32
  firstDataBlock : U32
  logBlockSize : U32
  blocksPerGroup : U32
  inodesPerGroup : U32
  magic : U16
  revLevel : U32
  inodeSize : U16
deriving DecidableEq, Repr

namespace Ext2Superblock

/-- The size of the record on disk. -/
def size : Nat := 1040

/-- The fields at their offsets. -/
def ofBytes (data : List U8) : Ext2Superblock where
  inodesCount := word32 data 0
  blocksCount := word32 data 4
  firstDataBlock := word32 data 20
  logBlockSize := word32 data 24
  blocksPerGroup := word32 data 32
  inodesPerGroup := word32 data 40
  magic := word16 data 56
  revLevel := word32 data 76
  inodeSize := word16 data 88

end Ext2Superblock

/-- The field of a block group descriptor that the driver uses. -/
structure Ext2BlockGroupDescriptor where
  bgInodeTable : U32
deriving DecidableEq, Repr

namespace Ext2BlockGroupDescriptor

/-- The size of a descriptor on disk. -/
def size : Nat := 32

/-- The field at its offset. -/
def ofBytes (data : List U8) : Ext2BlockGroupDescriptor where
  bgInodeTable := word32 data 8

end Ext2BlockGroupDescriptor

/-- The fields of an inode that the driver uses. -/
structure Ext2Inode where
  iMode : U16
  iSize : U32
  iBlock : Fin 15 → U32

namespace Ext2Inode

/-- The part of an inode that the driver reads. -/
def size : Nat := 128

/-- The fields at their offsets in the record. -/
def ofBytes (data : List U8) : Ext2Inode where
  iMode := word16 data 0
  iSize := word32 data 4
  iBlock i := word32 data (40 + 4 * i)

/-- The mode says that this is a directory. -/
def isDirectory (inode : Ext2Inode) : Bool := inode.iMode &&& 0xF000 = 0x4000

/-- The pointers to the first blocks of the file. -/
def direct (inode : Ext2Inode) : List U32 :=
  List.ofFn fun i : Fin 12 => inode.iBlock (i.castLE (by decide))

/-! The pointers to blocks of pointers, with one, two and three levels of them. -/

/-- The pointer to a block of pointers. -/
def singlyIndirect (inode : Ext2Inode) : U32 := inode.iBlock 12

/-- The pointer to a block of such pointers. -/
def doublyIndirect (inode : Ext2Inode) : U32 := inode.iBlock 13

def triplyIndirect (inode : Ext2Inode) : U32 := inode.iBlock 14

end Ext2Inode

structure Ext2Fs where
  superblock : Ext2Superblock
  blockSize : U64
  inodeSize : U64
  blockGroups : List Ext2BlockGroupDescriptor
  devicePath : String

namespace Ext2Fs

/-! ### Mounting -/

/-- The block size a superblock asks for; the shift wraps. -/
def blockSizeOf (superblock : Ext2Superblock) : U64 :=
  1024 <<< (superblock.logBlockSize.toNat % 64)

/-- The inode size, fixed in revision 0. -/
def inodeSizeOf (superblock : Ext2Superblock) : U64 :=
  if superblock.revLevel = 0 then 128 else superblock.inodeSize.setWidth 64

/-- The number of block groups, rounded up. -/
def groupsCountOf (superblock : Ext2Superblock) : Checked U32 :=
  if superblock.blocksPerGroup = 0 then throw .divideByZero
  else return (superblock.blocksCount - superblock.firstDataBlock + superblock.blocksPerGroup - 1) /
    superblock.blocksPerGroup

/-- The descriptors in the block group descriptor table. -/
def readBlockGroups (bgData : List U8) (groupsCount : Nat) :
    Checked (List Ext2BlockGroupDescriptor) :=
  (List.range groupsCount).mapM fun i =>
    readRecord Ext2BlockGroupDescriptor.size Ext2BlockGroupDescriptor.ofBytes
      (bgData.drop (i * Ext2BlockGroupDescriptor.size))

/-- The superblock is read and checked, then the table of block groups. -/
def mount (devicePath : String) (dm : DriverManager) : Checked (Except String Ext2Fs) := do
  let some sbData ← dm.readDevice devicePath 1024 (BitVec.ofNat 64 Ext2Superblock.size)
    | return .error "Failed to read superblock"
  if sbData.length < Ext2Superblock.size then
    return .error "Incomplete superblock read"
  let superblock := Ext2Superblock.ofBytes sbData
  if superblock.magic ≠ ext2Signature then
    return .error "Invalid Ext2 signature"
  let blockSize := blockSizeOf superblock
  let groupsCount ← groupsCountOf superblock
  -- The table starts at the block that follows the superblock.
  let bgdtBlock : U64 := if blockSize = 1024 then 2 else 1
  let bgTotalSize := groupsCount.setWidth 64 * BitVec.ofNat 64 Ext2BlockGroupDescriptor.size
  let some bgData ← dm.readDevice devicePath (bgdtBlock * blockSize) bgTotalSize
    | return .error "Failed to read BGDT"
  let blockGroups ← readBlockGroups bgData groupsCount.toNat
  return .ok
    { superblock, blockSize, inodeSize := inodeSizeOf superblock, blockGroups, devicePath }

variable (fs : Ext2Fs)

/-- A whole block of the volume. -/
def readBlock (block : U32) (dm : DriverManager) : Checked (Option (List U8)) :=
  dm.readDevice fs.devicePath (block.setWidth 64 * fs.blockSize) fs.blockSize

/-- An inode, from the table of its group. -/
def getInode (inodeNum : U32) (dm : DriverManager) : Checked (Option Ext2Inode) := do
  if inodeNum = 0 ∨ fs.superblock.inodesCount < inodeNum then
    return none
  if fs.superblock.inodesPerGroup = 0 then
    throw .divideByZero
  let bgIdx := (inodeNum - 1) / fs.superblock.inodesPerGroup
  let localIdx := (inodeNum - 1) % fs.superblock.inodesPerGroup
  match fs.blockGroups[bgIdx.toNat]? with
  | none => throw .indexOutOfRange
  | some bg =>
      let offset := bg.bgInodeTable.setWidth 64 * fs.blockSize + localIdx.setWidth 64 * fs.inodeSize
      let some data ← dm.readDevice fs.devicePath offset (BitVec.ofNat 64 Ext2Inode.size)
        | return none
      some <$> readRecord Ext2Inode.size Ext2Inode.ofBytes data

/-! ### Reading the data of an inode -/

/-- The bytes still to be read and the bytes read so far. -/
structure Progress where
  remaining : Nat
  data : List U8
deriving DecidableEq, Repr

def pointersPerBlock : Nat := (fs.blockSize / 4).toNat

/-- A block as an array of pointers. -/
def pointers (blockData : List U8) : Checked (List U32) :=
  readRecord (4 * fs.pointersPerBlock)
    (fun data => (List.range fs.pointersPerBlock).map fun i => word32 data (4 * i)) blockData

/-- Of a block, what is left of the file. -/
def copyBlock (blockData : List U8) (progress : Progress) : Checked Progress := do
  let toCopy := min progress.remaining fs.blockSize.toNat
  let part ← slice blockData 0 toCopy
  return { remaining := progress.remaining - toCopy, data := progress.data ++ part }

variable (dm : DriverManager)

/-- The direct blocks; a block that cannot be read ends the loop. -/
def readDirect : List U32 → Progress → Checked Progress
  | [], progress => return progress
  | block :: rest, progress =>
      if block = 0 ∨ progress.remaining = 0 then return progress
      else do
        match ← fs.readBlock block dm with
        | some blockData => readDirect rest (← fs.copyBlock blockData progress)
        | none => return progress

/-- A loop over the pointers of a block, up to the first null pointer. -/
def forPointers (body : U32 → Progress → Checked Progress) :
    List U32 → Progress → Checked Progress
  | [], progress => return progress
  | block :: rest, progress =>
      if block = 0 ∨ progress.remaining = 0 then return progress
      else do forPointers body rest (← body block progress)

/-- Use a block if it can be read. -/
def withBlock (use : List U8 → Progress → Checked Progress) (block : U32) (progress : Progress) :
    Checked Progress := do
  match ← fs.readBlock block dm with
  | some blockData => use blockData progress
  | none => return progress

/-- The data blocks of a list of pointers. -/
def readDataBlocks (pointers : List U32) (progress : Progress) : Checked Progress :=
  forPointers (fs.withBlock dm fs.copyBlock) pointers progress

/-- Read through the pointers in a block. -/
def throughBlock (next : List U32 → Progress → Checked Progress) (block : U32)
    (progress : Progress) : Checked Progress :=
  fs.withBlock dm (fun blockData progress => do next (← fs.pointers blockData) progress)
    block progress

/-- The data blocks under one block of pointers. -/
def readSinglyIndirect : U32 → Progress → Checked Progress :=
  fs.throughBlock dm (fs.readDataBlocks dm)

def readDoublyIndirect : U32 → Progress → Checked Progress :=
  fs.throughBlock dm (forPointers (fs.readSinglyIndirect dm))

def readTriplyIndirect : U32 → Progress → Checked Progress :=
  fs.throughBlock dm (forPointers (fs.readDoublyIndirect dm))

/-- Read through a pointer of the inode if there is something left to read. -/
def readIndirect (read : U32 → Progress → Checked Progress) (block : U32) (progress : Progress) :
    Checked Progress :=
  if 0 < progress.remaining ∧ block ≠ 0 then read block progress else return progress

/-- The direct blocks, then the three levels, until the size is reached. -/
def readInodeData (inode : Ext2Inode) : Checked (List U8) := do
  let progress ← fs.readDirect dm inode.direct { remaining := inode.iSize.toNat, data := [] }
  let progress ← readIndirect (fs.readSinglyIndirect dm) inode.singlyIndirect progress
  let progress ← readIndirect (fs.readDoublyIndirect dm) inode.doublyIndirect progress
  let progress ← readIndirect (fs.readTriplyIndirect dm) inode.triplyIndirect progress
  return progress.data

/-! ### Path lookup -/

/-- The inode number of the entry of a directory with a name, from an offset on. -/
def findEntry (dirData : List U8) (part : String) : Nat → Nat → Checked (Option U32)
  | 0, _ => throw .outOfFuel
  | fuel + 1, offset =>
      if offset < dirData.length then do
        let inodeN := word32 (← slice dirData offset (offset + 4)) 0
        let recLen := word16 (← slice dirData (offset + 4) (offset + 6)) 0
        let nameLen ← byteAt dirData (offset + 6)
        if inodeN ≠ 0 then
          let name ← slice dirData (offset + 8) (offset + 8 + nameLen.toNat)
          if (fromUtf8 name).getD "" = part then return some inodeN
        findEntry dirData part fuel (offset + recLen.toNat)
      else return none

/-- The non-empty parts of a path. -/
def pathParts (path : String) : List String :=
  ((path.toList.splitOn '/').filter (· ≠ [])).map String.ofList

/-- Look up the parts of a path one after the other. -/
def resolveParts (fuel : Nat) : List String → U32 → Checked (Option U32)
  | [], current => return some current
  | part :: rest, current => do
      let some inode ← fs.getInode current dm | return none
      if ¬ inode.isDirectory then
        return none
      let dirData ← fs.readInodeData dm inode
      let some next ← findEntry dirData part fuel 0 | return none
      resolveParts fuel rest next

/-- The inode a path leads to, part by part from the root. -/
def resolvePath (fuel : Nat) (path : String) : Checked (Option U32) :=
  fs.resolveParts dm fuel (pathParts path) ext2RootInode

end Ext2Fs

end Lofita.Fs
