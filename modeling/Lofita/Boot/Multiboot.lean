import Lofita.Interrupts.Gates
import Lofita.Paging.AddressSpace
import Lofita.Paging.KernelSpace
import Lofita.Paging.Refinement

/-! # Into long mode

The 32-bit code of `multiboot.s` from the entry of the boot loader to the far jump: it saves
what the boot loader passes, builds two page tables with two huge pages, and switches the
processor to 64-bit code. An instruction that the processor refuses leaves no state.
-/

namespace Lofita.Boot

open Lofita.Foundation Lofita.Foundation.TableTree Lofita.Paging Lofita.Interrupts

/-- The general registers the start code uses. -/
inductive Reg where
  | eax | ebx | ecx | edx | edi | esp
deriving DecidableEq, Repr

/-- The control registers it sets. -/
inductive ControlReg where
  | cr0 | cr3 | cr4
deriving DecidableEq, Repr

/-! ### Double words -/

/-- Four bytes of memory, the low one first. -/
def loadDword (memory : Nat → U8) (address : Nat) : U32 :=
  memory (address + 3) ++ memory (address + 2) ++ memory (address + 1) ++ memory address

/-- Four bytes of memory replaced. -/
def storeDword (memory : Nat → U8) (address : Nat) (value : U32) : Nat → U8 := fun place =>
  if address ≤ place ∧ place < address + 4 then value.extractLsb' (8 * (place - address)) 8
  else memory place

/-- A store leaves the other bytes alone. -/
theorem storeDword_of_outside {memory : Nat → U8} {address : Nat} {value : U32} {place : Nat}
    (outside : place < address ∨ address + 4 ≤ place) :
    storeDword memory address value place = memory place := if_neg (by omega)

/-- What was stored is loaded. -/
theorem loadDword_storeDword (memory : Nat → U8) (address : Nat) (value : U32) :
    loadDword (storeDword memory address value) address = value := by
  have byte (k : Nat) (below : k < 4) :
      storeDword memory address value (address + k) = value.extractLsb' (8 * k) 8 := by
    rw [storeDword, if_pos (by omega), Nat.add_sub_cancel_left]
  have first : storeDword memory address value address = value.extractLsb' 0 8 :=
    byte 0 (by decide)
  unfold loadDword
  rw [byte 3 (by decide), byte 2 (by decide), byte 1 (by decide), first,
    BitVec.extractLsb'_append_extractLsb'_eq_extractLsb' (by decide),
    BitVec.extractLsb'_append_extractLsb'_eq_extractLsb' (by decide),
    BitVec.extractLsb'_append_extractLsb'_eq_extractLsb' (by decide)]
  exact BitVec.extractLsb'_eq_self

/-- A store leaves other words alone. -/
theorem loadDword_storeDword_of_apart {memory : Nat → U8} {address other : Nat} {value : U32}
    (apart : other + 4 ≤ address ∨ address + 4 ≤ other) :
    loadDword (storeDword memory address value) other = loadDword memory other := by
  unfold loadDword
  rw [storeDword_of_outside (by omega), storeDword_of_outside (by omega),
    storeDword_of_outside (by omega), storeDword_of_outside (by omega)]

/-- `rep stosl`. -/
def storeDwords (value : U32) : (count : Nat) → (address : Nat) → (Nat → U8) → Nat → U8
  | 0, _, memory => memory
  | count + 1, address, memory =>
      storeDwords value count (address + 4) (storeDword memory address value)

/-- A repeated store leaves the bytes outside it alone. -/
theorem storeDwords_of_outside {value : U32} {count address : Nat} {memory : Nat → U8}
    {place : Nat} (outside : place < address ∨ address + 4 * count ≤ place) :
    storeDwords value count address memory place = memory place := by
  induction count generalizing address memory with
  | zero => rfl
  | succ count ih =>
      rw [storeDwords, ih (by omega), storeDword_of_outside (by omega)]

/-- A repeated store leaves its value in each word. -/
theorem loadDword_storeDwords {value : U32} {count address : Nat} {memory : Nat → U8} {k : Nat}
    (below : k < count) :
    loadDword (storeDwords value count address memory) (address + 4 * k) = value := by
  induction count generalizing address memory k with
  | zero => exact absurd below (Nat.not_lt_zero _)
  | succ count ih =>
      rw [storeDwords]
      cases k with
      | zero =>
          unfold loadDword
          rw [storeDwords_of_outside (by omega), storeDwords_of_outside (by omega),
            storeDwords_of_outside (by omega), storeDwords_of_outside (by omega)]
          exact loadDword_storeDword memory address value
      | succ k =>
          rw [show address + 4 * (k + 1) = address + 4 + 4 * k by omega]
          exact ih (by omega)

/-- The registers, the bytes of the memory, the descriptor table and the code segment. -/
structure BootCpu where
  reg : Reg → U32
  control : ControlReg → U32
  efer : U64
  memory : Nat → U8
  gdt : List U64
  cs : Option Segment

namespace BootCpu

variable (cpu : BootCpu)

def protectedMode : Bool := (cpu.control .cr0).getLsbD 0

def paging : Bool := (cpu.control .cr0).getLsbD 31

def pae : Bool := (cpu.control .cr4).getLsbD 5

/-- `EFER.LME` and `EFER.LMA`: long mode is asked for, and active. -/
def longEnabled : Bool := cpu.efer.getLsbD 8

def longActive : Bool := cpu.efer.getLsbD 10

def setReg (reg : Reg) (value : U32) : BootCpu :=
  { cpu with reg := Function.update cpu.reg reg value }

def setControl (control : ControlReg) (value : U32) : BootCpu :=
  { cpu with control := Function.update cpu.control control value }

/-- Writing `cr0`: paging needs protected mode and, where long mode is asked for, the address
extension; it makes long mode active. -/
def writeCr0 (value : U32) : Option BootCpu :=
  if value.getLsbD 31 then
    if ¬ value.getLsbD 0 then none
    else if cpu.longEnabled ∧ ¬ cpu.paging then
      if cpu.pae then
        some { cpu.setControl .cr0 value with efer := cpu.efer ||| BitVec.twoPow 64 10 }
      else none
    else some (cpu.setControl .cr0 value)
  else some { cpu.setControl .cr0 value with efer := cpu.efer &&& ~~~ BitVec.twoPow 64 10 }

end BootCpu

/-- The instructions of the boot code; those of one operand work on `eax`. -/
inductive Instr where
  | cli
  | cld
  | mov (target : Reg) (value : U32)
  | store (source base : Reg) (offset : U32)
  | readControl (control : ControlReg)
  | writeControl (control : ControlReg)
  | and (mask : U32)
  | or (mask : U32)
  | clear
  | repStosl
  | rdmsr
  | wrmsr
  | lgdt (table : List U64)
  | ljmp (selector : U16)

/-- One instruction. Long mode cannot be asked for under paging, and a far jump needs a present
code segment. -/
def execute (cpu : BootCpu) : Instr → Option BootCpu
  | .cli | .cld => some cpu
  | .mov target value => some (cpu.setReg target value)
  | .store source base offset =>
      let address := (cpu.reg base + offset).toNat
      some { cpu with memory := storeDword cpu.memory address (cpu.reg source) }
  | .readControl control => some (cpu.setReg .eax (cpu.control control))
  | .writeControl .cr0 => cpu.writeCr0 (cpu.reg .eax)
  | .writeControl control => some (cpu.setControl control (cpu.reg .eax))
  | .and mask => some (cpu.setReg .eax (cpu.reg .eax &&& mask))
  | .or mask => some (cpu.setReg .eax (cpu.reg .eax ||| mask))
  | .clear => some (cpu.setReg .eax 0)
  | .repStosl =>
      let count := cpu.reg .ecx
      let start := cpu.reg .edi
      let cpu := { cpu with
        memory := storeDwords (cpu.reg .eax) count.toNat start.toNat cpu.memory }
      some ((cpu.setReg .edi (start + 4 * count)).setReg .ecx 0)
  | .rdmsr =>
      if cpu.reg .ecx = 0xC0000080 then
        some ((cpu.setReg .eax (cpu.efer.extractLsb' 0 32)).setReg .edx
          (cpu.efer.extractLsb' 32 32))
      else none
  | .wrmsr =>
      let value := cpu.reg .edx ++ cpu.reg .eax
      if cpu.reg .ecx = 0xC0000080 ∧ ¬ (cpu.paging ∧ value.getLsbD 8 ≠ cpu.longEnabled) then
        some { cpu with efer := value }
      else none
  | .lgdt table => some { cpu with gdt := table }
  | .ljmp selector => do
      let segment := readSegment (← cpu.gdt[selector.toNat / 8]?)
      if segment.present ∧ segment.isCode then some { cpu with cs := some segment } else none

/-- Where the linker puts the data of the boot code: two saved words, and two tables behind
them of which the first starts a page. -/
structure Layout where
  mb2InfoPtr : U32
  mb2Magic : U32
  bootStackTop : U32
  pml4 : U32
  aligned : 4096 ∣ pml4.toNat
  low : pml4.toNat + 12288 ≤ 2 ^ 31
  infoBefore : mb2InfoPtr.toNat + 4 ≤ mb2Magic.toNat
  magicBefore : mb2Magic.toNat + 4 ≤ pml4.toNat

/-- `_pdpt` lies right behind `_pml4`. -/
def Layout.pdpt (layout : Layout) : U32 := layout.pml4 + 4096

/-- The byte is in no data of the boot code: neither in a saved word nor in `_pml4`, `_pdpt` or
`_pd`. -/
def Layout.outside (layout : Layout) (address : Nat) : Bool :=
  (address < layout.mb2InfoPtr.toNat ∨ layout.mb2InfoPtr.toNat + 4 ≤ address) ∧
    (address < layout.mb2Magic.toNat ∨ layout.mb2Magic.toNat + 4 ≤ address) ∧
    (address < layout.pml4.toNat ∨ layout.pml4.toNat + 12288 ≤ address)

/-- `_gdt64`. -/
def gdt64 : List U64 := [0, 0x00AF9A000000FFFF, 0x00CF92000000FFFF]

section Code

variable (layout : Layout)

/-- The registers that the boot loader passes, the stack, and the bits for SSE. -/
def saveAndSse : List Instr :=
  [.cli, .cld, .mov .edi layout.mb2InfoPtr, .store .ebx .edi 0, .mov .edi layout.mb2Magic,
    .store .eax .edi 0, .mov .esp layout.bootStackTop, .readControl .cr0, .and 0xFFFFFFFB,
    .or 0x00000002, .writeControl .cr0, .readControl .cr4, .or 0x00000600, .writeControl .cr4]

/-- The tables are cleared, then the two gigabytes entered. -/
def buildTables : List Instr :=
  [.mov .edi layout.pml4, .clear, .mov .ecx 3072, .repStosl, .mov .edi layout.pml4,
    .mov .eax layout.pdpt, .or 0x3, .store .eax .edi 0, .mov .edi layout.pdpt, .mov .eax 0x83,
    .store .eax .edi 0, .mov .eax 0x40000083, .store .eax .edi 8]

/-- The control registers are set, and the far jump taken. -/
def switchModes : List Instr :=
  [.mov .eax layout.pml4, .writeControl .cr3, .readControl .cr4, .or 0x20, .writeControl .cr4,
    .mov .ecx 0xC0000080, .rdmsr, .or 0x100, .wrmsr, .readControl .cr0, .or 0x80000000,
    .writeControl .cr0, .lgdt gdt64, .ljmp 0x08]

/-- `_start` up to `_start64`. -/
def startCode : List Instr := saveAndSse layout ++ buildTables layout ++ switchModes layout

end Code

/-- The instructions one after the other; nothing when one traps. -/
def run (code : List Instr) (cpu : BootCpu) : Option BootCpu := code.foldlM execute cpu

/-- The quad words that the processor reads in tables. -/
def quadWords (memory : Nat → U8) (address : Nat) : U64 :=
  loadDword memory (address + 4) ++ loadDword memory address

/-! ### The stages -/

variable (layout : Layout) {cpu : BootCpu}

/-- Code run after other code. -/
theorem run_append (first second : List Instr) (cpu : BootCpu) :
    run (first ++ second) cpu = (run first cpu).bind (run second) := List.foldlM_append

/-- Protected mode without paging, as the boot loader leaves it. -/
structure Loaded (cpu : BootCpu) : Prop where
  protectedMode : cpu.protectedMode = true
  paging : cpu.paging = false

/-- The first part saves what the boot loader passed on. -/
theorem run_saveAndSse (loaded : Loaded cpu) :
    ∃ next, run (saveAndSse layout) cpu = some next ∧ Loaded next ∧
      next.memory = storeDword (storeDword cpu.memory layout.mb2InfoPtr.toNat (cpu.reg .ebx))
        layout.mb2Magic.toNat (cpu.reg .eax) := by
  have protectedMode : (cpu.control .cr0)[0] = true := loaded.protectedMode
  have paging : (cpu.control .cr0)[31] = false := loaded.paging
  simp [run, saveAndSse, execute, BootCpu.setReg, BootCpu.setControl, BootCpu.writeCr0, paging]
  constructor
  · simp [BootCpu.protectedMode, protectedMode]
  · simp [BootCpu.paging, paging]

/-- The second part writes the page tables and nothing else. -/
theorem run_buildTables (loaded : Loaded cpu) :
    ∃ next, run (buildTables layout) cpu = some next ∧ Loaded next ∧
      next.memory = storeDword (storeDword (storeDword
        (storeDwords 0 3072 layout.pml4.toNat cpu.memory) layout.pml4.toNat (layout.pdpt ||| 3))
          layout.pdpt.toNat 0x83) (layout.pdpt + 8).toNat 0x40000083 := by
  simp [run, buildTables, execute, BootCpu.setReg]
  exact ⟨loaded.protectedMode, loaded.paging⟩

/-- The last part turns paging and long mode on. -/
theorem run_switchModes (loaded : Loaded cpu) :
    ∃ next, run (switchModes layout) cpu = some next ∧ next.paging = true ∧
      next.longActive = true ∧ next.control .cr3 = layout.pml4 ∧ next.memory = cpu.memory ∧
      next.cs = some (readSegment 0x00AF9A000000FFFF) := by
  have protectedMode : (cpu.control .cr0)[0] = true := loaded.protectedMode
  have paging : (cpu.control .cr0)[31] = false := loaded.paging
  have asked (upper lower : U32) : (upper ++ (lower ||| 256#32))[8] = true := by
    rw [BitVec.getElem_append, dif_pos (by decide), BitVec.getElem_or]
    exact Bool.or_true _
  have descriptor : gdt64[1]? = some 0x00AF9A000000FFFF := rfl
  have code : (readSegment 0x00AF9A000000FFFF#64).present = true ∧
      (readSegment 0x00AF9A000000FFFF#64).isCode = true := by decide
  simp [run, switchModes, execute, BootCpu.setReg, BootCpu.setControl, BootCpu.writeCr0,
    BootCpu.paging, BootCpu.longEnabled, BootCpu.longActive, BootCpu.pae, paging, protectedMode,
    asked, descriptor, code]

/-! ### The tables -/

/-- The second table is a page above the first. -/
theorem toNat_pdpt : layout.pdpt.toNat = layout.pml4.toNat + 4096 := by
  have low := layout.low
  rw [Layout.pdpt, BitVec.toNat_add]
  exact Nat.mod_eq_of_lt (by change layout.pml4.toNat + 4096 < 2 ^ 32; omega)

/-- Its second entry, as an address. -/
theorem toNat_pdpt_add_eight : (layout.pdpt + 8).toNat = layout.pml4.toNat + 4104 := by
  have low := layout.low
  rw [BitVec.toNat_add, toNat_pdpt]
  exact Nat.mod_eq_of_lt (by change layout.pml4.toNat + 4096 + 8 < 2 ^ 32; omega)

/-- The memory after `buildTables`. -/
def builtMemory (memory : Nat → U8) : Nat → U8 :=
  storeDword (storeDword (storeDword (storeDwords 0 3072 layout.pml4.toNat memory)
    layout.pml4.toNat (layout.pdpt ||| 3)) layout.pdpt.toNat 0x83)
    (layout.pdpt + 8).toNat 0x40000083

/-- The double words of the tables. -/
theorem loadDword_builtMemory (memory : Nat → U8) {k : Nat} (inside : k < 3072) :
    loadDword (builtMemory layout memory) (layout.pml4.toNat + 4 * k) =
      if k = 1026 then 0x40000083 else if k = 1024 then 0x83
      else if k = 0 then layout.pdpt ||| 3 else 0 := by
  rw [builtMemory, toNat_pdpt_add_eight, toNat_pdpt]
  split_ifs with last middle first
  · subst last
    exact loadDword_storeDword _ _ _
  · subst middle
    rw [loadDword_storeDword_of_apart (by omega)]
    exact loadDword_storeDword _ _ _
  · subst first
    rw [loadDword_storeDword_of_apart (by omega), loadDword_storeDword_of_apart (by omega)]
    exact loadDword_storeDword _ _ _
  · rw [loadDword_storeDword_of_apart (by omega), loadDword_storeDword_of_apart (by omega),
      loadDword_storeDword_of_apart (by omega), loadDword_storeDwords inside]

/-- A word with zeros above it. -/
theorem zero_append (word : U32) : (0 : U32) ++ word = word.setWidth 64 := by
  apply BitVec.eq_of_toNat_eq
  rw [BitVec.toNat_append, BitVec.toNat_setWidth_of_le (by decide)]
  exact Nat.zero_or _

/-- The tables built are those of the identity map. -/
theorem identityTables_builtMemory (memory : Nat → U8) :
    IdentityTables (quadWords (builtMemory layout memory)) layout.pml4.toNat
      layout.pdpt.toNat := by
  have quad {k : Nat} (inside : 2 * k + 1 < 3072) :
      quadWords (builtMemory layout memory) (layout.pml4.toNat + 8 * k) =
        (if 2 * k + 1 = 1026 then 0x40000083 else if 2 * k + 1 = 1024 then 0x83
          else if 2 * k + 1 = 0 then layout.pdpt ||| 3 else 0 : U32) ++
        (if 2 * k = 1026 then 0x40000083 else if 2 * k = 1024 then 0x83
          else if 2 * k = 0 then layout.pdpt ||| 3 else 0 : U32) := by
    rw [← loadDword_builtMemory layout memory inside,
      ← loadDword_builtMemory layout memory (by omega)]
    unfold quadWords
    congr 2 <;> omega
  constructor
  · intro index below
    rw [slot, quad (by omega), if_neg (by omega), if_neg (by omega), if_neg (by omega),
      if_neg (by omega), if_neg (by omega)]
    by_cases first : index = 0
    · rw [if_pos (by omega), if_pos first, zero_append, BitVec.setWidth_or, BitVec.or_assoc,
        BitVec.ofNat_toNat]
      rfl
    · rw [if_neg (by omega), if_neg first]
      rfl
  · intro index below
    have place : slot layout.pdpt.toNat index = layout.pml4.toNat + 8 * (512 + index) := by
      rw [slot, toNat_pdpt]
      omega
    rw [place, quad (by omega), if_neg (by omega), if_neg (by omega), if_neg (by omega)]
    unfold identityEntry
    by_cases second : index = 1
    · rw [if_pos (by omega), if_neg (by omega), if_pos second]
      decide
    · rw [if_neg (by omega)]
      by_cases first : index = 0
      · rw [if_pos (by omega), if_pos first]
        decide
      · rw [if_neg (by omega), if_neg (by omega), if_neg first, if_neg second]
        rfl

/-- Building the tables changes their three pages only. -/
theorem builtMemory_outside (memory : Nat → U8) {address : Nat}
    (outside : address < layout.pml4.toNat ∨ layout.pml4.toNat + 12288 ≤ address) :
    builtMemory layout memory address = memory address := by
  rw [builtMemory, toNat_pdpt_add_eight, toNat_pdpt, storeDword_of_outside (by omega),
    storeDword_of_outside (by omega), storeDword_of_outside (by omega),
    storeDwords_of_outside (by omega)]

/-- Words below the tables are kept. -/
theorem loadDword_builtMemory_before (memory : Nat → U8) {address : Nat}
    (before : address + 4 ≤ layout.pml4.toNat) :
    loadDword (builtMemory layout memory) address = loadDword memory address := by
  unfold loadDword
  rw [builtMemory_outside _ _ (.inl (by omega)), builtMemory_outside _ _ (.inl (by omega)),
    builtMemory_outside _ _ (.inl (by omega)), builtMemory_outside _ _ (.inl (by omega))]

/-! ### The first two gigabytes -/

/-- Every address below 2 GB is itself, for reading, writing and execution by the kernel. -/
def identityMap (vaddr : U64) : Option Access :=
  if vaddr.toNat % 2 ^ 48 < 2 ^ 31 then
    some { phys := vaddr.toNat % 2 ^ 48, writable := true, user := false, noExecute := false }
  else none

section Walk

variable {word : Nat → U64} {pml4 pdpt : Nat} (tables : IdentityTables word pml4 pdpt)
  (aligned : 4096 ∣ pdpt) (small : pdpt < 2 ^ 52)

include aligned small in
/-- Both entries let the kernel write, and neither lets a user in. -/
theorem access_rights {index : Nat} (below : index < 2) (phys : Nat) :
    Translation.access ⟨phys, [BitVec.ofNat 64 pdpt ||| pfPresent ||| pfWritable,
      identityEntry index]⟩ = ⟨phys, true, false, false⟩ := by
  have flag (bit : U64) (outside : physAddrMask &&& bit = 0#64) :
      (BitVec.ofNat 64 pdpt ||| pfPresent ||| pfWritable) &&& bit =
        (pfPresent ||| pfWritable) &&& bit := by
    rw [BitVec.or_assoc]
    exact ofNat_or_and aligned small outside _
  simp only [Translation.access, Translation.writable, Translation.user, Translation.executable,
    List.all_cons, List.all_nil, Paging.writable, Paging.user, Paging.executable,
    flag pfWritable (by decide), flag pfUser (by decide), flag pfNoExecute (by decide)]
  interval_cases index <;> rfl

include tables aligned small in
/-- The walk through the tables is the identity map. -/
theorem access_walk (vaddr : U64) :
    (walk word pml4 vaddr).map Translation.access = identityMap vaddr := by
  have pml4Index : (vaSplit vaddr).pml4 = vaddr.toNat / 2 ^ 39 % 512 :=
    toNat_shiftRight_and vaddr 39
  have pdptIndex : (vaSplit vaddr).pdpt = vaddr.toNat / 2 ^ 30 % 512 :=
    toNat_shiftRight_and vaddr 30
  have root := tables.root (vaSplit vaddr).pml4 (by omega)
  have second := tables.second (vaSplit vaddr).pdpt (by omega)
  unfold walk identityMap
  simp only [root]
  by_cases first : (vaSplit vaddr).pml4 = 0
  · have found : child (BitVec.ofNat 64 pdpt ||| pfPresent ||| pfWritable) = some pdpt := by
      rw [BitVec.or_assoc]
      exact child_ofNat_or aligned small (by decide) (by decide) (by decide)
    simp only [if_pos first, found, Option.bind_eq_bind, Option.bind_some, second]
    by_cases below : (vaSplit vaddr).pdpt < 2
    · have leaf := present_identityEntry below
      have inside : vaddr.toNat % 2 ^ 48 < 2 ^ 31 := by omega
      have phys : (vaSplit vaddr).pdpt * 2 ^ 30 / 2 ^ 30 * 2 ^ 30 + vaddr.toNat % 2 ^ 30 =
          vaddr.toNat % 2 ^ 48 := by omega
      rw [leaf.1, leaf.2, address_identityEntry below, phys, if_pos inside]
      exact congrArg some (access_rights aligned small below _)
    · have missing : identityEntry (vaSplit vaddr).pdpt = 0 := by
        rw [identityEntry, if_neg (by omega), if_neg (by omega)]
      have outside : ¬ vaddr.toNat % 2 ^ 48 < 2 ^ 31 := by omega
      rw [missing, if_neg outside]
      rfl
  · have outside : ¬ vaddr.toNat % 2 ^ 48 < 2 ^ 31 := by omega
    rw [if_neg first, if_neg outside]
    rfl

end Walk

/-- The processor runs 64-bit code of the kernel under the tables of the layout, which map the
first two gigabytes to themselves and nothing else. -/
structure Started (layout : Layout) (cpu : BootCpu) : Prop where
  paging : cpu.paging = true
  longActive : cpu.longActive = true
  code : ∃ segment, cpu.cs = some segment ∧ segment.long = true ∧ segment.dpl = 0
  root : cpu.control .cr3 = layout.pml4
  tables : IdentityTables (quadWords cpu.memory) layout.pml4.toNat layout.pdpt.toNat
  translates : ∀ vaddr,
    (walk (quadWords cpu.memory) (cpu.control .cr3).toNat vaddr).map Translation.access =
      identityMap vaddr

/-- The second table lies on a page boundary that an entry can name. -/
theorem pdpt_page : 4096 ∣ layout.pdpt.toNat ∧ layout.pdpt.toNat < 2 ^ 52 := by
  have aligned := layout.aligned
  have low := layout.low
  rw [toNat_pdpt]
  exact ⟨by omega, by omega⟩

/-- The words that the boot loader passes, saved. -/
def savedMemory (cpu : BootCpu) : Nat → U8 :=
  storeDword (storeDword cpu.memory layout.mb2InfoPtr.toNat (cpu.reg .ebx)) layout.mb2Magic.toNat
    (cpu.reg .eax)

/-- The whole start code, from the state the boot loader leaves. -/
theorem run_startCode (loaded : Loaded cpu) :
    ∃ next, run (startCode layout) cpu = some next ∧ Started layout next ∧
      next.memory = builtMemory layout (savedMemory layout cpu) := by
  obtain ⟨saved, savedRun, savedLoaded, savedWords⟩ := run_saveAndSse layout loaded
  obtain ⟨built, builtRun, builtLoaded, builtWords⟩ := run_buildTables layout savedLoaded
  obtain ⟨next, nextRun, paging, longActive, root, unchanged, code⟩ :=
    run_switchModes layout builtLoaded
  have whole : next.memory = builtMemory layout saved.memory := unchanged.trans builtWords
  have tables : IdentityTables (quadWords next.memory) layout.pml4.toNat layout.pdpt.toNat :=
    whole ▸ identityTables_builtMemory layout saved.memory
  obtain ⟨aligned, small⟩ := pdpt_page layout
  refine ⟨next, ?_, ?_, whole.trans (congrArg (builtMemory layout) savedWords)⟩
  · rw [startCode, run_append, run_append, savedRun, Option.bind_some, builtRun,
      Option.bind_some, nextRun]
  · exact ⟨paging, longActive, ⟨_, code, by decide, by decide⟩, root, tables,
      fun vaddr => root ▸ access_walk tables aligned small vaddr⟩

/-- **Into long mode.** From protected mode without paging, whatever the registers and the
memory hold, the boot code is refused at no instruction. It ends in 64-bit code with the first
two gigabytes mapped to themselves; what the boot loader passed in `eax` and `ebx` is saved, and
no other byte outside the tables has changed. -/
theorem start_enters_long_mode (loaded : Loaded cpu) :
    ∃ next, run (startCode layout) cpu = some next ∧ Started layout next ∧
      loadDword next.memory layout.mb2InfoPtr.toNat = cpu.reg .ebx ∧
      loadDword next.memory layout.mb2Magic.toNat = cpu.reg .eax ∧
      ∀ address, layout.outside address = true → next.memory address = cpu.memory address := by
  obtain ⟨next, nextRun, started, whole⟩ := run_startCode layout loaded
  have before := layout.infoBefore
  have behind := layout.magicBefore
  refine ⟨next, nextRun, started, ?_, ?_, ?_⟩
  · rw [whole, loadDword_builtMemory_before layout _ (by omega), savedMemory,
      loadDword_storeDword_of_apart (by omega), loadDword_storeDword]
  · rw [whole, loadDword_builtMemory_before layout _ behind, savedMemory, loadDword_storeDword]
  · intro address outside
    obtain ⟨notInfo, notMagic, notTables⟩ := of_decide_eq_true outside
    rw [whole, builtMemory_outside layout _ notTables, savedMemory,
      storeDword_of_outside notMagic, storeDword_of_outside notInfo]

/-- The layout of a kernel at 1 MB, and the processor as the boot loader leaves it. -/
def sampleLayout : Layout where
  mb2InfoPtr := 0x13FF1E
  mb2Magic := 0x13FF22
  bootStackTop := 0x14B000
  pml4 := 0x140000
  aligned := by decide
  low := by decide
  infoBefore := by decide
  magicBefore := by decide

/-- The registers as a boot loader leaves them. -/
def sampleBootCpu : BootCpu where
  reg := fun _ => 0x36D76289
  control := fun control => if control = .cr0 then 0x11 else 0
  efer := 0
  memory := fun _ => 0xFF
  gdt := []
  cs := none

theorem start_enters_long_mode_sample :
    ∃ next, run (startCode sampleLayout) sampleBootCpu = some next ∧
      Started sampleLayout next ∧ loadDword next.memory 0x13FF1E = 0x36D76289 ∧
      loadDword next.memory 0x13FF22 = 0x36D76289 ∧
      ∀ address, sampleLayout.outside address = true →
        next.memory address = sampleBootCpu.memory address :=
  start_enters_long_mode sampleLayout ⟨by decide, by decide⟩

/-- `paging_global_init` writes in its own tables only. -/
theorem identityMemory_of_apart {memory : PhysMemory} {pml4 pdpt table index : Nat}
    (firstAligned : tableSize ∣ pml4) (secondAligned : tableSize ∣ pdpt)
    (tableAligned : tableSize ∣ table) (notFirst : pml4 ≠ table) (notSecond : pdpt ≠ table)
    (below : index < 512) :
    (identityMemory memory pml4 pdpt).word (slot table index) =
      memory.word (slot table index) := by
  have offFirst : ¬ OnTable pml4 (slot table index) := fun inside =>
    notFirst (eq_of_onTable firstAligned tableAligned inside (onTable_slot below))
  have offSecond : ¬ OnTable pdpt (slot table index) := fun inside =>
    notSecond (eq_of_onTable secondAligned tableAligned inside (onTable_slot below))
  have apart {other entry : Nat} (small : entry < 512) (off : ¬ OnTable other (slot table index)) :
      slot table index ≠ slot other entry := fun same => off (same ▸ onTable_slot small)
  simp only [identityMemory, PhysMemory.store, PhysMemory.clear]
  rw [Function.update_of_ne (apart (by decide) offFirst),
    Function.update_of_ne (apart (by decide) offSecond),
    Function.update_of_ne (apart (by decide) offSecond), cleared_of_not_onTable offSecond,
    cleared_of_not_onTable offFirst]

/-- **No gap between the tables.** Where the kernel has kept the tables of the boot code up to
`paging_global_init` and they are no pages of the allocator, the tables that it builds translate
every address as those of the boot code still do, so that the switch of `cr3` changes the
translation of no address. -/
theorem switch_changes_nothing {alloc : Allocator} (fresh : FreshPages alloc) {cpu next : BootCpu}
    (loaded : Loaded cpu) (ran : run (startCode layout) cpu = some next) {memory : PhysMemory}
    {paging : PagingState}
    (kept : ∀ index < 512,
      memory.word (slot layout.pml4.toNat index) =
          quadWords next.memory (slot layout.pml4.toNat index) ∧
        memory.word (slot layout.pdpt.toNat index) =
          quadWords next.memory (slot layout.pdpt.toNat index))
    (apart : ∀ request page, alloc request = some page →
      page ≠ layout.pml4.toNat ∧ page ≠ layout.pdpt.toNat)
    (booted : pagingGlobalInit alloc ⟨memory, none, false⟩ = some paging) :
    ∃ context, paging.kernelPaging = some context ∧ ∀ vaddr,
      translate paging.memory context vaddr = identityMap vaddr ∧
      translate paging.memory ⟨(next.control .cr3).toNat⟩ vaddr = identityMap vaddr := by
  obtain ⟨reached, reachedRun, started, _⟩ := run_startCode layout loaded
  obtain rfl : reached = next := Option.some.inj (reachedRun.symm.trans ran)
  obtain ⟨pml4, pdpt, first, second, rfl⟩ := pagingGlobalInit_eq_some booted
  obtain ⟨aligned, small⟩ := pdpt_page layout
  refine ⟨⟨pml4⟩, rfl, fun vaddr => ⟨?_, ?_⟩⟩
  · exact access_walk (fresh.identityTables first second) (fresh.aligned second)
      (fresh.small second) vaddr
  · obtain ⟨notFirst, notFirstSecond⟩ := apart _ _ first
    obtain ⟨notSecond, notSecondSecond⟩ := apart _ _ second
    have firstAligned := fresh.aligned first
    have secondAligned := fresh.aligned second
    rw [started.root]
    refine access_walk ⟨?_, ?_⟩ aligned small vaddr
    · intro index below
      rw [identityMemory_of_apart firstAligned secondAligned layout.aligned notFirst notSecond
        below, (kept index below).1]
      exact started.tables.root index below
    · intro index below
      rw [identityMemory_of_apart firstAligned secondAligned aligned notFirstSecond
        notSecondSecond below, (kept index below).2]
      exact started.tables.second index below

/-- The processor behind the boot code, and a memory with its tables. -/
def sampleStarted : BootCpu :=
  (run (startCode sampleLayout) sampleBootCpu).getD sampleBootCpu

def sampleWords : PhysMemory := ⟨quadWords sampleStarted.memory, [], 0⟩

theorem switch_changes_nothing_sample :
    ∃ paging context,
      pagingGlobalInit sampleAllocator ⟨sampleWords, none, false⟩ = some paging ∧
      paging.kernelPaging = some context ∧ ∀ vaddr,
        translate paging.memory context vaddr = identityMap vaddr ∧
        translate paging.memory ⟨(sampleStarted.control .cr3).toNat⟩ vaddr =
          identityMap vaddr := by
  have loaded : Loaded sampleBootCpu := ⟨by decide, by decide⟩
  have ran : run (startCode sampleLayout) sampleBootCpu = some sampleStarted := by
    obtain ⟨next, nextRun, _⟩ := run_startCode sampleLayout loaded
    rw [sampleStarted, nextRun, Option.getD_some]
  have apart : ∀ request page, sampleAllocator request = some page →
      page ≠ sampleLayout.pml4.toNat ∧ page ≠ sampleLayout.pdpt.toNat := by
    intro request page answer
    have first : sampleLayout.pml4.toNat = 0x140000 := by decide
    have second : sampleLayout.pdpt.toNat = 0x141000 := by decide
    unfold sampleAllocator at answer
    split_ifs at answer
    cases answer
    omega
  obtain ⟨paging, booted⟩ : ∃ paging,
      pagingGlobalInit sampleAllocator ⟨sampleWords, none, false⟩ = some paging := ⟨_, rfl⟩
  obtain ⟨context, named, translates⟩ := switch_changes_nothing sampleLayout
    freshPages_sampleAllocator loaded ran (fun _ _ => ⟨rfl, rfl⟩) apart booted
  exact ⟨paging, context, booted, named, translates⟩

end Lofita.Boot
