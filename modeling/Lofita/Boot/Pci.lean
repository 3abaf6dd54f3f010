import Lofita.Vga.Numbers

/-! # The functions on the PCI bus

`pci_init` of `pci.zig` walks all buses, slots and functions and prints a line for each
function that it finds, read through the address port and the data port of the host bridge.
It skips a slot whose function 0 is missing and looks at the other functions only where the
header type of function 0 says that there are several. What it prints is the list of the
functions that are so present, each once and in order (`pci_lists_functions`).
-/

namespace Lofita.Boot

open Lofita.Foundation Lofita.Vga

/-- The port of the address latch. -/
def configAddress : U16 := 0xCF8

/-- The port of the selected register. -/
def configData : U16 := 0xCFC

/-- The configuration registers by bus, slot, function and double word. -/
abbrev ConfigSpace := U8 → BitVec 5 → BitVec 3 → BitVec 6 → U32

/-- The host bridge: the configuration registers, and the one behind the address port. -/
structure Bridge where
  space : ConfigSpace
  latch : U32

namespace Bridge

/-- A write to the latch selects a register; any other write is outside this model. -/
def outl (port : U16) (value : U32) (bridge : Bridge) : Bridge :=
  if port = configAddress then { bridge with latch := value } else bridge

/-- The data port reads the register that the address port selects. -/
def inl (port : U16) (bridge : Bridge) : U32 :=
  if port = configData ∧ bridge.latch.getLsbD 31 then
    bridge.space (bridge.latch.extractLsb' 16 8) (bridge.latch.extractLsb' 11 5)
      (bridge.latch.extractLsb' 8 3) (bridge.latch.extractLsb' 2 6)
  else 0xFFFFFFFF

end Bridge

/-- The bridge and the screen. -/
structure PciMachine where
  bridge : Bridge
  vga : VgaState

/-- A run of the enumeration, which stops when the display does not answer. -/
abbrev Pci := StateT PciMachine Option

/-! ### The driver -/

/-- The driver writes to a port of the bridge. -/
def outl (port : U16) (value : U32) : Pci Unit :=
  modify fun machine => { machine with bridge := machine.bridge.outl port value }

/-- The driver reads a port of the bridge. -/
def inl (port : U16) : Pci U32 := do return (← get).bridge.inl port

/-- A call of the screen driver. -/
def display (call : VgaState → Option VgaState) : Pci Unit := fun machine => do
  let vga ← call machine.vga
  return ((), { machine with vga })

/-- The register is selected through the latch, then read. -/
def pciConfigReadDword (bus slot func offset : U8) : Pci U32 := do
  let lbus : U32 := bus.setWidth 32
  let lslot : U32 := slot.setWidth 32
  let lfunc : U32 := func.setWidth 32
  let address : U32 := (lbus <<< 16) ||| (lslot <<< 11) ||| (lfunc <<< 8) |||
    (offset &&& 0xFC).setWidth 32 ||| 0x80000000
  outl configAddress address
  inl configData

/-- Half of a register, chosen by bit 1 of the offset. -/
def pciConfigReadWord (bus slot func offset : U8) : Pci U16 := do
  let dword ← pciConfigReadDword bus slot func offset
  return (dword >>> ((offset &&& 2) * 8).toNat).setWidth 16

/-- The lower half of register 0. -/
def getVendorId (bus slot func : U8) : Pci U16 := pciConfigReadWord bus slot func 0

/-- The upper half of register 0, which the source reads at offset 2. -/
def getDeviceId (bus slot func : U8) : Pci U16 := pciConfigReadWord bus slot func 2

/-- The highest byte of register 2. -/
def getClassId (bus slot func : U8) : Pci U8 := do
  let r ← pciConfigReadWord bus slot func 0x0A
  return (r >>> 8).setWidth 8

def getSubclassId (bus slot func : U8) : Pci U8 := do
  let r ← pciConfigReadWord bus slot func 0x0A
  return (r &&& 0xFF).setWidth 8

/-- The third byte of register 3. -/
def getHeaderType (bus slot func : U8) : Pci U8 := do
  let r ← pciConfigReadWord bus slot func 0x0E
  return (r &&& 0xFF).setWidth 8

/-- The line that `check_function` prints; the buffer is that of `print_dec`. -/
def printFunction (undefined : Vector U8 20) (bus slot func : U8) (vendorId deviceId : U16)
    (classId subclassId : U8) (vga : VgaState) : Option VgaState := do
  let vga ← printDec undefined (bus.setWidth 64) (print (text "  * Bus ") vga)
  let vga ← printDec undefined (slot.setWidth 64) (print (text ", Slot ") vga)
  let vga ← printDec undefined (func.setWidth 64) (print (text ", Func ") vga)
  let vga ← printHex (vendorId.setWidth 64) (print (text " | Vendor: ") vga)
  let vga ← printHex (deviceId.setWidth 64) (print (text ", Device: ") vga)
  let vga ← printHex (classId.setWidth 64) (print (text ", Class: ") vga)
  let vga ← printHex (subclassId.setWidth 64) (print (text ":") vga)
  return print (text "\n") vga

section Walk

variable (undefined : Vector U8 20)

/-- A line for the function, unless no vendor answers. -/
def checkFunction (bus slot func : U8) : Pci Unit := do
  let vendorId ← getVendorId bus slot func
  if vendorId = 0xFFFF then return
  let deviceId ← getDeviceId bus slot func
  let classId ← getClassId bus slot func
  let subclassId ← getSubclassId bus slot func
  display (printFunction undefined bus slot func vendorId deviceId classId subclassId)

/-- A loop that counts an index up. -/
def counting (body : Nat → Pci Unit) : (remaining index : Nat) → Pci Unit
  | 0, _ => return
  | remaining + 1, index => do
      body index
      counting body remaining (index + 1)

/-- Function 0, and the other seven when its header says that there are more. -/
def checkDevice (bus slot : U8) : Pci Unit := do
  let vendorId ← getVendorId bus slot 0
  if vendorId = 0xFFFF then return
  checkFunction undefined bus slot 0
  let headerType ← getHeaderType bus slot 0
  if headerType &&& 0x80 ≠ 0 then
    counting (fun func => checkFunction undefined bus slot (BitVec.ofNat 8 func)) 7 1

/-- All buses and slots, between two lines of text. -/
def pciInit : Pci Unit := do
  display fun vga => some (print (text "[PCI] Enumerating PCI Bus...\n") vga)
  counting (fun bus =>
    counting (fun slot => checkDevice undefined (BitVec.ofNat 8 bus) (BitVec.ofNat 8 slot)) 32 0)
    256 0
  display fun vga => some (print (text "[PCI] Enumeration complete.\n") vga)

end Walk

/-! ### The purpose -/

/-- A place on the bus. -/
structure Place where
  bus : U8
  slot : U8
  func : U8
deriving DecidableEq, Repr

/-- The places of a slot and of all slots, in order. -/
def slotPlaces (bus slot : Nat) : List Place :=
  (List.range 8).map fun func => ⟨BitVec.ofNat 8 bus, BitVec.ofNat 8 slot, BitVec.ofNat 8 func⟩

/-- All places of the configuration space, bus by bus. -/
def places : List Place :=
  (List.range 256).flatMap fun bus => (List.range 32).flatMap fun slot => slotPlaces bus slot

namespace ConfigSpace

variable (space : ConfigSpace)

/-- A double word of the function at a place. -/
def dword (place : Place) (index : BitVec 6) : U32 :=
  space place.bus (place.slot.setWidth 5) (place.func.setWidth 3) index

/-- There is a function at a place. -/
def Present (place : Place) : Prop := (space.dword place 0).extractLsb' 0 16 ≠ 0xFFFF

/-- A function is found if function 0 of its slot is present and, unless it is function 0
itself, says that there are more. -/
def Found (place : Place) : Prop :=
  space.Present { place with func := 0 } ∧ space.Present place ∧
    (place.func ≠ 0 → (space.dword { place with func := 0 } 3).getLsbD 23 = true)

instance decidablePresent (place : Place) : Decidable (space.Present place) :=
  inferInstanceAs (Decidable (_ ≠ _))

instance decidableFound (place : Place) : Decidable (space.Found place) :=
  inferInstanceAs (Decidable (_ ∧ _ ∧ (_ → _)))

/-- The line for the function at a place. -/
def line (undefined : Vector U8 20) (vga : VgaState) (place : Place) : Option VgaState :=
  printFunction undefined place.bus place.slot place.func
    ((space.dword place 0).extractLsb' 0 16) ((space.dword place 0).extractLsb' 16 16)
    ((space.dword place 2).extractLsb' 24 8) ((space.dword place 2).extractLsb' 16 8) vga

end ConfigSpace

/-! ### Reading configuration registers -/

/-- A step that gives a value and leaves registers and screen alone. -/
def Gives {α : Type} (space : ConfigSpace) (action : Pci α) (value : α) : Prop :=
  ∀ latch vga, ∃ latch', action ⟨⟨space, latch⟩, vga⟩ = some (value, ⟨⟨space, latch'⟩, vga⟩)

/-- A step that does to the screen what a call of its driver does. -/
def Shows (space : ConfigSpace) (action : Pci Unit) (call : VgaState → Option VgaState) : Prop :=
  ∀ latch vga, ∃ latch',
    action ⟨⟨space, latch⟩, vga⟩ = (call vga).map fun vga => ((), ⟨⟨space, latch'⟩, vga⟩)

section Rules

variable {space : ConfigSpace} {α β : Type} {action : Pci α} {value : α}
  {call later : VgaState → Option VgaState}

theorem Gives.pure (value : α) : Gives space (Pure.pure value) value :=
  fun latch _ => ⟨latch, rfl⟩

/-- Two reads in a row. -/
theorem Gives.bind {next : α → Pci β} {result : β} (first : Gives space action value)
    (second : Gives space (next value) result) : Gives space (action >>= next) result := by
  intro latch vga
  obtain ⟨between, ran⟩ := first latch vga
  obtain ⟨latch', rest⟩ := second between vga
  refine ⟨latch', ?_⟩
  change ((action _).bind fun out => next out.1 out.2) = _
  rw [ran]
  exact rest

/-- A read, and what is shown by it. -/
theorem Gives.bind_shows {next : α → Pci Unit} (first : Gives space action value)
    (second : Shows space (next value) call) : Shows space (action >>= next) call := by
  intro latch vga
  obtain ⟨between, ran⟩ := first latch vga
  obtain ⟨latch', rest⟩ := second between vga
  refine ⟨latch', ?_⟩
  change ((action _).bind fun out => next out.1 out.2) = _
  rw [ran]
  exact rest

theorem Shows.nothing : Shows space (Pure.pure ()) some := fun latch _ => ⟨latch, rfl⟩

/-- A call of the display shows what it shows. -/
theorem Shows.display (call : VgaState → Option VgaState) : Shows space (display call) call := by
  intro latch vga
  refine ⟨latch, ?_⟩
  change ((call vga).bind fun vga => some ((), _)) = _
  rw [Option.map_eq_bind]
  rfl

/-- Two outputs in a row. -/
theorem Shows.bind {first : Pci Unit} {second : Unit → Pci Unit} (shows : Shows space first call)
    (rest : Shows space (second ()) later) :
    Shows space (first >>= second) fun vga => (call vga).bind later := by
  intro latch vga
  obtain ⟨between, ran⟩ := shows latch vga
  change ∃ latch', ((first _).bind fun out => second out.1 out.2) =
    ((call vga).bind later).map fun vga => ((), _)
  rw [ran]
  cases call vga with
  | none => exact ⟨latch, rfl⟩
  | some screen =>
      obtain ⟨latch', done⟩ := rest between screen
      exact ⟨latch', done⟩

/-- A loop shows what its rounds show, one after the other. -/
theorem Shows.counting {body : Nat → Pci Unit} {round : VgaState → Nat → Option VgaState}
    {remaining index : Nat}
    (rounds : ∀ i ∈ List.range' index remaining, Shows space (body i) fun vga => round vga i) :
    Shows space (counting body remaining index)
      fun vga => (List.range' index remaining).foldlM round vga := by
  induction remaining generalizing index with
  | zero => exact Shows.nothing
  | succ remaining ih =>
      rw [List.range'_succ] at rounds ⊢
      have first := rounds index List.mem_cons_self
      have rest := ih fun i member => rounds i (List.mem_cons_of_mem index member)
      exact first.bind rest

end Rules

/-- The word that `pci_config_read_dword` writes to the address port. -/
def addressOf (bus slot func offset : U8) : U32 :=
  (bus.setWidth 32 <<< 16) ||| (slot.setWidth 32 <<< 11) ||| (func.setWidth 32 <<< 8) |||
    (offset &&& 0xFC).setWidth 32 ||| 0x80000000

/-- The bits of the selected address, field by field. -/
theorem getLsbD_addressOf (bus slot func offset : U8) {i : Nat} (below : i < 32) :
    (addressOf bus slot func offset).getLsbD i =
      (!decide (i < 16) && bus.getLsbD (i - 16) || !decide (i < 11) && slot.getLsbD (i - 11) ||
        !decide (i < 8) && func.getLsbD (i - 8) || offset.getLsbD i && decide (2 ≤ i ∧ i < 8) ||
        decide (31 = i)) := by
  have enable : (0x80000000 : U32) = BitVec.twoPow 32 31 := rfl
  have mask : (0xFC : U8).getLsbD i = decide (2 ≤ i ∧ i < 8) := by
    revert i
    decide
  have less (count : Nat) : i - count < 32 := Nat.lt_of_le_of_lt (Nat.sub_le i count) below
  simp only [addressOf, enable, BitVec.getLsbD_or, BitVec.getLsbD_shiftLeft,
    BitVec.getLsbD_setWidth, BitVec.getLsbD_and, BitVec.getLsbD_twoPow, mask, below, less,
    decide_true, Bool.true_and, Nat.reduceLT]

/-- A small number has no high bits. -/
theorem getLsbD_of_toNat_lt {width bits : Nat} {word : BitVec width} (below : word.toNat < 2 ^ bits)
    {i : Nat} (above : bits ≤ i) : word.getLsbD i = false :=
  Nat.testBit_lt_two_pow (Nat.lt_of_lt_of_le below (Nat.pow_le_pow_right (by decide) above))

/-- The address selects a register of the place. -/
theorem selected (bus offset : U8) {slot func : U8} (slotBelow : slot < 32) (funcBelow : func < 8) :
    (addressOf bus slot func offset).getLsbD 31 = true ∧
      (addressOf bus slot func offset).extractLsb' 16 8 = bus ∧
      (addressOf bus slot func offset).extractLsb' 11 5 = slot.setWidth 5 ∧
      (addressOf bus slot func offset).extractLsb' 8 3 = func.setWidth 3 ∧
      (addressOf bus slot func offset).extractLsb' 2 6 = offset.extractLsb' 2 6 := by
  have slotBits {i : Nat} (above : 5 ≤ i) : slot.getLsbD i = false :=
    getLsbD_of_toNat_lt (show slot.toNat < 2 ^ 5 from slotBelow) above
  have funcBits {i : Nat} (above : 3 ≤ i) : func.getLsbD i = false :=
    getLsbD_of_toNat_lt (show func.toNat < 2 ^ 3 from funcBelow) above
  refine ⟨?_, ?_, ?_, ?_, ?_⟩
  · rw [getLsbD_addressOf _ _ _ _ (by decide)]
    exact Bool.or_true _
  · refine BitVec.eq_of_getLsbD_eq fun i below => ?_
    rw [BitVec.getLsbD_extractLsb', getLsbD_addressOf _ _ _ _ (by omega),
      slotBits (by omega), funcBits (by omega)]
    grind
  · refine BitVec.eq_of_getLsbD_eq fun i below => ?_
    rw [BitVec.getLsbD_extractLsb', getLsbD_addressOf _ _ _ _ (by omega),
      funcBits (by omega)]
    grind
  · refine BitVec.eq_of_getLsbD_eq fun i below => ?_
    rw [BitVec.getLsbD_extractLsb', getLsbD_addressOf _ _ _ _ (by omega)]
    grind
  · refine BitVec.eq_of_getLsbD_eq fun i below => ?_
    rw [BitVec.getLsbD_extractLsb', getLsbD_addressOf _ _ _ _ (by omega)]
    grind

/-- The lower byte of the upper word of a register. -/
theorem lower_byte (dword : U32) :
    (((dword >>> 16).setWidth 16 : U16) &&& 0xFF).setWidth 8 = dword.extractLsb' 16 8 := by
  refine BitVec.eq_of_getLsbD_eq fun i below => ?_
  have mask : (0xFF : U16).getLsbD i = decide (i < 8) := by
    revert i
    decide
  simp only [BitVec.getLsbD_setWidth, BitVec.getLsbD_ushiftRight, BitVec.getLsbD_extractLsb',
    BitVec.getLsbD_and]
  grind

section Registers

variable {space : ConfigSpace} (bus : U8) {slot func : U8} (slotBelow : slot < 32)
  (funcBelow : func < 8)
include slotBelow funcBelow

/-- A register is read as the configuration space has it, whatever the latch held. -/
theorem gives_readDword (offset : U8) :
    Gives space (pciConfigReadDword bus slot func offset)
      (space.dword ⟨bus, slot, func⟩ (offset.extractLsb' 2 6)) := by
  intro latch vga
  obtain ⟨enabled, busBits, slotBits, funcBits, registerBits⟩ :=
    selected bus offset slotBelow funcBelow
  refine ⟨addressOf bus slot func offset, ?_⟩
  change some (Bridge.inl configData ⟨space, addressOf bus slot func offset⟩, _) = _
  rw [Bridge.inl, if_pos ⟨rfl, enabled⟩, busBits, slotBits, funcBits, registerBits]
  rfl

/-- Half of a register is read as the configuration space has it. -/
theorem gives_readWord (offset : U8) :
    Gives space (pciConfigReadWord bus slot func offset)
      ((space.dword ⟨bus, slot, func⟩ (offset.extractLsb' 2 6) >>>
        ((offset &&& 2) * 8).toNat).setWidth 16) :=
  (gives_readDword bus slotBelow funcBelow offset).bind (.pure _)

/-- The vendor number of a function. -/
theorem gives_vendorId :
    Gives space (getVendorId bus slot func) ((space.dword ⟨bus, slot, func⟩ 0).extractLsb' 0 16) :=
  gives_readWord bus slotBelow funcBelow 0

/-- The device number of a function. -/
theorem gives_deviceId :
    Gives space (getDeviceId bus slot func)
      ((space.dword ⟨bus, slot, func⟩ 0).extractLsb' 16 16) :=
  gives_readWord bus slotBelow funcBelow 2

/-- The class of a function. -/
theorem gives_classId :
    Gives space (getClassId bus slot func)
      ((space.dword ⟨bus, slot, func⟩ 2).extractLsb' 24 8) := by
  have byte (dword : U32) : (((dword >>> 16).setWidth 16 : U16) >>> 8).setWidth 8 =
      dword.extractLsb' 24 8 := by
    refine BitVec.eq_of_getLsbD_eq fun i below => ?_
    simp only [BitVec.getLsbD_setWidth, BitVec.getLsbD_ushiftRight, BitVec.getLsbD_extractLsb']
    grind
  rw [← byte]
  exact (gives_readWord bus slotBelow funcBelow 0x0A).bind (.pure _)

/-- The subclass of a function. -/
theorem gives_subclassId :
    Gives space (getSubclassId bus slot func)
      ((space.dword ⟨bus, slot, func⟩ 2).extractLsb' 16 8) := by
  rw [← lower_byte]
  exact (gives_readWord bus slotBelow funcBelow 0x0A).bind (.pure _)

/-- The header type of a function. -/
theorem gives_headerType :
    Gives space (getHeaderType bus slot func)
      ((space.dword ⟨bus, slot, func⟩ 3).extractLsb' 16 8) := by
  rw [← lower_byte]
  exact (gives_readWord bus slotBelow funcBelow 0x0E).bind (.pure _)

variable (undefined : Vector U8 20)

/-- One function shows its line if it is present, and nothing otherwise. -/
theorem shows_checkFunction :
    Shows space (checkFunction undefined bus slot func) fun vga =>
      if space.Present ⟨bus, slot, func⟩ then space.line undefined vga ⟨bus, slot, func⟩
      else some vga := by
  unfold checkFunction
  refine (gives_vendorId bus slotBelow funcBelow).bind_shows ?_
  by_cases present : space.Present ⟨bus, slot, func⟩
  · have shown : (space.dword ⟨bus, slot, func⟩ 0).extractLsb' 0 16 ≠ 0xFFFF := present
    simp only [if_pos present, if_neg shown]
    refine (gives_deviceId bus slotBelow funcBelow).bind_shows ?_
    refine (gives_classId bus slotBelow funcBelow).bind_shows ?_
    refine (gives_subclassId bus slotBelow funcBelow).bind_shows ?_
    exact .display _
  · have missing : (space.dword ⟨bus, slot, func⟩ 0).extractLsb' 0 16 = 0xFFFF := not_not.mp present
    simp only [if_neg present, if_pos missing]
    exact .nothing

end Registers

/-! ### The walk -/

section Walked

variable (space : ConfigSpace) (undefined : Vector U8 20)

/-- The place of function 0 and those of the other functions of a slot. -/
def place (bus slot func : Nat) : Place :=
  ⟨BitVec.ofNat 8 bus, BitVec.ofNat 8 slot, BitVec.ofNat 8 func⟩

/-- The places of a slot are its first function and the seven others. -/
theorem slotPlaces_eq (bus slot : Nat) :
    slotPlaces bus slot = place bus slot 0 :: (List.range' 1 7).map (place bus slot) := rfl

/-- The first function of a slot is found as soon as it is present. -/
theorem found_first_iff (bus slot : Nat) :
    space.Found (place bus slot 0) ↔ space.Present (place bus slot 0) :=
  ⟨fun found => found.1, fun present => ⟨present, present, fun other => absurd rfl other⟩⟩

/-- The other functions of a slot are found if they are present in a slot with several. -/
theorem found_other_iff {bus slot func : Nat} (other : func ∈ List.range' 1 7) :
    space.Found (place bus slot func) ↔
      space.Present (place bus slot 0) ∧ space.Present (place bus slot func) ∧
        (space.dword (place bus slot 0) 3).getLsbD 23 = true := by
  have apart : ∀ func ∈ List.range' 1 7, BitVec.ofNat 8 func ≠ 0 := by decide
  have apart : (place bus slot func).func ≠ 0 := apart func other
  unfold ConfigSpace.Found
  simp only [apart, ne_eq, not_false_eq_true, true_implies]
  rfl

/-- The bit the code tests is bit 23 of the register. -/
theorem bit_headerType (dword : U32) :
    dword.extractLsb' 16 8 &&& 0x80 ≠ 0 ↔ dword.getLsbD 23 = true := by
  have top : (0x80 : U8) = BitVec.twoPow 8 7 := rfl
  rw [top, BitVec.and_twoPow, BitVec.getLsbD_extractLsb']
  simp

/-- A slot shows the lines of the functions found in it, in order. -/
theorem shows_checkDevice {bus slot : Nat} (slotBelow : slot < 32) :
    Shows space (checkDevice undefined (BitVec.ofNat 8 bus) (BitVec.ofNat 8 slot)) fun vga =>
      ((slotPlaces bus slot).filter fun place => space.Found place).foldlM
        (space.line undefined) vga := by
  have below : BitVec.ofNat 8 slot < 32 := by
    rw [BitVec.lt_def, BitVec.toNat_ofNat]
    exact Nat.lt_of_le_of_lt (Nat.mod_le _ _) slotBelow
  unfold checkDevice
  refine (gives_vendorId _ below (by decide)).bind_shows ?_
  rw [slotPlaces_eq]
  change Shows space
    (if (space.dword (place bus slot 0) 0).extractLsb' 0 16 = 0xFFFF then _ else _) _
  by_cases present : space.Present (place bus slot 0)
  · have shown : (space.dword (place bus slot 0) 0).extractLsb' 0 16 ≠ 0xFFFF := present
    have first : Shows space
        (checkFunction undefined (BitVec.ofNat 8 bus) (BitVec.ofNat 8 slot) 0)
        fun vga => if space.Present (place bus slot 0) then
          space.line undefined vga (place bus slot 0) else some vga :=
      shows_checkFunction _ below (by decide) undefined
    simp only [if_pos present] at first
    have found : (place bus slot 0 :: (List.range' 1 7).map (place bus slot)).filter
        (fun place => space.Found place) =
          place bus slot 0 :: ((List.range' 1 7).map (place bus slot)).filter
            fun place => space.Found place :=
      List.filter_cons_of_pos (decide_eq_true ((found_first_iff space bus slot).mpr present))
    rw [if_neg shown, found]
    refine first.bind ((gives_headerType _ below (by decide)).bind_shows ?_)
    change Shows space (if (space.dword (place bus slot 0) 3).extractLsb' 16 8 &&& 0x80 ≠ 0 then _
      else _) _
    by_cases several : (space.dword (place bus slot 0) 3).getLsbD 23 = true
    · rw [if_pos ((bit_headerType _).mpr several)]
      simp only [List.foldlM_filter, List.foldlM_map, decide_eq_true_eq]
      refine .counting fun func other => ?_
      have same : space.Found (place bus slot func) ↔ space.Present (place bus slot func) :=
        (found_other_iff space other).trans
          ⟨fun found => found.2.1, fun there => ⟨present, there, several⟩⟩
      have funcBelow : ∀ func ∈ List.range' 1 7, BitVec.ofNat 8 func < 8 := by decide
      simp only [same]
      exact shows_checkFunction _ below (funcBelow func other) undefined
    · have none : ((List.range' 1 7).map (place bus slot)).filter
          (fun place => space.Found place) = [] := by
        rw [List.filter_eq_nil_iff, List.forall_mem_map]
        simp only [decide_eq_true_eq]
        exact fun func other found => several ((found_other_iff space other).mp found).2.2
      rw [if_neg (mt (bit_headerType _).mp several), none]
      exact .nothing
  · have missing : (space.dword (place bus slot 0) 0).extractLsb' 0 16 = 0xFFFF :=
      not_not.mp present
    have none : (place bus slot 0 :: (List.range' 1 7).map (place bus slot)).filter
        (fun place => space.Found place) = [] := by
      rw [List.filter_eq_nil_iff, List.forall_mem_cons, List.forall_mem_map]
      simp only [decide_eq_true_eq, found_first_iff, present, not_false_eq_true, true_and]
      exact fun func other found => present ((found_other_iff space other).mp found).1
    rw [if_pos missing, none]
    exact .nothing

/-- A round over joined lists is a round over each list in turn. -/
theorem foldlM_flatMap {Item Part State : Type} (parts : Item → List Part)
    (round : State → Part → Option State) (items : List Item) (state : State) :
    (items.flatMap parts).foldlM round state =
      items.foldlM (fun state item => (parts item).foldlM round state) state := by
  induction items generalizing state with
  | nil => rfl
  | cons item rest ih =>
      rw [List.flatMap_cons, List.foldlM_append, List.foldlM_cons]
      exact congrArg _ (funext ih)

/-- The functions found, bus by bus and slot by slot. -/
theorem found_places :
    places.filter (fun place => space.Found place) =
      (List.range 256).flatMap fun bus => (List.range 32).flatMap fun slot =>
        (slotPlaces bus slot).filter fun place => space.Found place := by
  simp only [places, List.filter_flatMap]

/-- Two calls that both answer answer together. -/
theorem exists_bind {Before After : Type} {call : Option Before} {next : Before → Option After}
    (first : ∃ before, call = some before) (rest : ∀ before, ∃ after, next before = some after) :
    ∃ after, (call >>= next) = some after := by
  obtain ⟨before, rfl⟩ := first
  exact rest before

/-- Every line can be printed. -/
theorem exists_line (vga : VgaState) (place : Place) :
    ∃ shown, space.line undefined vga place = some shown := by
  have dec (value : U64) (vga : VgaState) : ∃ shown, printDec undefined value vga = some shown := by
    obtain ⟨digits, -, printed⟩ := printDec_eq value
    exact ⟨_, printed undefined vga⟩
  have hex (value : U64) (vga : VgaState) : ∃ shown, printHex value vga = some shown := by
    obtain ⟨digits, -, printed⟩ := printHex_eq value
    exact ⟨_, printed vga⟩
  refine exists_bind (dec _ _) fun vga => exists_bind (dec _ _) fun vga =>
    exists_bind (dec _ _) fun vga => exists_bind (hex _ _) fun vga =>
    exists_bind (hex _ _) fun vga => exists_bind (hex _ _) fun vga =>
    exists_bind (hex _ _) fun vga => ⟨_, rfl⟩

/-- Any number of lines can be shown. -/
theorem exists_lines (found : List Place) (vga : VgaState) :
    ∃ shown, found.foldlM (space.line undefined) vga = some shown := by
  induction found generalizing vga with
  | nil => exact ⟨vga, rfl⟩
  | cons place rest ih =>
      obtain ⟨next, printed⟩ := exists_line space undefined vga place
      obtain ⟨shown, later⟩ := ih next
      refine ⟨shown, ?_⟩
      rw [List.foldlM_cons, printed]
      exact later

/-- The number of a place in the order of buses, slots and functions. -/
def Place.number (place : Place) : Nat :=
  place.bus.toNat * 256 + place.slot.toNat * 8 + place.func.toNat

/-- The number of a place orders the places by bus, slot and function. -/
theorem number_place {bus slot func : Nat} (busBelow : bus < 256) (slotBelow : slot < 32)
    (funcBelow : func < 8) : (place bus slot func).number = bus * 256 + slot * 8 + func := by
  unfold Place.number place
  simp only [BitVec.toNat_ofNat]
  omega

/-- The places are those of the nested loops. -/
theorem mem_places {other : Place} :
    other ∈ places ↔ ∃ bus < 256, ∃ slot < 32, ∃ func < 8, place bus slot func = other := by
  simp only [places, slotPlaces, List.mem_flatMap, List.mem_map, List.mem_range]
  rfl

/-- A place is visited if slot and function are in range. -/
theorem mem_places_iff (other : Place) : other ∈ places ↔ other.slot < 32 ∧ other.func < 8 := by
  rw [mem_places]
  constructor
  · rintro ⟨bus, busBelow, slot, slotBelow, func, funcBelow, rfl⟩
    change (BitVec.ofNat 8 slot).toNat < 32 ∧ (BitVec.ofNat 8 func).toNat < 8
    simp only [BitVec.toNat_ofNat]
    exact ⟨by omega, by omega⟩
  · rintro ⟨slotBelow, funcBelow⟩
    refine ⟨other.bus.toNat, other.bus.isLt, other.slot.toNat, slotBelow, other.func.toNat,
      funcBelow, ?_⟩
    simp only [place, BitVec.ofNat_toNat, BitVec.setWidth_eq]

/-- The numbers of a slot's places lie within its eight. -/
theorem mem_slotPlaces {bus slot : Nat} {other : Place} (busBelow : bus < 256)
    (slotBelow : slot < 32) (member : other ∈ slotPlaces bus slot) :
    ∃ func < 8, other.number = bus * 256 + slot * 8 + func := by
  obtain ⟨func, funcIn, rfl⟩ := List.mem_map.mp member
  have funcBelow := List.mem_range.mp funcIn
  exact ⟨func, funcBelow, number_place busBelow slotBelow funcBelow⟩

/-- The places are in the order of their numbers. -/
theorem places_ordered : places.Pairwise fun first second => first.number < second.number := by
  rw [places, List.pairwise_flatMap]
  refine ⟨fun bus busIn => ?_, ?_⟩
  · have busBelow := List.mem_range.mp busIn
    rw [List.pairwise_flatMap]
    refine ⟨fun slot slotIn => ?_, ?_⟩
    · have slotBelow := List.mem_range.mp slotIn
      rw [slotPlaces, List.pairwise_map]
      refine List.pairwise_lt_range.imp_of_mem fun firstIn secondIn before => ?_
      change (place bus slot _).number < (place bus slot _).number
      rw [number_place busBelow slotBelow (List.mem_range.mp firstIn),
        number_place busBelow slotBelow (List.mem_range.mp secondIn)]
      exact Nat.add_lt_add_left before _
    · refine List.pairwise_lt_range.imp_of_mem fun firstIn secondIn before => ?_
      intro first firstMember second secondMember
      obtain ⟨_, below, firstNumber⟩ :=
        mem_slotPlaces busBelow (List.mem_range.mp firstIn) firstMember
      obtain ⟨_, -, secondNumber⟩ :=
        mem_slotPlaces busBelow (List.mem_range.mp secondIn) secondMember
      rw [firstNumber, secondNumber]
      omega
  · refine List.pairwise_lt_range.imp_of_mem fun firstIn secondIn before => ?_
    intro first firstMember second secondMember
    obtain ⟨firstSlot, firstSlotIn, firstMember⟩ := List.mem_flatMap.mp firstMember
    obtain ⟨secondSlot, secondSlotIn, secondMember⟩ := List.mem_flatMap.mp secondMember
    have slotBelow := List.mem_range.mp firstSlotIn
    obtain ⟨_, below, firstNumber⟩ :=
      mem_slotPlaces (List.mem_range.mp firstIn) slotBelow firstMember
    obtain ⟨_, -, secondNumber⟩ :=
      mem_slotPlaces (List.mem_range.mp secondIn) (List.mem_range.mp secondSlotIn) secondMember
    rw [firstNumber, secondNumber]
    omega

/-- **The functions on the bus.** Whatever the configuration registers hold, `pci_init` prints
a heading, the lines of a list of functions and a closing line, and changes no register. The
list has exactly the functions that are found, in the order of their numbers. -/
theorem pci_lists_functions (latch : U32) (vga : VgaState) :
    ∃ (found : List Place) (shown : VgaState) (latch' : U32),
      (∀ place, place ∈ found ↔ place.slot < 32 ∧ place.func < 8 ∧ space.Found place) ∧
      (found.Pairwise fun first second => first.number < second.number) ∧
      found.foldlM (space.line undefined) (print (text "[PCI] Enumerating PCI Bus...\n") vga) =
        some shown ∧
      pciInit undefined ⟨⟨space, latch⟩, vga⟩ =
        some ((), ⟨⟨space, latch'⟩, print (text "[PCI] Enumeration complete.\n") shown⟩) := by
  obtain ⟨shown, lines⟩ := exists_lines space undefined
    (places.filter fun place => space.Found place)
    (print (text "[PCI] Enumerating PCI Bus...\n") vga)
  have whole : Shows space (pciInit undefined) fun vga =>
      (some (print (text "[PCI] Enumerating PCI Bus...\n") vga)).bind fun vga =>
        ((places.filter fun place => space.Found place).foldlM (space.line undefined) vga).bind
          fun vga => some (print (text "[PCI] Enumeration complete.\n") vga) := by
    simp only [found_places, foldlM_flatMap, List.range_eq_range']
    refine .bind (.display _) (.bind ?_ (.display _))
    refine .counting fun bus _ => .counting fun slot inside => ?_
    exact shows_checkDevice space undefined (by simpa using inside)
  obtain ⟨latch', ran⟩ := whole latch vga
  refine ⟨_, shown, latch', fun place => ?_, places_ordered.filter _, lines, ran.trans ?_⟩
  · rw [List.mem_filter, mem_places_iff, decide_eq_true_eq, and_assoc]
  · dsimp only [Option.bind_some]
    rw [lines]
    rfl

end Walked

end Lofita.Boot
