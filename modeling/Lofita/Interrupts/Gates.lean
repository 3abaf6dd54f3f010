import Mathlib.Data.List.Induction
import Mathlib.Logic.Function.Basic
import Mathlib.Tactic.SplitIfs
import Lofita.Foundation.Word

/-! # Descriptor tables

The segment descriptors of `gdt.zig` and the gates of `idt.zig`, as packed structures and as
the words the processor reads. A gate scatters the address of its stub over three fields and
a segment descriptor its base and its limit; the processor puts them together again
(`readGate_makeGate`, `readSegment_makeEntry`).
-/

namespace Lofita.Interrupts

open Lofita.Foundation

/-! ### Segment descriptors -/

/-- A packed structure; its first field takes the lowest bits. -/
structure GdtEntry where
  limitLow : U16
  baseLow : U16
  baseMiddle : U8
  accessByte : U8
  flagsLimitHigh : U8
  baseHigh : U8
deriving DecidableEq, Repr

def GdtEntry.bits (entry : GdtEntry) : U64 :=
  entry.baseHigh ++ entry.flagsLimitHigh ++ entry.accessByte ++ entry.baseMiddle ++
    entry.baseLow ++ entry.limitLow

/-- `make_entry`. -/
def makeEntry (base limit : U32) (access flags : U8) : GdtEntry where
  limitLow := (limit &&& 0xFFFF).setWidth 16
  baseLow := (base &&& 0xFFFF).setWidth 16
  baseMiddle := ((base >>> 16) &&& 0xFF).setWidth 8
  accessByte := access
  flagsLimitHigh := (((limit >>> 16) &&& 0x0F) ||| (flags.setWidth 32 &&& 0xF0)).setWidth 8
  baseHigh := ((base >>> 24) &&& 0xFF).setWidth 8

/-- What the processor reads in a segment descriptor: the limit counts bytes or pages, and
the access byte holds the privilege level. -/
@[ext]
structure Segment where
  base : U32
  limit : BitVec 20
  access : U8
  flags : BitVec 4
deriving DecidableEq, Repr

def readSegment (descriptor : U64) : Segment where
  base := descriptor.extractLsb' 56 8 ++ descriptor.extractLsb' 16 24
  limit := descriptor.extractLsb' 48 4 ++ descriptor.extractLsb' 0 16
  access := descriptor.extractLsb' 40 8
  flags := descriptor.extractLsb' 52 4

namespace Segment

def present (segment : Segment) : Bool := segment.access.getLsbD 7

def dpl (segment : Segment) : BitVec 2 := segment.access.extractLsb' 5 2

/-- A code segment, which is executable. -/
def isCode (segment : Segment) : Bool := segment.access.getLsbD 4 && segment.access.getLsbD 3

/-- A code segment for 64-bit mode. -/
def long (segment : Segment) : Bool := segment.flags.getLsbD 1

end Segment

/-- The entries of `gdt_init`. -/
def gdtInit : List GdtEntry :=
  [makeEntry 0 0 0x00 0x00,
    makeEntry 0 0xFFFFFFFF 0x9A 0x20,
    makeEntry 0 0xFFFFFFFF 0x92 0x00,
    makeEntry 0 0xFFFFFFFF 0xFA 0x20,
    makeEntry 0 0xFFFFFFFF 0xF2 0x00,
    makeEntry 0 0 0x00 0x00,
    makeEntry 0 0 0x00 0x00]

def kernelCodeSel : U16 := 0x08

/-- The descriptor that a selector names. -/
def segmentOf (selector : U16) : Option Segment :=
  gdtInit[(selector >>> 3).toNat]?.map fun entry => readSegment entry.bits

/-- An interrupt may be taken to the segment: 64-bit code of the kernel. -/
def Segment.takesInterrupts (segment : Segment) : Bool :=
  segment.present && segment.isCode && segment.long && segment.dpl == 0

/-! ### Gates -/

/-- A packed structure; its first field takes the lowest bits. -/
structure IdtEntry where
  offsetLow : U16
  selector : U16
  ist : U8
  typeAttr : U8
  offsetMiddle : U16
  offsetHigh : U32
  reserved : U32
deriving DecidableEq, Repr

def IdtEntry.bits (entry : IdtEntry) : BitVec 128 :=
  entry.reserved ++ entry.offsetHigh ++ entry.offsetMiddle ++ entry.typeAttr ++ entry.ist ++
    entry.selector ++ entry.offsetLow

/-- `make_gate`. -/
def makeGate (handler : U64) (selector : U16) (ist typeAttr : U8) : IdtEntry where
  offsetLow := (handler &&& 0xFFFF).setWidth 16
  selector := selector
  ist := ist
  typeAttr := typeAttr
  offsetMiddle := ((handler >>> 16) &&& 0xFFFF).setWidth 16
  offsetHigh := ((handler >>> 32) &&& 0xFFFFFFFF).setWidth 32
  reserved := 0

/-- What the processor reads in a gate. -/
@[ext]
structure Gate where
  offset : U64
  selector : U16
  ist : BitVec 3
  kind : BitVec 4
  dpl : BitVec 2
  present : Bool
deriving DecidableEq, Repr

def readGate (descriptor : BitVec 128) : Gate where
  offset := descriptor.extractLsb' 48 48 ++ descriptor.extractLsb' 0 16
  selector := descriptor.extractLsb' 16 16
  ist := descriptor.extractLsb' 32 3
  kind := descriptor.extractLsb' 40 4
  dpl := descriptor.extractLsb' 45 2
  present := descriptor.getLsbD 47

/-- The kind of a gate that turns interrupts off on entry. -/
def interruptGate : BitVec 4 := 0xE

/-! ### Fields and bits -/

/-- A field that is masked to its width and cast is the low part of the word. -/
theorem setWidth_and_mask {width count : Nat} {mask : BitVec width}
    (ones : mask.setWidth count = BitVec.allOnes count) (word : BitVec width) :
    (word &&& mask).setWidth count = word.setWidth count := by
  rw [BitVec.setWidth_and, ones, BitVec.and_allOnes]

theorem IdtEntry.getLsbD_bits (entry : IdtEntry) (i : Nat) :
    entry.bits.getLsbD i =
      if i < 16 then entry.offsetLow.getLsbD i
      else if i < 32 then entry.selector.getLsbD (i - 16)
      else if i < 40 then entry.ist.getLsbD (i - 32)
      else if i < 48 then entry.typeAttr.getLsbD (i - 40)
      else if i < 64 then entry.offsetMiddle.getLsbD (i - 48)
      else if i < 96 then entry.offsetHigh.getLsbD (i - 64)
      else entry.reserved.getLsbD (i - 96) := by
  change (entry.reserved ++ entry.offsetHigh ++ entry.offsetMiddle ++ entry.typeAttr ++
    entry.ist ++ entry.selector ++ entry.offsetLow).getLsbD i = _
  simp only [BitVec.getLsbD_append]
  grind

theorem GdtEntry.getLsbD_bits (entry : GdtEntry) (i : Nat) :
    entry.bits.getLsbD i =
      if i < 16 then entry.limitLow.getLsbD i
      else if i < 32 then entry.baseLow.getLsbD (i - 16)
      else if i < 40 then entry.baseMiddle.getLsbD (i - 32)
      else if i < 48 then entry.accessByte.getLsbD (i - 40)
      else if i < 56 then entry.flagsLimitHigh.getLsbD (i - 48)
      else entry.baseHigh.getLsbD (i - 56) := by
  change (entry.baseHigh ++ entry.flagsLimitHigh ++ entry.accessByte ++ entry.baseMiddle ++
    entry.baseLow ++ entry.limitLow).getLsbD i = _
  simp only [BitVec.getLsbD_append]
  grind

/-- A field that lies in a range of bits is what the range holds. -/
theorem extractLsb'_eq {width count start : Nat} {word : BitVec width} {value : BitVec count}
    (bits : ∀ i < count, word.getLsbD (start + i) = value.getLsbD i) :
    word.extractLsb' start count = value := by
  refine BitVec.eq_of_getLsbD_eq fun i below => ?_
  rw [BitVec.getLsbD_extractLsb', decide_eq_true below, Bool.true_and, bits i below]

/-- The processor reads the fields of a gate where the packed structure has them. -/
theorem readGate_bits (entry : IdtEntry) :
    readGate entry.bits =
      { offset := entry.offsetHigh ++ entry.offsetMiddle ++ entry.offsetLow
        selector := entry.selector
        ist := entry.ist.extractLsb' 0 3
        kind := entry.typeAttr.extractLsb' 0 4
        dpl := entry.typeAttr.extractLsb' 5 2
        present := entry.typeAttr.getLsbD 7 } := by
  have bits := entry.getLsbD_bits
  have upper : entry.bits.extractLsb' 48 48 = entry.offsetHigh ++ entry.offsetMiddle := by
    refine extractLsb'_eq fun i below => ?_
    rw [bits, BitVec.getLsbD_append]
    grind
  have lower : entry.bits.extractLsb' 0 16 = entry.offsetLow := by
    refine extractLsb'_eq fun i below => ?_
    rw [bits]
    grind
  refine Gate.ext ?_ (extractLsb'_eq fun i below => ?_) (extractLsb'_eq fun i below => ?_)
    (extractLsb'_eq fun i below => ?_) (extractLsb'_eq fun i below => ?_) ?_
  · change entry.bits.extractLsb' 48 48 ++ entry.bits.extractLsb' 0 16 = _
    rw [upper, lower]
  · rw [bits]
    grind
  · rw [bits, BitVec.getLsbD_extractLsb']
    grind
  · rw [bits, BitVec.getLsbD_extractLsb']
    grind
  · rw [bits, BitVec.getLsbD_extractLsb']
    grind
  · exact bits 47

/-- The processor reads the fields of a segment where the packed structure has them. -/
theorem readSegment_bits (entry : GdtEntry) :
    readSegment entry.bits =
      { base := entry.baseHigh ++ (entry.baseMiddle ++ entry.baseLow)
        limit := entry.flagsLimitHigh.extractLsb' 0 4 ++ entry.limitLow
        access := entry.accessByte
        flags := entry.flagsLimitHigh.extractLsb' 4 4 } := by
  have bits := entry.getLsbD_bits
  have baseHigh : entry.bits.extractLsb' 56 8 = entry.baseHigh := by
    refine extractLsb'_eq fun i below => ?_
    rw [bits]
    grind
  have baseLow : entry.bits.extractLsb' 16 24 = entry.baseMiddle ++ entry.baseLow := by
    refine extractLsb'_eq fun i below => ?_
    rw [bits, BitVec.getLsbD_append]
    grind
  have limitHigh : entry.bits.extractLsb' 48 4 = entry.flagsLimitHigh.extractLsb' 0 4 := by
    refine extractLsb'_eq fun i below => ?_
    rw [bits, BitVec.getLsbD_extractLsb']
    grind
  have limitLow : entry.bits.extractLsb' 0 16 = entry.limitLow := by
    refine extractLsb'_eq fun i below => ?_
    rw [bits]
    grind
  refine Segment.ext ?_ ?_ (extractLsb'_eq fun i below => ?_) (extractLsb'_eq fun i below => ?_)
  · change entry.bits.extractLsb' 56 8 ++ entry.bits.extractLsb' 16 24 = _
    rw [baseHigh, baseLow]
  · change entry.bits.extractLsb' 48 4 ++ entry.bits.extractLsb' 0 16 = _
    rw [limitHigh, limitLow]
  · rw [bits]
    grind
  · rw [bits, BitVec.getLsbD_extractLsb']
    grind

/-- The sixth byte of a segment holds the top of the limit under the flags. -/
theorem getLsbD_flagsLimitHigh (base limit : U32) (access flags : U8) (i : Nat) :
    (makeEntry base limit access flags).flagsLimitHigh.getLsbD i =
      if i < 4 then limit.getLsbD (16 + i) else flags.getLsbD i := by
  have low : ∀ i < 8, (0x0F : U32).getLsbD i = decide (i < 4) := by decide
  have high : ∀ i < 8, (0xF0 : U32).getLsbD i = decide (4 ≤ i) := by decide
  change (BitVec.setWidth 8 (((limit >>> 16) &&& 0x0F) |||
    (flags.setWidth 32 &&& 0xF0))).getLsbD i = _
  rw [BitVec.getLsbD_setWidth, BitVec.getLsbD_or, BitVec.getLsbD_and, BitVec.getLsbD_and,
    BitVec.getLsbD_ushiftRight, BitVec.getLsbD_setWidth]
  by_cases below : i < 8
  · rw [low i below, high i below]
    grind
  · grind

/-- **A gate round trip.** The processor finds the address, the selector and the attributes
that `make_gate` was given. -/
theorem readGate_makeGate (handler : U64) (selector : U16) (ist typeAttr : U8) :
    readGate (makeGate handler selector ist typeAttr).bits =
      { offset := handler
        selector := selector
        ist := ist.extractLsb' 0 3
        kind := typeAttr.extractLsb' 0 4
        dpl := typeAttr.extractLsb' 5 2
        present := typeAttr.getLsbD 7 } := by
  have low : (handler &&& 0xFFFF).setWidth 16 = handler.setWidth 16 :=
    setWidth_and_mask (by decide) _
  have middle : ((handler >>> 16) &&& 0xFFFF).setWidth 16 = (handler >>> 16).setWidth 16 :=
    setWidth_and_mask (by decide) _
  have high : ((handler >>> 32) &&& 0xFFFFFFFF).setWidth 32 = (handler >>> 32).setWidth 32 :=
    setWidth_and_mask (by decide) _
  rw [readGate_bits]
  congr 1
  refine BitVec.eq_of_getLsbD_eq fun i below => ?_
  simp only [makeGate, low, middle, high]
  change ((handler >>> 32).setWidth 32 ++ (handler >>> 16).setWidth 16 ++
    handler.setWidth 16).getLsbD i = _
  simp only [BitVec.getLsbD_append, BitVec.getLsbD_setWidth, BitVec.getLsbD_ushiftRight]
  grind

/-- **A segment round trip**, but for the parts that the encoding has no room for: of the
limit only twenty bits are kept, and of the flags the high nibble. -/
theorem readSegment_makeEntry (base limit : U32) (access flags : U8) :
    readSegment (makeEntry base limit access flags).bits =
      { base := base
        limit := limit.setWidth 20
        access := access
        flags := flags.extractLsb' 4 4 } := by
  have baseLow : (base &&& 0xFFFF).setWidth 16 = base.setWidth 16 := setWidth_and_mask (by decide) _
  have baseMiddle : ((base >>> 16) &&& 0xFF).setWidth 8 = (base >>> 16).setWidth 8 :=
    setWidth_and_mask (by decide) _
  have baseHigh : ((base >>> 24) &&& 0xFF).setWidth 8 = (base >>> 24).setWidth 8 :=
    setWidth_and_mask (by decide) _
  have limitLow : (limit &&& 0xFFFF).setWidth 16 = limit.setWidth 16 :=
    setWidth_and_mask (by decide) _
  have nibbles := getLsbD_flagsLimitHigh base limit access flags
  rw [readSegment_bits]
  refine Segment.ext (BitVec.eq_of_getLsbD_eq fun i below => ?_)
    (BitVec.eq_of_getLsbD_eq fun i below => ?_) rfl (BitVec.eq_of_getLsbD_eq fun i below => ?_)
  · simp only [makeEntry, baseLow, baseMiddle, baseHigh]
    change ((base >>> 24).setWidth 8 ++ ((base >>> 16).setWidth 8 ++
      base.setWidth 16)).getLsbD i = _
    simp only [BitVec.getLsbD_append, BitVec.getLsbD_setWidth, BitVec.getLsbD_ushiftRight]
    grind
  · change (BitVec.extractLsb' 0 4 _ ++ (limit &&& 0xFFFF).setWidth 16).getLsbD i = _
    simp only [limitLow, BitVec.getLsbD_append, BitVec.getLsbD_setWidth,
      BitVec.getLsbD_extractLsb', nibbles]
    grind
  · change (BitVec.extractLsb' 4 4 _).getLsbD i = _
    simp only [BitVec.getLsbD_extractLsb', nibbles]
    grind

/-- The selector of the gates names a segment that interrupts may be taken to. -/
theorem takesInterrupts_kernelCodeSel :
    (segmentOf kernelCodeSel).any Segment.takesInterrupts = true := by
  have entry : segmentOf kernelCodeSel =
      some (readSegment (makeEntry 0 0xFFFFFFFF 0x9A 0x20).bits) := rfl
  rw [entry, readSegment_makeEntry]
  decide

/-! ### The interrupt table -/

/-- The stub instances. -/
inductive Stub where
  | divZero
  | invalidOpcode
  | doubleFault
  | gpf
  | pageFault
  | syscallInt80
  | irqMaster
  | irqSlave
  | irqTimer
  | irqKeyboard
deriving DecidableEq, Repr

/-- The stub is an `isr_stub_with_err`, which relies on the processor for the error code. -/
def Stub.expectsErrorCode : Stub → Bool
  | .doubleFault | .gpf | .pageFault => true
  | _ => false

/-- The vectors that `idt_init` gives a stub, with the attributes of the gate. -/
def gates : List (U8 × Stub × U8) :=
  [(0, .divZero, 0x8E), (6, .invalidOpcode, 0x8E), (8, .doubleFault, 0x8E), (13, .gpf, 0x8E),
    (14, .pageFault, 0x8E), (128, .syscallInt80, 0xEE),
    (0x20, .irqTimer, 0x8E), (0x21, .irqKeyboard, 0x8E), (0x22, .irqMaster, 0x8E),
    (0x23, .irqMaster, 0x8E), (0x24, .irqMaster, 0x8E), (0x25, .irqMaster, 0x8E),
    (0x26, .irqMaster, 0x8E), (0x27, .irqMaster, 0x8E), (0x28, .irqSlave, 0x8E),
    (0x29, .irqSlave, 0x8E), (0x2A, .irqSlave, 0x8E), (0x2B, .irqSlave, 0x8E),
    (0x2C, .irqSlave, 0x8E), (0x2D, .irqSlave, 0x8E), (0x2E, .irqSlave, 0x8E),
    (0x2F, .irqSlave, 0x8E)]

/-- The table of `idt_init`, for stubs at given addresses: every entry not present, then the
gates one after the other. -/
def idtInit (address : Stub → U64) : U8 → IdtEntry :=
  gates.foldl
    (fun table (vector, stub, typeAttr) =>
      Function.update table vector (makeGate (address stub) kernelCodeSel 0 typeAttr))
    (fun _ => makeGate 0 kernelCodeSel 0 0x00)

/-- The stub that answers a vector. -/
def stubOf (vector : U8) : Option Stub :=
  if 0x20 ≤ vector ∧ vector < 0x30 then
    some (if vector = 0x20 then .irqTimer else if vector = 0x21 then .irqKeyboard
      else if vector < 0x28 then .irqMaster else .irqSlave)
  else if vector = 0 then some .divZero
  else if vector = 6 then some .invalidOpcode
  else if vector = 8 then some .doubleFault
  else if vector = 13 then some .gpf
  else if vector = 14 then some .pageFault
  else if vector = 0x80 then some .syscallInt80
  else none

/-- The exceptions for which the processor pushes an error code. -/
def pushesErrorCode (vector : U8) : Bool :=
  vector = 8 ∨ (10 ≤ vector ∧ vector ≤ 14) ∨ vector = 17 ∨ vector = 21 ∨ vector = 29 ∨ vector = 30

/-- Entering values one after the other leaves at each key the last value entered there. -/
theorem foldl_update {Key Item Value : Type} [DecidableEq Key] (build : Item → Value)
    (items : List (Key × Item)) (table : Key → Value) (key : Key) :
    items.foldl (fun table item => Function.update table item.1 (build item.2)) table key =
      (items.reverse.lookup key).elim (table key) build := by
  induction items using List.reverseRecOn with
  | nil => rfl
  | append_singleton items last ih =>
      rw [List.foldl_append, List.reverse_concat]
      change Function.update (items.foldl (fun table item =>
        Function.update table item.1 (build item.2)) table) last.1 (build last.2) key = _
      by_cases here : key = last.1
      · rw [here, Function.update_self, List.lookup_cons_self]
        rfl
      · rw [Function.update_of_ne here, ih, List.lookup_cons, beq_eq_false_iff_ne.mpr here]

/-- The attributes of the gate of a vector, in the table of the gates. -/
theorem lookup_gates : ∀ vector : U8, gates.reverse.lookup vector =
    (stubOf vector).map fun stub => (stub, if vector = 0x80 then 0xEE else 0x8E) := by
  decide +kernel

/-- **What a vector leads to.** For stubs at any addresses, the processor finds in the gate
of a vector the address of its stub, the kernel code segment and the stack in use, turns
interrupts off, also for the gate that user code may call, and finds no gate present at the
vectors without a stub. -/
theorem gates_lead_to_stubs (address : Stub → U64) (vector : U8) :
    readGate (idtInit address vector).bits =
      { offset := (stubOf vector).elim 0 address
        selector := kernelCodeSel
        ist := 0
        kind := if (stubOf vector).isSome then interruptGate else 0
        dpl := if vector = 0x80 then 3 else 0
        present := (stubOf vector).isSome } := by
  have entry : idtInit address vector =
      (gates.reverse.lookup vector).elim (makeGate 0 kernelCodeSel 0 0x00)
        fun item => makeGate (address item.1) kernelCodeSel 0 item.2 :=
    foldl_update (fun item : Stub × U8 => makeGate (address item.1) kernelCodeSel 0 item.2) gates
      (fun _ => makeGate 0 kernelCodeSel 0 0x00) vector
  rw [entry, lookup_gates]
  cases found : stubOf vector with
  | none =>
      have other : vector ≠ 0x80 := by
        rintro rfl
        exact absurd found (by decide)
      simp only [Option.map_none, Option.elim_none, readGate_makeGate, if_neg other]
      rfl
  | some stub =>
      simp only [Option.map_some, Option.elim_some, readGate_makeGate, Option.isSome_some,
        ↓reduceIte]
      split_ifs <;> rfl

/-- A stub relies on the processor for an error code exactly at the vectors for which the
processor pushes one. -/
theorem expectsErrorCode_eq : ∀ vector : U8, ∀ stub ∈ stubOf vector,
    stub.expectsErrorCode = pushesErrorCode vector := by
  decide +kernel

end Lofita.Interrupts
