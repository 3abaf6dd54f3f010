import Mathlib.Data.List.Basic
import Lofita.Foundation.Run
import Lofita.Interrupts.Gates

/-! # The interrupt controllers

The pair of 8259A controllers and the port writes of `pic.zig` that program and acknowledge
them. A controller latches requests, offers the first one that is neither masked nor behind
one in service, and keeps it in service until it is acknowledged; the second controller
reaches the processor through line 2 of the first. After `pic_init`, and with the handlers
that the interrupt table gives the lines, the pair is a set of latches served in the order of
priority (`pics_serve_latches`): no request is lost, and none is held up by one served before.
-/

namespace Lofita.Interrupts

open Lofita.Foundation

/-! ### One controller -/

/-- The word of an initialization sequence that the data port takes next. -/
inductive Expecting where
  | nothing
  | icw2
  | icw3
  | icw4
deriving DecidableEq, Repr

/-- The registers of a controller: the latched requests, those in service, the masked lines,
and what the initialization words set. -/
structure Pic where
  irr : U8
  isr : U8
  imr : U8
  icw1 : U8
  offset : U8
  cascade : U8
  icw4 : U8
  expecting : Expecting
deriving DecidableEq, Repr

/-- A register with a bit set. -/
def setBit (register : U8) (line : Nat) : U8 := register ||| BitVec.twoPow 8 line

/-- A register with a bit cleared. -/
def clearBit (register : U8) (line : Nat) : U8 := register &&& ~~~ BitVec.twoPow 8 line

namespace Pic

/-- A write to the command port: the first initialization word, or the acknowledgement of
the first request in service. The drivers send no other command. -/
def command (value : U8) (pic : Pic) : Pic :=
  if value.getLsbD 4 then
    { pic with irr := 0, isr := 0, imr := 0, icw1 := value, icw4 := 0, expecting := .icw2 }
  else if value = 0x20 then
    match (List.range 8).find? fun line => pic.isr.getLsbD line with
    | some line => { pic with isr := clearBit pic.isr line }
    | none => pic
  else pic

/-- The word that is due once the second controller is known. -/
def afterCascade (pic : Pic) : Expecting := if pic.icw1.getLsbD 0 then .icw4 else .nothing

/-- A write to the data port: the next initialization word, or the mask. -/
def data (value : U8) (pic : Pic) : Pic :=
  match pic.expecting with
  | .icw2 =>
      { pic with
        offset := value &&& 0xF8
        expecting := if pic.icw1.getLsbD 1 then pic.afterCascade else .icw3 }
  | .icw3 => { pic with cascade := value, expecting := pic.afterCascade }
  | .icw4 => { pic with icw4 := value, expecting := .nothing }
  | .nothing => { pic with imr := value }

/-- Latch a request on a line. -/
def raise (line : Nat) (pic : Pic) : Pic := { pic with irr := setBit pic.irr line }

/-- A request is offered when it is not masked and nothing of its priority or a higher one is
in service. -/
def offers (pic : Pic) (line : Nat) : Bool :=
  pic.irr.getLsbD line && !pic.imr.getLsbD line &&
    (List.range (line + 1)).all fun other => !pic.isr.getLsbD other

/-- The request offered to the processor. -/
def pending (pic : Pic) : Option Nat := (List.range 8).find? pic.offers

/-- The processor accepts the request of a line; with the automatic end of interrupt it does
not stay in service. -/
def accept (line : Nat) (pic : Pic) : Pic :=
  { pic with
    irr := clearBit pic.irr line
    isr := if pic.icw4.getLsbD 1 then pic.isr else setBit pic.isr line }

end Pic

/-! ### The pair -/

/-- The two controllers, the second behind line 2 of the first. -/
structure Pics where
  master : Pic
  slave : Pic
deriving DecidableEq, Repr

/-- The lines that devices can raise; line 2 joins the controllers. -/
structure Line where
  index : Nat
  below : index < 16
  external : index ≠ 2
deriving DecidableEq

namespace Pics

/-- `inb` on a data port, which reads the mask. -/
def inb (port : U16) (pics : Pics) : U8 :=
  if port = 0x21 then pics.master.imr else if port = 0xA1 then pics.slave.imr else 0

/-- `outb`; the other ports are not those of a controller. -/
def outb (pics : Pics) (port : U16) (value : U8) : Pics :=
  if port = 0x20 then { pics with master := pics.master.command value }
  else if port = 0x21 then { pics with master := pics.master.data value }
  else if port = 0xA0 then { pics with slave := pics.slave.command value }
  else if port = 0xA1 then { pics with slave := pics.slave.data value }
  else pics

/-- Port writes, one after the other. -/
def outAll (writes : List (U16 × U8)) (pics : Pics) : Pics :=
  writes.foldl (fun pics (port, value) => pics.outb port value) pics

/-- A device raises its line. -/
def raise (line : Line) (pics : Pics) : Pics :=
  if line.index < 8 then { pics with master := pics.master.raise line.index }
  else { pics with slave := pics.slave.raise (line.index - 8) }

/-- The first controller, with a request on line 2 as long as the second one offers one. -/
def joined (pics : Pics) : Pic :=
  { pics.master with
    irr := if pics.slave.pending.isSome then setBit pics.master.irr 2
      else clearBit pics.master.irr 2 }

/-- The processor accepts an interrupt: its vector. On a line that leads to the second
controller, that one answers. -/
def acknowledge (pics : Pics) : Option U8 × Pics :=
  match pics.joined.pending with
  | none => (none, pics)
  | some line =>
      if pics.master.cascade.getLsbD line then
        match pics.slave.pending with
        | some other =>
            (some (pics.slave.offset + BitVec.ofNat 8 other),
              { master := pics.master.accept line, slave := pics.slave.accept other })
        | none => (none, pics)
      else
        (some (pics.master.offset + BitVec.ofNat 8 line),
          { pics with master := pics.master.accept line })

end Pics

/-! ### The drivers -/

/-- `pic_init`, without its message. -/
def picInit (pics : Pics) : Pics :=
  let mask1 := pics.inb 0x21
  let mask2 := pics.inb 0xA1
  pics.outAll
    [(0x20, 0x11), (0x80, 0), (0xA0, 0x11), (0x80, 0), (0x21, 0x20), (0x80, 0), (0xA1, 0x28),
      (0x80, 0), (0x21, 0x04), (0x80, 0), (0xA1, 0x02), (0x80, 0), (0x21, 0x01), (0x80, 0),
      (0xA1, 0x01), (0x80, 0), (0x21, mask1), (0xA1, mask2)]

/-- The mask of the first controller, as `pic.zig` sets it. -/
def setMasterMask (mask : U8) (pics : Pics) : Pics := pics.outb 0x21 mask

/-- The mask of the second. -/
def setSlaveMask (mask : U8) (pics : Pics) : Pics := pics.outb 0xA1 mask

/-- The end of an interrupt of the first controller. -/
def eoiMaster (pics : Pics) : Pics := pics.outb 0x20 0x20

/-- The end of an interrupt of the second goes to both. -/
def eoiSlave (pics : Pics) : Pics := (pics.outb 0xA0 0x20).outb 0x20 0x20

/-- What the handler behind a stub tells the controllers; the handlers of the exceptions and
of the system call tell them nothing. -/
def Stub.acknowledges : Stub → Pics → Pics
  | .irqMaster | .irqTimer | .irqKeyboard => eoiMaster
  | .irqSlave => eoiSlave
  | _ => id

/-- The processor takes an interrupt, if there is one, and runs the handler that the table
gives its vector to the end: interrupts are off until then. -/
def serve (pics : Pics) : Option U8 × Pics :=
  match pics.acknowledge with
  | (none, same) => (none, same)
  | (some vector, accepted) =>
      (some vector, (stubOf vector).elim accepted fun stub => stub.acknowledges accepted)

/-! ### Lines as latches -/

/-- Requests on the lines, and the lines that are masked. -/
structure Latches where
  latched : Nat → Bool
  masked : Nat → Bool

namespace Latches

/-- The lines in the order in which they are served: those of the second controller stand in
the place of line 2. -/
def priority : List Nat :=
  (List.range 8).flatMap fun line => if line = 2 then (List.range 8).map (8 + ·) else [line]

/-- A request that may be served. -/
def isOpen (latches : Latches) (line : Nat) : Bool := latches.latched line && !latches.masked line

def raise (line : Nat) (latches : Latches) : Latches :=
  { latches with latched := Function.update latches.latched line true }

/-- The first request that may be served is served, and gone. -/
def serve (latches : Latches) : Option Nat × Latches :=
  match priority.find? latches.isOpen with
  | none => (none, latches)
  | some line =>
      (some line, { latches with latched := Function.update latches.latched line false })

end Latches

/-- The vector of a line. -/
def vectorOf (line : Nat) : U8 := 0x20 + BitVec.ofNat 8 line

/-- The latches of a pair; masking line 2 masks the second controller. -/
def latchesOf (pics : Pics) : Latches where
  latched := fun line =>
    if line < 8 then pics.master.irr.getLsbD line else pics.slave.irr.getLsbD (line - 8)
  masked := fun line =>
    if line < 8 then pics.master.imr.getLsbD line
    else pics.slave.imr.getLsbD (line - 8) || pics.master.imr.getLsbD 2

/-- A controller that has its initialization words and has nothing in service. -/
structure Pic.Ready (offset cascade : U8) (pic : Pic) : Prop where
  offset_eq : pic.offset = offset
  cascade_eq : pic.cascade = cascade
  icw4_eq : pic.icw4 = 0x01
  expecting_eq : pic.expecting = .nothing
  isr_eq : pic.isr = 0

/-- The pair between two interrupts. -/
structure Programmed (pics : Pics) : Prop where
  master : pics.master.Ready 0x20 0x04
  slave : pics.slave.Ready 0x28 0x02
  joint : pics.master.irr.getLsbD 2 = false

/-- The registers after programming; the masks are restored. -/
theorem picInit_eq (pics : Pics) :
    picInit pics =
      { master :=
          { irr := 0, isr := 0, imr := pics.master.imr, icw1 := 0x11, offset := 0x20,
            cascade := 0x04, icw4 := 0x01, expecting := .nothing }
        slave :=
          { irr := 0, isr := 0, imr := pics.slave.imr, icw1 := 0x11, offset := 0x28,
            cascade := 0x02, icw4 := 0x01, expecting := .nothing } } := by
  simp [picInit, Pics.outAll, Pics.outb, Pics.inb, Pic.command, Pic.data, Pic.afterCascade]

/-- From any state, also in the middle of an initialization, `pic_init` programs the pair. -/
theorem programmed_picInit (pics : Pics) : Programmed (picInit pics) := by
  rw [picInit_eq]
  exact ⟨⟨rfl, rfl, rfl, rfl, rfl⟩, ⟨rfl, rfl, rfl, rfl, rfl⟩, BitVec.getLsbD_zero⟩

/-! ### Bits of a register -/

/-- The bits of a register with one set. -/
theorem getLsbD_setBit (register : U8) {line : Nat} (below : line < 8) (other : Nat) :
    (setBit register line).getLsbD other = (register.getLsbD other || decide (other = line)) := by
  unfold setBit
  rw [BitVec.getLsbD_or, BitVec.getLsbD_twoPow, decide_eq_true below, Bool.true_and]
  simp only [eq_comm]

/-- The bits of a register with one cleared. -/
theorem getLsbD_clearBit (register : U8) (line other : Nat) :
    (clearBit register line).getLsbD other = (register.getLsbD other && decide (other ≠ line)) := by
  unfold clearBit
  by_cases below : other < 8
  · rw [BitVec.getLsbD_and, BitVec.getLsbD_not, BitVec.getLsbD_twoPow, decide_eq_true below,
      Bool.true_and]
    by_cases same : line = other
    · simp [same, below]
    · simp [same, Ne.symm same]
  · have beyond : 8 ≤ other := Nat.le_of_not_lt below
    rw [BitVec.getLsbD_of_ge _ _ beyond, BitVec.getLsbD_of_ge _ _ beyond, Bool.false_and]

namespace Pic.Ready

variable {offset cascade : U8} {pic : Pic}

/-- With nothing in service every request that is not masked is offered. -/
theorem offers_eq (ready : pic.Ready offset cascade) (line : Nat) :
    pic.offers line = (pic.irr.getLsbD line && !pic.imr.getLsbD line) := by
  unfold Pic.offers
  rw [ready.isr_eq]
  simp

/-- An accepted request is the only one in service, and acknowledging it ends it. -/
theorem command_accept (ready : pic.Ready offset cascade) {line : Nat} (below : line < 8) :
    (pic.accept line).command 0x20 = { pic with irr := clearBit pic.irr line } := by
  have serving : (pic.accept line).isr = setBit 0 line := by
    unfold Pic.accept
    rw [ready.icw4_eq, ready.isr_eq]
    rfl
  have only : ∀ line < 8, ((List.range 8).find? fun other => (setBit 0 line).getLsbD other) =
      some line ∧ clearBit (setBit 0 line) line = 0 := by decide
  obtain ⟨first, done⟩ := only line below
  unfold Pic.command
  rw [if_neg (by decide), if_pos rfl, serving, first]
  change ({ pic with irr := _, isr := clearBit (setBit 0 line) line } : Pic) = _
  rw [done, ← ready.isr_eq]
  rfl

end Pic.Ready

/-! ### Serving a line -/

/-- The first result of a search is the value of the first element that has one. -/
theorem findSome?_eq_bind {Item Value : Type} {find value : Item → Option Value}
    {has : Item → Bool} {items : List Item}
    (hit : ∀ item ∈ items, has item = true → find item = value item ∧ (value item).isSome)
    (miss : ∀ item ∈ items, has item = false → find item = none) :
    items.findSome? find = (items.find? has).bind value := by
  induction items with
  | nil => rfl
  | cons item rest ih =>
      cases here : has item with
      | true =>
          obtain ⟨same, found⟩ := hit item List.mem_cons_self here
          obtain ⟨result, value_eq⟩ := Option.isSome_iff_exists.mp found
          rw [List.findSome?_cons, same, value_eq, List.find?_cons_of_pos here, Option.bind_some,
            value_eq]
      | false =>
          rw [List.findSome?_cons, miss item List.mem_cons_self here,
            List.find?_cons_of_neg (by simp [here])]
          exact ih (fun other member => hit other (List.mem_cons_of_mem item member))
            (fun other member => miss other (List.mem_cons_of_mem item member))

/-- What a line of the first controller stands for: itself, or the request that the second
controller offers. -/
def offered (pics : Pics) (line : Nat) : Option Nat :=
  if line = 2 then pics.slave.pending.map (8 + ·) else some line

/-- Line 2 is offered when the second controller offers something and it is not masked; the
other lines are those of the first controller. -/
theorem joined_offers {pics : Pics} (programmed : Programmed pics) (line : Nat) :
    pics.joined.offers line =
      ((if line = 2 then pics.slave.pending.isSome else pics.master.irr.getLsbD line) &&
        !pics.master.imr.getLsbD line) := by
  have ready : pics.joined.Ready 0x20 0x04 :=
    ⟨programmed.master.offset_eq, programmed.master.cascade_eq, programmed.master.icw4_eq,
      programmed.master.expecting_eq, programmed.master.isr_eq⟩
  rw [ready.offers_eq]
  have joint : pics.joined.irr.getLsbD line =
      if line = 2 then pics.slave.pending.isSome else pics.master.irr.getLsbD line := by
    unfold Pics.joined
    cases pics.slave.pending with
    | none =>
        rw [Option.isSome_none, if_neg Bool.false_ne_true, getLsbD_clearBit]
        split_ifs with second <;> simp [second]
    | some _ =>
        rw [Option.isSome_some, if_pos rfl, getLsbD_setBit _ (by decide)]
        split_ifs with second <;> simp [second]
  rw [joint]
  rfl

/-- A line of the first controller is open when it is requested and not masked. -/
theorem isOpen_first (pics : Pics) {line : Nat} (first : line < 8) :
    (latchesOf pics).isOpen line =
      (pics.master.irr.getLsbD line && !pics.master.imr.getLsbD line) := by
  simp only [Latches.isOpen, latchesOf, if_pos first]

/-- The requests of the second controller pass line 2. -/
theorem isOpen_second {pics : Pics} (programmed : Programmed pics) (line : Nat) :
    (latchesOf pics).isOpen (8 + line) =
      (pics.slave.offers line && !pics.master.imr.getLsbD 2) := by
  have second : ¬ 8 + line < 8 := Nat.not_lt.mpr (Nat.le_add_right 8 line)
  simp only [Latches.isOpen, latchesOf, if_neg second, Nat.add_sub_cancel_left,
    programmed.slave.offers_eq, Bool.not_or, Bool.and_assoc]

/-- The first request of the second controller, unless line 2 is masked. -/
theorem find?_second {pics : Pics} (programmed : Programmed pics) :
    ((List.range 8).map (8 + ·)).find? (latchesOf pics).isOpen =
      if pics.master.imr.getLsbD 2 then none else pics.slave.pending.map (8 + ·) := by
  rw [List.find?_map]
  cases masked : pics.master.imr.getLsbD 2 with
  | true =>
      rw [if_pos rfl, List.find?_eq_none.mpr, Option.map_none]
      intro line _
      simp only [Function.comp_apply, isOpen_second programmed, masked, Bool.not_true,
        Bool.and_false, Bool.false_eq_true, not_false_eq_true]
  | false =>
      rw [if_neg Bool.false_ne_true]
      congr 2
      funext line
      simp only [Function.comp_apply, isOpen_second programmed, masked, Bool.not_false,
        Bool.and_true]

/-- The latches are searched in the order in which the pair offers them. -/
theorem find?_priority {pics : Pics} (programmed : Programmed pics) :
    Latches.priority.find? (latchesOf pics).isOpen = pics.joined.pending.bind (offered pics) := by
  rw [Latches.priority, List.find?_flatMap]
  refine findSome?_eq_bind (fun line member has => ?_) fun line member idle => ?_
  · rw [joined_offers programmed, Bool.and_eq_true] at has
    obtain ⟨requested, unmasked⟩ := has
    by_cases second : line = 2
    · subst second
      rw [if_pos rfl] at requested
      rw [Bool.not_eq_true'] at unmasked
      rw [if_pos rfl, find?_second programmed, unmasked, if_neg Bool.false_ne_true,
        offered, if_pos rfl, Option.isSome_map]
      exact ⟨rfl, requested⟩
    · rw [if_neg second] at requested
      rw [if_neg second, offered, if_neg second]
      refine ⟨List.find?_cons_of_pos ?_, rfl⟩
      rw [isOpen_first pics (List.mem_range.mp member), requested, unmasked]
      rfl
  · rw [joined_offers programmed] at idle
    by_cases second : line = 2
    · subst second
      rw [if_pos rfl] at idle ⊢
      rw [find?_second programmed]
      cases masked : pics.master.imr.getLsbD 2 with
      | true => rfl
      | false =>
          rw [masked, Bool.not_false, Bool.and_true] at idle
          rw [if_neg Bool.false_ne_true, Option.map_eq_none_iff]
          exact Option.isNone_iff_eq_none.mp (by rw [← Option.not_isSome, idle]; rfl)
    · rw [if_neg second] at idle ⊢
      refine List.find?_cons_of_neg ?_
      rw [isOpen_first pics (List.mem_range.mp member), idle]
      exact Bool.false_ne_true

/-- The pair once a request has been served: it is latched no more. -/
def Pics.served (line : Nat) (pics : Pics) : Pics :=
  if line < 8 then { pics with master.irr := clearBit pics.master.irr line }
  else
    { master := { pics.master with irr := clearBit pics.master.irr 2 }
      slave := { pics.slave with irr := clearBit pics.slave.irr (line - 8) } }

/-- A controller has eight lines. -/
theorem pending_lt {pic : Pic} {line : Nat} (pending : pic.pending = some line) : line < 8 :=
  List.mem_range.mp (List.mem_of_find?_eq_some pending)

/-- The vectors of the first controller are answered by handlers that acknowledge it, and
those of the second one by handlers that acknowledge both. -/
theorem stubOf_vectorOf : ∀ line < 16, ∃ stub, stubOf (vectorOf line) = some stub ∧
    stub.acknowledges = if line < 8 then eoiMaster else eoiSlave := by
  have cases : ∀ line < 16, stubOf (vectorOf line) = some .irqTimer ∧ line < 8 ∨
      stubOf (vectorOf line) = some .irqKeyboard ∧ line < 8 ∨
      stubOf (vectorOf line) = some .irqMaster ∧ line < 8 ∨
      stubOf (vectorOf line) = some .irqSlave ∧ ¬ line < 8 := by decide
  intro line below
  rcases cases line below with ⟨found, first⟩ | ⟨found, first⟩ | ⟨found, first⟩ | ⟨found, second⟩
  · exact ⟨_, found, by rw [if_pos first]; rfl⟩
  · exact ⟨_, found, by rw [if_pos first]; rfl⟩
  · exact ⟨_, found, by rw [if_pos first]; rfl⟩
  · exact ⟨_, found, by rw [if_neg second]; rfl⟩

/-- An end of interrupt is a command to the first controller. -/
theorem eoiMaster_eq (pics : Pics) :
    eoiMaster pics = { pics with master := pics.master.command 0x20 } := rfl

/-- For the second it is one to each. -/
theorem eoiSlave_eq (pics : Pics) :
    eoiSlave pics = { master := pics.master.command 0x20, slave := pics.slave.command 0x20 } := rfl

/-- Serving hands the processor the vector of the first latch that is open, and leaves
nothing in service. -/
theorem serve_eq {pics : Pics} (programmed : Programmed pics) :
    serve pics =
      match Latches.priority.find? (latchesOf pics).isOpen with
      | none => (none, pics)
      | some line => (some (vectorOf line), pics.served line) := by
  rw [find?_priority programmed]
  cases joined : pics.joined.pending with
  | none =>
      rw [serve, Pics.acknowledge, joined]
      rfl
  | some line =>
      have below := pending_lt joined
      rw [Option.bind_some, offered, serve, Pics.acknowledge, joined]
      simp only [programmed.master.cascade_eq]
      by_cases second : line = 2
      · subst second
        have offers := List.find?_some joined
        rw [joined_offers programmed, if_pos rfl, Bool.and_eq_true] at offers
        obtain ⟨other, found⟩ := Option.isSome_iff_exists.mp offers.1
        have inside : 8 + other < 16 := Nat.add_lt_add_left (pending_lt found) 8
        have vector : pics.slave.offset + BitVec.ofNat 8 other = vectorOf (8 + other) := by
          rw [programmed.slave.offset_eq, vectorOf]
          bv_omega
        obtain ⟨stub, answered, acknowledges⟩ := stubOf_vectorOf (8 + other) inside
        rw [if_neg (Nat.not_lt.mpr (Nat.le_add_right 8 other))] at acknowledges
        rw [if_pos (by decide), if_pos rfl, found]
        simp only [vector, answered, Option.elim_some, acknowledges, Option.map_some, eoiSlave_eq,
          programmed.master.command_accept below,
          programmed.slave.command_accept (pending_lt found), Pics.served,
          if_neg (Nat.not_lt.mpr (Nat.le_add_right 8 other)), Nat.add_sub_cancel_left]
      · have alone : ∀ line < 8, line ≠ 2 → ¬ (0x04 : U8).getLsbD line = true := by decide
        have vector : pics.master.offset + BitVec.ofNat 8 line = vectorOf line := by
          rw [programmed.master.offset_eq, vectorOf]
        obtain ⟨stub, answered, acknowledges⟩ :=
          stubOf_vectorOf line (Nat.lt_of_lt_of_le below (by decide))
        rw [if_pos below] at acknowledges
        rw [if_neg (alone line below second), if_neg second]
        simp only [vector, answered, Option.elim_some, acknowledges, eoiMaster_eq,
          programmed.master.command_accept below, Pics.served, if_pos below]

/-! ### Runs -/

/-- A device raises a line, or the processor takes an interrupt. -/
inductive LineEvent where
  | raise (line : Line)
  | serve
deriving DecidableEq

/-- The pair, with the vectors handed to the processor so far. -/
structure Controllers where
  pics : Pics
  vectors : List U8

/-- The controllers under raised lines and served interrupts. -/
def controllers : System Controllers LineEvent where
  step := fun state event =>
    match event with
    | .raise line => { state with pics := state.pics.raise line }
    | .serve =>
        let (vector, pics) := serve state.pics
        { pics, vectors := state.vectors ++ vector.toList }

/-- The latches, with the lines served so far. -/
structure LatchService where
  latches : Latches
  lines : List Nat

/-- The latches under the same events. -/
def latchService : System LatchService LineEvent where
  step := fun state event =>
    match event with
    | .raise line => { state with latches := state.latches.raise line.index }
    | .serve =>
        let (line, latches) := state.latches.serve
        { latches, lines := state.lines ++ line.toList }

/-- A raised line is latched. -/
theorem latchesOf_raise (line : Line) (pics : Pics) :
    latchesOf (pics.raise line) = (latchesOf pics).raise line.index := by
  have inside := line.below
  unfold Pics.raise Latches.raise latchesOf
  by_cases first : line.index < 8
  · simp only [if_pos first, Pic.raise, getLsbD_setBit _ first, Latches.mk.injEq, and_true]
    funext other
    by_cases same : other = line.index
    · simp [same, first]
    · simp [same]
  · have second : line.index - 8 < 8 := by omega
    simp only [if_neg first, Pic.raise, getLsbD_setBit _ second, Latches.mk.injEq, and_true]
    funext other
    by_cases same : other = line.index
    · simp [same, first]
    · have apart : ¬ other < 8 → other - 8 ≠ line.index - 8 := by omega
      by_cases below : other < 8
      · simp [same, below]
      · simp [same, below, apart below]

/-- Raising a line changes no program. -/
theorem programmed_raise {pics : Pics} (programmed : Programmed pics) (line : Line) :
    Programmed (pics.raise line) := by
  obtain ⟨master, slave, joint⟩ := programmed
  unfold Pics.raise
  split_ifs with first
  · refine ⟨⟨master.1, master.2, master.3, master.4, master.5⟩, slave, ?_⟩
    change (setBit pics.master.irr line.index).getLsbD 2 = false
    rw [getLsbD_setBit _ first, joint, Bool.false_or, decide_eq_false (Ne.symm line.external)]
  · exact ⟨master, ⟨slave.1, slave.2, slave.3, slave.4, slave.5⟩, joint⟩

/-- A served line is no longer latched. -/
theorem latchesOf_served {pics : Pics} (programmed : Programmed pics) (line : Nat) :
    latchesOf (pics.served line) =
      { latchesOf pics with
        latched := Function.update (latchesOf pics).latched line false } := by
  unfold Pics.served latchesOf
  by_cases first : line < 8
  · simp only [if_pos first, getLsbD_clearBit, Latches.mk.injEq, and_true]
    funext other
    by_cases same : other = line
    · simp [same, first]
    · simp [same]
  · simp only [if_neg first, getLsbD_clearBit, Latches.mk.injEq, and_true]
    funext other
    by_cases same : other = line
    · simp [same, first]
    · rw [Function.update_of_ne same]
      by_cases below : other < 8
      · have joint : other = 2 → pics.master.irr.getLsbD other = false :=
          fun second => second ▸ programmed.joint
        by_cases second : other = 2
        · simp only [if_pos below, joint second, Bool.false_and]
        · simp [below, second]
      · have apart : other - 8 ≠ line - 8 := by omega
        simp [below, apart]

/-- After an interrupt has been served the controllers are as programmed. -/
theorem programmed_served {pics : Pics} (programmed : Programmed pics) (line : Nat) :
    Programmed (pics.served line) := by
  obtain ⟨master, slave, joint⟩ := programmed
  unfold Pics.served
  split_ifs with first
  · refine ⟨⟨master.1, master.2, master.3, master.4, master.5⟩, slave, ?_⟩
    change (clearBit pics.master.irr line).getLsbD 2 = false
    rw [getLsbD_clearBit, joint, Bool.false_and]
  · refine ⟨⟨master.1, master.2, master.3, master.4, master.5⟩,
      ⟨slave.1, slave.2, slave.3, slave.4, slave.5⟩, ?_⟩
    change (clearBit pics.master.irr 2).getLsbD 2 = false
    rw [getLsbD_clearBit, joint, Bool.false_and]

/-- The pair and the latches agree. -/
structure Agree (state : Controllers) (spec : LatchService) : Prop where
  programmed : Programmed state.pics
  latches : latchesOf state.pics = spec.latches
  vectors : state.vectors = spec.lines.map vectorOf

/-- One event keeps controllers and latches in agreement. -/
theorem agree_step {state : Controllers} {spec : LatchService} (agree : Agree state spec)
    (event : LineEvent) : Agree (controllers.step state event) (latchService.step spec event) := by
  obtain ⟨programmed, latches, vectors⟩ := agree
  cases event with
  | raise line =>
      refine ⟨programmed_raise programmed line, ?_, vectors⟩
      change latchesOf (state.pics.raise line) = spec.latches.raise line.index
      rw [latchesOf_raise, latches]
  | serve =>
      simp only [controllers, latchService]
      rw [serve_eq programmed, Latches.serve, ← latches]
      cases found : Latches.priority.find? (latchesOf state.pics).isOpen with
      | none =>
          refine ⟨programmed, rfl, ?_⟩
          simpa using vectors
      | some line =>
          refine ⟨programmed_served programmed line, latchesOf_served programmed line, ?_⟩
          simp [vectors]

/-- Programming forgets what was latched and keeps the masks. -/
theorem latchesOf_picInit (pics : Pics) :
    latchesOf (picInit pics) =
      { latched := fun _ => false, masked := (latchesOf pics).masked } := by
  rw [picInit_eq]
  unfold latchesOf
  simp

/-- **The pair is a set of latches.** In every run of requests and interrupts after
`pic_init`, whatever state the controllers were in before, the vectors that the processor is
handed are those of a set of latches with the masks from before, the first open one in the
order of priority at each interrupt; nothing is in service between two interrupts. -/
theorem pics_serve_latches (pics : Pics) (events : List LineEvent) :
    Agree (controllers.run ⟨picInit pics, []⟩ events)
      (latchService.run ⟨⟨fun _ => false, (latchesOf pics).masked⟩, []⟩ events) := by
  have initial : Agree ⟨picInit pics, []⟩ ⟨⟨fun _ => false, (latchesOf pics).masked⟩, []⟩ :=
    ⟨programmed_picInit pics, latchesOf_picInit pics, rfl⟩
  suffices later : ∀ (state : Controllers) (spec : LatchService), Agree state spec →
      Agree (controllers.run state events) (latchService.run spec events) from later _ _ initial
  induction events with
  | nil => exact fun _ _ agree => agree
  | cons event rest ih => exact fun _ _ agree => ih _ _ (agree_step agree event)

/-! ### Every request is served -/

namespace Latches

variable (latches : Latches)

/-- The requests that may be served, the first one first. -/
def openLines : List Nat := priority.filter latches.isOpen

/-- The open lines are those latched and not masked. -/
theorem mem_openLines {line : Nat} (listed : line ∈ priority) :
    line ∈ latches.openLines ↔ latches.latched line = true ∧ latches.masked line = false := by
  unfold openLines isOpen
  simp [listed]

/-- The line served is the first open one. -/
theorem find?_eq_head : priority.find? latches.isOpen = latches.openLines.head? :=
  List.head?_filter.symm

/-- Serving takes the first request off the list. -/
theorem openLines_serve : latches.serve.2.openLines = latches.openLines.tail := by
  rw [serve, find?_eq_head]
  cases requests : latches.openLines with
  | nil => exact requests
  | cons line rest =>
      have distinct : (line :: rest).Nodup := requests ▸ (by decide : priority.Nodup).filter _
      have others : ({ latches with
          latched := Function.update latches.latched line false } : Latches).isOpen =
            fun other => decide (other ≠ line) && latches.isOpen other := by
        funext other
        by_cases same : other = line
        · simp [isOpen, same]
        · simp [isOpen, same]
      have without : rest.filter (fun other => decide (other ≠ line)) = rest :=
        List.filter_eq_self.mpr fun other member =>
          decide_eq_true fun same => (List.nodup_cons.mp distinct).1 (same ▸ member)
      change priority.filter ({ latches with
        latched := Function.update latches.latched line false } : Latches).isOpen = rest
      rw [others, ← List.filter_filter]
      change latches.openLines.filter _ = rest
      rw [requests, List.filter_cons_of_neg (by simp), without]

end Latches

/-- Interrupts that follow each other serve the requests in the order of the list. -/
theorem lines_serves (state : LatchService) (count : Nat) :
    (latchService.run state (List.replicate count .serve)).lines =
      state.lines ++ state.latches.openLines.take count := by
  induction count generalizing state with
  | zero => simp
  | succ count ih =>
      have first : state.latches.serve.1 = state.latches.openLines.head? := by
        rw [← Latches.find?_eq_head, Latches.serve]
        cases Latches.priority.find? state.latches.isOpen with
        | none => rfl
        | some _ => rfl
      rw [List.replicate_succ, System.run_cons, ih]
      change state.lines ++ state.latches.serve.1.toList ++
        state.latches.serve.2.openLines.take count = _
      rw [Latches.openLines_serve, first, List.append_assoc]
      congr 1
      cases state.latches.openLines with
      | nil => rw [List.tail_nil, List.take_nil, List.take_nil]; rfl
      | cons line rest => rfl

/-- Events keep the masks and only add to the lines served. -/
theorem step_served (state : LatchService) (event : LineEvent) :
    ∃ served : Option Nat, (latchService.step state event).lines = state.lines ++ served.toList ∧
      (latchService.step state event).latches.masked = state.latches.masked ∧
      ∀ line, state.latches.latched line = true →
        (latchService.step state event).latches.latched line = true ∨ served = some line := by
  cases event with
  | raise other =>
      refine ⟨none, (List.append_nil _).symm, rfl, fun line latched => .inl ?_⟩
      change Function.update state.latches.latched other.index true line = true
      by_cases same : line = other.index
      · rw [same, Function.update_self]
      · rw [Function.update_of_ne same, latched]
  | serve =>
      refine ⟨state.latches.serve.1, rfl, ?_⟩
      change state.latches.serve.2.masked = _ ∧ ∀ line, _ →
        state.latches.serve.2.latched line = true ∨ _
      rw [Latches.serve]
      cases Latches.priority.find? state.latches.isOpen with
      | none => exact ⟨rfl, fun line latched => .inl latched⟩
      | some first =>
          refine ⟨rfl, fun line latched => ?_⟩
          by_cases same : line = first
          · exact .inr (congrArg some same.symm)
          · exact .inl ((Function.update_of_ne same _ _).trans latched)

/-- In a run the masks stay, and a latched line stays latched until it is served. -/
theorem run_served (state : LatchService) (events : List LineEvent) :
    ∃ between, (latchService.run state events).lines = state.lines ++ between ∧
      (latchService.run state events).latches.masked = state.latches.masked ∧
      ∀ line, state.latches.latched line = true →
        (latchService.run state events).latches.latched line = true ∨ line ∈ between := by
  induction events generalizing state with
  | nil => exact ⟨[], (List.append_nil _).symm, rfl, fun _ latched => .inl latched⟩
  | cons event rest ih =>
      obtain ⟨served, lines, masked, kept⟩ := step_served state event
      obtain ⟨between, laterLines, laterMasked, laterKept⟩ := ih (latchService.step state event)
      refine ⟨served.toList ++ between, ?_, laterMasked.trans masked, fun line latched => ?_⟩
      · rw [System.run_cons, laterLines, lines, List.append_assoc]
      · rcases kept line latched with still | now
        · exact (laterKept line still).imp_right (List.mem_append_right _)
        · rw [now]
          exact .inr (List.mem_append_left _ List.mem_cons_self)

/-- No more than fifteen lines are open, as line 2 joins the controllers. -/
theorem length_openLines (latches : Latches) : latches.openLines.length ≤ 15 :=
  List.length_filter_le _ _

/-- Each of them has its priority. -/
theorem mem_priority (line : Line) : line.index ∈ Latches.priority := by
  have all : ∀ index < 16, index ≠ 2 → index ∈ Latches.priority := by decide
  exact all line.index line.below line.external

/-- **No request is lost.** However requests and interrupts go on after a line that is not
masked is raised: once no more requests come, its vector has been handed to the processor,
since it was raised, after fifteen interrupts at the latest. -/
theorem raised_line_served (pics : Pics) (earlier later : List LineEvent) (line : Line)
    (unmasked : (latchesOf pics).masked line.index = false) :
    ∃ between, (controllers.run ⟨picInit pics, []⟩
        (earlier ++ .raise line :: later ++ List.replicate 15 .serve)).vectors =
      (controllers.run ⟨picInit pics, []⟩ earlier).vectors ++ between ∧
        vectorOf line.index ∈ between := by
  have whole := (pics_serve_latches pics
    (earlier ++ .raise line :: later ++ List.replicate 15 .serve)).vectors
  have before := (pics_serve_latches pics earlier).vectors
  obtain ⟨_, -, masks, -⟩ :=
    run_served ⟨⟨fun _ => false, (latchesOf pics).masked⟩, []⟩ earlier
  rw [latchService.run_append, latchService.run_append, latchService.run_cons] at whole
  generalize latchService.run ⟨⟨fun _ => false, (latchesOf pics).masked⟩, []⟩ earlier = start
    at whole before masks
  have raised : (latchService.step start (.raise line)).latches.latched line.index = true :=
    Function.update_self _ _ _
  obtain ⟨between, lines, masked, kept⟩ :=
    run_served (latchService.step start (.raise line)) later
  generalize latchService.run (latchService.step start (.raise line)) later = middle
    at whole lines masked kept
  refine ⟨(between ++ middle.latches.openLines.take 15).map vectorOf, ?_, ?_⟩
  · rw [whole, before, lines_serves, lines, ← List.map_append, List.append_assoc]
    rfl
  · refine List.mem_map_of_mem ?_
    rcases kept line.index raised with still | served
    · refine List.mem_append_right _ ?_
      rw [List.take_of_length_le (length_openLines _), Latches.mem_openLines _ (mem_priority line)]
      refine ⟨still, ?_⟩
      rw [masked]
      exact (congrFun masks line.index).trans unmasked
    · exact List.mem_append_left _ served

/-- The keyboard line. -/
def keyboardLine : Line := ⟨1, by decide, by decide⟩

/-- Controllers that have not been programmed, with only the keyboard line unmasked. -/
def unprogrammed : Pics where
  master :=
    { irr := 0, isr := 0, imr := 0xFD, icw1 := 0, offset := 0, cascade := 0, icw4 := 0,
      expecting := .nothing }
  slave :=
    { irr := 0, isr := 0, imr := 0xFF, icw1 := 0, offset := 0, cascade := 0, icw4 := 0,
      expecting := .nothing }

theorem raised_line_served_keyboard :
    ∃ between, (controllers.run ⟨picInit unprogrammed, []⟩
        ([] ++ .raise keyboardLine :: [] ++ List.replicate 15 .serve)).vectors =
      (controllers.run ⟨picInit unprogrammed, []⟩ []).vectors ++ between ∧
        vectorOf keyboardLine.index ∈ between :=
  raised_line_served unprogrammed [] [] keyboardLine (by decide)

end Lofita.Interrupts
