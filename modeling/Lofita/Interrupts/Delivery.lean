import Lofita.Interrupts.Controller
import Lofita.Interrupts.Frames
import Lofita.Kernel.Tick
import Lofita.Keyboard.Scancodes

/-! # Interrupts of the booted kernel

The controllers, the descriptor tables, the stubs and the handlers together, as `kernel_main`
leaves them: `keyboard_init` masks every line but that of the keyboard after `pic_init`, and
nothing unmasks another one. In every run of requests and interrupts the kernel handles each
keyboard request once, in order, and never ticks (`keyboard_only`): the timer line that the
table leads to `rust_kernel_tick` stays masked, so that no thread is ever scheduled by it.
-/

namespace Lofita.Interrupts

open Lofita.Foundation Lofita.Kernel Lofita.Keyboard

/-- The code of the stub whose operand is the address of a handler. -/
def Stub.instrs (stub : Stub) (operand : Operand) (handlerFn : U64) : List Instr :=
  if stub.expectsErrorCode then isrStubWithErr operand handlerFn
  else isrStubNoErr operand handlerFn

/-- The stubs and their handlers in memory: their addresses, the stub found at an address, and
the register that the stubs take for their operand. -/
structure Image where
  operand : Operand
  address : Stub → U64
  handler : Stub → U64
  code : U64 → Option Stub
  placed : ∀ stub, code (address stub) = some stub

/-- The stub that the processor enters at a vector: what is at the address in the gate, if the
gate is present and its selector names a segment for interrupts. -/
def Image.enter (image : Image) (vector : U8) : Option Stub :=
  let gate := readGate (idtInit image.address vector).bits
  if gate.present && (segmentOf gate.selector).any Segment.takesInterrupts then
    image.code gate.offset
  else none

theorem Image.enter_eq (image : Image) (vector : U8) : image.enter vector = stubOf vector := by
  unfold Image.enter
  rw [gates_lead_to_stubs]
  simp only [takesInterrupts_kernelCodeSel, Bool.and_true]
  cases stubOf vector with
  | none => rfl
  | some stub => exact image.placed stub

/-- The stub entered at a vector is the one for what the processor pushes there. -/
theorem Image.instrs_of_enter (image : Image) {vector : U8} {stub : Stub}
    (enters : image.enter vector = some stub) {errorCode : Option U64}
    (pushed : errorCode.isSome = pushesErrorCode vector) (handlerFn : U64) :
    stub.instrs image.operand handlerFn = stubFor image.operand handlerFn errorCode := by
  rw [image.enter_eq] at enters
  have expects := expectsErrorCode_eq vector stub enters
  unfold Stub.instrs
  rw [expects, ← pushed]
  cases errorCode <;> rfl

/-- The stubs and handlers in the kernel on `lofita.iso`. -/
def shippedImage : Image where
  operand := .rax
  address
    | .divZero => 0x108BC0
    | .invalidOpcode => 0x108B70
    | .doubleFault => 0x108670
    | .gpf => 0x108620
    | .pageFault => 0x107D20
    | .syscallInt80 => 0x107CD0
    | .irqMaster => 0x1079C0
    | .irqSlave => 0x107950
    | .irqTimer => 0x107C10
    | .irqKeyboard => 0x107A20
  handler
    | .divZero => 0x108DD0
    | .invalidOpcode => 0x108C10
    | .doubleFault => 0x108960
    | .gpf => 0x1086C0
    | .pageFault => 0x107DB0
    | .syscallInt80 => 0x107D70
    | .irqMaster => 0x107A10
    | .irqSlave => 0x1079A0
    | .irqTimer => 0x107C60
    | .irqKeyboard => 0x107A70
  code address :=
    [(0x108BC0, Stub.divZero), (0x108B70, .invalidOpcode), (0x108670, .doubleFault),
      (0x108620, .gpf), (0x107D20, .pageFault), (0x107CD0, .syscallInt80),
      (0x1079C0, .irqMaster), (0x107950, .irqSlave), (0x107C10, .irqTimer),
      (0x107A20, .irqKeyboard)].lookup address
  placed stub := by cases stub <;> decide

/-- The frame that a stub hands to its handler, without an error code. -/
def Image.frameFor (image : Image) (stub : Stub) (cpu : Cpu) : TrapFrame :=
  (cpu.load image.operand.reg (image.handler stub)).frame 0

/-- What the interrupt handlers work on. -/
structure Machine where
  pics : Pics
  keyboard : KeyboardState
  kernel : KernelState

/-- The handler of a line behind a stub, with the byte that the keyboard controller holds;
the last component is the frame that it leaves. -/
def handleIrq (scancode : U8) (frame : TrapFrame) (machine : Machine) :
    Stub → Machine × TrapFrame
  | .irqTimer =>
      let reply := machine.kernel.tick (some frame)
      ({ machine with kernel := reply.state, pics := eoiMaster machine.pics },
        reply.value.frame.getD frame)
  | .irqKeyboard =>
      ({ machine with
          keyboard := handleKeyboardInterrupt scancode machine.keyboard
          pics := eoiMaster machine.pics }, frame)
  | .irqMaster => ({ machine with pics := eoiMaster machine.pics }, frame)
  | .irqSlave => ({ machine with pics := eoiSlave machine.pics }, frame)
  -- The other stubs answer exceptions and the system call.
  | _ => (machine, frame)

/-- A device raises a line, or the processor takes an interrupt in some context, when the
keyboard controller holds some byte. -/
inductive MachineEvent where
  | raise (line : Line)
  | interrupt (scancode : U8) (cpu : Cpu)

/-- Take an interrupt, if there is one: the frame that the interrupted code goes on with. -/
def Machine.interrupt (image : Image) (scancode : U8) (cpu : Cpu) (machine : Machine) :
    Machine × TrapFrame :=
  match machine.pics.acknowledge with
  | (none, _) => (machine, cpu.frame 0)
  | (some vector, pics) =>
      (image.enter vector).elim ({ machine with pics }, cpu.frame 0) fun stub =>
        handleIrq scancode (image.frameFor stub cpu) { machine with pics } stub

/-- **The stub of a vector** around compiled code that does to the frame what the handler does
leaves the processor in the context of the frame that the handler leaves. -/
theorem run_instrs_of_enter (image : Image) {vector : U8} {stub : Stub}
    (enters : image.enter vector = some stub) (noErrorCode : pushesErrorCode vector = false)
    {handler : Handler} (isHandler : handler.address = image.handler stub) {scancode : U8}
    {machine : Machine}
    (handles : ∀ frame, handler.body frame = (handleIrq scancode frame machine stub).2)
    (top : U64) (cpu : Cpu) :
    ∃ memory, (stubRun handler).run (cpu.deliver top none)
        (stub.instrs image.operand handler.address) =
      Cpu.ofFrame (handleIrq scancode (image.frameFor stub cpu) machine stub).2 memory := by
  obtain ⟨-, -, returned⟩ := interrupt_returns image.operand handler top none cpu
  have none_pushed : (none : Option U64).isSome = pushesErrorCode vector := noErrorCode.symm
  rw [image.instrs_of_enter enters none_pushed, ← handles, Image.frameFor, ← isHandler]
  exact ⟨_, returned⟩

def hardware (image : Image) : System Machine MachineEvent where
  step := fun machine event =>
    match event with
    | .raise line => { machine with pics := machine.pics.raise line }
    | .interrupt scancode cpu => (machine.interrupt image scancode cpu).1

/-- The end of `kernel_main`: the controllers are programmed, then the keyboard is initialized,
which sets both masks. -/
def boot (pics : Pics) (keyboard : KeyboardState) (kernel : KernelState) : Machine where
  pics := setSlaveMask 0xFF (setMasterMask 0xFD (picInit pics))
  keyboard := keyboardInit keyboard
  kernel := kernel

/-- The bytes that are handled: one for each interrupt that comes after a keyboard request
not handled yet. -/
def handledBytes : Bool → List MachineEvent → List U8
  | _, [] => []
  | waiting, .raise line :: rest => handledBytes (waiting || line.index = 1) rest
  | true, .interrupt scancode _ :: rest => scancode :: handledBytes false rest
  | false, .interrupt _ _ :: rest => handledBytes false rest

/-- Only the keyboard line is open. -/
structure KeyboardOnly (pics : Pics) : Prop where
  programmed : Programmed pics
  master_imr : pics.master.imr = 0xFD
  slave_imr : pics.slave.imr = 0xFF

theorem keyboardOnly_boot (pics : Pics) (keyboard : KeyboardState) (kernel : KernelState) :
    KeyboardOnly (boot pics keyboard kernel).pics := by
  unfold boot
  rw [picInit_eq]
  exact ⟨⟨⟨rfl, rfl, rfl, rfl, rfl⟩, ⟨rfl, rfl, rfl, rfl, rfl⟩, BitVec.getLsbD_zero⟩, rfl, rfl⟩

/-- The keyboard line has a request that has not been handled. -/
def waiting (pics : Pics) : Bool := pics.master.irr.getLsbD 1

/-- With the other lines masked, the first open request can only be that of the keyboard. -/
theorem KeyboardOnly.find? {pics : Pics} (only : KeyboardOnly pics) :
    Latches.priority.find? (latchesOf pics).isOpen = if waiting pics then some 1 else none := by
  have masked : ∀ line ∈ Latches.priority, line ≠ 1 →
      (if line < 8 then (0xFD : U8).getLsbD line
        else (0xFF : U8).getLsbD (line - 8) || (0xFD : U8).getLsbD 2) = true := by decide
  have isOpen : ∀ line ∈ Latches.priority,
      (latchesOf pics).isOpen line = (waiting pics && decide (line = 1)) := by
    intro line listed
    by_cases keyboard : line = 1
    · subst keyboard
      rw [isOpen_first pics (by decide), only.master_imr, decide_eq_true rfl, Bool.and_true]
      exact Bool.and_true _
    · have closed : (latchesOf pics).masked line = true := by
        simp only [latchesOf, only.master_imr, only.slave_imr]
        exact masked line listed keyboard
      rw [Latches.isOpen, closed, decide_eq_false keyboard, Bool.not_true, Bool.and_false,
        Bool.and_false]
  rw [← List.head?_filter, List.filter_congr isOpen]
  cases waiting pics <;> decide

/-- An interrupt of the booted kernel is a keyboard interrupt, or none. -/
theorem interrupt_eq_keyboard (image : Image) (scancode : U8) (cpu : Cpu)
    {machine : Machine} (only : KeyboardOnly machine.pics) :
    machine.interrupt image scancode cpu =
      if waiting machine.pics then
        ({ machine with
            keyboard := handleKeyboardInterrupt scancode machine.keyboard
            pics := machine.pics.served 1 },
          image.frameFor .irqKeyboard cpu)
      else (machine, cpu.frame 0) := by
  have served := serve_eq only.programmed
  rw [only.find?, serve] at served
  unfold Machine.interrupt
  rcases accepted : machine.pics.acknowledge with ⟨_ | vector, pics⟩
  · rw [accepted] at served
    split_ifs at served ⊢ with requested
    · exact absurd (congrArg Prod.fst served) (by simp)
    · rfl
  · rw [accepted] at served
    split_ifs at served ⊢ with requested
    · obtain ⟨same, after⟩ := Prod.mk.inj served
      have keyboard : stubOf vector = some .irqKeyboard := by
        rw [Option.some.inj same]
        decide
      rw [keyboard] at after
      simp only [Image.enter_eq, keyboard, Option.elim_some, handleIrq]
      rw [← after]
      rfl
    · exact absurd (congrArg Prod.fst served) (by simp)

/-! ### Runs of the booted kernel -/

theorem waiting_raise (line : Line) (pics : Pics) :
    waiting (pics.raise line) = (waiting pics || decide (line.index = 1)) := by
  unfold waiting Pics.raise
  by_cases first : line.index < 8
  · rw [if_pos first]
    change (setBit pics.master.irr line.index).getLsbD 1 = _
    rw [getLsbD_setBit _ first]
    simp only [eq_comm]
  · rw [if_neg first, decide_eq_false (by omega), Bool.or_false]

theorem waiting_served (pics : Pics) : waiting (pics.served 1) = false := by
  change (clearBit pics.master.irr 1).getLsbD 1 = false
  rw [getLsbD_clearBit]
  simp

theorem KeyboardOnly.raise {pics : Pics} (only : KeyboardOnly pics) (line : Line) :
    KeyboardOnly (pics.raise line) := by
  refine ⟨programmed_raise only.programmed line, ?_, ?_⟩
  · unfold Pics.raise
    split_ifs <;> exact only.master_imr
  · unfold Pics.raise
    split_ifs <;> exact only.slave_imr

theorem KeyboardOnly.served {pics : Pics} (only : KeyboardOnly pics) :
    KeyboardOnly (pics.served 1) :=
  ⟨programmed_served only.programmed 1, only.master_imr, only.slave_imr⟩

/-- The interrupted code goes on in the context it was interrupted in, but for the register of
the operand, which holds the address of the keyboard's handler if there was an interrupt. -/
def GoesOn (image : Image) (machine : Machine) : MachineEvent → Prop
  | .raise _ => True
  | .interrupt scancode cpu =>
      (machine.interrupt image scancode cpu).2 =
        if waiting machine.pics then image.frameFor .irqKeyboard cpu else cpu.frame 0

/-- **Only the keyboard interrupts.** In every run of requests and interrupts of the booted
kernel, whatever the controllers held before and wherever the stubs lie, the kernel state
never changes, the keyboard driver handles one byte for each request of its line that an
interrupt follows, and every interrupted context goes on as it was but for one register. -/
theorem keyboard_only (image : Image) (pics : Pics) (keyboard : KeyboardState)
    (kernel : KernelState) (events : List MachineEvent) :
    let last := (hardware image).run (boot pics keyboard kernel) events
    last.kernel = kernel ∧
      last.keyboard = interrupts.run (keyboardInit keyboard) (handledBytes false events) ∧
      (hardware image).Along (GoesOn image) (boot pics keyboard kernel) events := by
  suffices later : ∀ machine : Machine, KeyboardOnly machine.pics →
      ((hardware image).run machine events).kernel = machine.kernel ∧
      ((hardware image).run machine events).keyboard =
        interrupts.run machine.keyboard (handledBytes (waiting machine.pics) events) ∧
      (hardware image).Along (GoesOn image) machine events by
    have quiet : waiting (boot pics keyboard kernel).pics = false := by
      unfold boot
      rw [picInit_eq]
      exact BitVec.getLsbD_zero
    have start := later (boot pics keyboard kernel) (keyboardOnly_boot pics keyboard kernel)
    rwa [quiet] at start
  induction events with
  | nil => exact fun _ _ => ⟨rfl, rfl, trivial⟩
  | cons event rest ih =>
      intro machine only
      cases event with
      | raise line =>
          have next := ih { machine with pics := machine.pics.raise line } (only.raise line)
          simp only [waiting_raise] at next
          exact ⟨next.1, next.2.1, trivial, next.2.2⟩
      | interrupt scancode cpu =>
          have step := interrupt_eq_keyboard image scancode cpu only
          have kept : GoesOn image machine (.interrupt scancode cpu) := by
            rw [GoesOn, step]
            split_ifs <;> rfl
          change ((hardware image).run (machine.interrupt image scancode cpu).1 rest).kernel = _ ∧
            ((hardware image).run (machine.interrupt image scancode cpu).1 rest).keyboard = _ ∧
            GoesOn image machine (.interrupt scancode cpu) ∧
            (hardware image).Along _ (machine.interrupt image scancode cpu).1 rest
          rw [step]
          cases requested : waiting machine.pics with
          | false =>
              have next := ih machine only
              rw [requested] at next
              exact ⟨next.1, next.2.1, kept, next.2.2⟩
          | true =>
              have next := ih
                { machine with
                  keyboard := handleKeyboardInterrupt scancode machine.keyboard
                  pics := machine.pics.served 1 } only.served
              rw [waiting_served] at next
              exact ⟨next.1, next.2.1, kept, next.2.2⟩

/-- The line of the timer. -/
def timerLine : Line := ⟨0, by decide, by decide⟩

/-- The shipped kernel after a request of the timer and one of the keyboard: the byte is handled
at the second of three interrupts, and the kernel does not tick. -/
theorem keyboard_only_shipped :
    let events := [.raise timerLine, .interrupt 0x1E idle, .raise keyboardLine,
      .interrupt 0x1E idle, .interrupt 0x1E idle]
    let last := (hardware shippedImage).run (boot unprogrammed unused .boot) events
    last.kernel = .boot ∧
      last.keyboard = interrupts.run (keyboardInit unused) [0x1E] ∧
      (hardware shippedImage).Along (GoesOn shippedImage) (boot unprogrammed unused .boot)
        events :=
  keyboard_only shippedImage unprogrammed unused .boot
    [.raise timerLine, .interrupt 0x1E idle, .raise keyboardLine, .interrupt 0x1E idle,
      .interrupt 0x1E idle]

end Lofita.Interrupts
