import Mathlib.Data.Set.Function
import Lofita.Foundation.Run
import Lofita.Foundation.Stack
import Lofita.Kernel.Tick

/-! # Interrupt stubs

The stubs around the interrupt handlers (`idt.zig`): they save the general registers below
what the processor has pushed, call the handler with the address of the whole as its
`TrapFrame`, and load everything back. But before the first push they load the handler's
address into a register, which is `rax` in the shipped kernel, and what that register held is
lost. Whatever the handler's compiled code does to the registers, an interrupt changes the rest
of the context exactly as the handler changes the frame (`interrupt_returns`), and one that
leaves the frame alone is not noticed by a program that does not rely on that register or look
below its stack pointer (`interrupts_invisible`).
-/

namespace Lofita.Interrupts

open Lofita.Foundation Lofita.Kernel

/-- The general registers but for the stack pointer. -/
inductive Gpr where
  | rax | rbx | rcx | rdx | rsi | rdi | rbp | r8 | r9 | r10 | r11 | r12 | r13 | r14 | r15
deriving DecidableEq, Repr

/-- The registers of the processor and the memory its stack is in, by quadwords. `rip` is
that of the code that runs outside the stub. -/
structure Cpu where
  gpr : Gpr → U64
  stack : Stack U64
  rip : U64
  cs : U64
  rflags : U64
  ss : U64

/-- The register that the compiler takes for the operand `handler_fn` of a stub. It is not
`rdi`, which the stub overwrites before the call. -/
structure Operand where
  reg : Gpr
  ne_rdi : reg ≠ .rdi
deriving DecidableEq, Repr

/-- The register in the shipped kernel. -/
def Operand.rax : Operand := ⟨.rax, by decide⟩

/-- The instructions of the stubs; `callq` calls the code at the address in a register. -/
inductive Instr where
  | mov (reg : Gpr) (value : U64)
  | pushImm (value : U64)
  | push (reg : Gpr)
  | pop (reg : Gpr)
  | cld
  | movRsp (reg : Gpr)
  | subRsp (bytes : U64)
  | addRsp (bytes : U64)
  | callq (reg : Gpr)
  | iretq
deriving DecidableEq, Repr

/-! ### Frames -/

/-- The register that a frame holds. -/
def reg (frame : TrapFrame) : Gpr → U64
  | .rax => frame.rax
  | .rbx => frame.rbx
  | .rcx => frame.rcx
  | .rdx => frame.rdx
  | .rsi => frame.rsi
  | .rdi => frame.rdi
  | .rbp => frame.rbp
  | .r8 => frame.r8
  | .r9 => frame.r9
  | .r10 => frame.r10
  | .r11 => frame.r11
  | .r12 => frame.r12
  | .r13 => frame.r13
  | .r14 => frame.r14
  | .r15 => frame.r15

/-- The `TrapFrame` at an address; its fields follow each other from `r15` to `ss`. -/
def frameAt (memory : U64 → U64) (address : U64) : TrapFrame where
  r15 := memory address
  r14 := memory (address + 8)
  r13 := memory (address + 16)
  r12 := memory (address + 24)
  r11 := memory (address + 32)
  r10 := memory (address + 40)
  r9 := memory (address + 48)
  r8 := memory (address + 56)
  rbp := memory (address + 64)
  rdi := memory (address + 72)
  rsi := memory (address + 80)
  rdx := memory (address + 88)
  rcx := memory (address + 96)
  rbx := memory (address + 104)
  rax := memory (address + 112)
  errorCode := memory (address + 120)
  rip := memory (address + 128)
  cs := memory (address + 136)
  rflags := memory (address + 144)
  rsp := memory (address + 152)
  ss := memory (address + 160)

/-- The context of the processor, with an error code, as a frame. -/
def Cpu.frame (errorCode : U64) (cpu : Cpu) : TrapFrame where
  r15 := cpu.gpr .r15
  r14 := cpu.gpr .r14
  r13 := cpu.gpr .r13
  r12 := cpu.gpr .r12
  r11 := cpu.gpr .r11
  r10 := cpu.gpr .r10
  r9 := cpu.gpr .r9
  r8 := cpu.gpr .r8
  rbp := cpu.gpr .rbp
  rdi := cpu.gpr .rdi
  rsi := cpu.gpr .rsi
  rdx := cpu.gpr .rdx
  rcx := cpu.gpr .rcx
  rbx := cpu.gpr .rbx
  rax := cpu.gpr .rax
  errorCode := errorCode
  rip := cpu.rip
  cs := cpu.cs
  rflags := cpu.rflags
  rsp := cpu.stack.pointer
  ss := cpu.ss

/-- The processor in the context that a frame describes. -/
def Cpu.ofFrame (frame : TrapFrame) (memory : U64 → U64) : Cpu where
  gpr := reg frame
  stack := ⟨frame.rsp, memory⟩
  rip := frame.rip
  cs := frame.cs
  rflags := frame.rflags
  ss := frame.ss

/-! ### The handler -/

/-- A handler as the stub sees it: its address, what happens between a call of an address and
the instruction after it, and what becomes of the frame that the handler's argument points to.
Compiled code keeps the stack pointer, and relies on the stack being aligned at the call; every
general register may come back changed. -/
structure Handler where
  address : U64
  code : U64 → Cpu → Cpu
  body : TrapFrame → TrapFrame
  pointer_call : ∀ cpu, cpu.stack.pointer % 16 = 0 →
    (code address cpu).stack.pointer = cpu.stack.pointer
  frame_call : ∀ cpu, cpu.stack.pointer % 16 = 0 → cpu.gpr .rdi = cpu.stack.pointer + 8 →
    frameAt (code address cpu).stack.memory (cpu.gpr .rdi) =
      body (frameAt cpu.stack.memory (cpu.gpr .rdi))

/-- A call of the handler. -/
def Handler.call (handler : Handler) : Cpu → Cpu := handler.code handler.address

/-! ### Instructions -/

def Cpu.push (value : U64) (cpu : Cpu) : Cpu := { cpu with stack := cpu.stack.push value }

/-- Load a register. -/
def Cpu.load (reg : Gpr) (value : U64) (cpu : Cpu) : Cpu :=
  { cpu with gpr := Function.update cpu.gpr reg value }

/-- One instruction. -/
def execute (handler : Handler) (cpu : Cpu) : Instr → Cpu
  | .mov reg value => cpu.load reg value
  | .pushImm value => cpu.push value
  | .push reg => cpu.push (cpu.gpr reg)
  | .pop reg =>
      { cpu with
        gpr := Function.update cpu.gpr reg cpu.stack.top
        stack := cpu.stack.drop 1 }
  | .cld => { cpu with rflags := cpu.rflags &&& ~~~0x400 }
  | .movRsp reg => cpu.load reg cpu.stack.pointer
  | .subRsp bytes => { cpu with stack.pointer := cpu.stack.pointer - bytes }
  | .addRsp bytes => { cpu with stack.pointer := cpu.stack.pointer + bytes }
  | .callq reg => handler.code (cpu.gpr reg) cpu
  | .iretq =>
      { cpu with
        rip := cpu.stack.memory cpu.stack.pointer
        cs := cpu.stack.memory (cpu.stack.pointer + 8)
        rflags := cpu.stack.memory (cpu.stack.pointer + 16)
        stack.pointer := cpu.stack.memory (cpu.stack.pointer + 24)
        ss := cpu.stack.memory (cpu.stack.pointer + 32) }

/-- The stub around a handler, instruction after instruction. -/
def stubRun (handler : Handler) : System Cpu Instr := ⟨execute handler⟩

/-- `isr_stub_with_err`, behind the load of its operand. -/
def isrStubWithErr (operand : Operand) (handlerFn : U64) : List Instr :=
  [.mov operand.reg handlerFn,
    .push .rax, .push .rbx, .push .rcx, .push .rdx, .push .rsi, .push .rdi, .push .rbp,
    .push .r8, .push .r9, .push .r10, .push .r11, .push .r12, .push .r13, .push .r14, .push .r15,
    .cld, .movRsp .rdi, .subRsp 8, .callq operand.reg, .addRsp 8,
    .pop .r15, .pop .r14, .pop .r13, .pop .r12, .pop .r11, .pop .r10, .pop .r9, .pop .r8,
    .pop .rbp, .pop .rdi, .pop .rsi, .pop .rdx, .pop .rcx, .pop .rbx, .pop .rax,
    .addRsp 8, .iretq]

/-- `isr_stub_no_err`: the same with a push of zero in the place of an error code. -/
def isrStubNoErr (operand : Operand) (handlerFn : U64) : List Instr :=
  [.mov operand.reg handlerFn, .pushImm 0,
    .push .rax, .push .rbx, .push .rcx, .push .rdx, .push .rsi, .push .rdi, .push .rbp,
    .push .r8, .push .r9, .push .r10, .push .r11, .push .r12, .push .r13, .push .r14, .push .r15,
    .cld, .movRsp .rdi, .subRsp 8, .callq operand.reg, .addRsp 8,
    .pop .r15, .pop .r14, .pop .r13, .pop .r12, .pop .r11, .pop .r10, .pop .r9, .pop .r8,
    .pop .rbp, .pop .rdi, .pop .rsi, .pop .rdx, .pop .rcx, .pop .rbx, .pop .rax,
    .addRsp 8, .iretq]

/-- What the processor does before it enters a stub: it takes the stack that starts at
`top`, aligned to sixteen bytes, pushes the context and the error code, if the vector has
one, and turns interrupts off. -/
def Cpu.deliver (top : U64) (errorCode : Option U64) (cpu : Cpu) : Cpu :=
  { cpu with
    stack := Stack.pushAll ([cpu.ss, cpu.stack.pointer, cpu.rflags, cpu.cs, cpu.rip] ++
      errorCode.toList) ⟨top - top % 16, cpu.stack.memory⟩
    rflags := cpu.rflags &&& ~~~0x200 }

/-- The stub of a vector with or without an error code. -/
def stubFor (operand : Operand) (handlerFn : U64) : Option U64 → List Instr
  | some _ => isrStubWithErr operand handlerFn
  | none => isrStubNoErr operand handlerFn

/-- A whole interrupt, from its delivery to the return from it. -/
def interrupt (operand : Operand) (handler : Handler) (top : U64) (errorCode : Option U64)
    (cpu : Cpu) : Cpu :=
  (stubRun handler).run (cpu.deliver top errorCode) (stubFor operand handler.address errorCode)

/-! ### Words of a frame -/

/-- The fields of a frame, from the lowest address upwards. -/
def words (frame : TrapFrame) : List U64 :=
  [frame.r15, frame.r14, frame.r13, frame.r12, frame.r11, frame.r10, frame.r9, frame.r8,
    frame.rbp, frame.rdi, frame.rsi, frame.rdx, frame.rcx, frame.rbx, frame.rax,
    frame.errorCode, frame.rip, frame.cs, frame.rflags, frame.rsp, frame.ss]

/-- The frame on the stack has the words that are there. -/
theorem words_frameAt (memory : U64 → U64) (address : U64) :
    words (frameAt memory address) = Stack.wordsAt memory 21 address := by
  simp only [Stack.wordsAt, BitVec.add_assoc]
  rfl

/-- A frame is its words. -/
theorem words_injective : Function.Injective words := by
  intro first second same
  cases first
  cases second
  simpa [words] using same

/-- The frame whose words are stored is the one that is read. -/
theorem frameAt_eq {memory : U64 → U64} {address : U64} {frame : TrapFrame}
    (stored : Stack.wordsAt memory 21 address = words frame) : frameAt memory address = frame :=
  words_injective ((words_frameAt memory address).trans stored)

/-! ### Saving and restoring -/

/-- The registers in the order in which the stubs push them. -/
def savedOrder : List Gpr :=
  [.rax, .rbx, .rcx, .rdx, .rsi, .rdi, .rbp, .r8, .r9, .r10, .r11, .r12, .r13, .r14, .r15]

/-- The middle of both stubs. -/
def callSequence (operand : Operand) : List Instr :=
  [.cld, .movRsp .rdi, .subRsp 8, .callq operand.reg, .addRsp 8]

/-- The end of both stubs. -/
def returnSequence : List Instr := savedOrder.reverse.map .pop ++ [.addRsp 8, .iretq]

/-- What both stubs do once the handler's address is loaded and an error code is pushed. -/
def stubBody (operand : Operand) : List Instr :=
  savedOrder.map .push ++ (callSequence operand ++ returnSequence)

/-- A stub first loads its operand. -/
theorem isrStubWithErr_eq (operand : Operand) (handlerFn : U64) :
    isrStubWithErr operand handlerFn = .mov operand.reg handlerFn :: stubBody operand := rfl

/-- Without an error code, a zero is pushed in its place. -/
theorem isrStubNoErr_eq (operand : Operand) (handlerFn : U64) :
    isrStubNoErr operand handlerFn =
      .mov operand.reg handlerFn :: .pushImm 0 :: stubBody operand := rfl

variable {operand : Operand} {handler : Handler}

/-- A row of pushes stores the registers. -/
theorem run_push (regs : List Gpr) (cpu : Cpu) :
    (stubRun handler).run cpu (regs.map .push) =
      { cpu with stack := cpu.stack.pushAll (regs.map cpu.gpr) } := by
  induction regs generalizing cpu with
  | nil => rfl
  | cons reg rest ih => exact ih _

/-- Load a register with each word of a list. -/
def loadAll : List Gpr → List U64 → (Gpr → U64) → Gpr → U64
  | reg :: regs, word :: rest, gpr => loadAll regs rest (Function.update gpr reg word)
  | _, _, gpr => gpr

/-- Words dropped twice are dropped together. -/
theorem drop_drop (first second : Nat) (stack : Stack U64) :
    (stack.drop first).drop second = stack.drop (first + second) := by
  unfold Stack.drop
  congr 1
  bv_omega

/-- A row of pops loads the registers. -/
theorem run_pop (regs : List Gpr) (cpu : Cpu) :
    (stubRun handler).run cpu (regs.map .pop) =
      { cpu with
        gpr := loadAll regs (Stack.wordsAt cpu.stack.memory regs.length cpu.stack.pointer) cpu.gpr
        stack := cpu.stack.drop regs.length } := by
  induction regs generalizing cpu with
  | nil =>
      have same : cpu.stack.drop 0 = cpu.stack := by
        unfold Stack.drop
        congr 1
        exact BitVec.add_zero _
      change cpu = { cpu with stack := cpu.stack.drop 0 }
      rw [same]
  | cons reg rest ih =>
      refine (ih _).trans ?_
      change ({ cpu with gpr := _, stack := (cpu.stack.drop 1).drop rest.length } : Cpu) = _
      rw [drop_drop, Nat.add_comm 1]
      rfl

/-- The registers that a frame has been loaded from are those it holds. -/
theorem loadAll_words (frame : TrapFrame) (gpr : Gpr → U64) :
    loadAll savedOrder.reverse ((words frame).take 15) gpr = reg frame := by
  funext register
  cases register <;> rfl

/-- The processor when a stub calls its handler, from its state before `cld`. -/
def Cpu.atCall (cpu : Cpu) : Cpu :=
  { cpu with
    gpr := Function.update cpu.gpr .rdi cpu.stack.pointer
    stack.pointer := cpu.stack.pointer - 8
    rflags := cpu.rflags &&& ~~~0x400 }

/-- The end of a stub loads the frame at the stack pointer into the processor. -/
theorem run_return (cpu : Cpu) :
    (stubRun handler).run cpu returnSequence =
      Cpu.ofFrame (frameAt cpu.stack.memory cpu.stack.pointer) cpu.stack.memory := by
  have registers : loadAll savedOrder.reverse
      (Stack.wordsAt cpu.stack.memory 15 cpu.stack.pointer) cpu.gpr =
        reg (frameAt cpu.stack.memory cpu.stack.pointer) := by
    rw [← loadAll_words _ cpu.gpr, words_frameAt]
    rfl
  have first : cpu.stack.pointer + 8 * BitVec.ofNat 64 savedOrder.reverse.length + 8 =
      cpu.stack.pointer + 128 := BitVec.add_assoc _ _ _
  rw [returnSequence, System.run_append, run_pop]
  change execute handler (execute handler _ (.addRsp 8)) .iretq = _
  simp only [execute, Stack.drop, first, BitVec.add_assoc]
  rw [show savedOrder.reverse.length = 15 from rfl, registers]
  rfl

/-- Aligning the stack for a call. -/
theorem umod_sub_eight {pointer : U64} (aligned : pointer % 16 = 8) : (pointer - 8) % 16 = 0 := by
  have position : pointer.toNat % 16 = 8 := congrArg BitVec.toNat aligned
  refine BitVec.eq_of_toNat_eq ?_
  change (2 ^ 64 - 8 + pointer.toNat) % 2 ^ 64 % 16 = 0
  omega

/-- The call goes to the handler, whose address the operand still holds. -/
theorem run_callSequence {cpu : Cpu} (loaded : cpu.gpr operand.reg = handler.address) :
    (stubRun handler).run cpu (callSequence operand) =
      { handler.call cpu.atCall with
        stack.pointer := (handler.call cpu.atCall).stack.pointer + 8 } := by
  have called : cpu.atCall.gpr operand.reg = handler.address :=
    (Function.update_of_ne operand.ne_rdi _ _).trans loaded
  change execute handler (handler.code (cpu.atCall.gpr operand.reg) cpu.atCall) (.addRsp 8) = _
  rw [called]
  rfl

/-- The middle of a stub calls the handler on the frame at the stack pointer. -/
theorem run_call {cpu : Cpu} (loaded : cpu.gpr operand.reg = handler.address)
    (aligned : cpu.stack.pointer % 16 = 8) :
    ((stubRun handler).run cpu (callSequence operand)).stack.pointer = cpu.stack.pointer ∧
      ((stubRun handler).run cpu (callSequence operand)).stack.memory =
        (handler.call cpu.atCall).stack.memory ∧
      frameAt (handler.call cpu.atCall).stack.memory cpu.stack.pointer =
        handler.body (frameAt cpu.stack.memory cpu.stack.pointer) := by
  have called : (cpu.stack.pointer - 8) % 16 = 0 := umod_sub_eight aligned
  have kept := handler.pointer_call (cpu.atCall) called
  have handled := handler.frame_call (cpu.atCall) called (BitVec.sub_add_cancel _ _).symm
  rw [run_callSequence loaded]
  refine ⟨?_, rfl, handled⟩
  change (handler.call cpu.atCall).stack.pointer + 8 = _
  rw [Handler.call, kept]
  exact BitVec.sub_add_cancel _ _

/-! ### A whole interrupt -/

/-- The words that the processor and a stub push. -/
def Cpu.savedWords (errorCode : U64) (cpu : Cpu) : List U64 :=
  [cpu.ss, cpu.stack.pointer, cpu.rflags, cpu.cs, cpu.rip, errorCode] ++ savedOrder.map cpu.gpr

/-- The processor once the context and the registers are saved. -/
def Cpu.saved (top errorCode : U64) (cpu : Cpu) : Cpu :=
  { cpu with
    stack := Stack.pushAll (cpu.savedWords errorCode) ⟨top - top % 16, cpu.stack.memory⟩
    rflags := cpu.rflags &&& ~~~0x200 }

/-- The processor as a handler finds it. -/
def Cpu.atHandler (top errorCode : U64) (cpu : Cpu) : Cpu := (cpu.saved top errorCode).atCall

/-- Pushing a zero stands in for an error code. -/
theorem push_deliver (top : U64) (cpu : Cpu) :
    (cpu.deliver top none).push 0 = cpu.deliver top (some 0) := by
  unfold Cpu.push Cpu.deliver
  rw [Option.toList_none, Option.toList_some, List.append_nil, Stack.pushAll_concat]

/-- The stub loads a register as if it had been loaded before the interrupt. -/
theorem run_mov_deliver (top : U64) (errorCode : Option U64) (cpu : Cpu) (register : Gpr)
    (value : U64) (rest : List Instr) :
    (stubRun handler).run (cpu.deliver top errorCode) (.mov register value :: rest) =
      (stubRun handler).run ((cpu.load register value).deliver top errorCode) rest :=
  System.run_cons _ _ _ _

/-- Saving the registers of a delivered interrupt. -/
theorem run_push_deliver (top errorCode : U64) (cpu : Cpu) :
    (stubRun handler).run (cpu.deliver top (some errorCode)) (savedOrder.map .push) =
      cpu.saved top errorCode := by
  rw [run_push, Cpu.saved, Cpu.savedWords, Stack.pushAll_append]
  rfl

/-- Both stubs save the same: the context with the handler's address in the register of the
operand, and the error code or zero in its place. -/
theorem interrupt_eq (operand : Operand) (handler : Handler) (top : U64) (errorCode : Option U64)
    (cpu : Cpu) :
    interrupt operand handler top errorCode cpu =
      (stubRun handler).run
        ((cpu.load operand.reg handler.address).saved top (errorCode.getD 0))
        (callSequence operand ++ returnSequence) := by
  have saved (code : U64) : (stubRun handler).run
      ((cpu.load operand.reg handler.address).deliver top (some code)) (stubBody operand) =
        (stubRun handler).run ((cpu.load operand.reg handler.address).saved top code)
          (callSequence operand ++ returnSequence) := by
    rw [stubBody, System.run_append, run_push_deliver]
  cases errorCode with
  | some code =>
      rw [interrupt, stubFor, isrStubWithErr_eq, run_mov_deliver]
      exact saved code
  | none =>
      rw [interrupt, stubFor, isrStubNoErr_eq, run_mov_deliver, System.run_cons]
      change (stubRun handler).run
        (((cpu.load operand.reg handler.address).deliver top none).push 0) (stubBody operand) = _
      rw [push_deliver]
      exact saved 0

/-- Below an aligned top, the saved words leave the stack eight bytes off. -/
theorem saved_aligned (top errorCode : U64) (cpu : Cpu) :
    (cpu.saved top errorCode).stack.pointer % 16 = 8 := by
  change (Stack.pushAll _ _).pointer % 16 = 8
  rw [Stack.pointer_pushAll]
  change (top - top % 16 - 168) % 16 = 8
  have rest : (top % 16).toNat = top.toNat % 16 := rfl
  have aligned : (top - top % 16).toNat = top.toNat - top.toNat % 16 := by
    rw [← rest]
    exact BitVec.toNat_sub_of_le (BitVec.le_def.mpr (rest ▸ Nat.mod_le _ _))
  refine BitVec.eq_of_toNat_eq ?_
  change (2 ^ 64 - 168 + (top - top % 16).toNat) % 2 ^ 64 % 16 = 8
  rw [aligned]
  omega

/-- The stack pointer at the call: below 21 saved words and eight bytes of padding. -/
theorem pointer_atHandler (top errorCode : U64) (cpu : Cpu) :
    (cpu.atHandler top errorCode).stack.pointer = top - top % 16 - 168 - 8 := by
  change (Stack.pushAll _ _).pointer - 8 = _
  rw [Stack.pointer_pushAll]
  rfl

/-- What has been saved is the frame of the interrupted context. -/
theorem frameAt_saved (top errorCode : U64) (cpu : Cpu) :
    frameAt (cpu.saved top errorCode).stack.memory (cpu.saved top errorCode).stack.pointer =
      cpu.frame errorCode :=
  have short : 8 * (cpu.savedWords errorCode).length ≤ 2 ^ 64 := by
    change 8 * 21 ≤ 2 ^ 64
    omega
  frameAt_eq (Stack.wordsAt_pushAll short _)

/-- **An interrupt is its handler on the frame.** The handler is called on an aligned stack
with the address of a frame that holds the interrupted context, but its own address in the
register of the operand, and the processor goes on in the context that the handler has left
there, whatever its code has done to the registers. -/
theorem interrupt_returns (operand : Operand) (handler : Handler) (top : U64)
    (errorCode : Option U64) (cpu : Cpu) :
    let loaded := cpu.load operand.reg handler.address
    let atHandler := loaded.atHandler top (errorCode.getD 0)
    atHandler.stack.pointer % 16 = 0 ∧
      frameAt atHandler.stack.memory (atHandler.gpr .rdi) = loaded.frame (errorCode.getD 0) ∧
      interrupt operand handler top errorCode cpu =
        Cpu.ofFrame (handler.body (loaded.frame (errorCode.getD 0)))
          (handler.call atHandler).stack.memory := by
  intro loaded atHandler
  have aligned := saved_aligned top (errorCode.getD 0) loaded
  have stored := frameAt_saved top (errorCode.getD 0) loaded
  have address : (loaded.saved top (errorCode.getD 0)).gpr operand.reg = handler.address :=
    Function.update_self _ _ _
  obtain ⟨pointer, memory, handled⟩ := run_call address aligned
  refine ⟨umod_sub_eight aligned, stored, ?_⟩
  rw [interrupt_eq, System.run_append, run_return, pointer, memory, handled, stored]
  rfl

/-! ### Interrupted programs -/

/-- Two processors in one context but for the register of the operand, whose memories agree on
what the code may read there. -/
structure Alike (operand : Operand) (live : U64 → Set U64) (first second : Cpu) : Prop where
  context : (first.load operand.reg 0).frame 0 = (second.load operand.reg 0).frame 0
  memory : Set.EqOn first.stack.memory second.stack.memory (live first.stack.pointer)

/-- A program, one step at a time, with the addresses that it relies on at a stack pointer: its
steps are the same whatever the register of the operand and the rest of the memory hold. -/
structure Program (operand : Operand) where
  step : Cpu → Cpu
  live : U64 → Set U64
  alike_step : ∀ first second, Alike operand live first second →
    Alike operand live (step first) (step second)

/-- A step of the program, or an interrupt between two of its steps. -/
inductive Event where
  | step
  | interrupt (handler : Handler) (top : U64) (errorCode : Option U64)

/-- The program on a processor that takes interrupts. -/
def interrupted (program : Program operand) : System Cpu Event where
  step := fun cpu event =>
    match event with
    | .step => program.step cpu
    | .interrupt handler top errorCode => interrupt operand handler top errorCode cpu

/-- The handler leaves its frame as it is, and neither the frame nor what the handler's code
writes lies where the program looks. -/
def Unnoticed (program : Program operand) (cpu : Cpu) : Event → Prop
  | .step => True
  | .interrupt handler top errorCode =>
      let loaded := cpu.load operand.reg handler.address
      let atHandler := loaded.atHandler top (errorCode.getD 0)
      handler.body (loaded.frame (errorCode.getD 0)) = loaded.frame (errorCode.getD 0) ∧
      ∀ address ∈ program.live cpu.stack.pointer,
        (∀ index < 21, address ≠ top - top % 16 - 8 * BitVec.ofNat 64 (index + 1)) ∧
        (handler.call atHandler).stack.memory address = atHandler.stack.memory address

/-- The steps of the program among the events. -/
def steps : List Event → Nat
  | [] => 0
  | .step :: rest => steps rest + 1
  | .interrupt .. :: rest => steps rest

/-- An interrupt leaves the address of its handler in the register of the operand. -/
def LosesOperand (operand : Operand) (cpu : Cpu) : Event → Prop
  | .step => True
  | .interrupt handler top errorCode =>
      (interrupt operand handler top errorCode cpu).gpr operand.reg = handler.address

namespace Alike

variable {live : U64 → Set U64} {first second third : Cpu}

/-- Processors alike have one stack pointer. -/
theorem pointer_eq (alike : Alike operand live first second) :
    first.stack.pointer = second.stack.pointer := congrArg TrapFrame.rsp alike.context

/-- A processor is like itself. -/
theorem refl (cpu : Cpu) : Alike operand live cpu cpu := ⟨rfl, fun _ _ => rfl⟩

theorem trans (left : Alike operand live first second) (right : Alike operand live second third) :
    Alike operand live first third where
  context := left.context.trans right.context
  memory := fun _ member =>
    (left.memory member).trans (right.memory (left.pointer_eq ▸ member))

end Alike

/-- A frame keeps the registers. -/
theorem reg_frame (cpu : Cpu) (errorCode : U64) : reg (cpu.frame errorCode) = cpu.gpr := by
  funext register
  cases register <;> rfl

/-- A frame gives the processor back, apart from memory. -/
theorem ofFrame_frame (cpu : Cpu) (errorCode : U64) (memory : U64 → U64) :
    Cpu.ofFrame (cpu.frame errorCode) memory =
      { cpu with stack := ⟨cpu.stack.pointer, memory⟩ } := by
  rw [Cpu.ofFrame, reg_frame]
  rfl

/-- The second load of a register counts. -/
theorem load_load (cpu : Cpu) (register : Gpr) (first second : U64) :
    (cpu.load register first).load register second = cpu.load register second := by
  unfold Cpu.load
  rw [Function.update_idem]

/-- Outside the place of its frame, an interrupt has changed nothing when its handler is
called. -/
theorem memory_atHandler {top address : U64}
    (outside : ∀ index < 21, address ≠ top - top % 16 - 8 * BitVec.ofNat 64 (index + 1))
    (errorCode : U64) (cpu : Cpu) :
    (cpu.atHandler top errorCode).stack.memory address = cpu.stack.memory address := by
  have words : (cpu.savedWords errorCode).length = 21 := rfl
  have pushed : (Stack.pushAll (cpu.savedWords errorCode)
      ⟨top - top % 16, cpu.stack.memory⟩).memory address = cpu.stack.memory address :=
    Stack.memory_pushAll_of_apart (words ▸ outside)
  exact pushed

variable {program : Program operand}

/-- After an unnoticed interrupt the processor is as it was with the handler's address loaded,
but for its memory. -/
theorem interrupt_of_unnoticed {cpu : Cpu} {top : U64} {errorCode : Option U64}
    (unnoticed : Unnoticed program cpu (.interrupt handler top errorCode)) :
    ∃ memory, interrupt operand handler top errorCode cpu =
        { cpu.load operand.reg handler.address with stack := ⟨cpu.stack.pointer, memory⟩ } ∧
      Set.EqOn memory cpu.stack.memory (program.live cpu.stack.pointer) := by
  obtain ⟨same, apart⟩ := unnoticed
  obtain ⟨-, -, returned⟩ := interrupt_returns operand handler top errorCode cpu
  rw [same, ofFrame_frame] at returned
  refine ⟨_, returned, fun address member => ?_⟩
  obtain ⟨outside, kept⟩ := apart address member
  exact kept.trans (memory_atHandler outside _ _)

/-- An unnoticed interrupt leaves the processor as it found it, for the program. -/
theorem alike_interrupt {cpu : Cpu} {top : U64} {errorCode : Option U64}
    (unnoticed : Unnoticed program cpu (.interrupt handler top errorCode)) :
    Alike operand program.live (interrupt operand handler top errorCode cpu) cpu := by
  obtain ⟨memory, returned, kept⟩ := interrupt_of_unnoticed unnoticed
  rw [returned]
  have context : (((cpu.load operand.reg handler.address).load operand.reg 0).frame 0) =
      (cpu.load operand.reg 0).frame 0 := by
    rw [load_load]
  -- a frame does not hold the memory
  exact ⟨context, kept⟩

/-- After an unnoticed interrupt the operand's register has the address of the handler. -/
theorem losesOperand_of_unnoticed {cpu : Cpu} {event : Event}
    (unnoticed : Unnoticed program cpu event) : LosesOperand operand cpu event := by
  cases event with
  | step => trivial
  | interrupt handler top errorCode =>
      obtain ⟨memory, returned, _⟩ := interrupt_of_unnoticed unnoticed
      rw [LosesOperand, returned]
      exact Function.update_self _ _ _

/-- **Interrupts are invisible** to a program as long as their handlers leave the frame and
what the program relies on alone, and it does not rely on the register of the operand: with
interrupts between any of its steps the program is, as far as it can tell, where the same number
of steps takes it without them. The register of the operand is lost at each interrupt: it holds
the address of the handler after it. -/
theorem interrupts_invisible (program : Program operand) (cpu : Cpu) (events : List Event)
    (unnoticed : (interrupted program).Along (Unnoticed program) cpu events) :
    Alike operand program.live ((interrupted program).run cpu events)
        (program.step^[steps events] cpu) ∧
      (interrupted program).Along (LosesOperand operand) cpu events := by
  refine ⟨?_, System.Along.mono (fun _ _ => losesOperand_of_unnoticed) unnoticed⟩
  -- the uninterrupted program runs ahead of the processor from a state it cannot tell apart
  suffices simulated : ∀ (plain : Cpu), Alike operand program.live cpu plain →
      Alike operand program.live ((interrupted program).run cpu events)
        (program.step^[steps events] plain) from simulated cpu (.refl cpu)
  induction events generalizing cpu with
  | nil => exact fun plain alike => alike
  | cons event rest ih =>
      intro plain alike
      cases event with
      | step =>
          rw [steps, Function.iterate_succ_apply]
          exact ih _ unnoticed.2 _ (program.alike_step _ _ alike)
      | interrupt handler top errorCode =>
          exact ih _ unnoticed.2 _ ((alike_interrupt unnoticed.1).trans alike)

/-- A handler that acknowledges the interrupt: its code uses one register and the stack word
of its return address. -/
def acknowledging : Handler where
  address := 0x0010_7A70
  code := fun _ cpu =>
    { cpu with
      gpr := Function.update cpu.gpr .rax 0x20
      stack := { cpu.stack.push 0x0010_0000 with pointer := cpu.stack.pointer } }
  body := id
  pointer_call := fun _ _ => rfl
  frame_call := fun cpu _ argument => by
    refine frameAt_eq ?_
    rw [id, words_frameAt, argument]
    refine Stack.wordsAt_congr fun index below => Stack.memory_push_of_ne ?_
    bv_omega

/-- A program that counts in a register and relies on the word at the top of its stack. -/
def counting : Program .rax where
  step := fun cpu => { cpu with gpr := Function.update cpu.gpr .rbx (cpu.gpr .rbx + 1) }
  live := fun pointer => {pointer}
  alike_step := fun _ _ alike =>
    ⟨congrArg (fun frame => { frame with rbx := frame.rbx + 1 }) alike.context, alike.memory⟩

/-- A processor with zeros in all registers and a stack below `0x9000`. -/
def idle : Cpu where
  gpr := fun _ => 0
  stack := ⟨0x9000, fun _ => 0⟩
  rip := 0
  cs := 0x08
  rflags := 0x202
  ss := 0x10

/-- The handler writes its return address alone. -/
theorem memory_acknowledging {cpu : Cpu} {address : U64}
    (apart : address ≠ cpu.stack.pointer - 8) :
    (acknowledging.call cpu).stack.memory address = cpu.stack.memory address :=
  Stack.memory_push_of_ne apart

/-- The counting program does not notice the interrupt. -/
theorem unnoticed_acknowledging :
    Unnoticed counting (counting.step idle) (.interrupt acknowledging 0x9000 none) := by
  refine ⟨rfl, fun address member => ?_⟩
  have top : address = 0x9000 := member
  rw [top]
  refine ⟨by decide, memory_acknowledging ?_⟩
  rw [pointer_atHandler]
  decide

theorem interrupts_invisible_between_steps :
    Alike .rax counting.live
        ((interrupted counting).run idle [.step, .interrupt acknowledging 0x9000 none, .step])
        (counting.step^[2] idle) ∧
      (interrupted counting).Along (LosesOperand .rax) idle
        [.step, .interrupt acknowledging 0x9000 none, .step] := by
  refine interrupts_invisible counting idle [.step, .interrupt acknowledging 0x9000 none, .step] ?_
  exact ⟨trivial, unnoticed_acknowledging, trivial, trivial⟩

end Lofita.Interrupts
