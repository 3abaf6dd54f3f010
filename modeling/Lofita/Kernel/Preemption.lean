import Lofita.Kernel.Calls

/-! # Preemption

A timer interrupt stops the active thread; a later tick that dispatches the
thread should let it go on where it stopped. The tick loads the context of the
dispatched thread but saves nothing into the context of the stopped one, so a
context stays as `spawn` filled it and the general registers of the interrupted
thread are handed to the next. Runs of ticks therefore resume their threads
exactly when every thread is stopped at its own entry point, with the registers
the dispatching tick happens to find (`resumes_iff_stops_as_started`).
-/

namespace Lofita.Kernel

open Lofita.Foundation

/-- The registers the interrupt entry pushes. -/
def TrapFrame.general (frame : TrapFrame) : List U64 :=
  [frame.r15, frame.r14, frame.r13, frame.r12, frame.r11, frame.r10, frame.r9, frame.r8,
    frame.rbp, frame.rdi, frame.rsi, frame.rdx, frame.rcx, frame.rbx, frame.rax]

/-- The registers the interrupt return restores. -/
def TrapFrame.control (frame : TrapFrame) : List U64 :=
  [frame.rip, frame.cs, frame.rflags, frame.rsp, frame.ss]

def RegistersContext.control (context : RegistersContext) : List U64 :=
  [context.rip, context.cs, context.rflags, context.rsp, context.ss]

@[simp] theorem TrapFrame.general_load (frame : TrapFrame) (context : RegistersContext) :
    (frame.load context).general = frame.general := rfl

@[simp] theorem TrapFrame.control_load (frame : TrapFrame) (context : RegistersContext) :
    (frame.load context).control = context.control := rfl

/-- A kernel state and the frame each thread was last stopped with, by the ticks
so far. -/
structure Interrupted where
  state : KernelState
  stopped : Ref → Option TrapFrame

/-- A timer interrupt stops the active thread with a frame, then the tick runs. -/
def Interrupted.after (before : Interrupted) (frame : TrapFrame) : Interrupted where
  state := (before.state.tick (some frame)).state
  stopped :=
    match before.state.scheduler.activeThread with
    | some running => Function.update before.stopped running (some frame)
    | none => before.stopped

def timer : System Interrupted TrapFrame := ⟨Interrupted.after⟩

/-- A thread that was stopped before is dispatched with the registers it was
stopped with. -/
def Resumes (before : Interrupted) (frame : TrapFrame) : Prop :=
  ∀ ref ∈ (before.state.tick (some frame)).value.thread,
    ∀ stop ∈ (before.after frame).stopped ref,
      ∀ left ∈ (before.state.tick (some frame)).value.frame,
        left.control = stop.control ∧ left.general = stop.general

instance decidableResumes (before : Interrupted) (frame : TrapFrame) :
    Decidable (Resumes before frame) :=
  inferInstanceAs (Decidable (∀ ref ∈ (before.state.tick (some frame)).value.thread, _))

/-- The first ready thread was never stopped, or it was stopped with the control
registers it has been started with and the general registers of this tick. -/
def StopsAsStarted (start : KernelState) (before : Interrupted) (frame : TrapFrame) : Prop :=
  ∀ ref ∈ before.state.scheduler.firstReady, ∀ stop ∈ (before.after frame).stopped ref,
    stop.control = (start.thread ref).context.control ∧ stop.general = frame.general

/-- No tick changes a thread. -/
theorem thread_after (before : Interrupted) (frame : TrapFrame) (ref : Ref) :
    (before.after frame).state.thread ref = before.state.thread ref :=
  before.state.thread_tick (some frame) ref

theorem resumes_iff {start : KernelState} {before : Interrupted}
    (unchanged : ∀ ref, before.state.thread ref = start.thread ref) (frame : TrapFrame) :
    Resumes before frame ↔ StopsAsStarted start before frame := by
  unfold Resumes StopsAsStarted
  rw [KernelState.value_tick]
  cases before.state.scheduler.firstReady with
  | none => simp
  | some ref =>
      simp only [Option.mem_def, Option.some.injEq, Option.map_some, forall_eq',
        TrapFrame.control_load, TrapFrame.general_load, unchanged]
      refine forall₂_congr fun stop _ => ?_
      rw [eq_comm, @eq_comm _ frame.general]

/-- **When preemption preserves threads.** In a run of timer ticks over any
threads, every dispatched thread goes on with the registers it was stopped with
exactly if at each tick the first ready thread was never stopped, or was stopped
as it had been started. -/
theorem resumes_iff_stops_as_started (start : KernelState) (frames : List TrapFrame) :
    timer.Along Resumes ⟨start, fun _ => none⟩ frames ↔
      timer.Along (StopsAsStarted start) ⟨start, fun _ => none⟩ frames := by
  refine System.along_congr (fun before => ∀ ref, before.state.thread ref = start.thread ref)
    ?_ ?_ ?_ (System.along_of_forall fun _ _ _ => trivial)
  · intro before frame unchanged _ ref
    exact (thread_after before frame ref).trans (unchanged ref)
  · exact fun before frame unchanged _ => resumes_iff unchanged frame
  · exact fun _ => rfl

/-- A frame with the segments and flags of a user thread. -/
def userFrame (rip rbx : U64) : TrapFrame where
  r15 := 0
  r14 := 0
  r13 := 0
  r12 := 0
  r11 := 0
  r10 := 0
  r9 := 0
  r8 := 0
  rbp := 0
  rdi := 0
  rsi := 0
  rdx := 0
  rcx := 0
  rbx := rbx
  rax := 0
  errorCode := 0
  rip := rip
  cs := 0x1B
  rflags := 0x202
  rsp := 0x7FFFFFFF0000
  ss := 0x23

/-- Two threads take turns; the first is stopped at `0x10000040` with 5 in `rbx`
and goes on at its entry point with 7. -/
theorem restarts_at_entry_point : ¬ timer.Along Resumes
    ⟨kernel.run .boot [.runProcess 1 100, .runProcess 1 100], fun _ => none⟩
    [userFrame 0 0, userFrame 0x1000_0040 5, userFrame 0x1000_0080 7] := by
  decide

end Lofita.Kernel
