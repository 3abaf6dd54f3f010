import Lofita.Keyboard.Scancodes
import Lofita.Vga.Commands

/-! # From the keys to the commands

The loop of `shell_main` (`shell.zig`) with the keyboard driver under it: interrupts put
bytes into the ring in any order with the atomic steps of the loop, which takes bytes out of
the ring, edits the line, runs a command at the end of a line, and halts the processor when
`read_key` has found nothing. The lines that are run are those of a list editor on the bytes
accepted (`typed_lines_executed`). The loop does not look at the ring again between
`read_key` and `hlt`, so a byte accepted there waits for another interrupt
(`asleep_exact`); any interrupt is enough to have all of them handled (`woken_handles_all`).
-/

namespace Lofita.Keyboard

open Lofita.Foundation Lofita.Foundation.Circular Lofita.Vga

/-! ### The handler and the ring -/

/-- A key that only changes how others are read. -/
def IsModifier (code : U8) : Prop :=
  code = scancodeLShift ∨ code = scancodeRShift ∨ code = scancodeLCtrl ∨ code = scancodeLAlt ∨
    code = scancodeCapsLock

instance (code : U8) : Decidable (IsModifier code) := inferInstanceAs (Decidable (_ ∨ _))

/-- The byte that the handler puts into the ring for a scancode, if any. -/
def typedByte (scancode : U8) (keyboard : KeyboardState) : Option U8 :=
  let code := scancode &&& 0x7F
  if scancode = 0xE0 ∨ scancode &&& 0x80 ≠ 0 ∨ IsModifier code ∨ character code keyboard = 0 then
    none
  else some (character code keyboard)

/-- An interrupt puts the byte of its key into the buffer, if there is one. -/
theorem ring_handleKeyboardInterrupt (scancode : U8) (keyboard : KeyboardState) :
    (handleKeyboardInterrupt scancode keyboard).ring =
      match typedByte scancode keyboard with
      | none => keyboard.ring
      | some ch => keyboard.ring.put ch := by
  have same : character (scancode &&& 0x7F) (showScancode scancode keyboard) =
      character (scancode &&& 0x7F) keyboard := rfl
  simp only [handleKeyboardInterrupt, typedByte, same, decide_eq_true_eq]
  by_cases none : scancode = 0xE0 ∨ scancode &&& 0x80 ≠ 0 ∨ IsModifier (scancode &&& 0x7F) ∨
      character (scancode &&& 0x7F) keyboard = 0
  · rw [if_pos none]
    unfold IsModifier at none
    split_ifs with escape shift control alt lock release zero
    all_goals first
      | rfl
      | tauto
  · rw [if_neg none]
    simp only [IsModifier, not_or, ne_eq, not_not] at none
    obtain ⟨escape, make, ⟨left, right, control, alt, lock⟩, char⟩ := none
    simp only [escape, make, left, right, control, alt, lock, char, ne_eq, not_true_eq_false,
      not_false_eq_true, ↓reduceIte, or_self, false_and]
    rfl

/-- An interrupt takes nothing out of the buffer. -/
theorem tail_handleKeyboardInterrupt (scancode : U8) (keyboard : KeyboardState) :
    (handleKeyboardInterrupt scancode keyboard).ring.tail = keyboard.ring.tail := by
  rw [ring_handleKeyboardInterrupt]
  cases typedByte scancode keyboard with
  | none => rfl
  | some ch =>
      dsimp only
      unfold Ring.put
      split_ifs <;> rfl

/-! ### The machine -/

/-- Where the processor stands in the loop of `shell_main`. -/
inductive Cpu where
  /-- In `read_key`. -/
  | polling
  /-- `read_key` has returned a byte. -/
  | handling (ch : U8)
  /-- `read_key` has returned nothing, and `hlt` is next. -/
  | halting
  | halted
  /-- A command has not returned. After `reboot` and `exit` interrupts are off; those that a
  platform call that hangs would still take are left out. -/
  | stopped
deriving DecidableEq, Repr

/-- The driver, the loop of the shell and what the commands act on, with what has happened:
the bytes accepted, returned by `read_key` and handled, the lines run, whether the ring was
empty when the head was last loaded, and the bytes accepted since then. -/
structure Console (Machine : Type) where
  keyboard : KeyboardState
  reader : Reader
  cpu : Cpu
  lineBuf : Vector U8 256
  lineLen : Nat
  machine : Machine
  accepted : List U8
  returned : List U8
  handled : List U8
  executed : List (List U8)
  emptyAtLoad : Bool
  unseen : List U8

/-- An interrupt with a scancode, or the next atomic step of the loop. -/
inductive Event where
  | interrupt (scancode : U8)
  | step
deriving DecidableEq, Repr

namespace Console

variable {Machine : Type}

/-- The shell's part of the console. -/
def shell (console : Console Machine) : Shell where
  vga := console.keyboard.vga
  lineBuf := console.lineBuf
  lineLen := console.lineLen

/-- The console with another state of the shell. -/
def withShell (shell : Shell) (console : Console Machine) : Console Machine :=
  { console with
    keyboard := { console.keyboard with vga := shell.vga }
    lineBuf := shell.lineBuf
    lineLen := shell.lineLen }

/-- The ring and its reader. -/
def history (console : Console Machine) : History where
  ring := console.keyboard.ring
  reader := console.reader
  accepted := console.accepted
  returned := console.returned
  emptyAtLoad := console.emptyAtLoad

/-- The byte of a scancode, if the ring takes it. -/
def acceptedNow (scancode : U8) (console : Console Machine) : List U8 :=
  if console.keyboard.ring.HasRoom then (typedByte scancode console.keyboard).toList else []

/-- The handler runs to its end and wakes a halted processor. -/
def interrupt (scancode : U8) (console : Console Machine) : Console Machine :=
  if console.cpu = .stopped then console
  else
    { console with
      keyboard := handleKeyboardInterrupt scancode console.keyboard
      cpu := if console.cpu = .halted then .polling else console.cpu
      accepted := console.accepted ++ console.acceptedNow scancode
      unseen := console.unseen ++ console.acceptedNow scancode }

/-- The atomic step of `read_key` that is due. -/
def readKey (console : Console Machine) : Console Machine :=
  let (ring, reader, result) := readKeyStep console.keyboard.ring console.reader
  { console with
    keyboard := { console.keyboard with ring }
    reader
    cpu :=
      match result with
      | none => .polling
      | some none => .halting
      | some (some ch) => .handling ch
    returned := console.returned ++ (result.join).toList
    emptyAtLoad :=
      if console.reader = .start then console.keyboard.ring.buffered.isEmpty
      else console.emptyAtLoad
    unseen := if console.reader = .start then [] else console.unseen }

variable (platform : Platform Machine) (undefined : Vector U8 20)

/-- The `switch` on a byte that `read_key` has returned. -/
def handle (ch : U8) (console : Console Machine) : Console Machine :=
  let shell := console.shell
  let next := { console with handled := console.handled ++ [ch], cpu := .polling }
  if ch = 0x0A then
    let executed := console.executed ++ [shell.line]
    match executeLine platform undefined shell.line console.machine (putChar 0x0A shell.vga) with
    | none => { next with executed, cpu := .stopped }
    | some (machine, vga) =>
        { next with executed, machine }.withShell (handleKey (fun _ _ => vga) ch shell)
  else next.withShell (handleKey (fun _ vga => vga) ch shell)

/-- The next step of the loop. -/
def advance (console : Console Machine) : Console Machine :=
  match console.cpu with
  | .polling => console.readKey
  | .handling ch => console.handle platform undefined ch
  | .halting => { console with cpu := .halted }
  | .halted => console
  | .stopped => console

/-- The shell at the start of its loop, with the banner and the prompt on the screen. -/
def initial (keyboard : KeyboardState) (lineBuf : Vector U8 256) (machine : Machine) :
    Console Machine where
  keyboard :=
    let rule := text "==================================================\n"
    let vga := print (text "\n") (setColor .lightGreen .black (keyboardInit keyboard).vga)
    let vga := print (text "      Lofita Kernel - Interactive Terminal        \n") (print rule vga)
    let vga := print (text "      Type 'help' for available commands          \n") vga
    let vga := setColor .white .black (print rule vga)
    { keyboardInit keyboard with vga := printPrompt vga }
  reader := .start
  cpu := .polling
  lineBuf
  lineLen := 0
  machine
  accepted := []
  returned := []
  handled := []
  executed := []
  emptyAtLoad := true
  unseen := []

end Console

/-- The driver and the shell, in any order of interrupts and steps. -/
def consoles {Machine : Type} (platform : Platform Machine) (undefined : Vector U8 20) :
    System (Console Machine) Event where
  step := fun console event =>
    match event with
    | .interrupt scancode => console.interrupt scancode
    | .step => console.advance platform undefined

/-! ### The purpose -/

/-- A line editor: the lines that were ended, and the one that is being typed. -/
structure Typed where
  lines : List (List U8)
  line : List U8
deriving DecidableEq, Repr

/-- A newline ends the line, a backspace takes the last byte off, a tab is nothing, and any
other byte is added to a line of less than 255 bytes. -/
def Typed.key (typed : Typed) (ch : U8) : Typed :=
  if ch = 0x0A then { lines := typed.lines ++ [typed.line], line := [] }
  else if ch = 0x08 then { typed with line := typed.line.dropLast }
  else if ch = 0x09 ∨ 255 ≤ typed.line.length then typed
  else { typed with line := typed.line ++ [ch] }

/-- What is typed with a list of bytes. -/
def typedWith (bytes : List U8) : Typed := bytes.foldl Typed.key { lines := [], line := [] }

theorem typedWith_append (bytes : List U8) (ch : U8) :
    typedWith (bytes ++ [ch]) = (typedWith bytes).key ch := List.foldl_append

/-! ### One key -/

section Key

variable (executeLine : List U8 → VgaState → VgaState) {shell : Shell}

/-- A line within the buffer has its length. -/
theorem length_shell_line (short : shell.lineLen ≤ 255) : shell.line.length = shell.lineLen := by
  rw [Shell.line, List.length_take, Vector.length_toList]
  omega

/-- A line loses its last byte. -/
theorem dropLast_shell_line (short : shell.lineLen ≤ 255) :
    shell.lineBuf.toList.take (shell.lineLen - 1) = shell.line.dropLast := by
  have length := length_shell_line short
  rw [List.dropLast_eq_take, length, Shell.line, List.take_take]
  congr 1
  omega

/-- The line buffer is edited as the line is. -/
theorem handleKey_line (short : shell.lineLen ≤ 255) (lines : List (List U8)) (ch : U8) :
    (handleKey executeLine ch shell).lineLen ≤ 255 ∧
      (handleKey executeLine ch shell).line =
        (Typed.key { lines, line := shell.line } ch).line := by
  have length := length_shell_line short
  unfold handleKey Typed.key
  by_cases newline : ch = 0x0A
  · rw [if_pos newline, if_pos newline]
    exact ⟨Nat.zero_le 255, List.take_zero⟩
  rw [if_neg newline, if_neg newline]
  by_cases backspace : ch = 0x08
  · rw [if_pos backspace, if_pos backspace]
    by_cases some : shell.lineLen > 0
    · rw [if_pos some]
      exact ⟨(Nat.sub_le _ 1).trans short, dropLast_shell_line short⟩
    · have empty : shell.line = [] := List.eq_nil_of_length_eq_zero (by omega)
      rw [if_neg some, empty]
      exact ⟨short, rfl⟩
  rw [if_neg backspace, if_neg backspace]
  by_cases tab : ch = 0x09
  · rw [if_pos tab, if_pos (.inl tab)]
    exact ⟨short, rfl⟩
  rw [if_neg tab]
  by_cases room : shell.lineLen < 256 - 1
  · have fits : ¬ (ch = 0x09 ∨ 255 ≤ shell.line.length) := not_or.mpr ⟨tab, by omega⟩
    rw [dif_pos room, if_neg fits]
    exact ⟨room, take_set shell.lineBuf (Nat.lt_succ_of_lt room) ch⟩
  · have full : ch = 0x09 ∨ 255 ≤ shell.line.length := by omega
    rw [dif_neg room, if_pos full]
    exact ⟨short, rfl⟩

end Key

/-! ### What the console keeps -/

section Steps

variable {Machine : Type} {console : Console Machine}

/-- The byte that `read_key` has returned and the loop has not handled yet. -/
def Console.inHand (console : Console Machine) : List U8 :=
  match console.cpu with
  | .handling ch => [ch]
  | _ => []

/-- The loop has found the ring empty and halts the processor. -/
def Console.Resting (console : Console Machine) : Prop :=
  console.cpu = .halting ∨ console.cpu = .halted

/-- The shell has done with the bytes it has handled what the line editor does, and after
the ring was found empty it holds the bytes accepted since. -/
structure Faithful (console : Console Machine) : Prop where
  sound : Sound console.history
  idle : console.cpu ≠ .polling → console.reader = .start
  returned : console.returned = console.handled ++ console.inHand
  short : console.lineLen ≤ 255
  executed : console.executed = (typedWith console.handled).lines
  line : console.cpu ≠ .stopped → console.shell.line = (typedWith console.handled).line
  unseen : console.emptyAtLoad = true → console.reader ≠ .start ∨ console.Resting →
    console.keyboard.ring.buffered = console.unseen
  resting : console.Resting → console.emptyAtLoad = true

/-- An interrupt is a byte put into the ring, or nothing. -/
theorem history_interrupt {scancode : U8} (running : console.cpu ≠ .stopped) :
    (console.interrupt scancode).history =
      match typedByte scancode console.keyboard with
      | none => console.history
      | some ch => console.history.ringPut ch := by
  have ring := ring_handleKeyboardInterrupt scancode console.keyboard
  unfold Console.interrupt Console.acceptedNow
  rw [if_neg running]
  cases byte : typedByte scancode console.keyboard with
  | none =>
      rw [byte] at ring
      simp only [Console.history, ring, Option.toList_none, ite_self, List.append_nil]
  | some ch =>
      rw [byte] at ring
      by_cases room : console.keyboard.ring.HasRoom
      · have same : console.history.ring.HasRoom := room
        simp only [History.ringPut, if_pos same, if_pos room]
        simp only [Console.history, ring, Option.toList_some]
      · have same : ¬ console.history.ring.HasRoom := room
        simp only [History.ringPut, if_neg same, if_neg room]
        simp only [Console.history, ring, List.append_nil]

/-- An interrupt keeps the buffer sound. -/
theorem Faithful.sound_interrupt (faithful : Faithful console) (scancode : U8) :
    Sound (console.interrupt scancode).history := by
  by_cases stopped : console.cpu = .stopped
  · rw [Console.interrupt, if_pos stopped]
    exact faithful.sound
  · rw [history_interrupt stopped]
    cases typedByte scancode console.keyboard with
    | none => exact faithful.sound
    | some ch => exact faithful.sound.ringPut ch

/-- What the handler takes is behind what is buffered. -/
theorem Faithful.buffered_interrupt (faithful : Faithful console) {scancode : U8}
    (running : console.cpu ≠ .stopped) :
    (console.interrupt scancode).keyboard.ring.buffered =
      console.keyboard.ring.buffered ++ console.acceptedNow scancode := by
  have before : console.accepted = console.returned ++ console.keyboard.ring.buffered :=
    faithful.sound.fifo
  have after := (faithful.sound_interrupt scancode).fifo
  simp only [Console.history, Console.interrupt, if_neg running] at after
  rw [before, List.append_assoc] at after
  rw [Console.interrupt, if_neg running]
  exact (List.append_cancel_left after).symm

/-- An interrupt keeps the console faithful. -/
theorem Faithful.interrupt (faithful : Faithful console) (scancode : U8) :
    Faithful (console.interrupt scancode) := by
  by_cases stopped : console.cpu = .stopped
  · rwa [Console.interrupt, if_pos stopped]
  have sound := faithful.sound_interrupt scancode
  have buffered := @Faithful.buffered_interrupt _ _ faithful scancode stopped
  obtain ⟨-, idle, returned, short, executed, line, unseen, resting⟩ := faithful
  rw [Console.interrupt, if_neg stopped] at sound buffered ⊢
  by_cases halted : console.cpu = .halted
  · -- the processor polls again, from the start
    rw [if_pos halted] at sound buffered ⊢
    have start : console.reader = .start := idle (by rw [halted]; decide)
    refine ⟨sound, fun busy => absurd rfl busy, ?_, short, executed, fun _ => line stopped, ?_, ?_⟩
    · rwa [Console.inHand, halted] at returned
    · rintro - (busy | rest)
      · exact absurd start busy
      · exact absurd rest (by simp [Console.Resting])
    · exact fun rest => absurd rest (by simp [Console.Resting])
  · rw [if_neg halted] at sound buffered ⊢
    refine ⟨sound, idle, returned, short, executed, line, ?_, resting⟩
    intro empty since
    exact buffered.trans (congrArg (· ++ _) (unseen empty since))

/-- Polling for a key keeps it faithful. -/
theorem Faithful.readKey (faithful : Faithful console) (polling : console.cpu = .polling) :
    Faithful console.readKey := by
  have sound : Sound console.readKey.history := faithful.sound.readKey
  obtain ⟨keyboard, reader, cpu, lineBuf, lineLen, machine, accepted, given, handled, lines,
    emptyAtLoad, unseen⟩ := console
  obtain rfl : cpu = .polling := polling
  obtain ⟨before, -, returned, short, executed, line, since, -⟩ := faithful
  have agrees : Agrees keyboard.ring emptyAtLoad reader := before.reader
  have same : emptyAtLoad = true → reader ≠ .start → keyboard.ring.buffered = unseen :=
    fun empty busy => since empty (.inl busy)
  have taken : given ++ [] = handled ++ [] := (List.append_nil given).trans returned
  cases reader with
  | start =>
      refine ⟨sound, fun busy => absurd rfl busy, taken, short, executed, line, ?_, ?_⟩
      · exact fun empty _ => List.isEmpty_iff.mp empty
      · exact fun rest => absurd rest (by rintro (halting | halted) <;> contradiction)
  | headLoaded head =>
      by_cases empty : head = keyboard.ring.tail
      · simp only [Console.readKey, readKeyStep_of_empty empty] at sound ⊢
        refine ⟨sound, fun _ => rfl, taken, short, executed, fun _ => line nofun, ?_, ?_⟩
        · exact fun nothing _ => same nothing nofun
        · exact fun _ => agrees.1 empty
      · simp only [Console.readKey, readKeyStep_of_some empty] at sound ⊢
        refine ⟨sound, fun busy => absurd rfl busy, taken, short, executed, line, ?_, ?_⟩
        · exact fun nothing _ => same nothing nofun
        · exact fun rest => absurd rest (by rintro (halting | halted) <;> contradiction)
  | tailLoaded tail =>
      refine ⟨sound, fun busy => absurd rfl busy, taken, short, executed, line, ?_, ?_⟩
      · exact fun nothing _ => same nothing nofun
      · exact fun rest => absurd rest (by rintro (halting | halted) <;> contradiction)
  | cellRead tail c =>
      rw [List.append_nil, List.append_nil] at taken
      refine ⟨sound, fun _ => rfl, congrArg (· ++ [c]) taken, short, executed,
        fun _ => line nofun, ?_, ?_⟩
      · rintro - (busy | rest)
        · exact absurd rfl busy
        · exact absurd rest (by rintro (halting | halted) <;> contradiction)
      · exact fun rest => absurd rest (by rintro (halting | halted) <;> contradiction)

/-- A byte is handled by what the line editor does with it. -/
theorem Faithful.edited {ch : U8} (faithful : Faithful console)
    (handling : console.cpu = .handling ch) {shell : Shell} (machine : Machine)
    (short : shell.lineLen ≤ 255) (line : shell.line = ((typedWith console.handled).key ch).line) :
    Faithful ({ console with
      handled := console.handled ++ [ch]
      cpu := .polling
      executed := ((typedWith console.handled).key ch).lines
      machine }.withShell shell) := by
  obtain ⟨sound, idle, returned, -, -, -, -, -⟩ := faithful
  have start : console.reader = .start := idle (by rw [handling]; nofun)
  have taken : console.returned = console.handled ++ [ch] ++ [] := by
    rw [returned, Console.inHand, handling, List.append_nil]
  refine ⟨sound, fun busy => absurd rfl busy, taken, short, ?_, fun _ => ?_, ?_, ?_⟩
  · exact (congrArg Typed.lines (typedWith_append _ ch)).symm
  · exact line.trans (congrArg Typed.line (typedWith_append _ ch)).symm
  · rintro - (busy | rest)
    · exact absurd start busy
    · exact absurd rest (by rintro (halting | halted) <;> contradiction)
  · exact fun rest => absurd rest (by rintro (halting | halted) <;> contradiction)

/-- A newline whose command does not return has been handled all the same. -/
theorem Faithful.ended {ch : U8} (faithful : Faithful console)
    (handling : console.cpu = .handling ch) :
    Faithful { console with
      handled := console.handled ++ [ch]
      cpu := .stopped
      executed := ((typedWith console.handled).key ch).lines } := by
  obtain ⟨sound, idle, returned, short, -, -, -, -⟩ := faithful
  have start : console.reader = .start := idle (by rw [handling]; nofun)
  have taken : console.returned = console.handled ++ [ch] ++ [] := by
    rw [returned, Console.inHand, handling, List.append_nil]
  refine ⟨sound, fun _ => start, taken, short, ?_, fun going => absurd rfl going, ?_, ?_⟩
  · exact (congrArg Typed.lines (typedWith_append _ ch)).symm
  · rintro - (busy | rest)
    · exact absurd start busy
    · exact absurd rest (by rintro (halting | halted) <;> contradiction)
  · exact fun rest => absurd rest (by rintro (halting | halted) <;> contradiction)

variable (platform : Platform Machine) (undefined : Vector U8 20)

/-- Handling a key keeps it faithful. -/
theorem Faithful.handle {ch : U8} (faithful : Faithful console)
    (handling : console.cpu = .handling ch) :
    Faithful (console.handle platform undefined ch) := by
  have line := faithful.line (by rw [handling]; nofun)
  have key (execute : List U8 → VgaState → VgaState) :=
    @handleKey_line execute console.shell faithful.short (typedWith console.handled).lines ch
  simp only [line] at key
  unfold Console.handle
  by_cases newline : ch = 0x0A
  · have ended : console.executed ++ [console.shell.line] =
        ((typedWith console.handled).key ch).lines := by
      rw [Typed.key, if_pos newline, faithful.executed, line]
    rw [if_pos newline]
    dsimp only
    rw [ended]
    cases executeLine platform undefined console.shell.line console.machine
        (putChar 0x0A console.shell.vga) with
    | none => exact faithful.ended handling
    | some result => exact faithful.edited handling result.1 (key _).1 (key _).2
  · rw [if_neg newline]
    have same : console.executed = ((typedWith console.handled).key ch).lines := by
      rw [Typed.key, if_neg newline, faithful.executed]
      split_ifs <;> rfl
    have edited := faithful.edited handling console.machine (key fun _ vga => vga).1 (key _).2
    rw [← same] at edited
    exact edited

/-- A step of the shell keeps it faithful. -/
theorem Faithful.advance (faithful : Faithful console) :
    Faithful (console.advance platform undefined) := by
  unfold Console.advance
  cases cpu : console.cpu with
  | polling => exact faithful.readKey cpu
  | handling ch => exact faithful.handle platform undefined cpu
  | halting =>
      have rest : console.Resting := .inl cpu
      obtain ⟨sound, idle, returned, short, executed, line, unseen, resting⟩ := faithful
      rw [Console.inHand, cpu] at returned
      have running : console.cpu ≠ .stopped := by rw [cpu]; nofun
      exact ⟨sound, fun _ => idle (by rw [cpu]; nofun), returned, short, executed,
        fun _ => line running, fun empty _ => unseen empty (.inr rest), fun _ => resting rest⟩
  | halted => exact faithful
  | stopped => exact faithful

/-- At first nothing has been typed. -/
theorem faithful_initial (keyboard : KeyboardState) (lineBuf : Vector U8 256) (machine : Machine) :
    Faithful (Console.initial keyboard lineBuf machine) where
  sound := sound_initial keyboard.ring.buf
  idle := fun busy => absurd rfl busy
  returned := rfl
  short := Nat.zero_le 255
  executed := rfl
  line := fun _ => List.take_zero
  unseen := by
    rintro - (busy | rest)
    · exact absurd rfl busy
    · exact absurd rest (by rintro (halting | halted) <;> contradiction)
  resting := fun rest => absurd rest (by rintro (halting | halted) <;> contradiction)

/-- Everything accepted has been handled, is about to be, or is buffered. -/
theorem Faithful.accepted_eq (faithful : Faithful console) :
    console.accepted = console.handled ++ (console.inHand ++ console.keyboard.ring.buffered) := by
  have fifo : console.accepted = console.returned ++ console.keyboard.ring.buffered :=
    faithful.sound.fifo
  rw [fifo, faithful.returned, List.append_assoc]

/-! ### Waking up -/

/-- Four steps take a byte out of a ring that is not empty. -/
theorem Faithful.poll_byte (faithful : Faithful console) (polling : console.cpu = .polling)
    (start : console.reader = .start) (some : console.keyboard.ring.buffered ≠ []) :
    ∃ ch, ((consoles platform undefined).run console (List.replicate 4 .step)).cpu =
        .handling ch ∧
      ((consoles platform undefined).run console (List.replicate 4 .step)).accepted =
        console.accepted ∧
      ((consoles platform undefined).run console (List.replicate 4 .step)).returned =
        console.returned ++ [ch] := by
  have apart : console.keyboard.ring.head ≠ console.keyboard.ring.tail := fun same =>
    some ((buffered_eq_nil_iff faithful.sound).mpr same)
  obtain ⟨keyboard, reader, cpu, lineBuf, lineLen, machine, accepted, given, handled, lines,
    emptyAtLoad, unseen⟩ := console
  obtain rfl : cpu = .polling := polling
  obtain rfl : reader = .start := start
  refine ⟨keyboard.ring.buf keyboard.ring.tail.toNat, ?_⟩
  simp only [System.run, List.replicate, List.foldl, consoles, Console.advance, Console.readKey,
    readKeyStep, if_neg apart]
  refine ⟨trivial, trivial, ?_⟩
  change given ++ [] ++ [] ++ [] ++ [_] = given ++ [_]
  rw [List.append_nil, List.append_nil, List.append_nil]

/-- Three steps halt the processor at an empty ring. -/
theorem Faithful.poll_empty (faithful : Faithful console) (polling : console.cpu = .polling)
    (start : console.reader = .start) (empty : console.keyboard.ring.buffered = []) :
    ((consoles platform undefined).run console (List.replicate 3 .step)).cpu = .halted ∧
      ((consoles platform undefined).run console (List.replicate 3 .step)).accepted =
        console.accepted ∧
      ((consoles platform undefined).run console (List.replicate 3 .step)).handled =
        console.handled := by
  have same : console.keyboard.ring.head = console.keyboard.ring.tail :=
    (buffered_eq_nil_iff faithful.sound).mp empty
  obtain ⟨keyboard, reader, cpu, lineBuf, lineLen, machine, accepted, given, handled, lines,
    emptyAtLoad, unseen⟩ := console
  obtain rfl : cpu = .polling := polling
  obtain rfl : reader = .start := start
  simp only [System.run, List.replicate, List.foldl, consoles, Console.advance, Console.readKey,
    readKeyStep, if_pos same]
  exact ⟨trivial, trivial, trivial⟩

/-- The loop is about to load the head of an empty ring. -/
def Console.AtEmpty (console : Console Machine) : Prop :=
  console.cpu = .polling ∧ console.reader = .start ∧ console.keyboard.ring.buffered = []

/-- A byte that arrives behind the load of the head is not seen before the processor halts. -/
theorem Faithful.sleeps (faithful : Faithful console) (atEmpty : console.AtEmpty)
    {scancode ch : U8} (byte : typedByte scancode console.keyboard = some ch) :
    let asleep := (consoles platform undefined).run console
      [.step, .interrupt scancode, .step, .step]
    asleep.cpu = .halted ∧ asleep.handled = console.handled ∧
      asleep.accepted = console.handled ++ [ch] := by
  obtain ⟨polling, start, empty⟩ := atEmpty
  have same : console.keyboard.ring.head = console.keyboard.ring.tail :=
    (buffered_eq_nil_iff faithful.sound).mp empty
  have all : console.accepted = console.handled := by
    rw [faithful.accepted_eq, empty, Console.inHand, polling, List.append_nil, List.append_nil]
  have room : console.keyboard.ring.HasRoom := by
    by_contra full
    have length : console.keyboard.ring.buffered.length = 255 :=
      length_buffered_of_full faithful.sound full
    rw [empty] at length
    cases length
  have taken : console.acceptedNow scancode = [ch] := by
    rw [Console.acceptedNow, if_pos room, byte, Option.toList_some]
  have tail : console.keyboard.ring.head =
      (handleKeyboardInterrupt scancode console.keyboard).ring.tail :=
    same.trans (tail_handleKeyboardInterrupt scancode console.keyboard).symm
  have now : console.accepted ++ console.acceptedNow scancode = console.handled ++ [ch] := by
    rw [all, taken]
  obtain ⟨keyboard, reader, cpu, lineBuf, lineLen, machine, accepted, given, handled, lines,
    emptyAtLoad, unseen⟩ := console
  obtain rfl : cpu = .polling := polling
  obtain rfl : reader = .start := start
  simp only [System.run, List.foldl, consoles, Console.advance, Console.readKey, readKeyStep,
    Console.interrupt, reduceCtorEq, ↓reduceIte, if_pos tail]
  exact ⟨trivial, trivial, now⟩

/-- Handling a byte leaves the ring alone, and the loop starts again if it goes on. -/
theorem handle_keeps (console : Console Machine) (ch : U8) :
    (console.handle platform undefined ch).keyboard.ring = console.keyboard.ring ∧
      (console.handle platform undefined ch).reader = console.reader ∧
      (console.handle platform undefined ch).accepted = console.accepted ∧
      ((console.handle platform undefined ch).cpu = .polling ∨
        (console.handle platform undefined ch).cpu = .stopped) := by
  unfold Console.handle
  by_cases newline : ch = 0x0A
  · rw [if_pos newline]
    dsimp only
    cases executeLine platform undefined console.shell.line console.machine
        (putChar 0x0A console.shell.vga) with
    | none => exact ⟨rfl, rfl, rfl, .inr rfl⟩
    | some result => exact ⟨rfl, rfl, rfl, .inl rfl⟩
  · rw [if_neg newline]
    exact ⟨rfl, rfl, rfl, .inl rfl⟩

/-- A stopped processor stays as it is. -/
theorem run_stopped (stopped : console.cpu = .stopped) (count : Nat) :
    (consoles platform undefined).run console (List.replicate count .step) = console := by
  have stays : (consoles platform undefined).step console .step = console := by
    change console.advance platform undefined = console
    rw [Console.advance, stopped]
  induction count with
  | zero => rfl
  | succ count ih => rw [List.replicate_succ, System.run_cons, stays, ih]

/-- Either kind of event keeps the console faithful. -/
theorem Faithful.step (faithful : Faithful console) (event : Event) :
    Faithful ((consoles platform undefined).step console event) := by
  cases event with
  | interrupt scancode => exact faithful.interrupt scancode
  | step => exact faithful.advance platform undefined

theorem Faithful.run (faithful : Faithful console) (events : List Event) :
    Faithful ((consoles platform undefined).run console events) := by
  have every : (consoles platform undefined).Along (fun _ _ => True) console events :=
    System.along_of_forall fun _ _ _ => trivial
  exact System.invariant_run Faithful
    (fun _ event held _ => held.step platform undefined event) faithful every

/-- Left alone, the loop handles what is buffered and halts, unless a command stops it. -/
theorem Faithful.drains (faithful : Faithful console) (polling : console.cpu = .polling)
    (start : console.reader = .start) {count : Nat}
    (length : console.keyboard.ring.buffered.length = count) :
    let after := (consoles platform undefined).run console (List.replicate (5 * count + 3) .step)
    after.cpu = .stopped ∨
      after.cpu = .halted ∧ after.accepted = console.accepted ∧
        after.handled = console.accepted := by
  induction count generalizing console with
  | zero =>
      have empty := List.eq_nil_of_length_eq_zero length
      obtain ⟨halted, accepted, handled⟩ :=
        faithful.poll_empty platform undefined polling start empty
      refine .inr ⟨halted, accepted, handled.trans ?_⟩
      rw [faithful.accepted_eq, empty, Console.inHand, polling, List.append_nil, List.append_nil]
  | succ count ih =>
      have some : console.keyboard.ring.buffered ≠ [] := by
        rw [← List.length_pos_iff, length]
        exact Nat.succ_pos count
      obtain ⟨ch, handling, accepted, returned⟩ :=
        faithful.poll_byte platform undefined polling start some
      have polled := faithful.run platform undefined (List.replicate 4 .step)
      have total : 5 * (count + 1) + 3 = 4 + (1 + (5 * count + 3)) := by omega
      rw [total, List.replicate_add, List.replicate_add, System.run_append, System.run_append]
      generalize (consoles platform undefined).run console (List.replicate 4 .step) = now at *
      -- the byte is handled, and one byte less is buffered
      have one : (consoles platform undefined).run now (List.replicate 1 .step) =
          now.handle platform undefined ch := by
        change now.advance platform undefined = _
        rw [Console.advance, handling]
      have next := polled.handle platform undefined handling
      obtain ⟨ring, reader, same, goesOn⟩ := handle_keeps platform undefined now ch
      rw [one]
      rcases goesOn with again | stopped
      · have shorter :
            (now.handle platform undefined ch).keyboard.ring.buffered.length = count := by
          have before : console.accepted = console.returned ++ console.keyboard.ring.buffered :=
            faithful.sound.fifo
          have after : now.accepted = now.returned ++ now.keyboard.ring.buffered :=
            polled.sound.fifo
          have lengths := congrArg List.length (before.symm.trans (accepted.symm.trans after))
          rw [returned, List.length_append, List.length_append, List.length_append, length,
            List.length_singleton] at lengths
          rw [ring]
          omega
        have rests : now.reader = .start := polled.idle (by rw [handling]; nofun)
        have rest := ih next again (reader.trans rests) shorter
        rwa [same, accepted] at rest
      · rw [run_stopped platform undefined stopped]
        exact .inl stopped

end Steps

/-! ### Runs -/

section Runs

variable {Machine : Type} (platform : Platform Machine) (undefined : Vector U8 20)
  (keyboard : KeyboardState) (lineBuf : Vector U8 256) (machine : Machine)

/-- An interrupt's byte is taken unless 255 bytes are buffered. -/
def Takes (console : Console Machine) : Event → Prop
  | .interrupt scancode =>
      console.cpu ≠ .stopped → console.keyboard.ring.buffered.length < 255 →
        (console.interrupt scancode).accepted =
          console.accepted ++ (typedByte scancode console.keyboard).toList
  | .step => True

/-- A byte typed while there is room is accepted. -/
theorem Faithful.takes {console : Console Machine} (faithful : Faithful console) (event : Event) :
    Takes console event := by
  cases event with
  | interrupt scancode =>
      intro running short
      have room : console.keyboard.ring.HasRoom := by
        by_contra full
        exact absurd (length_buffered_of_full faithful.sound full) (Nat.ne_of_lt short)
      rw [Console.interrupt, if_neg running, Console.acceptedNow, if_pos room]
  | step => trivial

/-- The lines run and the line being typed are those of the line editor on the bytes handled,
and the bytes accepted are these, the one in hand and the buffered ones. -/
def Typing (console : Console Machine) : Prop :=
  console.accepted = console.handled ++ (console.inHand ++ console.keyboard.ring.buffered) ∧
    console.executed = (typedWith console.handled).lines ∧
    (console.cpu ≠ .stopped → console.shell.line = (typedWith console.handled).line)

/-- **What is typed is run.** In every interleaving of keyboard interrupts and steps of the
shell, the bytes accepted are handled in their order, none twice and none left out, and the
lines run so far and the line being typed are those of a line editor on the bytes handled. The
byte of an interrupt is accepted unless 255 bytes are buffered or a command has not returned. -/
theorem typed_lines_executed (events : List Event) :
    (consoles platform undefined).Always Typing (.initial keyboard lineBuf machine) events ∧
      (consoles platform undefined).Along Takes (.initial keyboard lineBuf machine) events := by
  have every : (consoles platform undefined).Along (fun _ _ => True)
      (.initial keyboard lineBuf machine) events := System.along_of_forall fun _ _ _ => trivial
  have start := faithful_initial keyboard lineBuf machine
  constructor
  · refine System.always_of_invariant Faithful
      (fun _ event faithful _ => faithful.step platform undefined event) ?_ start every
    exact fun _ faithful => ⟨faithful.accepted_eq, faithful.executed, faithful.line⟩
  · exact System.along_of_invariant
      (fun _ event faithful _ => faithful.step platform undefined event)
      (fun _ event faithful _ => faithful.takes event) start every

/-- **Asleep with a key.** In every run the bytes accepted and not handled while the processor
is halted are those accepted since `read_key` last loaded the head. Every byte that arrives
between that load and `hlt` is left so: when the loop starts at an empty ring, the byte of an
interrupt after its first step is in the ring when it halts two steps later. -/
theorem asleep_exact (events : List Event) :
    (consoles platform undefined).Always
      (fun console =>
        (console.cpu = .halted → console.accepted = console.handled ++ console.unseen) ∧
          (console.AtEmpty → ∀ scancode ch, typedByte scancode console.keyboard = some ch →
            let asleep := (consoles platform undefined).run console
              [.step, .interrupt scancode, .step, .step]
            asleep.cpu = .halted ∧ asleep.handled = console.handled ∧
              asleep.accepted = console.handled ++ [ch]))
      (.initial keyboard lineBuf machine) events := by
  have every : (consoles platform undefined).Along (fun _ _ => True)
      (.initial keyboard lineBuf machine) events := System.along_of_forall fun _ _ _ => trivial
  refine System.always_of_invariant Faithful
    (fun _ event faithful _ => faithful.step platform undefined event) ?_
    (faithful_initial keyboard lineBuf machine) every
  intro console faithful
  constructor
  · intro halted
    have rest : console.Resting := .inr halted
    rw [faithful.accepted_eq, faithful.unseen (faithful.resting rest) (.inr rest),
      Console.inHand, halted, List.nil_append]
  · exact fun atEmpty scancode ch byte => faithful.sleeps platform undefined atEmpty byte

/-- **Any interrupt is enough.** A halted processor that is woken by any scancode and then
left alone handles every byte accepted so far and halts again, in five steps a byte and three
more, unless a command does not return. -/
theorem woken_handles_all (events : List Event) (scancode : U8)
    (halted : ((consoles platform undefined).run (.initial keyboard lineBuf machine) events).cpu =
      .halted) :
    let woken := ((consoles platform undefined).run (.initial keyboard lineBuf machine)
      events).interrupt scancode
    let after := (consoles platform undefined).run woken
      (List.replicate (5 * woken.keyboard.ring.buffered.length + 3) .step)
    after.cpu = .stopped ∨
      after.cpu = .halted ∧ after.accepted = woken.accepted ∧ after.handled = woken.accepted := by
  have faithful := (faithful_initial keyboard lineBuf machine).run platform undefined events
  generalize (consoles platform undefined).run (.initial keyboard lineBuf machine) events = console
    at *
  have running : console.cpu ≠ .stopped := by rw [halted]; nofun
  have polling : (console.interrupt scancode).cpu = .polling := by
    rw [Console.interrupt, if_neg running]
    exact if_pos halted
  have start : (console.interrupt scancode).reader = .start := by
    rw [Console.interrupt, if_neg running]
    exact faithful.idle (by rw [halted]; nofun)
  exact (faithful.interrupt scancode).drains platform undefined polling start rfl

end Runs

/-- A kernel without files. -/
def fileless : Platform Unit where
  freePages := fun _ => 0
  ataReadSector := fun _ => none
  vfsListPrint := fun _ => some
  vfsCatPrint := fun _ => some
  spawnProcess := fun _ => some

/-- The letter A arrives too late, and the release of its key has it handled. -/
theorem woken_handles_all_letter :
    let asleep := (consoles fileless (Vector.replicate 20 0)).run
      (.initial unused (Vector.replicate 256 0) ()) [.step, .interrupt 0x1E, .step, .step]
    let woken := asleep.interrupt 0x9E
    let after := (consoles fileless (Vector.replicate 20 0)).run woken
      (List.replicate (5 * woken.keyboard.ring.buffered.length + 3) .step)
    after.cpu = .stopped ∨
      after.cpu = .halted ∧ after.accepted = woken.accepted ∧ after.handled = woken.accepted := by
  have start := faithful_initial unused (Vector.replicate 256 0) ()
  have atEmpty : (Console.initial unused (Vector.replicate 256 0) ()).AtEmpty :=
    ⟨rfl, rfl, (buffered_eq_nil_iff start.sound).mpr rfl⟩
  have letter : typedByte 0x1E (Console.initial unused (Vector.replicate 256 0) ()).keyboard =
      some 0x61 := rfl
  exact woken_handles_all fileless (Vector.replicate 20 0) unused (Vector.replicate 256 0) ()
    [.step, .interrupt 0x1E, .step, .step] 0x9E
    (start.sleeps fileless (Vector.replicate 20 0) atEmpty letter).1

end Lofita.Keyboard
