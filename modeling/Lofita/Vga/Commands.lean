import Mathlib.Data.List.TakeWhile
import Lofita.Vga.Shell

/-! # The commands of the shell

`execute_line` of the shell (`shell.zig`) takes a line apart into a command and its
arguments and runs the command. The command is what stands before the first blank, and the
arguments are everything behind the blanks that follow it, blanks at the end included
(`tokens_exact`); a line that starts with a blank has no command.
-/

namespace Lofita.Vga

open Lofita.Foundation

/-- What the commands use of the rest of the kernel, on a machine of its own. A call without
a result does not return. -/
structure Platform (Machine : Type) where
  freePages : Machine → U64
  ataReadSector : Machine → Option (Machine × Vector U8 512)
  vfsListPrint : List U8 → Machine × VgaState → Option (Machine × VgaState)
  vfsCatPrint : List U8 → Machine × VgaState → Option (Machine × VgaState)
  spawnProcess : List U8 → Machine × VgaState → Option (Machine × VgaState)

def cmdHelp (vga : VgaState) : VgaState :=
  let vga := setColor .cyan .black vga
  let vga := print (text "Available commands:\n") vga
  let vga := print (text "  help                  Show this help message\n") vga
  let vga := print (text "  clear                 Clear the screen\n") vga
  let vga := print (text "  status                Show memory and kernel status\n") vga
  let vga := print (text "  diskinfo              Read sector 0 of ATA drive\n") vga
  let vga := print (text "  ls <path>             List directory contents\n") vga
  let vga := print (text "  cat <path>            Print file contents\n") vga
  let vga := print (text "  exec <path>           Execute an ELF binary\n") vga
  let vga := print (text "  echo <text>           Echo text back to the terminal\n") vga
  let vga := print (text "  reboot                Halt the system\n") vga
  setColor .white .black vga

/-- One row of `cmd_status`: megabytes and pages behind a label. -/
def printMemory (undefined : Vector U8 20) (label : String) (mb pages : U64) (vga : VgaState) :
    Option VgaState := do
  let vga ← printDec undefined mb (print (text label) vga)
  let vga ← printDec undefined pages (print (text " MB (") vga)
  return print (text " pages)\n") vga

def cmdStatus (undefined : Vector U8 20) (freePgs : U64) (vga : VgaState) : Option VgaState := do
  let totalPgs : U64 := 16384
  let usedPgs := totalPgs - freePgs
  let totalMb := totalPgs * 4096 / (1024 * 1024)
  let usedMb := usedPgs * 4096 / (1024 * 1024)
  let freeMb := freePgs * 4096 / (1024 * 1024)
  let vga := print (text "--- Lofita Kernel Status ---\n") (setColor .yellow .black vga)
  let vga := setColor .white .black vga
  let vga ← printMemory undefined "  Total Memory: " totalMb totalPgs vga
  let vga ← printMemory undefined "  Used Memory:  " usedMb usedPgs vga
  let vga ← printMemory undefined "  Free Memory:  " freeMb freePgs vga
  let vga := print (text "  VGA: 80x25 text mode @ 0xB8000\n") vga
  return print (text "  Architecture: x86_64, Long Mode\n") vga

def cmdEcho (args : List U8) (vga : VgaState) : VgaState := print (text "\n") (print args vga)

/-- The hexadecimal digits of a byte, the upper one first. -/
def printByte (byte : U8) (vga : VgaState) : VgaState :=
  putChar (hexDigits.getD (byte &&& 0xF).toNat 0)
    (putChar (hexDigits.getD ((byte >>> 4) &&& 0xF).toNat 0) vga)

section Dispatch

variable {Machine : Type} (platform : Platform Machine)

def cmdDiskinfo (machine : Machine) (vga : VgaState) : Option (Machine × VgaState) := do
  let vga := print (text "Reading Sector 0 from ATA Primary Master...\n") vga
  let (machine, buf) ← platform.ataReadSector machine
  let vga := print (text "Boot Signature (bytes 510-511): 0x") vga
  let vga := printByte buf[510] (printByte buf[511] vga)
  let vga := print (text "\n") vga
  let vga :=
    if buf[510] = 0x55 ∧ buf[511] = 0xAA then
      print (text "MBR Boot Signature VALID!\n") (setColor .lightGreen .black vga)
    else print (text "Invalid or missing Boot Signature.\n") (setColor .lightRed .black vga)
  return (machine, setColor .white .black vga)

def cmdLs (args : List U8) : Machine × VgaState → Option (Machine × VgaState) :=
  platform.vfsListPrint (if args.length = 0 then text "/" else args)

def cmdCat (args : List U8) (machine : Machine) (vga : VgaState) : Option (Machine × VgaState) :=
  if args.length = 0 then some (machine, print (text "Usage: cat <path>\n") vga)
  else platform.vfsCatPrint args (machine, vga)

def cmdExec (args : List U8) (machine : Machine) (vga : VgaState) : Option (Machine × VgaState) :=
  if args.length = 0 then some (machine, print (text "Usage: exec <path>\n") vga)
  else platform.spawnProcess args (machine, vga)

/-- The chain of comparisons of `execute_line`; `reboot` and `exit` do not return. -/
def dispatch (undefined : Vector U8 20) (cmd args : List U8) (machine : Machine) (vga : VgaState) :
    Option (Machine × VgaState) :=
  if cmd.length = 0 then some (machine, vga)
  else if cmd = text "help" then some (machine, cmdHelp vga)
  else if cmd = text "clear" then some (machine, clear vga)
  else if cmd = text "status" then do
    return (machine, ← cmdStatus undefined (platform.freePages machine) vga)
  else if cmd = text "diskinfo" then cmdDiskinfo platform machine vga
  else if cmd = text "ls" then cmdLs platform args (machine, vga)
  else if cmd = text "cat" then cmdCat platform args machine vga
  else if cmd = text "exec" then cmdExec platform args machine vga
  else if cmd = text "echo" then some (machine, cmdEcho args vga)
  else if cmd = text "reboot" ∨ cmd = text "exit" then none
  else
    let vga := print (text "Unknown command: ") (setColor .lightRed .black vga)
    let vga := setColor .white .black (print (text "\n") (print cmd vga))
    some (machine, print (text "Type 'help' for available commands.\n") vga)

end Dispatch

/-! ### The tokenizer -/

/-- A space or a tab. -/
def isBlank (byte : U8) : Bool := byte = 0x20 ∨ byte = 0x09

/-- A loop of `execute_line` that moves an index over the bytes of one kind. -/
def skip (kind : U8 → Bool) (bytes : List U8) (index : Nat) : Nat :=
  if inside : index < bytes.length then
    if kind bytes[index] then skip kind bytes (index + 1) else index
  else index
termination_by bytes.length - index

/-- `cmd` and `args` of a line. -/
def tokenize (line : List U8) : List U8 × List U8 :=
  let cmdEnd := skip (fun byte => !isBlank byte) line 0
  let argStart := skip isBlank line cmdEnd
  (line.take cmdEnd, if argStart < line.length then line.drop argStart else [])

/-- `execute_line`. -/
def executeLine {Machine : Type} (platform : Platform Machine) (undefined : Vector U8 20)
    (line : List U8) (machine : Machine) (vga : VgaState) : Option (Machine × VgaState) :=
  dispatch platform undefined (tokenize line).1 (tokenize line).2 machine vga

/-- A line is a command without blanks, blanks, and arguments that do not start with one;
only the end of the line or a blank ends the command. -/
structure Splits (line cmd args : List U8) : Prop where
  line_eq : ∃ gap, line = cmd ++ (gap ++ args) ∧ (∀ byte ∈ gap, isBlank byte = true) ∧
    (gap = [] → args = [])
  cmd_plain : ∀ byte ∈ cmd, isBlank byte = false
  args_plain : ∀ byte ∈ args.head?, isBlank byte = false

variable {line cmd args : List U8} {kind : U8 → Bool}

/-- The index behind the bytes of one kind that follow a position. -/
theorem skip_eq (kind : U8 → Bool) (line : List U8) (index : Nat) :
    skip kind line index = index + ((line.drop index).takeWhile kind).length := by
  fun_induction skip kind line index with
  | case1 index inside holds ih =>
      rw [ih, List.drop_eq_getElem_cons inside, List.takeWhile_cons_of_pos holds,
        List.length_cons]
      omega
  | case2 index inside fails =>
      rw [List.drop_eq_getElem_cons inside, List.takeWhile_cons_of_neg fails]
      rfl
  | case3 index outside =>
      rw [List.drop_eq_nil_of_le (Nat.le_of_not_lt outside)]
      rfl

theorem drop_length_takeWhile (kind : U8 → Bool) (line : List U8) :
    line.drop (line.takeWhile kind).length = line.dropWhile kind := by
  conv => lhs; arg 2; rw [← List.takeWhile_append_dropWhile (p := kind) (l := line)]
  exact List.drop_left

/-- The command is the first word of the line, the arguments are what follows the blanks
behind it. -/
theorem tokenize_eq (line : List U8) :
    tokenize line =
      (line.takeWhile (fun byte => !isBlank byte),
        (line.dropWhile (fun byte => !isBlank byte)).dropWhile isBlank) := by
  have cmdEnd := skip_eq (fun byte => !isBlank byte) line 0
  rw [List.drop_zero, Nat.zero_add] at cmdEnd
  have argStart := skip_eq isBlank line (line.takeWhile fun byte => !isBlank byte).length
  rw [drop_length_takeWhile] at argStart
  unfold tokenize
  simp only [cmdEnd, argStart]
  refine Prod.ext (List.prefix_iff_eq_take.mp (List.takeWhile_prefix _)).symm ?_
  rw [← drop_length_takeWhile isBlank, ← drop_length_takeWhile _ line, List.drop_drop]
  split_ifs with inside
  · rfl
  · exact (List.drop_eq_nil_of_le (Nat.le_of_not_lt inside)).symm

theorem splits_tokenize (line : List U8) : Splits line (tokenize line).1 (tokenize line).2 := by
  rw [tokenize_eq]
  refine ⟨⟨(line.dropWhile fun byte => !isBlank byte).takeWhile isBlank, ?_, ?_, ?_⟩, ?_, ?_⟩
  · rw [List.takeWhile_append_dropWhile, List.takeWhile_append_dropWhile]
  · exact fun byte member => List.mem_takeWhile_imp member
  · intro none
    cases rest : line.dropWhile fun byte => !isBlank byte with
    | nil => rfl
    | cons byte behind =>
        -- the byte that ends the command is a blank
        have ends := List.head?_dropWhile_not (fun byte => !isBlank byte) line
        rw [rest] at none ends
        simp only [List.head?_cons, Bool.not_eq_false'] at ends
        rw [List.takeWhile_cons_of_pos ends] at none
        cases none
  · intro byte member
    simpa using List.mem_takeWhile_imp member
  · intro byte first
    have ends := List.head?_dropWhile_not isBlank (line.dropWhile fun byte => !isBlank byte)
    rw [Option.mem_def.mp first] at ends
    simpa using ends

theorem Splits.tokenize_eq (splits : Splits line cmd args) : tokenize line = (cmd, args) := by
  obtain ⟨⟨gap, rfl, blanks, needed⟩, cmdPlain, argsPlain⟩ := splits
  have stops : args.dropWhile isBlank = args := by
    cases args with
    | nil => rfl
    | cons byte behind => exact List.dropWhile_cons_of_neg (by simp [argsPlain byte rfl])
  rw [Vga.tokenize_eq]
  cases gap with
  | nil =>
      have word : cmd.takeWhile (fun byte => !isBlank byte) = cmd :=
        List.takeWhile_eq_self_iff.mpr (by simpa using cmdPlain)
      have behind : cmd.dropWhile (fun byte => !isBlank byte) = [] :=
        List.dropWhile_eq_nil_iff.mpr (by simpa using cmdPlain)
      rw [needed rfl, List.append_nil, List.append_nil, word, behind]
      rfl
  | cons blank gap =>
      have ends : isBlank blank = true := blanks blank List.mem_cons_self
      rw [List.takeWhile_append_of_pos (by simpa using cmdPlain),
        List.dropWhile_append_of_pos (by simpa using cmdPlain), List.cons_append,
        List.takeWhile_cons_of_neg (by simp [ends]), List.dropWhile_cons_of_neg (by simp [ends]),
        List.append_nil, ← List.cons_append, List.dropWhile_append_of_pos blanks, stops]

/-- **What a line says.** `execute_line` takes a line apart into a command and arguments in
exactly the one way in which the command has no blank, the arguments do not start with one,
and the two are apart by blanks and nothing else. -/
theorem tokens_exact (line cmd args : List U8) :
    tokenize line = (cmd, args) ↔ Splits line cmd args := by
  constructor
  · intro tokens
    have splits := splits_tokenize line
    rwa [tokens] at splits
  · exact Splits.tokenize_eq

end Lofita.Vga
