import Lofita.Keyboard.Ring
import Lofita.Vga.Numbers

/-! # Scancodes

The interrupt handler of the keyboard driver (`drivers/keyboard.zig`): it follows the
modifier keys, translates the make codes of the other keys with one of two tables, adjusts
the case of letters and puts the character into the ring. One flag stands for both Shift
keys, with Caps Lock on every letter ends up in lower case, and the second byte of a key with
a prefix is taken for that of a key without, so that the case of a letter follows the
modifier keys only in the histories that `letter_case_iff` names.
-/

namespace Lofita.Keyboard

open Lofita.Foundation Lofita.Vga

/-- A table of 128 bytes that is zero but for the bytes assigned to. -/
def scancodeTable (assigned : List (Nat × Char)) (code : U8) : U8 :=
  match assigned.lookup code.toNat with
  | some char => BitVec.ofNat 8 char.toNat
  | none => 0

/-- `SCANCODE_NORMAL`. -/
def scancodeNormal : U8 → U8 :=
  scancodeTable
    [(0x01, Char.ofNat 0x1B), (0x02, '1'), (0x03, '2'), (0x04, '3'), (0x05, '4'), (0x06, '5'),
      (0x07, '6'), (0x08, '7'), (0x09, '8'), (0x0A, '9'), (0x0B, '0'), (0x0C, '-'), (0x0D, '='),
      (0x0E, Char.ofNat 0x08), (0x0F, Char.ofNat 0x09), (0x10, 'q'), (0x11, 'w'), (0x12, 'e'),
      (0x13, 'r'), (0x14, 't'), (0x15, 'y'), (0x16, 'u'), (0x17, 'i'), (0x18, 'o'), (0x19, 'p'),
      (0x1A, '['), (0x1B, ']'), (0x1C, Char.ofNat 0x0A), (0x1E, 'a'), (0x1F, 's'), (0x20, 'd'),
      (0x21, 'f'), (0x22, 'g'), (0x23, 'h'), (0x24, 'j'), (0x25, 'k'), (0x26, 'l'), (0x27, ';'),
      (0x28, Char.ofNat 0x27), (0x29, Char.ofNat 0x60), (0x2B, Char.ofNat 0x5C), (0x2C, 'z'),
      (0x2D, 'x'), (0x2E, 'c'), (0x2F, 'v'), (0x30, 'b'), (0x31, 'n'), (0x32, 'm'), (0x33, ','),
      (0x34, '.'), (0x35, '/'), (0x39, ' ')]

/-- `SCANCODE_SHIFT`. -/
def scancodeShift : U8 → U8 :=
  scancodeTable
    [(0x02, '!'), (0x03, '@'), (0x04, '#'), (0x05, '$'), (0x06, '%'), (0x07, '^'), (0x08, '&'),
      (0x09, '*'), (0x0A, '('), (0x0B, ')'), (0x0C, '_'), (0x0D, '+'), (0x0E, Char.ofNat 0x08),
      (0x0F, Char.ofNat 0x09), (0x10, 'Q'), (0x11, 'W'), (0x12, 'E'), (0x13, 'R'), (0x14, 'T'),
      (0x15, 'Y'), (0x16, 'U'), (0x17, 'I'), (0x18, 'O'), (0x19, 'P'), (0x1A, Char.ofNat 0x7B),
      (0x1B, Char.ofNat 0x7D), (0x1C, Char.ofNat 0x0A), (0x1E, 'A'), (0x1F, 'S'), (0x20, 'D'),
      (0x21, 'F'), (0x22, 'G'), (0x23, 'H'), (0x24, 'J'), (0x25, 'K'), (0x26, 'L'), (0x27, ':'),
      (0x28, Char.ofNat 0x22), (0x29, '~'), (0x2B, '|'), (0x2C, 'Z'), (0x2D, 'X'), (0x2E, 'C'),
      (0x2F, 'V'), (0x30, 'B'), (0x31, 'N'), (0x32, 'M'), (0x33, '<'), (0x34, '>'), (0x35, '?'),
      (0x39, ' ')]

/-- The keys the handler treats as modifiers. -/
def scancodeLShift : U8 := 0x2A

def scancodeRShift : U8 := 0x36

def scancodeLCtrl : U8 := 0x1D

def scancodeLAlt : U8 := 0x38

def scancodeCapsLock : U8 := 0x3A

/-- The modifiers as the driver keeps them, and the buffer of keys. -/
structure KeyboardState where
  ring : Ring
  shiftPressed : Bool
  ctrlPressed : Bool
  altPressed : Bool
  capsLock : Bool
  debugKbCount : U8
  vga : VgaState

/-- The spinner and the scancode at the top right of the screen. -/
def showScancode (scancode : U8) (keyboard : KeyboardState) : KeyboardState :=
  let count := keyboard.debugKbCount + 1
  let spinner : List U8 := [0x7C, 0x2F, 0x2D, 0x5C]
  let screen := keyboard.vga.buffer.store 79 (cell (spinner.getD (count % 4).toNat 0) 0x0E)
  let screen := screen.store 70 (cell 0x53 0x0C)
  let screen := screen.store 71 (cell 0x3A 0x0C)
  let screen := screen.store 72 (cell (hexDigits.getD ((scancode >>> 4) &&& 0xF).toNat 0) 0x0C)
  let screen := screen.store 73 (cell (hexDigits.getD (scancode &&& 0xF).toNat 0) 0x0C)
  { keyboard with debugKbCount := count, vga := { keyboard.vga with buffer := screen } }

/-- The character `ch` of the handler, after both adjustments for Caps Lock. -/
def character (code : U8) (keyboard : KeyboardState) : U8 :=
  let ch := if keyboard.shiftPressed then scancodeShift code else scancodeNormal code
  let ch := if keyboard.capsLock ∧ 0x61 ≤ ch ∧ ch ≤ 0x7A then ch - 32 else ch
  if keyboard.capsLock ∧ 0x41 ≤ ch ∧ ch ≤ 0x5A then ch + 32 else ch

/-- `handle_keyboard_interrupt`, with the byte read from the keyboard controller. -/
def handleKeyboardInterrupt (scancode : U8) (keyboard : KeyboardState) : KeyboardState :=
  let keyboard := showScancode scancode keyboard
  if scancode = 0xE0 then keyboard
  else
    let isRelease : Bool := (scancode &&& 0x80) ≠ 0
    let code := scancode &&& 0x7F
    if code = scancodeLShift ∨ code = scancodeRShift then
      { keyboard with shiftPressed := !isRelease }
    else if code = scancodeLCtrl then { keyboard with ctrlPressed := !isRelease }
    else if code = scancodeLAlt then { keyboard with altPressed := !isRelease }
    else if code = scancodeCapsLock ∧ ¬ isRelease then
      { keyboard with capsLock := !keyboard.capsLock }
    else if isRelease then keyboard
    else
      let ch := character code keyboard
      if ch ≠ 0 then { keyboard with ring := keyboard.ring.put ch } else keyboard

/-- `keyboard_init`. -/
def keyboardInit (keyboard : KeyboardState) : KeyboardState :=
  let message := text "[KB] PS/2 keyboard initialized -- IRQ1 active.\n"
  { keyboard with
    shiftPressed := false, ctrlPressed := false, altPressed := false, capsLock := false
    ring := { keyboard.ring with head := 0, tail := 0 }
    vga := setColor .white .black (print message (setColor .green .black keyboard.vga)) }

/-- The driver, handling one scancode byte after the other. -/
def interrupts : System KeyboardState U8 where
  step := fun keyboard scancode => handleKeyboardInterrupt scancode keyboard

/-! ### Histories of scancodes -/

/-- The byte that precedes the code of an extended key. -/
def extendedPrefix : U8 := 0xE0

/-- The bytes of a history that keys have sent without a prefix. -/
def plainBytes : (extended : Bool) → List U8 → List U8
  | _, [] => []
  | extended, byte :: rest =>
      if byte = extendedPrefix then plainBytes true rest
      else if extended then plainBytes false rest
      else byte :: plainBytes false rest

/-- The last byte of a history that has the code of one of the given keys. -/
def lastEvent (keys before : List U8) : Option U8 :=
  (before.filter fun byte => byte &&& 0x7F ∈ keys).getLast?

/-- A key is held when its last byte was its make code. -/
def Held (key : U8) (before : List U8) : Prop :=
  lastEvent [key] (plainBytes false before) = some key

instance decidableHeld (key : U8) (before : List U8) : Decidable (Held key before) :=
  inferInstanceAs (Decidable (_ = _))

/-- One of the two Shift keys is held. -/
def ShiftHeld (before : List U8) : Prop :=
  Held scancodeLShift before ∨ Held scancodeRShift before

instance decidableShiftHeld (before : List U8) : Decidable (ShiftHeld before) :=
  inferInstanceAs (Decidable (_ ∨ _))

/-- The make code of Caps Lock has occurred an odd number of times. -/
def CapsOn (before : List U8) : Prop := (plainBytes false before).count scancodeCapsLock % 2 = 1

instance decidableCapsOn (before : List U8) : Decidable (CapsOn before) :=
  inferInstanceAs (Decidable (_ = _))

/-- The last byte with the code of a Shift key, also that of an extended key, was a make
code. -/
def LastShiftMade (before : List U8) : Prop :=
  lastEvent [scancodeLShift, scancodeRShift] before = some scancodeLShift ∨
    lastEvent [scancodeLShift, scancodeRShift] before = some scancodeRShift

instance decidableLastShiftMade (before : List U8) : Decidable (LastShiftMade before) :=
  inferInstanceAs (Decidable (_ ∨ _))

/-- The make code of Caps Lock, also as that of an extended key, has occurred an odd number
of times. -/
def OddCapsBytes (before : List U8) : Prop := before.count scancodeCapsLock % 2 = 1

instance decidableOddCapsBytes (before : List U8) : Decidable (OddCapsBytes before) :=
  inferInstanceAs (Decidable (_ = _))

/-- The character is a capital letter. -/
def IsUpper (ch : U8) : Prop := 0x41 ≤ ch ∧ ch ≤ 0x5A

instance decidableIsUpper (ch : U8) : Decidable (IsUpper ch) :=
  inferInstanceAs (Decidable (0x41 ≤ ch ∧ ch ≤ 0x5A))

/-- The make codes that the plain table translates to a letter. -/
def IsLetterKey (code : U8) : Prop :=
  code < 0x80 ∧ 0x61 ≤ scancodeNormal code ∧ scancodeNormal code ≤ 0x7A

instance decidableIsLetterKey (code : U8) : Decidable (IsLetterKey code) :=
  inferInstanceAs
    (Decidable (code < 0x80 ∧ 0x61 ≤ scancodeNormal code ∧ scancodeNormal code ≤ 0x7A))

/-- The character for a letter is upper case exactly if one of Shift and Caps Lock is on. -/
def FollowsModifiers (before : List U8) (code : U8) (keyboard : KeyboardState) : Prop :=
  IsUpper (character code keyboard) ↔
    (ShiftHeld before ∧ ¬ CapsOn before) ∨ (CapsOn before ∧ ¬ ShiftHeld before)

instance decidableFollowsModifiers (before : List U8) (code : U8) (keyboard : KeyboardState) :
    Decidable (FollowsModifiers before code keyboard) :=
  inferInstanceAs (Decidable (_ ↔ _))

/-- After an odd number of bytes 0x3A, Shift and Caps Lock are both on or both off; after an
even number the last byte with the code of a Shift key was a make code exactly if one of them
is on. -/
def CaseReliable (before : List U8) : Prop :=
  if OddCapsBytes before then ShiftHeld before ↔ CapsOn before
  else LastShiftMade before ↔
    (ShiftHeld before ∧ ¬ CapsOn before) ∨ (CapsOn before ∧ ¬ ShiftHeld before)

instance decidableCaseReliable (before : List U8) : Decidable (CaseReliable before) :=
  inferInstanceAs (Decidable (ite _ _ _))

/-! ### The flags and the history -/

/-- A new byte is the last event of its key, and of no other. -/
theorem lastEvent_append (keys before : List U8) (byte : U8) :
    lastEvent keys (before ++ [byte]) =
      if byte &&& 0x7F ∈ keys then some byte else lastEvent keys before := by
  unfold lastEvent
  rw [List.filter_append, List.filter_singleton]
  by_cases member : byte &&& 0x7F ∈ keys
  · rw [decide_eq_true member, if_pos member]
    exact List.getLast?_concat
  · rw [decide_eq_false member, if_neg member]
    exact congrArg List.getLast? (List.append_nil _)

/-- Caps Lock has one make code. -/
theorem capsLock_make_iff : ∀ byte : U8,
    byte &&& 0x7F = scancodeCapsLock ∧ byte &&& 0x80 = 0 ↔ byte = scancodeCapsLock := by
  decide +kernel

/-- Of the two bytes that a Shift key sends the one without the release bit is its make
code. -/
theorem shift_make_iff : ∀ byte : U8, byte &&& 0x7F ∈ [scancodeLShift, scancodeRShift] →
    (byte &&& 0x80 = 0 ↔ byte = scancodeLShift ∨ byte = scancodeRShift) := by
  decide +kernel

/-- The Shift flag follows the last byte of a Shift key, prefixed or not. -/
theorem shiftPressed_handle (scancode : U8) (keyboard : KeyboardState) :
    (handleKeyboardInterrupt scancode keyboard).shiftPressed =
      if scancode &&& 0x7F ∈ [scancodeLShift, scancodeRShift] then
        decide (scancode &&& 0x80 = 0)
      else keyboard.shiftPressed := by
  unfold handleKeyboardInterrupt
  by_cases escape : scancode = 0xE0
  · rw [if_pos escape, escape, if_neg (by decide)]
    rfl
  · rw [if_neg escape]
    dsimp only
    by_cases shift : scancode &&& 0x7F = scancodeLShift ∨ scancode &&& 0x7F = scancodeRShift
    · have member : scancode &&& 0x7F ∈ [scancodeLShift, scancodeRShift] := by
        simpa only [List.mem_cons, List.not_mem_nil, or_false] using shift
      rw [if_pos shift, if_pos member]
      simp only [ne_eq, decide_not, Bool.not_not]
    · have other : scancode &&& 0x7F ∉ [scancodeLShift, scancodeRShift] := by
        simpa only [List.mem_cons, List.not_mem_nil, or_false] using shift
      rw [if_neg shift, if_neg other]
      split_ifs <;> rfl

/-- The Caps Lock flag turns with each of its make codes. -/
theorem capsLock_handle (scancode : U8) (keyboard : KeyboardState) :
    (handleKeyboardInterrupt scancode keyboard).capsLock =
      if scancode = scancodeCapsLock then !keyboard.capsLock else keyboard.capsLock := by
  unfold handleKeyboardInterrupt
  by_cases lock : scancode = scancodeCapsLock
  · rw [if_pos lock, lock]
    rfl
  · have other : ¬ (scancode &&& 0x7F = scancodeCapsLock ∧ scancode &&& 0x80 = 0) :=
      fun both => lock ((capsLock_make_iff scancode).mp both)
    rw [if_neg lock]
    simp only [ne_eq, decide_not, Bool.not_eq_true', decide_eq_false_iff_not, not_not, other,
      ↓reduceIte]
    split_ifs <;> rfl

/-- After every history the flags are those that the history calls for. -/
theorem flags_after (keyboard : KeyboardState) (before : List U8) :
    ((interrupts.run (keyboardInit keyboard) before).shiftPressed = true ↔
      LastShiftMade before) ∧
    ((interrupts.run (keyboardInit keyboard) before).capsLock = true ↔ OddCapsBytes before) := by
  induction before using List.reverseRecOn with
  | nil =>
      have none : ¬ LastShiftMade [] := by
        rintro (left | right)
        · cases left
        · cases right
      exact ⟨iff_of_false Bool.false_ne_true none, iff_of_false Bool.false_ne_true Nat.zero_ne_one⟩
  | append_singleton before byte ih =>
      rw [System.run_append, System.run_cons, System.run_nil]
      change ((handleKeyboardInterrupt byte _).shiftPressed = true ↔ _) ∧
        ((handleKeyboardInterrupt byte _).capsLock = true ↔ _)
      rw [shiftPressed_handle, capsLock_handle]
      constructor
      · unfold LastShiftMade
        rw [lastEvent_append]
        by_cases member : byte &&& 0x7F ∈ [scancodeLShift, scancodeRShift]
        · rw [if_pos member, if_pos member, decide_eq_true_iff, Option.some.injEq,
            Option.some.injEq]
          exact shift_make_iff byte member
        · rw [if_neg member, if_neg member]
          exact ih.1
      · unfold OddCapsBytes
        rw [List.count_append]
        by_cases lock : byte = scancodeCapsLock
        · have once : [byte].count scancodeCapsLock = 1 := by rw [lock]; rfl
          rw [if_pos lock, once, Bool.not_eq_true', ← Bool.not_eq_true, ih.2, OddCapsBytes]
          omega
        · have never : [byte].count scancodeCapsLock = 0 :=
            List.count_eq_zero.mpr fun member => lock (List.mem_singleton.mp member).symm
          rw [if_neg lock, never, Nat.add_zero]
          exact ih.2

/-- A key that has sent the last byte of several keys has sent its own last byte. -/
theorem lastEvent_single {key : U8} {keys before : List U8} (member : key ∈ keys)
    (make : key &&& 0x7F = key) (last : lastEvent keys before = some key) :
    lastEvent [key] before = some key := by
  induction before using List.reverseRecOn with
  | nil => cases last
  | append_singleton before byte ih =>
      rw [lastEvent_append] at last ⊢
      by_cases sent : byte &&& 0x7F ∈ keys
      · rw [if_pos sent, Option.some.injEq] at last
        rw [last, make, if_pos (List.mem_singleton_self key)]
      · rw [if_neg sent] at last
        have other : byte &&& 0x7F ∉ [key] := by
          intro same
          rw [List.mem_singleton.mp same] at sent
          exact sent member
        rw [if_neg other]
        exact ih last

/-- Without a prefix every byte is a key's own. -/
theorem plainBytes_of_unprefixed {before : List U8} (plain : extendedPrefix ∉ before) :
    plainBytes false before = before := by
  induction before with
  | nil => rfl
  | cons byte rest ih =>
      obtain ⟨other, later⟩ := not_or.mp (mt List.mem_cons.mpr plain)
      rw [plainBytes, if_neg (Ne.symm other), if_neg Bool.false_ne_true, ih later]

/-- Without a prefix a Shift key pressed last is held. -/
theorem LastShiftMade.shiftHeld {before : List U8} (plain : extendedPrefix ∉ before)
    (made : LastShiftMade before) : ShiftHeld before := by
  unfold ShiftHeld Held
  rw [plainBytes_of_unprefixed plain]
  exact made.imp (lastEvent_single (by decide) (by decide))
    (lastEvent_single (by decide) (by decide))

/-- Without extended keys the case is reliable exactly if with Caps Lock off no Shift key has
been released under the other one, and with Caps Lock on some Shift key is held. -/
theorem caseReliable_iff_of_no_prefix {before : List U8} (plain : extendedPrefix ∉ before) :
    CaseReliable before ↔
      if CapsOn before then ShiftHeld before else ShiftHeld before → LastShiftMade before := by
  have same : OddCapsBytes before ↔ CapsOn before := by
    rw [CapsOn, plainBytes_of_unprefixed plain, OddCapsBytes]
  have held := @LastShiftMade.shiftHeld before plain
  unfold CaseReliable
  by_cases locked : CapsOn before
  · rw [if_pos (same.mpr locked), if_pos locked]
    exact iff_true_right locked
  · rw [if_neg (mt same.mp locked), if_neg locked]
    simp only [locked, not_false_eq_true, and_true, false_and, or_false]
    exact ⟨Iff.mpr, fun last => ⟨held, last⟩⟩

/-! ### Letters -/

/-- A letter key is no modifier, and has a make code. -/
theorem code_of_letter : ∀ code : U8, IsLetterKey code →
    code ≠ 0xE0 ∧ code &&& 0x80 = 0 ∧ code &&& 0x7F = code ∧
      code ∉ [scancodeLShift, scancodeRShift, scancodeLCtrl, scancodeLAlt, scancodeCapsLock] := by
  decide +kernel

/-- A letter is upper case if Shift is on and Caps Lock is not: with Caps Lock on the second
adjustment takes back what the first has done. -/
theorem isUpper_character {code : U8} (letter : IsLetterKey code) (keyboard : KeyboardState) :
    character code keyboard ≠ 0 ∧
      (IsUpper (character code keyboard) ↔
        keyboard.shiftPressed = true ∧ ¬ keyboard.capsLock = true) := by
  unfold character
  generalize keyboard.shiftPressed = shift
  generalize keyboard.capsLock = caps
  revert code shift caps
  decide +kernel

/-- A letter key puts its character into the buffer. -/
theorem ring_handle {code : U8} (letter : IsLetterKey code) (keyboard : KeyboardState) :
    (handleKeyboardInterrupt code keyboard).ring =
      keyboard.ring.put (character code keyboard) := by
  obtain ⟨single, make, same, plain⟩ := code_of_letter code letter
  have some := (isUpper_character letter (showScancode code keyboard)).1
  simp only [List.mem_cons, List.not_mem_nil, or_false, not_or] at plain
  simp only [handleKeyboardInterrupt, single, same, plain, make, some, ne_eq, not_true_eq_false,
    decide_false, Bool.false_eq_true, not_false_eq_true, and_true, or_self, ↓reduceIte]
  rfl

/-- **The case of letters.** After every history of scancodes the make code of a letter
puts the character of the letter into the ring, and its case follows the modifier keys
exactly if the history is one in which the two flags of the driver, which takes extended keys
for plain ones and two Shift keys for one, call for the same case. -/
theorem letter_case_iff (keyboard : KeyboardState) (before : List U8) {code : U8}
    (letter : IsLetterKey code) :
    let now := interrupts.run (keyboardInit keyboard) before
    (handleKeyboardInterrupt code now).ring = now.ring.put (character code now) ∧
      (FollowsModifiers before code now ↔ CaseReliable before) := by
  refine ⟨ring_handle letter _, ?_⟩
  obtain ⟨shift, caps⟩ := flags_after keyboard before
  have upper := (isUpper_character letter (interrupts.run (keyboardInit keyboard) before)).2
  unfold FollowsModifiers CaseReliable
  rw [upper, shift, caps]
  by_cases locked : OddCapsBytes before
  · -- the letter is lower case
    rw [if_pos locked]
    by_cases held : ShiftHeld before <;> by_cases on : CapsOn before <;> simp [locked, held, on]
  · simp only [locked, not_false_eq_true, and_true, if_false]

/-- The keyboard before it is initialized, with an empty ring and a dark screen. -/
def unused : KeyboardState where
  ring := { buf := fun _ => 0, head := 0, tail := 0 }
  shiftPressed := false
  ctrlPressed := false
  altPressed := false
  capsLock := false
  debugKbCount := 0
  vga :=
    { buffer := { cells := fun _ => 0, stores := [] }, cursorCol := 0, cursorRow := 0
      defaultAttr := 0x0F, location := (0, 0) }

/-- A cursor key and then the letter A, which is lower case. -/
theorem letter_case_iff_no_modifier :
    FollowsModifiers [0xE0, 0x4B] 0x1E (interrupts.run (keyboardInit unused) [0xE0, 0x4B]) :=
  (letter_case_iff unused [0xE0, 0x4B] (by decide)).2.mpr (by decide)

/-- Caps Lock and then the letter A: the character is lower case. -/
theorem letter_under_caps_lock_is_lower :
    ¬ ∀ (keyboard : KeyboardState) (before : List U8) (code : U8), IsLetterKey code →
      FollowsModifiers before code (interrupts.run (keyboardInit keyboard) before) := by
  intro follows
  have wrong := follows unused [scancodeCapsLock] 0x1E (by decide)
  exact absurd wrong (by decide)

-- left Shift stays held under a cursor key, whose bytes end with those of a released Shift key
example : ¬ CaseReliable [0x2A, 0xE0, 0xAA, 0xE0, 0x4B] := by decide

-- no Shift key is held after that of Print Screen
example : ¬ CaseReliable [0xE0, 0x2A, 0xE0, 0x37] := by decide

end Lofita.Keyboard
