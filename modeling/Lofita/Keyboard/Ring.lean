import Lofita.Foundation.Ring
import Lofita.Foundation.Run
import Lofita.Foundation.Word

/-! # The keyboard ring

The ring of the keyboard driver (`drivers/keyboard.zig`) between the interrupt handler,
which puts bytes into it, and `read_key`, which takes them out. The handler runs to its
end wherever it interrupts the reader, while the reader moves by one atomic load or store
at a time, so that a run is a list of calls of either kind. `ring_fifo` says that every
run hands out the accepted bytes in their order.
-/

namespace Lofita.Keyboard

open Lofita.Foundation Lofita.Foundation.Circular

/-- The places of the buffer. -/
def ringBufSize : Nat := 256

/-- `ring_buf`, `ring_head` and `ring_tail`. -/
structure Ring where
  buf : Nat → U8
  head : U64
  tail : U64

namespace Ring

/-- The test `next != tail` of `ring_put`. -/
def HasRoom (ring : Ring) : Prop := (ring.head + 1) % 256 ≠ ring.tail

instance decidableHasRoom (ring : Ring) : Decidable ring.HasRoom :=
  inferInstanceAs (Decidable ((ring.head + 1) % 256 ≠ ring.tail))

/-- `ring_put`. -/
def put (c : U8) (ring : Ring) : Ring :=
  if ring.HasRoom then
    { ring with
      buf := Function.update ring.buf ring.head.toNat c
      head := (ring.head + 1) % 256 }
  else ring

/-- The bytes put into the ring and not taken out, the oldest first. -/
def buffered (ring : Ring) : List U8 :=
  queued ring.buf ringBufSize ring.head.toNat ring.tail.toNat

end Ring

/-- Where `read_key` stands between its atomic steps, and the values it has loaded. -/
inductive Reader where
  | start
  | headLoaded (head : U64)
  | tailLoaded (tail : U64)
  | cellRead (tail : U64) (c : U8)
deriving DecidableEq, Repr

/-- The atomic step of `read_key` that is due; the last component is what the call
returns, if the step is its last. -/
def readKeyStep (ring : Ring) : Reader → Ring × Reader × Option (Option U8)
  | .start => (ring, .headLoaded ring.head, none)
  | .headLoaded head =>
      if head = ring.tail then (ring, .start, some none)
      else (ring, .tailLoaded ring.tail, none)
  | .tailLoaded tail => (ring, .cellRead tail (ring.buf tail.toNat), none)
  | .cellRead tail c => ({ ring with tail := (tail + 1) % 256 }, .start, some (some c))

/-- A run of the interrupt handler, or a step of the reader. -/
inductive Action where
  | ringPut (c : U8)
  | readKey
deriving DecidableEq, Repr

/-- The ring and the reader, with what has happened to them: the bytes accepted, the
bytes returned, and whether the ring was empty when the reader last loaded the head. -/
structure History where
  ring : Ring
  reader : Reader
  accepted : List U8
  returned : List U8
  emptyAtLoad : Bool

namespace History

/-- The byte is put into the ring if there is room. -/
def ringPut (c : U8) (history : History) : History :=
  { history with
    ring := history.ring.put c
    accepted := if history.ring.HasRoom then history.accepted ++ [c] else history.accepted }

/-- A step of the reader, and what it returned. -/
def readKey (history : History) : History :=
  let (ring, reader, result) := readKeyStep history.ring history.reader
  { history with
    ring, reader
    returned := history.returned ++ (result.join).toList
    emptyAtLoad :=
      if history.reader = .start then history.ring.buffered.isEmpty else history.emptyAtLoad }

def step (history : History) : Action → History
  | .ringPut c => history.ringPut c
  | .readKey => history.readKey

/-- The state after initialization, whatever the cells of the ring hold. -/
def initial (undefined : Nat → U8) : History where
  ring := { buf := undefined, head := 0, tail := 0 }
  reader := .start
  accepted := []
  returned := []
  emptyAtLoad := true

end History

/-- The interrupt handler and the reader on one ring, in any order of steps. -/
def keyboardRing : System History Action := { step := History.step }

/-! ### One step -/

/-- What the reader has loaded agrees with the ring. The handler moves only the head,
and never onto the tail. -/
def Agrees (ring : Ring) (emptyAtLoad : Bool) : Reader → Prop
  | .start => True
  | .headLoaded head =>
      (head = ring.tail → emptyAtLoad = true) ∧ (head ≠ ring.tail → ring.head ≠ ring.tail)
  | .tailLoaded tail => tail = ring.tail ∧ ring.head ≠ ring.tail
  | .cellRead tail c => tail = ring.tail ∧ ring.head ≠ ring.tail ∧ c = ring.buf tail.toNat

/-- The positions are inside the ring, what was accepted has been returned or is still
there, and the reader agrees with the ring. -/
structure Sound (history : History) : Prop where
  head_lt : history.ring.head.toNat < ringBufSize
  tail_lt : history.ring.tail.toNat < ringBufSize
  fifo : history.accepted = history.returned ++ history.ring.buffered
  reader : Agrees history.ring history.emptyAtLoad history.reader

/-- An empty buffer ends the call without a key. -/
theorem readKeyStep_of_empty {ring : Ring} {head : U64} (empty : head = ring.tail) :
    readKeyStep ring (.headLoaded head) = (ring, .start, some none) := if_pos empty

/-- Otherwise the key at the tail is fetched. -/
theorem readKeyStep_of_some {ring : Ring} {head : U64} (some : head ≠ ring.tail) :
    readKeyStep ring (.headLoaded head) = (ring, .tailLoaded ring.tail, none) := if_neg some

/-- The next position, as a number. -/
theorem toNat_next {position : U64} (below : position.toNat < ringBufSize) :
    ((position + 1) % 256).toNat = (position.toNat + 1) % ringBufSize := by
  have sum : (position + 1).toNat = position.toNat + 1 := by
    unfold ringBufSize at below
    bv_omega
  rw [BitVec.toNat_umod, sum]
  rfl

/-- There is room until 255 keys are buffered. -/
theorem hasRoom_iff {ring : Ring} (below : ring.head.toNat < ringBufSize) :
    ring.HasRoom ↔ (ring.head.toNat + 1) % ringBufSize ≠ ring.tail.toNat := by
  rw [← toNat_next below, Ring.HasRoom, not_iff_not]
  exact ⟨congrArg BitVec.toNat, BitVec.eq_of_toNat_eq⟩

/-- Nothing is buffered when the positions meet. -/
theorem buffered_eq_nil_iff {history : History} (sound : Sound history) :
    history.ring.buffered = [] ↔ history.ring.head = history.ring.tail := by
  rw [Ring.buffered, queued_eq_nil_iff sound.head_lt sound.tail_lt]
  exact ⟨BitVec.eq_of_toNat_eq, congrArg BitVec.toNat⟩

/-- A full buffer holds 255 keys. -/
theorem length_buffered_of_full {history : History} (sound : Sound history)
    (full : ¬ history.ring.HasRoom) : history.ring.buffered.length = 255 := by
  rw [hasRoom_iff sound.head_lt, not_not] at full
  exact length_queued_of_full sound.head_lt sound.tail_lt full

/-- A byte put into the ring leaves what the reader has loaded as it was. -/
theorem Agrees.put {ring : Ring} {emptyAtLoad : Bool} {reader : Reader}
    (agrees : Agrees ring emptyAtLoad reader) (c : U8) :
    Agrees (ring.put c) emptyAtLoad reader := by
  unfold Ring.put
  by_cases room : ring.HasRoom
  · rw [if_pos room]
    cases reader with
    | start => trivial
    | headLoaded head => exact ⟨agrees.1, fun _ => room⟩
    | tailLoaded tail => exact ⟨agrees.1, room⟩
    | cellRead tail read =>
        obtain ⟨here, some, rfl⟩ := agrees
        refine ⟨here, room, ?_⟩
        have apart : tail.toNat ≠ ring.head.toNat := fun same =>
          some ((BitVec.eq_of_toNat_eq same).symm.trans here)
        exact (Function.update_of_ne apart c ring.buf).symm
  · rwa [if_neg room]

/-- With room the key is stored. -/
theorem ringPut_of_room {history : History} (room : history.ring.HasRoom) (c : U8) :
    history.ringPut c = { history with
      ring := { history.ring with
        buf := Function.update history.ring.buf history.ring.head.toNat c
        head := (history.ring.head + 1) % 256 }
      accepted := history.accepted ++ [c] } := by
  unfold History.ringPut Ring.put
  rw [if_pos room, if_pos room]

/-- Without room it is dropped. -/
theorem ringPut_of_full {history : History} (full : ¬ history.ring.HasRoom) (c : U8) :
    history.ringPut c = history := by
  unfold History.ringPut Ring.put
  rw [if_neg full, if_neg full]

/-- Putting a key keeps the history sound. -/
theorem Sound.ringPut {history : History} (sound : Sound history) (c : U8) :
    Sound (history.ringPut c) := by
  by_cases room : history.ring.HasRoom
  · have reader : Agrees (history.ring.put c) history.emptyAtLoad history.reader :=
      sound.reader.put c
    rw [Ring.put, if_pos room] at reader
    rw [ringPut_of_room room]
    refine ⟨?_, sound.tail_lt, ?_, reader⟩
    · rw [toNat_next sound.head_lt]
      exact next_lt sound.head_lt
    · have appended := @queued_put _ history.ring.buf _ _ _ sound.head_lt sound.tail_lt c
        ((hasRoom_iff sound.head_lt).mp room)
      rw [Ring.buffered, toNat_next sound.head_lt, appended, ← List.append_assoc, sound.fifo]
      rfl
  · rwa [ringPut_of_full room]

theorem Sound.readKey {history : History} (sound : Sound history) : Sound history.readKey := by
  obtain ⟨ring, reader, accepted, returned, emptyAtLoad⟩ := history
  have agrees : Agrees ring emptyAtLoad reader := sound.reader
  -- only the last step of the reader changes the ring and returns a byte
  have same : accepted = returned ++ [] ++ ring.buffered := by
    rw [List.append_nil]
    exact sound.fifo
  cases reader with
  | start =>
      refine ⟨sound.head_lt, sound.tail_lt, same, ?_, fun apart => apart⟩
      exact fun empty => List.isEmpty_iff.mpr ((buffered_eq_nil_iff sound).mpr empty)
  | headLoaded head =>
      by_cases empty : head = ring.tail
      · simp only [History.readKey, readKeyStep_of_empty empty]
        exact ⟨sound.head_lt, sound.tail_lt, same, trivial⟩
      · simp only [History.readKey, readKeyStep_of_some empty]
        exact ⟨sound.head_lt, sound.tail_lt, same, rfl, agrees.2 empty⟩
  | tailLoaded tail =>
      exact ⟨sound.head_lt, sound.tail_lt, same, agrees.1, agrees.2, rfl⟩
  | cellRead tail c =>
      obtain ⟨rfl, some, rfl⟩ := agrees
      have next := toNat_next sound.tail_lt
      have apart : ring.head.toNat ≠ ring.tail.toNat :=
        fun equal => some (BitVec.eq_of_toNat_eq equal)
      refine ⟨sound.head_lt, next ▸ next_lt sound.tail_lt, ?_, trivial⟩
      have taken := @queued_take _ ring.buf _ _ _ sound.head_lt sound.tail_lt apart
      have fifo : accepted = returned ++ ring.buffered := sound.fifo
      change accepted = returned ++ [ring.buf ring.tail.toNat] ++
        queued ring.buf ringBufSize ring.head.toNat ((ring.tail + 1) % 256).toNat
      rw [fifo, Ring.buffered, taken, next, List.append_assoc, List.singleton_append]

theorem Sound.step {history : History} (sound : Sound history) (action : Action) :
    Sound (history.step action) := by
  cases action with
  | ringPut c => exact sound.ringPut c
  | readKey => exact sound.readKey

/-- At first nothing is buffered. -/
theorem sound_initial (undefined : Nat → U8) : Sound (History.initial undefined) where
  head_lt := show (0 : U64).toNat < 256 by decide
  tail_lt := show (0 : U64).toNat < 256 by decide
  fifo := by
    have empty : queued undefined ringBufSize (0 : U64).toNat (0 : U64).toNat = [] :=
      (queued_eq_nil_iff (by decide) (by decide)).mpr rfl
    exact ((List.nil_append _).trans empty).symm
  reader := trivial

/-! ### Runs -/

/-- A byte is dropped only with 255 bytes buffered, and the reader returns nothing only
if the ring was empty when it loaded the head. -/
def Justified (history : History) : Action → Prop
  | .ringPut c =>
      (history.ringPut c).accepted = history.accepted → history.ring.buffered.length = 255
  | .readKey =>
      (readKeyStep history.ring history.reader).2.2 = some none → history.emptyAtLoad = true

/-- Each step answers as the history says. -/
theorem Sound.justified {history : History} (sound : Sound history) (action : Action) :
    Justified history action := by
  cases action with
  | ringPut c =>
      intro dropped
      refine length_buffered_of_full sound fun room => ?_
      rw [ringPut_of_room room] at dropped
      exact List.cons_ne_nil c [] (List.append_right_eq_self.mp dropped)
  | readKey =>
      obtain ⟨ring, reader, accepted, returned, emptyAtLoad⟩ := history
      intro nothing
      cases reader with
      | start => cases nothing
      | headLoaded head =>
          by_cases empty : head = ring.tail
          · exact sound.reader.1 empty
          · rw [readKeyStep_of_some empty] at nothing
            cases nothing
      | tailLoaded tail => cases nothing
      | cellRead tail c => cases nothing

/-- **The keyboard ring is a bounded queue.** However the interrupt handler and the atomic
steps of `read_key` are interleaved, the head and the tail stay inside the ring, and the
bytes returned and then those still buffered are the bytes accepted, in order. The handler
drops a byte only when 255 bytes are buffered; `read_key` returns nothing only if the ring
was empty when it loaded the head. -/
theorem ring_fifo (undefined : Nat → U8) (actions : List Action) :
    keyboardRing.Always
      (fun history =>
        history.ring.head.toNat < 256 ∧ history.ring.tail.toNat < 256 ∧
          history.returned ++ history.ring.buffered = history.accepted)
      (History.initial undefined) actions ∧
    keyboardRing.Along Justified (History.initial undefined) actions := by
  have every : keyboardRing.Along (fun _ _ => True) (History.initial undefined) actions :=
    System.along_of_forall fun _ _ _ => trivial
  constructor
  · refine System.always_of_invariant Sound (fun history action sound _ => sound.step action)
      ?_ (sound_initial undefined) every
    exact fun history sound => ⟨sound.head_lt, sound.tail_lt, sound.fifo.symm⟩
  · exact System.along_of_invariant (fun history action sound _ => sound.step action)
      (fun history action sound _ => sound.justified action) (sound_initial undefined) every

end Lofita.Keyboard
