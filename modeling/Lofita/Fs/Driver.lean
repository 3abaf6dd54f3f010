import Mathlib.Data.List.GetD
import Std.Data.TreeMap
import Lofita.Foundation.Word

/-! # Devices

`DriverManager` of `driver.rs`: the devices by path, and the faults that reading
them can end in. What a device answers is a parameter.
-/

namespace Lofita.Fs

open Lofita.Foundation

/-- How a call ends other than with its result: by a panic, by a read past a buffer
through a raw pointer, by the trap at a pointer to words that is odd, or not within a number
of steps. -/
inductive Fault where
  | divideByZero
  | indexOutOfRange
  | invalidRead
  | incorrectAlignment
  | outOfFuel
deriving DecidableEq, Repr

abbrev Checked := Except Fault

/-- What a device answers to a read of a number of bytes at an offset, and to a
write at an offset, in its present state. -/
structure CharDriver where
  read : U64 → U64 → Checked (List U8)
  write : U64 → List U8 → Checked U64

structure DriverManager where
  drivers : Std.TreeMap String CharDriver

namespace DriverManager

def readDevice (dm : DriverManager) (path : String) (offset size : U64) :
    Checked (Option (List U8)) :=
  match dm.drivers[path]? with
  | none => return none
  | some driver => some <$> driver.read offset size

def writeDevice (dm : DriverManager) (path : String) (offset : U64) (data : List U8) :
    Checked (Option U64) :=
  match dm.drivers[path]? with
  | none => return none
  | some driver => some <$> driver.write offset data

/-- The device at a path, if there is one, returns exactly the bytes requested. -/
def ReadsExactly (dm : DriverManager) (path : String) : Prop :=
  ∀ driver, dm.drivers[path]? = some driver →
    ∀ offset size, ∃ data, driver.read offset size = .ok data ∧ data.length = size.toNat

/-- The device at a path, if there is one, answers every read or panics. -/
def Answers (dm : DriverManager) (path : String) : Prop :=
  ∀ driver, dm.drivers[path]? = some driver →
    ∀ offset size, driver.read offset size ≠ .error .outOfFuel

end DriverManager

/-! ### Bytes -/

/-- A slice of a byte string. -/
def slice (data : List U8) (first last : Nat) : Checked (List U8) :=
  if first ≤ last ∧ last ≤ data.length then return (data.drop first).take (last - first)
  else throw .indexOutOfRange

/-- A byte of a byte string. -/
def byteAt (data : List U8) (index : Nat) : Checked U8 :=
  match data[index]? with
  | some byte => return byte
  | none => throw .indexOutOfRange

/-- The little-endian words at an offset, in a buffer that reaches that far. -/
def word16 (data : List U8) (off : Nat) : U16 := data.getD (off + 1) 0 ++ data.getD off 0

def word32 (data : List U8) (off : Nat) : U32 :=
  data.getD (off + 3) 0 ++ data.getD (off + 2) 0 ++ data.getD (off + 1) 0 ++ data.getD off 0

/-- Read a record of some size from the start of a buffer through a raw pointer. -/
def readRecord {α : Type} (size : Nat) (fields : List U8 → α) (data : List U8) : Checked α :=
  if data.length < size then throw .invalidRead else return fields data

/-- The text a byte string encodes. -/
def fromUtf8 (data : List U8) : Option String :=
  String.fromUTF8? ⟨(data.map UInt8.ofBitVec).toArray⟩

end Lofita.Fs
