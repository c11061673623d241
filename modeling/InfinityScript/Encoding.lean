import InfinityScript.Fault
import InfinityScript.Noted
import InfinityScript.Scope

/-!
# Encodings

A statement on the way to its record, which has a fixed number of slots for the
arguments of each kind. A part that is at fault leaves a placeholder and the
encoding goes on; a fault of the whole statement ends it.
-/

namespace InfinityScript

/-- Puts a value into the slot at an index and moves on to the next. A negative
index counts from the end. -/
def assignSlot (slots : List Text) (index : Int) (value : Text) :
    Except Refusal (List Text × Int) :=
  match index with
  | .ofNat i =>
    if i < slots.length then .ok (slots.set i value, index + 1)
    else .error (.fault (.noSlotLeft value))
  | .negSucc i =>
    if i < slots.length then .ok (slots.set (slots.length - 1 - i) value, index + 1)
    else if isSigned64 index then .error (.halt .slotOutOfRange)
    else .error (.halt .indexOutOfRange)

/-- The slots of one kind and the index of the next free one. -/
structure Slots where
  values : List Text
  next : Int := 0
  deriving DecidableEq, Repr

namespace Slots

def blank (count : Nat) (value : Text) : Slots := { values := List.replicate count value }

def fill (slots : Slots) (value : Text) : Except Refusal Slots := do
  let (values, next) ← assignSlot slots.values slots.next value
  return { values, next }

def get (slots : Slots) (index : Nat) : Text := slots.values.getD index []

end Slots

def Fault.leave (fault : Fault) : Noted Remark Text := do
  Noted.note (.error fault)
  return fault.placeholder

abbrev Encoding := NotedT Refusal Remark

namespace Encoding

variable {α : Type}

def ofExcept (x : Except Fault α) : Encoding α :=
  match x with
  | .ok a => pure a
  | .error fault => throw (.fault fault)

def ofNumeral (x : Except NumeralFault α) : Encoding α :=
  match x with
  | .ok a => pure a
  | .error fault => throw (.halt (.numeral fault))

def ofNoted (x : Noted Remark α) : Encoding α := ExceptT.lift x

/-- A part that has a text in the record, or a placeholder where it is at fault. -/
def ofPart : Except Refusal (Noted Remark Text) → Encoding Text
  | .ok part => ofNoted part
  | .error (.fault fault) => ofNoted fault.leave
  | .error (.halt reason) => throw (.halt reason)

def packStrings (symbols : Symbols) (opcode : Int) (strings : List Text) :
    Encoding (List Text) :=
  match Scope.pack symbols opcode strings with
  | .ok (packed, faults) => ofNoted ⟨packed, faults.map .error⟩
  | .error reason => throw (.halt reason)

def fill (slots : Slots) (value : Text) : Encoding Slots :=
  match slots.fill value with
  | .ok slots => pure slots
  | .error refusal => throw refusal

end Encoding

end InfinityScript
