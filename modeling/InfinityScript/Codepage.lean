import InfinityScript.Text.Quoted
import InfinityScript.Text.Numeral

/-!
# The codepage of script files

Scripts and symbol tables are kept in windows-1252: a byte is a character of
Latin-1, except that the bytes from 80 to 9F stand for other characters or for
none.
-/

namespace InfinityScript

abbrev Bytes := List UInt8

namespace Codepage

/-- The characters of the bytes from 80 to 9F; zero for a byte that has none. -/
def upperControls : List Nat := [
  0x20AC, 0, 0x201A, 0x0192, 0x201E, 0x2026, 0x2020, 0x2021,
  0x02C6, 0x2030, 0x0160, 0x2039, 0x0152, 0, 0x017D, 0,
  0, 0x2018, 0x2019, 0x201C, 0x201D, 0x2022, 0x2013, 0x2014,
  0x02DC, 0x2122, 0x0161, 0x203A, 0x0153, 0, 0x017E, 0x0178]

inductive Fault
  /-- A byte that stands for no character. -/
  | undecodable (byte : UInt8) (position : Nat)
  /-- A run of characters that have no byte. -/
  | unencodable (first : Char) (position length : Nat)
  deriving DecidableEq, Repr

def Fault.message : Fault → Text
  | .undecodable byte position =>
    "'charmap' codec can't decode byte 0x" ++ Text.hexDigits 2 byte.toNat ++ " in position " ++
      Text.ofNat position ++ ": character maps to <undefined>"
  | .unencodable first position length =>
    let place : Text :=
      if length = 1 then
        " '" ++ Text.escape first ++ "' in position " ++ Text.ofNat position
      else
        "s in position " ++ Text.ofNat position ++ "-" ++ Text.ofNat (position + length - 1)
    "'charmap' codec can't encode character" ++ place ++ ": character maps to <undefined>"

def decodeByte? (byte : UInt8) : Option Char :=
  let n := byte.toNat
  if 0x80 ≤ n ∧ n < 0xA0 then
    match upperControls.getD (n - 0x80) 0 with
    | 0 => none
    | code => some (Char.ofNat code)
  else some (Char.ofNat n)

def encodeChar? (c : Char) : Option UInt8 :=
  let n := c.toNat
  if n < 0x80 ∨ (0xA0 ≤ n ∧ n < 0x100) then some n.toUInt8
  else
    match upperControls.idxOf? n with
    | some i => some (0x80 + i).toUInt8
    | none => none

/-- The text of bytes of which `position` came before. -/
def decodeFrom (position : Nat) : Bytes → Except Fault Text
  | [] => .ok []
  | byte :: bytes =>
    match decodeByte? byte with
    | none => .error (.undecodable byte position)
    | some c => (decodeFrom (position + 1) bytes).map (c :: ·)

def decode (bytes : Bytes) : Except Fault Text := decodeFrom 0 bytes

def encodeFrom (position : Nat) : Text → Except Fault Bytes
  | [] => .ok []
  | c :: text =>
    match encodeChar? c with
    | none =>
      let run := text.takeWhile fun c => (encodeChar? c).isNone
      .error (.unencodable c position (run.length + 1))
    | some byte => (encodeFrom (position + 1) text).map (byte :: ·)

def encode (text : Text) : Except Fault Bytes := encodeFrom 0 text

end Codepage

end InfinityScript
