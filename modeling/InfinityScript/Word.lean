import InfinityScript.Text.Numeral

/-!
# 32-bit words

The engine keeps numbers in signed 32-bit fields, while symbol tables and scripts
also write them unsigned. A literal at or above 2^31 is brought into the signed
range by one subtraction of 2^32.
-/

namespace InfinityScript

/-- An unsigned 32-bit number as a signed one; smaller numbers stay. -/
def toSigned32 (n : Int) : Int := if n ≥ 2147483648 then n - 4294967296 else n

/-- A decimal literal, or a hexadecimal one after `0x`, in the signed range. -/
def Text.literal? (text : Text) : Option Int :=
  match text with
  | '0' :: x :: digit :: digits =>
    if x = 'x' ∨ x = 'X' then (readHex? (digit :: digits)).map fun n => toSigned32 n
    else (readSigned? text).map toSigned32
  | _ => (readSigned? text).map toSigned32

def Text.literal (text : Text) : Except NumeralFault (Option Int) := do
  if isNumber text then checkDigits text
  return literal? text

namespace Flags

/-- The names of the bits of `bits` that are set in `word`, lowest first, and the
word without them. -/
def split (lookup : Int → Option Text) : List Nat → Nat → List Text × Nat
  | [], word => ([], word)
  | bit :: bits, word =>
    if word = 0 then ([], word)
    else if word.testBit bit then
      match lookup ((1 <<< bit : Nat) : Int) with
      | some name =>
        let (names, rest) := split lookup bits (word ^^^ 1 <<< bit)
        (name :: names, rest)
      | none => split lookup bits word
    else split lookup bits word

/-- The names of the 32 single bits of a signed or unsigned word, and what is left
of the word when the named bits are taken out. -/
def decompose (lookup : Int → Option Text) (value : Int) : List Text × Int :=
  match (if value < 0 then value + 4294967296 else value) with
  | .ofNat word =>
    let (names, rest) := split lookup (List.range 32) word
    (names, rest)
  | below => ([], below)

end Flags

end InfinityScript
