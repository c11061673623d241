import InfinityScript.Text.Basic

/-!
# Numbers as text

How integers are written, and the three ways in which scripts write them: plain
decimal numbers, literals that may also be hexadecimal, and the looser form
allowed inside a point. Decimal numbers are read and written up to a limit on
their digits; hexadecimal ones have none.

The decimal digits of Unicode come in runs of ten. Besides them there are digits
that stand for a value but do not form decimal numbers, such as superscripts.
-/

namespace InfinityScript.Text

def decimalZeros : List Nat := [
  0x30, 0x660, 0x6F0, 0x7C0, 0x966, 0x9E6, 0xA66, 0xAE6, 0xB66, 0xBE6, 0xC66, 0xCE6, 0xD66, 0xDE6,
  0xE50, 0xED0, 0xF20, 0x1040, 0x1090, 0x17E0, 0x1810, 0x1946, 0x19D0, 0x1A80, 0x1A90, 0x1B50,
  0x1BB0, 0x1C40, 0x1C50, 0xA620, 0xA8D0, 0xA900, 0xA9D0, 0xA9F0, 0xAA50, 0xABF0, 0xFF10, 0x104A0,
  0x10D30, 0x11066, 0x110F0, 0x11136, 0x111D0, 0x112F0, 0x11450, 0x114D0, 0x11650, 0x116C0,
  0x11730, 0x118E0, 0x11950, 0x11C50, 0x11D50, 0x11DA0, 0x16A60, 0x16AC0, 0x16B50, 0x1D7CE,
  0x1D7D8, 0x1D7E2, 0x1D7EC, 0x1D7F6, 0x1E140, 0x1E2F0, 0x1E950, 0x1FBF0]

def otherDigitRuns : List (Nat × Nat) := [
  (0xB2, 0xB3), (0xB9, 0xB9), (0x1369, 0x1371), (0x19DA, 0x19DA), (0x2070, 0x2070),
  (0x2074, 0x2079), (0x2080, 0x2089), (0x2460, 0x2468), (0x2474, 0x247C), (0x2488, 0x2490),
  (0x24EA, 0x24EA), (0x24F5, 0x24FD), (0x24FF, 0x24FF), (0x2776, 0x277E), (0x2780, 0x2788),
  (0x278A, 0x2792), (0x10A40, 0x10A43), (0x10E60, 0x10E68), (0x11052, 0x1105A), (0x1F100, 0x1F10A)]

def digitValue? (c : Char) : Option Nat :=
  let n := c.toNat
  if n < 0x80 then
    if 0x30 ≤ n && n ≤ 0x39 then some (n - 0x30) else none
  else
    (decimalZeros.find? fun start => start ≤ n && n ≤ start + 9).map (n - ·)

def isDecimalDigit (c : Char) : Bool := (digitValue? c).isSome

/-- Decimal digits, superscripts, subscripts and enclosed digits. -/
def isDigit (c : Char) : Bool :=
  isDecimalDigit c || otherDigitRuns.any fun (first, last) => first ≤ c.toNat && c.toNat ≤ last

/-- The value of a hexadecimal digit; only the ASCII letters and digits count. -/
def hexValue? (c : Char) : Option Nat :=
  if '0' ≤ c && c ≤ '9' then some (c.toNat - 0x30)
  else if 'A' ≤ c && c ≤ 'F' then some (c.toNat - 0x37)
  else if 'a' ≤ c && c ≤ 'f' then some (c.toNat - 0x57)
  else none

def isDigits (text : Text) : Bool := !text.isEmpty && text.all isDigit

example : decimalZeros.length = 66 := rfl
example : decimalZeros.Pairwise fun low high => low + 9 < high := by decide

end InfinityScript.Text

namespace InfinityScript

/-- The most digits that a decimal number may have, leading zeros included. -/
def digitLimit : Nat := 4300

/-- Why a number is not read from decimal digits or not written in them. -/
inductive NumeralFault
  /-- So many digits are too many to read. -/
  | tooManyDigits (digits : Nat)
  /-- A number would take too many digits to write. -/
  | tooLarge
  deriving DecidableEq, Repr

namespace Text

def ofNat (n : Nat) : Text := Nat.toDigits 10 n

def ofInt : Int → Text
  | .ofNat n => ofNat n
  | .negSucc n => '-' :: ofNat (n + 1)

/-- The number that digits stand for in a base, each read by `value?`. -/
def readDigits? (base : Nat) (value? : Char → Option Nat) (digits : Text) : Option Nat :=
  if digits.isEmpty then none
  else digits.foldlM (fun n c => (value? c).map (base * n + ·)) 0

def readNat? (text : Text) : Option Nat := readDigits? 10 digitValue? text

def readSigned? : Text → Option Int
  | '-' :: digits => (readNat? digits).map fun n => -(n : Int)
  | '+' :: digits => (readNat? digits).map Int.ofNat
  | digits => (readNat? digits).map Int.ofNat

def isNumber (text : Text) : Bool := (readSigned? text).isSome

def checkDigits (numeral : Text) : Except NumeralFault Unit :=
  let digits := numeral.countP isDecimalDigit
  if digits > digitLimit then .error (.tooManyDigits digits) else .ok ()

def number (text : Text) : Except NumeralFault (Option Int) :=
  match readSigned? text with
  | none => .ok none
  | some n => do
    checkDigits text
    return some n

def writable (n : Int) : Except NumeralFault Int :=
  if n.natAbs < Nat.pow 10 digitLimit then .ok n else .error .tooLarge

def readHex? (text : Text) : Option Nat := readDigits? 16 hexValue? text

/-- Underscores may stand singly between digits. -/
def dropUnderscores? : Text → Option Text
  | [] => some []
  | ['_'] => none
  | '_' :: '_' :: _ => none
  | '_' :: rest => dropUnderscores? rest
  | c :: rest => (dropUnderscores? rest).map (c :: ·)

/-- Blanks other than the information separators. -/
def isOuterBlank (c : Char) : Bool :=
  isBlank c && !(0x1C ≤ c.toNat && c.toNat ≤ 0x1F)

/-- A number with blanks around it and single underscores between its digits, of
which there are not too many. -/
def readLoose? (text : Text) : Option Int :=
  let core := ((text.dropWhile isOuterBlank).reverse.dropWhile isOuterBlank).reverse
  match core with
  | '-' :: digits => (grouped? digits).map fun n => -(n : Int)
  | '+' :: digits => (grouped? digits).map Int.ofNat
  | digits => (grouped? digits).map Int.ofNat
where
  grouped? (digits : Text) : Option Nat :=
    if digits.head? = some '_' ∨ digits.countP isDecimalDigit > digitLimit then none
    else (dropUnderscores? digits).bind readNat?

end Text

def NumeralFault.message (fault : NumeralFault) : Text :=
  let found : Text := match fault with
    | .tooManyDigits digits => ": value has " ++ Text.ofNat digits ++ " digits"
    | .tooLarge => []
  "Exceeds the limit (" ++ Text.ofNat digitLimit ++ " digits) for integer string conversion" ++
    found ++ "; use sys.set_int_max_str_digits() to increase the limit"

end InfinityScript
