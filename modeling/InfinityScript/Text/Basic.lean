/-!
# Texts

Scripts, symbol tables, compiled code and messages are texts. A text is the list
of its characters, so that lengths and positions count characters and every
function on texts is a function on lists.

Two notions of line meet in a script tool. The physical lines of a script end at
line feeds only; the lines of a symbol table, and the lines shown in a report,
end at every line break of Unicode.
-/

namespace InfinityScript

/-- A text is the list of its characters. -/
abbrev Text := List Char

instance : Coe String Text := ⟨String.toList⟩

namespace Text

/-- What holds of all characters of a text is decided on these characters alone. -/
instance decidableForallMem {P : Char → Prop} [DecidablePred P] (text : Text) :
    Decidable (∀ c ∈ text, P c) :=
  List.decidableBAll P text

/-- The pieces between the occurrences of `mark`; there is always at least one. -/
def splitOn (mark : Char) : Text → List Text
  | [] => [[]]
  | c :: rest =>
    if c = mark then [] :: splitOn mark rest
    else match splitOn mark rest with
      | [] => [[c]]
      | piece :: pieces => (c :: piece) :: pieces

def join (separator : Text) (pieces : List Text) : Text := List.intercalate separator pieces

def cut? (mark : Char) : Text → Option (Text × Text)
  | [] => none
  | c :: rest =>
    if c = mark then some ([], rest)
    else (cut? mark rest).map fun (before, after) => (c :: before, after)

def cutLast? (mark : Char) (text : Text) : Option (Text × Text) :=
  (cut? mark text.reverse).map fun (after, before) => (before.reverse, after.reverse)

def replaceFirst (old new : Char) : Text → Text
  | [] => []
  | c :: rest => if c = old then new :: rest else c :: replaceFirst old new rest

def padRight (width : Nat) (text : Text) : Text :=
  text ++ List.replicate (width - text.length) ' '

def padLeft (width : Nat) (text : Text) : Text :=
  List.replicate (width - text.length) ' ' ++ text

/-- A text between its first and its last character, as in `"hello"` and `[1.2]`. -/
def inner (text : Text) : Text := (text.drop 1).dropLast

end Text

/-- An index into a list of the given length, where a negative index counts from
the end and one beyond either end stops there. -/
def clampIndex (length : Nat) (index : Int) : Nat :=
  if index < 0 then (index + length).toNat else min index.toNat length

/-- The elements from index `first` up to but not including index `last`, both
read as `clampIndex` reads them. -/
def window (first last : Int) (items : List α) : List α :=
  (items.take (clampIndex items.length last)).drop (clampIndex items.length first)

end InfinityScript

namespace InfinityScript.Text

/-- Tab to carriage return, the information separators, and the space
characters of Unicode. Zero width characters are no blanks. -/
def isBlank (c : Char) : Bool :=
  let n := c.toNat
  (0x09 ≤ n && n ≤ 0x0D) || (0x1C ≤ n && n ≤ 0x20) || n == 0x85 || n == 0xA0 || n == 0x1680 ||
    (0x2000 ≤ n && n ≤ 0x200A) || n == 0x2028 || n == 0x2029 || n == 0x202F || n == 0x205F ||
    n == 0x3000

def trimLeft (text : Text) : Text := text.dropWhile isBlank

def trimRight (text : Text) : Text := (text.reverse.dropWhile isBlank).reverse

def trim (text : Text) : Text := trimRight (trimLeft text)

/-- The characters that end a displayed line. -/
def isLineBreak (c : Char) : Bool :=
  let n := c.toNat
  (0x0A ≤ n && n ≤ 0x0D) || (0x1C ≤ n && n ≤ 0x1E) || n == 0x85 || n == 0x2028 || n == 0x2029

/-- The displayed lines. A carriage return and the line feed after it are one
break, and a break at the end opens no further line. -/
def displayLines : Text → List Text
  | [] => []
  | '\r' :: '\n' :: rest => [] :: displayLines rest
  | c :: rest =>
    if isLineBreak c then [] :: displayLines rest
    else match displayLines rest with
      | [] => [[c]]
      | line :: lines => (c :: line) :: lines

/-- The physical lines: the pieces between line feeds, without an empty last one. -/
def physicalLines (text : Text) : List Text :=
  let pieces := splitOn '\n' text
  if pieces.getLast? = some [] then pieces.dropLast else pieces

/-- The text up to its comment, which starts at the first `//`. -/
def beforeComment : Text → Text
  | [] => []
  | '/' :: '/' :: _ => []
  | c :: rest => c :: beforeComment rest

def statement (line : Text) : Text := trim (beforeComment line)

def unifyLineEnds : Text → Text
  | [] => []
  | '\r' :: '\n' :: rest => '\n' :: unifyLineEnds rest
  | c :: rest => (if c = '\r' then '\n' else c) :: unifyLineEnds rest

def ofLines (lines : List Text) : Text := lines.flatMap (· ++ ['\n'])

end InfinityScript.Text

namespace InfinityScript

inductive RepeatFault
  | countOutOfRange
  | lengthOutOfRange
  | noMemory
  deriving DecidableEq, Repr

def RepeatFault.message : RepeatFault → Text
  | .countOutOfRange => "cannot fit 'int' into an index-sized integer"
  | .lengthOutOfRange => "repeated string is too long"
  | .noMemory => []

def isSigned64 (n : Int) : Bool := -9223372036854775808 ≤ n && n < 9223372036854775808

/-- The memory that can be addressed, 2^47 bytes. -/
def addressSpace : Int := 140737488355328

def Text.checkRepeat (length : Nat) (count : Int) : Except RepeatFault Unit :=
  if !isSigned64 count then .error .countOutOfRange
  else if length * count ≥ 9223372036854775808 then .error .lengthOutOfRange
  else if length * count ≥ addressSpace then .error .noMemory
  else .ok ()

end InfinityScript
