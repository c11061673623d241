import InfinityScript.Noted
import InfinityScript.Symbol.Table
import InfinityScript.Text.Basic

/-!
# Reading a symbol table

A table is written one entry a line: an id, decimal or hexadecimal after `0x`, a
name, and for a function its parameters in parentheses, as in

    0x4023 True()
    7 CreateCreature(S:NewObject*,P:Location*Point,I:Face*)

Before the entries there may be a header and a line with their number. A decimal id
that is too long ends the reading.
-/

namespace InfinityScript

def Entry.readId? (line : Text) : Option (Int × Text) :=
  match line with
  | '-' :: digits => (unsigned? digits).map fun (n, rest) => (-(n : Int), rest)
  | digits => (unsigned? digits).map fun (n, rest) => ((n : Int), rest)
where
  unsigned? : Text → Option (Nat × Text)
    | '0' :: 'x' :: rest =>
      let isHex c := (Text.hexValue? c).isSome
      (Text.readHex? (rest.takeWhile isHex)).map (·, rest.dropWhile isHex)
    | digits =>
      (Text.readNat? (digits.takeWhile Text.isDecimalDigit)).map
        (·, digits.dropWhile Text.isDecimalDigit)

/-- A line that says an entry. Blanks divide the id from the name; the parameters
run from the first parenthesis to one that ends the line. -/
def Entry.read? (line : Text) : Option Entry := do
  let (id, rest) ← Entry.readId? line
  guard (rest.head?.any Text.isBlank)
  let call := Text.trimLeft rest
  match Text.cut? '(' call with
  | none =>
    guard (call ≠ [])
    return { id, name := call }
  | some (before, after) =>
    let name := Text.trimRight before
    guard (name ≠ [] ∧ after.getLast? = some ')')
    return { id, name, parameters := some after.dropLast }

/-- Says whether the id at the start of a line can be read; a hexadecimal one always
can. -/
def Entry.checkId (line : Text) : Except NumeralFault Unit :=
  let digits := if line.head? = some '-' then line.drop 1 else line
  if ("0x" : Text).isPrefixOf digits then .ok ()
  else Text.checkDigits (digits.takeWhile Text.isDecimalDigit)

namespace Table

structure SkippedLine where
  number : Nat
  table : Text
  text : Text
  deriving DecidableEq, Repr

def SkippedLine.message (line : SkippedLine) : Text :=
  "Skipping unrecognized line " ++ Text.ofNat line.number ++ " in " ++ line.table ++ ": `" ++
    line.text ++ "`"

/-- The header stands on the first line and begins with `IDS`. -/
def isHeader (number : Nat) (line : Text) : Bool :=
  number == 1 && ("IDS" : Text).isPrefixOf (Text.upper line)

/-- A line that holds only digits says how many entries follow. -/
def isCount (line : Text) : Bool := !line.isEmpty && line.all Text.isDecimalDigit

def isAside (number : Nat) (line : Text) : Bool :=
  line.isEmpty || isHeader number line || isCount line

def readLine (table : Table) (number : Nat) (line : Text) : Noted SkippedLine Table :=
  let line := Text.statement line
  if isAside number line then pure table
  else match Entry.read? line with
    | some entry => pure (table.add entry)
    | none => do
      Noted.note { number, table := table.name, text := line }
      return table

/-- Reads a table from numbered lines, with a note for every line that was skipped. -/
def readLines (name : Text) (lines : List (Text × Nat)) : Noted SkippedLine Table :=
  lines.foldlM (fun table (line, number) => table.readLine number line) (Table.empty name)

def numberedLines (text : Text) : List (Text × Nat) := (Text.displayLines text).zipIdx 1

def read (name text : Text) : Noted SkippedLine Table := readLines name (numberedLines text)

def idFault? (number : Nat) (line : Text) : Option NumeralFault :=
  let line := Text.statement line
  if isAside number line || (Entry.read? line).isNone then none
  else match Entry.checkId line with
    | .ok () => none
    | .error fault => some fault

/-- Reads a table up to the first id that is too long. -/
def load (name text : Text) : NotedT NumeralFault SkippedLine Table :=
  let lines := numberedLines text
  match lines.findSome? fun (line, number) => idFault? number line with
  | none => ExceptT.lift (read name text)
  | some fault => do
    let _ ← ExceptT.lift <| readLines name <|
      lines.takeWhile fun (line, number) => (idFault? number line).isNone
    throw fault

end Table

end InfinityScript
