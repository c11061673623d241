import InfinityScript.Fault
import InfinityScript.Symbol.Table
import InfinityScript.Text.Numeral

/-!
# Variable scopes

A variable belongs to a scope: the whole game, the script's own creature, the
current area, or a named area. A source gives the name and the scope as two
strings, `"name","GLOBAL"`; compiled code packs them into one, `"GLOBALname"`.
-/

namespace InfinityScript

def emptyString : Text := "\"\""

namespace Scope

/-- The scopes that are no areas. -/
def reserved : List Text := ["\"GLOBAL\"", "\"LOCALS\"", "\"MYAREA\"", "\"KAPUTZ\""]

/-- The opcodes whose strings the engine reads unpacked. -/
def unpackedOpcodes : List Int := [16448, 16449, 16566]

/-- A quoted scope: a reserved name, an area number such as `"AR0602"`, or the
name of an area of the game. -/
def isScope (symbols : Symbols) (value : Text) : Bool :=
  reserved.contains (Text.upper value) ||
    (value.length == 8 &&
      ((Text.upper (value.take 3) == "\"AR" && Text.isDigits ((value.drop 3).take 4)) ||
        symbols.hasResource ((value.drop 1).take 6 ++ ".ARE")))

def quoteFault? : Text → Except Halt (Option Fault)
  | [] => .error .emptyText
  | c :: rest =>
    let value := c :: rest
    let begins := c = '"'
    let ends := value.getLast? = some '"'
    .ok <|
      if begins ∧ ¬ ends then some (.unclosed .quote value)
      else if ¬ begins ∧ ends then some (.missingBeginQuote value)
      else if ¬ begins ∧ ¬ ends then some (.missingQuotes value)
      else none

/-- Adds a string to the packed ones, the last of which stands first: a scope goes
into the string before it unless that is a scope itself. -/
def packNext (symbols : Symbols) (opcode : Int) : List Text → Text → List Text
  | [], value => [value]
  | last :: earlier, value =>
    if opcode ∉ unpackedOpcodes ∧ isScope symbols value ∧ ¬ isScope symbols last then
      (value.take 7 ++ last.drop 1) :: earlier
    else value :: last :: earlier

/-- The packed strings, as many as were given, and the faults of their quotes. -/
def pack (symbols : Symbols) (opcode : Int) (strings : List Text) :
    Except Halt (List Text × List Fault) := do
  let faults ← strings.mapM quoteFault?
  let packed := (strings.foldl (packNext symbols opcode) []).reverse
  return (packed ++ List.replicate (strings.length - packed.length) emptyString,
    faults.filterMap id)

def unpackOne (symbols : Symbols) (value : Text) : List Text :=
  let scope := value.take 7 ++ "\""
  if value.length > 9 ∧ isScope symbols scope then ['"' :: value.drop 7, scope] else [value]

/-- The strings that two packed strings stand for, in four slots. -/
def unpack (symbols : Symbols) (first second : Text) : List (Option Text) :=
  let strings := unpackOne symbols first ++ unpackOne symbols second
  strings.map some ++ List.replicate (4 - strings.length) none

end Scope

end InfinityScript
