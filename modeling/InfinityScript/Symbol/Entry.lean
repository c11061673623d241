import InfinityScript.Text.Basic
import InfinityScript.Text.Case
import InfinityScript.Text.Numeral

/-!
# Entries of a symbol table

An entry gives an id a name. An entry with a parameter list is a function, also
when the list is empty. The list declares what a trigger or action takes:
`I:Value*State` is an integer named through the table `STATE.IDS`, `O:Target*` an
object.
-/

namespace InfinityScript

inductive ParameterKind
  | integer
  | string
  | object
  | point
  | action
  deriving DecidableEq, Repr

namespace ParameterKind

def all : List ParameterKind := [.integer, .string, .object, .point, .action]

def letter : ParameterKind → Char
  | .integer => 'I'
  | .string => 'S'
  | .object => 'O'
  | .point => 'P'
  | .action => 'A'

def ofLetter? (c : Char) : Option ParameterKind :=
  all.find? fun kind => Text.upperChar c == [kind.letter]

end ParameterKind

/-- A parameter as declared: `definition` is the whole declaration, `name` what
stands before the first star and `table` the table named after it. -/
structure Parameter where
  kind : ParameterKind
  name : Text
  table : Option Text
  definition : Text
  deriving DecidableEq, Repr

abbrev Signature := List Parameter

inductive ParameterFault
  | malformed (definition : Text)
  | unknownKind (definition : Text)
  deriving DecidableEq, Repr

def ParameterFault.message : ParameterFault → Text
  | .malformed definition => "Unexpected parameter definition `" ++ definition ++ "`..."
  | .unknownKind definition => "Unexpected parameter type in definition `" ++ definition ++ "`..."

/-- Table names are upper case and end in `.IDS`. -/
def tableName (name : Text) : Text :=
  let name := Text.upper (Text.trim name)
  if (".IDS" : Text).isSuffixOf name then name else name ++ ".IDS"

/-- Reads a declaration: a kind letter, a colon, a name, and after a star the table. -/
def Parameter.parse (definition : Text) : Except ParameterFault Parameter :=
  let definition := Text.trim definition
  match definition with
  | letter :: ':' :: rest =>
    match ParameterKind.ofLetter? letter with
    | none => .error (.unknownKind definition)
    | some kind =>
      match Text.cut? '*' rest with
      | none | some (_, []) =>
        .ok { kind, name := rest.takeWhile (· != '*'), table := none, definition }
      | some (name, table) => .ok { kind, name, table := some (tableName table), definition }
  | _ => .error (.malformed definition)

namespace Signature

def count (signature : Signature) (kind : ParameterKind) : Nat :=
  signature.countP (·.kind == kind)

end Signature

structure Entry where
  id : Int
  name : Text
  parameters : Option Text := none
  deriving DecidableEq, Repr

namespace Entry

def isFunction (entry : Entry) : Bool := entry.parameters.isSome

def definitions (entry : Entry) : List Text :=
  (Text.splitOn ',' (entry.parameters.getD [])).map Text.trim |>.filter (· ≠ [])

def signature (entry : Entry) : Except ParameterFault Signature :=
  entry.definitions.mapM Parameter.parse

def describe (entry : Entry) : Except NumeralFault Text := do
  let call : Text := match entry.parameters with
    | some parameters => entry.name ++ "(" ++ parameters ++ ")"
    | none => entry.name
  let id ← Text.writable entry.id
  return "IdsEntry(" ++ Text.ofInt id ++ ", '" ++ call ++ "')"

end Entry

end InfinityScript
