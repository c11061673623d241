import InfinityScript.Argument.Encode
import InfinityScript.Argument.Express
import InfinityScript.Call
import InfinityScript.Object.Encode
import InfinityScript.Object.Record

/-!
# Triggers

A trigger `Name(…)`, or `!Name(…)` for its opposite, becomes a trigger record, and
a record is expressed as the call that its opcode names. It is written

    TR
    opcode integer flag integer integer [point] "string" "string" object
    TR

with a point only on profiles that have one. An older form has the object right
after the first integer.
-/

namespace InfinityScript

/-- A trigger record from its fields; the fields are texts, since one that has no
code is a placeholder. -/
def Profile.triggerLayout (profile : Profile) (opcode : Int) (negated : Bool)
    (integers : List Text) (point : Text) (strings : List Text) (object : Text) : Text :=
  let integer i := integers.getD i []
  let string i := strings.getD i []
  let numbers := [Text.ofInt opcode, integer 0, if negated then ("1" : Text) else "0", integer 1,
    integer 2]
  let point := if profile.hasTriggerPoint then [point] else []
  "TR\n" ++ Text.join " " (numbers ++ point ++ [string 0, string 1, object]) ++ "\nTR\n"

structure TriggerRecord where
  integers : List Int
  negated : Bool
  point : Option Text
  strings : Option (Text × Text)
  object : ObjectRecord
  deriving DecidableEq, Repr

def TriggerRecord.readFields (profile : Profile) (first : Int) :
    Option Lexeme → Reader TriggerRecord
  | some (.marker .object) => do
    Reader.marker .object
    let object ← ObjectRecord.read profile
    return { integers := [first, 0, 0], negated := false, point := none, strings := none, object }
  | _ => do
    let flag ← Reader.number
    let second ← Reader.number
    let third ← Reader.number
    let point ← Reader.coordinate?
    let string1 ← Reader.string
    let string2 ← Reader.string
    Reader.marker .object
    let object ← ObjectRecord.read profile
    return { integers := [first, second, third], negated := flag % 2 = 1, point,
             strings := some (string1, string2), object }

def TriggerRecord.read (profile : Profile) : Reader TriggerRecord := do
  let first ← Reader.number
  let next ← Reader.peek
  let record ← readFields profile first (next.map Token.lexeme)
  Reader.marker .trigger
  return record

end InfinityScript

namespace InfinityScript.Trigger

structure Fields where
  integers : Slots := .blank 3 "0"
  strings : Slots := .blank 4 emptyString
  object : Text
  point : Text := "[0,0]"

/-- Puts an argument into the slot its parameter calls for. Trigger parameters of
kind action have none. -/
def Fields.add (symbols : Symbols) (profile : Profile) (entry : Entry) (fields : Fields)
    (argument : Parameter × Text) : Encoding Fields := do
  let (parameter, value) := argument
  match parameter.kind with
  | .string => do
    let text ← Argument.encodeString symbols entry.name parameter.definition value
    return { fields with strings := ← Encoding.fill fields.strings text }
  | .integer => do
    let text ← Argument.encodeInteger symbols parameter.definition value
    return { fields with integers := ← Encoding.fill fields.integers text }
  | .object => do
    let object ← Object.encode symbols profile parameter.definition value
    return { fields with object }
  | .point => return { fields with point := Text.replaceFirst '.' ',' value }
  | .action => return fields

/-- How many triggers a trigger wants in its OR group; zero for one that is no OR. -/
def orCount (entry : Entry) (fields : Fields) : Int :=
  if Text.upper entry.name = "OR" then (Text.literal? (fields.integers.get 0)).getD 0 else 0

/-- Whether a trigger is an opposite, and its call. -/
def signed (line : Text) : Bool × Text :=
  match line with
  | '!' :: call => (true, call)
  | _ => (false, line)

def encode (symbols : Symbols) (profile : Profile) (line : Text) : Encoding (Text × Int) := do
  let (name, arguments) ← Encoding.ofExcept (Call.split (signed line).2)
  let entry ← Encoding.ofExcept (symbols.function "TRIGGER.IDS" name)
  let arguments ← Encoding.ofExcept (Call.arguments arguments true)
  let bound ← Encoding.ofExcept (Call.bind entry arguments)
  let fields ← bound.foldlM (Fields.add symbols profile entry) { object := profile.emptyObject }
  let opcode := toSigned32 entry.id
  let strings ← Encoding.packStrings symbols opcode fields.strings.values
  let opcode ← Encoding.ofNumeral (Text.writable opcode)
  return (profile.triggerLayout opcode (signed line).1 fields.integers.values fields.point strings
    fields.object, orCount entry fields)

/-- Older scripts store the opcodes of triggers without this bit. -/
def opcodeBit : Int := 0x4000

/-- The definition of a trigger's opcode, and the opcode as the table has it. -/
def definition? (symbols : Symbols) (opcode : Int) : Option (Entry × Int) :=
  match symbols.byId? "TRIGGER.IDS" opcode with
  | some entry => some (entry, opcode)
  | none => (symbols.byId? "TRIGGER.IDS" (opcode + opcodeBit)).map (·, opcode + opcodeBit)

structure Progress where
  arguments : List Text := []
  comment : Option Text := none
  nextInteger : Nat := 0
  nextString : Nat := 0

variable {m : Type → Type} [Monad m] [MonadNote m]

def Progress.addM (symbols : Symbols) (entry : Entry) (record : TriggerRecord)
    (strings : List (Option Text)) (object : Text) (progress : Progress) (parameter : Parameter) :
    m Progress := do
  match parameter.kind with
  | .string =>
    let value := ((strings[progress.nextString]?).join).getD emptyString
    let comment ← Comment.ofResourceM symbols entry.name parameter.definition (Text.inner value)
    return { progress with
      arguments := progress.arguments ++ [value]
      comment := Comment.latest comment progress.comment
      nextString := progress.nextString + 1 }
  | .object => return { progress with arguments := progress.arguments ++ [object] }
  | .point =>
    let value : Text := match record.point with
      | some point => Text.replaceFirst ',' '.' point
      | none => "[0.0]"
    return { progress with arguments := progress.arguments ++ [value] }
  | .integer =>
    let number := record.integers.getD progress.nextInteger 0
    let value ← Argument.expressIntegerM symbols parameter number
    return { progress with
      arguments := progress.arguments ++ [value]
      nextInteger := progress.nextInteger + 1 }
  | .action => return progress

def expressM [MonadExceptOf DecodeError m] (symbols : Symbols) (profile : Profile) (entry : Entry)
    (opcode : Int) (record : TriggerRecord) : m Text := do
  let object ← Object.expressM symbols profile record.object
  let strings := match record.strings with
    | some (first, second) => Scope.unpack symbols first second
    | none => []
  let entry ← DecodeError.ofSignature
    (symbols.definitionFor "TRIGGER.IDS" opcode entry fun signature =>
      signature.isExceeded record.integers [] [object] strings)
  let signature ← DecodeError.ofSignature entry.signature
  let progress ← signature.foldlM (Progress.addM symbols entry record strings object) {}
  let line := (if record.negated then ['!'] else []) ++ entry.name ++ "(" ++
    Text.join "," progress.arguments ++ ")"
  return Comment.append line progress.comment

end InfinityScript.Trigger
