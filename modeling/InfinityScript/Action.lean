import InfinityScript.Argument.Encode
import InfinityScript.Argument.Express
import InfinityScript.Object.Record
import InfinityScript.Trigger

/-!
# Actions

An action `Name(…)` becomes an action record, which is written

    AC
    opcode object
    object
    object
    integer x y integer integer"string" "string" AC

The first object is the one that acts in place of the script's own creature:
`ActionOverride(actor,Name(…))` is the record of the inner action with another
actor, and is what such a record is expressed as. The strings may be missing.
-/

namespace InfinityScript

def actionLayout (opcode : Int) (objects integers : List Text) (point : Text)
    (strings : List Text) : Text :=
  let object i := objects.getD i []
  let integer i := integers.getD i []
  let string i := strings.getD i []
  let fields := Text.ofInt opcode ++ object 0 ++ "\n" ++ object 1 ++ "\n" ++ object 2 ++ "\n" ++
    integer 0 ++ " " ++ point ++ " " ++ integer 1 ++ " " ++ integer 2 ++ string 0 ++ " " ++ string 1
  "AC\n" ++ fields ++ " AC\n"

structure ActionRecord where
  opcode : Int
  actor : ObjectRecord
  objects : List ObjectRecord
  integers : List Int
  x : Int
  y : Int
  strings : Option (Text × Text)
  deriving DecidableEq, Repr

def ActionRecord.readStrings : Option Lexeme → Reader (Option (Text × Text))
  | some (.string _) => do
    let string1 ← Reader.string
    let string2 ← Reader.string
    return some (string1, string2)
  | _ => return none

def ActionRecord.read (profile : Profile) : Reader ActionRecord := do
  let opcode ← Reader.number
  Reader.marker .object
  let actor ← ObjectRecord.read profile
  Reader.marker .object
  let object1 ← ObjectRecord.read profile
  Reader.marker .object
  let object2 ← ObjectRecord.read profile
  let first ← Reader.number
  let x ← Reader.number
  let y ← Reader.number
  let second ← Reader.number
  let third ← Reader.number
  let next ← Reader.peek
  let strings ← readStrings (next.map Token.lexeme)
  Reader.marker .action
  return { opcode, actor, objects := [object1, object2], integers := [first, second, third], x, y,
           strings }

end InfinityScript

namespace InfinityScript.Action

structure Fields where
  integers : Slots := .blank 3 "0"
  strings : Slots := .blank 4 emptyString
  objects : Slots
  point : Text := "0 0"

/-- Puts an argument into the slot its parameter calls for. After two strings, a
third that is not quoted is an object. -/
def Fields.add (symbols : Symbols) (profile : Profile) (entry : Entry) (fields : Fields)
    (argument : Parameter × Text) : Encoding Fields := do
  let (parameter, value) := argument
  match parameter.kind with
  | .string =>
    if fields.strings.next = 2 ∧ value.head? ≠ some '"' then addObject parameter value
    else do
      let text ← Argument.encodeString symbols entry.name parameter.definition value
      return { fields with strings := ← Encoding.fill fields.strings text }
  | .integer => do
    let text ← Argument.encodeInteger symbols parameter.definition value
    return { fields with integers := ← Encoding.fill fields.integers text }
  | .object => addObject parameter value
  | .point => do
    let point ← Argument.encodePoint parameter.definition value
    return { fields with point }
  | .action => return fields
where
  addObject (parameter : Parameter) (value : Text) : Encoding Fields := do
    let object ← Object.encode symbols profile parameter.definition value
    return { fields with objects := ← Encoding.fill fields.objects object }

def encodeCall (symbols : Symbols) (profile : Profile) (actor : Text) (entry : Entry)
    (arguments : Text) : Encoding Text := do
  let arguments ← Encoding.ofExcept (Call.arguments arguments false)
  let bound ← Encoding.ofExcept (Call.bind entry arguments)
  let fields ← bound.foldlM (Fields.add symbols profile entry)
    { objects := .blank 2 profile.emptyObject }
  let strings ← Encoding.packStrings symbols (-1) fields.strings.values
  let opcode ← Encoding.ofNumeral (Text.writable (toSigned32 entry.id))
  return actionLayout opcode (actor :: fields.objects.values) fields.integers.values fields.point
    strings

def encode (symbols : Symbols) (profile : Profile) (line : Text) : Encoding Text := do
  let (name, arguments) ← Encoding.ofExcept (Call.split line)
  let entry ← Encoding.ofExcept (symbols.function "ACTION.IDS" name)
  if Text.upper entry.name = "ACTIONOVERRIDE" then
    match Text.cut? ',' arguments with
    | none => throw (.fault (.tooFewArguments (entry.parameters.getD [])))
    | some (target, inner) => do
      let actor ← Object.encode symbols profile "O:Actor*" (Text.trim target)
      let (name, arguments) ← Encoding.ofExcept (Call.split (Text.trim inner))
      let entry ← Encoding.ofExcept (symbols.function "ACTION.IDS" name)
      encodeCall symbols profile actor entry arguments
  else encodeCall symbols profile profile.emptyObject entry arguments

/-- A scope in the string after the last declared one belongs to the last one. -/
def reclaimScope (signature : Signature) (strings : List (Option Text)) : List (Option Text) :=
  let count := Signature.count signature .string
  match (strings[count]?).join with
  | some scope =>
    if 0 < count ∧ count < 4 ∧ scope ≠ emptyString then
      let last := ((strings[count - 1]?).join).getD []
      strings.set (count - 1) (some (scope.dropLast ++ last.drop 1))
    else strings
  | none => strings

/-- The next object from an index on; an empty first object is passed over. -/
def pickObject (objects : List Text) (index : Nat) : Text × Nat :=
  match objects.drop index with
  | [] => (anyone, index)
  | object :: rest =>
    if object = anyone ∧ index = 0 then
      match rest with
      | next :: _ => (next, 2)
      | [] => (object, 1)
    else (object, index + 1)

structure Progress where
  arguments : List Text := []
  comment : Option Text := none
  nextInteger : Nat := 0
  nextObject : Nat := 0
  nextString : Nat := 0

variable {m : Type → Type} [Monad m] [MonadNote m] [MonadExceptOf DecodeError m]

def stringCommentM (symbols : Symbols) (entry : Entry) (definition value : Text) :
    m (Option Text) :=
  if Text.upper definition = "S:SPELLS*" then
    match Comment.ofSpells symbols value with
    | .ok comment => pure comment
    | .error abort => throw (.abort abort)
  else Comment.ofResourceM symbols entry.name definition (Text.inner value)

/-- Expresses the argument of one parameter. Strings of a record that has no string
fields are taken from its objects. -/
def Progress.addM (symbols : Symbols) (entry : Entry) (record : ActionRecord)
    (strings : Option (List (Option Text))) (objects : List Text) (progress : Progress)
    (parameter : Parameter) : m Progress := do
  match parameter.kind with
  | .string =>
    let (value, progress) := match strings with
      | none =>
        (objects.getD progress.nextObject emptyString,
          { progress with nextObject := progress.nextObject + 1 })
      | some strings =>
        (((strings[progress.nextString]?).join).getD emptyString,
          { progress with nextString := progress.nextString + 1 })
    let comment ← stringCommentM symbols entry parameter.definition value
    return { progress with
      arguments := progress.arguments ++ [value]
      comment := Comment.latest comment progress.comment }
  | .object =>
    let (value, next) := pickObject objects progress.nextObject
    return { progress with arguments := progress.arguments ++ [value], nextObject := next }
  | .integer =>
    let number := record.integers.getD progress.nextInteger 0
    let value ← Argument.expressIntegerM symbols parameter number
    let progress := { progress with
      arguments := progress.arguments ++ [value]
      nextInteger := progress.nextInteger + 1 }
    if Text.upper (parameter.definition.take 8) = "I:STRREF" then
      MonadNote.note (.stringRef number)
      return { progress with comment := Comment.latest (symbols.string? number) progress.comment }
    else return progress
  | .point =>
    let value := "[" ++ Text.ofInt record.x ++ "." ++ Text.ofInt record.y ++ "]"
    return { progress with arguments := progress.arguments ++ [value] }
  | .action => return progress

def expressM (symbols : Symbols) (profile : Profile) (record : ActionRecord) : m Text := do
  let actor ← Object.expressM symbols profile record.actor
  let objects ← record.objects.mapM (Object.expressM symbols profile)
  let strings := record.strings.map fun (first, second) => Scope.unpack symbols first second
  match symbols.byId? "ACTION.IDS" record.opcode with
  | none =>
    MonadNote.note (.unresolved record.opcode "ACTION.IDS")
    return "Error - Could not find action " ++ Text.ofInt record.opcode
  | some entry =>
    let entry ← DecodeError.ofSignature
      (symbols.definitionFor "ACTION.IDS" record.opcode entry fun signature =>
        signature.isExceeded record.integers [record.x, record.y] objects (strings.getD []))
    let signature ← DecodeError.ofSignature entry.signature
    let strings := strings.map (reclaimScope signature)
    let progress ← signature.foldlM (Progress.addM symbols entry record strings objects) {}
    let line := entry.name ++ "(" ++ Text.join "," progress.arguments ++ ")"
    let line := if actor = anyone then line else "ActionOverride(" ++ actor ++ "," ++ line ++ ")"
    return Comment.append line progress.comment

end InfinityScript.Action
