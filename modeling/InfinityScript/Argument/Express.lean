import InfinityScript.Code.Pass
import InfinityScript.Object.Record
import InfinityScript.Resource
import InfinityScript.Symbol.Table
import InfinityScript.Word

/-!
# Fields as arguments

A number is expressed by its symbol in the table that its parameter names; where
symbols stand for single bits, one without a symbol of its own is expressed by
those of its bits. An object is expressed as a source would name it: the
qualifiers as a chain of calls, the identifier vector in brackets, or the script
name. Zeros say nothing and are left out.

A line may end in a comment that tells what a string or a number of it stands
for. Of several comments the last counts.
-/

namespace InfinityScript.Argument

/-- The tables whose symbols are bits. -/
def flagTables : List Text := ["AREATYPE.IDS", "BITS.IDS", "SPLCAST.IDS", "STATE.IDS"]

variable {m : Type → Type} [Monad m] [MonadNote m]

def unresolvedM (number shown : Int) (table : Text) : m Text := do
  MonadNote.note (.unresolved number table)
  return Text.ofInt shown

def expressIntegerM (symbols : Symbols) (parameter : Parameter) (number : Int) : m Text :=
  match parameter.table with
  | none => pure (Text.ofInt number)
  | some name =>
    match symbols.table? name with
    | none => unresolvedM number number name
    | some table =>
      match table.get? number with
      | some entry => pure entry.name
      | none =>
        if number ≠ 0 ∧ flagTables.contains name then
          let (names, rest) :=
            Flags.decompose (fun bit => (table.get? bit).map Entry.name) number
          if rest = 0 then pure (Text.join " | " names) else unresolvedM rest number name
        else unresolvedM number number name

end InfinityScript.Argument

namespace InfinityScript.Object

variable {m : Type → Type} [Monad m] [MonadNote m]

def identifierM (symbols : Symbols) (table : Text) (number : Int) : m (Option Text) :=
  if number = 0 then pure none
  else match symbols.byId? table number with
    | some entry => pure (some entry.name)
    | none => do
      MonadNote.note (.unresolved number table)
      return some (Text.ofInt number)

/-- The area of a record, unless it is the one that stands for none. -/
def area? (record : ObjectRecord) : Option Text :=
  record.area.filter fun area =>
    (Text.splitOn '.' (Text.inner area)).any fun component => component ≠ [] ∧ component ≠ "-1"

/-- The identifier vector in brackets, without the zeros at its end. -/
def vectorText? (identifiers : List (Option Text)) : Option Text :=
  let used := (identifiers.reverse.dropWhile Option.isNone).reverse
  if used.isEmpty then none
  else some ("[" ++ Text.join "." (used.map fun name => name.getD "0") ++ "]")

/-- An expression from the names of its qualifiers, innermost first, and the other
fields of its record. -/
def compose (qualifiers identifiers : List (Option Text)) (area : Option Text) (name : Text) :
    Text :=
  let outer := (qualifiers.drop 1).reverse.filterMap id
  let chain : Text := outer.flatMap (· ++ ['(']) ++ (qualifiers.head?.join).getD []
  let closing (extra : Nat) := List.replicate (outer.length + extra) ')'
  if name ≠ emptyString then
    if chain = [] then name ++ closing 0 else chain ++ "(" ++ name ++ closing 1
  else
    let area := area.getD []
    match vectorText? identifiers with
    | none => (if chain = [] then anyone else chain) ++ area ++ closing 0
    | some vector =>
      if chain = [] then vector ++ area ++ closing 0
      else chain ++ "(" ++ vector ++ area ++ closing 1

def expressM (symbols : Symbols) (profile : Profile) (record : ObjectRecord) : m Text := do
  let identifiers ← (profile.objectTables.zip (record.vector profile)).mapM fun (table, number) =>
    identifierM symbols table number
  let qualifiers ← (record.qualifiers profile).mapM (identifierM symbols "OBJECT.IDS")
  return compose qualifiers identifiers (area? record) record.name

end InfinityScript.Object

namespace InfinityScript.Comment

/-- A newer comment replaces an older one unless it is empty. -/
def latest (newer older : Option Text) : Option Text := (newer.filter (· ≠ [])).or older

def ofResourceM {m : Type → Type} [Monad m] [MonadNote m] (symbols : Symbols)
    (function definition name : Text) : m (Option Text) :=
  if name.length > 8 then pure none
  else
    match (Resource.kinds function definition).find? fun kind => symbols.hasResource (name ++ kind)
    with
    | none => pure none
    | some kind => do
      MonadNote.note (.resource (Text.upper (name ++ kind)))
      return symbols.description? (name ++ kind)

/-- The names of spells whose four digit numbers stand one after the other. -/
def spellNames (symbols : Symbols) : Text → Except Abort (List Text)
  | a :: b :: c :: d :: rest =>
    let chunk := [a, b, c, d]
    if Text.isDigits chunk then
      match Text.readNat? chunk with
      | none => .error (.spellNumber chunk)
      | some number => do
        let names ← spellNames symbols rest
        return ((symbols.byId? "SPELL.IDS" number).map Entry.name).toList ++ names
    else .ok []
  | _ => .ok []

def ofSpells (symbols : Symbols) (value : Text) : Except Abort (Option Text) := do
  let names ← spellNames symbols (Text.inner value)
  return if names.isEmpty then none else some (Text.join ", " names)

/-- A line with its comment, in which line feeds become blanks. -/
def append (line : Text) : Option Text → Text
  | none => line
  | some comment => line ++ " // " ++ comment.map fun c => if c = '\n' then ' ' else c

end InfinityScript.Comment

namespace InfinityScript

def Signature.isExceeded (signature : Signature) (numbers point : List Int)
    (objects : List Text) (strings : List (Option Text)) : Bool :=
  let declared := Signature.count signature
  numbers.countP (· ≠ 0) > declared .integer ||
    (if point.any (· ≠ 0) then 1 else 0) > declared .point ||
    objects.countP (· ≠ anyone) > declared .object ||
    strings.countP (fun value => value.any (· ≠ emptyString)) > declared .string

def Symbols.definitionFor (symbols : Symbols) (table : Text) (opcode : Int) (entry : Entry)
    (exceeds : Signature → Bool) : Except ParameterFault Entry :=
  match symbols.overflowById? table opcode with
  | none => .ok entry
  | some overflow => do
    let signature ← entry.signature
    return if exceeds signature then overflow else entry

end InfinityScript
