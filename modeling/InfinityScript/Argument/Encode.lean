import InfinityScript.Encoding
import InfinityScript.Resource
import InfinityScript.Word

/-!
# Arguments as fields

An integer is written as a literal, as a symbol of the table its parameter
names, or as symbols with bars between them, whose ids are added. A point is
written `[x.y]`; the code of an action gives its numbers with blanks between
them. A string goes into the code as it is, and is checked against what its
parameter names: an area, a script name or a resource of the game.
-/

namespace InfinityScript.Argument

/-- The table that a declaration names after its last star. -/
def integerTable? (definition : Text) : Option Text :=
  match Text.cutLast? '*' definition with
  | some (_, table) => if table = [] then none else some (Text.upper table ++ ".IDS")
  | none => none

/-- The sum of the ids of symbols, blank ones left out. -/
def sumOfSymbols (symbols : Symbols) (table : Text) : List Text → Except Fault Int
  | [] => .ok 0
  | name :: names => do
    let name := Text.trim name
    let here ←
      if name = [] then .ok 0
      else match symbols.byName? table name with
        | some entry => .ok entry.id
        | none => .error (.notFound name table)
    let rest ← sumOfSymbols symbols table names
    return here + rest

def symbolic (symbols : Symbols) (definition value : Text) : Except Fault Int :=
  match integerTable? definition with
  | none => .error (.expected definition value)
  | some table =>
    match symbols.byName? table value with
    | some entry => .ok (toSigned32 entry.id)
    | none =>
      if '|' ∈ value then (sumOfSymbols symbols table (Text.splitOn '|' value)).map toSigned32
      else .error (.notFound value table)

def integer (symbols : Symbols) (definition value : Text) : Except Refusal Int := do
  match ← Refusal.ofNumeral (Text.literal value) with
  | some n => Refusal.ofNumeral (Text.writable n)
  | none => do
    let n ← Refusal.ofFault (symbolic symbols definition value)
    Refusal.ofNumeral (Text.writable n)

def encodeInteger (symbols : Symbols) (definition value : Text) : Encoding Text :=
  Encoding.ofPart do
    let n ← integer symbols definition value
    return pure (Text.ofInt n)

def point (definition value : Text) : Except Fault (List Int) :=
  if value.length > 1 ∧ value.head? = some '[' ∧ value.getLast? = some ']' then
    let body := Text.inner value
    let components := Text.splitOn '.' body
    if components.any List.isEmpty then .error (.pointIncomplete body)
    else match components.mapM Text.readLoose? with
      | some numbers => .ok numbers
      | none => .error (.pointNotNumeric body)
  else .error (.expected definition value)

def encodePoint (definition value : Text) : Encoding Text :=
  Encoding.ofPart do
    let numbers ← Refusal.ofFault (point definition value)
    return pure (Text.join " " (numbers.map Text.ofInt))

/-- The longest string the engine keeps, without its quotes. -/
def longestString : Nat := 32

def areaDefinitions : List Text := ["S:AREA*", "S:AREA1*", "S:AREA2*"]

/-- The functions whose `S:Name*` is the script name of a creature. -/
def creatureFunctions : List Text :=
  ["DEAD", "ISSCRIPTNAME", "NAME", "NUMDEAD", "NUMDEADGT", "NUMDEADLT"]

/-- The functions whose `S:Name*` is the script name of something in an area. -/
def areaFunctions : List Text := ["SETCORPSEENABLED"]

def stringRemark? (symbols : Symbols) (function definition value : Text) : Option Remark :=
  let name := Text.inner value
  let upperDefinition := Text.upper definition
  let upperFunction := Text.upper function
  let isSymbol := (symbols.byName? "OBJECT.IDS" name).isSome
  let unknownName := Remark.warning (.unknownScriptName definition value)
  if value = emptyString then none
  else if name.length > longestString then some (.warning (.longString definition value))
  else if areaDefinitions.contains upperDefinition then
    if Scope.isScope symbols value then none else some (.error (.invalidArea definition value))
  else if upperDefinition = "S:NAME*" then
    match symbols.scriptNames with
    | none => none
    | some names =>
      if isSymbol then none
      else if (creatureFunctions.contains upperFunction && !names.hasCreature name) ||
          (areaFunctions.contains upperFunction && !names.hasArea name) then some unknownName
      else none
  else match symbols.scriptNames, upperFunction == "ATTACHTRANSITIONTODOOR" with
    | some names, true => if names.hasArea name || isSymbol then none else some unknownName
    | _, _ =>
      let kinds := Resource.kinds function definition
      if kinds.isEmpty || kinds.any fun kind => symbols.hasResource (name ++ kind) then none
      else some (.warning (.missingResource definition value))

def encodeString (symbols : Symbols) (function definition value : Text) : Encoding Text :=
  Encoding.ofNoted ⟨value, (stringRemark? symbols function definition value).toList⟩

end InfinityScript.Argument
