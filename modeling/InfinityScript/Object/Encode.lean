import InfinityScript.Encoding
import InfinityScript.Object.Record

/-!
# Object expressions

A source names an object by a chain of qualifiers around a core, as in
`NearestEnemyOf(Player1)`. The core is an identifier vector `[ENEMY.0.DOG]`, which
can also be an area `[x.y.w.h]`, a quoted script name, or a symbol that may have
an area after it.
-/

namespace InfinityScript.Object

/-- Takes the qualifiers off an expression, outermost first, when there is room for
`room` of them; what is left is the core. -/
def peel (symbols : Symbols) (room : Nat) (value : Text) : Except Fault (List Int × Text) :=
  match Text.cut? '(' value with
  | none => .ok ([], value)
  | some (before, after) =>
    let qualifier := Text.trim before
    if value.getLast? ≠ some ')' then .error (.unclosedCall value)
    else match symbols.byName? "OBJECT.IDS" qualifier with
      | none => .error (.notFound qualifier "OBJECT.IDS")
      | some entry =>
        match room with
        | 0 => .error (.tooManyQualifiers value)
        | room + 1 => do
          let (qualifiers, core) ← peel symbols room (Text.trim after.dropLast)
          return (entry.id :: qualifiers, core)

/-- The qualifiers and the core of an expression. Qualifiers around nothing stand
around the script's own creature; a quoted name has no qualifiers. -/
def qualify (symbols : Symbols) (value : Text) : Except Fault (List Int × Text) :=
  if value.head? = some '"' then .ok ([], value)
  else do
    let (qualifiers, core) ← peel symbols 5 value
    return (qualifiers, if core = [] ∧ qualifiers ≠ [] then "MYSELF" else core)

/-- The texts between brackets, one after the other; none stands for a bracket that
is not closed. `opened` is what has been read since the last opening bracket. -/
def bracketGroups (opened : Option Text) : Text → List (Option Text)
  | [] => if opened.isSome then [none] else []
  | c :: rest =>
    match opened with
    | none => bracketGroups (if c = '[' then some [] else none) rest
    | some group =>
      if c = ']' then some group :: bracketGroups none rest
      else bracketGroups (some (group ++ [c])) rest

/-- The numbers of a vector, zero where a component is missing, and whether one of
them was named. -/
def vectorNumbers (symbols : Symbols) : List Text → List Text → Except Refusal (List Int × Bool)
  | [], _ => .ok ([], false)
  | _ :: tables, [] => do
    let (numbers, named) ← vectorNumbers symbols tables []
    return (0 :: numbers, named)
  | table :: tables, component :: components =>
    match symbols.byName? table component with
    | some entry => do
      let n ← Refusal.ofNumeral (Text.writable (toSigned32 entry.id))
      let (numbers, _) ← vectorNumbers symbols tables components
      return (n :: numbers, true)
    | none => do
      match ← Refusal.ofNumeral (Text.number component) with
      | some n => do
        let (numbers, named) ← vectorNumbers symbols tables components
        return (n :: numbers, named)
      | none => .error (.fault (.notFound component table))

def checkQualifiers (qualifiers : List Int) : Except NumeralFault Unit :=
  qualifiers.forM fun id => discard (Text.writable (toSigned32 id))

structure Fields where
  leading : Text := []
  area : Text := noArea
  trailing : Text

/-- Takes up one bracket group. Up to four numbers are an area where the profile
has one; anything else is a vector. -/
def Fields.add (symbols : Symbols) (profile : Profile) (fields : Fields) :
    Option Text → Except Refusal Fields
  | none => .error (.fault .unclosedVector)
  | some group =>
    if group = [] ∨ Text.upper group = "ANYONE" then
      .ok { fields with leading := fields.leading ++ profile.leadingZeros }
    else do
      let components := (Text.splitOn '.' group).filter (· ≠ [])
      let (numbers, named) ← vectorNumbers symbols profile.objectTables components
      if ¬ named ∧ components.length ≤ 4 ∧ profile.hasObjectArea then
        return { fields with
          leading := if fields.leading = [] then profile.leadingZeros else fields.leading
          area := "[" ++ group ++ "]" }
      else
        return { fields with
          leading := fields.leading ++ profile.leadingText numbers
          trailing :=
            if profile.trailingWidth ≠ 0 then profile.trailingText numbers else fields.trailing }

def vectorCode (symbols : Symbols) (profile : Profile) (qualifiers : List Int) (core : Text) :
    Except Refusal Text := do
  Refusal.ofRepeat profile.checkTrailing
  let fields ← (bracketGroups none core).foldlM (Fields.add symbols profile)
    { trailing := profile.trailingZeros }
  Refusal.ofNumeral (checkQualifiers qualifiers)
  return profile.objectLayout fields.leading qualifiers fields.area emptyString fields.trailing

def nameCode (profile : Profile) (qualifiers : List Int) (core : Text) : Except Refusal Text := do
  if core.length = 1 ∨ core.getLast? ≠ some '"' then throw (.fault (.unclosed .quote core))
  Refusal.ofNumeral (checkQualifiers qualifiers)
  return profile.objectLayout profile.leadingZeros qualifiers noArea core profile.trailingZeros

/-- The symbol of a core, and the area that may stand after it. -/
def symbolParts (core : Text) : Text × Text :=
  match Text.cut? '[' core with
  | some (before, after) =>
    if core.getLast? = some ']' then (Text.trim before, '[' :: after) else (core, noArea)
  | none => (core, noArea)

def symbolCode (symbols : Symbols) (profile : Profile) (qualifiers : List Int) (core : Text) :
    Except Refusal Text := do
  let (symbol, area) := symbolParts core
  let entry := if symbol = [] then none else symbols.byName? "OBJECT.IDS" symbol
  if area = noArea ∧ entry.isNone ∧ symbol ≠ [] then throw (.fault (.unknownSymbol symbol))
  if qualifiers.length = 5 then throw (.fault (.tooManyQualifiers symbol))
  let qualifiers := qualifiers ++ [(entry.map Entry.id).getD 0]
  Refusal.ofNumeral (checkQualifiers qualifiers)
  if ¬ profile.hasObjectArea ∧ area ≠ noArea then throw (.fault .areaWithoutField)
  return profile.objectLayout profile.leadingZeros qualifiers area emptyString
    profile.trailingZeros

def nameRemark? (symbols : Symbols) (definition value : Text) : Option Remark :=
  match symbols.scriptNames with
  | none => none
  | some names =>
    let name := Text.inner value
    if scriptNameKey name ≠ [] ∧ (names.hasCreature name ∨ names.hasArea name) then none
    else some (.warning (.unknownScriptName definition value))

def code (symbols : Symbols) (profile : Profile) (definition value : Text) :
    Except Refusal (Noted Remark Text) := do
  let (qualifiers, core) ← Refusal.ofFault (qualify symbols value)
  match core.head? with
  | some '[' => return pure (← vectorCode symbols profile qualifiers core)
  | some '"' =>
    return ⟨← nameCode profile qualifiers core, (nameRemark? symbols definition core).toList⟩
  | _ => return pure (← symbolCode symbols profile qualifiers core)

def encode (symbols : Symbols) (profile : Profile) (definition value : Text) : Encoding Text :=
  Encoding.ofPart (code symbols profile definition value)

end InfinityScript.Object
