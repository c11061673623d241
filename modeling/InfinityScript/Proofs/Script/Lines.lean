import InfinityScript.Proofs.Record.Notes
import InfinityScript.Script.Decompile

/-!
# Scripts as lines

The lines that code is decompiled to, read block by block or record by record. What is damaged
becomes a line that says what was wrong. The source, and what there is to say about it, are
those of the lines.
-/

namespace InfinityScript

def Trigger.decode (symbols : Symbols) (profile : Profile) : Reader SourceLine := do
  let opcode ← Reader.number
  match definition? symbols opcode with
  | some (entry, opcode) =>
    let record ← TriggerRecord.read profile
    Expressing.line (express symbols profile entry opcode record)
  | none =>
    Reader.skipPast (.marker .trigger)
    return { text := "Error - Could not find trigger " ++ Text.ofInt opcode
             notes := [.unresolved opcode "TRIGGER.IDS"] }

def Action.decode (symbols : Symbols) (profile : Profile) : Reader SourceLine := do
  let record ← ActionRecord.read profile
  Expressing.line (express symbols profile record)

def Note.resource? : Note → Option Text
  | .resource name => some name
  | _ => none

def Note.stringRef? : Note → Option Int
  | .stringRef number => some number
  | _ => none

namespace Decompiled

/-- The source of lines; with `collect` also what their notes say. -/
def ofLines (collect : Bool) (lines : List SourceLine) : Decompiled :=
  let notes := if collect then (lines.map SourceLine.notes).zipIdx 1 else []
  let all := notes.flatMap Prod.fst
  { source := Text.ofLines (lines.map SourceLine.text)
    resources := .ofList (all.filterMap Note.resource?)
    stringRefs := .ofList (all.filterMap Note.stringRef?)
    diagnostics := .ofList (notes.flatMap fun (notes, number) =>
      (notes.filterMap Note.message?).map fun message => ((number : Int), message)) }

theorem flatMap_fst_zipIdx (lines : List SourceLine) :
    ((lines.map SourceLine.notes).zipIdx 1).flatMap Prod.fst = lines.flatMap SourceLine.notes := by
  rw [List.flatMap_def, List.zipIdx_map_fst, List.flatMap_def]

def messagesFrom (first : Nat) (lines : List SourceLine) : List (Int × Text) :=
  ((lines.map SourceLine.notes).zipIdx first).flatMap fun (notes, number) =>
    (notes.filterMap Note.message?).map fun message => ((number : Int), message)

theorem messagesFrom_append (first : Nat) (a b : List SourceLine) :
    messagesFrom first (a ++ b) = messagesFrom first a ++ messagesFrom (first + a.length) b := by
  simp [messagesFrom, List.zipIdx_append]

theorem messagesFrom_cons (first : Nat) (line : SourceLine) (lines : List SourceLine) :
    messagesFrom first (line :: lines) =
      (line.notes.filterMap Note.message?).map (fun message => ((first : Int), message)) ++
        messagesFrom (first + 1) lines := by
  simp [messagesFrom]

end Decompiled

namespace Decompiler

variable (decompiler : Decompiler)

structure Condition where
  lines : List SourceLine
  missing : Int := 0

def Condition.add (condition : Condition) (indent : Text) (trigger : SourceLine) :
    Except NumeralFault Condition := do
  if condition.missing > 0 then
    return { lines := condition.lines ++ [trigger.indented (indent ++ indent)]
             missing := condition.missing - 1 }
  else
    return { lines := condition.lines ++ [trigger.indented indent]
             missing := ← orCount trigger.text }

def conditionStep (condition : Condition) (token : Token) : Reader Condition :=
  if token.lexeme = .marker .trigger then do
    let trigger ← Trigger.decode decompiler.symbols decompiler.profile
    match condition.add decompiler.indent trigger with
    | .ok condition => return condition
    | .error fault => Reader.fail (.abort (.numeral fault))
  else return condition

def condition : Reader (List SourceLine) := do
  let (condition, closed) ←
    Reader.sweep (some .condition) decompiler.conditionStep { lines := [{ text := "IF" }] }
  if closed then return condition.lines
  else Reader.fail (.damage (.mismatch (.marker .condition) none))

def response : Reader (List SourceLine) := do
  let weight ← Reader.number
  let actions ← Reader.many .action (Action.decode decompiler.symbols decompiler.profile)
  Reader.marker .response
  return { text := decompiler.indent ++ "RESPONSE #" ++ Text.ofInt weight } ::
    actions.map fun action => action.indented (decompiler.indent ++ decompiler.indent)

/-- Reads on after a lexeme of a response set, given the one after it. An empty set
has a single response marker before its end. -/
def responseAt (lines : List SourceLine) (lexeme : Lexeme) (next : Option Lexeme) :
    Reader (List SourceLine) :=
  if lexeme = .marker .response ∧ next ≠ some (.marker .responseSet) then do
    let response ← decompiler.response
    return lines ++ response
  else return lines

def responseSetStep (lines : List SourceLine) (token : Token) : Reader (List SourceLine) := do
  let next ← Reader.peek
  decompiler.responseAt lines token.lexeme (next.map Token.lexeme)

def responseSet : Reader (List SourceLine) := do
  let (lines, closed) ←
    Reader.sweep (some .responseSet) decompiler.responseSetStep [{ text := "THEN" }]
  if closed then return lines
  else Reader.fail (.damage (.mismatch (.marker .responseSet) none))

def blockStep (lines : List SourceLine) (token : Token) : Reader (List SourceLine) :=
  match token.lexeme with
  | .marker .condition => return lines ++ (← decompiler.condition)
  | .marker .responseSet => return lines ++ (← decompiler.responseSet)
  | _ => return lines

def block : Reader (List SourceLine) := do
  let (lines, _) ← Reader.sweep (some .block) decompiler.blockStep []
  return lines ++ [{ text := "END" }, { text := [] }]

def blockOrDamage : Reader (List SourceLine) :=
  decompiler.block.recover fun damage => do
    Reader.skipPast (.marker .block)
    return [.ofDamage damage, { text := [] }]

def scriptStep (lines : List SourceLine) (token : Token) : Reader (List SourceLine) :=
  if token.lexeme = .marker .block then return lines ++ (← decompiler.blockOrDamage)
  else return lines

def script : Reader (List SourceLine) := do
  let (lines, _) ← Reader.sweep none decompiler.scriptStep []
  return lines

def recordOrDamage (marker : Marker) (record : Reader SourceLine) : Reader SourceLine :=
  record.recover fun damage => do
    Reader.skipPast (.marker marker)
    return .ofDamage damage

def recordsStep (marker : Marker) (record : Reader SourceLine) (lines : List SourceLine)
    (token : Token) : Reader (List SourceLine) :=
  if token.lexeme = .marker marker then return lines ++ [← recordOrDamage marker record]
  else return lines

def records (marker : Marker) (record : Reader SourceLine) : Reader (List SourceLine) := do
  let (lines, _) ← Reader.sweep none (recordsStep marker record) []
  return lines

def dialogRecord : Bool → Reader SourceLine
  | true => Action.decode decompiler.symbols decompiler.profile
  | false => Trigger.decode decompiler.symbols decompiler.profile

def dialogMarker : Bool → Marker
  | true => .action
  | false => .trigger

end Decompiler

/-- The lines that a reader makes of code. Damage is told of by the lines, so that
only an abort is left as an error. -/
def Reader.readCode (reader : Reader (List SourceLine)) (code : Text) (collect : Bool) :
    Except DecodeError Decompiled := do
  let tokens ← (readTokens code).mapError fun fault => .abort (.numeral fault)
  let lines ← (reader.run tokens).1
  return .ofLines collect lines

end InfinityScript
