import InfinityScript.Action
import InfinityScript.Code.Pass
import InfinityScript.Trigger

/-!
# Decompiling scripts

Compiled code is read block by block into source. A damaged block is replaced by
one line that says what was wrong, and reading goes on after it. The pieces of source that a
decoder makes end in the line feeds that it counts.
-/

namespace InfinityScript

structure Decompiled where
  source : Text
  resources : Std.TreeSet Text
  stringRefs : Std.TreeSet Int
  diagnostics : Diagnostics

structure Decompiler where
  symbols : Symbols
  profile : Profile
  indent : Text

def Decompiler.orCount (statement : Text) : Except NumeralFault Int := do
  if Text.upper (statement.take 3) = "OR(" then
    return (← Text.literal ((statement.drop 3).takeWhile (· ≠ ')'))).getD 0
  else return 0

namespace Pass

def asLine (pass : Pass Text) : Pass Text := do
  let line ← pass
  newLines 1
  return line

variable (decompiler : Decompiler)

def trigger : Pass Text := do
  let opcode ← Reader.number
  match Trigger.definition? decompiler.symbols opcode with
  | some (entry, opcode) =>
    let record ← TriggerRecord.read decompiler.profile
    asLine (Trigger.expressM decompiler.symbols decompiler.profile entry opcode record)
  | none =>
    Reader.skipPast (.marker .trigger)
    asLine do
      MonadNote.note (.unresolved opcode "TRIGGER.IDS")
      return "Error - Could not find trigger " ++ Text.ofInt opcode

def action : Pass Text := do
  let record ← ActionRecord.read decompiler.profile
  asLine (Action.expressM decompiler.symbols decompiler.profile record)

/-- The source of a condition so far, and how many triggers the open OR group still has to
come. -/
structure Condition where
  pieces : List Text
  missing : Int := 0

/-- Takes up a trigger; inside an OR group it is indented twice. -/
def Condition.add (condition : Condition) (indent trigger : Text) : Pass Condition :=
  if condition.missing > 0 then
    return { pieces := condition.pieces ++ [indent ++ indent ++ trigger ++ "\n"]
             missing := condition.missing - 1 }
  else
    match Decompiler.orCount trigger with
    | .ok count =>
      return { pieces := condition.pieces ++ [indent ++ trigger ++ "\n"], missing := count }
    | .error fault => throw (.abort (.numeral fault))

def conditionStep (condition : Condition) (token : Token) : Pass Condition :=
  if token.lexeme = .marker .trigger then do
    condition.add decompiler.indent (← trigger decompiler)
  else return condition

def condition : Pass (List Text) := do
  newLines 1
  let (condition, closed) ←
    sweep (some .condition) (conditionStep decompiler) { pieces := ["IF\n"] }
  if closed then return condition.pieces
  else throw (.damage (.mismatch (.marker .condition) none))

def response : Pass (List Text) := do
  let weight ← Reader.number
  newLines 1
  let actions ← many .action (action decompiler)
  Reader.marker .response
  return (decompiler.indent ++ "RESPONSE #" ++ Text.ofInt weight ++ "\n") ::
    actions.map fun action => decompiler.indent ++ decompiler.indent ++ action ++ "\n"

/-- Reads on in a response set after a token of it. An empty set has a single response marker
before its end. -/
def responseSetStep (pieces : List Text) (token : Token) : Pass (List Text) := do
  let next ← Reader.peek
  if token.lexeme = .marker .response ∧ next.map Token.lexeme ≠ some (.marker .responseSet) then
    return pieces ++ (← response decompiler)
  else return pieces

def responseSet : Pass (List Text) := do
  newLines 1
  let (pieces, closed) ← sweep (some .responseSet) (responseSetStep decompiler) ["THEN\n"]
  if closed then return pieces
  else throw (.damage (.mismatch (.marker .responseSet) none))

def blockStep (pieces : List Text) (token : Token) : Pass (List Text) :=
  match token.lexeme with
  | .marker .condition => return pieces ++ (← condition decompiler)
  | .marker .responseSet => return pieces ++ (← responseSet decompiler)
  | _ => return pieces

def block : Pass (List Text) := do
  let (pieces, _) ← sweep (some .block) (blockStep decompiler) []
  newLines 2
  return pieces ++ [("END\n\n" : Text)]

/-- Drops what is damaged up to the next marker, with all that was counted and recorded on the
way. A message of so many lines stands for it. -/
def orDamage (marker : Marker) (lines : Nat) (pass : Pass (List Text)) : Pass (List Text) := do
  let saved ← save
  pass.recover fun
    | .damage damage => do
      restore saved
      MonadNote.note (.damaged damage)
      Reader.skipPast (.marker marker)
      newLines lines
      return ["Error - " ++ damage.message ++ List.replicate lines '\n']
    | .abort abort => throw (.abort abort)

def items (marker : Marker) (lines : Nat) (item : Pass (List Text)) : Pass (List Text) := do
  let (pieces, _) ← sweep none
    (fun pieces token =>
      if token.lexeme = .marker marker then return pieces ++ (← orDamage marker lines item)
      else return pieces) []
  return pieces

def script : Pass (List Text) := items .block 2 (block decompiler)

def records (marker : Marker) (record : Pass Text) : Pass (List Text) :=
  items marker 1 do return [(← record) ++ "\n"]

/-- The source that a pass makes of code. Damage is told of by the source, so that only an abort
is left as an error. -/
def readCode (pass : Pass (List Text)) (code : Text) (collect : Bool) :
    Except DecodeError Decompiled := do
  let tokens ← (readTokens code).mapError fun fault => .abort (.numeral fault)
  match pass.run collect {} tokens with
  | (.ok pieces, log, _) =>
    return { source := pieces.flatten
             resources := log.resources
             stringRefs := log.stringRefs
             diagnostics := log.diagnostics }
  | (.error error, _) => throw error

end Pass

namespace Decompiler

variable (decompiler : Decompiler)

def decompile (code : Text) (collect : Bool) : Except DecodeError Decompiled :=
  (Pass.script decompiler).readCode code collect

/-- Decompiles the bare triggers or actions of a dialog, which stand in no block. -/
def decompileDialog (code : Text) (isAction collect : Bool) : Except DecodeError Decompiled :=
  let pass :=
    if isAction then Pass.records .action (Pass.action decompiler)
    else Pass.records .trigger (Pass.trigger decompiler)
  pass.readCode code collect

end Decompiler

end InfinityScript
