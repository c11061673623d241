import InfinityScript.Action
import InfinityScript.Noted
import InfinityScript.Source.Outline

/-!
# Compiling scripts

A script is outlined into blocks, its statements are encoded one by one, and the
code is put together from the encoded statements. A statement that is refused
leaves a placeholder and costs nothing else.
-/

namespace InfinityScript

structure Compiled where
  code : Text
  errors : Diagnostics
  warnings : Diagnostics

structure Finding where
  line : Nat
  remark : Remark
  deriving DecidableEq, Repr

namespace Finding

def messages (message? : Remark → Option Text) (findings : List Finding) : Diagnostics :=
  .ofList (findings.filterMap fun finding =>
    (message? finding.remark).map fun message => (finding.line, message))

def errors (findings : List Finding) : Diagnostics := messages Remark.error? findings

def warnings (findings : List Finding) : Diagnostics := messages Remark.warning? findings

end Finding

abbrev Findings := Noted Finding

namespace Compiled

def ofFindings (result : Findings Text) : Compiled where
  code := result.value
  errors := Finding.errors result.notes
  warnings := Finding.warnings result.notes

end Compiled

/-- A statement after encoding: its text in the code, the remarks about it, and the
size of the OR group that it opens. -/
structure Encoded where
  text : Text
  remarks : List Remark := []
  orCount : Int := 0
  deriving DecidableEq, Repr

namespace Encoded

/-- A refused statement stands in the code as a placeholder on a line of its own. -/
def settle {α : Type} (encoding : Encoding α) (ofRecord : α → List Remark → Encoded) :
    Except Halt Encoded :=
  match encoding.outcome with
  | ⟨.ok record, remarks⟩ => .ok (ofRecord record remarks)
  | ⟨.error (.fault fault), remarks⟩ =>
    .ok { text := fault.placeholder ++ "\n", remarks := remarks ++ [.error fault] }
  | ⟨.error (.halt reason), _⟩ => .error reason

def trigger (symbols : Symbols) (profile : Profile) (line : Text) : Except Halt Encoded :=
  settle (Trigger.encode symbols profile line) fun (text, orCount) remarks =>
    { text, remarks, orCount }

def action (symbols : Symbols) (profile : Profile) (line : Text) : Except Halt Encoded :=
  settle (Action.encode symbols profile line) fun text remarks => { text, remarks }

def onLine (line : Nat) (encoded : Encoded) : Findings Text :=
  ⟨encoded.text, encoded.remarks.map (⟨line, ·⟩)⟩

end Encoded

/-- Reports a fault at a line; its placeholder is a line of the code. -/
def Fault.leaveAt (fault : Fault) (line : Nat) : Findings Text :=
  ⟨fault.placeholder ++ "\n", [⟨line, .error fault⟩]⟩

def Fault.leaveIf (present : Bool) (fault : Fault) (line : Nat) : Findings Text :=
  if present then fault.leaveAt line else pure []

def BodyLine.encode {σ τ : Type} (encode : σ → Except Halt τ) :
    BodyLine σ → Except Halt (BodyLine τ)
  | .response weight => return .response weight
  | .action statement => return .action (← encode statement)

namespace Block

def encodeEach {σ τ : Type} (encode : σ → Except Halt τ) (lines : List (Nat × σ)) :
    Except Halt (List (Nat × τ)) :=
  lines.mapM fun (number, line) => return (number, ← encode line)

def encode (symbols : Symbols) (profile : Profile) (block : Block Text) :
    Except Halt (Block Encoded) := do
  let triggers ← encodeEach (Encoded.trigger symbols profile) block.triggers
  let body ← encodeEach (BodyLine.encode (Encoded.action symbols profile)) block.body
  return { block with triggers, body }

/-- The code of triggers when `missing` are still to come in the open OR group, and
how many are missing at the end. -/
def triggerCode (missing : Int) : List (Nat × Encoded) → Findings (Text × Int)
  | [] => pure ([], missing)
  | (line, encoded) :: triggers => do
    let group := OrGroup.step missing encoded.orCount
    let text ← encoded.onLine line
    let fault ← Fault.leaveIf group.2 .nestedOr line
    let rest ← triggerCode group.1 triggers
    return (text ++ fault ++ rest.1, rest.2)

/-- The code of a condition in a source of `length` physical lines. An OR group left
open is reported on the line before the one that ends the condition. -/
def conditionCode (length : Nat) (block : Block Encoded) : Findings Text := do
  let last := block.thenLine.getD length
  let triggers ← triggerCode 0 block.triggers
  let opened ← Fault.leaveIf (triggers.2 > 0) (.missingTriggers triggers.2) (last - 1)
  let ended ← Fault.leaveIf block.thenLine.isNone .missingThen last
  return "CO\n" ++ triggers.1 ++ opened ++ ended ++ "CO\n"

def weightCode (line : Nat) : Option Text → Findings Text
  | some weight => pure weight
  | none => Fault.missingWeight.leaveAt line

/-- The code of body lines; `first` says that no response came before them. -/
def bodyCode (first : Bool) : List (Nat × BodyLine Encoded) → Findings Text
  | [] => pure []
  | (line, .response weight) :: body => do
    let weight ← weightCode line weight
    let rest ← bodyCode false body
    return (if first then "RE\n" else "RE\nRE\n") ++ weight ++ rest
  | (line, .action encoded) :: body => do
    let text ← encoded.onLine line
    let rest ← bodyCode first body
    return text ++ rest

def responseCode (length : Nat) (block : Block Encoded) : Findings Text := do
  let text ← bodyCode true block.body
  let ended ← Fault.leaveIf block.endLine.isNone .missingEnd length
  return "RS\n" ++ text ++ ended ++ "RE\nRS\n"

def code (length : Nat) (block : Block Encoded) : Findings Text := do
  let condition ← block.conditionCode length
  let responses ← block.responseCode length
  return "CR\n" ++ condition ++ responses ++ "CR\n"

end Block

/-- The code of a script. A stray statement leaves nothing of it but the fault. -/
def Outline.code (length : Nat) (blocks : List (Block Encoded))
    (stray : Option Nat) : Findings Text := do
  let codes ← blocks.mapM (Block.code length)
  match stray with
  | none => return "SC\n" ++ codes.flatten ++ "SC\n"
  | some line => ⟨Fault.missingIf.placeholder, [⟨line, .error .missingIf⟩]⟩

def compile (symbols : Symbols) (profile : Profile) (source : Source) : Except Halt Compiled := do
  profile.checkWidths.mapError .repetition
  let listing := source.listing
  let outline := Outline.ofLines listing.lines
  let blocks ← outline.blocks.mapM (Block.encode symbols profile)
  return .ofFindings (Outline.code listing.length blocks outline.stray)

def compileDialog (symbols : Symbols) (profile : Profile) (source : Source) (isAction : Bool) :
    Except Halt Compiled := do
  profile.checkWidths.mapError .repetition
  let encode := if isAction then Encoded.action else Encoded.trigger
  let statements ← source.listing.lines.mapM fun line =>
    return (line.number, ← encode symbols profile line.text)
  return .ofFindings (List.flatten <$> statements.mapM fun (line, encoded) => encoded.onLine line)

end InfinityScript
