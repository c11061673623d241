import InfinityScript.Proofs.Code.Pieces
import InfinityScript.Proofs.Code.Stepwise
import InfinityScript.Proofs.Outcome
import InfinityScript.Proofs.Script.Passes

/-!
# Decompiling by lexemes

The readers of records go step by step, so that what the decompiler makes of a code
is what its readers make of the code's lexemes.
-/

namespace InfinityScript

open Reader

/-- What a record is made of, apart from the markers around it. -/
def Lexeme.IsField : Lexeme → Prop
  | .number _ | .string _ | .coordinate _ => True
  | .marker m => m = .object
  | .word _ => False

theorem Expressing.idle_line (x : Expressing Text) : Idle (Expressing.line x) := by
  unfold Expressing.line
  split
  · exact .pure _
  · exact .fail _

namespace Lexeme.IsField

theorem number (n : Int) : IsField (.number n) := trivial

theorem string (text : Text) : IsField (.string text) := trivial

theorem coordinate (text : Text) : IsField (.coordinate text) := trivial

theorem object : IsField (.marker .object) := rfl

end Lexeme.IsField

theorem ObjectRecord.stepwise_read (profile : Profile) :
    Stepwise Lexeme.IsField (ObjectRecord.read profile) := by
  refine (Stepwise.numbers Lexeme.IsField.number).bind fun before => ?_
  refine (Stepwise.coordinate? Lexeme.IsField.coordinate).bind fun area => ?_
  refine (Stepwise.string Lexeme.IsField.string).bind fun name => ?_
  refine (Stepwise.numbers Lexeme.IsField.number).bind fun after => ?_
  refine (Stepwise.marker _ Lexeme.IsField.object).bind fun _ => ?_
  dsimp only
  split
  · exact .fail _
  split
  · exact .fail _
  · exact .pure _

theorem TriggerRecord.stepwise_readFields (profile : Profile) (first : Int) (next : Option Lexeme) :
    Stepwise Lexeme.IsField (TriggerRecord.readFields profile first next) := by
  unfold TriggerRecord.readFields
  split
  · refine (Stepwise.marker _ Lexeme.IsField.object).bind fun _ => ?_
    exact (ObjectRecord.stepwise_read profile).bind fun object => .pure _
  · refine (Stepwise.number Lexeme.IsField.number).bind fun flag => ?_
    refine (Stepwise.number Lexeme.IsField.number).bind fun second => ?_
    refine (Stepwise.number Lexeme.IsField.number).bind fun third => ?_
    refine (Stepwise.coordinate? Lexeme.IsField.coordinate).bind fun point => ?_
    refine (Stepwise.string Lexeme.IsField.string).bind fun string1 => ?_
    refine (Stepwise.string Lexeme.IsField.string).bind fun string2 => ?_
    refine (Stepwise.marker _ Lexeme.IsField.object).bind fun _ => ?_
    exact (ObjectRecord.stepwise_read profile).bind fun object => .pure _

theorem TriggerRecord.closes_read (profile : Profile) :
    Closes Lexeme.IsField .trigger (TriggerRecord.read profile) := by
  refine .bind (Stepwise.number Lexeme.IsField.number) fun first => ?_
  refine .look (fun next => do
    let record ← TriggerRecord.readFields profile first next
    marker .trigger
    return record) fun next => ?_
  exact .bind (TriggerRecord.stepwise_readFields profile first next) fun record =>
    .close (.pure record)

theorem ActionRecord.stepwise_readStrings (next : Option Lexeme) :
    Stepwise Lexeme.IsField (ActionRecord.readStrings next) := by
  unfold ActionRecord.readStrings
  split
  · refine (Stepwise.string Lexeme.IsField.string).bind fun string1 => ?_
    exact (Stepwise.string Lexeme.IsField.string).bind fun string2 => .pure _
  · exact .pure _

theorem ActionRecord.closes_read (profile : Profile) :
    Closes Lexeme.IsField .action (ActionRecord.read profile) := by
  have hnumber := Stepwise.number Lexeme.IsField.number
  have hmarker := Stepwise.marker _ Lexeme.IsField.object
  have hobject := ObjectRecord.stepwise_read profile
  refine .bind hnumber fun opcode => .bind hmarker fun _ => .bind hobject fun actor => ?_
  refine .bind hmarker fun _ => .bind hobject fun object1 => ?_
  refine .bind hmarker fun _ => .bind hobject fun object2 => ?_
  refine .bind hnumber fun first => .bind hnumber fun x => .bind hnumber fun y => ?_
  refine .bind hnumber fun second => .bind hnumber fun third => ?_
  refine .look (fun next => do
    let strings ← ActionRecord.readStrings next
    marker .action
    return ({ opcode, actor, objects := [object1, object2], integers := [first, second, third],
              x, y, strings } : ActionRecord)) fun next => ?_
  exact .bind (ActionRecord.stepwise_readStrings next) fun strings => .close (.pure _)

theorem Action.closes_decode (symbols : Symbols) (profile : Profile) :
    Closes Lexeme.IsField .action (Action.decode symbols profile) :=
  .finish (ActionRecord.closes_read profile) fun _ => Expressing.idle_line _

theorem Trigger.closes_read (symbols : Symbols) (profile : Profile) (entry : Entry) (opcode : Int) :
    Closes Lexeme.IsField .trigger (TriggerRecord.read profile >>= fun record =>
      Expressing.line (Trigger.express symbols profile entry opcode record)) :=
  .finish (TriggerRecord.closes_read profile) fun _ => Expressing.idle_line _

theorem Trigger.positionless_decode (symbols : Symbols) (profile : Profile) :
    Positionless (Trigger.decode symbols profile) := by
  refine positionless_number.bind fun opcode => ?_
  split
  · exact (Trigger.closes_read symbols profile _ _).stepwise.positionless
  · exact (positionless_skipPast _).bind fun _ => positionless_pure _

namespace Decompiler

variable (decompiler : Decompiler)

theorem positionless_condition : Positionless decompiler.condition := by
  refine Positionless.bind (.sweep (fun _ _ => rfl) (fun state token => ?_) _) fun result => ?_
  · unfold conditionStep
    split
    · refine (Trigger.positionless_decode _ _).bind fun trigger => ?_
      split
      · exact positionless_pure _
      · exact positionless_fail _
    · exact positionless_pure _
  · dsimp only
    split
    · exact positionless_pure _
    · exact positionless_fail _

/-- What the lexemes of a response set other than its own marker are read by. -/
def IsResponsePart (l : Lexeme) : Prop := l.IsField ∨ l = .marker .action ∨ l = .marker .response

theorem stepwise_response : Stepwise IsResponsePart decompiler.response := by
  have hfield : ∀ l, l.IsField → IsResponsePart l := fun _ => .inl
  have hdecode := (Action.closes_decode decompiler.symbols decompiler.profile).stepwise
  refine (Stepwise.number fun n => hfield _ (.number n)).bind fun weight => ?_
  refine (Stepwise.many .action (.inr (.inl rfl)) (hdecode.mono ?_)).bind fun actions => ?_
  · exact fun l hl => hl.imp_right .inl
  · exact (Stepwise.marker .response (.inr (.inr rfl))).bind fun _ => .pure _

theorem stepwise_responseSetStep (lines : List SourceLine) (token : Token) :
    Stepwise IsResponsePart (decompiler.responseSetStep lines token) := by
  refine .look (decompiler.responseAt lines token.lexeme) fun next => ?_
  unfold responseAt
  split
  · exact decompiler.stepwise_response.bind fun _ => .pure _
  · exact .pure _

theorem positionless_responseSet : Positionless decompiler.responseSet := by
  refine Positionless.bind (.sweep (fun _ _ => rfl) (fun state token => ?_) _) fun result => ?_
  · exact (decompiler.stepwise_responseSetStep state token).positionless
  · dsimp only
    split
    · exact positionless_pure _
    · exact positionless_fail _

theorem positionless_block : Positionless decompiler.block := by
  refine Positionless.bind (.sweep (fun _ _ => rfl) (fun state token => ?_) _) fun result =>
    positionless_pure _
  unfold blockStep
  split
  · exact decompiler.positionless_condition.bind fun _ => positionless_pure _
  · exact decompiler.positionless_responseSet.bind fun _ => positionless_pure _
  · exact positionless_pure _

theorem positionless_dialogRecord (isAction : Bool) :
    Positionless (decompiler.dialogRecord isAction) := by
  cases isAction with
  | true => exact (Action.closes_decode _ _).stepwise.positionless
  | false => exact Trigger.positionless_decode _ _

variable {decompiler} in
theorem exists_run_dialogPass {isAction : Bool} {line : SourceLine}
    (h : (decompiler.dialogRecord isAction).parse (tokens.map Token.lexeme) = (.ok line, ls))
    (collect : Bool) (log : Log) :
    ∃ left, left.map Token.lexeme = ls ∧
      (decompiler.dialogPass isAction).run collect log tokens =
        (.ok line.text, log.write collect line, left) := by
  obtain ⟨left, hrun, hleft⟩ := (decompiler.positionless_dialogRecord isAction).exists_run h
  obtain ⟨_, rfl, hpass⟩ := (decompiler.follows_dialogPass isAction []).exists_run hrun collect log
  exact ⟨left, hleft, hpass⟩

variable {decompiler} in
theorem exists_parse_dialogPass {isAction collect : Bool} {log log' : Log}
    (h : (decompiler.dialogPass isAction).run collect log tokens = (.ok text, log', left)) :
    ∃ notes, (decompiler.dialogRecord isAction).parse (tokens.map Token.lexeme) =
      (.ok ⟨text, notes⟩, left.map Token.lexeme) ∧ log' = log.write collect ⟨text, notes⟩ := by
  obtain ⟨⟨_, notes⟩, rfl, hrun, hlog⟩ := (decompiler.follows_dialogPass isAction []).exists_read h
  exact ⟨notes, (decompiler.positionless_dialogRecord isAction).parse_eq hrun, hlog⟩

theorem positionless_script : Positionless decompiler.script := by
  refine Positionless.bind (.sweep (fun _ _ => rfl) (fun state token => ?_) _) fun result =>
    positionless_pure _
  unfold scriptStep
  split
  · refine Positionless.bind ?_ fun _ => positionless_pure _
    exact decompiler.positionless_block.recover fun damage =>
      (positionless_skipPast _).bind fun _ => positionless_pure _
  · exact positionless_pure _

theorem scriptStep_script {decompiler : Decompiler} (lines : List SourceLine) :
    (decompiler.scriptStep lines (.bare (.marker .script))).parse ls = (.ok lines, ls) := by
  simp [scriptStep]

theorem positionless_records (m : Marker) {record : Reader SourceLine}
    (h : Positionless record) : Positionless (records m record) := by
  refine Positionless.bind (.sweep (fun _ _ => rfl) (fun state token => ?_) _) fun result =>
    positionless_pure _
  unfold recordsStep
  split
  · refine Positionless.bind ?_ fun _ => positionless_pure _
    exact h.recover fun damage => (positionless_skipPast _).bind fun _ => positionless_pure _
  · exact positionless_pure _

theorem positionless_readerOf (form : CodeForm) : Positionless (decompiler.readerOf form) := by
  cases form with
  | script => exact decompiler.positionless_script
  | dialog isAction => exact positionless_records _ (decompiler.positionless_dialogRecord isAction)

end Decompiler

/-- Code is read exactly when its numbers are legible and the reader finds lines in
its lexemes. -/
theorem Reader.readCode_eq_ok_iff {reader : Reader (List SourceLine)} (h : Positionless reader) :
    reader.readCode code collect = .ok d ↔
      (∀ piece ∈ pieces code, Legible piece) ∧
        ∃ lines, (reader.parse (lexemes code)).1 = .ok lines ∧ d = .ofLines collect lines := by
  have hrun := (h (tokenize code)).1
  rw [map_lexeme_tokenize] at hrun
  simp only [readCode, Outcome.bind_ok, Outcome.mapError_ok, Outcome.pure_ok,
    readTokens_eq_ok_iff]
  constructor
  · rintro ⟨_, ⟨rfl, hlegible⟩, lines, hlines, rfl⟩
    exact ⟨hlegible, lines, hrun ▸ hlines, rfl⟩
  · rintro ⟨hlegible, lines, hlines, rfl⟩
    exact ⟨_, ⟨rfl, hlegible⟩, lines, hrun.trans hlines, rfl⟩

theorem Decompiler.decompile_eq_ok_iff {decompiler : Decompiler} :
    decompiler.decompile code collect = .ok d ↔
      (∀ piece ∈ pieces code, Legible piece) ∧ ∃ lines,
        (decompiler.script.parse (lexemes code)).1 = .ok lines ∧ d = .ofLines collect lines := by
  rw [decompile_eq, readCode_eq_ok_iff decompiler.positionless_script]

end InfinityScript
