import InfinityScript.Proofs.Script.Reading

/-!
# Rules

A script is a list of rules: triggers and weighted responses made of actions. When
every record of a script reads back to a line and every weight is a number, the code
of the script reads back to the lines of its rules (`decompile_scriptCode`).
-/

namespace InfinityScript

open Reader

/-- Triggers, and responses that are chosen from by their weights. -/
structure Rule (τ ω α : Type) where
  triggers : List τ
  responses : List (ω × List α)
  deriving DecidableEq, Repr

namespace Rule

def map (f : τ → τ') (g : ω → ω') (h : α → α') (rule : Rule τ ω α) : Rule τ' ω' α' where
  triggers := rule.triggers.map f
  responses := rule.responses.map fun (weight, actions) => (g weight, actions.map h)

theorem map_map (f : τ → τ') (g : ω → ω') (h : α → α') (f' : τ' → τ'') (g' : ω' → ω'')
    (h' : α' → α'') (rule : Rule τ ω α) :
    (rule.map f g h).map f' g' h' = rule.map (f' ∘ f) (g' ∘ g) (h' ∘ h) := by
  simp [map]

@[simp] theorem map_id (rule : Rule τ ω α) : rule.map id id id = rule := by
  simp [map]

def responseCode (response : Text × List Text) : Text :=
  "RE\n" ++ response.1 ++ response.2.flatten ++ "RE\n"

/-- The code of responses. A response marker stands by itself where there are none. -/
def responsesCode : List (Text × List Text) → Text
  | [] => "RE\n"
  | responses => responses.flatMap responseCode

def code (rule : Rule Text Text Text) : Text :=
  "CR\n" ++ ("CO\n" ++ rule.triggers.flatten ++ "CO\n") ++
    ("RS\n" ++ responsesCode rule.responses ++ "RS\n") ++ "CR\n"

end Rule

def scriptCode (rules : List (Rule Text Text Text)) : Text :=
  "SC\n" ++ rules.flatMap Rule.code ++ "SC\n"

/-- A record that reads back to a line. -/
structure Chunk (m : Marker) (reader : Reader SourceLine) where
  text : Text
  fields : List (Lexeme × Text)
  line : SourceLine
  starts : ∃ body, text = m.code ++ body
  splits : Splits text ((.marker m, m.code) :: fields)
  legible : ∀ piece ∈ fields, Legible piece
  parse : ∀ ls, reader.parse (fields.map Prod.fst ++ ls) = (.ok line, ls)

structure Weight where
  text : Text
  numeral : Text.IsNumeral text
  few : Text.FewDigits text

def Weight.value (weight : Weight) : Int := (Text.readSigned? weight.text).getD 0

/-- A rule whose statements read back. -/
abbrev ReadableRule (decompiler : Decompiler) :=
  Rule (Chunk .trigger (Trigger.decode decompiler.symbols decompiler.profile)) Weight
    (Chunk .action (Action.decode decompiler.symbols decompiler.profile))

def Marker.piece (m : Marker) : Lexeme × Text := (.marker m, m.code)

def Chunk.pieces (chunk : Chunk m reader) : List (Lexeme × Text) := m.piece :: chunk.fields

namespace ReadableRule

variable {decompiler : Decompiler}

def responsePieces (response : Weight × List (Chunk .action reader)) : List (Lexeme × Text) :=
  Marker.response.piece :: (.number response.1.value, response.1.text) ::
    (response.2.flatMap Chunk.pieces ++ [Marker.response.piece])

def responsesPieces : List (Weight × List (Chunk .action reader)) → List (Lexeme × Text)
  | [] => [Marker.response.piece]
  | responses => responses.flatMap responsePieces

def pieces (rule : ReadableRule decompiler) : List (Lexeme × Text) :=
  [Marker.block.piece] ++
    ([Marker.condition.piece] ++ rule.triggers.flatMap Chunk.pieces ++ [Marker.condition.piece]) ++
    ([Marker.responseSet.piece] ++ responsesPieces rule.responses ++
      [Marker.responseSet.piece]) ++ [Marker.block.piece]

def code (rule : ReadableRule decompiler) : Text :=
  (rule.map Chunk.text Weight.text Chunk.text).code

-- --------------------
-- The pieces of the code
-- --------------------

theorem splits_chunks (chunks : List (Chunk m reader)) :
    Splits (chunks.map Chunk.text).flatten (chunks.flatMap Chunk.pieces) := by
  rw [← List.flatMap_def]
  exact .flatMap fun chunk _ => chunk.splits

theorem splits_response (response : Weight × List (Chunk .action reader)) :
    Splits (Rule.responseCode (response.1.text, response.2.map Chunk.text))
      (responsePieces response) := by
  obtain ⟨weight, actions⟩ := response
  have htail := (splits_chunks actions).append (splits_marker .response)
  have hends : EndsNumber ((actions.map Chunk.text).flatten ++ (Marker.response.code ++ ['\n'])) := by
    cases actions with
    | nil => exact endsNumber_code .response _
    | cons chunk actions =>
      obtain ⟨body, hbody⟩ := chunk.starts
      rw [List.map_cons, List.flatten_cons, hbody, List.append_assoc, List.append_assoc]
      exact endsNumber_code .action _
  have hweight := Splits.numeral weight.numeral htail (by simp) hends
  have hresponse := (splits_marker .response).append hweight
  simpa [Rule.responseCode, responsePieces, Marker.piece, Marker.code, Weight.value] using hresponse

theorem splits_responses (responses : List (Weight × List (Chunk .action reader))) :
    Splits (Rule.responsesCode (responses.map fun (weight, actions) =>
      (weight.text, actions.map Chunk.text))) (responsesPieces responses) := by
  cases responses with
  | nil => exact splits_marker .response
  | cons response responses =>
    have h : Splits _ ((response :: responses).flatMap responsePieces) :=
      .flatMap fun response _ => splits_response response
    simpa [Rule.responsesCode, responsesPieces, List.flatMap_map] using h

theorem splits_code (rule : ReadableRule decompiler) : Splits rule.code rule.pieces := by
  have hcondition :=
    ((splits_marker .condition).append (splits_chunks rule.triggers)).append
      (splits_marker .condition)
  have hresponses :=
    ((splits_marker .responseSet).append (splits_responses rule.responses)).append
      (splits_marker .responseSet)
  exact (((splits_marker .block).append hcondition).append hresponses).append (splits_marker .block)

end ReadableRule

def scriptPieces (rules : List (ReadableRule decompiler)) : List (Lexeme × Text) :=
  [Marker.script.piece] ++ rules.flatMap ReadableRule.pieces ++ [Marker.script.piece]

theorem pieces_scriptCode (rules : List (ReadableRule decompiler)) :
    pieces (scriptCode (rules.map (Rule.map Chunk.text Weight.text Chunk.text))) =
      scriptPieces rules := by
  have hrules : Splits _ (rules.flatMap ReadableRule.pieces) :=
    .flatMap fun rule _ => rule.splits_code
  have hscript := ((splits_marker .script).append hrules).append (splits_marker .script)
  rw [scriptCode, List.flatMap_map]
  exact hscript.pieces_eq

theorem legible_piece (m : Marker) : Legible m.piece := by
  intro h
  cases h

theorem legible_chunks {chunks : List (Chunk m reader)} {piece : Lexeme × Text}
    (h : piece ∈ chunks.flatMap Chunk.pieces) : Legible piece := by
  obtain ⟨chunk, -, hpiece⟩ := List.mem_flatMap.mp h
  rcases List.mem_cons.mp hpiece with rfl | hpiece
  · exact legible_piece m
  · exact chunk.legible piece hpiece

theorem ReadableRule.legible_response {response : Weight × List (Chunk .action reader)}
    {piece : Lexeme × Text} (h : piece ∈ responsePieces response) : Legible piece := by
  simp only [responsePieces, List.mem_cons, List.mem_append, List.not_mem_nil, or_false] at h
  rcases h with rfl | rfl | hpiece | rfl
  · exact legible_piece _
  · exact fun _ => response.1.few
  · exact legible_chunks hpiece
  · exact legible_piece _

theorem ReadableRule.legible_responses {responses : List (Weight × List (Chunk .action reader))}
    {piece : Lexeme × Text} (h : piece ∈ responsesPieces responses) : Legible piece := by
  cases responses with
  | nil =>
    obtain rfl : piece = Marker.response.piece := by simpa [responsesPieces] using h
    exact legible_piece _
  | cons response responses =>
    obtain ⟨response, -, hpiece⟩ := List.mem_flatMap.mp h
    exact legible_response hpiece

theorem ReadableRule.legible {rule : ReadableRule decompiler} {piece : Lexeme × Text}
    (h : piece ∈ rule.pieces) : Legible piece := by
  simp only [ReadableRule.pieces, List.mem_append, List.mem_singleton] at h
  rcases h with ((rfl | (rfl | hpiece) | rfl) | (rfl | hpiece) | rfl) | rfl
  case inl.inl.inr.inl.inr => exact legible_chunks hpiece
  case inl.inr.inl.inr => exact legible_responses hpiece
  all_goals exact legible_piece _

theorem legible_scriptPieces {rules : List (ReadableRule decompiler)} {piece : Lexeme × Text}
    (h : piece ∈ scriptPieces rules) : Legible piece := by
  simp only [scriptPieces, List.mem_append, List.mem_singleton] at h
  rcases h with (rfl | hpiece) | rfl
  · exact legible_piece _
  · obtain ⟨rule, -, hpiece⟩ := List.mem_flatMap.mp hpiece
    exact ReadableRule.legible hpiece
  · exact legible_piece _

-- --------------------
-- Reading the pieces
-- --------------------

namespace Decompiler

variable {decompiler : Decompiler}

def conditionLines (decompiler : Decompiler) (triggers : List SourceLine) :
    Except NumeralFault (List SourceLine) :=
  Condition.lines <$> triggers.foldlM (fun condition trigger =>
    condition.add decompiler.indent trigger) { lines := [{ text := "IF" }] }

def responseLines (decompiler : Decompiler) (weight : Int) (actions : List SourceLine) :
    List SourceLine :=
  { text := decompiler.indent ++ "RESPONSE #" ++ Text.ofInt weight } ::
    actions.map fun action => action.indented (decompiler.indent ++ decompiler.indent)

theorem parse_sweep_condition
    (triggers : List (Chunk .trigger (Trigger.decode decompiler.symbols decompiler.profile)))
    {condition condition' : Condition}
    (h : (triggers.map Chunk.line).foldlM (fun condition trigger =>
      condition.add decompiler.indent trigger) condition = .ok condition') :
    (sweep (some .condition) decompiler.conditionStep condition).parse
        ((triggers.flatMap Chunk.pieces).map Prod.fst ++ .marker .condition :: rest) =
      (.ok (condition', true), rest) := by
  induction triggers generalizing condition with
  | nil =>
    obtain rfl := Outcome.pure_ok.mp h
    exact parse_sweep_closing _ _ _
  | cons chunk triggers ih =>
    rw [List.map_cons, List.foldlM_cons] at h
    obtain ⟨next, hadd, hrest⟩ := Outcome.bind_ok.mp h
    have hstep : ∀ ls, (decompiler.conditionStep condition (.bare (.marker .trigger))).parse
        (chunk.fields.map Prod.fst ++ ls) = (.ok next, ls) := by
      intro ls
      simp only [conditionStep, Token.lexeme_bare, if_true]
      rw [parse_bind_ok (chunk.parse ls), hadd, parse_pure]
    simp only [List.flatMap_cons, Chunk.pieces, Marker.piece, List.cons_append, List.map_cons,
      List.map_append, List.append_assoc]
    rw [parse_sweep_ok (by simp) (hstep _)]
    exact ih hrest

theorem parse_condition
    (triggers : List (Chunk .trigger (Trigger.decode decompiler.symbols decompiler.profile)))
    (h : decompiler.conditionLines (triggers.map Chunk.line) = .ok lines) :
    decompiler.condition.parse
        ((triggers.flatMap Chunk.pieces).map Prod.fst ++ .marker .condition :: rest) =
      (.ok lines, rest) := by
  obtain ⟨condition, hfold, rfl⟩ := Outcome.map_ok.mp h
  rw [Decompiler.condition, parse_bind_ok (parse_sweep_condition triggers hfold)]
  exact parse_pure _

theorem parse_actions
    (actions : List (Chunk .action (Action.decode decompiler.symbols decompiler.profile)))
    (hrest : rest.head? ≠ some (.marker .action)) :
    (many .action (Action.decode decompiler.symbols decompiler.profile)).parse
        ((actions.flatMap Chunk.pieces).map Prod.fst ++ rest) =
      (.ok (actions.map Chunk.line), rest) := by
  induction actions with
  | nil => exact parse_many_nil _ _ hrest
  | cons chunk actions ih =>
    simp only [List.flatMap_cons, Chunk.pieces, Marker.piece, List.cons_append, List.map_cons,
      List.map_append, List.append_assoc]
    exact parse_many_ok (chunk.parse _) ih

theorem parse_response
    (actions : List (Chunk .action (Action.decode decompiler.symbols decompiler.profile))) :
    decompiler.response.parse (.number weight ::
        ((actions.flatMap Chunk.pieces).map Prod.fst ++ .marker .response :: rest)) =
      (.ok (decompiler.responseLines weight (actions.map Chunk.line)), rest) := by
  rw [response, parse_bind_ok parse_number_cons, parse_bind_ok (parse_actions actions (by simp)),
    parse_bind_ok parse_marker_cons]
  exact parse_pure _

theorem parse_sweep_responses (responses : List (Weight ×
      List (Chunk .action (Action.decode decompiler.symbols decompiler.profile))))
    (lines : List SourceLine) :
    (sweep (some .responseSet) decompiler.responseSetStep lines).parse
        ((responses.flatMap ReadableRule.responsePieces).map Prod.fst ++
          .marker .responseSet :: rest) =
      (.ok (lines ++ responses.flatMap (fun (weight, actions) =>
        decompiler.responseLines weight.value (actions.map Chunk.line)), true), rest) := by
  induction responses generalizing lines with
  | nil =>
    rw [List.flatMap_nil, List.flatMap_nil, List.append_nil]
    exact parse_sweep_closing _ _ _
  | cons response responses ih =>
    obtain ⟨weight, actions⟩ := response
    have hstep : ∀ ls, (decompiler.responseSetStep lines (.bare (.marker .response))).parse
        (.number weight.value ::
          ((actions.flatMap Chunk.pieces).map Prod.fst ++ .marker .response :: ls)) =
        (.ok (lines ++ decompiler.responseLines weight.value (actions.map Chunk.line)), ls) := by
      intro ls
      rw [responseSetStep, parse_look, Token.lexeme_bare, responseAt, if_pos (by simp),
        parse_bind_ok (parse_response actions), parse_pure]
    simp only [List.flatMap_cons, ReadableRule.responsePieces, Marker.piece, List.cons_append,
      List.nil_append, List.map_cons, List.map_append, List.append_assoc]
    rw [parse_sweep_ok (by simp) (hstep _), ih, List.append_assoc]

theorem parse_responseSet (responses : List (Weight ×
      List (Chunk .action (Action.decode decompiler.symbols decompiler.profile)))) :
    decompiler.responseSet.parse
        ((ReadableRule.responsesPieces responses).map Prod.fst ++ .marker .responseSet :: rest) =
      (.ok ({ text := "THEN" } :: responses.flatMap fun (weight, actions) =>
        decompiler.responseLines weight.value (actions.map Chunk.line)), rest) := by
  cases responses with
  | nil =>
    have hstep : (decompiler.responseSetStep [{ text := "THEN" }] (.bare (.marker .response))).parse
        (.marker .responseSet :: rest) = (.ok [{ text := "THEN" }], .marker .responseSet :: rest) := by
      rw [responseSetStep, parse_look, responseAt, if_neg (by simp), parse_pure]
    have hsweep : (sweep (some .responseSet) decompiler.responseSetStep [{ text := "THEN" }]).parse
        (.marker .response :: .marker .responseSet :: rest) =
        (.ok ([{ text := "THEN" }], true), rest) := by
      rw [parse_sweep_ok (by simp) hstep, parse_sweep_closing]
    exact (parse_bind_ok hsweep).trans (parse_pure _)
  | cons response responses =>
    exact (parse_bind_ok (parse_sweep_responses (response :: responses) _)).trans (parse_pure _)

def ruleLines (decompiler : Decompiler) (rule : Rule SourceLine Int SourceLine) :
    Except NumeralFault (List SourceLine) := do
  let condition ← decompiler.conditionLines rule.triggers
  return condition ++ ({ text := "THEN" } :: rule.responses.flatMap fun (weight, actions) =>
    decompiler.responseLines weight actions) ++ [{ text := "END" }, { text := [] }]

theorem parse_blockOrDamage (rule : ReadableRule decompiler)
    (h : decompiler.ruleLines (rule.map Chunk.line Weight.value Chunk.line) = .ok lines) :
    decompiler.blockOrDamage.parse (rule.pieces.map Prod.fst ++ rest).tail = (.ok lines, rest) := by
  obtain ⟨condition, hcondition, hlines⟩ := Outcome.bind_ok.mp h
  obtain rfl := Outcome.pure_ok.mp hlines
  have hfirst : ∀ ls, (decompiler.blockStep [] (.bare (.marker .condition))).parse
      ((rule.triggers.flatMap Chunk.pieces).map Prod.fst ++ .marker .condition :: ls) =
      (.ok condition, ls) := by
    intro ls
    simp only [blockStep, Token.lexeme_bare]
    rw [parse_bind_ok (parse_condition rule.triggers hcondition), List.nil_append, parse_pure]
  have hsecond : ∀ ls, (decompiler.blockStep condition (.bare (.marker .responseSet))).parse
      ((ReadableRule.responsesPieces rule.responses).map Prod.fst ++ .marker .responseSet :: ls) =
      (.ok (condition ++ ({ text := "THEN" } :: rule.responses.flatMap fun (weight, actions) =>
        decompiler.responseLines weight.value (actions.map Chunk.line))), ls) := by
    intro ls
    simp only [blockStep, Token.lexeme_bare]
    rw [parse_bind_ok (parse_responseSet rule.responses), parse_pure]
  have hsweep : (sweep (some .block) decompiler.blockStep []).parse
      (rule.pieces.map Prod.fst ++ rest).tail = (.ok (condition ++ ({ text := "THEN" } ::
        rule.responses.flatMap fun (weight, actions) =>
          decompiler.responseLines weight.value (actions.map Chunk.line)), true), rest) := by
    simp only [ReadableRule.pieces, Marker.piece, List.cons_append, List.nil_append, List.map_cons,
      List.map_append, List.append_assoc, List.map_nil, List.tail_cons]
    rw [parse_sweep_ok (by simp) (hfirst _), parse_sweep_ok (by simp) (hsecond _),
      parse_sweep_closing]
  have hblock : decompiler.block.parse (rule.pieces.map Prod.fst ++ rest).tail =
      (.ok (condition ++ ({ text := "THEN" } :: rule.responses.flatMap fun (weight, actions) =>
        decompiler.responseLines weight.value (actions.map Chunk.line)) ++
          [{ text := "END" }, { text := [] }]), rest) :=
    (parse_bind_ok hsweep).trans (parse_pure _)
  rw [blockOrDamage, parse_recover, hblock]
  simp [Rule.map, List.flatMap_map]

theorem parse_sweep_rules (rules : List (ReadableRule decompiler)) {blocks : List (List SourceLine)}
    (h : rules.mapM (fun rule =>
      decompiler.ruleLines (rule.map Chunk.line Weight.value Chunk.line)) = .ok blocks)
    (lines : List SourceLine) :
    (sweep none decompiler.scriptStep lines).parse
        ((rules.flatMap ReadableRule.pieces).map Prod.fst ++ rest) =
      (sweep none decompiler.scriptStep (lines ++ blocks.flatten)).parse rest := by
  induction rules generalizing lines blocks with
  | nil =>
    rw [List.mapM_nil] at h
    obtain rfl := Outcome.pure_ok.mp h
    rw [List.flatten_nil, List.append_nil]
    rfl
  | cons rule rules ih =>
    rw [List.mapM_cons] at h
    obtain ⟨first, hfirst, h⟩ := Outcome.bind_ok.mp h
    obtain ⟨others, hothers, h⟩ := Outcome.bind_ok.mp h
    obtain rfl := Outcome.pure_ok.mp h
    have hstep : ∀ ls, (decompiler.scriptStep lines (.bare (.marker .block))).parse
        (rule.pieces.map Prod.fst ++ ls).tail = (.ok (lines ++ first), ls) := by
      intro ls
      simp only [scriptStep, Token.lexeme_bare, if_true]
      rw [parse_bind_ok (parse_blockOrDamage rule hfirst), parse_pure]
    have hcons : ∀ ls, rule.pieces.map Prod.fst ++ ls =
        .marker .block :: (rule.pieces.map Prod.fst ++ ls).tail := fun _ => rfl
    rw [List.flatMap_cons, List.map_append, List.append_assoc, hcons,
      parse_sweep_ok (by simp) (hstep _), ih hothers, List.flatten_cons, List.append_assoc]

/-- The code of a script whose statements read back has the lines of its rules. -/
theorem decompile_scriptCode (rules : List (ReadableRule decompiler))
    {blocks : List (List SourceLine)} (h : rules.mapM (fun rule =>
      decompiler.ruleLines (rule.map Chunk.line Weight.value Chunk.line)) = .ok blocks) :
    decompiler.decompile
        (scriptCode (rules.map (Rule.map Chunk.text Weight.text Chunk.text))) collect =
      .ok (.ofLines collect blocks.flatten) := by
  rw [decompile_eq_ok_iff, lexemes, pieces_scriptCode]
  refine ⟨fun piece => legible_scriptPieces, blocks.flatten, ?_, rfl⟩
  have hsweep : (sweep none decompiler.scriptStep []).parse ((scriptPieces rules).map Prod.fst) =
      (.ok (blocks.flatten, false), []) := by
    simp only [scriptPieces, Marker.piece, List.cons_append, List.nil_append, List.map_cons,
      List.map_append, List.map_nil]
    rw [parse_sweep_ok (by simp) (scriptStep_script _), parse_sweep_rules rules h,
      parse_sweep_ok (by simp) (scriptStep_script _), parse_sweep_nil, List.nil_append]
  have hscript : decompiler.script.parse ((scriptPieces rules).map Prod.fst) =
      (.ok blocks.flatten, []) := (parse_bind_ok hsweep).trans (parse_pure _)
  rw [hscript]

end Decompiler

end InfinityScript
