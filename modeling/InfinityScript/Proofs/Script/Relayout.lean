import InfinityScript.Proofs.Script.SaidLines

/-!
# Sources laid out in another way

Sources that say the same are compiled alike: to the same code, and both with errors or
both without (`compile_relaid`). Comments, indents, blank lines, carriage returns and the
line feed at the end are layout.
-/

namespace InfinityScript

def Remark.isError : Remark → Bool
  | .error _ => true
  | .warning _ => false

/-- The code, and whether the source has no errors. -/
def Compiled.gist (compiled : Compiled) : Text × Bool :=
  (compiled.code, compiled.errors.isEmpty)

theorem Diagnostics.isEmpty_ofList (messages : List (Int × Text)) :
    (ofList messages).isEmpty = messages.isEmpty := by
  cases messages with
  | nil => rfl
  | cons message messages =>
    refine Bool.eq_false_iff.mpr fun h => ?_
    cases eq_nil_of_isEmpty_ofList h

theorem Finding.isEmpty_errors (findings : List Finding) :
    (errors findings).isEmpty = !(findings.map Finding.remark).any Remark.isError := by
  rw [errors, messages, Diagnostics.isEmpty_ofList]
  induction findings with
  | nil => rfl
  | cons finding findings ih =>
    obtain ⟨line, remark⟩ := finding
    cases remark with
    | error fault => rfl
    | warning warning => exact ih

theorem Compiled.gist_ofFindings (findings : Findings Text) :
    (ofFindings findings).gist =
      (findings.remarked.1, !findings.remarked.2.any Remark.isError) := by
  simp only [gist, ofFindings, Finding.isEmpty_errors, Noted.remarked]

theorem gist_compile (symbols : Symbols) (profile : Profile) (source : Source) :
    Compiled.gist <$> compile symbols profile source =
      (fun result => (result.1, !result.2.any Remark.isError)) <$>
        compileStatements symbols profile source.statements := by
  rw [compileStatements_statements, compile]
  simp only [map_bind, map_pure, Compiled.gist_ofFindings]

def compileDialogStatements (symbols : Symbols) (profile : Profile) (isAction : Bool)
    (statements : List Text) : Except Halt (Text × List Remark) := do
  profile.checkWidths.mapError .repetition
  let encoded ← statements.mapM (Encoded.ofRole isAction symbols profile)
  return (encoded.flatMap Encoded.text, encoded.flatMap Encoded.remarks)

theorem mapM_numbered (encode : Text → Except Halt Encoded) (lines : List Line) :
    (List.map Prod.snd <$> lines.mapM fun line => return (line.number, ← encode line.text)) =
      (lines.map Line.text).mapM encode := by
  induction lines with
  | nil => rfl
  | cons line lines ih =>
    rw [List.map_cons, List.mapM_cons, List.mapM_cons, ← ih]
    cases encode line.text with
    | error reason => rfl
    | ok encoded =>
      cases lines.mapM fun line => return (line.number, ← encode line.text) <;> rfl

theorem Encoded.remarked_onLines (statements : List (Nat × Encoded)) :
    (List.flatten <$> statements.mapM fun statement =>
        Encoded.onLine statement.1 statement.2 : Findings Text).remarked =
      ((statements.map Prod.snd).flatMap Encoded.text,
        (statements.map Prod.snd).flatMap Encoded.remarks) := by
  rw [Noted.mapM_eq]
  simp [Noted.remarked, Encoded.onLine, Function.comp_def, List.flatMap_def]

theorem gist_compileDialog (symbols : Symbols) (profile : Profile) (source : Source)
    (isAction : Bool) :
    Compiled.gist <$> compileDialog symbols profile source isAction =
      (fun result => (result.1, !result.2.any Remark.isError)) <$>
        compileDialogStatements symbols profile isAction source.statements := by
  have hrole : (if isAction then Encoded.action else Encoded.trigger) symbols profile =
      Encoded.ofRole isAction symbols profile := by
    cases isAction <;> rfl
  rw [compileDialogStatements, compileDialog, Source.statements, ← mapM_numbered]
  simp only [map_bind, map_pure, Compiled.gist_ofFindings, Encoded.remarked_onLines, bind_map_left,
    hrole]

/-- Two sources say the same line by line: without comments, without blanks at the ends
and without the lines that are left empty. -/
def Source.SaysSame (a b : Source) : Prop :=
  (a.physicalLines.map Text.statement).filter (· ≠ []) =
    (b.physicalLines.map Text.statement).filter (· ≠ [])

instance (a b : Source) : Decidable (a.SaysSame b) := inferInstanceAs (Decidable (_ = _))

namespace Text

def withReturns (text : Text) : Text :=
  text.flatMap fun c => if c = '\n' then ['\r', '\n'] else [c]

theorem filter_physicalLines (text : Text) :
    ((physicalLines text).map statement).filter (· ≠ []) =
      ((splitOn '\n' text).map statement).filter (· ≠ []) := by
  rw [physicalLines]
  split
  · next h =>
    obtain ⟨pieces, hpieces⟩ := List.getLast?_eq_some_iff.mp h
    simp [hpieces, statement, beforeComment, trim, trimLeft, trimRight]
  · rfl

theorem map_statement_withReturns {piece : Text} (h : '\n' ∉ piece) (text : Text) :
    (splitOn '\n' (piece ++ withReturns text)).map statement =
      (splitOn '\n' (piece ++ text)).map statement := by
  -- `piece` is what has been read of the line that the text goes on
  induction text generalizing piece with
  | nil => rfl
  | cons c text ih =>
    by_cases hc : c = '\n'
    · have hreturns : piece ++ withReturns (c :: text) =
          (piece ++ ['\r']) ++ '\n' :: withReturns text := by
        simp [withReturns, hc]
      have hpiece : '\n' ∉ piece ++ ['\r'] := by simp [h]
      have hrest := @ih [] List.not_mem_nil
      rw [List.nil_append, List.nil_append] at hrest
      rw [hreturns, hc, splitOn_append_mark, splitOn_append_mark, List.map_append,
        List.map_append, hrest, splitOn_eq_singleton hpiece, splitOn_eq_singleton h,
        List.map_singleton, List.map_singleton, statement_concat (by decide)]
    · have hreturns : piece ++ withReturns (c :: text) = (piece ++ [c]) ++ withReturns text := by
        simp [withReturns, hc]
      have hpiece : '\n' ∉ piece ++ [c] := by simp [h, Ne.symm hc]
      rw [hreturns, ih hpiece, List.append_assoc, List.singleton_append]

theorem beforeComment_append_comment (line comment : Text) :
    beforeComment (line ++ ' ' :: '/' :: '/' :: comment) = beforeComment (line ++ [' ']) := by
  fun_induction beforeComment line with
  | case1 => simp [beforeComment]
  | case2 rest => simp [beforeComment]
  | case3 c rest hrest ih =>
    have hcons : ∀ more, beforeComment (c :: (rest ++ ' ' :: more)) =
        c :: beforeComment (rest ++ ' ' :: more) := by
      intro more
      rw [beforeComment]
      rintro other rfl hother
      cases rest with
      | nil => exact absurd (List.cons.inj hother).1 (by decide)
      | cons d rest =>
        obtain rfl := (List.cons.inj hother).1
        exact hrest rest rfl rfl
    rw [List.cons_append, List.cons_append, hcons, hcons, ih]

theorem statement_indent_comment (h : ∀ c ∈ indent, isBlank c) (line comment : Text) :
    statement (indent ++ line ++ ' ' :: '/' :: '/' :: comment) = statement line := by
  rw [statement, beforeComment_append_comment]
  exact statement_append h (by decide) line

end Text

namespace Source

theorem SaysSame.statements_eq {a b : Source} (h : a.SaysSame b) : a.statements = b.statements := by
  rw [statements, statements, listing, listing, Line.map_text_statements,
    Line.map_text_statements]
  exact h

theorem saysSame_withReturns (text : Text) :
    (Source.text text).SaysSame (.text text.withReturns) := by
  have hreturns := @Text.map_statement_withReturns [] List.not_mem_nil text
  rw [List.nil_append, List.nil_append] at hreturns
  rw [SaysSame, physicalLines, physicalLines, Text.filter_physicalLines,
    Text.filter_physicalLines, hreturns]

theorem saysSame_newline (text : Text) : (Source.text text).SaysSame (.text (text ++ ['\n'])) := by
  rw [SaysSame, physicalLines, physicalLines, Text.filter_physicalLines,
    Text.filter_physicalLines, Text.splitOn_append_mark, List.map_append, List.filter_append]
  exact (List.append_nil _).symm

theorem saysSame_insert (h : Text.statement line = []) (before after : List Text) :
    (Source.lines (before ++ after)).SaysSame (.lines (before ++ line :: after)) := by
  simp [SaysSame, physicalLines, h]

theorem saysSame_indent_comment (h : ∀ c ∈ indent, Text.isBlank c) (before after : List Text)
    (line comment : Text) :
    (Source.lines (before ++ line :: after)).SaysSame
      (.lines (before ++ (indent ++ line ++ ' ' :: '/' :: '/' :: comment) :: after)) := by
  simp only [SaysSame, physicalLines, List.map_append, List.map_cons,
    Text.statement_indent_comment h]

end Source

/-- Two sources are compiled alike, as scripts and as dialogs: with the same code, and with
errors both or neither. -/
structure CompiledAlike (symbols : Symbols) (profile : Profile) (a b : Source) : Prop where
  script : Compiled.gist <$> compile symbols profile a = Compiled.gist <$> compile symbols profile b
  dialog : ∀ isAction, Compiled.gist <$> compileDialog symbols profile a isAction =
    Compiled.gist <$> compileDialog symbols profile b isAction

theorem Source.SaysSame.compiledAlike {a b : Source} (h : a.SaysSame b) (symbols : Symbols)
    (profile : Profile) : CompiledAlike symbols profile a b where
  script := by rw [gist_compile, gist_compile, h.statements_eq]
  dialog isAction := by rw [gist_compileDialog, gist_compileDialog, h.statements_eq]

/-- Sources that say the same are compiled alike. So layout does not matter: carriage
returns, a line feed at the end, lines that say nothing, indents and comments. -/
theorem compile_relaid (symbols : Symbols) (profile : Profile) :
    (∀ a b : Source, a.SaysSame b → CompiledAlike symbols profile a b) ∧
    (∀ text : Text,
      CompiledAlike symbols profile (.text text) (.text text.withReturns) ∧
      CompiledAlike symbols profile (.text text) (.text (text ++ ['\n'])) ∧
      CompiledAlike symbols profile (.text text) (.lines text.physicalLines)) ∧
    ∀ (before after : List Text) (line : Text),
      (Text.statement line = [] → CompiledAlike symbols profile
        (.lines (before ++ after)) (.lines (before ++ line :: after))) ∧
      ∀ indent comment : Text, (∀ c ∈ indent, Text.isBlank c) → CompiledAlike symbols profile
        (.lines (before ++ line :: after))
        (.lines (before ++ (indent ++ line ++ ' ' :: '/' :: '/' :: comment) :: after)) := by
  refine ⟨fun a b h => h.compiledAlike symbols profile, fun text => ⟨?_, ?_, ?_⟩, ?_⟩
  · exact (Source.saysSame_withReturns text).compiledAlike symbols profile
  · exact (Source.saysSame_newline text).compiledAlike symbols profile
  · exact Source.SaysSame.compiledAlike (a := .text text) (b := .lines text.physicalLines) rfl
      symbols profile
  · intro before after line
    refine ⟨fun h => ?_, fun indent comment h => ?_⟩
    · exact (Source.saysSame_insert h before after).compiledAlike symbols profile
    · exact (Source.saysSame_indent_comment h before after line comment).compiledAlike symbols
        profile

theorem compile_relaid_sample :
    let plain : Source := .text "IF\nTrue()\nTHEN\nRESPONSE #5\nSay(\"a\")\nEND"
    let spaced : Source := .lines ["// greet", "IF", "", "\tTrue()//always\r", "THEN",
      " RESPONSE #5 ", "  Say(\"a\") // once", "END", ""]
    plain.SaysSame spaced ∧ CompiledAlike sampleSymbols (.ofGame .none) plain spaced ∧
      (Text.statement " // never" = [] ∧ CompiledAlike sampleSymbols (.ofGame .none)
        (.lines ["IF", "THEN", "END"]) (.lines ["IF", " // never", "THEN", "END"])) ∧
      (∀ c ∈ "\t ".toList, Text.isBlank c) ∧ CompiledAlike sampleSymbols (.ofGame .none)
        (.lines ["IF", "True()", "THEN", "END"])
        (.lines ["IF", "\t True() //always", "THEN", "END"]) := by
  intro plain spaced
  obtain ⟨hsame, -, hline⟩ := compile_relaid sampleSymbols (.ofGame .none)
  have hboth : plain.SaysSame spaced := by decide +kernel
  have hnothing : Text.statement " // never" = [] := by decide
  have hindent : ∀ c ∈ "\t ".toList, Text.isBlank c := by decide
  exact ⟨hboth, hsame plain spaced hboth,
    ⟨hnothing, (hline ["IF"] ["THEN", "END"] " // never").1 hnothing⟩,
    hindent, (hline ["IF"] ["THEN", "END"] "True()").2 "\t " "always" hindent⟩

end InfinityScript
