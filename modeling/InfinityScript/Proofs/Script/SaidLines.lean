import InfinityScript.Proofs.Script.Faultless

/-!
# What lines say

Blank lines, indents and blanks at the ends of lines say nothing. The statements of a
source are those of the lines that say something (`Source.statements_eq`), and from the
code of rules come lines that say what the rules do (`decompile_readableRules`).
-/

namespace InfinityScript

-- --------------------
-- Lines that say something
-- --------------------

def Source.saidLines (source : Source) : List Text :=
  (source.physicalLines.map Text.trim).filter (· ≠ [])

theorem Line.map_text_statements (first : Nat) (lines : List Text) :
    (Line.statements first lines).map Line.text = (lines.map Text.statement).filter (· ≠ []) := by
  induction lines generalizing first with
  | nil => rfl
  | cons line lines ih =>
    by_cases h : Text.statement line = []
    · simp [Line.statements, h, ih]
    · simp [Line.statements, h, ih]

theorem Source.exists_physicalLine {source : Source} (h : said ∈ source.listing.lines) :
    said.text ≠ [] ∧ ∃ line ∈ source.physicalLines, Text.statement line = said.text := by
  have htext : said.text ∈ (Line.statements 1 source.physicalLines).map Line.text :=
    List.mem_map_of_mem h
  rw [Line.map_text_statements] at htext
  obtain ⟨hmem, hne⟩ := List.mem_filter.mp htext
  exact ⟨by simpa using hne, List.mem_map.mp hmem⟩

theorem Source.statements_eq (source : Source) :
    source.statements = (source.saidLines.map Text.statement).filter (· ≠ []) := by
  rw [Source.statements, Source.listing, Line.map_text_statements, Source.saidLines]
  induction source.physicalLines with
  | nil => rfl
  | cons line lines ih =>
    by_cases h : Text.trim line = []
    · have hstatement : Text.statement line = [] := by rw [← Text.statement_trim, h]; rfl
      simpa [h, hstatement] using ih
    · by_cases hstatement : Text.statement line = []
      · simpa [h, hstatement] using ih
      · simpa [h, hstatement] using ih

namespace Rule

def lines (rule : Rule Text Int Text) : List Text := (rule.map id Text.ofInt id).statements

theorem trim_ofInt (n : Int) : Text.trim (Text.ofInt n) = Text.ofInt n := by
  have hnumeral := Text.isNumeral_ofInt n
  refine Text.trim_eq_self (fun c hc => ?_) (fun c hc => ?_)
  · exact hnumeral.isBlank_eq_false (List.mem_of_mem_head? hc)
  · exact hnumeral.isBlank_eq_false (List.mem_of_mem_getLast? hc)

theorem trim_response (n : Int) :
    Text.trim ("RESPONSE #" ++ Text.ofInt n) = "RESPONSE #" ++ Text.ofInt n := by
  have hnumeral := Text.isNumeral_ofInt n
  refine Text.trim_eq_self (fun c hc => ?_) (fun c hc => ?_)
  · obtain rfl : 'R' = c := by simpa using hc
    rfl
  · rw [List.getLast?_append, List.getLast?_eq_some_getLast hnumeral.ne_nil, Option.some_or] at hc
    obtain rfl := Option.some.inj hc
    exact hnumeral.isBlank_eq_false (List.getLast_mem _)

theorem statement_response (n : Int) :
    Text.statement ("RESPONSE #" ++ Text.ofInt n) = "RESPONSE #" ++ Text.ofInt n := by
  have hslash : '/' ∉ "RESPONSE #".toList ++ Text.ofInt n := by
    simp [(Text.isNumeral_ofInt n).slash_notMem]
  rw [Text.statement, Text.beforeComment_eq_self hslash, trim_response]

theorem map_lines {f : Text → Text} (hif : f "IF" = "IF") (hthen : f "THEN" = "THEN")
    (hend : f "END" = "END")
    (hresponse : ∀ n, f ("RESPONSE #" ++ Text.ofInt n) = "RESPONSE #" ++ Text.ofInt n)
    (rule : Rule Text Int Text) : rule.lines.map f = (rule.map f Text.ofInt f).statements := by
  simp only [lines, statements, map, List.map_cons, List.map_append, List.map_nil, List.map_id,
    List.map_flatMap, List.flatMap_map, hif, hthen, hend, hresponse]

theorem map_statement_lines (rule : Rule Text Int Text) :
    rule.lines.map Text.statement =
      (rule.map Text.statement Text.ofInt Text.statement).statements :=
  map_lines rfl rfl rfl statement_response rule

theorem map_trim_lines (rule : Rule Text Int Text) :
    rule.lines.map Text.trim = (rule.map Text.trim Text.ofInt Text.trim).statements :=
  map_lines rfl rfl rfl trim_response rule

end Rule

theorem Source.trim_saidLine {source : Source} (h : line ∈ source.saidLines) :
    Text.trim line = line ∧ line ≠ [] := by
  obtain ⟨hmem, hne⟩ := List.mem_filter.mp h
  obtain ⟨physical, -, rfl⟩ := List.mem_map.mp hmem
  exact ⟨Text.trim_trim _, of_decide_eq_true hne⟩

theorem Source.newline_notMem {source : Source} (h : line ∈ source.saidLines)
    (hlines : ∀ line ∈ source.physicalLines, '\n' ∉ line) : '\n' ∉ line := by
  obtain ⟨physical, hphysical, rfl⟩ := List.mem_map.mp (List.mem_filter.mp h).1
  obtain ⟨before, after, htrim, -, -⟩ := Text.exists_trim physical
  intro hmem
  refine hlines physical hphysical ?_
  rw [htrim]
  simp [hmem]

theorem Text.upper_take_ne (htrim : Text.trim line = line)
    (hstart : ¬ (word <+: Text.upper line)) (n : Nat) :
    Text.upper ((Text.statement line).take n) ≠ word := by
  rintro rfl
  obtain ⟨rest, hrest⟩ := (List.take_prefix n _).trans (Text.statement_isPrefix htrim)
  refine hstart ⟨Text.upper rest, ?_⟩
  conv => rhs; rw [← hrest]
  simp only [Text.upper, List.flatMap_append]

namespace Rule

theorem trigger_mem_lines {rule : Rule Text Int Text} (h : trigger ∈ rule.triggers) :
    trigger ∈ rule.lines := by
  simp [lines, statements, map, h]

theorem action_mem_lines {rule : Rule Text Int Text} (hresponse : response ∈ rule.responses)
    (h : action ∈ response.2) : action ∈ rule.lines := by
  simp only [lines, statements, map, List.mem_cons, List.mem_append, List.mem_flatMap, List.mem_map,
    List.map_id]
  exact .inr (.inr (.inr (.inl ⟨_, ⟨response, hresponse, rfl⟩, by simp [h]⟩)))

theorem forall_lines {P : Text → Prop} {rule : Rule Text Int Text} (hif : P "IF") (hthen : P "THEN")
    (hend : P "END") (hresponse : ∀ n, P ("RESPONSE #" ++ Text.ofInt n))
    (htrigger : ∀ trigger ∈ rule.triggers, P trigger)
    (haction : ∀ response ∈ rule.responses, ∀ action ∈ response.2, P action) :
    ∀ line ∈ rule.lines, P line := by
  simp only [lines, statements, map, List.map_id, List.mem_cons, List.mem_append, List.mem_flatMap,
    List.mem_map, List.not_mem_nil, or_false]
  rintro line (rfl | hmem | rfl | ⟨_, ⟨response, hmem', rfl⟩, rfl | hmem⟩ | rfl)
  · exact hif
  · exact htrigger line hmem
  · exact hthen
  · exact hresponse response.1
  · exact haction response hmem' line hmem
  · exact hend

structure Calls (rule : Rule Text Int Text) : Prop where
  trigger : ∀ trigger ∈ rule.triggers, '(' ∈ Text.statement trigger
  action : ∀ response ∈ rule.responses, ∀ action ∈ response.2, '(' ∈ Text.statement action ∧
    Text.upper ((Text.statement action).take 8) ≠ "RESPONSE"

theorem Calls.inPlace {rule : Rule Text Int Text} (h : rule.Calls) :
    (rule.map Text.statement Text.ofInt Text.statement).InPlace := by
  have hcall : ∀ {text word : Text}, '(' ∈ text → '(' ∉ word → Text.upper text ≠ word := by
    rintro text word hmem hword rfl
    exact hword (List.mem_flatMap.mpr ⟨'(', hmem, by decide⟩)
  refine ⟨?_, ?_, ?_⟩
  · intro _ hmem
    obtain ⟨trigger, htrigger, rfl⟩ := List.mem_map.mp hmem
    exact hcall (h.trigger trigger htrigger) (by decide)
  · intro _ hmem
    obtain ⟨response, -, rfl⟩ := List.mem_map.mp hmem
    exact trim_ofInt _
  · intro _ hmem _ hmem'
    obtain ⟨response, hresponse, rfl⟩ := List.mem_map.mp hmem
    obtain ⟨action, haction, rfl⟩ := List.mem_map.mp hmem'
    obtain ⟨hparenthesis, hstart⟩ := h.action response hresponse action haction
    exact ⟨hcall hparenthesis (by decide), hstart⟩

theorem Calls.ne_nil {rule : Rule Text Int Text} (h : rule.Calls) :
    ∀ line ∈ rule.lines, Text.statement line ≠ [] := by
  refine forall_lines (by decide) (by decide) (by decide) (fun n => ?_) (fun trigger hmem => ?_)
    fun response hresponse action hmem => ?_
  · rw [statement_response]
    simp
  · exact List.ne_nil_of_mem (h.trigger trigger hmem)
  · exact List.ne_nil_of_mem (h.action response hresponse action hmem).1

theorem statements_of_calls {source : Source} {rules : List (Rule Text Int Text)}
    (hsource : source.saidLines = rules.flatMap lines) (h : ∀ rule ∈ rules, rule.Calls) :
    source.statements =
      (rules.map (map Text.statement Text.ofInt Text.statement)).flatMap statements := by
  rw [Source.statements_eq, hsource, List.filter_eq_self.mpr, List.map_flatMap, List.flatMap_map]
  · simp only [map_statement_lines]
  · intro statement hmem
    obtain ⟨line, hline, rfl⟩ := List.mem_map.mp hmem
    obtain ⟨rule, hrule, hline⟩ := List.mem_flatMap.mp hline
    exact decide_eq_true ((h rule hrule).ne_nil line hline)

theorem filter_trim_lines {rules : List (Rule Text Int Text)}
    (h : ∀ rule ∈ rules, ∀ line ∈ rule.lines, Text.trim line ≠ []) :
    (rules.flatMap fun rule => rule.lines.map Text.trim ++ [[]]).filter (· ≠ []) =
      rules.flatMap fun rule => rule.lines.map Text.trim := by
  induction rules with
  | nil => rfl
  | cons rule rules ih =>
    have hfilter : (rule.lines.map Text.trim).filter (· ≠ []) = rule.lines.map Text.trim := by
      refine List.filter_eq_self.mpr fun said hmem => ?_
      obtain ⟨line, hline, rfl⟩ := List.mem_map.mp hmem
      exact decide_eq_true (h rule (by simp) line hline)
    rw [List.flatMap_cons, List.filter_append, List.filter_append, hfilter,
      ih fun r hr => h r (by simp [hr]), List.flatMap_cons]
    simp

theorem filter_lines {rules : List (Rule Text Int Text)}
    (h : ∀ rule ∈ rules, ∀ line ∈ rule.lines, Text.trim line = line ∧ line ≠ []) :
    (rules.flatMap fun rule => rule.lines.map Text.trim ++ [[]]).filter (· ≠ []) =
      rules.flatMap lines := by
  have htrim : ∀ rule ∈ rules, rule.lines.map Text.trim = rule.lines := fun rule hrule =>
    (List.map_congr_left fun line hline => (h rule hrule line hline).1).trans (List.map_id _)
  rw [filter_trim_lines fun rule hrule line hline => by
    rw [(h rule hrule line hline).1]
    exact (h rule hrule line hline).2]
  rw [List.flatMap_def, List.flatMap_def, List.map_congr_left htrim]

end Rule

-- --------------------
-- Lines that are read back
-- --------------------

def SourceLine.said (line : SourceLine) : Text := Text.trim line.text

def IsIndent (indent : Text) : Prop := ∀ c ∈ indent, Text.isBlank c ∧ c ≠ '\n'

theorem IsIndent.append (h : IsIndent indent) : IsIndent (indent ++ indent) := by
  intro c hc
  rw [List.mem_append, or_self] at hc
  exact h c hc

theorem IsIndent.said (h : IsIndent indent) (line : SourceLine) :
    (line.indented indent).said = line.said :=
  Text.trim_append_left (fun c hc => (h c hc).1) _

theorem IsIndent.newline_notMem (h : IsIndent indent) {line : SourceLine} (hline : '\n' ∉ line.text) :
    '\n' ∉ (line.indented indent).text := by
  intro hmem
  rcases List.mem_append.mp hmem with hmem | hmem
  · exact (h _ hmem).2 rfl
  · exact hline hmem

namespace Decompiler

variable {decompiler : Decompiler}

theorem foldlM_add {indent : Text} (hindent : IsIndent indent) {triggers : List SourceLine}
    {condition : Condition}
    (hcount : ∀ trigger ∈ triggers, (orCount trigger.text).isOk)
    (hnewline : ∀ trigger ∈ triggers, '\n' ∉ trigger.text) :
    ∃ lines missing, triggers.foldlM (fun condition trigger => condition.add indent trigger)
        condition = .ok ⟨condition.lines ++ lines, missing⟩ ∧
      lines.map SourceLine.said = triggers.map SourceLine.said ∧
      ∀ line ∈ lines, '\n' ∉ line.text := by
  induction triggers generalizing condition with
  | nil => exact ⟨[], condition.missing, by simp [Pure.pure, Except.pure], rfl, by simp⟩
  | cons trigger triggers ih =>
    have hadd : ∃ line missing, condition.add indent trigger =
        .ok ⟨condition.lines ++ [line], missing⟩ ∧ line.said = trigger.said ∧
          '\n' ∉ line.text := by
      have hfree := hnewline trigger (by simp)
      unfold Condition.add
      split
      · exact ⟨_, _, rfl, hindent.append.said _, hindent.append.newline_notMem hfree⟩
      · obtain ⟨n, hn⟩ := Outcome.isOk_iff.mp (hcount trigger (by simp))
        exact ⟨_, n, by rw [hn]; rfl, hindent.said _, hindent.newline_notMem hfree⟩
    obtain ⟨line, missing, hadd, hsaid, hfree⟩ := hadd
    obtain ⟨lines, missing', hfold, hlines, hfrees⟩ :=
      @ih ⟨condition.lines ++ [line], missing⟩ (fun t ht => hcount t (by simp [ht]))
        (fun t ht => hnewline t (by simp [ht]))
    refine ⟨line :: lines, missing', ?_, by simp [hsaid, hlines], by simpa [hfree] using hfrees⟩
    rw [List.foldlM_cons, Outcome.bind_ok]
    exact ⟨_, hadd, by simpa using hfold⟩

theorem exists_ruleLines (hindent : IsIndent decompiler.indent)
    {rule : Rule SourceLine Int SourceLine}
    (hcount : ∀ trigger ∈ rule.triggers, (orCount trigger.text).isOk)
    (htrigger : ∀ trigger ∈ rule.triggers, '\n' ∉ trigger.text)
    (haction : ∀ response ∈ rule.responses, ∀ action ∈ response.2, '\n' ∉ action.text) :
    ∃ lines, decompiler.ruleLines rule = .ok lines ∧
      lines.map SourceLine.said =
        (rule.map SourceLine.said Text.ofInt SourceLine.said).statements ++ [[]] ∧
      ∀ line ∈ lines, '\n' ∉ line.text := by
  obtain ⟨triggers, missing, hfold, htriggers, htriggers'⟩ :=
    @foldlM_add _ hindent _ ⟨[{ text := "IF" }], 0⟩ hcount htrigger
  have hcondition : decompiler.conditionLines rule.triggers =
      .ok ({ text := "IF" } :: triggers) := by
    rw [conditionLines, hfold]
    rfl
  have hresponse : ∀ n actions, (decompiler.responseLines n actions).map SourceLine.said =
      ("RESPONSE #".toList ++ Text.ofInt n) :: actions.map SourceLine.said := by
    intro n actions
    have hfirst : Text.trim (decompiler.indent ++ "RESPONSE #".toList ++ Text.ofInt n) =
        "RESPONSE #".toList ++ Text.ofInt n := by
      rw [List.append_assoc, Text.trim_append_left fun c hc => (hindent c hc).1, Rule.trim_response]
    simp only [responseLines, List.map_cons, SourceLine.said, hfirst, List.map_map]
    exact congrArg _ (List.map_congr_left fun action _ => hindent.append.said action)
  have hresponse' : ∀ n actions, (∀ action ∈ actions, '\n' ∉ action.text) →
      ∀ line ∈ decompiler.responseLines n actions, '\n' ∉ line.text := by
    intro n actions hactions line hline
    rcases List.mem_cons.mp hline with rfl | hline
    · have hn : '\n' ∉ Text.ofInt n := fun hmem =>
        absurd ((Text.isNumeral_ofInt n).isBlank_eq_false hmem) (by decide)
      simpa [hn] using fun hmem => (hindent _ hmem).2 rfl
    · obtain ⟨action, haction, rfl⟩ := List.mem_map.mp hline
      exact hindent.append.newline_notMem (hactions action haction)
  refine ⟨_, by rw [ruleLines, hcondition]; rfl, ?_, ?_⟩
  · simp only [Rule.statements, Rule.map, List.map_append, List.map_cons, List.map_nil,
      List.map_flatMap, List.flatMap_map, htriggers, hresponse, List.cons_append, List.append_assoc]
    rfl
  · simp only [List.mem_append, List.mem_cons, List.mem_flatMap, List.not_mem_nil, or_false]
    rintro line (((rfl | hline) | rfl | ⟨response, hmem, hline⟩) | rfl | rfl)
    · simp
    · exact htriggers' line hline
    · simp
    · exact hresponse' _ _ (haction response hmem) line hline
    · simp
    · simp

end Decompiler

def ReadableRule.read {decompiler : Decompiler} (rule : ReadableRule decompiler) :
    Rule Text Int Text :=
  rule.map (·.line.text) Weight.value (·.line.text)

namespace Decompiler

variable {decompiler : Decompiler}

theorem exists_lines_readableRule (hindent : IsIndent decompiler.indent)
    {rule : ReadableRule decompiler}
    (hcount : ∀ trigger ∈ rule.read.triggers, (orCount trigger).isOk)
    (hnewline : ∀ line ∈ rule.read.lines, '\n' ∉ line) :
    ∃ lines, decompiler.ruleLines (rule.map Chunk.line Weight.value Chunk.line) = .ok lines ∧
      lines.map SourceLine.said = rule.read.lines.map Text.trim ++ [[]] ∧
      ∀ line ∈ lines, '\n' ∉ line.text := by
  have hsaid : rule.read.map Text.trim Text.ofInt Text.trim =
      (rule.map Chunk.line Weight.value Chunk.line).map SourceLine.said Text.ofInt
        SourceLine.said := by
    simp [ReadableRule.read, Rule.map, SourceLine.said]
  rw [Rule.map_trim_lines, hsaid]
  refine exists_ruleLines hindent ?_ ?_ ?_
  · simpa [ReadableRule.read, Rule.map] using hcount
  · intro _ hmem
    obtain ⟨trigger, htrigger, rfl⟩ := List.mem_map.mp hmem
    exact hnewline _ (Rule.trigger_mem_lines (List.mem_map_of_mem htrigger))
  · intro _ hmem _ hmem'
    obtain ⟨response, hresponse, rfl⟩ := List.mem_map.mp hmem
    obtain ⟨action, haction, rfl⟩ := List.mem_map.mp hmem'
    exact hnewline _ (Rule.action_mem_lines (List.mem_map_of_mem hresponse)
      (List.mem_map_of_mem haction))

theorem decompile_readableRules (hindent : IsIndent decompiler.indent)
    {rules : List (ReadableRule decompiler)}
    (hcount : ∀ rule ∈ rules, ∀ trigger ∈ rule.read.triggers, (orCount trigger).isOk)
    (hnewline : ∀ rule ∈ rules, ∀ line ∈ rule.read.lines, '\n' ∉ line) (collect : Bool) :
    ∃ lines, decompiler.decompile
        (scriptCode (rules.map (Rule.map Chunk.text Weight.text Chunk.text))) collect =
          .ok (.ofLines collect lines) ∧
      lines.map SourceLine.said =
        rules.flatMap (fun rule => rule.read.lines.map Text.trim ++ [[]]) ∧
      ∀ line ∈ lines, '\n' ∉ line.text := by
  have hblocks : ∃ blocks, rules.mapM (fun rule =>
        decompiler.ruleLines (rule.map Chunk.line Weight.value Chunk.line)) = .ok blocks ∧
      blocks.flatten.map SourceLine.said =
        rules.flatMap (fun rule => rule.read.lines.map Text.trim ++ [[]]) ∧
      ∀ line ∈ blocks.flatten, '\n' ∉ line.text := by
    induction rules with
    | nil => exact ⟨[], rfl, rfl, by simp⟩
    | cons rule rules ih =>
      obtain ⟨lines, hlines, hfirst, hfree⟩ :=
        exists_lines_readableRule hindent (hcount rule (by simp)) (hnewline rule (by simp))
      obtain ⟨blocks, hblocks, hsaid, hfrees⟩ :=
        ih (fun r hr => hcount r (by simp [hr])) (fun r hr => hnewline r (by simp [hr]))
      refine ⟨lines :: blocks, ?_, ?_, ?_⟩
      · rw [List.mapM_cons, hlines, hblocks]
        rfl
      · rw [List.flatten_cons, List.map_append, hfirst, hsaid, List.flatMap_cons]
      · intro line hline
        rcases List.mem_append.mp hline with hline | hline
        · exact hfree line hline
        · exact hfrees line hline
  obtain ⟨blocks, hblocks, hsaid, hfree⟩ := hblocks
  exact ⟨blocks.flatten, decompile_scriptCode rules hblocks, hsaid, hfree⟩

end Decompiler

end InfinityScript
