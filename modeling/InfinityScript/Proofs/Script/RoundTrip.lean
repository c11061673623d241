import Mathlib.Algebra.Group.Int.Defs
import InfinityScript.Proofs.Script.SaidLines
import InfinityScript.Proofs.Script.Statement

/-!
# Scripts that round-trip

When every statement of a script is read back from its own record, the whole script
is read back from its code, line by line.
-/

namespace InfinityScript

open Reader NotedT

-- --------------------
-- Statements by themselves
-- --------------------

/-- Compiled and decompiled by itself, the line comes out as it went in. -/
def RoundTrips (decompiler : Decompiler) (isAction collect : Bool) (line : Text) : Prop :=
  ∃ compiled decompiled,
    compileDialog decompiler.symbols decompiler.profile (.text line) isAction = .ok compiled ∧
    decompiler.decompileDialog compiled.code isAction collect = .ok decompiled ∧
    decompiled.source = line ++ ['\n']

instance : Decidable (RoundTrips decompiler isAction collect line) :=
  decidable_of_iff
    ((compileDialog decompiler.symbols decompiler.profile (.text line) isAction).toOption.any
      fun compiled => (decompiler.decompileDialog compiled.code isAction collect).toOption.any
        fun decompiled => decompiled.source = line ++ ['\n']) (by
    constructor
    · intro h
      obtain ⟨compiled, hcompile, h⟩ := Outcome.exists_of_any h
      obtain ⟨decompiled, hdecompile, h⟩ := Outcome.exists_of_any h
      exact ⟨compiled, decompiled, hcompile, hdecompile, by simpa using h⟩
    · rintro ⟨compiled, decompiled, hcompile, hdecompile, hsource⟩
      simp [hcompile, hdecompile, hsource, Except.toOption])

theorem listing_text (hnewline : '\n' ∉ line) :
    (Source.text line).listing.lines =
      if Text.statement line = [] then [] else [⟨1, Text.statement line⟩] := by
  cases line with
  | nil => rfl
  | cons c line =>
    simp only [Source.listing, Source.physicalLines,
      Text.physicalLines_singleton (by simp) hnewline, Line.statements]

theorem source_decompileDialog (h : ∀ m, .marker m ∉ lexemes code)
    (hdecompile : Decompiler.decompileDialog decompiler code isAction collect = .ok d) :
    d.source = [] := by
  rw [Decompiler.decompileDialog_eq, readCode_eq_ok_iff
    (Decompiler.positionless_records _ (decompiler.positionless_dialogRecord isAction))] at hdecompile
  obtain ⟨-, lines, hlines, rfl⟩ := hdecompile
  rw [parse_records_nil (h _)] at hlines
  cases hlines
  rfl

theorem Encoded.ofRole_missingParenthesis (h : '(' ∉ statement) :
    Encoded.ofRole isAction symbols profile statement = .ok
      { text := Fault.missingParenthesis.placeholder ++ "\n"
        remarks := [.error .missingParenthesis] } := by
  have hsplit : ∀ {call}, '(' ∉ call → Call.split call = .error .missingParenthesis := by
    intro call hcall
    rw [Call.split, Text.cut?_eq_none hcall]
  have hsigned : '(' ∉ (Trigger.signed statement).2 := by
    unfold Trigger.signed
    split
    · exact fun hmem => h (List.mem_cons_of_mem _ hmem)
    · exact h
  cases isAction with
  | false =>
    show Encoded.settle (Trigger.encode symbols profile statement) _ = _
    rw [Trigger.encode, hsplit hsigned]
    rfl
  | true =>
    show Encoded.settle (Action.encode symbols profile statement) _ = _
    rw [Action.encode, hsplit h]
    rfl

theorem lexemes_missingParenthesis :
    lexemes (Fault.missingParenthesis.placeholder ++ "\n") =
      [.word "Error", .word "-", .word "Missing", .word "parenthesis"] := by
  decide +kernel

/-- A line that round-trips calls something, and comes back from its own record. -/
theorem RoundTrips.exists_encoded (h : RoundTrips decompiler isAction collect line)
    (hnewline : '\n' ∉ line) :
    '(' ∈ Text.statement line ∧ ∃ encoded decompiled,
      Encoded.ofRole isAction decompiler.symbols decompiler.profile (Text.statement line) =
        .ok encoded ∧
      decompiler.decompileDialog encoded.text isAction collect = .ok decompiled ∧
      decompiled.source = line ++ ['\n'] := by
  obtain ⟨compiled, decompiled, hcompile, hdecompile, hsource⟩ := h
  have hnonempty : decompiled.source ≠ [] := by simp [hsource]
  have hlisting := listing_text hnewline
  by_cases hstatement : Text.statement line = []
  · rw [if_pos hstatement] at hlisting
    rw [compileDialog_nil hlisting hcompile] at hdecompile
    exact absurd (source_decompileDialog (by simp [lexemes]) hdecompile) hnonempty
  · rw [if_neg hstatement] at hlisting
    obtain ⟨-, encoded, hencoded, rfl⟩ := (compileDialog_singleton hlisting).mp hcompile
    refine ⟨Classical.byContradiction fun hcall => ?_, encoded, decompiled, hencoded, hdecompile,
      hsource⟩
    obtain rfl := Except.ok.inj (hencoded.symm.trans (Encoded.ofRole_missingParenthesis hcall))
    refine hnonempty (source_decompileDialog (fun m => ?_) hdecompile)
    show _ ∉ lexemes (Fault.missingParenthesis.placeholder ++ "\n".toList)
    rw [lexemes_missingParenthesis]
    simp

theorem RoundTrips.chunk_trigger (h : RoundTrips decompiler false collect line)
    (hnewline : '\n' ∉ line) (herror : ¬ ("Error - ".toList <+: line))
    (hencoded : Encoded.trigger decompiler.symbols decompiler.profile (Text.statement line) =
      .ok encoded) (hremarks : Faultless encoded.remarks) :
    ∃ chunk : Chunk .trigger (Trigger.decode decompiler.symbols decompiler.profile),
      chunk.text = encoded.text ∧ chunk.line.text = line := by
  obtain ⟨-, encoded', decompiled, hencoded', hdecompile, hsource⟩ := h.exists_encoded hnewline
  rw [Decompiler.decompileDialog_eq] at hdecompile
  obtain rfl := Except.ok.inj (hencoded.symm.trans hencoded')
  obtain ⟨⟨text, n⟩, remarks, hsucceeds, rfl⟩ :=
    Encoded.settle_faultless (fun _ _ => rfl) hencoded hremarks
  exact exists_chunk (Trigger.positionless_decode _ _) Trigger.readsLine_decode
    (Trigger.framed_encode hsucceeds) hdecompile hsource hnewline herror

theorem RoundTrips.chunk_action (h : RoundTrips decompiler true collect line)
    (hnewline : '\n' ∉ line) (herror : ¬ ("Error - ".toList <+: line))
    (hencoded : Encoded.action decompiler.symbols decompiler.profile (Text.statement line) =
      .ok encoded) (hremarks : Faultless encoded.remarks) :
    ∃ chunk : Chunk .action (Action.decode decompiler.symbols decompiler.profile),
      chunk.text = encoded.text ∧ chunk.line.text = line := by
  obtain ⟨-, encoded', decompiled, hencoded', hdecompile, hsource⟩ := h.exists_encoded hnewline
  rw [Decompiler.decompileDialog_eq] at hdecompile
  obtain rfl := Except.ok.inj (hencoded.symm.trans hencoded')
  obtain ⟨text, remarks, hsucceeds, rfl⟩ :=
    Encoded.settle_faultless (fun _ _ => rfl) hencoded hremarks
  exact exists_chunk (Action.closes_decode _ _).stepwise.positionless
    (fun h _ => Action.readsLine_decode h) (Action.framed_encode hsucceeds) hdecompile hsource
    hnewline herror

-- --------------------
-- Rules that are read back
-- --------------------

/-- A rule whose statements are encoded and read back one by one: the records are those of
the encoded rule, and what is known of each statement is known of its record. -/
theorem exists_readableRule_map {decompiler : Decompiler} {rule : Rule τ ω α}
    {encoded : Rule Encoded Text Encoded} {trigger : τ → Except Halt Encoded} {weight : ω → Text}
    {action : α → Except Halt Encoded} {known : τ → γ} {known' : α → δ}
    {learned : Chunk .trigger (Trigger.decode decompiler.symbols decompiler.profile) → γ}
    {learned' : Chunk .action (Action.decode decompiler.symbols decompiler.profile) → δ}
    (h : rule.map trigger weight action = encoded.map .ok id .ok)
    (hweight : ∀ response ∈ rule.responses,
      Text.IsNumeral (weight response.1) ∧ Text.FewDigits (weight response.1))
    (htrigger : ∀ line ∈ rule.triggers, ∀ record ∈ encoded.triggers, trigger line = .ok record →
      ∃ chunk, chunk.text = record.text ∧ learned chunk = known line)
    (haction : ∀ response ∈ rule.responses, ∀ line ∈ response.2,
      ∀ response' ∈ encoded.responses, ∀ record ∈ response'.2, action line = .ok record →
      ∃ chunk, chunk.text = record.text ∧ learned' chunk = known' line) :
    ∃ readable : ReadableRule decompiler,
      readable.map Chunk.text Weight.text Chunk.text = encoded.map Encoded.text id Encoded.text ∧
      readable.map learned Weight.text learned' = rule.map known weight known' := by
  obtain ⟨htriggers, hresponses⟩ := Rule.mk.inj h
  obtain ⟨triggers, htext, hknown⟩ := exists_map_eq htriggers htrigger
  have hresponse : ∀ response ∈ rule.responses, ∀ response' ∈ encoded.responses,
      (weight response.1, response.2.map action) = (response'.1, response'.2.map Except.ok) →
      ∃ readable : Weight × List (Chunk .action (Action.decode decompiler.symbols decompiler.profile)),
        (readable.1.text, readable.2.map Chunk.text) =
          (response'.1, response'.2.map Encoded.text) ∧
        (readable.1.text, readable.2.map learned') =
          (weight response.1, response.2.map known') := by
    intro response hmem response' hmem' heq
    obtain ⟨hweights, hactions⟩ := Prod.mk.inj heq
    obtain ⟨actions, hactions₁, hactions₂⟩ := exists_map_eq hactions fun line hline record hrecord =>
      haction response hmem line hline response' hmem' record hrecord
    exact ⟨⟨⟨weight response.1, (hweight response hmem).1, (hweight response hmem).2⟩, actions⟩,
      Prod.ext hweights hactions₁, Prod.ext rfl hactions₂⟩
  obtain ⟨responses, hcode, hknown'⟩ := exists_map_eq hresponses hresponse
  refine ⟨⟨triggers, responses⟩, ?_, ?_⟩
  · exact Rule.mk.injEq .. ▸ ⟨htext, hcode⟩
  · exact Rule.mk.injEq .. ▸ ⟨hknown, hknown'⟩

theorem exists_readableRule {decompiler : Decompiler} {rule : Rule Text Int Text}
    {encoded : Rule Encoded Text Encoded} {trigger action : Text → Except Halt Encoded}
    (h : rule.map trigger Text.ofInt action = encoded.map .ok id .ok)
    (hweight : ∀ response ∈ rule.responses, Text.FewDigits (Text.ofInt response.1))
    (htrigger : ∀ line ∈ rule.triggers, ∀ record ∈ encoded.triggers, trigger line = .ok record →
      ∃ chunk : Chunk .trigger (Trigger.decode decompiler.symbols decompiler.profile),
        chunk.text = record.text ∧ chunk.line.text = line)
    (haction : ∀ response ∈ rule.responses, ∀ line ∈ response.2,
      ∀ response' ∈ encoded.responses, ∀ record ∈ response'.2, action line = .ok record →
      ∃ chunk : Chunk .action (Action.decode decompiler.symbols decompiler.profile),
        chunk.text = record.text ∧ chunk.line.text = line) :
    ∃ readable : ReadableRule decompiler,
      readable.map Chunk.text Weight.text Chunk.text = encoded.map Encoded.text id Encoded.text ∧
      readable.read = rule := by
  obtain ⟨readable, htext, hread⟩ : ∃ readable : ReadableRule decompiler,
      readable.map Chunk.text Weight.text Chunk.text = encoded.map Encoded.text id Encoded.text ∧
      readable.map (·.line.text) Weight.text (·.line.text) = rule.map id Text.ofInt id :=
    exists_readableRule_map h
      (fun response hmem => ⟨Text.isNumeral_ofInt _, hweight response hmem⟩) htrigger haction
  refine ⟨readable, htext, ?_⟩
  have hvalue : (fun text => (Text.readSigned? text).getD 0) ∘ Text.ofInt = id := by
    funext n
    simp [Text.readSigned?_ofInt]
  have hread := congrArg (Rule.map id (fun text => (Text.readSigned? text).getD 0) id) hread
  rw [Rule.map_map, Rule.map_map, hvalue] at hread
  exact hread.trans rule.map_id

-- --------------------
-- Scripts that round-trip
-- --------------------

namespace Rule

/-- Every statement of the rule round-trips, no line of it is an error, no action looks
like a response, and its weights and the sizes of its OR groups can be read. -/
structure RoundTrips (decompiler : Decompiler) (collect : Bool) (rule : Rule Text Int Text) :
    Prop where
  weight : ∀ response ∈ rule.responses, Text.FewDigits (Text.ofInt response.1)
  trigger : ∀ trigger ∈ rule.triggers,
    InfinityScript.RoundTrips decompiler false collect trigger ∧
      ¬ ("Error - ".toList <+: trigger) ∧ (Decompiler.orCount trigger).isOk
  action : ∀ response ∈ rule.responses, ∀ action ∈ response.2,
    InfinityScript.RoundTrips decompiler true collect action ∧
      ¬ ("Error - ".toList <+: action) ∧ ¬ ("RESPONSE".toList <+: Text.upper action)

instance : Decidable (RoundTrips decompiler collect rule) :=
  decidable_of_iff (_ ∧ _ ∧ _) ⟨fun ⟨weight, trigger, action⟩ => ⟨weight, trigger, action⟩,
    fun ⟨weight, trigger, action⟩ => ⟨weight, trigger, action⟩⟩

namespace RoundTrips

variable {decompiler : Decompiler} {rule : Rule Text Int Text}

theorem calls (h : rule.RoundTrips decompiler collect) (hnewline : ∀ line ∈ rule.lines, '\n' ∉ line)
    (htrim : ∀ line ∈ rule.lines, Text.trim line = line) : rule.Calls := by
  refine ⟨fun trigger hmem => ?_, fun response hresponse action hmem => ?_⟩
  · have htrips := (h.trigger trigger hmem).1
    exact (htrips.exists_encoded (hnewline _ (trigger_mem_lines hmem))).1
  · obtain ⟨htrips, -, hstart⟩ := h.action response hresponse action hmem
    have hline := action_mem_lines hresponse hmem
    exact ⟨(htrips.exists_encoded (hnewline _ hline)).1, Text.upper_take_ne (htrim _ hline) hstart 8⟩

theorem exists_readable (h : rule.RoundTrips decompiler collect)
    (hnewline : ∀ line ∈ rule.lines, '\n' ∉ line) {encoded : Rule Encoded Text Encoded}
    (hencoded : (rule.map Text.statement Text.ofInt Text.statement).map
        (Encoded.trigger decompiler.symbols decompiler.profile) id
        (Encoded.action decompiler.symbols decompiler.profile) = encoded.map .ok id .ok)
    (htrigger : ∀ trigger ∈ encoded.triggers, Faultless trigger.remarks)
    (haction : ∀ response ∈ encoded.responses, ∀ action ∈ response.2, Faultless action.remarks) :
    ∃ readable : ReadableRule decompiler,
      readable.map Chunk.text Weight.text Chunk.text = encoded.map Encoded.text id Encoded.text ∧
        readable.read = rule := by
  rw [map_map] at hencoded
  refine exists_readableRule hencoded h.weight ?_ ?_
  · intro line hline record hrecord hencode
    obtain ⟨htrips, herror, -⟩ := h.trigger line hline
    exact htrips.chunk_trigger (hnewline _ (trigger_mem_lines hline)) herror hencode
      (htrigger record hrecord)
  · intro response hresponse line hline response' hresponse' record hrecord hencode
    obtain ⟨htrips, herror, -⟩ := h.action response hresponse line hline
    exact htrips.chunk_action (hnewline _ (action_mem_lines hresponse hline)) herror hencode
      (haction response' hresponse' record hrecord)

end RoundTrips

end Rule

/-- A script whose statements round-trip one by one round-trips as a whole: from its
code come the same lines, and from them the same code. -/
theorem decompile_compile {decompiler : Decompiler} {source : Source} {compiled : Compiled}
    (rules : List (Rule Text Int Text)) (collect collect' : Bool)
    (hindent : IsIndent decompiler.indent)
    (hlines : ∀ line ∈ source.physicalLines, '\n' ∉ line)
    (hsource : source.saidLines = rules.flatMap Rule.lines)
    (hrules : ∀ rule ∈ rules, rule.RoundTrips decompiler collect)
    (hcompile : compile decompiler.symbols decompiler.profile source = .ok compiled)
    (herrors : compiled.errors.isEmpty) :
    ∃ decompiled, decompiler.decompile compiled.code collect' = .ok decompiled ∧
      (Source.text decompiled.source).saidLines = source.saidLines ∧
      ∃ again, compile decompiler.symbols decompiler.profile (.text decompiled.source) = .ok again ∧
        again.code = compiled.code := by
  have hsaid : ∀ rule ∈ rules, ∀ line ∈ rule.lines, line ∈ source.saidLines := by
    intro rule hrule line hline
    rw [hsource]
    exact List.mem_flatMap.mpr ⟨rule, hrule, hline⟩
  have hnewline : ∀ rule ∈ rules, ∀ line ∈ rule.lines, '\n' ∉ line := fun rule hrule line hline =>
    Source.newline_notMem (hsaid rule hrule line hline) hlines
  have hsay : ∀ rule ∈ rules, ∀ line ∈ rule.lines, Text.trim line = line ∧ line ≠ [] :=
    fun rule hrule line hline => Source.trim_saidLine (hsaid rule hrule line hline)
  -- Every statement calls something, so that the source is outlined into the rules.
  have hcalls : ∀ rule ∈ rules, rule.Calls := fun rule hrule =>
    (hrules rule hrule).calls (hnewline rule hrule) fun line hline => (hsay rule hrule line hline).1
  have hplace : ∀ rule ∈ rules.map (Rule.map Text.statement Text.ofInt Text.statement),
      rule.InPlace := by
    intro _ hmem
    obtain ⟨rule, hrule, rfl⟩ := List.mem_map.mp hmem
    exact (hcalls rule hrule).inPlace
  obtain ⟨encoded, hcode, hencoded, hfaultless⟩ :=
    exists_encodedRules hplace hcompile herrors (Rule.statements_of_calls hsource hcalls)
  rw [List.map_map] at hencoded
  obtain ⟨readable, hreadable, hread⟩ := exists_map_eq hencoded fun rule hrule records hrecords h =>
    (hrules rule hrule).exists_readable (hnewline rule hrule) h (hfaultless records hrecords).1
      (hfaultless records hrecords).2
  rw [List.map_id'] at hread
  subst hread
  simp only [List.mem_map, forall_exists_index, and_imp, forall_apply_eq_imp_iff₂] at hrules hnewline
  obtain ⟨lines, hdecompile, hlinesSaid, hfree⟩ := Decompiler.decompile_readableRules hindent
    (fun rule hrule trigger hmem => ((hrules rule hrule).trigger trigger hmem).2.2) hnewline collect'
  rw [hreadable, ← hcode] at hdecompile
  have hsame : (Source.text (Decompiled.ofLines collect' lines).source).saidLines =
      source.saidLines := by
    rw [Source.saidLines, Source.physicalLines, Decompiled.ofLines,
      Text.physicalLines_ofLines (by simpa using hfree), List.map_map, hsource,
      ← Rule.filter_lines hsay, List.flatMap_map]
    exact congrArg _ hlinesSaid
  refine ⟨_, hdecompile, hsame, ?_⟩
  obtain ⟨findings, rfl, hagain⟩ := compileStatements_of_compile hcompile
  rw [Source.statements_eq, ← hsame, ← Source.statements_eq] at hagain
  obtain ⟨again, hcompile, hresult⟩ := compile_of_compileStatements hagain
  exact ⟨_, hcompile, congrArg Prod.fst hresult⟩

def sampleDecompiler : Decompiler where
  symbols := sampleSymbols
  profile := .ofGame .none
  indent := "\t"

def sampleRules : List (Rule Text Int Text) :=
  [⟨["OR(2)", "!True()", "True()"], [(100, ["Say(\"a b\")", "Say(\"\")"]), (-1, [])]⟩, ⟨[], []⟩]

theorem decompile_compile_sample :
    ∃ compiled, compile sampleDecompiler.symbols sampleDecompiler.profile
        (.lines (sampleRules.flatMap Rule.lines)) = .ok compiled ∧
      compiled.errors.isEmpty ∧
      ∃ decompiled, sampleDecompiler.decompile compiled.code true = .ok decompiled ∧
        (Source.text decompiled.source).saidLines =
          (Source.lines (sampleRules.flatMap Rule.lines)).saidLines ∧
        ∃ again, compile sampleDecompiler.symbols sampleDecompiler.profile
            (.text decompiled.source) = .ok again ∧ again.code = compiled.code := by
  obtain ⟨compiled, hcompile, herrors⟩ := Outcome.exists_of_any (by decide +kernel :
    (compile sampleDecompiler.symbols sampleDecompiler.profile
      (.lines (sampleRules.flatMap Rule.lines))).toOption.any (·.errors.isEmpty))
  refine ⟨compiled, hcompile, herrors, decompile_compile sampleRules true true ?_ ?_ ?_ ?_ hcompile herrors⟩
  · unfold IsIndent
    decide
  · decide +kernel
  · decide +kernel
  · decide +kernel

def Rule.ofWeight (n : Int) : Rule Text Int Text := ⟨[], [(n, [])]⟩

theorem Rule.calls_ofWeight (n : Int) : ∀ rule ∈ [ofWeight n], rule.Calls := by
  intro rule hrule
  obtain rfl := List.mem_singleton.mp hrule
  exact ⟨by simp [ofWeight], by simp [ofWeight]⟩

theorem Rule.saidLines_ofWeight (n : Int) :
    (Source.lines (ofWeight n).lines).saidLines = [ofWeight n].flatMap lines := by
  have hwords : Text.trim "IF" = "IF" ∧ Text.trim "THEN" = "THEN" ∧ Text.trim "END" = "END" := by
    decide
  show ([Text.trim "IF", Text.trim "THEN", Text.trim ("RESPONSE #" ++ Text.ofInt n),
    Text.trim "END"].filter (· ≠ [])) = _
  rw [hwords.1, hwords.2.1, hwords.2.2, trim_response]
  rfl

theorem compile_ofWeight (hwidths : profile.checkWidths = .ok ()) (n : Int) :
    ∃ compiled, compile symbols profile (.lines (Rule.ofWeight n).lines) = .ok compiled ∧
      compiled.errors.isEmpty ∧ compiled.code = scriptCode [⟨[], [(Text.ofInt n, [])]⟩] := by
  have hstatements := Rule.statements_of_calls (Rule.saidLines_ofWeight n) (Rule.calls_ofWeight n)
  have hcompile : compileStatements symbols profile
      (Source.lines (Rule.ofWeight n).lines).statements =
        .ok (Outline.code 0 (List.map Rule.toBlock [⟨[], [(Text.ofInt n, [])]⟩]) none).remarked := by
    rw [hstatements, compileStatements, hwidths, Rule.ofLines_statements]
    · rfl
    · intro _ hmem
      obtain ⟨rule, hrule, rfl⟩ := List.mem_map.mp hmem
      exact (Rule.calls_ofWeight n rule hrule).inPlace
  obtain ⟨findings, hcompile, hresult⟩ := compile_of_compileStatements hcompile
  obtain ⟨hvalue, hremarks⟩ := Prod.mk.inj hresult
  have hfaultless : (Outline.code 0 (List.map Rule.toBlock [⟨[], [(Text.ofInt n, [])]⟩])
      none).Faultless := fun fault => List.not_mem_nil
  refine ⟨_, hcompile, ?_, hvalue.trans (Outline.value_code hfaultless).1⟩
  rw [Compiled.ofFindings, List.map_eq_nil_iff.mp hremarks]
  rfl

theorem not_decompile_ofWeight (h : ¬ Text.FewDigits (Text.ofInt n)) :
    ¬ ∃ d, Decompiler.decompile decompiler (scriptCode [⟨[], [(Text.ofInt n, [])]⟩]) collect =
      .ok d := by
  rintro ⟨d, hdecompile⟩
  obtain ⟨hlegible, -⟩ := Decompiler.decompile_eq_ok_iff.mp hdecompile
  have hsplits := (splits_marker .script).append ((splits_marker .block).append
    (((splits_marker .condition).append (splits_marker .condition)).append
      ((splits_marker .responseSet).append ((splits_marker .response).append
        (Splits.numeral (Text.isNumeral_ofInt n) (splits_marker .response) (by simp)
          (endsNumber_code .response _))))))
  have hcode : scriptCode [⟨[], [(Text.ofInt n, [])]⟩] =
      "SC\n" ++ ("CR\n" ++ ("CO\nCO\n" ++ ("RS\n" ++ ("RE\n" ++ (Text.ofInt n ++ "RE\n"))))) ++
        "RS\nCR\nSC\n".toList := by
    simp [scriptCode, Rule.code, Rule.responsesCode, Rule.responseCode]
  have hmem : (.number ((Text.readSigned? (Text.ofInt n)).getD 0), Text.ofInt n) ∈
      pieces (scriptCode [⟨[], [(Text.ofInt n, [])]⟩]) := by
    rw [hcode]
    have hpieces := hsplits "RS\nCR\nSC\n".toList
    simp [Marker.code] at hpieces
    simp [hpieces]
  exact h (hlegible _ hmem rfl)

/-- A weight of more digits than can be read is compiled without an error, but not read
back. -/
theorem decompile_compile_long_weight :
    ∃ compiled, compile sampleDecompiler.symbols sampleDecompiler.profile
        (.lines (Rule.ofWeight (10 ^ digitLimit)).lines) = .ok compiled ∧
      compiled.errors.isEmpty ∧
      ¬ ∃ decompiled, sampleDecompiler.decompile compiled.code true = .ok decompiled := by
  obtain ⟨compiled, hcompile, herrors, hcode⟩ :=
    @compile_ofWeight sampleDecompiler.symbols sampleDecompiler.profile rfl (10 ^ digitLimit)
  refine ⟨compiled, hcompile, herrors, ?_⟩
  rw [hcode]
  refine not_decompile_ofWeight ?_
  have hten : Int.natAbs 10 = 10 := rfl
  rw [Text.fewDigits_ofInt, Int.natAbs_pow, hten]
  exact Nat.lt_irrefl _

end InfinityScript
