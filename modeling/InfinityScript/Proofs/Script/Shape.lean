import InfinityScript.Proofs.Record.Action
import InfinityScript.Proofs.Script.Locality
import InfinityScript.Proofs.Script.RoundTrip

/-!
# Scripts that keep their shape

A script that compiles without an error is decompiled without one: block by block it has
the same triggers, responses and actions again, each of them the call of a function
(`decompile_compile_shape`). That takes plain statements, weights that are numbers, and
no action before the first response of its block (`Block.IsReadable`).
-/

namespace InfinityScript

-- --------------------
-- Shapes
-- --------------------

/-- How many triggers the block has, and which of the lines of its body are actions. -/
def Block.shape (block : Block σ) : Nat × List Bool :=
  (block.triggers.length, block.body.map fun line => line.2.isAction)

def Rule.shape (rule : Rule τ ω α) : Nat × List Bool :=
  (rule.triggers.length,
    rule.responses.flatMap fun response => false :: response.2.map fun _ => true)

theorem Block.shape_plain (block : Block σ) : block.plain.shape = block.shape := by
  simp [shape, plain, Function.comp_def]

theorem Rule.shape_toBlock (rule : Rule σ Text σ) : rule.toBlock.shape = rule.shape := by
  simp [shape, Block.shape, toBlock, body, List.map_flatMap, BodyLine.isAction, Function.comp_def]

theorem Rule.shape_map (f : τ → τ') (g : ω → ω') (h : α → α') (rule : Rule τ ω α) :
    (rule.map f g h).shape = rule.shape := by
  simp [shape, map, List.flatMap_map]

-- --------------------
-- Blocks without faults
-- --------------------

structure Block.IsWhole (block : Block σ) : Prop where
  thenLine : block.thenLine.isSome
  endLine : block.endLine.isSome
  weight : ∀ line ∈ block.body, line.2 ≠ .response none

theorem Block.weight_of_faultless {body : List (Nat × BodyLine Encoded)}
    (h : (bodyCode first body).Faultless) : ∀ line ∈ body, line.2 ≠ .response none := by
  induction body generalizing first with
  | nil => simp
  | cons numbered body ih =>
    obtain ⟨number, line⟩ := numbered
    cases line with
    | response weight =>
      simp only [bodyCode, Noted.faultless_bind] at h
      obtain ⟨hweight, hrest, -⟩ := h
      intro line hmem
      rcases List.mem_cons.mp hmem with rfl | hmem
      · rw [value_weightCode hweight]
        simp
      · exact ih hrest line hmem
    | action encoded =>
      simp only [bodyCode, Noted.faultless_bind] at h
      obtain ⟨-, hrest, -⟩ := h
      intro line hmem
      rcases List.mem_cons.mp hmem with rfl | hmem
      · simp
      · exact ih hrest line hmem

theorem Block.isWhole_of_faultless {block : Block Encoded} (h : (block.code length).Faultless) :
    block.IsWhole := by
  simp only [code, responseCode, Noted.faultless_bind, Noted.faultless_leaveIf] at h
  obtain ⟨hcondition, ⟨hbody, hend, -⟩, -⟩ := h
  exact ⟨(value_conditionCode hcondition).1, by simpa [Option.isNone_eq_false_iff] using hend,
    weight_of_faultless hbody⟩

theorem Block.IsWhole.of_encode {block : Block Text} (h : encoded.IsWhole)
    (hencode : block.encode symbols profile = .ok encoded) : block.IsWhole := by
  obtain ⟨triggers, -, hencode⟩ := Outcome.bind_ok.mp hencode
  obtain ⟨body, hbody, hencode⟩ := Outcome.bind_ok.mp hencode
  obtain rfl := Outcome.pure_ok.mp hencode
  refine ⟨h.thenLine, h.endLine, fun line hmem hnone => ?_⟩
  have hencoded : BodyLine.encode (Encoded.action symbols profile) line.2 ∈
      block.body.map fun line => BodyLine.encode (Encoded.action symbols profile) line.2 :=
    List.mem_map_of_mem hmem
  rw [(encodeEach_ok.mp hbody).2, hnone] at hencoded
  obtain ⟨found, hfound, heq⟩ := List.mem_map.mp hencoded
  exact h.weight found hfound (Except.ok.inj heq)

theorem Outline.isWhole_of_compile (hcompile : compile symbols profile source = .ok compiled)
    (herrors : compiled.errors.isEmpty) :
    (ofLines source.listing.lines).stray = none ∧
      ∀ block ∈ (ofLines source.listing.lines).blocks, block.IsWhole := by
  obtain ⟨_, -, h⟩ := Outcome.bind_ok.mp hcompile
  obtain ⟨blocks, hblocks, h⟩ := Outcome.bind_ok.mp h
  obtain rfl := Outcome.pure_ok.mp h
  have hfaultless := Finding.faultless_of_isEmpty_errors herrors
  obtain ⟨hcodes, hstray⟩ := Noted.faultless_bind.mp hfaultless
  rw [Noted.faultless_mapM] at hcodes
  refine ⟨?_, fun block hblock => ?_⟩
  · cases hsome : (ofLines source.listing.lines).stray with
    | none => rfl
    | some line =>
      rw [hsome] at hstray
      exact absurd List.mem_cons_self (hstray .missingIf)
  · obtain ⟨encoded, hencoded, hencode⟩ := Outcome.mem_mapM_ok hblocks hblock
    exact (Block.isWhole_of_faultless (hcodes encoded hencoded)).of_encode hencode

-- --------------------
-- Blocks as rules
-- --------------------

theorem Rule.exists_body {lines : List (BodyLine σ)} (h : ∀ line ∈ lines, line ≠ .response none) :
    ∃ (actions : List σ) (responses : List (Text × List σ)),
      lines = actions.map .action ++ body responses := by
  induction lines with
  | nil => exact ⟨[], [], rfl⟩
  | cons line lines ih =>
    obtain ⟨actions, responses, rfl⟩ := ih fun line hmem => h line (by simp [hmem])
    cases line with
    | response weight =>
      cases weight with
      | none => exact absurd rfl (h (.response none) (by simp))
      | some weight => exact ⟨[], (weight, actions) :: responses, rfl⟩
    | action statement => exact ⟨statement :: actions, responses, rfl⟩

theorem Block.IsWhole.exists_rule {block : Block σ} (h : block.IsWhole)
    (hfirst : ∀ line ∈ block.body.head?, line.2.isAction = false) :
    ∃ rule : Rule σ Text σ, rule.toBlock = block.plain ∧
      rule.triggers = block.triggers.map Prod.snd ∧
      Rule.body rule.responses = block.body.map Prod.snd := by
  obtain ⟨actions, responses, hbody⟩ := @Rule.exists_body σ (block.body.map Prod.snd) (by
    simpa using fun line number hmem => h.weight (number, line) hmem)
  obtain rfl : actions = [] := by
    cases actions with
    | nil => rfl
    | cons action actions =>
      obtain ⟨line, rest, hlines, hline, -⟩ := List.map_eq_cons_iff.mp hbody
      have hresponse := hfirst line (by simp [hlines])
      rw [hline] at hresponse
      cases hresponse
  obtain ⟨thenLine, hthen⟩ := Option.isSome_iff_exists.mp h.thenLine
  obtain ⟨endLine, hend⟩ := Option.isSome_iff_exists.mp h.endLine
  have hbody : block.body.map Prod.snd = Rule.body responses := hbody
  refine ⟨⟨block.triggers.map Prod.snd, responses⟩, ?_, rfl, hbody.symm⟩
  simp [Rule.toBlock, plain, hthen, hend, ← hbody, Function.comp_def]

theorem Outline.mem_lines_of_mem_blocks {lines : List Line} (h : block ∈ (ofLines lines).blocks) :
    (∀ trigger ∈ block.triggers, ∃ line ∈ lines, line.text = trigger.2) ∧
      ∀ found ∈ block.body, ∃ line ∈ lines, BodyLine.ofText line.text = found.2 := by
  fun_induction ofLines lines with
  | case1 => cases h
  | case2 line lines hline => cases h
  | case3 line lines hline read outline ih =>
    obtain ⟨hfirst, hrest⟩ := Line.mem_of_mem_upTo "THEN" lines
    obtain ⟨hbody, hafter⟩ := Line.mem_of_mem_upTo "END" (Line.upTo "THEN" lines).2.2
    rcases List.mem_cons.mp h with rfl | h
    · refine ⟨fun trigger hmem => ?_, fun found hmem => ?_⟩
      · obtain ⟨line, hline, rfl⟩ := List.mem_map.mp hmem
        exact ⟨line, List.mem_cons_of_mem _ (hfirst line hline), rfl⟩
      · obtain ⟨line, hline, rfl⟩ := List.mem_map.mp hmem
        exact ⟨line, List.mem_cons_of_mem _ (hrest line (hbody line hline)), rfl⟩
    · have hleft : ∀ left ∈ read.2, left ∈ line :: lines := fun left hmem =>
        List.mem_cons_of_mem _ (hrest left (hafter left hmem))
      obtain ⟨htriggers, hlines⟩ := ih h
      refine ⟨fun trigger hmem => ?_, fun found hmem => ?_⟩
      · obtain ⟨left, hmem, htext⟩ := htriggers trigger hmem
        exact ⟨left, hleft left hmem, htext⟩
      · obtain ⟨left, hmem, htext⟩ := hlines found hmem
        exact ⟨left, hleft left hmem, htext⟩

theorem Source.newline_notMem_listing {source : Source}
    (hlines : ∀ line ∈ source.physicalLines, '\n' ∉ line) :
    ∀ line ∈ source.listing.lines, '\n' ∉ line.text := by
  intro line hline
  have htext : line.text ∈ source.statements := List.mem_map_of_mem hline
  rw [Source.statements_eq] at htext
  obtain ⟨said, hsaid, hstatement⟩ := List.mem_map.mp (List.mem_filter.mp htext).1
  obtain ⟨htrim, -⟩ := Source.trim_saidLine hsaid
  intro hmem
  rw [← hstatement] at hmem
  exact Source.newline_notMem hsaid hlines ((Text.statement_isPrefix htrim).subset hmem)

-- --------------------
-- Readable blocks
-- --------------------

def BodyLine.IsReadable (symbols : Symbols) (profile : Profile) : BodyLine Text → Prop
  | .response weight => ∀ text ∈ weight, Text.IsNumeral text ∧ Text.FewDigits text
  | .action statement => Action.Plain symbols profile statement

/-- The statements of the block are plain, its weights are numbers, and it has no action
before its first response. -/
structure Block.IsReadable (symbols : Symbols) (profile : Profile) (block : Block Text) :
    Prop where
  trigger : ∀ trigger ∈ block.triggers, Trigger.Plain symbols profile trigger.2
  first : ∀ line ∈ block.body.head?, line.2.isAction = false
  body : ∀ line ∈ block.body, line.2.IsReadable symbols profile

instance {line : BodyLine Text} : Decidable (line.IsReadable symbols profile) :=
  match line with
  | .response weight => inferInstanceAs (Decidable (∀ text ∈ weight, _))
  | .action statement => inferInstanceAs (Decidable (Action.Plain symbols profile statement))

instance {block : Block Text} : Decidable (block.IsReadable symbols profile) :=
  decidable_of_iff (_ ∧ _ ∧ _) ⟨fun ⟨trigger, first, body⟩ => ⟨trigger, first, body⟩,
    fun ⟨trigger, first, body⟩ => ⟨trigger, first, body⟩⟩

structure Rule.IsReadable (symbols : Symbols) (profile : Profile) (rule : Rule Text Text Text) :
    Prop where
  trigger : ∀ trigger ∈ rule.triggers, '\n' ∉ trigger ∧ Trigger.Plain symbols profile trigger
  weight : ∀ response ∈ rule.responses,
    Text.IsNumeral response.1 ∧ Text.FewDigits response.1
  action : ∀ response ∈ rule.responses, ∀ action ∈ response.2,
    '\n' ∉ action ∧ Action.Plain symbols profile action

theorem Rule.mem_body {responses : List (Text × List σ)} (h : response ∈ responses) :
    .response (some response.1) ∈ body responses ∧
      ∀ action ∈ response.2, .action action ∈ body responses := by
  refine ⟨List.mem_flatMap.mpr ⟨response, h, by simp⟩, fun action haction => ?_⟩
  exact List.mem_flatMap.mpr ⟨response, h, by simp [haction]⟩

theorem Block.IsReadable.rule {block : Block Text} {rule : Rule Text Text Text}
    (h : block.IsReadable symbols profile) (hmem : block ∈ (Outline.ofLines lines).blocks)
    (hlines : ∀ line ∈ lines, '\n' ∉ line.text)
    (htriggers : rule.triggers = block.triggers.map Prod.snd)
    (hbody : Rule.body rule.responses = block.body.map Prod.snd) :
    rule.IsReadable symbols profile := by
  obtain ⟨htriggerLines, hbodyLines⟩ := Outline.mem_lines_of_mem_blocks hmem
  have hfound : ∀ line ∈ Rule.body rule.responses, line.IsReadable symbols profile ∧
      ∃ source ∈ lines, BodyLine.ofText source.text = line := by
    intro line hline
    rw [hbody] at hline
    obtain ⟨found, hmem, rfl⟩ := List.mem_map.mp hline
    exact ⟨h.body found hmem, hbodyLines found hmem⟩
  refine ⟨fun trigger htrigger => ?_, fun response hresponse => ?_,
    fun response hresponse action haction => ?_⟩
  · rw [htriggers] at htrigger
    obtain ⟨found, hmem, rfl⟩ := List.mem_map.mp htrigger
    obtain ⟨line, hline, htext⟩ := htriggerLines found hmem
    exact ⟨htext ▸ hlines line hline, h.trigger found hmem⟩
  · exact (hfound _ (Rule.mem_body hresponse).1).1 response.1 rfl
  · obtain ⟨hplain, line, hline, htext⟩ := hfound _ ((Rule.mem_body hresponse).2 action haction)
    unfold BodyLine.ofText at htext
    split at htext
    · cases htext
    · cases htext
      exact ⟨hlines line hline, hplain⟩

/-- A source of readable blocks that compiles without an error is a list of rules. -/
theorem Outline.exists_rules (hcompile : compile symbols profile source = .ok compiled)
    (herrors : compiled.errors.isEmpty) (hlines : ∀ line ∈ source.physicalLines, '\n' ∉ line)
    (hblocks : ∀ block ∈ (ofLines source.listing.lines).blocks, block.IsReadable symbols profile) :
    ∃ rules : List (Rule Text Text Text),
      ofLines (source.statements.map Line.bare) = ⟨rules.map Rule.toBlock, none⟩ ∧
      rules.map Rule.shape = (ofLines source.listing.lines).blocks.map Block.shape ∧
      ∀ rule ∈ rules, rule.IsReadable symbols profile := by
  obtain ⟨hstray, hwhole⟩ := isWhole_of_compile hcompile herrors
  have hfree := Source.newline_notMem_listing hlines
  have hrules : ∀ blocks ⊆ (ofLines source.listing.lines).blocks,
      ∃ rules : List (Rule Text Text Text), rules.map Rule.toBlock = blocks.map Block.plain ∧
        ∀ rule ∈ rules, rule.IsReadable symbols profile := by
    intro blocks hsub
    induction blocks with
    | nil => exact ⟨[], rfl, by simp⟩
    | cons block blocks ih =>
      obtain ⟨hblock, hothers⟩ := List.cons_subset.mp hsub
      obtain ⟨rules, htoBlock, hreadable⟩ := ih hothers
      obtain ⟨rule, hrule, htriggers, hbody⟩ :=
        (hwhole block hblock).exists_rule (hblocks block hblock).first
      have hfirst := (hblocks block hblock).rule hblock hfree htriggers hbody
      exact ⟨rule :: rules, by simp [hrule, htoBlock], by simpa [hfirst] using hreadable⟩
  obtain ⟨rules, htoBlock, hreadable⟩ := hrules _ (List.Subset.refl _)
  refine ⟨rules, ?_, ?_, hreadable⟩
  · rw [map_bare_statements, ofLines_plain, htoBlock, plain, hstray]
    rfl
  · have hshapes := congrArg (List.map Block.shape) htoBlock
    simpa [Rule.shape_toBlock, Block.shape_plain, Function.comp_def] using hshapes

-- --------------------
-- Rules that are read back
-- --------------------

/-- Every statement of the rule says a function of its table. -/
structure Rule.Says (symbols : Symbols) (rule : Rule Text Int Text) : Prop where
  trigger : ∀ trigger ∈ rule.triggers,
    Trigger.Says symbols (fun argument => '\n' ∉ argument) trigger
  action : ∀ response ∈ rule.responses, ∀ action ∈ response.2,
    Action.Says symbols (fun argument => '\n' ∉ argument) action

theorem forall_of_map_true {xs : List α} {ys : List β} {P : α → Prop}
    (h : xs.map P = ys.map fun _ => True) : ∀ x ∈ xs, P x := by
  intro x hx
  have htrue : P x ∈ xs.map P := List.mem_map_of_mem hx
  rw [h] at htrue
  obtain ⟨_, -, htrue⟩ := List.mem_map.mp htrue
  exact htrue ▸ trivial

theorem Rule.forall_of_map_true {rule : Rule τ ω α} {rule' : Rule τ' ω' α'} {P : τ → Prop}
    {Q : α → Prop} (h : rule.map P f Q = rule'.map (fun _ => True) g (fun _ => True)) :
    (∀ trigger ∈ rule.triggers, P trigger) ∧
      ∀ response ∈ rule.responses, ∀ action ∈ response.2, Q action := by
  obtain ⟨htriggers, hresponses⟩ := Rule.mk.inj h
  refine ⟨InfinityScript.forall_of_map_true htriggers, fun response hresponse => ?_⟩
  have hactions : (f response.1, response.2.map Q) ∈
      rule.responses.map fun response => (f response.1, response.2.map Q) :=
    List.mem_map_of_mem hresponse
  rw [hresponses] at hactions
  obtain ⟨found, -, hfound⟩ := List.mem_map.mp hactions
  exact InfinityScript.forall_of_map_true (Prod.mk.inj hfound).2.symm

theorem Trigger.Says.parenthesis_mem {A : Text → Prop} (h : Says symbols A text) : '(' ∈ text := by
  obtain ⟨entry, negated, arguments, comment, -, -, rfl⟩ := h
  cases comment <;> simp [Comment.append, callText]

theorem Action.Says.parenthesis_mem {A : Text → Prop} (h : Says symbols A text) : '(' ∈ text := by
  obtain ⟨entry, actor, arguments, comment, -, -, -, rfl⟩ := h
  cases comment <;> split <;> simp [Comment.append, callText]

namespace Rule.Says

variable {symbols : Symbols} {rule : Rule Text Int Text}

theorem newline_notMem (hread : symbols.Made Entry.IsRead) (h : rule.Says symbols) :
    ∀ line ∈ rule.lines, '\n' ∉ line := by
  refine forall_lines (by decide) (by decide) (by decide) (fun n => ?_) (fun trigger hmem => ?_)
    fun response hresponse action hmem => ?_
  · simp [Text.newline_notMem_ofInt]
  · exact (h.trigger trigger hmem).newline_notMem hread
  · exact (h.action response hresponse action hmem).newline_notMem hread

theorem trim_ne_nil (h : rule.Says symbols) : ∀ line ∈ rule.lines, Text.trim line ≠ [] := by
  have hcall : ∀ {line}, '(' ∈ line → Text.trim line ≠ [] := fun hmem hnil =>
    absurd (Text.trim_eq_nil_iff.mp hnil '(' hmem) (by decide)
  refine forall_lines (by decide) (by decide) (by decide) (fun n => ?_) (fun trigger hmem => ?_)
    fun response hresponse action hmem => ?_
  · rw [trim_response]
    simp
  · exact hcall (h.trigger trigger hmem).parenthesis_mem
  · exact hcall (h.action response hresponse action hmem).parenthesis_mem

end Rule.Says

theorem Rule.IsReadable.exists_readable {decompiler : Decompiler} {rule : Rule Text Text Text}
    {encoded : Rule Encoded Text Encoded}
    (h : rule.IsReadable decompiler.symbols decompiler.profile)
    (hprofile : decompiler.profile.Regular) (hread : decompiler.symbols.Made Entry.IsRead)
    (hsound : decompiler.symbols.Sound)
    (hencoded : rule.map (Encoded.trigger decompiler.symbols decompiler.profile) id
      (Encoded.action decompiler.symbols decompiler.profile) = encoded.map .ok id .ok)
    (htrigger : ∀ trigger ∈ encoded.triggers, Faultless trigger.remarks)
    (haction : ∀ response ∈ encoded.responses, ∀ action ∈ response.2, Faultless action.remarks) :
    ∃ readable : ReadableRule decompiler,
      readable.map Chunk.text Weight.text Chunk.text = encoded.map Encoded.text id Encoded.text ∧
      readable.read.shape = rule.shape ∧ readable.read.Says decompiler.symbols ∧
      ∀ trigger ∈ readable.read.triggers, (Decompiler.orCount trigger).isOk := by
  obtain ⟨readable, htext, hknown⟩ : ∃ readable : ReadableRule decompiler,
      readable.map Chunk.text Weight.text Chunk.text = encoded.map Encoded.text id Encoded.text ∧
      readable.map (fun chunk =>
          Trigger.Says decompiler.symbols (fun text => '\n' ∉ text) chunk.line.text ∧
            (Decompiler.orCount chunk.line.text).isOk) Weight.text
        (fun chunk => Action.Says decompiler.symbols (fun text => '\n' ∉ text) chunk.line.text) =
          rule.map (fun _ => True) id (fun _ => True) := by
    refine exists_readableRule_map hencoded h.weight ?_ ?_
    · intro line hline record hrecord hencode
      obtain ⟨hnewline, hplain⟩ := h.trigger line hline
      obtain ⟨⟨text, n⟩, remarks, hsucceeds, rfl⟩ :=
        Encoded.settle_faultless (fun _ _ => rfl) hencode (htrigger record hrecord)
      obtain ⟨chunk, hchunk, hsaid⟩ :=
        Trigger.exists_chunk hprofile hread hsound hnewline hplain hsucceeds
      exact ⟨chunk, hchunk, eq_true hsaid⟩
    · intro response hresponse line hline response' hresponse' record hrecord hencode
      obtain ⟨hnewline, hplain⟩ := h.action response hresponse line hline
      obtain ⟨text, remarks, hsucceeds, rfl⟩ := Encoded.settle_faultless (fun _ _ => rfl) hencode
        (haction response' hresponse' record hrecord)
      obtain ⟨chunk, hchunk, hsaid⟩ :=
        Action.exists_chunk hprofile hread hsound hnewline hplain hsucceeds
      exact ⟨chunk, hchunk, eq_true hsaid⟩
  obtain ⟨htriggers, hactions⟩ := forall_of_map_true hknown
  have hshape := congrArg shape hknown
  simp only [shape_map] at hshape
  refine ⟨readable, htext, ?_, ⟨?_, ?_⟩, ?_⟩
  · rw [ReadableRule.read, shape_map, hshape]
  · intro _ hmem
    obtain ⟨chunk, hchunk, rfl⟩ := List.mem_map.mp hmem
    exact (htriggers chunk hchunk).1
  · intro _ hmem _ hmem'
    obtain ⟨response, hresponse, rfl⟩ := List.mem_map.mp hmem
    obtain ⟨chunk, hchunk, rfl⟩ := List.mem_map.mp hmem'
    exact hactions response hresponse chunk hchunk
  · intro _ hmem
    obtain ⟨chunk, hchunk, rfl⟩ := List.mem_map.mp hmem
    exact (htriggers chunk hchunk).2

-- --------------------
-- Scripts that are read back
-- --------------------

/-- From the code of a script that compiles without an error, and whose blocks are readable,
come the same blocks again: as many triggers, and responses and actions in the same order,
all of them calls of functions. -/
theorem decompile_compile_shape {decompiler : Decompiler} {source : Source} {compiled : Compiled}
    {game : Game} (collect : Bool) (hprofile : decompiler.profile = .ofGame game)
    (hindent : IsIndent decompiler.indent) (hread : decompiler.symbols.IsRead)
    (hsound : decompiler.symbols.Sound) (hlines : ∀ line ∈ source.physicalLines, '\n' ∉ line)
    (hblocks : ∀ block ∈ (Outline.ofLines source.listing.lines).blocks,
      block.IsReadable decompiler.symbols decompiler.profile)
    (hcompile : compile decompiler.symbols decompiler.profile source = .ok compiled)
    (herrors : compiled.errors.isEmpty) :
    ∃ decompiled, decompiler.decompile compiled.code collect = .ok decompiled ∧
      ∃ rules : List (Rule Text Int Text),
        (Source.text decompiled.source).saidLines =
          rules.flatMap (fun rule => rule.lines.map Text.trim) ∧
        rules.map Rule.shape =
          (Outline.ofLines source.listing.lines).blocks.map Block.shape ∧
        ∀ rule ∈ rules, rule.Says decompiler.symbols := by
  have hregular : decompiler.profile.Regular := hprofile ▸ Profile.regular_ofGame game
  obtain ⟨rules, houtline, hshapes, hrules⟩ :=
    Outline.exists_rules hcompile herrors hlines hblocks
  obtain ⟨encoded, hcode, hencoded, hfaultless⟩ :=
    exists_encodedRules_of_outline houtline hcompile herrors
  obtain ⟨readable, htext, hknown⟩ : ∃ readable : List (ReadableRule decompiler),
      readable.map (Rule.map Chunk.text Weight.text Chunk.text) =
        encoded.map (Rule.map Encoded.text id Encoded.text) ∧
      readable.map (fun rule => (rule.read.shape, rule.read.Says decompiler.symbols ∧
          ∀ trigger ∈ rule.read.triggers, (Decompiler.orCount trigger).isOk)) =
        rules.map fun rule => (rule.shape, True) := by
    refine exists_map_eq hencoded fun rule hrule records hrecords h => ?_
    obtain ⟨htriggers, hactions⟩ := hfaultless records hrecords
    obtain ⟨readable, htext, hshape, hsaid⟩ :=
      (hrules rule hrule).exists_readable hregular hread.made hsound h htriggers hactions
    exact ⟨readable, htext, Prod.ext hshape (eq_true hsaid)⟩
  have hshape : readable.map (fun rule => rule.read.shape) = rules.map Rule.shape := by
    simpa [Function.comp_def] using congrArg (List.map Prod.fst) hknown
  have hsaid : ∀ rule ∈ readable, rule.read.Says decompiler.symbols ∧
      ∀ trigger ∈ rule.read.triggers, (Decompiler.orCount trigger).isOk := by
    have htrue := congrArg (List.map Prod.snd) hknown
    rw [List.map_map, List.map_map] at htrue
    exact forall_of_map_true htrue
  obtain ⟨lines, hdecompile, hsaidLines, hfree⟩ := Decompiler.decompile_readableRules hindent
    (fun rule hrule => (hsaid rule hrule).2)
    (fun rule hrule => (hsaid rule hrule).1.newline_notMem hread.made) collect
  rw [htext, ← hcode] at hdecompile
  have hrules : ∀ rule ∈ readable.map ReadableRule.read, rule.Says decompiler.symbols := by
    simpa using fun rule hrule => (hsaid rule hrule).1
  refine ⟨_, hdecompile, readable.map ReadableRule.read, ?_, ?_, hrules⟩
  · rw [Source.saidLines, Source.physicalLines, Decompiled.ofLines,
      Text.physicalLines_ofLines (by simpa using hfree), List.map_map,
      ← Rule.filter_trim_lines fun rule hrule => (hrules rule hrule).trim_ne_nil, List.flatMap_map]
    exact congrArg _ hsaidLines
  · rw [List.map_map, ← hshapes]
    exact hshape

theorem decompile_compile_shape_sample :
    let decompiler : Decompiler := ⟨.build [
      (Table.read "TRIGGER" "0x4089 OR(I:OrCount*)\n0x401C See(O:Object*)\n0x4023 True()").value,
      (Table.read "ACTION" ("1 ActionOverride(O:Actor*,A:Action*)\n23 MoveToPoint(P:Point*)\n" ++
        "30 SetGlobal(S:Name*,S:Area*,I:Value*)")).value] [] [] [] none, .ofGame .none, "\t"⟩
    let source : Text := "IF\nOR(2)\nSee([0.1])\n!True()\nTHEN\nRESPONSE #100\n" ++
      "ActionOverride(\"bob\",MoveToPoint([1.2]))\nSetGlobal(\"x\",\"GLOBAL\",0x10)\n" ++
      "RESPONSE #-1\nEND\n\nIF\nTHEN\nEND\n"
    ∃ compiled, compile decompiler.symbols decompiler.profile (.text source) = .ok compiled ∧
      compiled.errors.isEmpty ∧
      ∃ decompiled, decompiler.decompile compiled.code true = .ok decompiled ∧
        ∃ rules : List (Rule Text Int Text),
          (Source.text decompiled.source).saidLines =
            rules.flatMap (fun rule => rule.lines.map Text.trim) ∧
          rules.map Rule.shape = [(3, [false, true, true, false]), (0, [])] ∧
          ∀ rule ∈ rules, rule.Says decompiler.symbols := by
  intro decompiler source
  have hprofile : decompiler.profile = .ofGame .none := rfl
  have hread : decompiler.symbols.IsRead := by
    refine ⟨_, _, _, _, _, rfl, fun table hmem => ?_⟩
    simp only [List.mem_cons, List.not_mem_nil, or_false] at hmem
    rcases hmem with rfl | rfl
    · exact ⟨_, _, rfl⟩
    · exact ⟨_, _, rfl⟩
  have hsound : decompiler.symbols.Sound := by decide +kernel
  have hindent : IsIndent decompiler.indent := by
    unfold IsIndent
    decide
  have hlines : ∀ line ∈ (Source.text source).physicalLines, '\n' ∉ line := by decide +kernel
  have hblocks : ∀ block ∈ (Outline.ofLines (Source.text source).listing.lines).blocks,
      block.IsReadable decompiler.symbols decompiler.profile := by decide +kernel
  obtain ⟨compiled, hcompile, herrors⟩ := Outcome.exists_of_any (by decide +kernel :
    (compile decompiler.symbols decompiler.profile (.text source)).toOption.any (·.errors.isEmpty))
  obtain ⟨decompiled, hdecompile, rules, hsaid, hshapes, hrules⟩ :=
    decompile_compile_shape true hprofile hindent hread hsound hlines hblocks hcompile herrors
  refine ⟨compiled, hcompile, herrors, decompiled, hdecompile, rules, hsaid, ?_, hrules⟩
  rw [hshapes]
  decide +kernel

/-- A point of three components is compiled without an error, but its record cannot be
read: the whole block comes out as an error. -/
theorem decompile_compile_point :
    let decompiler : Decompiler :=
      ⟨.build [(Table.read "ACTION" "23 MoveToPoint(P:Point*)").value] [] [] [] none,
        .ofGame .none, "\t"⟩
    let source : Text := "IF\nTHEN\n\tRESPONSE #100\n\t\tMoveToPoint([1.2.3])\nEND\n\n"
    ∃ compiled, compile decompiler.symbols decompiler.profile (.text source) = .ok compiled ∧
      compiled.errors.isEmpty ∧
      ∃ decompiled, decompiler.decompile compiled.code true = .ok decompiled ∧
        decompiled.source = "Error - Expected AC but found `0`\n\n".toList := by
  intro decompiler source
  obtain ⟨compiled, hcompile, htest⟩ := Outcome.exists_of_any (by decide +kernel :
    (compile decompiler.symbols decompiler.profile (.text source)).toOption.any fun compiled =>
      compiled.errors.isEmpty && (decompiler.decompile compiled.code true).toOption.any
        fun decompiled => decompiled.source = "Error - Expected AC but found `0`\n\n".toList)
  obtain ⟨herrors, htest⟩ := Bool.and_eq_true_iff.mp htest
  obtain ⟨decompiled, hdecompile, hsource⟩ := Outcome.exists_of_any htest
  exact ⟨compiled, hcompile, herrors, decompiled, hdecompile, of_decide_eq_true hsource⟩

end InfinityScript
