import InfinityScript.Proofs.Diagnostics
import InfinityScript.Proofs.Encoding
import InfinityScript.Proofs.Script.Layout
import InfinityScript.Proofs.Script.Rules

/-!
# Scripts without faults

A script that compiles without an error is a list of rules, and its code is the code
of the rules (`Outline.value_code`); the statements of rules are read back into them
(`Rule.ofLines_statements`).
-/

namespace InfinityScript

@[simp] theorem Fault.leaveIf_false : Fault.leaveIf false fault line = pure [] := rfl

namespace Noted

def Faultless (x : Findings α) : Prop := InfinityScript.Faultless x.remarked.2

theorem faultless_bind {x : Findings α} {f : α → Findings β} :
    (x >>= f).Faultless ↔ x.Faultless ∧ (f x.value).Faultless := by
  show InfinityScript.Faultless ((x.notes ++ (f x.value).notes).map Finding.remark) ↔ _
  rw [List.map_append, faultless_append]
  rfl

theorem faultless_pure (value : α) : (pure value : Findings α).Faultless := by
  simp [Faultless, InfinityScript.Faultless, remarked]

theorem faultless_map {x : Findings α} (f : α → β) : (f <$> x).Faultless ↔ x.Faultless := by
  rw [Faultless, Faultless, remarked, remarked, notes_map]

theorem faultless_leaveIf : (Fault.leaveIf present fault line).Faultless ↔ present = false := by
  cases present with
  | false => simpa using faultless_pure ([] : Text)
  | true => simp [Fault.leaveIf, Fault.leaveAt, Faultless, InfinityScript.Faultless, remarked]

theorem faultless_onLine {encoded : Encoded} :
    (encoded.onLine line).Faultless ↔ InfinityScript.Faultless encoded.remarks := by
  simp [Faultless, remarked, Encoded.onLine, Function.comp_def]

theorem faultless_mapM {f : β → Findings α} {xs : List β} :
    (xs.mapM f).Faultless ↔ ∀ x ∈ xs, (f x).Faultless := by
  induction xs with
  | nil => simp [faultless_pure]
  | cons x xs ih =>
    simp only [List.mapM_cons, faultless_bind, ih, faultless_pure, and_true, List.mem_cons,
      forall_eq_or_imp]

end Noted

theorem Finding.faultless_of_isEmpty_errors {findings : Findings α}
    (h : (Finding.errors findings.notes).isEmpty) : findings.Faultless := by
  have hnil := Diagnostics.eq_nil_of_isEmpty_ofList h
  rw [List.filterMap_eq_nil_iff] at hnil
  intro fault hmem
  obtain ⟨finding, hfinding, hremark⟩ := List.mem_map.mp hmem
  have := hnil finding hfinding
  rw [hremark] at this
  cases this

-- --------------------
-- Code of blocks
-- --------------------

namespace Block

theorem value_triggerCode {triggers : List (Nat × Encoded)}
    (h : (triggerCode missing triggers).Faultless) :
    (triggerCode missing triggers).value.1 = triggers.flatMap (fun trigger => trigger.2.text) ∧
      ∀ trigger ∈ triggers, Faultless trigger.2.remarks := by
  induction triggers generalizing missing with
  | nil => simp [triggerCode]
  | cons trigger triggers ih =>
    obtain ⟨line, encoded⟩ := trigger
    simp only [triggerCode, Noted.faultless_bind, Noted.faultless_onLine,
      Noted.faultless_leaveIf] at h
    obtain ⟨hremarks, hnested, hrest, -⟩ := h
    obtain ⟨hvalue, hall⟩ := ih hrest
    refine ⟨?_, ?_⟩
    · simp [triggerCode, hnested, hvalue, Encoded.onLine]
    · simpa [hremarks] using hall

theorem value_conditionCode {block : Block Encoded} (h : (block.conditionCode length).Faultless) :
    block.thenLine.isSome ∧
      (block.conditionCode length).value =
        "CO\n" ++ block.triggers.flatMap (fun trigger => trigger.2.text) ++ "CO\n" ∧
      ∀ trigger ∈ block.triggers, Faultless trigger.2.remarks := by
  simp only [conditionCode, Noted.faultless_bind, Noted.faultless_leaveIf] at h
  obtain ⟨htriggers, hopened, hthen, -⟩ := h
  obtain ⟨hvalue, hall⟩ := value_triggerCode htriggers
  refine ⟨by simpa [Option.isNone_eq_false_iff] using hthen, ?_, hall⟩
  simp only [conditionCode, hopened, hthen, hvalue, Fault.leaveIf_false, Noted.value_bind,
    Noted.value_pure, List.append_nil]

theorem value_weightCode {weight : Option Text} (h : (weightCode line weight).Faultless) :
    weight = some (weightCode line weight).value := by
  cases weight with
  | some weight => rfl
  | none => exact absurd List.mem_cons_self (h .missingWeight)

theorem value_bodyCode_actions {actions : List Encoded} {rest : List (Nat × BodyLine Encoded)}
    (h : (bodyCode first (actions.map (fun action => (0, .action action)) ++ rest)).Faultless) :
    (bodyCode first (actions.map (fun action => (0, .action action)) ++ rest)).value =
        actions.flatMap Encoded.text ++ (bodyCode first rest).value ∧
      (bodyCode first rest).Faultless ∧ ∀ action ∈ actions, Faultless action.remarks := by
  induction actions with
  | nil => exact ⟨rfl, h, by simp⟩
  | cons action actions ih =>
    simp only [List.map_cons, List.cons_append, bodyCode, Noted.faultless_bind,
      Noted.faultless_onLine] at h
    obtain ⟨hremarks, hrest, -⟩ := h
    obtain ⟨hvalue, hfaultless, hall⟩ := ih hrest
    refine ⟨?_, hfaultless, ?_⟩
    · simp only [List.map_cons, List.cons_append, bodyCode, Noted.value_bind, Noted.value_pure,
        hvalue, List.flatMap_cons, List.append_assoc]
      rfl
    · simpa [hremarks] using hall

end Block

-- --------------------
-- Rules as blocks
-- --------------------

namespace Rule

def body (responses : List (Text × List σ)) : List (BodyLine σ) :=
  responses.flatMap fun (weight, actions) => .response (some weight) :: actions.map .action

theorem body_cons (weight : Text) (actions : List σ) (responses : List (Text × List σ)) :
    body ((weight, actions) :: responses) =
      .response (some weight) :: (actions.map .action ++ body responses) := rfl

def toBlock (rule : Rule σ Text σ) : Block σ where
  triggers := rule.triggers.map fun trigger => (0, trigger)
  thenLine := some 0
  body := (body rule.responses).map fun line => (0, line)
  endLine := some 0

theorem value_bodyCode {responses : List (Text × List Encoded)}
    (h : (Block.bodyCode first ((body responses).map fun line => (0, line))).Faultless) :
    (Block.bodyCode first ((body responses).map fun line => (0, line))).value ++ "RE\n" =
        (if first then responsesCode (responses.map fun (weight, actions) =>
            (weight, actions.map Encoded.text))
          else ("RE\n" : Text) ++ responses.flatMap fun (weight, actions) =>
            responseCode (weight, actions.map Encoded.text)) ∧
      ∀ response ∈ responses, ∀ action ∈ response.2, Faultless action.remarks := by
  induction responses generalizing first with
  | nil => cases first <;> simp [body, Block.bodyCode, responsesCode]
  | cons response responses ih =>
    obtain ⟨weight, actions⟩ := response
    simp only [body_cons, List.map_cons, List.map_append, List.map_map, Function.comp_def,
      Block.bodyCode, Noted.faultless_bind] at h ⊢
    obtain ⟨-, hbody, -⟩ := h
    obtain ⟨hvalue, hrest, hactions⟩ := Block.value_bodyCode_actions hbody
    obtain ⟨hcode, hall⟩ := ih hrest
    refine ⟨?_, ?_⟩
    · simp only [Bool.false_eq_true, if_false] at hcode
      simp only [Noted.value_bind, Noted.value_pure, hvalue, Block.weightCode]
      rw [List.append_assoc, List.append_assoc, List.append_assoc, hcode]
      cases first <;>
        simp [responsesCode, responseCode, List.flatMap_def, Function.comp_def]
    · simpa using ⟨hactions, by simpa using hall⟩

/-- A block that compiles without faults has the code of its rule. -/
theorem value_code {rule : Rule Encoded Text Encoded} (h : (rule.toBlock.code length).Faultless) :
    (rule.toBlock.code length).value = (rule.map Encoded.text id Encoded.text).code ∧
      (∀ trigger ∈ rule.triggers, Faultless trigger.remarks) ∧
      ∀ response ∈ rule.responses, ∀ action ∈ response.2, Faultless action.remarks := by
  simp only [Block.code, Block.responseCode, Noted.faultless_bind] at h
  obtain ⟨hcondition, ⟨hbody, -, -⟩, -⟩ := h
  obtain ⟨-, hvalue, htriggers⟩ := Block.value_conditionCode hcondition
  obtain ⟨hcode, hactions⟩ := value_bodyCode hbody
  refine ⟨?_, by simpa [toBlock] using htriggers, hactions⟩
  have hresponse : (rule.toBlock.responseCode length).value =
      "RS\n" ++ responsesCode (rule.responses.map fun (weight, actions) =>
        (weight, actions.map Encoded.text)) ++ "RS\n" := by
    have hends : ("RE\nRS\n" : Text) = "RE\n" ++ ("RS\n" : Text) := rfl
    show "RS\n".toList ++ (Block.bodyCode true rule.toBlock.body).value ++ [] ++
      "RE\nRS\n".toList = _
    rw [List.append_nil, hends, ← List.append_assoc, List.append_assoc "RS\n".toList]
    exact congrArg (fun code : Text => "RS\n".toList ++ code ++ "RS\n".toList) hcode
  have htexts : rule.toBlock.triggers.flatMap (fun trigger => trigger.2.text) =
      (rule.triggers.map Encoded.text).flatten := by
    simp [toBlock, List.flatMap_def, Function.comp_def]
  show "CR\n".toList ++ (rule.toBlock.conditionCode length).value ++
    (rule.toBlock.responseCode length).value ++ "CR\n".toList = _
  rw [hvalue, hresponse, htexts]
  rfl

-- --------------------
-- Rules that are encoded
-- --------------------

theorem encode_actions {encode : σ → Except Halt τ} {actions : List σ} {lines : List (BodyLine τ)}
    (h : (actions.map .action).map (BodyLine.encode encode) = lines.map .ok) :
    ∃ encoded : List τ, lines = encoded.map .action ∧ actions.map encode = encoded.map .ok := by
  induction actions generalizing lines with
  | nil =>
    obtain rfl : lines = [] := by simpa using h.symm
    exact ⟨[], rfl, rfl⟩
  | cons action actions ih =>
    obtain ⟨line, lines, rfl, hline, hlines⟩ := List.map_eq_cons_iff.mp h.symm
    obtain ⟨first, hfirst, hpure⟩ := Outcome.bind_ok.mp hline.symm
    obtain rfl := Outcome.pure_ok.mp hpure
    obtain ⟨encoded, rfl, hencoded⟩ := ih hlines.symm
    exact ⟨first :: encoded, rfl, by rw [List.map_cons, hfirst, hencoded, List.map_cons]⟩

theorem encode_body {encode : σ → Except Halt τ} {responses : List (Text × List σ)}
    {lines : List (BodyLine τ)}
    (h : (body responses).map (BodyLine.encode encode) = lines.map .ok) :
    ∃ encoded, lines = body encoded ∧
      responses.map (fun (weight, actions) => (weight, actions.map encode)) =
        encoded.map fun (weight, actions) => (weight, actions.map .ok) := by
  induction responses generalizing lines with
  | nil =>
    obtain rfl : lines = [] := by simpa [body] using h.symm
    exact ⟨[], rfl, rfl⟩
  | cons response responses ih =>
    obtain ⟨weight, actions⟩ := response
    rw [body_cons, List.map_cons, List.map_append] at h
    obtain ⟨line, lines, rfl, hline, hlines⟩ := List.map_eq_cons_iff.mp h.symm
    obtain ⟨actionLines, others, rfl, hactions, hothers⟩ := List.map_eq_append_iff.mp hlines
    obtain ⟨first, rfl, hfirst⟩ := encode_actions hactions.symm
    obtain ⟨encoded, rfl, hencoded⟩ := ih hothers.symm
    obtain rfl : .response (some weight) = line := Outcome.pure_ok.mp hline.symm
    refine ⟨(weight, first) :: encoded, rfl, ?_⟩
    simp only [List.map_cons, hfirst, hencoded]

theorem eq_of_unnumbered {lines : List (Nat × α)} {others : List β}
    (h : lines.map Prod.fst = (others.map fun other => (0, other)).map Prod.fst) :
    (lines.map Prod.snd).map (fun line => (0, line)) = lines := by
  rw [List.map_map]
  refine (List.map_congr_left fun line hmem => ?_).trans (List.map_id _)
  have hnumber : line.1 ∈ lines.map Prod.fst := List.mem_map_of_mem hmem
  rw [h] at hnumber
  obtain ⟨number, hnumber, hline⟩ := List.mem_map.mp hnumber
  obtain ⟨_, -, rfl⟩ := List.mem_map.mp hnumber
  exact Prod.ext hline rfl

theorem encode_toBlock {rule : Rule Text Text Text} {block : Block Encoded}
    (h : rule.toBlock.encode symbols profile = .ok block) :
    ∃ encoded : Rule Encoded Text Encoded, block = encoded.toBlock ∧
      rule.map (Encoded.trigger symbols profile) id (Encoded.action symbols profile) =
        encoded.map .ok id .ok := by
  obtain ⟨triggers, htriggers, h⟩ := Outcome.bind_ok.mp h
  obtain ⟨lines, hlines, h⟩ := Outcome.bind_ok.mp h
  obtain rfl := Outcome.pure_ok.mp h
  obtain ⟨hnumbers, htriggers⟩ := Block.encodeEach_ok.mp htriggers
  obtain ⟨hnumbers', hlines⟩ := Block.encodeEach_ok.mp hlines
  have hlines : (body rule.responses).map (BodyLine.encode (Encoded.action symbols profile)) =
      (lines.map Prod.snd).map .ok := by
    simpa [toBlock, Function.comp_def] using hlines
  obtain ⟨responses, hbody, hresponses⟩ := encode_body hlines
  refine ⟨⟨triggers.map Prod.snd, responses⟩, ?_, ?_⟩
  · simp only [toBlock, ← hbody, eq_of_unnumbered hnumbers, eq_of_unnumbered hnumbers']
  · simp only [map, hresponses, id, List.map_map, Rule.mk.injEq, and_true]
    simpa [toBlock, Function.comp_def] using htriggers

end Rule

theorem Outline.value_code {rules : List (Rule Encoded Text Encoded)}
    (h : (Outline.code length (rules.map Rule.toBlock) none).Faultless) :
    (Outline.code length (rules.map Rule.toBlock) none).value =
        scriptCode (rules.map (Rule.map Encoded.text id Encoded.text)) ∧
      ∀ rule ∈ rules, (∀ trigger ∈ rule.triggers, Faultless trigger.remarks) ∧
        ∀ response ∈ rule.responses, ∀ action ∈ response.2, Faultless action.remarks := by
  have hrules : ∀ rule ∈ rules, (rule.toBlock.code length).Faultless := by
    have hcodes := (Noted.faultless_bind.mp h).1
    rw [Noted.faultless_mapM] at hcodes
    exact fun rule hrule => hcodes _ (List.mem_map_of_mem hrule)
  refine ⟨?_, fun rule hrule => (Rule.value_code (hrules rule hrule)).2⟩
  have hcodes : (rules.map Rule.toBlock).map (fun block => (block.code length).value) =
      (rules.map (Rule.map Encoded.text id Encoded.text)).map Rule.code := by
    rw [List.map_map, List.map_map]
    exact List.map_congr_left fun rule hrule => (Rule.value_code (hrules rule hrule)).1
  show "SC\n".toList ++ ((rules.map Rule.toBlock).mapM (Block.code length)).value.flatten ++
    "SC\n".toList = _
  rw [Noted.mapM_eq, hcodes]
  rfl

theorem exists_map_eq {xs : List α} {ys : List β} {f : α → γ} {g : β → γ} {p : ζ → δ} {k : β → δ}
    {q : ζ → ε} {m : α → ε} (h : xs.map f = ys.map g)
    (hz : ∀ x ∈ xs, ∀ y ∈ ys, f x = g y → ∃ z, p z = k y ∧ q z = m x) :
    ∃ zs : List ζ, zs.map p = ys.map k ∧ zs.map q = xs.map m := by
  induction xs generalizing ys with
  | nil =>
    obtain rfl : ys = [] := by simpa using h.symm
    exact ⟨[], rfl, rfl⟩
  | cons x xs ih =>
    obtain ⟨y, ys, rfl, hy, hys⟩ := List.map_eq_cons_iff.mp h.symm
    obtain ⟨z, hz₁, hz₂⟩ := hz x (by simp) y (by simp) hy.symm
    obtain ⟨zs, hzs₁, hzs₂⟩ := ih hys.symm fun x hx y hy => hz x (by simp [hx]) y (by simp [hy])
    exact ⟨z :: zs, by simp [hz₁, hzs₁], by simp [hz₂, hzs₂]⟩

-- --------------------
-- Rules in a source
-- --------------------

theorem Line.upTo_append {word : Text} {before : List Line} {line : Line}
    (hbefore : ∀ line ∈ before, Text.upper line.text ≠ word) (hline : Text.upper line.text = word)
    (after : List Line) :
    Line.upTo word (before ++ line :: after) = (before, some line.number, after) := by
  induction before with
  | nil => rw [List.nil_append, Line.upTo, if_pos hline]
  | cons first before ih =>
    rw [List.cons_append, Line.upTo, if_neg (hbefore first (by simp)),
      ih fun line hmem => hbefore line (by simp [hmem])]

namespace Rule

def statements (rule : Rule Text Text Text) : List Text :=
  "IF".toList :: (rule.triggers ++ "THEN".toList :: (rule.responses.flatMap (fun (weight, actions) =>
    ("RESPONSE #".toList ++ weight) :: actions) ++ ["END".toList]))

/-- The statements of the rule stand where they belong: no trigger is a THEN, no
action an END or a RESPONSE, and weights have no blanks around them. -/
structure InPlace (rule : Rule Text Text Text) : Prop where
  trigger : ∀ trigger ∈ rule.triggers, Text.upper trigger ≠ "THEN"
  weight : ∀ response ∈ rule.responses, Text.trim response.1 = response.1
  action : ∀ response ∈ rule.responses, ∀ action ∈ response.2, Text.upper action ≠ "END" ∧
    Text.upper (action.take 8) ≠ "RESPONSE"

theorem ofText_response (h : Text.trim weight = weight) :
    BodyLine.ofText ("RESPONSE #" ++ weight) = .response (some weight) := by
  have htake : ("RESPONSE #".toList ++ weight).take 8 = "RESPONSE".toList := rfl
  have hupper : Text.upper "RESPONSE".toList = "RESPONSE".toList := by decide
  rw [BodyLine.ofText, htake, if_pos hupper]
  have hcut : Text.cut? '#' ("RESPONSE ".toList ++ '#' :: weight) =
      some ("RESPONSE ".toList, weight) := Text.cut?_append (by decide) weight
  show BodyLine.response ((Text.cut? '#' ("RESPONSE ".toList ++ '#' :: weight)).map _) = _
  simp only [hcut, Option.map_some, h]

theorem upper_response_ne (weight : Text) : Text.upper ("RESPONSE #" ++ weight) ≠ "END" := by
  rw [Text.upper, List.flatMap_append]
  intro h
  exact absurd (List.cons.inj h).1 (by decide)

theorem body_statements {responses : List (Text × List Text)}
    (hweight : ∀ response ∈ responses, Text.trim response.1 = response.1)
    (haction : ∀ response ∈ responses, ∀ action ∈ response.2,
      Text.upper (action.take 8) ≠ "RESPONSE") :
    (responses.flatMap fun (weight, actions) => ("RESPONSE #".toList ++ weight) :: actions).map
      BodyLine.ofText = body responses := by
  induction responses with
  | nil => rfl
  | cons response responses ih =>
    obtain ⟨weight, actions⟩ := response
    have hactions : actions.map BodyLine.ofText = actions.map .action :=
      List.map_congr_left fun action hmem => by
        rw [BodyLine.ofText, if_neg (haction (weight, actions) (by simp) action hmem)]
    rw [List.flatMap_cons, List.map_append, List.map_cons, body_cons, hactions,
      ofText_response (hweight (weight, actions) (by simp)),
      ih (fun r hr => hweight r (by simp [hr])) (fun r hr => haction r (by simp [hr])),
      List.cons_append]

theorem readBlock_statements {rule : Rule Text Text Text} (h : rule.InPlace) (rest : List Line) :
    Outline.readBlock (rule.statements.tail.map Line.bare ++ rest) = (rule.toBlock, rest) := by
  have hbody : ∀ line ∈ (rule.responses.flatMap fun (weight, actions) =>
      ("RESPONSE #".toList ++ weight) :: actions).map Line.bare, Text.upper line.text ≠ "END" := by
    simp only [List.mem_map, List.mem_flatMap, List.mem_cons]
    rintro _ ⟨_, ⟨response, hresponse, rfl | haction⟩, rfl⟩
    · exact upper_response_ne _
    · exact (h.action response hresponse _ haction).1
  have htriggers : ∀ line ∈ rule.triggers.map Line.bare, Text.upper line.text ≠ "THEN" := by
    simp only [List.mem_map]
    rintro _ ⟨trigger, htrigger, rfl⟩
    exact h.trigger trigger htrigger
  simp only [statements, List.tail_cons, List.map_append, List.map_cons, List.map_nil,
    List.append_assoc, List.cons_append, List.nil_append, Outline.readBlock]
  rw [Line.upTo_append htriggers (by decide)]
  simp only
  rw [Line.upTo_append hbody (by decide)]
  have hlines := body_statements h.weight fun response hresponse action haction =>
    (h.action response hresponse action haction).2
  simp only [toBlock, ← hlines, List.map_map]
  rfl

theorem ofLines_statements {rules : List (Rule Text Text Text)}
    (h : ∀ rule ∈ rules, rule.InPlace) :
    Outline.ofLines ((rules.flatMap statements).map Line.bare) =
      ⟨rules.map toBlock, none⟩ := by
  induction rules with
  | nil => rw [List.flatMap_nil, List.map_nil, Outline.ofLines]; rfl
  | cons rule rules ih =>
    have hcons : (List.flatMap statements (rule :: rules)).map Line.bare =
        Line.bare "IF" :: (rule.statements.tail.map Line.bare ++
          (rules.flatMap statements).map Line.bare) := by
      rw [List.flatMap_cons, List.map_append]
      rfl
    rw [hcons, Outline.ofLines, if_neg (by decide)]
    simp only [readBlock_statements (h rule (by simp)), ih fun rule hmem => h rule (by simp [hmem])]
    rfl

end Rule

theorem exists_encodedRules_of_outline {rules : List (Rule Text Text Text)}
    (houtline : Outline.ofLines (source.statements.map Line.bare) = ⟨rules.map Rule.toBlock, none⟩)
    (hcompile : compile symbols profile source = .ok compiled)
    (herrors : compiled.errors.isEmpty) :
    ∃ encoded : List (Rule Encoded Text Encoded),
      compiled.code = scriptCode (encoded.map (Rule.map Encoded.text id Encoded.text)) ∧
      rules.map (Rule.map (Encoded.trigger symbols profile) id (Encoded.action symbols profile)) =
        encoded.map (Rule.map .ok id .ok) ∧
      ∀ rule ∈ encoded, (∀ trigger ∈ rule.triggers, Faultless trigger.remarks) ∧
        ∀ response ∈ rule.responses, ∀ action ∈ response.2, Faultless action.remarks := by
  obtain ⟨findings, rfl, hstatements⟩ := compileStatements_of_compile hcompile
  have hfaultless := Finding.faultless_of_isEmpty_errors herrors
  obtain ⟨_, -, h⟩ := Outcome.bind_ok.mp hstatements
  rw [houtline] at h
  obtain ⟨blocks, hblocks, h⟩ := Outcome.bind_ok.mp h
  have hcode := Outcome.pure_ok.mp h
  rw [Outcome.mapM_ok, List.map_map] at hblocks
  obtain ⟨encoded, htoBlock, hencoded⟩ := exists_map_eq (k := fun block => block) hblocks
    fun rule _ block _ h => by
      obtain ⟨encoded, hblock, hencoded⟩ := Rule.encode_toBlock h
      exact ⟨encoded, hblock.symm, hencoded.symm⟩
  rw [List.map_id'] at htoBlock
  rw [← htoBlock] at hcode
  obtain ⟨hvalue, hremarks⟩ := Prod.mk.inj hcode
  have hcode : (Outline.code 0 (encoded.map Rule.toBlock) none).Faultless := by
    show Faultless (List.map Finding.remark _)
    rw [hremarks]
    exact hfaultless
  obtain ⟨hscript, hall⟩ := Outline.value_code hcode
  exact ⟨encoded, hvalue.symm.trans hscript, hencoded.symm, hall⟩

theorem exists_encodedRules {rules : List (Rule Text Text Text)}
    (hplace : ∀ rule ∈ rules, rule.InPlace)
    (hcompile : compile symbols profile source = .ok compiled) (herrors : compiled.errors.isEmpty)
    (hsource : source.statements = rules.flatMap Rule.statements) :
    ∃ encoded : List (Rule Encoded Text Encoded),
      compiled.code = scriptCode (encoded.map (Rule.map Encoded.text id Encoded.text)) ∧
      rules.map (Rule.map (Encoded.trigger symbols profile) id (Encoded.action symbols profile)) =
        encoded.map (Rule.map .ok id .ok) ∧
      ∀ rule ∈ encoded, (∀ trigger ∈ rule.triggers, Faultless trigger.remarks) ∧
        ∀ response ∈ rule.responses, ∀ action ∈ response.2, Faultless action.remarks := by
  refine exists_encodedRules_of_outline ?_ hcompile herrors
  rw [hsource, Rule.ofLines_statements hplace]

end InfinityScript
