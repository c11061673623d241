import InfinityScript.Proofs.Code.Alike
import InfinityScript.Proofs.Script.Relayout
import InfinityScript.Script.Compile
import InfinityScript.Proofs.Script.Passes

/-!
# Comments of decompiled source say nothing

String table and descriptions go into the comments of decompiled source and nowhere else. With
others the source has the same statements on the same lines (`Comment.Varies`), so that it is
compiled to the same code (`decompile_retold`). The readers run alike step by step, with either
symbols.
-/

namespace InfinityScript

/-- The symbols with another string table and other descriptions of resources. -/
def Symbols.retold (symbols : Symbols) (strings : Std.TreeMap Int Text)
    (descriptions : Std.TreeMap Text Text) : Symbols :=
  { symbols with strings, descriptions }

section

variable {symbols : Symbols} {strings : Std.TreeMap Int Text}
  {descriptions : Std.TreeMap Text Text}

-- --------------------
-- Compiling reads neither
-- --------------------

theorem Argument.sumOfSymbols_retold :
    sumOfSymbols (symbols.retold strings descriptions) = sumOfSymbols symbols := by
  funext table names
  induction names with
  | nil => rfl
  | cons name names ih =>
    rw [sumOfSymbols, sumOfSymbols, ih]
    rfl

theorem Argument.encodeInteger_retold :
    encodeInteger (symbols.retold strings descriptions) = encodeInteger symbols := by
  funext definition value
  unfold encodeInteger integer symbolic
  rw [sumOfSymbols_retold]
  rfl

theorem Object.peel_retold (room : Nat) (value : Text) :
    peel (symbols.retold strings descriptions) room value = peel symbols room value := by
  induction room generalizing value with
  | zero =>
    unfold peel
    rfl
  | succ room ih =>
    unfold peel
    simp only [ih]
    rfl

theorem Object.vectorNumbers_retold :
    vectorNumbers (symbols.retold strings descriptions) = vectorNumbers symbols := by
  funext tables components
  induction tables generalizing components with
  | nil => rfl
  | cons table tables ih =>
    cases components with
    | nil =>
      rw [vectorNumbers, vectorNumbers, ih]
    | cons component components =>
      rw [vectorNumbers, vectorNumbers, ih]
      rfl

theorem Object.encode_retold (profile : Profile) :
    encode (symbols.retold strings descriptions) profile = encode symbols profile := by
  funext definition value
  unfold encode code qualify vectorCode
  rw [peel_retold]
  have hadd : Fields.add (symbols.retold strings descriptions) profile = Fields.add symbols profile := by
    funext fields group
    cases group with
    | none => rfl
    | some group =>
      simp only [Fields.add, vectorNumbers_retold]
  rw [hadd]
  rfl

theorem Trigger.encode_retold (profile : Profile) :
    encode (symbols.retold strings descriptions) profile = encode symbols profile := by
  have hadd : Fields.add (symbols.retold strings descriptions) profile = Fields.add symbols profile := by
    funext entry fields argument
    unfold Fields.add
    rw [Argument.encodeInteger_retold, Object.encode_retold]
    rfl
  funext line
  unfold encode
  rw [hadd]
  rfl

theorem Action.encode_retold (profile : Profile) :
    encode (symbols.retold strings descriptions) profile = encode symbols profile := by
  have hadd : Fields.add (symbols.retold strings descriptions) profile = Fields.add symbols profile := by
    funext entry fields argument
    unfold Fields.add Fields.add.addObject
    rw [Argument.encodeInteger_retold, Object.encode_retold]
    rfl
  funext line
  unfold encode encodeCall
  rw [hadd, Object.encode_retold]
  rfl

theorem compile_retold (profile : Profile) (source : Source) :
    compile (symbols.retold strings descriptions) profile source = compile symbols profile source := by
  unfold compile Block.encode Encoded.trigger Encoded.action
  rw [Trigger.encode_retold, Action.encode_retold]

theorem compileDialog_retold (profile : Profile) (source : Source) (isAction : Bool) :
    compileDialog (symbols.retold strings descriptions) profile source isAction =
      compileDialog symbols profile source isAction := by
  unfold compileDialog
  cases isAction with
  | true =>
    simp only [if_true, Encoded.action, Action.encode_retold]
  | false =>
    simp only [Bool.false_eq_true, if_false, Encoded.trigger, Trigger.encode_retold]

end

-- --------------------
-- Lines with other comments
-- --------------------

/-- The lines say the same and differ in their comments at most. -/
def Comment.Varies (a b : Text) : Prop :=
  ∃ said comment comment', a = append said comment ∧ b = append said comment'

theorem Comment.varies_refl (text : Text) : Varies text text := ⟨text, none, none, rfl, rfl⟩

theorem Comment.Varies.indented (h : Varies a b) (indent : Text) :
    Varies (indent ++ a) (indent ++ b) := by
  have happend : ∀ said comment, indent ++ append said comment = append (indent ++ said) comment := by
    intro said comment
    cases comment <;> simp [append]
  obtain ⟨said, comment, comment', rfl, rfl⟩ := h
  exact ⟨indent ++ said, comment, comment', happend _ _, happend _ _⟩

structure SourceLine.Varies (a b : SourceLine) : Prop where
  text : Comment.Varies a.text b.text
  notes : a.notes = b.notes

theorem SourceLine.varies_refl (line : SourceLine) : Varies line line :=
  ⟨Comment.varies_refl _, rfl⟩

theorem SourceLine.Varies.indented (h : Varies a b) (indent : Text) :
    Varies (a.indented indent) (b.indented indent) :=
  ⟨h.text.indented indent, h.notes⟩

-- --------------------
-- OR groups
-- --------------------

/-- What stands after the parenthesis that ends a call opens no OR group. -/
theorem Decompiler.orCount_append (call tail : Text) :
    orCount (call ++ ')' :: tail) = orCount (call ++ [')']) := by
  by_cases hlength : 3 ≤ call.length
  · have hwhile : ∀ rest, ((call ++ ')' :: rest).drop 3).takeWhile (· ≠ ')') =
        (call.drop 3).takeWhile (· ≠ ')') := by
      intro rest
      rw [List.drop_append_of_le_length hlength]
      exact takeWhile_append_stop (by decide) _ _
    rw [orCount, orCount, List.take_append_of_le_length hlength,
      List.take_append_of_le_length hlength, hwhile, hwhile]
  · have hshort : ∀ rest, Text.upper ((call ++ ')' :: rest).take 3) ≠ "OR(" := by
      intro rest h
      have hmem : ')' ∈ Text.upper ((call ++ ')' :: rest).take 3) := by
        refine List.mem_flatMap.mpr ⟨')', ?_, by decide⟩
        obtain ⟨room, hroom⟩ : ∃ room, 3 - call.length = room + 1 := ⟨2 - call.length, by omega⟩
        rw [List.take_append, List.mem_append, hroom]
        simp
      rw [h] at hmem
      exact absurd hmem (by decide)
    rw [orCount, orCount, if_neg (hshort tail), if_neg (hshort [])]

section

variable {symbols : Symbols} {strings : Std.TreeMap Int Text}
  {descriptions : Std.TreeMap Text Text}

-- --------------------
-- Statements
-- --------------------

theorem Comment.notes_ofResource (symbols : Symbols) (function definition name : Text) :
    (ofResource symbols function definition name).notes =
      if name.length > 8 then [] else
        (((Resource.kinds function definition).find? fun kind =>
          symbols.hasResource (name ++ kind)).map fun kind =>
            Note.resource (Text.upper (name ++ kind))).toList := by
  unfold ofResource ofResourceM
  split
  · rfl
  · cases (Resource.kinds function definition).find? fun kind =>
        symbols.hasResource (name ++ kind) with
    | none => rfl
    | some kind => rfl

theorem Comment.alike_ofResource (function definition name : Text) :
    Noted.Alike (fun _ _ => True) (ofResource symbols function definition name)
      (ofResource (symbols.retold strings descriptions) function definition name) := by
  refine ⟨trivial, ?_⟩
  rw [notes_ofResource, notes_ofResource]
  rfl

theorem Comment.ofSpells_retold :
    ofSpells (symbols.retold strings descriptions) = ofSpells symbols := by
  have hnames : ∀ text, spellNames (symbols.retold strings descriptions) text =
      spellNames symbols text := by
    intro text
    induction hlength : text.length using Nat.strongRecOn generalizing text with
    | ind n ih =>
      rcases text with _ | ⟨a, _ | ⟨b, _ | ⟨c, _ | ⟨d, rest⟩⟩⟩⟩
      · rfl
      · rfl
      · rfl
      · rfl
      · rw [spellNames, spellNames, ih rest.length (by simp [← hlength]; omega) rest rfl]
        rfl
  funext value
  rw [ofSpells, ofSpells, hnames]

namespace Trigger

def Progress.Varies (a b : Progress) : Prop := ∃ comment, b = { a with comment }

theorem alike_add (entry : Entry) (record : TriggerRecord) (slots : List (Option Text))
    (object : Text) (a b : Progress) (parameter : Parameter) (h : a.Varies b) :
    Noted.Alike Progress.Varies (a.add symbols entry record slots object parameter)
      (b.add (symbols.retold strings descriptions) entry record slots object parameter) := by
  obtain ⟨comment, rfl⟩ := h
  unfold Progress.add Progress.addM
  cases parameter.kind with
  | string => exact (Comment.alike_ofResource _ _ _).bind fun _ _ _ => Noted.alike_pure ⟨_, rfl⟩
  | object => exact Noted.alike_pure ⟨comment, rfl⟩
  | point => exact Noted.alike_pure ⟨comment, rfl⟩
  | integer =>
    refine (Noted.alike_refl _).bind fun value _ hvalue => ?_
    subst hvalue
    exact Noted.alike_pure ⟨comment, rfl⟩
  | action => exact Noted.alike_pure ⟨comment, rfl⟩

def LineVaries (a b : Text) : Prop :=
  Comment.Varies a b ∧ Decompiler.orCount a = Decompiler.orCount b

theorem lineVaries_append (call : Text) (comment comment' : Option Text) :
    LineVaries (Comment.append (call ++ [')']) comment) (Comment.append (call ++ [')']) comment') := by
  have hcount : ∀ comment, Decompiler.orCount (Comment.append (call ++ [')']) comment) =
      Decompiler.orCount (call ++ [')']) := by
    intro comment
    cases comment with
    | none => rfl
    | some comment =>
      rw [Comment.append, List.append_assoc, List.append_assoc]
      exact Decompiler.orCount_append _ _
  exact ⟨⟨_, comment, comment', rfl, rfl⟩, (hcount comment).trans (hcount comment').symm⟩

theorem alike_express (profile : Profile) (entry : Entry) (opcode : Int)
    (record : TriggerRecord) :
    Expressing.Alike LineVaries (express symbols profile entry opcode record)
      (express (symbols.retold strings descriptions) profile entry opcode record) := by
  rw [express_eq, express_eq]
  refine Expressing.alike_bind _ fun object => ?_
  refine Expressing.alike_bind _ fun entry => ?_
  refine Expressing.alike_bind _ fun signature => ?_
  refine (Expressing.alike_ofNoted (Noted.alike_foldlM (alike_add entry record _ object) signature
    (s := {}) ⟨none, rfl⟩)).bind fun progress _ hprogress => ?_
  obtain ⟨comment, rfl⟩ := hprogress
  exact Expressing.alike_pure (lineVaries_append _ _ _)

theorem alike_decode (profile : Profile) :
    Reader.Alike (fun a b => LineVaries a.text b.text ∧ a.notes = b.notes) (decode symbols profile)
      (decode (symbols.retold strings descriptions) profile) := by
  refine Reader.alike_bind _ fun opcode => ?_
  have hdefinition : definition? (symbols.retold strings descriptions) opcode =
      definition? symbols opcode := rfl
  rw [hdefinition]
  cases definition? symbols opcode with
  | none => exact Reader.alike_bind _ fun _ => Reader.alike_pure ⟨⟨Comment.varies_refl _, rfl⟩, rfl⟩
  | some found =>
    refine Reader.alike_bind _ fun record => ?_
    exact (alike_express profile _ _ record).line

end Trigger

namespace Action

def Progress.Varies (a b : Progress) : Prop := ∃ comment, b = { a with comment }

theorem alike_stringComment (entry : Entry) (definition value : Text) :
    Expressing.Alike (fun _ _ => True) (stringComment symbols entry definition value)
      (stringComment (symbols.retold strings descriptions) entry definition value) := by
  unfold stringComment stringCommentM
  rw [Comment.ofSpells_retold]
  split
  · cases Comment.ofSpells symbols value with
    | ok comment => exact Expressing.alike_pure trivial
    | error abort => exact Expressing.alike_throw _
  · rw [← Expressing.ofNoted_ofResource, ← Expressing.ofNoted_ofResource]
    exact Expressing.alike_ofNoted (Comment.alike_ofResource _ _ _)

theorem alike_add (entry : Entry) (record : ActionRecord) (slots : Option (List (Option Text)))
    (objects : List Text) (a b : Progress) (parameter : Parameter) (h : a.Varies b) :
    Expressing.Alike Progress.Varies (a.add symbols entry record slots objects parameter)
      (b.add (symbols.retold strings descriptions) entry record slots objects parameter) := by
  obtain ⟨comment, rfl⟩ := h
  unfold Progress.add Progress.addM
  cases parameter.kind with
  | string =>
    cases slots with
    | none =>
      exact (alike_stringComment _ _ _).bind fun _ _ _ => Expressing.alike_pure ⟨_, rfl⟩
    | some slots =>
      exact (alike_stringComment _ _ _).bind fun _ _ _ => Expressing.alike_pure ⟨_, rfl⟩
  | object => exact Expressing.alike_pure ⟨comment, rfl⟩
  | integer =>
    refine Expressing.alike_bind _ fun value => ?_
    dsimp only
    split
    · exact Expressing.alike_bind _ fun _ => Expressing.alike_pure ⟨_, rfl⟩
    · exact Expressing.alike_pure ⟨comment, rfl⟩
  | point => exact Expressing.alike_pure ⟨comment, rfl⟩
  | action => exact Expressing.alike_pure ⟨comment, rfl⟩

theorem alike_express (profile : Profile) (record : ActionRecord) :
    Expressing.Alike Comment.Varies (express symbols profile record)
      (express (symbols.retold strings descriptions) profile record) := by
  refine Expressing.alike_bind _ fun actor => ?_
  refine Expressing.alike_bind _ fun objects => ?_
  have hdefinition : (symbols.retold strings descriptions).byId? "ACTION.IDS" record.opcode =
      symbols.byId? "ACTION.IDS" record.opcode := rfl
  rw [hdefinition]
  cases symbols.byId? "ACTION.IDS" record.opcode with
  | none => exact Expressing.alike_bind _ fun _ => Expressing.alike_pure (Comment.varies_refl _)
  | some entry =>
    refine Expressing.alike_bind _ fun entry => ?_
    refine Expressing.alike_bind _ fun signature => ?_
    refine (Expressing.alike_foldlM (alike_add entry record _ objects) signature
      (s := {}) ⟨none, rfl⟩).bind fun progress _ hprogress => ?_
    obtain ⟨comment, rfl⟩ := hprogress
    exact Expressing.alike_pure ⟨_, _, _, rfl, rfl⟩

theorem alike_decode (profile : Profile) :
    Reader.Alike SourceLine.Varies (decode symbols profile)
      (decode (symbols.retold strings descriptions) profile) := by
  refine Reader.alike_bind _ fun record => ?_
  exact (alike_express profile record).line.mono fun _ _ h => ⟨h.1, h.2⟩

end Action

end

-- --------------------
-- Scripts
-- --------------------

abbrev LinesVary : List SourceLine → List SourceLine → Prop := List.Forall₂ SourceLine.Varies

theorem linesVary_refl (lines : List SourceLine) : LinesVary lines lines :=
  List.forall₂_same.mpr fun line _ => line.varies_refl

theorem LinesVary.append (h : LinesVary a b) (h' : LinesVary a' b') :
    LinesVary (a ++ a') (b ++ b') :=
  List.rel_append h h'

namespace Decompiler

def retold (decompiler : Decompiler) (strings : Std.TreeMap Int Text)
    (descriptions : Std.TreeMap Text Text) : Decompiler :=
  { decompiler with symbols := decompiler.symbols.retold strings descriptions }

variable (decompiler : Decompiler) {strings : Std.TreeMap Int Text}
  {descriptions : Std.TreeMap Text Text}

structure Condition.Varies (a b : Condition) : Prop where
  lines : LinesVary a.lines b.lines
  missing : a.missing = b.missing

theorem alike_conditionStep (a b : Condition) (token : Token) (h : a.Varies b) :
    Reader.Alike Condition.Varies (decompiler.conditionStep a token)
      ((decompiler.retold strings descriptions).conditionStep b token) := by
  obtain ⟨lines, missing⟩ := a
  obtain ⟨lines', missing'⟩ := b
  obtain ⟨hlines, rfl : missing = missing'⟩ := h
  unfold conditionStep
  split
  · refine (Trigger.alike_decode decompiler.profile).bind fun line line' hline => ?_
    obtain ⟨⟨htext, hcount⟩, hnotes⟩ := hline
    have hline : line.Varies line' := ⟨htext, hnotes⟩
    have hadd : ∀ indent, LinesVary (lines ++ [line.indented indent]) (lines' ++ [line'.indented indent]) :=
      fun indent => LinesVary.append hlines (.cons (hline.indented indent) .nil)
    unfold Condition.add
    by_cases hmissing : missing > 0
    · simp only [if_pos hmissing]
      exact Reader.alike_pure ⟨hadd _, rfl⟩
    · simp only [if_neg hmissing, ← hcount]
      cases orCount line.text with
      | error fault => exact Reader.alike_fail _
      | ok count => exact Reader.alike_pure ⟨hadd _, rfl⟩
  · exact Reader.alike_pure ⟨hlines, rfl⟩

theorem alike_condition :
    Reader.Alike LinesVary decompiler.condition
      (decompiler.retold strings descriptions).condition := by
  refine (Reader.alike_sweep decompiler.alike_conditionStep _
    ⟨linesVary_refl _, rfl⟩).bind fun a b h => ?_
  obtain ⟨condition, closed⟩ := a
  obtain ⟨condition', closed'⟩ := b
  obtain ⟨hcondition, rfl : closed = closed'⟩ := h
  cases closed with
  | true => exact Reader.alike_pure hcondition.lines
  | false => exact Reader.alike_fail _

theorem alike_response :
    Reader.Alike LinesVary decompiler.response
      (decompiler.retold strings descriptions).response := by
  refine Reader.alike_bind _ fun weight => ?_
  refine ((Action.alike_decode decompiler.profile).many _).bind fun actions actions' hactions => ?_
  refine Reader.alike_bind _ fun _ => Reader.alike_pure (.cons (SourceLine.varies_refl _) ?_)
  exact List.rel_map (fun _ _ hline => hline.indented _) hactions

theorem alike_responseSetStep (a b : List SourceLine) (token : Token) (h : LinesVary a b) :
    Reader.Alike LinesVary (decompiler.responseSetStep a token)
      ((decompiler.retold strings descriptions).responseSetStep b token) := by
  refine Reader.alike_bind _ fun next => ?_
  unfold responseAt
  split
  · exact decompiler.alike_response.bind fun _ _ hlines => Reader.alike_pure (LinesVary.append h hlines)
  · exact Reader.alike_pure h

theorem alike_responseSet :
    Reader.Alike LinesVary decompiler.responseSet
      (decompiler.retold strings descriptions).responseSet := by
  refine (Reader.alike_sweep decompiler.alike_responseSetStep _
    (linesVary_refl _)).bind fun a b h => ?_
  obtain ⟨lines, closed⟩ := a
  obtain ⟨lines', closed'⟩ := b
  obtain ⟨hlines, rfl : closed = closed'⟩ := h
  cases closed with
  | true => exact Reader.alike_pure hlines
  | false => exact Reader.alike_fail _

theorem alike_blockStep (a b : List SourceLine) (token : Token) (h : LinesVary a b) :
    Reader.Alike LinesVary (decompiler.blockStep a token)
      ((decompiler.retold strings descriptions).blockStep b token) := by
  unfold blockStep
  split
  · exact decompiler.alike_condition.bind fun _ _ hlines => Reader.alike_pure (LinesVary.append h hlines)
  · exact decompiler.alike_responseSet.bind fun _ _ hlines => Reader.alike_pure (LinesVary.append h hlines)
  · exact Reader.alike_pure h

theorem alike_blockOrDamage :
    Reader.Alike LinesVary decompiler.blockOrDamage
      (decompiler.retold strings descriptions).blockOrDamage := by
  refine Reader.Alike.recover ?_ fun damage => Reader.alike_bind _ fun _ => Reader.alike_pure (linesVary_refl _)
  refine (Reader.alike_sweep decompiler.alike_blockStep _ (linesVary_refl _)).bind fun a b h => ?_
  exact Reader.alike_pure (LinesVary.append h.1 (linesVary_refl _))

theorem alike_script :
    Reader.Alike LinesVary decompiler.script (decompiler.retold strings descriptions).script := by
  refine (Reader.alike_sweep (fun a b token h => ?_) _ (linesVary_refl _)).bind fun a b h =>
    Reader.alike_pure h.1
  unfold scriptStep
  split
  · exact decompiler.alike_blockOrDamage.bind fun _ _ hlines => Reader.alike_pure (LinesVary.append h hlines)
  · exact Reader.alike_pure h

theorem alike_records {record record' : Reader SourceLine}
    (hrecord : Reader.Alike SourceLine.Varies record record') (marker : Marker) :
    Reader.Alike LinesVary (records marker record) (records marker record') := by
  refine (Reader.alike_sweep (fun a b token h => ?_) _ (linesVary_refl _)).bind fun a b h =>
    Reader.alike_pure h.1
  unfold recordsStep
  split
  · have hdamage : Reader.Alike SourceLine.Varies (recordOrDamage marker record)
        (recordOrDamage marker record') :=
      hrecord.recover fun damage => Reader.alike_bind _ fun _ =>
        Reader.alike_pure (SourceLine.varies_refl _)
    exact hdamage.bind fun _ _ hline => Reader.alike_pure (LinesVary.append h (.cons hline .nil))
  · exact Reader.alike_pure h

end Decompiler

-- --------------------
-- Sources
-- --------------------

namespace Text

theorem physicalLines_ofLines_eq (lines : List Text) :
    physicalLines (ofLines lines) = lines.flatMap (splitOn '\n') := by
  have hsplit : splitOn '\n' (ofLines lines) = lines.flatMap (splitOn '\n') ++ [[]] := by
    induction lines with
    | nil => rfl
    | cons line lines ih =>
      rw [ofLines, List.flatMap_cons, List.append_assoc, List.singleton_append,
        splitOn_append_mark, List.flatMap_cons, List.append_assoc, ← ih, ofLines]
  simp [physicalLines, hsplit]

theorem splitOn_append_of_notMem (h : mark ∉ tail) (text : Text) :
    ∃ before last, splitOn mark text = before ++ [last] ∧
      splitOn mark (text ++ tail) = before ++ [last ++ tail] := by
  induction text with
  | nil => exact ⟨[], [], rfl, splitOn_eq_singleton h⟩
  | cons c text ih =>
    obtain ⟨before, last, hsplit, happend⟩ := ih
    by_cases hc : c = mark
    · exact ⟨[] :: before, last, by simp [splitOn, hc, hsplit], by simp [splitOn, hc, happend]⟩
    · cases before with
      | nil => exact ⟨[], c :: last, by simp [splitOn, hc, hsplit], by simp [splitOn, hc, happend]⟩
      | cons piece before =>
        exact ⟨(c :: piece) :: before, last, by simp [splitOn, hc, hsplit],
          by simp [splitOn, hc, happend]⟩

theorem statement_append_comment (line comment : Text) :
    statement (line ++ ' ' :: '/' :: '/' :: comment) = statement line :=
  statement_indent_comment (List.forall_mem_nil fun c => isBlank c) line comment

end Text

namespace Comment

theorem append_eq (said : Text) (comment : Option Text) :
    append said comment = said ∨
      ∃ tail, '\n' ∉ tail ∧ append said comment = said ++ ' ' :: '/' :: '/' :: tail := by
  cases comment with
  | none => exact .inl rfl
  | some comment =>
    refine .inr ⟨' ' :: comment.map fun c => if c = '\n' then ' ' else c, ?_, by simp [append]⟩
    simp only [List.mem_cons, List.mem_map, not_or, not_exists, not_and]
    refine ⟨by decide, fun c _ => ?_⟩
    split
    · decide
    · assumption

theorem map_statement_append (said : Text) (comment : Option Text) :
    (Text.splitOn '\n' (append said comment)).map Text.statement =
      (Text.splitOn '\n' said).map Text.statement := by
  rcases append_eq said comment with h | ⟨tail, htail, h⟩
  · rw [h]
  · have hnewline : '\n' ∉ ' ' :: '/' :: '/' :: tail := by simp [htail]
    obtain ⟨before, last, hsplit, happend⟩ := Text.splitOn_append_of_notMem hnewline said
    rw [h, hsplit, happend, List.map_append, List.map_append, List.map_singleton,
      List.map_singleton, Text.statement_append_comment]

theorem count_append (said : Text) (comment : Option Text) :
    (append said comment).count '\n' = said.count '\n' := by
  rcases append_eq said comment with h | ⟨tail, htail, h⟩
  · rw [h]
  · simp [h, List.count_append, List.count_eq_zero.mpr htail]

end Comment

theorem Line.statements_congr (h : lines.map Text.statement = lines'.map Text.statement)
    (first : Nat) : statements first lines = statements first lines' := by
  induction lines generalizing lines' first with
  | nil =>
    obtain rfl : lines' = [] := by simpa using h.symm
    rfl
  | cons line lines ih =>
    obtain ⟨line', lines', rfl, hline, hlines⟩ := List.map_eq_cons_iff.mp h.symm
    rw [statements, statements, hline, ih hlines.symm]

theorem Source.listing_congr {a b : Source}
    (h : a.physicalLines.map Text.statement = b.physicalLines.map Text.statement) :
    a.listing = b.listing := by
  have hlength := congrArg List.length h
  rw [List.length_map, List.length_map] at hlength
  rw [listing, listing, Line.statements_congr h, hlength]

/-- Decompiled source that differs in its comments at most: line by line it says the same,
so that all that is made of it is the same. -/
structure Decompiled.Varies (a b : Decompiled) : Prop where
  newlines : a.source.count '\n' = b.source.count '\n'
  statements : (Text.physicalLines a.source).map Text.statement =
    (Text.physicalLines b.source).map Text.statement
  compile : ∀ symbols profile, compile symbols profile (.text a.source) =
    compile symbols profile (.text b.source)
  compileDialog : ∀ symbols profile isAction,
    compileDialog symbols profile (.text a.source) isAction =
      compileDialog symbols profile (.text b.source) isAction
  resources : a.resources = b.resources
  stringRefs : a.stringRefs = b.stringRefs
  diagnostics : a.diagnostics = b.diagnostics

namespace LinesVary

theorem map_statement (h : LinesVary a b) :
    (Text.physicalLines (Text.ofLines (a.map SourceLine.text))).map Text.statement =
      (Text.physicalLines (Text.ofLines (b.map SourceLine.text))).map Text.statement := by
  rw [Text.physicalLines_ofLines_eq, Text.physicalLines_ofLines_eq]
  induction h with
  | nil => rfl
  | cons hline _ ih =>
    obtain ⟨said, comment, comment', htext, htext'⟩ := hline.text
    rw [List.map_cons, List.map_cons, List.flatMap_cons, List.flatMap_cons, List.map_append,
      List.map_append, ih, htext, htext', Comment.map_statement_append,
      Comment.map_statement_append]

theorem count_newline (h : LinesVary a b) :
    (Text.ofLines (a.map SourceLine.text)).count '\n' =
      (Text.ofLines (b.map SourceLine.text)).count '\n' := by
  induction h with
  | nil => rfl
  | cons hline _ ih =>
    obtain ⟨said, comment, comment', htext, htext'⟩ := hline.text
    simp only [Text.ofLines, List.map_cons, List.flatMap_cons, List.count_append] at ih ⊢
    rw [ih, htext, htext', Comment.count_append, Comment.count_append]

theorem map_notes (h : LinesVary a b) : a.map SourceLine.notes = b.map SourceLine.notes := by
  induction h with
  | nil => rfl
  | cons hline _ ih => rw [List.map_cons, List.map_cons, hline.notes, ih]

theorem decompiled (h : LinesVary a b) (collect : Bool) :
    (Decompiled.ofLines collect a).Varies (.ofLines collect b) := by
  have hlisting : (Source.text (Decompiled.ofLines collect a).source).listing =
      (Source.text (Decompiled.ofLines collect b).source).listing :=
    Source.listing_congr h.map_statement
  refine ⟨h.count_newline, h.map_statement, fun symbols profile => ?_,
    fun symbols profile isAction => ?_, ?_, ?_, ?_⟩
  · rw [compile, compile, hlisting]
  · rw [compileDialog, compileDialog, hlisting]
  · simp only [Decompiled.ofLines, h.map_notes]
  · simp only [Decompiled.ofLines, h.map_notes]
  · simp only [Decompiled.ofLines, h.map_notes]

end LinesVary

theorem Reader.Alike.readCode {first second : Reader (List SourceLine)}
    (h : Alike LinesVary first second) (code : Text) (collect : Bool) :
    Outcome.Alike Decompiled.Varies (first.readCode code collect)
      (second.readCode code collect) := by
  unfold Reader.readCode
  cases readTokens code with
  | error fault => exact .error _
  | ok tokens =>
    show Outcome.Alike _ ((first.run tokens).1 >>= fun lines => _)
      ((second.run tokens).1 >>= fun lines => _)
    rcases (h tokens).cases with ⟨a, b, rest, hfirst, hsecond, hlines⟩ | ⟨error, rest, hfirst, hsecond⟩
    · rw [hfirst, hsecond]
      exact .ok (hlines.decompiled collect)
    · rw [hfirst, hsecond]
      exact .error error

/-- Comments of decompiled source say nothing. With another string table and other
descriptions, whatever their texts, decompiling fails for the same reason or gives source
that says the same on each physical line; and compiling reads neither the strings nor the
descriptions. -/
theorem decompile_retold (decompiler : Decompiler) (strings : Std.TreeMap Int Text)
    (descriptions : Std.TreeMap Text Text) (code : Text) (collect : Bool) :
    Outcome.Alike Decompiled.Varies (decompiler.decompile code collect)
        ((decompiler.retold strings descriptions).decompile code collect) ∧
      (∀ isAction, Outcome.Alike Decompiled.Varies
        (decompiler.decompileDialog code isAction collect)
        ((decompiler.retold strings descriptions).decompileDialog code isAction collect)) ∧
      ∀ profile source,
        compile (decompiler.symbols.retold strings descriptions) profile source =
          compile decompiler.symbols profile source ∧
        ∀ isAction, compileDialog (decompiler.symbols.retold strings descriptions) profile source
          isAction = compileDialog decompiler.symbols profile source isAction := by
  refine ⟨?_, fun isAction => ?_, fun profile source => ?_⟩
  · rw [Decompiler.decompile_eq, Decompiler.decompile_eq]
    exact decompiler.alike_script.readCode code collect
  · rw [Decompiler.decompileDialog_eq, Decompiler.decompileDialog_eq]
    cases isAction with
    | true =>
      exact (Decompiler.alike_records (Action.alike_decode _) _).readCode code collect
    | false =>
      refine (Decompiler.alike_records ?_ _).readCode code collect
      exact (Trigger.alike_decode _).mono fun _ _ h => ⟨h.1.1, h.2⟩
  · exact ⟨compile_retold profile source, compileDialog_retold profile source⟩

end InfinityScript
