import InfinityScript.Proofs.Argument.Scope
import InfinityScript.Proofs.Record.Action
import InfinityScript.Proofs.Record.Expression
import InfinityScript.Proofs.Script.CallText
import InfinityScript.Proofs.Script.Records

/-!
# A string by itself

A call whose only argument is a string is compiled to a record that holds the string and
nothing else. From the record of an action the call is decompiled as it was. The decoder of
triggers takes a string that begins with a scope for a packed variable, and as the function
has no second string to give the scope to, the scope is lost (`decompileDialog_loneString`).
-/

namespace InfinityScript

open Encoding

-- --------------------
-- Functions of one string
-- --------------------

/-- The function takes one string, and is found by its name and by its id. -/
structure TakesString (symbols : Symbols) (table : Text) (entry : Entry) (parameter : Parameter) :
    Prop extends Callable symbols table entry where
  byId : symbols.byId? table (toSigned32 entry.id) = some entry
  definitionFor : ∀ exceeds,
    symbols.definitionFor table (toSigned32 entry.id) entry exceeds = .ok entry
  word : IsWord (toSigned32 entry.id)
  signature : entry.signature = .ok [parameter]
  kind : parameter.kind = .string

theorem Table.Single.takesString {symbols : Symbols} {ids : Table} {entry : Entry}
    (h : ids.Single entry) (hread : symbols.IsRead) (hids : symbols.table? table = some ids)
    (hsignature : entry.signature = .ok [parameter]) (hkind : parameter.kind = .string) :
    TakesString symbols table entry parameter := by
  have hmade := hread.made table ids hids
  have hcallable := hread.callable hids h.mem h.name (Entry.isFunction_of_signature hsignature)
  refine ⟨hcallable, ?_, fun exceeds => ?_, h.isWord, hsignature, hkind⟩
  · rw [Symbols.byId?, hids, Option.bind_some, h.sole.get? hmade]
  · unfold Symbols.definitionFor
    split
    · rfl
    · next found hfound =>
      rw [Symbols.overflowById?, hids, Option.bind_some] at hfound
      rw [h.getOverflow? hmade hfound, hsignature]
      simp [Bind.bind, Except.bind, pure, Except.pure]

-- --------------------
-- Dialogs
-- --------------------

theorem exists_encoded_of_compileDialog {source : Source}
    (h : compileDialog symbols profile source isAction = .ok compiled)
    (herrors : compiled.errors.isEmpty) (hline : line ∈ source.listing.lines) :
    ∃ encoded, Encoded.ofRole isAction symbols profile line.text = .ok encoded ∧
      Faultless encoded.remarks := by
  obtain ⟨_, -, h⟩ := Outcome.bind_ok.mp h
  obtain ⟨statements, hstatements, h⟩ := Outcome.bind_ok.mp h
  obtain rfl := Outcome.pure_ok.mp h
  have hfaultless := Noted.faultless_mapM.mp
    ((Noted.faultless_map _).mp (Finding.faultless_of_isEmpty_errors herrors))
  obtain ⟨statement, hstatement, hencode⟩ := Outcome.mem_mapM_ok hstatements hline
  obtain ⟨encoded, hencoded, hpair⟩ := Outcome.bind_ok.mp hencode
  obtain rfl := Outcome.pure_ok.mp hpair
  refine ⟨encoded, ?_, Noted.faultless_onLine.mp (hfaultless _ hstatement)⟩
  rw [← hencoded]
  cases isAction <;> rfl

def dialogTable : Bool → Text
  | true => "ACTION.IDS"
  | false => "TRIGGER.IDS"

theorem Trigger.signed_eq (h : line.head? ≠ some '!') : Trigger.signed line = (false, line) := by
  unfold Trigger.signed
  split
  · exact absurd rfl h
  · rfl

theorem Action.call_eq {line inner : Text}
    (hcomma : ∀ name inside, Call.split line = .ok (name, inside) → ',' ∉ inside)
    (h : Action.call symbols line = .ok (target, inner)) : target = none ∧ inner = line := by
  obtain ⟨⟨name, inside⟩, hsplit, h⟩ := Outcome.bind_ok.mp h
  obtain ⟨entry, -, h⟩ := Outcome.bind_ok.mp h
  split at h
  · rw [Text.cut?_eq_none (hcomma name inside hsplit)] at h
    cases h
  · obtain ⟨rfl, rfl⟩ := Prod.mk.inj (Except.ok.inj h)
    exact ⟨rfl, rfl⟩

theorem Encoded.exists_bound {encoded : Encoded}
    (h : Encoded.ofRole isAction symbols profile line = .ok encoded)
    (hremarks : Faultless encoded.remarks) (hmark : isAction ∨ line.head? ≠ some '!')
    (hcomma : ∀ name inside, Call.split line = .ok (name, inside) → ',' ∉ inside) :
    ∃ pairs, Call.bound symbols (dialogTable isAction) (!isAction) line = .ok pairs := by
  cases isAction with
  | true =>
    obtain ⟨text, -, hsucceeds, -⟩ := Encoded.settle_faultless (fun _ _ => rfl) h hremarks
    obtain ⟨target, inner, actor, name, arguments, entry, hcall, -, hsplit, hentry, hencode⟩ :=
      Action.succeeds_encode hsucceeds
    obtain ⟨-, rfl⟩ := Action.call_eq hcomma hcall
    obtain ⟨values, bound, -, -, hvalues, hbound, -⟩ := Action.succeeds_encodeCall.mp hencode
    exact ⟨bound, (Call.bound_eq hsplit hentry hvalues).trans hbound⟩
  | false =>
    obtain ⟨⟨text, n⟩, -, hsucceeds, -⟩ := Encoded.settle_faultless (fun _ _ => rfl) h hremarks
    obtain ⟨name, arguments, entry, values, bound, fields, strings, hsplit, hentry, hvalues, hbound,
      -⟩ := Trigger.succeeds_encode.mp hsucceeds
    rw [Trigger.signed_eq (by simpa using hmark)] at hsplit
    exact ⟨bound, (Call.bound_eq hsplit hentry hvalues).trans hbound⟩

theorem head?_call (h : name.head? ≠ some '!') (text : Text) :
    (name ++ '(' :: text).head? ≠ some '!' := by
  cases name with
  | nil => simp
  | cons c name => simpa using h

theorem exists_of_newline (h : Quoted value) (hnewline : '\n' ∈ value) :
    ∃ before after, value = '"' :: before ++ '\n' :: after ∧ '"' ∉ before ∧ '\n' ∉ before := by
  obtain ⟨body, rfl, hquote⟩ := h
  obtain ⟨before, after, rfl, hbefore⟩ :=
    List.eq_append_cons_of_mem (by simpa using hnewline : '\n' ∈ body)
  exact ⟨before, after ++ ['"'], by simp, fun hmem => hquote (by simp [hmem]), hbefore⟩

/-- A line feed in the string of a call breaks the call off, which is an error. -/
theorem TakesString.errors_of_newline {symbols : Symbols} {entry : Entry}
    (htakes : TakesString symbols (dialogTable isAction) entry parameter)
    (hmark : isAction ∨ entry.name.head? ≠ some '!') (hvalue : Quoted value) (hcomma : ',' ∉ value)
    (hcomment : ¬ (['/', '/'] <:+: value)) (hnewline : '\n' ∈ value)
    (hcompile : compileDialog symbols profile (.text (entry.name ++ '(' :: (value ++ [')'])))
      isAction = .ok compiled) : ¬ compiled.errors.isEmpty := by
  intro herrors
  obtain ⟨before, after, rfl, hquote, hbefore⟩ := exists_of_newline hvalue hnewline
  have htrim : Text.trimRight before ⊆ before := (Text.trimRight_sublist before).subset
  have hcomma : ',' ∉ before := fun hmem => hcomma (by simp [hmem])
  have hcomment : ¬ (['/', '/'] <:+: '"' :: before) := fun hslashes =>
    hcomment (hslashes.trans (List.prefix_append _ _).isInfix)
  have hstatement : Text.statement (entry.name ++ '(' :: '"' :: before) =
      entry.name ++ '(' :: '"' :: Text.trimRight before := by
    rw [statement_call htakes.statement (Text.beforeComment_eq_self_of_not_infix hcomment),
      Text.trimRight_quote]
  obtain ⟨lines, hlines⟩ := Text.exists_physicalLines_append
    (by simp [htakes.newline, hbefore] : '\n' ∉ entry.name ++ '(' :: '"' :: before) (after ++ [')'])
  -- What is before the line feed is a statement of its own, without the end of its string.
  have hline : ⟨1, entry.name ++ '(' :: '"' :: Text.trimRight before⟩ ∈ (Source.text
      (entry.name ++ '(' :: ('"' :: before ++ '\n' :: after ++ [')']))).listing.lines := by
    have hphysical : Text.physicalLines (entry.name ++ '(' :: ('"' :: before ++ '\n' :: after ++
        [')'])) = (entry.name ++ '(' :: '"' :: before) :: lines := by
      rw [← hlines]
      simp
    show _ ∈ Line.statements 1 (Text.physicalLines _)
    rw [hphysical]
    simp [Line.statements, hstatement]
  obtain ⟨encoded, hencoded, hremarks⟩ := exists_encoded_of_compileDialog hcompile herrors hline
  obtain ⟨pairs, hbound⟩ := Encoded.exists_bound hencoded hremarks
    (hmark.imp_right fun hhead => head?_call hhead _) fun name inside hsplit => by
      obtain ⟨-, rfl | ⟨rest, rfl, hrest⟩⟩ :=
        Call.split_unclosed htakes.parenthesis htakes.trimmed hsplit
      · simp
      · simpa using fun hmem => hcomma (htrim (hrest hmem))
  exact Call.bound_unclosed htakes.parenthesis htakes.trimmed (fun hmem => hquote (htrim hmem))
    (fun hmem => hcomma (htrim hmem)) htakes.function htakes.signature htakes.kind _ hbound

theorem TakesString.listing {symbols : Symbols} {entry : Entry} {source : Source}
    (htakes : TakesString symbols (dialogTable isAction) entry parameter)
    (hmark : isAction ∨ entry.name.head? ≠ some '!') (hvalue : Quoted value) (hcomma : ',' ∉ value)
    (hcomment : ¬ (['/', '/'] <:+: value))
    (hsource : source = .text (entry.name ++ '(' :: (value ++ [')'])) ∨
      source = .lines [entry.name ++ '(' :: (value ++ [')'])])
    (hcompile : compileDialog symbols profile source isAction = .ok compiled)
    (herrors : compiled.errors.isEmpty) :
    source.listing.lines = [⟨1, entry.name ++ '(' :: (value ++ [')'])⟩] := by
  have hstatement : Text.statement (entry.name ++ '(' :: (value ++ [')'])) =
      entry.name ++ '(' :: (value ++ [')']) := by
    have hclosed : Text.EndsVisibly (value ++ [')']) := ⟨')', by simp, by decide⟩
    rw [statement_call htakes.statement, Text.trimRight_eq_self hclosed]
    exact Text.beforeComment_append (Text.beforeComment_eq_self_of_not_infix hcomment)
      (by decide) []
  rcases hsource with rfl | rfl
  · have hnewline : '\n' ∉ value := fun hnewline =>
      htakes.errors_of_newline hmark hvalue hcomma hcomment hnewline hcompile herrors
    rw [listing_text (by simp [htakes.newline, hnewline]), hstatement, if_neg (by simp)]
  · simp [Source.listing, Source.physicalLines, Line.statements, hstatement]

-- --------------------
-- Strings
-- --------------------

namespace Scope

/-- The string is taken for a packed variable. -/
def Divides (symbols : Symbols) (value : Text) : Prop :=
  9 < value.length ∧ isScope symbols (value.take 7 ++ "\"")

/-- A string that is taken for a variable loses its scope. -/
theorem unpack_divides (h : Divides symbols value) :
    unpack symbols value emptyString = [some ('"' :: value.drop 7),
      some (value.take 7 ++ "\""), some emptyString, none] := by
  have hone : unpackOne symbols value = ['"' :: value.drop 7, value.take 7 ++ "\""] := if_pos h
  rw [unpack, unpackOne_emptyString, hone]
  rfl

theorem unpack_not_divides (h : ¬ Divides symbols value) :
    unpack symbols value emptyString = [some value, some emptyString, none, none] := by
  have hone : unpackOne symbols value = [value] := if_neg h
  rw [unpack, unpackOne_emptyString, hone]
  rfl

end Scope

/-- An action of one string gets the scope back that the string was divided from. -/
theorem Action.reclaimScope_string (hkind : parameter.kind = .string) (symbols : Symbols)
    (value : Text) :
    (Action.reclaimScope [parameter] (Scope.unpack symbols value emptyString))[0]? =
      some (some value) := by
  have hcount : Signature.count [parameter] .string = 1 := by
    simp [Signature.count, hkind]
  by_cases hdivides : Scope.Divides symbols value
  · have hscope : value.take 7 ++ ['"'] ≠ emptyString := fun heq => by
      have hlength := congrArg List.length heq
      have hlong := hdivides.1
      simp only [List.length_append, List.length_take, emptyString] at hlength
      simp at hlength
      omega
    rw [Scope.unpack_divides hdivides]
    simp [Action.reclaimScope, hcount, hscope]
  · rw [Scope.unpack_not_divides hdivides]
    simp [Action.reclaimScope, hcount]

theorem Quoted.wrapped (h : Quoted value) : Scope.Wrapped value := by
  obtain ⟨body, rfl, -⟩ := h
  exact ⟨rfl, (List.getLast?_concat : ('"' :: body ++ ['"']).getLast? = _)⟩

theorem Quoted.arguments (h : Quoted value) (hcomma : ',' ∉ value) (quotesFirst : Bool) :
    Call.arguments value quotesFirst = .ok [value] := by
  have hlength : value.length ≠ 1 := by
    obtain ⟨body, rfl, -⟩ := h
    simp
  have hargument := Call.isArgument_quoted h.wrapped.begins h.wrapped.ends hlength hcomma
  simpa using Call.arguments_join (List.forall_mem_singleton.mpr hargument) quotesFirst

theorem eq_of_succeeds_packStrings (hvalue : Quoted value)
    (h : Succeeds (packStrings symbols opcode [value, emptyString, emptyString, emptyString])
      strings) : strings = [value, emptyString, emptyString, emptyString] := by
  have hpack := (Scope.pack_string hvalue.wrapped symbols opcode).symm.trans
    (succeeds_packStrings.mp h)
  exact (Prod.mk.inj (Except.ok.inj hpack)).1.symm

-- --------------------
-- Triggers
-- --------------------

namespace Trigger

variable {symbols : Symbols} {profile : Profile} {entry : Entry} {parameter : Parameter}
  {value : Text}

def stringFields (profile : Profile) (opcode : Int) (value : Text) : TriggerFields where
  opcode
  first := 0
  flag := 0
  second := 0
  third := 0
  point := if profile.hasTriggerPoint then some "[0,0]" else none
  string1 := value
  string2 := emptyString
  object := profile.emptyFields

theorem eq_of_succeeds_add (hkind : parameter.kind = .string)
    (h : Succeeds ([(parameter, value)].foldlM (Fields.add symbols profile entry)
      { object := profile.emptyObject }) fields) :
    fields = { object := profile.emptyObject
               strings := ⟨[value, emptyString, emptyString, emptyString], 1⟩ } := by
  rw [List.foldlM_cons] at h
  obtain ⟨added, hadd, h⟩ := succeeds_bind.mp h
  obtain rfl := succeeds_pure.mp h
  cases Fields.succeeds_add.mp hadd with
  | string _ _ hfill =>
    obtain rfl := Except.ok.inj (succeeds_fill.mp hfill)
    rfl
  | integer hother => cases hkind.symm.trans hother
  | object hother => cases hkind.symm.trans hother
  | point hother => cases hkind.symm.trans hother
  | action hother => cases hkind.symm.trans hother

theorem text_of_succeeds (htakes : TakesString symbols "TRIGGER.IDS" entry parameter)
    (hmark : entry.name.head? ≠ some '!') (hvalue : Quoted value) (hcomma : ',' ∉ value)
    (h : Succeeds (encode symbols profile (entry.name ++ '(' :: (value ++ [')']))) (text, n)) :
    text = (stringFields profile (toSigned32 entry.id) value).text profile.emptyObject := by
  obtain ⟨name, inside, found, values, bound, fields, strings, hsplit, hentry, hvalues, hbound,
    hfields, hstrings, -, rfl, -⟩ := succeeds_encode.mp h
  rw [signed_eq (head?_call hmark _)] at hsplit ⊢
  obtain ⟨rfl, rfl⟩ := Prod.mk.inj (Except.ok.inj
    ((Call.split_concat htakes.parenthesis htakes.trimmed value).symm.trans hsplit))
  obtain rfl := Except.ok.inj (htakes.function.symm.trans hentry)
  obtain rfl := Except.ok.inj ((hvalue.arguments hcomma true).symm.trans hvalues)
  obtain rfl := Except.ok.inj
    ((Call.bind_zip htakes.signature rfl).symm.trans hbound)
  obtain rfl := eq_of_succeeds_add htakes.kind hfields
  obtain rfl := eq_of_succeeds_packStrings hvalue hstrings
  have hpoint : (if profile.hasTriggerPoint then [("[0,0]" : Text)] else []) =
      (if profile.hasTriggerPoint then some ("[0,0]" : Text) else none).toList := by
    split <;> rfl
  unfold Profile.triggerLayout TriggerFields.text
  rw [hpoint]
  rfl

theorem ends_express_string (htakes : TakesString symbols "TRIGGER.IDS" entry parameter)
    (hprinted : (Scope.unpack symbols value emptyString)[0]? = some (some printed)) :
    Expressing.Ends (fun text => ∃ comment,
        text = Comment.append (entry.name ++ '(' :: (printed ++ [')'])) comment) (fun _ => False)
      (express symbols profile entry (toSigned32 entry.id)
        (stringFields profile (toSigned32 entry.id) value).record) := by
  generalize hrecord : (stringFields profile (toSigned32 entry.id) value).record = record
  have hstrings : record.strings = some (value, emptyString) := hrecord ▸ rfl
  have hnegated : record.negated = false := hrecord ▸ rfl
  rw [express_eq]
  refine Expressing.Ends.bind (P := fun _ => True) (Expressing.ends_ofNoted trivial)
    fun object _ => ?_
  refine Expressing.Ends.bind (P := (· = entry)) ?_ fun found hfound => ?_
  · rw [htakes.definitionFor]
    exact Expressing.ends_pure rfl
  subst hfound
  refine Expressing.Ends.bind (P := (· = [parameter])) ?_ fun signature hsignature => ?_
  · rw [htakes.signature]
    exact Expressing.ends_pure rfl
  subst hsignature
  refine Expressing.Ends.bind (P := fun progress => progress.arguments = [printed])
    (Expressing.ends_ofNoted ?_) fun progress hprogress => ?_
  · rw [Noted.value_foldlM]
    simp [Progress.add, Progress.addM, htakes.kind, hstrings, hprinted]
  · refine Expressing.ends_pure ⟨progress.comment, ?_⟩
    simp [hprogress, hnegated]

theorem exists_chunk_string (hprofile : profile.Sized)
    (htakes : TakesString symbols "TRIGGER.IDS" entry parameter) (hvalue : Quoted value)
    (hprinted : (Scope.unpack symbols value emptyString)[0]? = some (some printed)) :
    ∃ chunk : Chunk .trigger (decode symbols profile),
      chunk.text = (stringFields profile (toSigned32 entry.id) value).text profile.emptyObject ∧
      ∃ comment, chunk.line.text =
        Comment.append (entry.name ++ '(' :: (printed ++ [')'])) comment := by
  have hclosed : (stringFields profile (toSigned32 entry.id) value).Closed := by
    refine ⟨fun point hpoint => ?_, hvalue, quoted_emptyString⟩
    dsimp only [stringFields] at hpoint
    split at hpoint
    · exact Option.some.inj hpoint ▸ ⟨"0,0", rfl, by decide⟩
    · cases hpoint
  have hnumbers : ∀ n ∈ [toSigned32 entry.id, 0, 0, 0, 0], Text.FewDigits (Text.ofInt n) :=
    List.forall_mem_cons.mpr ⟨Text.fewDigits_of_isWord htakes.word, by decide⟩
  have hdefinition : definition? symbols (toSigned32 entry.id) =
      some (entry, toSigned32 entry.id) := by
    rw [definition?, htakes.byId]
  exact TriggerFields.exists_chunk hprofile hclosed (Profile.reads_emptyObject hprofile) hnumbers
    hdefinition (ends_express_string htakes hprinted)

end Trigger

-- --------------------
-- Actions
-- --------------------

namespace Action

variable {symbols : Symbols} {profile : Profile} {entry : Entry} {parameter : Parameter}
  {value : Text}

def stringFields (profile : Profile) (opcode : Int) (value : Text) : ActionFields where
  opcode
  actor := profile.emptyFields
  object1 := profile.emptyFields
  object2 := profile.emptyFields
  first := 0
  x := 0
  y := 0
  second := 0
  third := 0
  string1 := value
  string2 := emptyString

theorem eq_of_succeeds_add (hkind : parameter.kind = .string)
    (h : Succeeds ([(parameter, value)].foldlM (Fields.add symbols profile entry)
      { objects := .blank 2 profile.emptyObject }) fields) :
    fields = { objects := .blank 2 profile.emptyObject
               strings := ⟨[value, emptyString, emptyString, emptyString], 1⟩ } := by
  rw [List.foldlM_cons] at h
  obtain ⟨added, hadd, h⟩ := succeeds_bind.mp h
  obtain rfl := succeeds_pure.mp h
  cases Fields.succeeds_add.mp hadd with
  | string _ _ _ hfill =>
    obtain rfl := Except.ok.inj (succeeds_fill.mp hfill)
    rfl
  | object htakes =>
    rcases htakes with hother | ⟨-, htwo, -⟩
    · cases hkind.symm.trans hother
    · exact absurd htwo (by decide : (0 : Int) ≠ 2)
  | integer hother => cases hkind.symm.trans hother
  | point hother => cases hkind.symm.trans hother
  | action hother => cases hkind.symm.trans hother

theorem text_of_succeeds (htakes : TakesString symbols "ACTION.IDS" entry parameter)
    (hvalue : Quoted value) (hcomma : ',' ∉ value)
    (h : Succeeds (encode symbols profile (entry.name ++ '(' :: (value ++ [')']))) text) :
    text = (stringFields profile (toSigned32 entry.id) value).text profile.emptyObject
      profile.emptyObject profile.emptyObject := by
  have hsplit := Call.split_concat htakes.parenthesis htakes.trimmed value
  obtain ⟨target, inner, actor, name, inside, found, hcall, hactor, hsplit', hentry, h⟩ :=
    succeeds_encode h
  obtain ⟨rfl, rfl⟩ := call_eq (fun name inside hfound => by
    obtain ⟨-, rfl⟩ := Prod.mk.inj (Except.ok.inj (hsplit.symm.trans hfound))
    exact hcomma) hcall
  obtain ⟨rfl, rfl⟩ := Prod.mk.inj (Except.ok.inj (hsplit.symm.trans hsplit'))
  obtain ⟨values, bound, fields, strings, hvalues, hbound, hfields, hstrings, -, rfl⟩ :=
    succeeds_encodeCall.mp h
  obtain rfl := Except.ok.inj (htakes.function.symm.trans hentry)
  obtain rfl := Except.ok.inj ((hvalue.arguments hcomma false).symm.trans hvalues)
  obtain rfl := Except.ok.inj
    ((Call.bind_zip htakes.signature rfl).symm.trans hbound)
  obtain rfl := eq_of_succeeds_add htakes.kind hfields
  obtain rfl := eq_of_succeeds_packStrings hvalue hstrings
  subst hactor
  rfl

theorem ends_stringComment_string
    (hspells : Text.upper parameter.definition = "S:SPELLS*" →
      ∀ c ∈ value, Text.isDigit c → Text.isDecimalDigit c) :
    Expressing.Ends (fun _ => True) (fun _ => False)
      (stringComment symbols entry parameter.definition value) := by
  unfold stringComment stringCommentM
  split
  · next hdefinition =>
    split
    · exact Expressing.ends_pure trivial
    · next abort habort => exact Comment.ofSpells_ne_error symbols (hspells hdefinition) habort
  · rw [← Expressing.ofNoted_ofResource]
    exact Expressing.ends_ofNoted trivial

theorem ends_express_string (htakes : TakesString symbols "ACTION.IDS" entry parameter)
    (hspells : Text.upper parameter.definition = "S:SPELLS*" →
      ∀ c ∈ value, Text.isDigit c → Text.isDecimalDigit c) :
    Expressing.Ends (fun text => ∃ comment,
        text = Comment.append (entry.name ++ '(' :: (value ++ [')'])) comment) (fun _ => False)
      (express symbols profile (stringFields profile (toSigned32 entry.id) value).record) := by
  rw [express_eq]
  refine Expressing.Ends.bind (P := (· = anyone))
    (Expressing.ends_ofNoted (Object.express_emptyFields symbols profile)) fun actor hactor => ?_
  refine Expressing.Ends.bind (P := fun _ => True) (Expressing.ends_ofNoted trivial)
    fun objects _ => ?_
  have hid : symbols.byId? "ACTION.IDS"
      (stringFields profile (toSigned32 entry.id) value).record.opcode = some entry := htakes.byId
  simp only [hid]
  refine Expressing.Ends.bind (P := (· = entry)) ?_ fun found hfound => ?_
  · rw [show (stringFields profile (toSigned32 entry.id) value).record.opcode =
      toSigned32 entry.id from rfl, htakes.definitionFor]
    exact Expressing.ends_pure rfl
  subst hfound
  refine Expressing.Ends.bind (P := (· = [parameter])) ?_ fun signature hsignature => ?_
  · rw [htakes.signature]
    exact Expressing.ends_pure rfl
  subst hsignature
  refine Expressing.Ends.bind (P := fun progress => progress.arguments = [value]) ?_
    fun progress hprogress => ?_
  · rw [List.foldlM_cons]
    refine Expressing.Ends.bind (P := fun progress => progress.arguments = [value]) ?_
      fun progress hprogress => Expressing.ends_pure hprogress
    have hvalue := reclaimScope_string htakes.kind symbols value
    simp only [Progress.add, Progress.addM, htakes.kind, stringFields, ActionFields.record, Option.map_some,
      hvalue, Option.join_some, Option.getD_some]
    exact (ends_stringComment_string hspells).bind fun comment _ => Expressing.ends_pure rfl
  · refine Expressing.ends_pure ⟨progress.comment, ?_⟩
    simp [hprogress, hactor]

theorem exists_chunk_string (hprofile : profile.Sized)
    (htakes : TakesString symbols "ACTION.IDS" entry parameter) (hvalue : Quoted value)
    (hspells : Text.upper parameter.definition = "S:SPELLS*" →
      ∀ c ∈ value, Text.isDigit c → Text.isDecimalDigit c) :
    ∃ chunk : Chunk .action (decode symbols profile),
      chunk.text = (stringFields profile (toSigned32 entry.id) value).text profile.emptyObject
        profile.emptyObject profile.emptyObject ∧
      ∃ comment, chunk.line.text =
        Comment.append (entry.name ++ '(' :: (value ++ [')'])) comment := by
  have hobject := Profile.reads_emptyObject hprofile
  have hnumbers : ∀ n ∈ [toSigned32 entry.id, 0, 0, 0, 0, 0], Text.FewDigits (Text.ofInt n) :=
    List.forall_mem_cons.mpr ⟨Text.fewDigits_of_isWord htakes.word, by decide⟩
  exact ActionFields.Reads.exists_chunk
    ⟨hobject, hobject, hobject, hvalue, quoted_emptyString, hnumbers⟩ hprofile
    (ends_express_string htakes hspells)

end Action

-- --------------------
-- Round trips
-- --------------------

theorem Trigger.decompileDialog_string {decompiler : Decompiler} {entry : Entry}
    (hprofile : decompiler.profile.Sized)
    (htakes : TakesString decompiler.symbols "TRIGGER.IDS" entry parameter) (hvalue : Quoted value)
    (hprinted : (Scope.unpack decompiler.symbols value emptyString)[0]? = some (some printed))
    (collect : Bool) :
    ∃ decompiled, decompiler.decompileDialog
        ((stringFields decompiler.profile (toSigned32 entry.id) value).text
          decompiler.profile.emptyObject) false collect = .ok decompiled ∧
      ∃ comment, decompiled.source =
        Comment.append (entry.name ++ '(' :: (printed ++ [')'])) comment ++ "\n" := by
  obtain ⟨chunk, htext, comment, hline⟩ := exists_chunk_string hprofile htakes hvalue hprinted
  obtain ⟨decompiled, hdecompile, hsource⟩ := decompiler.decompileDialog_chunk false chunk collect
  exact ⟨decompiled, htext ▸ hdecompile, comment, by rw [hsource, hline]⟩

theorem Action.decompileDialog_string {decompiler : Decompiler} {entry : Entry}
    (hprofile : decompiler.profile.Sized)
    (htakes : TakesString decompiler.symbols "ACTION.IDS" entry parameter) (hvalue : Quoted value)
    (hspells : Text.upper parameter.definition = "S:SPELLS*" →
      ∀ c ∈ value, Text.isDigit c → Text.isDecimalDigit c) (collect : Bool) :
    ∃ decompiled, decompiler.decompileDialog
        ((stringFields decompiler.profile (toSigned32 entry.id) value).text
          decompiler.profile.emptyObject decompiler.profile.emptyObject
          decompiler.profile.emptyObject) true collect = .ok decompiled ∧
      ∃ comment, decompiled.source =
        Comment.append (entry.name ++ '(' :: (value ++ [')'])) comment ++ "\n" := by
  obtain ⟨chunk, htext, comment, hline⟩ := exists_chunk_string hprofile htakes hvalue hspells
  obtain ⟨decompiled, hdecompile, hsource⟩ := decompiler.decompileDialog_chunk true chunk collect
  exact ⟨decompiled, htext ▸ hdecompile, comment, by rw [hsource, hline]⟩

/-- A call of a function of one string that compiles without an error is decompiled as it was
written, up to a comment, unless a trigger has a string that is taken for a packed variable:
then the line lacks the scope that the string begins with. -/
theorem decompileDialog_loneString {decompiler : Decompiler} {ids : Table} {entry : Entry}
    {source : Source} (hprofile : decompiler.profile.Sized) (hread : decompiler.symbols.IsRead)
    (hids : decompiler.symbols.table? (dialogTable isAction) = some ids)
    (hentry : ids.Single entry) (hsignature : entry.signature = .ok [parameter])
    (hkind : parameter.kind = .string) (hmark : isAction ∨ entry.name.head? ≠ some '!')
    (hvalue : Quoted value) (hcomma : ',' ∉ value) (hcomment : ¬ (['/', '/'] <:+: value))
    (hspells : isAction → Text.upper parameter.definition = "S:SPELLS*" →
      ∀ c ∈ value, Text.isDigit c → Text.isDecimalDigit c)
    (hsource : source = .text (entry.name ++ "(" ++ value ++ ")") ∨
      source = .lines [entry.name ++ "(" ++ value ++ ")"])
    (hcompile : compileDialog decompiler.symbols decompiler.profile source isAction = .ok compiled)
    (herrors : compiled.errors.isEmpty) (collect : Bool) :
    ∃ decompiled, decompiler.decompileDialog compiled.code isAction collect = .ok decompiled ∧
      (isAction ∨ ¬ Scope.Divides decompiler.symbols value → ∃ comment, decompiled.source =
        Comment.append (entry.name ++ "(" ++ value ++ ")") comment ++ "\n") ∧
      (¬ isAction → Scope.Divides decompiler.symbols value → ∃ comment, decompiled.source =
        Comment.append (entry.name ++ "(\"" ++ value.drop 7 ++ ")") comment ++ "\n") := by
  have htakes := hentry.takesString hread hids hsignature hkind
  have hcall : ∀ text : Text,
      entry.name ++ "(" ++ text ++ ")" = entry.name ++ '(' :: (text ++ [')']) := by
    simp
  rw [hcall] at hsource
  have hlines := htakes.listing hmark hvalue hcomma hcomment hsource hcompile herrors
  obtain ⟨-, encoded, hencoded, rfl⟩ := (compileDialog_singleton hlines).mp hcompile
  have hremarks := Noted.faultless_onLine.mp (Finding.faultless_of_isEmpty_errors herrors)
  cases isAction with
  | true =>
    obtain ⟨text, remarks, hsucceeds, rfl⟩ :=
      Encoded.settle_faultless (fun _ _ => rfl) hencoded hremarks
    obtain rfl := Action.text_of_succeeds htakes hvalue hcomma hsucceeds
    obtain ⟨decompiled, hdecompile, comment, hprinted⟩ :=
      Action.decompileDialog_string hprofile htakes hvalue (hspells rfl) collect
    refine ⟨decompiled, hdecompile, fun _ => ⟨comment, ?_⟩, nofun⟩
    rw [hprinted, hcall]
  | false =>
    obtain ⟨⟨text, n⟩, remarks, hsucceeds, rfl⟩ :=
      Encoded.settle_faultless (fun _ _ => rfl) hencoded hremarks
    obtain rfl := Trigger.text_of_succeeds htakes (by simpa using hmark) hvalue hcomma hsucceeds
    -- The one argument is the first part of the string, which is the whole of it or what is
    -- left behind the scope.
    by_cases hdivides : Scope.Divides decompiler.symbols value
    · have hunpack : (Scope.unpack decompiler.symbols value emptyString)[0]? =
          some (some ('"' :: value.drop 7)) := by
        rw [Scope.unpack_divides hdivides]
        rfl
      obtain ⟨decompiled, hdecompile, comment, hprinted⟩ :=
        Trigger.decompileDialog_string hprofile htakes hvalue hunpack collect
      refine ⟨decompiled, hdecompile, fun h => absurd hdivides (by simpa using h), fun _ _ =>
        ⟨comment, ?_⟩⟩
      rw [hprinted]
      simp
    · have hunpack : (Scope.unpack decompiler.symbols value emptyString)[0]? =
          some (some value) := by
        rw [Scope.unpack_not_divides hdivides]
        rfl
      obtain ⟨decompiled, hdecompile, comment, hprinted⟩ :=
        Trigger.decompileDialog_string hprofile htakes hvalue hunpack collect
      refine ⟨decompiled, hdecompile, fun _ => ⟨comment, ?_⟩, fun _ h => absurd h hdivides⟩
      rw [hprinted, hcall]

theorem decompileDialog_loneString_action :
    let decompiler : Decompiler :=
      ⟨.build [(Table.read "ACTION" "1 Foo(S:Name*)").value] [] [] [] none, .ofGame .none, "\t"⟩
    Scope.Divides decompiler.symbols "\"GLOBALfoo\"" ∧ ∃ compiled decompiled comment,
      compileDialog decompiler.symbols decompiler.profile (.text "Foo(\"GLOBALfoo\")") true =
        .ok compiled ∧ compiled.errors.isEmpty ∧
      decompiler.decompileDialog compiled.code true true = .ok decompiled ∧
      decompiled.source = Comment.append "Foo(\"GLOBALfoo\")" comment ++ "\n" := by
  intro decompiler
  have hread : decompiler.symbols.IsRead :=
    ⟨_, _, _, _, _, rfl, fun table hmem => ⟨_, _, List.mem_singleton.mp hmem⟩⟩
  have hids : decompiler.symbols.table? (dialogTable true) =
      some (Table.read "ACTION" "1 Foo(S:Name*)").value := rfl
  have hentry : (Table.read "ACTION" "1 Foo(S:Name*)").value.Single
      ⟨1, "Foo", some "S:Name*"⟩ :=
    ⟨by decide +kernel, by decide, by decide, by decide +kernel, by decide +kernel⟩
  have hsignature : Entry.signature ⟨1, "Foo", some "S:Name*"⟩ =
      .ok [⟨.string, "Name", none, "S:Name*"⟩] := by decide +kernel
  have hcomment : ¬ (['/', '/'] <:+: ("\"GLOBALfoo\"" : Text)) := by decide +kernel
  have hspells : Text.upper ("S:Name*" : Text) ≠ "S:SPELLS*" := by decide +kernel
  obtain ⟨compiled, hcompile, herrors⟩ := Outcome.exists_of_any (by decide +kernel :
    (compileDialog decompiler.symbols decompiler.profile (.text "Foo(\"GLOBALfoo\")")
      true).toOption.any fun compiled => compiled.errors.isEmpty)
  have hdivides : Scope.Divides decompiler.symbols "\"GLOBALfoo\"" := by
    unfold Scope.Divides
    decide +kernel
  obtain ⟨decompiled, hdecompile, hsame, -⟩ := decompileDialog_loneString
    (Profile.regular_ofGame .none).sized hread hids hentry hsignature rfl (.inl rfl)
    ⟨"GLOBALfoo", rfl, by decide⟩ (by decide) hcomment (fun _ h => absurd h hspells) (.inl rfl)
    hcompile herrors true
  obtain ⟨comment, hsource⟩ := hsame (.inl rfl)
  exact ⟨hdivides, compiled, decompiled, comment, hcompile, herrors, hdecompile, hsource⟩

/-- The scope at the beginning of the string of a trigger is lost. -/
theorem decompileDialog_loneString_trigger :
    let decompiler : Decompiler :=
      ⟨.build [(Table.read "TRIGGER" "1 Foo(S:Name*)").value] [] [] [] none, .ofGame .none, "\t"⟩
    ∃ compiled decompiled,
      compileDialog decompiler.symbols decompiler.profile (.text "Foo(\"GLOBALfoo\")") false =
        .ok compiled ∧ compiled.errors.isEmpty ∧
      decompiler.decompileDialog compiled.code false true = .ok decompiled ∧
      decompiled.source = "Foo(\"foo\")\n".toList := by
  intro decompiler
  obtain ⟨compiled, hcompile, hfound⟩ := Outcome.exists_of_any (by decide +kernel :
    (compileDialog decompiler.symbols decompiler.profile (.text "Foo(\"GLOBALfoo\")")
      false).toOption.any fun compiled => compiled.errors.isEmpty &&
        (decompiler.decompileDialog compiled.code false true).toOption.any fun decompiled =>
          decompiled.source = "Foo(\"foo\")\n".toList)
  obtain ⟨herrors, hfound⟩ := Bool.and_eq_true_iff.mp hfound
  obtain ⟨decompiled, hdecompile, hsource⟩ := Outcome.exists_of_any hfound
  exact ⟨compiled, decompiled, hcompile, herrors, hdecompile, of_decide_eq_true hsource⟩

end InfinityScript
