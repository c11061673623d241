import InfinityScript.Proofs.Script.SaidLines
import InfinityScript.Proofs.Script.SlotCalls

/-!
# Objects in their slots

The decoder passes over an empty first object, also where the signature has a parameter for
it: two objects of which only the second says something change places. So a call of objects
and numbers is compiled again to its code exactly when its objects are not such a pair
(`recompile_objects_iff`).
-/

namespace InfinityScript

open Encoding

-- --------------------
-- Arguments
-- --------------------

theorem Source.slashes_notMem_listing {source : Source} (h : line ∈ source.listing.lines) :
    ¬ (['/', '/'] <:+: line.text) := by
  obtain ⟨-, physical, -, hstatement⟩ := Source.exists_physicalLine h
  rw [← hstatement]
  exact fun hmem => Text.not_infix_beforeComment physical (hmem.trans (Text.trim_isInfix _))

theorem Action.Calls.value_isInfix (h : Calls symbols line entry pairs)
    (hmem : argument ∈ pairs) (hcomma : ',' ∉ argument.2) : argument.2 <:+: line := by
  obtain ⟨name, inside, values, hsplit, -, hvalues, hbind⟩ := h
  exact (Call.infix_bound hvalues hbind argument hmem hcomma).trans (Call.split_isInfix hsplit).2

namespace Object

variable {symbols : Symbols} {profile : Profile}

theorem succeeds_encode_definition (h : Succeeds (encode symbols profile definition value) text)
    (other : Text) : Succeeds (encode symbols profile other value) text := by
  obtain ⟨part, hcode, rfl, -⟩ := succeeds_ofPart.mp h
  obtain ⟨⟨qualifiers, core⟩, hparts, hcode⟩ := Outcome.bind_ok.mp hcode
  refine code_eq (Refusal.ofFault_ok.mp hparts) ?_ other
  dsimp only at hcode
  split at hcode
  · next hhead =>
    obtain ⟨text, htext, hcode⟩ := Outcome.bind_ok.mp hcode
    obtain rfl := Outcome.pure_ok.mp hcode
    exact .inl ⟨hhead, htext⟩
  · next hhead =>
    obtain ⟨text, htext, hcode⟩ := Outcome.bind_ok.mp hcode
    obtain rfl := Outcome.pure_ok.mp hcode
    exact .inr (.inl ⟨hhead, htext⟩)
  · next hbracket hquote =>
    obtain ⟨text, htext, hcode⟩ := Outcome.bind_ok.mp hcode
    obtain rfl := Outcome.pure_ok.mp hcode
    exact .inr (.inr ⟨hbracket, hquote, htext⟩)

theorem succeeds_encode_anyone (hzeros : profile.checkTrailing = .ok ()) (symbols : Symbols)
    (definition : Text) : Succeeds (encode symbols profile definition anyone) profile.emptyObject := by
  have hqualify : qualify symbols anyone = .ok ([], anyone) := rfl
  refine code_eq hqualify (.inl ⟨rfl, ?_⟩) definition
  rw [vectorCode, hzeros]
  rfl

/-- An argument is encoded as a record whose expression, with no comma and no end in the middle,
is encoded as the same record. -/
structure Restores (symbols : Symbols) (profile : Profile) (argument : Parameter × Text)
    (expression : Text) : Prop where
  value_comma : ',' ∉ argument.2
  record : ∃ text tokens record said,
    Succeeds (encode symbols profile argument.1.definition argument.2) text ∧
      readTokens text = .ok tokens ∧
      (ObjectRecord.read profile).run tokens.tail = (.ok record, []) ∧
      Pass.Says (expressM symbols profile record) said ∧ said.value = expression ∧
      Succeeds (encode symbols profile argument.1.definition expression) text
  expression_comma : ',' ∉ expression
  whole : ∀ delimiter, Call.isCut delimiter expression = false

/-- An object in a slot: its code, its expression that stands for itself as an argument, and the
fields that are read from the one and expressed by the other. -/
structure Slot (symbols : Symbols) (profile : Profile) where
  code : Text
  fields : ObjectFields
  expression : Text
  reads : fields.Reads profile code
  express_eq : (express symbols profile fields.record).value = expression
  spoken : Call.Spoken expression
  succeeds : ∀ definition, Succeeds (encode symbols profile definition expression) code

def Slot.empty (symbols : Symbols) (hprofile : profile.Sized) (hzeros : profile.checkTrailing = .ok ()) :
    Slot symbols profile where
  code := profile.emptyObject
  fields := profile.emptyFields
  expression := anyone
  reads := Profile.reads_emptyObject hprofile
  express_eq := express_emptyFields symbols profile
  spoken := Call.spoken_anyone
  succeeds := succeeds_encode_anyone hzeros symbols

theorem Slot.code_eq_of_expression {slot other : Slot symbols profile}
    (h : slot.expression = other.expression) : slot.code = other.code :=
  (slot.succeeds []).unique (h ▸ other.succeeds [])

theorem Restores.exists_slot (h : Restores symbols profile argument expression)
    (hprofile : profile.Sized) (hread : symbols.IsRead)
    (hslashes : ¬ (['/', '/'] <:+: argument.2)) (hnewline : '\n' ∉ argument.2) :
    ∃ slot : Slot symbols profile, slot.expression = expression ∧
      Succeeds (encode symbols profile argument.1.definition argument.2) slot.code := by
  obtain ⟨text, tokens, record, said, hencode, htokens, hrun, hsaid, hvalue, hagain⟩ := h.record
  obtain rfl : (express symbols profile record).value = expression :=
    ((Pass.says_object symbols profile record).value_eq hsaid).trans hvalue
  obtain ⟨part, hcode, rfl, -⟩ := succeeds_ofPart.mp hencode
  obtain ⟨qualifiers, core, again, fields, hqualify, hgives, hreads, rfl⟩ :=
    exists_gives_of_run hprofile hcode htokens hrun
  have hcore : Text.beforeComment core = core ∧ '\n' ∉ core := by
    rcases (qualify_parts hqualify).2.1 with hwithin | rfl
    · exact ⟨Text.beforeComment_eq_self_of_not_infix fun hmem => hslashes (hmem.trans hwithin),
        fun hmem => hnewline (hwithin.subset hmem)⟩
    · decide
  have hspoken := hgives.spoken_express hread hcore.1 hcore.2 h.expression_comma h.whole
  exact ⟨⟨part.value, fields, _, hreads, rfl, hspoken, succeeds_encode_definition hagain⟩, rfl, hencode⟩

end Object

-- --------------------
-- Slots of a record
-- --------------------

namespace Action

variable {symbols : Symbols} {profile : Profile}

open Object (Slot)

theorem Places.length_eq (h : Places symbols profile pairs codes numbers) :
    codes.length = Signature.count (pairs.map Prod.fst) .object ∧
      numbers.length = Signature.count (pairs.map Prod.fst) .integer := by
  induction h with
  | nil => exact ⟨rfl, rfl⟩
  | object hkind _ _ ih => simpa [Signature.count, hkind] using ih
  | integer hkind _ _ ih => simpa [Signature.count, hkind] using ih

theorem exists_places {pairs : List (Parameter × Text)} {expressions : List Text} {numbers : List Int}
    (hprofile : profile.Sized) (hread : symbols.IsRead) (hslots : ∀ pair ∈ pairs, pair.1.IsSlot)
    (hspoken : ∀ pair ∈ pairs, ',' ∉ pair.2 → ¬ (['/', '/'] <:+: pair.2) ∧ '\n' ∉ pair.2)
    (hobjects : List.Forall₂ (Object.Restores symbols profile)
      (pairs.filter (·.1.kind = .object)) expressions)
    (hnumbers : List.Forall₂ (fun pair n => Text.literal pair.2 = .ok (some n) ∧ IsWord n)
      (pairs.filter (·.1.kind = .integer)) numbers) :
    ∃ slots : List (Slot symbols profile), slots.map Slot.expression = expressions ∧
      Places symbols profile pairs (slots.map Slot.code) numbers := by
  induction pairs generalizing expressions numbers with
  | nil =>
    cases hobjects
    cases hnumbers
    exact ⟨[], rfl, .nil⟩
  | cons pair pairs ih =>
    obtain ⟨hslot, hslots⟩ := List.forall_mem_cons.mp hslots
    obtain ⟨hpair, hspoken⟩ := List.forall_mem_cons.mp hspoken
    rcases hslot with hkind | ⟨hkind, -⟩
    · rw [List.filter_cons_of_pos (by simpa using hkind)] at hobjects
      rw [List.filter_cons_of_neg (by simp [hkind])] at hnumbers
      cases hobjects with
      | cons hobject hobjects =>
        obtain ⟨hslashes, hnewline⟩ := hpair hobject.value_comma
        obtain ⟨slot, rfl, hencode⟩ := hobject.exists_slot hprofile hread hslashes hnewline
        obtain ⟨slots, rfl, hplaces⟩ := ih hslots hspoken hobjects hnumbers
        exact ⟨slot :: slots, rfl, .object hkind hencode hplaces⟩
    · rw [List.filter_cons_of_neg (by simp [hkind])] at hobjects
      rw [List.filter_cons_of_pos (by simpa using hkind)] at hnumbers
      cases hnumbers with
      | cons hnumber hnumbers =>
        obtain ⟨slots, rfl, hplaces⟩ := ih hslots hspoken hobjects hnumbers
        exact ⟨slots, rfl,
          .integer hkind (Argument.succeeds_literal hnumber.1 hnumber.2 symbols _) hplaces⟩

theorem forall₂_reads (slots : List (Slot symbols profile)) :
    List.Forall₂ (fun fields code => fields.Reads profile code) (slots.map Slot.fields)
      (slots.map Slot.code) := by
  rw [List.forall₂_map_left_iff, List.forall₂_map_right_iff, List.forall₂_same]
  exact fun slot _ => slot.reads

theorem forall₂_succeeds (slots : List (Slot symbols profile)) :
    List.Forall₂ (fun object code => ∀ definition,
        Succeeds (Object.encode symbols profile definition object) code)
      (slots.map Slot.expression) (slots.map Slot.code) := by
  rw [List.forall₂_map_left_iff, List.forall₂_map_right_iff, List.forall₂_same]
  exact fun slot _ => slot.succeeds

section

variable (hprofile : profile.Sized) (hzeros : profile.checkTrailing = .ok ())

theorem slotObjects_slots (slots : List (Slot symbols profile)) :
    slotObjects symbols profile (slots.map Slot.fields) =
      [(slots.getD 0 (.empty symbols hprofile hzeros)).expression,
        (slots.getD 1 (.empty symbols hprofile hzeros)).expression] := by
  have hslot : ∀ i, (Object.express symbols profile
      ((slots.map Slot.fields).getD i profile.emptyFields).record).value =
        (slots.getD i (.empty symbols hprofile hzeros)).expression := by
    intro i
    simp only [List.getD_eq_getElem?_getD, List.getElem?_map]
    cases slots[i]? with
    | none => exact (Slot.empty symbols hprofile hzeros).express_eq
    | some slot => exact slot.express_eq
  simp only [slotObjects, List.map_cons, List.map_nil, hslot]

theorem getD_code (slots : List (Slot symbols profile)) (i : Nat) :
    (slots.map Slot.code).getD i profile.emptyObject =
      (slots.getD i (.empty symbols hprofile hzeros)).code := by
  simp only [List.getD_eq_getElem?_getD, List.getElem?_map]
  cases slots[i]? <;> rfl

include hprofile hzeros in
/-- The objects of a record are told by their expressions. -/
theorem slotText_slots_inj (hopcode : Text.FewDigits (Text.ofInt opcode))
    (hnumbers : ∀ n ∈ numbers, IsWord n) {slots others : List (Slot symbols profile)} :
    slotText profile opcode (slots.map Slot.code) numbers =
        slotText profile opcode (others.map Slot.code) numbers ↔
      slotObjects symbols profile (slots.map Slot.fields) =
        slotObjects symbols profile (others.map Slot.fields) := by
  constructor
  · intro h
    have hrecord := (reads_slotFields hprofile (forall₂_reads slots) hopcode hnumbers).record_eq
      (reads_slotFields hprofile (forall₂_reads others) hopcode hnumbers) hprofile h
    exact congrArg (fun record => record.objects.map fun object =>
      (Object.express symbols profile object).value) hrecord
  · intro h
    simp only [slotObjects_slots hprofile hzeros, List.cons.injEq, and_true] at h
    have hfirst := Slot.code_eq_of_expression h.1
    have hsecond := Slot.code_eq_of_expression h.2
    simp only [slotText, getD_code hprofile hzeros, hfirst, hsecond]

/-- The slots that the decoder takes objects from. -/
def passed (slots : List (Slot symbols profile)) : List (Slot symbols profile) :=
  match slots with
  | [first, second] =>
    if first.expression = anyone then [second, .empty symbols hprofile hzeros] else [first, second]
  | slots => slots

theorem picks_slots {slots : List (Slot symbols profile)} (h : slots.length ≤ 2) :
    picks (slotObjects symbols profile (slots.map Slot.fields)) slots.length 0 =
      (passed hprofile hzeros slots).map Slot.expression := by
  rw [slotObjects_slots hprofile hzeros]
  match slots, h with
  | [], _ => rfl
  | [slot], _ =>
    by_cases hslot : slot.expression = anyone
    · simp [picks, pickObject, passed, hslot, Slot.empty]
    · simp [picks, pickObject, passed, hslot]
  | [first, second], _ =>
    by_cases hfirst : first.expression = anyone
    · simp [picks, pickObject, passed, hfirst, Slot.empty]
    · simp [picks, pickObject, passed, hfirst]

/-- Objects stay in their slots unless only the second of two says something. -/
theorem passed_eq_iff {slots : List (Slot symbols profile)} (h : slots.length ≤ 2) :
    slotObjects symbols profile ((passed hprofile hzeros slots).map Slot.fields) =
        slotObjects symbols profile (slots.map Slot.fields) ↔
      ∀ second, slots.map Slot.expression = [anyone, second] → second = anyone := by
  simp only [slotObjects_slots hprofile hzeros]
  match slots, h with
  | [], _ => simp [passed]
  | [slot], _ => simp [passed]
  | [first, second], _ =>
    by_cases hfirst : first.expression = anyone
    · simp [passed, hfirst, Slot.empty, eq_comm]
    · simp [passed, hfirst]

theorem exceeds_slots {slots : List (Slot symbols profile)} {numbers : List Int} {signature : Signature}
    (hslots : slots.length = Signature.count signature .object)
    (hnumbers : numbers.length = Signature.count signature .integer) (htwo : slots.length ≤ 2)
    (hthree : numbers.length ≤ 3) :
    exceeds [(slots.getD 0 (.empty symbols hprofile hzeros)).expression,
      (slots.getD 1 (.empty symbols hprofile hzeros)).expression] (slotNumbers numbers) signature =
        false := by
  have hcount : numbers.countP (· ≠ 0) ≤ numbers.length := List.countP_le_length
  have hobjects : List.countP (· ≠ anyone) [(slots.getD 0 (.empty symbols hprofile hzeros)).expression,
      (slots.getD 1 (.empty symbols hprofile hzeros)).expression] ≤ slots.length := by
    match slots, htwo with
    | [], _ => simp [Slot.empty]
    | [slot], _ => simp [Slot.empty, List.countP_cons]; split <;> omega
    | [first, second], _ => exact List.countP_le_length
  rw [exceeds, countP_slotNumbers hthree, ← hslots, ← hnumbers]
  simp only [Bool.or_eq_false_iff, decide_eq_false_iff_not]
  omega

end

theorem take_slotNumbers {numbers : List Int} (h : numbers.length ≤ 3) :
    (slotNumbers numbers).take numbers.length = numbers := by
  match numbers, h with
  | [], _ => rfl
  | [_], _ => rfl
  | [_, _], _ => rfl
  | [_, _, _], _ => rfl

end Action

theorem Table.Sole.defines {symbols : Symbols} {ids : Table} {entry : Entry} {signature : Signature}
    (h : ids.Sole entry) (hread : symbols.IsRead) (hids : symbols.table? "ACTION.IDS" = some ids)
    (hsignature : entry.signature = .ok signature)
    (hexceeds : Action.exceeds objects integers signature = false) :
    Action.Defines symbols (toSigned32 entry.id) objects integers entry := by
  refine ⟨entry, ?_, ?_⟩
  · rw [Symbols.byId?, hids, Option.bind_some, h.get? (hread.made _ ids hids)]
  · unfold Symbols.definitionFor
    split
    · rfl
    · refine Outcome.bind_ok.mpr ⟨signature, hsignature, ?_⟩
      rw [if_neg (by simp [hexceeds])]
      rfl

-- --------------------
-- Calls
-- --------------------

/-- A call of objects and numbers is compiled, decompiled and compiled again to its code, unless
its objects are two of which only the second is someone. -/
theorem recompile_objects_iff {decompiler : Decompiler} {game : Game} {ids : Table} {entry : Entry}
    {signature : Signature} {source : Source} {line : Line} {pairs : List (Parameter × Text)}
    {expressions : List Text} {numbers : List Int} (hgame : decompiler.profile = .ofGame game)
    (hread : decompiler.symbols.IsRead) (hids : decompiler.symbols.table? "ACTION.IDS" = some ids)
    (hentry : ids.Sole entry) (hfew : Text.FewDigits (Text.ofInt (toSigned32 entry.id)))
    (hoverride : Text.upper entry.name ≠ "ACTIONOVERRIDE")
    (hsignature : entry.signature = .ok signature)
    (hslots : ∀ parameter ∈ signature, parameter.IsSlot)
    (hobjects : Signature.count signature .object ≤ 2)
    (hintegers : Signature.count signature .integer ≤ 3)
    (hlines : source.listing.lines = [line]) (hnewline : '\n' ∉ line.text)
    (hcalls : Action.Calls decompiler.symbols line.text entry pairs)
    (hrestores : List.Forall₂ (Object.Restores decompiler.symbols decompiler.profile)
      (pairs.filter (·.1.kind = .object)) expressions)
    (hnumbers : List.Forall₂ (fun pair n => Text.literal pair.2 = .ok (some n) ∧ IsWord n)
      (pairs.filter (·.1.kind = .integer)) numbers) (collect : Bool) :
    ∃ compiled decompiled again,
      compileDialog decompiler.symbols decompiler.profile source true = .ok compiled ∧
      compiled.errors.isEmpty ∧
      decompiler.decompileDialog compiled.code true collect = .ok decompiled ∧
      compileDialog decompiler.symbols decompiler.profile (.text decompiled.source) true = .ok again ∧
      again.errors.isEmpty ∧ (again.code = compiled.code ↔
        ∀ second, expressions = [anyone, second] → second = anyone) := by
  have hprofile : decompiler.profile.Sized := hgame ▸ (Profile.regular_ofGame game).sized
  obtain ⟨hwidths, hzeros⟩ : decompiler.profile.HasZeros := hgame ▸ Profile.hasZeros_ofGame game
  have hpairs := hcalls.map_fst hsignature
  have hslashes := Source.slashes_notMem_listing (hlines ▸ List.mem_singleton_self line)
  -- The arguments stand in the line, so that they have neither comments nor line feeds.
  obtain ⟨slots, rfl, hplaces⟩ := Action.exists_places hprofile hread
    (fun pair hmem => hslots pair.1 (hpairs ▸ List.mem_map_of_mem hmem)) (fun pair hmem hcomma =>
      have hwithin := hcalls.value_isInfix hmem hcomma
      ⟨fun hcomment => hslashes (hcomment.trans hwithin), fun hmem => hnewline (hwithin.subset hmem)⟩)
    hrestores hnumbers
  obtain ⟨hcodes, hcount⟩ := hplaces.length_eq
  rw [hpairs] at hcodes hcount
  rw [List.length_map] at hcodes
  have htwo : slots.length ≤ 2 := hcodes ▸ hobjects
  have hthree : numbers.length ≤ 3 := hcount ▸ hintegers
  have hwords := Action.isWord_of_literals hnumbers
  have hencode := hcalls.succeeds_encode hoverride hfew hplaces (by simpa using htwo) hthree
  obtain ⟨compiled, hcompile, herrors, hcode⟩ := exists_compileDialog hwidths hlines hencode
  have hfunction : entry.isFunction := by
    obtain ⟨_, _, _, -, hfunction, -⟩ := hcalls
    exact (Symbols.function_ok hfunction).2
  have hprints : Action.Prints decompiler.symbols (toSigned32 entry.id) entry signature :=
    ⟨hread.callable hids hentry.mem hentry.name hfunction, rfl, hoverride, hsignature, hslots,
      hobjects, hintegers⟩
  have hexpressions := Action.slotObjects_slots hprofile hzeros slots
  have hdefines := hentry.defines hread hids hsignature
    (hexpressions ▸ Action.exceeds_slots hprofile hzeros hcodes hcount htwo hthree)
  have hspoken : ∀ text ∈ Action.slotObjects decompiler.symbols decompiler.profile
      (slots.map Object.Slot.fields), Call.Spoken text := by
    rw [hexpressions]
    simpa using ⟨Object.Slot.spoken _, Object.Slot.spoken _⟩
  have hpicks := Action.picks_slots hprofile hzeros htwo
  obtain ⟨decompiled, again, comment, hdecompile, -, hagain, hagainErrors, hagainCode⟩ :=
    Action.exists_recompiled hprofile hwidths (Action.forall₂_reads slots) hfew hwords hdefines hprints
      hspoken (hcodes ▸ hpicks ▸ Action.forall₂_succeeds _) collect
  refine ⟨compiled, decompiled, again, hcompile, herrors, hcode ▸ hdecompile, hagain, hagainErrors, ?_⟩
  rw [hagainCode, hcode, ← hcount, Action.take_slotNumbers hthree,
    Action.slotText_slots_inj hprofile hzeros hfew hwords]
  exact Action.passed_eq_iff hprofile hzeros htwo

theorem recompile_objects_iff_sample :
    let decompiler : Decompiler :=
      ⟨.build [(Table.read "ACTION" "1 Foo(O:A*,I:N*,O:B*)").value,
        (Table.read "OBJECT" "1 Myself\n12 NearestEnemyOf").value] [] [] [] none, .ofGame .none, "\t"⟩
    ∃ compiled decompiled again,
      compileDialog decompiler.symbols decompiler.profile
        (.text "Foo(NearestEnemyOf(Myself),7,[ANYONE])") true = .ok compiled ∧
      compiled.errors.isEmpty ∧
      decompiler.decompileDialog compiled.code true true = .ok decompiled ∧
      compileDialog decompiler.symbols decompiler.profile (.text decompiled.source) true = .ok again ∧
      again.code = compiled.code := by
  intro decompiler
  let ids := (Table.read "ACTION" "1 Foo(O:A*,I:N*,O:B*)").value
  let entry : Entry := ⟨1, "Foo", some "O:A*,I:N*,O:B*"⟩
  let first : Parameter × Text := (⟨.object, "A", none, "O:A*"⟩, "NearestEnemyOf(Myself)")
  let second : Parameter × Text := (⟨.integer, "N", none, "I:N*"⟩, "7")
  let third : Parameter × Text := (⟨.object, "B", none, "O:B*"⟩, anyone)
  have hgame : decompiler.profile = .ofGame .none := rfl
  have hread : decompiler.symbols.IsRead := by
    refine ⟨_, _, _, _, _, rfl, fun table hmem => ?_⟩
    rcases List.mem_pair.mp hmem with rfl | rfl
    · exact ⟨_, _, rfl⟩
    · exact ⟨_, _, rfl⟩
  have hentry : ids.Sole entry :=
    ⟨by decide +kernel, by decide, by decide +kernel, by decide +kernel⟩
  have hsignature : entry.signature = .ok [first.1, second.1, third.1] := by decide +kernel
  have hlines : (Source.listing (.text "Foo(NearestEnemyOf(Myself),7,[ANYONE])")).lines =
      [⟨1, "Foo(NearestEnemyOf(Myself),7,[ANYONE])"⟩] := by decide +kernel
  have hcalls : Action.Calls decompiler.symbols "Foo(NearestEnemyOf(Myself),7,[ANYONE])" entry
      [first, second, third] :=
    ⟨"Foo", "NearestEnemyOf(Myself),7,[ANYONE]", [first.2, second.2, third.2], by decide +kernel,
      by decide +kernel, by decide +kernel, by decide +kernel⟩
  let code : Text := "OB\n0 0 0 0 0 0 0 1 12 0 0 0 \"\"OB"
  have hqualify : Object.qualify decompiler.symbols first.2 = .ok ([12], "Myself") := by decide +kernel
  have hfirst : Succeeds (Object.encode decompiler.symbols decompiler.profile "O:A*" first.2) code :=
    Object.code_eq hqualify (.inr (.inr ⟨by decide, by decide, by decide +kernel⟩)) _
  have hthird : Succeeds (Object.encode decompiler.symbols decompiler.profile "O:B*" third.2)
      decompiler.profile.emptyObject := Object.succeeds_encode_anyone (by decide) _ _
  have hrestores : List.Forall₂ (Object.Restores decompiler.symbols decompiler.profile)
      [first, third] [first.2, third.2] := by
    refine .cons ⟨by decide, ⟨code, tokenize code, ⟨[0, 0, 0, 0, 0, 0, 0, 1, 12, 0, 0, 0], none, emptyString⟩,
      _, hfirst, by decide +kernel, by decide +kernel, Pass.says_object _ _ _, by decide +kernel, hfirst⟩,
      by decide, ?_⟩
      (.cons ⟨by decide, ⟨_, tokenize decompiler.profile.emptyObject, ⟨List.replicate 12 0, none, emptyString⟩,
        _, hthird, by decide +kernel, by decide +kernel, Pass.says_object _ _ _, by decide +kernel, hthird⟩,
        by decide, ?_⟩ .nil)
    · exact fun delimiter => by cases delimiter <;> rfl
    · exact fun delimiter => by cases delimiter <;> rfl
  have hnumbers : List.Forall₂
      (fun (pair : Parameter × Text) n => Text.literal pair.2 = .ok (some n) ∧ IsWord n)
      [second] [7] := .cons ⟨by decide +kernel, by decide⟩ .nil
  obtain ⟨compiled, decompiled, again, hcompile, herrors, hdecompile, hagain, -, hsame⟩ :=
    recompile_objects_iff hgame hread
      (rfl : decompiler.symbols.table? "ACTION.IDS" = some ids) hentry (by decide +kernel)
      (by decide +kernel) hsignature (by decide) (by decide) (by decide) hlines (by decide) hcalls
      hrestores hnumbers true
  exact ⟨compiled, decompiled, again, hcompile, herrors, hdecompile, hagain,
    hsame.mpr fun second h => absurd (List.cons.inj h).1 (by decide)⟩

/-- The second of two objects takes the place of the first, if that is anyone. -/
theorem recompile_objects_swapped :
    let decompiler : Decompiler :=
      ⟨.build [(Table.read "ACTION" "1 Foo(O:A*,O:B*)").value, (Table.read "OBJECT" "1 Myself").value]
        [] [] [] none, .ofGame .none, "\t"⟩
    ∃ compiled decompiled again,
      compileDialog decompiler.symbols decompiler.profile (.text "Foo([ANYONE],Myself)") true =
        .ok compiled ∧ compiled.errors.isEmpty ∧
      decompiler.decompileDialog compiled.code true true = .ok decompiled ∧
      decompiled.source = "Foo(Myself,[ANYONE])\n".toList ∧
      compileDialog decompiler.symbols decompiler.profile (.text decompiled.source) true = .ok again ∧
      again.code ≠ compiled.code := by
  intro decompiler
  obtain ⟨compiled, decompiled, again, hcompile, hdecompile, hagain, herrors, hsource, hne⟩ :=
    exists_recompiled_of_any decompiler (.text "Foo([ANYONE],Myself)")
      (fun compiled decompiled again => compiled.errors.isEmpty ∧
        decompiled.source = "Foo(Myself,[ANYONE])\n".toList ∧ again.code ≠ compiled.code) (by decide +kernel)
  exact ⟨compiled, decompiled, again, hcompile, herrors, hdecompile, hsource, hagain, hne⟩

end InfinityScript
