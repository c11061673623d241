import InfinityScript.Proofs.Argument.FoldCase
import InfinityScript.Proofs.Script.Halts
import InfinityScript.Proofs.Script.KeptArguments
import InfinityScript.Proofs.Script.LoneString

/-!
# Dialogs in either case

Where objects have no area and triggers no point, what is not quoted may be written in either
case: a trigger or an action that is encoded without a fault has the same record when its ASCII
letters are in another case (`Trigger.encode_caseAlike`, `Action.encode_caseAlike`), and so a
dialog has the same code (`compileDialog_caseAlike`). A string has to be quoted, so that none is
among the arguments.
-/

namespace InfinityScript

open Encoding Text

-- --------------------
-- Calls
-- --------------------

namespace Outcome

theorem toOption_eq_some_iff {x : Except ε α} : x.toOption = some a ↔ x = .ok a := by
  cases x <;> simp [Except.toOption]

theorem exists_of_toOption_map_eq {x y : Except ε α} {f : α → β}
    (h : y.toOption.map f = x.toOption.map f) (hx : x = .ok a) : ∃ b, y = .ok b ∧ f b = f a := by
  rw [hx] at h
  obtain ⟨b, hb, hf⟩ := Option.map_eq_some_iff.mp h
  exact ⟨b, toOption_eq_some_iff.mp hb, hf⟩

end Outcome

section

variable {line other : Text} (h : foldCase other = foldCase line)
include h

theorem Text.trim_caseAlike : foldCase (trim other) = foldCase (trim line) := by
  rw [← trim_foldCase, h, trim_foldCase]

theorem Text.exists_cut?_caseAlike (hmark : isCaseless mark)
    (hcut : cut? mark line = some (before, after)) :
    ∃ before' after', cut? mark other = some (before', after') ∧
      foldCase before' = foldCase before ∧ foldCase after' = foldCase after := by
  have hlower := cut?_foldCase hmark other
  rw [h, cut?_foldCase hmark, hcut] at hlower
  obtain ⟨⟨before', after'⟩, hother, hparts⟩ := Option.map_eq_some_iff.mp hlower.symm
  obtain ⟨hbefore, hafter⟩ := Prod.mk.inj hparts
  exact ⟨before', after', hother, hbefore, hafter⟩

theorem Call.exists_split_caseAlike (hsplit : Call.split line = .ok (name, inside)) :
    ∃ name' inside', Call.split other = .ok (name', inside') ∧
      foldCase name' = foldCase name ∧ foldCase inside' = foldCase inside := by
  have hlower : (Call.split other).toOption.map (Prod.map foldCase foldCase) =
      (Call.split line).toOption.map (Prod.map foldCase foldCase) := by
    rw [← Outcome.toOption_map, ← Outcome.toOption_map, ← Call.split_foldCase, h,
      Call.split_foldCase]
  obtain ⟨⟨name', inside'⟩, hother, hparts⟩ := Outcome.exists_of_toOption_map_eq hlower hsplit
  obtain ⟨hname, hinside⟩ := Prod.mk.inj hparts
  exact ⟨name', inside', hother, hname, hinside⟩

theorem Symbols.function_caseAlike {symbols : Symbols}
    (hentry : symbols.function table line = .ok entry) :
    symbols.function table other = .ok entry := by
  rw [← Outcome.toOption_eq_some_iff] at hentry ⊢
  rw [← hentry, ← Symbols.function_foldCase, h, Symbols.function_foldCase]

theorem Call.exists_bind_caseAlike (hvalues : Call.arguments line quotesFirst = .ok values)
    (hbound : Call.bind entry values = .ok pairs) :
    ∃ values' pairs', Call.arguments other quotesFirst = .ok values' ∧
      Call.bind entry values' = .ok pairs' ∧
      pairs'.map Call.foldArgument = pairs.map Call.foldArgument := by
  have hlower : (Call.arguments other quotesFirst).toOption.map (List.map foldCase) =
      (Call.arguments line quotesFirst).toOption.map (List.map foldCase) := by
    rw [← Call.arguments_foldCase, h, Call.arguments_foldCase]
  obtain ⟨values', hother, hmap⟩ := Outcome.exists_of_toOption_map_eq hlower hvalues
  have hlower : (Call.bind entry values').toOption.map (List.map Call.foldArgument) =
      (Call.bind entry values).toOption.map (List.map Call.foldArgument) := by
    rw [← Outcome.toOption_map, ← Outcome.toOption_map, ← Call.bind_foldCase, hmap,
      Call.bind_foldCase]
  obtain ⟨pairs', hbound', hpairs⟩ := Outcome.exists_of_toOption_map_eq hlower hbound
  exact ⟨values', pairs', hother, hbound', hpairs⟩

end

-- --------------------
-- Arguments
-- --------------------

/-- What each argument keeps related to what its like does, all of them keep related. -/
theorem Encoding.simulate_foldlM {R : σ → σ → Prop} {like : α → β} {f : σ → α → Encoding σ}
    {xs ys : List α} (h : Succeeds (xs.foldlM f init) final) (hinit : R init init')
    (hlike : ys.map like = xs.map like)
    (hstep : ∀ state state' next, ∀ x ∈ xs, ∀ y, like y = like x → R state state' →
      Succeeds (f state x) next → ∃ next', Succeeds (f state' y) next' ∧ R next next') :
    ∃ final', Succeeds (ys.foldlM f init') final' ∧ R final final' := by
  induction xs generalizing ys init init' with
  | nil =>
    obtain rfl := List.map_eq_nil_iff.mp hlike
    obtain rfl := succeeds_pure.mp h
    exact ⟨init', succeeds_pure.mpr rfl, hinit⟩
  | cons x xs ih =>
    obtain ⟨y, ys, rfl, hy, hys⟩ := List.map_eq_cons_iff.mp hlike
    rw [List.foldlM_cons] at h ⊢
    obtain ⟨next, hfirst, h⟩ := succeeds_bind.mp h
    obtain ⟨next', hfirst', hnext⟩ := hstep init init' next x (by simp) y hy hinit hfirst
    obtain ⟨final', hrest, hfinal⟩ := ih h hnext hys fun state state' next x hx =>
      hstep state state' next x (by simp [hx])
    exact ⟨final', succeeds_bind.mpr ⟨next', hfirst', hrest⟩, hfinal⟩

theorem Encoding.succeeds_ofPart_congr {x y : Except Refusal (Noted Remark Text)}
    (h : x.toOption = y.toOption) : Succeeds (ofPart x) text ↔ Succeeds (ofPart y) text := by
  simp only [succeeds_ofPart, ← Outcome.toOption_eq_some_iff, h]

section

variable {symbols : Symbols} {profile : Profile} {value other : Text}
  (h : foldCase other = foldCase value)
include h

theorem Argument.succeeds_encodeInteger_caseAlike (definition : Text) :
    Succeeds (Argument.encodeInteger symbols definition other) text ↔
      Succeeds (Argument.encodeInteger symbols definition value) text := by
  refine succeeds_ofPart_congr ?_
  rw [Outcome.toOption_bind, Outcome.toOption_bind, ← Argument.integer_foldCase, h,
    Argument.integer_foldCase]

theorem Argument.succeeds_encodePoint_caseAlike (definition : Text) :
    Succeeds (Argument.encodePoint definition other) text ↔
      Succeeds (Argument.encodePoint definition value) text := by
  refine succeeds_ofPart_congr ?_
  rw [Outcome.toOption_bind, Outcome.toOption_bind, Outcome.toOption_ofFault,
    Outcome.toOption_ofFault, ← Argument.point_foldCase, h, Argument.point_foldCase]

theorem quote_notMem_caseAlike (hquote : '"' ∉ value) : '"' ∉ other := by
  rwa [← mem_foldCase_iff (rfl : isCaseless '"'), h,
    mem_foldCase_iff (rfl : isCaseless '"')]

theorem Object.succeeds_encode_caseAlike (harea : profile.hasObjectArea = false)
    (hquote : '"' ∉ value) (definition : Text) :
    Succeeds (Object.encode symbols profile definition other) text ↔
      Succeeds (Object.encode symbols profile definition value) text := by
  refine succeeds_ofPart_congr ?_
  rw [← Object.code_foldCase harea (quote_notMem_caseAlike h hquote), h,
    Object.code_foldCase harea hquote]

end

-- --------------------
-- Triggers
-- --------------------

namespace Trigger

variable {symbols : Symbols} {profile : Profile} {entry : Entry} {fields next : Fields}
  {pairs others : List (Parameter × Text)}

theorem kind_ne_string (h : Succeeds (pairs.foldlM (Fields.add symbols profile entry)
      { object := profile.emptyObject }) fields)
    (hpack : Succeeds (packStrings symbols opcode fields.strings.values) strings)
    (hquote : ∀ pair ∈ pairs, '"' ∉ pair.2) : ∀ pair ∈ pairs, pair.1.kind ≠ .string := by
  intro pair hpair hkind
  obtain ⟨texts, hholds⟩ := exists_holds h
  have hhead := (hholds.texts_eq hpack).1 pair.2 (hholds.unquoted pair hpair hkind)
  exact hquote pair hpair (List.mem_of_mem_head? hhead)

/-- The fields differ in the point at most. -/
def Fields.Matches (fields fields' : Fields) : Prop := ∃ point, fields' = { fields with point }

theorem Fields.add_caseAlike (harea : profile.hasObjectArea = false) (hquote : '"' ∉ pair.2)
    (hkind : pair.1.kind ≠ .string) (hlike : Call.foldArgument other = Call.foldArgument pair)
    (hmatches : fields.Matches fields')
    (h : Succeeds (Fields.add symbols profile entry fields pair) next) :
    ∃ next', Succeeds (Fields.add symbols profile entry fields' other) next' ∧
      next.Matches next' := by
  obtain ⟨parameter, value⟩ := pair
  obtain ⟨parameter', other⟩ := other
  obtain ⟨rfl, hvalue⟩ := Prod.mk.inj hlike
  obtain ⟨point, rfl⟩ := hmatches
  cases Fields.succeeds_add.mp h with
  | string hstring _ _ => exact absurd hstring hkind
  | integer hinteger hencode hfill =>
    have hencode' := (Argument.succeeds_encodeInteger_caseAlike hvalue _).mpr hencode
    exact ⟨_, Fields.succeeds_add.mpr (.integer hinteger hencode' hfill), point, rfl⟩
  | object hobject hencode =>
    have hencode' := (Object.succeeds_encode_caseAlike hvalue harea hquote _).mpr hencode
    exact ⟨_, Fields.succeeds_add.mpr (.object hobject hencode'), point, rfl⟩
  | point hpoint => exact ⟨_, Fields.succeeds_add.mpr (.point hpoint), _, rfl⟩
  | action haction => exact ⟨_, Fields.succeeds_add.mpr (.action haction), point, rfl⟩

theorem foldlM_caseAlike (harea : profile.hasObjectArea = false)
    (hquote : ∀ pair ∈ pairs, '"' ∉ pair.2) (hkind : ∀ pair ∈ pairs, pair.1.kind ≠ .string)
    (hothers : others.map Call.foldArgument = pairs.map Call.foldArgument)
    (h : Succeeds (pairs.foldlM (Fields.add symbols profile entry) fields) next) :
    ∃ next', Succeeds (others.foldlM (Fields.add symbols profile entry) fields) next' ∧
      next.Matches next' :=
  simulate_foldlM h ⟨fields.point, rfl⟩ hothers
    fun _ _ _ pair hpair _ hlike hmatches hadd =>
      Fields.add_caseAlike harea (hquote pair hpair) (hkind pair hpair) hlike hmatches hadd

theorem signed_foldCase (line : Text) :
    signed (foldCase line) = Prod.map id foldCase (signed line) := by
  have hmark : isCaseless '!' := rfl
  by_cases hline : line.head? = some '!'
  · obtain ⟨call, rfl⟩ := List.head?_eq_some_iff.mp hline
    rw [foldCase_cons_mark hmark]
    rfl
  · rw [signed_eq hline, signed_eq (mt (head?_foldCase_iff hmark).mp hline)]
    rfl

theorem triggerLayout_eq (hpoint : profile.hasTriggerPoint = false) (opcode : Int) (negated : Bool)
    (integers : List Text) (point other : Text) (strings : List Text) (object : Text) :
    profile.triggerLayout opcode negated integers point strings object =
      profile.triggerLayout opcode negated integers other strings object := by
  simp [Profile.triggerLayout, hpoint]

theorem encode_caseAlike {line other : Text} (harea : profile.hasObjectArea = false)
    (hpoint : profile.hasTriggerPoint = false) (hquote : '"' ∉ line)
    (hline : foldCase other = foldCase line)
    (h : Succeeds (encode symbols profile line) (text, n)) :
    Succeeds (encode symbols profile other) (text, n) := by
  obtain ⟨name, inside, entry, values, pairs, fields, strings, hsplit, hentry, hvalues, hpairs,
    hfields, hstrings, hfew, rfl, rfl⟩ := succeeds_encode.mp h
  have hsigned : Prod.map id foldCase (signed other) = Prod.map id foldCase (signed line) := by
    rw [← signed_foldCase, hline, signed_foldCase]
  obtain ⟨hsign, hcall⟩ := Prod.mk.inj hsigned
  have hquotes : ∀ pair ∈ pairs, '"' ∉ pair.2 := fun pair hpair hmem =>
    hquote ((signed_sublist line).subset (Call.split_ok hsplit
      ((Call.sublist_bound hvalues hpairs pair hpair).subset hmem)))
  obtain ⟨name', inside', hsplit', hname, hinside⟩ := Call.exists_split_caseAlike hcall hsplit
  obtain ⟨values', pairs', hvalues', hpairs', hothers⟩ :=
    Call.exists_bind_caseAlike hinside hvalues hpairs
  -- The point is kept as it was written, but the record has no place for it.
  obtain ⟨_, hfields', point, rfl⟩ := foldlM_caseAlike harea hquotes
    (kind_ne_string hfields hstrings hquotes) hothers hfields
  refine succeeds_encode.mpr ⟨name', inside', entry, values', pairs', _, strings, hsplit',
    Symbols.function_caseAlike hname hentry, hvalues', hpairs', hfields', hstrings, hfew, ?_, rfl⟩
  rw [show (signed other).1 = (signed line).1 from hsign]
  exact triggerLayout_eq hpoint _ _ _ _ _ _ _

end Trigger

-- --------------------
-- Actions
-- --------------------

theorem Slots.next_of_fill {slots filled : Slots} (h : slots.fill value = .ok filled) :
    filled.next = slots.next + 1 := by
  obtain ⟨⟨values, next⟩, hassign, hfilled⟩ := Outcome.bind_ok.mp h
  obtain rfl := Outcome.pure_ok.mp hfilled
  unfold assignSlot at hassign
  split at hassign
  · split at hassign
    · next hindex _ => exact (Prod.mk.inj (Except.ok.inj hassign)).2.symm
    · cases hassign
  · split at hassign
    · exact (Prod.mk.inj (Except.ok.inj hassign)).2.symm
    · split at hassign <;> cases hassign

namespace Action

variable {symbols : Symbols} {profile : Profile} {entry : Entry} {fields next : Fields}
  {pairs others : List (Parameter × Text)}

theorem Fields.next_strings (h : Succeeds (Fields.add symbols profile entry fields pair) next) :
    next.strings.next = fields.strings.next + 1 ∨
      next.strings.next = fields.strings.next ∧
        (pair.1.kind = .string → fields.strings.next = 2) := by
  cases Fields.succeeds_add.mp h with
  | string _ _ _ hfill => exact .inl (Slots.next_of_fill (succeeds_fill.mp hfill))
  | integer hkind _ _ => exact .inr ⟨rfl, by simp [hkind]⟩
  | object htakes _ _ =>
    refine .inr ⟨rfl, fun hstring => ?_⟩
    rcases htakes with hkind | ⟨-, htwo, -⟩
    · cases hkind.symm.trans hstring
    · exact htwo
  | point hkind _ => exact .inr ⟨rfl, by simp [hkind]⟩
  | action hkind => exact .inr ⟨rfl, by simp [hkind]⟩

/-- A string is quoted, since there are no two before the first. -/
theorem kind_ne_string (h : Succeeds (pairs.foldlM (Fields.add symbols profile entry)
      { objects := .blank 2 profile.emptyObject }) fields)
    (hpack : Succeeds (packStrings symbols opcode fields.strings.values) strings)
    (hquote : ∀ pair ∈ pairs, '"' ∉ pair.2) : ∀ pair ∈ pairs, pair.1.kind ≠ .string := by
  have hnone : fields.strings.next = 0 := by
    obtain ⟨texts, hholds⟩ := exists_holds h
    have hquoted : quotedStrings pairs = [] := by
      simp only [quotedStrings, List.map_eq_nil_iff, List.filter_eq_nil_iff, decide_eq_true_eq,
        not_and]
      exact fun pair hpair _ hhead => hquote pair hpair (List.mem_of_mem_head? hhead)
    rw [hholds.strings.eq, (hholds.texts_eq hpack).2, hquoted]
    rfl
  -- No slot of a string is filled, and it would have been by the first string.
  have hstrings : 0 ≤ fields.strings.next ∧
      (fields.strings.next = 0 → ∀ pair ∈ pairs, pair.1.kind ≠ .string) := by
    refine accumulate_foldlM (I := fun pairs (fields : Fields) => 0 ≤ fields.strings.next ∧
      (fields.strings.next = 0 → ∀ pair ∈ pairs, pair.1.kind ≠ .string)) h ⟨Int.le_refl 0, by simp⟩ ?_
    rintro before state next pair ⟨hnonneg, hbefore⟩ hadd
    rcases Fields.next_strings hadd with hnext | ⟨hnext, hkind⟩
    · exact ⟨by omega, fun hzero => by omega⟩
    · refine ⟨by omega, fun hzero => List.forall_mem_append.mpr
        ⟨hbefore (by omega), List.forall_mem_singleton.mpr fun hstring => ?_⟩⟩
      have := hkind hstring
      omega
  exact hstrings.2 hnone

theorem Fields.add_caseAlike (harea : profile.hasObjectArea = false) (hquote : '"' ∉ pair.2)
    (hkind : pair.1.kind ≠ .string) (hlike : Call.foldArgument other = Call.foldArgument pair)
    (h : Succeeds (Fields.add symbols profile entry fields pair) next) :
    Succeeds (Fields.add symbols profile entry fields other) next := by
  obtain ⟨parameter, value⟩ := pair
  obtain ⟨parameter', other⟩ := other
  obtain ⟨rfl, hvalue⟩ := Prod.mk.inj hlike
  refine Fields.succeeds_add.mpr ?_
  cases Fields.succeeds_add.mp h with
  | string hstring _ _ _ => exact absurd hstring hkind
  | integer hinteger hencode hfill =>
    exact .integer hinteger ((Argument.succeeds_encodeInteger_caseAlike hvalue _).mpr hencode) hfill
  | object htakes hencode hfill =>
    have hobject := htakes.resolve_right fun htakes => hkind htakes.1
    exact .object (.inl hobject)
      ((Object.succeeds_encode_caseAlike hvalue harea hquote _).mpr hencode) hfill
  | point hpoint hencode =>
    exact .point hpoint ((Argument.succeeds_encodePoint_caseAlike hvalue _).mpr hencode)
  | action haction => exact .action haction

theorem foldlM_caseAlike (harea : profile.hasObjectArea = false)
    (hquote : ∀ pair ∈ pairs, '"' ∉ pair.2) (hkind : ∀ pair ∈ pairs, pair.1.kind ≠ .string)
    (hothers : others.map Call.foldArgument = pairs.map Call.foldArgument)
    (h : Succeeds (pairs.foldlM (Fields.add symbols profile entry) fields) next) :
    Succeeds (others.foldlM (Fields.add symbols profile entry) fields) next := by
  obtain ⟨_, hnext, rfl⟩ := simulate_foldlM (R := Eq) h rfl hothers
    fun _ _ next pair hpair _ hlike heq hadd => ⟨next, heq ▸
      Fields.add_caseAlike harea (hquote pair hpair) (hkind pair hpair) hlike hadd, rfl⟩
  exact hnext

theorem encodeCall_caseAlike {inside other : Text} (harea : profile.hasObjectArea = false)
    (hquote : '"' ∉ inside) (hinside : foldCase other = foldCase inside)
    (h : Succeeds (encodeCall symbols profile actor entry inside) text) :
    Succeeds (encodeCall symbols profile actor entry other) text := by
  obtain ⟨values, pairs, fields, strings, hvalues, hpairs, hfields, hstrings, hfew, htext⟩ :=
    succeeds_encodeCall.mp h
  have hquotes : ∀ pair ∈ pairs, '"' ∉ pair.2 := fun pair hpair hmem =>
    hquote ((Call.sublist_bound hvalues hpairs pair hpair).subset hmem)
  obtain ⟨values', pairs', hvalues', hpairs', hothers⟩ :=
    Call.exists_bind_caseAlike hinside hvalues hpairs
  have hfields' := foldlM_caseAlike harea hquotes (kind_ne_string hfields hstrings hquotes) hothers
    hfields
  exact succeeds_encodeCall.mpr
    ⟨values', pairs', fields, strings, hvalues', hpairs', hfields', hstrings, hfew, htext⟩

theorem encode_caseAlike {line other : Text} (harea : profile.hasObjectArea = false)
    (hquote : '"' ∉ line) (hline : foldCase other = foldCase line)
    (h : Succeeds (encode symbols profile line) text) :
    Succeeds (encode symbols profile other) text := by
  obtain ⟨⟨name, inside⟩, hsplit, h⟩ := succeeds_bind.mp h
  obtain ⟨entry, hentry, h⟩ := succeeds_bind.mp h
  rw [succeeds_ofExcept] at hsplit hentry
  have hquote : '"' ∉ inside := fun hmem => hquote (Call.split_ok hsplit hmem)
  obtain ⟨name', inside', hsplit', hname, hinside⟩ := Call.exists_split_caseAlike hline hsplit
  refine succeeds_bind.mpr ⟨_, succeeds_ofExcept.mpr hsplit', ?_⟩
  refine succeeds_bind.mpr ⟨_, succeeds_ofExcept.mpr (Symbols.function_caseAlike hname hentry), ?_⟩
  dsimp only at h ⊢
  split at h
  · next hoverride =>
    rw [if_pos hoverride]
    split at h
    · exact absurd h not_succeeds_throw
    · next target inner hcut =>
      obtain ⟨target', inner', hcut', htarget, hinner⟩ :=
        Text.exists_cut?_caseAlike hinside rfl hcut
      have hparts := (cut?_eq_some hcut).2
      have hquotes : '"' ∉ trim target ∧ '"' ∉ trim inner :=
        ⟨fun hmem => hquote (hparts ▸ by simp [trim_subset target hmem]),
          fun hmem => hquote (hparts ▸ by simp [trim_subset inner hmem])⟩
      obtain ⟨actor, hactor, h⟩ := succeeds_bind.mp h
      obtain ⟨⟨name, inside⟩, hsplit, h⟩ := succeeds_bind.mp h
      obtain ⟨entry, hentry, h⟩ := succeeds_bind.mp h
      rw [succeeds_ofExcept] at hsplit hentry
      obtain ⟨name', inside', hsplit', hname, hinside⟩ :=
        Call.exists_split_caseAlike (Text.trim_caseAlike hinner) hsplit
      have hactor' := (Object.succeeds_encode_caseAlike (Text.trim_caseAlike htarget) harea
        hquotes.1 _).mpr hactor
      have hcall := encodeCall_caseAlike harea (fun hmem => hquotes.2 (Call.split_ok hsplit hmem))
        hinside h
      rw [hcut']
      refine succeeds_bind.mpr ⟨actor, hactor', ?_⟩
      refine succeeds_bind.mpr ⟨_, succeeds_ofExcept.mpr hsplit', ?_⟩
      exact succeeds_bind.mpr
        ⟨_, succeeds_ofExcept.mpr (Symbols.function_caseAlike hname hentry), hcall⟩
  · next hown =>
    rw [if_neg hown]
    exact encodeCall_caseAlike harea hquote hinside h

end Action

-- --------------------
-- Dialogs
-- --------------------

theorem faultless_iff_any : Faultless remarks ↔ remarks.any Remark.isError = false := by
  rw [List.any_eq_false]
  constructor
  · intro h remark hmem herror
    cases remark with
    | error fault => exact h fault hmem
    | warning warning => cases herror
  · intro h fault hmem
    exact h _ hmem rfl

theorem Encoded.exists_settle {encoding : Encoding α} (h : encoding.Succeeds record)
    (ofRecord : α → List Remark → Encoded) :
    ∃ remarks, Faultless remarks ∧
      Encoded.settle encoding ofRecord = .ok (ofRecord record remarks) := by
  obtain ⟨remarks, houtcome, hfaultless⟩ := h
  exact ⟨remarks, hfaultless, by rw [settle, houtcome]⟩

section

variable {symbols : Symbols} {profile : Profile} (harea : profile.hasObjectArea = false)
  (hpoint : profile.hasTriggerPoint = false)
include harea hpoint

theorem Encoded.ofRole_caseAlike {line other : Text} (hquote : '"' ∉ line)
    (hline : foldCase other = foldCase line)
    (h : Encoded.ofRole isAction symbols profile line = .ok encoded)
    (hremarks : Faultless encoded.remarks) :
    ∃ encoded', Encoded.ofRole isAction symbols profile other = .ok encoded' ∧
      Faultless encoded'.remarks ∧ encoded'.text = encoded.text := by
  cases isAction with
  | true =>
    obtain ⟨text, _, hsucceeds, rfl⟩ := Encoded.settle_faultless (fun _ _ => rfl) h hremarks
    obtain ⟨remarks, hfaultless, hsettle⟩ := Encoded.exists_settle
      (Action.encode_caseAlike harea hquote hline hsucceeds) fun text remarks => { text, remarks }
    exact ⟨_, hsettle, hfaultless, rfl⟩
  | false =>
    obtain ⟨⟨text, n⟩, _, hsucceeds, rfl⟩ := Encoded.settle_faultless (fun _ _ => rfl) h hremarks
    obtain ⟨remarks, hfaultless, hsettle⟩ := Encoded.exists_settle
      (Trigger.encode_caseAlike harea hpoint hquote hline hsucceeds)
      fun record remarks => { text := record.1, remarks, orCount := record.2 }
    exact ⟨_, hsettle, hfaultless, rfl⟩

theorem mapM_ofRole_caseAlike {lines others : List Text} (hquote : ∀ line ∈ lines, '"' ∉ line)
    (hothers : others.map foldCase = lines.map foldCase)
    (h : lines.mapM (Encoded.ofRole isAction symbols profile) = .ok statements)
    (hremarks : ∀ statement ∈ statements, Faultless statement.remarks) :
    ∃ statements', others.mapM (Encoded.ofRole isAction symbols profile) = .ok statements' ∧
      (∀ statement ∈ statements', Faultless statement.remarks) ∧
      statements'.map Encoded.text = statements.map Encoded.text := by
  induction lines generalizing others statements with
  | nil =>
    obtain rfl := List.map_eq_nil_iff.mp hothers
    obtain rfl := Outcome.pure_ok.mp h
    exact ⟨[], rfl, by simp, rfl⟩
  | cons line lines ih =>
    obtain ⟨other, others, rfl, hother, hothers⟩ := List.map_eq_cons_iff.mp hothers
    obtain ⟨hquote, hquotes⟩ := List.forall_mem_cons.mp hquote
    rw [List.mapM_cons] at h ⊢
    obtain ⟨statement, hstatement, h⟩ := Outcome.bind_ok.mp h
    obtain ⟨statements, hstatements, h⟩ := Outcome.bind_ok.mp h
    obtain rfl := Outcome.pure_ok.mp h
    obtain ⟨hremarks, hmore⟩ := List.forall_mem_cons.mp hremarks
    obtain ⟨statement', hstatement', hremarks', htext⟩ :=
      Encoded.ofRole_caseAlike harea hpoint hquote hother hstatement hremarks
    obtain ⟨statements', hstatements', hmore', htexts⟩ := ih hquotes hothers hstatements hmore
    refine ⟨statement' :: statements', ?_, List.forall_mem_cons.mpr ⟨hremarks', hmore'⟩, ?_⟩
    · rw [hstatement', hstatements']
      rfl
    · rw [List.map_cons, List.map_cons, htext, htexts]

end

namespace Source

def uncommented (source : Source) : List Text := source.physicalLines.map beforeComment

/-- The sources differ in the case of ASCII letters at most, apart from comments. -/
def CaseAlike (a b : Source) : Prop := b.uncommented.map foldCase = a.uncommented.map foldCase

theorem statements_eq_uncommented (source : Source) :
    source.statements = (source.uncommented.map trim).filter (· ≠ []) := by
  rw [statements, listing, Line.map_text_statements, uncommented, List.map_map]
  rfl

theorem quote_notMem_statements {source : Source} (h : ∀ line ∈ source.uncommented, '"' ∉ line) :
    ∀ statement ∈ source.statements, '"' ∉ statement := by
  intro statement hstatement hquote
  rw [statements_eq_uncommented] at hstatement
  obtain ⟨line, hline, rfl⟩ := List.mem_map.mp (List.mem_filter.mp hstatement).1
  exact h line hline (trim_subset line hquote)

theorem caseAlike_text (h : foldCase b = foldCase a) : CaseAlike (.text a) (.text b) := by
  have hlines : ∀ text : Text, (uncommented (.text text)).map foldCase =
      (Text.physicalLines (foldCase text)).map beforeComment := fun text => by
    have hcomment : beforeComment ∘ foldCase = foldCase ∘ beforeComment :=
      funext beforeComment_foldCase
    rw [uncommented, Source.physicalLines, physicalLines_foldCase, List.map_map, List.map_map,
      hcomment]
  rw [CaseAlike, hlines, hlines, h]

theorem CaseAlike.statements {a b : Source} (h : a.CaseAlike b) :
    b.statements.map foldCase = a.statements.map foldCase := by
  have hlower : ∀ source : Source, source.statements.map foldCase =
      ((source.uncommented.map foldCase).map trim).filter (· ≠ []) := fun source => by
    have htrim : trim ∘ foldCase = foldCase ∘ trim := funext trim_foldCase
    rw [statements_eq_uncommented, List.map_map, htrim, ← List.map_map]
    generalize source.uncommented.map trim = lines
    rw [List.filter_map]
    simp [Function.comp_def]
  rw [hlower, hlower, h]

end Source

theorem compileDialogStatements_caseAlike {symbols : Symbols} {profile : Profile}
    (harea : profile.hasObjectArea = false) (hpoint : profile.hasTriggerPoint = false)
    {lines others : List Text} (hquote : ∀ line ∈ lines, '"' ∉ line)
    (hothers : others.map foldCase = lines.map foldCase)
    (h : compileDialogStatements symbols profile isAction lines = .ok (code, remarks))
    (hremarks : Faultless remarks) :
    ∃ remarks', compileDialogStatements symbols profile isAction others = .ok (code, remarks') ∧
      Faultless remarks' := by
  obtain ⟨_, hwidths, h⟩ := Outcome.bind_ok.mp h
  obtain ⟨statements, hstatements, h⟩ := Outcome.bind_ok.mp h
  obtain ⟨rfl, rfl⟩ := Prod.mk.inj (Outcome.pure_ok.mp h)
  have hfaultless : ∀ statement ∈ statements, Faultless statement.remarks :=
    fun statement hmem fault hfault => hremarks fault (List.mem_flatMap.mpr ⟨statement, hmem, hfault⟩)
  obtain ⟨statements', hstatements', hfaultless', htexts⟩ :=
    mapM_ofRole_caseAlike harea hpoint hquote hothers hstatements hfaultless
  refine ⟨statements'.flatMap Encoded.remarks, ?_, fun fault hfault => ?_⟩
  · refine Outcome.bind_ok.mpr ⟨_, hwidths, Outcome.bind_ok.mpr ⟨statements', hstatements', ?_⟩⟩
    rw [List.flatMap_def, List.flatMap_def, htexts]
    rfl
  · obtain ⟨statement, hmem, hfault⟩ := List.mem_flatMap.mp hfault
    exact hfaultless' statement hmem fault hfault

/-- A dialog without quotes that compiles without an error compiles without one in any other case,
to the same code, where objects have no area and triggers no point. -/
theorem compileDialog_caseAlike {symbols : Symbols} {profile : Profile}
    (harea : profile.hasObjectArea = false) (hpoint : profile.hasTriggerPoint = false)
    {first second : Source} (hquote : ∀ line ∈ first.uncommented, '"' ∉ line)
    (halike : first.CaseAlike second) {isAction : Bool} {compiled : Compiled}
    (h : compileDialog symbols profile first isAction = .ok compiled)
    (herrors : compiled.errors.isEmpty) :
    ∃ other, compileDialog symbols profile second isAction = .ok other ∧ other.errors.isEmpty ∧
      other.code = compiled.code := by
  have hfirst := gist_compileDialog symbols profile first isAction
  rw [h] at hfirst
  obtain ⟨⟨code, remarks⟩, hstatements, hgist⟩ := Outcome.map_ok.mp hfirst.symm
  obtain ⟨rfl, hnone⟩ := Prod.mk.inj hgist
  have hfaultless : Faultless remarks := faultless_iff_any.mpr (by simpa [herrors] using hnone)
  obtain ⟨remarks', hstatements', hfaultless'⟩ := compileDialogStatements_caseAlike harea hpoint
    (Source.quote_notMem_statements hquote) halike.statements hstatements hfaultless
  have hsecond := gist_compileDialog symbols profile second isAction
  rw [hstatements'] at hsecond
  obtain ⟨other, hother, hgist⟩ := Outcome.map_ok.mp hsecond
  obtain ⟨hcode, hempty⟩ := Prod.mk.inj hgist
  refine ⟨other, hother, ?_, hcode⟩
  rw [hempty, faultless_iff_any.mp hfaultless']
  rfl

def caseSymbols : Symbols :=
  .build [
    ((Table.empty "TRIGGER").add ⟨1, "StateCheck", some "O:Object*,I:State*State"⟩).add
      ⟨2, "Level", some "O:Object*,I:Level*"⟩,
    ((Table.empty "STATE").add ⟨1, "SLEEP", none⟩).add ⟨4, "POISON", none⟩,
    ((Table.empty "OBJECT").add ⟨1, "Myself", none⟩).add ⟨5, "NearestEnemyOf", none⟩,
    (Table.empty "EA").add ⟨255, "ENEMY", none⟩] [] [] [] none

theorem compileDialog_caseAlike_sample :
    let profile := Profile.ofGame .none
    let first : Source := .text
      "!StateCheck(NearestEnemyOf(Myself),SLEEP|POISON)\nLevel([ENEMY],0xFf) // Say \"hi\""
    let second : Source := .text
      "!statecheck(NEARESTENEMYOF(myself),Sleep|Poison)\nLEVEL([Enemy],0XfF) // SAY \"HI\""
    profile.hasObjectArea = false ∧ profile.hasTriggerPoint = false ∧
    (∀ line ∈ first.uncommented, '"' ∉ line) ∧ first.CaseAlike second ∧
    ∃ compiled other, compileDialog caseSymbols profile first false = .ok compiled ∧
      compiled.errors.isEmpty ∧ compileDialog caseSymbols profile second false = .ok other ∧
      other.errors.isEmpty ∧ other.code = compiled.code := by
  intro profile first second
  have hquote : ∀ line ∈ first.uncommented, '"' ∉ line := by decide +kernel
  have halike : first.CaseAlike second := Source.caseAlike_text (by decide +kernel)
  obtain ⟨compiled, hcompiled, herrors⟩ := Outcome.exists_of_any (by decide +kernel :
    (compileDialog caseSymbols profile first false).toOption.any fun compiled =>
      compiled.errors.isEmpty)
  obtain ⟨other, hother, hnone, hcode⟩ :=
    compileDialog_caseAlike rfl rfl hquote halike hcompiled herrors
  exact ⟨rfl, rfl, hquote, halike, compiled, other, hcompiled, herrors, hother, hnone, hcode⟩

end InfinityScript
