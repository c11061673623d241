import InfinityScript.Proofs.Argument.Slots
import InfinityScript.Proofs.Record.Fields

/-!
# Sizes of OR groups

The size of an OR group is read off the line of the trigger that opens it. No argument
of a trigger that was read from a record begins with a number that is too long for that
(`Text.Countable`), and neither does the name of a function of sound symbols, so that
the size can be read (`Trigger.Says.isOk_orCount`).
-/

namespace InfinityScript

-- --------------------
-- Texts that begin with a number
-- --------------------

namespace Text

def EndsCount (c : Char) : Prop := isDecimalDigit c = false ∧ c ≠ '-' ∧ c ≠ '+'

instance : Decidable (EndsCount c) := inferInstanceAs (Decidable (_ ∧ _ ∧ _))

theorem not_endsCount_of_isNumber (h : isNumber text) (hc : c ∈ text) : ¬ EndsCount c := by
  have hdigits : ∀ {digits : Text}, readNat? digits ≠ none → c ∈ digits → ¬ EndsCount c := by
    intro digits hread hmem hends
    have hdigit := (readNat?_isSome_iff.mp (Option.isSome_iff_ne_none.mpr hread)).2 c hmem
    rw [hends.1] at hdigit
    cases hdigit
  unfold isNumber readSigned? at h
  split at h
  · rcases List.mem_cons.mp hc with rfl | hc
    · exact fun hends => hends.2.1 rfl
    · exact hdigits (fun hnone => by simp [hnone] at h) hc
  · rcases List.mem_cons.mp hc with rfl | hc
    · exact fun hends => hends.2.2 rfl
    · exact hdigits (fun hnone => by simp [hnone] at h) hc
  · exact hdigits (fun hnone => by simp [hnone] at h) hc

/-- No number that the text begins with is too long to be read. -/
def Countable (text : Text) : Prop :=
  ∀ number, number <+: text → isNumber number → FewDigits number

theorem FewDigits.of_sublist (h : FewDigits text) (hsub : part.Sublist text) : FewDigits part :=
  Nat.le_trans (hsub.countP_le) h

theorem FewDigits.countable (h : FewDigits text) : Countable text := fun _ hstart _ =>
  h.of_sublist hstart.sublist

theorem Countable.append_cons (h : Countable text) (hc : EndsCount c) (rest : Text) :
    Countable (text ++ c :: rest) := by
  intro number hstart hnumber
  rcases List.prefix_or_prefix_of_prefix hstart (List.prefix_append text _) with
    hshort | ⟨after, rfl⟩
  · exact h number hshort hnumber
  · cases after with
    | nil => exact h _ (by simp) hnumber
    | cons d after =>
      obtain rfl := (List.cons_prefix_cons.mp ((List.prefix_append_right_inj text).mp hstart)).1
      exact absurd hc (not_endsCount_of_isNumber hnumber (by simp))

theorem countable_nil : Countable [] := FewDigits.countable (by decide)

theorem countable_of_head? (h : text.head? = some c) (hc : EndsCount c) : Countable text := by
  obtain ⟨rest, rfl⟩ := List.head?_eq_some_iff.mp h
  exact countable_nil.append_cons hc rest

theorem Countable.isOk_literal (h : Countable text) (hstart : part <+: text) :
    (literal part).isOk := by
  unfold literal
  split
  · next hnumber =>
    rw [checkDigits_eq_ok_iff.mpr (h part hstart hnumber)]
    rfl
  · rfl

theorem countable_join {texts : List Text} (h : ∀ text ∈ texts, Countable text) (hc : EndsCount c)
    (rest : Text) : Countable (join (c :: rest) texts) := by
  match texts with
  | [] => exact countable_nil
  | [text] => simpa [Text.join] using h text (by simp)
  | first :: second :: texts =>
    rw [join_cons_cons]
    exact (h first (by simp)).append_cons hc _

end Text

-- --------------------
-- Arguments of triggers
-- --------------------

section

variable {symbols : Symbols}

theorem Symbols.Sound.few {P : Entry → Prop} (hsound : symbols.Sound) (hmade : symbols.Made P) :
    symbols.Made fun entry => Text.FewDigits entry.name := fun name table htable =>
  (hsound.made hmade name table htable).mono fun _ hentry => hentry.2.few

theorem Object.fewDigits_identifier (hsymbols : symbols.Made fun entry => Text.FewDigits entry.name)
    (hnumber : Text.FewDigits (Text.ofInt number)) (table : Text) :
    ∀ name ∈ (identifier symbols table number).value, Text.FewDigits name := by
  unfold identifier identifierM
  split
  · simp
  · split
    · next entry hentry => simpa using hsymbols.byId? hentry
    · simpa using hnumber

theorem Text.FewDigits.countable_call (h : FewDigits name) (rest : Text) :
    Countable (name ++ '(' :: rest) :=
  h.countable.append_cons (by decide) rest

theorem Object.head?_vectorText? (h : vectorText? identifiers = some vector) :
    vector.head? = some '[' := by
  unfold vectorText? at h
  dsimp only at h
  split at h
  · cases h
  · cases h
    rfl

theorem Object.countable_outer {outer : List Text} {rest : Text}
    (houter : ∀ name ∈ outer, Text.FewDigits name) (hrest : outer = [] → Text.Countable rest) :
    Text.Countable (outer.flatMap (· ++ ['(']) ++ rest) := by
  cases outer with
  | nil => exact hrest rfl
  | cons name outer =>
    simp only [List.flatMap_cons, List.append_assoc, List.cons_append]
    exact (houter name (by simp)).countable_call _

theorem Object.countable_compose {qualifiers identifiers : List (Option Text)} {area : Option Text}
    (hqualifiers : ∀ qualifier ∈ qualifiers, ∀ name ∈ qualifier, Text.FewDigits name)
    (harea : ∀ text ∈ area, text.head? = some '[') (hname : name.head? = some '"') :
    Text.Countable (compose qualifiers identifiers area name) := by
  have hfirst : Text.FewDigits ((qualifiers.head?.join).getD []) := by
    cases qualifiers with
    | nil => decide
    | cons qualifier qualifiers =>
      cases qualifier with
      | none => exact Nat.zero_le _
      | some name => exact hqualifiers _ (by simp) name rfl
  have houter : ∀ name ∈ (qualifiers.drop 1).reverse.filterMap id, Text.FewDigits name := by
    intro name hmem
    obtain ⟨qualifier, hmem, hqualifier⟩ := List.mem_filterMap.mp hmem
    exact hqualifiers qualifier (List.mem_of_mem_drop (List.mem_reverse.mp hmem)) name hqualifier
  have hquote : Text.EndsCount '"' := by decide
  have hbracket : Text.EndsCount '[' := by decide
  unfold compose
  dsimp only
  generalize (qualifiers.drop 1).reverse.filterMap id = outer at houter ⊢
  generalize (qualifiers.head?.join).getD [] = first at hfirst ⊢
  split
  · split
    · exact Text.countable_of_head? (by simp [hname]) hquote
    · simp only [List.append_assoc]
      exact countable_outer houter fun _ => hfirst.countable_call _
  · split
    · split
      · exact Text.countable_of_head? rfl hbracket
      · simp only [List.append_assoc]
        refine countable_outer houter fun hnil => ?_
        cases area with
        | none => simpa [hnil] using hfirst.countable
        | some area =>
          obtain ⟨rest, hrest⟩ := List.head?_eq_some_iff.mp (harea area rfl)
          simp only [Option.getD_some, hrest]
          exact hfirst.countable.append_cons hbracket _
    · next vector hvectorText =>
      split
      · exact Text.countable_of_head? (by simp [head?_vectorText? hvectorText]) hbracket
      · simp only [List.append_assoc]
        exact countable_outer houter fun _ => hfirst.countable_call _

structure ObjectRecord.Countable (record : ObjectRecord) : Prop where
  few : ∀ n ∈ record.numbers, Text.FewDigits (Text.ofInt n)
  name : record.name.head? = some '"'
  area : ∀ area ∈ record.area, area.head? = some '['

def Lexeme.Opened : Lexeme → Prop
  | .string text => text.head? = some '"'
  | .coordinate text => text.head? = some '['
  | _ => True

theorem Lexeme.Spells.opened {lexeme : Lexeme} (h : lexeme.Spells shown) : lexeme.Opened := by
  cases h with
  | string h => rfl
  | coordinate h => rfl
  | _ => trivial

theorem opened_of_mem_pieces (h : piece ∈ pieces code) : piece.1.Opened :=
  (spells_of_mem_pieces h).1.opened

theorem ObjectFields.Fits.countable (h : Fits profile text fields) : fields.record.Countable := by
  have hopened : ∀ piece ∈ fields.pieces, piece.1.Opened := fun piece hpiece =>
    opened_of_mem_pieces (h.splits.pieces_eq ▸ List.mem_cons_of_mem _ hpiece)
  refine ⟨h.few, ?_, fun area harea => ?_⟩
  · exact hopened (.string fields.name, fields.name) (by simp [pieces])
  · refine hopened (.coordinate area, area) ?_
    simp only [pieces, List.mem_append, List.mem_map, Option.mem_toList]
    exact .inr (.inl ⟨area, harea, rfl⟩)

theorem Object.countable_express (hsymbols : symbols.Made fun entry => Text.FewDigits entry.name)
    (profile : Profile) {record : ObjectRecord} (h : record.Countable) :
    Text.Countable (express symbols profile record).value := by
  rw [value_express]
  refine countable_compose ?_ (fun area harea => ?_) h.name
  · intro qualifier hmem
    obtain ⟨number, hnumber, rfl⟩ := List.mem_map.mp hmem
    exact fewDigits_identifier hsymbols (h.few number (window_subset _ _ _ hnumber)) _
  · exact h.area area (Option.mem_filter_iff.mp harea).1

theorem Argument.countable_expressInteger
    (hsymbols : symbols.Made fun entry => Text.FewDigits entry.name) (parameter : Parameter)
    (hnumber : Text.FewDigits (Text.ofInt number)) :
    Text.Countable (expressInteger symbols parameter number).value := by
  unfold expressInteger expressIntegerM
  split
  · exact hnumber.countable
  · split
    · exact hnumber.countable
    · next table htable =>
      have hmade := hsymbols _ _ htable
      split
      · next entry hentry => exact (hmade.of_get? hentry).countable
      · split
        · dsimp only
          split
          · refine Text.countable_join (fun name hname => ?_) (by decide) _
            obtain ⟨n, hn⟩ := Flags.mem_decompose hname
            obtain ⟨entry, hentry, rfl⟩ := Option.map_eq_some_iff.mp hn
            exact (hmade.of_get? hentry).countable
          · exact hnumber.countable
        · exact hnumber.countable

theorem Scope.head?_unpack (hfirst : first.head? = some '"') (hsecond : second.head? = some '"')
    (h : some text ∈ unpack symbols first second) : text.head? = some '"' := by
  have hone : ∀ {value}, value.head? = some '"' → text ∈ unpackOne symbols value →
      text.head? = some '"' := by
    intro value hvalue hmem
    obtain ⟨rest, rfl⟩ := List.head?_eq_some_iff.mp hvalue
    unfold unpackOne at hmem
    dsimp only at hmem
    split at hmem
    · simp only [List.mem_cons, List.not_mem_nil, or_false] at hmem
      rcases hmem with rfl | rfl
      · rfl
      · rfl
    · rw [List.mem_singleton.mp hmem]
      rfl
  have hmem : text ∈ unpackOne symbols first ++ unpackOne symbols second := by
    simpa [unpack] using h
  rcases List.mem_append.mp hmem with hmem | hmem
  · exact hone hfirst hmem
  · exact hone hsecond hmem

theorem Enclosed.head? (h : Enclosed opening closing text) : text.head? = some opening :=
  (enclosed_iff.mp h).1

structure TriggerRecord.Countable (record : TriggerRecord) : Prop where
  few : ∀ n ∈ record.integers, Text.FewDigits (Text.ofInt n)
  strings : ∀ strings ∈ record.strings,
    strings.1.head? = some '"' ∧ strings.2.head? = some '"'
  point : ∀ point ∈ record.point, point.head? = some '['
  object : record.object.Countable

theorem TriggerRecord.Countable.yields
    (hsymbols : symbols.Made fun entry => Text.FewDigits entry.name) (profile : Profile)
    {record : TriggerRecord} (h : record.Countable) :
    record.Yields symbols profile Text.Countable where
  object := Object.countable_express hsymbols profile h.object
  integer parameter i := by
    refine Argument.countable_expressInteger hsymbols parameter ?_
    rw [List.getD_eq_getElem?_getD]
    cases hi : record.integers[i]? with
    | none => exact (by decide : Text.FewDigits (Text.ofInt 0))
    | some n => exact h.few n (List.mem_of_getElem? hi)
  empty := Text.countable_of_head? (c := '"') rfl (by decide)
  string first second hstrings text htext := by
    obtain ⟨hfirst, hsecond⟩ := h.strings _ hstrings
    exact Text.countable_of_head? (Scope.head?_unpack hfirst hsecond htext) (by decide)
  noPoint := Text.countable_of_head? (c := '[') rfl (by decide)
  point point hpoint := by
    obtain ⟨body, rfl⟩ := List.head?_eq_some_iff.mp (h.point point hpoint)
    exact Text.countable_of_head? (c := '[') rfl (by decide)

theorem TriggerFields.countable_yields
    (hsymbols : symbols.Made fun entry => Text.FewDigits entry.name) (profile : Profile)
    {fields : TriggerFields} (hclosed : fields.Closed)
    (hfew : ∀ n ∈ fields.numbers, Text.FewDigits (Text.ofInt n))
    (hobject : fields.object.record.Countable) :
    fields.record.Yields symbols profile Text.Countable := by
  refine TriggerRecord.Countable.yields hsymbols profile ⟨?_, ?_, ?_, hobject⟩
  · intro n hn
    refine hfew n ?_
    simp only [record, List.mem_cons, List.not_mem_nil, or_false] at hn
    rcases hn with rfl | rfl | rfl <;> simp [numbers]
  · intro strings hstrings
    obtain rfl := Option.some.inj hstrings
    exact ⟨hclosed.string1.head?, hclosed.string2.head?⟩
  · intro point hpoint
    exact Enclosed.head? (hclosed.point point hpoint)

end

-- --------------------
-- Lines of triggers
-- --------------------

/-- What looks like the start of an OR trigger is two letters and a parenthesis. -/
theorem length_of_upper_take (h : Text.upper ((before ++ '(' :: after).take 3) = "OR(")
    (hafter : after ≠ []) : 2 ≤ before.length := by
  refine Nat.le_of_not_lt fun hlt => ?_
  have htake : (before ++ '(' :: after).take 3 =
      before ++ '(' :: after.take (2 - before.length) := by
    rw [List.take_append, List.take_of_length_le (by omega),
      show 3 - before.length = 2 - before.length + 1 by omega, List.take_succ_cons]
  have hne : Text.upper (after.take (2 - before.length)) ≠ [] :=
    Text.upper_ne_nil (by simp [hafter]; omega)
  have hupper : Text.upper before ++ '(' :: Text.upper (after.take (2 - before.length)) =
      ['O', 'R', '('] := by
    rw [htake, Text.upper, List.flatMap_append, List.flatMap_cons] at h
    exact h
  have hdrop := congrArg List.dropLast hupper
  rw [List.dropLast_append_of_ne_nil (by simp), List.dropLast_cons_of_ne_nil hne] at hdrop
  have hmem : '(' ∈ ['O', 'R'] := by
    rw [show ['O', 'R'] = ['O', 'R', '('].dropLast from rfl, ← hdrop]
    simp
  exact absurd hmem (by decide)

/-- The size of the OR group that a decompiled trigger opens can be read. -/
theorem Trigger.Says.isOk_orCount {symbols : Symbols}
    (hsymbols : symbols.Made fun entry => Text.FewDigits entry.name)
    (h : Says symbols Text.Countable line) : (Decompiler.orCount line).isOk := by
  obtain ⟨entry, negated, arguments, comment, hentry, harguments, rfl⟩ := h
  obtain ⟨tail, htail⟩ : ∃ tail, Comment.append ((if negated then ['!'] else []) ++
      callText entry arguments) comment = ((if negated then ['!'] else []) ++ entry.name) ++ '(' ::
        (Text.join "," arguments ++ ')' :: tail) := by
    cases comment with
    | none => exact ⟨[], by simp [Comment.append, callText]⟩
    | some comment => exact ⟨_, by simp [Comment.append, callText]; rfl⟩
  have hname : Text.FewDigits ((if negated then ['!'] else []) ++ entry.name) := by
    have hfew := hsymbols.hasId hentry
    cases negated with
    | false => exact hfew
    | true =>
      have hmark : Text.isDecimalDigit '!' = false := by decide
      simpa [Text.FewDigits, hmark] using hfew
  rw [htail]
  generalize (if negated then ['!'] else []) ++ entry.name = name at hname ⊢
  unfold Decompiler.orCount
  split
  · next hupper =>
    -- The name has at least the two letters; a longer one is no OR, but its digits are few.
    have hrest : Text.Countable
        ((name ++ '(' :: (Text.join "," arguments ++ ')' :: tail)).drop 3) := by
      rcases Nat.lt_or_eq_of_le (length_of_upper_take hupper (by simp)) with hlong | htwo
      · rw [List.drop_append_of_le_length hlong]
        exact (hname.of_sublist (List.drop_sublist _ _)).countable.append_cons (by decide) _
      · rw [List.drop_append, List.drop_of_length_le (by omega), ← htwo]
        exact (Text.countable_join harguments (by decide) _).append_cons (by decide) _
    obtain ⟨n, hn⟩ := Outcome.isOk_iff.mp (hrest.isOk_literal (List.takeWhile_prefix _))
    rw [hn]
    rfl
  · rfl

end InfinityScript
