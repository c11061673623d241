import Mathlib.Data.List.Forall2
import InfinityScript.Proofs.Argument.Call

/-!
# Arguments that are joined and divided again

Arguments with commas and blanks between them are found again by dividing the text
(`Call.arguments_join_padded`). A string that holds a comma is cut there and mended; what it
loses by that are the blanks before its comma.
-/

namespace InfinityScript

namespace Text

theorem splitOn_join_flatMap {parts : List Text} (hne : parts ≠ []) (mark : Char) :
    splitOn mark (join [mark] parts) = parts.flatMap (splitOn mark) := by
  induction parts with
  | nil => exact absurd rfl hne
  | cons part parts ih =>
    cases parts with
    | nil => simp
    | cons second parts =>
      rw [join_cons_cons, List.singleton_append, splitOn_append_mark, ih (by simp),
        List.flatMap_cons (x := part)]

end Text

namespace Call

/-- The text has no comma and no blanks at its ends, and closes the bracket or the quote it
begins with. -/
structure IsBare (value : Text) : Prop where
  nonempty : value ≠ []
  trimmed : Text.trim value = value
  comma : ',' ∉ value
  closed : ∀ delimiter : Delimiter, value.head? = some delimiter.opening →
    2 ≤ value.length ∧ value.getLast? = some delimiter.closing

/-- The text stands in a string on one side of a comma. -/
structure IsHalf (text : Text) : Prop where
  visible : Text.trim text ≠ []
  comma : ',' ∉ text
  quote : '"' ∉ text

def IsDivided (value : Text) : Prop :=
  ∃ before after, value = '"' :: (before ++ ',' :: (after ++ ['"'])) ∧ IsHalf before ∧ IsHalf after

theorem comma_notMem_blanks {blanks : Text} (h : ∀ c ∈ blanks, Text.isBlank c) :
    ',' ∉ blanks := fun hmem =>
  absurd (h _ hmem) (by decide)

def IsPadded (value text : Text) : Prop :=
  ∃ left right, text = left ++ value ++ right ∧ (∀ c ∈ left, Text.isBlank c) ∧
    ∀ c ∈ right, Text.isBlank c

def BlankBeforeComma (value : Text) : Prop :=
  ∃ before blank after, value = before ++ blank :: ',' :: after ∧ Text.isBlank blank

def tighten (value : Text) : Text :=
  match Text.cut? ',' value with
  | some (before, after) => Text.trimRight before ++ ',' :: after
  | none => value

theorem tighten_eq_self_iff (h : ',' ∉ before) :
    tighten (before ++ ',' :: after) = before ++ ',' :: after ↔
      ∀ c ∈ before.getLast?, Text.isBlank c = false := by
  rw [tighten, Text.cut?_append h]
  dsimp only
  rw [List.append_left_inj]
  constructor
  · intro htrim c hc
    have hne : Text.trimRight before ≠ [] := by
      rw [htrim]
      rintro rfl
      cases hc
    obtain ⟨d, hd, hvisible⟩ := Text.endsVisibly_trimRight hne
    rw [htrim, hc] at hd
    exact Option.some.inj hd ▸ hvisible
  · intro hlast
    cases hsome : before.getLast? with
    | none => rw [List.getLast?_eq_none_iff.mp hsome]; rfl
    | some c => exact Text.trimRight_eq_self ⟨c, hsome, hlast c hsome⟩

theorem not_blankBeforeComma (h : ',' ∉ value) : ¬ BlankBeforeComma value := by
  rintro ⟨before, blank, after, rfl, -⟩
  exact h (by simp)

theorem tighten_quote (h : ',' ∉ before) (after : Text) :
    tighten ('"' :: (before ++ ',' :: after)) = '"' :: (Text.trimRight before ++ ',' :: after) := by
  have hcomma : ',' ∉ '"' :: before := by simpa using h
  rw [← List.cons_append, tighten, Text.cut?_append hcomma]
  dsimp only
  rw [Text.trimRight_quote, List.cons_append]

theorem IsBare.tighten_eq (h : IsBare value) : tighten value = value := by
  rw [tighten, Text.cut?_eq_none h.comma]

/-- A string has one comma, so that the blank before it is the last character of its first half. -/
theorem IsDivided.tighten_eq_iff (h : IsDivided value) :
    tighten value = value ↔ ¬ BlankBeforeComma value := by
  obtain ⟨before, after, rfl, hbefore, hafter⟩ := h
  have hfirst : ',' ∉ '"' :: before := by simpa using hbefore.comma
  have hsecond : ',' ∉ after ++ ['"'] := by simpa using hafter.comma
  rw [← List.cons_append, tighten_eq_self_iff hfirst]
  constructor
  · rintro hlast ⟨first, blank, last, heq, hblank⟩
    rw [List.append_cons first blank, List.append_cons_inj_of_notMem hfirst hsecond] at heq
    rw [heq.1, List.getLast?_concat] at hlast
    simp [hlast blank rfl] at hblank
  · intro hnone c hlast
    obtain ⟨first, hfirst⟩ := List.getLast?_eq_some_iff.mp hlast
    refine Bool.eq_false_iff.mpr fun hblank => hnone ⟨first, c, after ++ ['"'], ?_, hblank⟩
    rw [hfirst, ← List.append_cons]

/-- The pieces of the text are put together to the argument, whatever comes after them. -/
structure Yields (text argument : Text) : Prop where
  visible : ∀ piece ∈ Text.splitOn ',' text, Text.trim piece ≠ []
  assembles : ∀ {first second : Delimiter}, first ≠ second → ∀ rest,
    assemble first second (Text.splitOn ',' text ++ rest) =
      (argument :: ·) <$> assemble first second rest

theorem IsBare.isCut_eq_false (h : IsBare value) (delimiter : Delimiter) :
    isCut delimiter value = false := by
  rw [isCut, Bool.and_eq_false_iff]
  by_cases hhead : value.head? = some delimiter.opening
  · obtain ⟨hlength, hlast⟩ := h.closed delimiter hhead
    have hne : value.length ≠ 1 := by omega
    exact .inr (by simp [hlast, hne])
  · exact .inl (by simpa using hhead)

theorem mend_whole {pieces : List Text} (h : isCut delimiter argument = false) :
    mend delimiter argument pieces = .ok (argument, ⟨pieces, Nat.le_refl _⟩) := by
  simp [mend, h]

theorem mend_cut {pieces : List Text} (h : isCut delimiter argument) :
    mend delimiter argument (piece :: pieces) =
      .ok (Text.trim (argument ++ ',' :: piece), ⟨pieces, Nat.le_succ _⟩) := by
  simp [mend, h]

theorem assemble_whole {first second : Delimiter} (rest : List Text)
    (h : ∀ delimiter, isCut delimiter (Text.trim piece) = false) :
    assemble first second (piece :: rest) =
      (Text.trim piece :: ·) <$> assemble first second rest := by
  rw [assemble, mend_whole (h first)]
  show (mend second (Text.trim piece) rest >>= _) = _
  rw [mend_whole (h second)]
  rfl

theorem assemble_cut {first second : Delimiter} (hne : first ≠ second) (rest : List Text)
    (hcut : isCut .quote (Text.trim piece)) (hpiece : isCut .bracket (Text.trim piece) = false)
    (hmended : isCut .bracket (Text.trim (Text.trim piece ++ ',' :: next)) = false) :
    assemble first second (piece :: next :: rest) =
      (Text.trim (Text.trim piece ++ ',' :: next) :: ·) <$> assemble first second rest := by
  cases first with
  | quote =>
    obtain rfl : second = .bracket := by cases second <;> simp_all
    rw [assemble, mend_cut hcut]
    show (mend .bracket _ rest >>= _) = _
    rw [mend_whole hmended]
    rfl
  | bracket =>
    obtain rfl : second = .quote := by cases second <;> simp_all
    rw [assemble, mend_whole hpiece]
    show (mend .quote _ (next :: rest) >>= _) = _
    rw [mend_cut hcut]
    rfl

theorem IsBare.yields (h : IsBare value) (hpadded : IsPadded value text) : Yields text value := by
  obtain ⟨left, right, rfl, hleft, hright⟩ := hpadded
  have hcomma : ',' ∉ left ++ value ++ right := by
    simp [comma_notMem_blanks hleft, comma_notMem_blanks hright, h.comma]
  have htrim : Text.trim (left ++ value ++ right) = value :=
    (Text.trim_append hleft hright value).trans h.trimmed
  have hsplit := Text.splitOn_eq_singleton hcomma
  refine ⟨?_, fun _ rest => ?_⟩
  · rw [hsplit, List.forall_mem_singleton, htrim]
    exact h.nonempty
  · rw [hsplit, List.singleton_append, assemble_whole rest fun delimiter => by
      rw [htrim]; exact h.isCut_eq_false delimiter, htrim]

theorem IsDivided.yields (h : IsDivided value) (hpadded : IsPadded value text) :
    Yields text (tighten value) := by
  obtain ⟨left, right, rfl, hleft, hright⟩ := hpadded
  obtain ⟨before, after, rfl, hbefore, hafter⟩ := h
  have hsplit : Text.splitOn ',' (left ++ '"' :: (before ++ ',' :: (after ++ ['"'])) ++ right) =
      [left ++ '"' :: before, after ++ '"' :: right] := by
    have hfirst : ',' ∉ left ++ '"' :: before := by
      simp [comma_notMem_blanks hleft, hbefore.comma]
    have hsecond : ',' ∉ after ++ '"' :: right := by
      simp [comma_notMem_blanks hright, hafter.comma]
    rw [← Text.splitOn_eq_singleton hsecond, ← Text.splitOn_append hfirst]
    simp
  have htrim : Text.trim (left ++ '"' :: before) = '"' :: Text.trimRight before := by
    rw [Text.trim_append_left hleft, Text.trim, Text.trimLeft_eq_self (by simp; decide),
      Text.trimRight_quote]
  have hmended : Text.trim ('"' :: Text.trimRight before ++ ',' :: (after ++ '"' :: right)) =
      '"' :: (Text.trimRight before ++ ',' :: (after ++ ['"'])) := by
    have hself : Text.trim ('"' :: (Text.trimRight before ++ ',' :: (after ++ ['"']))) =
        '"' :: (Text.trimRight before ++ ',' :: (after ++ ['"'])) := by
      refine Text.trim_eq_self (by simp; decide) fun c hc => ?_
      rw [← List.cons_append, ← List.cons_append, ← List.append_assoc, List.getLast?_concat] at hc
      exact Option.some.inj hc ▸ by decide
    have hnone : ∀ c ∈ ([] : Text), Text.isBlank c := by simp
    have hpadded := Text.trim_append hnone hright
      ('"' :: (Text.trimRight before ++ ',' :: (after ++ ['"'])))
    rw [hself] at hpadded
    simpa using hpadded
  have hcut : isCut .quote ('"' :: Text.trimRight before) := isCut_quote fun hmem =>
    hbefore.quote ((Text.trimRight_sublist before).subset hmem)
  refine ⟨?_, fun hne rest => ?_⟩
  · rw [hsplit]
    have hquote : ∀ {piece : Text}, '"' ∈ piece → Text.trim piece ≠ [] := fun hmem hnil =>
      absurd (Text.trim_eq_nil_iff.mp hnil _ hmem) (by decide)
    simp [hquote]
  · rw [hsplit]
    have hassemble := assemble_cut hne rest (htrim ▸ hcut) (by rw [htrim]; rfl)
      (by rw [htrim, hmended]; rfl)
    rwa [htrim, hmended, ← tighten_quote hbefore.comma] at hassemble

/-- Texts that each yield an argument yield all of them when they are joined. -/
theorem arguments_of_yields (h : List.Forall₂ Yields texts values) (quotesFirst : Bool) :
    arguments (Text.join "," texts) quotesFirst = .ok values := by
  have hvisible : ∀ part ∈ texts, ∀ piece ∈ Text.splitOn ',' part, Text.trim piece ≠ [] := by
    induction h with
    | nil => simp
    | cons hyields _ ih => exact List.forall_mem_cons.mpr ⟨hyields.visible, ih⟩
  have hassemble : ∀ {first second}, first ≠ second →
      assemble first second (texts.flatMap (Text.splitOn ',')) = .ok values := by
    intro first second hne
    clear hvisible
    induction h with
    | nil => rw [List.flatMap_nil, assemble]
    | cons hyields _ ih => rw [List.flatMap_cons, hyields.assembles hne, ih]; rfl
  cases texts with
  | nil =>
    cases h
    exact arguments_nil quotesFirst
  | cons text texts =>
    have hpieces : (Text.splitOn ',' (Text.join "," (text :: texts))).filter
        (fun piece => Text.trim piece ≠ []) = (text :: texts).flatMap (Text.splitOn ',') := by
      rw [show ",".toList = [','] from rfl, Text.splitOn_join_flatMap (by simp),
        List.filter_eq_self]
      intro piece hpiece
      obtain ⟨part, hpart, hpiece⟩ := List.mem_flatMap.mp hpiece
      simpa using hvisible part hpart piece hpiece
    rw [arguments, hpieces]
    split
    · exact hassemble (by simp)
    · exact hassemble (by simp)

/-- Arguments with commas and blanks between them are found again, each without the blanks
before its own comma. They are unchanged when there are none of these. -/
theorem arguments_join_padded (hvalues : ∀ value ∈ values, IsBare value ∨ IsDivided value)
    (htexts : List.Forall₂ IsPadded values texts) (quotesFirst : Bool) :
    arguments (Text.join "," texts) quotesFirst = .ok (values.map tighten) ∧
      (arguments (Text.join "," texts) quotesFirst = .ok values ↔
        ∀ value ∈ values, ¬ BlankBeforeComma value) := by
  have hyields : List.Forall₂ Yields texts (values.map tighten) := by
    induction htexts with
    | nil => exact .nil
    | cons hpadded _ ih =>
      obtain ⟨hvalue, hvalues⟩ := List.forall_mem_cons.mp hvalues
      refine .cons ?_ (ih hvalues)
      rcases hvalue with hbare | hdivided
      · exact hbare.tighten_eq.symm ▸ hbare.yields hpadded
      · exact hdivided.yields hpadded
  have harguments := arguments_of_yields hyields quotesFirst
  have hself : values.map tighten = values ↔ ∀ value ∈ values, tighten value = value := by
    simpa using List.map_inj_left (f := tighten) (g := id) (l := values)
  refine ⟨harguments, ?_⟩
  rw [harguments, Except.ok.injEq, hself]
  refine forall₂_congr fun value hvalue => ?_
  rcases hvalues value hvalue with hbare | hdivided
  · exact iff_of_true hbare.tighten_eq (not_blankBeforeComma hbare.comma)
  · exact hdivided.tighten_eq_iff

theorem arguments_join_padded_sample :
    let values : List Text := ["\"a, b\"", "[1.2]", "Myself"]
    let texts : List Text := ["\"a, b\" ", "\t[1.2]", "  Myself"]
    (∀ value ∈ values, IsBare value ∨ IsDivided value) ∧ List.Forall₂ IsPadded values texts ∧
      (∀ value ∈ values, ¬ BlankBeforeComma value) ∧
      arguments (Text.join "," texts) true = .ok values := by
  intro values texts
  have hdivided : IsDivided "\"a, b\"" := ⟨"a".toList, " b".toList, rfl,
    ⟨by decide, by decide, by decide⟩, ⟨by decide, by decide, by decide⟩⟩
  have hpoint : IsBare "[1.2]" := ⟨by decide, by decide, by decide, by rintro ⟨⟩ <;> decide⟩
  have hname : IsBare "Myself" := ⟨by decide, by decide, by decide, by rintro ⟨⟩ <;> decide⟩
  have hvalues : ∀ value ∈ values, IsBare value ∨ IsDivided value :=
    List.forall_mem_cons.mpr ⟨.inr hdivided, List.forall_mem_cons.mpr
      ⟨.inl hpoint, List.forall_mem_singleton.mpr (.inl hname)⟩⟩
  have htexts : List.Forall₂ IsPadded values texts :=
    .cons ⟨[], [' '], rfl, by simp, by decide⟩ (.cons ⟨['\t'], [], rfl, by decide, by simp⟩
      (.cons ⟨[' ', ' '], [], rfl, by decide, by simp⟩ .nil))
  have hvisible : ∀ value ∈ values, ¬ BlankBeforeComma value :=
    List.forall_mem_cons.mpr ⟨hdivided.tighten_eq_iff.mp (by decide), List.forall_mem_cons.mpr
      ⟨not_blankBeforeComma hpoint.comma,
        List.forall_mem_singleton.mpr (not_blankBeforeComma hname.comma)⟩⟩
  exact ⟨hvalues, htexts, hvisible, (arguments_join_padded hvalues htexts true).2.mpr hvisible⟩

/-- The blank before the comma of a string is lost. -/
theorem arguments_blankBeforeComma :
    IsDivided "\"a ,b\"" ∧ arguments "\"a ,b\"" true = .ok ["\"a,b\""] ∧
      arguments "\"a ,b\"" false = .ok ["\"a,b\""] := by
  refine ⟨⟨"a ".toList, "b".toList, rfl, ⟨by decide, by decide, by decide⟩,
    ⟨by decide, by decide, by decide⟩⟩, ?_, ?_⟩ <;> decide +kernel

end Call

end InfinityScript
