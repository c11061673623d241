import InfinityScript.Call
import InfinityScript.Proofs.Outcome
import InfinityScript.Proofs.Text.Cut
import InfinityScript.Proofs.Text.Lines

/-!
# Arguments of a call

The arguments of a call are left of its line when characters are taken out of it: a piece
that is joined to the next keeps the comma between them (`Call.sublist_bound`). None of
them is empty (`Call.ne_nil_bound`).
-/

namespace InfinityScript

theorem Symbols.function_ok (h : function symbols table name = .ok entry) :
    symbols.byName? table name = some entry ∧ entry.isFunction := by
  unfold function at h
  split at h
  · next found hfound =>
    split at h
    · next hfunction =>
      obtain rfl := Except.ok.inj h
      exact ⟨hfound, hfunction⟩
    · cases h
  · cases h

namespace Call

theorem split_isInfix (h : split line = .ok (name, inside)) :
    name <+: line ∧ inside <:+: line := by
  unfold split at h
  split at h
  · next before rest _ hcut _ =>
    obtain ⟨rfl, hargs⟩ := Prod.mk.inj (Except.ok.inj h)
    obtain ⟨-, rfl⟩ := Text.cut?_eq_some hcut
    have hrest : rest <:+: before ++ '(' :: rest :=
      ((List.suffix_cons _ rest).trans (List.suffix_append _ _)).isInfix
    refine ⟨(Text.trimRight_isPrefix before).trans (List.prefix_append _ _), ?_⟩
    subst hargs
    split
    · next found _ hlast =>
      obtain rfl := Text.cutLast?_eq_some hlast
      exact (List.prefix_append _ _).isInfix.trans hrest
    · exact List.nil_infix
  · cases h

theorem split_sublist (h : split line = .ok (name, inside)) :
    name.Sublist line ∧ inside.Sublist line :=
  ⟨(split_isInfix h).1.sublist, (split_isInfix h).2.sublist⟩

theorem split_ok (h : split line = .ok (name, inside)) : inside ⊆ line := (split_sublist h).2.subset

def ended (pieces : List Text) : Text := (pieces.map (· ++ [','])).flatten

theorem ended_cons (piece : Text) (pieces : List Text) :
    ended (piece :: pieces) = piece ++ ',' :: ended pieces := by
  simp [ended]

theorem ended_splitOn (text : Text) : ended (Text.splitOn ',' text) = text ++ [','] := by
  induction text with
  | nil => rfl
  | cons c text ih =>
    rw [Text.splitOn]
    split
    · next hc => rw [ended_cons, ih, hc, List.nil_append, List.cons_append]
    · split
      · next hnone =>
        rw [hnone] at ih
        exact absurd (congrArg List.length ih) (by simp [ended])
      · next piece pieces hsplit =>
        rw [hsplit, ended_cons] at ih
        rw [ended_cons, List.cons_append, ih, List.cons_append]

theorem ended_sublist {first second : List Text} (h : first.Sublist second) :
    (ended first).Sublist (ended second) := by
  induction h with
  | slnil => exact List.Sublist.refl _
  | cons piece _ ih =>
    rw [ended_cons]
    exact (ih.cons ',').trans (List.sublist_append_right _ _)
  | cons_cons piece _ ih =>
    rw [ended_cons, ended_cons]
    exact (ih.cons_cons ',').append_left piece

theorem sublist_of_mem_ended {values : List Text} (hvalue : value ∈ values)
    (h : (ended values).Sublist (text ++ [','])) : value.Sublist text := by
  have hended : (value ++ [',']).Sublist (ended values) :=
    List.sublist_flatten_of_mem (List.mem_map_of_mem hvalue)
  exact (List.append_sublist_append_right [',']).mp (hended.trans h)

theorem mend_ok {pieces : List Text} {rest : { rest : List Text // rest.length ≤ pieces.length }}
    (h : mend delimiter argument pieces = .ok (mended, rest)) :
    (ended (mended :: rest.1)).Sublist (ended (argument :: pieces)) ∧ rest.1 ⊆ pieces ∧
      (argument ≠ [] → mended ≠ []) := by
  unfold mend at h
  split at h
  · split at h
    · cases h
    · next piece others =>
      cases h
      refine ⟨?_, List.subset_cons_self piece others, fun _ => ?_⟩
      · rw [ended_cons, ended_cons, ended_cons]
        have htrim := Text.trim_sublist (argument ++ ',' :: piece)
        simpa using htrim.append_right (',' :: ended others)
      · intro hnil
        exact absurd (Text.trim_eq_nil_iff.mp hnil ',' (by simp)) (by decide)
  · cases h
    exact ⟨List.Sublist.refl _, List.Subset.refl _, id⟩

/-- Assembling takes one argument after the other from the pieces, mended at both delimiters. -/
theorem assemble_induction {motive : List Text → List Text → Prop} (nil : motive [] [])
    (cons : ∀ {piece opened closed : Text} {pieces others : List Text}
      {pieces₁ : { rest : List Text // rest.length ≤ pieces.length }}
      {pieces₂ : { rest : List Text // rest.length ≤ pieces₁.1.length }},
      mend first (Text.trim piece) pieces = .ok (opened, pieces₁) →
      mend second opened pieces₁.1 = .ok (closed, pieces₂) → motive pieces₂.1 others →
      motive (piece :: pieces) (closed :: others))
    {pieces : List Text} (h : assemble first second pieces = .ok values) : motive pieces values := by
  induction hlength : pieces.length using Nat.strongRecOn generalizing pieces values with
  | ind n ih =>
    cases pieces with
    | nil =>
      rw [assemble] at h
      cases h
      exact nil
    | cons piece pieces =>
      rw [assemble] at h
      obtain ⟨⟨opened, pieces₁, hle₁⟩, hfirst, h⟩ := Outcome.bind_ok.mp h
      obtain ⟨⟨closed, pieces₂, hle₂⟩, hsecond, h⟩ := Outcome.bind_ok.mp h
      obtain ⟨others, hothers, h⟩ := Outcome.bind_ok.mp h
      obtain rfl := Outcome.pure_ok.mp h
      have hlt : pieces₂.length < n := by
        simp only [List.length_cons] at hlength
        have := Nat.le_trans hle₂ hle₁
        omega
      exact cons hfirst hsecond (ih _ hlt hothers rfl)

theorem assemble_ok {pieces : List Text} (h : assemble first second pieces = .ok values) :
    (ended values).Sublist (ended pieces) ∧
      ((∀ piece ∈ pieces, Text.trim piece ≠ []) → ∀ value ∈ values, value ≠ []) := by
  refine assemble_induction (motive := fun pieces values => (ended values).Sublist (ended pieces) ∧
    ((∀ piece ∈ pieces, Text.trim piece ≠ []) → ∀ value ∈ values, value ≠ []))
    ⟨List.Sublist.refl _, by simp⟩ ?_ h
  intro piece opened closed pieces others pieces₁ pieces₂ hfirst hsecond ⟨hrest, hne⟩
  obtain ⟨hopened, hpieces₁, hne₁⟩ := mend_ok hfirst
  obtain ⟨hclosed, hpieces₂, hne₂⟩ := mend_ok hsecond
  constructor
  · calc ended (closed :: others)
      _ = closed ++ ',' :: ended others := ended_cons _ _
      List.Sublist _ (closed ++ ',' :: ended pieces₂.1) := (hrest.cons_cons ',').append_left closed
      _ = ended (closed :: pieces₂.1) := (ended_cons _ _).symm
      List.Sublist _ (ended (opened :: pieces₁.1)) := hclosed
      List.Sublist _ (ended (Text.trim piece :: pieces)) := hopened
      List.Sublist _ (ended (piece :: pieces)) := by
        rw [ended_cons, ended_cons]
        exact (Text.trim_sublist piece).append_right _
  · intro hblank value hvalue
    obtain ⟨hpiece, hpieces⟩ := List.forall_mem_cons.mp hblank
    rcases List.mem_cons.mp hvalue with rfl | hvalue
    · exact hne₂ (hne₁ hpiece)
    · exact hne (fun other hother => hpieces other (hpieces₁ (hpieces₂ hother))) value hvalue

theorem arguments_ok (h : arguments text quotesFirst = .ok values) :
    (ended values).Sublist (text ++ [',']) ∧ ∀ value ∈ values, value ≠ [] := by
  have hpieces : ∀ {first second},
      assemble first second ((Text.splitOn ',' text).filter fun piece => Text.trim piece ≠ []) =
        .ok values → (ended values).Sublist (text ++ [',']) ∧ ∀ value ∈ values, value ≠ [] := by
    intro first second h
    obtain ⟨hsublist, hne⟩ := assemble_ok h
    refine ⟨hsublist.trans ?_, hne fun piece hpiece => ?_⟩
    · rw [← ended_splitOn]
      exact ended_sublist List.filter_sublist
    · simpa using (List.mem_filter.mp hpiece).2
  unfold arguments at h
  dsimp only at h
  split at h
  · exact hpieces h
  · exact hpieces h

theorem rejoin_ok (signature : Signature) (values : List Text) :
    ended (rejoin signature values) = ended values ∧
      ((∀ value ∈ values, value ≠ []) → ∀ value ∈ rejoin signature values, value ≠ []) := by
  unfold rejoin
  split
  · split
    · split
      · next argument extra rest hdrop =>
        constructor
        · conv => rhs; rw [← List.take_append_drop (signature.length - 1) values, hdrop]
          simp [ended]
        · intro hne value hvalue
          rcases List.mem_append.mp hvalue with hvalue | hvalue
          · exact hne value (List.mem_of_mem_take hvalue)
          · rcases List.mem_cons.mp hvalue with rfl | hvalue
            · simp
            · have hmem : value ∈ values.drop (signature.length - 1) := by simp [hdrop, hvalue]
              exact hne value (List.mem_of_mem_drop hmem)
      · exact ⟨rfl, id⟩
    · exact ⟨rfl, id⟩
  · exact ⟨rfl, id⟩

/-- Where a piece has been joined to the next there is a comma. -/
theorem mem_of_mem_rejoin {signature : Signature} (h : value ∈ rejoin signature values)
    (hcomma : ',' ∉ value) : value ∈ values := by
  unfold rejoin at h
  split at h
  · split at h
    · split at h
      · next argument extra rest hdrop =>
        rcases List.mem_append.mp h with h | h
        · exact List.mem_of_mem_take h
        · rcases List.mem_cons.mp h with rfl | h
          · exact absurd (by simp) hcomma
          · exact List.mem_of_mem_drop (i := signature.length - 1) (by simp [hdrop, h])
      · exact h
    · exact h
  · exact h

theorem mend_comma {pieces : List Text} {rest : { rest : List Text // rest.length ≤ pieces.length }}
    (h : mend delimiter argument pieces = .ok (mended, rest)) (hcomma : ',' ∉ mended) :
    mended = argument := by
  unfold mend at h
  split at h
  · split at h
    · cases h
    · cases h
      exact absurd (Text.mem_trim (by simp) (by decide)) hcomma
  · cases h
    rfl

theorem exists_piece_of_assemble {pieces : List Text} (h : assemble first second pieces = .ok values) :
    ∀ value ∈ values, ',' ∉ value → ∃ piece ∈ pieces, value = Text.trim piece := by
  refine assemble_induction (motive := fun pieces values =>
    ∀ value ∈ values, ',' ∉ value → ∃ piece ∈ pieces, value = Text.trim piece) (by simp) ?_ h
  intro piece opened closed pieces others pieces₁ pieces₂ hfirst hsecond ih value hvalue hcomma
  rcases List.mem_cons.mp hvalue with rfl | hvalue
  · obtain rfl := mend_comma hsecond hcomma
    exact ⟨piece, by simp, mend_comma hfirst hcomma⟩
  · obtain ⟨found, hfound, rfl⟩ := ih value hvalue hcomma
    exact ⟨found, by simp [(mend_ok hfirst).2.1 ((mend_ok hsecond).2.1 hfound)], rfl⟩

theorem bind_ok (h : bind entry values = .ok pairs) :
    ∃ signature, entry.signature = .ok signature ∧
      pairs = signature.zip (rejoin signature values) ∧ pairs.map Prod.fst = signature := by
  unfold bind at h
  split at h
  · cases h
  · next signature hsignature =>
    dsimp only at h
    split at h
    · cases h
    · split at h
      · cases h
      · next hmany hfew =>
        obtain rfl := Except.ok.inj h
        exact ⟨signature, hsignature, rfl, List.map_fst_zip (Nat.le_of_not_gt hfew)⟩

/-- An argument is what is left of its line when characters are taken out of it. -/
theorem sublist_bound (harguments : arguments text quotesFirst = .ok values)
    (hbind : bind entry values = .ok pairs) : ∀ argument ∈ pairs, argument.2.Sublist text := by
  obtain ⟨signature, -, rfl, -⟩ := bind_ok hbind
  rintro ⟨parameter, value⟩ hmem
  refine sublist_of_mem_ended (List.of_mem_zip hmem).2 ?_
  rw [(rejoin_ok signature values).1]
  exact (arguments_ok harguments).1

theorem infix_bound (harguments : arguments text quotesFirst = .ok values)
    (hbind : bind entry values = .ok pairs) :
    ∀ argument ∈ pairs, ',' ∉ argument.2 → argument.2 <:+: text := by
  obtain ⟨signature, -, rfl, -⟩ := bind_ok hbind
  rintro ⟨parameter, value⟩ hmem hcomma
  have hvalue := mem_of_mem_rejoin (List.of_mem_zip hmem).2 hcomma
  have hpieces : ∀ {first second}, assemble first second
      ((Text.splitOn ',' text).filter fun piece => Text.trim piece ≠ []) = .ok values →
        value <:+: text := by
    intro first second h
    obtain ⟨piece, hpiece, rfl⟩ := exists_piece_of_assemble h _ hvalue hcomma
    exact (Text.trim_isInfix piece).trans
      ((Text.splitOn_isInfix ',' text).2 piece (List.mem_filter.mp hpiece).1)
  unfold arguments at harguments
  dsimp only at harguments
  split at harguments
  · exact hpieces harguments
  · exact hpieces harguments

theorem ne_nil_bound (harguments : arguments text quotesFirst = .ok values)
    (hbind : bind entry values = .ok pairs) : ∀ argument ∈ pairs, argument.2 ≠ [] := by
  obtain ⟨signature, -, rfl, -⟩ := bind_ok hbind
  rintro ⟨parameter, value⟩ hmem
  exact (rejoin_ok signature values).2 (arguments_ok harguments).2 value (List.of_mem_zip hmem).2

theorem newline_notMem_bound (hline : '\n' ∉ text)
    (harguments : arguments text quotesFirst = .ok values) (hbind : bind entry values = .ok pairs) :
    ∀ argument ∈ pairs, '\n' ∉ argument.2 := fun argument hmem hnewline =>
  hline ((sublist_bound harguments hbind argument hmem).subset hnewline)

def bound (symbols : Symbols) (table : Text) (quotesFirst : Bool) (line : Text) :
    Except Fault (List (Parameter × Text)) := do
  let (name, inside) ← split line
  let entry ← symbols.function table name
  let values ← arguments inside quotesFirst
  bind entry values

theorem bound_eq (hsplit : split line = .ok (name, inside))
    (hentry : symbols.function table name = .ok entry)
    (hvalues : arguments inside quotesFirst = .ok values) :
    bound symbols table quotesFirst line = bind entry values := by
  simp only [bound, hsplit, hentry, hvalues, Bind.bind, Except.bind]

-- --------------------
-- Calls that are written out
-- --------------------

structure IsArgument (value : Text) : Prop where
  nonempty : value ≠ []
  trimmed : Text.trim value = value
  comma : ',' ∉ value
  whole : ∀ delimiter, isCut delimiter value = false

theorem assemble_eq (first second : Delimiter) (h : ∀ value ∈ values, IsArgument value) :
    assemble first second values = .ok values := by
  induction values with
  | nil => rw [assemble]
  | cons value values ih =>
    obtain ⟨hvalue, hvalues⟩ := List.forall_mem_cons.mp h
    rw [assemble]
    simp [mend, hvalue.trimmed, hvalue.whole, ih hvalues, Bind.bind, Except.bind, Pure.pure,
      Except.pure]

theorem arguments_nil (quotesFirst : Bool) : arguments [] quotesFirst = .ok [] := by
  simp [arguments, Text.splitOn, Text.trim, Text.trimLeft, Text.trimRight, assemble]

/-- Arguments with commas between them are the arguments of their call. -/
theorem arguments_join (h : ∀ value ∈ values, IsArgument value) (quotesFirst : Bool) :
    arguments (Text.join "," values) quotesFirst = .ok values := by
  cases values with
  | nil => exact arguments_nil quotesFirst
  | cons value values =>
    have hsplit := Text.splitOn_join (List.cons_ne_nil value values) fun other hother =>
      (h other hother).comma
    have hpieces : (Text.splitOn ',' (Text.join "," (value :: values))).filter
        (fun piece => Text.trim piece ≠ []) = value :: values := by
      rw [show ",".toList = [','] from rfl, hsplit, List.filter_eq_self]
      intro other hother
      simpa [(h other hother).trimmed] using (h other hother).nonempty
    rw [arguments, hpieces]
    split <;> exact assemble_eq _ _ h

theorem bind_zip (hsignature : entry.signature = .ok signature)
    (hlength : values.length = signature.length) :
    bind entry values = .ok (signature.zip values) := by
  have hrejoin : rejoin signature values = values := by
    unfold rejoin
    split
    · split
      · split
        · next argument extra rest hdrop =>
          have hcount := congrArg List.length hdrop
          simp only [List.length_drop, List.length_cons] at hcount
          omega
        · rfl
      · rfl
    · rfl
  simp [bind, hsignature, hrejoin, hlength]

-- --------------------
-- Calls with one string
-- --------------------

theorem split_concat (hname : '(' ∉ name) (htrim : Text.trimRight name = name) (inside : Text) :
    split (name ++ '(' :: (inside ++ [')'])) = .ok (name, inside) := by
  have hinside : Text.cutLast? ')' (inside ++ [')']) = some (inside, []) :=
    Text.cutLast?_append (by simp) inside
  have hline : Text.cutLast? ')' (name ++ '(' :: inside ++ [')']) =
      some (name ++ '(' :: inside, []) := Text.cutLast?_append (by simp) _
  rw [List.append_assoc, List.cons_append] at hline
  simp only [split, Text.cut?_append hname, hline, hinside, htrim]

theorem isArgument_quoted (hhead : value.head? = some '"') (hlast : value.getLast? = some '"')
    (hlength : value.length ≠ 1) (hcomma : ',' ∉ value) : IsArgument value where
  nonempty hnil := by simp [hnil] at hhead
  trimmed := by
    refine Text.trim_eq_self (fun c hc => ?_) fun c hc => ?_
    · rw [hhead] at hc
      exact Option.some.inj hc ▸ by decide
    · rw [hlast] at hc
      exact Option.some.inj hc ▸ by decide
  comma := hcomma
  whole delimiter := by
    cases delimiter <;> simp [isCut, hhead, hlast, hlength, Delimiter.opening, Delimiter.closing]

theorem isCut_quote (hquote : '"' ∉ body) : isCut .quote ('"' :: body) := by
  cases body with
  | nil => rfl
  | cons c body =>
    have hlast : (c :: body).getLast? ≠ some '"' := fun hlast => hquote (List.mem_of_getLast? hlast)
    simp [isCut, Delimiter.opening, Delimiter.closing, List.getLast?_cons_cons, hlast]

theorem arguments_unclosed (hquote : '"' ∉ body) (hcomma : ',' ∉ body) (quotesFirst : Bool) :
    arguments ('"' :: body) quotesFirst =
      .error (.unclosed .quote ('"' :: Text.trimRight body)) := by
  have htrim : Text.trim ('"' :: body) = '"' :: Text.trimRight body := by
    rw [Text.trim, Text.trimLeft_eq_self (by simp; decide), Text.trimRight_quote]
  have hpieces : (Text.splitOn ',' ('"' :: body)).filter (fun piece => Text.trim piece ≠ []) =
      ['"' :: body] := by
    simp [Text.splitOn_eq_singleton (by simpa using hcomma : ',' ∉ '"' :: body), htrim]
  have hcut : isCut .quote ('"' :: Text.trimRight body) = true :=
    isCut_quote fun hmem => hquote ((Text.trimRight_sublist body).subset hmem)
  have hbracket : isCut .bracket ('"' :: Text.trimRight body) = false := rfl
  rw [arguments, hpieces]
  split
  · simp [assemble, htrim, mend, hcut, Bind.bind, Except.bind]
  · simp [assemble, htrim, mend, hcut, hbracket, Bind.bind, Except.bind]

theorem bind_nil (hsignature : entry.signature = .ok [parameter])
    (hkind : parameter.kind = .string) :
    bind entry [] = .error (.tooFewArguments (entry.parameters.getD [])) := by
  simp [bind, hsignature, rejoin, hkind]

/-- What is inside a call that breaks off in a string is nothing, or a part of the string. -/
theorem split_unclosed (hname : '(' ∉ name) (htrim : Text.trimRight name = name)
    (h : split (name ++ '(' :: '"' :: body) = .ok (found, inside)) :
    found = name ∧ (inside = [] ∨ ∃ before, inside = '"' :: before ∧ before ⊆ body) := by
  simp only [split, Text.cut?_append hname] at h
  split at h
  · next _ _ _ _ hcut _ =>
    cases hcut
    obtain ⟨rfl, rfl⟩ := Prod.mk.inj (Except.ok.inj h)
    refine ⟨htrim, ?_⟩
    split
    · next before after hlast =>
      have hbody := Text.cutLast?_eq_some hlast
      cases before with
      | nil => cases (List.cons.inj hbody).1
      | cons c before =>
        obtain ⟨rfl, rfl⟩ := List.cons.inj hbody
        exact .inr ⟨before, rfl, List.subset_append_left _ _⟩
    · exact .inl rfl
  · cases h

theorem bound_unclosed (hname : '(' ∉ name) (htrim : Text.trimRight name = name)
    (hquote : '"' ∉ body) (hcomma : ',' ∉ body)
    (hentry : symbols.function table name = .ok entry)
    (hsignature : entry.signature = .ok [parameter]) (hkind : parameter.kind = .string)
    (quotesFirst : Bool) :
    bound symbols table quotesFirst (name ++ '(' :: '"' :: body) ≠ .ok pairs := by
  intro h
  obtain ⟨⟨found, inside⟩, hsplit, h⟩ := Outcome.bind_ok.mp h
  obtain ⟨entry', hentry', h⟩ := Outcome.bind_ok.mp h
  obtain ⟨values, hvalues, h⟩ := Outcome.bind_ok.mp h
  obtain ⟨rfl, rfl | ⟨before, rfl, hbefore⟩⟩ := split_unclosed hname htrim hsplit
  · obtain rfl := Except.ok.inj (hentry.symm.trans hentry')
    obtain rfl := Except.ok.inj ((arguments_nil quotesFirst).symm.trans hvalues)
    rw [bind_nil hsignature hkind] at h
    cases h
  · rw [arguments_unclosed (fun hmem => hquote (hbefore hmem)) fun hmem => hcomma (hbefore hmem)]
      at hvalues
    cases hvalues

end Call

end InfinityScript
