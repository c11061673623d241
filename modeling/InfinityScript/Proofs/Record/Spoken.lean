import InfinityScript.Proofs.Record.Width
import InfinityScript.Proofs.Script.CallText
import InfinityScript.Proofs.Script.DecodedLines

/-!
# Expressions as arguments

The expression of an object record has neither a comment in it nor blanks around it, as
long as the name and the area of the record have none (`Object.statement_express`). Where
the code that the record was read from comes of an argument of a statement, they have none,
and the expression can stand in its place (`Object.Gives.spoken_express`).
-/

namespace InfinityScript

namespace Text

/-- Text that can be put behind any other without making a comment or ending in blanks. -/
def Attaches (text : Text) : Prop :=
  ∀ before, statement before = before → statement (before ++ text) = before ++ text

theorem attaches_nil : Attaches [] := fun before h => by rwa [List.append_nil]

theorem Attaches.append (ha : Attaches a) (hb : Attaches b) : Attaches (a ++ b) := by
  intro before hbefore
  rw [← List.append_assoc]
  exact hb _ (ha before hbefore)

theorem attaches_cons (hvisible : isBlank c = false) (hslash : c ≠ '/')
    (htext : statement text = text) : Attaches (c :: text) := by
  intro before hbefore
  obtain ⟨hcomment, htrim⟩ := beforeComment_trim_eq_self htext
  have hleft := trimLeft_eq_self (isBlank_head_of_trim_eq_self htrim)
  rw [trim, hleft] at htrim
  rw [statement_append_cons hbefore hvisible hslash hcomment, htrim]

theorem Attaches.statement (h : Attaches text) : Text.statement text = text := h [] rfl

theorem attaches_enclosed (hopening : isBlank opening = false) (hslash : opening ≠ '/')
    (hclosing : isBlank closing = false)
    (hcomment : beforeComment (inside ++ [closing]) = inside ++ [closing]) :
    Attaches (opening :: (inside ++ [closing])) := by
  intro before hbefore
  have hvisible : EndsVisibly (inside ++ [closing]) := ⟨closing, by simp, hclosing⟩
  rw [statement_append_cons hbefore hopening hslash hcomment, trimRight_eq_self hvisible]

theorem attaches_replicate (count : Nat) : Attaches (List.replicate count ')') := by
  induction count with
  | zero => exact attaches_nil
  | succ count ih => exact (attaches_cons (by decide) (by decide) rfl : Attaches [')']).append ih

theorem IsNumeral.statement (h : IsNumeral text) : Text.statement text = text := by
  have hcomment : ¬ (['/', '/'] <:+: text) := fun hslashes =>
    h.slash_notMem (hslashes.subset (by simp))
  rw [Text.statement, beforeComment_eq_self_of_not_infix hcomment]
  exact trim_eq_self (fun c hc => h.isBlank_eq_false (List.mem_of_mem_head? hc))
    fun c hc => h.isBlank_eq_false (List.mem_of_mem_getLast? hc)

end Text

open Text

theorem Enclosed.attaches (h : Enclosed opening closing text) (hopening : isBlank opening = false)
    (hslash : opening ≠ '/') (hclosing : isBlank closing = false)
    (hcomment : beforeComment text = text) : Attaches text := by
  obtain ⟨inside, rfl, -⟩ := h
  rw [beforeComment_cons hslash] at hcomment
  exact attaches_enclosed hopening hslash hclosing (List.cons.inj hcomment).2

theorem Call.isCut_eq_false (hbracket : value.head? ≠ some '[') (hquote : value.head? ≠ some '"')
    (delimiter : Delimiter) : isCut delimiter value = false := by
  cases delimiter with
  | quote => simp [isCut, Delimiter.opening, hquote]
  | bracket => simp [isCut, Delimiter.opening, hbracket]

theorem Call.spoken_ofInt (n : Int) : Spoken (ofInt n) := by
  have hnumeral := isNumeral_ofInt n
  obtain ⟨hcomment, htrim⟩ := beforeComment_trim_eq_self hnumeral.statement
  have hcut := isCut_eq_false
    (fun hhead => hnumeral.notMem (c := '[') (by decide +kernel) (by decide) (List.mem_of_head? hhead))
    (fun hhead => hnumeral.notMem (c := '"') (by decide +kernel) (by decide) (List.mem_of_head? hhead))
  exact ⟨⟨hnumeral.ne_nil, htrim, hnumeral.notMem (by decide +kernel) (by decide), hcut⟩, hcomment,
    newline_notMem_ofInt n⟩

theorem Call.spoken_anyone : Spoken anyone :=
  ⟨⟨by decide, by decide, by decide, fun delimiter => by cases delimiter <;> rfl⟩, by decide, by decide⟩

namespace Object

variable {symbols : Symbols} {profile : Profile}

theorem statement_identifier (hread : symbols.IsRead) (table : Text) (number : Int) :
    ∀ name ∈ (identifier symbols table number).value, statement name = name := by
  unfold identifier identifierM
  split
  · simp
  · split
    · next entry hentry =>
      have hname := hread.made_statement.hasId ⟨number, .inl hentry⟩
      simpa using hname.2
    · simpa using (isNumeral_ofInt number).statement

theorem statement_chain {names : List Text} (hnames : ∀ name ∈ names, statement name = name)
    (hfirst : statement first = first) :
    statement (names.flatMap (· ++ ['(']) ++ first) = names.flatMap (· ++ ['(']) ++ first := by
  induction names with
  | nil => exact hfirst
  | cons name names ih =>
    obtain ⟨hname, hnames⟩ := List.forall_mem_cons.mp hnames
    have hrest := attaches_cons (c := '(') (by decide) (by decide) (ih hnames)
    simpa using hrest name hname

theorem attaches_vectorText? {identifiers : List (Option Text)}
    (h : ∀ identifier ∈ identifiers, ∀ name ∈ identifier, statement name = name) :
    ∀ vector ∈ vectorText? identifiers, Attaches vector ∧ vector ≠ [] := by
  unfold vectorText?
  dsimp only
  split
  · simp
  · have hjoin : beforeComment (Text.join "." ((identifiers.reverse.dropWhile
        Option.isNone).reverse.map fun name => name.getD "0")) = Text.join "."
          ((identifiers.reverse.dropWhile Option.isNone).reverse.map fun name => name.getD "0") := by
      refine beforeComment_join (by decide : '.' ≠ '/') fun piece hpiece => ?_
      obtain ⟨identifier, hmem, rfl⟩ := List.mem_map.mp hpiece
      have hidentifier : identifier ∈ identifiers := by
        simpa using (List.dropWhile_suffix _).subset (List.mem_reverse.mp hmem)
      cases identifier with
      | none => rfl
      | some name => exact (beforeComment_trim_eq_self (h _ hidentifier name rfl)).1
    rintro vector ⟨⟩
    refine ⟨?_, by simp⟩
    exact attaches_enclosed (by decide) (by decide) (by decide)
      (beforeComment_append hjoin (by decide) [])

theorem statement_compose {qualifiers identifiers : List (Option Text)} {area : Option Text}
    (hqualifiers : ∀ qualifier ∈ qualifiers, ∀ name ∈ qualifier, statement name = name)
    (hidentifiers : ∀ identifier ∈ identifiers, ∀ name ∈ identifier, statement name = name)
    (harea : ∀ text ∈ area, Attaches text) (hname : Attaches name) (hne : name ≠ []) :
    statement (compose qualifiers identifiers area name) =
        compose qualifiers identifiers area name ∧
      compose qualifiers identifiers area name ≠ [] := by
  have hopening : Attaches ("(" : Text) := attaches_cons (by decide) (by decide) rfl
  have hchain : statement (((qualifiers.drop 1).reverse.filterMap id).flatMap (· ++ ['(']) ++
      (qualifiers.head?.join).getD []) = ((qualifiers.drop 1).reverse.filterMap id).flatMap
        (· ++ ['(']) ++ (qualifiers.head?.join).getD [] := by
    refine statement_chain (fun name hmem => ?_) ?_
    · obtain ⟨qualifier, hmem, hqualifier⟩ := List.mem_filterMap.mp hmem
      exact hqualifiers qualifier (List.mem_of_mem_drop (List.mem_reverse.mp hmem)) name hqualifier
    · cases qualifiers with
      | nil => rfl
      | cons qualifier qualifiers =>
        cases qualifier with
        | none => rfl
        | some name => exact hqualifiers _ (by simp) name rfl
  have harea' : Attaches (area.getD []) := by
    cases area with
    | none => exact attaches_nil
    | some text => exact harea text rfl
  have hvector := attaches_vectorText? hidentifiers
  unfold compose
  dsimp only
  generalize (qualifiers.drop 1).reverse.filterMap id = outer at hchain ⊢
  generalize outer.flatMap (· ++ ['(']) ++ (qualifiers.head?.join).getD [] = chain at hchain ⊢
  have hclosing := fun extra => attaches_replicate (outer.length + extra)
  have hcore : statement (if chain = [] then anyone else chain) =
      (if chain = [] then anyone else chain) ∧ (if chain = [] then anyone else chain) ≠ [] := by
    by_cases hnil : chain = []
    · rw [if_pos hnil]
      decide
    · rw [if_neg hnil]
      exact ⟨hchain, hnil⟩
  split
  · split
    · exact ⟨(hname.append (hclosing 0)).statement, by simp [hne]⟩
    · rw [List.append_assoc, List.append_assoc]
      exact ⟨hopening.append (hname.append (hclosing 1)) _ hchain, by simp⟩
  · split
    · rw [List.append_assoc]
      refine ⟨harea'.append (hclosing 0) _ hcore.1, fun hnil => hcore.2 ?_⟩
      exact (List.append_eq_nil_iff.mp hnil).1
    · next vector hsome =>
      obtain ⟨hvector, hne⟩ := hvector vector hsome
      split
      · rw [List.append_assoc]
        exact ⟨(hvector.append (harea'.append (hclosing 0))).statement, by simp [hne]⟩
      · rw [List.append_assoc, List.append_assoc, List.append_assoc]
        exact ⟨hopening.append (hvector.append (harea'.append (hclosing 1))) _ hchain, by simp⟩

/-- The expression of a record says nothing but itself, if the texts of the record do. -/
theorem statement_express (hread : symbols.IsRead) (profile : Profile) {record : ObjectRecord}
    (hname : Attaches record.name) (hne : record.name ≠ [])
    (harea : ∀ area ∈ record.area, Attaches area) :
    statement (express symbols profile record).value = (express symbols profile record).value ∧
      (express symbols profile record).value ≠ [] := by
  rw [value_express]
  refine statement_compose ?_ ?_ (fun area h => harea area (Option.mem_filter_iff.mp h).1) hname hne
  · intro qualifier hmem name hname
    obtain ⟨number, -, rfl⟩ := List.mem_map.mp hmem
    exact statement_identifier hread _ number name hname
  · intro identifier hmem name hname
    obtain ⟨⟨table, number⟩, -, rfl⟩ := List.mem_map.mp hmem
    exact statement_identifier hread table number name hname

/-- What comes of an argument without comments and line feeds is expressed without them. -/
theorem Gives.spoken_express {fields : ObjectFields} (h : Gives profile core again text fields)
    (hread : symbols.IsRead) (hcomment : beforeComment core = core) (hnewline : '\n' ∉ core)
    (hcomma : ',' ∉ (express symbols profile fields.record).value)
    (hwhole : ∀ delimiter, Call.isCut delimiter (express symbols profile fields.record).value = false) :
    Call.Spoken (express symbols profile fields.record).value := by
  have hslashes : ¬ (['/', '/'] <:+: core) := hcomment ▸ not_infix_beforeComment core
  have hname : beforeComment fields.name = fields.name ∧ '\n' ∉ fields.name := by
    rcases h.name.2 with hname | hname
    · rw [hname]
      decide
    · rw [hname]
      exact ⟨hcomment, hnewline⟩
  have harea : ∀ area ∈ fields.area, beforeComment area = area ∧ '\n' ∉ area := by
    intro area hmem
    rcases (h.area area hmem).2 with rfl | hwithin
    · decide
    · exact ⟨Text.beforeComment_eq_self_of_not_infix fun hmem => hslashes (hmem.trans hwithin),
        fun hmem => hnewline (hwithin.subset hmem)⟩
  have hne : fields.name ≠ [] := by
    obtain ⟨inside, hname, -⟩ := h.name.1
    simp [hname]
  have hattaches : ∀ area ∈ fields.record.area, Attaches area := fun area hmem =>
    (h.area area hmem).1.attaches (by decide) (by decide) (by decide) (harea area hmem).1
  obtain ⟨hstatement, hfound⟩ := statement_express hread profile
    (h.name.1.attaches (by decide) (by decide) (by decide) hname.1) hne hattaches
  have hone : fields.record.OneLine := ⟨hname.2, fun area hmem => (harea area hmem).2⟩
  obtain ⟨hspoken, htrim⟩ := beforeComment_trim_eq_self hstatement
  refine ⟨⟨hfound, htrim, hcomma, hwhole⟩, hspoken, over_ne_newline.mp ?_⟩
  exact over_express hasPlain_ne_newline hread.made.over.name profile hone.over.name hone.over.area

end Object

end InfinityScript
