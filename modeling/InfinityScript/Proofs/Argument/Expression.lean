import Mathlib.Data.List.Forall2
import InfinityScript.Proofs.Record.Notes
import InfinityScript.Proofs.Argument.Object
import InfinityScript.Proofs.Symbol.Lookup

/-!
# Object expressions that are read

What the encoder makes of the parts of an object expression: of names around a core
(`Object.qualify_nest`), of the components of a vector (`Object.Fields.add_vector`) and
of an area (`Object.Fields.add_area`), and of each kind of core.
-/

namespace InfinityScript.Object

variable {symbols : Symbols} {profile : Profile}

-- --------------------
-- Symbols
-- --------------------

def marks : Text := "()[].\""

structure IsSymbol (symbols : Symbols) (table : Text) (n : Int) (name : Text) : Prop where
  word : IsWord n
  found : ∃ entry, symbols.byName? table name = some entry ∧ toSigned32 entry.id = n
  nonempty : name ≠ []
  trimmed : Text.trim name = name
  plain : ∀ mark ∈ marks, mark ∉ name

theorem exists_isSymbol
    (htable : ∀ table, symbols.table? listed = some table → table.Nameable marks)
    (hn : IsWord n) (h : (symbols.byId? listed n).isSome) :
    ∃ entry, symbols.byId? listed n = some entry ∧ IsSymbol symbols listed n entry.name := by
  obtain ⟨entry, hentry⟩ := Option.isSome_iff_exists.mp h
  obtain ⟨table, hfound, hid⟩ := Option.bind_eq_some_iff.mp hentry
  obtain ⟨hnameable, found, hlookup, hsigned⟩ := (htable table hfound).exists_lookup? hn hid
  refine ⟨entry, hentry, hn, ⟨found, ?_, hsigned⟩, hnameable.nonempty, hnameable.trimmed,
    hnameable.marks⟩
  rw [Symbols.byName?, hfound]
  exact hlookup

theorem byName?_numeral
    (htable : ∀ table, symbols.table? listed = some table → table.Nameable marks)
    (hread : Text.readSigned? text = some n) : symbols.byName? listed text = none := by
  rw [Symbols.byName?, Option.bind_eq_none_iff]
  exact fun table hfound => (htable table hfound).lookup?_numeral hread

-- --------------------
-- Chains of qualifiers
-- --------------------

def nest : List Text → Text → Text
  | [], core => core
  | name :: names, core => name ++ '(' :: (nest names core ++ [')'])

theorem getLast?_nest (name : Text) (names : List Text) (core : Text) :
    (nest (name :: names) core).getLast? = some ')' := by
  rw [nest, ← List.cons_append, ← List.append_assoc, List.getLast?_concat]

theorem nest_eq (names : List Text) (core : Text) :
    names.flatMap (· ++ ['(']) ++ core ++ List.replicate names.length ')' = nest names core := by
  induction names with
  | nil => simp [nest]
  | cons name names ih =>
    rw [nest, ← ih, List.length_cons, List.replicate_succ']
    simp

section

variable {core : Text} {names : List Text} {numbers : List Int}

theorem isWord_of_symbols (h : List.Forall₂ (IsSymbol symbols "OBJECT.IDS") numbers names) :
    ∀ n ∈ numbers, IsWord n := by
  induction h with
  | nil => simp
  | cons hname hrest ih => exact List.forall_mem_cons.mpr ⟨hname.word, ih⟩

theorem nonempty_of_symbols (h : List.Forall₂ (IsSymbol symbols "OBJECT.IDS") numbers names) :
    ∀ name ∈ names, name ≠ [] := by
  induction h with
  | nil => simp
  | cons hname hrest ih => exact List.forall_mem_cons.mpr ⟨hname.nonempty, ih⟩

theorem trim_nest (hcore : Text.trim core = core)
    (hnames : List.Forall₂ (IsSymbol symbols "OBJECT.IDS") numbers names) :
    Text.trim (nest names core) = nest names core := by
  cases hnames with
  | nil => exact hcore
  | @cons n name numbers names hname hrest =>
    refine Text.trim_eq_self (fun c hc => ?_) (fun c hc => ?_)
    · obtain ⟨d, rest, hd⟩ := List.exists_cons_of_ne_nil hname.nonempty
      refine Text.isBlank_head_of_trim_eq_self hname.trimmed c ?_
      simpa [nest, hd] using hc
    · rw [getLast?_nest] at hc
      obtain rfl := Option.some.inj hc
      rfl

/-- The names around a core are found one after the other, outermost first. -/
theorem peel_nest (hcore : Text.trim core = core) (hopen : '(' ∉ core)
    (hnames : List.Forall₂ (IsSymbol symbols "OBJECT.IDS") numbers names)
    (hroom : names.length ≤ room) :
    ∃ ids, peel symbols room (nest names core) = .ok (ids, core) ∧ ids.map toSigned32 = numbers := by
  induction hnames generalizing room with
  | nil =>
    refine ⟨[], ?_, rfl⟩
    unfold peel
    rw [nest, Text.cut?_eq_none hopen]
  | @cons n name numbers names hname hrest ih =>
    obtain ⟨entry, hentry, hid⟩ := hname.found
    obtain ⟨room, rfl⟩ : ∃ smaller, room = smaller + 1 := ⟨room - 1, by simp at hroom; omega⟩
    obtain ⟨ids, hpeel, hids⟩ := ih (Nat.le_of_succ_le_succ hroom)
    refine ⟨entry.id :: ids, ?_, by simp [hid, hids]⟩
    have hcut := Text.cut?_append (hname.plain '(' (by decide)) (nest names core ++ [')'])
    unfold peel
    rw [getLast?_nest]
    simp only [nest, hcut, hname.trimmed, hentry, List.dropLast_concat, trim_nest hcore hrest, hpeel]
    rfl

theorem qualify_nest (hcore : Text.trim core = core) (hne : core ≠ []) (hopen : '(' ∉ core)
    (hnames : List.Forall₂ (IsSymbol symbols "OBJECT.IDS") numbers names)
    (hroom : names.length ≤ 5) :
    ∃ ids, qualify symbols (nest names core) = .ok (ids, core) ∧ ids.map toSigned32 = numbers := by
  obtain ⟨ids, hpeel, hids⟩ := peel_nest hcore hopen hnames hroom
  refine ⟨ids, ?_, hids⟩
  unfold qualify
  split
  · next hquote =>
    -- Only a name that stands alone begins with a quote.
    cases hnames with
    | nil =>
      obtain rfl : ids = [] := List.map_eq_nil_iff.mp hids
      rfl
    | cons hname hrest =>
      obtain ⟨d, rest, rfl⟩ := List.exists_cons_of_ne_nil hname.nonempty
      obtain rfl : d = '"' := by simpa [nest] using hquote
      exact absurd List.mem_cons_self (hname.plain '"' (by decide))
  · rw [hpeel]
    simp [Bind.bind, Except.bind, pure, Except.pure, hne]

end

-- --------------------
-- Vectors
-- --------------------

/-- Each number of a vector has the symbol of its table for its label, or is a zero that
has none. -/
inductive Labelled (symbols : Symbols) : List Text → List Int → List (Option Text) → Prop
  | nil : Labelled symbols [] [] []
  | zero (hzero : symbols.byName? table "0" = none) (hrest : Labelled symbols tables numbers labels) :
      Labelled symbols (table :: tables) (0 :: numbers) (none :: labels)
  | symbol (hne : n ≠ 0) (hname : IsSymbol symbols table n name)
      (hrest : Labelled symbols tables numbers labels) :
      Labelled symbols (table :: tables) (n :: numbers) (some name :: labels)

def component (label : Option Text) : Text := label.getD "0"

/-- The numbers of a vector are read off its components, also when zeros at its end are
left out. -/
theorem vectorNumbers_components {labels : List (Option Text)}
    (h : Labelled symbols tables numbers labels) (hlabels : labels = used ++ List.replicate m none) :
    vectorNumbers symbols tables (used.map component) = .ok (numbers, used.any Option.isSome) := by
  induction h generalizing used m with
  | nil =>
    obtain ⟨rfl, -⟩ := List.append_eq_nil_iff.mp hlabels.symm
    rfl
  | @zero table tables numbers labels hzero hrest ih =>
    cases used with
    | nil =>
      cases m with
      | zero => cases hlabels
      | succ m =>
        have hnext := @ih [] m (List.cons.inj hlabels).2
        simp only [List.map_nil] at hnext ⊢
        rw [vectorNumbers, hnext]
        rfl
    | cons label used =>
      obtain ⟨rfl, hused⟩ := List.cons.inj hlabels
      have hnumber : Text.number "0" = .ok (some 0) := by decide
      rw [List.map_cons, vectorNumbers, component, Option.getD_none, hzero]
      simp only [hnumber, ih hused]
      rfl
  | @symbol n table name tables numbers labels hne hname hrest ih =>
    cases used with
    | nil =>
      cases m with
      | zero => cases hlabels
      | succ m => cases (List.cons.inj hlabels).1
    | cons label used =>
      obtain ⟨rfl, hused⟩ := List.cons.inj hlabels
      obtain ⟨entry, hentry, hid⟩ := hname.found
      rw [List.map_cons, vectorNumbers, component, Option.getD_some, hentry]
      simp only [hid, Text.writable_of_isWord hname.word, ih hused]
      rfl

theorem vectorNumbers_numerals {tables components : List Text}
    (hunnamed : ∀ table ∈ tables, ∀ text ∈ components, symbols.byName? table text = none)
    (hnumbers : ∀ text ∈ components, ∃ n, Text.number text = .ok (some n)) :
    ∃ numbers, vectorNumbers symbols tables components = .ok (numbers, false) := by
  induction tables generalizing components with
  | nil => exact ⟨[], rfl⟩
  | cons table tables ih =>
    cases components with
    | nil =>
      obtain ⟨numbers, hrest⟩ := @ih [] (by simp) (by simp)
      refine ⟨0 :: numbers, ?_⟩
      rw [vectorNumbers, hrest]
      rfl
    | cons text components =>
      obtain ⟨n, hn⟩ := hnumbers text (by simp)
      obtain ⟨numbers, hrest⟩ := @ih components
        (fun table htable text htext => hunnamed table (by simp [htable]) text (by simp [htext]))
        (fun text htext => hnumbers text (by simp [htext]))
      refine ⟨n :: numbers, ?_⟩
      rw [vectorNumbers, hunnamed table (by simp) text (by simp)]
      simp only [hn, hrest]
      rfl

theorem Labelled.component_plain (h : Labelled symbols tables numbers labels)
    (hlabel : label ∈ labels) :
    component label ≠ [] ∧ ∀ mark ∈ marks, mark ∉ component label := by
  induction h with
  | nil => cases hlabel
  | zero hzero hrest ih =>
    rcases List.mem_cons.mp hlabel with rfl | hlabel
    · decide
    · exact ih hlabel
  | symbol hne hname hrest ih =>
    rcases List.mem_cons.mp hlabel with rfl | hlabel
    · exact ⟨hname.nonempty, hname.plain⟩
    · exact ih hlabel

/-- The labels up to the last that is a symbol, and the zeros after it. -/
theorem exists_used (labels : List (Option Text)) :
    ∃ used m, labels = used ++ List.replicate m none ∧
      ((∀ label ∈ labels, label = none) ∧ vectorText? labels = none ∨
        used.any Option.isSome ∧
          vectorText? labels = some ("[" ++ Text.join "." (used.map component) ++ "]")) := by
  have hsplit : labels = (labels.reverse.dropWhile Option.isNone).reverse ++
      (labels.reverse.takeWhile Option.isNone).reverse := by
    rw [← List.reverse_append, List.takeWhile_append_dropWhile, List.reverse_reverse]
  have hzeros : (labels.reverse.takeWhile Option.isNone).reverse =
      List.replicate (labels.reverse.takeWhile Option.isNone).length none := by
    rw [List.eq_replicate_iff, List.length_reverse]
    refine ⟨rfl, fun label hlabel => ?_⟩
    simpa using List.all_eq_true.mp List.all_takeWhile label (List.mem_reverse.mp hlabel)
  refine ⟨_, _, hsplit.trans (by rw [← hzeros]), ?_⟩
  cases hused : labels.reverse.dropWhile Option.isNone with
  | nil =>
    refine .inl ⟨fun label hlabel => ?_, by simp [vectorText?, hused]⟩
    rw [hused, hzeros, List.reverse_nil, List.nil_append] at hsplit
    rw [hsplit] at hlabel
    exact List.eq_of_mem_replicate hlabel
  | cons last before =>
    have hlast := List.head?_dropWhile_not Option.isNone labels.reverse
    rw [hused] at hlast
    have hne : ¬ (last :: before).reverse.isEmpty := by simp
    refine .inr ⟨?_, by simp only [vectorText?, hused, if_neg hne]; rfl⟩
    rw [List.any_reverse, List.any_cons]
    cases last with
    | none => simp at hlast
    | some name => rfl

theorem vectorText?_none {labels : List (Option Text)} (h : ∀ label ∈ labels, label = none) :
    vectorText? labels = none := by
  obtain ⟨used, m, hlabels, hvector⟩ := exists_used labels
  rcases hvector with ⟨-, hvector⟩ | ⟨hsome, -⟩
  · exact hvector
  · obtain ⟨label, hlabel, hsome⟩ := List.any_eq_true.mp hsome
    rw [h label (by simp [hlabels, hlabel])] at hsome
    cases hsome

theorem bracketGroups_opened (hclosed : ']' ∉ group) (begun rest : Text) :
    bracketGroups (some begun) (group ++ ']' :: rest) =
      some (begun ++ group) :: bracketGroups none rest := by
  induction group generalizing begun with
  | nil => simp [bracketGroups]
  | cons c group ih =>
    obtain ⟨hc, hgroup⟩ := not_or.mp (List.mem_cons.not.mp hclosed)
    rw [List.cons_append, bracketGroups]
    simp only [Ne.symm hc, if_false, ih hgroup]
    simp

theorem bracketGroups_cons (hclosed : ']' ∉ group) (rest : Text) :
    bracketGroups none ("[" ++ group ++ "]" ++ rest) = some group :: bracketGroups none rest := by
  have hgroups := bracketGroups_opened hclosed [] rest
  simpa [bracketGroups] using hgroups

theorem components_join {pieces : List Text} (hne : pieces ≠ [])
    (h : ∀ piece ∈ pieces, piece ≠ [] ∧ '.' ∉ piece) :
    (Text.splitOn '.' (Text.join "." pieces)).filter (· ≠ []) = pieces := by
  have hsplit := Text.splitOn_join hne fun piece hpiece => (h piece hpiece).2
  rw [show ".".toList = ['.'] from rfl, hsplit, List.filter_eq_self]
  exact fun piece hpiece => by simpa using (h piece hpiece).1

theorem upper_ne_anyone (h : '.' ∈ group) : Text.upper group ≠ "ANYONE" := by
  intro heq
  have hmem := (Text.mem_upper_iff (by decide +kernel)).mpr h
  rw [heq] at hmem
  exact absurd hmem (by decide)

theorem Fields.add_vector (h : Labelled symbols profile.objectTables numbers labels)
    (hlabels : labels = used ++ List.replicate m none) (hnamed : used.any Option.isSome)
    (hanyone : ∀ name, labels.head? = some (some name) → Text.upper name ≠ "ANYONE")
    (fields : Fields) :
    fields.add symbols profile (some (Text.join "." (used.map component))) =
      .ok { fields with
        leading := fields.leading ++ profile.leadingText numbers
        trailing :=
          if profile.trailingWidth ≠ 0 then profile.trailingText numbers else fields.trailing } := by
  have hne : used.map component ≠ [] := by
    intro hnil
    rw [List.map_eq_nil_iff.mp hnil] at hnamed
    cases hnamed
  have hplain : ∀ piece ∈ used.map component, piece ≠ [] ∧ '.' ∉ piece := by
    intro piece hpiece
    obtain ⟨label, hlabel, rfl⟩ := List.mem_map.mp hpiece
    have hmem : label ∈ labels := hlabels ▸ List.mem_append_left _ hlabel
    obtain ⟨hnonempty, hmarks⟩ := h.component_plain hmem
    exact ⟨hnonempty, hmarks '.' (by decide)⟩
  have hgroup : Text.upper (Text.join "." (used.map component)) ≠ "ANYONE" := by
    cases used with
    | nil => cases hnamed
    | cons label used =>
      cases used with
      | nil =>
        cases label with
        | none => decide
        | some name => simpa [component] using hanyone name (by simp [hlabels])
      | cons second used =>
        refine upper_ne_anyone ?_
        simp [Text.join_cons_cons]
  unfold Fields.add
  simp only [Text.join_ne_nil hne (fun piece hpiece => (hplain piece hpiece).1), hgroup, or_self, if_false,
    components_join hne hplain, vectorNumbers_components h hlabels, hnamed]
  rfl

-- --------------------
-- Areas
-- --------------------

/-- One to four numbers that are not all those of no area. -/
structure IsCoordinate (components : List Text) : Prop where
  nonempty : components ≠ []
  four : components.length ≤ 4
  numbers : ∀ text ∈ components, Text.isNumber text
  told : ∃ text ∈ components, text ≠ "-1"

def coordinate (components : List Text) : Text := "[" ++ Text.join "." components ++ "]"

theorem IsCoordinate.char (h : IsCoordinate components) (hc : c ∈ Text.join "." components) :
    Text.isDecimalDigit c ∨ c = '+' ∨ c = '-' ∨ c = '.' := by
  rcases Text.mem_join hc with hdot | ⟨piece, hpiece, hc⟩
  · exact .inr (.inr (.inr (by simpa using hdot)))
  · obtain ⟨n, hn⟩ := Option.isSome_iff_exists.mp (h.numbers piece hpiece)
    rcases Text.mem_of_readSigned? hn c hc with hdigit | hplus | hminus
    · exact .inl hdigit
    · exact .inr (.inl hplus)
    · exact .inr (.inr (.inl hminus))

theorem IsCoordinate.notMem (h : IsCoordinate components)
    (hmark : ¬ (Text.isDecimalDigit c ∨ c = '+' ∨ c = '-' ∨ c = '.')) :
    c ∉ Text.join "." components := fun hc => hmark (h.char hc)

theorem IsCoordinate.parenthesis_notMem (h : IsCoordinate components) :
    '(' ∉ coordinate components := by
  simpa [coordinate] using h.notMem (c := '(') (by decide)

theorem IsCoordinate.pieces (h : IsCoordinate components) :
    ∀ piece ∈ components, piece ≠ [] ∧ '.' ∉ piece := by
  intro piece hpiece
  obtain ⟨n, hn⟩ := Option.isSome_iff_exists.mp (h.numbers piece hpiece)
  refine ⟨?_, fun hdot => absurd (Text.mem_of_readSigned? hn '.' hdot) (by decide)⟩
  rintro rfl
  cases hn

theorem IsCoordinate.upper_ne (h : IsCoordinate components) :
    Text.upper (Text.join "." components) ≠ "ANYONE" := by
  intro heq
  have hcaseless : ∀ c ∈ Text.join "." components, Text.isCaseless c := by
    intro c hc
    rcases h.char hc with hdigit | rfl | rfl | rfl
    · exact Text.isCaseless_of_isDecimalDigit hdigit
    · decide +kernel
    · decide +kernel
    · decide +kernel
  rw [Text.upper_of_isCaseless hcaseless] at heq
  exact h.notMem (c := 'A') (by decide) (by rw [heq]; decide)

/-- Numbers in brackets are an area where the profile has areas. -/
theorem Fields.add_area (hprofile : profile.hasObjectArea)
    (htables : ∀ listed ∈ profile.objectTables, ∀ table, symbols.table? listed = some table →
      table.Nameable marks)
    (h : IsCoordinate components) (hfew : ∀ text ∈ components, Text.FewDigits text) {fields : Fields}
    (hleading : fields.leading ≠ []) :
    fields.add symbols profile (some (Text.join "." components)) =
      .ok { fields with area := coordinate components } := by
  have hunnamed : ∀ table ∈ profile.objectTables, ∀ text ∈ components,
      symbols.byName? table text = none := by
    intro table htable text htext
    obtain ⟨n, hn⟩ := Option.isSome_iff_exists.mp (h.numbers text htext)
    exact byName?_numeral (htables table htable) hn
  have hnumbers : ∀ text ∈ components, ∃ n, Text.number text = .ok (some n) := by
    intro text htext
    obtain ⟨n, hn⟩ := Option.isSome_iff_exists.mp (h.numbers text htext)
    refine ⟨n, ?_⟩
    simp only [Text.number, hn, Text.checkDigits_eq_ok_iff.mpr (hfew text htext)]
    rfl
  obtain ⟨numbers, hvector⟩ := vectorNumbers_numerals hunnamed hnumbers
  have hne := Text.join_ne_nil h.nonempty (fun piece hpiece => (h.pieces piece hpiece).1) "."
  unfold Fields.add
  simp only [hne, h.upper_ne, or_self, if_false, components_join h.nonempty h.pieces, hvector]
  show (if _ then _ else _) = _
  rw [if_pos ⟨by simp, h.four, hprofile⟩]
  simp only [hleading, if_false]
  rfl

/-- What an expression shows of the area of a record, nothing where it has none. The
numbers of the area are few if they are `checked`. -/
inductive Shown (profile : Profile) (checked : Prop) : Text → Text → Prop
  | nothing : Shown profile checked [] noArea
  | area (hprofile : profile.hasObjectArea) (h : IsCoordinate components)
      (hfew : checked → ∀ text ∈ components, Text.FewDigits text) :
      Shown profile checked (coordinate components) (coordinate components)

theorem Shown.parenthesis_notMem (h : Shown profile checked shown field) : '(' ∉ shown := by
  cases h with
  | nothing => simp
  | area hprofile h hfew => exact h.parenthesis_notMem

theorem Shown.trim_append (h : Shown profile checked shown field) (hcore : Text.trim core = core)
    (hne : core ≠ []) : Text.trim (core ++ shown) = core ++ shown := by
  cases h with
  | nothing => rw [List.append_nil, hcore]
  | area hprofile h hfew =>
    obtain ⟨d, rest, rfl⟩ := List.exists_cons_of_ne_nil hne
    refine Text.trim_eq_self (fun c hc => ?_) (fun c hc => ?_)
    · exact Text.isBlank_head_of_trim_eq_self hcore c (by simpa using hc)
    · rw [coordinate, ← List.append_assoc] at hc
      obtain rfl := Option.some.inj (List.getLast?_concat.symm.trans hc)
      rfl

theorem trim_brackets (group : Text) : Text.trim ("[" ++ group ++ "]") = "[" ++ group ++ "]" := by
  refine Text.trim_eq_self (fun c hc => ?_) (fun c hc => ?_)
  · obtain rfl : '[' = c := by simpa using hc
    rfl
  · obtain rfl := Option.some.inj (List.getLast?_concat.symm.trans hc)
    rfl

-- --------------------
-- Cores
-- --------------------

theorem checkQualifiers_of_isWord (h : ∀ id ∈ ids, IsWord (toSigned32 id)) :
    checkQualifiers ids = .ok () := by
  induction ids with
  | nil => rfl
  | cons id ids ih =>
    have hrest := ih fun id hid => h id (by simp [hid])
    rw [checkQualifiers, List.forM_eq_forM] at hrest ⊢
    rw [List.forM_cons, hrest, Text.writable_of_isWord (h id (by simp))]
    rfl

theorem nameCode_quoted (hquoted : Quoted core) (hids : ∀ id ∈ ids, IsWord (toSigned32 id)) :
    nameCode profile ids core = .ok
      (profile.objectLayout profile.leadingZeros ids noArea core profile.trailingZeros) := by
  obtain ⟨body, rfl, -⟩ := hquoted
  have hclosed : ¬ (('"' :: (body ++ ['"'])).length = 1 ∨
      ('"' :: (body ++ ['"'])).getLast? ≠ some '"') := by
    rw [← List.cons_append, List.getLast?_concat]
    simp
  rw [nameCode, if_neg hclosed, checkQualifiers_of_isWord hids]
  rfl

theorem symbolCode_symbol (hname : IsSymbol symbols "OBJECT.IDS" n name)
    (hshown : Shown profile checked shown area) (hids : ∀ id ∈ ids, IsWord (toSigned32 id))
    (hcount : ids.length < 5) :
    ∃ id, toSigned32 id = n ∧ symbolCode symbols profile ids (name ++ shown) = .ok
      (profile.objectLayout profile.leadingZeros (ids ++ [id]) area emptyString
        profile.trailingZeros) := by
  obtain ⟨entry, hentry, hid⟩ := hname.found
  have hbracket : '[' ∉ name := hname.plain '[' (by decide)
  have hparts : symbolParts (name ++ shown) = (name, area) := by
    cases hshown with
    | nothing => rw [List.append_nil, symbolParts, Text.cut?_eq_none hbracket]
    | @area components hprofile h hfew =>
      have hcut := Text.cut?_append hbracket (Text.join "." components ++ [']'])
      have hlast : (name ++ '[' :: (Text.join "." components ++ [']'])).getLast? = some ']' := by
        rw [← List.cons_append, ← List.append_assoc, List.getLast?_concat]
      have hcoordinate : coordinate components = '[' :: (Text.join "." components ++ [']']) := rfl
      rw [hcoordinate, symbolParts, hcut]
      simp only [hlast, if_true, hname.trimmed]
  have hallowed : ¬ (¬ profile.hasObjectArea ∧ area ≠ noArea) := by
    cases hshown with
    | nothing => simp
    | area hprofile h hfew => simp [hprofile]
  have hall : ∀ id ∈ ids ++ [entry.id], IsWord (toSigned32 id) := by
    intro id hmem
    rcases List.mem_append.mp hmem with hmem | hmem
    · exact hids id hmem
    · rw [List.mem_singleton.mp hmem, hid]
      exact hname.word
  refine ⟨entry.id, hid, ?_⟩
  unfold symbolCode
  simp only [hparts, hname.nonempty, if_false, hentry, Option.isNone_some, Bool.false_eq_true,
    false_and, and_false, Nat.ne_of_lt hcount, Option.map_some, Option.getD_some,
    checkQualifiers_of_isWord hall, hallowed]
  rfl

theorem vectorCode_group (hzeros : profile.checkTrailing = .ok ())
    (htables : ∀ listed ∈ profile.objectTables, ∀ table, symbols.table? listed = some table →
      table.Nameable marks) (hclosed : ']' ∉ group) {fields : Fields}
    (hgroup : Fields.add symbols profile { trailing := profile.trailingZeros } (some group) =
      .ok fields) (hleading : fields.leading ≠ []) (harea : fields.area = noArea)
    (hchecked : checked) (hshown : Shown profile checked shown area)
    (hids : ∀ id ∈ ids, IsWord (toSigned32 id)) :
    vectorCode symbols profile ids ("[" ++ group ++ "]" ++ shown) = .ok
      (profile.objectLayout fields.leading ids area emptyString fields.trailing) := by
  have hfold : (bracketGroups none ("[" ++ group ++ "]" ++ shown)).foldlM (Fields.add symbols profile)
      { trailing := profile.trailingZeros } = .ok { fields with area } := by
    rw [bracketGroups_cons hclosed, List.foldlM_cons, hgroup]
    cases hshown with
    | nothing =>
      rw [← harea]
      rfl
    | @area components hprofile h hfew =>
      have hgroups := @bracketGroups_cons (Text.join "." components) (h.notMem (by decide)) []
      rw [List.append_nil] at hgroups
      have hadd := Fields.add_area hprofile htables h (hfew hchecked) hleading
      show (bracketGroups none (coordinate components)).foldlM (Fields.add symbols profile) fields = _
      rw [coordinate, hgroups, List.foldlM_cons, hadd]
      rfl
  rw [vectorCode, hzeros, hfold, checkQualifiers_of_isWord hids]
  rfl

end InfinityScript.Object
