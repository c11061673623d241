import InfinityScript.Proofs.Argument.Expression
import InfinityScript.Proofs.Encoding
import InfinityScript.Proofs.Record.Codec
import InfinityScript.Proofs.Script.Halts

/-!
# Objects read back

The expression of an object record is encoded as that record
(`Object.encode_express`): a chain of qualifiers around nothing, around a symbol, a
vector or a name, with or without an area.
-/

namespace InfinityScript.Object

variable {symbols : Symbols} {profile : Profile}

-- --------------------
-- Expressions
-- --------------------

section

variable {names outer : List Text} {first name : Text} {labels : List (Option Text)}

/-- How the qualifiers of a record are labelled: the used ones first. -/
def chainLabels (names : List Text) (k : Nat) : List (Option Text) :=
  names.map some ++ List.replicate k none

theorem head_chainLabels (names : List Text) (k : Nat) :
    ((chainLabels names k).head?.join).getD [] = names.head?.getD [] := by
  cases names with
  | nil => cases k <;> rfl
  | cons first outer => rfl

theorem outer_chainLabels (names : List Text) (k : Nat) :
    ((chainLabels names k).drop 1).reverse.filterMap id = names.tail.reverse := by
  cases names with
  | nil => simp [chainLabels]
  | cons first outer => simp [chainLabels]

theorem nest_chain (first : Text) (outer : List Text) (core : Text) :
    outer.reverse.flatMap (· ++ ['(']) ++ first ++ "(" ++ core ++
      List.replicate (outer.length + 1) ')' = nest (first :: outer).reverse core := by
  rw [← nest_eq]
  simp

theorem compose_name (hnames : ∀ name ∈ names, name ≠ []) (hname : name ≠ emptyString) (k : Nat)
    (labels : List (Option Text)) (area : Option Text) :
    compose (chainLabels names k) labels area name = nest names.reverse name := by
  simp only [compose, head_chainLabels, outer_chainLabels, hname, ne_eq, not_false_eq_true, if_true]
  cases names with
  | nil => simp [nest]
  | cons first outer =>
    rw [← nest_chain]
    simp [hnames first (by simp)]

theorem compose_vector (hnames : ∀ name ∈ names, name ≠ []) (hvector : vectorText? labels = some vector)
    (k : Nat) (area : Option Text) :
    compose (chainLabels names k) labels area emptyString =
      nest names.reverse (vector ++ area.getD []) := by
  simp only [compose, head_chainLabels, outer_chainLabels, ne_eq, not_true_eq_false, if_false, hvector]
  cases names with
  | nil => simp [nest]
  | cons first outer =>
    rw [← nest_chain]
    simp [hnames first (by simp)]

/-- When there is nothing else to say, the innermost qualifier is what the others stand
around. -/
theorem compose_symbol (hfirst : first ≠ []) (hvector : vectorText? labels = none) (k : Nat)
    (area : Option Text) :
    compose (chainLabels (first :: outer) k) labels area emptyString =
      nest outer.reverse (first ++ area.getD []) := by
  simp only [compose, head_chainLabels, outer_chainLabels, ne_eq, not_true_eq_false, if_false, hvector]
  rw [← nest_eq]
  simp [hfirst]

theorem compose_anyone (hvector : vectorText? labels = none) (k : Nat) (area : Option Text) :
    compose (chainLabels [] k) labels area emptyString = anyone ++ area.getD [] := by
  simp only [compose, head_chainLabels, outer_chainLabels, ne_eq, not_true_eq_false, if_false, hvector]
  simp

end

-- --------------------
-- Records
-- --------------------

/-- Symbols whose names can stand in the object expressions of a profile. -/
structure Nameable (symbols : Symbols) (profile : Profile) : Prop where
  qualifiers : ∀ table, symbols.table? "OBJECT.IDS" = some table → table.Nameable marks
  vector : ∀ listed ∈ profile.objectTables, ∀ table, symbols.table? listed = some table →
    table.Nameable marks
  /-- Only a zero at the front of a vector may be called anyone. -/
  anyone : ∀ listed ∈ profile.objectTables.head?, ∀ table, symbols.table? listed = some table →
    ∀ entry ∈ table.entries.toList, Text.upper entry.name = "ANYONE" → entry.id = 0

/-- An object whose expression says all that its record does. -/
structure Sayable (symbols : Symbols) (values : ObjectValues profile) : Prop where
  words : ∀ n ∈ values.vector ++ values.qualifiers, IsWord n
  chain : ∃ used k, values.qualifiers = used ++ List.replicate k 0 ∧ 0 ∉ used
  qualifiers : ∀ n ∈ values.qualifiers, n ≠ 0 → (symbols.byId? "OBJECT.IDS" n).isSome
  vector : ∀ pair ∈ profile.objectTables.zip values.vector, pair.2 ≠ 0 →
    (symbols.byId? pair.1 pair.2).isSome
  name : values.name ≠ emptyString → '(' ∉ values.name ∧ (∀ n ∈ values.vector, n = 0) ∧
    (profile.hasObjectArea → values.area = noArea)
  area : profile.hasObjectArea → values.area = noArea ∨
    ∃ components, IsCoordinate components ∧ values.area = coordinate components ∧
      -- The numbers of an area are read where it stands in or after a bracket group.
      ((∃ n ∈ values.vector, n ≠ 0) ∨ (∀ n ∈ values.qualifiers, n = 0) →
        ∀ text ∈ components, Text.FewDigits text)

theorem identifier_symbol (hn : n ≠ 0) (hentry : symbols.byId? listed n = some entry) :
    (identifier symbols listed n).value = some entry.name := by
  simp only [identifier, identifierM, hn, if_false, hentry, Noted.value_pure]

theorem exists_names (hsymbols : Nameable symbols profile) {used : List Int}
    (hwords : ∀ n ∈ used, IsWord n) (hne : 0 ∉ used)
    (hfound : ∀ n ∈ used, (symbols.byId? "OBJECT.IDS" n).isSome) :
    ∃ names, List.Forall₂ (IsSymbol symbols "OBJECT.IDS") used names ∧
      used.map (fun n => (identifier symbols "OBJECT.IDS" n).value) = names.map some := by
  induction used with
  | nil => exact ⟨[], .nil, rfl⟩
  | cons n used ih =>
    obtain ⟨names, hnames, hlabels⟩ := ih (fun m hm => hwords m (by simp [hm]))
      (fun hmem => hne (by simp [hmem])) (fun m hm => hfound m (by simp [hm]))
    obtain ⟨entry, hentry, hsymbol⟩ := exists_isSymbol hsymbols.qualifiers (hwords n (by simp))
      (hfound n (by simp))
    have hn : n ≠ 0 := fun hzero => hne (by simp [hzero])
    refine ⟨entry.name :: names, .cons hsymbol hnames, ?_⟩
    rw [List.map_cons, hlabels, identifier_symbol hn hentry, List.map_cons]

theorem labelled_identifiers {tables : List Text} {vector : List Int}
    (htables : ∀ listed ∈ tables, ∀ table, symbols.table? listed = some table → table.Nameable marks)
    (hwidth : vector.length = tables.length) (hwords : ∀ n ∈ vector, IsWord n)
    (hfound : ∀ pair ∈ tables.zip vector, pair.2 ≠ 0 → (symbols.byId? pair.1 pair.2).isSome) :
    Labelled symbols tables vector
      ((tables.zip vector).map fun pair => (identifier symbols pair.1 pair.2).value) := by
  induction tables generalizing vector with
  | nil =>
    obtain rfl : vector = [] := List.eq_nil_of_length_eq_zero hwidth
    exact .nil
  | cons table tables ih =>
    cases vector with
    | nil => cases hwidth
    | cons n vector =>
      have hrest := ih (fun listed hlisted => htables listed (by simp [hlisted]))
        (Nat.succ.inj hwidth) (fun m hm => hwords m (by simp [hm]))
        (fun pair hpair => hfound pair (by simp [hpair]))
      by_cases hn : n = 0
      · subst hn
        simp only [List.zip_cons_cons, List.map_cons, identifier, identifierM, if_true, Noted.value_pure]
        exact .zero (byName?_numeral (htables table (by simp)) (n := 0) (by decide)) hrest
      · obtain ⟨entry, hentry, hsymbol⟩ := exists_isSymbol (htables table (by simp))
          (hwords n (by simp)) (hfound (table, n) (by simp) hn)
        rw [List.zip_cons_cons, List.map_cons, identifier_symbol hn hentry]
        exact .symbol hn hsymbol hrest

/-- A vector does not begin with a symbol that stands for anyone. -/
theorem head_identifiers (hsymbols : Nameable symbols profile) {vector : List Int}
    (hwords : ∀ n ∈ vector, IsWord n)
    (hfound : ∀ pair ∈ profile.objectTables.zip vector, pair.2 ≠ 0 →
      (symbols.byId? pair.1 pair.2).isSome) :
    ∀ name, ((profile.objectTables.zip vector).map fun pair =>
        (identifier symbols pair.1 pair.2).value).head? = some (some name) →
      Text.upper name ≠ "ANYONE" := by
  intro name hhead hanyone
  obtain ⟨⟨listed, n⟩, hpair, hname⟩ := Option.map_eq_some_iff.mp ((List.head?_map ..).symm.trans hhead)
  have hmem := List.mem_of_mem_head? hpair
  have hn : n ≠ 0 := by
    rintro rfl
    simp [identifier, identifierM] at hname
  have hword := hwords n (List.of_mem_zip hmem).2
  obtain ⟨entry, hentry⟩ := Option.isSome_iff_exists.mp (hfound (listed, n) hmem hn)
  obtain rfl := Option.some.inj ((identifier_symbol hn hentry).symm.trans hname)
  obtain ⟨table, htable, hid⟩ := Option.bind_eq_some_iff.mp hentry
  have hlisted : listed ∈ profile.objectTables.head? := by
    cases htables : profile.objectTables with
    | nil => simp [htables] at hpair
    | cons first tables =>
      cases vector with
      | nil => simp [htables] at hpair
      | cons m vector =>
        rw [htables, List.zip_cons_cons, List.head?_cons] at hpair
        obtain ⟨rfl, -⟩ := Prod.mk.inj (Option.some.inj hpair)
        rfl
  obtain ⟨hentries, heq⟩ := (hsymbols.vector listed (List.of_mem_zip hmem).1 table htable).made.of_get?_id hid
  have hzero := hsymbols.anyone listed hlisted table htable entry hentries hanyone
  unfold IsWord at hword
  omega

theorem Labelled.eq_zero (h : Labelled symbols tables numbers labels)
    (hnone : ∀ label ∈ labels, label = none) : ∀ n ∈ numbers, n = 0 := by
  induction h with
  | nil => simp
  | zero hzero hrest ih =>
    intro n hn
    rcases List.mem_cons.mp hn with rfl | hn
    · rfl
    · exact ih (fun label hlabel => hnone label (by simp [hlabel])) n hn
  | symbol hne hname hrest ih => cases hnone _ List.mem_cons_self

theorem Labelled.exists_ne_zero (h : Labelled symbols tables numbers labels)
    (hsome : labels.any Option.isSome) : ∃ n ∈ numbers, n ≠ 0 := by
  induction h with
  | nil => cases hsome
  | zero hzero hrest ih =>
    obtain ⟨n, hn, hne⟩ := ih (by simpa using hsome)
    exact ⟨n, by simp [hn], hne⟩
  | symbol hne hname hrest ih => exact ⟨_, List.mem_cons_self, hne⟩

theorem leadingText_zeros (hprofile : profile.Regular) {vector : List Int}
    (hwidth : vector.length = profile.vectorWidth) (hzero : ∀ n ∈ vector, n = 0) :
    profile.leadingText vector = profile.leadingZeros ∧
      (profile.trailingWidth ≠ 0 → profile.trailingText vector = profile.trailingZeros) := by
  obtain ⟨before, after, hvector, hbefore, hafter, hleading, htrailing⟩ :=
    hprofile.exists_windows hwidth
  have hpos := hprofile.leading
  have hzeros : ∀ numbers : List Int, numbers ⊆ vector → numbers ≠ [] →
      Text.join " " (numbers.map Text.ofInt) ++ " " =
        (List.replicate numbers.length ("0 " : Text)).flatten := by
    intro numbers hsubset hne
    have hreplicate : numbers = List.replicate numbers.length 0 :=
      List.eq_replicate_iff.mpr ⟨rfl, fun n hn => hzero n (hsubset hn)⟩
    rw [join_ofInt hne, hreplicate, numbersText, List.flatMap_replicate, List.length_replicate]
    rfl
  constructor
  · rw [Profile.leadingText, hbefore, hzeros before (by simp [hvector])
      (List.ne_nil_of_length_pos (by omega)), Profile.leadingZeros]
    congr 2
    omega
  · intro hne
    rw [Profile.trailingText, hafter, List.cons_append, hzeros after (by simp [hvector])
      (List.ne_nil_of_length_pos (by omega)), Profile.trailingZeros, if_pos (hprofile.trailing hne)]
    congr 3
    omega

theorem text_eq_objectLayout {values : ObjectValues profile} {ids : List Int}
    (hqualifiers : values.qualifiers = (ids.map toSigned32).reverse ++ List.replicate k 0)
    (hleading : profile.leadingText values.vector = leading)
    (harea : profile.hasObjectArea → values.area = area)
    (htrailing : profile.trailingWidth ≠ 0 → profile.trailingText values.vector = trailing) :
    values.text = profile.objectLayout leading ids area values.name trailing := by
  have hfive := values.five
  have hids : values.qualifiers =
      (ids.reverse ++ List.replicate (5 - ids.length) 0).map toSigned32 := by
    rw [hqualifiers] at hfive ⊢
    simp only [List.length_append, List.length_reverse, List.length_map, List.length_replicate] at hfive
    rw [List.map_append, List.map_reverse, List.map_replicate, show toSigned32 0 = 0 from rfl,
      show 5 - ids.length = k by omega]
  have htail : profile.objectTail values.area values.name (profile.trailingText values.vector) =
      profile.objectTail area values.name trailing := by
    unfold Profile.objectTail
    split
    · rfl
    · next hprofile =>
      rw [harea (by simpa using hprofile)]
      split
      · next hne => rw [htrailing hne]
      · rfl
  rw [values.text_eq_objectLayout hids, Profile.objectLayout, hleading, htail]
  rfl

theorem area?_coordinate (h : IsCoordinate components) {record : ObjectRecord}
    (hrecord : record.area = some (coordinate components)) :
    area? record = some (coordinate components) := by
  have hinner : Text.inner (coordinate components) = Text.join "." components := by
    simp [Text.inner, coordinate]
  have hsplit := Text.splitOn_join h.nonempty fun piece hpiece => (h.pieces piece hpiece).2
  rw [area?, hrecord, Option.filter_some, if_pos]
  obtain ⟨text, htext, htold⟩ := h.told
  rw [hinner, show ".".toList = ['.'] from rfl, hsplit, List.any_eq_true]
  exact ⟨text, htext, by simpa using ⟨(h.pieces text htext).1, htold⟩⟩

theorem exists_shown {values : ObjectValues profile} (hvalues : Sayable symbols values)
    (hrecord : values.ReadAs record) :
    ∃ area, (profile.hasObjectArea → values.area = area) ∧
      Shown profile ((∃ n ∈ values.vector, n ≠ 0) ∨ ∀ n ∈ values.qualifiers, n = 0)
        ((area? record).getD []) area := by
  have harea := hrecord.area
  by_cases hprofile : profile.hasObjectArea
  · rw [if_pos hprofile] at harea
    rcases hvalues.area hprofile with hnone | ⟨components, hcoordinate, htext, hfew⟩
    · have hhidden : area? record = none := by
        rw [area?, harea, hnone]
        decide
      exact ⟨noArea, fun _ => hnone, by simpa [hhidden] using Shown.nothing⟩
    · rw [htext] at harea
      refine ⟨_, fun _ => htext, ?_⟩
      rw [area?_coordinate hcoordinate harea]
      exact .area hprofile hcoordinate hfew
  · rw [if_neg hprofile] at harea
    have hhidden : area? record = none := by simp [area?, harea]
    exact ⟨noArea, fun h => absurd h hprofile, by simpa [hhidden] using Shown.nothing⟩

theorem faultless_nameRemark? (symbols : Symbols) (definition value : Text) :
    Faultless (nameRemark? symbols definition value).toList := by
  intro fault hmem
  unfold nameRemark? at hmem
  split at hmem
  · simp at hmem
  · dsimp only at hmem
    split at hmem <;> simp at hmem

theorem code_eq (hqualify : qualify symbols value = .ok (ids, core))
    (h : (core.head? = some '[' ∧ vectorCode symbols profile ids core = .ok text) ∨
      (core.head? = some '"' ∧ nameCode profile ids core = .ok text) ∨
      (core.head? ≠ some '[' ∧ core.head? ≠ some '"' ∧
        symbolCode symbols profile ids core = .ok text)) (definition : Text) :
    Encoding.Succeeds (encode symbols profile definition value) text := by
  rw [encode, Encoding.succeeds_ofPart]
  rcases h with ⟨hhead, hcode⟩ | ⟨hhead, hcode⟩ | ⟨hbracket, hquote, hcode⟩
  · refine ⟨pure text, ?_, rfl, by simp [Faultless]⟩
    simp only [code, hqualify, Refusal.ofFault, Except.mapError, Bind.bind, Except.bind, hhead, hcode]
    rfl
  · refine ⟨⟨text, (nameRemark? symbols definition core).toList⟩, ?_, rfl,
      faultless_nameRemark? symbols definition core⟩
    simp only [code, hqualify, Refusal.ofFault, Except.mapError, Bind.bind, Except.bind, hhead, hcode]
    rfl
  · refine ⟨pure text, ?_, rfl, by simp [Faultless]⟩
    simp only [code, hqualify, Refusal.ofFault, Except.mapError, Bind.bind, Except.bind, hcode]
    rfl

/-- Whatever ids the names around a core are found to have, they are those of the numbers,
so that the core decides on the record. -/
theorem succeeds_nest (hcore : Text.trim core = core) (hne : core ≠ []) (hopen : '(' ∉ core)
    (hnames : List.Forall₂ (IsSymbol symbols "OBJECT.IDS") numbers names) (hroom : names.length ≤ 5)
    (hcode : ∀ ids : List Int, ids.map toSigned32 = numbers → (∀ id ∈ ids, IsWord (toSigned32 id)) →
      (core.head? = some '[' ∧ vectorCode symbols profile ids core = .ok text) ∨
      (core.head? = some '"' ∧ nameCode profile ids core = .ok text) ∨
      (core.head? ≠ some '[' ∧ core.head? ≠ some '"' ∧
        symbolCode symbols profile ids core = .ok text)) (definition : Text) :
    Encoding.Succeeds (encode symbols profile definition (nest names core)) text := by
  obtain ⟨ids, hqualify, hids⟩ := qualify_nest hcore hne hopen hnames hroom
  refine code_eq hqualify (hcode ids hids fun id hid => ?_) definition
  exact isWord_of_symbols hnames _ (hids ▸ List.mem_map_of_mem hid)

section

variable {values : ObjectValues profile} {record : ObjectRecord} {names : List Text}
  {used : List Int}

theorem succeeds_name (hprofile : profile.Regular) (hopen : '(' ∉ values.name)
    (hnames : List.Forall₂ (IsSymbol symbols "OBJECT.IDS") used names)
    (hused : values.qualifiers = used ++ List.replicate k 0)
    (hzero : ∀ n ∈ values.vector, n = 0) (harea : profile.hasObjectArea → values.area = noArea)
    (definition : Text) :
    Encoding.Succeeds (encode symbols profile definition (nest names.reverse values.name))
      values.text := by
  obtain ⟨hleading, htrailing⟩ := leadingText_zeros hprofile values.width hzero
  obtain ⟨body, hbody, -⟩ := values.quoted
  have hhead : values.name.head? = some '"' := by simp [hbody]
  have hlast : values.name.getLast? = some '"' := by
    rw [hbody, ← List.cons_append, List.getLast?_concat]
  refine succeeds_nest (Text.trim_eq_self ?_ ?_) (by simp [hbody]) hopen
    (List.forall₂_reverse_iff.mpr hnames) ?_ (fun ids hids hwords => ?_) definition
  · simp [hhead]
    rfl
  · simp [hlast]
    rfl
  · have hfive := values.five
    rw [hused, List.length_append, hnames.length_eq] at hfive
    simp
    omega
  · refine .inr (.inl ⟨hhead, ?_⟩)
    rw [nameCode_quoted values.quoted hwords]
    rw [text_eq_objectLayout (by rw [hused, hids, List.reverse_reverse]) hleading harea htrailing]

theorem succeeds_group (hzeros : profile.checkTrailing = .ok ()) (hsymbols : Nameable symbols profile)
    (hnames : List.Forall₂ (IsSymbol symbols "OBJECT.IDS") used names)
    (hused : values.qualifiers = used ++ List.replicate k 0) (hname : values.name = emptyString)
    (hopen : '(' ∉ group) (hclosed : ']' ∉ group) {fields : Fields}
    (hgroup : Fields.add symbols profile { trailing := profile.trailingZeros } (some group) =
      .ok fields)
    (hleading : profile.leadingText values.vector = fields.leading)
    (harea : fields.area = noArea)
    (htrailing : profile.trailingWidth ≠ 0 → profile.trailingText values.vector = fields.trailing)
    (hchecked : checked) (hshown : Shown profile checked shown field)
    (hfield : profile.hasObjectArea → values.area = field) (definition : Text) :
    Encoding.Succeeds
      (encode symbols profile definition (nest names.reverse ("[" ++ group ++ "]" ++ shown)))
      values.text := by
  have hne : fields.leading ≠ [] := by
    rw [← hleading]
    simp [Profile.leadingText]
  refine succeeds_nest (hshown.trim_append (trim_brackets group) (by simp)) (by simp) ?_
    (List.forall₂_reverse_iff.mpr hnames) ?_ (fun ids hids hwords => .inl ⟨rfl, ?_⟩) definition
  · simpa [hopen] using hshown.parenthesis_notMem
  · have hfive := values.five
    rw [hused, List.length_append, hnames.length_eq] at hfive
    simp
    omega
  · rw [vectorCode_group hzeros hsymbols.vector hclosed hgroup hne harea hchecked hshown hwords,
      text_eq_objectLayout (by rw [hused, hids, List.reverse_reverse]) hleading hfield htrailing, hname]

theorem succeeds_anyone (hprofile : profile.Regular) (hzeros : profile.checkTrailing = .ok ())
    (hsymbols : Nameable symbols profile) (hqualifiers : values.qualifiers = List.replicate k 0)
    (hname : values.name = emptyString) (hzero : ∀ n ∈ values.vector, n = 0) (hchecked : checked)
    (hshown : Shown profile checked shown field)
    (hfield : profile.hasObjectArea → values.area = field) (definition : Text) :
    Encoding.Succeeds (encode symbols profile definition (anyone ++ shown)) values.text := by
  obtain ⟨hleading, htrailing⟩ := leadingText_zeros hprofile values.width hzero
  have hgroup : Fields.add symbols profile { trailing := profile.trailingZeros } (some "ANYONE") =
      .ok { leading := profile.leadingZeros, trailing := profile.trailingZeros } := by
    rw [Fields.add, if_pos (.inr (by decide))]
    rfl
  exact succeeds_group hzeros hsymbols .nil hqualifiers hname (by decide) (by decide) hgroup
    hleading rfl htrailing hchecked hshown hfield definition

theorem succeeds_vector (hzeros : profile.checkTrailing = .ok ())
    (hsymbols : Nameable symbols profile)
    (hnames : List.Forall₂ (IsSymbol symbols "OBJECT.IDS") used names)
    (hused : values.qualifiers = used ++ List.replicate k 0) (hname : values.name = emptyString)
    (hlabelled : Labelled symbols profile.objectTables values.vector labels)
    (hkept : labels = kept ++ List.replicate m none) (hsome : kept.any Option.isSome)
    (hanyone : ∀ name, labels.head? = some (some name) → Text.upper name ≠ "ANYONE")
    (hchecked : checked) (hshown : Shown profile checked shown field)
    (hfield : profile.hasObjectArea → values.area = field) (definition : Text) :
    Encoding.Succeeds (encode symbols profile definition
      (nest names.reverse ("[" ++ Text.join "." (kept.map component) ++ "]" ++ shown)))
      values.text := by
  have hgroup := Fields.add_vector hlabelled hkept hsome hanyone
    { trailing := profile.trailingZeros }
  have hplain : ∀ mark ∈ marks, mark ≠ '.' → mark ∉ Text.join "." (kept.map component) := by
    intro mark hmark hdot hmem
    rcases Text.mem_join hmem with hmem | ⟨piece, hpiece, hmem⟩
    · exact hdot (by simpa using hmem)
    · obtain ⟨label, hlabel, rfl⟩ := List.mem_map.mp hpiece
      exact (hlabelled.component_plain (by simp [hkept, hlabel])).2 mark hmark hmem
  refine succeeds_group hzeros hsymbols hnames hused hname (hplain '(' (by decide) (by decide))
    (hplain ']' (by decide) (by decide)) hgroup rfl rfl ?_ hchecked hshown hfield definition
  intro hne
  simp [hne]

theorem succeeds_symbol (hprofile : profile.Regular)
    (hfirst : IsSymbol symbols "OBJECT.IDS" n first)
    (hnames : List.Forall₂ (IsSymbol symbols "OBJECT.IDS") used names)
    (hused : values.qualifiers = n :: used ++ List.replicate k 0) (hname : values.name = emptyString)
    (hzero : ∀ n ∈ values.vector, n = 0) (hshown : Shown profile checked shown field)
    (hfield : profile.hasObjectArea → values.area = field) (definition : Text) :
    Encoding.Succeeds (encode symbols profile definition (nest names.reverse (first ++ shown)))
      values.text := by
  obtain ⟨hleading, htrailing⟩ := leadingText_zeros hprofile values.width hzero
  have hfive := values.five
  rw [hused, List.length_append, List.length_cons, hnames.length_eq] at hfive
  obtain ⟨d, rest, hd⟩ := List.exists_cons_of_ne_nil hfirst.nonempty
  have hhead : ∀ mark ∈ marks, (first ++ shown).head? ≠ some mark := by
    intro mark hmark heq
    obtain rfl : d = mark := by simpa [hd] using heq
    exact hfirst.plain d hmark (by simp [hd])
  refine succeeds_nest (hshown.trim_append hfirst.trimmed hfirst.nonempty) (by simp [hd]) ?_
    (List.forall₂_reverse_iff.mpr hnames) (by simp; omega) (fun ids hids hwords => ?_) definition
  · simpa [hfirst.plain '(' (by decide)] using hshown.parenthesis_notMem
  · have hcount : ids.length < 5 := by
      have hlength := congrArg List.length hids
      rw [List.length_map, List.length_reverse, hnames.length_eq] at hlength
      omega
    obtain ⟨id, hid, hcode⟩ := symbolCode_symbol hfirst hshown hwords hcount
    refine .inr (.inr ⟨hhead '[' (by decide), hhead '"' (by decide), ?_⟩)
    have hqualifiers : values.qualifiers =
        ((ids ++ [id]).map toSigned32).reverse ++ List.replicate k 0 := by
      rw [hused, List.map_append, hids]
      simp [hid]
    rw [hcode, text_eq_objectLayout hqualifiers hleading hfield htrailing, hname]

end

theorem express_anyone {record : ObjectRecord} (hvector : ∀ n ∈ record.vector profile, n = 0)
    (hqualifiers : ∀ n ∈ record.qualifiers profile, n = 0) (hname : record.name = emptyString)
    (symbols : Symbols) :
    (express symbols profile record).value = anyone ++ (area? record).getD [] := by
  have hzero : ∀ table, (identifier symbols table 0).value = none := fun _ => rfl
  have hlabels : ∀ label ∈ (profile.objectTables.zip (record.vector profile)).map fun pair =>
      (identifier symbols pair.1 pair.2).value, label = none := by
    intro label hlabel
    obtain ⟨pair, hpair, rfl⟩ := List.mem_map.mp hlabel
    rw [hvector pair.2 (List.of_mem_zip hpair).2, hzero]
  have hchain : (record.qualifiers profile).map
      (fun n => (identifier symbols "OBJECT.IDS" n).value) =
        chainLabels [] (record.qualifiers profile).length := by
    refine List.eq_replicate_iff.mpr ⟨List.length_map _, fun label hlabel => ?_⟩
    obtain ⟨n, hn, rfl⟩ := List.mem_map.mp hlabel
    rw [hqualifiers n hn, hzero]
  rw [value_express, hchain, hname]
  exact compose_anyone (vectorText?_none hlabels) _ _

theorem express_emptyFields (symbols : Symbols) (profile : Profile) :
    (express symbols profile profile.emptyFields.record).value = anyone := by
  have hwindow : ∀ first last, ∀ n ∈ window first last profile.emptyFields.record.numbers, n = 0 :=
    fun first last n hn => Profile.eq_zero_of_mem_emptyFields (window_subset first last _ hn)
  have harea : area? profile.emptyFields.record = none := by
    simp only [area?, Profile.emptyFields, ObjectFields.record]
    split
    · decide
    · rfl
  rw [express_anyone (fun n hn => ?_) (hwindow _ _) rfl, harea]
  · rfl
  · exact (List.mem_append.mp hn).elim (hwindow _ _ n) (hwindow _ _ n)

/-- The expression of a record is encoded as the code that the record was read from. -/
theorem succeeds_express (hprofile : profile.Regular) (hzeros : profile.checkTrailing = .ok ())
    (hsymbols : Nameable symbols profile) {values : ObjectValues profile}
    (hvalues : Sayable symbols values) (hrecord : values.ReadAs record) (definition : Text) :
    Encoding.Succeeds (encode symbols profile definition (express symbols profile record).value)
      values.text := by
  obtain ⟨used, k, hused, hne⟩ := hvalues.chain
  have hqualifiers : ∀ n ∈ used, n ∈ values.qualifiers := fun n hn => by simp [hused, hn]
  obtain ⟨names, hnames, hlabels⟩ := exists_names hsymbols
    (fun n hn => hvalues.words n (by simp [hqualifiers n hn])) hne
    fun n hn => hvalues.qualifiers n (hqualifiers n hn) fun hzero => hne (hzero ▸ hn)
  have hlabelled := labelled_identifiers hsymbols.vector values.width
    (fun n hn => hvalues.words n (by simp [hn])) hvalues.vector
  have hanyone := head_identifiers hsymbols (fun n hn => hvalues.words n (by simp [hn]))
    hvalues.vector
  obtain ⟨field, hfield, hshown⟩ := exists_shown hvalues hrecord
  have hvalue : (express symbols profile record).value =
      compose (chainLabels names k) ((profile.objectTables.zip values.vector).map fun pair =>
        (identifier symbols pair.1 pair.2).value) (area? record) values.name := by
    have hchain : values.qualifiers.map (fun n => (identifier symbols "OBJECT.IDS" n).value) =
        chainLabels names k := by
      rw [hused, List.map_append, hlabels, List.map_replicate]
      rfl
    rw [value_express, hrecord.vector, hrecord.qualifiers, hrecord.name, hchain]
  generalize ((profile.objectTables.zip values.vector).map fun pair =>
    (identifier symbols pair.1 pair.2).value) = labels at hlabelled hanyone hvalue
  rw [hvalue]
  by_cases hname : values.name = emptyString
  · rw [hname]
    obtain ⟨kept, m, hkept, hvector⟩ := exists_used labels
    rcases hvector with ⟨hnone, hvector⟩ | ⟨hsome, hvector⟩
    · have hzero := hlabelled.eq_zero hnone
      cases hnames with
      | nil =>
        have hblank : ∀ n ∈ values.qualifiers, n = 0 := fun n hn =>
          List.eq_of_mem_replicate (by simpa [hused] using hn)
        rw [compose_anyone hvector]
        exact succeeds_anyone hprofile hzeros hsymbols hused hname hzero (.inr hblank) hshown hfield
          definition
      | cons hfirst hrest =>
        rw [compose_symbol hfirst.nonempty hvector]
        exact succeeds_symbol hprofile hfirst hrest hused hname hzero hshown hfield definition
    · have hvaried := hlabelled.exists_ne_zero (by simp [hkept, hsome])
      rw [compose_vector (nonempty_of_symbols hnames) hvector]
      exact succeeds_vector hzeros hsymbols hnames hused hname hlabelled hkept hsome hanyone
        (.inl hvaried) hshown hfield definition
  · obtain ⟨hopen, hzero, harea⟩ := hvalues.name hname
    rw [compose_name (nonempty_of_symbols hnames) hname]
    exact succeeds_name hprofile hopen hnames hused hzero harea definition

/-- An object that is read from its code is expressed, and its expression encoded as that
code. -/
theorem encode_express (game : Game) (hsymbols : Nameable symbols (.ofGame game))
    {values : ObjectValues (.ofGame game)} (hvalues : Sayable symbols values)
    (definition rest : Text) :
    ∃ record left said, values.ReadAs record ∧
      (ObjectRecord.read (.ofGame game)).run (tokenize (values.text ++ '\n' :: rest)).tail =
        (.ok record, left) ∧
      Pass.Says (expressM symbols (.ofGame game) record) said ∧
      Encoding.Succeeds (encode symbols (.ofGame game) definition said.value) values.text := by
  have hprofile := Profile.regular_ofGame game
  obtain ⟨record, left, hrecord, -, hrun⟩ := Profile.run_object hprofile values rest
  exact ⟨record, left, _, hrecord, hrun, Pass.says_object _ _ _, succeeds_express hprofile
    (Profile.hasZeros_ofGame game).trailing hsymbols hvalues hrecord definition⟩

theorem encode_express_sample :
    let symbols : Symbols := .build [(Table.read "OBJECT" "1 Myself\n12 NearestEnemyOf").value,
      (Table.read "EA" "0 ANYONE\n0xFFFFFFFE ENEMY").value, (Table.read "ALIGN" "3 Lawful").value]
      [] [] [] none
    let profile : Profile := .ofGame .icewind
    ∃ values : ObjectValues profile,
      values.text = "OB\n-2 0 0 0 0 0 3 1 12 0 0 0 [7.-1] \"\"OB" ∧
      Nameable symbols profile ∧ Sayable symbols values ∧
      ∃ record left said, values.ReadAs record ∧
        (ObjectRecord.read profile).run (tokenize (values.text ++ "\n")).tail = (.ok record, left) ∧
        Pass.Says (expressM symbols profile record) said ∧
        Encoding.Succeeds (encode symbols profile "O:Object*" said.value) values.text := by
  intro symbols profile
  have htables : ∀ listed table, symbols.table? listed = some table → table.Nameable marks := by
    intro listed table hfound
    have hmem := Symbols.mem_of_table?_build hfound
    simp only [List.mem_cons, List.not_mem_nil, or_false] at hmem
    rcases hmem with rfl | rfl | rfl
    · exact ⟨(Table.made_read "OBJECT" _).mono fun _ _ => trivial, by decide +kernel, by decide +kernel⟩
    · exact ⟨(Table.made_read "EA" _).mono fun _ _ => trivial, by decide +kernel, by decide +kernel⟩
    · exact ⟨(Table.made_read "ALIGN" _).mono fun _ _ => trivial, by decide +kernel, by decide +kernel⟩
  have hsymbols : Nameable symbols profile := by
    refine ⟨htables _, fun listed _ => htables listed, fun listed _ table hfound => ?_⟩
    have hmem := Symbols.mem_of_table?_build hfound
    simp only [List.mem_cons, List.not_mem_nil, or_false] at hmem
    rcases hmem with rfl | rfl | rfl <;> decide +kernel
  let values : ObjectValues profile :=
    { vector := [-2, 0, 0, 0, 0, 0, 3], qualifiers := [1, 12, 0, 0, 0], area := "[7.-1]"
      name := emptyString, width := rfl, five := rfl, bracketed := ⟨"7.-1", rfl, by decide⟩
      quoted := quoted_emptyString }
  have hvalues : Sayable symbols values :=
    { words := by decide
      chain := ⟨[1, 12], 3, rfl, by decide⟩
      qualifiers := by decide +kernel
      vector := by decide +kernel
      name := fun hname => absurd rfl hname
      area := fun _ => .inr ⟨["7", "-1"], ⟨by decide, by decide, by decide, by decide⟩, rfl,
        fun _ => by decide⟩ }
  exact ⟨values, by decide, hsymbols, hvalues, encode_express .icewind hsymbols hvalues "O:Object*" []⟩

-- --------------------
-- Long numbers
-- --------------------

theorem Fields.add_long {fields : Fields} {table : Text} {tables : List Text}
    (htables : profile.objectTables = table :: tables) (hunnamed : symbols.byName? table text = none)
    (h : IsCoordinate [text]) (hlong : ¬ Text.FewDigits text) :
    fields.add symbols profile (some text) =
      .error (.halt (.numeral (.tooManyDigits (text.countP Text.isDecimalDigit)))) := by
  obtain ⟨n, hn⟩ := Option.isSome_iff_exists.mp (h.numbers text (by simp))
  have hnumber : Text.number text = .error (.tooManyDigits (text.countP Text.isDecimalDigit)) := by
    have hcount : text.countP Text.isDecimalDigit > digitLimit := by simpa [Text.FewDigits] using hlong
    simp only [Text.number, hn, Text.checkDigits, hcount, if_true]
    rfl
  have hupper := h.upper_ne
  have hcomponents := components_join h.nonempty h.pieces
  rw [Text.join_singleton] at hupper hcomponents
  unfold Fields.add
  simp only [(h.pieces text (by simp)).1, hupper, or_self, if_false, hcomponents, htables,
    vectorNumbers, hunnamed, hnumber]
  rfl

theorem not_succeeds_long {table : Text} {tables : List Text}
    (htables : profile.objectTables = table :: tables) (hunnamed : symbols.byName? table text = none)
    (h : IsCoordinate [text]) (hlong : ¬ Text.FewDigits text) (definition code : Text) :
    ¬ Encoding.Succeeds (encode symbols profile definition (anyone ++ coordinate [text])) code := by
  have hopen : '(' ∉ anyone ++ coordinate [text] := by
    intro hmem
    rcases List.mem_append.mp hmem with hmem | hmem
    · exact absurd hmem (by decide)
    · exact h.parenthesis_notMem hmem
  have hqualify : qualify symbols (anyone ++ coordinate [text]) =
      .ok ([], anyone ++ coordinate [text]) := by
    have hquote : (anyone ++ coordinate [text]).head? ≠ some '"' := by
      rw [show (anyone ++ coordinate [text]).head? = some '[' from rfl]
      decide
    unfold qualify peel
    rw [Text.cut?_eq_none hopen, if_neg hquote]
    simp [Bind.bind, Except.bind, pure, Except.pure]
  have hgroups : bracketGroups none (anyone ++ coordinate [text]) = [some "ANYONE".toList, some text] := by
    have hfirst := @bracketGroups_cons "ANYONE" (by decide) (coordinate [text])
    have hsecond := @bracketGroups_cons (Text.join "." [text]) (h.notMem (by decide)) []
    rw [List.append_nil] at hsecond
    rw [show anyone = "[".toList ++ "ANYONE".toList ++ "]".toList from rfl, hfirst, coordinate, hsecond,
      Text.join_singleton]
    rfl
  rw [encode, Encoding.succeeds_ofPart]
  rintro ⟨part, hcode, -⟩
  obtain ⟨parts, hparts, hcode⟩ := Outcome.bind_ok.mp hcode
  obtain rfl := Except.ok.inj (hqualify.symm.trans (Refusal.ofFault_ok.mp hparts))
  obtain ⟨vector, hvector, -⟩ := Outcome.bind_ok.mp hcode
  obtain ⟨_, -, hvector⟩ := Outcome.bind_ok.mp hvector
  obtain ⟨fields, hfields, -⟩ := Outcome.bind_ok.mp hvector
  rw [hgroups, List.foldlM_cons] at hfields
  obtain ⟨next, -, hfields⟩ := Outcome.bind_ok.mp hfields
  rw [List.foldlM_cons] at hfields
  obtain ⟨_, hadd, -⟩ := Outcome.bind_ok.mp hfields
  rw [Fields.add_long htables hunnamed h hlong] at hadd
  cases hadd

/-- The number of an area may be too long to be read where it stands in brackets. -/
theorem encode_express_long :
    let digits : Text := List.replicate 4301 '1'
    ∃ values : ObjectValues (.ofGame .icewind),
      values.vector = List.replicate 7 0 ∧ values.qualifiers = List.replicate 5 0 ∧
      values.name = emptyString ∧ IsCoordinate [digits] ∧ values.area = coordinate [digits] ∧
      ∀ record definition code, values.ReadAs record →
        ∃ said, Pass.Says (expressM {} (.ofGame .icewind) record) said ∧
          ¬ Encoding.Succeeds (encode {} (.ofGame .icewind) definition said.value) code := by
  intro digits
  have hdigits : ∀ c ∈ digits, Text.isDecimalDigit c := by
    intro c hc
    rw [List.eq_of_mem_replicate hc]
    decide
  have hlength : digits.length = 4301 := List.length_replicate
  have hcoordinate : IsCoordinate [digits] := by
    refine ⟨List.cons_ne_nil _ _, Nat.le_of_ble_eq_true rfl, ?_, digits, List.mem_singleton_self _, ?_⟩
    · intro text htext
      rw [List.mem_singleton.mp htext, Text.isNumber, Text.readSigned?_of_digits hdigits,
        Option.isSome_map]
      exact Text.readNat?_isSome (List.ne_nil_of_length_pos (by omega)) hdigits
    · intro heq
      rw [heq] at hlength
      cases hlength
  have hlong : ¬ Text.FewDigits digits := by
    rw [Text.FewDigits, List.countP_eq_length.mpr hdigits, hlength]
    decide
  have hclosed : ']' ∉ digits := fun hmem => absurd (hdigits ']' hmem) (by decide)
  refine ⟨⟨List.replicate 7 0, List.replicate 5 0, coordinate [digits], emptyString, rfl, rfl,
    ⟨digits, by rw [coordinate, Text.join_singleton]; rfl, hclosed⟩, quoted_emptyString⟩,
    rfl, rfl, rfl, hcoordinate, rfl, fun record definition code hrecord => ?_⟩
  have hzeros : ∀ {k n}, n ∈ List.replicate k (0 : Int) → n = 0 := List.eq_of_mem_replicate
  refine ⟨_, Pass.says_object _ _ _, ?_⟩
  rw [express_anyone (fun n hn => hzeros (hrecord.vector ▸ hn))
    (fun n hn => hzeros (hrecord.qualifiers ▸ hn)) hrecord.name,
    area?_coordinate hcoordinate hrecord.area]
  exact not_succeeds_long rfl rfl hcoordinate hlong definition code

end InfinityScript.Object
