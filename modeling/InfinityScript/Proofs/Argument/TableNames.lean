import InfinityScript.Proofs.Argument.Integer
import InfinityScript.Proofs.Argument.Symbolic
import InfinityScript.Proofs.Fault

/-!
# The table of an integer

A declaration names the table of an integer in two ways. The table that an argument is
looked up in stands after the last star, and `.IDS` is put behind it; the table that a
number is looked up in stands after the first star, and `.IDS` is put behind it unless it is
there. They are the same table exactly when there is one star and `.IDS` is not written out
(`Parameter.sameTable_iff`).
-/

namespace InfinityScript

-- --------------------
-- Table names
-- --------------------

namespace Text

theorem EndsVisibly.exists_mem (h : EndsVisibly text) : ∃ c ∈ text, isBlank c = false := by
  obtain ⟨c, hc, hblank⟩ := h
  exact ⟨c, List.mem_of_mem_getLast? hc, hblank⟩

theorem EndsVisibly.of_append (h : EndsVisibly (before ++ after)) (hne : after ≠ []) :
    EndsVisibly after := by
  obtain ⟨c, hc, hblank⟩ := h
  have hlast : after.getLast?.isSome := List.getLast?_isSome.mpr hne
  rw [List.getLast?_append, Option.or_of_isSome hlast] at hc
  exact ⟨c, hc, hblank⟩

theorem EndsVisibly.of_cons (h : EndsVisibly (c :: after)) (hne : after ≠ []) : EndsVisibly after :=
  @EndsVisibly.of_append [c] after h hne

theorem exists_last_mark (h : mark ∈ text) :
    ∃ before after, text = before ++ mark :: after ∧ mark ∉ after := by
  obtain ⟨after, before, hreverse, hafter⟩ :=
    List.eq_append_cons_of_mem (List.mem_reverse.mpr h)
  refine ⟨before.reverse, after.reverse, ?_, by simpa using hafter⟩
  simpa using congrArg List.reverse hreverse

theorem trimLeft_trim (text : Text) : trimLeft (trim text) = trim text :=
  trimLeft_eq_self (isBlank_head_of_trim_eq_self (trim_trim text))

end Text

open Text

theorem tableName_eq_or (text : Text) :
    (".IDS".toList <:+ upper (trim text) ∧ tableName text = upper (trim text)) ∨
      (¬ ".IDS".toList <:+ upper (trim text) ∧ tableName text = upper (trim text) ++ ".IDS") := by
  by_cases hsuffix : ".IDS".toList <:+ upper (trim text)
  · exact .inl ⟨hsuffix, if_pos (by simpa using hsuffix)⟩
  · exact .inr ⟨hsuffix, if_neg (by simpa using hsuffix)⟩

theorem tableName_upper_ids (h : EndsVisibly text) :
    tableName (upper text ++ ".IDS") = upper (trim text) ++ ".IDS" := by
  rw [tableName_upper_append h.exists_mem, upper_upper, trim_eq_trimLeft h]

theorem tableName_idem (h : EndsVisibly text) : tableName (tableName text) = tableName text := by
  have hvisible : ∃ c ∈ trim text, isBlank c = false := by
    obtain ⟨c, hc, hblank⟩ := h.exists_mem
    exact ⟨c, mem_trim hc hblank, hblank⟩
  rcases tableName_eq_or text with ⟨hsuffix, hname⟩ | ⟨-, hname⟩
  · have hleft : trimLeft (upper (trim text)) = upper (trim text) := by
      have happend := trimLeft_upper_append hvisible []
      rwa [List.append_nil, List.append_nil, trimLeft_trim] at happend
    have hends : EndsVisibly (upper (trim text)) := by
      obtain ⟨front, hfront⟩ := hsuffix
      exact hfront ▸ endsVisibly_append ⟨'S', rfl, rfl⟩ front
    have htrim : trim (upper (trim text)) = upper (trim text) := by
      rw [trim_eq_trimLeft hends, hleft]
    rw [hname]
    rcases tableName_eq_or (upper (trim text)) with ⟨-, hagain⟩ | ⟨hnot, -⟩
    · rw [hagain, htrim, upper_upper]
    · rw [htrim, upper_upper] at hnot
      exact absurd hsuffix hnot
  · rw [hname, tableName_upper_append hvisible, upper_upper, trimLeft_trim]

theorem star_mem_tableName (h : '*' ∈ text) : '*' ∈ tableName text := by
  have hmem : '*' ∈ upper (trim text) := (mem_upper_iff (by decide)).mpr (mem_trim h (by decide))
  rcases tableName_eq_or text with ⟨-, hname⟩ | ⟨-, hname⟩
  · rwa [hname]
  · rw [hname]
    exact List.mem_append_left _ hmem

theorem star_notMem_ids (h : '*' ∉ text) : '*' ∉ upper (trim text) ++ ".IDS" := by
  rw [List.mem_append, mem_upper_iff (by decide)]
  rintro (hmem | hmem)
  · exact h (trim_subset text hmem)
  · exact absurd hmem (by decide)

-- --------------------
-- Declarations
-- --------------------

theorem Argument.integerTable?_append (h : '*' ∉ last) (front : Text) :
    integerTable? (front ++ '*' :: last) =
      if last = [] then none else some (upper last ++ ".IDS") := by
  rw [integerTable?, cutLast?_append h]

namespace Parameter

variable {parameter : Parameter} {text before after : Text}

theorem parse_ok (h : parse text = .ok parameter) :
    EndsVisibly parameter.definition ∧
      parameter.table = (cut? '*' parameter.definition).bind fun cut =>
        if cut.2 = [] then none else some (tableName cut.2) := by
  unfold parse at h
  dsimp only at h
  split at h
  · next letter rest htrim =>
    split at h
    · cases h
    · next kind hkind =>
      have hstar : ParameterKind.ofLetter? '*' = none := by decide
      have hletter : letter ≠ '*' := by
        rintro rfl
        rw [hstar] at hkind
        cases hkind
      have hends : EndsVisibly (letter :: ':' :: rest) := by
        rw [← htrim]
        exact endsVisibly_trimRight (by rw [← trim, htrim]; simp)
      have hcut : cut? '*' (letter :: ':' :: rest) =
          (cut? '*' rest).map fun cut => (letter :: ':' :: cut.1, cut.2) := by
        cases hrest : cut? '*' rest <;> simp [cut?, hletter, hrest]
      split at h
      · next hrest =>
        cases h
        rw [htrim]
        exact ⟨hends, by simp [hcut, hrest]⟩
      · next before hrest =>
        cases h
        rw [htrim]
        exact ⟨hends, by simp [hcut, hrest]⟩
      · next before table hne hrest =>
        cases h
        rw [htrim]
        exact ⟨hends, by simp [hcut, hrest, show table ≠ [] from hne]⟩
  · cases h

section

variable (hparse : parse text = .ok parameter)
  (hdefinition : parameter.definition = before ++ '*' :: after) (hbefore : '*' ∉ before)
  (hne : after ≠ [])

include hparse hdefinition hne

theorem endsVisibly_after : EndsVisibly after := by
  have hends := (parse_ok hparse).1
  rw [hdefinition] at hends
  exact (hends.of_append (List.cons_ne_nil _ _)).of_cons hne

include hbefore

theorem table_eq_some : parameter.table = some (tableName after) := by
  rw [(parse_ok hparse).2, hdefinition, cut?_append hbefore, Option.bind_some, if_neg hne]

/-- The two names of the table agree when there is one star and `.IDS` is not written out. -/
theorem tableName_integerTable?_iff :
    (Argument.integerTable? parameter.definition).map tableName = parameter.table ↔
      '*' ∉ after ∧ ¬ ".IDS".toList <:+ upper (trim after) := by
  have hafter : EndsVisibly after := endsVisibly_after hparse hdefinition hne
  rw [table_eq_some hparse hdefinition hbefore hne, hdefinition]
  by_cases hstar : '*' ∈ after
  · -- the name after the first star has a star in it, the other has none
    have hleft : '*' ∈ tableName after := star_mem_tableName hstar
    obtain ⟨front, last, rfl, hlast⟩ := exists_last_mark hstar
    refine ⟨fun hsame => absurd hsame ?_, fun hagree => absurd hstar hagree.1⟩
    rw [← List.cons_append, ← List.append_assoc, Argument.integerTable?_append hlast]
    split
    · simp
    · next hsome =>
      have hends : EndsVisibly last := (hafter.of_append (List.cons_ne_nil _ _)).of_cons hsome
      rw [Option.map_some, tableName_upper_ids hends]
      exact fun hsame => star_notMem_ids hlast (Option.some.inj hsame ▸ hleft)
  · rw [Argument.integerTable?_append hstar, if_neg hne, Option.map_some, tableName_upper_ids hafter,
      Option.some_inj]
    rcases tableName_eq_or after with ⟨hsuffix, hname⟩ | ⟨hsuffix, hname⟩
    · rw [hname]
      exact ⟨fun hsame => absurd (List.append_right_eq_self.mp hsame) (by decide),
        fun hagree => absurd hsuffix hagree.2⟩
    · exact iff_of_true hname.symm ⟨hstar, hsuffix⟩

end

theorem table_eq_none (hparse : parse text = .ok parameter)
    (hnone : '*' ∉ parameter.definition ∨
      ∃ before, '*' ∉ before ∧ parameter.definition = before ++ ['*']) :
    parameter.table = none ∧ Argument.integerTable? parameter.definition = none := by
  obtain ⟨-, htable⟩ := parse_ok hparse
  rcases hnone with hstar | ⟨before, hbefore, hdefinition⟩
  · rw [cut?_eq_none hstar] at htable
    exact ⟨htable, by rw [Argument.integerTable?, cutLast?_eq_none hstar]⟩
  · rw [hdefinition, cut?_append hbefore] at htable
    exact ⟨htable, by rw [hdefinition, Argument.integerTable?_append List.not_mem_nil, if_pos rfl]⟩

end Parameter

-- --------------------
-- Lookups
-- --------------------

namespace Argument

variable {symbols other : Symbols} {definition : Text} {parameter : Parameter}

/-- The table in which a number is looked up. -/
def expressingTable? (symbols : Symbols) (parameter : Parameter) : Option Table :=
  parameter.table.bind symbols.table?

/-- How a number is shown when it is looked up in a table: by its symbol, in a table of `flags`
by the symbols of its bits if each has one, and otherwise by its digits. -/
inductive Shows (table? : Option Table) (flags : Bool) (n : Int) : Text → Prop
  | symbol {entry : Entry} (hfound : table?.bind (·.get? n) = some entry) :
      Shows table? flags n entry.name
  | bits {table : Table} (htable : table? = some table) (hnone : table.get? n = none)
      (hflags : n ≠ 0 ∧ flags = true)
      (hrest : (Flags.decompose (fun bit => (table.get? bit).map Entry.name) n).2 = 0) :
      Shows table? flags n
        (Text.join " | " (Flags.decompose (fun bit => (table.get? bit).map Entry.name) n).1)
  | digits (hnone : table?.bind (·.get? n) = none)
      (hrest : ∀ table, table? = some table → n ≠ 0 ∧ flags = true →
        (Flags.decompose (fun bit => (table.get? bit).map Entry.name) n).2 ≠ 0) :
      Shows table? flags n (Text.ofInt n)

theorem shows_none (flags : Bool) (n : Int) : Shows none flags n (Text.ofInt n) := by
  refine .digits rfl ?_
  rintro _ ⟨⟩

theorem shows_expressInteger (symbols : Symbols) (parameter : Parameter) (n : Int) :
    Shows (expressingTable? symbols parameter) (parameter.table.any flagTables.contains) n
      (expressInteger symbols parameter n).value := by
  unfold expressInteger expressIntegerM expressingTable?
  cases parameter.table with
  | none => exact shows_none _ n
  | some name =>
    dsimp only [Option.bind_some, Option.any_some]
    cases symbols.table? name with
    | none => exact shows_none _ n
    | some table =>
      dsimp only
      split
      · next entry hfound => exact .symbol hfound
      · next hnone =>
        split
        · next hflags =>
          split
          · next hrest => exact .bits rfl hnone hflags hrest
          · next hrest =>
            refine .digits hnone ?_
            rintro _ ⟨⟩ -
            exact hrest
        · next hflags => exact .digits hnone fun _ _ h => absurd h hflags

theorem sumOfSymbols_congr (h : symbols.table? table = other.table? table) (names : List Text) :
    sumOfSymbols symbols table names = sumOfSymbols other table names := by
  induction names with
  | nil => rfl
  | cons name names ih => simp only [sumOfSymbols, Symbols.byName?, h, ih]

theorem symbolic_congr (h : encodingTable? symbols definition = encodingTable? other definition)
    (value : Text) : symbolic symbols definition value = symbolic other definition value := by
  unfold encodingTable? at h
  cases htable : integerTable? definition with
  | none => simp only [symbolic, htable]
  | some table =>
    rw [htable, Option.bind_some, Option.bind_some] at h
    simp only [symbolic, htable, Symbols.byName?, h, sumOfSymbols_congr h]

theorem expressIntegerM_congr {m : Type → Type} [Monad m] [MonadNote m]
    (h : expressingTable? symbols parameter = expressingTable? other parameter) (number : Int) :
    (expressIntegerM symbols parameter number : m Text) = expressIntegerM other parameter number := by
  unfold expressingTable? at h
  cases htable : parameter.table with
  | none => simp only [expressIntegerM, htable]
  | some table =>
    rw [htable, Option.bind_some, Option.bind_some] at h
    simp only [expressIntegerM, htable, h]

theorem encodingTable?_eq_iff (hname : parameter.table = some name) (hidem : tableName name = name) :
    (∀ symbols, encodingTable? symbols definition = expressingTable? symbols parameter) ↔
      (integerTable? definition).map tableName = parameter.table := by
  have hexpress : ∀ symbols, expressingTable? symbols parameter = symbols.tables[name]? := by
    intro symbols
    rw [expressingTable?, hname, Option.bind_some, Symbols.table?, hidem]
  constructor
  · intro h
    -- symbols with this one table tell the two names apart
    have hsome := h { tables := (∅ : Std.TreeMap Text Table).insert name (.empty name) }
    rw [hexpress, Std.TreeMap.getElem?_insert_self] at hsome
    obtain ⟨listed, hlisted, hfound⟩ := Option.bind_eq_some_iff.mp hsome
    rw [Symbols.table?, Std.TreeMap.getElem?_insert] at hfound
    split at hfound
    · next hcompare =>
      rw [hlisted, hname, Option.map_some, Std.LawfulEqCmp.eq_of_compare hcompare]
    · simp at hfound
  · intro hsame symbols
    rw [hname] at hsame
    obtain ⟨listed, hlisted, hsame⟩ := Option.map_eq_some_iff.mp hsame
    rw [hexpress, encodingTable?, hlisted, Option.bind_some, Symbols.table?, hsame]

end Argument

end InfinityScript
