import InfinityScript.Call
import InfinityScript.Argument.Encode
import InfinityScript.Proofs.Argument.Object
import InfinityScript.Proofs.Text.FoldCase

/-!
# Arguments in either case

A call has the same arguments, up to the case of ASCII letters, when its letters are in lower
case (`Call.arguments_foldCase`), and an argument that is an integer, a point or an object has
the same code (`Argument.integer_foldCase`, `Argument.point_foldCase`, `Object.code_foldCase`).
What does not read like that differs, since an error quotes the text; so the results are
compared, not the errors.
-/

namespace InfinityScript

open Text

namespace Outcome

theorem toOption_bind (x : Except ε α) (f : α → Except ε β) :
    (x >>= f).toOption = x.toOption.bind fun a => (f a).toOption := by
  cases x <;> rfl

theorem toOption_map (f : α → β) (x : Except ε α) : (x.map f).toOption = x.toOption.map f := by
  cases x <;> rfl

theorem toOption_foldlM_map {f : σ → α → Except ε σ} {g : α → α}
    (h : ∀ state x, (f state (g x)).toOption = (f state x).toOption) (init : σ) (xs : List α) :
    ((xs.map g).foldlM f init).toOption = (xs.foldlM f init).toOption := by
  induction xs generalizing init with
  | nil => rfl
  | cons x xs ih =>
    rw [List.map_cons, List.foldlM_cons, List.foldlM_cons, toOption_bind, toOption_bind, h]
    exact Option.bind_congr fun next _ => ih next

theorem toOption_ofFault (x : Except Fault α) : (Refusal.ofFault x).toOption = x.toOption := by
  cases x <;> rfl

end Outcome

-- --------------------
-- Calls
-- --------------------

theorem Symbols.byName?_foldCase (symbols : Symbols) (table name : Text) :
    symbols.byName? table (foldCase name) = symbols.byName? table name := by
  simp only [byName?, Table.lookup?, trim_foldCase, upper_foldCase]

theorem Symbols.function_foldCase (symbols : Symbols) (table name : Text) :
    (symbols.function table (foldCase name)).toOption = (symbols.function table name).toOption := by
  unfold function
  rw [byName?_foldCase]
  cases symbols.byName? table name with
  | none => rfl
  | some entry =>
    dsimp only
    split <;> rfl

namespace Call

theorem split_foldCase (line : Text) :
    split (foldCase line) = (split line).map (Prod.map foldCase foldCase) := by
  have hopen : isCaseless '(' := rfl
  have hclose : isCaseless ')' := rfl
  rw [split, split, cut?_foldCase hopen, cutLast?_foldCase hclose]
  cases cut? '(' line with
  | none => rfl
  | some parts =>
    cases cutLast? ')' line with
    | none => rfl
    | some ends =>
      simp only [Option.map_some, Prod.map, cutLast?_foldCase hclose, trimRight_foldCase]
      cases cutLast? ')' parts.2 <;> rfl

theorem isCut_foldCase (delimiter : Delimiter) (argument : Text) :
    isCut delimiter (foldCase argument) = isCut delimiter argument := by
  have hopen : isCaseless delimiter.opening := by cases delimiter <;> rfl
  have hclose : isCaseless delimiter.closing := by cases delimiter <;> rfl
  rw [Bool.eq_iff_iff]
  simp [isCut, head?_foldCase_iff hopen, getLast?_foldCase_iff hclose]

def mended? (delimiter : Delimiter) (argument : Text) (pieces : List Text) :
    Option (Text × List Text) :=
  (mend delimiter argument pieces).toOption.map fun mended => (mended.1, mended.2.1)

theorem mended?_foldCase (delimiter : Delimiter) (argument : Text) (pieces : List Text) :
    mended? delimiter (foldCase argument) (pieces.map foldCase) =
      (mended? delimiter argument pieces).map (Prod.map foldCase (List.map foldCase)) := by
  unfold mended? mend
  rw [isCut_foldCase]
  split
  · cases pieces with
    | nil => rfl
    | cons piece rest =>
      have hcomma := trim_foldCase (argument ++ ',' :: piece)
      rw [foldCase_append, foldCase_cons_mark rfl] at hcomma
      show some (trim (foldCase argument ++ ',' :: foldCase piece), rest.map foldCase) = _
      rw [hcomma]
      rfl
  · rfl

theorem length_of_mended? {pieces : List Text}
    (h : mended? delimiter argument pieces = some (mended, rest)) :
    rest.length ≤ pieces.length := by
  obtain ⟨found, -, hfound⟩ := Option.map_eq_some_iff.mp h
  rw [← (Prod.mk.inj hfound).2]
  exact found.2.2

theorem toOption_assemble_cons (first second : Delimiter) (piece : Text) (pieces : List Text) :
    (assemble first second (piece :: pieces)).toOption =
      (mended? first (trim piece) pieces).bind fun once =>
        (mended? second once.1 once.2).bind fun twice =>
          (assemble first second twice.2).toOption.map (twice.1 :: ·) := by
  rw [assemble, Outcome.toOption_bind, mended?]
  cases mend first (trim piece) pieces with
  | error fault => rfl
  | ok once =>
    show ((mend second once.1 once.2.1 >>= fun twice =>
      (assemble first second twice.2.1).map (twice.1 :: ·)) : Except Fault _).toOption =
        (mended? second once.1 once.2.1).bind _
    rw [Outcome.toOption_bind, mended?]
    cases mend second once.1 once.2.1 with
    | error fault => rfl
    | ok twice => exact Outcome.toOption_map _ _

theorem assemble_foldCase (first second : Delimiter) (pieces : List Text) :
    (assemble first second (pieces.map foldCase)).toOption =
      (assemble first second pieces).toOption.map (List.map foldCase) := by
  -- An argument takes up to three pieces, so the induction is on how many there are.
  induction hlength : pieces.length using Nat.strongRecOn generalizing pieces with
  | ind n ih =>
    cases pieces with
    | nil =>
      rw [List.map_nil, assemble]
      rfl
    | cons piece pieces =>
      rw [List.map_cons, toOption_assemble_cons, toOption_assemble_cons, trim_foldCase,
        mended?_foldCase, Option.bind_map, Option.map_bind]
      refine Option.bind_congr fun once honce => ?_
      show (mended? second (foldCase once.1) (once.2.map foldCase)).bind _ =
        ((mended? second once.1 once.2).bind _).map _
      rw [mended?_foldCase, Option.bind_map, Option.map_bind]
      refine Option.bind_congr fun twice htwice => ?_
      have hshort : twice.2.length < n := by
        have := length_of_mended? honce
        have := length_of_mended? htwice
        simp only [List.length_cons] at hlength
        omega
      show ((assemble first second (twice.2.map foldCase)).toOption.map _) = _
      rw [ih _ hshort twice.2 rfl]
      simp [Function.comp_def]

/-- A call in lower case has the arguments of the call in lower case. -/
theorem arguments_foldCase (text : Text) (quotesFirst : Bool) :
    (arguments (foldCase text) quotesFirst).toOption =
      (arguments text quotesFirst).toOption.map (List.map foldCase) := by
  have hpieces : (splitOn ',' (foldCase text)).filter (fun piece => trim piece ≠ []) =
      ((splitOn ',' text).filter fun piece => trim piece ≠ []).map foldCase := by
    rw [splitOn_foldCase rfl, List.filter_map]
    simp [Function.comp_def, trim_foldCase]
  unfold arguments
  rw [hpieces]
  cases quotesFirst <;> exact assemble_foldCase _ _ _

theorem rejoin_foldCase (signature : Signature) (arguments : List Text) :
    rejoin signature (arguments.map foldCase) = (rejoin signature arguments).map foldCase := by
  unfold rejoin
  split
  · split
    · rw [← List.map_drop]
      cases arguments.drop (signature.length - 1) with
      | nil => rfl
      | cons argument rest =>
        cases rest with
        | nil => rfl
        | cons extra rest => simp [foldCase_cons_mark (rfl : isCaseless ',')]
    · rfl
  · rfl

def foldArgument : Parameter × Text → Parameter × Text := Prod.map id foldCase

theorem bind_foldCase (entry : Entry) (arguments : List Text) :
    bind entry (arguments.map foldCase) = (bind entry arguments).map (List.map foldArgument) := by
  unfold bind
  cases entry.signature with
  | error fault => rfl
  | ok signature =>
    simp only [rejoin_foldCase, List.length_map]
    split
    · rfl
    · split
      · rfl
      · simp [Except.map, List.zip_map_right, foldArgument]

end Call

-- --------------------
-- Integers and points
-- --------------------

namespace Argument

theorem sumOfSymbols_foldCase (symbols : Symbols) (table : Text) (names : List Text) :
    (sumOfSymbols symbols table (names.map foldCase)).toOption =
      (sumOfSymbols symbols table names).toOption := by
  induction names with
  | nil => rfl
  | cons name names ih =>
    rw [List.map_cons, sumOfSymbols, sumOfSymbols, trim_foldCase]
    simp only [foldCase_eq_nil_iff, symbols.byName?_foldCase]
    split
    · simp only [Outcome.toOption_bind, ih]
    · cases symbols.byName? table (trim name) with
      | none => rfl
      | some entry => simp only [Outcome.toOption_bind, ih]

theorem symbolic_foldCase (symbols : Symbols) (definition value : Text) :
    (symbolic symbols definition (foldCase value)).toOption =
      (symbolic symbols definition value).toOption := by
  unfold symbolic
  cases integerTable? definition with
  | none => rfl
  | some table =>
    have hbar : isCaseless '|' := rfl
    have hsum := sumOfSymbols_foldCase symbols table (splitOn '|' value)
    simp only [symbols.byName?_foldCase, mem_foldCase_iff hbar, splitOn_foldCase hbar]
    cases symbols.byName? table value with
    | some entry => rfl
    | none =>
      dsimp only
      split
      · rw [Outcome.toOption_map, Outcome.toOption_map, hsum]
      · rfl

theorem integer_foldCase (symbols : Symbols) (definition value : Text) :
    (integer symbols definition (foldCase value)).toOption =
      (integer symbols definition value).toOption := by
  unfold integer
  rw [literal_foldCase, Outcome.toOption_bind, Outcome.toOption_bind]
  refine Option.bind_congr fun found _ => ?_
  cases found with
  | some n => rfl
  | none =>
    dsimp only
    rw [Outcome.toOption_bind, Outcome.toOption_bind, Outcome.toOption_ofFault,
      Outcome.toOption_ofFault, symbolic_foldCase]

theorem point_foldCase (definition value : Text) :
    (point definition (foldCase value)).toOption = (point definition value).toOption := by
  have hopen : isCaseless '[' := rfl
  have hclose : isCaseless ']' := rfl
  unfold point
  have hread : readLoose? ∘ foldCase = readLoose? := funext readLoose?_foldCase
  have hempty : List.isEmpty ∘ foldCase = List.isEmpty := funext fun text => List.isEmpty_map
  simp only [length_foldCase, head?_foldCase_iff hopen, getLast?_foldCase_iff hclose, inner_foldCase,
    splitOn_foldCase (rfl : isCaseless '.'), List.mapM_map, List.any_map, hread, hempty]
  split
  · split
    · rfl
    · cases (splitOn '.' (inner value)).mapM readLoose? <;> rfl
  · rfl

end Argument

-- --------------------
-- Objects
-- --------------------

namespace Object

variable {symbols : Symbols} {profile : Profile}

theorem peel_foldCase (symbols : Symbols) (room : Nat) (value : Text) :
    (peel symbols room (foldCase value)).toOption =
      (peel symbols room value).toOption.map (Prod.map id foldCase) := by
  have hopen : isCaseless '(' := rfl
  have hclose : isCaseless ')' := rfl
  induction room generalizing value with
  | zero =>
    unfold peel
    rw [cut?_foldCase hopen]
    cases cut? '(' value with
    | none => rfl
    | some parts =>
      simp only [Option.map_some, Prod.map, trim_foldCase, symbols.byName?_foldCase, ne_eq,
        getLast?_foldCase_iff hclose]
      split
      · rfl
      · cases symbols.byName? "OBJECT.IDS" (trim parts.1) <;> rfl
  | succ room ih =>
    unfold peel
    rw [cut?_foldCase hopen]
    cases cut? '(' value with
    | none => rfl
    | some parts =>
      simp only [Option.map_some, Prod.map, trim_foldCase, symbols.byName?_foldCase, ne_eq,
        getLast?_foldCase_iff hclose, dropLast_foldCase]
      split
      · rfl
      · cases symbols.byName? "OBJECT.IDS" (trim parts.1) with
        | none => rfl
        | some entry =>
          dsimp only
          rw [Outcome.toOption_bind, Outcome.toOption_bind, ih]
          cases peel symbols room (trim parts.2.dropLast) <;> rfl

theorem qualify_foldCase (symbols : Symbols) (value : Text) :
    (qualify symbols (foldCase value)).toOption.map (Prod.map id foldCase) =
      (qualify symbols value).toOption.map (Prod.map id foldCase) := by
  unfold qualify
  simp only [head?_foldCase_iff (rfl : isCaseless '"')]
  split
  · simp [Except.toOption, foldCase_foldCase]
  · rw [Outcome.toOption_bind, Outcome.toOption_bind, peel_foldCase]
    cases peel symbols 5 value with
    | error fault => rfl
    | ok parts =>
      simp only [Except.toOption, Option.map_some, Option.bind_some, Prod.map, id, pure, Except.pure,
        foldCase_eq_nil_iff, Option.some.injEq, Prod.mk.injEq, true_and]
      split
      · rfl
      · exact foldCase_foldCase _

theorem bracketGroups_foldCase (opened : Option Text) (text : Text) :
    bracketGroups (opened.map foldCase) (foldCase text) =
      (bracketGroups opened text).map (Option.map foldCase) := by
  have hopen : isCaseless '[' := rfl
  have hclose : isCaseless ']' := rfl
  induction text generalizing opened with
  | nil => cases opened <;> rfl
  | cons c text ih =>
    rw [foldCase_cons]
    cases opened with
    | none =>
      simp only [Option.map_none, bracketGroups, toLower_eq_iff hopen]
      rw [← ih]
      split <;> rfl
    | some group =>
      simp only [Option.map_some, bracketGroups, toLower_eq_iff hclose]
      split
      · rw [List.map_cons, ← ih]
        rfl
      · rw [← ih, Option.map_some, foldCase_append]
        rfl

theorem vectorNumbers_foldCase (symbols : Symbols) (tables components : List Text) :
    (vectorNumbers symbols tables (components.map foldCase)).toOption =
      (vectorNumbers symbols tables components).toOption := by
  induction tables generalizing components with
  | nil => rfl
  | cons table tables ih =>
    cases components with
    | nil => rfl
    | cons component components =>
      rw [List.map_cons, vectorNumbers, vectorNumbers, symbols.byName?_foldCase, number_foldCase]
      cases symbols.byName? table component with
      | some entry => simp only [Outcome.toOption_bind, ih]
      | none =>
        simp only [Outcome.toOption_bind]
        refine Option.bind_congr fun found _ => ?_
        cases found with
        | some n => simp only [Outcome.toOption_bind, ih]
        | none => rfl

section

variable (harea : profile.hasObjectArea = false)
include harea

theorem Fields.add_foldCase (symbols : Symbols) (fields : Fields) (group : Option Text) :
    (Fields.add symbols profile fields (group.map foldCase)).toOption =
      (Fields.add symbols profile fields group).toOption := by
  cases group with
  | none => rfl
  | some group =>
    have hcomponents : (splitOn '.' (foldCase group)).filter (· ≠ []) =
        ((splitOn '.' group).filter (· ≠ [])).map foldCase := by
      rw [splitOn_foldCase rfl, List.filter_map]
      simp [Function.comp_def]
    simp only [Option.map_some, Fields.add, foldCase_eq_nil_iff, upper_foldCase, hcomponents, harea]
    split
    · rfl
    · rw [Outcome.toOption_bind, Outcome.toOption_bind, vectorNumbers_foldCase]
      refine Option.bind_congr fun parts _ => ?_
      simp

theorem vectorCode_foldCase (qualifiers : List Int) (core : Text) :
    (vectorCode symbols profile qualifiers (foldCase core)).toOption =
      (vectorCode symbols profile qualifiers core).toOption := by
  have hgroups := bracketGroups_foldCase none core
  rw [Option.map_none] at hgroups
  simp only [vectorCode, Outcome.toOption_bind, hgroups,
    Outcome.toOption_foldlM_map (Fields.add_foldCase harea symbols)]

end

theorem symbolParts_foldCase (core : Text) :
    symbolParts (foldCase core) = Prod.map foldCase foldCase (symbolParts core) := by
  have hopen : isCaseless '[' := rfl
  have hclose : isCaseless ']' := rfl
  have harea : foldCase noArea = noArea := rfl
  unfold symbolParts
  rw [cut?_foldCase hopen]
  cases cut? '[' core with
  | none => simp [harea]
  | some parts =>
    simp only [Option.map_some, Prod.map, getLast?_foldCase_iff hclose]
    split
    · simp [trim_foldCase, foldCase_cons_mark hopen]
    · simp [harea]

theorem foldCase_eq_noArea_iff : foldCase area = noArea ↔ area = noArea := by
  have hcaseless : ∀ c ∈ noArea, isCaseless c := by decide
  exact foldCase_eq_iff hcaseless

theorem symbolCode_foldCase (harea : profile.hasObjectArea = false) (qualifiers : List Int)
    (core : Text) : (symbolCode symbols profile qualifiers (foldCase core)).toOption =
      (symbolCode symbols profile qualifiers core).toOption := by
  unfold symbolCode
  rw [symbolParts_foldCase]
  obtain ⟨symbol, area⟩ := symbolParts core
  simp only [Prod.map, foldCase_eq_nil_iff, symbols.byName?_foldCase, foldCase_eq_noArea_iff, harea,
    ne_eq]
  generalize (if symbol = [] then none else symbols.byName? "OBJECT.IDS" symbol) = entry
  split
  · rfl
  · split
    · rfl
    · rw [Outcome.toOption_bind, Outcome.toOption_bind]
      refine Option.bind_congr fun _ _ => ?_
      split
      · rfl
      · next hnone =>
        -- Without a field for it, there is no area but the one that stands for none.
        have hnone : area = noArea := by simpa using hnone
        rw [hnone, foldCase_eq_noArea_iff.mpr rfl]

def coreCode (symbols : Symbols) (profile : Profile) (definition : Text) (qualifiers : List Int)
    (core : Text) : Except Refusal (Noted Remark Text) :=
  match core.head? with
  | some '[' => return pure (← vectorCode symbols profile qualifiers core)
  | some '"' =>
    return ⟨← nameCode profile qualifiers core, (nameRemark? symbols definition core).toList⟩
  | _ => return pure (← symbolCode symbols profile qualifiers core)

theorem coreCode_foldCase (harea : profile.hasObjectArea = false) (hquote : '"' ∉ core)
    (definition : Text) (qualifiers : List Int) :
    (coreCode symbols profile definition qualifiers (foldCase core)).toOption =
      (coreCode symbols profile definition qualifiers core).toOption := by
  have hhead : ∀ core : Text, '"' ∉ core →
      (coreCode symbols profile definition qualifiers core).toOption =
        (if core.head? = some '[' then vectorCode symbols profile qualifiers core
          else symbolCode symbols profile qualifiers core).toOption.map pure := fun core hquote => by
    unfold coreCode
    split
    · next hbracket =>
      rw [if_pos hbracket, ← Outcome.toOption_map]
      rfl
    · next hname => exact absurd (List.mem_of_mem_head? hname) hquote
    · next hbracket _ =>
      rw [if_neg hbracket, ← Outcome.toOption_map]
      rfl
  rw [hhead core hquote, hhead (foldCase core) (mt (mem_foldCase_iff rfl).mp hquote)]
  simp only [head?_foldCase_iff (rfl : isCaseless '[')]
  split
  · rw [vectorCode_foldCase harea]
  · rw [symbolCode_foldCase harea]

/-- An object that is not quoted has the same code in either case, where it has no area. -/
theorem code_foldCase (harea : profile.hasObjectArea = false) (hquote : '"' ∉ value)
    (definition : Text) : (code symbols profile definition (foldCase value)).toOption =
      (code symbols profile definition value).toOption := by
  have hcode : ∀ value, (code symbols profile definition value).toOption =
      (qualify symbols value).toOption.bind fun parts =>
        (coreCode symbols profile definition parts.1 parts.2).toOption := fun value => by
    rw [← Outcome.toOption_ofFault, ← Outcome.toOption_bind]
    rfl
  have hqualify := qualify_foldCase symbols value
  rw [hcode, hcode]
  cases hvalue : qualify symbols value with
  | error fault =>
    rw [hvalue] at hqualify
    rw [Option.map_eq_none_iff.mp hqualify]
    rfl
  | ok parts =>
    rw [hvalue] at hqualify
    obtain ⟨⟨qualifiers, core⟩, hfold, heq⟩ := Option.map_eq_some_iff.mp hqualify
    obtain ⟨rfl, hcore⟩ := Prod.mk.inj heq
    have hlower : ∀ text, '"' ∈ foldCase text ↔ '"' ∈ text := fun text =>
      mem_foldCase_iff rfl
    have hparts : '"' ∉ parts.2 := by
      rcases (qualify_parts hvalue).2.1 with hwithin | hmyself
      · exact fun hmem => hquote (hwithin.subset hmem)
      · rw [hmyself]
        decide
    -- The core is in lower case or not: qualifiers around nothing stand around `MYSELF`.
    have hother : '"' ∉ core := by rwa [← hlower, hcore, hlower]
    rw [hfold]
    show (coreCode symbols profile definition parts.1 core).toOption =
      (coreCode symbols profile definition parts.1 parts.2).toOption
    rw [← coreCode_foldCase harea hother, hcore, coreCode_foldCase harea hparts]

end Object

end InfinityScript
