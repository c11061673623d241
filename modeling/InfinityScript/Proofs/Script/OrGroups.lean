import InfinityScript.Proofs.Script.Faultless
import InfinityScript.Proofs.Script.KeptArguments
import InfinityScript.Proofs.Symbol.Lookup

/-!
# OR groups of a condition

The check of OR groups goes from trigger to trigger and keeps how many are missing from the
open group (`OrGroup.run`). It accepts the sizes that the triggers of a condition ask for
exactly when these are put together from whole groups (`OrGroup.run_accepts_iff`), and then
no error is reported for the condition (`Block.conditionCode_orGroups`).
-/

namespace InfinityScript

open Encoding

namespace OrGroup

-- --------------------
-- The grammar
-- --------------------

/-- What may follow a trigger that opens a group of the given size, up to the end of the
group: as many triggers, or fewer and an OR of negative size. -/
def Closes (size : Nat) (counts : List Int) : Prop :=
  counts = List.replicate size 0 ∨
    ∃ filled count, filled < size ∧ count < 0 ∧ counts = List.replicate filled 0 ++ [count]

inductive IsPiece : List Int → Prop
  | single (h : count ≤ 0) : IsPiece [count]
  | group (hsize : 0 < size) (h : Closes size counts) : IsPiece ((size : Int) :: counts)

/-- The sizes are put together from whole groups and triggers outside of groups. -/
def IsFilled (counts : List Int) : Prop :=
  ∃ pieces : List (List Int), (∀ piece ∈ pieces, IsPiece piece) ∧ pieces.flatten = counts

/-- The last group is open, with so many triggers missing, and nothing else is wrong. -/
def EndsOpen (counts : List Int) (missing : Int) : Prop :=
  ∃ before, ∃ size filled : Nat, IsFilled before ∧ filled < size ∧
    counts = before ++ (size : Int) :: List.replicate filled 0 ∧ missing = size - filled

theorem isFilled_nil : IsFilled [] := ⟨[], by simp, rfl⟩

theorem IsPiece.append (hpiece : IsPiece piece) (h : IsFilled counts) :
    IsFilled (piece ++ counts) := by
  obtain ⟨parts, hparts, rfl⟩ := h
  exact ⟨piece :: parts, List.forall_mem_cons.mpr ⟨hpiece, hparts⟩, rfl⟩

theorem EndsOpen.append (h : EndsOpen counts missing) (hpiece : IsPiece piece) :
    EndsOpen (piece ++ counts) missing := by
  obtain ⟨before, size, filled, hbefore, hfilled, rfl, hmissing⟩ := h
  exact ⟨piece ++ before, size, filled, hpiece.append hbefore, hfilled, by simp, hmissing⟩

theorem EndsOpen.pos (h : EndsOpen counts missing) : 0 < missing := by
  obtain ⟨before, size, filled, -, hfilled, -, rfl⟩ := h
  omega

theorem Closes.cons_zero (h : Closes size counts) : Closes (size + 1) (0 :: counts) := by
  rcases h with rfl | ⟨filled, count, hfilled, hcount, rfl⟩
  · exact .inl List.replicate_succ.symm
  · exact .inr ⟨filled + 1, count, by omega, hcount, rfl⟩

theorem closes_negative (h : count < 0) : Closes (size + 1) [count] :=
  .inr ⟨0, count, by omega, h, rfl⟩

theorem closes_zero_iff : Closes 0 counts ↔ counts = [] := by
  simp [Closes]

theorem closes_nil {missing : Int} (h : missing ≤ 0) : Closes missing.toNat [] := by
  rw [Int.toNat_of_nonpos h]
  exact closes_zero_iff.mpr rfl

theorem isPiece_cons (h : Closes count.toNat counts) : IsPiece (count :: counts) := by
  rcases Int.lt_or_le 0 count with hpos | hnonpos
  · obtain ⟨size, rfl⟩ : ∃ size : Nat, count = size := ⟨count.toNat, by omega⟩
    exact .group (by omega) (by simpa using h)
  · rw [Int.toNat_of_nonpos hnonpos, closes_zero_iff] at h
    exact h ▸ .single hnonpos

-- --------------------
-- The check
-- --------------------

theorem step_of_nonpos (h : missing ≤ 0) (count : Int) : step missing count = (count, false) := by
  simp [step, Int.not_lt.mpr h]

theorem step_zero (h : 0 < missing) : step missing 0 = (missing - 1, false) := by
  simp [step, h]

theorem step_nested (h : 0 < missing) (hcount : 0 < count) : step missing count = (missing, true) := by
  simp [step, h, hcount, Int.ne_of_gt hcount]

theorem step_negative (h : count < 0) (missing : Int) : step missing count = (count, false) := by
  simp [step, Int.ne_of_lt h, Int.not_lt.mpr (Int.le_of_lt h)]

def run (missing : Int) : List Int → Int × Bool
  | [] => (missing, false)
  | count :: counts =>
    ((run (step missing count).1 counts).1, (step missing count).2 || (run (step missing count).1 counts).2)

theorem run_append (missing : Int) (first second : List Int) :
    run missing (first ++ second) =
      ((run (run missing first).1 second).1, (run missing first).2 || (run (run missing first).1 second).2) := by
  induction first generalizing missing with
  | nil => simp [run]
  | cons count first ih => simp only [List.cons_append, run, ih, Bool.or_assoc]

theorem run_cons_of_step (h : step missing count = (next, false)) (counts : List Int) :
    run missing (count :: counts) = run next counts := by
  simp [run, h]

theorem run_nested (h : 0 < missing) (hcount : 0 < count) (counts : List Int) :
    (run missing (count :: counts)).2 = true := by
  simp [run, step_nested h hcount]

theorem run_zeros {filled : Nat} {missing : Int} (h : filled ≤ missing) :
    run missing (List.replicate filled 0) = (missing - filled, false) := by
  induction filled generalizing missing with
  | zero => simp [run]
  | succ filled ih =>
    rw [List.replicate_succ, run_cons_of_step (step_zero (by omega)), ih (by omega)]
    simp only [Prod.mk.injEq, and_true]
    omega

theorem run_closes (h : Closes missing.toNat counts) :
    (run missing counts).1 ≤ 0 ∧ (run missing counts).2 = false := by
  rcases h with rfl | ⟨filled, count, hfilled, hcount, rfl⟩
  · by_cases hmissing : 0 ≤ missing
    · rw [run_zeros (by omega)]
      exact ⟨by simp only; omega, rfl⟩
    · rw [Int.toNat_of_nonpos (by omega)]
      exact ⟨by simp only [List.replicate_zero, run]; omega, rfl⟩
  · rw [run_append, run_zeros (by omega)]
    simp only [run, step_negative hcount, Bool.or_false, and_true]
    omega

theorem run_piece (hpiece : IsPiece piece) (h : missing ≤ 0) :
    (run missing piece).1 ≤ 0 ∧ (run missing piece).2 = false := by
  cases hpiece with
  | single hcount =>
    rw [run_cons_of_step (step_of_nonpos h _)]
    exact ⟨hcount, rfl⟩
  | @group size counts hsize hcloses =>
    rw [run_cons_of_step (step_of_nonpos h _)]
    exact run_closes (by simpa using hcloses)

theorem run_filled (hfilled : IsFilled counts) (h : missing ≤ 0) :
    (run missing counts).1 ≤ 0 ∧ (run missing counts).2 = false := by
  obtain ⟨pieces, hpieces, rfl⟩ := hfilled
  induction pieces generalizing missing with
  | nil => exact ⟨h, rfl⟩
  | cons piece pieces ih =>
    obtain ⟨hpiece, hpieces⟩ := List.forall_mem_cons.mp hpieces
    obtain ⟨hfirst, hnone⟩ := run_piece hpiece h
    rw [List.flatten_cons, run_append, hnone, Bool.false_or]
    exact ih hfirst hpieces

/-- A check that finds no group inside another goes on filling the group it began with, or closes
it; then it goes through whole groups, and may end in one that it opened behind them. -/
theorem exists_of_run (hnested : (run missing counts).2 = false) :
    (∃ filled : Nat, counts = List.replicate filled 0 ∧ filled < missing ∧
      (run missing counts).1 = missing - filled) ∨
    ∃ first rest, counts = first ++ rest ∧ Closes missing.toNat first ∧
      ((run missing counts).1 ≤ 0 ∧ IsFilled rest ∨ EndsOpen rest (run missing counts).1) := by
  induction counts generalizing missing with
  | nil =>
    rcases Int.lt_or_le 0 missing with hopen | hclosed
    · exact .inl ⟨0, rfl, hopen, by simp [run]⟩
    · exact .inr ⟨[], [], rfl, closes_nil hclosed, .inl ⟨hclosed, isFilled_nil⟩⟩
  | cons count counts ih =>
    rcases Int.lt_or_le 0 missing with hopen | hclosed
    · obtain ⟨size, rfl⟩ : ∃ size : Nat, missing = (size + 1 : Nat) := ⟨missing.toNat - 1, by omega⟩
      rcases Int.lt_trichotomy count 0 with hneg | rfl | hpos
      · -- A negative OR ends the group.
        rw [run_cons_of_step (step_negative hneg _)] at hnested ⊢
        rcases ih hnested with ⟨filled, -, hfilled, -⟩ | ⟨first, rest, rfl, hfirst, hrest⟩
        · omega
        · rw [Int.toNat_of_nonpos (Int.le_of_lt hneg), closes_zero_iff] at hfirst
          exact .inr ⟨[count], rest, by simp [hfirst], closes_negative hneg, hrest⟩
      · rw [run_cons_of_step (step_zero hopen)] at hnested ⊢
        rcases ih hnested with ⟨filled, rfl, hfilled, hrun⟩ | ⟨first, rest, rfl, hfirst, hrest⟩
        · exact .inl ⟨filled + 1, rfl, by omega, by omega⟩
        · have hsize : ((size + 1 : Nat) - 1 : Int).toNat = size := by omega
          exact .inr ⟨0 :: first, rest, rfl, (hsize ▸ hfirst).cons_zero, hrest⟩
      · rw [run_nested hopen hpos] at hnested
        cases hnested
    · rw [run_cons_of_step (step_of_nonpos hclosed _)] at hnested ⊢
      refine .inr ⟨[], count :: counts, rfl, closes_nil hclosed, ?_⟩
      rcases ih hnested with ⟨filled, rfl, hfilled, hrun⟩ | ⟨first, rest, rfl, hfirst, hrest⟩
      · obtain ⟨size, rfl⟩ : ∃ size : Nat, count = size := ⟨count.toNat, by omega⟩
        exact .inr ⟨[], size, filled, isFilled_nil, by omega, rfl, hrun⟩
      · have hpiece : IsPiece (count :: first) := isPiece_cons hfirst
        exact hrest.imp (fun h => ⟨h.1, hpiece.append h.2⟩) (·.append hpiece)

theorem filled_or_endsOpen (hnested : (run 0 counts).2 = false) :
    (run 0 counts).1 ≤ 0 ∧ IsFilled counts ∨ EndsOpen counts (run 0 counts).1 := by
  rcases exists_of_run hnested with ⟨filled, -, hfilled, -⟩ | ⟨first, rest, hcounts, hfirst, hrest⟩
  · omega
  · rw [closes_zero_iff.mp hfirst, List.nil_append] at hcounts
    rwa [hcounts] at hrest ⊢

/-- The check finds nothing wrong with the sizes exactly when they are put together from whole
groups. -/
theorem run_accepts_iff : ((run 0 counts).1 ≤ 0 ∧ (run 0 counts).2 = false) ↔ IsFilled counts := by
  constructor
  · rintro ⟨hmissing, hnested⟩
    rcases filled_or_endsOpen hnested with ⟨-, hfilled⟩ | hopen
    · exact hfilled
    · exact absurd hopen.pos (Int.not_lt.mpr hmissing)
  · exact fun h => run_filled h (Int.le_refl 0)

/-- The check finds nothing wrong but triggers missing at the end exactly when the last group is
left open. -/
theorem run_open_iff :
    (0 < missing ∧ run 0 counts = (missing, false)) ↔ EndsOpen counts missing := by
  constructor
  · rintro ⟨hmissing, hrun⟩
    have hends := filled_or_endsOpen (by rw [hrun])
    rw [hrun] at hends
    exact hends.resolve_left fun h => absurd hmissing (Int.not_lt.mpr h.1)
  · rintro ⟨before, size, filled, hbefore, hfilled, rfl, rfl⟩
    obtain ⟨hclosed, hnested⟩ := run_filled hbefore (Int.le_refl 0)
    rw [run_append, hnested, run_cons_of_step (step_of_nonpos hclosed _), run_zeros (by omega)]
    exact ⟨by omega, rfl⟩

end OrGroup

-- --------------------
-- The sizes that triggers ask for
-- --------------------

theorem Slots.Holds.get_zero {slots : Slots} {numbers : List Int}
    (h : slots.Holds (count + 1) "0" (numbers.map Text.ofInt)) :
    slots.get 0 = Text.ofInt (numbers.headD 0) := by
  rw [Slots.get, h.values_eq]
  cases numbers with
  | nil => rfl
  | cons n numbers => rfl

theorem Argument.integer_ofInt (h : IsWord n) (hinteger :
    Argument.integer symbols definition (Text.ofInt n) = .ok m) : m = n := by
  obtain ⟨literal, hliteral, hinteger⟩ := Outcome.bind_ok.mp hinteger
  obtain rfl := Except.ok.inj ((Text.literal_ofInt h).symm.trans (Outcome.mapError_ok.mp hliteral))
  exact (Text.writable_eq_ok_iff.mp (Outcome.mapError_ok.mp hinteger)).1.symm

/-- The statement is a trigger that is encoded without a fault and asks for an OR group of this
size. A trigger that is no OR asks for none; the size of an OR is its first integer. -/
structure Trigger.AsksFor (symbols : Symbols) (profile : Profile) (line : Text) (count : Int) :
    Prop where
  succeeds : ∃ record, Succeeds (Trigger.encode symbols profile line) (record, count)
  count : ∃ entry arguments numbers, Statement.Binds symbols false line entry arguments ∧
    IsNumbers symbols arguments numbers ∧
    (Text.upper entry.name ≠ "OR" → count = 0) ∧
    (Text.upper entry.name = "OR" → count = toSigned32 (numbers.headD 0) ∧
      ∀ argument ∈ (arguments.filter (·.1.kind = .integer)).head?, ∀ n, IsWord n →
        argument.2 = Text.ofInt n → count = n)

theorem IsNumbers.headD_eq {arguments : List (Parameter × Text)}
    (h : IsNumbers symbols arguments numbers)
    (hargument : argument ∈ (arguments.filter (·.1.kind = .integer)).head?) :
    Argument.integer symbols argument.1.definition argument.2 = .ok (numbers.headD 0) := by
  obtain ⟨rest, hrest⟩ := List.head?_eq_some_iff.mp hargument
  rw [IsNumbers, hrest] at h
  cases h with
  | cons hfirst _ => exact hfirst

theorem Trigger.asksFor_of_succeeds
    (h : Succeeds (Trigger.encode symbols profile line) (record, count)) :
    AsksFor symbols profile line count := by
  obtain ⟨name, inside, entry, values, arguments, fields, strings, hsplit, hentry, hvalues, hbind,
    hfields, -, -, -, rfl⟩ := Trigger.succeeds_encode.mp h
  obtain ⟨texts, hholds⟩ := Trigger.exists_holds hfields
  obtain ⟨numbers, hnumbers, hintegers⟩ := hholds.integers
  have hcount : Text.upper entry.name = "OR" →
      orCount entry fields = toSigned32 (numbers.headD 0) := by
    intro hor
    rw [orCount, if_pos hor, hintegers.get_zero,
      Text.literal?_of_readSigned? (Text.readSigned?_ofInt _)]
    rfl
  refine ⟨⟨record, h⟩, entry, arguments, numbers,
    ⟨name, inside, values, hsplit, hentry, hvalues, hbind⟩, hnumbers, fun hor => if_neg hor,
    fun hor => ⟨hcount hor, fun argument hargument n hn hvalue => ?_⟩⟩
  have hfirst := hnumbers.headD_eq hargument
  rw [hvalue] at hfirst
  rw [hcount hor, Argument.integer_ofInt hn hfirst, Text.toSigned32_of_isWord hn]

theorem Encoded.asksFor_orCount {encoded : Encoded}
    (h : Encoded.trigger symbols profile line = .ok encoded)
    (hfaultless : Faultless encoded.remarks) :
    Trigger.AsksFor symbols profile line encoded.orCount := by
  obtain ⟨⟨record, count⟩, remarks, hsucceeds, rfl⟩ :=
    Encoded.settle_faultless (fun _ _ => rfl) h hfaultless
  exact Trigger.asksFor_of_succeeds hsucceeds

-- --------------------
-- What is reported
-- --------------------

namespace Noted

def Reports (x : Findings α) (fault : Fault) : Prop := .error fault ∈ x.remarked.2

theorem reports_bind {x : Findings α} {f : α → Findings β} :
    (x >>= f).Reports fault ↔ x.Reports fault ∨ (f x.value).Reports fault := by
  show .error fault ∈ (x.notes ++ (f x.value).notes).map Finding.remark ↔ _
  rw [List.map_append, List.mem_append]
  rfl

theorem not_reports_pure (value : α) : ¬ (pure value : Findings α).Reports fault :=
  List.not_mem_nil

theorem reports_leaveIf : (Fault.leaveIf present found line).Reports fault ↔
    present = true ∧ fault = found := by
  cases present with
  | false => simp [not_reports_pure]
  | true => simp [Fault.leaveIf, Fault.leaveAt, Reports, remarked]

theorem not_reports_onLine {encoded : Encoded} (h : InfinityScript.Faultless encoded.remarks) :
    ¬ (encoded.onLine line).Reports fault := by
  simpa [Reports, remarked, Encoded.onLine, Function.comp_def] using h fault

end Noted

namespace Block

open OrGroup

def orCounts (triggers : List (Nat × Encoded)) : List Int := triggers.map (·.2.orCount)

theorem missing_triggerCode (missing : Int) (triggers : List (Nat × Encoded)) :
    (triggerCode missing triggers).value.2 = (run missing (orCounts triggers)).1 := by
  induction triggers generalizing missing with
  | nil => rfl
  | cons trigger triggers ih => exact ih _

theorem reports_triggerCode {triggers : List (Nat × Encoded)}
    (h : ∀ trigger ∈ triggers, Faultless trigger.2.remarks) :
    (triggerCode missing triggers).Reports fault ↔
      (run missing (orCounts triggers)).2 = true ∧ fault = .nestedOr := by
  induction triggers generalizing missing with
  | nil => simp [triggerCode, orCounts, run, Noted.not_reports_pure]
  | cons trigger triggers ih =>
    obtain ⟨hfirst, hrest⟩ := List.forall_mem_cons.mp h
    simp only [triggerCode, Noted.reports_bind, Noted.not_reports_onLine hfirst,
      Noted.not_reports_pure, Noted.reports_leaveIf, ih hrest, false_or, or_false, orCounts,
      List.map_cons, run, Bool.or_eq_true, or_and_right]

theorem nestedOr_infix_triggerCode {triggers : List (Nat × Encoded)}
    (h : (run missing (orCounts triggers)).2 = true) :
    (Fault.nestedOr.placeholder ++ "\n" : Text) <:+: (triggerCode missing triggers).value.1 := by
  induction triggers generalizing missing with
  | nil => cases h
  | cons trigger triggers ih =>
    rw [orCounts, List.map_cons, run, Bool.or_eq_true] at h
    simp only [triggerCode, Noted.value_bind, Noted.value_pure]
    rcases h with hnested | hrest
    · rw [hnested]
      exact ⟨_, _, rfl⟩
    · exact (ih hrest).trans (List.suffix_append _ _).isInfix

theorem reports_conditionCode {block : Block Encoded}
    (h : ∀ trigger ∈ block.triggers, Faultless trigger.2.remarks) :
    (block.conditionCode length).Reports fault ↔
      ((run 0 (orCounts block.triggers)).2 = true ∧ fault = .nestedOr) ∨
      (0 < (run 0 (orCounts block.triggers)).1 ∧
        fault = .missingTriggers (run 0 (orCounts block.triggers)).1) ∨
      block.thenLine = none ∧ fault = .missingThen := by
  simp only [conditionCode, Noted.reports_bind, reports_triggerCode h, Noted.reports_leaveIf,
    missing_triggerCode, Noted.not_reports_pure, or_false, decide_eq_true_eq, gt_iff_lt,
    Option.isNone_iff_eq_none]

theorem asksFor_orCounts {lines : List (Nat × Text)} {triggers : List (Nat × Encoded)}
    (h : encodeEach (Encoded.trigger symbols profile) lines = .ok triggers)
    (hfaultless : ∀ trigger ∈ triggers, Faultless trigger.2.remarks) :
    List.Forall₂ (fun line count => Trigger.AsksFor symbols profile line.2 count) lines
      (orCounts triggers) := by
  have hencoded := (encodeEach_ok.mp h).2
  clear h
  induction lines generalizing triggers with
  | nil =>
    obtain rfl : triggers = [] := by simpa using hencoded.symm
    exact .nil
  | cons line lines ih =>
    cases triggers with
    | nil => cases hencoded
    | cons trigger triggers =>
      obtain ⟨hfirst, hrest⟩ := List.forall_mem_cons.mp hfaultless
      obtain ⟨hline, hlines⟩ := List.cons.inj hencoded
      exact .cons (Encoded.asksFor_orCount hline hfirst) (ih hrest hlines)

def IsOrFault (fault : Fault) : Prop := fault = .nestedOr ∨ ∃ n, fault = .missingTriggers n

/-- Such an error leaves its placeholder on a line of the code. -/
theorem placeholder_infix_conditionCode {block : Block Encoded}
    (h : ∀ trigger ∈ block.triggers, Faultless trigger.2.remarks)
    (hreports : (block.conditionCode length).Reports fault) (hfault : IsOrFault fault) :
    (fault.placeholder ++ "\n" : Text) <:+: (block.conditionCode length).value := by
  simp only [conditionCode, Noted.value_bind, Noted.value_pure, missing_triggerCode]
  rcases (reports_conditionCode h).mp hreports with
    ⟨hnested, rfl⟩ | ⟨hmissing, rfl⟩ | ⟨-, rfl⟩
  · refine (nestedOr_infix_triggerCode hnested).trans ?_
    simp only [List.append_assoc]
    exact (List.prefix_append _ _).isInfix.trans (List.suffix_append _ _).isInfix
  · rw [decide_eq_true hmissing]
    exact (List.infix_append _ _ _).trans (List.prefix_append _ _).isInfix
  · rcases hfault with hfault | ⟨n, hfault⟩ <;> cases hfault

/-- When all triggers of a condition are encoded without a fault, no error of the check of OR
groups is found exactly when the sizes that they ask for are put together from whole groups.
Otherwise there is one, and it stands in the code. The error is just that triggers are missing
exactly when the last group is left open, and it gives the number of those that are. -/
theorem conditionCode_orGroups {block : Block Encoded} {lines : List (Nat × Text)}
    (h : encodeEach (Encoded.trigger symbols profile) lines = .ok block.triggers)
    (hfaultless : ∀ trigger ∈ block.triggers, Faultless trigger.2.remarks) (length : Nat) :
    List.Forall₂ (fun line count => Trigger.AsksFor symbols profile line.2 count) lines
        (orCounts block.triggers) ∧
      ((∀ fault, IsOrFault fault → ¬ (block.conditionCode length).Reports fault) ↔
        IsFilled (orCounts block.triggers)) ∧
      (∀ fault, IsOrFault fault → (block.conditionCode length).Reports fault →
        (fault.placeholder ++ "\n" : Text) <:+: (block.conditionCode length).value) ∧
      ∀ n, ((block.conditionCode length).Reports (.missingTriggers n) ∧
          ¬ (block.conditionCode length).Reports .nestedOr) ↔
        EndsOpen (orCounts block.triggers) n := by
  have hreports : ∀ fault, (block.conditionCode length).Reports fault ↔ _ := fun _ =>
    reports_conditionCode hfaultless
  refine ⟨asksFor_orCounts h hfaultless, ?_, ?_, ?_⟩
  · rw [← run_accepts_iff]
    simp only [IsOrFault, hreports]
    constructor
    · intro hnone
      refine ⟨?_, ?_⟩
      · exact Int.not_lt.mp fun hmissing => hnone _ (.inr ⟨_, rfl⟩) (.inr (.inl ⟨hmissing, rfl⟩))
      · exact Bool.eq_false_iff.mpr fun hnested => hnone _ (.inl rfl) (.inl ⟨hnested, rfl⟩)
    · rintro ⟨hmissing, hnested⟩ fault hfault
      rintro (⟨hnested', -⟩ | ⟨hmissing', -⟩ | ⟨-, rfl⟩)
      · rw [hnested] at hnested'
        cases hnested'
      · omega
      · rcases hfault with hfault | ⟨n, hfault⟩ <;> cases hfault
  · exact fun fault hfault hfound => placeholder_infix_conditionCode hfaultless hfound hfault
  · intro n
    rw [← run_open_iff, hreports, hreports]
    constructor
    · rintro ⟨⟨-, hfault⟩ | ⟨hmissing, hfault⟩ | ⟨-, hfault⟩, hnested⟩
      · cases hfault
      · obtain rfl := Fault.missingTriggers.inj hfault
        exact ⟨hmissing, Prod.ext rfl (Bool.eq_false_iff.mpr fun h => hnested (.inl ⟨h, rfl⟩))⟩
      · cases hfault
    · rintro ⟨hmissing, hrun⟩
      rw [hrun]
      exact ⟨.inr (.inl ⟨hmissing, rfl⟩), by simp⟩

theorem conditionCode_orGroups_sample :
    let symbols : Symbols :=
      .build [(Table.read "TRIGGER" "1 OR(I:OrCount*)\n2 True()").value] [] [] [] none
    let lines : List (Nat × Text) :=
      [(2, "OR(3)"), (3, "True()"), (4, "OR(-1)"), (5, "OR(2)"), (6, "!True()")]
    ∃ block : Block Encoded, block.thenLine = some 7 ∧
      encodeEach (Encoded.trigger symbols (.ofGame .none)) lines = .ok block.triggers ∧
      (∀ trigger ∈ block.triggers, Faultless trigger.2.remarks) ∧
      EndsOpen (orCounts block.triggers) 1 ∧
      (block.conditionCode 9).Reports (.missingTriggers 1) ∧
      ¬ (block.conditionCode 9).Reports .nestedOr := by
  intro symbols lines
  obtain ⟨triggers, htriggers, h⟩ := Outcome.exists_of_any (by decide +kernel :
    (encodeEach (Encoded.trigger symbols (.ofGame .none)) lines).toOption.any fun triggers =>
      (∀ trigger ∈ triggers, trigger.2.remarks = []) ∧ orCounts triggers = [3, 0, -1, 2, 0])
  obtain ⟨hremarks, hcounts⟩ := of_decide_eq_true h
  have hfaultless : ∀ trigger ∈ triggers, Faultless trigger.2.remarks := fun trigger hmem => by
    simp [hremarks trigger hmem, Faultless]
  have hopen : EndsOpen (orCounts triggers) 1 := by
    rw [hcounts, ← run_open_iff]
    decide
  let block : Block Encoded := ⟨triggers, some 7, [], none⟩
  have hblock : encodeEach (Encoded.trigger symbols (.ofGame .none)) lines = .ok block.triggers :=
    htriggers
  obtain ⟨-, -, -, hmissing⟩ := conditionCode_orGroups hblock hfaultless 9
  exact ⟨block, rfl, hblock, hfaultless, hopen, (hmissing 1).mpr hopen⟩

end Block

end InfinityScript
