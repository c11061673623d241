import InfinityScript.Proofs.Script.SlotCalls

/-!
# Overflow definitions of numbers

Of two definitions of an id the decoder takes the second when more numbers of a record are
not zero than the first has parameters, and prints the numbers by their places. So a call
of either definition is compiled again to its code exactly when the second is taken, or all
numbers that the first has no place for are zero (`recompile_overflow_iff`).
-/

namespace InfinityScript

open Encoding

-- --------------------
-- Two definitions of an id
-- --------------------

/-- The id of `base` has `overflow` for its second definition, both have names of their own, and
the signed number of the id is no other id. -/
structure Table.Overflows (table : Table) (base overflow : Entry) : Prop where
  definitions : ∃ others, table.definitions base.id = base :: overflow :: others
  high : base.id < 4294967296
  signed : ∀ other ∈ table.entries.toList, other.id = toSigned32 base.id → other.id = base.id
  name : ∀ entry ∈ [base, overflow], ∀ other ∈ table.entries.toList,
    Text.upper other.name = Text.upper entry.name → other = entry

namespace Table.Overflows

variable {P : Entry → Prop} {table : Table} {base overflow : Entry}

theorem mem (h : table.Overflows base overflow) : ∀ entry ∈ [base, overflow],
    entry ∈ table.entries.toList ∧ entry.id = base.id := by
  obtain ⟨others, hothers⟩ := h.definitions
  intro entry hentry
  refine Made.of_mem_definitions ?_
  rw [hothers]
  exact (List.prefix_append [base, overflow] others).subset hentry

theorem get? (h : table.Overflows base overflow) (hmade : table.Made P) :
    table.get? (toSigned32 base.id) = some base ∧
      table.getOverflow? (toSigned32 base.id) = some overflow := by
  obtain ⟨others, hothers⟩ := h.definitions
  obtain ⟨hbase, hoverflow⟩ := hmade.getElem?_definitions base.id
  rw [hothers] at hbase hoverflow
  refine ⟨Made.wrapped_signed hbase h.high fun hne => Option.eq_none_iff_forall_ne_some.mpr ?_,
    Made.wrapped_signed hoverflow h.high fun hne => Option.eq_none_iff_forall_ne_some.mpr ?_⟩
  · intro other hother
    obtain ⟨hmem, hid⟩ := hmade.of_getElem?_byId hother
    exact hne (hid.symm.trans (h.signed other hmem hid))
  · intro other hother
    obtain ⟨hmem, hid⟩ := hmade.of_getElem?_overflowById hother
    exact hne (hid.symm.trans (h.signed other hmem hid))

end Table.Overflows

namespace Action

variable {symbols : Symbols} {profile : Profile} {numbers : List Int}

-- --------------------
-- Numbers
-- --------------------

theorem places_literals {pairs : List (Parameter × Text)}
    (hkinds : ∀ pair ∈ pairs, pair.1.kind = .integer)
    (hnumbers : List.Forall₂ (fun pair n => Text.literal pair.2 = .ok (some n) ∧ IsWord n)
      pairs numbers) : Places symbols profile pairs [] numbers := by
  induction hnumbers with
  | nil => exact .nil
  | @cons pair n pairs numbers hnumber hrest ih =>
    obtain ⟨hkind, hkinds⟩ := List.forall_mem_cons.mp hkinds
    exact .integer hkind (Argument.succeeds_literal hnumber.1 hnumber.2 symbols _) (ih hkinds)

theorem printed_integers {objects : List Text} {integers : List Int} {signature : Signature}
    (hkinds : ∀ parameter ∈ signature, parameter.kind = .integer)
    (hcount : j + signature.length ≤ integers.length) :
    printed objects integers i j signature =
      ((integers.drop j).take signature.length).map Text.ofInt := by
  induction signature generalizing j with
  | nil => rfl
  | cons parameter signature ih =>
    obtain ⟨hkind, hkinds⟩ := List.forall_mem_cons.mp hkinds
    simp only [List.length_cons] at hcount
    have hj : j < integers.length := by omega
    rw [printed, if_neg (by simp [hkind]), ih hkinds (by omega), List.drop_eq_getElem_cons hj,
      List.length_cons, List.take_succ_cons, List.map_cons]
    simp [hj]

theorem count_integers {signature : Signature}
    (h : ∀ parameter ∈ signature, parameter.kind = .integer) :
    Signature.count signature .integer = signature.length ∧
      Signature.count signature .object = 0 := by
  simp only [Signature.count, List.countP_eq_length, List.countP_eq_zero, beq_iff_eq]
  exact ⟨h, fun parameter hmem => by simp [h parameter hmem]⟩

theorem slotNumbers_take (h : numbers.length ≤ 3) (count : Nat) :
    slotNumbers ((slotNumbers numbers).take count) = slotNumbers numbers ↔
      ∀ n ∈ numbers.drop count, n = 0 := by
  have hzero : ∀ n : Int, 0 = n ↔ n = 0 := fun n => eq_comm
  match numbers, h, count with
  | [], _, 0 | [], _, 1 | [], _, 2 | [], _, _ + 3 => simp [slotNumbers]
  | [_], _, 0 | [_], _, 1 | [_], _, 2 | [_], _, _ + 3 => simp [slotNumbers, hzero]
  | [_, _], _, 0 | [_, _], _, 1 | [_, _], _, 2 | [_, _], _, _ + 3 => simp [slotNumbers, hzero]
  | [_, _, _], _, 0 | [_, _, _], _, 1 | [_, _, _], _, 2 | [_, _, _], _, _ + 3 =>
    simp [slotNumbers, hzero]

theorem slotText_inj (hprofile : profile.Sized) (hopcode : Text.FewDigits (Text.ofInt opcode))
    {others : List Int} (hnumbers : ∀ n ∈ numbers, IsWord n) (hothers : ∀ n ∈ others, IsWord n) :
    slotText profile opcode [] numbers = slotText profile opcode [] others ↔
      slotNumbers numbers = slotNumbers others := by
  constructor
  · intro h
    have hrecord := (reads_slotFields hprofile .nil hopcode hnumbers).record_eq
      (reads_slotFields hprofile .nil hopcode hothers) hprofile h
    exact congrArg ActionRecord.integers hrecord
  · intro h
    simp only [slotNumbers, List.cons.injEq, and_true] at h
    simp only [slotText, h]

theorem slotObjects_nil (symbols : Symbols) (profile : Profile) :
    slotObjects symbols profile [] = [anyone, anyone] := by
  simp [slotObjects, Object.express_emptyFields]

structure PrintsNumbers (symbols : Symbols) (opcode : Int) (entry : Entry) (signature : Signature) :
    Prop extends Prints symbols opcode entry signature where
  kinds : ∀ parameter ∈ signature, parameter.kind = .integer

theorem exists_compiled_numbers {entry : Entry} {signature : Signature} {source : Source}
    {line : Line} {pairs : List (Parameter × Text)} (hwidths : profile.checkWidths = .ok ())
    (hopcode : Text.FewDigits (Text.ofInt opcode))
    (hprints : PrintsNumbers symbols opcode entry signature)
    (hlines : source.listing.lines = [line]) (hcalls : Calls symbols line.text entry pairs)
    (hnumbers : List.Forall₂ (fun pair n => Text.literal pair.2 = .ok (some n) ∧ IsWord n)
      pairs numbers) :
    numbers.length = signature.length ∧
      ∃ compiled, compileDialog symbols profile source true = .ok compiled ∧
        compiled.errors.isEmpty ∧ compiled.code = slotText profile opcode [] numbers := by
  have hpairs := hcalls.map_fst hprints.signature_eq
  have hlength : numbers.length = signature.length := by
    rw [← hnumbers.length_eq, ← List.length_map Prod.fst, hpairs]
  have hthree := hprints.integers
  rw [(count_integers hprints.kinds).1, ← hlength] at hthree
  have hplaces : Places symbols profile pairs [] numbers :=
    places_literals (fun pair hmem => hprints.kinds pair.1 (hpairs ▸ List.mem_map_of_mem hmem))
      hnumbers
  have hencode := hcalls.succeeds_encode hprints.override (hprints.id ▸ hopcode) hplaces
    (Nat.zero_le 2) hthree
  exact ⟨hlength, hprints.id ▸ exists_compileDialog hwidths hlines hencode⟩

/-- A record of numbers is compiled again to its code exactly when the definition that is taken
for it has a place for each number that is not zero. -/
theorem exists_recompiled_numbers {decompiler : Decompiler} {entry : Entry} {signature : Signature}
    (hprofile : decompiler.profile.Sized) (hwidths : decompiler.profile.checkWidths = .ok ())
    (hopcode : Text.FewDigits (Text.ofInt opcode)) (hnumbers : ∀ n ∈ numbers, IsWord n)
    (hlength : numbers.length ≤ 3)
    (hdefines : Defines decompiler.symbols opcode [anyone, anyone] (slotNumbers numbers) entry)
    (hprints : PrintsNumbers decompiler.symbols opcode entry signature) (collect : Bool) :
    ∃ decompiled again comment,
      decompiler.decompileDialog (slotText decompiler.profile opcode [] numbers) true collect =
        .ok decompiled ∧
      decompiled.source = Comment.append (callText entry
        (((slotNumbers numbers).take signature.length).map Text.ofInt)) comment ++ "\n" ∧
      compileDialog decompiler.symbols decompiler.profile (.text decompiled.source) true = .ok again ∧
      again.errors.isEmpty ∧ (again.code = slotText decompiler.profile opcode [] numbers ↔
        ∀ n ∈ numbers.drop signature.length, n = 0) := by
  obtain ⟨hintegers, hobjects⟩ := count_integers hprints.kinds
  have hthree := hprints.integers
  have hspoken : ∀ text ∈ slotObjects decompiler.symbols decompiler.profile [], Call.Spoken text := by
    simp [slotObjects_nil, Call.spoken_anyone]
  have hagain : List.Forall₂ (fun object code => ∀ definition,
      Succeeds (Object.encode decompiler.symbols decompiler.profile definition object) code)
      (picks (slotObjects decompiler.symbols decompiler.profile [])
        (Signature.count signature .object) 0) [] := by
    rw [hobjects]
    exact .nil
  rw [← slotObjects_nil decompiler.symbols decompiler.profile] at hdefines
  obtain ⟨decompiled, again, comment, hdecompile, hsource, hcompile, herrors, hcode⟩ :=
    exists_recompiled hprofile hwidths .nil hopcode hnumbers hdefines hprints.toPrints hspoken hagain
      collect
  rw [hintegers] at hcode hthree
  refine ⟨decompiled, again, comment, hdecompile, ?_, hcompile, herrors, ?_⟩
  · rw [hsource, printed_integers hprints.kinds (by simpa [slotNumbers] using hthree), List.drop_zero]
  · have hword := isWord_getD hnumbers
    have hwords : ∀ n ∈ slotNumbers numbers, IsWord n := by
      simp only [slotNumbers, List.forall_mem_cons]
      exact ⟨hword 0, hword 1, hword 2, by simp⟩
    rw [hcode, slotText_inj hprofile hopcode (fun n hn => hwords n (List.mem_of_mem_take hn)) hnumbers]
    exact slotNumbers_take hlength _

end Action

-- --------------------
-- Calls of either definition
-- --------------------

namespace Table.Overflows

variable {symbols : Symbols} {ids : Table} {base overflow entry : Entry} {signature : Signature}

theorem defines (h : ids.Overflows base overflow) (hread : symbols.IsRead)
    (hids : symbols.table? "ACTION.IDS" = some ids) (hbase : base.signature = .ok signature)
    (objects : List Text) (integers : List Int) :
    Action.Defines symbols (toSigned32 base.id) objects integers
      (if Action.exceeds objects integers signature then overflow else base) := by
  obtain ⟨hget, hgetOverflow⟩ := h.get? (hread.made _ ids hids)
  have hoverflow : symbols.overflowById? "ACTION.IDS" (toSigned32 base.id) = some overflow := by
    rw [Symbols.overflowById?, hids, Option.bind_some, hgetOverflow]
  refine ⟨base, ?_, ?_⟩
  · rw [Symbols.byId?, hids, Option.bind_some, hget]
  · simp only [Symbols.definitionFor, hoverflow, hbase]
    rfl

theorem printsNumbers (h : ids.Overflows base overflow) (hread : symbols.IsRead)
    (hids : symbols.table? "ACTION.IDS" = some ids) (hentry : entry ∈ [base, overflow])
    (hfunction : entry.isFunction) (hoverride : Text.upper entry.name ≠ "ACTIONOVERRIDE")
    (hsignature : entry.signature = .ok signature)
    (hparameters : ∀ parameter ∈ signature, parameter.kind = .integer ∧ parameter.table = none)
    (hthree : signature.length ≤ 3) :
    Action.PrintsNumbers symbols (toSigned32 base.id) entry signature := by
  obtain ⟨hmem, hid⟩ := h.mem entry hentry
  have hkinds : ∀ parameter ∈ signature, parameter.kind = .integer := fun parameter hmem =>
    (hparameters parameter hmem).1
  obtain ⟨hintegers, hobjects⟩ := Action.count_integers hkinds
  refine ⟨⟨hread.callable hids hmem (h.name entry hentry) hfunction, by rw [hid], hoverride,
    hsignature, fun parameter hmem => .inr (hparameters parameter hmem), ?_, ?_⟩, hkinds⟩
  · rw [hobjects]
    exact Nat.zero_le 2
  · rwa [hintegers]

end Table.Overflows

/-- A call of one of two definitions that take numbers is decompiled to the second, if more of
the numbers are not zero than the first has parameters, and else to the first, and compiled
again to its code exactly when the second was taken or all numbers that the first has no
parameters for are zero. -/
theorem recompile_overflow_iff {decompiler : Decompiler} {ids : Table} {base overflow entry : Entry}
    {baseSignature overflowSignature : Signature} {source : Source} {line : Line}
    {pairs : List (Parameter × Text)} {numbers : List Int} (hprofile : decompiler.profile.Sized)
    (hwidths : decompiler.profile.checkWidths = .ok ()) (hread : decompiler.symbols.IsRead)
    (hids : decompiler.symbols.table? "ACTION.IDS" = some ids) (hentries : ids.Overflows base overflow)
    (hfew : Text.FewDigits (Text.ofInt (toSigned32 base.id)))
    (hfunction : base.isFunction)
    (hoverride : ∀ entry ∈ [base, overflow], Text.upper entry.name ≠ "ACTIONOVERRIDE")
    (hbase : base.signature = .ok baseSignature) (hoverflow : overflow.signature = .ok overflowSignature)
    (hparameters : ∀ parameter ∈ baseSignature ++ overflowSignature,
      parameter.kind = .integer ∧ parameter.table = none)
    (hfewer : baseSignature.length < overflowSignature.length) (hthree : overflowSignature.length ≤ 3)
    (hlines : source.listing.lines = [line]) (hentry : entry ∈ [base, overflow])
    (hcalls : Action.Calls decompiler.symbols line.text entry pairs)
    (hnumbers : List.Forall₂ (fun pair n => Text.literal pair.2 = .ok (some n) ∧ IsWord n)
      pairs numbers) (collect : Bool) :
    let chosen := if baseSignature.length < numbers.countP (· ≠ 0) then (overflow, overflowSignature)
      else (base, baseSignature)
    ∃ compiled decompiled again comment,
      compileDialog decompiler.symbols decompiler.profile source true = .ok compiled ∧
      compiled.errors.isEmpty ∧
      decompiler.decompileDialog compiled.code true collect = .ok decompiled ∧
      decompiled.source = Comment.append (callText chosen.1
        (((Action.slotNumbers numbers).take chosen.2.length).map Text.ofInt)) comment ++ "\n" ∧
      compileDialog decompiler.symbols decompiler.profile (.text decompiled.source) true = .ok again ∧
      again.errors.isEmpty ∧ (again.code = compiled.code ↔
        baseSignature.length < numbers.countP (· ≠ 0) ∨
          ∀ n ∈ numbers.drop baseSignature.length, n = 0) := by
  intro chosen
  obtain ⟨hbaseParameters, hoverflowParameters⟩ := List.forall_mem_append.mp hparameters
  have hoverflowFunction : overflow.isFunction := by
    cases overflowSignature with
    | nil => cases hfewer
    | cons first rest => exact Entry.isFunction_of_signature hoverflow
  have hprintsBase := hentries.printsNumbers hread hids (by simp) hfunction (hoverride base (by simp))
    hbase hbaseParameters (by omega)
  have hprintsOverflow := hentries.printsNumbers hread hids (by simp) hoverflowFunction
    (hoverride overflow (by simp)) hoverflow hoverflowParameters hthree
  obtain ⟨signature, hcalled, hshort⟩ : ∃ signature,
      Action.PrintsNumbers decompiler.symbols (toSigned32 base.id) entry signature ∧
      signature.length ≤ overflowSignature.length := by
    rcases List.mem_pair.mp hentry with rfl | rfl
    · exact ⟨baseSignature, hprintsBase, Nat.le_of_lt hfewer⟩
    · exact ⟨overflowSignature, hprintsOverflow, Nat.le_refl _⟩
  obtain ⟨hlength, compiled, hcompile, herrors, hcode⟩ :=
    Action.exists_compiled_numbers hwidths hfew hcalled hlines hcalls hnumbers
  have hwords := Action.isWord_of_literals hnumbers
  have hcount : numbers.length ≤ 3 := by omega
  have hdefines := hentries.defines hread hids hbase [anyone, anyone] (Action.slotNumbers numbers)
  have hexceeds : Action.exceeds [anyone, anyone] (Action.slotNumbers numbers) baseSignature =
      decide (baseSignature.length < numbers.countP (· ≠ 0)) := by
    obtain ⟨hintegers, hobjects⟩ := Action.count_integers hprintsBase.kinds
    rw [Action.exceeds, Action.countP_slotNumbers hcount, hintegers, hobjects]
    simp
  rw [hexceeds] at hdefines
  by_cases hmany : baseSignature.length < numbers.countP (· ≠ 0)
  · have hchosen : chosen = (overflow, overflowSignature) := if_pos hmany
    rw [if_pos (decide_eq_true hmany)] at hdefines
    obtain ⟨decompiled, again, comment, hdecompile, hsource, hagain, hagainErrors, hsame⟩ :=
      Action.exists_recompiled_numbers hprofile hwidths hfew hwords hcount hdefines hprintsOverflow
        collect
    have hnone : numbers.drop overflowSignature.length = [] := List.drop_of_length_le (by omega)
    refine ⟨compiled, decompiled, again, comment, hcompile, herrors, hcode ▸ hdecompile,
      hchosen ▸ hsource, hagain, hagainErrors, ?_⟩
    rw [hcode, hsame, hnone]
    exact iff_of_true (by simp) (.inl hmany)
  · have hchosen : chosen = (base, baseSignature) := if_neg hmany
    rw [if_neg (by simpa using hmany)] at hdefines
    obtain ⟨decompiled, again, comment, hdecompile, hsource, hagain, hagainErrors, hsame⟩ :=
      Action.exists_recompiled_numbers hprofile hwidths hfew hwords hcount hdefines hprintsBase collect
    refine ⟨compiled, decompiled, again, comment, hcompile, herrors, hcode ▸ hdecompile,
      hchosen ▸ hsource, hagain, hagainErrors, ?_⟩
    rw [hcode, hsame]
    exact (or_iff_right hmany).symm

theorem recompile_overflow_iff_sample :
    let decompiler : Decompiler :=
      ⟨.build [(Table.read "ACTION" "1 Base(I:A*)\n1 Over(I:A*,I:B*)").value] [] [] [] none,
        .ofGame .none, "\t"⟩
    (1 < List.countP (· ≠ 0) [(4 : Int), 5]) ∧ ∃ compiled decompiled again comment,
      compileDialog decompiler.symbols decompiler.profile (.text "Over(4,0x5)") true = .ok compiled ∧
      decompiler.decompileDialog compiled.code true true = .ok decompiled ∧
      decompiled.source = Comment.append "Over(4,5)" comment ++ "\n" ∧
      compileDialog decompiler.symbols decompiler.profile (.text decompiled.source) true = .ok again ∧
      again.code = compiled.code := by
  intro decompiler
  let ids := (Table.read "ACTION" "1 Base(I:A*)\n1 Over(I:A*,I:B*)").value
  have hread : decompiler.symbols.IsRead :=
    ⟨_, _, _, _, _, rfl, fun table hmem => ⟨_, _, List.mem_singleton.mp hmem⟩⟩
  have hentries : ids.Overflows ⟨1, "Base", some "I:A*"⟩ ⟨1, "Over", some "I:A*,I:B*"⟩ :=
    ⟨⟨[], by decide +kernel⟩, by decide, by decide +kernel, by decide +kernel⟩
  have hbase : Entry.signature ⟨1, "Base", some "I:A*"⟩ = .ok [⟨.integer, "A", none, "I:A*"⟩] := by
    decide +kernel
  have hoverflow : Entry.signature ⟨1, "Over", some "I:A*,I:B*"⟩ =
      .ok [⟨.integer, "A", none, "I:A*"⟩, ⟨.integer, "B", none, "I:B*"⟩] := by
    decide +kernel
  have hcalls : Action.Calls decompiler.symbols "Over(4,0x5)" ⟨1, "Over", some "I:A*,I:B*"⟩
      [(⟨.integer, "A", none, "I:A*"⟩, "4"), (⟨.integer, "B", none, "I:B*"⟩, "0x5")] :=
    ⟨"Over", "4,0x5", ["4", "0x5"], by decide +kernel, by decide +kernel, by decide +kernel,
      by decide +kernel⟩
  have hlines : (Source.listing (.text "Over(4,0x5)")).lines = [⟨1, "Over(4,0x5)"⟩] := by
    decide +kernel
  have hnumbers : List.Forall₂
      (fun (pair : Parameter × Text) n => Text.literal pair.2 = .ok (some n) ∧ IsWord n)
      [(⟨.integer, "A", none, "I:A*"⟩, "4"), (⟨.integer, "B", none, "I:B*"⟩, "0x5")] [4, 5] := by
    refine .cons ⟨?_, by decide⟩ (.cons ⟨?_, by decide⟩ .nil) <;> decide +kernel
  obtain ⟨compiled, decompiled, again, comment, hcompile, -, hdecompile, hsource, hagain, -, hsame⟩ :=
    recompile_overflow_iff (Profile.regular_ofGame .none).sized (Profile.hasZeros_ofGame .none).widths
      hread (rfl : decompiler.symbols.table? "ACTION.IDS" = some ids) hentries (by decide +kernel)
      rfl (by decide +kernel) hbase hoverflow (by decide) (by decide) (by decide)
      hlines (.tail _ (.head _)) hcalls hnumbers true
  exact ⟨by decide, compiled, decompiled, again, comment, hcompile, hdecompile, hsource, hagain,
    hsame.mpr (.inl (by decide))⟩

/-- A number behind zeros is lost when the first definition has no place for it. -/
theorem recompile_overflow_lost :
    let decompiler : Decompiler :=
      ⟨.build [(Table.read "ACTION" "1 Base(I:A*)\n1 Over(I:A*,I:B*)").value] [] [] [] none,
        .ofGame .none, "\t"⟩
    ∃ compiled decompiled again,
      compileDialog decompiler.symbols decompiler.profile (.text "Over(0,5)") true = .ok compiled ∧
      compiled.errors.isEmpty ∧
      decompiler.decompileDialog compiled.code true true = .ok decompiled ∧
      decompiled.source = "Base(0)\n".toList ∧
      compileDialog decompiler.symbols decompiler.profile (.text decompiled.source) true = .ok again ∧
      again.code ≠ compiled.code := by
  intro decompiler
  obtain ⟨compiled, decompiled, again, hcompile, hdecompile, hagain, herrors, hsource, hne⟩ :=
    exists_recompiled_of_any decompiler (.text "Over(0,5)")
      (fun compiled decompiled again => compiled.errors.isEmpty ∧
        decompiled.source = "Base(0)\n".toList ∧ again.code ≠ compiled.code) (by decide +kernel)
  exact ⟨compiled, decompiled, again, hcompile, herrors, hdecompile, hsource, hagain, hne⟩

end InfinityScript
