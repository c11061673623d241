import InfinityScript.Proofs.Argument.Scope
import InfinityScript.Proofs.Record.Expression
import InfinityScript.Proofs.Record.Spoken
import InfinityScript.Proofs.Script.Records

/-!
# Calls of objects and numbers

An action whose arguments are objects and numbers is compiled to a record that holds both
in the order of the call (`Action.Calls.succeeds_encode`). The decoder prints the slots that
the signature asks for (`Action.printed`), and what it prints is compiled again to the
record that holds these slots (`Action.exists_recompiled`).
-/

namespace InfinityScript

open Encoding

namespace Action

variable {symbols : Symbols} {profile : Profile}

-- --------------------
-- Compiling
-- --------------------

inductive Places (symbols : Symbols) (profile : Profile) :
    List (Parameter × Text) → List Text → List Int → Prop
  | nil : Places symbols profile [] [] []
  | object {parameter : Parameter} {value code : Text} (hkind : parameter.kind = .object)
      (h : Succeeds (Object.encode symbols profile parameter.definition value) code)
      (hrest : Places symbols profile pairs codes numbers) :
      Places symbols profile ((parameter, value) :: pairs) (code :: codes) numbers
  | integer {parameter : Parameter} {value : Text} {n : Int} (hkind : parameter.kind = .integer)
      (h : Succeeds (Argument.encodeInteger symbols parameter.definition value) (Text.ofInt n))
      (hrest : Places symbols profile pairs codes numbers) :
      Places symbols profile ((parameter, value) :: pairs) codes (n :: numbers)

def slots (profile : Profile) (codes : List Text) (numbers : List Int) : Fields where
  integers := .holding 3 "0" (numbers.map Text.ofInt)
  objects := .holding 2 profile.emptyObject codes

theorem Places.succeeds_foldlM (h : Places symbols profile pairs codes numbers) (entry : Entry)
    {before : List Text} {earlier : List Int} (hcodes : before.length + codes.length ≤ 2)
    (hnumbers : earlier.length + numbers.length ≤ 3) :
    Succeeds (pairs.foldlM (Fields.add symbols profile entry) (slots profile before earlier))
      (slots profile (before ++ codes) (earlier ++ numbers)) := by
  induction h generalizing before earlier with
  | nil => simpa using succeeds_pure.mpr rfl
  | @object _ codes _ parameter value code hkind h hrest ih =>
    simp only [List.length_cons] at hcodes
    rw [List.foldlM_cons]
    refine succeeds_bind.mpr ⟨slots profile (before ++ [code]) earlier, ?_, ?_⟩
    · have hfill := Slots.fill_holding (by omega : before.length < 2) profile.emptyObject code
      exact Fields.succeeds_add.mpr (.object (.inl hkind) h (succeeds_fill.mpr hfill))
    · have hnext := ih (by simp; omega : (before ++ [code]).length + codes.length ≤ 2) hnumbers
      simpa using hnext
  | @integer _ _ numbers parameter value n hkind h hrest ih =>
    simp only [List.length_cons] at hnumbers
    rw [List.foldlM_cons]
    refine succeeds_bind.mpr ⟨slots profile before (earlier ++ [n]), ?_, ?_⟩
    · have hfill := Slots.fill_holding (by simp; omega : (earlier.map Text.ofInt).length < 3) "0"
        (Text.ofInt n)
      simp only [slots, List.map_append, List.map_singleton]
      exact Fields.succeeds_add.mpr (.integer hkind h (succeeds_fill.mpr hfill))
    · have hnext := ih hcodes (by simp; omega : (earlier ++ [n]).length + numbers.length ≤ 3)
      simpa using hnext

def slotText (profile : Profile) (opcode : Int) (codes : List Text) (numbers : List Int) : Text :=
  actionLayout opcode
    [profile.emptyObject, codes.getD 0 profile.emptyObject, codes.getD 1 profile.emptyObject]
    [Text.ofInt (numbers.getD 0 0), Text.ofInt (numbers.getD 1 0), Text.ofInt (numbers.getD 2 0)]
    "0 0" [emptyString, emptyString]

theorem actionLayout_slots (profile : Profile) (opcode : Int) (codes : List Text)
    (numbers : List Int) :
    actionLayout opcode (profile.emptyObject :: (slots profile codes numbers).objects.values)
      (slots profile codes numbers).integers.values (slots profile codes numbers).point
      [emptyString, emptyString, emptyString, emptyString] = slotText profile opcode codes numbers := by
  have hobject : ∀ i < 2, (slots profile codes numbers).objects.values.getD i [] =
      codes.getD i profile.emptyObject := fun i hi => Slots.getD_holding hi _ _ _
  have hinteger : ∀ i < 3, (slots profile codes numbers).integers.values.getD i [] =
      Text.ofInt (numbers.getD i 0) := by
    intro i hi
    refine (Slots.getD_holding hi _ _ _).trans ?_
    simp only [List.getD_eq_getElem?_getD, List.getElem?_map]
    cases numbers[i]? <;> rfl
  simp only [actionLayout, slotText, List.getD_cons_succ, List.getD_cons_zero,
    hobject 0 (by omega), hobject 1 (by omega), hinteger 0 (by omega), hinteger 1 (by omega),
    hinteger 2 (by omega)]
  rfl

theorem Calls.succeeds_encode (h : Calls symbols line entry pairs)
    (hoverride : Text.upper entry.name ≠ "ACTIONOVERRIDE")
    (hfew : Text.FewDigits (Text.ofInt (toSigned32 entry.id)))
    (hplaces : Places symbols profile pairs codes numbers) (hcodes : codes.length ≤ 2)
    (hnumbers : numbers.length ≤ 3) :
    Succeeds (encode symbols profile line)
      (slotText profile (toSigned32 entry.id) codes numbers) := by
  obtain ⟨name, inside, values, hsplit, hentry, hvalues, hbind⟩ := h
  have hfields : Succeeds (pairs.foldlM (Fields.add symbols profile entry) (slots profile [] []))
      (slots profile codes numbers) :=
    hplaces.succeeds_foldlM entry (by simpa using hcodes) (by simpa using hnumbers)
  have hempty : Scope.Wrapped emptyString := ⟨rfl, rfl⟩
  have hpack := Scope.pack_string hempty symbols (-1)
  refine succeeds_encode_of hsplit hentry hoverride (succeeds_encodeCall.mpr ⟨values, pairs, _, _,
    hvalues, hbind, hfields, succeeds_packStrings.mpr hpack, hfew, ?_⟩)
  exact (actionLayout_slots profile _ codes numbers).symm

end Action

theorem exists_compileDialog {source : Source} (hwidths : profile.checkWidths = .ok ())
    (hlines : source.listing.lines = [line])
    (h : Succeeds (Action.encode symbols profile line.text) text) :
    ∃ compiled, compileDialog symbols profile source true = .ok compiled ∧
      compiled.errors.isEmpty ∧ compiled.code = text := by
  obtain ⟨remarks, houtcome, hfaultless⟩ := h
  have hencoded : Encoded.ofRole true symbols profile line.text = .ok { text, remarks } := by
    show Encoded.settle _ _ = _
    rw [Encoded.settle, houtcome]
  refine ⟨_, (compileDialog_singleton hlines).mpr ⟨hwidths, _, hencoded, rfl⟩, ?_, rfl⟩
  show (Finding.errors _).isEmpty
  rw [Finding.isEmpty_errors, Bool.not_eq_true', List.any_eq_false]
  intro remark hmem
  have hremark : remark ∈ remarks := by simpa [Encoded.onLine] using hmem
  cases remark with
  | error fault => exact absurd hremark (hfaultless fault)
  | warning warning => simp [Remark.isError]

-- --------------------
-- Decompiling
-- --------------------

def Parameter.IsSlot (parameter : Parameter) : Prop :=
  parameter.kind = .object ∨ parameter.kind = .integer ∧ parameter.table = none

instance (parameter : Parameter) : Decidable parameter.IsSlot := inferInstanceAs (Decidable (_ ∨ _))

theorem Argument.succeeds_literal (h : Text.literal value = .ok (some n)) (hword : IsWord n)
    (symbols : Symbols) (definition : Text) :
    Succeeds (encodeInteger symbols definition value) (Text.ofInt n) := by
  refine succeeds_ofPart.mpr ⟨pure (Text.ofInt n), ?_, rfl, by simp [Faultless]⟩
  refine Outcome.bind_ok.mpr ⟨n, Outcome.bind_ok.mpr ⟨some n, ?_, ?_⟩, rfl⟩
  · exact Refusal.ofNumeral_ok.mpr h
  · exact Refusal.ofNumeral_ok.mpr (Text.writable_of_isWord hword)

namespace Action

variable {symbols : Symbols} {profile : Profile}

/-- The objects that the decoder takes for parameters one after another. -/
def picks (objects : List Text) : Nat → Nat → List Text
  | 0, _ => []
  | count + 1, i => (pickObject objects i).1 :: picks objects count (pickObject objects i).2

/-- The arguments that the decoder prints for a signature of objects and numbers, when the
next ones are at the indices given. -/
def printed (objects : List Text) (integers : List Int) : Nat → Nat → Signature → List Text
  | _, _, [] => []
  | i, j, parameter :: signature =>
    if parameter.kind = .object then
      (pickObject objects i).1 :: printed objects integers (pickObject objects i).2 j signature
    else Text.ofInt (integers.getD j 0) :: printed objects integers i (j + 1) signature

theorem length_printed (objects : List Text) (integers : List Int) (i j : Nat)
    (signature : Signature) :
    (printed objects integers i j signature).length = signature.length := by
  induction signature generalizing i j with
  | nil => rfl
  | cons parameter signature ih =>
    rw [printed]
    split <;> simp [ih]

theorem mem_printed (h : value ∈ printed objects integers i j signature) :
    (∃ k, value = (pickObject objects k).1) ∨ ∃ n, value = Text.ofInt n := by
  induction signature generalizing i j with
  | nil => cases h
  | cons parameter signature ih =>
    rw [printed] at h
    split at h
    · rcases List.mem_cons.mp h with rfl | h
      · exact .inl ⟨i, rfl⟩
      · exact ih h
    · rcases List.mem_cons.mp h with rfl | h
      · exact .inr ⟨_, rfl⟩
      · exact ih h

/-- What is printed stands for the objects that are picked and for the numbers in their order. -/
theorem places_printed {objects codes : List Text} {integers : List Int} {signature : Signature}
    (hslots : ∀ parameter ∈ signature, parameter.IsSlot) (hwords : ∀ n ∈ integers, IsWord n)
    (hcodes : List.Forall₂ (fun object code => ∀ definition,
        Succeeds (Object.encode symbols profile definition object) code)
      (picks objects (Signature.count signature .object) i) codes)
    (hcount : j + Signature.count signature .integer ≤ integers.length) :
    Places symbols profile (signature.zip (printed objects integers i j signature)) codes
      ((integers.drop j).take (Signature.count signature .integer)) := by
  induction signature generalizing i j codes with
  | nil =>
    cases hcodes
    exact .nil
  | cons parameter signature ih =>
    obtain ⟨hslot, hslots⟩ := List.forall_mem_cons.mp hslots
    rcases hslot with hkind | ⟨hkind, -⟩
    · have hobject : Signature.count (parameter :: signature) .object =
          Signature.count signature .object + 1 := by simp [Signature.count, hkind]
      have hinteger : Signature.count (parameter :: signature) .integer =
          Signature.count signature .integer := by simp [Signature.count, hkind]
      rw [hobject, picks] at hcodes
      rw [hinteger] at hcount ⊢
      rw [printed, if_pos hkind, List.zip_cons_cons]
      cases hcodes with
      | cons hcode hcodes => exact .object hkind (hcode _) (ih hslots hcodes hcount)
    · have hobject : Signature.count (parameter :: signature) .object =
          Signature.count signature .object := by simp [Signature.count, hkind]
      have hinteger : Signature.count (parameter :: signature) .integer =
          Signature.count signature .integer + 1 := by simp [Signature.count, hkind]
      rw [hobject] at hcodes
      rw [hinteger] at hcount ⊢
      have hj : j < integers.length := by omega
      rw [printed, if_neg (by simp [hkind]), List.zip_cons_cons, List.drop_eq_getElem_cons hj,
        List.take_succ_cons]
      have hfound : integers.getD j 0 = integers[j] := by simp [hj]
      have hword := hwords integers[j] (List.getElem_mem hj)
      rw [hfound]
      exact .integer hkind (Argument.succeeds_literal (Text.literal_ofInt hword) hword symbols _)
        (ih hslots hcodes (by omega))

theorem ends_foldlM_printed {record : ActionRecord} {signature : Signature} {entry : Entry}
    {strings : Option (List (Option Text))} {objects : List Text}
    (hslots : ∀ parameter ∈ signature, parameter.IsSlot) (progress : Progress) :
    Expressing.Ends (fun result => result.arguments = progress.arguments ++
        printed objects record.integers progress.nextObject progress.nextInteger signature)
      (fun _ => False)
      (signature.foldlM (Progress.add symbols entry record strings objects) progress) := by
  induction signature generalizing progress with
  | nil => exact Expressing.ends_pure (by simp [printed])
  | cons parameter signature ih =>
    obtain ⟨hslot, hslots⟩ := List.forall_mem_cons.mp hslots
    rw [List.foldlM_cons]
    -- One parameter adds one argument and moves on to the next slot of its kind.
    refine Expressing.Ends.bind (P := fun next => next.arguments ++ printed objects
      record.integers next.nextObject next.nextInteger signature = progress.arguments ++
        printed objects record.integers progress.nextObject progress.nextInteger
          (parameter :: signature)) ?_ fun next hnext => hnext ▸ ih hslots next
    rcases hslot with hkind | ⟨hkind, htable⟩
    · simp only [Progress.add, Progress.addM, hkind]
      exact Expressing.ends_pure (by simp [printed, hkind])
    · simp only [Progress.add, Progress.addM, hkind, Argument.expressIntegerM, htable]
      refine Expressing.Ends.bind (P := (· = Text.ofInt (record.integers.getD progress.nextInteger 0)))
        (Expressing.ends_pure rfl) fun value hvalue => ?_
      have hprinted : progress.arguments ++ [value] ++ printed objects record.integers
          progress.nextObject (progress.nextInteger + 1) signature = progress.arguments ++
            printed objects record.integers progress.nextObject progress.nextInteger
              (parameter :: signature) := by
        simp [printed, hkind, hvalue]
      split
      · exact (Expressing.ends_note _).bind fun _ _ => Expressing.ends_pure hprinted
      · exact Expressing.ends_pure hprinted

def slotNumbers (numbers : List Int) : List Int :=
  [numbers.getD 0 0, numbers.getD 1 0, numbers.getD 2 0]

theorem countP_slotNumbers {numbers : List Int} (h : numbers.length ≤ 3) :
    (slotNumbers numbers).countP (· ≠ 0) = numbers.countP (· ≠ 0) := by
  match numbers, h with
  | [], _ => rfl
  | [_], _ => simp [slotNumbers, List.countP_cons]
  | [_, _], _ => simp [slotNumbers, List.countP_cons]
  | [_, _, _], _ => rfl

def slotFields (profile : Profile) (opcode : Int) (objects : List ObjectFields)
    (numbers : List Int) : ActionFields where
  opcode
  actor := profile.emptyFields
  object1 := objects.getD 0 profile.emptyFields
  object2 := objects.getD 1 profile.emptyFields
  first := numbers.getD 0 0
  x := 0
  y := 0
  second := numbers.getD 1 0
  third := numbers.getD 2 0
  string1 := emptyString
  string2 := emptyString

def slotObjects (symbols : Symbols) (profile : Profile) (objects : List ObjectFields) : List Text :=
  [objects.getD 0 profile.emptyFields, objects.getD 1 profile.emptyFields].map fun fields =>
    (Object.express symbols profile fields.record).value

theorem forall₂_getD {R : α → β → Prop} {xs : List α} {ys : List β} (h : List.Forall₂ R xs ys)
    (hdefault : R x y) (i : Nat) : R (xs.getD i x) (ys.getD i y) := by
  induction h generalizing i with
  | nil => exact hdefault
  | cons hfirst hrest ih =>
    cases i with
    | zero => exact hfirst
    | succ i => exact ih i

theorem isWord_of_literals {pairs : List (Parameter × Text)} {numbers : List Int}
    (h : List.Forall₂ (fun pair n => Text.literal pair.2 = .ok (some n) ∧ IsWord n) pairs numbers) :
    ∀ n ∈ numbers, IsWord n := by
  induction h with
  | nil => simp
  | cons hnumber _ ih => exact List.forall_mem_cons.mpr ⟨hnumber.2, ih⟩

theorem isWord_getD {numbers : List Int} (h : ∀ n ∈ numbers, IsWord n) (i : Nat) :
    IsWord (numbers.getD i 0) := by
  rw [List.getD_eq_getElem?_getD]
  cases hn : numbers[i]? with
  | none => decide
  | some n => exact h n (List.mem_of_getElem? hn)

theorem reads_slotFields (hprofile : profile.Sized) {objects : List ObjectFields} {codes : List Text}
    (hobjects : List.Forall₂ (fun fields code => fields.Reads profile code) objects codes)
    (hopcode : Text.FewDigits (Text.ofInt opcode)) (hnumbers : ∀ n ∈ numbers, IsWord n) :
    (slotFields profile opcode objects numbers).Reads profile profile.emptyObject
      (codes.getD 0 profile.emptyObject) (codes.getD 1 profile.emptyObject) := by
  have hempty := Profile.reads_emptyObject hprofile
  have hword := fun i => Text.fewDigits_of_isWord (isWord_getD hnumbers i)
  refine ⟨hempty, forall₂_getD hobjects hempty 0, forall₂_getD hobjects hempty 1,
    quoted_emptyString, quoted_emptyString, ?_⟩
  have hzero : Text.FewDigits (Text.ofInt 0) := by decide
  simp only [slotFields, List.mem_cons, List.not_mem_nil, or_false]
  rintro n (rfl | rfl | rfl | rfl | rfl | rfl)
  exacts [hopcode, hword 0, hzero, hzero, hword 1, hword 2]

def exceeds (objects : List Text) (integers : List Int) (signature : Signature) : Bool :=
  integers.countP (· ≠ 0) > Signature.count signature .integer ||
    objects.countP (· ≠ anyone) > Signature.count signature .object

theorem isExceeded_slots (objects : List Text) (integers : List Int) (signature : Signature) :
    signature.isExceeded integers [0, 0] objects (Scope.unpack symbols emptyString emptyString) =
      exceeds objects integers signature := by
  have hunpack : Scope.unpack symbols emptyString emptyString =
      [some emptyString, some emptyString, none, none] := by
    rw [Scope.unpack, Scope.unpackOne_emptyString]
    rfl
  simp [Signature.isExceeded, exceeds, hunpack]

/-- The decoder takes the definition for a record of objects and numbers. -/
def Defines (symbols : Symbols) (opcode : Int) (objects : List Text) (integers : List Int)
    (entry : Entry) : Prop :=
  ∃ base, symbols.byId? "ACTION.IDS" opcode = some base ∧
    symbols.definitionFor "ACTION.IDS" opcode base (exceeds objects integers) = .ok entry

theorem ends_express_slots {objects : List ObjectFields} {numbers : List Int}
    (hdefines : Defines symbols opcode (slotObjects symbols profile objects) (slotNumbers numbers) entry)
    (hsignature : entry.signature = .ok signature)
    (hslots : ∀ parameter ∈ signature, parameter.IsSlot) :
    Expressing.Ends (fun text => ∃ comment, text = Comment.append (callText entry (printed
        (slotObjects symbols profile objects) (slotNumbers numbers) 0 0 signature)) comment)
      (fun _ => False) (express symbols profile (slotFields profile opcode objects numbers).record) := by
  obtain ⟨base, hid, hdefinition⟩ := hdefines
  rw [express_eq]
  refine Expressing.Ends.bind (P := (· = anyone))
    (Expressing.ends_ofNoted (Object.express_emptyFields symbols profile)) fun actor hactor => ?_
  refine Expressing.Ends.bind (P := (· = slotObjects symbols profile objects))
    (Expressing.ends_ofNoted (Noted.value_mapM _ _)) fun texts htexts => ?_
  subst htexts
  have hopcode : (slotFields profile opcode objects numbers).record.opcode = opcode := rfl
  have hexceeds : (fun signature : Signature => signature.isExceeded
      (slotFields profile opcode objects numbers).record.integers [0, 0]
      (slotObjects symbols profile objects) (Scope.unpack symbols emptyString emptyString)) =
        exceeds (slotObjects symbols profile objects) (slotNumbers numbers) :=
    funext fun signature => isExceeded_slots _ _ signature
  simp only [hopcode, hid]
  refine Expressing.Ends.bind (P := (· = entry)) ?_ fun found hfound => ?_
  · show Expressing.Ends _ _ (DecodeError.ofSignature (symbols.definitionFor _ _ _ fun signature =>
      signature.isExceeded (slotFields profile opcode objects numbers).record.integers [0, 0]
        (slotObjects symbols profile objects) (Scope.unpack symbols emptyString emptyString)))
    rw [hexceeds, hdefinition]
    exact Expressing.ends_pure rfl
  subst hfound
  refine Expressing.Ends.bind (P := (· = signature)) ?_ fun found hfound => ?_
  · rw [hsignature]
    exact Expressing.ends_pure rfl
  subst hfound
  refine (ends_foldlM_printed hslots {}).bind fun progress hprogress => ?_
  refine Expressing.ends_pure ⟨progress.comment, ?_⟩
  rw [if_pos hactor, hprogress]
  rfl

theorem length_picks (objects : List Text) (count i : Nat) :
    (picks objects count i).length = count := by
  induction count generalizing i with
  | zero => rfl
  | succ count ih => rw [picks, List.length_cons, ih]

end Action

/-- The definition is found by its name, has the id of the record, and takes objects and
numbers for which there are slots. -/
structure Action.Prints (symbols : Symbols) (opcode : Int) (entry : Entry) (signature : Signature) :
    Prop extends Callable symbols "ACTION.IDS" entry where
  id : toSigned32 entry.id = opcode
  override : Text.upper entry.name ≠ "ACTIONOVERRIDE"
  signature_eq : entry.signature = .ok signature
  slots : ∀ parameter ∈ signature, parameter.IsSlot
  objects : Signature.count signature .object ≤ 2
  integers : Signature.count signature .integer ≤ 3

/-- A record of objects and numbers is decompiled to a call of its definition, and the call is
compiled to the record that holds what was printed. -/
theorem Action.exists_recompiled {decompiler : Decompiler} {objects : List ObjectFields}
    {codes printedCodes : List Text} {numbers : List Int} {entry : Entry} {signature : Signature}
    (hprofile : decompiler.profile.Sized) (hwidths : decompiler.profile.checkWidths = .ok ())
    (hobjects : List.Forall₂ (fun fields code => fields.Reads decompiler.profile code) objects codes)
    (hopcode : Text.FewDigits (Text.ofInt opcode)) (hnumbers : ∀ n ∈ numbers, IsWord n)
    (hdefines : Defines decompiler.symbols opcode
      (slotObjects decompiler.symbols decompiler.profile objects) (slotNumbers numbers) entry)
    (hprints : Prints decompiler.symbols opcode entry signature)
    (hspoken : ∀ text ∈ slotObjects decompiler.symbols decompiler.profile objects, Call.Spoken text)
    (hagain : List.Forall₂ (fun object code => ∀ definition,
        Succeeds (Object.encode decompiler.symbols decompiler.profile definition object) code)
      (picks (slotObjects decompiler.symbols decompiler.profile objects)
        (Signature.count signature .object) 0) printedCodes)
    (collect : Bool) :
    ∃ decompiled again comment,
      decompiler.decompileDialog (slotText decompiler.profile opcode codes numbers) true collect =
        .ok decompiled ∧
      decompiled.source = Comment.append (callText entry (printed (slotObjects decompiler.symbols
        decompiler.profile objects) (slotNumbers numbers) 0 0 signature)) comment ++ "\n" ∧
      compileDialog decompiler.symbols decompiler.profile (.text decompiled.source) true = .ok again ∧
      again.errors.isEmpty ∧ again.code = slotText decompiler.profile opcode printedCodes
        ((slotNumbers numbers).take (Signature.count signature .integer)) := by
  obtain ⟨chunk, htext, comment, hline⟩ := (reads_slotFields hprofile hobjects hopcode
    hnumbers).exists_chunk hprofile (ends_express_slots hdefines hprints.signature_eq hprints.slots)
  obtain ⟨decompiled, hdecompile, hsource⟩ := decompiler.decompileDialog_chunk true chunk collect
  rw [hline] at hsource
  have hwords : ∀ n ∈ slotNumbers numbers, IsWord n := by
    have hword := isWord_getD hnumbers
    simp only [slotNumbers, List.forall_mem_cons]
    exact ⟨hword 0, hword 1, hword 2, by simp⟩
  -- What is printed is an object that was picked or a number, and stands for itself.
  have hvalues : ∀ value ∈ printed (slotObjects decompiler.symbols decompiler.profile objects)
      (slotNumbers numbers) 0 0 signature, Call.Spoken value := by
    intro value hvalue
    rcases mem_printed hvalue with ⟨k, rfl⟩ | ⟨n, rfl⟩
    · exact pickObject_mem Call.spoken_anyone hspoken k
    · exact Call.spoken_ofInt n
  have hlisting := hprints.toCallable.listing_callText hvalues comment
  have hcalls := hprints.toCallable.calls_callText hprints.signature_eq (length_printed _ _ _ _ _)
    fun value hvalue => (hvalues value hvalue).toIsArgument
  have hplaces := places_printed (j := 0) hprints.slots hwords hagain
    (by simpa [slotNumbers] using hprints.integers)
  have hcodes : printedCodes.length ≤ 2 := by
    rw [← hagain.length_eq, length_picks]
    exact hprints.objects
  have hcount : ((slotNumbers numbers).take (Signature.count signature .integer)).length ≤ 3 :=
    List.length_take_le' _ _
  have hencode := hcalls.succeeds_encode hprints.override (hprints.id ▸ hopcode) hplaces hcodes hcount
  obtain ⟨again, hcompile, herrors, hcode⟩ := exists_compileDialog hwidths
    (hsource ▸ hlisting) hencode
  rw [htext] at hdecompile
  refine ⟨decompiled, again, comment, hdecompile, hsource, hcompile, herrors, ?_⟩
  rw [hcode, hprints.id]
  rfl

theorem exists_recompiled_of_any (decompiler : Decompiler) (source : Source)
    (P : Compiled → Decompiled → Compiled → Prop) [∀ a b c, Decidable (P a b c)]
    (h : (compileDialog decompiler.symbols decompiler.profile source true).toOption.any fun compiled =>
      (decompiler.decompileDialog compiled.code true true).toOption.any fun decompiled =>
        (compileDialog decompiler.symbols decompiler.profile (.text decompiled.source)
          true).toOption.any fun again => P compiled decompiled again) :
    ∃ compiled decompiled again,
      compileDialog decompiler.symbols decompiler.profile source true = .ok compiled ∧
      decompiler.decompileDialog compiled.code true true = .ok decompiled ∧
      compileDialog decompiler.symbols decompiler.profile (.text decompiled.source) true = .ok again ∧
      P compiled decompiled again := by
  obtain ⟨compiled, hcompile, h⟩ := Outcome.exists_of_any h
  obtain ⟨decompiled, hdecompile, h⟩ := Outcome.exists_of_any h
  obtain ⟨again, hagain, h⟩ := Outcome.exists_of_any h
  exact ⟨compiled, decompiled, again, hcompile, hdecompile, hagain, of_decide_eq_true h⟩

end InfinityScript
