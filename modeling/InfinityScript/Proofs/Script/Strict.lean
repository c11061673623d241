import Mathlib.Data.List.Basic
import InfinityScript.Proofs.Argument.Short
import InfinityScript.Proofs.Script.Halts

/-!
# Encoders that look before they take

An encoder takes the first and the last character of a text, and the slots of a record, as
if they were there. The strict encoders of this module halt where they are not, and come to
the same on every line of a source (`Trigger.encodeStrict_eq`, `Action.encodeStrict_eq`).
Objects and points take a character only behind a test that there is one; they have no
strict form. So a source is always compiled, its statements at fault or not, up to the number
of digits that can be converted (`compile_returns`).
-/

namespace InfinityScript

variable {symbols : Symbols} {profile : Profile}

namespace Encoding

variable {α β : Type}

/-- Halts for a text that has no character to take. -/
def demand (text : Text) : Encoding Unit :=
  if text = [] then throw (.halt .emptyText) else pure ()

def demandSlots (count : Nat) (slots : List Text) : Encoding Unit :=
  if slots.length < count then throw (.halt .slotOutOfRange) else pure ()

theorem demand_bind (h : text ≠ []) (f : Unit → Encoding α) : demand text >>= f = f () := by
  rw [demand, if_neg h]
  rfl

theorem demandSlots_bind {slots : List Text} (h : count ≤ slots.length) (f : Unit → Encoding α) :
    demandSlots count slots >>= f = f () := by
  rw [demandSlots, if_neg (Nat.not_lt.mpr h)]
  rfl

theorem ofExcept_bind (x : Except Fault α) (f : α → Except Fault β) :
    ofExcept (x >>= f) = ofExcept x >>= fun a => ofExcept (f a) := by
  cases x with
  | ok a => rfl
  | error fault => rfl

end Encoding

open Encoding

namespace Call

def mendStrict (delimiter : Delimiter) (argument : Text) (pieces : List Text) :
    Encoding (Text × { rest : List Text // rest.length ≤ pieces.length }) := do
  demand argument
  ofExcept (mend delimiter argument pieces)

/-- `assemble`, taking the first character of each argument twice. -/
def assembleStrict (first second : Delimiter) : List Text → Encoding (List Text)
  | [] => pure []
  | piece :: pieces => do
    let (argument, ⟨pieces₁, _⟩) ← mendStrict first (Text.trim piece) pieces
    let (argument, ⟨pieces₂, _⟩) ← mendStrict second argument pieces₁
    let arguments ← assembleStrict first second pieces₂
    return argument :: arguments
termination_by pieces => pieces.length
decreasing_by simp; omega

def argumentsStrict (text : Text) (quotesFirst : Bool) : Encoding (List Text) :=
  let pieces := (Text.splitOn ',' text).filter fun piece => Text.trim piece ≠ []
  if quotesFirst then assembleStrict .quote .bracket pieces
  else assembleStrict .bracket .quote pieces

theorem mendStrict_eq (h : argument ≠ []) (delimiter : Delimiter) (pieces : List Text) :
    mendStrict delimiter argument pieces = ofExcept (mend delimiter argument pieces) :=
  demand_bind h _

theorem assembleStrict_eq {pieces : List Text} (h : ∀ piece ∈ pieces, Text.trim piece ≠ []) :
    assembleStrict first second pieces = ofExcept (assemble first second pieces) := by
  induction hlength : pieces.length using Nat.strongRecOn generalizing pieces with
  | ind n ih =>
    cases pieces with
    | nil =>
      rw [assembleStrict, assemble]
      rfl
    | cons piece pieces =>
      obtain ⟨hpiece, hpieces⟩ := List.forall_mem_cons.mp h
      rw [assembleStrict, assemble, mendStrict_eq hpiece, ofExcept_bind]
      refine Ends.bind_congr (H := fun _ => True) (ends_ofExcept fun _ hmend => hmend) ?_
      rintro ⟨opened, pieces₁, hle₁⟩ hfirst
      obtain ⟨-, hsub₁, hne₁⟩ := mend_ok hfirst
      dsimp only
      rw [mendStrict_eq (hne₁ hpiece), ofExcept_bind]
      refine Ends.bind_congr (H := fun _ => True) (ends_ofExcept fun _ hmend => hmend) ?_
      rintro ⟨closed, pieces₂, hle₂⟩ hsecond
      obtain ⟨-, hsub₂, -⟩ := mend_ok hsecond
      dsimp only
      have hlt : pieces₂.length < n := by
        simp only [List.length_cons] at hlength
        have := Nat.le_trans hle₂ hle₁
        omega
      rw [ih _ hlt (fun other hother => hpieces other (hsub₁ (hsub₂ hother))) rfl, ofExcept_bind]
      rfl

/-- The pieces that are left when the blank ones are dropped have a character each. -/
theorem argumentsStrict_eq (text : Text) (quotesFirst : Bool) :
    argumentsStrict text quotesFirst = ofExcept (arguments text quotesFirst) := by
  have hpieces : ∀ piece ∈ (Text.splitOn ',' text).filter fun piece => Text.trim piece ≠ [],
      Text.trim piece ≠ [] := by
    intro piece hpiece
    simpa using (List.mem_filter.mp hpiece).2
  unfold argumentsStrict arguments
  dsimp only
  split
  · exact assembleStrict_eq hpieces
  · exact assembleStrict_eq hpieces

end Call

/-- `Trigger.encode`, taking the first character of the line and five slots of the record. -/
def Trigger.encodeStrict (symbols : Symbols) (profile : Profile) (line : Text) :
    Encoding (Text × Int) := do
  demand line
  let (name, arguments) ← ofExcept (Call.split (signed line).2)
  let entry ← ofExcept (symbols.function "TRIGGER.IDS" name)
  let arguments ← Call.argumentsStrict arguments true
  let bound ← ofExcept (Call.bind entry arguments)
  let fields ← bound.foldlM (Fields.add symbols profile entry) { object := profile.emptyObject }
  let opcode := toSigned32 entry.id
  let strings ← packStrings symbols opcode fields.strings.values
  demandSlots 3 fields.integers.values
  demandSlots 2 strings
  let opcode ← ofNumeral (Text.writable opcode)
  return (profile.triggerLayout opcode (signed line).1 fields.integers.values fields.point strings
    fields.object, orCount entry fields)

namespace Action

def Fields.addStrict (symbols : Symbols) (profile : Profile) (entry : Entry) (fields : Fields)
    (argument : Parameter × Text) : Encoding Fields := do
  if argument.1.kind = .string ∧ fields.strings.next = 2 then demand argument.2
  fields.add symbols profile entry argument

/-- `encodeCall`, taking seven slots of the record and one for the actor. -/
def encodeCallStrict (symbols : Symbols) (profile : Profile) (actor : Text) (entry : Entry)
    (arguments : Text) : Encoding Text := do
  let arguments ← Call.argumentsStrict arguments false
  let bound ← ofExcept (Call.bind entry arguments)
  let fields ← bound.foldlM (Fields.addStrict symbols profile entry)
    { objects := .blank 2 profile.emptyObject }
  let strings ← packStrings symbols (-1) fields.strings.values
  demandSlots 3 (actor :: fields.objects.values)
  demandSlots 3 fields.integers.values
  demandSlots 2 strings
  let opcode ← ofNumeral (Text.writable (toSigned32 entry.id))
  return actionLayout opcode (actor :: fields.objects.values) fields.integers.values fields.point
    strings

def encodeStrict (symbols : Symbols) (profile : Profile) (line : Text) : Encoding Text := do
  let (name, arguments) ← ofExcept (Call.split line)
  let entry ← ofExcept (symbols.function "ACTION.IDS" name)
  if Text.upper entry.name = "ACTIONOVERRIDE" then
    match Text.cut? ',' arguments with
    | none => throw (.fault (.tooFewArguments (entry.parameters.getD [])))
    | some (target, inner) => do
      let actor ← Object.encode symbols profile "O:Actor*" (Text.trim target)
      let (name, arguments) ← ofExcept (Call.split (Text.trim inner))
      let entry ← ofExcept (symbols.function "ACTION.IDS" name)
      encodeCallStrict symbols profile actor entry arguments
  else encodeCallStrict symbols profile profile.emptyObject entry arguments

end Action

theorem Trigger.encodeStrict_eq (hline : line ≠ []) :
    encodeStrict symbols profile line = encode symbols profile line := by
  have hC := conversions_any symbols
  rw [encodeStrict, demand_bind hline, encode]
  refine Ends.bind_congr (P := fun _ => True) (H := fun _ => True)
    (ends_ofExcept fun _ _ => trivial) fun parts _ => ?_
  refine Ends.bind_congr (P := fun _ => True) (H := fun _ => True)
    (ends_ofExcept fun _ _ => trivial) fun entry _ => ?_
  rw [Call.argumentsStrict_eq]
  refine Ends.bind_congr (H := fun _ => True) (ends_ofExcept fun _ hvalues => hvalues)
    fun values hvalues => ?_
  refine Ends.bind_congr (Call.ends_bind hC trivial hvalues entry) fun bound hbound => ?_
  refine Ends.bind_congr (P := Fields.Ready) (H := fun _ => True) (ends_foldlM (Fields.ready _) ?_)
    fun fields hfields => ?_
  · exact fun fields argument hmem hfields =>
      fields.ends_add hC (fun _ _ => trivial) entry hfields trivial (hbound argument hmem).2
  · refine Ends.bind_congr (H := fun _ => True) (ends_packStrings hfields.strings.all.2 _)
      fun strings hstrings => ?_
    rw [demandSlots_bind (Nat.le_of_eq hfields.integers.all.1.symm), demandSlots_bind]
    rw [hstrings, hfields.strings.all.1]
    decide

theorem Action.Fields.addStrict_eq (fields : Fields) (hargument : argument.2 ≠ []) (entry : Entry) :
    fields.addStrict symbols profile entry argument = fields.add symbols profile entry argument := by
  unfold addStrict
  split
  · exact demand_bind hargument _
  · rfl

theorem Action.encodeCallStrict_eq (actor : Text) (entry : Entry) (inside : Text) :
    encodeCallStrict symbols profile actor entry inside =
      encodeCall symbols profile actor entry inside := by
  have hC := conversions_any symbols
  rw [encodeCallStrict, encodeCall, Call.argumentsStrict_eq]
  refine Ends.bind_congr (H := fun _ => True) (ends_ofExcept fun _ hvalues => hvalues)
    fun values hvalues => ?_
  refine Ends.bind_congr (Call.ends_bind hC trivial hvalues entry) fun bound hbound => ?_
  have hfold : bound.foldlM (Fields.addStrict symbols profile entry)
        { objects := .blank 2 profile.emptyObject } =
      bound.foldlM (Fields.add symbols profile entry)
        { objects := .blank 2 profile.emptyObject } := by
    generalize ({ objects := .blank 2 profile.emptyObject } : Fields) = fields
    induction bound generalizing fields with
    | nil => rfl
    | cons argument bound ih =>
      rw [List.foldlM_cons, List.foldlM_cons,
        fields.addStrict_eq (hbound argument (by simp)).2 entry]
      exact bind_congr fun next => ih (fun other hother => hbound other (by simp [hother])) next
  rw [hfold]
  refine Ends.bind_congr (P := Fields.Ready) (H := fun _ => True) (ends_foldlM (Fields.ready _) ?_)
    fun fields hfields => ?_
  · exact fun fields argument hmem hfields =>
      fields.ends_add hC (fun _ _ => trivial) entry hfields trivial (hbound argument hmem).2
  · refine Ends.bind_congr (H := fun _ => True) (ends_packStrings hfields.strings.all.2 _)
      fun strings hstrings => ?_
    rw [demandSlots_bind, demandSlots_bind (Nat.le_of_eq hfields.integers.all.1.symm),
      demandSlots_bind]
    · rw [hstrings, hfields.strings.all.1]
      decide
    · exact Nat.le_of_eq (congrArg (· + 1) hfields.objects.all.1.symm)

theorem Action.encodeStrict_eq (line : Text) :
    encodeStrict symbols profile line = encode symbols profile line := by
  have hcall : encodeCallStrict symbols profile = encodeCall symbols profile := by
    funext actor entry inside
    exact encodeCallStrict_eq actor entry inside
  unfold encodeStrict
  rw [hcall]
  rfl

def Halt.IsNumeral (reason : Halt) : Prop := ∃ fault, reason = .numeral fault

theorem conversions_numeral (symbols : Symbols) :
    Conversions symbols (fun _ => True) Halt.IsNumeral where
  part _ _ := trivial
  integer definition value _ := by
    have hnumeral : ∀ {α : Type} (x : Except NumeralFault α),
        Outcome.Ends (fun _ => True) (Refusal.Only Halt.IsNumeral) (Refusal.ofNumeral x) := fun x =>
      Outcome.ends_ofNumeral (fun _ _ => trivial) fun fault _ => ⟨fault, rfl⟩
    unfold Argument.integer
    generalize Text.writable = writable
    refine (hnumeral _).bind fun literal _ => ?_
    cases literal with
    | some n => exact hnumeral _
    | none =>
      exact (Outcome.ends_ofFault (P := fun _ => True) (fun _ _ => trivial) fun _ _ =>
        trivial).bind fun n _ => hnumeral _
  number _ _ fault _ := ⟨fault, rfl⟩
  id _ _ fault _ := ⟨fault, rfl⟩

/-- Any source is compiled with any symbols, for a profile that can write its zeros out: on each
line the encoders take what is there, and a number of too many digits is all that can halt
them. Short lines and small ids have no such number. -/
theorem compile_returns (hprofile : profile.HasZeros) (symbols : Symbols) (source : Source) :
    (∀ line ∈ source.listing.lines,
      Trigger.encodeStrict symbols profile line.text = Trigger.encode symbols profile line.text ∧
        Action.encodeStrict symbols profile line.text = Action.encode symbols profile line.text) ∧
      (∀ reason, compile symbols profile source = .error reason → reason.IsNumeral) ∧
      (∀ isAction reason, compileDialog symbols profile source isAction = .error reason →
        reason.IsNumeral) ∧
      (symbols.IsRead → symbols.HasSmallIds → (∀ line ∈ source.listing.lines, line.text.IsShort) →
        (compile symbols profile source).isOk ∧
          ∀ isAction, (compileDialog symbols profile source isAction).isOk) := by
  have hany : Compilable (fun _ => True) profile source := ⟨hprofile, fun _ _ => trivial⟩
  have hC := conversions_numeral symbols
  refine ⟨fun line hline => ⟨?_, Action.encodeStrict_eq _⟩, fun reason h => ?_,
    fun isAction reason h => ?_, fun hread hids hlines => ?_⟩
  · exact Trigger.encodeStrict_eq (Source.exists_physicalLine hline).1
  · have hends := hany.ends_compile hC
    rw [h] at hends
    exact hends
  · have hends := hany.ends_compileDialog hC isAction
    rw [h] at hends
    exact hends
  · have hshort : Compilable Text.IsShort profile source := ⟨hprofile, hlines⟩
    have hC := conversions_short hids hread
    exact ⟨(hshort.ends_compile hC).isOk fun _ => id,
      fun isAction => (hshort.ends_compileDialog hC isAction).isOk fun _ => id⟩

theorem compile_returns_broken :
    let symbols : Symbols := .build [(Table.read "TRIGGER" "1 See(O:Object*)").value,
      (Table.read "ACTION" "2 Say(S:A*,S:B*,S:C*)").value] [] [] [] none
    let source : Source :=
      .text "IF\n!\nSee([)\nTHEN\nRESPONSE #1\nSay(\"a\",,\"b\",c)\nSay(\",)\nEND\n"
    let object : Text := "OB\n0 0 0 0 0 0 0 0 0 0 0 0 \"\"OB\n"
    ∃ compiled, compile symbols (.ofGame .none) source = .ok compiled ∧
      compiled.code = ("SC\nCR\nCO\nError - Missing parenthesis\n" ++
        "Error - Missing end bracket - [\nCO\nRS\nRE\n1AC\n2").toList ++ object ++
        ("Error - Unknown symbol - c\n").toList ++ object ++
        ("0 0 0 0 0\"a\" \"b\" AC\nError - Missing end quote - \"\nRE\nRS\nCR\nSC\n").toList := by
  intro symbols source object
  obtain ⟨-, -, -, hreturns⟩ := compile_returns (Profile.hasZeros_ofGame .none) symbols source
  have hread : symbols.IsRead := by
    refine ⟨_, _, _, _, _, rfl, fun table hmem => ?_⟩
    rcases List.mem_cons.mp hmem with rfl | hmem
    · exact ⟨_, _, rfl⟩
    · exact ⟨_, _, List.mem_singleton.mp hmem⟩
  have hids : ∀ table ∈ symbols.tables.toList, ∀ entry ∈ table.2.entries.toList,
      entry.id.natAbs < 10 ^ 4000 := by decide +kernel
  have hlines : ∀ line ∈ source.listing.lines, line.text.IsShort := by decide +kernel
  obtain ⟨compiled, hcompiled⟩ := Outcome.isOk_iff.mp (hreturns hread hids hlines).1
  have hcode : (compile symbols (.ofGame .none) source).toOption.any fun compiled =>
      compiled.code = ("SC\nCR\nCO\nError - Missing parenthesis\n" ++
        "Error - Missing end bracket - [\nCO\nRS\nRE\n1AC\n2").toList ++ object ++
        ("Error - Unknown symbol - c\n").toList ++ object ++
        ("0 0 0 0 0\"a\" \"b\" AC\nError - Missing end quote - \"\nRE\nRS\nCR\nSC\n").toList := by
    decide +kernel
  rw [hcompiled] at hcode
  exact ⟨compiled, hcompiled, of_decide_eq_true hcode⟩

/-- A leading width far below zero leaves so many trailing numbers that their zeros cannot be
written out, although the record of the vector has none of them; and a hexadecimal literal,
which is read at any length, can be too long a number to be written. -/
theorem compile_unwritable :
    let symbols : Symbols := .build [(Table.read "TRIGGER" "1 See(O:Object*)\n2 Wait(I:Time*)").value,
      (Table.read "EA" "255 ENEMY").value] [] [] [] none
    let profile : Profile := .custom .none ["EA.IDS"] (some (-4611686018427387904)) false false
    let literal : Text := "0x" ++ List.replicate 3600 'F'
    compile symbols profile (.text "IF\nSee([ENEMY])\nTHEN\nEND\n") =
        .error (.repetition .lengthOutOfRange) ∧
      compile symbols (.ofGame .none) (.text ("IF\nWait(" ++ literal ++ ")\nTHEN\nEND\n")) =
        .error (.numeral .tooLarge) := by
  intro symbols profile literal
  exact ⟨Outcome.eq_error_of_map (by decide +kernel), Outcome.eq_error_of_map (by decide +kernel)⟩

end InfinityScript
