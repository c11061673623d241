import InfinityScript.Proofs.Argument.Words
import InfinityScript.Proofs.Script.KeptArguments

/-!
# Records that fit into words

A statement that is encoded without a fault becomes a record of numbers, strings and areas.
All of its numbers are in the signed range exactly when the numbers that the statement has for
its integers, its point and its vectors fit (`Statement.areWords_iff`). The opcode and the
qualifiers of objects, which come of symbols, always do.
-/

namespace InfinityScript

open Encoding

-- --------------------
-- Fields without an argument
-- --------------------

theorem eq_of_lastOf_eq_none {σ τ : Type} {f : σ → Parameter × Text → Encoding σ}
    {init final : σ} {arguments : List (Parameter × Text)} (get : σ → τ)
    (h : Succeeds (arguments.foldlM f init) final) (hnone : lastOf kind arguments = none)
    (hstep : ∀ state next argument, argument.1.kind ≠ kind → Succeeds (f state argument) next →
      get next = get state) : get final = get init := by
  refine accumulate_foldlM (I := fun arguments state =>
    lastOf kind arguments = none → get state = get init) h (fun _ => rfl) ?_ hnone
  intro before state next argument hbefore hnext hlast
  rw [lastOf_append] at hlast
  split at hlast
  · cases hlast
  · next hkind => rw [hstep state next argument hkind hnext, hbefore hlast]

namespace Trigger

variable {symbols : Symbols} {profile : Profile} {entry : Entry} {fields next : Fields}
  {argument : Parameter × Text}

theorem Fields.add_eq (h : Succeeds (Fields.add symbols profile entry fields argument) next) :
    (argument.1.kind ≠ .object → next.object = fields.object) ∧
      (argument.1.kind ≠ .point → next.point = fields.point) := by
  cases Fields.succeeds_add.mp h with
  | string | integer | action => exact ⟨fun _ => rfl, fun _ => rfl⟩
  | object hkind _ => exact ⟨fun hne => absurd hkind hne, fun _ => rfl⟩
  | point hkind => exact ⟨fun _ => rfl, fun hne => absurd hkind hne⟩

end Trigger

namespace Action

variable {symbols : Symbols} {profile : Profile} {entry : Entry} {fields next : Fields}
  {argument : Parameter × Text}

theorem Fields.add_point (h : Succeeds (Fields.add symbols profile entry fields argument) next)
    (hne : argument.1.kind ≠ .point) : next.point = fields.point := by
  cases Fields.succeeds_add.mp h with
  | string | integer | object | action => rfl
  | point hkind _ => exact absurd hkind hne

end Action

-- --------------------
-- Slots
-- --------------------

theorem forall_iff_of_forall₂ {R : α → β → Prop} {P : α → Prop} {Q : β → Prop} {as : List α}
    {bs : List β} (h : List.Forall₂ R as bs) (hiff : ∀ a b, R a b → (Q b ↔ P a)) :
    (∀ b ∈ bs, Q b) ↔ ∀ a ∈ as, P a := by
  induction h with
  | nil => simp
  | cons hfirst _ ih => rw [List.forall_mem_cons, List.forall_mem_cons, ih, hiff _ _ hfirst]

theorem exists_integers {slots : Slots} (h : IsNumbers symbols arguments numbers)
    (hslots : slots.Holds 3 "0" (numbers.map Text.ofInt)) :
    ∃ integers : List Int, integers.length = 3 ∧ slots.values = integers.map Text.ofInt ∧
      ((∀ n ∈ integers, IsWord n) ↔ ∀ argument ∈ arguments, argument.1.kind = .integer →
        Argument.ValueFits symbols argument.1.definition argument.2) := by
  have hroom : numbers.length ≤ 3 := by simpa using hslots.room
  refine ⟨numbers ++ List.replicate (3 - numbers.length) 0, ?_, ?_, ?_⟩
  · rw [List.length_append, List.length_replicate]
    omega
  · rw [hslots.values_eq, List.map_append, List.map_replicate, List.length_map]
    rfl
  · have hnumbers : (∀ n ∈ numbers, IsWord n) ↔ _ :=
      forall_iff_of_forall₂ h fun argument n hn => Argument.isWord_integer_iff hn
    rw [List.forall_mem_append, and_iff_left (Object.forall_isWord_zeros _), hnumbers]
    simp

theorem head?_of_packStrings (h : Succeeds (packStrings symbols opcode strings) packed) :
    ∀ text ∈ packed, text.head? = some '"' := by
  have hpack := succeeds_packStrings.mp h
  refine Scope.all_pack_of (fun _ hvalue _ => ?_) rfl hpack (Scope.head?_of_pack hpack)
  obtain ⟨rest, rfl⟩ := List.head?_eq_some_iff.mp hvalue
  rfl

namespace Object

variable {symbols : Symbols} {profile : Profile}

/-- The text is the record of an expression, or without one that of an object that says
nothing. -/
def StandsFor (symbols : Symbols) (profile : Profile) (source : Option Text) (text : Text) : Prop :=
  match source with
  | none => text = profile.emptyObject
  | some value => ∃ definition, Succeeds (encode symbols profile definition value) text

variable (hsymbols : symbols.Made Entry.HasWord) (hprofile : profile.Regular)

include hsymbols hprofile

theorem StandsFor.exists_numbers (h : StandsFor symbols profile source text) :
    ∃ numbers : Numbers, numbers.In profile text ∧ (∀ n ∈ numbers.qualifiers, IsWord n) ∧
      (numbers.AreWords ↔ ∀ value ∈ source, LiteralsFit symbols profile value) := by
  cases source with
  | none =>
    obtain ⟨numbers, hin, hwords⟩ := exists_numbers_emptyObject profile
    exact ⟨numbers, h ▸ hin, hwords.qualifiers, iff_of_true hwords (by simp)⟩
  | some value =>
    obtain ⟨definition, hencode⟩ := h
    obtain ⟨part, hcode, rfl, -⟩ := succeeds_ofPart.mp hencode
    simpa using exists_numbers_code hsymbols hprofile hcode

theorem exists_numbers_of_forall₂ {sources : List (Option Text)} {texts : List Text}
    (h : List.Forall₂ (StandsFor symbols profile) sources texts) :
    ∃ objects : List Numbers,
      List.Forall₂ (fun numbers text => Numbers.In profile text numbers) objects texts ∧
      (∀ object ∈ objects, ∀ n ∈ object.qualifiers, IsWord n) ∧
      ((∀ object ∈ objects, object.AreWords) ↔
        ∀ source ∈ sources, ∀ value ∈ source, LiteralsFit symbols profile value) := by
  induction h with
  | nil => exact ⟨[], .nil, by simp, by simp⟩
  | cons hfirst _ ih =>
    obtain ⟨numbers, hin, hqualifiers, hwords⟩ := hfirst.exists_numbers hsymbols hprofile
    obtain ⟨objects, hins, hothers, hall⟩ := ih
    refine ⟨numbers :: objects, .cons hin hins, List.forall_mem_cons.mpr ⟨hqualifiers, hothers⟩, ?_⟩
    rw [List.forall_mem_cons, List.forall_mem_cons, hwords, hall]

end Object

-- --------------------
-- Records
-- --------------------

structure RecordNumbers where
  opcode : Int
  integers : List Int
  point : List Int
  objects : List Object.Numbers

namespace RecordNumbers

/-- The text is a record with these numbers: three integers, the point, and the object of a
trigger or the actor and the two objects of an action. Its strings begin with a quote. -/
def In (numbers : RecordNumbers) (isAction : Bool) (profile : Profile) (text : Text) : Prop :=
  numbers.integers.length = 3 ∧ ∃ objects strings,
    List.Forall₂ (fun numbers text => Object.Numbers.In profile text numbers) numbers.objects objects ∧
    (∀ string ∈ strings, string.head? = some '"') ∧
    if isAction then
      numbers.objects.length = 3 ∧ text = actionLayout numbers.opcode objects
        (numbers.integers.map Text.ofInt) (Text.join " " (numbers.point.map Text.ofInt)) strings
    else
      ∃ negated point object, objects = [object] ∧
        numbers.point = (if profile.hasTriggerPoint then Text.pointNumbers point else []) ∧
        text = profile.triggerLayout numbers.opcode negated (numbers.integers.map Text.ofInt) point
          strings object

structure AreWords (numbers : RecordNumbers) : Prop where
  opcode : IsWord numbers.opcode
  integers : ∀ n ∈ numbers.integers, IsWord n
  point : ∀ n ∈ numbers.point, IsWord n
  objects : ∀ object ∈ numbers.objects, object.AreWords

end RecordNumbers

namespace Statement

def objects (symbols : Symbols) (isAction : Bool) (line : Text) (arguments : List (Parameter × Text)) :
    List Text :=
  if isAction then
    ((Action.call symbols line).toOption.bind Prod.fst).toList ++
      (Action.objectArguments arguments).map Prod.snd
  else (lastOf .object arguments).toList.map Prod.snd

def pointNumbers (isAction : Bool) (profile : Profile) (argument : Parameter × Text) : List Int :=
  if isAction then (Argument.point argument.1.definition argument.2).toOption.getD []
  else if profile.hasTriggerPoint then Text.pointNumbers argument.2 else []

/-- The numbers of the statement fit into its record. -/
structure LiteralsFit (symbols : Symbols) (profile : Profile) (isAction : Bool) (line : Text)
    (arguments : List (Parameter × Text)) : Prop where
  integers : ∀ argument ∈ arguments, argument.1.kind = .integer →
    Argument.ValueFits symbols argument.1.definition argument.2
  point : ∀ argument ∈ lastOf .point arguments, ∀ n ∈ pointNumbers isAction profile argument, IsWord n
  objects : ∀ value ∈ objects symbols isAction line arguments, Object.LiteralsFit symbols profile value

end Statement

theorem RecordNumbers.areWords_iff_parts {numbers : RecordNumbers} (hopcode : IsWord numbers.opcode)
    (hintegers : (∀ n ∈ numbers.integers, IsWord n) ↔ ∀ argument ∈ arguments,
      argument.1.kind = .integer → Argument.ValueFits symbols argument.1.definition argument.2)
    (hpoint : (∀ n ∈ numbers.point, IsWord n) ↔ ∀ argument ∈ lastOf .point arguments,
      ∀ n ∈ Statement.pointNumbers isAction profile argument, IsWord n)
    (hobjects : (∀ object ∈ numbers.objects, object.AreWords) ↔
      ∀ value ∈ Statement.objects symbols isAction line arguments,
        Object.LiteralsFit symbols profile value) :
    numbers.AreWords ↔ Statement.LiteralsFit symbols profile isAction line arguments := by
  constructor
  · rintro ⟨-, h, h', h''⟩
    exact ⟨hintegers.mp h, hpoint.mp h', hobjects.mp h''⟩
  · rintro ⟨h, h', h''⟩
    exact ⟨hopcode, hintegers.mpr h, hpoint.mpr h', hobjects.mpr h''⟩

namespace Trigger

variable {symbols : Symbols} {profile : Profile} {entry : Entry} {fields : Fields}
  {arguments : List (Parameter × Text)}
  (hfields : Succeeds (arguments.foldlM (Fields.add symbols profile entry)
    { object := profile.emptyObject }) fields)
  (hholds : fields.Holds symbols profile arguments texts)

include hfields hholds

theorem standsFor_object : Object.StandsFor symbols profile
    ((lastOf .object arguments).map Prod.snd) fields.object := by
  cases hlast : lastOf .object arguments with
  | none =>
    exact eq_of_lastOf_eq_none Fields.object hfields hlast
      fun _ _ _ hne hadd => (Fields.add_eq hadd).1 hne
  | some argument => exact ⟨_, hholds.object argument hlast⟩

theorem isWord_point_iff (hpoint : profile.hasTriggerPoint) :
    (∀ n ∈ Text.pointNumbers fields.point, IsWord n) ↔ ∀ argument ∈ lastOf .point arguments,
      ∀ n ∈ Statement.pointNumbers false profile argument, IsWord n := by
  cases hlast : lastOf .point arguments with
  | none =>
    have hdefault : fields.point = "[0,0]" := eq_of_lastOf_eq_none Fields.point hfields hlast
      fun _ _ _ hne hadd => (Fields.add_eq hadd).2 hne
    rw [hdefault]
    exact iff_of_true (by decide +kernel) (by simp)
  | some argument =>
    rw [hholds.point argument hlast, Text.pointNumbers_replaceFirst]
    simp [Statement.pointNumbers, hpoint]

end Trigger

theorem Trigger.exists_numbers {symbols : Symbols} {profile : Profile}
    (hsymbols : symbols.Made Entry.HasWord) (hprofile : profile.Regular)
    (h : Succeeds (Trigger.encode symbols profile line) (text, count)) :
    ∃ entry arguments, ∃ numbers : RecordNumbers, Statement.Binds symbols false line entry arguments ∧
      numbers.In false profile text ∧ IsWord numbers.opcode ∧
      (∀ object ∈ numbers.objects, ∀ n ∈ object.qualifiers, IsWord n) ∧
      (numbers.AreWords ↔ Statement.LiteralsFit symbols profile false line arguments) := by
  obtain ⟨name, inside, entry, values, arguments, fields, strings, hsplit, hentry, hvalues, hbind,
    hfields, hstrings, -, rfl, -⟩ := Trigger.succeeds_encode.mp h
  obtain ⟨texts, hholds⟩ := Trigger.exists_holds hfields
  obtain ⟨numbers, hnumbers, hslots⟩ := hholds.integers
  obtain ⟨integers, hlength, hintegers, hintegersFit⟩ := exists_integers hnumbers hslots
  obtain ⟨object, hin, hqualifiers, hwords⟩ :=
    (standsFor_object hfields hholds).exists_numbers hsymbols hprofile
  have hopcode := (hsymbols.byName? (Symbols.function_ok hentry).1).isWord
  refine ⟨entry, arguments, ⟨toSigned32 entry.id, integers,
    if profile.hasTriggerPoint then Text.pointNumbers fields.point else [], [object]⟩,
    ⟨name, inside, values, hsplit, hentry, hvalues, hbind⟩,
    ⟨hlength, [fields.object], strings, .cons hin .nil, head?_of_packStrings hstrings,
      (signed line).1, fields.point, fields.object, rfl, rfl, by rw [hintegers]⟩, hopcode, by simpa using hqualifiers,
    RecordNumbers.areWords_iff_parts hopcode hintegersFit ?_ ?_⟩
  · dsimp only
    split
    · next hpoint => exact isWord_point_iff hfields hholds hpoint
    · next hpoint => simp [Statement.pointNumbers, hpoint]
  · rw [List.forall_mem_singleton, hwords]
    simp [Statement.objects]

namespace Action

variable {symbols : Symbols} {profile : Profile} {entry : Entry} {fields : Fields}
  {arguments : List (Parameter × Text)}

theorem exists_point (hfields : Succeeds (arguments.foldlM (Fields.add symbols profile entry)
      { objects := .blank 2 profile.emptyObject }) fields)
    (hholds : fields.Holds symbols profile arguments texts) :
    ∃ point : List Int, fields.point = Text.join " " (point.map Text.ofInt) ∧
      ((∀ n ∈ point, IsWord n) ↔ ∀ argument ∈ lastOf .point arguments,
        ∀ n ∈ Statement.pointNumbers true profile argument, IsWord n) := by
  cases hlast : lastOf .point arguments with
  | none =>
    have hdefault : fields.point = "0 0" := eq_of_lastOf_eq_none Fields.point hfields hlast
      fun _ _ _ hne hadd => Fields.add_point hadd hne
    exact ⟨[0, 0], hdefault, iff_of_true (by decide) (by simp)⟩
  | some argument =>
    obtain ⟨part, hpart, htext, -⟩ := succeeds_ofPart.mp (hholds.point argument hlast)
    obtain ⟨point, hpoint, hpart⟩ := Outcome.bind_ok.mp hpart
    obtain rfl := Outcome.pure_ok.mp hpart
    refine ⟨point, htext.symm, ?_⟩
    simp [Statement.pointNumbers, Refusal.ofFault_ok.mp hpoint, Except.toOption]

theorem standsFor_objects (hcodes : IsCodes symbols profile arguments codes) (missing : Nat) :
    List.Forall₂ (Object.StandsFor symbols profile)
      ((objectArguments arguments).map (some ∘ Prod.snd) ++ List.replicate missing none)
      (codes ++ List.replicate missing profile.emptyObject) := by
  refine List.rel_append ?_ ?_
  · rw [List.forall₂_map_left_iff]
    exact hcodes.imp fun argument code hcode => ⟨_, hcode⟩
  · induction missing with
    | zero => exact .nil
    | succ missing ih => exact .cons rfl ih

end Action

theorem Action.exists_numbers {symbols : Symbols} {profile : Profile}
    (hsymbols : symbols.Made Entry.HasWord) (hprofile : profile.Regular)
    (h : Succeeds (Action.encode symbols profile line) text) :
    ∃ entry arguments, ∃ numbers : RecordNumbers, Statement.Binds symbols true line entry arguments ∧
      numbers.In true profile text ∧ IsWord numbers.opcode ∧
      (∀ object ∈ numbers.objects, ∀ n ∈ object.qualifiers, IsWord n) ∧
      (numbers.AreWords ↔ Statement.LiteralsFit symbols profile true line arguments) := by
  obtain ⟨target, call, actor, name, inside, entry, hcall, hactor, hsplit, hentry, hencode⟩ :=
    Action.succeeds_encode h
  obtain ⟨values, arguments, fields, strings, hvalues, hbind, hfields, hstrings, -, rfl⟩ :=
    Action.succeeds_encodeCall.mp hencode
  obtain ⟨texts, hholds⟩ := Action.exists_holds hfields
  obtain ⟨numbers, hnumbers, hslots⟩ := hholds.integers
  obtain ⟨integers, hlength, hintegers, hintegersFit⟩ := exists_integers hnumbers hslots
  obtain ⟨point, hpoint, hpointFits⟩ := exists_point hfields hholds
  obtain ⟨codes, hcodes, hobjects⟩ := hholds.objects
  have hactorFits : Object.StandsFor symbols profile target actor := by
    cases target with
    | none => exact hactor
    | some value => exact ⟨_, hactor⟩
  obtain ⟨objects, hin, hqualifiers, hwords⟩ := Object.exists_numbers_of_forall₂ hsymbols hprofile
    (.cons hactorFits (standsFor_objects (hobjects (hholds.texts_eq hstrings).1) (2 - codes.length)))
  rw [← hcodes.values_eq] at hin
  have hopcode := (hsymbols.byName? (Symbols.function_ok hentry).1).isWord
  refine ⟨entry, arguments, ⟨toSigned32 entry.id, integers, point, objects⟩,
    ⟨target, call, hcall, name, inside, values, hsplit, hentry, hvalues, hbind⟩,
    ⟨hlength, _, strings, hin, head?_of_packStrings hstrings, ?_, by rw [hintegers, hpoint]⟩, hopcode, hqualifiers,
    RecordNumbers.areWords_iff_parts hopcode hintegersFit hpointFits (hwords.trans ?_)⟩
  · rw [hin.length_eq, List.length_cons, hcodes.length_values]
  · have hcalled : (Action.call symbols line).toOption.bind Prod.fst = target := by
      rw [hcall]
      rfl
    have hblank : ∀ source ∈ List.replicate (2 - codes.length) none, ∀ value ∈ source,
        Object.LiteralsFit symbols profile value := fun source hsource => by
      simp [List.eq_of_mem_replicate hsource]
    rw [Statement.objects, if_pos rfl, hcalled, List.forall_mem_cons, List.forall_mem_append,
      List.forall_mem_append, List.forall_mem_map, List.forall_mem_map, and_iff_left hblank]
    simp

/-- A statement that is encoded without a fault becomes a record whose numbers are all in the
signed range exactly when the numbers of the statement fit: its integers are not beyond the
reach of one subtraction, and those of its point and its vectors are in the range as they are.
The opcode and the qualifiers are always in it. -/
theorem Statement.areWords_iff (hsymbols : symbols.Made Entry.HasWord) (game : Game)
    {encoded : Encoded} (h : Encoded.ofRole isAction symbols (.ofGame game) line = .ok encoded)
    (hfaultless : Faultless encoded.remarks) :
    ∃ entry arguments, ∃ numbers : RecordNumbers, Binds symbols isAction line entry arguments ∧
      numbers.In isAction (.ofGame game) encoded.text ∧ IsWord numbers.opcode ∧
      (∀ object ∈ numbers.objects, ∀ n ∈ object.qualifiers, IsWord n) ∧
      (numbers.AreWords ↔ LiteralsFit symbols (.ofGame game) isAction line arguments) := by
  have hprofile := Profile.regular_ofGame game
  cases isAction with
  | true =>
    obtain ⟨text, remarks, hsucceeds, rfl⟩ := Encoded.settle_faultless (fun _ _ => rfl) h hfaultless
    exact Action.exists_numbers hsymbols hprofile hsucceeds
  | false =>
    obtain ⟨⟨text, n⟩, remarks, hsucceeds, rfl⟩ :=
      Encoded.settle_faultless (fun _ _ => rfl) h hfaultless
    exact Trigger.exists_numbers hsymbols hprofile hsucceeds

theorem Statement.areWords_iff_sample :
    let tables := [(Table.read "ACTION" "4294967295 Do(O:Who*,I:N*,I:Bits*Bits,P:At*)").value,
      (Table.read "BITS" "0x80000000 HIGH\n2 LOW").value, (Table.read "EA" "255 ENEMY").value]
    let symbols : Symbols := .build tables [] [] [] none
    let line : Text := "Do([ENEMY.-2147483648],0xFFFFFFFF,HIGH|LOW,[2147483647.0])"
    symbols.Made Entry.HasWord ∧
      ∃ encoded, Encoded.ofRole true symbols (.ofGame .none) line = .ok encoded ∧
        Faultless encoded.remarks ∧
        ∃ entry arguments, ∃ numbers : RecordNumbers, Binds symbols true line entry arguments ∧
          numbers.In true (.ofGame .none) encoded.text ∧
          LiteralsFit symbols (.ofGame .none) true line arguments ∧ numbers.AreWords := by
  intro tables symbols line
  have hsymbols : symbols.Made Entry.HasWord := by
    refine Symbols.made_build (fun table hmem => ?_) _ _ _ _
    have hentries : ∀ table ∈ tables, ∀ entry ∈ table.entries.toList, entry.HasWord := by
      decide +kernel
    have hread : table.Made Entry.IsRead := by
      simp only [tables, List.mem_cons, List.not_mem_nil, or_false] at hmem
      rcases hmem with rfl | rfl | rfl <;> exact Table.made_read _ _
    exact (hread.and (hentries table hmem)).mono fun _ h => h.2
  obtain ⟨encoded, hencoded, hremarks⟩ := Outcome.exists_of_any (by decide +kernel :
    (Encoded.ofRole true symbols (.ofGame .none) line).toOption.any fun encoded =>
      encoded.remarks = [])
  have hfaultless : Faultless encoded.remarks := by simp [of_decide_eq_true hremarks, Faultless]
  obtain ⟨entry, arguments, numbers, hbinds, hin, -, -, hiff⟩ :=
    areWords_iff hsymbols .none hencoded hfaultless
  have hfits : LiteralsFit symbols (.ofGame .none) true line arguments := by
    have hparts : (Call.bound symbols "ACTION.IDS" false line).toOption.all fun arguments =>
        (∀ argument ∈ arguments, argument.1.kind = .integer →
          Argument.ValueFits symbols argument.1.definition argument.2) ∧
        (∀ argument ∈ (lastOf .point arguments).toList,
          ∀ n ∈ pointNumbers true (.ofGame .none) argument, IsWord n) ∧
        ∀ value ∈ objects symbols true line arguments,
          Object.LiteralsFit symbols (.ofGame .none) value := by
      decide +kernel
    rw [hbinds.bound (by decide +kernel)] at hparts
    obtain ⟨hintegers, hpoint, hobjects⟩ := of_decide_eq_true hparts
    exact ⟨hintegers, fun argument hmem => hpoint argument (Option.mem_toList.mpr hmem), hobjects⟩
  exact ⟨hsymbols, encoded, hencoded, hfaultless, entry, arguments, numbers, hbinds, hin, hfits,
    hiff.mpr hfits⟩

/-- Literals below the range or far above it, sums of symbols, and the numbers of points and
vectors are written out of the range. -/
theorem Statement.not_isWord_written :
    let symbols : Symbols := .build [(Table.read "ACTION"
        "1 Set(I:N*Bits)\n2 Go(P:At*)\n3 See(O:Who*)").value,
      (Table.read "TRIGGER" "4 Near(P:At*)").value,
      (Table.read "BITS" "0xFFFFFFFF ALL\n0xFFFFFFFE MOST").value] [] [] [] none
    let writes (isAction : Bool) (game : Game) (line : Text) (n : Int) : Prop :=
      ¬ IsWord n ∧ ∃ encoded, Encoded.ofRole isAction symbols (.ofGame game) line = .ok encoded ∧
        encoded.remarks = [] ∧ Text.ofInt n <:+: encoded.text
    writes true .none "Set(99999999999)" 95705032703 ∧
      writes true .none "Set(-2147483649)" (-2147483649) ∧
      writes true .none "Set(ALL|MOST)" 4294967293 ∧
      writes true .none "Go([2147483648.0])" 2147483648 ∧
      writes true .none "See([2147483648])" 2147483648 ∧
      writes false .torment "Near([2147483648.0])" 2147483648 := by
  intro symbols writes
  have hwrites : ∀ isAction game line n, ¬ IsWord n → ((Encoded.ofRole isAction symbols
      (.ofGame game) line).toOption.any fun encoded =>
        encoded.remarks = [] ∧ Text.ofInt n <:+: encoded.text) → writes isAction game line n := by
    intro isAction game line n hn h
    obtain ⟨encoded, hencoded, h⟩ := Outcome.exists_of_any h
    exact ⟨hn, encoded, hencoded, of_decide_eq_true h⟩
  refine ⟨hwrites _ _ _ _ ?_ ?_, hwrites _ _ _ _ ?_ ?_, hwrites _ _ _ _ ?_ ?_, hwrites _ _ _ _ ?_ ?_,
    hwrites _ _ _ _ ?_ ?_, hwrites _ _ _ _ ?_ ?_⟩ <;> decide +kernel

end InfinityScript
