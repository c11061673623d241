import Mathlib.Data.List.Forall2
import InfinityScript.Proofs.Argument.Slots
import InfinityScript.Proofs.Script.CallText
import InfinityScript.Proofs.Script.Statement

/-!
# Arguments in the record

An argument of a statement that is encoded without a fault stands in the record, in a slot
of its kind, as far as there is one (`exists_slots_of_faultless`): every integer and every
object of an action does, and so does every string that is packed into one of the first two,
as the first two strings always are.
An object of a trigger and a point give way to another one behind them, and a profile may
have no points for triggers. An action that is an argument has no slot.
-/

namespace InfinityScript

open Encoding

-- --------------------
-- Slots
-- --------------------

namespace Slots

structure Holds (count : Nat) (blank : Text) (texts : List Text) (slots : Slots) : Prop where
  eq : slots = holding count blank texts
  room : texts.length ≤ count

variable {slots next : Slots} {texts : List Text} {blank : Text}

theorem holds_blank (count : Nat) (blank : Text) : (Slots.blank count blank).Holds count blank [] :=
  ⟨by simp [Slots.blank, holding], Nat.zero_le count⟩

namespace Holds

theorem values_eq (h : slots.Holds count blank texts) :
    slots.values = texts ++ List.replicate (count - texts.length) blank := by
  rw [h.eq, holding]

theorem length_values (h : slots.Holds count blank texts) : slots.values.length = count := by
  have hroom := h.room
  rw [h.values_eq, List.length_append, List.length_replicate]
  omega

theorem isPrefix (h : slots.Holds count blank texts) : texts <+: slots.values := by
  rw [h.values_eq]
  exact List.prefix_append _ _

theorem fill (h : slots.Holds count blank texts)
    (hfill : Succeeds (Encoding.fill slots value) next) :
    next.Holds count blank (texts ++ [value]) := by
  have hfill := succeeds_fill.mp hfill
  have hlength := h.length_values
  by_cases hroom : texts.length < count
  · rw [h.eq, fill_holding hroom] at hfill
    refine ⟨(Except.ok.inj hfill).symm, ?_⟩
    rwa [List.length_append, List.length_singleton]
  · obtain ⟨filled, hassign, -⟩ := Outcome.bind_ok.mp hfill
    have hnext : slots.next = texts.length := by rw [h.eq, holding]
    rw [hnext] at hassign
    change (if texts.length < slots.values.length then _ else _) = _ at hassign
    rw [if_neg (by omega)] at hassign
    cases hassign

end Holds

end Slots

-- --------------------
-- Packed strings
-- --------------------

namespace Scope

variable {symbols : Symbols}

/-- The text stands in the string of the index, behind its opening quote. The strings are
in the order of `packNext`, in which the last comes first. -/
def Within (packed : List Text) (i : Nat) (text : Text) : Prop :=
  ∃ field, packed.reverse[i]? = some field ∧ text <:+: field.drop 1

theorem within_cons : Within (last :: earlier) i text ↔
    Within earlier i text ∨ i = earlier.length ∧ text <:+: last.drop 1 := by
  simp only [Within, List.reverse_cons, List.getElem?_append, List.length_reverse]
  by_cases hi : i < earlier.length
  · simp [hi, Nat.ne_of_lt hi]
  · have hnone : earlier.reverse[i]? = none := List.getElem?_eq_none (by simpa using hi)
    simp only [hi, if_false, hnone, List.getElem?_singleton]
    by_cases heq : i = earlier.length
    · simp [heq]
    · have hsub : i - earlier.length ≠ 0 := by omega
      simp [heq, hsub]

theorem drop_packed (h : isScope symbols value) (last : Text) :
    (value.take 7 ++ last.drop 1).drop 1 = Text.inner value ++ last.drop 1 := by
  have hlength := length_of_isScope h
  rw [List.drop_append_of_le_length (by rw [List.length_take, hlength]; decide), Text.inner,
    List.dropLast_eq_take, List.drop_take, List.length_drop, hlength]

/-- Packing one more string leaves in place what the packed ones hold. -/
theorem Within.packNext (h : Within packed i text) (opcode : Int) (value : Text) :
    Within (packNext symbols opcode packed value) i text := by
  cases packed with
  | nil =>
    obtain ⟨field, hfield, -⟩ := h
    cases hfield
  | cons last earlier =>
    rw [Scope.packNext]
    split
    · next hscope =>
      rcases within_cons.mp h with h | ⟨hi, hwithin⟩
      · exact within_cons.mpr (.inl h)
      · refine within_cons.mpr (.inr ⟨hi, ?_⟩)
        rw [drop_packed hscope.2.1]
        exact hwithin.trans (List.suffix_append _ _).isInfix
    · exact within_cons.mpr (.inl h)

theorem within_packNext (symbols : Symbols) (opcode : Int) (packed : List Text) (value : Text) :
    Within (packNext symbols opcode packed value) ((packNext symbols opcode packed value).length - 1)
      (Text.inner value) := by
  have hinner : Text.inner value <:+: value.drop 1 := (List.dropLast_prefix _).isInfix
  cases packed with
  | nil => exact within_cons.mpr (.inr ⟨rfl, hinner⟩)
  | cons last earlier =>
    rw [Scope.packNext]
    split
    · next hscope =>
      refine within_cons.mpr (.inr ⟨rfl, ?_⟩)
      rw [drop_packed hscope.2.1]
      exact (List.prefix_append _ _).isInfix
    · exact within_cons.mpr (.inr ⟨rfl, hinner⟩)

theorem Within.foldl_packNext (h : Within packed i text) (symbols : Symbols) (opcode : Int)
    (strings : List Text) :
    Within (strings.foldl (Scope.packNext symbols opcode) packed) i text := by
  induction strings generalizing packed with
  | nil => exact h
  | cons value strings ih => exact ih (h.packNext opcode value)

/-- How many strings are left of the given ones when they are packed. The last of them goes
into the last of these. -/
def packedCount (symbols : Symbols) (opcode : Int) (strings : List Text) : Nat :=
  (strings.foldl (packNext symbols opcode) []).length

theorem packedCount_le (symbols : Symbols) (opcode : Int) (strings : List Text) :
    packedCount symbols opcode strings ≤ strings.length := by
  have hfoldl : ∀ packed : List Text, (strings.foldl (packNext symbols opcode) packed).length ≤
      packed.length + strings.length := by
    induction strings with
    | nil => exact fun packed => Nat.le_refl _
    | cons value strings ih =>
      intro packed
      have hnext : (packNext symbols opcode packed value).length ≤ packed.length + 1 := by
        cases packed with
        | nil => exact Nat.le_refl _
        | cons last earlier =>
          rw [packNext]
          split <;> simp
      have hrest := ih (packNext symbols opcode packed value)
      simp only [List.foldl_cons, List.length_cons]
      omega
  simpa [packedCount] using hfoldl []

/-- Strings that are packed into one of the first two are in one of them. -/
theorem exists_packed (h : pack symbols opcode (before ++ value :: after) = .ok (packed, faults))
    (hcount : packedCount symbols opcode (before ++ [value]) ≤ 2) :
    ∃ field ∈ packed.take 2, Text.inner value <:+: field := by
  obtain ⟨found, -, h⟩ := Outcome.bind_ok.mp h
  obtain ⟨rfl, -⟩ := Prod.mk.inj (Outcome.pure_ok.mp h)
  rw [packedCount, List.foldl_append, List.foldl_cons, List.foldl_nil] at hcount
  have hpacked := (within_packNext symbols opcode (before.foldl (packNext symbols opcode) [])
    value).foldl_packNext symbols opcode after
  generalize hi : (packNext symbols opcode (before.foldl (packNext symbols opcode) []) value).length - 1 =
    i at hpacked
  obtain ⟨field, hfield, hwithin⟩ := hpacked
  refine ⟨field, ?_, hwithin.trans (List.drop_suffix 1 field).isInfix⟩
  rw [List.foldl_append, List.foldl_cons]
  refine List.mem_of_getElem? (i := i) ?_
  rw [List.getElem?_take_of_lt (by omega), List.getElem?_append_left
    (List.getElem?_eq_some_iff.mp hfield).1, hfield]

end Scope

-- --------------------
-- Integers and strings
-- --------------------

def quotedStrings (arguments : List (Parameter × Text)) : List Text :=
  (arguments.filter fun argument =>
    argument.1.kind = .string ∧ argument.2.head? = some '"').map Prod.snd

def IsNumbers (symbols : Symbols) (arguments : List (Parameter × Text)) (numbers : List Int) : Prop :=
  List.Forall₂ (fun argument n => Argument.integer symbols argument.1.definition argument.2 = .ok n)
    (arguments.filter (·.1.kind = .integer)) numbers

/-- The slots that triggers and actions have in common hold the arguments that have been added:
the integers, and the strings given. If all of these are quoted, they are those of the
arguments that are. -/
structure Held (symbols : Symbols) (arguments : List (Parameter × Text)) (texts : List Text)
    (integers strings : Slots) : Prop where
  integers : ∃ numbers, IsNumbers symbols arguments numbers ∧
    integers.Holds 3 "0" (numbers.map Text.ofInt)
  strings : strings.Holds 4 emptyString texts
  quoted : (∀ text ∈ texts, text.head? = some '"') → texts = quotedStrings arguments

namespace Held

variable {symbols : Symbols} {arguments : List (Parameter × Text)} {texts : List Text}
  {integers strings next : Slots} {argument : Parameter × Text}

theorem blank (symbols : Symbols) :
    Held symbols [] [] (Slots.blank 3 "0") (Slots.blank 4 emptyString) :=
  ⟨⟨[], List.Forall₂.nil, Slots.holds_blank 3 "0"⟩, Slots.holds_blank 4 emptyString, fun _ => rfl⟩

theorem integer (h : Held symbols arguments texts integers strings)
    (hkind : argument.1.kind = .integer)
    (hencode : Succeeds (Argument.encodeInteger symbols argument.1.definition argument.2) text)
    (hfill : Succeeds (fill integers text) next) :
    Held symbols (arguments ++ [argument]) texts next strings := by
  obtain ⟨numbers, hnumbers, hholds⟩ := h.integers
  obtain ⟨part, hpart, rfl, -⟩ := succeeds_ofPart.mp hencode
  obtain ⟨n, hn, hpart⟩ := Outcome.bind_ok.mp hpart
  obtain rfl := Outcome.pure_ok.mp hpart
  refine ⟨⟨numbers ++ [n], ?_, by simpa using hholds.fill hfill⟩, h.strings, ?_⟩
  · rw [IsNumbers, List.filter_append, List.filter_cons_of_pos (by simpa using hkind)]
    exact List.rel_append hnumbers (.cons hn .nil)
  · simpa [quotedStrings, hkind] using h.quoted

theorem other (h : Held symbols arguments texts integers strings)
    (hkind : argument.1.kind ≠ .integer)
    (hstring : argument.1.kind = .string → argument.2.head? ≠ some '"') :
    Held symbols (arguments ++ [argument]) texts integers strings := by
  obtain ⟨numbers, hnumbers, hholds⟩ := h.integers
  refine ⟨⟨numbers, by simpa [IsNumbers, hkind] using hnumbers, hholds⟩, h.strings, ?_⟩
  have hnone : ¬ (argument.1.kind = .string ∧ argument.2.head? = some '"') := fun hquoted =>
    hstring hquoted.1 hquoted.2
  simpa [quotedStrings, hnone] using h.quoted

theorem string (h : Held symbols arguments texts integers strings)
    (hkind : argument.1.kind = .string) (hfill : Succeeds (fill strings argument.2) next) :
    Held symbols (arguments ++ [argument]) (texts ++ [argument.2]) integers next := by
  obtain ⟨numbers, hnumbers, hholds⟩ := h.integers
  refine ⟨⟨numbers, by simpa [IsNumbers, hkind] using hnumbers, hholds⟩, h.strings.fill hfill, ?_⟩
  intro hquoted
  obtain ⟨htexts, hvalue⟩ := List.forall_mem_append.mp hquoted
  rw [h.quoted htexts]
  simp [quotedStrings, hkind, hvalue argument.2 (by simp)]

/-- Strings that are packed without a fault are quoted. -/
theorem texts_eq (h : Held symbols arguments texts integers strings)
    (hpack : Succeeds (packStrings symbols opcode strings.values) packed) :
    (∀ text ∈ texts, text.head? = some '"') ∧ texts = quotedStrings arguments := by
  have hquoted : ∀ text ∈ texts, text.head? = some '"' := fun text hmem =>
    Scope.head?_of_pack (succeeds_packStrings.mp hpack) text (h.strings.isPrefix.subset hmem)
  exact ⟨hquoted, h.quoted hquoted⟩

theorem exists_string (h : Held symbols arguments texts integers strings)
    (hpack : Succeeds (packStrings symbols opcode strings.values) packed)
    (hstrings : quotedStrings arguments = before ++ value :: after)
    (hcount : before.length < 2 ∨ Scope.packedCount symbols opcode (before ++ [value]) ≤ 2) :
    ∃ field ∈ packed.take 2, Text.inner value <:+: field := by
  have hvalues := h.strings.values_eq
  rw [(h.texts_eq hpack).2, hstrings, List.append_assoc, List.cons_append] at hvalues
  refine Scope.exists_packed (hvalues ▸ succeeds_packStrings.mp hpack) (hcount.elim ?_ id)
  intro hfirst
  have hle := Scope.packedCount_le symbols opcode (before ++ [value])
  rw [List.length_append, List.length_singleton] at hle
  omega

end Held

def lastOf (kind : ParameterKind) (arguments : List (Parameter × Text)) : Option (Parameter × Text) :=
  (arguments.filter (·.1.kind = kind)).getLast?

theorem lastOf_append (kind : ParameterKind) (arguments : List (Parameter × Text))
    (argument : Parameter × Text) : lastOf kind (arguments ++ [argument]) =
      if argument.1.kind = kind then some argument else lastOf kind arguments := by
  unfold lastOf
  rw [List.filter_append]
  split
  · next hkind => simp [hkind]
  · next hkind => simp [hkind]

-- --------------------
-- Triggers
-- --------------------

namespace Trigger

variable {symbols : Symbols} {profile : Profile} {entry : Entry} {fields next : Fields}
  {arguments : List (Parameter × Text)} {argument : Parameter × Text}

/-- The fields hold the arguments that have been added, but of objects and points only the
last. -/
structure Fields.Holds (symbols : Symbols) (profile : Profile) (arguments : List (Parameter × Text))
    (texts : List Text) (fields : Fields) : Prop
    extends Held symbols arguments texts fields.integers fields.strings where
  unquoted : ∀ argument ∈ arguments, argument.1.kind = .string → argument.2 ∈ texts
  object : ∀ argument ∈ lastOf .object arguments,
    Succeeds (Object.encode symbols profile argument.1.definition argument.2) fields.object
  point : ∀ argument ∈ lastOf .point arguments, fields.point = Text.replaceFirst '.' ',' argument.2

theorem Fields.Holds.add (h : fields.Holds symbols profile arguments texts)
    (hadd : Succeeds (Fields.add symbols profile entry fields argument) next) :
    ∃ texts, next.Holds symbols profile (arguments ++ [argument]) texts := by
  have hother : argument.1.kind ≠ .string → ∀ other ∈ arguments ++ [argument],
      other.1.kind = .string → other.2 ∈ texts := fun hne =>
    List.forall_mem_append.mpr ⟨h.unquoted, List.forall_mem_singleton.mpr fun h => absurd h hne⟩
  cases Fields.succeeds_add.mp hadd with
  | string hkind _ hfill =>
    refine ⟨texts ++ [argument.2], h.toHeld.string hkind hfill, ?_, ?_, ?_⟩
    · refine List.forall_mem_append.mpr ⟨fun argument hmem hkind => ?_, by simp⟩
      exact List.mem_append_left _ (h.unquoted argument hmem hkind)
    · simpa [lastOf_append, hkind] using h.object
    · simpa [lastOf_append, hkind] using h.point
  | integer hkind hencode hfill =>
    refine ⟨texts, h.toHeld.integer hkind hencode hfill, hother (by simp [hkind]), ?_, ?_⟩
    · simpa [lastOf_append, hkind] using h.object
    · simpa [lastOf_append, hkind] using h.point
  | object hkind hencode =>
    refine ⟨texts, h.toHeld.other (by simp [hkind]) (by simp [hkind]), hother (by simp [hkind]), ?_, ?_⟩
    · simpa [lastOf_append, hkind] using hencode
    · simpa [lastOf_append, hkind] using h.point
  | point hkind =>
    refine ⟨texts, h.toHeld.other (by simp [hkind]) (by simp [hkind]), hother (by simp [hkind]), ?_, ?_⟩
    · simpa [lastOf_append, hkind] using h.object
    · simp [lastOf_append, hkind]
  | action hkind =>
    refine ⟨texts, h.toHeld.other (by simp [hkind]) (by simp [hkind]), hother (by simp [hkind]), ?_, ?_⟩
    · simpa [lastOf_append, hkind] using h.object
    · simpa [lastOf_append, hkind] using h.point

theorem exists_holds (h : Succeeds (arguments.foldlM (Fields.add symbols profile entry)
      { object := profile.emptyObject }) fields) :
    ∃ texts, fields.Holds symbols profile arguments texts := by
  refine accumulate_foldlM (I := fun arguments fields =>
    ∃ texts, Fields.Holds symbols profile arguments texts fields) h ⟨[], ?_⟩ ?_
  · exact ⟨Held.blank symbols, by simp, by simp [lastOf], by simp [lastOf]⟩
  · rintro before state next argument ⟨texts, hholds⟩ hadd
    exact hholds.add hadd

end Trigger

-- --------------------
-- Actions
-- --------------------

namespace Action

variable {symbols : Symbols} {profile : Profile} {entry : Entry} {fields next : Fields}
  {arguments : List (Parameter × Text)} {argument : Parameter × Text}

def objectArguments (arguments : List (Parameter × Text)) : List (Parameter × Text) :=
  arguments.filter fun argument =>
    argument.1.kind = .object ∨ argument.1.kind = .string ∧ argument.2.head? ≠ some '"'

def IsCodes (symbols : Symbols) (profile : Profile) (arguments : List (Parameter × Text))
    (codes : List Text) : Prop :=
  List.Forall₂ (fun argument code =>
      Succeeds (Object.encode symbols profile argument.1.definition argument.2) code)
    (objectArguments arguments) codes

/-- The fields hold the arguments that have been added, but of points only the last. If all
strings in their slots are quoted, those that are not are among the objects. -/
structure Fields.Holds (symbols : Symbols) (profile : Profile) (arguments : List (Parameter × Text))
    (texts : List Text) (fields : Fields) : Prop
    extends Held symbols arguments texts fields.integers fields.strings where
  objects : ∃ codes, fields.objects.Holds 2 profile.emptyObject codes ∧
    ((∀ text ∈ texts, text.head? = some '"') → IsCodes symbols profile arguments codes)
  point : ∀ argument ∈ lastOf .point arguments,
    Succeeds (Argument.encodePoint argument.1.definition argument.2) fields.point

theorem Fields.Holds.add (h : fields.Holds symbols profile arguments texts)
    (hadd : Succeeds (Fields.add symbols profile entry fields argument) next) :
    ∃ texts, next.Holds symbols profile (arguments ++ [argument]) texts := by
  obtain ⟨codes, hholds, hcodes⟩ := h.objects
  have hother : argument.1.kind ≠ .object → argument.1.kind ≠ .string →
      (∀ text ∈ texts, text.head? = some '"') →
        IsCodes symbols profile (arguments ++ [argument]) codes := by
    intro hobject hstring hquoted
    simpa [IsCodes, objectArguments, hobject, hstring] using hcodes hquoted
  cases Fields.succeeds_add.mp hadd with
  | string hkind _ _ hfill =>
    refine ⟨texts ++ [argument.2], h.toHeld.string hkind hfill,
      ⟨codes, hholds, fun hquoted => ?_⟩, ?_⟩
    · obtain ⟨htexts, hvalue⟩ := List.forall_mem_append.mp hquoted
      simpa [IsCodes, objectArguments, hkind, hvalue argument.2 (by simp)] using hcodes htexts
    · simpa [lastOf_append, hkind] using h.point
  | integer hkind hencode hfill =>
    refine ⟨texts, h.toHeld.integer hkind hencode hfill,
      ⟨codes, hholds, hother (by simp [hkind]) (by simp [hkind])⟩, ?_⟩
    simpa [lastOf_append, hkind] using h.point
  | @object object _ htakes hencode hfill =>
    -- The code goes behind those of the objects, and behind those of strings that are not quoted.
    have hunquoted : argument.1.kind = .object ∨
        argument.1.kind = .string ∧ argument.2.head? ≠ some '"' :=
      htakes.imp_right fun htakes => ⟨htakes.1, htakes.2.2⟩
    refine ⟨texts, h.toHeld.other ?_ ?_,
      ⟨codes ++ [object], hholds.fill hfill, fun hquoted => ?_⟩, ?_⟩
    · rcases hunquoted with hkind | ⟨hkind, -⟩ <;> simp [hkind]
    · exact fun hstring => hunquoted.elim (by simp [hstring]) And.right
    · unfold IsCodes objectArguments
      rw [List.filter_append, List.filter_cons_of_pos (by simpa using hunquoted)]
      exact List.rel_append (hcodes hquoted) (.cons hencode .nil)
    · rw [lastOf_append, if_neg htakes.ne_point]
      exact h.point
  | point hkind hencode =>
    refine ⟨texts, h.toHeld.other (by simp [hkind]) (by simp [hkind]),
      ⟨codes, hholds, hother (by simp [hkind]) (by simp [hkind])⟩, ?_⟩
    simpa [lastOf_append, hkind] using hencode
  | action hkind =>
    refine ⟨texts, h.toHeld.other (by simp [hkind]) (by simp [hkind]),
      ⟨codes, hholds, hother (by simp [hkind]) (by simp [hkind])⟩, ?_⟩
    simpa [lastOf_append, hkind] using h.point

theorem exists_holds (h : Succeeds (arguments.foldlM (Fields.add symbols profile entry)
      { objects := .blank 2 profile.emptyObject }) fields) :
    ∃ texts, fields.Holds symbols profile arguments texts := by
  refine accumulate_foldlM (I := fun arguments fields =>
    ∃ texts, Fields.Holds symbols profile arguments texts fields) h ⟨[], ?_⟩ ?_
  · exact ⟨Held.blank symbols, ⟨[], Slots.holds_blank 2 _, fun _ => List.Forall₂.nil⟩, by simp [lastOf]⟩
  · rintro before state next argument ⟨texts, hholds⟩ hadd
    exact hholds.add hadd

end Action

-- --------------------
-- Statements
-- --------------------

/-- The statement is encoded as a call of the function with the arguments; of an override it is
the inner call. -/
def Statement.Binds (symbols : Symbols) (isAction : Bool) (line : Text) (entry : Entry)
    (arguments : List (Parameter × Text)) : Prop :=
  if isAction then
    ∃ target call, Action.call symbols line = .ok (target, call) ∧
      Action.Calls symbols call entry arguments
  else
    ∃ name inside values, Call.split (Trigger.signed line).2 = .ok (name, inside) ∧
      symbols.function "TRIGGER.IDS" name = .ok entry ∧
      Call.arguments inside true = .ok values ∧ Call.bind entry values = .ok arguments

theorem Statement.Binds.bound (h : Binds symbols true line entry arguments)
    (hcall : (Action.call symbols line).toOption = some (none, line)) :
    Call.bound symbols "ACTION.IDS" false line = .ok arguments := by
  obtain ⟨target, call, hfound, name, inside, values, hsplit, hentry, hvalues, hbind⟩ := h
  rw [hfound] at hcall
  obtain ⟨-, rfl⟩ := Prod.mk.inj (Option.some.inj hcall)
  exact (Call.bound_eq hsplit hentry hvalues).trans hbind

structure RecordSlots where
  integers : List Text
  objects : List Text
  point : Option Text
  strings : List Text

namespace RecordSlots

/-- The text is the record with these slots: three integers, two strings, the point if there
is one, and the object of a trigger or the two of an action behind its actor. -/
def In (slots : RecordSlots) (isAction : Bool) (profile : Profile) (entry : Entry) (text : Text) : Prop :=
  slots.integers.length = 3 ∧ slots.strings.length = 2 ∧
  if isAction then
    slots.objects.length = 2 ∧ ∃ actor point, slots.point = some point ∧
      text = actionLayout (toSigned32 entry.id) (actor :: slots.objects) slots.integers point
        slots.strings
  else
    ∃ negated object point, slots.objects = [object] ∧
      slots.point = (if profile.hasTriggerPoint then some point else none) ∧
      text = profile.triggerLayout (toSigned32 entry.id) negated slots.integers point
        slots.strings object

/-- The slots hold the arguments, those of a kind in their order. -/
structure Keeps (slots : RecordSlots) (isAction : Bool) (symbols : Symbols) (profile : Profile)
    (entry : Entry) (arguments : List (Parameter × Text)) : Prop where
  integers : ∃ numbers, IsNumbers symbols arguments numbers ∧
    numbers.map Text.ofInt <+: slots.integers
  strings : ∀ before value after, quotedStrings arguments = before ++ value :: after →
    (before.length < 2 ∨ Scope.packedCount symbols (if isAction then -1 else toSigned32 entry.id)
      (before ++ [value]) ≤ 2) →
      ∃ field ∈ slots.strings, Text.inner value <:+: field
  objects : if isAction then
      ∃ codes, Action.IsCodes symbols profile arguments codes ∧ codes <+: slots.objects
    else (∀ argument ∈ arguments, argument.1.kind = .string → argument.2.head? = some '"') ∧
      ∀ argument ∈ lastOf .object arguments, ∃ object ∈ slots.objects,
        Succeeds (Object.encode symbols profile argument.1.definition argument.2) object
  point : ∀ argument ∈ lastOf .point arguments,
    if isAction then ∃ numbers, Argument.point argument.1.definition argument.2 = .ok numbers ∧
      slots.point = some (Text.join " " (numbers.map Text.ofInt))
    else profile.hasTriggerPoint → slots.point = some (Text.replaceFirst '.' ',' argument.2)

end RecordSlots

theorem actionLayout_take (opcode : Int) (objects integers : List Text) (point : Text)
    {strings : List Text} (h : strings.length = 4) :
    actionLayout opcode objects integers point strings =
      actionLayout opcode objects integers point (strings.take 2) := by
  match strings, h with
  | [_, _, _, _], _ => rfl

theorem Profile.triggerLayout_take (profile : Profile) (opcode : Int) (negated : Bool)
    (integers : List Text) (point object : Text) {strings : List Text} (h : strings.length = 4) :
    profile.triggerLayout opcode negated integers point strings object =
      profile.triggerLayout opcode negated integers point (strings.take 2) object := by
  match strings, h with
  | [_, _, _, _], _ => rfl

theorem Trigger.exists_slots (h : Succeeds (Trigger.encode symbols profile line) (text, n)) :
    ∃ entry arguments slots, Statement.Binds symbols false line entry arguments ∧
      RecordSlots.In slots false profile entry text ∧
      slots.Keeps false symbols profile entry arguments := by
  obtain ⟨name, inside, entry, values, arguments, fields, strings, hsplit, hentry, hvalues, hbind,
    hfields, hstrings, -, rfl, -⟩ := Trigger.succeeds_encode.mp h
  obtain ⟨texts, hholds⟩ := Trigger.exists_holds hfields
  obtain ⟨hquoted, -⟩ := hholds.texts_eq hstrings
  have hlength : strings.length = 4 :=
    (Scope.length_pack (succeeds_packStrings.mp hstrings)).trans hholds.strings.length_values
  obtain ⟨numbers, hnumbers, hintegers⟩ := hholds.integers
  refine ⟨entry, arguments, ⟨fields.integers.values, [fields.object],
    if profile.hasTriggerPoint then some fields.point else none, strings.take 2⟩,
    ⟨name, inside, values, hsplit, hentry, hvalues, hbind⟩, ⟨hintegers.length_values, ?_, _, _, _, rfl,
      rfl, profile.triggerLayout_take _ _ _ _ _ hlength⟩, ?_⟩
  · simp [hlength]
  · refine ⟨⟨numbers, hnumbers, hintegers.isPrefix⟩,
      fun before value after => hholds.exists_string hstrings, ⟨?_, ?_⟩, ?_⟩
    · exact fun argument hmem hkind => hquoted _ (hholds.unquoted argument hmem hkind)
    · exact fun argument hlast => ⟨fields.object, by simp, hholds.object argument hlast⟩
    · exact fun argument hlast hpoint => by simp [hpoint, hholds.point argument hlast]

theorem Action.exists_slots (h : Succeeds (Action.encode symbols profile line) text) :
    ∃ entry arguments slots, Statement.Binds symbols true line entry arguments ∧
      RecordSlots.In slots true profile entry text ∧
      slots.Keeps true symbols profile entry arguments := by
  obtain ⟨target, call, actor, name, inside, entry, hcall, -, hsplit, hentry, hencode⟩ :=
    Action.succeeds_encode h
  obtain ⟨values, arguments, fields, strings, hvalues, hbind, hfields, hstrings, -, rfl⟩ :=
    Action.succeeds_encodeCall.mp hencode
  obtain ⟨texts, hholds⟩ := Action.exists_holds hfields
  obtain ⟨hquoted, -⟩ := hholds.texts_eq hstrings
  have hlength : strings.length = 4 :=
    (Scope.length_pack (succeeds_packStrings.mp hstrings)).trans hholds.strings.length_values
  obtain ⟨numbers, hnumbers, hintegers⟩ := hholds.integers
  obtain ⟨codes, hobjects, hcodes⟩ := hholds.objects
  refine ⟨entry, arguments, ⟨fields.integers.values, fields.objects.values, some fields.point,
    strings.take 2⟩, ⟨target, call, hcall, name, inside, values, hsplit, hentry, hvalues, hbind⟩,
    ⟨hintegers.length_values, ?_, hobjects.length_values, actor, fields.point, rfl,
      actionLayout_take _ _ _ _ hlength⟩, ?_⟩
  · simp [hlength]
  · refine ⟨⟨numbers, hnumbers, hintegers.isPrefix⟩,
      fun before value after => hholds.exists_string hstrings,
      ⟨codes, hcodes hquoted, hobjects.isPrefix⟩, fun argument hlast => ?_⟩
    obtain ⟨part, hpart, hpoint, -⟩ := succeeds_ofPart.mp (hholds.point argument hlast)
    obtain ⟨numbers, hnumbers, hpart⟩ := Outcome.bind_ok.mp hpart
    obtain rfl := Outcome.pure_ok.mp hpart
    exact ⟨numbers, Outcome.mapError_ok.mp hnumbers, congrArg some hpoint.symm⟩

/-- A statement that is encoded without a fault is the record of a call in which the arguments
of the call stand. -/
theorem exists_slots_of_faultless {encoded : Encoded}
    (h : Encoded.ofRole isAction symbols profile line = .ok encoded)
    (hfaultless : Faultless encoded.remarks) :
    ∃ entry arguments slots, Statement.Binds symbols isAction line entry arguments ∧
      RecordSlots.In slots isAction profile entry encoded.text ∧
      slots.Keeps isAction symbols profile entry arguments := by
  cases isAction with
  | true =>
    obtain ⟨text, remarks, hsucceeds, rfl⟩ := Encoded.settle_faultless (fun _ _ => rfl) h hfaultless
    exact Action.exists_slots hsucceeds
  | false =>
    obtain ⟨⟨text, n⟩, remarks, hsucceeds, rfl⟩ :=
      Encoded.settle_faultless (fun _ _ => rfl) h hfaultless
    exact Trigger.exists_slots hsucceeds

theorem exists_slots_of_faultless_sample :
    let table := (Table.empty "ACTION").add ⟨1, "Do", some "S:A*,S:B*,S:C*,I:N*,P:At*".toList⟩
    let symbols : Symbols := .build [table] [] [] [] none
    let line : Text := "Do(\"a\",\"GLOBAL\",\"b\",7,[1.2])"
    Scope.packedCount symbols (-1) ["\"a\"", "\"GLOBAL\"", "\"b\""] ≤ 2 ∧
      ∃ encoded, Encoded.ofRole true symbols (.ofGame .none) line = .ok encoded ∧
        Faultless encoded.remarks ∧
        ∃ entry arguments slots, Statement.Binds symbols true line entry arguments ∧
          RecordSlots.In slots true (.ofGame .none) entry encoded.text ∧
          slots.Keeps true symbols (.ofGame .none) entry arguments ∧
          ∃ field ∈ slots.strings, "b".toList <:+: field := by
  intro table symbols line
  obtain ⟨encoded, hencoded, hremarks⟩ := Outcome.exists_of_any (by decide +kernel :
    (Encoded.ofRole true symbols (.ofGame .none) line).toOption.any fun encoded =>
      encoded.remarks = [])
  have hfaultless : Faultless encoded.remarks := by simp [of_decide_eq_true hremarks, Faultless]
  have hcount : Scope.packedCount symbols (-1) ["\"a\"", "\"GLOBAL\"", "\"b\""] ≤ 2 := by
    decide +kernel
  obtain ⟨entry, arguments, slots, hbinds, hin, hkeeps⟩ :=
    exists_slots_of_faultless hencoded hfaultless
  have hstrings : (Call.bound symbols "ACTION.IDS" false line).toOption.map quotedStrings =
      some ["\"a\"".toList, "\"GLOBAL\"".toList, "\"b\"".toList] := by decide +kernel
  rw [hbinds.bound (by decide +kernel)] at hstrings
  exact ⟨hcount, encoded, hencoded, hfaultless, entry, arguments, slots, hbinds, hin, hkeeps,
    hkeeps.strings ["\"a\"", "\"GLOBAL\""] "\"b\"" [] (Option.some.inj hstrings) (.inr hcount)⟩

/-- An action that is an argument, the third of three strings, the point of a trigger in a profile
without it, the first of two objects of a trigger and the first of two points are not in the
record. -/
theorem arguments_dropped :
    let functions : List Entry := [⟨1, "Do", some "A:Action*".toList⟩, ⟨7, "NoAction", some []⟩,
      ⟨2, "Say", some "S:A*,S:B*,S:C*".toList⟩, ⟨3, "At", some "P:A*".toList⟩,
      ⟨5, "See", some "O:A*,O:B*".toList⟩, ⟨6, "Go", some "P:A*,P:B*".toList⟩]
    let symbols : Symbols := .build [functions.foldl Table.add (.empty "ACTION"),
      functions.foldl Table.add (.empty "TRIGGER"),
      (Table.read "OBJECT" "4 Myself\n1 Player1").value] [] [] [] none
    let drops (isAction : Bool) (game : Game) (line : Text) (dropped : Char) : Prop :=
      ∃ encoded, Encoded.ofRole isAction symbols (.ofGame game) line = .ok encoded ∧
        encoded.remarks = [] ∧ dropped ∉ encoded.text
    drops true .none "Do(NoAction())" '7' ∧
      drops true .none "Say(\"a\",\"b\",\"c\")" 'c' ∧ drops false .none "Say(\"a\",\"b\",\"c\")" 'c' ∧
      drops false .none "At([8.9])" '8' ∧ drops false .none "See(Myself,Player1)" '4' ∧
      drops true .none "Go([8.9],[1.2])" '8' ∧ drops false .torment "Go([8.9],[1.2])" '8' := by
  intro functions symbols drops
  have hdrops : ∀ isAction game line dropped, ((Encoded.ofRole isAction symbols (.ofGame game)
      line).toOption.any fun encoded => encoded.remarks = [] ∧ dropped ∉ encoded.text) →
        drops isAction game line dropped := by
    intro isAction game line dropped h
    obtain ⟨encoded, hencoded, h⟩ := Outcome.exists_of_any h
    exact ⟨encoded, hencoded, of_decide_eq_true h⟩
  refine ⟨hdrops _ _ _ _ ?_, hdrops _ _ _ _ ?_, hdrops _ _ _ _ ?_, hdrops _ _ _ _ ?_,
    hdrops _ _ _ _ ?_, hdrops _ _ _ _ ?_, hdrops _ _ _ _ ?_⟩ <;> decide +kernel

end InfinityScript
