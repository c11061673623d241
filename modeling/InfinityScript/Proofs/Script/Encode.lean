import InfinityScript.Action
import InfinityScript.Proofs.Encoding
import InfinityScript.Proofs.Text.Numeral

/-!
# Statements that are encoded

What a trigger or an action that has a record went through: the function it calls,
the arguments bound to its parameters, the fields they fill, and the layout. What one
argument does to the fields is a step of its own (`Trigger.Fields.Adds`,
`Action.Fields.Adds`).
-/

namespace InfinityScript

open Encoding

-- --------------------
-- Arguments
-- --------------------

inductive Trigger.Fields.Adds (symbols : Symbols) (profile : Profile) (entry : Entry)
    (fields : Fields) (argument : Parameter × Text) : Fields → Prop
  | string {strings : Slots} (hkind : argument.1.kind = .string)
      (hencode : Succeeds (Argument.encodeString symbols entry.name argument.1.definition
        argument.2) argument.2)
      (hfill : Succeeds (fill fields.strings argument.2) strings) :
      Adds symbols profile entry fields argument { fields with strings }
  | integer {text : Text} {integers : Slots} (hkind : argument.1.kind = .integer)
      (hencode : Succeeds (Argument.encodeInteger symbols argument.1.definition argument.2) text)
      (hfill : Succeeds (fill fields.integers text) integers) :
      Adds symbols profile entry fields argument { fields with integers }
  | object {object : Text} (hkind : argument.1.kind = .object)
      (hencode : Succeeds (Object.encode symbols profile argument.1.definition argument.2) object) :
      Adds symbols profile entry fields argument { fields with object }
  | point (hkind : argument.1.kind = .point) :
      Adds symbols profile entry fields argument
        { fields with point := Text.replaceFirst '.' ',' argument.2 }
  | action (hkind : argument.1.kind = .action) : Adds symbols profile entry fields argument fields

theorem Trigger.Fields.succeeds_add {fields next : Fields} :
    Succeeds (fields.add symbols profile entry argument) next ↔
      fields.Adds symbols profile entry argument next := by
  unfold add
  constructor
  · intro h
    cases hkind : argument.1.kind with
    | string =>
      simp only [hkind] at h
      obtain ⟨text, hencode, h⟩ := succeeds_bind.mp h
      obtain ⟨strings, hfill, h⟩ := succeeds_bind.mp h
      obtain rfl := succeeds_pure.mp h
      obtain rfl : argument.2 = text := (succeeds_ofNoted.mp hencode).1
      exact .string hkind hencode hfill
    | integer =>
      simp only [hkind] at h
      obtain ⟨text, hencode, h⟩ := succeeds_bind.mp h
      obtain ⟨integers, hfill, h⟩ := succeeds_bind.mp h
      obtain rfl := succeeds_pure.mp h
      exact .integer hkind hencode hfill
    | object =>
      simp only [hkind] at h
      obtain ⟨object, hencode, h⟩ := succeeds_bind.mp h
      obtain rfl := succeeds_pure.mp h
      exact .object hkind hencode
    | point =>
      simp only [hkind] at h
      obtain rfl := succeeds_pure.mp h
      exact .point hkind
    | action =>
      simp only [hkind] at h
      obtain rfl := succeeds_pure.mp h
      exact .action hkind
  · intro h
    cases h with
    | string hkind hencode hfill =>
      simp only [hkind]
      exact succeeds_bind.mpr
        ⟨_, hencode, succeeds_bind.mpr ⟨_, hfill, succeeds_pure.mpr rfl⟩⟩
    | integer hkind hencode hfill =>
      simp only [hkind]
      exact succeeds_bind.mpr
        ⟨_, hencode, succeeds_bind.mpr ⟨_, hfill, succeeds_pure.mpr rfl⟩⟩
    | object hkind hencode =>
      simp only [hkind]
      exact succeeds_bind.mpr ⟨_, hencode, succeeds_pure.mpr rfl⟩
    | point hkind =>
      simp only [hkind]
      exact succeeds_pure.mpr rfl
    | action hkind =>
      simp only [hkind]
      exact succeeds_pure.mpr rfl

/-- The argument goes to the objects of an action: an object, or after two strings a string that
is not quoted. -/
def Action.Fields.TakesObject (fields : Fields) (argument : Parameter × Text) : Prop :=
  argument.1.kind = .object ∨
    argument.1.kind = .string ∧ fields.strings.next = 2 ∧ argument.2.head? ≠ some '"'

inductive Action.Fields.Adds (symbols : Symbols) (profile : Profile) (entry : Entry)
    (fields : Fields) (argument : Parameter × Text) : Fields → Prop
  | string {strings : Slots} (hkind : argument.1.kind = .string)
      (hstays : ¬ fields.TakesObject argument)
      (hencode : Succeeds (Argument.encodeString symbols entry.name argument.1.definition
        argument.2) argument.2)
      (hfill : Succeeds (fill fields.strings argument.2) strings) :
      Adds symbols profile entry fields argument { fields with strings }
  | integer {text : Text} {integers : Slots} (hkind : argument.1.kind = .integer)
      (hencode : Succeeds (Argument.encodeInteger symbols argument.1.definition argument.2) text)
      (hfill : Succeeds (fill fields.integers text) integers) :
      Adds symbols profile entry fields argument { fields with integers }
  | object {object : Text} {objects : Slots} (htakes : fields.TakesObject argument)
      (hencode : Succeeds (Object.encode symbols profile argument.1.definition argument.2) object)
      (hfill : Succeeds (fill fields.objects object) objects) :
      Adds symbols profile entry fields argument { fields with objects }
  | point {point : Text} (hkind : argument.1.kind = .point)
      (hencode : Succeeds (Argument.encodePoint argument.1.definition argument.2) point) :
      Adds symbols profile entry fields argument { fields with point }
  | action (hkind : argument.1.kind = .action) : Adds symbols profile entry fields argument fields

namespace Action.Fields

variable {fields next : Fields} {argument : Parameter × Text}

theorem TakesObject.ne_point (h : fields.TakesObject argument) : argument.1.kind ≠ .point := by
  rcases h with hkind | ⟨hkind, -⟩ <;> simp [hkind]

theorem succeeds_addObject :
    Succeeds (add.addObject symbols profile fields argument.1 argument.2) next ↔
      ∃ object objects,
        Succeeds (Object.encode symbols profile argument.1.definition argument.2) object ∧
        Succeeds (fill fields.objects object) objects ∧ { fields with objects } = next := by
  simp only [add.addObject, succeeds_bind, succeeds_pure, exists_and_left]

theorem succeeds_add : Succeeds (fields.add symbols profile entry argument) next ↔
    fields.Adds symbols profile entry argument next := by
  unfold add
  constructor
  · intro h
    cases hkind : argument.1.kind with
    | string =>
      simp only [hkind] at h
      split at h
      · next htakes =>
        obtain ⟨object, objects, hencode, hfill, rfl⟩ := succeeds_addObject.mp h
        exact .object (.inr ⟨hkind, htakes⟩) hencode hfill
      · next hstays =>
        obtain ⟨text, hencode, h⟩ := succeeds_bind.mp h
        obtain ⟨strings, hfill, h⟩ := succeeds_bind.mp h
        obtain rfl := succeeds_pure.mp h
        obtain rfl : argument.2 = text := (succeeds_ofNoted.mp hencode).1
        exact .string hkind (by simpa [TakesObject, hkind] using hstays) hencode hfill
    | integer =>
      simp only [hkind] at h
      obtain ⟨text, hencode, h⟩ := succeeds_bind.mp h
      obtain ⟨integers, hfill, h⟩ := succeeds_bind.mp h
      obtain rfl := succeeds_pure.mp h
      exact .integer hkind hencode hfill
    | object =>
      simp only [hkind] at h
      obtain ⟨object, objects, hencode, hfill, rfl⟩ := succeeds_addObject.mp h
      exact .object (.inl hkind) hencode hfill
    | point =>
      simp only [hkind] at h
      obtain ⟨point, hencode, h⟩ := succeeds_bind.mp h
      obtain rfl := succeeds_pure.mp h
      exact .point hkind hencode
    | action =>
      simp only [hkind] at h
      obtain rfl := succeeds_pure.mp h
      exact .action hkind
  · intro h
    cases h with
    | string hkind hstays hencode hfill =>
      simp only [hkind]
      rw [if_neg fun htakes => hstays (.inr ⟨hkind, htakes⟩)]
      exact succeeds_bind.mpr
        ⟨_, hencode, succeeds_bind.mpr ⟨_, hfill, succeeds_pure.mpr rfl⟩⟩
    | integer hkind hencode hfill =>
      simp only [hkind]
      exact succeeds_bind.mpr
        ⟨_, hencode, succeeds_bind.mpr ⟨_, hfill, succeeds_pure.mpr rfl⟩⟩
    | object htakes hencode hfill =>
      have hobject := succeeds_addObject.mpr ⟨_, _, hencode, hfill, rfl⟩
      rcases htakes with hkind | ⟨hkind, htakes⟩
      · simpa only [hkind] using hobject
      · simpa only [hkind, if_pos htakes] using hobject
    | point hkind hencode =>
      simp only [hkind]
      exact succeeds_bind.mpr ⟨_, hencode, succeeds_pure.mpr rfl⟩
    | action hkind =>
      simp only [hkind]
      exact succeeds_pure.mpr rfl

end Action.Fields

-- --------------------
-- Calls
-- --------------------

/-- How a call becomes a record: the arguments are added to blank fields one after the other,
and the fields are laid out with the strings packed. -/
structure CallForm (σ α : Type) where
  quotesFirst : Bool
  /-- The opcode that the strings are packed for. -/
  packing : Int
  blank : σ
  add : σ → Parameter × Text → Encoding σ
  strings : σ → Slots
  layout : Int → σ → List Text → α

namespace CallForm

variable {σ α : Type}

def encode (form : CallForm σ α) (symbols : Symbols) (entry : Entry) (inside : Text) :
    Encoding α := do
  let arguments ← ofExcept (Call.arguments inside form.quotesFirst)
  let bound ← ofExcept (Call.bind entry arguments)
  let fields ← bound.foldlM form.add form.blank
  let strings ← packStrings symbols form.packing (form.strings fields).values
  let opcode ← ofNumeral (Text.writable (toSigned32 entry.id))
  return form.layout opcode fields strings

theorem succeeds_encode {form : CallForm σ α} :
    Succeeds (form.encode symbols entry inside) record ↔
      ∃ values bound fields strings,
        Call.arguments inside form.quotesFirst = .ok values ∧
        Call.bind entry values = .ok bound ∧
        Succeeds (bound.foldlM form.add form.blank) fields ∧
        Succeeds (packStrings symbols form.packing (form.strings fields).values) strings ∧
        Text.FewDigits (Text.ofInt (toSigned32 entry.id)) ∧
        record = form.layout (toSigned32 entry.id) fields strings := by
  simp only [encode, succeeds_bind, succeeds_pure, succeeds_ofExcept, succeeds_ofNumeral,
    Text.writable_eq_ok_iff]
  constructor
  · rintro ⟨values, hvalues, bound, hbound, fields, hfields, strings, hstrings, _, ⟨rfl, hfew⟩, rfl⟩
    exact ⟨values, bound, fields, strings, hvalues, hbound, hfields, hstrings, hfew, rfl⟩
  · rintro ⟨values, bound, fields, strings, hvalues, hbound, hfields, hstrings, hfew, rfl⟩
    exact ⟨values, hvalues, bound, hbound, fields, hfields, strings, hstrings, _, ⟨rfl, hfew⟩, rfl⟩

end CallForm

def Trigger.callForm (symbols : Symbols) (profile : Profile) (entry : Entry) (negated : Bool) :
    CallForm Fields (Text × Int) where
  quotesFirst := true
  packing := toSigned32 entry.id
  blank := { object := profile.emptyObject }
  add := Fields.add symbols profile entry
  strings := Fields.strings
  layout opcode fields strings := (profile.triggerLayout opcode negated fields.integers.values
    fields.point strings fields.object, orCount entry fields)

theorem Trigger.encode_eq (symbols : Symbols) (profile : Profile) (line : Text) :
    encode symbols profile line = (do
      let parts ← ofExcept (Call.split (signed line).2)
      let entry ← ofExcept (symbols.function "TRIGGER.IDS" parts.1)
      (callForm symbols profile entry (signed line).1).encode symbols entry parts.2) := rfl

def Action.callForm (symbols : Symbols) (profile : Profile) (actor : Text) (entry : Entry) :
    CallForm Fields Text where
  quotesFirst := false
  packing := -1
  blank := { objects := .blank 2 profile.emptyObject }
  add := Fields.add symbols profile entry
  strings := Fields.strings
  layout opcode fields strings := actionLayout opcode (actor :: fields.objects.values)
    fields.integers.values fields.point strings

theorem Action.encodeCall_eq (symbols : Symbols) (profile : Profile) (actor : Text) (entry : Entry)
    (inside : Text) : encodeCall symbols profile actor entry inside =
      (callForm symbols profile actor entry).encode symbols entry inside := rfl

theorem Trigger.succeeds_encode : Succeeds (Trigger.encode symbols profile line) (text, n) ↔
    ∃ name arguments entry values bound fields strings,
      Call.split (Trigger.signed line).2 = .ok (name, arguments) ∧
      symbols.function "TRIGGER.IDS" name = .ok entry ∧
      Call.arguments arguments true = .ok values ∧
      Call.bind entry values = .ok bound ∧
      Succeeds (bound.foldlM (Trigger.Fields.add symbols profile entry)
        { object := profile.emptyObject }) fields ∧
      Succeeds (packStrings symbols (toSigned32 entry.id) fields.strings.values) strings ∧
      Text.FewDigits (Text.ofInt (toSigned32 entry.id)) ∧
      text = profile.triggerLayout (toSigned32 entry.id) (Trigger.signed line).1
        fields.integers.values fields.point strings fields.object ∧
      n = Trigger.orCount entry fields := by
  rw [encode_eq]
  constructor
  · intro h
    obtain ⟨⟨name, arguments⟩, hsplit, h⟩ := succeeds_bind.mp h
    obtain ⟨entry, hentry, h⟩ := succeeds_bind.mp h
    rw [succeeds_ofExcept] at hsplit hentry
    obtain ⟨values, bound, fields, strings, hvalues, hbound, hfields, hstrings, hfew, hrecord⟩ :=
      CallForm.succeeds_encode.mp h
    obtain ⟨htext, hn⟩ := Prod.mk.inj hrecord
    exact ⟨name, arguments, entry, values, bound, fields, strings, hsplit, hentry, hvalues, hbound,
      hfields, hstrings, hfew, htext, hn⟩
  · rintro ⟨name, arguments, entry, values, bound, fields, strings, hsplit, hentry, hvalues, hbound,
      hfields, hstrings, hfew, rfl, rfl⟩
    refine succeeds_bind.mpr ⟨_, succeeds_ofExcept.mpr hsplit, ?_⟩
    refine succeeds_bind.mpr ⟨_, succeeds_ofExcept.mpr hentry, CallForm.succeeds_encode.mpr ?_⟩
    exact ⟨values, bound, fields, strings, hvalues, hbound, hfields, hstrings, hfew, rfl⟩

namespace Action

theorem succeeds_encodeCall : Succeeds (encodeCall symbols profile actor entry arguments) text ↔
    ∃ values bound fields strings,
      Call.arguments arguments false = .ok values ∧
      Call.bind entry values = .ok bound ∧
      Succeeds (bound.foldlM (Fields.add symbols profile entry)
        { objects := .blank 2 profile.emptyObject }) fields ∧
      Succeeds (packStrings symbols (-1) fields.strings.values) strings ∧
      Text.FewDigits (Text.ofInt (toSigned32 entry.id)) ∧
      text = actionLayout (toSigned32 entry.id) (actor :: fields.objects.values)
        fields.integers.values fields.point strings := by
  rw [encodeCall_eq]
  exact CallForm.succeeds_encode

/-- The call that an action makes. In an override it is for an actor, who is named
before it. -/
def call (symbols : Symbols) (line : Text) : Except Fault (Option Text × Text) := do
  let (name, arguments) ← Call.split line
  let entry ← symbols.function "ACTION.IDS" name
  if Text.upper entry.name = "ACTIONOVERRIDE" then
    match Text.cut? ',' arguments with
    | none => .error (.tooFewArguments (entry.parameters.getD []))
    | some (target, inner) => .ok (some (Text.trim target), Text.trim inner)
  else .ok (none, line)

theorem succeeds_encode (h : Succeeds (encode symbols profile line) text) :
    ∃ target inner actor name arguments entry,
      call symbols line = .ok (target, inner) ∧
      (match target with
        | none => actor = profile.emptyObject
        | some value => Succeeds (Object.encode symbols profile "O:Actor*" value) actor) ∧
      Call.split inner = .ok (name, arguments) ∧
      symbols.function "ACTION.IDS" name = .ok entry ∧
      Succeeds (encodeCall symbols profile actor entry arguments) text := by
  obtain ⟨⟨name, arguments⟩, hsplit, h⟩ := succeeds_bind.mp h
  obtain ⟨entry, hentry, h⟩ := succeeds_bind.mp h
  rw [succeeds_ofExcept] at hsplit hentry
  dsimp only at h
  split at h
  · next hoverride =>
    split at h
    · exact absurd h not_succeeds_throw
    · next target inner hcut =>
      obtain ⟨actor, hactor, h⟩ := succeeds_bind.mp h
      obtain ⟨⟨name', arguments'⟩, hinner, h⟩ := succeeds_bind.mp h
      obtain ⟨entry', hentry', h⟩ := succeeds_bind.mp h
      rw [succeeds_ofExcept] at hinner hentry'
      have hcall : call symbols line = .ok (some (Text.trim target), Text.trim inner) := by
        refine Outcome.bind_ok.mpr ⟨_, hsplit, Outcome.bind_ok.mpr ⟨entry, hentry, ?_⟩⟩
        simp only [hcut, if_pos hoverride]
      exact ⟨_, _, actor, name', arguments', entry', hcall, hactor, hinner, hentry', h⟩
  · next hplain =>
    have hcall : call symbols line = .ok (none, line) :=
      Outcome.bind_ok.mpr ⟨_, hsplit, Outcome.bind_ok.mpr ⟨entry, hentry, if_neg hplain⟩⟩
    exact ⟨_, _, _, name, arguments, entry, hcall, rfl, hsplit, hentry, h⟩

theorem succeeds_encode_of (hsplit : Call.split line = .ok (name, arguments))
    (hentry : symbols.function "ACTION.IDS" name = .ok entry)
    (hoverride : Text.upper entry.name ≠ "ACTIONOVERRIDE")
    (h : Succeeds (encodeCall symbols profile profile.emptyObject entry arguments) text) :
    Succeeds (encode symbols profile line) text := by
  refine succeeds_bind.mpr ⟨_, succeeds_ofExcept.mpr hsplit, ?_⟩
  refine succeeds_bind.mpr ⟨entry, succeeds_ofExcept.mpr hentry, ?_⟩
  rwa [if_neg hoverride]

end Action

end InfinityScript
