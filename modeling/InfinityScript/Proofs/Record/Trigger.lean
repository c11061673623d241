import InfinityScript.Proofs.Argument.Call
import InfinityScript.Proofs.Argument.Object
import InfinityScript.Proofs.Record.OrCount

/-!
# Triggers that are read back

A trigger that is encoded without a fault is read back from its record as the call of
a function of its table (`Trigger.exists_chunk`), when the texts that go into the record
as they are end where they should (`Trigger.Plain`).
-/

namespace InfinityScript

open Encoding

namespace TriggerRecord.Yields

variable {symbols : Symbols} {profile : Profile} {record : TriggerRecord} {A B : Text → Prop}

theorem and (ha : record.Yields symbols profile A) (hb : record.Yields symbols profile B) :
    record.Yields symbols profile fun text => A text ∧ B text where
  object := ⟨ha.object, hb.object⟩
  integer parameter i := ⟨ha.integer parameter i, hb.integer parameter i⟩
  empty := ⟨ha.empty, hb.empty⟩
  string first second h text htext :=
    ⟨ha.string first second h text htext, hb.string first second h text htext⟩
  noPoint := ⟨ha.noPoint, hb.noPoint⟩
  point point h := ⟨ha.point point h, hb.point point h⟩

end TriggerRecord.Yields

namespace Trigger

variable {symbols : Symbols} {profile : Profile}

theorem Says.mono {A B : Text → Prop} (h : Says symbols A text)
    (hab : ∀ argument, A argument → B argument) : Says symbols B text := by
  obtain ⟨entry, negated, arguments, comment, hentry, harguments, htext⟩ := h
  exact ⟨entry, negated, arguments, comment, hentry,
    fun argument hmem => hab argument (harguments argument hmem), htext⟩

def PlainArgument (symbols : Symbols) (profile : Profile) (argument : Parameter × Text) : Prop :=
  match argument.1.kind with
  | .string => argument.2.head? = some '"' → Quoted argument.2
  | .object => Object.Plain symbols profile argument.2
  | .point => profile.hasTriggerPoint → Bracketed argument.2
  | .integer | .action => True

instance : Decidable (PlainArgument symbols profile argument) :=
  match argument with
  | ({ kind := .string, .. }, value) =>
    inferInstanceAs (Decidable (value.head? = some '"' → Quoted value))
  | ({ kind := .object, .. }, value) =>
    inferInstanceAs (Decidable (Object.Plain symbols profile value))
  | ({ kind := .point, .. }, value) =>
    inferInstanceAs (Decidable (profile.hasTriggerPoint → Bracketed value))
  | ({ kind := .integer, .. }, _) | ({ kind := .action, .. }, _) =>
    inferInstanceAs (Decidable True)

def Plain (symbols : Symbols) (profile : Profile) (line : Text) : Prop :=
  ∀ arguments ∈ (Call.bound symbols "TRIGGER.IDS" true (signed line).2).toOption,
    ∀ argument ∈ arguments, PlainArgument symbols profile argument

instance : Decidable (Plain symbols profile line) :=
  inferInstanceAs (Decidable (∀ arguments ∈ Except.toOption _, _))

structure Fields.Fit (profile : Profile) (fields : Fields) : Prop where
  integers : fields.integers.All 3 IsNumber
  strings : fields.strings.All 4 fun text => text.head? = some '"' → IsString (· ≠ '\n') text
  object : ∃ object : ObjectFields, object.Fits profile fields.object
  point : profile.hasTriggerPoint → Bracketed fields.point ∧ '\n' ∉ fields.point

theorem replaceFirst_append (h : c ≠ old) (body : Text) :
    Text.replaceFirst old new (body ++ [c]) = Text.replaceFirst old new body ++ [c] := by
  induction body with
  | nil => simp [Text.replaceFirst, h]
  | cons d body ih =>
    by_cases hd : d = old
    · simp [Text.replaceFirst, hd]
    · simp [Text.replaceFirst, hd, ih]

theorem bracketed_replaceFirst (h : Bracketed value) (hline : '\n' ∉ value) :
    Bracketed (Text.replaceFirst '.' ',' value) ∧ '\n' ∉ Text.replaceFirst '.' ',' value := by
  obtain ⟨body, rfl, hbody⟩ := h
  have hreplace : Text.replaceFirst '.' ',' ('[' :: (body ++ [']'])) =
      '[' :: (Text.replaceFirst '.' ',' body ++ [']']) := by
    rw [Text.replaceFirst, if_neg (by decide), replaceFirst_append (by decide)]
  refine ⟨⟨_, hreplace, fun hmem => ?_⟩, fun hmem => ?_⟩
  · exact (Text.mem_replaceFirst hmem).elim (by decide) hbody
  · exact (Text.mem_replaceFirst hmem).elim (by decide) hline

theorem Fields.fit_blank (hprofile : profile.Regular) :
    Fields.Fit profile { object := profile.emptyObject } where
  integers := Slots.all_blank ⟨0, rfl, by decide⟩ 3
  strings := Slots.all_blank (fun _ => ⟨quoted_emptyString, by decide⟩) 4
  object := Profile.exists_fits_emptyObject hprofile
  point _ := ⟨⟨"0,0", rfl, by decide⟩, (by decide : '\n' ∉ "[0,0]".toList)⟩

theorem Fields.Fit.add (hprofile : profile.Regular) {fields fields' : Fields}
    (hfields : fields.Fit profile) (hplain : PlainArgument symbols profile argument)
    (hline : '\n' ∉ argument.2)
    (h : Succeeds (fields.add symbols profile entry argument) fields') : fields'.Fit profile := by
  unfold PlainArgument at hplain
  cases Fields.succeeds_add.mp h with
  | string hkind _ hfill =>
    simp only [hkind] at hplain
    have hstring : argument.2.head? = some '"' → IsString (· ≠ '\n') argument.2 := fun hhead =>
      ⟨hplain hhead, fun c hc e => hline (e ▸ hc)⟩
    exact { hfields with strings := hfields.strings.fill hstring hfill }
  | integer _ hencode hfill =>
    have hnumber := Argument.isNumber_encodeInteger hencode
    exact { hfields with integers := hfields.integers.fill hnumber hfill }
  | object hkind hencode =>
    simp only [hkind] at hplain
    obtain ⟨part, hpart, rfl, -⟩ := succeeds_ofPart.mp hencode
    exact { hfields with object := Object.exists_fits_code hprofile hline hplain hpart }
  | point hkind =>
    simp only [hkind] at hplain
    exact { hfields with point := fun hpoint => bracketed_replaceFirst (hplain hpoint) hline }
  | action _ => exact hfields

end Trigger

structure TriggerFields.Fits (profile : Profile) (object : Text) (fields : TriggerFields) :
    Prop where
  closed : fields.Closed
  oneLine : fields.record.OneLine
  few : ∀ n ∈ fields.numbers, Text.FewDigits (Text.ofInt n)
  object : fields.object.Fits profile object

namespace TriggerFields.Fits

variable {symbols : Symbols} {profile : Profile} {fields : TriggerFields} {object : Text}

theorem exists_chunk (h : fields.Fits profile object) (hprofile : profile.Regular)
    (hread : symbols.Made Entry.IsRead) (hsound : symbols.Sound)
    (hdefinition : Trigger.definition? symbols fields.opcode = some (entry, n)) :
    ∃ chunk : Chunk .trigger (Trigger.decode symbols profile), chunk.text = fields.text object ∧
      Trigger.Says symbols (fun text => '\n' ∉ text ∧ Text.Countable text) chunk.line.text := by
  have hyields := (h.oneLine.yields hread profile).and
    (countable_yields (hsound.few hread) profile h.closed h.few h.object.countable)
  have hexpress := Trigger.ends_express (hsound.signatureFaults hread _)
    (Trigger.definition?_byId? hdefinition) hyields
  exact TriggerFields.exists_chunk hprofile.sized h.closed h.object.toReads h.few hdefinition hexpress

end TriggerFields.Fits

namespace Trigger

variable {symbols : Symbols} {profile : Profile}

theorem Fields.Fit.exists_fields {fields : Fields} {strings : List Text} (h : fields.Fit profile)
    (hcount : strings.length = 4) (hstrings : ∀ text ∈ strings, IsString (· ≠ '\n') text)
    (hopcode : Text.FewDigits (Text.ofInt opcode)) (negated : Bool) :
    ∃ found : TriggerFields, found.Fits profile fields.object ∧ found.opcode = opcode ∧
      profile.triggerLayout opcode negated fields.integers.values fields.point strings
        fields.object = found.text fields.object := by
  obtain ⟨first, second, third, hvalues, hfew⟩ := h.integers.exists_numbers
  obtain ⟨object, hobject⟩ := h.object
  match strings, hcount with
  | [string1, string2, _, _], _ =>
    obtain ⟨hquoted1, hline1⟩ := hstrings string1 (by simp)
    obtain ⟨hquoted2, hline2⟩ := hstrings string2 (by simp)
    have hpoint : ∀ point ∈ (if profile.hasTriggerPoint then some fields.point else none),
        Bracketed point ∧ '\n' ∉ point := by
      intro point hmem
      split at hmem
      · next hhas => exact Option.some.inj hmem ▸ h.point hhas
      · cases hmem
    refine ⟨{ opcode, first, flag := if negated then 1 else 0, second, third,
              point := if profile.hasTriggerPoint then some fields.point else none,
              string1, string2, object }, ⟨?_, ?_, ?_, hobject⟩, rfl, ?_⟩
    · exact ⟨fun point hmem => (hpoint point hmem).1, hquoted1, hquoted2⟩
    · refine ⟨fun point hmem => (hpoint point hmem).2, fun strings hmem => ?_, hobject.oneLine⟩
      obtain rfl := Option.some.inj hmem
      exact ⟨fun hmem => hline1 _ hmem rfl, fun hmem => hline2 _ hmem rfl⟩
    · have hflag : Text.FewDigits (Text.ofInt (if negated then 1 else 0)) := by
        cases negated <;> decide
      simp only [TriggerFields.numbers, List.mem_cons, List.not_mem_nil, or_false]
      rintro n (rfl | rfl | rfl | rfl | rfl)
      · exact hopcode
      · exact hfew _ (by simp)
      · exact hflag
      · exact hfew _ (by simp)
      · exact hfew _ (by simp)
    · have hflag : (if negated then ("1" : Text) else "0") =
          Text.ofInt (if negated then 1 else 0) := by
        cases negated <;> rfl
      have hpoints : (if profile.hasTriggerPoint then [fields.point] else []) =
          (if profile.hasTriggerPoint then some fields.point else none).toList := by
        split <;> rfl
      simp only [Profile.triggerLayout, TriggerFields.text, hvalues, hflag, hpoints]
      rfl

theorem exists_definition (hread : symbols.Made Entry.IsRead) (hsound : symbols.Sound)
    (h : symbols.function "TRIGGER.IDS" name = .ok entry) :
    ∃ found, definition? symbols (toSigned32 entry.id) = some (found, toSigned32 entry.id) := by
  obtain ⟨hname, hfunction⟩ := Symbols.function_ok h
  obtain ⟨found, hfound⟩ :=
    Option.isSome_iff_exists.mp (hsound.isSome_byId? hread hname hfunction)
  exact ⟨found, by rw [definition?, hfound]⟩

theorem newline_notMem_signed (hline : '\n' ∉ line) : '\n' ∉ (signed line).2 := by
  unfold signed
  split
  · exact fun hmem => hline (List.mem_cons_of_mem _ hmem)
  · exact hline

/-- A plain trigger that is encoded without a fault is read back. -/
theorem exists_chunk (hprofile : profile.Regular) (hread : symbols.Made Entry.IsRead)
    (hsound : symbols.Sound) (hline : '\n' ∉ line) (hplain : Plain symbols profile line)
    (h : Succeeds (encode symbols profile line) (text, n)) :
    ∃ chunk : Chunk .trigger (decode symbols profile), chunk.text = text ∧
      Says symbols (fun text => '\n' ∉ text) chunk.line.text ∧
      (Decompiler.orCount chunk.line.text).isOk := by
  obtain ⟨name, arguments, entry, values, bound, fields, strings, hsplit, hentry, hvalues, hbound,
    hfields, hstrings, hfew, rfl, -⟩ := succeeds_encode.mp h
  have hplain := hplain bound (by rw [Call.bound_eq hsplit hentry hvalues, hbound]; rfl)
  have hnewline := Call.newline_notMem_bound
    (fun hmem => newline_notMem_signed hline (Call.split_ok hsplit hmem)) hvalues hbound
  have hfit : fields.Fit profile := invariant_foldlM hfields (Fields.fit_blank hprofile)
    fun _ _ argument hmem hstate hadd =>
      hstate.add hprofile (hplain argument hmem) (hnewline argument hmem) hadd
  obtain ⟨hcount, hstrings⟩ :=
    Scope.all_pack (by decide) (succeeds_packStrings.mp hstrings) hfit.strings.2
  obtain ⟨found, hfits, hopcode, htext⟩ :=
    hfit.exists_fields (hcount.trans hfit.strings.1) hstrings hfew (signed line).1
  obtain ⟨definition, hdefinition⟩ := exists_definition hread hsound hentry
  rw [← hopcode] at hdefinition
  obtain ⟨chunk, hchunk, hline⟩ := hfits.exists_chunk hprofile hread hsound hdefinition
  exact ⟨chunk, hchunk.trans htext.symm, hline.mono fun _ h => h.1,
    (hline.mono fun _ h => h.2).isOk_orCount (hsound.few hread)⟩

end Trigger

end InfinityScript
