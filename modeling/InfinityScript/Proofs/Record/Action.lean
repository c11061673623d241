import InfinityScript.Proofs.Record.Trigger

/-!
# Actions that are read back

An action that is encoded without a fault is read back from its record as the call of
a function of its table (`Action.exists_chunk`), when its points have two components and
the texts that go into the record as they are end where they should (`Action.Plain`).
-/

namespace InfinityScript

open Encoding

/-- The character stays on its line and is no digit that forms no number. -/
def IsPlainChar (c : Char) : Prop := c ≠ '\n' ∧ (Text.isDigit c → Text.isDecimalDigit c)

instance : Decidable (IsPlainChar c) := inferInstanceAs (Decidable (_ ∧ _))

theorem Comment.exists_spellNames (symbols : Symbols)
    (h : ∀ c ∈ text, Text.isDigit c → Text.isDecimalDigit c) :
    ∃ names, spellNames symbols text = .ok names := by
  fun_induction spellNames symbols text with
  | case1 a b c d rest chunk hdigits hnone =>
    have hall : ∀ x ∈ chunk, Text.isDigit x := by
      simpa [Text.isDigits, chunk] using hdigits
    have hmem : ∀ x ∈ chunk, x ∈ a :: b :: c :: d :: rest := fun x hx =>
      (List.prefix_append chunk rest).subset hx
    have hread := Text.readNat?_isSome (by simp [chunk]) fun x hx =>
      h x (hmem x hx) (hall x hx)
    rw [hnone] at hread
    cases hread
  | case2 a b c d rest chunk hdigits number hnumber ih =>
    obtain ⟨names, hnames⟩ := ih fun x hx => h x (by simp [hx])
    exact ⟨_, by rw [hnames]; rfl⟩
  | case3 a b c d rest chunk hdigits => exact ⟨[], rfl⟩
  | case4 => exact ⟨[], rfl⟩

theorem Comment.ofSpells_ne_error (symbols : Symbols)
    (h : ∀ c ∈ text, Text.isDigit c → Text.isDecimalDigit c) :
    ofSpells symbols text ≠ .error abort := by
  obtain ⟨names, hnames⟩ := exists_spellNames symbols fun c hc => h c (Text.inner_subset text hc)
  rw [ofSpells, hnames]
  nofun

namespace Action

variable {symbols : Symbols} {profile : Profile}

/-- An argument that goes into an action record as its own fields. Where a string may
stand, what is not quoted is an object. -/
def PlainArgument (symbols : Symbols) (profile : Profile) (argument : Parameter × Text) : Prop :=
  match argument.1.kind with
  | .string =>
    if argument.2.head? = some '"' then
      Quoted argument.2 ∧ ∀ c ∈ argument.2, Text.isDigit c → Text.isDecimalDigit c
    else Object.Plain symbols profile argument.2
  | .object => Object.Plain symbols profile argument.2
  | .point => (Text.splitOn '.' (Text.inner argument.2)).length = 2
  | .integer | .action => True

instance : Decidable (PlainArgument symbols profile argument) :=
  match argument with
  | ({ kind := .string, .. }, _) => inferInstanceAs (Decidable (ite _ _ _))
  | ({ kind := .object, .. }, value) =>
    inferInstanceAs (Decidable (Object.Plain symbols profile value))
  | ({ kind := .point, .. }, _) => inferInstanceAs (Decidable (_ = 2))
  | ({ kind := .integer, .. }, _) | ({ kind := .action, .. }, _) =>
    inferInstanceAs (Decidable True)

def Plain (symbols : Symbols) (profile : Profile) (line : Text) : Prop :=
  ∀ parts ∈ (call symbols line).toOption,
    (∀ actor ∈ parts.1, Object.Plain symbols profile actor) ∧
    ∀ arguments ∈ (Call.bound symbols "ACTION.IDS" false parts.2).toOption,
      ∀ argument ∈ arguments, PlainArgument symbols profile argument

instance : Decidable (Plain symbols profile line) :=
  inferInstanceAs (Decidable (∀ parts ∈ (call symbols line).toOption, _ ∧ _))

structure Fields.Fit (profile : Profile) (fields : Fields) : Prop where
  integers : fields.integers.All 3 IsNumber
  strings : fields.strings.All 4 fun text => text.head? = some '"' → IsString IsPlainChar text
  objects : fields.objects.All 2 fun text => ∃ object : ObjectFields, object.Fits profile text
  point : Argument.IsPoint fields.point

theorem Fields.fit_blank (hprofile : profile.Regular) :
    Fields.Fit profile { objects := .blank 2 profile.emptyObject } where
  integers := Slots.all_blank ⟨0, rfl, by decide⟩ 3
  strings := Slots.all_blank (fun _ => ⟨quoted_emptyString, by decide⟩) 4
  objects := Slots.all_blank (Profile.exists_fits_emptyObject hprofile) 2
  point := ⟨0, 0, rfl, by decide, by decide⟩

theorem Fields.Fit.add (hprofile : profile.Regular) {fields fields' : Fields}
    (hfields : fields.Fit profile) (hplain : PlainArgument symbols profile argument)
    (hline : '\n' ∉ argument.2)
    (h : Succeeds (fields.add symbols profile entry argument) fields') : fields'.Fit profile := by
  unfold PlainArgument at hplain
  cases Fields.succeeds_add.mp h with
  | string hkind _ _ hfill =>
    simp only [hkind] at hplain
    have hstring : argument.2.head? = some '"' → IsString IsPlainChar argument.2 := fun hhead => by
      rw [if_pos hhead] at hplain
      exact ⟨hplain.1, fun c hc => ⟨fun e => hline (e ▸ hc), hplain.2 c hc⟩⟩
    exact { hfields with strings := hfields.strings.fill hstring hfill }
  | integer _ hencode hfill =>
    have hnumber := Argument.isNumber_encodeInteger hencode
    exact { hfields with integers := hfields.integers.fill hnumber hfill }
  | object htakes hencode hfill =>
    have hplain : Object.Plain symbols profile argument.2 := by
      rcases htakes with hkind | ⟨hkind, -, hunquoted⟩
      · simpa only [hkind] using hplain
      · simpa only [hkind, if_neg hunquoted] using hplain
    obtain ⟨part, hpart, rfl, -⟩ := succeeds_ofPart.mp hencode
    have hfits := Object.exists_fits_code hprofile hline hplain hpart
    exact { hfields with objects := hfields.objects.fill hfits hfill }
  | point hkind hencode =>
    simp only [hkind] at hplain
    exact { hfields with point := Argument.isPoint_encodePoint hplain hencode }
  | action _ => exact hfields

end Action

structure ActionFields.Fits (profile : Profile) (actor object1 object2 : Text)
    (fields : ActionFields) : Prop where
  actor : fields.actor.Fits profile actor
  object1 : fields.object1.Fits profile object1
  object2 : fields.object2.Fits profile object2
  string1 : IsString IsPlainChar fields.string1
  string2 : IsString IsPlainChar fields.string2
  few : ∀ n ∈ [fields.opcode, fields.first, fields.x, fields.y, fields.second, fields.third],
    Text.FewDigits (Text.ofInt n)

namespace ActionFields.Fits

variable {symbols : Symbols} {profile : Profile} {fields : ActionFields}
  {actor object1 object2 : Text}

theorem oneLine (h : fields.Fits profile actor object1 object2) : fields.record.OneLine where
  actor := h.actor.oneLine
  objects := by simp [record, h.object1.oneLine, h.object2.oneLine]
  strings strings hmem := by
    obtain rfl := Option.some.inj hmem
    exact ⟨fun hmem => (h.string1.2 _ hmem).1 rfl, fun hmem => (h.string2.2 _ hmem).1 rfl⟩

/-- The strings that the record gives to a call are made of its own. -/
theorem isPlainChar (h : fields.Fits profile actor object1 object2)
    (hvalue : fields.record.IsString symbols profile value) : ∀ c ∈ value, IsPlainChar c := by
  have hempty : ∀ c ∈ emptyString, IsPlainChar c := by decide
  intro c hc
  rcases hvalue with rfl | ⟨signature, hmem⟩
  · exact hempty c hc
  · obtain ⟨found, hfound, hc⟩ := Action.mem_reclaimScope hmem hc
    rcases Scope.mem_unpack hfound hc with rfl | hc | hc
    · exact hempty '"' (by decide)
    · exact h.string1.2 c hc
    · exact h.string2.2 c hc

theorem exists_chunk (h : fields.Fits profile actor object1 object2) (hprofile : profile.Regular)
    (hread : symbols.Made Entry.IsRead) (hsound : symbols.Sound)
    (hid : (symbols.byId? "ACTION.IDS" fields.opcode).isSome) :
    ∃ chunk : Chunk .action (Action.decode symbols profile),
      chunk.text = fields.text actor object1 object2 ∧
      Action.Says symbols (fun text => '\n' ∉ text) chunk.line.text := by
  have hexpress := Action.ends_express (hsound.signatureFaults hread _)
    (h.oneLine.yields hread profile) fun value abort hvalue =>
      Comment.ofSpells_ne_error symbols fun c hc => (h.isPlainChar hvalue c hc).2
  have hreads : fields.Reads profile actor object1 object2 :=
    ⟨h.actor.toReads, h.object1.toReads, h.object2.toReads, h.string1.1, h.string2.1, h.few⟩
  obtain ⟨chunk, hchunk, hline⟩ := hreads.exists_chunk hprofile.sized hexpress
  exact ⟨chunk, hchunk,
    hline.resolve_right fun hnone => Option.isSome_iff_ne_none.mp hid hnone.1⟩

end ActionFields.Fits

namespace Action

variable {symbols : Symbols} {profile : Profile}

theorem Fields.Fit.exists_fields {fields : Fields} {strings : List Text} (h : fields.Fit profile)
    (hcount : strings.length = 4) (hstrings : ∀ text ∈ strings, IsString IsPlainChar text)
    {actorFields : ObjectFields} (hactor : actorFields.Fits profile actor)
    (hopcode : Text.FewDigits (Text.ofInt opcode)) :
    ∃ object1 object2, ∃ found : ActionFields, found.Fits profile actor object1 object2 ∧
      found.opcode = opcode ∧
      actionLayout opcode (actor :: fields.objects.values) fields.integers.values fields.point
        strings = found.text actor object1 object2 := by
  obtain ⟨first, second, third, hvalues, hfew⟩ := h.integers.exists_numbers
  obtain ⟨x, y, hpoint, hx, hy⟩ := h.point
  obtain ⟨hlength, hobjects⟩ := h.objects
  match hslots : fields.objects.values, hlength, strings, hcount with
  | [object1, object2], _, [string1, string2, _, _], _ =>
    rw [hslots] at hobjects
    obtain ⟨fields1, hobject1⟩ := hobjects object1 (by simp)
    obtain ⟨fields2, hobject2⟩ := hobjects object2 (by simp)
    refine ⟨object1, object2,
      { opcode, actor := actorFields, object1 := fields1, object2 := fields2,
        first, x, y, second, third, string1, string2 },
      ⟨hactor, hobject1, hobject2, hstrings string1 (by simp), hstrings string2 (by simp), ?_⟩,
      rfl, ?_⟩
    · simp only [List.mem_cons, List.not_mem_nil, or_false]
      rintro n (rfl | rfl | rfl | rfl | rfl | rfl)
      · exact hopcode
      · exact hfew _ (by simp)
      · exact hx
      · exact hy
      · exact hfew _ (by simp)
      · exact hfew _ (by simp)
    · rw [hvalues, hpoint]
      rfl

theorem call_ok {line inner : Text} (h : call symbols line = .ok (target, inner)) :
    (∀ actor ∈ target, actor ⊆ line) ∧ inner ⊆ line := by
  obtain ⟨⟨name, arguments⟩, hsplit, h⟩ := Outcome.bind_ok.mp h
  obtain ⟨entry, -, h⟩ := Outcome.bind_ok.mp h
  have harguments := Call.split_ok hsplit
  split at h
  · split at h
    · cases h
    · next before after hcut =>
      obtain ⟨rfl, rfl⟩ := Prod.mk.inj (Except.ok.inj h)
      have hparts := (Text.cut?_eq_some hcut).2
      refine ⟨fun actor hactor c hc => harguments ?_, fun c hc => harguments ?_⟩
      · obtain rfl := Option.some.inj hactor
        simp [hparts, Text.trim_subset before hc]
      · simp [hparts, Text.trim_subset after hc]
  · obtain ⟨rfl, rfl⟩ := Prod.mk.inj (Except.ok.inj h)
    exact ⟨by simp, List.Subset.refl _⟩

/-- A plain action that is encoded without a fault is read back. -/
theorem exists_chunk (hprofile : profile.Regular) (hread : symbols.Made Entry.IsRead)
    (hsound : symbols.Sound) (hline : '\n' ∉ line) (hplain : Plain symbols profile line)
    (h : Succeeds (encode symbols profile line) text) :
    ∃ chunk : Chunk .action (decode symbols profile), chunk.text = text ∧
      Says symbols (fun text => '\n' ∉ text) chunk.line.text := by
  obtain ⟨target, inner, actor, name, arguments, entry, hcall, hactor, hsplit, hentry, h⟩ :=
    succeeds_encode h
  obtain ⟨values, bound, fields, strings, hvalues, hbound, hfields, hstrings, hfew, rfl⟩ :=
    succeeds_encodeCall.mp h
  obtain ⟨htarget, hinner⟩ := call_ok hcall
  obtain ⟨hplainActor, hplain⟩ := hplain (target, inner) (by rw [hcall]; rfl)
  have hplain := hplain bound (by rw [Call.bound_eq hsplit hentry hvalues, hbound]; rfl)
  have hnewline := Call.newline_notMem_bound
    (fun hmem => hline (hinner (Call.split_ok hsplit hmem))) hvalues hbound
  have hactor : ∃ object : ObjectFields, object.Fits profile actor := by
    cases target with
    | none =>
      subst hactor
      exact Profile.exists_fits_emptyObject hprofile
    | some value =>
      obtain ⟨part, hpart, rfl, -⟩ := succeeds_ofPart.mp hactor
      exact Object.exists_fits_code hprofile (fun hmem => hline (htarget value rfl hmem))
        (hplainActor value rfl) hpart
  obtain ⟨actorFields, hactor⟩ := hactor
  have hfit : fields.Fit profile := invariant_foldlM hfields (Fields.fit_blank hprofile)
    fun _ _ argument hmem hstate hadd =>
      hstate.add hprofile (hplain argument hmem) (hnewline argument hmem) hadd
  obtain ⟨hcount, hstrings⟩ :=
    Scope.all_pack (by decide) (succeeds_packStrings.mp hstrings) hfit.strings.2
  obtain ⟨object1, object2, found, hfits, hopcode, htext⟩ :=
    hfit.exists_fields (hcount.trans hfit.strings.1) hstrings hactor hfew
  obtain ⟨hname, hfunction⟩ := Symbols.function_ok hentry
  have hid := hsound.isSome_byId? hread hname hfunction
  rw [← hopcode] at hid
  obtain ⟨chunk, hchunk, hline⟩ := hfits.exists_chunk hprofile hread hsound hid
  exact ⟨chunk, hchunk.trans htext.symm, hline⟩

end Action

end InfinityScript
