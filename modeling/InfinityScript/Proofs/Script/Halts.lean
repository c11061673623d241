import InfinityScript.Proofs.Argument.Call
import InfinityScript.Proofs.Argument.Halts
import InfinityScript.Proofs.Argument.Slots
import InfinityScript.Proofs.Script.Shape

/-!
# Reasons to halt

The compilation of a source goes on where a part of a statement is at fault. It halts for a
number that cannot be converted (`Conversions`), or for a profile whose zeros cannot be written
out (`Profile.HasZeros`), and for nothing else (`Compilable.ends_compile`): the strings of a
record are never empty, and its slots are filled from the first on (`Trigger.Fields.Ready`,
`Action.Fields.Ready`).
-/

namespace InfinityScript

open Encoding

variable {V : Text → Prop} {H : Halt → Prop} {symbols : Symbols} {profile : Profile}

/-- The slots hold values of `P`, and the next one to fill is counted from the start. -/
structure Slots.Ready (count : Nat) (P : Text → Prop) (slots : Slots) : Prop where
  all : slots.All count P
  next : 0 ≤ slots.next

theorem Slots.ready_blank {P : Text → Prop} (h : P value) (count : Nat) :
    (Slots.blank count value).Ready count P :=
  ⟨all_blank h count, Int.le_refl 0⟩

theorem assignSlot_ofNat (slots : List Text) (i : Nat) (value : Text) :
    assignSlot slots i value =
      if i < slots.length then .ok (slots.set i value, (i : Int) + 1)
      else .error (.fault (.noSlotLeft value)) := rfl

theorem Slots.Ready.ends_fill {P : Text → Prop} {slots : Slots} (h : slots.Ready count P)
    (hvalue : P value) : Ends (Slots.Ready count P) H (Encoding.fill slots value) := by
  obtain ⟨values, next⟩ := slots
  obtain ⟨i, rfl⟩ := Int.eq_ofNat_of_zero_le h.next
  have hset : ∀ text ∈ values.set i value, P text := by
    intro text htext
    rcases List.mem_or_eq_of_mem_set htext with hmem | rfl
    · exact h.all.2 text hmem
    · exact hvalue
  unfold Encoding.fill Slots.fill
  rw [assignSlot_ofNat]
  split
  · next filled hfilled =>
    split at hfilled
    · cases hfilled
      exact ends_pure ⟨⟨by simpa using h.all.1, hset⟩, Int.le_add_one (Int.natCast_nonneg i)⟩
    · cases hfilled
  · next refusal hrefusal =>
    split at hrefusal
    · cases hrefusal
    · cases hrefusal
      exact ends_fault _

theorem ends_packStrings (h : ∀ text ∈ strings, text ≠ []) (opcode : Int) :
    Ends (fun packed => packed.length = strings.length) H (packStrings symbols opcode strings) := by
  unfold packStrings
  split
  · next packed faults hpack => exact ends_ofNoted (Scope.length_pack hpack)
  · next reason hpack =>
    exfalso
    have hquotes : ∀ text ∈ strings, ∃ fault, Scope.quoteFault? text = .ok fault := by
      intro text htext
      obtain ⟨c, rest, rfl⟩ := List.exists_cons_of_ne_nil (h text htext)
      exact ⟨_, rfl⟩
    cases hfaults : strings.mapM Scope.quoteFault? with
    | error found =>
      obtain ⟨text, htext, hfault⟩ := Outcome.mapM_error hfaults
      obtain ⟨fault, hok⟩ := hquotes text htext
      rw [hok] at hfault
      cases hfault
    | ok faults =>
      rw [Scope.pack, hfaults] at hpack
      cases hpack

theorem Argument.ends_encodeInteger (hC : Conversions symbols V H) (definition : Text)
    (hV : V value) : Ends (fun _ => True) H (encodeInteger symbols definition value) :=
  ends_ofPart ((hC.integer definition value hV).bind fun _ _ => trivial) fun _ => trivial

theorem Argument.ends_encodePoint (definition value : Text) :
    Ends (fun _ => True) H (encodePoint definition value) :=
  ends_ofPart
    ((Outcome.ends_ofFault (P := fun _ => True) (fun _ _ => trivial) fun _ _ => trivial).bind
      fun _ _ => trivial) fun _ => trivial

theorem Object.ends_encode (hC : Conversions symbols V H)
    (hzeros : ∀ fault, profile.checkTrailing = .error fault → H (.repetition fault))
    (definition : Text) (hV : V value) :
    Ends (fun _ => True) H (Object.encode symbols profile definition value) := by
  have hcode := ends_code (T := False) (K := fun _ => True) hC (fun _ _ => trivial) trivial nofun
    hzeros definition hV fun _ _ => trivial
  exact ends_ofPart (hcode.mono (fun _ _ => trivial) fun _ => Refusal.Over.only) fun _ => trivial

structure Trigger.Fields.Ready (fields : Fields) : Prop where
  integers : fields.integers.Ready 3 fun _ => True
  strings : fields.strings.Ready 4 (· ≠ [])

theorem Trigger.Fields.ready (object : Text) : ({ object } : Fields).Ready :=
  ⟨Slots.ready_blank trivial 3, Slots.ready_blank (by decide) 4⟩

theorem Trigger.Fields.ends_add (hC : Conversions symbols V H)
    (hzeros : ∀ fault, profile.checkTrailing = .error fault → H (.repetition fault))
    (entry : Entry) {fields : Fields}
    (hfields : fields.Ready) {argument : Parameter × Text} (hV : V argument.2)
    (hne : argument.2 ≠ []) : Ends Ready H (fields.add symbols profile entry argument) := by
  obtain ⟨parameter, value⟩ := argument
  unfold Fields.add
  dsimp only at hV hne ⊢
  split
  · refine Ends.bind (P := (· ≠ [])) (ends_ofNoted hne) fun text htext => ?_
    exact (hfields.strings.ends_fill htext).bind fun strings hstrings =>
      ends_pure ⟨hfields.integers, hstrings⟩
  · refine (Argument.ends_encodeInteger hC _ hV).bind fun text htext => ?_
    exact (hfields.integers.ends_fill htext).bind fun integers hintegers =>
      ends_pure ⟨hintegers, hfields.strings⟩
  · exact (Object.ends_encode hC hzeros _ hV).bind fun object _ =>
      ends_pure ⟨hfields.integers, hfields.strings⟩
  · exact ends_pure ⟨hfields.integers, hfields.strings⟩
  · exact ends_pure hfields

structure Action.Fields.Ready (fields : Fields) : Prop where
  integers : fields.integers.Ready 3 fun _ => True
  strings : fields.strings.Ready 4 (· ≠ [])
  objects : fields.objects.Ready 2 fun _ => True

theorem Action.Fields.ready (object : Text) : ({ objects := .blank 2 object } : Fields).Ready :=
  ⟨Slots.ready_blank trivial 3, Slots.ready_blank (by decide) 4, Slots.ready_blank trivial 2⟩

theorem Action.Fields.ends_add (hC : Conversions symbols V H)
    (hzeros : ∀ fault, profile.checkTrailing = .error fault → H (.repetition fault))
    (entry : Entry) {fields : Fields}
    (hfields : fields.Ready) {argument : Parameter × Text} (hV : V argument.2)
    (hne : argument.2 ≠ []) : Ends Ready H (fields.add symbols profile entry argument) := by
  obtain ⟨parameter, value⟩ := argument
  dsimp only at hV hne
  have haddObject : Ends Ready H (add.addObject symbols profile fields parameter value) :=
    (Object.ends_encode hC hzeros _ hV).bind fun object hobject =>
      (hfields.objects.ends_fill hobject).bind fun objects hobjects =>
        ends_pure ⟨hfields.integers, hfields.strings, hobjects⟩
  unfold Fields.add
  dsimp only
  split
  · split
    · exact haddObject
    · refine Ends.bind (P := (· ≠ [])) (ends_ofNoted hne) fun text htext => ?_
      exact (hfields.strings.ends_fill htext).bind fun strings hstrings =>
        ends_pure ⟨hfields.integers, hstrings, hfields.objects⟩
  · refine (Argument.ends_encodeInteger hC _ hV).bind fun text htext => ?_
    exact (hfields.integers.ends_fill htext).bind fun integers hintegers =>
      ends_pure ⟨hintegers, hfields.strings, hfields.objects⟩
  · exact haddObject
  · exact (Argument.ends_encodePoint _ _).bind fun point _ =>
      ends_pure ⟨hfields.integers, hfields.strings, hfields.objects⟩
  · exact ends_pure hfields

theorem Call.ends_bind (hC : Conversions symbols V H) (hV : V text)
    (hvalues : arguments text quotesFirst = .ok values) (entry : Entry) :
    Ends (fun bound => ∀ argument ∈ bound, V argument.2 ∧ argument.2 ≠ []) H
      (Encoding.ofExcept (bind entry values)) :=
  ends_ofExcept fun _ hbound argument hmem =>
    ⟨hC.part (sublist_bound hvalues hbound argument hmem) hV,
      ne_nil_bound hvalues hbound argument hmem⟩

theorem Conversions.opcode (hC : Conversions symbols V H)
    (hentry : symbols.function table name = .ok entry) :
    ∀ fault, Text.writable (toSigned32 entry.id) = .error fault → H (.numeral fault) :=
  hC.id entry.id ⟨table, name, entry, (Symbols.function_ok hentry).1, rfl⟩

/-- A call halts for a reason of `H` only if adding an argument does, given fields that are ready
for arguments and strings that are never empty. -/
theorem CallForm.ends_encode {form : CallForm σ α} {Ready : σ → Prop} (hC : Conversions symbols V H)
    (hentry : symbols.function table name = .ok entry) (hinside : V inside)
    (hblank : Ready form.blank)
    (hadd : ∀ fields argument, Ready fields → V argument.2 → argument.2 ≠ [] →
      Ends Ready H (form.add fields argument))
    (hstrings : ∀ fields, Ready fields → ∀ text ∈ (form.strings fields).values, text ≠ []) :
    Ends (fun _ => True) H (form.encode symbols entry inside) := by
  refine (ends_ofExcept fun values hvalues => hvalues).bind fun values hvalues => ?_
  refine (Call.ends_bind hC hinside hvalues entry).bind fun bound hbound => ?_
  refine Ends.bind (P := Ready) (ends_foldlM hblank ?_) fun fields hfields => ?_
  · exact fun fields argument hmem hfields =>
      hadd fields argument hfields (hbound argument hmem).1 (hbound argument hmem).2
  · refine (ends_packStrings (hstrings fields hfields) _).bind fun strings _ => ?_
    have hopcode := hC.opcode hentry
    generalize Text.writable (toSigned32 entry.id) = written at hopcode ⊢
    exact (ends_ofNumeral (P := fun _ => True) (fun _ _ => trivial) hopcode).bind fun _ _ =>
      ends_pure trivial

theorem Trigger.signed_sublist (line : Text) : (signed line).2.Sublist line := by
  unfold signed
  split
  · exact List.sublist_cons_self _ _
  · exact List.Sublist.refl _

theorem Trigger.ends_encode (hC : Conversions symbols V H)
    (hzeros : ∀ fault, profile.checkTrailing = .error fault → H (.repetition fault))
    (hline : V line) :
    Ends (fun _ => True) H (encode symbols profile line) := by
  rw [encode_eq]
  refine (ends_ofExcept (P := fun parts => V parts.2) fun parts hparts => hC.part
    ((Call.split_sublist hparts).2.trans (signed_sublist line)) hline).bind fun parts hinside => ?_
  refine (ends_ofExcept fun entry hentry => hentry).bind fun entry hentry => ?_
  exact CallForm.ends_encode hC hentry hinside (Fields.ready _)
    (fun fields _ hfields => fields.ends_add hC hzeros entry hfields)
    fun _ hfields => hfields.strings.all.2

theorem Action.ends_encodeCall (hC : Conversions symbols V H)
    (hzeros : ∀ fault, profile.checkTrailing = .error fault → H (.repetition fault))
    (hentry : symbols.function table name = .ok entry)
    (hinside : V inside) (actor : Text) :
    Ends (fun _ => True) H (encodeCall symbols profile actor entry inside) := by
  rw [encodeCall_eq]
  exact CallForm.ends_encode hC hentry hinside (Fields.ready _)
    (fun fields _ hfields => fields.ends_add hC hzeros entry hfields)
    fun _ hfields => hfields.strings.all.2

theorem Action.ends_encode (hC : Conversions symbols V H)
    (hzeros : ∀ fault, profile.checkTrailing = .error fault → H (.repetition fault))
    (hline : V line) :
    Ends (fun _ => True) H (encode symbols profile line) := by
  have hsplit : ∀ {line : Text}, V line → Ends (fun parts => V parts.2) H
      (Encoding.ofExcept (Call.split line)) := fun hline =>
    ends_ofExcept fun parts hparts => hC.part (Call.split_sublist hparts).2 hline
  refine (hsplit hline).bind fun parts hinside => ?_
  refine (ends_ofExcept fun entry hentry => hentry).bind fun entry hentry => ?_
  dsimp only
  split
  · split
    · exact ends_fault _
    · next target inner hcut =>
      obtain ⟨-, hparts⟩ := Text.cut?_eq_some hcut
      rw [hparts] at hinside
      have htarget : V (Text.trim target) :=
        hC.part ((Text.trim_sublist target).trans (List.sublist_append_left _ _)) hinside
      have hinner : V (Text.trim inner) := hC.part ((Text.trim_sublist inner).trans
        ((List.sublist_cons_self _ inner).trans (List.sublist_append_right _ _))) hinside
      refine (Object.ends_encode hC hzeros _ htarget).bind fun actor _ => ?_
      refine (hsplit hinner).bind fun parts hinside => ?_
      exact (ends_ofExcept fun entry hentry => hentry).bind fun entry hentry =>
        ends_encodeCall hC hzeros hentry hinside actor
  · exact ends_encodeCall hC hzeros hentry hinside _

theorem Encoded.ends_settle {encoding : Encoding α} (h : Ends (fun _ => True) H encoding)
    (ofRecord : α → List Remark → Encoded) :
    Outcome.Ends (fun _ => True) H (settle encoding ofRecord) := by
  obtain ⟨value, remarks⟩ := encoding
  cases value with
  | ok record => trivial
  | error refusal =>
    cases refusal with
    | fault fault => trivial
    | halt reason => exact h

/-- The zeros of an object that says nothing, before its qualifiers and after, can be
written out. -/
structure Profile.HasZeros (profile : Profile) : Prop where
  widths : profile.checkWidths = .ok ()
  trailing : profile.checkTrailing = .ok ()

theorem Profile.HasZeros.trailing_error (h : profile.HasZeros) :
    ∀ fault, profile.checkTrailing = .error fault → H (.repetition fault) := by
  intro fault hfault
  rw [h.trailing] at hfault
  cases hfault

theorem Profile.hasZeros_ofGame (game : Game) : (Profile.ofGame game).HasZeros := by
  cases game <;> exact ⟨rfl, rfl⟩

/-- What the lines of a source may hold, and what the profile must. -/
structure Compilable (V : Text → Prop) (profile : Profile) (source : Source) : Prop where
  zeros : profile.HasZeros
  lines : ∀ line ∈ source.listing.lines, V line.text

namespace Compilable

variable {source : Source}

theorem ends_trigger (h : Compilable V profile source) (hC : Conversions symbols V H)
    (hline : ∃ line ∈ source.listing.lines, line.text = text) :
    Outcome.Ends (fun _ => True) H (Encoded.trigger symbols profile text) := by
  obtain ⟨line, hmem, rfl⟩ := hline
  exact Encoded.ends_settle (Trigger.ends_encode hC h.zeros.trailing_error (h.lines line hmem)) _

theorem ends_action (h : Compilable V profile source) (hC : Conversions symbols V H)
    (hline : ∃ line ∈ source.listing.lines, line.text = text) :
    Outcome.Ends (fun _ => True) H (Encoded.action symbols profile text) := by
  obtain ⟨line, hmem, rfl⟩ := hline
  exact Encoded.ends_settle (Action.ends_encode hC h.zeros.trailing_error (h.lines line hmem)) _

theorem ends_block (h : Compilable V profile source) (hC : Conversions symbols V H)
    (hblock : block ∈ (Outline.ofLines source.listing.lines).blocks) :
    Outcome.Ends (fun _ => True) H (Block.encode symbols profile block) := by
  obtain ⟨htriggers, hbody⟩ := Outline.mem_lines_of_mem_blocks hblock
  refine (Outcome.ends_mapM (P := fun _ => True) fun trigger htrigger => ?_).bind
    fun triggers _ => ?_
  · exact (h.ends_trigger hC (htriggers trigger htrigger)).bind fun _ _ => trivial
  · refine (Outcome.ends_mapM (P := fun _ => True) fun found hfound => ?_).bind
      fun body _ => trivial
    refine Outcome.Ends.bind (P := fun _ => True) ?_ fun _ _ => trivial
    obtain ⟨line, hline, htext⟩ := hbody found hfound
    cases hstatement : found.2 with
    | response weight => trivial
    | action statement =>
      rw [hstatement] at htext
      unfold BodyLine.ofText at htext
      split at htext
      · cases htext
      · cases htext
        exact (h.ends_action hC ⟨line, hline, rfl⟩).bind fun _ _ => trivial

theorem ends_compile (h : Compilable V profile source) (hC : Conversions symbols V H) :
    Outcome.Ends (fun _ => True) H (compile symbols profile source) := by
  rw [compile, h.zeros.widths]
  exact (Outcome.ends_mapM fun block hblock => h.ends_block hC hblock).bind fun _ _ => trivial

theorem ends_compileDialog (h : Compilable V profile source) (hC : Conversions symbols V H)
    (isAction : Bool) :
    Outcome.Ends (fun _ => True) H (compileDialog symbols profile source isAction) := by
  rw [compileDialog, h.zeros.widths]
  refine (Outcome.ends_mapM (P := fun _ => True) fun line hline => ?_).bind fun _ _ => trivial
  refine Outcome.Ends.bind (P := fun _ => True) ?_ fun _ _ => trivial
  cases isAction with
  | true => exact h.ends_action hC ⟨line, hline, rfl⟩
  | false => exact h.ends_trigger hC ⟨line, hline, rfl⟩

end Compilable

end InfinityScript
