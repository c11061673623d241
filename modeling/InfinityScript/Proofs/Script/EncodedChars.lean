import InfinityScript.Proofs.Argument.Writes
import InfinityScript.Proofs.Script.Shape

/-!
# Characters of compiled code

A script that compiles without an error leaves in the code the characters of its source,
plain ones and line feeds. A placeholder may hold those that the symbols declare as well, and
no others (`over_compile`).
-/

namespace InfinityScript

open Encoding Text

variable {T : Prop} {K : Char → Prop} {symbols : Symbols} {profile : Profile}

theorem Text.over_getD {texts : List Text} (h : ∀ text ∈ texts, Over K text) (i : Nat) :
    Over K (texts.getD i []) := by
  rw [List.getD_eq_getElem?_getD]
  cases htext : texts[i]? with
  | none => exact over_nil
  | some text => exact h text (List.mem_of_getElem? htext)

/-- A call whose fields stay over the alphabet writes what its layout does. -/
theorem CallForm.writes_encode {form : CallForm σ α} {I : σ → Prop} {P : α → Prop}
    (hK : HasLines K) (hdeclares : T → symbols.Declares K profile)
    (hentry : symbols.byName? table name = some entry) (hinside : Text.Over K inside)
    (hblank : I form.blank)
    (hadd : ∀ fields argument, I fields → (T → argument.1.Over K) → Text.Over K argument.2 →
      Writes T K I (form.add fields argument))
    (hstrings : ∀ fields, I fields → ∀ text ∈ (form.strings fields).values, Text.Over K text)
    (hlayout : ∀ opcode fields strings, I fields → (∀ text ∈ strings, Text.Over K text) →
      P (form.layout opcode fields strings)) :
    Writes T K P (form.encode symbols entry inside) := by
  refine (Call.writes_arguments hK.plain hinside _).bind fun values hvalues => ?_
  refine (Call.writes_bind hK.plain hdeclares hentry hinside hvalues).bind fun bound hbound => ?_
  refine Writes.bind (P := I) (writes_foldlM hblank fun fields argument hmem hfields =>
    hadd fields argument hfields (hbound argument hmem).1 (hbound argument hmem).2)
    fun fields hfields => ?_
  refine (writes_packStrings hK.plain (hstrings fields hfields) _).bind fun strings hpacked => ?_
  generalize Text.writable (toSigned32 entry.id) = written
  refine Writes.bind (P := fun _ => True) (writes_ofNumeral fun _ _ => trivial) fun opcode _ => ?_
  exact writes_pure (hlayout opcode fields strings hfields hpacked)

-- --------------------
-- Triggers
-- --------------------

namespace Trigger

structure Fields.Over (K : Char → Prop) (fields : Fields) : Prop where
  integers : fields.integers.All 3 (Text.Over K)
  strings : fields.strings.All 4 (Text.Over K)
  object : Text.Over K fields.object
  point : Text.Over K fields.point

theorem Fields.Over.writes_add (hK : HasLines K) (hdeclares : T → symbols.Declares K profile)
    (entry : Entry) {fields : Fields} (hfields : fields.Over K) {argument : Parameter × Text}
    (hparameter : T → argument.1.Over K) (hvalue : Text.Over K argument.2) :
    Writes T K (Fields.Over K) (fields.add symbols profile entry argument) := by
  obtain ⟨parameter, value⟩ := argument
  unfold Fields.add
  dsimp only at hparameter hvalue ⊢
  split
  · refine Writes.bind (P := Text.Over K) (writes_ofNoted hvalue) fun text htext => ?_
    exact (writes_fill hK.plain hfields.strings htext).bind fun strings hstrings =>
      writes_pure { hfields with strings := hstrings }
  · refine (Argument.writes_encodeInteger hK.plain hvalue hparameter).bind fun text htext => ?_
    exact (writes_fill hK.plain hfields.integers htext).bind fun integers hintegers =>
      writes_pure { hfields with integers := hintegers }
  · exact (Object.writes_encode hK (fun hT => (hdeclares hT).objectTables) hvalue _).bind
      fun object hobject => writes_pure { hfields with object := hobject }
  · refine writes_pure { hfields with point := fun c hc => ?_ }
    rcases Text.mem_replaceFirst hc with rfl | hc
    · exact hK.plain _ (by decide)
    · exact hvalue c hc
  · exact writes_pure hfields

theorem over_triggerLayout (hK : HasLines K) (profile : Profile) (opcode : Int) (negated : Bool)
    (hintegers : ∀ text ∈ integers, Text.Over K text) (hpoint : Text.Over K point)
    (hstrings : ∀ text ∈ strings, Text.Over K text) (hobject : Text.Over K object) :
    Text.Over K (profile.triggerLayout opcode negated integers point strings object) := by
  have hflag : Text.Over K (if negated then ("1" : Text) else "0") := by
    cases negated <;> exact hK.over (by decide)
  have hpoint : ∀ text ∈ if profile.hasTriggerPoint then [point] else [], Text.Over K text := by
    split
    · simpa using hpoint
    · simp
  simp only [Profile.triggerLayout, over_append]
  refine ⟨⟨hK.over (by decide), over_join (hK.over (by decide)) fun piece hpiece => ?_⟩,
    hK.over (by decide)⟩
  simp only [List.mem_append, List.mem_cons, List.not_mem_nil, or_false] at hpiece
  rcases hpiece with ((rfl | rfl | rfl | rfl | rfl) | hpiece) | rfl | rfl | rfl
  · exact hK.plain.ofInt opcode
  · exact over_getD hintegers 0
  · exact hflag
  · exact over_getD hintegers 1
  · exact over_getD hintegers 2
  · exact hpoint piece hpiece
  · exact over_getD hstrings 0
  · exact over_getD hstrings 1
  · exact hobject

theorem writes_encode (hK : HasLines K) (hdeclares : T → symbols.Declares K profile)
    (hline : Text.Over K line) :
    Writes T K (fun record => Text.Over K record.1) (encode symbols profile line) := by
  have hcall : Text.Over K (signed line).2 := by
    unfold signed
    split
    · exact (over_cons.mp hline).2
    · exact hline
  have hblank : ({ object := profile.emptyObject } : Fields).Over K :=
    ⟨Slots.all_blank (hK.over (by decide)) 3, Slots.all_blank (hK.over (by decide)) 4,
      Object.over_emptyObject hK profile, (hK.over (by decide) : Text.Over K "[0,0]")⟩
  rw [encode_eq]
  refine (Call.writes_split hK.plain hcall).bind ?_
  rintro ⟨name, inside⟩ ⟨hname, hinside⟩
  refine (Call.writes_function hK.plain hname (hK.over (by decide))).bind fun entry hentry => ?_
  exact CallForm.writes_encode hK hdeclares hentry hinside hblank
    (fun _ _ hfields => hfields.writes_add hK hdeclares entry) (fun _ hfields => hfields.strings.2)
    fun opcode _ _ hfields hstrings => over_triggerLayout hK profile opcode _ hfields.integers.2
      hfields.point hstrings hfields.object

end Trigger

-- --------------------
-- Actions
-- --------------------

namespace Action

structure Fields.Over (K : Char → Prop) (fields : Fields) : Prop where
  integers : fields.integers.All 3 (Text.Over K)
  strings : fields.strings.All 4 (Text.Over K)
  objects : fields.objects.All 2 (Text.Over K)
  point : Text.Over K fields.point

theorem Fields.Over.writes_add (hK : HasLines K) (hdeclares : T → symbols.Declares K profile)
    (entry : Entry) {fields : Fields} (hfields : fields.Over K) {argument : Parameter × Text}
    (hparameter : T → argument.1.Over K) (hvalue : Text.Over K argument.2) :
    Writes T K (Fields.Over K) (fields.add symbols profile entry argument) := by
  obtain ⟨parameter, value⟩ := argument
  dsimp only at hparameter hvalue
  have haddObject : Writes T K (Fields.Over K)
      (add.addObject symbols profile fields parameter value) :=
    (Object.writes_encode hK (fun hT => (hdeclares hT).objectTables) hvalue _).bind
      fun object hobject => (writes_fill hK.plain hfields.objects hobject).bind
        fun objects hobjects => writes_pure { hfields with objects := hobjects }
  unfold Fields.add
  dsimp only
  split
  · split
    · exact haddObject
    · refine Writes.bind (P := Text.Over K) (writes_ofNoted hvalue) fun text htext => ?_
      exact (writes_fill hK.plain hfields.strings htext).bind fun strings hstrings =>
        writes_pure { hfields with strings := hstrings }
  · refine (Argument.writes_encodeInteger hK.plain hvalue hparameter).bind fun text htext => ?_
    exact (writes_fill hK.plain hfields.integers htext).bind fun integers hintegers =>
      writes_pure { hfields with integers := hintegers }
  · exact haddObject
  · exact (Argument.writes_encodePoint hK.plain hvalue fun hT => (hparameter hT).definition).bind
      fun point hpoint => writes_pure { hfields with point := hpoint }
  · exact writes_pure hfields

theorem over_actionLayout (hK : HasLines K) (opcode : Int)
    (hobjects : ∀ text ∈ objects, Text.Over K text)
    (hintegers : ∀ text ∈ integers, Text.Over K text) (hpoint : Text.Over K point)
    (hstrings : ∀ text ∈ strings, Text.Over K text) :
    Text.Over K (actionLayout opcode objects integers point strings) := by
  have hobject := over_getD hobjects
  have hinteger := over_getD hintegers
  have hstring := over_getD hstrings
  have hopcode := hK.plain.ofInt opcode
  have hbreak : Text.Over K "\n".toList := hK.over (by decide)
  have hblank : Text.Over K " ".toList := hK.over (by decide)
  have hopening : Text.Over K "AC\n".toList := hK.over (by decide)
  have hclosing : Text.Over K " AC\n".toList := hK.over (by decide)
  simp only [actionLayout, over_append, hobject, hinteger, hstring, hopcode, hbreak, hblank,
    hopening, hclosing, hpoint, and_self]

theorem writes_encodeCall (hK : HasLines K) (hdeclares : T → symbols.Declares K profile)
    (hentry : symbols.byName? table name = some entry) (hactor : Text.Over K actor)
    (hinside : Text.Over K inside) :
    Writes T K (Text.Over K) (encodeCall symbols profile actor entry inside) := by
  have hblank : ({ objects := .blank 2 profile.emptyObject } : Fields).Over K :=
    ⟨Slots.all_blank (hK.over (by decide)) 3, Slots.all_blank (hK.over (by decide)) 4,
      Slots.all_blank (Object.over_emptyObject hK profile) 2,
      (hK.over (by decide) : Text.Over K "0 0")⟩
  rw [encodeCall_eq]
  exact CallForm.writes_encode hK hdeclares hentry hinside hblank
    (fun _ _ hfields => hfields.writes_add hK hdeclares entry) (fun _ hfields => hfields.strings.2)
    fun opcode _ _ hfields hstrings => over_actionLayout hK opcode
      (List.forall_mem_cons.mpr ⟨hactor, hfields.objects.2⟩) hfields.integers.2 hfields.point hstrings

theorem writes_encode (hK : HasLines K) (hdeclares : T → symbols.Declares K profile)
    (hline : Text.Over K line) :
    Writes T K (Text.Over K) (encode symbols profile line) := by
  refine (Call.writes_split hK.plain hline).bind ?_
  rintro ⟨name, inside⟩ ⟨hname, hinside⟩
  refine (Call.writes_function hK.plain hname (hK.over (by decide))).bind fun entry hentry => ?_
  dsimp only
  split
  · split
    · exact writes_fault hK.plain fun hT => by
        simpa [Fault.texts] using (hdeclares hT).parameters _ _ entry hentry
    · next target inner hcut =>
      rw [(Text.cut?_eq_some hcut).2] at hinside
      obtain ⟨htarget, hinner⟩ := over_append.mp hinside
      have htarget := htarget.of_subset (trim_subset target)
      have hinner := (over_cons.mp hinner).2.of_subset (trim_subset inner)
      refine (Object.writes_encode hK (fun hT => (hdeclares hT).objectTables) htarget _).bind
        fun actor hactor => ?_
      refine (Call.writes_split hK.plain hinner).bind ?_
      rintro ⟨name, inside⟩ ⟨hname, hinside⟩
      exact (Call.writes_function hK.plain hname (hK.over (by decide))).bind fun entry hentry =>
        writes_encodeCall hK hdeclares hentry hactor hinside
  · exact writes_encodeCall hK hdeclares hentry (Object.over_emptyObject hK profile) hinside

end Action

-- --------------------
-- Statements
-- --------------------

/-- If `T` holds or no fault was found, the statement is over an alphabet. -/
def Encoded.Over (T : Prop) (K : Char → Prop) (encoded : Encoded) : Prop :=
  T ∨ Faultless encoded.remarks → Text.Over K encoded.text

theorem Encoded.over_settle (hK : HasLines K) {encoding : Encoding α} {P : α → Prop}
    (h : Writes T K P encoding) {ofRecord : α → List Remark → Encoded}
    (hrecord : ∀ record remarks, P record → Text.Over K (ofRecord record remarks).text)
    (hremarks : ∀ record remarks, (ofRecord record remarks).remarks = remarks)
    (hsettle : settle encoding ofRecord = .ok encoded) : encoded.Over T K := by
  obtain ⟨value, remarks⟩ := encoding
  cases value with
  | ok record =>
    obtain rfl := Except.ok.inj hsettle
    intro hclean
    rw [hremarks] at hclean
    exact hrecord record remarks (h hclean)
  | error refusal =>
    cases refusal with
    | halt reason => cases hsettle
    | fault fault =>
      obtain rfl := Except.ok.inj hsettle
      rintro (hT | hfaultless)
      · exact over_append.mpr
          ⟨Fault.over_placeholder hK.plain (h (.inl hT) hT), hK.over (by decide)⟩
      · exact absurd (by simp) (hfaultless fault)

theorem Encoded.over_trigger (hK : HasLines K) (hdeclares : T → symbols.Declares K profile)
    (hline : Text.Over K line) (h : trigger symbols profile line = .ok encoded) :
    encoded.Over T K :=
  over_settle hK (Trigger.writes_encode hK hdeclares hline) (fun _ _ => id) (fun _ _ => rfl) h

theorem Encoded.over_action (hK : HasLines K) (hdeclares : T → symbols.Declares K profile)
    (hline : Text.Over K line) (h : action symbols profile line = .ok encoded) :
    encoded.Over T K :=
  over_settle hK (Action.writes_encode hK hdeclares hline) (fun _ _ => id) (fun _ _ => rfl) h

def BodyLine.Over (T : Prop) (K : Char → Prop) : BodyLine Encoded → Prop
  | .response weight => ∀ text ∈ weight, Text.Over K text
  | .action encoded => encoded.Over T K

theorem BodyLine.over_encode (hK : HasLines K) (hdeclares : T → symbols.Declares K profile)
    (hline : Text.Over K line)
    (h : encode (Encoded.action symbols profile) (ofText line) = .ok encoded) :
    encoded.Over T K := by
  unfold ofText at h
  split at h
  · obtain rfl := Outcome.pure_ok.mp h
    intro weight hweight
    obtain ⟨⟨before, after⟩, hcut, rfl⟩ := Option.map_eq_some_iff.mp hweight
    have hparts := (Text.cut?_eq_some hcut).2
    refine hline.of_subset fun c hc => ?_
    simp [hparts, Text.trim_subset after hc]
  · obtain ⟨action, haction, h⟩ := Outcome.bind_ok.mp h
    obtain rfl := Outcome.pure_ok.mp h
    exact Encoded.over_action hK hdeclares hline haction

-- --------------------
-- Scripts
-- --------------------

namespace Noted

variable {P : α → Prop} {Q : β → Prop}

/-- If `T` holds or no error was found, the value is of `P`. -/
def Leaves (T : Prop) (P : α → Prop) (x : Findings α) : Prop := T ∨ x.Faultless → P x.value

theorem leaves_pure {value : α} (h : P value) : Leaves T P (pure value) := fun _ => h

theorem Leaves.bind {x : Findings α} {f : α → Findings β} (h : Leaves T P x)
    (hf : ∀ value, P value → Leaves T Q (f value)) : Leaves T Q (x >>= f) := by
  intro hclean
  have hvalue := h (hclean.imp_right fun hall => (faultless_bind.mp hall).1)
  exact hf x.value hvalue (hclean.imp_right fun hall => (faultless_bind.mp hall).2)

theorem leaves_onLine {encoded : Encoded} (h : encoded.Over T K) (line : Nat) :
    Leaves T (Text.Over K) (encoded.onLine line) := fun hclean =>
  h (hclean.imp_right faultless_onLine.mp)

theorem leaves_leaveIf (hK : HasLines K) {fault : Fault} (hfault : fault.texts = [])
    (present : Bool) (line : Nat) :
    Leaves T (Text.Over K) (Fault.leaveIf present fault line) := by
  intro _
  cases present with
  | false => exact over_nil
  | true =>
    have hmessage := Fault.over_message hK.plain (by simp [hfault] : ∀ text ∈ fault.texts, _)
    exact over_append.mpr ⟨Fault.over_placeholder hK.plain hmessage, hK.over (by decide)⟩

theorem leaves_mapM {f : β → Findings α} {xs : List β} (h : ∀ x ∈ xs, Leaves T P (f x)) :
    Leaves T (fun values => ∀ value ∈ values, P value) (xs.mapM f) := by
  induction xs with
  | nil => exact leaves_pure (by simp)
  | cons x xs ih =>
    rw [List.mapM_cons]
    refine (h x (by simp)).bind fun value hvalue => ?_
    refine (ih fun y hy => h y (by simp [hy])).bind fun values hvalues => ?_
    exact leaves_pure (List.forall_mem_cons.mpr ⟨hvalue, hvalues⟩)

end Noted

namespace Block

open Noted

structure Over (T : Prop) (K : Char → Prop) (block : Block Encoded) : Prop where
  triggers : ∀ trigger ∈ block.triggers, trigger.2.Over T K
  body : ∀ line ∈ block.body, line.2.Over T K

theorem over_encode (hK : HasLines K) (hdeclares : T → symbols.Declares K profile)
    {lines : List Line} (hlines : ∀ line ∈ lines, Text.Over K line.text)
    (hblock : block ∈ (Outline.ofLines lines).blocks)
    (h : encode symbols profile block = .ok encoded) : encoded.Over T K := by
  obtain ⟨htriggers, hbody⟩ := Outline.mem_lines_of_mem_blocks hblock
  obtain ⟨triggers, hencodedTriggers, h⟩ := Outcome.bind_ok.mp h
  obtain ⟨body, hencodedBody, h⟩ := Outcome.bind_ok.mp h
  obtain rfl := Outcome.pure_ok.mp h
  refine ⟨fun trigger htrigger => ?_, fun found hfound => ?_⟩
  · obtain ⟨statement, hstatement, hencode⟩ := mem_encodeEach hencodedTriggers htrigger
    obtain ⟨line, hline, htext⟩ := htriggers statement hstatement
    exact Encoded.over_trigger hK hdeclares (htext ▸ hlines line hline) hencode
  · obtain ⟨statement, hstatement, hencode⟩ := mem_encodeEach hencodedBody hfound
    obtain ⟨line, hline, htext⟩ := hbody statement hstatement
    exact BodyLine.over_encode hK hdeclares (hlines line hline) (htext ▸ hencode)

theorem leaves_triggerCode (hK : HasLines K) {triggers : List (Nat × Encoded)}
    (h : ∀ trigger ∈ triggers, trigger.2.Over T K) (missing : Int) :
    Leaves T (fun code => Text.Over K code.1) (triggerCode missing triggers) := by
  induction triggers generalizing missing with
  | nil => exact leaves_pure over_nil
  | cons trigger triggers ih =>
    obtain ⟨hfirst, hothers⟩ := List.forall_mem_cons.mp h
    refine (leaves_onLine hfirst _).bind fun text htext => ?_
    refine (leaves_leaveIf hK rfl _ _).bind fun fault hfault => ?_
    refine (ih hothers _).bind fun rest hrest => leaves_pure ?_
    exact over_append.mpr ⟨over_append.mpr ⟨htext, hfault⟩, hrest⟩

theorem leaves_conditionCode (hK : HasLines K) {block : Block Encoded}
    (h : ∀ trigger ∈ block.triggers, trigger.2.Over T K) (length : Nat) :
    Leaves T (Text.Over K) (block.conditionCode length) := by
  refine (leaves_triggerCode hK h 0).bind fun triggers htriggers => ?_
  refine (leaves_leaveIf hK rfl _ _).bind fun opened hopened => ?_
  refine (leaves_leaveIf hK rfl _ _).bind fun ended hended => leaves_pure ?_
  simp only [over_append]
  exact ⟨⟨⟨⟨hK.over (by decide), htriggers⟩, hopened⟩, hended⟩, hK.over (by decide)⟩

theorem leaves_bodyCode (hK : HasLines K) {body : List (Nat × BodyLine Encoded)}
    (h : ∀ line ∈ body, line.2.Over T K) (first : Bool) :
    Leaves T (Text.Over K) (bodyCode first body) := by
  induction body generalizing first with
  | nil => exact leaves_pure over_nil
  | cons numbered body ih =>
    obtain ⟨number, line⟩ := numbered
    obtain ⟨hline, hothers⟩ := List.forall_mem_cons.mp h
    cases line with
    | response weight =>
      have hmarker : Text.Over K (if first then "RE\n" else "RE\nRE\n").toList := by
        cases first <;> exact hK.over (by decide)
      have hweight : Leaves T (Text.Over K) (weightCode number weight) := by
        cases weight with
        | some weight => exact leaves_pure (hline weight rfl)
        | none => exact leaves_leaveIf hK rfl true number
      refine hweight.bind fun weight hweight => ?_
      refine (ih hothers false).bind fun rest hrest => leaves_pure ?_
      exact over_append.mpr ⟨over_append.mpr ⟨hmarker, hweight⟩, hrest⟩
    | action encoded =>
      refine (leaves_onLine hline number).bind fun text htext => ?_
      exact (ih hothers first).bind fun rest hrest => leaves_pure (over_append.mpr ⟨htext, hrest⟩)

theorem Over.leaves_code (hK : HasLines K) {block : Block Encoded} (h : block.Over T K)
    (length : Nat) : Leaves T (Text.Over K) (block.code length) := by
  have hresponses : Leaves T (Text.Over K) (block.responseCode length) := by
    refine (leaves_bodyCode hK h.body true).bind fun text htext => ?_
    refine (leaves_leaveIf hK rfl _ _).bind fun ended hended => leaves_pure ?_
    simp only [over_append]
    exact ⟨⟨⟨hK.over (by decide), htext⟩, hended⟩, hK.over (by decide)⟩
  refine (leaves_conditionCode hK h.triggers length).bind fun condition hcondition => ?_
  refine hresponses.bind fun responses hresponses => leaves_pure ?_
  simp only [over_append]
  exact ⟨⟨⟨hK.over (by decide), hcondition⟩, hresponses⟩, hK.over (by decide)⟩

end Block

theorem Outline.leaves_code (hK : HasLines K) {blocks : List (Block Encoded)}
    (h : ∀ block ∈ blocks, block.Over T K) (length : Nat) (stray : Option Nat) :
    Noted.Leaves T (Text.Over K) (code length blocks stray) := by
  refine (Noted.leaves_mapM fun block hblock => (h block hblock).leaves_code hK length).bind
    fun codes hcodes => ?_
  cases stray with
  | none =>
    refine Noted.leaves_pure ?_
    simp only [over_append]
    exact ⟨⟨hK.over (by decide), over_flatten hcodes⟩, hK.over (by decide)⟩
  | some line =>
    exact fun _ => Fault.over_placeholder hK.plain
      (Fault.over_message hK.plain (by simp [Fault.texts]))

/-- A source leaves its own characters in the code, and if a fault is found those that the
symbols declare. -/
theorem over_compile (hK : HasLines K) {source : Source}
    (hsource : ∀ line ∈ source.physicalLines, Text.Over K line)
    (hcompile : compile symbols profile source = .ok compiled)
    (hclean : symbols.Declares K profile ∨ compiled.errors.isEmpty) :
    Text.Over K compiled.code := by
  obtain ⟨_, -, h⟩ := Outcome.bind_ok.mp hcompile
  obtain ⟨blocks, hblocks, h⟩ := Outcome.bind_ok.mp h
  obtain rfl := Outcome.pure_ok.mp h
  have hlines : ∀ said ∈ source.listing.lines, Text.Over K said.text := by
    intro said hsaid
    obtain ⟨-, line, hline, htext⟩ := Source.exists_physicalLine hsaid
    exact htext ▸ (hsource line hline).of_subset (Text.statement_subset line)
  have hover : ∀ encoded ∈ blocks, encoded.Over (symbols.Declares K profile) K := by
    intro encoded hencoded
    obtain ⟨block, hblock, hencode⟩ := Outcome.exists_of_mem_mapM hblocks hencoded
    exact Block.over_encode hK id hlines hblock hencode
  exact Outline.leaves_code hK hover _ _ (hclean.imp_right Finding.faultless_of_isEmpty_errors)

end InfinityScript
