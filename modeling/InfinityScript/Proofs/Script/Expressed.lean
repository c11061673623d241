import InfinityScript.Proofs.Record.Notes
import InfinityScript.Proofs.Code.Postcondition
import InfinityScript.Proofs.Symbol.Table

/-!
# Statements that are expressed

A record is expressed as the call of a function that its table has under the opcode
(`Trigger.ends_express`, `Action.ends_express`). What holds of everything that the
fields of the record can say (`TriggerRecord.Yields`, `ActionRecord.Yields`) holds of
each argument of the call.
-/

namespace InfinityScript

def Symbols.HasId (symbols : Symbols) (table : Text) (entry : Entry) : Prop :=
  ∃ n, symbols.byId? table n = some entry ∨ symbols.overflowById? table n = some entry

theorem Symbols.Made.hasId {P : Entry → Prop} {symbols : Symbols} (h : symbols.Made P)
    (hentry : symbols.HasId table entry) : P entry := by
  obtain ⟨n, hn | hn⟩ := hentry
  · exact h.byId? hn
  · exact h.overflowById? hn

def callText (entry : Entry) (arguments : List Text) : Text :=
  entry.name ++ "(" ++ Text.join "," arguments ++ ")"

section

variable {symbols : Symbols} {E : DecodeError → Prop}

def SignatureFaults (symbols : Symbols) (table : Text) (E : DecodeError → Prop) : Prop :=
  ∀ entry fault, symbols.HasId table entry → entry.signature = .error fault →
    E (.damage (.signature fault))

theorem Symbols.Sound.signatureFaults {P : Entry → Prop} (hsound : symbols.Sound)
    (hmade : symbols.Made P) (table : Text) : SignatureFaults symbols table fun _ => False := by
  intro entry fault hentry hfault
  have hok := ((hsound.made hmade).hasId hentry).2.signature
  rw [hfault] at hok
  cases hok

theorem ends_definitionFor (hfaults : SignatureFaults symbols table E)
    (hentry : symbols.byId? table n = some entry) (exceeds : Signature → Bool) :
    Expressing.Ends (symbols.HasId table) E
      (DecodeError.ofSignature (symbols.definitionFor table n entry exceeds)) := by
  have hid : symbols.HasId table entry := ⟨n, .inl hentry⟩
  have hdefinition : ∀ result, symbols.definitionFor table n entry exceeds = result →
      (∀ found, result = .ok found → symbols.HasId table found) ∧
        ∀ fault, result = .error fault → E (.damage (.signature fault)) := by
    intro result h
    unfold Symbols.definitionFor at h
    split at h
    · subst h
      exact ⟨fun found hfound => Except.ok.inj hfound ▸ hid, nofun⟩
    · next overflow hoverflow =>
      cases hsignature : entry.signature with
      | error fault =>
        rw [hsignature] at h
        subst h
        refine ⟨nofun, fun fault' hfault => ?_⟩
        obtain rfl := Except.error.inj hfault
        exact hfaults entry fault hid hsignature
      | ok signature =>
        rw [hsignature] at h
        subst h
        refine ⟨fun found hfound => ?_, nofun⟩
        obtain rfl := Except.ok.inj hfound
        split
        · exact ⟨n, .inr hoverflow⟩
        · exact hid
  exact Expressing.ends_ofSignature (hdefinition _ rfl).1 (hdefinition _ rfl).2

theorem ends_signature (hfaults : SignatureFaults symbols table E)
    (hentry : symbols.HasId table entry) :
    Expressing.Ends (fun signature => entry.signature = .ok signature) E
      (DecodeError.ofSignature entry.signature) :=
  Expressing.ends_ofSignature (fun _ h => h) (fun fault h => hfaults entry fault hentry h)

end

theorem forall_mem_concat {A : α → Prop} (h : ∀ x ∈ xs, A x) (hy : A y) :
    ∀ x ∈ xs ++ [y], A x := by
  simp only [List.mem_append, List.mem_singleton]
  rintro x (hx | rfl)
  · exact h x hx
  · exact hy

-- --------------------
-- Comments
-- --------------------

/-- All that comments are made of is of `C`: descriptions of resources, strings of the
game, and lists of spells. -/
structure Symbols.Tell (C : Text → Prop) (symbols : Symbols) : Prop where
  description : ∀ resource, ∀ text ∈ symbols.description? resource, C text
  string : ∀ number, ∀ text ∈ symbols.string? number, C text
  spells : ∀ value text, Comment.ofSpells symbols value = .ok (some text) → C text

theorem Symbols.tell_true (symbols : Symbols) : symbols.Tell fun _ => True :=
  ⟨fun _ _ _ => trivial, fun _ _ _ => trivial, fun _ _ _ => trivial⟩

theorem Comment.mem_latest (h : text ∈ latest newer older) : text ∈ newer ∨ text ∈ older := by
  rcases Option.or_eq_some_iff.mp h with h | ⟨-, h⟩
  · exact .inl (Option.mem_filter_iff.mp h).1
  · exact .inr h

theorem Symbols.Tell.ofResource {C : Text → Prop} (h : symbols.Tell C)
    (function definition name : Text) :
    ∀ text ∈ (Comment.ofResource symbols function definition name).value, C text := by
  unfold Comment.ofResource Comment.ofResourceM
  split
  · simp
  · split
    · simp
    · exact h.description _

theorem Symbols.Tell.latest {C : Text → Prop} {newer older : Option Text}
    (hnewer : ∀ text ∈ newer, C text) (holder : ∀ text ∈ older, C text) :
    ∀ text ∈ Comment.latest newer older, C text := fun text htext =>
  (Comment.mem_latest htext).elim (hnewer text) (holder text)

-- --------------------
-- Triggers
-- --------------------

structure TriggerRecord.Yields (symbols : Symbols) (profile : Profile) (A : Text → Prop)
    (record : TriggerRecord) : Prop where
  object : A (Object.express symbols profile record.object).value
  integer : ∀ parameter i, A (Argument.expressInteger symbols parameter (record.integers.getD i 0)).value
  empty : A emptyString
  string : ∀ first second, record.strings = some (first, second) →
    ∀ text, some text ∈ Scope.unpack symbols first second → A text
  noPoint : A ("[0.0]" : Text)
  point : ∀ point ∈ record.point, A (Text.replaceFirst ',' '.' point)

def Trigger.Says (symbols : Symbols) (A : Text → Prop) (text : Text) : Prop :=
  ∃ entry, ∃ negated : Bool, ∃ arguments comment, symbols.HasId "TRIGGER.IDS" entry ∧
    (∀ argument ∈ arguments, A argument) ∧
    text = Comment.append ((if negated then ['!'] else []) ++ callText entry arguments) comment

/-- The line says a trigger of the table, with arguments of `A` and a comment of `C`. -/
def Trigger.Tells (symbols : Symbols) (A C : Text → Prop) (text : Text) : Prop :=
  ∃ entry, ∃ negated : Bool, ∃ arguments comment, symbols.HasId "TRIGGER.IDS" entry ∧
    (∀ argument ∈ arguments, A argument) ∧ (∀ told ∈ comment, C told) ∧
    text = Comment.append ((if negated then ['!'] else []) ++ callText entry arguments) comment

namespace Trigger

variable {symbols : Symbols} {profile : Profile} {A C : Text → Prop} {record : TriggerRecord}

theorem Tells.says (h : Tells symbols A C text) : Says symbols A text := by
  obtain ⟨entry, negated, arguments, comment, hentry, harguments, -, rfl⟩ := h
  exact ⟨entry, negated, arguments, comment, hentry, harguments, rfl⟩

def recordStrings (symbols : Symbols) (record : TriggerRecord) : List (Option Text) :=
  match record.strings with
  | some (first, second) => Scope.unpack symbols first second
  | none => []

theorem recordStrings_getD (h : record.Yields symbols profile A) (i : Nat) :
    A (((recordStrings symbols record)[i]?.join).getD emptyString) := by
  unfold recordStrings
  split
  · next first second hstrings =>
    cases hi : (Scope.unpack symbols first second)[i]? with
    | none => exact h.empty
    | some slot =>
      cases slot with
      | none => exact h.empty
      | some text => exact h.string first second hstrings text (List.mem_of_getElem? hi)
  · simpa using h.empty

structure Progress.Tells (A C : Text → Prop) (progress : Progress) : Prop where
  arguments : ∀ argument ∈ progress.arguments, A argument
  comment : ∀ told ∈ progress.comment, C told

theorem tells_add (h : record.Yields symbols profile A) (hsymbols : symbols.Tell C) (entry : Entry)
    {progress : Progress} (hprogress : progress.Tells A C) (parameter : Parameter) :
    (progress.add symbols entry record (recordStrings symbols record)
      (Object.express symbols profile record.object).value parameter).value.Tells A C := by
  obtain ⟨harguments, hcomment⟩ := hprogress
  unfold Progress.add Progress.addM
  split
  · exact ⟨forall_mem_concat harguments (recordStrings_getD h _),
      Symbols.Tell.latest (hsymbols.ofResource _ _ _) hcomment⟩
  · exact ⟨forall_mem_concat harguments h.object, hcomment⟩
  · refine ⟨forall_mem_concat harguments ?_, hcomment⟩
    split
    · next point hpoint => exact h.point point hpoint
    · exact h.noPoint
  · exact ⟨forall_mem_concat harguments (h.integer parameter _), hcomment⟩
  · exact ⟨harguments, hcomment⟩

theorem ends_tells {E : DecodeError → Prop} (hfaults : SignatureFaults symbols "TRIGGER.IDS" E)
    (hentry : symbols.byId? "TRIGGER.IDS" opcode = some entry)
    (h : record.Yields symbols profile A) (hsymbols : symbols.Tell C) :
    Expressing.Ends (Tells symbols A C) E (express symbols profile entry opcode record) := by
  have hobject : Expressing.Ends (E := E)
      (· = (Object.express symbols profile record.object).value)
      (Expressing.ofNoted (Object.express symbols profile record.object)) :=
    Expressing.ends_ofNoted rfl
  rw [express_eq]
  refine hobject.bind fun object hobject => ?_
  subst hobject
  refine (ends_definitionFor hfaults hentry _).bind fun entry hentry => ?_
  refine (ends_signature hfaults hentry).bind fun signature _ => ?_
  refine Expressing.Ends.bind (P := Progress.Tells A C)
    (Expressing.ends_ofNoted ?_) fun progress hprogress => ?_
  · rw [Noted.value_foldlM]
    exact List.foldlRecOn (motive := Progress.Tells A C) signature _ ⟨by simp, by simp⟩
      fun progress hprogress parameter _ => tells_add h hsymbols entry hprogress parameter
  · refine Expressing.ends_pure ⟨entry, record.negated, progress.arguments, progress.comment,
      hentry, hprogress.arguments, hprogress.comment, ?_⟩
    simp [callText]

theorem ends_express {E : DecodeError → Prop} (hfaults : SignatureFaults symbols "TRIGGER.IDS" E)
    (hentry : symbols.byId? "TRIGGER.IDS" opcode = some entry)
    (h : record.Yields symbols profile A) :
    Expressing.Ends (Says symbols A) E (express symbols profile entry opcode record) :=
  (ends_tells hfaults hentry h symbols.tell_true).mono fun _ => Tells.says

end Trigger

-- --------------------
-- Actions
-- --------------------

/-- A string that the record can give to a call. Scopes are put back into strings, and
a record without strings gives its objects for them. -/
def ActionRecord.IsString (symbols : Symbols) (profile : Profile) (record : ActionRecord)
    (value : Text) : Prop :=
  value = emptyString ∨
    match record.strings with
    | some (first, second) => ∃ signature,
      some value ∈ Action.reclaimScope signature (Scope.unpack symbols first second)
    | none => ∃ object ∈ record.objects, value = (Object.express symbols profile object).value

structure ActionRecord.Yields (symbols : Symbols) (profile : Profile) (A : Text → Prop)
    (record : ActionRecord) : Prop where
  actor : A (Object.express symbols profile record.actor).value
  anyone : A anyone
  object : ∀ object ∈ record.objects, A (Object.express symbols profile object).value
  integer : ∀ parameter i, A (Argument.expressInteger symbols parameter (record.integers.getD i 0)).value
  string : ∀ value, record.IsString symbols profile value → A value
  point : A ("[" ++ Text.ofInt record.x ++ "." ++ Text.ofInt record.y ++ "]")

def Action.Says (symbols : Symbols) (A : Text → Prop) (text : Text) : Prop :=
  ∃ entry actor arguments comment, symbols.HasId "ACTION.IDS" entry ∧ A actor ∧
    (∀ argument ∈ arguments, A argument) ∧
    text = Comment.append (if actor = anyone then callText entry arguments
      else "ActionOverride(" ++ actor ++ "," ++ callText entry arguments ++ ")") comment

def Action.Tells (symbols : Symbols) (A C : Text → Prop) (text : Text) : Prop :=
  ∃ entry actor arguments comment, symbols.HasId "ACTION.IDS" entry ∧ A actor ∧
    (∀ argument ∈ arguments, A argument) ∧ (∀ told ∈ comment, C told) ∧
    text = Comment.append (if actor = anyone then callText entry arguments
      else "ActionOverride(" ++ actor ++ "," ++ callText entry arguments ++ ")") comment

namespace Action

variable {symbols : Symbols} {profile : Profile} {A C : Text → Prop} {record : ActionRecord}
  {E : DecodeError → Prop}

theorem Tells.says (h : Tells symbols A C text) : Says symbols A text := by
  obtain ⟨entry, actor, arguments, comment, hentry, hactor, harguments, -, rfl⟩ := h
  exact ⟨entry, actor, arguments, comment, hentry, hactor, harguments, rfl⟩

theorem pickObject_mem (hanyone : A anyone) (hobjects : ∀ object ∈ objects, A object) (i : Nat) :
    A (pickObject objects i).1 := by
  unfold pickObject
  have hdrop : ∀ object ∈ objects.drop i, A object := fun object hmem =>
    hobjects object (List.mem_of_mem_drop hmem)
  split
  · exact hanyone
  · next object rest hrest =>
    rw [hrest] at hdrop
    split
    · split
      · exact hdrop _ (by simp)
      · exact hdrop _ (by simp)
    · exact hdrop _ (by simp)

def recordStrings (symbols : Symbols) (record : ActionRecord) (signature : Signature) :
    Option (List (Option Text)) :=
  (record.strings.map fun (first, second) => Scope.unpack symbols first second).map
    (reclaimScope signature)

theorem ends_stringComment (hsymbols : symbols.Tell C)
    (hspells : ∀ abort, Comment.ofSpells symbols value = .error abort → E (.abort abort))
    (entry : Entry) (definition : Text) :
    Expressing.Ends (fun comment => ∀ told ∈ comment, C told) E
      (stringComment symbols entry definition value) := by
  unfold stringComment stringCommentM
  split
  · split
    · next comment hcomment =>
      refine Expressing.ends_pure fun told htold => hsymbols.spells value told ?_
      rw [hcomment, htold]
    · next abort habort => exact Expressing.ends_throw (hspells abort habort)
  · rw [← Expressing.ofNoted_ofResource]
    exact Expressing.ends_ofNoted (hsymbols.ofResource _ _ _)

theorem isString_object (profile : Profile)
    (h : recordStrings symbols record signature = none) (i : Nat) :
    record.IsString symbols profile
      ((record.objects.map fun object => (Object.express symbols profile object).value).getD i
        emptyString) := by
  have hstrings : record.strings = none := by simpa [recordStrings] using h
  simp only [ActionRecord.IsString, hstrings, List.getD_eq_getElem?_getD, List.getElem?_map]
  cases hobject : record.objects[i]? with
  | none => exact .inl rfl
  | some object => exact .inr ⟨object, List.mem_of_getElem? hobject, rfl⟩

theorem isString_slot (profile : Profile)
    (h : recordStrings symbols record signature = some strings) (i : Nat) :
    record.IsString symbols profile (((strings[i]?).join).getD emptyString) := by
  obtain ⟨_, hunpack, rfl⟩ := Option.map_eq_some_iff.mp h
  obtain ⟨⟨first, second⟩, hstrings, rfl⟩ := Option.map_eq_some_iff.mp hunpack
  simp only [ActionRecord.IsString, hstrings]
  cases hslot : (reclaimScope signature (Scope.unpack symbols first second))[i]? with
  | none => exact .inl rfl
  | some slot =>
    cases slot with
    | none => exact .inl rfl
    | some text => exact .inr ⟨signature, List.mem_of_getElem? hslot⟩

structure Progress.Tells (A C : Text → Prop) (progress : Progress) : Prop where
  arguments : ∀ argument ∈ progress.arguments, A argument
  comment : ∀ told ∈ progress.comment, C told

theorem ends_add (h : record.Yields symbols profile A) (hsymbols : symbols.Tell C)
    (hspells : ∀ value abort, record.IsString symbols profile value →
      Comment.ofSpells symbols value = .error abort → E (.abort abort))
    (entry : Entry) (signature : Signature) {progress : Progress}
    (hprogress : progress.Tells A C) (parameter : Parameter) :
    Expressing.Ends (Progress.Tells A C) E
      (progress.add symbols entry record (recordStrings symbols record signature)
        (record.objects.map fun object => (Object.express symbols profile object).value)
        parameter) := by
  obtain ⟨harguments, hcomment⟩ := hprogress
  have hstringComment : ∀ {value}, record.IsString symbols profile value → ∀ definition,
      Expressing.Ends (fun comment => ∀ told ∈ comment, C told) E
        (stringComment symbols entry definition value) := fun hstring definition =>
    ends_stringComment hsymbols (fun abort => hspells _ abort hstring) entry definition
  unfold Progress.add Progress.addM
  cases parameter.kind with
  | string =>
    cases hstrings : recordStrings symbols record signature with
    | none =>
      have hstring := isString_object profile hstrings progress.nextObject
      exact (hstringComment hstring _).bind fun comment hnew => Expressing.ends_pure
        ⟨forall_mem_concat harguments (h.string _ hstring), Symbols.Tell.latest hnew hcomment⟩
    | some strings =>
      have hstring := isString_slot profile hstrings progress.nextString
      exact (hstringComment hstring _).bind fun comment hnew => Expressing.ends_pure
        ⟨forall_mem_concat harguments (h.string _ hstring), Symbols.Tell.latest hnew hcomment⟩
  | object =>
    refine Expressing.ends_pure ⟨forall_mem_concat harguments (pickObject_mem h.anyone ?_ _), hcomment⟩
    simpa using h.object
  | integer =>
    dsimp only
    rw [← Expressing.ofNoted_expressInteger]
    refine Expressing.Ends.bind (P := A) (Expressing.ends_ofNoted (h.integer parameter _))
      fun value hvalue => ?_
    split
    · exact (Expressing.ends_note _).bind fun _ _ => Expressing.ends_pure
        ⟨forall_mem_concat harguments hvalue, Symbols.Tell.latest (hsymbols.string _) hcomment⟩
    · exact Expressing.ends_pure ⟨forall_mem_concat harguments hvalue, hcomment⟩
  | point => exact Expressing.ends_pure ⟨forall_mem_concat harguments h.point, hcomment⟩
  | action => exact Expressing.ends_pure ⟨harguments, hcomment⟩

theorem ends_tells (hfaults : SignatureFaults symbols "ACTION.IDS" E)
    (h : record.Yields symbols profile A) (hsymbols : symbols.Tell C)
    (hspells : ∀ value abort, record.IsString symbols profile value →
      Comment.ofSpells symbols value = .error abort → E (.abort abort)) :
    Expressing.Ends (fun text => Tells symbols A C text ∨
        symbols.byId? "ACTION.IDS" record.opcode = none ∧
          text = "Error - Could not find action " ++ Text.ofInt record.opcode) E
      (express symbols profile record) := by
  have hactor : Expressing.Ends (E := E) A
      (Expressing.ofNoted (Object.express symbols profile record.actor)) :=
    Expressing.ends_ofNoted h.actor
  have hobjects : Expressing.Ends (E := E)
      (· = record.objects.map fun object => (Object.express symbols profile object).value)
      (Expressing.ofNoted (record.objects.mapM (Object.express symbols profile))) :=
    Expressing.ends_ofNoted (Noted.value_mapM _ _)
  rw [express_eq]
  refine hactor.bind fun actor hactor => hobjects.bind fun objects hobjects => ?_
  subst hobjects
  dsimp only
  split
  · next hnone => exact (Expressing.ends_note _).bind fun _ _ => Expressing.ends_pure (.inr ⟨hnone, rfl⟩)
  · next entry hentry =>
    refine (ends_definitionFor hfaults hentry _).bind fun entry hentry => ?_
    refine (ends_signature hfaults hentry).bind fun signature _ => ?_
    refine Expressing.Ends.bind (P := Progress.Tells A C) ?_ fun progress hprogress => ?_
    · exact Expressing.ends_foldlM ⟨by simp, by simp⟩ fun progress parameter _ hprogress =>
        ends_add h hsymbols hspells entry signature hprogress parameter
    · exact Expressing.ends_pure (.inl ⟨entry, actor, progress.arguments, progress.comment, hentry,
        hactor, hprogress.arguments, hprogress.comment, rfl⟩)

theorem ends_express (hfaults : SignatureFaults symbols "ACTION.IDS" E)
    (h : record.Yields symbols profile A)
    (hspells : ∀ value abort, record.IsString symbols profile value →
      Comment.ofSpells symbols value = .error abort → E (.abort abort)) :
    Expressing.Ends (fun text => Says symbols A text ∨
        symbols.byId? "ACTION.IDS" record.opcode = none ∧
          text = "Error - Could not find action " ++ Text.ofInt record.opcode) E
      (express symbols profile record) :=
  (ends_tells hfaults h symbols.tell_true hspells).mono fun _ => .imp_left Tells.says

end Action

end InfinityScript
