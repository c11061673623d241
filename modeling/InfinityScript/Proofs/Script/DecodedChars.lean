import InfinityScript.Proofs.Code.Pieces
import InfinityScript.Proofs.Fault
import InfinityScript.Proofs.Script.Ends
import InfinityScript.Proofs.Script.Expressed

/-!
# Characters of decompiled source

Decompiled lines are made of the characters of the code, of the indent and of the
symbols, and of plain characters (`Decompiler.frame_over`). Nothing changes case on the
way, and numbers are written in plain digits.
-/

namespace InfinityScript

open Reader Text

variable {K : Char → Prop}

def Lexeme.Over (K : Char → Prop) (l : Lexeme) : Prop := Text.Over K l.text

/-- The lexemes of a text are over its alphabet; numbers and markers are plain. -/
theorem over_of_mem_lexemes (hK : HasPlain K) (hcode : Text.Over K code) (h : l ∈ lexemes code) :
    l.Over K := by
  obtain ⟨⟨l, covered⟩, hpiece, rfl⟩ := List.mem_map.mp h
  obtain ⟨hcovers, hsubset⟩ := covers_of_mem_pieces hpiece
  cases l with
  | marker m =>
    have hplain : m.code.all isPlain := by cases m <;> decide
    exact hK.over hplain
  | number n => exact hK.ofInt n
  | string shown | coordinate shown | word shown =>
    obtain rfl : shown = covered := hcovers
    exact hcode.of_subset hsubset

def DecodeError.Over (K : Char → Prop) : DecodeError → Prop
  | .damage found => Text.Over K found.message
  | .abort _ => True

def Symbols.NamesOver (K : Char → Prop) (symbols : Symbols) : Prop :=
  ∀ table entry, symbols.HasId table entry → Text.Over K entry.name

/-- What the symbols give to decompiled source is over an alphabet: the entries of their
tables and, line feeds apart, the comments. -/
structure Symbols.Over (K : Char → Prop) (symbols : Symbols) : Prop where
  name : symbols.NamesOver K
  parameters : ∀ table entry, symbols.HasId table entry →
    ∀ parameters ∈ entry.parameters, Text.Over K parameters
  told : symbols.Tell (Text.Over fun c => c ≠ '\n' → K c)

-- --------------------
-- Damage
-- --------------------

theorem TokenKind.over_name (hK : HasPlain K) (kind : TokenKind) : Text.Over K kind.name := by
  refine hK.over ?_
  cases kind with
  | marker m => cases m <;> decide
  | _ => decide

theorem over_mismatch (hK : HasPlain K) : Mismatches (Lexeme.Over K) (DecodeError.Over K) := by
  intro expected found h
  have hname := expected.over_name hK
  have hfixed : ∀ {text : Text}, text.all isPlain → Text.Over K text := hK.over
  cases found with
  | none =>
    show Text.Over K ("Expected ".toList ++ expected.name ++ " but found end of file".toList)
    simp only [over_append]
    exact ⟨⟨hfixed (by decide), hname⟩, hfixed (by decide)⟩
  | some l =>
    show Text.Over K
      ("Expected ".toList ++ expected.name ++ " but found `".toList ++ l.text ++ "`".toList)
    simp only [over_append]
    exact ⟨⟨⟨⟨hfixed (by decide), hname⟩, hfixed (by decide)⟩, h l rfl⟩, hfixed (by decide)⟩

theorem objectFaults_over (hK : HasPlain K) (profile : Profile) :
    ObjectFaults profile (Lexeme.Over K) (DecodeError.Over K) where
  mismatch := over_mismatch hK
  width expected found := by
    show Text.Over K ("Expected ".toList ++ Text.ofNat expected ++
      " object identifiers but found ".toList ++ Text.ofNat found)
    simp only [over_append]
    exact ⟨⟨⟨hK.over (by decide), hK.ofNat _⟩, hK.over (by decide)⟩, hK.ofNat _⟩
  qualifiers _ _ _ := trivial

section

variable {symbols : Symbols}

theorem Symbols.Over.signatureFaults (hK : HasPlain K) (h : symbols.Over K) (table : Text) :
    SignatureFaults symbols table (DecodeError.Over K) := by
  intro entry fault hentry hfault
  refine ParameterFault.over_message hK fun c hc => ?_
  have hparameters := entry.ends_signature.of_error hfault hc
  cases hsome : entry.parameters with
  | none => simp [hsome] at hparameters
  | some parameters =>
    rw [hsome] at hparameters
    exact h.parameters table entry hentry parameters hsome c hparameters

-- --------------------
-- Objects
-- --------------------

namespace Object

theorem over_identifier (hK : HasPlain K) (hnames : symbols.NamesOver K) (table : Text)
    (number : Int) : ∀ name ∈ (identifier symbols table number).value, Text.Over K name := by
  unfold identifier identifierM
  split
  · simp
  · split
    · next entry hentry => simpa using hnames table entry ⟨number, .inl hentry⟩
    · simpa using hK.ofInt number

theorem over_vectorText? (hK : HasPlain K) {identifiers : List (Option Text)}
    (h : ∀ identifier ∈ identifiers, ∀ name ∈ identifier, Text.Over K name) :
    ∀ vector ∈ vectorText? identifiers, Text.Over K vector := by
  unfold vectorText?
  dsimp only
  split
  · simp
  · have hjoin : Text.Over K (Text.join "." ((identifiers.reverse.dropWhile
        Option.isNone).reverse.map fun name => name.getD "0")) := by
      refine over_join (hK.over (by decide)) fun piece hpiece => ?_
      obtain ⟨identifier, hid, rfl⟩ := List.mem_map.mp hpiece
      have hin : identifier ∈ identifiers := by
        simpa using (List.dropWhile_suffix _).subset (List.mem_reverse.mp hid)
      cases identifier with
      | none => exact hK.over (by decide)
      | some name => exact h _ hin name rfl
    rintro vector ⟨⟩
    simp only [over_append]
    exact ⟨⟨hK.over (by decide), hjoin⟩, hK.over (by decide)⟩

theorem over_compose (hK : HasPlain K) {qualifiers identifiers : List (Option Text)}
    {area : Option Text}
    (hqualifiers : ∀ qualifier ∈ qualifiers, ∀ name ∈ qualifier, Text.Over K name)
    (hidentifiers : ∀ identifier ∈ identifiers, ∀ name ∈ identifier, Text.Over K name)
    (harea : ∀ text ∈ area, Text.Over K text) (hname : Text.Over K name) :
    Text.Over K (compose qualifiers identifiers area name) := by
  have hopening : Text.Over K ['('] := hK.over (by decide)
  have houter : Text.Over K (((qualifiers.drop 1).reverse.filterMap id).flatMap (· ++ ['('])) := by
    refine over_flatMap fun name hmem => over_append.mpr ⟨?_, hopening⟩
    obtain ⟨qualifier, hmem, hqualifier⟩ := List.mem_filterMap.mp hmem
    exact hqualifiers qualifier (List.mem_of_mem_drop (List.mem_reverse.mp hmem)) name hqualifier
  have hfirst : Text.Over K ((qualifiers.head?.join).getD []) := by
    cases qualifiers with
    | nil => exact over_nil
    | cons qualifier qualifiers =>
      cases qualifier with
      | none => exact over_nil
      | some name => exact hqualifiers _ (by simp) name rfl
  have harea' : Text.Over K (area.getD []) := by
    cases area with
    | none => exact over_nil
    | some text => exact harea text rfl
  have hanyone : Text.Over K anyone := hK.over (by decide)
  have hclosing : ∀ count, Text.Over K (List.replicate count ')') := fun count c hc =>
    List.eq_of_mem_replicate hc ▸ hK _ (by decide)
  have hvector := over_vectorText? hK hidentifiers
  unfold compose
  dsimp only
  generalize (qualifiers.drop 1).reverse.filterMap id = outer at houter ⊢
  have hchain : Text.Over K (outer.flatMap (· ++ ['(']) ++ (qualifiers.head?.join).getD []) :=
    over_append.mpr ⟨houter, hfirst⟩
  generalize outer.flatMap (· ++ ['(']) ++ (qualifiers.head?.join).getD [] = chain at hchain ⊢
  split
  · split
    · exact over_append.mpr ⟨hname, hclosing _⟩
    · simp only [over_append]
      exact ⟨⟨⟨hchain, hopening⟩, hname⟩, hclosing _⟩
  · split
    · simp only [over_append]
      refine ⟨⟨?_, harea'⟩, hclosing _⟩
      split
      · exact hanyone
      · exact hchain
    · next vector hsome =>
      have hvector := hvector vector hsome
      split
      · simp only [over_append]
        exact ⟨⟨hvector, harea'⟩, hclosing _⟩
      · simp only [over_append]
        exact ⟨⟨⟨⟨hchain, hopening⟩, hvector⟩, harea'⟩, hclosing _⟩

theorem over_express (hK : HasPlain K) (hnames : symbols.NamesOver K) (profile : Profile)
    {record : ObjectRecord} (hname : Text.Over K record.name)
    (harea : ∀ area ∈ record.area, Text.Over K area) :
    Text.Over K (express symbols profile record).value := by
  rw [value_express]
  refine over_compose hK ?_ ?_ (fun area h => harea area (Option.mem_filter_iff.mp h).1) hname
  · intro qualifier hmem
    obtain ⟨number, -, rfl⟩ := List.mem_map.mp hmem
    exact over_identifier hK hnames _ number
  · intro identifier hmem
    obtain ⟨⟨table, number⟩, -, rfl⟩ := List.mem_map.mp hmem
    exact over_identifier hK hnames table number

end Object

-- --------------------
-- Integers and strings
-- --------------------

theorem Flags.mem_split {lookup : Int → Option Text} {bits : List Nat} {word : Nat}
    (h : name ∈ (split lookup bits word).1) : ∃ n, lookup n = some name := by
  induction bits generalizing word with
  | nil => simp [split] at h
  | cons bit bits ih =>
    rw [split] at h
    split at h
    · cases h
    split at h
    · split at h
      · next found hfound =>
        rcases List.mem_cons.mp h with rfl | h
        · exact ⟨_, hfound⟩
        · exact ih h
      · exact ih h
    · exact ih h

theorem Flags.mem_decompose {lookup : Int → Option Text} {value : Int}
    (h : name ∈ (decompose lookup value).1) : ∃ n, lookup n = some name := by
  unfold decompose at h
  split at h
  · exact mem_split h
  · simp at h

theorem Argument.over_expressInteger (hK : HasPlain K) (hnames : symbols.NamesOver K)
    (parameter : Parameter) (number : Int) :
    Text.Over K (expressInteger symbols parameter number).value := by
  have hunresolved : ∀ (n shown : Int) table, Text.Over K (unresolved n shown table).value :=
    fun _ shown _ => hK.ofInt shown
  unfold expressInteger expressIntegerM
  split
  · exact hK.ofInt number
  · next name _ =>
    split
    · exact hunresolved _ _ _
    · next table htable =>
      have hname : ∀ n entry, table.get? n = some entry → Text.Over K entry.name := by
        intro n entry hentry
        refine hnames name entry ⟨n, .inl ?_⟩
        rw [Symbols.byId?, htable]
        exact hentry
      split
      · next entry hentry => exact hname _ entry hentry
      · split
        · dsimp only
          split
          · refine over_join (hK.over (by decide)) fun shown hshown => ?_
            obtain ⟨n, hn⟩ := Flags.mem_decompose hshown
            obtain ⟨entry, hentry, rfl⟩ := Option.map_eq_some_iff.mp hn
            exact hname n entry hentry
          · exact hunresolved _ _ _
        · exact hunresolved _ _ _

end

theorem Scope.mem_unpackOne (h : text ∈ unpackOne symbols value) (hc : c ∈ text) :
    c = '"' ∨ c ∈ value := by
  unfold unpackOne at h
  dsimp only at h
  split at h
  · rcases List.mem_cons.mp h with rfl | h
    · exact (List.mem_cons.mp hc).imp_right List.mem_of_mem_drop
    · rw [List.mem_singleton] at h
      subst h
      rcases List.mem_append.mp hc with hc | hc
      · exact .inr (List.mem_of_mem_take hc)
      · exact .inl (by simpa using hc)
  · rw [List.mem_singleton] at h
    exact .inr (h ▸ hc)

/-- Unpacking adds nothing but quotes. -/
theorem Scope.mem_unpack (h : some text ∈ unpack symbols first second) (hc : c ∈ text) :
    c = '"' ∨ c ∈ first ∨ c ∈ second := by
  have hmem : text ∈ unpackOne symbols first ++ unpackOne symbols second := by
    simpa [unpack] using h
  rcases List.mem_append.mp hmem with hmem | hmem
  · exact (mem_unpackOne hmem hc).imp_right .inl
  · exact (mem_unpackOne hmem hc).imp_right .inr

theorem Scope.over_unpack (hK : HasPlain K) (h : some text ∈ unpack symbols first second)
    (hfirst : Text.Over K first) (hsecond : Text.Over K second) : Text.Over K text := by
  intro c hc
  rcases mem_unpack h hc with rfl | hc | hc
  · exact hK _ (by decide)
  · exact hfirst c hc
  · exact hsecond c hc

theorem Action.mem_reclaimScope {strings : List (Option Text)}
    (h : some text ∈ reclaimScope signature strings) (hc : c ∈ text) :
    ∃ found, some found ∈ strings ∧ c ∈ found := by
  have hslot : ∀ i found, (strings[i]?).join = some found → some found ∈ strings :=
    fun i found hi => List.mem_of_getElem? (Option.join_eq_some_iff.mp hi)
  unfold reclaimScope at h
  dsimp only at h
  split at h
  · next scope hscope =>
    split at h
    · rcases List.mem_or_eq_of_mem_set h with h | h
      · exact ⟨text, h, hc⟩
      · obtain rfl := Option.some.inj h
        rcases List.mem_append.mp hc with hc | hc
        · exact ⟨scope, hslot _ _ hscope, List.dropLast_subset _ hc⟩
        · have hlast := List.mem_of_mem_drop hc
          cases hjoin : (strings[Signature.count signature .string - 1]?).join with
          | none => simp [hjoin] at hlast
          | some last =>
            rw [hjoin] at hlast
            exact ⟨last, hslot _ _ hjoin, hlast⟩
    · exact ⟨text, h, hc⟩
  · exact ⟨text, h, hc⟩

-- --------------------
-- Statements
-- --------------------

theorem Comment.over_append (hK : HasPlain K) (hline : Text.Over K line) {comment : Option Text}
    (h : ∀ told ∈ comment, Text.Over (fun c => c ≠ '\n' → K c) told) :
    Text.Over K (append line comment) := by
  cases comment with
  | none => exact hline
  | some comment =>
    simp only [append, Text.over_append]
    refine ⟨⟨hline, hK.over (by decide)⟩, fun c hc => ?_⟩
    obtain ⟨d, hd, rfl⟩ := List.mem_map.mp hc
    split
    · exact hK _ (by decide)
    · next hne => exact h comment rfl d hd hne

section

variable {symbols : Symbols}

theorem over_callText (hK : HasPlain K) (hname : Text.Over K entry.name)
    (h : ∀ argument ∈ arguments, Text.Over K argument) :
    Text.Over K (callText entry arguments) := by
  simp only [callText, over_append]
  exact ⟨⟨⟨hname, hK.over (by decide)⟩, over_join (hK.over (by decide)) h⟩, hK.over (by decide)⟩

theorem Trigger.Tells.over (hK : HasPlain K) (hnames : symbols.NamesOver K)
    (h : Tells symbols (Text.Over K) (Text.Over fun c => c ≠ '\n' → K c) text) :
    Text.Over K text := by
  obtain ⟨entry, negated, arguments, comment, hentry, harguments, hcomment, rfl⟩ := h
  refine Comment.over_append hK (over_append.mpr ⟨?_, ?_⟩) hcomment
  · cases negated with
    | true => exact hK.over (by decide)
    | false => exact over_nil
  · exact over_callText hK (hnames _ entry hentry) harguments

theorem Action.Tells.over (hK : HasPlain K) (hnames : symbols.NamesOver K)
    (h : Tells symbols (Text.Over K) (Text.Over fun c => c ≠ '\n' → K c) text) :
    Text.Over K text := by
  obtain ⟨entry, actor, arguments, comment, hentry, hactor, harguments, hcomment, rfl⟩ := h
  have hcall := over_callText hK (hnames _ entry hentry) harguments
  refine Comment.over_append hK ?_ hcomment
  split
  · exact hcall
  · simp only [over_append]
    exact ⟨⟨⟨⟨hK.over (by decide), hactor⟩, hK.over (by decide)⟩, hcall⟩, hK.over (by decide)⟩

structure ObjectRecord.Over (K : Char → Prop) (record : ObjectRecord) : Prop where
  name : Text.Over K record.name
  area : ∀ area ∈ record.area, Text.Over K area

structure TriggerRecord.Over (K : Char → Prop) (record : TriggerRecord) : Prop where
  point : ∀ point ∈ record.point, Text.Over K point
  strings : ∀ strings ∈ record.strings, Text.Over K strings.1 ∧ Text.Over K strings.2
  object : record.object.Over K

structure ActionRecord.Over (K : Char → Prop) (record : ActionRecord) : Prop where
  actor : record.actor.Over K
  objects : ∀ object ∈ record.objects, object.Over K
  strings : ∀ strings ∈ record.strings, Text.Over K strings.1 ∧ Text.Over K strings.2

theorem ObjectRecord.Of.over {record : ObjectRecord} (h : record.Of (Lexeme.Over K)) :
    record.Over K := ⟨h.name, h.area⟩

theorem TriggerRecord.Over.yields (hK : HasPlain K) (hnames : symbols.NamesOver K)
    (profile : Profile) {record : TriggerRecord} (h : record.Over K) :
    record.Yields symbols profile (Text.Over K) where
  object := Object.over_express hK hnames profile h.object.name h.object.area
  integer _ _ := Argument.over_expressInteger hK hnames _ _
  empty := hK.over (by decide)
  string first second hstrings text htext :=
    Scope.over_unpack hK htext (h.strings _ hstrings).1 (h.strings _ hstrings).2
  noPoint := hK.over (by decide)
  point point hpoint c hc := by
    rcases Text.mem_replaceFirst hc with rfl | hc
    · exact hK _ (by decide)
    · exact h.point point hpoint c hc

theorem ActionRecord.Over.isString (hK : HasPlain K) (hnames : symbols.NamesOver K)
    (profile : Profile) {record : ActionRecord} (h : record.Over K)
    (hvalue : record.IsString symbols profile value) :
    Text.Over K value := by
  unfold ActionRecord.IsString at hvalue
  rcases hvalue with rfl | hvalue
  · exact hK.over (by decide)
  split at hvalue
  · next first second hstrings =>
    obtain ⟨signature, hvalue⟩ := hvalue
    obtain ⟨hfirst, hsecond⟩ := h.strings _ hstrings
    intro c hc
    obtain ⟨found, hfound, hc⟩ := Action.mem_reclaimScope hvalue hc
    exact Scope.over_unpack hK hfound hfirst hsecond c hc
  · obtain ⟨object, hobject, rfl⟩ := hvalue
    exact Object.over_express hK hnames profile (h.objects object hobject).name
      (h.objects object hobject).area

theorem ActionRecord.Over.yields (hK : HasPlain K) (hnames : symbols.NamesOver K)
    (profile : Profile) {record : ActionRecord} (h : record.Over K) :
    record.Yields symbols profile (Text.Over K) where
  actor := Object.over_express hK hnames profile h.actor.name h.actor.area
  anyone := hK.over (by decide)
  object object hobject := Object.over_express hK hnames profile (h.objects object hobject).name
    (h.objects object hobject).area
  integer _ _ := Argument.over_expressInteger hK hnames _ _
  string _ := h.isString hK hnames profile
  point := by
    simp only [over_append]
    exact ⟨⟨⟨⟨hK.over (by decide), hK.ofInt _⟩, hK.over (by decide)⟩, hK.ofInt _⟩,
      hK.over (by decide)⟩

theorem TriggerRecord.Of.over {record : TriggerRecord} (h : record.Of (Lexeme.Over K)) :
    record.Over K := ⟨h.point, h.strings, h.object.over⟩

theorem ActionRecord.Of.over {record : ActionRecord} (h : record.Of (Lexeme.Over K)) :
    record.Over K :=
  ⟨h.actor.over, fun object hobject => (h.objects object hobject).over, h.strings⟩

theorem Trigger.definition?_byId? (h : definition? symbols opcode = some (entry, n)) :
    symbols.byId? "TRIGGER.IDS" n = some entry := by
  unfold definition? at h
  split at h
  · next found hfound =>
    cases h
    exact hfound
  · obtain ⟨found, hfound, hentry⟩ := Option.map_eq_some_iff.mp h
    cases hentry
    exact hfound

theorem Trigger.over_decode (hK : HasPlain K) (hsymbols : symbols.Over K) (profile : Profile) :
    (decode symbols profile).Ends (Lexeme.Over K) (fun line => Text.Over K line.text)
      (DecodeError.Over K) := by
  refine (ends_number (over_mismatch hK)).bind fun opcode _ => ?_
  split
  · next entry n hdefinition =>
    refine (TriggerRecord.ends_read (objectFaults_over hK profile)).bind fun record hrecord => ?_
    have hexpress := ends_tells (hsymbols.signatureFaults hK _) (definition?_byId? hdefinition)
      (hrecord.over.yields hK hsymbols.name profile) hsymbols.told
    exact (hexpress.mono fun _ => Tells.over hK hsymbols.name).line
  · refine (ends_skipPast _).bind fun _ _ => ends_pure ?_
    show Text.Over K ("Error - Could not find trigger ".toList ++ Text.ofInt opcode)
    exact over_append.mpr ⟨hK.over (by decide), hK.ofInt opcode⟩

theorem Action.over_decode (hK : HasPlain K) (hsymbols : symbols.Over K) (profile : Profile) :
    (decode symbols profile).Ends (Lexeme.Over K) (fun line => Text.Over K line.text)
      (DecodeError.Over K) := by
  refine (ActionRecord.ends_read (objectFaults_over hK profile)).bind fun record hrecord => ?_
  have hexpress := ends_tells (hsymbols.signatureFaults hK _)
    (hrecord.over.yields hK hsymbols.name profile) hsymbols.told fun _ _ _ _ => trivial
  refine Expressing.Ends.line (P := Text.Over K) (hexpress.mono fun text htext => ?_)
  rcases htext with htells | ⟨-, rfl⟩
  · exact htells.over hK hsymbols.name
  · exact over_append.mpr ⟨hK.over (by decide), hK.ofInt _⟩

end

-- --------------------
-- Scripts
-- --------------------

theorem over_ofDamage (hK : HasPlain K) (damage : Damage)
    (h : DecodeError.Over K (.damage damage)) :
    Text.Over K (SourceLine.ofDamage damage).text :=
  over_append.mpr ⟨hK.over (by decide), h⟩

/-- Decompiled lines are over an alphabet that has the characters of the code, of the
indent and of the symbols, and the plain ones. -/
theorem Decompiler.frame_over {decompiler : Decompiler} (hK : HasPlain K)
    (hsymbols : decompiler.symbols.Over K) (hindent : Text.Over K decompiler.indent) :
    decompiler.Frame (Lexeme.Over K) (fun line => Text.Over K line.text) (DecodeError.Over K) where
  mismatch := over_mismatch hK
  trigger := (Trigger.over_decode hK hsymbols _).mono fun _ hline =>
    ⟨over_append.mpr ⟨hindent, hline⟩,
      over_append.mpr ⟨over_append.mpr ⟨hindent, hindent⟩, hline⟩, fun _ _ => trivial⟩
  action := (Action.over_decode hK hsymbols _).mono fun _ hline =>
    over_append.mpr ⟨over_append.mpr ⟨hindent, hindent⟩, hline⟩
  weight n _ := by
    simp only [over_append]
    exact ⟨⟨hindent, hK.over (by decide)⟩, hK.ofInt n⟩
  fixed := by
    have hfixed : ∀ text ∈ ["IF".toList, "THEN".toList, "END".toList, []], text.all isPlain := by
      decide
    exact fun text htext => hK.over (hfixed text htext)
  damage := over_ofDamage hK

end InfinityScript
