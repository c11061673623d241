import InfinityScript.Argument.Encode
import InfinityScript.Proofs.Record.Width
import InfinityScript.Proofs.Symbol.Lookup

/-!
# Arguments that fit into words

Numbers are brought into the signed range by one subtraction, and not in all places.
An integer fits when its value is not beyond the reach of that (`Argument.isWord_integer_iff`).
Of an object, what is named always fits; a number in its vector is written as it is and has
to fit by itself (`Object.exists_numbers_code`).
-/

namespace InfinityScript

-- --------------------
-- Integers
-- --------------------

/-- One subtraction of 2^32, if any, brings the number into the signed range. -/
def ReachesWord (n : Int) : Prop := -2147483648 ≤ n ∧ n < 6442450944

instance : Decidable (ReachesWord n) := inferInstanceAs (Decidable (_ ∧ _))

def Entry.HasWord (entry : Entry) : Prop := -2147483648 ≤ entry.id ∧ entry.id < 4294967296

instance : Decidable (Entry.HasWord entry) := inferInstanceAs (Decidable (_ ∧ _))

theorem isWord_toSigned32_iff : IsWord (toSigned32 n) ↔ ReachesWord n := by
  unfold IsWord ReachesWord toSigned32
  split <;> omega

theorem isWord_zero : IsWord 0 := by decide

theorem Entry.HasWord.isWord {entry : Entry} (h : entry.HasWord) : IsWord (toSigned32 entry.id) := by
  unfold HasWord at h
  exact isWord_toSigned32_iff.mpr ⟨h.1, by omega⟩

namespace Text

/-- The value of a literal before it is brought into the signed range. -/
def literalValue? (text : Text) : Option Int :=
  match text with
  | '0' :: x :: digit :: digits =>
    if x = 'x' ∨ x = 'X' then (readHex? (digit :: digits)).map Int.ofNat else readSigned? text
  | _ => readSigned? text

theorem literal?_eq (text : Text) : literal? text = (literalValue? text).map toSigned32 := by
  unfold literal?
  split
  · next x digit digits =>
    simp only [literalValue?]
    split
    · cases readHex? (digit :: digits) <;> rfl
    · rfl
  · next hdecimal =>
    have hvalue : literalValue? text = readSigned? text := by
      unfold literalValue?
      split
      · exact (hdecimal _ _ _ rfl).elim
      · rfl
    rw [hvalue]

theorem literal?_of_literal (h : literal text = .ok value) : literal? text = value := by
  unfold literal at h
  split at h
  · obtain ⟨_, -, h⟩ := Outcome.bind_ok.mp h
    exact Outcome.pure_ok.mp h
  · exact Outcome.pure_ok.mp h

def pointNumbers (text : Text) : List Int :=
  (splitOn '.' (inner (text.map fun c => if c = ',' then '.' else c))).filterMap readLoose?

theorem pointNumbers_replaceFirst (text : Text) :
    pointNumbers (replaceFirst '.' ',' text) = pointNumbers text := by
  have hmap : (replaceFirst '.' ',' text).map (fun c => if c = ',' then '.' else c) =
      text.map fun c => if c = ',' then '.' else c := by
    induction text with
    | nil => rfl
    | cons c text ih =>
      unfold replaceFirst
      split
      · next hdot => simp [hdot]
      · simpa using ih
  rw [pointNumbers, hmap, pointNumbers]

end Text

namespace Argument

/-- The value of an integer argument before it is brought into the signed range: of a literal,
of a symbol, or of symbols with bars between them. -/
def value? (symbols : Symbols) (definition value : Text) : Option Int :=
  (Text.literalValue? value).orElse fun _ =>
    (integerTable? definition).bind fun table =>
      match symbols.byName? table value with
      | some entry => some entry.id
      | none => (sumOfSymbols symbols table (Text.splitOn '|' value)).toOption

theorem symbolic_ok (h : symbolic symbols definition value = .ok n)
    (hliteral : Text.literalValue? value = none) :
    ∃ m, value? symbols definition value = some m ∧ n = toSigned32 m := by
  unfold symbolic at h
  unfold value?
  rw [hliteral]
  split at h
  · cases h
  · next table htable =>
    rw [htable]
    split at h
    · next entry hentry =>
      refine ⟨entry.id, ?_, (Except.ok.inj h).symm⟩
      simp [hentry]
    · next hnone =>
      split at h
      · cases hsum : sumOfSymbols symbols table (Text.splitOn '|' value) with
        | error fault => simp [hsum, Except.map] at h
        | ok sum =>
          refine ⟨sum, by simp [hnone, hsum, Except.toOption], ?_⟩
          rw [hsum] at h
          exact (Except.ok.inj h).symm
      · cases h

/-- The number of an integer argument is its value, less 2^32 from 2^31 on. -/
theorem exists_value_of_integer (h : integer symbols definition value = .ok n) :
    ∃ m, value? symbols definition value = some m ∧ n = toSigned32 m := by
  obtain ⟨literal, hliteral, h⟩ := Outcome.bind_ok.mp h
  have hvalue := Text.literal?_of_literal (Refusal.ofNumeral_ok.mp hliteral)
  rw [Text.literal?_eq] at hvalue
  cases literal with
  | some k =>
    obtain ⟨rfl, -⟩ := Text.writable_eq_ok_iff.mp (Refusal.ofNumeral_ok.mp h)
    obtain ⟨m, hm, rfl⟩ := Option.map_eq_some_iff.mp hvalue
    exact ⟨m, by simp [value?, hm], rfl⟩
  | none =>
    obtain ⟨k, hk, h⟩ := Outcome.bind_ok.mp h
    obtain ⟨rfl, -⟩ := Text.writable_eq_ok_iff.mp (Refusal.ofNumeral_ok.mp h)
    exact symbolic_ok (Refusal.ofFault_ok.mp hk) (Option.map_eq_none_iff.mp hvalue)

def ValueFits (symbols : Symbols) (definition value : Text) : Prop :=
  ∀ n ∈ value? symbols definition value, ReachesWord n

instance : Decidable (ValueFits symbols definition value) :=
  inferInstanceAs (Decidable (∀ n ∈ value? symbols definition value, ReachesWord n))

theorem isWord_integer_iff (h : integer symbols definition value = .ok n) :
    IsWord n ↔ ValueFits symbols definition value := by
  obtain ⟨m, hm, rfl⟩ := exists_value_of_integer h
  simp [ValueFits, hm, isWord_toSigned32_iff]

end Argument

-- --------------------
-- Objects
-- --------------------

namespace Object

variable {symbols : Symbols} {profile : Profile}

def componentsOf (profile : Profile) (group : Text) : List (Text × Text) :=
  profile.objectTables.zip ((Text.splitOn '.' group).filter (· ≠ []))

def ComponentFits (symbols : Symbols) (component : Text × Text) : Prop :=
  symbols.byName? component.1 component.2 = none → ∀ n ∈ Text.readSigned? component.2, IsWord n

instance (component : Text × Text) : Decidable (ComponentFits symbols component) :=
  inferInstanceAs (Decidable (_ → _))

theorem isWord_componentNumber_iff (hsymbols : symbols.Made Entry.HasWord) {component : Text × Text} :
    IsWord (componentNumber symbols component) ↔ ComponentFits symbols component := by
  unfold componentNumber ComponentFits
  cases hentry : symbols.byName? component.1 component.2 with
  | some entry => simp [(hsymbols.byName? hentry).isWord]
  | none => cases hread : Text.readSigned? component.2 <;> simp [isWord_zero]

/-- Of a vector that is cut, the numbers fit if the components do; others are zero. -/
theorem isWord_take_iff (hsymbols : symbols.Made Entry.HasWord) (found : List (Text × Text))
    (missing width : Nat) :
    (∀ n ∈ (found.map (componentNumber symbols) ++ List.replicate missing 0).take width, IsWord n) ↔
      ∀ component ∈ found.take width, ComponentFits symbols component := by
  have hzero : ∀ n ∈ (List.replicate missing (0 : Int)).take (width - found.length), IsWord n :=
    fun n hn => List.eq_of_mem_replicate (List.mem_of_mem_take hn) ▸ isWord_zero
  rw [List.take_append, List.length_map, List.forall_mem_append, ← List.map_take, List.forall_mem_map]
  simp only [isWord_componentNumber_iff hsymbols, and_iff_left hzero]

theorem isWord_drop_iff (hsymbols : symbols.Made Entry.HasWord) (found : List (Text × Text))
    (missing width : Nat) :
    (∀ n ∈ (found.map (componentNumber symbols) ++ List.replicate missing 0).drop width, IsWord n) ↔
      ∀ component ∈ found.drop width, ComponentFits symbols component := by
  have hzero : ∀ n ∈ (List.replicate missing (0 : Int)).drop (width - found.length), IsWord n :=
    fun n hn => List.eq_of_mem_replicate (List.mem_of_mem_drop hn) ▸ isWord_zero
  rw [List.drop_append, List.length_map, List.forall_mem_append, ← List.map_drop, List.forall_mem_map]
  simp only [isWord_componentNumber_iff hsymbols, and_iff_left hzero]

/-- The bracket group is neither anyone nor an area. -/
def IsVector (symbols : Symbols) (profile : Profile) (group : Text) : Prop :=
  group ≠ [] ∧ Text.upper group ≠ "ANYONE" ∧ ¬ IsArea symbols profile group

instance : Decidable (IsVector symbols profile group) :=
  inferInstanceAs (Decidable (_ ∧ _ ∧ _))

def vectors (symbols : Symbols) (profile : Profile) (groups : List (Option Text)) :
    List (List (Text × Text)) :=
  ((groups.filterMap id).filter (IsVector symbols profile)).map (componentsOf profile)

/-- Every vector has its leading numbers written. -/
def leadingComponents (profile : Profile) (vectors : List (List (Text × Text))) :
    List (Text × Text) :=
  vectors.flatMap (·.take profile.leadingWidth.toNat)

/-- Of the trailing numbers, those of the last vector are written. -/
def trailingComponents (profile : Profile) (vectors : List (List (Text × Text))) :
    List (Text × Text) :=
  (vectors.getLast?.getD []).drop profile.leadingWidth.toNat

theorem Fields.add_numbers {fields next : Fields}
    (h : fields.add symbols profile (some group) = .ok next) :
    (fields.area.head? = some '[' → next.area.head? = some '[') ∧
    ((¬ IsVector symbols profile group ∧ next.trailing = fields.trailing ∧
        (next.leading = fields.leading ∨ next.leading = fields.leading ++ profile.leadingZeros)) ∨
      (IsVector symbols profile group ∧ ∃ numbers missing, numbers.length = profile.vectorWidth ∧
        numbers = (componentsOf profile group).map (componentNumber symbols) ++
          List.replicate missing 0 ∧
        next.leading = fields.leading ++ profile.leadingText numbers ∧
        next.trailing =
          if profile.trailingWidth ≠ 0 then profile.trailingText numbers else fields.trailing)) := by
  unfold Fields.add at h
  dsimp only at h
  split at h
  · next hanyone =>
    obtain rfl := Except.ok.inj h
    exact ⟨id, .inl ⟨fun hvector => hanyone.elim hvector.1 hvector.2.1, rfl, .inr rfl⟩⟩
  · next hgroup =>
    obtain ⟨hne, hanyone⟩ := not_or.mp hgroup
    obtain ⟨⟨numbers, named⟩, hnumbers, h⟩ := Outcome.bind_ok.mp h
    obtain ⟨hlength, -, hnamed, heq⟩ := vectorNumbers_ok hnumbers
    dsimp only at h
    split at h
    · next harea =>
      obtain ⟨hunnamed, hcount, hprofile⟩ := harea
      obtain rfl := Outcome.pure_ok.mp h
      refine ⟨fun _ => rfl, .inl ⟨fun hvector => hvector.2.2 ?_, rfl, ?_⟩⟩
      · exact ⟨hprofile, hne, hanyone, hcount, hnamed.mp (by simpa using hunnamed)⟩
      · dsimp only
        split
        · next hnil => simp [hnil]
        · exact .inl rfl
    · next harea =>
      obtain rfl := Outcome.pure_ok.mp h
      refine ⟨id, .inr ⟨⟨hne, hanyone, ?_⟩, numbers, _, hlength, heq, rfl, rfl⟩⟩
      rintro ⟨hprofile, -, -, hcount, hunnamed⟩
      exact harea ⟨by simp [hnamed.mpr hunnamed], hcount, hprofile⟩

theorem numbersText_append (ns ms : List Int) :
    numbersText (ns ++ ms) = numbersText ns ++ numbersText ms :=
  List.flatMap_append

theorem windows_vector (hprofile : profile.Regular) {numbers : List Int}
    (hlength : numbers.length = profile.vectorWidth) :
    profile.leadingText numbers = numbersText (numbers.take profile.leadingWidth.toNat) ∧
      (profile.trailingWidth ≠ 0 → profile.trailingText numbers =
        ' ' :: numbersText (numbers.drop profile.leadingWidth.toNat)) := by
  have hleading := hprofile.leading
  obtain ⟨before, after, rfl, hbefore, hafter, hcount, hcount'⟩ := hprofile.exists_windows hlength
  rw [Profile.leadingText, Profile.trailingText, hbefore, hafter, ← hcount, Int.toNat_natCast,
    List.take_left, List.drop_left]
  refine ⟨join_ofInt fun hnil => ?_, fun htrailing => ?_⟩
  · rw [hnil, List.length_nil] at hcount
    omega
  · refine congrArg _ (join_ofInt fun hnil => htrailing ?_)
    rw [← hcount', hnil]
    rfl

structure Fields.Writes (symbols : Symbols) (profile : Profile)
    (vectors : List (List (Text × Text))) (fields : Fields) : Prop where
  leading : ∃ numbers, fields.leading = numbersText numbers ∧
    ((∀ n ∈ numbers, IsWord n) ↔
      ∀ component ∈ leadingComponents profile vectors, ComponentFits symbols component)
  trailing : ∃ numbers, profile.trailer fields.trailing = profile.trailer (' ' :: numbersText numbers) ∧
    ((∀ n ∈ numbers, IsWord n) ↔
      ∀ component ∈ trailingComponents profile vectors, ComponentFits symbols component)
  area : fields.area.head? = some '['

theorem forall_isWord_zeros (count : Nat) : ∀ n ∈ List.replicate count (0 : Int), IsWord n :=
  fun _ hn => List.eq_of_mem_replicate hn ▸ isWord_zero

theorem leadingZeros_eq (profile : Profile) :
    profile.leadingZeros = numbersText (List.replicate profile.leadingWidth.toNat 0) :=
  flatten_zeros _

theorem trailer_trailingZeros (profile : Profile) : profile.trailer profile.trailingZeros =
    profile.trailer (' ' :: numbersText (List.replicate profile.trailingWidth.toNat 0)) := by
  unfold Profile.trailer Profile.trailingZeros
  split
  · next hwritten => rw [if_pos hwritten.1, flatten_zeros]
  · rfl

section

variable {fields next : Fields} {found : List (List (Text × Text))}

theorem Fields.writes_nil (symbols : Symbols) (profile : Profile) :
    Fields.Writes symbols profile [] { trailing := profile.trailingZeros } where
  leading := ⟨[], rfl, by simp [leadingComponents]⟩
  trailing := ⟨_, trailer_trailingZeros profile,
    by simpa [trailingComponents] using fun _ => isWord_zero⟩
  area := rfl

variable (hsymbols : symbols.Made Entry.HasWord) (hprofile : profile.Regular)

include hsymbols hprofile

theorem Fields.Writes.add (h : fields.Writes symbols profile found)
    (hadd : fields.add symbols profile (some group) = .ok next) :
    next.Writes symbols profile (found ++ vectors symbols profile [some group]) := by
  obtain ⟨leading, hleading, hleadingFits⟩ := h.leading
  obtain ⟨trailing, htrailing, htrailingFits⟩ := h.trailing
  obtain ⟨harea, ⟨hvector, hkept, hnext⟩ | ⟨hvector, numbers, missing, hlength, hnumbers, hnext,
    hlast⟩⟩ := add_numbers hadd
  · have hnone : vectors symbols profile [some group] = [] := by simp [vectors, hvector]
    rw [hnone, List.append_nil]
    refine ⟨?_, ⟨trailing, hkept ▸ htrailing, htrailingFits⟩, harea h.area⟩
    rcases hnext with hnext | hnext
    · exact ⟨leading, hnext ▸ hleading, hleadingFits⟩
    · refine ⟨leading ++ List.replicate profile.leadingWidth.toNat 0, ?_, ?_⟩
      · rw [hnext, hleading, leadingZeros_eq, numbersText_append]
      · rw [List.forall_mem_append, and_iff_left (forall_isWord_zeros _), hleadingFits]
  · have hone : vectors symbols profile [some group] = [componentsOf profile group] := by
      simp [vectors, hvector]
    obtain ⟨hbefore, hafter⟩ := windows_vector hprofile hlength
    rw [hone]
    refine ⟨⟨leading ++ numbers.take profile.leadingWidth.toNat, ?_, ?_⟩,
      ⟨numbers.drop profile.leadingWidth.toNat, ?_, ?_⟩, harea h.area⟩
    · rw [hnext, hleading, hbefore, numbersText_append]
    · rw [List.forall_mem_append, hleadingFits, hnumbers, isWord_take_iff hsymbols, leadingComponents,
        leadingComponents, List.flatMap_append, List.forall_mem_append, List.flatMap_singleton]
    · unfold Profile.trailer
      split
      · next hwritten => rw [hlast, if_pos hwritten.2, hafter hwritten.2]
      · rfl
    · rw [hnumbers, isWord_drop_iff hsymbols]
      simp [trailingComponents]

theorem Fields.Writes.foldlM {groups : List (Option Text)} (h : fields.Writes symbols profile found)
    (hfold : groups.foldlM (Fields.add symbols profile) fields = .ok next) :
    next.Writes symbols profile (found ++ vectors symbols profile groups) := by
  induction groups generalizing fields found with
  | nil =>
    obtain rfl := Outcome.pure_ok.mp hfold
    simpa [vectors] using h
  | cons group groups ih =>
    rw [List.foldlM_cons] at hfold
    obtain ⟨middle, hfirst, hrest⟩ := Outcome.bind_ok.mp hfold
    cases group with
    | none => cases hfirst
    | some group =>
      have hgroups : vectors symbols profile (some group :: groups) =
          vectors symbols profile [some group] ++ vectors symbols profile groups := by
        rw [vectors, vectors, vectors, ← List.map_append, ← List.filter_append, ← List.filterMap_append]
        rfl
      rw [hgroups, ← List.append_assoc]
      exact ih (h.add hsymbols hprofile hfirst) hrest

end

-- --------------------
-- Records of objects
-- --------------------

structure Numbers where
  leading : List Int
  qualifiers : List Int
  trailing : List Int

/-- The text is an object record with these numbers. -/
structure Numbers.In (profile : Profile) (text : Text) (numbers : Numbers) : Prop where
  count : numbers.qualifiers.length = 5
  text : ∃ area name, area.head? = some '[' ∧ name.head? = some '"' ∧
    text = "OB\n" ++ numbersText numbers.leading ++ numbersText numbers.qualifiers ++
      profile.objectTail area name (' ' :: numbersText numbers.trailing)

def Numbers.AreWords (numbers : Numbers) : Prop :=
  ∀ n ∈ numbers.leading ++ numbers.qualifiers ++ numbers.trailing, IsWord n

theorem exists_numbers_objectLayout {qualifiers leading trailing : List Int}
    (hcount : qualifiers.length ≤ 5) (hqualifiers : ∀ n ∈ qualifiers, IsWord (toSigned32 n))
    (hleading : before = numbersText leading)
    (htrailing : profile.trailer after = profile.trailer (' ' :: numbersText trailing))
    (harea : area.head? = some '[') (hname : name.head? = some '"') :
    ∃ numbers : Numbers,
      numbers.In profile (profile.objectLayout before qualifiers area name after) ∧
      (∀ n ∈ numbers.qualifiers, IsWord n) ∧
      (numbers.AreWords ↔ (∀ n ∈ leading, IsWord n) ∧ ∀ n ∈ trailing, IsWord n) := by
  let written := (qualifiers.reverse ++ List.replicate (5 - qualifiers.length) 0).map toSigned32
  have hwords : ∀ n ∈ written, IsWord n := by
    refine List.forall_mem_map.mpr (List.forall_mem_append.mpr ⟨fun n hn => ?_, fun n hn => ?_⟩)
    · exact hqualifiers n (List.mem_reverse.mp hn)
    · rw [List.eq_of_mem_replicate hn]
      decide
  have htext : Profile.qualifierText qualifiers = numbersText written := by
    rw [numbersText, List.flatMap_map]
    rfl
  refine ⟨⟨leading, written, trailing⟩, ⟨?_, area, name, harea, hname, ?_⟩, hwords, ?_⟩
  · simp [written]
    omega
  · rw [Profile.objectLayout, hleading, htext, Profile.objectTail_eq, htrailing,
      ← Profile.objectTail_eq]
  · simp only [Numbers.AreWords, List.forall_mem_append, and_iff_left hwords]

theorem exists_numbers_zeros {qualifiers : List Int} (hcount : qualifiers.length ≤ 5)
    (hqualifiers : ∀ n ∈ qualifiers, IsWord (toSigned32 n)) (harea : area.head? = some '[')
    (hname : name.head? = some '"') :
    ∃ numbers : Numbers,
      numbers.In profile (profile.objectLayout profile.leadingZeros qualifiers area name
        profile.trailingZeros) ∧ numbers.AreWords := by
  obtain ⟨numbers, hin, -, hwords⟩ := exists_numbers_objectLayout hcount hqualifiers
    (leadingZeros_eq profile) (trailer_trailingZeros profile) harea hname
  exact ⟨numbers, hin, hwords.mpr ⟨forall_isWord_zeros _, forall_isWord_zeros _⟩⟩

theorem exists_numbers_emptyObject (profile : Profile) :
    ∃ numbers : Numbers, numbers.In profile profile.emptyObject ∧ numbers.AreWords :=
  exists_numbers_zeros (by simp) (by simp [isWord_toSigned32_iff, ReachesWord]) rfl rfl

theorem Numbers.AreWords.qualifiers {numbers : Numbers} (h : numbers.AreWords) :
    ∀ n ∈ numbers.qualifiers, IsWord n := fun n hn => h n (by simp [hn])

theorem IsId.isWord (hsymbols : symbols.Made Entry.HasWord) (h : IsId symbols n) :
    IsWord (toSigned32 n) := by
  obtain ⟨table, name, entry, hentry, rfl⟩ := h
  exact (hsymbols.byName? hentry).isWord

theorem exists_numbers_vectorCode {qualifiers : List Int} (hsymbols : symbols.Made Entry.HasWord)
    (hprofile : profile.Regular) (hcount : qualifiers.length ≤ 5)
    (hqualifiers : ∀ n ∈ qualifiers, IsWord (toSigned32 n))
    (h : vectorCode symbols profile qualifiers core = .ok text) :
    ∃ numbers : Numbers, numbers.In profile text ∧ (∀ n ∈ numbers.qualifiers, IsWord n) ∧
      (numbers.AreWords ↔
        let found := vectors symbols profile (bracketGroups none core)
        ∀ component ∈ leadingComponents profile found ++ trailingComponents profile found,
          ComponentFits symbols component) := by
  obtain ⟨_, -, h⟩ := Outcome.bind_ok.mp h
  obtain ⟨fields, hfields, h⟩ := Outcome.bind_ok.mp h
  obtain ⟨_, -, h⟩ := Outcome.bind_ok.mp h
  obtain rfl := Outcome.pure_ok.mp h
  have hwrites := (Fields.writes_nil symbols profile).foldlM hsymbols hprofile hfields
  rw [List.nil_append] at hwrites
  obtain ⟨leading, hleading, hleadingFits⟩ := hwrites.leading
  obtain ⟨trailing, htrailing, htrailingFits⟩ := hwrites.trailing
  obtain ⟨numbers, hin, hwords, hall⟩ := exists_numbers_objectLayout hcount hqualifiers hleading
    htrailing hwrites.area (rfl : emptyString.head? = some '"')
  refine ⟨numbers, hin, hwords, hall.trans ?_⟩
  rw [hleadingFits, htrailingFits, ← List.forall_mem_append]

theorem exists_numbers_symbolCode {qualifiers : List Int} (hsymbols : symbols.Made Entry.HasWord)
    (hcount : qualifiers.length ≤ 5) (hqualifiers : ∀ n ∈ qualifiers, IsWord (toSigned32 n))
    (h : symbolCode symbols profile qualifiers core = .ok text) :
    ∃ numbers : Numbers, numbers.In profile text ∧ numbers.AreWords := by
  obtain ⟨n, hn, hcount, -, -, rfl⟩ := exists_layout_symbolCode hcount h
  have harea : (symbolParts core).2.head? = some '[' := by
    obtain ⟨inside, hinside⟩ := symbolParts_area core
    rw [hinside]
    rfl
  have hlast : IsWord (toSigned32 n) := by
    rcases hn with rfl | hn
    · decide
    · exact hn.isWord hsymbols
  exact exists_numbers_zeros hcount
    (List.forall_mem_append.mpr ⟨hqualifiers, by simpa using hlast⟩) harea
    (rfl : emptyString.head? = some '"')

/-- The numbers that the expression has in its vectors fit, as far as they are written. -/
def LiteralsFit (symbols : Symbols) (profile : Profile) (value : Text) : Prop :=
  ∀ parts ∈ (qualify symbols value).toOption, parts.2.head? = some '[' →
    let found := vectors symbols profile (bracketGroups none parts.2)
    ∀ component ∈ leadingComponents profile found ++ trailingComponents profile found,
      ComponentFits symbols component

instance : Decidable (LiteralsFit symbols profile value) :=
  inferInstanceAs (Decidable (∀ parts ∈ (qualify symbols value).toOption, _ → ∀ component ∈ _, _))

/-- The record of an object has numbers that fit exactly when those in its expression do. Its
qualifiers always fit. -/
theorem exists_numbers_code (hsymbols : symbols.Made Entry.HasWord) (hprofile : profile.Regular)
    (h : code symbols profile definition value = .ok part) :
    ∃ numbers : Numbers, numbers.In profile part.value ∧ (∀ n ∈ numbers.qualifiers, IsWord n) ∧
      (numbers.AreWords ↔ LiteralsFit symbols profile value) := by
  obtain ⟨⟨qualifiers, core⟩, hparts, h⟩ := Outcome.bind_ok.mp h
  have hqualify := Refusal.ofFault_ok.mp hparts
  obtain ⟨hcount, -, hids⟩ := qualify_parts hqualify
  have hqualifiers : ∀ n ∈ qualifiers, IsWord (toSigned32 n) := fun n hn => (hids n hn).isWord hsymbols
  have hfits : core.head? ≠ some '[' → LiteralsFit symbols profile value := by
    intro hhead parts hparts hhead'
    rw [hqualify] at hparts
    obtain rfl := Option.some.inj hparts
    exact absurd hhead' hhead
  dsimp only at h
  split at h
  · next hhead =>
    obtain ⟨text, htext, h⟩ := Outcome.bind_ok.mp h
    obtain rfl := Outcome.pure_ok.mp h
    obtain ⟨numbers, hin, hwords, hall⟩ :=
      exists_numbers_vectorCode hsymbols hprofile hcount hqualifiers htext
    refine ⟨numbers, hin, hwords, hall.trans ?_⟩
    simp [LiteralsFit, hqualify, Except.toOption, hhead]
  · next hhead =>
    obtain ⟨text, htext, h⟩ := Outcome.bind_ok.mp h
    obtain rfl := Outcome.pure_ok.mp h
    obtain ⟨-, -, -, rfl⟩ := exists_layout_nameCode hhead htext
    obtain ⟨numbers, hin, hwords⟩ := exists_numbers_zeros hcount hqualifiers
      (rfl : noArea.head? = some '[') hhead
    exact ⟨numbers, hin, hwords.qualifiers, iff_of_true hwords (hfits (by simp [hhead]))⟩
  · next hhead hquote =>
    obtain ⟨text, htext, h⟩ := Outcome.bind_ok.mp h
    obtain rfl := Outcome.pure_ok.mp h
    obtain ⟨numbers, hin, hwords⟩ :=
      exists_numbers_symbolCode hsymbols hcount hqualifiers htext
    exact ⟨numbers, hin, hwords.qualifiers, iff_of_true hwords (hfits hhead)⟩

end Object

end InfinityScript
