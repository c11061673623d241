import InfinityScript.Object.Encode
import InfinityScript.Proofs.Code.Pieces
import InfinityScript.Proofs.Script.DecodedLines
import InfinityScript.Proofs.Script.Rules

/-!
# Object records read back

The code of an object is cut into its fields, and from these the record is read
(`ObjectFields.parse_read`).
-/

namespace InfinityScript

open Reader

-- --------------------
-- Fields as pieces of code
-- --------------------

theorem window_subset (first last : Int) (items : List α) : window first last items ⊆ items :=
  fun _ h => List.mem_of_mem_take (List.mem_of_mem_drop h)

def numberPiece (n : Int) : Lexeme × Text := (.number n, Text.ofInt n)

def numbersText (numbers : List Int) : Text := numbers.flatMap fun n => Text.ofInt n ++ " "

/-- A text from one mark to another that is not closed before its end. -/
def Enclosed (opening closing : Char) (text : Text) : Prop :=
  ∃ body, text = opening :: (body ++ [closing]) ∧ closing ∉ body

abbrev Quoted : Text → Prop := Enclosed '"' '"'

abbrev Bracketed : Text → Prop := Enclosed '[' ']'

theorem enclosed_iff : Enclosed opening closing text ↔
    text.head? = some opening ∧ (text.drop 1).getLast? = some closing ∧
      closing ∉ Text.inner text := by
  constructor
  · rintro ⟨body, rfl, hbody⟩
    exact ⟨rfl, by simp, by simpa [Text.inner] using hbody⟩
  · rintro ⟨hhead, hlast, hinner⟩
    cases text with
    | nil => cases hhead
    | cons c rest =>
      obtain rfl := Option.some.inj hhead
      obtain ⟨body, rfl⟩ := List.getLast?_eq_some_iff.mp hlast
      exact ⟨body, rfl, by simpa [Text.inner] using hinner⟩

instance : Decidable (Enclosed opening closing text) := decidable_of_iff _ enclosed_iff.symm

theorem quoted_emptyString : Quoted emptyString := ⟨[], rfl, by simp⟩

theorem bracketed_noArea : Bracketed noArea ∧ '\n' ∉ noArea :=
  ⟨⟨"-1.-1.-1.-1", rfl, by decide⟩, by decide⟩

theorem splits_blank (h : Text.isBlank c) : Splits [c] [] := fun _ => pieces_blank h

theorem endsNumber_blank (h : Text.isBlank c) : EndsNumber (c :: rest) := by
  intro d hd
  obtain rfl : c = d := by simpa using hd
  exact Text.isDecimalDigit_eq_false_of_isBlank h

theorem splits_numbers (numbers : List Int) :
    Splits (numbersText numbers) (numbers.map numberPiece) := by
  rw [List.map_eq_flatMap]
  refine .flatMap fun n _ rest => ?_
  rw [List.append_assoc]
  exact (pieces_ofInt n (endsNumber_blank (by decide))).trans
    (congrArg _ (pieces_blank (by decide)))

theorem flatten_zeros (count : Nat) :
    (List.replicate count ("0 " : Text)).flatten = numbersText (List.replicate count 0) := by
  rw [numbersText, List.flatMap_replicate]
  rfl

theorem join_ofInt {numbers : List Int} (h : numbers ≠ []) :
    Text.join " " (numbers.map Text.ofInt) ++ " " = numbersText numbers := by
  induction numbers with
  | nil => exact absurd rfl h
  | cons n numbers ih =>
    cases numbers with
    | nil => simp [Text.join, numbersText]
    | cons next numbers =>
      rw [List.map_cons, List.map_cons, Text.join_cons_cons, List.append_assoc, List.append_assoc,
        ← List.map_cons, ih (by simp), ← List.append_assoc]
      rfl

structure SplitsNumbers (text : Text) (numbers : List Int) : Prop where
  splits : Splits text (numbers.map numberPiece)
  few : ∀ n ∈ numbers, Text.FewDigits (Text.ofInt n)

namespace SplitsNumbers

theorem nil : SplitsNumbers [] [] := ⟨fun _ => rfl, by simp⟩

theorem blank : SplitsNumbers " " [] := ⟨splits_blank (by decide), by simp⟩

theorem eq_nil (h : SplitsNumbers [] ns) : ns = [] := by
  simpa [eq_comm] using h.splits.pieces_eq

theorem append (ha : SplitsNumbers a ns) (hb : SplitsNumbers b ms) :
    SplitsNumbers (a ++ b) (ns ++ ms) := by
  refine ⟨?_, fun n hn => (List.mem_append.mp hn).elim (ha.few n) (hb.few n)⟩
  rw [List.map_append]
  exact ha.splits.append hb.splits

/-- Numbers are divided by blanks also where there are none of them. -/
theorem join {numbers : List Int} (hfew : ∀ n ∈ numbers, Text.FewDigits (Text.ofInt n)) :
    SplitsNumbers (Text.join " " (numbers.map Text.ofInt) ++ " ") numbers := by
  cases numbers with
  | nil => exact .blank
  | cons n numbers =>
    rw [join_ofInt (by simp)]
    exact ⟨splits_numbers _, hfew⟩

theorem zeros {width : Int} (h : 0 ≤ width) : ∃ numbers : List Int,
    (numbers.length : Int) = width ∧
      SplitsNumbers (List.replicate width.toNat ("0 " : Text)).flatten numbers := by
  refine ⟨List.replicate width.toNat 0, by simp; omega, ?_, fun n hn => ?_⟩
  · rw [flatten_zeros]
    exact splits_numbers _
  · rw [List.eq_of_mem_replicate hn]
    decide

end SplitsNumbers

theorem Quoted.splits (h : Quoted text) : Splits text [(.string text, text)] := by
  obtain ⟨body, rfl, hbody⟩ := h
  intro rest
  have := pieces_string hbody rest
  simpa using this

theorem Bracketed.splits (h : Bracketed text) : Splits text [(.coordinate text, text)] := by
  obtain ⟨body, rfl, hbody⟩ := h
  intro rest
  have := pieces_coordinate hbody rest
  simpa using this

-- --------------------
-- Objects
-- --------------------

structure ObjectFields where
  before : List Int
  area : Option Text
  name : Text
  after : List Int

namespace ObjectFields

def record (fields : ObjectFields) : ObjectRecord :=
  ⟨fields.before ++ fields.after, fields.area, fields.name⟩

def pieces (fields : ObjectFields) : List (Lexeme × Text) :=
  fields.before.map numberPiece ++ ((fields.area.toList.map fun area => (.coordinate area, area)) ++
    (.string fields.name, fields.name) ::
      (fields.after.map numberPiece ++ [Marker.object.piece]))

structure Spells (text : Text) (fields : ObjectFields) : Prop where
  starts : ∃ body, text = Marker.object.code ++ body
  splits : Splits (text ++ ['\n']) (Marker.object.piece :: fields.pieces)
  alone : InfinityScript.pieces text = Marker.object.piece :: fields.pieces

/-- The text is the code of the fields, which are as many as the profile has. -/
structure Codes (profile : Profile) (text : Text) (fields : ObjectFields) : Prop
    extends fields.Spells text where
  width : fields.record.numbers.length = profile.objectNumberCount

structure Reads (profile : Profile) (text : Text) (fields : ObjectFields) : Prop
    extends fields.Codes profile text where
  few : ∀ n ∈ fields.record.numbers, Text.FewDigits (Text.ofInt n)

structure Fits (profile : Profile) (text : Text) (fields : ObjectFields) : Prop
    extends fields.Reads profile text where
  oneLine : fields.record.OneLine

theorem parse_coordinate?_toList (area : Option Text) (name : Text) (ls : List Lexeme) :
    coordinate?.parse ((area.toList.map fun area => (.coordinate area, area)).map Prod.fst ++
      .string name :: ls) = (.ok area, .string name :: ls) := by
  cases area with
  | none => exact parse_coordinate?_none (by simp)
  | some area => exact parse_coordinate?_cons

theorem head?_area (area : Option Text) (name : Text) (ls : List Lexeme) (n : Int) :
    ((area.toList.map fun area => ((.coordinate area, area) : Lexeme × Text)).map Prod.fst ++
      .string name :: ls).head? ≠ some (.number n) := by
  cases area <;> simp

theorem parse_read {fields : ObjectFields}
    (hwidth : fields.record.numbers.length = profile.objectNumberCount)
    (hqualifiers : fields.record.qualifiers profile ≠ []) (ls : List Lexeme) :
    (ObjectRecord.read profile).parse (fields.pieces.map Prod.fst ++ ls) =
      (.ok fields.record, ls) := by
  have hpieces : fields.pieces.map Prod.fst ++ ls = fields.before.map .number ++
      ((fields.area.toList.map fun area => ((.coordinate area, area) : Lexeme × Text)).map Prod.fst ++
        .string fields.name :: (fields.after.map .number ++ .marker .object :: ls)) := by
    simp [pieces, numberPiece, Marker.piece, Function.comp_def]
  rw [hpieces, ObjectRecord.read, parse_bind_ok (parse_numbers_append _ (head?_area _ _ _)),
    parse_bind_ok (parse_coordinate?_toList _ _ _), parse_bind_ok parse_string_cons,
    parse_bind_ok (parse_numbers_append _ (by simp)), parse_bind_ok parse_marker_cons]
  simp only [record] at hwidth hqualifiers
  simp only [hwidth, hqualifiers, ne_eq, not_true_eq_false, if_false, parse_pure, record]

end ObjectFields

-- --------------------
-- Layout
-- --------------------

/-- The vector of an object begins before the qualifiers, and goes on after the name
only where there is an area. -/
structure Profile.Regular (profile : Profile) : Prop where
  leading : 0 < profile.leadingWidth
  vector : profile.leadingWidth ≤ profile.vectorWidth
  trailing : profile.trailingWidth ≠ 0 → profile.hasObjectArea

theorem Profile.regular_ofGame (game : Game) : (Profile.ofGame game).Regular := by
  unfold Profile.ofGame
  split <;> exact ⟨by simp [custom, ofGame.standardTables],
    by simp [custom, vectorWidth, ofGame.standardTables],
    by simp [custom, trailingWidth, vectorWidth, ofGame.standardTables]⟩

structure Profile.Sized (profile : Profile) : Prop where
  leading : 0 ≤ profile.leadingWidth
  vector : profile.leadingWidth ≤ profile.vectorWidth
  trailing : profile.trailingWidth ≠ 0 → profile.hasObjectArea

theorem Profile.Regular.sized {profile : Profile} (hprofile : profile.Regular) : profile.Sized :=
  ⟨Int.le_of_lt hprofile.leading, hprofile.vector, hprofile.trailing⟩

theorem ObjectRecord.qualifiers_ne_nil_of_width {profile : Profile} {record : ObjectRecord}
    (hlow : 0 ≤ profile.leadingWidth) (hhigh : profile.leadingWidth ≤ profile.vectorWidth)
    (h : record.numbers.length = profile.objectNumberCount) : record.qualifiers profile ≠ [] := by
  have hcount : profile.objectNumberCount = profile.vectorWidth + 5 := rfl
  refine List.ne_nil_of_length_pos ?_
  have hfirst : ¬ profile.leadingWidth < 0 := by omega
  have hlast : ¬ profile.leadingWidth + 5 < 0 := by omega
  simp only [qualifiers, window, clampIndex, if_neg hfirst, if_neg hlast, List.length_drop,
    List.length_take]
  omega

theorem ObjectRecord.qualifiers_ne_nil (hprofile : profile.Sized) {record : ObjectRecord}
    (h : record.numbers.length = profile.objectNumberCount) : record.qualifiers profile ≠ [] :=
  qualifiers_ne_nil_of_width hprofile.leading hprofile.vector h

/-- Fields that are as many as the profile has are read back. -/
theorem ObjectFields.Codes.parse {fields : ObjectFields} (h : fields.Codes profile text)
    (hprofile : profile.Sized) (ls : List Lexeme) :
    (ObjectRecord.read profile).parse (fields.pieces.map Prod.fst ++ ls) =
      (.ok fields.record, ls) :=
  parse_read h.width (ObjectRecord.qualifiers_ne_nil hprofile h.width) ls

namespace Profile

variable {profile : Profile}

theorem exists_splits_leadingZeros (hlow : 0 ≤ profile.leadingWidth) :
    ∃ numbers : List Int, (numbers.length : Int) = profile.leadingWidth ∧
      SplitsNumbers profile.leadingZeros numbers :=
  SplitsNumbers.zeros hlow

theorem exists_splits_qualifierText {qualifiers : List Int} (h : qualifiers.length ≤ 5)
    (hfew : ∀ n ∈ qualifiers, Text.FewDigits (Text.ofInt (toSigned32 n))) :
    ∃ numbers : List Int, numbers.length = 5 ∧ SplitsNumbers (qualifierText qualifiers) numbers := by
  refine ⟨(qualifiers.reverse ++ List.replicate (5 - qualifiers.length) 0).map toSigned32, ?_, ?_, ?_⟩
  · simp only [List.length_map, List.length_append, List.length_reverse, List.length_replicate]
    omega
  · have htext : qualifierText qualifiers = numbersText
        ((qualifiers.reverse ++ List.replicate (5 - qualifiers.length) 0).map toSigned32) := by
      rw [numbersText, List.flatMap_map]
      rfl
    rw [htext]
    exact splits_numbers _
  · intro _ hmem
    obtain ⟨n, hn, rfl⟩ := List.mem_map.mp hmem
    rcases List.mem_append.mp hn with hn | hn
    · exact hfew n (List.mem_reverse.mp hn)
    · rw [List.eq_of_mem_replicate hn]
      decide

def trailer (profile : Profile) (trailing : Text) : Text :=
  if profile.hasObjectArea ∧ profile.trailingWidth ≠ 0 then trailing else []

theorem objectTail_eq (profile : Profile) (area name trailing : Text) :
    profile.objectTail area name trailing =
      (if profile.hasObjectArea then area ++ " " else []) ++ (name ++
        (profile.trailer trailing ++ Marker.object.code)) := by
  unfold objectTail trailer
  by_cases harea : profile.hasObjectArea
  · by_cases hwidth : profile.trailingWidth = 0
    · simp [harea, hwidth, Marker.code]
    · simp [harea, hwidth, Marker.code]
  · simp [harea, Marker.code]

/-- As many trailing numbers are written as the profile has, or none. -/
def Trails (profile : Profile) (trailing : Text) : Prop :=
  ∃ after, SplitsNumbers (profile.trailer trailing) after ∧
    ((after.length : Int) = profile.trailingWidth ↔
      (profile.trailingWidth ≠ 0 → profile.hasObjectArea))

theorem trails_of (h : profile.hasObjectArea → profile.trailingWidth ≠ 0 →
      ∃ after : List Int, (after.length : Int) = profile.trailingWidth ∧
        SplitsNumbers trailing after) : profile.Trails trailing := by
  unfold Trails trailer
  split
  · next hwritten =>
    obtain ⟨after, hlength, hsplits⟩ := h hwritten.1 hwritten.2
    exact ⟨after, hsplits, by simp [hlength, hwritten.1]⟩
  · next hwritten =>
    refine ⟨[], .nil, ?_⟩
    by_cases hwidth : profile.trailingWidth = 0
    · simp [hwidth]
    · have harea : ¬ profile.hasObjectArea := fun harea => hwritten ⟨harea, hwidth⟩
      simp [hwidth, harea, Ne.symm hwidth]

theorem trails_zeros (hhigh : profile.leadingWidth ≤ profile.vectorWidth) :
    profile.Trails profile.trailingZeros := by
  refine trails_of fun harea _ => ?_
  obtain ⟨after, hlength, hsplits⟩ := SplitsNumbers.zeros
    (show 0 ≤ profile.trailingWidth from Int.sub_nonneg_of_le hhigh)
  rw [trailingZeros, if_pos harea]
  exact ⟨after, hlength, SplitsNumbers.blank.append hsplits⟩

theorem splits_area (harea : profile.hasObjectArea → Bracketed area) :
    Splits (if profile.hasObjectArea then area ++ " " else [])
      ((if profile.hasObjectArea then some area else none).toList.map fun area =>
        (.coordinate area, area)) := by
  split
  · next h => exact (harea h).splits.append (splits_blank (by decide : Text.isBlank ' '))
  · exact fun _ => rfl

theorem spells_object {numbers : Text} {before after : List Int}
    (hbefore : Splits numbers (before.map numberPiece))
    (harea : profile.hasObjectArea → Bracketed area) (hname : Quoted name)
    (hafter : Splits (profile.trailer trailing) (after.map numberPiece)) :
    ObjectFields.Spells ("OB\n" ++ numbers ++ profile.objectTail area name trailing)
      ⟨before, if profile.hasObjectArea then some area else none, name, after⟩ := by
  have hbody := (splits_marker .object).append (hbefore.append ((splits_area harea).append
    (hname.splits.append hafter)))
  have htext : ("OB\n" : Text) ++ numbers ++ profile.objectTail area name trailing =
      Marker.object.code ++ ['\n'] ++ (numbers ++ ((if profile.hasObjectArea then area ++ " " else []) ++
        (name ++ profile.trailer trailing))) ++ Marker.object.code := by
    simp only [objectTail_eq, List.append_assoc]
    rfl
  have hmarker : pieces Marker.object.code = [Marker.object.piece] := by
    simpa [Marker.piece] using @pieces_marker [] .object (by simp [EndsMarker])
  refine ⟨⟨_, List.append_assoc _ _ _⟩, ?_, ?_⟩
  · rw [htext, List.append_assoc]
    simpa [ObjectFields.pieces, Marker.piece] using hbody.append (splits_marker .object)
  · rw [htext, hbody, hmarker]
    simp [ObjectFields.pieces, Marker.piece]

theorem codes_object (hprofile : profile.Sized) {before after : List Int}
    (hbefore : (before.length : Int) = profile.leadingWidth + 5)
    (hafter : (after.length : Int) = profile.trailingWidth)
    (htrailing : profile.trailingWidth ≠ 0 → trailing = ' ' :: numbersText after)
    (harea : profile.hasObjectArea → Bracketed area) (hname : Quoted name) :
    ObjectFields.Codes profile ("OB\n" ++ numbersText before ++ profile.objectTail area name trailing)
      ⟨before, if profile.hasObjectArea then some area else none, name, after⟩ := by
  have hafterSplits : Splits (profile.trailer trailing) (after.map numberPiece) := by
    unfold trailer
    split
    · next h =>
      rw [htrailing h.2]
      exact (splits_blank (by decide : Text.isBlank ' ')).append (splits_numbers after)
    · next h =>
      have hnone : profile.trailingWidth = 0 :=
        Decidable.byContradiction fun hne => h ⟨hprofile.trailing hne, hne⟩
      obtain rfl : after = [] := List.eq_nil_of_length_eq_zero (by omega)
      exact fun _ => rfl
  refine ⟨spells_object (splits_numbers before) harea hname hafterSplits, ?_⟩
  have hvector : (profile.objectNumberCount : Int) = profile.vectorWidth + 5 := rfl
  have htrailing : profile.trailingWidth = profile.vectorWidth - profile.leadingWidth := rfl
  simp only [ObjectFields.record, List.length_append]
  omega

def emptyFields (profile : Profile) : ObjectFields where
  before := List.replicate profile.leadingWidth.toNat 0 ++ List.replicate 5 0
  area := if profile.hasObjectArea then some noArea else none
  name := emptyString
  after := List.replicate profile.trailingWidth.toNat 0

theorem eq_zero_of_mem_emptyFields (hn : n ∈ profile.emptyFields.record.numbers) : n = 0 := by
  simp only [emptyFields, ObjectFields.record, List.mem_append, List.mem_replicate] at hn
  omega

theorem reads_emptyObject (hprofile : profile.Sized) :
    profile.emptyFields.Reads profile profile.emptyObject := by
  have hleading := hprofile.leading
  have hwidth : 0 ≤ profile.trailingWidth := by
    rw [trailingWidth]
    exact Int.sub_nonneg_of_le hprofile.vector
  have htrailing : profile.trailingWidth ≠ 0 →
      profile.trailingZeros = ' ' :: numbersText profile.emptyFields.after := fun hne => by
    rw [trailingZeros, if_pos (hprofile.trailing hne), flatten_zeros]
    rfl
  have hbefore : (profile.emptyFields.before.length : Int) = profile.leadingWidth + 5 := by
    rw [emptyFields, List.length_append, List.length_replicate, List.length_replicate]
    omega
  have hafter : (profile.emptyFields.after.length : Int) = profile.trailingWidth := by
    rw [emptyFields, List.length_replicate]
    omega
  have htext : profile.emptyObject = "OB\n" ++ numbersText profile.emptyFields.before ++
      profile.objectTail noArea emptyString profile.trailingZeros := by
    rw [emptyFields, numbersText, List.flatMap_append, ← numbersText, ← flatten_zeros, ← List.append_assoc]
    rfl
  refine ⟨?_, fun n hn => eq_zero_of_mem_emptyFields hn ▸ (by decide)⟩
  rw [htext]
  exact codes_object hprofile hbefore hafter htrailing (fun _ => bracketed_noArea.1)
    quoted_emptyString

theorem exists_fits_emptyObject (hprofile : profile.Regular) :
    ∃ fields : ObjectFields, fields.Fits profile profile.emptyObject := by
  refine ⟨profile.emptyFields, reads_emptyObject hprofile.sized, (by decide : '\n' ∉ emptyString),
    fun area harea => ?_⟩
  dsimp only [emptyFields, ObjectFields.record] at harea
  split at harea
  · exact Option.some.inj harea ▸ bracketed_noArea.2
  · cases harea

end Profile

end InfinityScript
