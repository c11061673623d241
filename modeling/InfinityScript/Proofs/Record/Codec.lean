import InfinityScript.Proofs.Record.Fields

/-!
# The codec of records

The records that the compiler lays out are cut into the tokens that they are meant to be
cut into, one after another as each by itself, and every value is read back from its
slot (`Profile.readsBack_ofGame`): numbers of any size, strings with anything in them but
a quote, and areas and points with anything in them but a closing bracket.
-/

namespace InfinityScript

open Reader

-- --------------------
-- Values
-- --------------------

structure ObjectValues (profile : Profile) where
  vector : List Int
  /-- Innermost first. -/
  qualifiers : List Int
  area : Text
  name : Text
  width : vector.length = profile.vectorWidth
  five : qualifiers.length = 5
  bracketed : Bracketed area
  quoted : Quoted name

structure TriggerValues (profile : Profile) where
  opcode : Int
  first : Int
  flag : Int
  second : Int
  third : Int
  point : Text
  string1 : Text
  string2 : Text
  object : ObjectValues profile
  bracketed : Bracketed point
  quoted1 : Quoted string1
  quoted2 : Quoted string2

structure ActionValues (profile : Profile) where
  opcode : Int
  actor : ObjectValues profile
  object1 : ObjectValues profile
  object2 : ObjectValues profile
  first : Int
  x : Int
  y : Int
  second : Int
  third : Int
  string1 : Text
  string2 : Text
  quoted1 : Quoted string1
  quoted2 : Quoted string2

inductive RecordValues (profile : Profile)
  | trigger (values : TriggerValues profile)
  | action (values : ActionValues profile)

variable {profile : Profile}

-- --------------------
-- Layout
-- --------------------

def ObjectValues.text (values : ObjectValues profile) : Text :=
  "OB\n" ++ profile.leadingText values.vector ++ numbersText values.qualifiers ++
    profile.objectTail values.area values.name (profile.trailingText values.vector)

def TriggerValues.fieldTexts (values : TriggerValues profile) : List Text :=
  [values.opcode, values.first, values.flag, values.second, values.third].map Text.ofInt ++
    (if profile.hasTriggerPoint then [values.point] else []) ++
    [values.string1, values.string2, values.object.text]

def TriggerValues.text (values : TriggerValues profile) : Text :=
  "TR\n" ++ Text.join " " values.fieldTexts ++ "\nTR\n"

def ActionValues.text (values : ActionValues profile) : Text :=
  actionLayout values.opcode [values.actor.text, values.object1.text, values.object2.text]
    ([values.first, values.second, values.third].map Text.ofInt)
    (Text.ofInt values.x ++ " " ++ Text.ofInt values.y) [values.string1, values.string2]

def RecordValues.text : RecordValues profile → Text
  | .trigger values => values.text
  | .action values => values.text

theorem ObjectValues.text_eq_objectLayout (values : ObjectValues profile) {qualifiers : List Int}
    (h : values.qualifiers =
      (qualifiers.reverse ++ List.replicate (5 - qualifiers.length) 0).map toSigned32) :
    values.text = profile.objectLayout (profile.leadingText values.vector) qualifiers values.area
      values.name (profile.trailingText values.vector) := by
  rw [text, h, numbersText, List.flatMap_map]
  rfl

theorem TriggerValues.text_eq_triggerLayout (values : TriggerValues profile) {negated : Bool}
    (h : values.flag = if negated then 1 else 0) :
    values.text = profile.triggerLayout values.opcode negated
      ([values.first, values.second, values.third].map Text.ofInt) values.point
      [values.string1, values.string2] values.object.text := by
  rw [text, fieldTexts, h]
  cases negated <;> rfl

-- --------------------
-- Tokens
-- --------------------

/-- The lexemes that the code of an object is meant to have. -/
def ObjectValues.lexemes (values : ObjectValues profile) : List Lexeme :=
  .marker .object ::
    ((window 0 profile.leadingWidth values.vector ++ values.qualifiers).map .number ++
      (if profile.hasObjectArea then [.coordinate values.area] else []) ++
      .string values.name ::
        ((window profile.leadingWidth values.vector.length values.vector).map .number ++
          [.marker .object]))

def TriggerValues.lexemes (values : TriggerValues profile) : List Lexeme :=
  .marker .trigger ::
    ([values.opcode, values.first, values.flag, values.second, values.third].map .number ++
      (if profile.hasTriggerPoint then [.coordinate values.point] else []) ++
      [.string values.string1, .string values.string2] ++ values.object.lexemes ++
      [.marker .trigger])

def ActionValues.lexemes (values : ActionValues profile) : List Lexeme :=
  .marker .action :: .number values.opcode :: (values.actor.lexemes ++ values.object1.lexemes ++
    values.object2.lexemes ++
    [values.first, values.x, values.y, values.second, values.third].map .number ++
    [.string values.string1, .string values.string2, .marker .action])

def RecordValues.lexemes : RecordValues profile → List Lexeme
  | .trigger values => values.lexemes
  | .action values => values.lexemes

def RecordValues.numbers (record : RecordValues profile) : List Int :=
  record.lexemes.filterMap fun
    | .number n => some n
    | _ => none

-- --------------------
-- Values read back
-- --------------------

structure ObjectValues.ReadAs (values : ObjectValues profile) (record : ObjectRecord) : Prop where
  vector : record.vector profile = values.vector
  qualifiers : record.qualifiers profile = values.qualifiers
  area : record.area = if profile.hasObjectArea then some values.area else none
  name : record.name = values.name

structure TriggerValues.ReadAs (values : TriggerValues profile) (record : TriggerRecord) : Prop where
  integers : record.integers = [values.first, values.second, values.third]
  negated : record.negated ↔ values.flag % 2 = 1
  point : record.point = if profile.hasTriggerPoint then some values.point else none
  strings : record.strings = some (values.string1, values.string2)
  object : values.object.ReadAs record.object

structure ActionValues.ReadAs (values : ActionValues profile) (record : ActionRecord) : Prop where
  opcode : record.opcode = values.opcode
  actor : values.actor.ReadAs record.actor
  objects : ∃ object1 object2, record.objects = [object1, object2] ∧
    values.object1.ReadAs object1 ∧ values.object2.ReadAs object2
  integers : record.integers = [values.first, values.second, values.third]
  x : record.x = values.x
  y : record.y = values.y
  strings : record.strings = some (values.string1, values.string2)

/-- The codec of a profile: the texts of records are those that the compiler lays out, they
are cut into the tokens they are meant to have, one after another, and are read back up to
their closing markers. -/
structure Profile.ReadsBack (profile : Profile) : Prop where
  /-- Qualifiers are laid out from ids that are given outermost first. -/
  objectText : ∀ (values : ObjectValues profile) (qualifiers : List Int),
    values.qualifiers =
        (qualifiers.reverse ++ List.replicate (5 - qualifiers.length) 0).map toSigned32 →
      values.text = profile.objectLayout (profile.leadingText values.vector) qualifiers values.area
        values.name (profile.trailingText values.vector)
  triggerText : ∀ (values : TriggerValues profile) (negated : Bool),
    values.flag = (if negated then 1 else 0) →
      values.text = profile.triggerLayout values.opcode negated
        ([values.first, values.second, values.third].map Text.ofInt) values.point
        [values.string1, values.string2] values.object.text
  tokens : ∀ records : List (RecordValues profile),
    (tokenize (records.flatMap RecordValues.text)).map Token.lexeme =
      records.flatMap RecordValues.lexemes
  /-- The tokens are given out when the numbers are ones that can be written. -/
  legible : ∀ records : List (RecordValues profile),
    (∀ record ∈ records, ∀ n ∈ record.numbers, Text.writable n = .ok n) →
      readTokens (records.flatMap RecordValues.text) =
        .ok (tokenize (records.flatMap RecordValues.text))
  object : ∀ (values : ObjectValues profile) (rest : Text), ∃ record left,
    values.ReadAs record ∧ left.map Token.lexeme = (tokenize rest).map Token.lexeme ∧
      (ObjectRecord.read profile).run (tokenize (values.text ++ '\n' :: rest)).tail =
        (.ok record, left)
  action : ∀ (values : ActionValues profile) (rest : Text), ∃ record left,
    values.ReadAs record ∧ left.map Token.lexeme = (tokenize rest).map Token.lexeme ∧
      (ActionRecord.read profile).run (tokenize (values.text ++ rest)).tail = (.ok record, left) ∧
      ∀ symbols indent collect log,
        (Pass.action ⟨symbols, profile, indent⟩).run collect log (tokenize (values.text ++ rest)).tail =
          (Pass.asLine (Action.expressM symbols profile record)).run collect log left
  /-- A trigger is read when its opcode is found. -/
  trigger : ∀ (values : TriggerValues profile) (rest : Text), ∃ record left,
    values.ReadAs record ∧ left.map Token.lexeme = (tokenize rest).map Token.lexeme ∧
      ∀ symbols indent entry n collect log,
        Trigger.definition? symbols values.opcode = some (entry, n) →
        (Pass.trigger ⟨symbols, profile, indent⟩).run collect log
            (tokenize (values.text ++ rest)).tail =
          (Pass.asLine (Trigger.expressM symbols profile entry n record)).run collect log left

-- --------------------
-- Objects
-- --------------------

theorem window_append (before middle after : List α) {items : List α} {first last : Int}
    (hitems : items = before ++ (middle ++ after)) (hfirst : first = before.length)
    (hlast : last = before.length + middle.length) : window first last items = middle := by
  have hclampFirst : clampIndex items.length first = before.length := by
    rw [clampIndex, if_neg (by omega), hitems, List.length_append]
    omega
  have hclampLast : clampIndex items.length last = before.length + middle.length := by
    rw [clampIndex, if_neg (by omega), hitems, List.length_append, List.length_append]
    omega
  rw [window, hclampFirst, hclampLast, hitems, ← List.append_assoc, ← List.length_append,
    List.take_left, List.drop_left]

theorem Profile.Regular.exists_windows (hprofile : profile.Regular) {vector : List Int}
    (hwidth : vector.length = profile.vectorWidth) :
    ∃ before after, vector = before ++ after ∧
      window 0 profile.leadingWidth vector = before ∧
      window profile.leadingWidth vector.length vector = after ∧
      (before.length : Int) = profile.leadingWidth ∧
      (after.length : Int) = profile.trailingWidth := by
  have hleading := hprofile.leading
  have hvector := hprofile.vector
  have htrailing : profile.trailingWidth = profile.vectorWidth - profile.leadingWidth := rfl
  have hsplit := (List.take_append_drop profile.leadingWidth.toNat vector).symm
  have hbefore : ((vector.take profile.leadingWidth.toNat).length : Int) = profile.leadingWidth := by
    rw [List.length_take]
    omega
  have hafter : ((vector.drop profile.leadingWidth.toNat).length : Int) = profile.trailingWidth := by
    rw [List.length_drop]
    omega
  refine ⟨_, _, hsplit, ?_, ?_, hbefore, hafter⟩
  · exact window_append [] _ _ hsplit rfl (by simpa using hbefore.symm)
  · refine window_append _ _ [] (by simp) hbefore.symm ?_
    omega

namespace ObjectValues

def fields (values : ObjectValues profile) : ObjectFields where
  before := window 0 profile.leadingWidth values.vector ++ values.qualifiers
  area := if profile.hasObjectArea then some values.area else none
  name := values.name
  after := window profile.leadingWidth values.vector.length values.vector

theorem lexemes_eq (values : ObjectValues profile) :
    values.lexemes = .marker .object :: values.fields.pieces.map Prod.fst := by
  have harea : (if profile.hasObjectArea then [Lexeme.coordinate values.area] else []) =
      ((if profile.hasObjectArea then some values.area else none).toList.map fun area =>
        ((.coordinate area, area) : Lexeme × Text)).map Prod.fst := by
    split <;> rfl
  rw [lexemes, harea]
  simp [ObjectFields.pieces, fields, numberPiece, Marker.piece, Function.comp_def]

theorem codes (hprofile : profile.Regular) (values : ObjectValues profile) :
    values.fields.Codes profile values.text := by
  obtain ⟨before, after, -, hbefore, hafter, hleading, htrailing⟩ :=
    hprofile.exists_windows values.width
  have hpos := hprofile.leading
  have hleadingText : profile.leadingText values.vector = numbersText before := by
    rw [Profile.leadingText, hbefore]
    exact join_ofInt (List.ne_nil_of_length_pos (by omega))
  have htrailingText : profile.trailingWidth ≠ 0 →
      profile.trailingText values.vector = ' ' :: numbersText after := by
    intro hwidth
    rw [Profile.trailingText, hafter, List.cons_append,
      join_ofInt (List.ne_nil_of_length_pos (by omega))]
  have hlength : ((before ++ values.qualifiers).length : Int) = profile.leadingWidth + 5 := by
    rw [List.length_append, values.five]
    omega
  have hcodes := Profile.codes_object hprofile.sized hlength htrailing htrailingText
    (fun _ => values.bracketed) values.quoted
  have htext : values.text = "OB\n" ++ numbersText (before ++ values.qualifiers) ++
      profile.objectTail values.area values.name (profile.trailingText values.vector) := by
    simp [text, hleadingText, numbersText]
  rw [htext, fields, hbefore, hafter]
  exact hcodes

theorem readAs (hprofile : profile.Regular) (values : ObjectValues profile) :
    values.ReadAs values.fields.record := by
  obtain ⟨before, after, hvector, hbefore, hafter, hleading, htrailing⟩ :=
    hprofile.exists_windows values.width
  have hfive := values.five
  -- the numbers are the first part of the vector, the qualifiers and its second part
  have hnumbers : values.fields.record.numbers = before ++ (values.qualifiers ++ after) := by
    simp only [ObjectFields.record, fields, hbefore, hafter, List.append_assoc]
  refine ⟨?_, ?_, rfl, rfl⟩
  · have hlength : ((before ++ values.qualifiers).length : Int) = profile.leadingWidth + 5 := by
      rw [List.length_append]
      omega
    rw [ObjectRecord.vector, hvector]
    congr 1
    · exact window_append [] _ _ hnumbers rfl (by simpa using hleading.symm)
    · refine window_append _ _ [] ?_ hlength.symm ?_
      · rw [hnumbers, List.append_nil, List.append_assoc]
      · rw [hnumbers, ← List.append_assoc, List.length_append, Int.natCast_add]
  · refine window_append _ _ _ hnumbers hleading.symm ?_
    omega

theorem parse_read (hprofile : profile.Regular) (values : ObjectValues profile) (ls : List Lexeme) :
    (ObjectRecord.read profile).parse (values.fields.pieces.map Prod.fst ++ ls) =
      (.ok values.fields.record, ls) :=
  (values.codes hprofile).parse hprofile.sized ls

end ObjectValues

-- --------------------
-- Records
-- --------------------

namespace TriggerValues

def fields (values : TriggerValues profile) : TriggerFields where
  opcode := values.opcode
  first := values.first
  flag := values.flag
  second := values.second
  third := values.third
  point := if profile.hasTriggerPoint then some values.point else none
  string1 := values.string1
  string2 := values.string2
  object := values.object.fields

theorem closed (values : TriggerValues profile) : values.fields.Closed where
  point point hpoint := by
    dsimp only [fields] at hpoint
    split at hpoint
    · exact Option.some.inj hpoint ▸ values.bracketed
    · cases hpoint
  string1 := values.quoted1
  string2 := values.quoted2

theorem text_eq (values : TriggerValues profile) :
    values.text = values.fields.text values.object.text := by
  rw [text, fieldTexts, TriggerFields.text, fields]
  split <;> rfl

theorem splits (hprofile : profile.Regular) (values : TriggerValues profile) :
    Splits values.text (Marker.trigger.piece :: values.fields.pieces) := by
  rw [text_eq]
  exact TriggerFields.splits_text values.closed (values.object.codes hprofile).splits

theorem lexemes_eq (values : TriggerValues profile) :
    values.lexemes = (Marker.trigger.piece :: values.fields.pieces).map Prod.fst := by
  have hpoint : (if profile.hasTriggerPoint then [Lexeme.coordinate values.point] else []) =
      ((if profile.hasTriggerPoint then some values.point else none).toList.map fun point =>
        ((.coordinate point, point) : Lexeme × Text)).map Prod.fst := by
    split <;> rfl
  rw [lexemes, hpoint, values.object.lexemes_eq]
  simp [TriggerFields.pieces, TriggerFields.numbers, fields, numberPiece, Marker.piece]

theorem readAs (hprofile : profile.Regular) (values : TriggerValues profile) :
    values.ReadAs values.fields.record where
  integers := rfl
  negated := decide_eq_true_iff
  point := rfl
  strings := rfl
  object := values.object.readAs hprofile

end TriggerValues

namespace ActionValues

def fields (values : ActionValues profile) : ActionFields where
  opcode := values.opcode
  actor := values.actor.fields
  object1 := values.object1.fields
  object2 := values.object2.fields
  first := values.first
  x := values.x
  y := values.y
  second := values.second
  third := values.third
  string1 := values.string1
  string2 := values.string2

theorem splits (hprofile : profile.Regular) (values : ActionValues profile) :
    Splits values.text (Marker.action.piece :: values.fields.pieces) :=
  @ActionFields.splits_text values.fields values.quoted1 values.quoted2 _ _ _
    (values.actor.codes hprofile).starts (values.actor.codes hprofile).splits
    (values.object1.codes hprofile).splits (values.object2.codes hprofile).splits

theorem lexemes_eq (values : ActionValues profile) :
    values.lexemes = (Marker.action.piece :: values.fields.pieces).map Prod.fst := by
  rw [lexemes, values.actor.lexemes_eq, values.object1.lexemes_eq, values.object2.lexemes_eq]
  simp [ActionFields.pieces, fields, numberPiece, Marker.piece]

theorem readAs (hprofile : profile.Regular) (values : ActionValues profile) :
    values.ReadAs values.fields.record where
  opcode := rfl
  actor := values.actor.readAs hprofile
  objects := ⟨_, _, rfl, values.object1.readAs hprofile, values.object2.readAs hprofile⟩
  integers := rfl
  x := rfl
  y := rfl
  strings := rfl

theorem parse_object (hprofile : profile.Regular) (values : ActionValues profile) :
    ∀ object ∈ [values.fields.actor, values.fields.object1, values.fields.object2], ∀ ls,
      (ObjectRecord.read profile).parse (object.pieces.map Prod.fst ++ ls) =
        (.ok object.record, ls) := by
  intro object hobject
  rcases List.mem_cons.mp hobject with rfl | hobject
  · exact values.actor.parse_read hprofile
  rcases List.mem_cons.mp hobject with rfl | hobject
  · exact values.object1.parse_read hprofile
  · rw [List.mem_singleton.mp hobject]
    exact values.object2.parse_read hprofile

end ActionValues

namespace RecordValues

def pieces : RecordValues profile → List (Lexeme × Text)
  | .trigger values => Marker.trigger.piece :: values.fields.pieces
  | .action values => Marker.action.piece :: values.fields.pieces

theorem splits (hprofile : profile.Regular) (record : RecordValues profile) :
    Splits record.text record.pieces := by
  cases record with
  | trigger values => exact values.splits hprofile
  | action values => exact values.splits hprofile

theorem lexemes_eq (record : RecordValues profile) : record.lexemes = record.pieces.map Prod.fst := by
  cases record with
  | trigger values => exact values.lexemes_eq
  | action values => exact values.lexemes_eq

theorem written (record : RecordValues profile) : Written record.pieces := by
  cases record with
  | trigger values => exact written_cons.mpr ⟨nofun, values.fields.written⟩
  | action values => exact written_cons.mpr ⟨nofun, values.fields.written⟩

theorem legible (record : RecordValues profile)
    (h : ∀ n ∈ record.numbers, Text.writable n = .ok n) : ∀ piece ∈ record.pieces, Legible piece := by
  refine record.written.legible fun n hn => ?_
  rw [← lexemes_eq] at hn
  exact (Text.writable_eq_ok_iff.mp (h n (List.mem_filterMap.mpr ⟨_, hn, rfl⟩))).2

end RecordValues

-- --------------------
-- Runs on tokens
-- --------------------

theorem map_lexeme_tail (h : Splits text (piece :: ps)) (rest : Text) :
    (tokenize (text ++ rest)).tail.map Token.lexeme =
      ps.map Prod.fst ++ (tokenize rest).map Token.lexeme := by
  rw [List.map_tail, map_lexeme_tokenize, map_lexeme_tokenize, InfinityScript.lexemes, h rest]
  simp [InfinityScript.lexemes]

namespace Profile

variable (hprofile : profile.Regular)

include hprofile

theorem pieces_records (records : List (RecordValues profile)) :
    pieces (records.flatMap RecordValues.text) = records.flatMap RecordValues.pieces := by
  have hsplits : Splits (records.flatMap RecordValues.text) (records.flatMap RecordValues.pieces) :=
    .flatMap fun record _ => record.splits hprofile
  exact hsplits.pieces_eq

theorem map_lexeme_records (records : List (RecordValues profile)) :
    (tokenize (records.flatMap RecordValues.text)).map Token.lexeme =
      records.flatMap RecordValues.lexemes := by
  rw [map_lexeme_tokenize, InfinityScript.lexemes, pieces_records hprofile, List.map_flatMap,
    funext RecordValues.lexemes_eq]

theorem readTokens_records {records : List (RecordValues profile)}
    (h : ∀ record ∈ records, ∀ n ∈ record.numbers, Text.writable n = .ok n) :
    readTokens (records.flatMap RecordValues.text) =
      .ok (tokenize (records.flatMap RecordValues.text)) := by
  refine readTokens_eq_ok_iff.mpr ⟨rfl, fun piece hpiece => ?_⟩
  rw [pieces_records hprofile] at hpiece
  obtain ⟨record, hrecord, hpiece⟩ := List.mem_flatMap.mp hpiece
  exact record.legible (h record hrecord) piece hpiece

theorem run_object (values : ObjectValues profile) (rest : Text) :
    ∃ record left, values.ReadAs record ∧
      left.map Token.lexeme = (tokenize rest).map Token.lexeme ∧
      (ObjectRecord.read profile).run (tokenize (values.text ++ '\n' :: rest)).tail =
        (.ok record, left) := by
  have htokens := map_lexeme_tail (values.codes hprofile).splits rest
  rw [List.append_assoc, List.singleton_append] at htokens
  obtain ⟨left, hrun, hleft⟩ :=
    (ObjectRecord.stepwise_read profile).positionless.exists_run
      ((congrArg _ htokens).trans (values.parse_read hprofile _))
  exact ⟨_, left, values.readAs hprofile, hleft, hrun⟩

theorem run_action (values : ActionValues profile) (rest : Text) :
    ∃ record left, values.ReadAs record ∧
      left.map Token.lexeme = (tokenize rest).map Token.lexeme ∧
      (ActionRecord.read profile).run (tokenize (values.text ++ rest)).tail = (.ok record, left) ∧
      ∀ symbols indent collect log,
        (Pass.action ⟨symbols, profile, indent⟩).run collect log (tokenize (values.text ++ rest)).tail =
          (Pass.asLine (Action.expressM symbols profile record)).run collect log left := by
  have htokens := map_lexeme_tail (values.splits hprofile) rest
  obtain ⟨left, hrun, hleft⟩ :=
    (ActionRecord.closes_read profile).stepwise.positionless.exists_run
      ((congrArg _ htokens).trans (values.fields.parse_read (values.parse_object hprofile) _))
  exact ⟨_, left, values.readAs hprofile, hleft, hrun,
    fun symbols indent collect log => Pass.run_bind_ok (Pass.run_ofReader hrun)⟩

theorem run_trigger (values : TriggerValues profile) (rest : Text) :
    ∃ record left, values.ReadAs record ∧
      left.map Token.lexeme = (tokenize rest).map Token.lexeme ∧
      ∀ symbols indent entry n collect log,
        Trigger.definition? symbols values.opcode = some (entry, n) →
        (Pass.trigger ⟨symbols, profile, indent⟩).run collect log
            (tokenize (values.text ++ rest)).tail =
          (Pass.asLine (Trigger.expressM symbols profile entry n record)).run collect log left := by
  have htokens := map_lexeme_tail (values.splits hprofile) rest
  have hopcode : values.fields.pieces.map Prod.fst ++ (tokenize rest).map Token.lexeme =
      .number values.opcode ::
        (values.fields.pieces.tail.map Prod.fst ++ (tokenize rest).map Token.lexeme) := rfl
  rw [hopcode] at htokens
  obtain ⟨fields, hnumber, hfields⟩ := positionless_number.exists_run
    ((congrArg _ htokens).trans parse_number_cons)
  obtain ⟨left, hrun, hleft⟩ :=
    (TriggerRecord.closes_read profile).stepwise.positionless.exists_run
      ((congrArg _ hfields).trans
        (values.fields.parse_read (values.object.parse_read hprofile) _))
  refine ⟨_, left, values.readAs hprofile, hleft, fun symbols indent entry n collect log hdefinition => ?_⟩
  rw [Pass.trigger, Pass.run_bind_ok (Pass.run_ofReader hnumber), hdefinition]
  exact Pass.run_bind_ok (Pass.run_ofReader hrun)

end Profile

/-- The codec of every game. -/
theorem Profile.readsBack_ofGame (game : Game) : (Profile.ofGame game).ReadsBack where
  objectText values _ := values.text_eq_objectLayout
  triggerText values _ := values.text_eq_triggerLayout
  tokens := map_lexeme_records (regular_ofGame game)
  legible _ := readTokens_records (regular_ofGame game)
  object := run_object (regular_ofGame game)
  action := run_action (regular_ofGame game)
  trigger := run_trigger (regular_ofGame game)

end InfinityScript
