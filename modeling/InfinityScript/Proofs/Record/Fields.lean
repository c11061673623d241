import InfinityScript.Proofs.Record.Object

/-!
# Trigger and action records read back

The layout of a trigger or an action record is cut into its fields, also where a field
is written right before a marker or another field, and from these the record is read
(`TriggerFields.parse_read`, `ActionFields.parse_read`).
-/

namespace InfinityScript

open Reader

-- --------------------
-- Fields with a blank after them
-- --------------------

theorem Quoted.splits_blank (h : Quoted text) : Splits (text ++ [' ']) [(.string text, text)] :=
  h.splits.append (InfinityScript.splits_blank (by decide : Text.isBlank ' '))

theorem Bracketed.splits_blank (h : Bracketed text) :
    Splits (text ++ [' ']) [(.coordinate text, text)] :=
  h.splits.append (InfinityScript.splits_blank (by decide : Text.isBlank ' '))

theorem endsNumber_quoted (h : Quoted text) (rest : Text) : EndsNumber (text ++ rest) := by
  obtain ⟨body, rfl, -⟩ := h
  intro c hc
  obtain rfl : '"' = c := by simpa using hc
  decide

theorem Splits.number (n : Int) (h : Splits text ps) (hne : text ≠ []) (hends : EndsNumber text) :
    Splits (Text.ofInt n ++ text) (numberPiece n :: ps) := by
  have hnumber := Splits.numeral (Text.isNumeral_ofInt n) h hne hends
  rwa [Text.readSigned?_ofInt] at hnumber

theorem Text.join_concat (texts : List Text) (last : Text) :
    Text.join " " (texts ++ [last]) = texts.flatMap (· ++ [' ']) ++ last := by
  induction texts with
  | nil => simp [Text.join]
  | cons text texts ih =>
    obtain ⟨next, others, hothers⟩ := List.exists_cons_of_ne_nil (l := texts ++ [last]) (by simp)
    rw [List.cons_append, hothers, Text.join_cons_cons, ← hothers, ih, List.flatMap_cons]
    simp

-- --------------------
-- Numbers that can be read
-- --------------------

def Written (ps : List (Lexeme × Text)) : Prop :=
  ∀ piece ∈ ps, ∀ n, piece.1 = .number n → piece.2 = Text.ofInt n

@[simp] theorem written_nil : Written [] := by simp [Written]

@[simp] theorem written_cons : Written (piece :: ps) ↔
    (∀ n, piece.1 = .number n → piece.2 = Text.ofInt n) ∧ Written ps := by
  simp [Written]

@[simp] theorem written_append : Written (ps ++ qs) ↔ Written ps ∧ Written qs := by
  simp [Written, or_imp, forall_and]

@[simp] theorem written_numbers (numbers : List Int) : Written (numbers.map numberPiece) := by
  intro piece hmem n hn
  obtain ⟨m, -, rfl⟩ := List.mem_map.mp hmem
  obtain rfl := Lexeme.number.inj hn
  rfl

@[simp] theorem written_coordinate (area : Option Text) :
    Written (area.toList.map fun area => (.coordinate area, area)) := by
  cases area <;> simp

theorem ObjectFields.written (fields : ObjectFields) : Written fields.pieces := by
  simp [pieces, Marker.piece]

theorem ObjectFields.number_mem_pieces {fields : ObjectFields}
    (h : .number n ∈ fields.pieces.map Prod.fst) : n ∈ fields.record.numbers := by
  simpa [pieces, numberPiece, Marker.piece, record] using h

theorem Written.legible (h : Written ps)
    (hfew : ∀ n, .number n ∈ ps.map Prod.fst → Text.FewDigits (Text.ofInt n)) :
    ∀ piece ∈ ps, Legible piece := by
  rintro ⟨lexeme, text⟩ hmem hkind
  cases lexeme with
  | number n =>
    obtain rfl : text = Text.ofInt n := h _ hmem n rfl
    exact hfew n (List.mem_map_of_mem hmem)
  | _ => cases hkind

-- --------------------
-- Triggers
-- --------------------

structure TriggerFields where
  opcode : Int
  first : Int
  flag : Int
  second : Int
  third : Int
  point : Option Text
  string1 : Text
  string2 : Text
  object : ObjectFields

namespace TriggerFields

def record (fields : TriggerFields) : TriggerRecord where
  integers := [fields.first, fields.second, fields.third]
  negated := fields.flag % 2 = 1
  point := fields.point
  strings := some (fields.string1, fields.string2)
  object := fields.object.record

def numbers (fields : TriggerFields) : List Int :=
  [fields.opcode, fields.first, fields.flag, fields.second, fields.third]

def pieces (fields : TriggerFields) : List (Lexeme × Text) :=
  fields.numbers.map numberPiece ++
    ((fields.point.toList.map fun point => (.coordinate point, point)) ++
      (.string fields.string1, fields.string1) :: (.string fields.string2, fields.string2) ::
        Marker.object.piece :: (fields.object.pieces ++ [Marker.trigger.piece]))

theorem written (fields : TriggerFields) : Written fields.pieces := by
  simp [pieces, Marker.piece, fields.object.written]

theorem number_mem_pieces {fields : TriggerFields} (h : .number n ∈ fields.pieces.map Prod.fst) :
    n ∈ fields.numbers ∨ n ∈ fields.object.record.numbers := by
  have hmem : n ∈ fields.numbers ∨ .number n ∈ fields.object.pieces.map Prod.fst := by
    simpa [pieces, numberPiece, Marker.piece] using h
  exact hmem.imp_right ObjectFields.number_mem_pieces

def text (fields : TriggerFields) (object : Text) : Text :=
  "TR\n" ++ Text.join " " (fields.numbers.map Text.ofInt ++ fields.point.toList ++
    [fields.string1, fields.string2, object]) ++ "\nTR\n"

/-- The texts of the record are closed where they end. -/
structure Closed (fields : TriggerFields) : Prop where
  point : ∀ point ∈ fields.point, Bracketed point
  string1 : Quoted fields.string1
  string2 : Quoted fields.string2

theorem text_eq (fields : TriggerFields) (object : Text) :
    fields.text object = Marker.trigger.code ++ ['\n'] ++ (numbersText fields.numbers ++
      (fields.point.toList.flatMap (· ++ [' ']) ++ ((fields.string1 ++ [' ']) ++
        ((fields.string2 ++ [' ']) ++ ((object ++ ['\n']) ++ (Marker.trigger.code ++ ['\n'])))))) := by
  have hjoin := Text.join_concat (fields.numbers.map Text.ofInt ++ fields.point.toList ++
    [fields.string1, fields.string2]) object
  rw [List.append_assoc] at hjoin
  have hfields : (fields.numbers.map Text.ofInt ++ fields.point.toList ++
      [fields.string1, fields.string2]).flatMap (· ++ [' ']) = numbersText fields.numbers ++
        (fields.point.toList.flatMap (· ++ [' ']) ++ ((fields.string1 ++ [' ']) ++
          (fields.string2 ++ [' ']))) := by
    simp [numbersText, List.flatMap_map]
  rw [text, show [fields.string1, fields.string2, object] =
    [fields.string1, fields.string2] ++ [object] from rfl, hjoin, hfields]
  simp [Marker.code]

theorem splits_text {fields : TriggerFields} (h : fields.Closed) {object : Text}
    (hobject : Splits (object ++ ['\n']) (Marker.object.piece :: fields.object.pieces)) :
    Splits (fields.text object) (Marker.trigger.piece :: fields.pieces) := by
  have hpoint : Splits (fields.point.toList.flatMap (· ++ [' ']))
      (fields.point.toList.map fun point => (.coordinate point, point)) := by
    rw [List.map_eq_flatMap]
    exact .flatMap fun point hmem => (h.point point (Option.mem_toList.mp hmem)).splits_blank
  have hsplits := (splits_marker .trigger).append ((splits_numbers fields.numbers).append
    (hpoint.append (h.string1.splits_blank.append (h.string2.splits_blank.append
      (hobject.append (splits_marker .trigger))))))
  rw [text_eq]
  simpa [pieces, Marker.piece] using hsplits

theorem parse_read (fields : TriggerFields)
    (hobject : ∀ ls, (ObjectRecord.read profile).parse (fields.object.pieces.map Prod.fst ++ ls) =
      (.ok fields.object.record, ls)) (ls : List Lexeme) :
    (TriggerRecord.read profile).parse (fields.pieces.tail.map Prod.fst ++ ls) =
      (.ok fields.record, ls) := by
  have hpieces : fields.pieces.tail.map Prod.fst ++ ls = .number fields.first ::
      .number fields.flag :: .number fields.second :: .number fields.third ::
        ((fields.point.toList.map fun point => ((.coordinate point, point) : Lexeme × Text)).map
          Prod.fst ++ .string fields.string1 :: .string fields.string2 :: .marker .object ::
            (fields.object.pieces.map Prod.fst ++ .marker .trigger :: ls)) := by
    simp [pieces, numbers, numberPiece, Marker.piece]
  rw [hpieces, TriggerRecord.read, parse_bind_ok parse_number_cons]
  refine (parse_look (fun next => do
    let record ← TriggerRecord.readFields profile fields.first next
    marker .trigger
    return record) _).trans ?_
  have hfields : ∀ ls, (TriggerRecord.readFields profile fields.first
      (some (.number fields.flag))).parse (.number fields.flag :: .number fields.second ::
        .number fields.third :: ((fields.point.toList.map fun point =>
          ((.coordinate point, point) : Lexeme × Text)).map Prod.fst ++ .string fields.string1 ::
            .string fields.string2 :: .marker .object ::
              (fields.object.pieces.map Prod.fst ++ ls))) = (.ok fields.record, ls) := by
    intro ls
    rw [TriggerRecord.readFields, parse_bind_ok parse_number_cons, parse_bind_ok parse_number_cons,
      parse_bind_ok parse_number_cons,
      parse_bind_ok (ObjectFields.parse_coordinate?_toList _ _ _), parse_bind_ok parse_string_cons,
      parse_bind_ok parse_string_cons, parse_bind_ok parse_marker_cons, parse_bind_ok (hobject ls)]
    · exact parse_pure _
    · simp
  rw [List.head?_cons, parse_bind_ok (hfields _), parse_bind_ok parse_marker_cons, parse_pure]

theorem parse_decode (fields : TriggerFields)
    (hobject : ∀ ls, (ObjectRecord.read profile).parse (fields.object.pieces.map Prod.fst ++ ls) =
      (.ok fields.object.record, ls))
    (hdefinition : Trigger.definition? symbols fields.opcode = some (entry, n))
    (ls : List Lexeme) :
    (Trigger.decode symbols profile).parse (fields.pieces.map Prod.fst ++ ls) =
      (Expressing.line (Trigger.express symbols profile entry n fields.record)).parse ls := by
  have hpieces : fields.pieces.map Prod.fst ++ ls =
      .number fields.opcode :: (fields.pieces.tail.map Prod.fst ++ ls) := rfl
  rw [hpieces, Trigger.decode, parse_bind_ok parse_number_cons, hdefinition]
  exact parse_bind_ok (fields.parse_read hobject ls)

theorem exists_chunk {fields : TriggerFields} {object : Text} {P : Text → Prop}
    (hprofile : profile.Sized) (hclosed : fields.Closed) (hobject : fields.object.Reads profile object)
    (hnumbers : ∀ n ∈ fields.numbers, Text.FewDigits (Text.ofInt n))
    (hdefinition : Trigger.definition? symbols fields.opcode = some (entry, n))
    (hexpress : Expressing.Ends P (fun _ => False)
      (Trigger.express symbols profile entry n fields.record)) :
    ∃ chunk : Chunk .trigger (Trigger.decode symbols profile),
      chunk.text = fields.text object ∧ P chunk.line.text := by
  obtain ⟨line, hline, hparse⟩ := hexpress.exists_line
  refine ⟨{ text := fields.text object, fields := fields.pieces, line, starts := ?_,
            splits := splits_text hclosed hobject.splits
            legible := fields.written.legible fun n hn =>
              (number_mem_pieces hn).elim (hnumbers n) (hobject.few n)
            parse := fun ls => ?_ }, rfl, hline⟩
  · exact ⟨_, by rw [text_eq, List.append_assoc]⟩
  · rw [fields.parse_decode (hobject.parse hprofile) hdefinition, hparse]

end TriggerFields

-- --------------------
-- Actions
-- --------------------

structure ActionFields where
  opcode : Int
  actor : ObjectFields
  object1 : ObjectFields
  object2 : ObjectFields
  first : Int
  x : Int
  y : Int
  second : Int
  third : Int
  string1 : Text
  string2 : Text

namespace ActionFields

def record (fields : ActionFields) : ActionRecord where
  opcode := fields.opcode
  actor := fields.actor.record
  objects := [fields.object1.record, fields.object2.record]
  integers := [fields.first, fields.second, fields.third]
  x := fields.x
  y := fields.y
  strings := some (fields.string1, fields.string2)

def pieces (fields : ActionFields) : List (Lexeme × Text) :=
  numberPiece fields.opcode :: Marker.object.piece :: (fields.actor.pieces ++
    (Marker.object.piece :: fields.object1.pieces ++ (Marker.object.piece :: fields.object2.pieces ++
      ([fields.first, fields.x, fields.y, fields.second, fields.third].map numberPiece ++
        [(.string fields.string1, fields.string1), (.string fields.string2, fields.string2),
          Marker.action.piece]))))

theorem written (fields : ActionFields) : Written fields.pieces := by
  have hnumber : ∀ m n, (numberPiece m).1 = .number n → (numberPiece m).2 = Text.ofInt n := by
    intro m n h
    obtain rfl := Lexeme.number.inj h
    rfl
  simp only [pieces, written_cons, written_append, written_numbers, written_nil]
  exact ⟨hnumber _, nofun, fields.actor.written, ⟨nofun, fields.object1.written⟩,
    ⟨nofun, fields.object2.written⟩, trivial, nofun, nofun, nofun, trivial⟩

theorem number_mem_pieces {fields : ActionFields} (h : .number n ∈ fields.pieces.map Prod.fst) :
    n ∈ [fields.opcode, fields.first, fields.x, fields.y, fields.second, fields.third] ∨
      ∃ object ∈ [fields.actor, fields.object1, fields.object2], n ∈ object.record.numbers := by
  have hmem : n = fields.opcode ∨ .number n ∈ fields.actor.pieces.map Prod.fst ∨
      .number n ∈ fields.object1.pieces.map Prod.fst ∨
      .number n ∈ fields.object2.pieces.map Prod.fst ∨
      n ∈ [fields.first, fields.x, fields.y, fields.second, fields.third] := by
    simpa [pieces, numberPiece, Marker.piece] using h
  rcases hmem with rfl | hmem | hmem | hmem | hmem
  · exact .inl (by simp)
  · exact .inr ⟨_, by simp, ObjectFields.number_mem_pieces hmem⟩
  · exact .inr ⟨_, by simp, ObjectFields.number_mem_pieces hmem⟩
  · exact .inr ⟨_, by simp, ObjectFields.number_mem_pieces hmem⟩
  · exact .inl (List.mem_cons_of_mem _ hmem)

def text (fields : ActionFields) (actor object1 object2 : Text) : Text :=
  actionLayout fields.opcode [actor, object1, object2]
    [Text.ofInt fields.first, Text.ofInt fields.second, Text.ofInt fields.third]
    (Text.ofInt fields.x ++ " " ++ Text.ofInt fields.y) [fields.string1, fields.string2]

theorem splits_text {fields : ActionFields} (hstring1 : Quoted fields.string1)
    (hstring2 : Quoted fields.string2) {actor object1 object2 : Text}
    (hstarts : ∃ body, actor = Marker.object.code ++ body)
    (hactor : Splits (actor ++ ['\n']) (Marker.object.piece :: fields.actor.pieces))
    (hobject1 : Splits (object1 ++ ['\n']) (Marker.object.piece :: fields.object1.pieces))
    (hobject2 : Splits (object2 ++ ['\n']) (Marker.object.piece :: fields.object2.pieces)) :
    Splits (fields.text actor object1 object2) (Marker.action.piece :: fields.pieces) := by
  have hopcode := hactor.number fields.opcode (by simp) (by
    obtain ⟨body, rfl⟩ := hstarts
    rw [List.append_assoc]
    exact endsNumber_code .object _)
  have hthird := hstring1.splits_blank.number fields.third (by simp) (endsNumber_quoted hstring1 _)
  have hsplits := (splits_marker .action).append (hopcode.append (hobject1.append (hobject2.append
    ((splits_numbers [fields.first, fields.x, fields.y, fields.second]).append (hthird.append
      (hstring2.splits_blank.append (splits_marker .action)))))))
  have htext : fields.text actor object1 object2 = Marker.action.code ++ ['\n'] ++
      ((Text.ofInt fields.opcode ++ (actor ++ ['\n'])) ++ ((object1 ++ ['\n']) ++
        ((object2 ++ ['\n']) ++ (numbersText [fields.first, fields.x, fields.y, fields.second] ++
          ((Text.ofInt fields.third ++ (fields.string1 ++ [' '])) ++
            ((fields.string2 ++ [' ']) ++ (Marker.action.code ++ ['\n']))))))) := by
    simp [text, actionLayout, numbersText, Marker.code]
  rw [htext]
  simpa [pieces, Marker.piece] using hsplits

theorem parse_read (fields : ActionFields)
    (hobject : ∀ object ∈ [fields.actor, fields.object1, fields.object2], ∀ ls,
      (ObjectRecord.read profile).parse (object.pieces.map Prod.fst ++ ls) =
        (.ok object.record, ls)) (ls : List Lexeme) :
    (ActionRecord.read profile).parse (fields.pieces.map Prod.fst ++ ls) =
      (.ok fields.record, ls) := by
  have hpieces : fields.pieces.map Prod.fst ++ ls = .number fields.opcode :: .marker .object ::
      (fields.actor.pieces.map Prod.fst ++ .marker .object ::
        (fields.object1.pieces.map Prod.fst ++ .marker .object ::
          (fields.object2.pieces.map Prod.fst ++ .number fields.first :: .number fields.x ::
            .number fields.y :: .number fields.second :: .number fields.third ::
              .string fields.string1 :: .string fields.string2 :: .marker .action :: ls))) := by
    simp [pieces, numberPiece, Marker.piece]
  rw [hpieces, ActionRecord.read, parse_bind_ok parse_number_cons, parse_bind_ok parse_marker_cons,
    parse_bind_ok (hobject fields.actor (by simp) _), parse_bind_ok parse_marker_cons,
    parse_bind_ok (hobject fields.object1 (by simp) _), parse_bind_ok parse_marker_cons,
    parse_bind_ok (hobject fields.object2 (by simp) _), parse_bind_ok parse_number_cons,
    parse_bind_ok parse_number_cons, parse_bind_ok parse_number_cons,
    parse_bind_ok parse_number_cons, parse_bind_ok parse_number_cons, parse_bind_ok parse_peek]
  show (ActionRecord.readStrings (some (.string fields.string1)) >>= _).parse _ = _
  have hstrings : ∀ ls, (ActionRecord.readStrings (some (.string fields.string1))).parse
      (.string fields.string1 :: .string fields.string2 :: ls) =
        (.ok (some (fields.string1, fields.string2)), ls) := by
    intro ls
    rw [ActionRecord.readStrings, parse_bind_ok parse_string_cons, parse_bind_ok parse_string_cons,
      parse_pure]
  rw [parse_bind_ok (hstrings _), parse_bind_ok parse_marker_cons]
  exact parse_pure _

theorem parse_decode (fields : ActionFields)
    (hobject : ∀ object ∈ [fields.actor, fields.object1, fields.object2], ∀ ls,
      (ObjectRecord.read profile).parse (object.pieces.map Prod.fst ++ ls) =
        (.ok object.record, ls)) (symbols : Symbols) (ls : List Lexeme) :
    (Action.decode symbols profile).parse (fields.pieces.map Prod.fst ++ ls) =
      (Expressing.line (Action.express symbols profile fields.record)).parse ls :=
  parse_bind_ok (fields.parse_read hobject ls)

structure Reads (profile : Profile) (actor object1 object2 : Text) (fields : ActionFields) :
    Prop where
  actor : fields.actor.Reads profile actor
  object1 : fields.object1.Reads profile object1
  object2 : fields.object2.Reads profile object2
  string1 : Quoted fields.string1
  string2 : Quoted fields.string2
  few : ∀ n ∈ [fields.opcode, fields.first, fields.x, fields.y, fields.second, fields.third],
    Text.FewDigits (Text.ofInt n)

namespace Reads

variable {profile : Profile} {fields : ActionFields} {actor object1 object2 : Text}

theorem splits (h : fields.Reads profile actor object1 object2) :
    Splits (fields.text actor object1 object2) (Marker.action.piece :: fields.pieces) :=
  splits_text h.string1 h.string2 h.actor.starts h.actor.splits h.object1.splits h.object2.splits

theorem objects (h : fields.Reads profile actor object1 object2) (hprofile : profile.Sized) :
    ∀ object ∈ [fields.actor, fields.object1, fields.object2],
      (∀ ls, (ObjectRecord.read profile).parse (object.pieces.map Prod.fst ++ ls) =
        (.ok object.record, ls)) ∧ ∀ n ∈ object.record.numbers, Text.FewDigits (Text.ofInt n) := by
  simpa using ⟨⟨h.actor.parse hprofile, h.actor.few⟩, ⟨h.object1.parse hprofile, h.object1.few⟩,
    h.object2.parse hprofile, h.object2.few⟩

theorem record_eq {fields' : ActionFields} {actor' object1' object2' : Text}
    (h : fields.Reads profile actor object1 object2)
    (h' : fields'.Reads profile actor' object1' object2') (hprofile : profile.Sized)
    (htext : fields.text actor object1 object2 = fields'.text actor' object1' object2') :
    fields.record = fields'.record := by
  have hpieces := h'.splits.pieces_eq
  rw [← htext, h.splits.pieces_eq] at hpieces
  have hparse := fields.parse_read (fun object hmem => (h.objects hprofile object hmem).1) []
  rw [(List.cons.inj hpieces).2,
    fields'.parse_read (fun object hmem => (h'.objects hprofile object hmem).1) []] at hparse
  exact (Except.ok.inj (Prod.mk.inj hparse).1).symm

theorem exists_chunk {P : Text → Prop} (h : fields.Reads profile actor object1 object2)
    (hprofile : profile.Sized) (hexpress : Expressing.Ends P (fun _ => False)
      (Action.express symbols profile fields.record)) :
    ∃ chunk : Chunk .action (Action.decode symbols profile),
      chunk.text = fields.text actor object1 object2 ∧ P chunk.line.text := by
  obtain ⟨line, hline, hparse⟩ := hexpress.exists_line
  have hobjects := h.objects hprofile
  refine ⟨{ text := fields.text actor object1 object2, fields := fields.pieces, line
            starts := ⟨_, rfl⟩
            splits := h.splits
            legible := fields.written.legible fun n hn =>
              (number_mem_pieces hn).elim (h.few n) fun ⟨object, hmem, hn⟩ =>
                (hobjects object hmem).2 n hn
            parse := fun ls => ?_ }, rfl, hline⟩
  rw [fields.parse_decode fun object hmem => (hobjects object hmem).1, hparse]

end Reads

end ActionFields

end InfinityScript
