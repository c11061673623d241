import InfinityScript.Proofs.Record.Notes
import InfinityScript.Proofs.Argument.Call
import InfinityScript.Proofs.Code.Parse
import InfinityScript.Proofs.Record.Expression
import InfinityScript.Proofs.Script.Encode
import InfinityScript.Proofs.Script.Reading
import InfinityScript.Proofs.Symbol.Lookup
import InfinityScript.Proofs.Text.Cut

/-!
# Actions of others

An action that is overridden for an actor has the record of the action with another actor in
it, and the record of an action is expressed as the action that it says, for its actor
(`override_commutes`).
-/

namespace InfinityScript

-- --------------------
-- Outcomes with notes
-- --------------------

namespace NotedT

variable {ε ν α β : Type}

theorem outcome_bind_ok {x : NotedT ε ν α} {f : α → NotedT ε ν β} :
    (x >>= f).outcome = ⟨.ok b, notes⟩ ↔ ∃ a first second,
      x.outcome = ⟨.ok a, first⟩ ∧ (f a).outcome = ⟨.ok b, second⟩ ∧ notes = first ++ second := by
  obtain ⟨value, made⟩ := x
  cases value with
  | error e =>
    constructor
    · intro h
      cases (Noted.mk.inj h).1
    · rintro ⟨a, first, second, h, -⟩
      cases (Noted.mk.inj h).1
  | ok a =>
    constructor
    · intro h
      obtain ⟨hvalue, rfl⟩ := Noted.mk.inj h
      exact ⟨a, made, (f a).outcome.notes, rfl, by rw [← hvalue]; rfl, rfl⟩
    · rintro ⟨a', first, second, h, hf, rfl⟩
      obtain ⟨ha, rfl⟩ := Noted.mk.inj h
      obtain rfl := Except.ok.inj ha
      show (⟨(f a).outcome.value, made ++ (f a).outcome.notes⟩ : Noted ν _) = _
      rw [hf]

theorem outcome_bind_error {x : NotedT ε ν α} {f : α → NotedT ε ν β} {e : ε}
    (h : x.outcome = ⟨.error e, notes⟩) : (x >>= f).outcome = ⟨.error e, notes⟩ := by
  obtain ⟨value, made⟩ := x
  obtain ⟨rfl, rfl⟩ := Noted.mk.inj h
  show (⟨.error e, made ++ []⟩ : Noted ν (Except ε β)) = _
  rw [List.append_nil]

theorem outcome_pure {a : α} : (pure a : NotedT ε ν α).outcome = ⟨.ok b, notes⟩ ↔ a = b ∧ notes = [] := by
  constructor
  · intro h
    obtain ⟨hvalue, rfl⟩ := Noted.mk.inj h
    exact ⟨Except.ok.inj hvalue, rfl⟩
  · rintro ⟨rfl, rfl⟩
    rfl

end NotedT

theorem Encoding.outcome_ofExcept {x : Except Fault α} :
    (ofExcept x).outcome = ⟨.ok a, notes⟩ ↔ x = .ok a ∧ notes = [] := by
  cases x with
  | ok b => rw [ofExcept, NotedT.outcome_pure, Except.ok.injEq]
  | error fault =>
    refine iff_of_false (fun h => ?_) fun h => by cases h.1
    cases (Noted.mk.inj h).1

-- --------------------
-- Encoding
-- --------------------

namespace Action

open Encoding

def recordFor (opcode : Int) (actor after : Text) : Text :=
  "AC\n" ++ Text.ofInt opcode ++ actor ++ after

theorem exists_actionLayout (opcode : Int) (objects integers : List Text) (point : Text)
    (strings : List Text) : ∃ after, ∀ actor,
      actionLayout opcode (actor :: objects) integers point strings =
        recordFor opcode actor after :=
  ⟨"\n" ++ objects.getD 0 [] ++ "\n" ++ objects.getD 1 [] ++ "\n" ++ integers.getD 0 [] ++ " " ++
    point ++ " " ++ integers.getD 1 [] ++ " " ++ integers.getD 2 [] ++ strings.getD 0 [] ++ " " ++
    strings.getD 1 [] ++ " AC\n", fun actor => by simp [actionLayout, recordFor]⟩

/-- The actor stands in the record of a call and nowhere else. -/
theorem encodeCall_actor
    (h : (encodeCall symbols profile actor entry arguments).outcome = ⟨.ok record, remarks⟩) :
    ∃ opcode after, record = recordFor opcode actor after ∧
      ∀ other, (encodeCall symbols profile other entry arguments).outcome =
        ⟨.ok (recordFor opcode other after), remarks⟩ := by
  obtain ⟨values, _, _, hvalues, h, hremarks⟩ := NotedT.outcome_bind_ok.mp h
  obtain ⟨bound, _, _, hbound, h, hremarks₁⟩ := NotedT.outcome_bind_ok.mp h
  obtain ⟨fields, _, _, hfields, h, hremarks₂⟩ := NotedT.outcome_bind_ok.mp h
  obtain ⟨strings, _, _, hstrings, h, hremarks₃⟩ := NotedT.outcome_bind_ok.mp h
  obtain ⟨opcode, _, _, hopcode, h, hremarks₄⟩ := NotedT.outcome_bind_ok.mp h
  obtain ⟨hrecord, hnone⟩ := NotedT.outcome_pure.mp h
  obtain ⟨after, hafter⟩ := exists_actionLayout opcode fields.objects.values fields.integers.values
    fields.point strings
  refine ⟨opcode, after, by rw [← hrecord, hafter], fun other => ?_⟩
  rw [← hafter]
  refine NotedT.outcome_bind_ok.mpr ⟨values, _, _, hvalues, ?_, hremarks⟩
  refine NotedT.outcome_bind_ok.mpr ⟨bound, _, _, hbound, ?_, hremarks₁⟩
  refine NotedT.outcome_bind_ok.mpr ⟨fields, _, _, hfields, ?_, hremarks₂⟩
  refine NotedT.outcome_bind_ok.mpr ⟨strings, _, _, hstrings, ?_, hremarks₃⟩
  exact NotedT.outcome_bind_ok.mpr
    ⟨opcode, _, _, hopcode, NotedT.outcome_pure.mpr ⟨rfl, hnone⟩, hremarks₄⟩

def Invokes (symbols : Symbols) (line : Text) (entry : Entry) : Prop :=
  ∃ name arguments, Call.split line = .ok (name, arguments) ∧
    symbols.function "ACTION.IDS" name = .ok entry

theorem encode_eq (hsplit : Call.split line = .ok (name, arguments))
    (hentry : symbols.function "ACTION.IDS" name = .ok entry)
    (hown : Text.upper entry.name ≠ "ACTIONOVERRIDE") (profile : Profile) :
    encode symbols profile line =
      encodeCall symbols profile profile.emptyObject entry arguments := by
  simp only [encode, hsplit, Encoding.ofExcept, pure_bind, hentry, if_neg hown]

theorem exists_of_encode (h : (encode symbols profile line).outcome = ⟨.ok record, remarks⟩) :
    ∃ name arguments entry, Call.split line = .ok (name, arguments) ∧
      symbols.function "ACTION.IDS" name = .ok entry := by
  obtain ⟨⟨name, arguments⟩, _, _, hsplit, h, -⟩ := NotedT.outcome_bind_ok.mp h
  obtain ⟨entry, _, _, hentry, -⟩ := NotedT.outcome_bind_ok.mp h
  exact ⟨name, arguments, entry, (outcome_ofExcept.mp hsplit).1, (outcome_ofExcept.mp hentry).1⟩

def override (actor line : Text) : Text := "ActionOverride(" ++ actor ++ "," ++ line ++ ")"

theorem split_override (actor line : Text) :
    Call.split (override actor line) = .ok ("ActionOverride", actor ++ ',' :: line) := by
  have hname : ("ActionOverride(" : Text) = "ActionOverride" ++ ['('] := by decide +kernel
  have hcomma : ("," : Text) = [','] := rfl
  have hparen : (")" : Text) = [')'] := rfl
  have heq : override actor line =
      ("ActionOverride" : Text) ++ '(' :: (actor ++ ',' :: line ++ [')']) := by
    unfold override
    rw [hname, hcomma, hparen]
    simp only [List.append_assoc, List.cons_append, List.nil_append]
  have hopen := Text.cut?_append (by decide : '(' ∉ ("ActionOverride" : Text))
    (actor ++ ',' :: line ++ [')'])
  have hclose := Text.cutLast?_append (List.not_mem_nil : ')' ∉ [])
    ("ActionOverride" ++ '(' :: (actor ++ ',' :: line))
  have harguments := Text.cutLast?_append (List.not_mem_nil : ')' ∉ []) (actor ++ ',' :: line)
  rw [List.append_assoc, List.cons_append] at hclose
  simp only [Call.split, heq, hopen, hclose, harguments]
  rfl

theorem upper_function {symbols : Symbols} {entry : Entry} (hmade : symbols.Made fun _ => True)
    (h : symbols.function table name = .ok entry) :
    Text.upper entry.name = Text.upper (Text.trim name) := by
  obtain ⟨hname, -⟩ := Symbols.function_ok h
  obtain ⟨_, htable, hlookup⟩ := Option.bind_eq_some_iff.mp hname
  exact ((hmade _ _ htable).of_getElem?_byName hlookup).2

theorem encode_override {callee : Entry} (hmade : symbols.Made fun _ => True)
    (hoverride : symbols.function "ACTION.IDS" "ActionOverride" = .ok entry)
    (hactor : Text.trim actor = actor) (hcomma : ',' ∉ actor) (hline : Text.trim line = line)
    (hsplit : Call.split line = .ok (name, arguments))
    (hinner : symbols.function "ACTION.IDS" name = .ok callee) (profile : Profile) :
    encode symbols profile (override actor line) =
      Object.encode symbols profile "O:Actor*" actor >>= fun found =>
        encodeCall symbols profile found callee arguments := by
  have hupper : Text.upper entry.name = "ACTIONOVERRIDE" :=
    (upper_function hmade hoverride).trans (by decide +kernel)
  simp only [encode, split_override, Encoding.ofExcept, pure_bind, hoverride, hupper, if_true,
    Text.cut?_append hcomma, hactor, hline, hsplit, hinner]

theorem exists_halt_of_encode
    (h : (Object.encode symbols profile definition value).outcome = ⟨.error refusal, notes⟩) :
    ∃ reason, refusal = .halt reason := by
  unfold Object.encode at h
  generalize Object.code symbols profile definition value = code at h
  rcases code with (fault | reason) | part
  · cases (Noted.mk.inj h).1
  · exact ⟨reason, (Except.error.inj (Noted.mk.inj h).1).symm⟩
  · cases (Noted.mk.inj h).1

theorem outcome_override {symbols : Symbols} {override : Entry} (hmade : symbols.Made fun _ => True)
    (hoverride : symbols.function "ACTION.IDS" "ActionOverride" = .ok override)
    (hactor : Text.trim actor = actor) (hcomma : ',' ∉ actor) (hline : Text.trim line = line)
    (hown : ∀ entry, Invokes symbols line entry → Text.upper entry.name ≠ "ACTIONOVERRIDE")
    (h : (encode symbols profile line).outcome = ⟨.ok record, remarks⟩) :
    ∃ opcode after, record = recordFor opcode profile.emptyObject after ∧
      (∀ found notes, (Object.encode symbols profile "O:Actor*" actor).outcome = ⟨.ok found, notes⟩ →
        (encode symbols profile (Action.override actor line)).outcome =
          ⟨.ok (recordFor opcode found after), notes ++ remarks⟩) ∧
      ∀ refusal notes,
        (Object.encode symbols profile "O:Actor*" actor).outcome = ⟨.error refusal, notes⟩ →
          (∃ reason, refusal = .halt reason) ∧
            (encode symbols profile (Action.override actor line)).outcome =
              ⟨.error refusal, notes⟩ := by
  obtain ⟨name, arguments, entry, hsplit, hentry⟩ := exists_of_encode h
  rw [encode_eq hsplit hentry (hown entry ⟨name, arguments, hsplit, hentry⟩)] at h
  obtain ⟨opcode, after, hrecord, hother⟩ := encodeCall_actor h
  rw [encode_override hmade hoverride hactor hcomma hline hsplit hentry]
  exact ⟨opcode, after, hrecord,
    fun found notes hfound =>
      NotedT.outcome_bind_ok.mpr ⟨found, notes, remarks, hfound, hother found, rfl⟩,
    fun refusal notes hrefused =>
      ⟨exists_halt_of_encode hrefused, NotedT.outcome_bind_error hrefused⟩⟩

end Action

-- --------------------
-- Expressing
-- --------------------

structure ObjectRecord.IsEmpty (record : ObjectRecord) : Prop where
  numbers : ∀ n ∈ record.numbers, n = 0
  area : ∀ area ∈ record.area, area = noArea
  name : record.name = emptyString

theorem Noted.notes_mapM {f : α → Noted ν β} {xs : List α} (h : ∀ x ∈ xs, (f x).notes = []) :
    (xs.mapM f).notes = [] := by
  induction xs with
  | nil => rfl
  | cons x xs ih =>
    rw [List.mapM_cons, notes_bind, notes_bind, h x (by simp), ih fun y hy => h y (by simp [hy])]
    rfl

namespace ObjectRecord.IsEmpty

theorem express {record : ObjectRecord} (h : record.IsEmpty) (symbols : Symbols) (profile : Profile) :
    Object.express symbols profile record = pure anyone := by
  have hwindow : ∀ first last, ∀ n ∈ window first last record.numbers, n = 0 := fun first last n hn =>
    h.numbers n (window_subset first last _ hn)
  have hvector : ∀ n ∈ record.vector profile, n = 0 := fun n hn =>
    (List.mem_append.mp hn).elim (hwindow _ _ n) (hwindow _ _ n)
  have harea : Object.area? record = none := by
    rw [Object.area?]
    cases hsome : record.area with
    | none => rfl
    | some area =>
      rw [h.area area hsome]
      decide
  have hvalue := Object.express_anyone hvector (hwindow _ _) h.name symbols
  rw [harea, Option.getD_none, List.append_nil] at hvalue
  have hnotes : (Object.express symbols profile record).notes = [] := by
    simp only [Object.express, Object.expressM, Noted.notes_bind, Noted.notes_pure, List.append_nil,
      List.append_eq_nil_iff]
    refine ⟨Noted.notes_mapM fun pair hpair => ?_, Noted.notes_mapM fun n hn => ?_⟩
    · rw [hvector pair.2 (List.of_mem_zip hpair).2]
      rfl
    · rw [hwindow _ _ n hn]
      rfl
  rcases hexpress : Object.express symbols profile record with ⟨value, notes⟩
  rw [hexpress] at hvalue hnotes
  obtain rfl : value = anyone := hvalue
  obtain rfl : notes = [] := hnotes
  rfl

end ObjectRecord.IsEmpty

theorem Expressing.parse_line {x : Expressing Text} :
    (Expressing.line x).parse ls = (.ok said, left) ↔
      x.outcome = ⟨.ok said.text, said.notes⟩ ∧ left = ls := by
  unfold Expressing.line
  split
  · next text notes hout =>
    rw [hout, Reader.parse_pure]
    simp only [Prod.mk.injEq, Except.ok.injEq, Noted.mk.injEq]
    constructor
    · rintro ⟨rfl, rfl⟩
      exact ⟨⟨rfl, rfl⟩, rfl⟩
    · rintro ⟨⟨rfl, rfl⟩, rfl⟩
      exact ⟨rfl, rfl⟩
  · next error notes hout =>
    rw [hout, Reader.parse_fail]
    simp

namespace Action

/-- What an actor does: anyone stands for the script's own creature. -/
def forActor (actor line : Text) : Text := if actor = anyone then line else override actor line

/-- The actor of a record is said around its action, and nowhere else. -/
theorem outcome_express (hentry : symbols.byId? "ACTION.IDS" record.opcode = some entry)
    (h : (express symbols profile record).outcome = ⟨.ok text, notes⟩) :
    ∃ line comment more, ∀ actor, (express symbols profile { record with actor }).outcome =
      ⟨.ok (Comment.append (forActor (Object.express symbols profile actor).value line) comment),
        (Object.express symbols profile actor).notes ++ more⟩ := by
  simp only [express_eq] at h ⊢
  obtain ⟨_, _, more, -, h, -⟩ := NotedT.outcome_bind_ok.mp h
  obtain ⟨objects, _, _, hobjects, h, hnotes⟩ := NotedT.outcome_bind_ok.mp h
  simp only [hentry] at h
  obtain ⟨definition, _, _, hdefinition, h, hnotes₁⟩ := NotedT.outcome_bind_ok.mp h
  obtain ⟨signature, _, _, hsignature, h, hnotes₂⟩ := NotedT.outcome_bind_ok.mp h
  obtain ⟨progress, _, _, hprogress, h, hnotes₃⟩ := NotedT.outcome_bind_ok.mp h
  obtain ⟨-, hnone⟩ := NotedT.outcome_pure.mp h
  refine ⟨definition.name ++ "(" ++ Text.join "," progress.arguments ++ ")", progress.comment, more,
    fun actor => ?_⟩
  refine NotedT.outcome_bind_ok.mpr ⟨_, _, _, Expressing.outcome_ofNoted _, ?_, rfl⟩
  refine NotedT.outcome_bind_ok.mpr ⟨objects, _, _, hobjects, ?_, hnotes⟩
  simp only [hentry]
  refine NotedT.outcome_bind_ok.mpr ⟨definition, _, _, hdefinition, ?_, hnotes₁⟩
  refine NotedT.outcome_bind_ok.mpr ⟨signature, _, _, hsignature, ?_, hnotes₂⟩
  refine NotedT.outcome_bind_ok.mpr ⟨progress, _, _, hprogress, ?_, hnotes₃⟩
  exact NotedT.outcome_pure.mpr ⟨rfl, hnone⟩

end Action

-- --------------------
-- Decoding
-- --------------------

open Reader in
theorem ObjectRecord.width_of_parse (h : (read profile).parse ls = (.ok record, left)) :
    record.numbers.length = profile.objectNumberCount ∧ record.qualifiers profile ≠ [] := by
  obtain ⟨before, rest₁, -, h⟩ := parse_bind_eq_ok h
  obtain ⟨area, rest₂, -, h⟩ := parse_bind_eq_ok h
  obtain ⟨name, rest₃, -, h⟩ := parse_bind_eq_ok h
  obtain ⟨after, rest₄, -, h⟩ := parse_bind_eq_ok h
  obtain ⟨_, rest₅, -, h⟩ := parse_bind_eq_ok h
  dsimp only at h
  split at h
  · rw [parse_fail] at h
    cases h
  · next hwidth =>
    split at h
    · rw [parse_fail] at h
      cases h
    · next hqualifiers =>
      rw [parse_pure] at h
      obtain rfl := Except.ok.inj (Prod.mk.inj h).1
      exact ⟨Decidable.not_not.mp hwidth, hqualifiers⟩

theorem ObjectRecord.exists_isEmpty (h : (read profile).parse ls = (.ok record, left)) :
    ∃ empty : ObjectRecord, ∃ blank, empty.IsEmpty ∧
      (read profile).parse (blank ++ left) = (.ok empty, left) := by
  obtain ⟨hwidth, hqualifiers⟩ := width_of_parse h
  let fields : ObjectFields := ⟨List.replicate profile.objectNumberCount 0, none, emptyString, []⟩
  have hnumbers : fields.record.numbers = List.replicate profile.objectNumberCount 0 :=
    List.append_nil _
  refine ⟨fields.record, fields.pieces.map Prod.fst, ⟨fun n hn => ?_, fun area harea => ?_, rfl⟩,
    ObjectFields.parse_read ?_ ?_ left⟩
  · rw [hnumbers] at hn
    exact List.eq_of_mem_replicate hn
  · cases harea
  · rw [hnumbers, List.length_replicate]
  · -- The qualifiers of a record are as many as its numbers allow, whatever these are.
    rw [← List.length_pos_iff] at hqualifiers ⊢
    simp only [qualifiers, window, List.length_drop, List.length_take, hwidth, hnumbers,
      List.length_replicate] at hqualifiers ⊢
    exact hqualifiers

open Reader in
theorem ActionRecord.parse_read (h : (read profile).parse ls = (.ok record, left)) :
    ∃ first rest, ls = .number record.opcode :: .marker .object :: first ∧
      (ObjectRecord.read profile).parse first = (.ok record.actor, rest) ∧
      ∀ actor other, (ObjectRecord.read profile).parse other = (.ok actor, rest) →
        (read profile).parse (.number record.opcode :: .marker .object :: other) =
          (.ok { record with actor }, left) := by
  obtain ⟨opcode, rest₁, hopcode, h⟩ := parse_bind_eq_ok h
  obtain ⟨_, rest₂, hmarker, h⟩ := parse_bind_eq_ok h
  obtain ⟨actor, rest₃, hactor, h⟩ := parse_bind_eq_ok h
  obtain ⟨_, rest₄, hmarker₁, h⟩ := parse_bind_eq_ok h
  obtain ⟨object1, rest₅, hobject1, h⟩ := parse_bind_eq_ok h
  obtain ⟨_, rest₆, hmarker₂, h⟩ := parse_bind_eq_ok h
  obtain ⟨object2, rest₇, hobject2, h⟩ := parse_bind_eq_ok h
  obtain ⟨first, rest₈, hfirst, h⟩ := parse_bind_eq_ok h
  obtain ⟨x, rest₉, hx, h⟩ := parse_bind_eq_ok h
  obtain ⟨y, rest₁₀, hy, h⟩ := parse_bind_eq_ok h
  obtain ⟨second, rest₁₁, hsecond, h⟩ := parse_bind_eq_ok h
  obtain ⟨third, rest₁₂, hthird, h⟩ := parse_bind_eq_ok h
  obtain ⟨next, rest₁₃, hnext, h⟩ := parse_bind_eq_ok h
  obtain ⟨strings, rest₁₄, hstrings, h⟩ := parse_bind_eq_ok h
  obtain ⟨_, rest₁₅, hmarker₃, h⟩ := parse_bind_eq_ok h
  rw [parse_pure] at h
  obtain ⟨hrecord, rfl⟩ := Prod.mk.inj h
  obtain rfl := Except.ok.inj hrecord
  refine ⟨rest₂, rest₃, ?_, hactor, fun actor other hother => ?_⟩
  · rw [parse_number_ok hopcode, parse_marker_ok hmarker]
  · rw [read, parse_bind_ok parse_number_cons, parse_bind_ok parse_marker_cons, parse_bind_ok hother,
      parse_bind_ok hmarker₁, parse_bind_ok hobject1, parse_bind_ok hmarker₂, parse_bind_ok hobject2,
      parse_bind_ok hfirst, parse_bind_ok hx, parse_bind_ok hy, parse_bind_ok hsecond,
      parse_bind_ok hthird, parse_bind_ok hnext, parse_bind_ok hstrings, parse_bind_ok hmarker₃,
      parse_pure]

namespace Action

open Reader in
/-- What a record is decoded to, given what it is decoded to without its actor. -/
theorem parse_decode (h : (decode symbols profile).parse ls = (.ok said, left)) :
    ∃ opcode first actor rest, ls = .number opcode :: .marker .object :: first ∧
      (ObjectRecord.read profile).parse first = (.ok actor, rest) ∧
      ∀ entry, symbols.byId? "ACTION.IDS" opcode = some entry → ∃ line comment notes,
        said.text = Comment.append (forActor (Object.express symbols profile actor).value line) comment ∧
        said.notes = (Object.express symbols profile actor).notes ++ notes ∧
        ∀ (empty : ObjectRecord) blank, empty.IsEmpty →
          (ObjectRecord.read profile).parse (blank ++ rest) = (.ok empty, rest) →
            (decode symbols profile).parse (.number opcode :: .marker .object :: (blank ++ rest)) =
              (.ok ⟨Comment.append line comment, notes⟩, left) := by
  obtain ⟨record, rest₁, hread, h⟩ := parse_bind_eq_ok h
  obtain ⟨first, rest, hls, hactor, hother⟩ := ActionRecord.parse_read hread
  obtain ⟨houtcome, rfl⟩ := Expressing.parse_line.mp h
  refine ⟨record.opcode, first, record.actor, rest, hls, hactor, fun entry hentry => ?_⟩
  obtain ⟨line, comment, notes, hexpress⟩ := outcome_express hentry houtcome
  obtain ⟨htext, hnotes⟩ := Noted.mk.inj (houtcome.symm.trans (hexpress record.actor))
  refine ⟨line, comment, notes, Except.ok.inj htext, hnotes, fun empty blank hempty hblank => ?_⟩
  rw [decode, parse_bind_ok (hother empty _ hblank), Expressing.parse_line, hexpress empty,
    hempty.express]
  exact ⟨rfl, rfl⟩

/-- An action that is overridden has the record of the action with the actor in it, and first
what there is to remark on the actor. Where the actor cannot be encoded, because a number is too
long to be read or written, neither can the override. A record is decoded to the action that it
is decoded to without its actor, overridden for the actor unless that is anyone. -/
theorem override_commutes {symbols : Symbols} (hmade : symbols.Made fun _ => True)
    (profile : Profile) :
    (∀ function actor line record remarks,
      symbols.function "ACTION.IDS" "ActionOverride" = .ok function →
      Text.trim actor = actor → ',' ∉ actor → Text.trim line = line →
      (∀ entry, Invokes symbols line entry → Text.upper entry.name ≠ "ACTIONOVERRIDE") →
      (encode symbols profile line).outcome = ⟨.ok record, remarks⟩ →
      ∃ opcode after, record = recordFor opcode profile.emptyObject after ∧
        (∀ found notes,
          (Object.encode symbols profile "O:Actor*" actor).outcome = ⟨.ok found, notes⟩ →
            (encode symbols profile (override actor line)).outcome =
              ⟨.ok (recordFor opcode found after), notes ++ remarks⟩) ∧
        ∀ refusal notes,
          (Object.encode symbols profile "O:Actor*" actor).outcome = ⟨.error refusal, notes⟩ →
            (∃ reason, refusal = .halt reason) ∧
              (encode symbols profile (override actor line)).outcome = ⟨.error refusal, notes⟩) ∧
    ∀ indent collect log tokens text log' left,
      (Pass.action ⟨symbols, profile, indent⟩).run collect log tokens = (.ok text, log', left) →
      ∃ opcode first actor rest said,
        tokens.map Token.lexeme = .number opcode :: .marker .object :: first ∧
        (ObjectRecord.read profile).parse first = (.ok actor, rest) ∧
        Pass.Says (Object.expressM symbols profile actor) said ∧
        (∃ empty : ObjectRecord, ∃ blank, empty.IsEmpty ∧
          (ObjectRecord.read profile).parse (blank ++ rest) = (.ok empty, rest)) ∧
        ∀ entry, symbols.byId? "ACTION.IDS" opcode = some entry → ∃ line comment notes,
          text = Comment.append (forActor said.value line) comment ∧
          log' = log.write collect ⟨text, said.notes ++ notes⟩ ∧
          ∀ (empty : ObjectRecord) blank others, empty.IsEmpty →
            (ObjectRecord.read profile).parse (blank ++ rest) = (.ok empty, rest) →
            others.map Token.lexeme = .number opcode :: .marker .object :: (blank ++ rest) →
            ∃ left', left'.map Token.lexeme = left.map Token.lexeme ∧
              (Pass.action ⟨symbols, profile, indent⟩).run collect log others =
                (.ok (Comment.append line comment),
                  log.write collect ⟨Comment.append line comment, notes⟩, left') := by
  refine ⟨fun function actor line record remarks hfunction hactor hcomma hline hown h =>
    outcome_override hmade hfunction hactor hcomma hline hown h,
    fun indent collect log tokens text log' left h => ?_⟩
  have hrun : (Decompiler.dialogPass ⟨symbols, profile, indent⟩ true).run collect log tokens =
    (.ok text, log', left) := h
  obtain ⟨said, hparse, hlog⟩ := Decompiler.exists_parse_dialogPass hrun
  obtain ⟨opcode, first, actor, rest, hls, hactor, hsaid⟩ := parse_decode hparse
  refine ⟨opcode, first, actor, rest, _, hls, hactor, Pass.says_object symbols profile actor,
    ObjectRecord.exists_isEmpty hactor, fun entry hentry => ?_⟩
  obtain ⟨line, comment, notes, htext, rfl, hblank⟩ := hsaid entry hentry
  refine ⟨line, comment, notes, htext, hlog, fun empty blank others hempty hread hothers => ?_⟩
  have hparse : (Decompiler.dialogRecord ⟨symbols, profile, indent⟩ true).parse
      (others.map Token.lexeme) = (.ok ⟨Comment.append line comment, notes⟩, left.map Token.lexeme) := by
    rw [hothers]
    exact hblank empty blank hempty hread
  exact Decompiler.exists_run_dialogPass hparse collect log

def overridable : Symbols :=
  .build [
    ((Table.empty "ACTION").add ⟨1, "ActionOverride", some "O:Actor*,A:Action*"⟩).add
      ⟨2, "Wait", some "I:Time*"⟩,
    (Table.empty "OBJECT").add ⟨3, "Player1", none⟩] [] [] [] none

theorem made_overridable : overridable.Made fun _ => True := by
  refine Symbols.made_build (fun table hmem => ?_) [] [] [] none
  simp only [List.mem_cons, List.not_mem_nil, or_false] at hmem
  rcases hmem with rfl | rfl
  · exact ((Table.Made.empty _).add trivial).add trivial
  · exact (Table.Made.empty _).add trivial

theorem wait_not_override (entry : Entry) (h : Invokes overridable "Wait(7)" entry) :
    Text.upper entry.name ≠ "ACTIONOVERRIDE" := by
  obtain ⟨name, arguments, hsplit, hentry⟩ := h
  obtain rfl : ("Wait" : Text) = name := (Prod.mk.inj (Except.ok.inj hsplit)).1
  rw [upper_function made_overridable hentry]
  decide +kernel

theorem exists_outcome {x : Encoding Text} (h : x.outcome.value.toOption.any fun _ => true) :
    ∃ text remarks, x.outcome = ⟨.ok text, remarks⟩ := by
  obtain ⟨text, htext, -⟩ := Outcome.exists_of_any h
  refine ⟨text, x.outcome.notes, ?_⟩
  rw [← htext]

theorem exists_run {run : Except DecodeError Text × Log × List Token}
    (h : run.1.toOption.any fun _ => true) (hleft : run.2.2 = []) :
    ∃ text log, run = (.ok text, log, []) := by
  obtain ⟨text, htext, -⟩ := Outcome.exists_of_any h
  exact ⟨text, run.2.1, Prod.ext htext (Prod.ext rfl hleft)⟩

theorem override_commutes_sample :
    let profile := Profile.ofGame .none
    let object : List Int → List Lexeme := fun numbers =>
      numbers.map .number ++ [.string emptyString, .marker .object]
    let blank := object (List.replicate 12 0)
    let record : List Lexeme := .number 2 :: .marker .object ::
      (object [0, 0, 0, 0, 0, 0, 0, 3, 0, 0, 0, 0] ++ (.marker .object :: blank) ++
        (.marker .object :: blank) ++ [.number 7, .number 0, .number 0, .number 0, .number 0,
          .string emptyString, .string emptyString, .marker .action])
    (∃ opcode after player notes remarks,
      (encode overridable profile "Wait(7)").outcome =
        ⟨.ok (recordFor opcode profile.emptyObject after), remarks⟩ ∧
      (Object.encode overridable profile "O:Actor*" "Player1").outcome = ⟨.ok player, notes⟩ ∧
      (encode overridable profile (override "Player1" "Wait(7)")).outcome =
        ⟨.ok (recordFor opcode player after), notes ++ remarks⟩) ∧
    ∃ text log line comment, (Pass.action ⟨overridable, profile, []⟩).run true {}
        (record.map Token.bare) = (.ok text, log, []) ∧
      text = Comment.append (override "Player1" line) comment := by
  intro profile object blank record
  obtain ⟨hencode, hdecode⟩ := override_commutes made_overridable profile
  constructor
  · obtain ⟨function, hfunction, -⟩ := Outcome.exists_of_any (by decide +kernel :
      (overridable.function "ACTION.IDS" "ActionOverride").toOption.any fun _ => true)
    obtain ⟨text, remarks, hline⟩ := exists_outcome (by decide +kernel :
      (encode overridable profile "Wait(7)").outcome.value.toOption.any fun _ => true)
    obtain ⟨player, notes, hplayer⟩ := exists_outcome (by decide +kernel :
      (Object.encode overridable profile "O:Actor*" "Player1").outcome.value.toOption.any fun _ => true)
    obtain ⟨opcode, after, rfl, hfound, -⟩ := hencode function "Player1" "Wait(7)" text remarks
      hfunction (by decide +kernel) (by decide) (by decide +kernel) wait_not_override hline
    exact ⟨opcode, after, player, notes, remarks, hline, hplayer, hfound player notes hplayer⟩
  · obtain ⟨text, log, hrun⟩ := exists_run (by decide +kernel :
      ((Pass.action ⟨overridable, profile, []⟩).run true {} (record.map Token.bare)).1.toOption.any
        fun _ => true) (by decide +kernel)
    obtain ⟨opcode, first, actor, rest, said, hls, hactor, hsaid, -, hsay⟩ :=
      hdecode [] true {} (record.map Token.bare) text log [] hrun
    rw [Reader.map_lexeme_map_bare] at hls
    obtain ⟨hopcode, hfirst⟩ := List.cons.inj hls
    obtain rfl : 2 = opcode := Lexeme.number.inj hopcode
    obtain rfl := (List.cons.inj hfirst).2
    obtain ⟨found, hfound, hvalue⟩ := Outcome.exists_of_any (by decide +kernel :
      ((ObjectRecord.read profile).parse record.tail.tail).1.toOption.any fun found =>
        (Object.express overridable profile found).value = "Player1")
    obtain rfl : found = actor := Except.ok.inj (hfound.symm.trans (congrArg Prod.fst hactor))
    obtain ⟨entry, hentry⟩ := Option.isSome_iff_exists.mp (by decide +kernel :
      (overridable.byId? "ACTION.IDS" 2).isSome)
    obtain ⟨line, comment, notes, hline, -⟩ := hsay entry hentry
    rw [hsaid.value_eq (Pass.says_object overridable profile found), of_decide_eq_true hvalue] at hline
    exact ⟨text, log, line, comment, hrun, hline⟩

open Object in
theorem outcome_encode_long {table : Text} {tables : List Text}
    (htables : profile.objectTables = table :: tables) (hunnamed : symbols.byName? table text = none)
    (hzeros : profile.checkTrailing = .ok ()) (h : IsCoordinate [text])
    (hlong : ¬ Text.FewDigits text) (definition : Text) :
    ∃ reason, (Object.encode symbols profile definition (coordinate [text])).outcome =
      ⟨.error (.halt reason), []⟩ := by
  have hqualify : qualify symbols (coordinate [text]) = .ok ([], coordinate [text]) := by
    have hquote : (coordinate [text]).head? ≠ some '"' := by
      rw [show (coordinate [text]).head? = some '[' from rfl]
      decide
    unfold qualify peel
    rw [Text.cut?_eq_none h.parenthesis_notMem, if_neg hquote]
    simp [Bind.bind, Except.bind, pure, Except.pure]
  have hgroups : bracketGroups none (coordinate [text]) = [some text] := by
    have hgroup := @bracketGroups_cons (Text.join "." [text]) (h.notMem (by decide)) []
    rw [List.append_nil, Text.join_singleton] at hgroup
    rw [coordinate, Text.join_singleton, hgroup]
    rfl
  have hadd := @Fields.add_long symbols profile text { trailing := profile.trailingZeros } table tables
    htables hunnamed h hlong
  have hvector : vectorCode symbols profile [] (coordinate [text]) =
      .error (.halt (.numeral (.tooManyDigits (text.countP Text.isDecimalDigit)))) := by
    simp only [vectorCode, hzeros, hgroups, List.foldlM_cons, hadd]
    rfl
  have hcode : code symbols profile definition (coordinate [text]) =
      .error (.halt (.numeral (.tooManyDigits (text.countP Text.isDecimalDigit)))) := by
    rw [code, hqualify]
    show (vectorCode symbols profile [] (coordinate [text]) >>= fun found => _) = _
    rw [hvector]
    rfl
  rw [Object.encode, hcode]
  exact ⟨_, rfl⟩

theorem isCoordinate_digits {digits : Text} (hne : digits ≠ [])
    (h : ∀ c ∈ digits, Text.isDecimalDigit c) : Object.IsCoordinate [digits] := by
  refine ⟨List.cons_ne_nil _ _, Nat.le_of_ble_eq_true rfl, fun text htext => ?_, digits,
    List.mem_singleton_self _, ?_⟩
  · rw [List.mem_singleton.mp htext, Text.isNumber, Text.readSigned?_of_digits h, Option.isSome_map]
    exact Text.readNat?_isSome hne h
  · rintro rfl
    exact absurd (h '-' (by decide)) (by decide)

theorem override_longActor :
    let actor : Text := Object.coordinate [List.replicate 4301 '1']
    Text.trim actor = actor ∧ ',' ∉ actor ∧
    (∃ record remarks, (encode overridable (.ofGame .none) "Wait(7)").outcome =
      ⟨.ok record, remarks⟩) ∧
    ∀ record remarks, (encode overridable (.ofGame .none) (override actor "Wait(7)")).outcome ≠
      ⟨.ok record, remarks⟩ := by
  have hdigits : ∀ c ∈ List.replicate 4301 '1', Text.isDecimalDigit c := fun c hc => by
    rw [List.eq_of_mem_replicate hc]
    decide
  have hlong : ¬ Text.FewDigits (List.replicate 4301 '1') := by
    rw [Text.FewDigits, List.countP_eq_length.mpr hdigits, List.length_replicate]
    decide
  generalize List.replicate 4301 '1' = digits at hdigits hlong ⊢
  intro actor
  have hne : digits ≠ [] := by
    rintro rfl
    exact hlong (by decide)
  have hcoordinate := isCoordinate_digits hne hdigits
  have hcomma : ',' ∉ actor := by
    simpa [actor, Object.coordinate] using hcoordinate.notMem (c := ',') (by decide)
  have hactor : actor = '[' :: digits ++ [']'] := by simp [actor, Object.coordinate]
  have htrim : Text.trim actor = actor := by
    rw [hactor]
    exact Text.trim_eq_self (by simp [Text.isBlank])
      (by rw [List.getLast?_concat]; simp [Text.isBlank])
  obtain ⟨record, remarks, hline⟩ := exists_outcome (by decide +kernel :
    (encode overridable (.ofGame .none) "Wait(7)").outcome.value.toOption.any fun _ => true)
  refine ⟨htrim, hcomma, ⟨record, remarks, hline⟩, fun other found hother => ?_⟩
  have htable : (overridable.table? "EA.IDS").isNone := by decide +kernel
  have hunnamed : overridable.byName? "EA.IDS" digits = none := by
    rw [Symbols.byName?, Option.isNone_iff_eq_none.mp htable]
    rfl
  obtain ⟨reason, hreason⟩ : ∃ reason,
      (Object.encode overridable (.ofGame .none) "O:Actor*" actor).outcome =
        ⟨.error (.halt reason), []⟩ :=
    outcome_encode_long rfl hunnamed rfl hcoordinate hlong _
  obtain ⟨function, hfunction, -⟩ := Outcome.exists_of_any (by decide +kernel :
    (overridable.function "ACTION.IDS" "ActionOverride").toOption.any fun _ => true)
  obtain ⟨-, -, -, -, hrefused⟩ := outcome_override made_overridable hfunction htrim hcomma
    (by decide +kernel) wait_not_override hline
  cases (Noted.mk.inj (hother.symm.trans (hrefused _ _ hreason).2)).1

end Action

end InfinityScript
