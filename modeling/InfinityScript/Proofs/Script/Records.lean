import InfinityScript.Proofs.Script.Containment
import InfinityScript.Proofs.Script.Statement

/-!
# Damage stays in its record

The records of a dialog stand in no block. Damage in a record is met before its closing
marker, which is then where reading goes on; only what is wrong with the signature of a
function shows after the record has been read (`Reader.EndsAt`). So records are
decompiled as each is by itself, as long as signatures can be read
(`decompileDialog_records`).
-/

namespace InfinityScript

open Reader

-- --------------------
-- Readers of a record
-- --------------------

/-- The reader ends right after the marker that closes the record, with a result of `R`,
or fails before that marker. -/
def Reader.EndsAt (reader : Reader α) (body : List Lexeme) (m : Marker)
    (R : Except DecodeError α → Prop) : Prop :=
  (∃ result, R result ∧ ∀ rest, reader.parse (body ++ .marker m :: rest) = (result, rest)) ∨
    ∃ error left, left <:+ body ∧
      ∀ rest, reader.parse (body ++ .marker m :: rest) = (.error error, left ++ .marker m :: rest)

namespace Reader.EndsAt

theorem bind_stepwise {reader : Reader α} {next : α → Reader β} (hbody : .marker m ∉ body)
    (h : Stepwise K reader) (hm : ¬ K (.marker m))
    (hnext : ∀ value left, .marker m ∉ left → (next value).EndsAt left m R) :
    (reader >>= next).EndsAt body m R := by
  obtain ⟨result, left, hleft, -, hparse⟩ := h.within hm body
  cases result with
  | error error => exact .inr ⟨error, left, hleft, fun rest => parse_bind_error (hparse rest)⟩
  | ok value =>
    rcases hnext value left fun hmem => hbody (hleft.subset hmem) with
      ⟨result, hresult, hparse'⟩ | ⟨error, left', hleft', hparse'⟩
    · refine .inl ⟨result, hresult, fun rest => ?_⟩
      rw [parse_bind_ok (hparse rest), hparse']
    · refine .inr ⟨error, left', hleft'.trans hleft, fun rest => ?_⟩
      rw [parse_bind_ok (hparse rest), hparse']

theorem look (f : Option Lexeme → Reader α) (h : ∀ l, (f l).EndsAt body m R) :
    (peek >>= fun token => f (token.map Token.lexeme)).EndsAt body m R := by
  have hhead : ∀ rest, (body ++ Lexeme.marker m :: rest).head? =
      (body ++ [Lexeme.marker m]).head? := by
    intro rest
    cases body <;> rfl
  rcases h (body ++ [Lexeme.marker m]).head? with ⟨result, hresult, hparse⟩ | ⟨error, left, hleft, hparse⟩
  · refine .inl ⟨result, hresult, fun rest => ?_⟩
    rw [parse_look, hhead, hparse]
  · refine .inr ⟨error, left, hleft, fun rest => ?_⟩
    rw [parse_look, hhead, hparse]

theorem close (hbody : .marker m ∉ body) (value : α) :
    (marker m >>= fun _ => Pure.pure value).EndsAt body m fun result => ∃ value, result = .ok value := by
  cases body with
  | nil =>
    refine .inl ⟨.ok value, ⟨value, rfl⟩, fun rest => ?_⟩
    rw [List.nil_append, parse_bind_ok parse_marker_cons, parse_pure]
  | cons l body =>
    have hl : l ≠ .marker m := fun e => hbody (by simp [e])
    refine .inr ⟨.damage (.mismatch (.marker m) (some l)), l :: body, List.suffix_rfl, fun rest => ?_⟩
    exact parse_bind_error (parse_marker_error (by simpa using hl))

theorem express {reader : Reader α} {express : α → Expressing Text}
    (h : reader.EndsAt body m fun result => ∃ value, result = .ok value)
    (hexpress : ∀ value, (express value).Ends P E) :
    (reader >>= fun value => Expressing.line (express value)).EndsAt body m
      (Outcome.Ends (fun line => P line.text) E) := by
  rcases h with ⟨_, ⟨value, rfl⟩, hparse⟩ | ⟨error, left, hleft, hparse⟩
  · obtain ⟨result, hresult⟩ := (Expressing.idle_line (express value)).parse
    have hends := (hexpress value).line (L := fun _ => True) [] (by simp)
    rw [hresult] at hends
    refine .inl ⟨result, hends, fun rest => ?_⟩
    rw [parse_bind_ok (hparse rest), hresult]
  · exact .inr ⟨error, left, hleft, fun rest => parse_bind_error (hparse rest)⟩

end Reader.EndsAt

theorem TriggerRecord.endsAt_read (profile : Profile) (hbody : .marker .trigger ∉ body) :
    (TriggerRecord.read profile).EndsAt body .trigger fun result => ∃ value, result = .ok value := by
  have hfield : ¬ Lexeme.IsField (.marker .trigger) := by simp [Lexeme.IsField]
  refine .bind_stepwise hbody (Stepwise.number Lexeme.IsField.number) hfield fun first body hbody => ?_
  refine .look (fun next => do
    let record ← TriggerRecord.readFields profile first next
    marker .trigger
    return record) fun next => ?_
  exact .bind_stepwise hbody (TriggerRecord.stepwise_readFields profile first next) hfield
    fun record left hleft => .close hleft record

theorem ActionRecord.endsAt_read (profile : Profile) (hbody : .marker .action ∉ body) :
    (ActionRecord.read profile).EndsAt body .action fun result => ∃ value, result = .ok value := by
  have hfield : ¬ Lexeme.IsField (.marker .action) := by simp [Lexeme.IsField]
  have hnumber := Stepwise.number Lexeme.IsField.number
  have hmarker := Stepwise.marker _ Lexeme.IsField.object
  have hobject := ObjectRecord.stepwise_read profile
  refine .bind_stepwise hbody hnumber hfield fun opcode _ hbody => ?_
  refine .bind_stepwise hbody hmarker hfield fun _ _ hbody => ?_
  refine .bind_stepwise hbody hobject hfield fun actor _ hbody => ?_
  refine .bind_stepwise hbody hmarker hfield fun _ _ hbody => ?_
  refine .bind_stepwise hbody hobject hfield fun object1 _ hbody => ?_
  refine .bind_stepwise hbody hmarker hfield fun _ _ hbody => ?_
  refine .bind_stepwise hbody hobject hfield fun object2 _ hbody => ?_
  refine .bind_stepwise hbody hnumber hfield fun first _ hbody => ?_
  refine .bind_stepwise hbody hnumber hfield fun x _ hbody => ?_
  refine .bind_stepwise hbody hnumber hfield fun y _ hbody => ?_
  refine .bind_stepwise hbody hnumber hfield fun second _ hbody => ?_
  refine .bind_stepwise hbody hnumber hfield fun third _ hbody => ?_
  refine .look (fun next => do
    let strings ← ActionRecord.readStrings next
    marker .action
    return ({ opcode, actor, objects := [object1, object2], integers := [first, second, third],
              x, y, strings } : ActionRecord)) fun next => ?_
  exact .bind_stepwise hbody (ActionRecord.stepwise_readStrings next) hfield fun strings left hleft =>
    .close hleft _

-- --------------------
-- Errors that show after the record
-- --------------------

/-- What can be wrong with a record that has been read to its end. -/
def DecodeError.IsLate : DecodeError → Prop
  | .damage (.signature _) | .abort _ => True
  | .damage _ => False

theorem signatureFaults_isLate (symbols : Symbols) (table : Text) :
    SignatureFaults symbols table DecodeError.IsLate := fun _ _ _ _ => trivial

theorem Action.endsAt_decode (symbols : Symbols) (profile : Profile)
    (hbody : .marker .action ∉ body) :
    (Action.decode symbols profile).EndsAt body .action
      (Outcome.Ends (fun _ => True) DecodeError.IsLate) := by
  refine (ActionRecord.endsAt_read profile hbody).express (P := fun _ => True) fun record => ?_
  have hyields : record.Yields symbols profile fun _ => True :=
    ⟨trivial, trivial, fun _ _ => trivial, fun _ _ => trivial, fun _ _ => trivial, trivial⟩
  exact (Action.ends_express (signatureFaults_isLate symbols _) hyields
    fun _ _ _ _ => trivial).mono fun _ _ => trivial

theorem Trigger.endsAt_decode (symbols : Symbols) (profile : Profile)
    (hbody : .marker .trigger ∉ body) :
    (Trigger.decode symbols profile).EndsAt body .trigger
      (Outcome.Ends (fun _ => True) DecodeError.IsLate) := by
  have hfield : ¬ Lexeme.IsField (.marker .trigger) := by simp [Lexeme.IsField]
  refine .bind_stepwise hbody (Stepwise.number Lexeme.IsField.number) hfield fun opcode body hbody => ?_
  split
  · next entry n hdefinition =>
    refine (TriggerRecord.endsAt_read profile hbody).express (P := fun _ => True) fun record => ?_
    have hyields : record.Yields symbols profile fun _ => True :=
      ⟨trivial, fun _ _ => trivial, trivial, fun _ _ _ _ _ => trivial, trivial, fun _ _ => trivial⟩
    exact (Trigger.ends_express (signatureFaults_isLate symbols _)
      (Trigger.definition?_byId? hdefinition) hyields).mono fun _ _ => trivial
  · refine .inl ⟨.ok ⟨"Error - Could not find trigger " ++ Text.ofInt opcode,
      [.unresolved opcode "TRIGGER.IDS"]⟩, trivial, fun rest => ?_⟩
    rw [parse_bind_ok (parse_skipPast_append hbody rest), parse_pure]

-- --------------------
-- Records
-- --------------------

def IsRecord (m : Marker) (ls : List Lexeme) : Prop :=
  ∃ body, ls = .marker m :: (body ++ [.marker m]) ∧ .marker m ∉ body

theorem isRecord_iff {m : Marker} {ls : List Lexeme} :
    IsRecord m ls ↔ ls = .marker m :: (ls.tail.dropLast ++ [.marker m]) ∧
      .marker m ∉ ls.tail.dropLast := by
  constructor
  · rintro ⟨body, rfl, hbody⟩
    simpa using hbody
  · exact fun h => ⟨_, h.1, h.2⟩

instance (m : Marker) (ls : List Lexeme) : Decidable (IsRecord m ls) :=
  decidable_of_iff _ isRecord_iff.symm

namespace Decompiler

theorem parse_recordOrDamage_ok (h : record.parse ls = (.ok line, left)) :
    (recordOrDamage m record).parse ls = (.ok line, left) := by
  rw [recordOrDamage, parse_recover, h]

theorem parse_recordOrDamage_abort (h : record.parse ls = (.error (.abort abort), left)) :
    (recordOrDamage m record).parse ls = (.error (.abort abort), left) := by
  rw [recordOrDamage, parse_recover, h]

theorem parse_recordOrDamage_damage (h : record.parse ls = (.error (.damage damage), left))
    (hskip : (skipPast (.marker m)).parse left = (.ok (), rest)) :
    (recordOrDamage m record).parse ls = (.ok (.ofDamage damage), rest) := by
  rw [recordOrDamage, parse_recover, h]
  exact (parse_bind_ok hskip).trans (parse_pure _)

/-- A record is read to its closing marker, and a damaged one is skipped to it, unless the
marker has been read when the damage shows. -/
theorem parse_recordOrDamage_endsAt {record : Reader SourceLine} (hbody : .marker m ∉ body)
    (h : record.EndsAt body m (Outcome.Ends (fun _ => True) DecodeError.IsLate)) :
    (∃ line, (∀ damage, (record.parse (body ++ [.marker m])).1 = .error (.damage damage) →
          line = .ofDamage damage) ∧
        (recordOrDamage m record).parse (body ++ [.marker m]) = (.ok line, []) ∧
        ((∀ fault, (record.parse (body ++ [.marker m])).1 ≠ .error (.damage (.signature fault))) →
          ∀ rest, (recordOrDamage m record).parse (body ++ .marker m :: rest) = (.ok line, rest))) ∨
      ∃ abort left, (recordOrDamage m record).parse (body ++ [.marker m]) =
        (.error (.abort abort), left) := by
  rcases h with ⟨result, hresult, hparse⟩ | ⟨error, left, hleft, hparse⟩
  · match result, hresult with
    | .ok line, _ =>
      refine .inl ⟨line, fun damage hdamage => ?_, parse_recordOrDamage_ok (hparse []),
        fun _ rest => parse_recordOrDamage_ok (hparse rest)⟩
      rw [hparse] at hdamage
      cases hdamage
    | .error (.abort abort), _ => exact .inr ⟨abort, [], parse_recordOrDamage_abort (hparse [])⟩
    | .error (.damage (.signature fault)), _ =>
      refine .inl ⟨.ofDamage (.signature fault), fun damage hdamage => ?_,
        parse_recordOrDamage_damage (hparse []) (parse_skipPast _), fun hfault => ?_⟩
      · rw [hparse] at hdamage
        cases hdamage
        rfl
      · exact absurd (congrArg Prod.fst (hparse [])) (hfault fault)
  · cases error with
    | abort abort => exact .inr ⟨abort, _, parse_recordOrDamage_abort (hparse [])⟩
    | damage damage =>
      have hskip := parse_skipPast_append fun hmem => hbody (hleft.subset hmem)
      refine .inl ⟨.ofDamage damage, fun _ hdamage => ?_,
        parse_recordOrDamage_damage (hparse []) (hskip []),
        fun _ rest => parse_recordOrDamage_damage (hparse rest) (hskip rest)⟩
      rw [hparse] at hdamage
      cases hdamage
      rfl

variable (decompiler : Decompiler)

theorem endsAt_dialogRecord (isAction : Bool) (hbody : .marker (dialogMarker isAction) ∉ body) :
    (decompiler.dialogRecord isAction).EndsAt body (dialogMarker isAction)
      (Outcome.Ends (fun _ => True) DecodeError.IsLate) := by
  cases isAction with
  | true => exact Action.endsAt_decode _ _ hbody
  | false => exact Trigger.endsAt_decode _ _ hbody

def sweepDialog (isAction : Bool) (lines : List SourceLine) : Reader (List SourceLine × Bool) :=
  sweep none (recordsStep (dialogMarker isAction) (decompiler.dialogRecord isAction)) lines

theorem parse_sweepDialog_ok
    (h : (recordOrDamage (dialogMarker isAction) (decompiler.dialogRecord isAction)).parse ls =
      (.ok line, rest)) (lines : List SourceLine) :
    (decompiler.sweepDialog isAction lines).parse (.marker (dialogMarker isAction) :: ls) =
      (decompiler.sweepDialog isAction (lines ++ [line])).parse rest :=
  parse_sweep_ok (by simp) (parse_recordsStep_ok h lines)

theorem parse_sweepDialog_error
    (h : (recordOrDamage (dialogMarker isAction) (decompiler.dialogRecord isAction)).parse ls =
      (.error error, rest)) (lines : List SourceLine) :
    (decompiler.sweepDialog isAction lines).parse (.marker (dialogMarker isAction) :: ls) =
      (.error error, rest) :=
  parse_sweep_error (by simp) (parse_recordsStep_error h lines)

theorem parse_records_of_sweepDialog
    (h : (decompiler.sweepDialog isAction []).parse ls = (.ok (lines, closed), rest)) :
    (records (dialogMarker isAction) (decompiler.dialogRecord isAction)).parse ls =
      (.ok lines, rest) :=
  (parse_bind_ok h).trans (parse_pure lines)

theorem decompileDialog_chunk (isAction : Bool)
    (chunk : Chunk (dialogMarker isAction) (decompiler.dialogRecord isAction)) (collect : Bool) :
    ∃ decompiled, decompiler.decompileDialog chunk.text isAction collect = .ok decompiled ∧
      decompiled.source = chunk.line.text ++ "\n" := by
  have hrecord := chunk.parse []
  rw [List.append_nil] at hrecord
  have hsweep := (decompiler.parse_sweepDialog_ok (parse_recordOrDamage_ok hrecord) []).trans
    (parse_sweep_nil _ _ _)
  have hpieces := chunk.splits.pieces_eq
  refine ⟨.ofLines collect [chunk.line], ?_, List.append_nil _⟩
  rw [decompileDialog_eq, readCode_eq_ok_iff
    (positionless_records _ (decompiler.positionless_dialogRecord isAction))]
  refine ⟨?_, [chunk.line], ?_, rfl⟩
  · rw [hpieces]
    exact List.forall_mem_cons.mpr ⟨nofun, chunk.legible⟩
  · rw [lexemes, hpieces, List.map_cons, decompiler.parse_records_of_sweepDialog hsweep]
    rfl

def RefusesSignature (isAction : Bool) (tokens : List Token) : Prop :=
  ∃ fault, ((decompiler.dialogPass isAction).run false {} tokens.tail).1 =
    .error (.damage (.signature fault))

instance (isAction : Bool) (tokens : List Token) :
    Decidable (decompiler.RefusesSignature isAction tokens) :=
  match h : ((decompiler.dialogPass isAction).run false {} tokens.tail).1 with
  | .error (.damage (.signature fault)) => .isTrue ⟨fault, h⟩
  | .ok _ | .error (.abort _) | .error (.damage (.mismatch _ _))
  | .error (.damage (.objectWidth _ _)) => .isFalse fun ⟨_, hfault⟩ => nomatch h.symm.trans hfault

def Signed (isAction : Bool) (ls : List Lexeme) : Prop :=
  ∀ fault, ((decompiler.dialogRecord isAction).parse ls.tail).1 ≠ .error (.damage (.signature fault))

variable {decompiler} in
theorem signed_lexemes (h : ¬ decompiler.RefusesSignature isAction (tokenize part)) :
    decompiler.Signed isAction (lexemes part) := by
  intro fault hfault
  have hrun := (decompiler.positionless_dialogRecord isAction (tokenize part).tail).1
  rw [List.map_tail, map_lexeme_tokenize, hfault] at hrun
  obtain ⟨log, hpass⟩ := (decompiler.follows_dialogPass isAction []).exists_error (Prod.ext hrun rfl) false {}
  exact h ⟨fault, congrArg Prod.fst hpass⟩

/-- The record adds the line to those before it, and reading goes on after it. The end of
the dialog can be taken for the next marker. -/
def Adds (isAction : Bool) (ls : List Lexeme) (line : SourceLine) : Prop :=
  ∀ before rest, (rest = [] ∨ decompiler.Signed isAction ls) →
    (decompiler.sweepDialog isAction before).parse (ls ++ rest) =
      (decompiler.sweepDialog isAction (before ++ [line])).parse rest

theorem parse_dialogRecord (hrecord : IsRecord (dialogMarker isAction) ls)
    (h : ((records (dialogMarker isAction) (decompiler.dialogRecord isAction)).parse ls).1 =
      .ok lines) :
    ∃ line, lines = [line] ∧
      (∀ damage, ((decompiler.dialogRecord isAction).parse ls.tail).1 = .error (.damage damage) →
        line = .ofDamage damage) ∧
      decompiler.Adds isAction ls line := by
  obtain ⟨body, rfl, hbody⟩ := hrecord
  rcases parse_recordOrDamage_endsAt hbody (decompiler.endsAt_dialogRecord isAction hbody) with
    ⟨line, hdamage, hline, hrest⟩ | ⟨abort, left, habort⟩
  · have halone := (decompiler.parse_sweepDialog_ok hline []).trans (parse_sweep_nil ..)
    rw [decompiler.parse_records_of_sweepDialog halone] at h
    obtain rfl := Except.ok.inj h
    refine ⟨line, rfl, hdamage, fun before rest hor => ?_⟩
    rw [List.cons_append, List.append_assoc, List.singleton_append]
    refine decompiler.parse_sweepDialog_ok ?_ before
    rcases hor with rfl | hfault
    · exact hline
    · exact hrest hfault rest
  · have herror : (records (dialogMarker isAction) (decompiler.dialogRecord isAction)).parse _ = _ :=
      parse_bind_error (decompiler.parse_sweepDialog_error habort [])
    rw [herror] at h
    cases h

/-- The lines of records, of which only the last may have a signature that is refused. -/
theorem parse_sweepDialog_records {records : List (List Lexeme × SourceLine)}
    (hrecords : ∀ record ∈ records, decompiler.Adds isAction record.1 record.2)
    (hsignature : ∀ record ∈ records.dropLast, decompiler.Signed isAction record.1)
    (before : List SourceLine) :
    (decompiler.sweepDialog isAction before).parse (records.flatMap Prod.fst) =
      (.ok (before ++ records.map Prod.snd, false), []) := by
  induction records generalizing before with
  | nil =>
    rw [List.flatMap_nil, List.map_nil, List.append_nil]
    exact parse_sweep_nil _ _ before
  | cons record records ih =>
    have hlast : records.flatMap Prod.fst = [] ∨ decompiler.Signed isAction record.1 := by
      cases records with
      | nil => exact .inl rfl
      | cons next records => exact .inr (hsignature record (by simp))
    rw [List.flatMap_cons, hrecords record (by simp) before _ hlast, ih, List.map_cons,
      List.append_assoc, List.singleton_append]
    · exact fun r hr => hrecords r (by simp [hr])
    · intro r hr
      cases records with
      | nil => simp at hr
      | cons next records => exact hsignature r (by simp [hr])

theorem exists_recordLines {parts : List Text} {alone : List Decompiled}
    (halone : parts.mapM (decompiler.decompileDialog · isAction collect) = .ok alone)
    (hrecords : ∀ part ∈ parts, IsRecord (dialogMarker isAction) (lexemes part)) :
    ∃ records : List (List Lexeme × SourceLine),
      (∀ record ∈ records, decompiler.Adds isAction record.1 record.2) ∧
      records.map Prod.fst = parts.map lexemes ∧
      alone = records.map fun record => .ofLines collect [record.2] := by
  have hread : ∀ part ∈ parts, ∀ first, decompiler.decompileDialog part isAction collect = .ok first →
      ∃ line, decompiler.Adds isAction (lexemes part) line ∧ first = .ofLines collect [line] := by
    intro part hpart first hfirst
    rw [decompileDialog_eq, readCode_eq_ok_iff
      (positionless_records _ (decompiler.positionless_dialogRecord isAction))] at hfirst
    obtain ⟨-, lines, hlines, rfl⟩ := hfirst
    obtain ⟨line, rfl, -, hadds⟩ := decompiler.parse_dialogRecord (hrecords part hpart) hlines
    exact ⟨line, hadds, rfl⟩
  obtain ⟨records, hall, hlexemes, rfl⟩ := Outcome.exists_pairs_of_mapM
    (P := fun record => decompiler.Adds isAction record.1 record.2) halone hread
  exact ⟨records, hall, hlexemes, by simp⟩

end Decompiler

-- --------------------
-- Dialogs
-- --------------------

/-- Each record of a dialog is decompiled as by itself, whatever damage the others have,
and a damaged one leaves only the line that says so. The signature of a function is looked
at after the record has been read, so that only the last record may have one that is refused. -/
theorem decompileDialog_records {decompiler : Decompiler} {isAction collect : Bool}
    {parts : List Text} {alone : List Decompiled}
    (hrecords : ∀ part ∈ parts,
      IsRecord (Decompiler.dialogMarker isAction) ((tokenize part).map Token.lexeme))
    (hsignature : ∀ part ∈ parts.dropLast, ¬ decompiler.RefusesSignature isAction (tokenize part))
    (halone : parts.mapM (decompiler.decompileDialog · isAction collect) = .ok alone)
    (hcode : readTokens code = .ok tokens)
    (htokens : tokens.map Token.lexeme =
      parts.flatMap fun part => (tokenize part).map Token.lexeme) :
    (∀ part ∈ parts, ∀ damage collect' log log' left,
      (decompiler.dialogPass isAction).run collect' log (tokenize part).tail =
          (.error (.damage damage), log', left) →
        decompiler.decompileDialog part isAction collect =
          .ok (.ofLines collect [.ofDamage damage])) ∧
    ∃ whole, decompiler.decompileDialog code isAction collect = .ok whole ∧
      whole.source = alone.flatMap Decompiled.source := by
  simp only [map_lexeme_tokenize] at hrecords htokens
  have hpositionless := Decompiler.positionless_records (Decompiler.dialogMarker isAction)
    (decompiler.positionless_dialogRecord isAction)
  constructor
  · intro part hpart damage collect' log log' left hpass
    obtain ⟨d, -, hd⟩ := Outcome.mem_mapM_ok halone hpart
    rw [Decompiler.decompileDialog_eq, readCode_eq_ok_iff hpositionless] at hd
    obtain ⟨hlegible, lines, hlines, -⟩ := hd
    obtain ⟨line, rfl, hdamage, -⟩ := decompiler.parse_dialogRecord (hrecords part hpart) hlines
    have hfails := (decompiler.positionless_dialogRecord isAction (tokenize part).tail).1
    rw [(decompiler.follows_dialogPass isAction []).read_error hpass, List.map_tail,
      map_lexeme_tokenize] at hfails
    rw [hdamage damage hfails.symm] at hlines
    rw [Decompiler.decompileDialog_eq, readCode_eq_ok_iff hpositionless]
    exact ⟨hlegible, _, hlines, rfl⟩
  · obtain ⟨records, hall, hlexemes, rfl⟩ := decompiler.exists_recordLines halone hrecords
    obtain ⟨rfl, hlegible⟩ := readTokens_eq_ok_iff.mp hcode
    have hflat : parts.flatMap lexemes = records.flatMap Prod.fst := by
      rw [List.flatMap_def, ← hlexemes, List.flatMap_def]
    have hlast : ∀ record ∈ records.dropLast, decompiler.Signed isAction record.1 := by
      intro record hrecord
      have hmem : record.1 ∈ parts.dropLast.map lexemes := by
        rw [List.map_dropLast, ← hlexemes, ← List.map_dropLast]
        exact List.mem_map_of_mem hrecord
      obtain ⟨part, hpart, heq⟩ := List.mem_map.mp hmem
      exact heq ▸ Decompiler.signed_lexemes (hsignature part hpart)
    have hparse := decompiler.parse_records_of_sweepDialog
      (decompiler.parse_sweepDialog_records hall hlast [])
    refine ⟨.ofLines collect (records.map Prod.snd), ?_, ?_⟩
    · rw [Decompiler.decompileDialog_eq, readCode_eq_ok_iff hpositionless]
      refine ⟨hlegible, _, ?_, rfl⟩
      rw [← map_lexeme_tokenize, htokens, hflat, hparse, List.nil_append]
    · simp [Decompiled.ofLines, Text.ofLines, List.flatMap_map]

theorem decompileDialog_records_sample :
    let decompiler : Decompiler :=
      ⟨.build [(Table.read "TRIGGER" "0x4023 True()\n1 Foo(X)").value] [] [] [] none,
        .ofGame .none, " "⟩
    let object : Text := "OB 0 0 0 0 0 0 0 0 0 0 0 0 \"\" OB TR "
    let parts : List Text := ["TR 16419 AC TR ", "TR 99 x TR ",
      "TR 16419 0 1 0 0 \"\" \"\" " ++ object, "TR 1 0 0 0 0 \"\" \"\" " ++ object]
    ∃ whole, decompiler.decompileDialog parts.flatten false true = .ok whole ∧
      whole.source = ("Error - Expected NUMBER but found `AC`\nError - Could not find trigger 99\n" ++
        "!True()\nError - Unexpected parameter definition `X`...\n").toList := by
  intro decompiler object parts
  have hrecords : ∀ part ∈ parts,
      IsRecord (Decompiler.dialogMarker false) ((tokenize part).map Token.lexeme) := by
    decide +kernel
  have hsignature : ∀ part ∈ parts.dropLast,
      ¬ decompiler.RefusesSignature false (tokenize part) := by
    decide +kernel
  obtain ⟨alone, halone, hsource⟩ := Outcome.exists_of_any (by decide +kernel :
    (parts.mapM (decompiler.decompileDialog · false true)).toOption.any fun alone =>
      alone.flatMap Decompiled.source =
        ("Error - Expected NUMBER but found `AC`\nError - Could not find trigger 99\n" ++
          "!True()\nError - Unexpected parameter definition `X`...\n").toList)
  obtain ⟨tokens, hcode, htokens⟩ := Outcome.exists_of_any (by decide +kernel :
    (readTokens parts.flatten).toOption.any fun tokens => tokens.map Token.lexeme =
      parts.flatMap fun part => (tokenize part).map Token.lexeme)
  obtain ⟨-, whole, hwhole, hjoined⟩ := decompileDialog_records hrecords hsignature halone hcode
    (of_decide_eq_true htokens)
  exact ⟨whole, hwhole, hjoined.trans (of_decide_eq_true hsource)⟩

/-- A record whose signature is refused takes the opening marker of the next one with it, so
that two such records do not give the line of each of them. -/
theorem decompileDialog_refusedSignature :
    let decompiler : Decompiler :=
      ⟨.build [(Table.read "TRIGGER" "1 Foo(X)").value] [] [] [] none, .ofGame .none, "\t"⟩
    let record : Text := "TR\n1 0 0 0 0 \"\" \"\" OB\n0 0 0 0 0 0 0 0 0 0 0 0 \"\"OB\nTR\n"
    IsRecord .trigger ((tokenize record).map Token.lexeme) ∧
    ∃ alone whole, decompiler.decompileDialog record false true = .ok alone ∧
      alone.source = "Error - Unexpected parameter definition `X`...\n".toList ∧
      decompiler.decompileDialog (record ++ record) false true = .ok whole ∧
      whole.source = ("Error - Unexpected parameter definition `X`...\n" ++
        "Error - Expected NUMBER but found end of file\n").toList ∧
      whole.source ≠ alone.source ++ alone.source := by
  intro decompiler record
  obtain ⟨alone, halone, hsource⟩ := Outcome.exists_of_any (by decide +kernel :
    (decompiler.decompileDialog record false true).toOption.any fun alone =>
      alone.source = "Error - Unexpected parameter definition `X`...\n".toList)
  obtain ⟨whole, hwhole, hjoined⟩ := Outcome.exists_of_any (by decide +kernel :
    (decompiler.decompileDialog (record ++ record) false true).toOption.any fun whole =>
      whole.source = ("Error - Unexpected parameter definition `X`...\n" ++
        "Error - Expected NUMBER but found end of file\n").toList)
  have hsource := of_decide_eq_true hsource
  have hjoined := of_decide_eq_true hjoined
  refine ⟨by decide +kernel, alone, whole, halone, hsource, hwhole, hjoined, ?_⟩
  rw [hjoined, hsource]
  decide

end InfinityScript
