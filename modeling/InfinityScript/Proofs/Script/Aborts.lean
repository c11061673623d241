import InfinityScript.Proofs.Code.Alike
import InfinityScript.Proofs.Record.Action
import InfinityScript.Proofs.Script.Records

/-!
# What keeps code from being decompiled

A script is read block by block and a dialog record by record (`Contained`): what is
damaged leaves a line that tells of it, and the others are read all the same. An abort
ends the reading as a whole. The profile of a game never leads to one; a number that is
too long does, and so do four digits in a list of spells that form no number
(`Abort.IsSlip`). Code and tables that are free of both always have a result
(`decompile_returns`).
-/

namespace InfinityScript

open Reader

-- --------------------
-- Items that are read one by one
-- --------------------

section

variable {α β : Type}

theorem Reader.exists_of_run_bind {reader : Reader α} {next : α → Reader β}
    (h : (reader >>= next).run tokens = (.ok value, rest)) :
    ∃ first left, reader.run tokens = (.ok first, left) ∧
      (next first).run left = (.ok value, rest) := by
  rcases hrun : reader.run tokens with ⟨error | first, left⟩
  · rw [run_bind_error hrun] at h
    cases h
  · rw [run_bind_ok hrun] at h
    exact ⟨first, left, rfl, h⟩

theorem Reader.run_recover_ok {reader : Reader α} {handle : Damage → Reader α}
    (h : (reader.recover handle).run tokens = (.ok value, rest)) :
    reader.run tokens = (.ok value, rest) ∨
      ∃ damage left, reader.run tokens = (.error (.damage damage), left) ∧
        (handle damage).run left = (.ok value, rest) := by
  simp only [Reader.recover] at h
  split at h
  · next damage left hrun => exact .inr ⟨damage, left, hrun, h⟩
  · exact .inl h

/-- The lines that are written for tokens item by item, each item after its marker. An item that
is damaged leaves the lines that stand for the damage, and reading goes on after the next marker
of its kind. -/
inductive Contained (m : Marker) (item : Pass (List Text)) (blank : Nat) :
    List Token → List SourceLine → Prop
  | done : Contained m item blank [] []
  | pass {token : Token} {rest : List Token} {lines : List SourceLine}
      (htoken : token.lexeme ≠ .marker m) (hrest : Contained m item blank rest lines) :
      Contained m item blank (token :: rest) lines
  | whole {token : Token} {rest left : List Token} {own lines : List SourceLine}
      (htoken : token.lexeme = .marker m) (hitem : item.Writes rest own left)
      (hleft : Contained m item blank left lines) :
      Contained m item blank (token :: rest) (own ++ lines)
  | damaged {token : Token} {rest left : List Token} {damage : Damage} {lines : List SourceLine}
      (htoken : token.lexeme = .marker m) (hitem : item.Fails rest (.damage damage) left)
      (hleft : Contained m item blank (left.dropWhile (·.kind ≠ .marker m)).tail lines) :
      Contained m item blank (token :: rest) (Pass.damageLines blank damage ++ lines)

/-- A sweep that takes up items, whole or damaged, reads them one by one. -/
theorem contained_of_sweep (m : Marker) (blank : Nat) {pass : Pass (List Text)} {item : Reader α}
    {spoilt : Damage → α} {write : α → List SourceLine}
    {step : List SourceLine → Token → Reader (List SourceLine)}
    (h : (sweep none step lines).run tokens = (.ok (all, closed), rest))
    (hfollows : pass.Follows item [] (fun pieces value => Pass.Spells pieces (write value)) write)
    (hspoilt : ∀ damage, write (spoilt damage) = Pass.damageLines blank damage)
    (hstep : ∀ lines token, step lines token =
      if token.lexeme = .marker m then do
        let value ← item.recover fun damage => do
          skipPast (.marker m)
          return spoilt damage
        return lines ++ write value
      else return lines) :
    ∃ more, all = lines ++ more ∧ Contained m pass blank tokens more := by
  simp only [sweep] at h
  fun_induction sweepRun none step lines tokens with
  | case1 lines =>
    cases h
    exact ⟨[], by simp, .done⟩
  | case2 lines token rest hclosing => cases hclosing
  | case3 lines token tokens hclosing lines' left hrun ih =>
    obtain ⟨more, rfl, hmore⟩ := ih h
    rw [hstep] at hrun
    split at hrun
    · next htoken =>
      obtain ⟨value, middle, hitem, hpure⟩ := exists_of_run_bind hrun
      obtain ⟨rfl, rfl⟩ : lines ++ write value = lines' ∧ middle = left := by
        cases hpure
        exact ⟨rfl, rfl⟩
      refine ⟨write value ++ more, by simp, ?_⟩
      rcases run_recover_ok hitem with hwhole | ⟨damage, after, hdamage, hhandle⟩
      · exact .whole htoken (hfollows.exists_run hwhole) hmore
      · obtain ⟨⟨⟩, middle', hskip, hpure⟩ := exists_of_run_bind hhandle
        cases hskip
        cases hpure
        rw [hspoilt]
        exact .damaged htoken (hfollows.exists_error hdamage) hmore
    · next htoken =>
      cases hrun
      exact ⟨more, rfl, .pass htoken hmore⟩
  | case4 lines token tokens hclosing error left hrun => cases h

end

-- --------------------
-- What aborts
-- --------------------

def NumeralFault.IsLong : NumeralFault → Prop
  | .tooManyDigits digits => digitLimit < digits
  | .tooLarge => False

/-- The aborts that code can lead to: four digits in a list of spells that form no number,
and a number that is too long. -/
def Abort.IsSlip : Abort → Prop
  | .spellNumber chunk => chunk.length = 4 ∧ Text.isDigits chunk ∧ Text.readNat? chunk = none
  | .numeral fault => fault.IsLong
  | .noQualifiers => False

def DecodeError.Slips : DecodeError → Prop
  | .damage _ => True
  | .abort reason => reason.IsSlip

def DecodeError.IsDamage : DecodeError → Prop
  | .damage _ => True
  | .abort _ => False

theorem Text.isLong_checkDigits (h : checkDigits text = .error fault) : fault.IsLong := by
  unfold checkDigits at h
  dsimp only at h
  split at h
  · next hmany =>
    cases h
    exact hmany
  · cases h

theorem isLong_checkNumbers {tokens : List Token}
    (h : Token.checkNumbers position text tokens = .error fault) : fault.IsLong := by
  induction tokens generalizing position text with
  | nil => cases h
  | cons token tokens ih =>
    rw [Token.checkNumbers] at h
    by_cases hnumber : token.kind = .number
    · simp only [if_pos hnumber] at h
      cases hcheck : Text.checkDigits
          ((text.drop (token.start - position)).take (token.stop - token.start)) with
      | error found =>
        rw [hcheck] at h
        cases h
        exact Text.isLong_checkDigits hcheck
      | ok u =>
        rw [hcheck] at h
        exact ih h
    · simp only [if_neg hnumber] at h
      exact ih h

theorem isLong_readTokens (h : readTokens code = .error fault) : fault.IsLong := by
  unfold readTokens at h
  dsimp only at h
  cases hcheck : Token.checkNumbers 0 code (tokenize code) with
  | error found =>
    rw [hcheck] at h
    cases h
    exact isLong_checkNumbers hcheck
  | ok u =>
    rw [hcheck] at h
    cases h

theorem Decompiler.isLong_orCount (h : orCount statement = .error fault) : fault.IsLong := by
  unfold orCount at h
  split at h
  · cases hliteral : Text.literal ((statement.drop 3).takeWhile (· ≠ ')')) with
    | ok n =>
      rw [hliteral] at h
      cases h
    | error found =>
      rw [hliteral] at h
      cases h
      unfold Text.literal at hliteral
      split at hliteral
      · cases hcheck : Text.checkDigits ((statement.drop 3).takeWhile (· ≠ ')')) with
        | error found =>
          rw [hcheck] at hliteral
          cases hliteral
          exact Text.isLong_checkDigits hcheck
        | ok u =>
          rw [hcheck] at hliteral
          cases hliteral
      · cases hliteral
  · cases h

theorem Comment.isSlip_spellNames (h : spellNames symbols text = .error abort) : abort.IsSlip := by
  fun_induction spellNames symbols text with
  | case1 a b c d rest chunk hdigits hnone =>
    cases h
    exact ⟨rfl, hdigits, hnone⟩
  | case2 a b c d rest chunk hdigits number hnumber ih =>
    cases hrest : spellNames symbols rest with
    | ok names =>
      rw [hrest] at h
      cases h
    | error reason =>
      rw [hrest] at h
      cases h
      exact ih hrest
  | case3 => cases h
  | case4 => cases h

theorem Comment.isSlip_ofSpells (h : ofSpells symbols value = .error abort) : abort.IsSlip := by
  cases hspells : spellNames symbols (Text.inner value) with
  | ok names =>
    rw [ofSpells, hspells] at h
    cases h
  | error reason =>
    rw [ofSpells, hspells] at h
    cases h
    exact isSlip_spellNames hspells

-- --------------------
-- Records and scripts
-- --------------------

section

variable {L : Lexeme → Prop} {E : DecodeError → Prop} {symbols : Symbols} {profile : Profile}

def Damages (E : DecodeError → Prop) : Prop := ∀ damage, E (.damage damage)

theorem Damages.objectFaults (h : Damages E) (hprofile : profile.Regular) :
    ObjectFaults profile L E where
  mismatch _ _ _ := h _
  width _ _ := h _
  qualifiers _ hlength hnone := absurd hnone (ObjectRecord.qualifiers_ne_nil hprofile.sized hlength)

theorem Damages.signatureFaults (h : Damages E) (table : Text) : SignatureFaults symbols table E :=
  fun _ _ _ _ => h _

def Counts (E : DecodeError → Prop) (text : Text) : Prop :=
  ∀ fault, Decompiler.orCount text = .error fault → E (.abort (.numeral fault))

theorem counts_notFound (opcode : Int) :
    Counts E ("Error - Could not find trigger " ++ Text.ofInt opcode) := by
  intro fault h
  have hcount : Decompiler.orCount
      ("Error - Could not find trigger ".toList ++ Text.ofInt opcode) = .ok 0 := by
    have hupper : Text.upper (("Error - Could not find trigger ".toList ++
        Text.ofInt opcode).take 3) ≠ "OR(" := by
      rw [List.take_append_of_le_length (by decide)]
      decide +kernel
    rw [Decompiler.orCount, if_neg hupper]
    rfl
  exact absurd (hcount.symm.trans h) nofun

theorem Damages.ends_trigger (h : Damages E) (hprofile : profile.Regular) {A : Text → Prop}
    (hyields : ∀ record : TriggerRecord, record.Of L → record.Yields symbols profile A)
    (hcounts : ∀ text, Trigger.Says symbols A text → Counts E text) :
    (Trigger.decode symbols profile).Ends L (fun line => Counts E line.text) E := by
  refine (ends_number fun _ _ _ => h _).bind fun opcode _ => ?_
  split
  · next entry n hdefinition =>
    refine (TriggerRecord.ends_read (h.objectFaults hprofile)).bind fun record hrecord => ?_
    have hexpress := Trigger.ends_express (h.signatureFaults _)
      (Trigger.definition?_byId? hdefinition) (hyields record hrecord)
    exact (hexpress.mono hcounts).line
  · exact (ends_skipPast _).bind fun _ _ => ends_pure (counts_notFound opcode)

theorem Damages.ends_action (h : Damages E) (hprofile : profile.Regular)
    (hspells : ∀ record : ActionRecord, record.Of L → ∀ value abort,
      record.IsString symbols profile value → Comment.ofSpells symbols value = .error abort →
        E (.abort abort)) :
    (Action.decode symbols profile).Ends L (fun _ => True) E := by
  refine (ActionRecord.ends_read (h.objectFaults hprofile)).bind fun record hrecord => ?_
  have hyields : record.Yields symbols profile fun _ => True := by
    constructor <;> intros <;> trivial
  have hexpress := Action.ends_express (h.signatureFaults _) hyields (hspells record hrecord)
  exact Expressing.Ends.line (P := fun _ => True) (hexpress.mono fun _ _ => trivial)

variable {decompiler : Decompiler}

theorem Damages.frame (h : Damages E)
    (htrigger : (Trigger.decode decompiler.symbols decompiler.profile).Ends L
      (fun line => Counts E line.text) E)
    (haction : (Action.decode decompiler.symbols decompiler.profile).Ends L (fun _ => True) E) :
    decompiler.Frame L (fun _ => True) E where
  mismatch _ _ _ := h _
  trigger := htrigger.mono fun _ hline => ⟨trivial, trivial, hline⟩
  action := haction
  weight _ _ := trivial
  fixed _ _ := trivial
  damage _ _ := trivial

end

-- --------------------
-- Clean code
-- --------------------

/-- If the character is a digit at all, it is one of a decimal number. -/
def Text.IsCleanDigit (c : Char) : Prop := isDigit c → isDecimalDigit c

instance : Decidable (Text.IsCleanDigit c) := inferInstanceAs (Decidable (_ → _))

theorem Text.hasPlain_isCleanDigit : HasPlain IsCleanDigit := by
  intro c hplain hdigit
  have hruns : ∀ run ∈ otherDigitRuns, 0xB2 ≤ run.1 := by decide
  simp only [isPlain, Bool.and_eq_true, decide_eq_true_eq] at hplain
  rcases Bool.or_eq_true_iff.mp hdigit with hdigit | hother
  · exact hdigit
  · obtain ⟨run, hrun, hin⟩ := List.any_eq_true.mp hother
    simp only [Bool.and_eq_true, decide_eq_true_eq] at hin
    have := hruns run hrun
    omega

structure Entry.IsClean (entry : Entry) : Prop where
  few : Text.FewDigits entry.name
  digits : ∀ c ∈ entry.name, Text.IsCleanDigit c

def Symbols.IsClean (symbols : Symbols) : Prop :=
  ∀ table ∈ symbols.tables.toList, ∀ entry ∈ table.2.entries.toList, entry.IsClean

/-- The numbers of the code can be read, and its digits are those of numbers. -/
structure IsCleanCode (code : Text) : Prop where
  legible : ∀ piece ∈ pieces code, Legible piece
  digits : ∀ c ∈ code, Text.IsCleanDigit c

theorem Symbols.IsClean.made {symbols : Symbols} {P : Entry → Prop} (h : symbols.IsClean)
    (hmade : symbols.Made P) : symbols.Made Entry.IsClean := fun name table htable =>
  ((hmade name table htable).and fun entry hentry => h (tableName name, table)
    (Std.TreeMap.mem_toList_iff_getElem?_eq_some.mpr htable) entry hentry).mono fun _ => And.right

structure Lexeme.IsClean (l : Lexeme) : Prop where
  few : ∀ n, l = .number n → Text.FewDigits (Text.ofInt n)
  opened : l.Opened
  digits : l.Over Text.IsCleanDigit

theorem IsCleanCode.isClean (h : IsCleanCode code) (hl : l ∈ lexemes code) : l.IsClean := by
  refine ⟨fun n hn => ?_, ?_, over_of_mem_lexemes Text.hasPlain_isCleanDigit h.digits hl⟩
  · obtain ⟨⟨l, covered⟩, hpiece, rfl⟩ := List.mem_map.mp hl
    obtain rfl : l = .number n := hn
    have hnumber : n = (Text.readSigned? covered).getD 0 := (covers_of_mem_pieces hpiece).1
    subst hnumber
    cases hread : Text.readSigned? covered with
    | none => decide
    | some n => exact Text.fewDigits_of_readSigned? hread (h.legible _ hpiece rfl)
  · obtain ⟨piece, hpiece, rfl⟩ := List.mem_map.mp hl
    exact opened_of_mem_pieces hpiece

theorem ObjectRecord.Of.countable {record : ObjectRecord} (h : record.Of Lexeme.IsClean) :
    record.Countable :=
  ⟨fun n hn => (h.numbers n hn).few n rfl, h.name.opened, fun area harea => (h.area area harea).opened⟩

theorem TriggerRecord.Of.countable {record : TriggerRecord} (h : record.Of Lexeme.IsClean) :
    record.Countable where
  few n hn := by
    rcases h.integers n hn with rfl | hclean
    · decide
    · exact hclean.few n rfl
  strings strings hstrings := ⟨(h.strings strings hstrings).1.opened, (h.strings strings hstrings).2.opened⟩
  point point hpoint := (h.point point hpoint).opened
  object := h.object.countable

theorem ObjectRecord.Of.clean {record : ObjectRecord} (h : record.Of Lexeme.IsClean) :
    record.Over Text.IsCleanDigit :=
  ⟨h.name.digits, fun area harea => (h.area area harea).digits⟩

theorem ActionRecord.Of.clean {record : ActionRecord} (h : record.Of Lexeme.IsClean) :
    record.Over Text.IsCleanDigit :=
  ⟨h.actor.clean, fun object hobject => (h.objects object hobject).clean,
    fun strings hstrings => ⟨(h.strings strings hstrings).1.digits, (h.strings strings hstrings).2.digits⟩⟩

theorem damages_isDamage : Damages DecodeError.IsDamage := fun _ => trivial

theorem damages_slips : Damages DecodeError.Slips := fun _ => trivial

section

variable {symbols : Symbols} {profile : Profile}

theorem Trigger.ends_slips (hprofile : profile.Regular) :
    (decode symbols profile).Ends (fun _ => True)
      (fun line => Counts DecodeError.Slips line.text) DecodeError.Slips :=
  damages_slips.ends_trigger hprofile (A := fun _ => True)
    (fun _ _ => by constructor <;> intros <;> trivial)
    fun _ _ _ hfault => Decompiler.isLong_orCount hfault

theorem Action.ends_slips (hprofile : profile.Regular) :
    (decode symbols profile).Ends (fun _ => True) (fun _ => True) DecodeError.Slips :=
  damages_slips.ends_action hprofile fun _ _ _ _ _ hspells => Comment.isSlip_ofSpells hspells

theorem Trigger.ends_clean (hprofile : profile.Regular) (hsymbols : symbols.Made Entry.IsClean) :
    (decode symbols profile).Ends Lexeme.IsClean
      (fun line => Counts DecodeError.IsDamage line.text) DecodeError.IsDamage := by
  have hfew : symbols.Made fun entry => Text.FewDigits entry.name := fun name table htable =>
    (hsymbols name table htable).mono fun _ => Entry.IsClean.few
  refine damages_isDamage.ends_trigger hprofile (A := Text.Countable)
    (fun record hrecord => hrecord.countable.yields hfew profile) fun text hsays fault hfault => ?_
  have hok := hsays.isOk_orCount hfew
  rw [hfault] at hok
  cases hok

theorem Action.ends_clean (hprofile : profile.Regular) (hsymbols : symbols.Made Entry.IsClean) :
    (decode symbols profile).Ends Lexeme.IsClean (fun _ => True) DecodeError.IsDamage := by
  have hnames : symbols.NamesOver Text.IsCleanDigit := fun _ _ hentry =>
    (hsymbols.hasId hentry).digits
  refine damages_isDamage.ends_action hprofile fun record hrecord value abort hvalue hspells => ?_
  have hclean := hrecord.clean.isString Text.hasPlain_isCleanDigit hnames profile hvalue
  exact absurd hspells (Comment.ofSpells_ne_error symbols hclean)

end

-- --------------------
-- Whole code
-- --------------------

/-- The lines of code that is read block by block, or record by record in a dialog. An item
that is damaged is dropped with all that was noted on the way, and leaves what tells of the
damage. -/
def Decompiler.Reads (decompiler : Decompiler) (form : CodeForm) (code : Text)
    (lines : List SourceLine) : Prop :=
  Contained (markerOf form) (decompiler.itemOf form) (blankOf form) (tokenize code) lines

theorem Decompiler.reads_of_run {decompiler : Decompiler} {form : CodeForm}
    (h : (decompiler.readerOf form).run (tokenize code) = (.ok lines, rest)) :
    decompiler.Reads form code lines := by
  unfold Reads
  cases form with
  | script =>
    obtain ⟨⟨all, closed⟩, left, hsweep, hpure⟩ := exists_of_run_bind h
    obtain ⟨more, rfl, hmore⟩ := contained_of_sweep .block 1 hsweep
      (Pass.follows_block decompiler []) (fun _ => rfl) fun _ _ => rfl
    cases hpure
    exact hmore
  | dialog isAction =>
    obtain ⟨⟨all, closed⟩, left, hsweep, hpure⟩ := exists_of_run_bind h
    obtain ⟨more, rfl, hmore⟩ := contained_of_sweep (dialogMarker isAction) 0 hsweep
      (Pass.follows_recordPieces (decompiler.follows_dialogPass isAction [])) (fun _ => rfl)
      fun _ _ => rfl
    cases hpure
    exact hmore

theorem Reader.Ends.readCode {reader : Reader (List SourceLine)} {L : Lexeme → Prop}
    {E : DecodeError → Prop} {P Q : List SourceLine → Prop} (h : Ends L P E reader)
    (hpositionless : Positionless reader) (hcode : ∀ l ∈ lexemes code, L l)
    (hlong : ∀ fault, readTokens code = .error fault → E (.abort (.numeral fault)))
    (hrun : ∀ lines rest, reader.run (tokenize code) = (.ok lines, rest) → Q lines) (collect : Bool) :
    Outcome.Ends (fun d => ∃ lines, Q lines ∧ d = .ofLines collect lines) E
      (reader.readCode code collect) := by
  have htokens : Outcome.Ends (fun tokens => tokens = tokenize code) E
      ((readTokens code).mapError fun fault => .abort (.numeral fault)) := by
    cases hread : readTokens code with
    | error fault => exact hlong fault hread
    | ok tokens => exact (readTokens_eq_ok_iff.mp hread).1
  have hlines : Outcome.Ends Q E (reader.run (tokenize code)).1 := by
    have hparse := h (lexemes code) hcode
    rw [← map_lexeme_tokenize, ← (hpositionless _).1] at hparse
    rcases hresult : reader.run (tokenize code) with ⟨error | lines, rest⟩
    · rw [hresult] at hparse
      exact hparse
    · exact hrun lines rest hresult
  refine htokens.bind fun tokens hread => ?_
  subst hread
  exact hlines.bind fun lines hfound => ⟨lines, hfound, rfl⟩

theorem DecodeError.not_isAbort_isDamage (error : DecodeError) : ¬ IsAbort IsDamage error := by
  cases error with
  | damage damage => nofun
  | abort reason => nofun

section

variable {decompiler : Decompiler}

theorem Decompiler.ends_readerOf {L : Lexeme → Prop} {E : DecodeError → Prop}
    (hframe : decompiler.Frame L (fun _ => True) E) (form : CodeForm) :
    (decompiler.readerOf form).Ends L (fun _ => True) (DecodeError.IsAbort E) := by
  cases form with
  | script => exact hframe.ends_script.mono fun _ _ => trivial
  | dialog isAction =>
    have hrecord : (decompiler.dialogRecord isAction).Ends L (fun _ => True) E := by
      cases isAction with
      | true => exact hframe.action
      | false => exact hframe.trigger.mono fun _ _ => trivial
    exact (ends_records hrecord (fun _ _ => trivial) _).mono fun _ _ => trivial

theorem Decompiler.ends_decompileAs {L : Lexeme → Prop} {E : DecodeError → Prop}
    (hframe : decompiler.Frame L (fun _ => True) E) (hcode : ∀ l ∈ lexemes code, L l)
    (hlong : ∀ fault, readTokens code = .error fault → E (.abort (.numeral fault)))
    (form : CodeForm) (collect : Bool) :
    Outcome.Ends (fun d => ∃ lines, decompiler.Reads form code lines ∧ d = .ofLines collect lines)
      (DecodeError.IsAbort E) (decompiler.decompileAs form code collect) := by
  rw [decompileAs_eq]
  exact (ends_readerOf hframe form).readCode (decompiler.positionless_readerOf form) hcode hlong
    (fun _ _ => reads_of_run) collect

/-- Decompiling with the profile of a game reads blocks, or the records of a dialog, one by
one, and what is wrong with one is told in its place. Only two slips keep it from a result: a
number that is too long, and four digits in a list of spells that are no number. With neither
in the code or the tables there is always a result. -/
theorem decompile_returns {game : Game} (hprofile : decompiler.profile = .ofGame game)
    (form : CodeForm) (code : Text) (collect : Bool) :
    Outcome.Ends (fun d => ∃ lines, decompiler.Reads form code lines ∧ d = .ofLines collect lines)
        (DecodeError.IsAbort DecodeError.Slips) (decompiler.decompileAs form code collect) ∧
      (decompiler.symbols.IsRead → decompiler.symbols.IsClean → IsCleanCode code →
        (decompiler.decompileAs form code collect).isOk) := by
  have hregular : decompiler.profile.Regular := hprofile ▸ Profile.regular_ofGame game
  constructor
  · have hframe : decompiler.Frame (fun _ => True) (fun _ => True) DecodeError.Slips :=
      damages_slips.frame (Trigger.ends_slips hregular) (Action.ends_slips hregular)
    exact Decompiler.ends_decompileAs hframe (fun _ _ => trivial) (fun _ => isLong_readTokens) form
      collect
  · intro hread hsymbols hcode
    have hmade := hsymbols.made hread.made
    have hframe : decompiler.Frame Lexeme.IsClean (fun _ => True) DecodeError.IsDamage :=
      damages_isDamage.frame (Trigger.ends_clean hregular hmade) (Action.ends_clean hregular hmade)
    have hlong : ∀ fault, readTokens code = .error fault → DecodeError.IsDamage (.abort (.numeral fault)) := by
      intro fault hfault
      rw [readTokens_eq_ok_iff.mpr ⟨rfl, hcode.legible⟩] at hfault
      cases hfault
    exact (Decompiler.ends_decompileAs hframe (fun _ => hcode.isClean) hlong form collect).isOk
      DecodeError.not_isAbort_isDamage

end

theorem decompile_returns_sample :
    let decompiler : Decompiler :=
      ⟨.build [(Table.read "ACTION" "1 Cast(S:Spells*)").value,
        (Table.read "SPELL" "2111 BLESS").value] [] [] [] none, .ofGame .none, " "⟩
    let object : Text := "OB 0 0 0 0 0 0 0 0 0 0 0 0 \"\" OB "
    let cast : Text := "AC 1 " ++ object ++ object ++ object ++ "0 0 0 0 0 \"21112112\" \"\" AC "
    let code : Text := "SC CR CO TR x CO CR CR RS RE 5 " ++ cast ++ "RE RS CR CR CO"
    ∃ whole lines, decompiler.decompileAs .script code true = .ok whole ∧
      decompiler.Reads .script code lines ∧ whole = .ofLines true lines ∧
      whole.source = ("Error - Expected NUMBER but found `x`\n\n" ++
        "THEN\n RESPONSE #5\n  Cast(\"21112112\") // BLESS\nEND\n\n" ++
        "Error - Expected CO but found end of file\n\n").toList := by
  intro decompiler object cast code
  have hsymbols : decompiler.symbols.IsRead := by
    refine ⟨_, _, _, _, _, rfl, fun table hmem => ?_⟩
    rcases List.mem_cons.mp hmem with rfl | hmem
    · exact ⟨_, _, rfl⟩
    · exact ⟨_, _, List.mem_singleton.mp hmem⟩
  have hclean : decompiler.symbols.IsClean := by
    have hnames : ∀ table ∈ decompiler.symbols.tables.toList, ∀ entry ∈ table.2.entries.toList,
        Text.FewDigits entry.name ∧ ∀ c ∈ entry.name, Text.IsCleanDigit c := by decide +kernel
    exact fun table htable entry hentry =>
      ⟨(hnames table htable entry hentry).1, (hnames table htable entry hentry).2⟩
  obtain ⟨tokens, htokens, -⟩ := Outcome.exists_of_any (by decide +kernel :
    (readTokens code).toOption.any fun tokens => tokens.length > 0)
  have hcode : IsCleanCode code := ⟨(readTokens_eq_ok_iff.mp htokens).2, by decide +kernel⟩
  obtain ⟨hends, hreturns⟩ :=
    decompile_returns (show decompiler.profile = .ofGame .none from rfl) .script code true
  obtain ⟨whole, hwhole⟩ := Outcome.isOk_iff.mp (hreturns hsymbols hclean hcode)
  obtain ⟨lines, hlines, hresult⟩ : ∃ lines, decompiler.Reads .script code lines ∧
      whole = .ofLines true lines := by
    rw [hwhole] at hends
    exact hends
  have hsource : (decompiler.decompileAs .script code true).toOption.any fun whole =>
      whole.source = ("Error - Expected NUMBER but found `x`\n\n" ++
        "THEN\n RESPONSE #5\n  Cast(\"21112112\") // BLESS\nEND\n\n" ++
        "Error - Expected CO but found end of file\n\n").toList := by decide +kernel
  rw [hwhole] at hsource
  exact ⟨whole, lines, hwhole, hlines, hresult, of_decide_eq_true hsource⟩

/-- A superscript counts as a digit of a list of spells but is none of a number, and one such
list leaves neither its own block nor the others any lines. -/
theorem decompile_superscript :
    let decompiler : Decompiler :=
      ⟨.build [(Table.read "ACTION" "1 Cast(S:Spells*)").value,
        (Table.read "SPELL" "2111 BLESS").value] [] [] [] none, .ofGame .none, "\t"⟩
    let object : Text := "OB\n0 0 0 0 0 0 0 0 0 0 0 0 \"\"OB\n"
    let cast : Text := "AC\n1" ++ object ++ object ++ object ++ "0 0 0 0 0\"211²\" \"\" AC\n"
    let code : Text := "SC\nCR\nCO\nCO\nRS\nRE\n7RE\nRS\nCR\nCR\nCO\nCO\nRS\nRE\n100" ++ cast ++
      "RE\nRS\nCR\nSC\n"
    decompiler.decompile code true = .error (.abort (.spellNumber "211²".toList)) ∧
      decompiler.decompileDialog cast true true = .error (.abort (.spellNumber "211²".toList)) := by
  intro decompiler object cast code
  exact ⟨Outcome.eq_error_of_map (by decide +kernel), Outcome.eq_error_of_map (by decide +kernel)⟩

end InfinityScript
