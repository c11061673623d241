import InfinityScript.Proofs.Script.Aborts

/-!
# Diagnostics and the lines they are about

A pass records a message under the number of the line to come. As no line holds a line feed of
its own, its counter keeps step with the line feeds that are written (`Log.line_writeAll`), also
where damage puts it back. So each diagnostic of decompiled code is about the line of the record
that led to it, or about the line that stands for the damage
(`Decompiler.diagnostics_on_lines`).
-/

namespace InfinityScript

open Reader

def SourceLine.messages (line : SourceLine) : List Text := line.notes.filterMap Note.message?

namespace Log

theorem line_write (collect : Bool) (log : Log) (line : SourceLine) :
    (log.write collect line).line = log.line + 1 :=
  congrArg (· + 1) (log.line_note collect line.notes)

/-- As long as no line holds a line feed of its own, the counter is ahead of the line feeds
that are written by as much as it was at the start. -/
theorem line_writeAll (collect : Bool) (log : Log) {lines : List SourceLine} (h : OneLines lines) :
    (log.writeAll collect lines).line =
      log.line + (Text.ofLines (lines.map SourceLine.text)).count '\n' := by
  induction lines generalizing log with
  | nil => simp [writeAll, Text.ofLines]
  | cons line lines ih =>
    obtain ⟨hline, hlines⟩ := List.forall_mem_cons.mp h
    have hcount : (Text.ofLines ((line :: lines).map SourceLine.text)).count '\n' =
        1 + (Text.ofLines (lines.map SourceLine.text)).count '\n' := by
      rw [List.map_cons, Text.ofLines, List.flatMap_cons, List.count_append, List.count_append,
        List.count_eq_zero_of_not_mem hline]
      rfl
    show ((log.write collect line).writeAll collect lines).line = _
    rw [ih _ hlines, line_write, hcount]
    omega

end Log

namespace Decompiled

/-- The last message of a line is the one that stays. -/
theorem getElem?_diagnostics_append (before after : List SourceLine) (line : SourceLine) :
    (ofLines true (before ++ line :: after)).diagnostics[((1 + before.length : Nat) : Int)]? =
      line.messages.getLast? := by
  have hbefore : Diagnostics.about (1 + before.length : Nat) (messagesFrom 1 before) = [] :=
    Diagnostics.about_eq_nil fun message hmem => by
      have := mem_messagesFrom hmem
      omega
  have hafter : Diagnostics.about (1 + before.length : Nat)
      (messagesFrom (1 + before.length + 1) after) = [] :=
    Diagnostics.about_eq_nil fun message hmem => by
      have := mem_messagesFrom hmem
      omega
  have hline : Diagnostics.about (1 + before.length : Nat) (line.messages.map fun message =>
      (((1 + before.length : Nat) : Int), message)) = line.messages := by
    simp [Diagnostics.about, List.filterMap_map]
  rw [getElem?_diagnostics, messagesFrom_append, messagesFrom_cons, Diagnostics.about_append,
    Diagnostics.about_append, hbefore, hafter, List.nil_append, List.append_nil]
  exact congrArg List.getLast? hline

theorem exists_line_of_diagnostics {lines : List SourceLine} {key : Int} {message : Text}
    (h : (ofLines true lines).diagnostics[key]? = some message) :
    ∃ before line after, lines = before ++ line :: after ∧ key = (1 + before.length : Nat) := by
  rw [getElem?_diagnostics] at h
  obtain ⟨⟨number, text⟩, hmem, htext⟩ := List.mem_filterMap.mp (List.mem_of_getLast? h)
  have hbounds := mem_messagesFrom hmem
  dsimp only at htext hbounds
  split at htext
  · next hkey =>
    have hplace : (key - 1).toNat < lines.length := by omega
    refine ⟨lines.take (key - 1).toNat, lines[(key - 1).toNat], lines.drop ((key - 1).toNat + 1), ?_, ?_⟩
    · rw [← List.drop_eq_getElem_cons hplace, List.take_append_drop]
    · rw [List.length_take_of_le (Nat.le_of_lt hplace)]
      omega
  · cases htext

end Decompiled

namespace Decompiler

variable (decompiler : Decompiler)

/-- The lines that decompiling makes of lexemes of `L`. -/
inductive IsLine (L : Lexeme → Prop) : SourceLine → Prop
  /-- A line around records, about which there is nothing to say. -/
  | frame (text : Text) : IsLine L { text }
  /-- A record that is kept. Whatever has been logged before, decoding it records its notes
  under the number of the line to come and counts one line. -/
  | kept {ls : List Lexeme} {record : SourceLine} {indent : Text} (isAction : Bool)
      (hls : ∀ l ∈ ls, L l)
      (hrecord : ∀ tokens, tokens.map Token.lexeme = ls → ∀ collect log, ∃ left,
        (decompiler.dialogPass isAction).run collect log tokens =
          (.ok record.text, log.write collect record, left))
      (hindent : indent ∈ [[], decompiler.indent, decompiler.indent ++ decompiler.indent]) :
      IsLine L (record.indented indent)
  /-- What a block or a record that is dropped leaves. -/
  | dropped (damage : Damage) : IsLine L (.ofDamage damage)

variable {decompiler} {L : Lexeme → Prop}

theorem run_dialogPass {isAction : Bool}
    (h : ((decompiler.dialogRecord isAction).parse ls).1 = .ok record) :
    ∀ tokens, tokens.map Token.lexeme = ls → ∀ collect log, ∃ left,
      (decompiler.dialogPass isAction).run collect log tokens =
        (.ok record.text, log.write collect record, left) := by
  rintro tokens rfl collect log
  obtain ⟨left, -, hrun⟩ := exists_run_dialogPass (Prod.ext h rfl) collect log
  exact ⟨left, hrun⟩

theorem ends_kept (isAction : Bool) :
    (decompiler.dialogRecord isAction).Ends L (fun record =>
      ∀ indent ∈ [[], decompiler.indent, decompiler.indent ++ decompiler.indent],
        decompiler.IsLine L (record.indented indent)) fun _ => True := by
  intro ls hls
  cases hrecord : ((decompiler.dialogRecord isAction).parse ls).1 with
  | error error => trivial
  | ok record => exact fun indent hindent => .kept isAction hls (run_dialogPass hrecord) hindent

theorem frame_isLine : decompiler.Frame L (decompiler.IsLine L) fun _ => True where
  mismatch _ _ _ := trivial
  trigger := (ends_kept false).mono fun record hrecord =>
    ⟨hrecord _ (by simp), hrecord _ (by simp), fun _ _ => trivial⟩
  action := (ends_kept true).mono fun record hrecord => hrecord _ (by simp)
  weight _ _ := .frame _
  fixed _ _ := .frame _
  damage damage _ := .dropped damage

theorem isLine_of_parse {form : CodeForm} (hls : ∀ l ∈ ls, L l)
    (h : ((decompiler.readerOf form).parse ls).1 = .ok lines) :
    ∀ line ∈ lines, decompiler.IsLine L line := by
  cases form with
  | script => exact (frame_isLine.ends_script ls hls).of_ok h
  | dialog isAction =>
    have hrecord : (decompiler.dialogRecord isAction).Ends L (decompiler.IsLine L) fun _ => True :=
      (ends_kept isAction).mono fun record hrecord => hrecord [] (by simp)
    exact (ends_records hrecord (fun damage _ => .dropped damage) _ ls hls).of_ok h

theorem oneLines_of_parse {form : CodeForm} (hsymbols : decompiler.symbols.Made Entry.IsRead)
    (hindent : '\n' ∉ decompiler.indent) (hls : ∀ l ∈ ls, l.OneLine)
    (h : ((decompiler.readerOf form).parse ls).1 = .ok lines) : OneLines lines := by
  cases form with
  | script => exact (makes_script hsymbols hindent ls hls).of_ok h
  | dialog isAction =>
    have hplain := Text.hasPlain_ne_newline
    have hrecord : (decompiler.dialogRecord isAction).Ends (Lexeme.Over (· ≠ '\n'))
        (fun line => Text.Over (· ≠ '\n') line.text) (DecodeError.Over (· ≠ '\n')) := by
      cases isAction with
      | true => exact Action.over_decode hplain hsymbols.over _
      | false => exact Trigger.over_decode hplain hsymbols.over _
    have hover := (ends_records hrecord (over_ofDamage hplain) _ ls fun l hl =>
      Text.over_ne_newline.mpr (hls l hl)).of_ok h
    exact fun line hline => Text.over_ne_newline.mp (hover line hline)

/-- What code is decompiled to are lines that stay on one line each, and the pass over the code
leaves them in its log. -/
theorem exists_lines_of_decompileAs {form : CodeForm} {code : Text} {result : Decompiled}
    (hsymbols : decompiler.symbols.IsRead) (hindent : '\n' ∉ decompiler.indent)
    (hnewline : ∀ token ∈ tokenize code, ∀ text,
      token.lexeme = .string text ∨ token.lexeme = .coordinate text → '\n' ∉ text)
    (h : decompiler.decompileAs form code true = .ok result) :
    ∃ lines pieces left, result = .ofLines true lines ∧ decompiler.Reads form code lines ∧
      (decompiler.passOf form).run true {} (tokenize code) =
        (.ok pieces, ({} : Log).writeAll true lines, left) ∧
      Pass.Spells pieces lines ∧ OneLines lines ∧
      ∀ line ∈ lines, decompiler.IsLine (· ∈ lexemes code) line := by
  rw [decompileAs_eq] at h
  have hpositionless := decompiler.positionless_readerOf form
  obtain ⟨-, lines, hlines, rfl⟩ := (readCode_eq_ok_iff hpositionless).mp h
  have hrun := (hpositionless (tokenize code)).1
  rw [map_lexeme_tokenize, hlines] at hrun
  obtain ⟨pieces, hspells, hpass⟩ :=
    (decompiler.follows_passOf form).exists_run (Prod.ext hrun rfl) true {}
  exact ⟨lines, pieces, _, rfl, reads_of_run (Prod.ext hrun rfl), hpass, hspells,
    oneLines_of_parse hsymbols.made hindent (oneLine_lexemes hnewline) hlines, isLine_of_parse (fun _ => id) hlines⟩

/-- The diagnostics of decompiled code are about its lines. At the end of the pass the counter,
less one, is the number of line feeds in the source. What is recorded of a record that is kept
is recorded under the number of its line, which is one more than the line feeds before it, and
the last message stays. A block or a record that is dropped leaves a line with what was wrong,
and the diagnostic about that line says the same. There are no other diagnostics. -/
theorem diagnostics_on_lines {form : CodeForm} {code : Text} {result : Decompiled}
    (hsymbols : decompiler.symbols.IsRead) (hindent : '\n' ∉ decompiler.indent)
    (hnewline : ∀ token ∈ tokenize code, ∀ text,
      token.lexeme = .string text ∨ token.lexeme = .coordinate text → '\n' ∉ text)
    (h : decompiler.decompileAs form code true = .ok result) :
    ∃ lines pieces final left, decompiler.Reads form code lines ∧
      (decompiler.passOf form).run true {} (tokenize code) = (.ok pieces, final, left) ∧
      final = ({} : Log).writeAll true lines ∧
      result.source = pieces.flatten ∧ result.diagnostics = final.diagnostics ∧
      final.line - 1 = result.source.count '\n' ∧
      (∀ before line after, lines = before ++ line :: after →
        let log := ({} : Log).writeAll true before
        let written := Text.ofLines (before.map SourceLine.text)
        decompiler.IsLine (· ∈ lexemes code) line ∧
          written ++ line.text ++ ['\n'] <+: result.source ∧
          log.line = 1 + written.count '\n' ∧
          result.diagnostics[log.line]? = line.messages.getLast? ∧
          ∀ damage, line = .ofDamage damage →
            line.text = "Error - " ++ damage.message ∧
              result.diagnostics[log.line]? = some damage.message) ∧
      ∀ key message, result.diagnostics[key]? = some message →
        ∃ before line after, lines = before ++ line :: after ∧
          key = (({} : Log).writeAll true before).line := by
  obtain ⟨lines, pieces, left, rfl, hreads, hrun, hspells, hone, hkinds⟩ :=
    exists_lines_of_decompileAs hsymbols hindent hnewline h
  -- Where some of the lines are written, the counter is one more than their line feeds, and so
  -- one more than their number.
  have hline : ∀ before after, lines = before ++ after →
      (({} : Log).writeAll true before).line =
        1 + (Text.ofLines (before.map SourceLine.text)).count '\n' ∧
      (({} : Log).writeAll true before).line = (1 + before.length : Nat) := by
    rintro before after rfl
    have hbefore : OneLines before := fun line hmem => hone line (List.mem_append_left _ hmem)
    have hcount := Log.line_writeAll true {} hbefore
    refine ⟨hcount, hcount.trans ?_⟩
    rw [← Decompiled.count_source hbefore]
    exact (Int.natCast_add 1 _).symm
  have hfinal := Log.writeAll_start true lines
  refine ⟨lines, pieces, _, left, hreads, hrun, rfl, hspells.symm, by rw [hfinal], ?_, ?_, ?_⟩
  · have hend := (hline lines [] (by simp)).1
    simp only [Decompiled.ofLines]
    omega
  · intro before line after hsplit
    obtain ⟨hcount, hplace⟩ := hline before (line :: after) hsplit
    dsimp only
    have hdiagnostics : (Decompiled.ofLines true lines).diagnostics[
        (({} : Log).writeAll true before).line]? = line.messages.getLast? := by
      rw [hplace, hsplit, Decompiled.getElem?_diagnostics_append]
    refine ⟨hkinds line (by simp [hsplit]), ?_, hcount, hdiagnostics, ?_⟩
    · refine ⟨Text.ofLines (after.map SourceLine.text), ?_⟩
      simp [hsplit, Decompiled.ofLines, Text.ofLines]
    · rintro damage rfl
      exact ⟨rfl, hdiagnostics⟩
  · intro key message hmessage
    obtain ⟨before, line, after, hsplit, rfl⟩ := Decompiled.exists_line_of_diagnostics hmessage
    exact ⟨before, line, after, hsplit, (hline before (line :: after) hsplit).2.symm⟩

/-- A trigger that has no name in a block that is kept, and a block that is dropped after a
trigger of the same kind. -/
theorem diagnostics_on_lines_sample :
    let decompiler : Decompiler :=
      ⟨.build [(Table.read "TRIGGER" "0x4023 True()").value] [] [] [] none, .ofGame .none, " "⟩
    let code : Text :=
      "SC CR CO TR 99 \"x\" TR CO RS RE 5 RE RS CR CR CO TR 98 TR TR x CO CR SC"
    ∃ result final, decompiler.decompileAs .script code true = .ok result ∧
      ((decompiler.passOf .script).run true {} (tokenize code)).2.1 = final ∧ final.line = 9 ∧
      result.source = ("IF\n Error - Could not find trigger 99\nTHEN\n RESPONSE #5\nEND\n\n" ++
        "Error - Expected NUMBER but found `x`\n\n").toList ∧
      result.diagnostics.toList = [((2 : Int), "99 not found in TRIGGER.IDS".toList),
        (7, "Expected NUMBER but found `x`".toList)] := by
  intro decompiler code
  have hsymbols : decompiler.symbols.IsRead :=
    ⟨_, _, _, _, _, rfl, fun table hmem => ⟨_, _, List.mem_singleton.mp hmem⟩⟩
  have hnewline : ∀ token ∈ tokenize code, ∀ text,
      token.lexeme = .string text ∨ token.lexeme = .coordinate text → '\n' ∉ text := by
    have hfree : ∀ token ∈ tokenize code, '\n' ∉ token.lexeme.text := by decide +kernel
    exact fun token htoken text => Token.newline_notMem (hfree token htoken)
  obtain ⟨result, hresult, hfound⟩ := Outcome.exists_of_any (by decide +kernel :
    (decompiler.decompileAs .script code true).toOption.any fun result =>
      result.source = ("IF\n Error - Could not find trigger 99\nTHEN\n RESPONSE #5\nEND\n\n" ++
        "Error - Expected NUMBER but found `x`\n\n").toList &&
      result.diagnostics.toList = [((2 : Int), "99 not found in TRIGGER.IDS".toList),
        (7, "Expected NUMBER but found `x`".toList)])
  obtain ⟨hsource, hdiagnostics⟩ := Bool.and_eq_true_iff.mp hfound
  have hsource := of_decide_eq_true hsource
  obtain ⟨lines, pieces, final, left, -, hrun, -, -, -, hline, -⟩ :=
    diagnostics_on_lines hsymbols (by decide) hnewline hresult
  have hcount : result.source.count '\n' = 8 := by
    rw [hsource]
    decide +kernel
  refine ⟨result, final, hresult, by rw [hrun], ?_, hsource, of_decide_eq_true hdiagnostics⟩
  rw [hcount] at hline
  omega

end Decompiler

end InfinityScript
