import InfinityScript.Proofs.Script.DecodedChars
import InfinityScript.Proofs.Script.Reading

/-!
# Decompiled lines

As long as no lexeme of the code and no entry of a table holds a line feed, each
decompiled line stays on one line of the source (`Decompiler.makes_script`). The alphabet
here is that of all characters but the line feed.
-/

namespace InfinityScript

open Reader

namespace Text

theorem over_ne_newline : Over (· ≠ '\n') text ↔ '\n' ∉ text :=
  ⟨fun h hmem => h _ hmem rfl, fun h _ hc heq => h (heq ▸ hc)⟩

theorem hasPlain_ne_newline : HasPlain (· ≠ '\n') := by
  rintro c hc rfl
  exact absurd hc (by decide)

end Text

def Lexeme.OneLine (l : Lexeme) : Prop := '\n' ∉ l.text

def DecodeError.OneLine : DecodeError → Prop
  | .damage found => '\n' ∉ found.message
  | .abort _ => True

theorem TokenKind.newline_notMem_name (kind : TokenKind) : '\n' ∉ kind.name :=
  Text.over_ne_newline.mp (kind.over_name Text.hasPlain_ne_newline)

structure ObjectRecord.OneLine (record : ObjectRecord) : Prop where
  name : '\n' ∉ record.name
  area : ∀ area ∈ record.area, '\n' ∉ area

structure TriggerRecord.OneLine (record : TriggerRecord) : Prop where
  point : ∀ point ∈ record.point, '\n' ∉ point
  strings : ∀ strings ∈ record.strings, '\n' ∉ strings.1 ∧ '\n' ∉ strings.2
  object : record.object.OneLine

structure ActionRecord.OneLine (record : ActionRecord) : Prop where
  actor : record.actor.OneLine
  objects : ∀ object ∈ record.objects, object.OneLine
  strings : ∀ strings ∈ record.strings, '\n' ∉ strings.1 ∧ '\n' ∉ strings.2

theorem ObjectRecord.OneLine.over {record : ObjectRecord} (h : record.OneLine) :
    record.Over (· ≠ '\n') :=
  ⟨Text.over_ne_newline.mpr h.name, fun area harea => Text.over_ne_newline.mpr (h.area area harea)⟩

section

variable {symbols : Symbols}

/-- Entries that were read from a table are on one line, and so is every comment. -/
theorem Symbols.Made.over (h : symbols.Made Entry.IsRead) : symbols.Over (· ≠ '\n') where
  name _ _ hentry := Text.over_ne_newline.mpr (h.hasId hentry).1
  parameters _ _ hentry parameters hsome :=
    Text.over_ne_newline.mpr ((h.hasId hentry).2 parameters hsome)
  told := ⟨fun _ _ _ _ _ => id, fun _ _ _ _ _ => id, fun _ _ _ _ _ => id⟩

theorem over_ne_newline_eq : Text.Over (· ≠ '\n') = fun text => '\n' ∉ text :=
  funext fun _ => propext Text.over_ne_newline

theorem TriggerRecord.OneLine.yields (hsymbols : symbols.Made Entry.IsRead) (profile : Profile)
    {record : TriggerRecord} (h : record.OneLine) :
    record.Yields symbols profile fun text => '\n' ∉ text := by
  have hover : record.Over (· ≠ '\n') := by
    refine ⟨?_, ?_, h.object.over⟩
    · exact fun point hpoint => Text.over_ne_newline.mpr (h.point point hpoint)
    · exact fun strings hstrings => (h.strings strings hstrings).imp Text.over_ne_newline.mpr
        Text.over_ne_newline.mpr
  exact over_ne_newline_eq ▸ hover.yields Text.hasPlain_ne_newline hsymbols.over.name profile

theorem ActionRecord.OneLine.yields (hsymbols : symbols.Made Entry.IsRead) (profile : Profile)
    {record : ActionRecord} (h : record.OneLine) :
    record.Yields symbols profile fun text => '\n' ∉ text := by
  have hover : record.Over (· ≠ '\n') := by
    refine ⟨h.actor.over, fun object hobject => (h.objects object hobject).over, ?_⟩
    exact fun strings hstrings => (h.strings strings hstrings).imp Text.over_ne_newline.mpr
      Text.over_ne_newline.mpr
  exact over_ne_newline_eq ▸ hover.yields Text.hasPlain_ne_newline hsymbols.over.name profile

theorem Trigger.Says.newline_notMem (hsymbols : symbols.Made Entry.IsRead)
    (h : Says symbols (fun argument => '\n' ∉ argument) text) : '\n' ∉ text := by
  obtain ⟨entry, negated, arguments, comment, hentry, harguments, rfl⟩ := h
  refine Text.over_ne_newline.mp (Tells.over Text.hasPlain_ne_newline hsymbols.over.name ?_)
  exact ⟨entry, negated, arguments, comment, hentry,
    fun argument hargument => Text.over_ne_newline.mpr (harguments argument hargument),
    fun _ _ _ _ => id, rfl⟩

theorem Action.Says.newline_notMem (hsymbols : symbols.Made Entry.IsRead)
    (h : Says symbols (fun argument => '\n' ∉ argument) text) : '\n' ∉ text := by
  obtain ⟨entry, actor, arguments, comment, hentry, hactor, harguments, rfl⟩ := h
  refine Text.over_ne_newline.mp (Tells.over Text.hasPlain_ne_newline hsymbols.over.name ?_)
  exact ⟨entry, actor, arguments, comment, hentry, Text.over_ne_newline.mpr hactor,
    fun argument hargument => Text.over_ne_newline.mpr (harguments argument hargument),
    fun _ _ _ _ => id, rfl⟩

end

abbrev Reader.Makes (P : α → Prop) (reader : Reader α) : Prop :=
  reader.Ends Lexeme.OneLine P DecodeError.OneLine

def OneLines (lines : List SourceLine) : Prop := ∀ line ∈ lines, '\n' ∉ line.text

theorem Decompiler.makes_script {decompiler : Decompiler}
    (hsymbols : decompiler.symbols.Made Entry.IsRead) (hindent : '\n' ∉ decompiler.indent) :
    Makes OneLines decompiler.script := by
  intro ls hls
  have hframe := frame_over Text.hasPlain_ne_newline hsymbols.over
    (Text.over_ne_newline.mpr hindent)
  have hends := hframe.ends_script ls fun l hl => Text.over_ne_newline.mpr (hls l hl)
  refine hends.mono (fun lines h line hline => Text.over_ne_newline.mp (h line hline)) ?_
  rintro (damage | abort) h
  · exact h.elim
  · trivial

end InfinityScript
