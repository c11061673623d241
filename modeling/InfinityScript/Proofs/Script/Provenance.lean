import Mathlib.Data.List.Basic
import InfinityScript.Proofs.File.Writing
import InfinityScript.Proofs.Script.DecodedChars
import InfinityScript.Proofs.Script.EncodedChars
import InfinityScript.Script.Loaded

/-!
# Where the characters of output come from

Compiled code and decompiled source are made of ASCII, of the characters of what was
compiled or decompiled, and of what the symbols show (`output_characters`). What comes from
texts of the codepage is therefore written as a whole. The names of tables are an exception:
a placeholder tells them in upper case, and that may leave the codepage (`toFile_truncates`).
-/

namespace InfinityScript

open Reader Text

variable {K : Char → Prop} {symbols : Symbols}

theorem Text.subset_of_mem_physicalLines (h : line ∈ physicalLines text) : line ⊆ text := by
  unfold physicalLines at h
  dsimp only at h
  split at h
  · exact subset_of_mem_splitOn (List.dropLast_subset _ h)
  · exact subset_of_mem_splitOn h

def Source.chars : Source → Text
  | .text whole => whole
  | .lines pieces => pieces.flatten

theorem Source.subset_chars (source : Source) :
    ∀ line ∈ source.physicalLines, line ⊆ source.chars := by
  intro line hline
  cases source with
  | text whole => exact subset_of_mem_physicalLines hline
  | lines pieces => exact fun c hc => List.mem_flatten.mpr ⟨line, hline, hc⟩

/-- A character that the symbols can give to decompiled source. -/
inductive Symbols.Shows (symbols : Symbols) (c : Char) : Prop
  | name (h : symbols.HasId table entry) (hc : c ∈ entry.name)
  | parameters (h : symbols.HasId table entry) (hparameters : entry.parameters = some parameters)
      (hc : c ∈ parameters)
  | string {number : Int} (h : symbols.string? number = some text) (hc : c ∈ text)
  | description (h : symbols.description? resource = some text) (hc : c ∈ text)

theorem Comment.ends_spellNames (symbols : Symbols) (text : Text) :
    Outcome.Ends (fun names => ∀ name ∈ names, ∃ entry, symbols.HasId "SPELL.IDS" entry ∧
      entry.name = name) (fun _ => True) (spellNames symbols text) := by
  fun_induction spellNames symbols text with
  | case1 => trivial
  | case2 a b c d rest chunk hdigits number hnumber ih =>
    refine ih.bind fun others hothers name hname => ?_
    rcases List.mem_append.mp hname with hname | hname
    · obtain ⟨entry, hentry, rfl⟩ := Option.map_eq_some_iff.mp (Option.mem_toList.mp hname)
      exact ⟨entry, ⟨number, .inl hentry⟩, rfl⟩
    · exact hothers name hname
  | case3 => exact fun _ hname => absurd hname List.not_mem_nil
  | case4 => exact fun _ hname => absurd hname List.not_mem_nil

theorem Symbols.over_of_shows (hK : HasPlain K) (h : ∀ c, symbols.Shows c → K c) :
    symbols.Over K where
  name table entry hentry c hc := h c (.name hentry hc)
  parameters table entry hentry parameters hparameters c hc :=
    h c (.parameters hentry hparameters hc)
  told := {
    description := fun resource text htext c hc _ => h c (.description htext hc)
    string := fun number text htext c hc _ => h c (.string htext hc)
    spells := by
      intro value text htext
      obtain ⟨names, hnames, htext⟩ := Outcome.bind_ok.mp htext
      have htext := Outcome.pure_ok.mp htext
      split at htext
      · cases htext
      · obtain rfl := Option.some.inj htext
        refine over_join (fun c hc _ => hK.over (by decide : ", ".toList.all isPlain) c hc) ?_
        intro name hname c hc _
        obtain ⟨entry, hentry, rfl⟩ := (Comment.ends_spellNames _ _).of_ok hnames name hname
        exact h c (.name hentry hc) }

theorem Decompiler.over_decompile {decompiler : Decompiler} (hK : HasLines K)
    (hsymbols : ∀ c, decompiler.symbols.Shows c → K c) (hindent : Over K decompiler.indent)
    (hcode : Over K code) (h : decompiler.decompile code collect = .ok decompiled) :
    Over K decompiled.source := by
  obtain ⟨-, lines, hlines, rfl⟩ := Decompiler.decompile_eq_ok_iff.mp h
  have hframe := frame_over hK.plain (Symbols.over_of_shows hK.plain hsymbols) hindent
  have hends := hframe.ends_script (lexemes code) fun l hl => over_of_mem_lexemes hK.plain hcode hl
  have hover : ∀ line ∈ lines, Over K line.text := hends.of_ok hlines
  refine over_flatMap fun text htext => over_append.mpr ⟨?_, hK.over (by decide)⟩
  obtain ⟨line, hline, rfl⟩ := List.mem_map.mp htext
  exact hover line hline

theorem Text.hasLines_of_ascii (h : ∀ c : Char, c.toNat < 128 → K c) : HasLines K where
  plain c hc := by
    simp only [isPlain, Bool.and_eq_true, decide_eq_true_eq] at hc
    exact h c (by omega)
  newline := h '\n' (by decide)

/-- The symbols have been built from tables that were read from texts of the codepage, with
no strings and no descriptions. -/
def Symbols.IsCoded (symbols : Symbols) : Prop :=
  ∃ tables resources scriptNames, symbols = .build tables resources [] [] scriptNames ∧
    ∀ table ∈ tables, ∃ name text, table = (Table.read name text).value ∧ text.IsCoded

structure Entry.IsCoded (entry : Entry) : Prop where
  name : entry.name.IsCoded
  parameters : ∀ parameters ∈ entry.parameters, parameters.IsCoded

theorem Symbols.isCoded_read {text : Text} (h : text.IsCoded) (name : Text) :
    (Symbols.build [(Table.read name text).value] [] [] [] none).IsCoded :=
  ⟨_, _, _, rfl, fun _ hmem => ⟨name, text, List.mem_singleton.mp hmem, h⟩⟩

namespace Symbols.IsCoded

theorem made (h : symbols.IsCoded) : symbols.Made Entry.IsCoded := by
  obtain ⟨tables, _, _, rfl, htables⟩ := h
  refine made_build (fun table hmem => ?_) _ _ _ _
  obtain ⟨name, text, rfl, htext⟩ := htables table hmem
  refine Table.made_read_of name fun line hline entry hentry => ?_
  obtain ⟨hname, hparameters, -⟩ := Entry.read?_ok hentry
  have hline : statement line ⊆ text := fun c hc =>
    subset_of_mem_displayLines hline (statement_subset line hc)
  have hcoded : ∀ part ⊆ statement line, part.IsCoded := fun part hpart =>
    isCoded_iff.mpr ((isCoded_iff.mp htext).of_subset fun c hc => hline (hpart hc))
  exact ⟨hcoded _ hname, fun parameters hsome => hcoded _ (hparameters parameters hsome)⟩

theorem has_of_shows (h : symbols.IsCoded) (hc : symbols.Shows c) : Codepage.Has c := by
  cases hc with
  | name hentry hc => exact isCoded_iff.mp (h.made.hasId hentry).name c hc
  | parameters hentry hparameters hc =>
    exact isCoded_iff.mp ((h.made.hasId hentry).parameters _ hparameters) c hc
  | string htext hc =>
    obtain ⟨tables, _, _, rfl, -⟩ := h
    simp [Symbols.string?, Symbols.build] at htext
  | description htext hc =>
    obtain ⟨tables, _, _, rfl, -⟩ := h
    simp [Symbols.description?, Symbols.build, Symbols.lastValues] at htext

theorem declares (h : symbols.IsCoded) (htables : symbols.NamesTables Text.IsCoded) (game : Game) :
    symbols.Declares Codepage.Has (.ofGame game) where
  parameters table name entry hentry := by
    cases hsome : entry.parameters with
    | none => exact over_nil
    | some parameters => exact isCoded_iff.mp ((h.made.byName? hentry).parameters parameters hsome)
  tables table name entry signature hentry hsignature parameter hmem named hnamed :=
    isCoded_iff.mp
      (htables table name entry signature hentry hsignature parameter hmem named hnamed)
  objectTables table htable := by
    have hplain : ∀ game, ∀ table ∈ (Profile.ofGame game).objectTables, table.all isPlain := by
      intro game
      cases game <;> decide +kernel
    exact (hasLines_of_ascii fun _ => Codepage.has_of_ascii).plain.over (hplain game table htable)

end Symbols.IsCoded

theorem SourceScript.load_ok {before script : SourceScript} {text : Text}
    (h : (load symbols text).run.run before = (.ok (), script)) :
    ∃ compiled, compile symbols before.settings.profile (.text text) = .ok compiled ∧
      script.code = compiled.code ∧ script.errors = compiled.errors := by
  rw [load, Run.modify_bind, Run.get_bind] at h
  dsimp only at h
  split at h
  · next compiled hcompile =>
    cases h
    exact ⟨compiled, hcompile, rfl, rfl⟩
  · cases h

theorem CompiledScript.load_ok {before script : CompiledScript} {text : Text}
    (h : (load symbols text).run.run before = (.ok (), script)) :
    ∃ decompiled, Decompiler.decompile ⟨symbols, before.settings.profile, before.settings.indent⟩
        text true = .ok decompiled ∧ script.source = decompiled.source := by
  rw [load, Run.modify_bind, Run.get_bind] at h
  dsimp only at h
  split at h
  · next decompiled hdecompile =>
    cases h
    exact ⟨decompiled, hdecompile, rfl⟩
  · cases h

/-- Code that was compiled without an error, or with tables of the codepage, is of the codepage
as its source is. -/
theorem SourceScript.isCoded_code {before script : SourceScript} {text : Text}
    (hsymbols : symbols.IsCoded) (htext : text.IsCoded)
    (h : (load symbols text).run.run before = (.ok (), script))
    (hclean : script.errors.isEmpty ∨ symbols.NamesTables Text.IsCoded) :
    script.code.IsCoded := by
  obtain ⟨compiled, hcompile, hcode, herrors⟩ := load_ok h
  rw [herrors] at hclean
  rw [hcode]
  refine isCoded_iff.mpr (over_compile (hasLines_of_ascii fun _ => Codepage.has_of_ascii)
    (fun line hline => ?_) hcompile ?_)
  · exact (isCoded_iff.mp htext).of_subset ((Source.text text).subset_chars line hline)
  · exact hclean.symm.imp_left fun htables => hsymbols.declares htables before.settings.game

theorem Outline.code_ne_nil (length : Nat) (blocks : List (Block Encoded)) (stray : Option Nat) :
    (code length blocks stray).value ≠ [] := by
  cases stray with
  | none => exact List.cons_ne_nil _ _
  | some line => exact List.cons_ne_nil _ _

theorem SourceScript.code_ne_nil {before script : SourceScript} {text : Text}
    (h : (load symbols text).run.run before = (.ok (), script)) : script.code ≠ [] := by
  obtain ⟨compiled, hcompile, hcode, -⟩ := load_ok h
  rw [hcode]
  obtain ⟨_, -, hcompile⟩ := Outcome.bind_ok.mp hcompile
  obtain ⟨blocks, -, hcompile⟩ := Outcome.bind_ok.mp hcompile
  obtain rfl := Outcome.pure_ok.mp hcompile
  exact Outline.code_ne_nil _ _ _

theorem CompiledScript.isCoded_source {before script : CompiledScript} {text : Text}
    (hsymbols : symbols.IsCoded) (htext : text.IsCoded) (hindent : before.settings.indent.IsCoded)
    (h : (load symbols text).run.run before = (.ok (), script)) : script.source.IsCoded := by
  obtain ⟨decompiled, hdecompile, hsource⟩ := load_ok h
  rw [hsource]
  exact isCoded_iff.mpr (Decompiler.over_decompile
    (hasLines_of_ascii fun _ => Codepage.has_of_ascii) (fun _ => hsymbols.has_of_shows)
    (isCoded_iff.mp hindent) (isCoded_iff.mp htext) hdecompile)

/-- Compiled code without errors is made of ASCII and of the characters of its source;
decompiled source of ASCII, of the characters of its code and indent, and of what the symbols
show. So a script of the codepage, with symbols of the codepage, is written as a whole to any
path that can be written to: from source if it has no error or if the tables that parameters
name keep to the codepage in upper case, and from code in any case. -/
theorem output_characters :
    (∀ symbols profile source compiled, compile symbols profile source = .ok compiled →
      compiled.errors.isEmpty → ∀ c ∈ compiled.code, c.toNat < 128 ∨ c ∈ source.chars) ∧
    (∀ (decompiler : Decompiler) code collect decompiled,
      decompiler.decompile code collect = .ok decompiled → ∀ c ∈ decompiled.source,
        c.toNat < 128 ∨ c ∈ code ∨ c ∈ decompiler.indent ∨ decompiler.symbols.Shows c) ∧
    ∀ symbols : Symbols, symbols.IsCoded → ∀ text : Text, text.IsCoded → ∀ path,
      (∀ before script, (SourceScript.load symbols text).run.run before = (.ok (), script) →
        script.errors.isEmpty ∨ symbols.NamesTables Text.IsCoded →
          Session.WritesWhole path script.code (script.toFile path)) ∧
      ∀ before script, (CompiledScript.load symbols text).run.run before = (.ok (), script) →
        before.settings.indent.IsCoded →
          Session.WritesWhole path script.source (script.toFile path) := by
  refine ⟨?_, ?_, fun symbols hsymbols text htext path => ⟨?_, ?_⟩⟩
  · intro symbols profile source compiled hcompile herrors
    exact over_compile (hasLines_of_ascii fun _ => .inl)
      (fun line hline c hc => .inr (source.subset_chars line hline hc)) hcompile (.inr herrors)
  · intro decompiler code collect decompiled hdecompile
    exact Decompiler.over_decompile (hasLines_of_ascii fun _ => .inl)
      (fun _ hc => .inr (.inr (.inr hc))) (fun _ hc => .inr (.inr (.inl hc)))
      (fun _ hc => .inr (.inl hc)) hdecompile
  · intro before script hload hclean
    rw [SourceScript.toFile, if_neg (SourceScript.code_ne_nil hload)]
    exact Session.writesWhole (SourceScript.isCoded_code hsymbols htext hload hclean) path
  · intro before script hload hindent
    exact Session.writesWhole (CompiledScript.isCoded_source hsymbols htext hindent hload) path

theorem output_characters_accents :
    let symbols : Symbols := .build [(Table.read "TRIGGER" "1 Entrée(S:Clé*)").value] [] [] [] none
    let text : Text := "IF\nEntrée(\"été\")\nTHEN\nEND\n"
    let script := ((SourceScript.load symbols text).run.run { settings := {} }).2
    let back := ((CompiledScript.load symbols script.code).run.run { settings := {} }).2
    (∀ c ∈ script.code, c.toNat < 128 ∨ c ∈ text) ∧ 'é' ∈ script.code ∧
      (∀ c ∈ back.source, c.toNat < 128 ∨ c ∈ script.code ∨ c ∈ ['\t'] ∨ symbols.Shows c) ∧
      back.source = "IF\n\tEntrée(\"été\")\nTHEN\nEND\n\n" ∧
      Session.WritesWhole ["a.bcs"] script.code (script.toFile ["a.bcs"]) ∧
      Session.WritesWhole ["a.baf"] back.source (back.toFile ["a.baf"]) := by
  intro symbols text script back
  have hsymbols : symbols.IsCoded := Symbols.isCoded_read (by decide +kernel) _
  have htext : text.IsCoded := by decide +kernel
  have hscript : (SourceScript.load symbols text).run.run { settings := {} } = (.ok (), script) :=
    Prod.ext (by decide +kernel) rfl
  have hback :
      (CompiledScript.load symbols script.code).run.run { settings := {} } = (.ok (), back) :=
    Prod.ext (by decide +kernel) rfl
  have herrors : script.errors.isEmpty := by decide +kernel
  have hcode : script.code.IsCoded := by decide +kernel
  obtain ⟨hcompiled, hdecompiled, hwritten⟩ := output_characters
  obtain ⟨compiled, hcompile, hscriptCode, hscriptErrors⟩ := SourceScript.load_ok hscript
  obtain ⟨decompiled, hdecompile, hbackSource⟩ := CompiledScript.load_ok hback
  refine ⟨?_, by decide +kernel, ?_, by decide +kernel, ?_, ?_⟩
  · exact hscriptCode ▸ hcompiled _ _ _ compiled hcompile (hscriptErrors ▸ herrors)
  · exact hbackSource ▸ hdecompiled _ _ _ decompiled hdecompile
  · exact (hwritten symbols hsymbols text htext _).1 _ script hscript (.inl herrors)
  · exact (hwritten symbols hsymbols script.code hcode _).2 _ back hback (by decide +kernel)

/-- The name of a table leaves the codepage in upper case. -/
theorem toFile_truncates :
    let symbols : Symbols := .build [(Table.read "TRIGGER" "1 Foo(I:X*µ)").value] [] [] [] none
    let text : Text := "IF\nFoo(bar)\nTHEN\nEND\n"
    symbols.IsCoded ∧ text.IsCoded ∧
      ∃ script, (SourceScript.load symbols text).run.run { settings := {} } = (.ok (), script) ∧
        ∃ after, (script.toFile ["a.bcs"]).run.run ⟨{}, [], []⟩ =
            (.error (.codepage (.unencodable 'Μ' 39 1)), after) ∧
          after.tree.read ["a.bcs"] = .ok [] := by
  intro symbols text
  refine ⟨Symbols.isCoded_read (by decide +kernel) _, by decide +kernel, _,
    Prod.ext (by decide +kernel) rfl, _, Prod.ext (by decide +kernel) rfl, by decide +kernel⟩

end InfinityScript
