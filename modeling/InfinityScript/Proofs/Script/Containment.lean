import InfinityScript.Proofs.Script.DecodedLines
import InfinityScript.Proofs.Script.Joined

/-!
# Damage stays in its block

A block whose sections are closed is read to its own closing marker, whatever stands
inside the sections: no reader gets past the end of its section, and where one fails
the closing marker of the block is still to come (`Decompiler.contained_block`). So
blocks are decompiled as each is by itself.
-/

namespace InfinityScript

open Reader

-- --------------------
-- Readers that stay within lexemes
-- --------------------

/-- Before `stop` the reader ends without having read it, and leaves lexemes of `P`
unless it fails. -/
def Reader.Within (reader : Reader α) (ls : List Lexeme) (stop : Lexeme)
    (P : List Lexeme → Prop) : Prop :=
  ∃ result left, left <:+ ls ∧ (∀ value, result = .ok value → P left) ∧
    ∀ rest, reader.parse (ls ++ stop :: rest) = (result, left ++ stop :: rest)

theorem Reader.Within.bind {reader : Reader α} {next : α → Reader β}
    (h : reader.Within ls stop P)
    (hnext : ∀ value left, left <:+ ls → P left → (next value).Within left stop Q) :
    (reader >>= next).Within ls stop Q := by
  obtain ⟨result, left, hleft, hP, hparse⟩ := h
  cases result with
  | error error =>
    refine ⟨.error error, left, hleft, nofun, fun rest => ?_⟩
    rw [parse_bind_error (hparse rest)]
  | ok value =>
    obtain ⟨result, left', hleft', hQ, hparse'⟩ := hnext value left hleft (hP value rfl)
    refine ⟨result, left', hleft'.trans hleft, hQ, fun rest => ?_⟩
    rw [parse_bind_ok (hparse rest), hparse']

theorem Reader.Within.mono {reader : Reader α} (h : reader.Within ls stop P)
    (hPQ : ∀ left, P left → Q left) : reader.Within ls stop Q := by
  obtain ⟨result, left, hleft, hP, hparse⟩ := h
  exact ⟨result, left, hleft, fun value hvalue => hPQ left (hP value hvalue), hparse⟩

theorem Reader.within_pure (value : α) (h : P ls) :
    (Pure.pure value : Reader α).Within ls stop P :=
  ⟨.ok value, ls, List.suffix_rfl, fun _ _ => h, fun _ => parse_pure value⟩

theorem Reader.within_fail (error : DecodeError) : (fail error : Reader α).Within ls stop P :=
  ⟨.error error, ls, List.suffix_rfl, nofun, fun _ => parse_fail error⟩

theorem Reader.Stepwise.within {reader : Reader α} (h : Stepwise K reader) (hstop : ¬ K stop)
    (ls : List Lexeme) :
    reader.Within ls stop fun left => ∃ taken, ls = taken ++ left ∧ ∀ l ∈ taken, K l := by
  obtain ⟨taken, left, result, rfl, htaken, hparse⟩ := h.stops hstop ls
  exact ⟨result, left, List.suffix_append _ _, fun _ _ => ⟨taken, rfl, htaken⟩, hparse⟩

theorem Reader.Closes.within {reader : Reader α} (h : Closes K m reader) (hstop : ¬ K stop)
    (hm : stop ≠ .marker m) (ls : List Lexeme) :
    reader.Within ls stop fun left => ∃ taken, ls = taken ++ .marker m :: left ∧ ∀ l ∈ taken, K l := by
  rcases h.parse (ls ++ [stop]) with ⟨taken, left, result, hls, htaken, hparse⟩ |
    ⟨taken, left, error, hls, htaken, -, hparse⟩
  · -- The marker stands before `stop`, so what is left ends in it.
    rcases List.eq_nil_or_concat left with rfl | ⟨left, l, rfl⟩
    · exact absurd (List.append_inj' hls rfl).2 (by simpa using hm)
    · rw [List.concat_eq_append, ← List.cons_append, ← List.append_assoc] at hls
      obtain ⟨rfl, hl⟩ := List.append_inj' hls rfl
      obtain rfl := List.singleton_inj.mp hl
      refine ⟨result, left, ?_, fun _ _ => ⟨taken, rfl, htaken⟩, fun rest => ?_⟩
      · exact (List.suffix_cons _ left).trans (List.suffix_append taken _)
      · simpa using hparse rest
  · rcases List.eq_nil_or_concat left with rfl | ⟨left, l, rfl⟩
    · rw [List.append_nil] at hls
      exact absurd (htaken stop (hls ▸ by simp)) hstop
    · rw [List.concat_eq_append, ← List.append_assoc] at hls
      obtain ⟨rfl, hl⟩ := List.append_inj' hls rfl
      obtain rfl := List.singleton_inj.mp hl
      refine ⟨.error error, left, List.suffix_append _ _, nofun, fun rest => ?_⟩
      simpa using hparse (by simp) rest

theorem Reader.parse_skipPast_append (h : .marker m ∉ taken) (rest : List Lexeme) :
    (skipPast (.marker m)).parse (taken ++ .marker m :: rest) = (.ok (), rest) := by
  have hkind : ∀ l ∈ taken, (decide (l.kind ≠ .marker m)) = true := by
    intro l hl
    refine decide_eq_true fun hk => h ?_
    cases l with
    | marker found => exact TokenKind.marker.inj hk ▸ hl
    | _ => cases hk
  rw [parse_skipPast, List.dropWhile_append_of_pos hkind,
    List.dropWhile_cons_of_neg (by simp [Lexeme.kind]), List.tail_cons]

theorem Reader.within_skipPast (hmem : .marker m ∈ ls) :
    (skipPast (.marker m)).Within ls stop fun left =>
      ∃ taken, ls = taken ++ .marker m :: left ∧ .marker m ∉ taken := by
  obtain ⟨taken, left, rfl, htaken⟩ := List.eq_append_cons_of_mem hmem
  refine ⟨.ok (), left, ?_, fun _ _ => ⟨taken, rfl, htaken⟩, fun rest => ?_⟩
  · exact (List.suffix_cons _ left).trans (List.suffix_append _ _)
  · rw [List.append_assoc, List.cons_append, parse_skipPast_append htaken]

/-- The reader reads a section and the marker that closes it, or fails before that
marker. -/
def Reader.Contained (reader : Reader α) (ls : List Lexeme) (m : Marker) (P : α → Prop) : Prop :=
  (∃ value, P value ∧ ∀ rest, reader.parse (ls ++ .marker m :: rest) = (.ok value, rest)) ∨
    ∃ error left, left <:+ ls ∧
      ∀ rest, reader.parse (ls ++ .marker m :: rest) = (.error error, left ++ .marker m :: rest)

theorem Reader.Contained.finish {reader : Reader α} {next : α → Reader β} {f : α → β}
    (h : reader.Contained ls m P) (hnext : ∀ value, P value → next value = Pure.pure (f value)) :
    (reader >>= next).Contained ls m fun _ => True := by
  rcases h with ⟨value, hvalue, hparse⟩ | ⟨error, left, hleft, hparse⟩
  · refine .inl ⟨f value, trivial, fun rest => ?_⟩
    rw [parse_bind_ok (hparse rest), hnext value hvalue, parse_pure]
  · exact .inr ⟨error, left, hleft, fun rest => parse_bind_error (hparse rest)⟩

theorem Reader.Contained.within {reader : Reader α} (h : reader.Contained ls m P)
    (rest : List Lexeme) (stop : Lexeme) :
    reader.Within (ls ++ .marker m :: rest) stop (· = rest) := by
  rcases h with ⟨value, -, hparse⟩ | ⟨error, left, hleft, hparse⟩
  · refine ⟨.ok value, rest, ?_, fun _ _ => rfl, fun more => ?_⟩
    · exact (List.suffix_cons _ rest).trans (List.suffix_append _ _)
    · simpa using hparse (rest ++ stop :: more)
  · refine ⟨.error error, left ++ .marker m :: rest, ?_, nofun, fun more => ?_⟩
    · obtain ⟨taken, rfl⟩ := hleft
      exact ⟨taken, by simp⟩
    · simpa using hparse (rest ++ stop :: more)

/-- A sweep stays within the section that its marker closes when each step does. -/
theorem Reader.contained_sweep {step : σ → Token → Reader σ} {P : List Lexeme → Prop}
    (hstep : ∀ state l ls, l ≠ .marker m → P (l :: ls) →
      (step state (.bare l)).Within ls (.marker m) P)
    {ls : List Lexeme} (hls : .marker m ∉ ls) (hP : P ls) (state : σ) :
    (sweep (some m) step state).Contained ls m fun result => result.2 = true := by
  induction hlen : ls.length using Nat.strongRecOn generalizing ls state with
  | ind n ih =>
    cases ls with
    | nil => exact .inl ⟨(state, true), rfl, fun rest => parse_sweep_closing m step state⟩
    | cons l ls =>
      have hl : l ≠ .marker m := fun e => hls (by simp [e])
      have hclosing : ∀ found ∈ some m, l ≠ .marker found := fun _ h => Option.some.inj h ▸ hl
      obtain ⟨result, left, hleft, hPleft, hparse⟩ := hstep state l ls hl hP
      cases result with
      | error error =>
        exact .inr ⟨error, left, hleft.trans (List.suffix_cons _ _), fun rest =>
          parse_sweep_error hclosing (hparse rest)⟩
      | ok state' =>
        have hlt : left.length < n := by
          have := hleft.length_le
          simp only [List.length_cons] at hlen
          omega
        have hnot : .marker m ∉ left := fun hmem => hls (by simp [hleft.subset hmem])
        rcases ih left.length hlt hnot (hPleft state' rfl) state' rfl with
          ⟨state'', hclosed, hsweep⟩ | ⟨error, left', hleft', hsweep⟩
        · refine .inl ⟨state'', hclosed, fun rest => ?_⟩
          rw [List.cons_append, parse_sweep_ok hclosing (hparse rest), hsweep]
        · refine .inr ⟨error, left', (hleft'.trans hleft).trans (List.suffix_cons _ _),
            fun rest => ?_⟩
          rw [List.cons_append, parse_sweep_ok hclosing (hparse rest), hsweep]

-- --------------------
-- Sections
-- --------------------

/-- Within a condition, a trigger is read to the marker that closes it. Markers stand
in pairs, so that there is one even when the opcode is unknown and all up to the
next is skipped. -/
theorem Trigger.within_decode (symbols : Symbols) (profile : Profile) {ls : List Lexeme}
    (hodd : ls.count (.marker .trigger) % 2 = 1) :
    (Trigger.decode symbols profile).Within ls (.marker .condition)
      fun left => left.count (.marker .trigger) % 2 = 0 := by
  have hnumber : Stepwise (fun l => ∃ n, l = .number n) number := .number fun n => ⟨n, rfl⟩
  refine (hnumber.within (by simp) ls).bind fun opcode rest _ hrest => ?_
  obtain ⟨taken, rfl, htaken⟩ := hrest
  have hodd' : rest.count (.marker .trigger) % 2 = 1 := by
    have hzero : taken.count (.marker .trigger) = 0 := List.count_eq_zero_of_not_mem fun hmem => by
      obtain ⟨n, hn⟩ := htaken _ hmem
      cases hn
    rwa [List.count_append, hzero, Nat.zero_add] at hodd
  have heven : ∀ taken left : List Lexeme, rest = taken ++ .marker .trigger :: left →
      .marker .trigger ∉ taken → left.count (.marker .trigger) % 2 = 0 := by
    rintro taken left rfl htaken
    rw [List.count_append, List.count_eq_zero_of_not_mem htaken, List.count_cons_self] at hodd'
    omega
  split
  · next entry n _ =>
    refine ((Trigger.closes_read symbols profile entry n).within (by simp [Lexeme.IsField])
      (by simp) rest).mono fun left hleft => ?_
    obtain ⟨taken, hrest, htaken⟩ := hleft
    exact heven taken left hrest fun hmem => by simpa [Lexeme.IsField] using htaken _ hmem
  · have hmem : .marker .trigger ∈ rest := List.count_pos_iff.mp (by omega)
    refine (within_skipPast hmem).bind fun _ left _ hleft => within_pure _ ?_
    obtain ⟨taken, hrest, htaken⟩ := hleft
    exact heven taken left hrest htaken

namespace Decompiler

variable (decompiler : Decompiler)

theorem contained_condition {ls : List Lexeme} (hls : .marker .condition ∉ ls)
    (heven : ls.count (.marker .trigger) % 2 = 0) :
    decompiler.condition.Contained ls .condition fun _ => True := by
  have hsweep : (sweep (some .condition) decompiler.conditionStep
      { lines := [{ text := "IF" }] }).Contained ls .condition fun result => result.2 = true := by
    refine contained_sweep (P := fun ls => ls.count (.marker .trigger) % 2 = 0) ?_ hls heven _
    intro condition l ls _ heven
    unfold conditionStep
    rw [Token.lexeme_bare]
    split
    · next hl =>
      rw [hl, List.count_cons_self] at heven
      refine (Trigger.within_decode _ _ (by omega)).bind fun trigger left _ hleft => ?_
      split
      · exact within_pure _ hleft
      · exact within_fail _
    · next hl => exact within_pure _ (by rwa [List.count_cons_of_ne hl] at heven)
  refine hsweep.finish (f := fun result => result.1.lines) fun result hclosed => ?_
  simp [hclosed]

theorem contained_responseSet {ls : List Lexeme} (hls : .marker .responseSet ∉ ls) :
    decompiler.responseSet.Contained ls .responseSet fun _ => True := by
  have hsweep : (sweep (some .responseSet) decompiler.responseSetStep
      [{ text := "THEN" }]).Contained ls .responseSet fun result => result.2 = true := by
    refine contained_sweep (P := fun _ => True) (fun lines l ls _ _ => ?_) hls trivial _
    exact ((decompiler.stepwise_responseSetStep lines (.bare l)).within
      (by simp [IsResponsePart, Lexeme.IsField]) ls).mono fun _ _ => trivial
  refine hsweep.finish (f := fun result => result.1) fun result hclosed => ?_
  simp [hclosed]

end Decompiler

-- --------------------
-- Blocks
-- --------------------

/-- What stands in a block: conditions and response sets that are closed, with
anything inside but that the markers of triggers stand in pairs, and other lexemes
around them. -/
inductive Sections : List Lexeme → Prop
  | nil : Sections []
  | condition (h : .marker .condition ∉ body)
      (heven : body.count (.marker .trigger) % 2 = 0) (hrest : Sections rest) :
    Sections (.marker .condition :: (body ++ .marker .condition :: rest))
  | responseSet (h : .marker .responseSet ∉ body) (hrest : Sections rest) :
    Sections (.marker .responseSet :: (body ++ .marker .responseSet :: rest))
  | other (hcondition : l ≠ .marker .condition) (hset : l ≠ .marker .responseSet)
      (hrest : Sections rest) : Sections (l :: rest)

def IsBlock (ls : List Lexeme) : Prop :=
  ∃ body, ls = .marker .block :: (body ++ [.marker .block]) ∧ .marker .block ∉ body ∧ Sections body

namespace Decompiler

variable (decompiler : Decompiler)

theorem within_blockStep (lines : List SourceLine) (h : Sections (l :: ls)) :
    (decompiler.blockStep lines (.bare l)).Within ls (.marker .block) Sections := by
  unfold blockStep
  rw [Token.lexeme_bare]
  cases h with
  | condition h heven hrest =>
    refine ((decompiler.contained_condition h heven).within _ _).bind fun _ left _ hleft => ?_
    exact within_pure _ (hleft ▸ hrest)
  | responseSet h hrest =>
    refine ((decompiler.contained_responseSet h).within _ _).bind fun _ left _ hleft => ?_
    exact within_pure _ (hleft ▸ hrest)
  | other hcondition hset hrest =>
    split
    · exact absurd rfl hcondition
    · exact absurd rfl hset
    · exact within_pure _ hrest

theorem contained_block (hls : .marker .block ∉ ls) (h : Sections ls) :
    decompiler.block.Contained ls .block fun _ => True := by
  have hsweep : (sweep (some .block) decompiler.blockStep []).Contained ls .block
      fun result => result.2 = true :=
    contained_sweep (fun lines l ls _ h => decompiler.within_blockStep lines h) hls h []
  exact hsweep.finish fun result _ => rfl

theorem parse_blockOrDamage_sections (hls : .marker .block ∉ ls) (h : Sections ls) :
    (∃ lines, (∀ damage, (decompiler.block.parse (ls ++ [.marker .block])).1 =
          .error (.damage damage) → lines = [.ofDamage damage, { text := [] }]) ∧
        ∀ rest, decompiler.blockOrDamage.parse (ls ++ .marker .block :: rest) =
          (.ok lines, rest)) ∨
      ∃ abort left, ∀ rest, decompiler.blockOrDamage.parse (ls ++ .marker .block :: rest) =
        (.error (.abort abort), left ++ .marker .block :: rest) := by
  rcases decompiler.contained_block hls h with ⟨lines, -, hparse⟩ | ⟨error, left, hleft, hparse⟩
  · refine .inl ⟨lines, fun damage hdamage => ?_, fun rest => ?_⟩
    · rw [hparse] at hdamage
      cases hdamage
    · rw [blockOrDamage, parse_recover, hparse]
  · cases error with
    | damage damage =>
      have hnot : .marker .block ∉ left := fun hmem => hls (hleft.subset hmem)
      refine .inl ⟨[.ofDamage damage, { text := [] }], fun damage' hdamage => ?_, fun rest => ?_⟩
      · rw [hparse] at hdamage
        cases hdamage
        rfl
      rw [blockOrDamage, parse_recover, hparse]
      simp only
      rw [parse_bind_ok (parse_skipPast_append hnot rest), parse_pure]
    | abort abort =>
      refine .inr ⟨abort, left, fun rest => ?_⟩
      rw [blockOrDamage, parse_recover, hparse]

/-- A block adds the same lines wherever it stands in a script, or it ends the script. -/
theorem parse_sweep_isBlock (hblock : IsBlock ls) :
    (∃ lines, (∀ damage, (decompiler.block.parse ls.tail).1 = .error (.damage damage) →
        lines = [.ofDamage damage, { text := [] }]) ∧
      ∀ before rest, (sweep none decompiler.scriptStep before).parse (ls ++ rest) =
        (sweep none decompiler.scriptStep (before ++ lines)).parse rest) ∨
    ∃ abort, ∀ before rest, ∃ left, (sweep none decompiler.scriptStep before).parse (ls ++ rest) =
      (.error (.abort abort), left) := by
  obtain ⟨body, rfl, hbody, hsections⟩ := hblock
  have hbody' : ∀ rest, .marker .block :: (body ++ [.marker .block]) ++ rest =
      .marker .block :: (body ++ .marker .block :: rest) := by simp
  have hstep : ∀ before rest, (decompiler.scriptStep before (.bare (.marker .block))).parse rest =
      (decompiler.blockOrDamage >>= fun block => Pure.pure (before ++ block)).parse rest := by
    intro before rest
    rw [scriptStep, Token.lexeme_bare, if_pos rfl]
  rcases decompiler.parse_blockOrDamage_sections hbody hsections with ⟨lines, hdamage, hparse⟩ |
    ⟨abort, left, hparse⟩
  · refine .inl ⟨lines, hdamage, fun before rest => ?_⟩
    rw [hbody']
    refine parse_sweep_ok (by simp) ?_
    rw [hstep, parse_bind_ok (hparse rest), parse_pure]
  · refine .inr ⟨abort, fun before rest => ⟨left ++ .marker .block :: rest, ?_⟩⟩
    rw [hbody']
    exact parse_sweep_error (by simp) ((hstep before _).trans (parse_bind_error (hparse rest)))

/-- A block is decompiled in the same way by itself and among others; one that fails
midway leaves only the line that says so. -/
theorem parse_sweep_block (hblock : IsBlock ls) (h : (decompiler.script.parse ls).1 = .ok lines) :
    (∀ damage, (decompiler.block.parse ls.tail).1 = .error (.damage damage) →
      lines = [.ofDamage damage, { text := [] }]) ∧
    ∀ before rest, (sweep none decompiler.scriptStep before).parse (ls ++ rest) =
      (sweep none decompiler.scriptStep (before ++ lines)).parse rest := by
  rcases decompiler.parse_sweep_isBlock hblock with ⟨block, hdamage, hsweep⟩ | ⟨abort, hsweep⟩
  · have hok := (hsweep [] []).trans (parse_sweep_nil ..)
    rw [List.append_nil] at hok
    rw [script, parse_bind_ok hok, parse_pure] at h
    obtain rfl : block = lines := by simpa using h
    exact ⟨hdamage, hsweep⟩
  · obtain ⟨left, herror⟩ := hsweep [] []
    rw [List.append_nil] at herror
    rw [script, parse_bind_error herror] at h
    cases h

theorem parse_script_blocks {blocks : List (List Lexeme × List SourceLine)}
    (hblocks : ∀ block ∈ blocks, IsBlock block.1 ∧ (decompiler.script.parse block.1).1 = .ok block.2) :
    (decompiler.script.parse (.marker .script :: (blocks.flatMap Prod.fst ++ [.marker .script]))).1 =
      .ok (blocks.flatMap Prod.snd) := by
  have hsweep : ∀ before, (sweep none decompiler.scriptStep before).parse
      (blocks.flatMap Prod.fst ++ [.marker .script]) =
        (.ok (before ++ blocks.flatMap Prod.snd, false), []) := by
    induction blocks with
    | nil =>
      intro before
      show (sweep none decompiler.scriptStep before).parse [.marker .script] = _
      rw [parse_sweep_ok (by simp) (scriptStep_script _), parse_sweep_nil]
      simp
    | cons block blocks ih =>
      intro before
      obtain ⟨hblock, hlines⟩ := hblocks block (by simp)
      rw [List.flatMap_cons, List.append_assoc, (decompiler.parse_sweep_block hblock hlines).2,
        ih fun b hb => hblocks b (by simp [hb]), List.flatMap_cons, List.append_assoc]
  have hscript : (sweep none decompiler.scriptStep []).parse
      (.marker .script :: (blocks.flatMap Prod.fst ++ [.marker .script])) =
        (.ok (blocks.flatMap Prod.snd, false), []) := by
    rw [parse_sweep_ok (by simp) (scriptStep_script _), hsweep, List.nil_append]
  rw [script, parse_bind_ok hscript, parse_pure]

end Decompiler

-- --------------------
-- Scripts
-- --------------------

theorem word_mem_lexemes (h : .word shown ∈ lexemes code) : '\n' ∉ shown := by
  obtain ⟨⟨lexeme, span⟩, hpiece, rfl⟩ := List.mem_map.mp h
  have hspells : (Lexeme.word shown).Spells span := (spells_of_mem_pieces hpiece).1
  intro hmem
  cases hspells with
  | word hvisible => exact absurd (hvisible _ hmem) (by decide)

theorem oneLine_lexemes
    (h : ∀ token ∈ tokenize code, ∀ text,
      token.lexeme = .string text ∨ token.lexeme = .coordinate text → '\n' ∉ text) :
    ∀ l ∈ lexemes code, l.OneLine := by
  intro l hl
  obtain ⟨token, htoken, htext⟩ := List.mem_map.mp (map_lexeme_tokenize code ▸ hl)
  cases l with
  | marker m => exact (TokenKind.marker m).newline_notMem_name
  | number n => exact Text.newline_notMem_ofInt n
  | string text => exact h token htoken text (.inl htext)
  | coordinate text => exact h token htoken text (.inr htext)
  | word text => exact word_mem_lexemes hl

theorem Token.newline_notMem {token : Token} (h : '\n' ∉ token.lexeme.text)
    (htext : token.lexeme = .string text ∨ token.lexeme = .coordinate text) : '\n' ∉ text := by
  rcases htext with htext | htext
  · rwa [htext] at h
  · rwa [htext] at h

namespace Decompiler

variable {decompiler : Decompiler}

theorem exists_blockLines {parts : List Text} {alone : List Decompiled}
    (halone : parts.mapM (decompiler.decompile · true) = .ok alone)
    (hblocks : ∀ part ∈ parts, IsBlock (lexemes part)) :
    ∃ blocks : List (List Lexeme × List SourceLine),
      (∀ block ∈ blocks, IsBlock block.1 ∧ (decompiler.script.parse block.1).1 = .ok block.2) ∧
      blocks.map Prod.fst = parts.map lexemes ∧
      alone = (blocks.map Prod.snd).map (.ofLines true) := by
  refine Outcome.exists_pairs_of_mapM halone fun part hpart first hfirst => ?_
  obtain ⟨-, lines, hlines, rfl⟩ := Decompiler.decompile_eq_ok_iff.mp hfirst
  exact ⟨lines, ⟨hblocks part hpart, hlines⟩, rfl⟩

end Decompiler

/-- Each block of a script is decompiled as by itself, whatever damage the others have:
their sources follow one another, they use what each of them uses, and the diagnostics
of a block are those of its own source, moved down by the lines before it. A block that
fails midway leaves only the line that says so. -/
theorem decompile_blocks {decompiler : Decompiler} (hsymbols : decompiler.symbols.IsRead)
    (hindent : '\n' ∉ decompiler.indent) {parts : List Text} {alone : List Decompiled}
    (hblocks : ∀ part ∈ parts, IsBlock ((tokenize part).map Token.lexeme))
    (hnewline : ∀ part ∈ parts, ∀ token ∈ tokenize part, ∀ text,
      token.lexeme = .string text ∨ token.lexeme = .coordinate text → '\n' ∉ text)
    (halone : parts.mapM (decompiler.decompile · true) = .ok alone)
    (hcode : readTokens code = .ok tokens)
    (htokens : tokens.map Token.lexeme = .marker .script ::
      (parts.flatMap (fun part => (tokenize part).map Token.lexeme) ++ [.marker .script])) :
    (∀ part ∈ parts, ∀ damage collect log log' left,
      (Pass.block decompiler).run collect log (tokenize part).tail =
          (.error (.damage damage), log', left) →
        decompiler.decompile part true = .ok (.ofLines true [.ofDamage damage, { text := [] }])) ∧
    ∃ whole, decompiler.decompile code true = .ok whole ∧
      whole.source = alone.flatMap Decompiled.source ∧
      (∀ name, name ∈ whole.resources ↔ ∃ part ∈ alone, name ∈ part.resources) ∧
      (∀ number, number ∈ whole.stringRefs ↔ ∃ part ∈ alone, number ∈ part.stringRefs) ∧
      ∀ (line : Int) message, whole.diagnostics[line]? = some message ↔
        ∃ before part after, alone = before ++ part :: after ∧
          part.diagnostics[line - (before.flatMap Decompiled.source).count '\n']? =
            some message := by
  simp only [map_lexeme_tokenize] at hblocks htokens
  obtain ⟨blocks, hall, hlexemes, rfl⟩ := Decompiler.exists_blockLines halone hblocks
  obtain ⟨rfl, hlegible⟩ := readTokens_eq_ok_iff.mp hcode
  have hflat : parts.flatMap lexemes = blocks.flatMap Prod.fst := by
    rw [List.flatMap_def, ← hlexemes, List.flatMap_def]
  rw [map_lexeme_tokenize, hflat] at htokens
  have hwhole : decompiler.decompile code true = .ok (.ofLines true (blocks.map Prod.snd).flatten) := by
    refine Decompiler.decompile_eq_ok_iff.mpr ⟨hlegible, _, ?_, rfl⟩
    rw [htokens, decompiler.parse_script_blocks hall, List.flatMap_def]
  have hlines : ∀ lines ∈ blocks.map Prod.snd, OneLines lines := by
    intro lines hmem
    obtain ⟨block, hblock, rfl⟩ := List.mem_map.mp hmem
    have hmakes := Decompiler.makes_script hsymbols.made hindent block.1
    rw [(hall block hblock).2] at hmakes
    refine hmakes ?_
    have hpart : block.1 ∈ parts.map lexemes := hlexemes ▸ List.mem_map_of_mem hblock
    obtain ⟨part, hpart, heq⟩ := List.mem_map.mp hpart
    rw [← heq]
    exact oneLine_lexemes (hnewline part hpart)
  refine ⟨fun part hpart damage collect log log' left hpass => ?_, _, hwhole, Decompiled.source_flatten true _,
    fun name => Decompiled.exists_line_flatten (U := fun d => name ∈ d.resources)
      (fun _ => Decompiled.mem_resources) _,
    fun number => Decompiled.exists_line_flatten (U := fun d => number ∈ d.stringRefs)
      (fun _ => Decompiled.mem_stringRefs) _,
    fun line _ => Decompiled.getElem?_diagnostics_flatten hlines line⟩
  obtain ⟨d, -, hd⟩ : ∃ d ∈ (blocks.map Prod.snd).map (Decompiled.ofLines true), .ok d =
      decompiler.decompile part true := by
    have hmem : decompiler.decompile part true ∈ parts.map (decompiler.decompile · true) :=
      List.mem_map_of_mem hpart
    rw [Outcome.mapM_ok.mp halone] at hmem
    exact List.mem_map.mp hmem
  obtain ⟨-, lines, hparse, rfl⟩ :=
    Decompiler.decompile_eq_ok_iff.mp hd.symm
  have hfails := (decompiler.positionless_block (tokenize part).tail).1
  rw [(Pass.follows_block decompiler []).read_error hpass, List.map_tail, map_lexeme_tokenize] at hfails
  rw [← hd, (decompiler.parse_sweep_block (hblocks part hpart) hparse).1 damage hfails.symm]

/-- A block that fails in its response set, after a trigger that is skipped, before one that is
read. -/
theorem decompile_blocks_sample :
    let decompiler : Decompiler :=
      ⟨.build [(Table.read "TRIGGER" "0x4023 True()").value] [] [] [] none, .ofGame .none, " "⟩
    let damaged : Text := "CR CO TR 99 \"x\" TR CO RS RE AC RE RS CR "
    let sound : Text := "CR CO CO 7 RS RE 5 RE RS CR "
    let code : Text := "SC " ++ damaged ++ sound ++ "SC"
    ∃ whole, decompiler.decompile code true = .ok whole ∧
      whole.source =
        "Error - Expected NUMBER but found `AC`\n\nIF\nTHEN\n RESPONSE #5\nEND\n\n".toList ∧
      whole.diagnostics[(1 : Int)]? = some "Expected NUMBER but found `AC`".toList := by
  intro decompiler damaged sound code
  have hsymbols : decompiler.symbols.IsRead :=
    ⟨_, _, _, _, _, rfl, fun table hmem => ⟨_, _, List.mem_singleton.mp hmem⟩⟩
  have hdamaged : Sections [.marker .condition, .marker .trigger, .number 99, .string "\"x\"",
      .marker .trigger, .marker .condition, .marker .responseSet, .marker .response,
      .marker .action, .marker .response, .marker .responseSet] :=
    @Sections.condition [.marker .trigger, .number 99, .string "\"x\"", .marker .trigger] _
      (by decide) (by decide)
      (@Sections.responseSet [.marker .response, .marker .action, .marker .response] _
        (by decide) .nil)
  have hsound : Sections [.marker .condition, .marker .condition, .number 7, .marker .responseSet,
      .marker .response, .number 5, .marker .response, .marker .responseSet] :=
    @Sections.condition [] _ (by decide) (by decide)
      (.other (by decide) (by decide)
        (@Sections.responseSet [.marker .response, .number 5, .marker .response] _
          (by decide) .nil))
  have hblocks : ∀ part ∈ [damaged, sound], IsBlock ((tokenize part).map Token.lexeme) := by
    simp only [List.mem_cons, List.not_mem_nil, or_false]
    rintro part (rfl | rfl)
    · exact ⟨_, by decide +kernel, by decide, hdamaged⟩
    · exact ⟨_, by decide +kernel, by decide, hsound⟩
  have hnewline : ∀ part ∈ [damaged, sound], ∀ token ∈ tokenize part, ∀ text,
      token.lexeme = .string text ∨ token.lexeme = .coordinate text → '\n' ∉ text := by
    have hfree : ∀ part ∈ [damaged, sound], ∀ token ∈ tokenize part, '\n' ∉ token.lexeme.text := by
      decide +kernel
    exact fun part hpart token htoken text => Token.newline_notMem (hfree part hpart token htoken)
  obtain ⟨alone, halone, halone'⟩ := Outcome.exists_of_any (by decide +kernel :
    ([damaged, sound].mapM (decompiler.decompile · true)).toOption.any fun alone =>
      alone.flatMap Decompiled.source =
        "Error - Expected NUMBER but found `AC`\n\nIF\nTHEN\n RESPONSE #5\nEND\n\n".toList &&
      alone.head?.any fun d => d.diagnostics[(1 : Int)]? = some "Expected NUMBER but found `AC`".toList)
  obtain ⟨tokens, hcode, htokens⟩ := Outcome.exists_of_any (by decide +kernel :
    (readTokens code).toOption.any fun tokens => tokens.map Token.lexeme = .marker .script ::
      ([damaged, sound].flatMap (fun part => (tokenize part).map Token.lexeme) ++
        [.marker .script]))
  obtain ⟨-, whole, hwhole, hsource, -, -, hdiagnostics⟩ := decompile_blocks hsymbols (by decide)
    hblocks hnewline halone hcode (of_decide_eq_true htokens)
  obtain ⟨hsources, hfirst⟩ := Bool.and_eq_true_iff.mp halone'
  refine ⟨whole, hwhole, hsource.trans (of_decide_eq_true hsources), ?_⟩
  cases alone with
  | nil => cases hfirst
  | cons first rest =>
    refine (hdiagnostics 1 _).mpr ⟨[], first, rest, rfl, ?_⟩
    rw [List.flatMap_nil, List.count_nil, Int.ofNat_zero, Int.sub_zero]
    exact of_decide_eq_true hfirst

end InfinityScript
