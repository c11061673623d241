import InfinityScript.Proofs.Code.Parse
import InfinityScript.Proofs.Script.Lines

/-!
# Passes and lines

A pass follows a reader of lines (`Pass.Follows`): it leaves the same tokens, makes the source
of the lines, and has counted and recorded as if the lines had been written one after the
other (`Log.writeAll`). What was counted and recorded for a block that is damaged is put back,
so the lines of the block count for nothing. Hence code is decompiled to the source of its
lines, and what is recorded is what the notes say at their places
(`Decompiler.decompileAs_eq`).
-/

namespace InfinityScript

-- --------------------
-- Writing lines into a log
-- --------------------

namespace Log

variable {collect : Bool} {log : Log}

def write (collect : Bool) (log : Log) (line : SourceLine) : Log :=
  { log.note collect line.notes with line := (log.note collect line.notes).line + 1 }

def writeAll (collect : Bool) (log : Log) (lines : List SourceLine) : Log :=
  lines.foldl (write collect) log

theorem writeAll_append (log : Log) (first second : List SourceLine) :
    log.writeAll collect (first ++ second) = (log.writeAll collect first).writeAll collect second :=
  List.foldl_append

theorem writeAll_congr {first second : List SourceLine}
    (h : first.map SourceLine.notes = second.map SourceLine.notes) (log : Log) :
    log.writeAll collect first = log.writeAll collect second := by
  induction first generalizing second log with
  | nil =>
    cases second with
    | nil => rfl
    | cons line second => cases h
  | cons line first ih =>
    cases second with
    | nil => cases h
    | cons other second =>
      obtain ⟨hline, hrest⟩ := List.cons.inj h
      have hwrite : log.write collect line = log.write collect other := by
        simp only [write, hline]
      exact (congrArg (writeAll collect · first) hwrite).trans (ih hrest _)

/-- Where nothing is recorded, lines are only counted. -/
theorem writeAll_silent {lines : List SourceLine}
    (h : collect = false ∨ ∀ line ∈ lines, line.notes = []) (log : Log) :
    log.writeAll collect lines = { log with line := log.line + lines.length } := by
  induction lines generalizing log with
  | nil => simp [writeAll]
  | cons line lines ih =>
    have hwrite : log.write collect line = { log with line := log.line + 1 } := by
      rcases h with rfl | hnotes
      · rfl
      · rw [write, hnotes line List.mem_cons_self]
        cases collect <;> rfl
    have hrest := ih (h.imp_right fun hnotes other hother => hnotes other (List.mem_cons_of_mem _ hother))
    show (log.write collect line).writeAll collect lines = _
    rw [hwrite, hrest, List.length_cons]
    simp [Int.add_assoc, Int.add_comm 1]

theorem writeAll_texts (log : Log) (texts : List Text) :
    log.writeAll collect (texts.map fun text => { text := text }) =
      { log with line := log.line + texts.length } := by
  rw [writeAll_silent (.inr (by simp)), List.length_map]

end Log

namespace Pass

variable {α β σ τ : Type} {pass : Pass α} {collect : Bool} {log : Log} {tokens rest : List Token}

theorem sweepRun_ok {closing : Option Marker} {step : σ → Token → Pass σ} {made made' : σ}
    {token : Token} {log' : Log} {left : List Token}
    (hclosing : ¬ closing.any fun marker => token.lexeme = .marker marker)
    (h : (step made token).run collect log rest = (.ok made', log', left)) :
    sweepRun closing step collect made log (token :: rest) =
      sweepRun closing step collect made' log' left := by
  rw [sweepRun, if_neg hclosing]
  split
  · next hrun =>
    cases hrun.symm.trans h
    rfl
  · next hrun => cases hrun.symm.trans h

theorem sweepRun_error {closing : Option Marker} {step : σ → Token → Pass σ} {made : σ}
    {token : Token} {error : DecodeError} {log' : Log} {left : List Token}
    (hclosing : ¬ closing.any fun marker => token.lexeme = .marker marker)
    (h : (step made token).run collect log rest = (.error error, log', left)) :
    sweepRun closing step collect made log (token :: rest) = (.error error, log', left) := by
  rw [sweepRun, if_neg hclosing]
  split
  · next hrun => cases hrun.symm.trans h
  · next hrun =>
    cases hrun.symm.trans h
    rfl

theorem manyRun_ok {marker : Marker} {token : Token} {value : α} {log' : Log} {left : List Token}
    (hmarker : token.lexeme = .marker marker)
    (h : pass.run collect log rest = (.ok value, log', left)) :
    manyRun marker pass collect log (token :: rest) =
      ((manyRun marker pass collect log' left).1.map (value :: ·),
        (manyRun marker pass collect log' left).2) := by
  rw [manyRun, if_pos hmarker]
  split
  · next hrun =>
    cases hrun.symm.trans h
    rfl
  · next hrun => cases hrun.symm.trans h

theorem manyRun_error {marker : Marker} {token : Token} {error : DecodeError} {log' : Log}
    {left : List Token} (hmarker : token.lexeme = .marker marker)
    (h : pass.run collect log rest = (.error error, log', left)) :
    manyRun marker pass collect log (token :: rest) = (.error error, log', left) := by
  rw [manyRun, if_pos hmarker]
  split
  · next hrun => cases hrun.symm.trans h
  · next hrun =>
    cases hrun.symm.trans h
    rfl

theorem run_recover_ok {handle : DecodeError → Pass α} {value : α} {log' : Log}
    (h : pass.run collect log tokens = (.ok value, log', rest)) :
    (pass.recover handle).run collect log tokens = (.ok value, log', rest) := by
  simp only [recover, h]

theorem run_recover_error {handle : DecodeError → Pass α} {error : DecodeError} {log' : Log}
    (h : pass.run collect log tokens = (.error error, log', rest)) :
    (pass.recover handle).run collect log tokens = (handle error).run collect log' rest := by
  simp only [recover, h]

-- --------------------
-- Source and its lines
-- --------------------

abbrev SpellsLine (text : Text) (line : SourceLine) : Prop := text = line.text

def Spells (pieces : List Text) (lines : List SourceLine) : Prop :=
  pieces.flatten = Text.ofLines (lines.map SourceLine.text)

/-- The lines that stand for damage: a message and so many blank lines. -/
def damageLines (blank : Nat) (damage : Damage) : List SourceLine :=
  .ofDamage damage :: (List.replicate blank []).map fun text => { text := text }

theorem Spells.append {pieces more : List Text} {lines others : List SourceLine}
    (h : Spells pieces lines) (hmore : Spells more others) :
    Spells (pieces ++ more) (lines ++ others) := by
  unfold Spells at *
  rw [List.flatten_append, h, hmore, List.map_append, Text.ofLines, Text.ofLines, Text.ofLines,
    List.flatMap_append]

theorem spells_indented (line : SourceLine) (indent : Text) :
    Spells [indent ++ line.text ++ ['\n']] [line.indented indent] := by
  simp [Spells, Text.ofLines, SourceLine.indented]

theorem spells_damage (damage : Damage) (blank : Nat) :
    Spells ["Error - " ++ damage.message ++ List.replicate (blank + 1) '\n']
      (damageLines blank damage) := by
  have hblank : Text.ofLines (List.replicate blank []) = List.replicate blank '\n' := by
    induction blank with
    | zero => rfl
    | succ blank ih => exact congrArg ('\n' :: ·) ih
  have htexts : (damageLines blank damage).map SourceLine.text =
      (SourceLine.ofDamage damage).text :: List.replicate blank [] := by
    rw [damageLines, List.map_cons, List.map_map]
    exact congrArg (_ :: ·) (List.map_id _)
  rw [Spells, htexts, List.flatten_singleton, Text.ofLines, List.flatMap_cons, ← Text.ofLines, hblank,
    List.replicate_succ, List.append_cons]
  rfl

/-- Whatever has been logged before, the pass writes the lines and leaves the tokens `left`. -/
def Writes (pass : Pass (List Text)) (tokens : List Token) (lines : List SourceLine)
    (left : List Token) : Prop :=
  ∀ collect log, ∃ pieces, Spells pieces lines ∧
    pass.run collect log tokens = (.ok pieces, log.writeAll collect lines, left)

def Fails (pass : Pass α) (tokens : List Token) (error : DecodeError) (left : List Token) : Prop :=
  ∀ collect log, ∃ log', pass.run collect log tokens = (.error error, log', left)

-- --------------------
-- Following a reader
-- --------------------

/-- A pass and a reader come to the same end: they leave the same tokens, and in the log the
lines of the result are written. After an error nothing is said about the log. -/
inductive Tracks (collect : Bool) (log : Log) (rel : α → β → Prop)
    (lines : β → List SourceLine) :
    Except DecodeError α × Log × List Token → Except DecodeError β × List Token → Prop
  | ok {a : α} {b : β} {log' : Log} (rest : List Token) (h : rel a b)
      (hlog : log' = log.writeAll collect (lines b)) :
      Tracks collect log rel lines (.ok a, log', rest) (.ok b, rest)
  | error (error : DecodeError) (log' : Log) (rest : List Token) :
      Tracks collect log rel lines (.error error, log', rest) (.error error, rest)

/-- From any log into which the lines `before` are written, a pass does what a reader does. -/
def Follows (pass : Pass α) (reader : Reader β) (before : List SourceLine) (rel : α → β → Prop)
    (lines : β → List SourceLine) : Prop :=
  ∀ collect log tokens, Tracks collect log rel lines
    (pass.run collect (log.writeAll collect before) tokens) (reader.run tokens)

section Follows

variable {reader : Reader β} {before : List SourceLine} {rel : α → β → Prop}
  {lines : β → List SourceLine}

theorem Follows.exists_run {b : β} {left : List Token} (h : Follows pass reader before rel lines)
    (hread : reader.run tokens = (.ok b, left)) (collect : Bool) (log : Log) :
    ∃ a, rel a b ∧ pass.run collect (log.writeAll collect before) tokens =
      (.ok a, log.writeAll collect (lines b), left) := by
  have hrun := h collect log tokens
  rcases hpass : pass.run collect (log.writeAll collect before) tokens with ⟨_, _, _⟩
  rw [hpass, hread] at hrun
  cases hrun with
  | ok _ hrel hlog => exact ⟨_, hrel, by rw [hlog]⟩

theorem Follows.exists_error {error : DecodeError} {left : List Token}
    (h : Follows pass reader before rel lines) (hread : reader.run tokens = (.error error, left))
    (collect : Bool) (log : Log) :
    ∃ log', pass.run collect (log.writeAll collect before) tokens = (.error error, log', left) := by
  have hrun := h collect log tokens
  rcases hpass : pass.run collect (log.writeAll collect before) tokens with ⟨_, _, _⟩
  rw [hpass, hread] at hrun
  cases hrun with
  | error => exact ⟨_, rfl⟩

theorem Follows.exists_read {a : α} {log' : Log} {left : List Token}
    (h : Follows pass reader before rel lines)
    (hrun : pass.run collect (log.writeAll collect before) tokens = (.ok a, log', left)) :
    ∃ b, rel a b ∧ reader.run tokens = (.ok b, left) ∧ log' = log.writeAll collect (lines b) := by
  have hread := h collect log tokens
  rcases hfound : reader.run tokens with ⟨_, _⟩
  rw [hrun, hfound] at hread
  cases hread with
  | ok _ hrel hlog => exact ⟨_, hrel, rfl, hlog⟩

theorem Follows.read_error {error : DecodeError} {log' : Log} {left : List Token}
    (h : Follows pass reader before rel lines)
    (hrun : pass.run collect (log.writeAll collect before) tokens = (.error error, log', left)) :
    reader.run tokens = (.error error, left) := by
  have hread := h collect log tokens
  rcases hfound : reader.run tokens with ⟨_, _⟩
  rw [hrun, hfound] at hread
  cases hread with
  | error => rfl

theorem follows_pure {a : α} {b : β} (h : rel a b)
    (hlines : before.map SourceLine.notes = (lines b).map SourceLine.notes) :
    Follows (Pure.pure a) (Pure.pure b) before rel lines :=
  fun _ log tokens => .ok tokens h (Log.writeAll_congr hlines log)

theorem follows_throw (error : DecodeError) :
    Follows (throw error : Pass α) (Reader.fail error : Reader β) before rel lines :=
  fun _ _ tokens => .error error _ tokens

theorem follows_reader (reader : Reader α) :
    Follows (liftM reader) reader before Eq fun _ => before := by
  intro collect log tokens
  show Tracks _ _ _ _ ((reader.run tokens).1, _, (reader.run tokens).2) (reader.run tokens)
  rcases reader.run tokens with ⟨outcome, rest⟩
  cases outcome with
  | ok value => exact .ok rest rfl rfl
  | error error => exact .error error _ rest

theorem Follows.bind {next : α → Pass σ} {more : β → Reader τ} {rel' : σ → τ → Prop}
    {lines' : τ → List SourceLine} (h : Follows pass reader before rel lines)
    (hnext : ∀ a b, rel a b → Follows (next a) (more b) (lines b) rel' lines') :
    Follows (pass >>= next) (reader >>= more) before rel' lines' := by
  intro collect log tokens
  rcases hread : reader.run tokens with ⟨error | b, left⟩
  · obtain ⟨log', hpass⟩ := h.exists_error hread collect log
    rw [run_bind_error hpass, Reader.run_bind_error hread]
    exact .error error log' left
  · obtain ⟨a, hrel, hpass⟩ := h.exists_run hread collect log
    rw [run_bind_ok hpass, Reader.run_bind_ok hread]
    exact hnext a b hrel collect log left

theorem Follows.map {f : α → σ} {rel' : σ → β → Prop} (h : Follows pass reader before rel lines)
    (hrel : ∀ a b, rel a b → rel' (f a) b) :
    Follows (pass >>= fun a => Pure.pure (f a)) reader before rel' lines := by
  intro collect log tokens
  rcases hread : reader.run tokens with ⟨error | b, left⟩
  · obtain ⟨log', hpass⟩ := h.exists_error hread collect log
    rw [run_bind_error hpass]
    exact .error error log' left
  · obtain ⟨a, hab, hpass⟩ := h.exists_run hread collect log
    rw [run_bind_ok hpass]
    exact .ok left (hrel a b hab) rfl

theorem Follows.newLines (texts : List Text)
    (h : Follows pass reader (before ++ texts.map fun text => { text := text }) rel lines) :
    Follows (newLines texts.length >>= fun _ => pass) reader before rel lines := by
  intro collect log tokens
  have hpass := h collect log tokens
  rw [Log.writeAll_append, Log.writeAll_texts] at hpass
  exact hpass

theorem follows_sweep {step : σ → Token → Pass σ} {step' : τ → Token → Reader τ}
    {rel : σ → τ → Prop} {lines : τ → List SourceLine}
    (hstep : ∀ a b token, rel a b → Follows (step a token) (step' b token) (lines b) rel lines)
    (closing : Option Marker) (made : σ) (state : τ) (h : rel made state) :
    Follows (sweep closing step made) (Reader.sweep closing step' state) (lines state)
      (fun a b => rel a.1 b.1 ∧ a.2 = b.2) fun b => lines b.1 := by
  intro collect log tokens
  show Tracks _ _ _ _ (sweepRun closing step collect made (log.writeAll collect (lines state)) tokens)
    (Reader.sweepRun closing step' state tokens)
  fun_induction Reader.sweepRun closing step' state tokens generalizing made with
  | case1 state =>
    rw [sweepRun]
    exact .ok [] ⟨h, rfl⟩ rfl
  | case2 state token rest hclosing =>
    rw [sweepRun, if_pos hclosing]
    exact .ok rest ⟨h, rfl⟩ rfl
  | case3 state token rest hclosing state' left hread ih =>
    obtain ⟨made', hrel, hpass⟩ := (hstep made state token h).exists_run hread collect log
    rw [sweepRun_ok hclosing hpass]
    exact ih made' hrel
  | case4 state token rest hclosing error left hread =>
    obtain ⟨log', hpass⟩ := (hstep made state token h).exists_error hread collect log
    rw [sweepRun_error hclosing hpass]
    exact .error error log' left

theorem follows_many {item : Pass Text} {item' : Reader SourceLine}
    (hitem : ∀ before, Follows item item' before SpellsLine fun line => before ++ [line])
    (marker : Marker) :
    Follows (many marker item) (Reader.many marker item') before
      (fun texts lines => texts = lines.map SourceLine.text) fun lines => before ++ lines := by
  intro collect log tokens
  show Tracks _ _ _ _ (manyRun marker item collect (log.writeAll collect before) tokens)
    (Reader.manyRun marker item' tokens)
  fun_induction Reader.manyRun marker item' tokens generalizing before with
  | case1 =>
    rw [manyRun]
    exact .ok [] rfl (by simp)
  | case2 token rest hmarker line left hread values left' hread' ih =>
    obtain ⟨_, rfl, hpass⟩ := (hitem before).exists_run hread collect log
    rw [manyRun_ok hmarker hpass]
    have hrest := @ih (before ++ [line])
    rw [hread'] at hrest
    rcases hmany : manyRun marker item collect (log.writeAll collect (before ++ [line])) left
      with ⟨_, _, _⟩
    rw [hmany] at hrest
    cases hrest with
    | ok _ htexts hlog => exact .ok _ (by rw [htexts, List.map_cons]) (by simpa using hlog)
    | error error => exact .error error _ _
  | case3 token rest hmarker error left hread =>
    obtain ⟨log', hpass⟩ := (hitem before).exists_error hread collect log
    rw [manyRun_error hmarker hpass]
    exact .error error log' left
  | case4 token rest hmarker =>
    rw [manyRun, if_neg hmarker]
    exact .ok (token :: rest) rfl (by simp)

/-- A pass that fails by damage goes on as if nothing had been read, with the lines that stand
for the damage. -/
theorem Follows.orDamage {pass : Pass (List Text)} {rel : List Text → β → Prop}
    (h : Follows pass reader before rel lines) (marker : Marker) {blank : Nat} {spoilt : Damage → β}
    (hrel : ∀ pieces damage, Spells pieces (damageLines blank damage) → rel pieces (spoilt damage))
    (hlines : ∀ damage, lines (spoilt damage) = before ++ damageLines blank damage) :
    Follows (pass.orDamage marker (blank + 1))
      (reader.recover fun damage => do
        Reader.skipPast (.marker marker)
        return spoilt damage) before rel lines := by
  intro collect log tokens
  have hsave : save.run collect (log.writeAll collect before) tokens =
    (.ok (log.writeAll collect before), log.writeAll collect before, tokens) := rfl
  simp only [Pass.orDamage, run_bind_ok hsave, Reader.recover]
  rcases hread : reader.run tokens with ⟨error | b, left⟩
  · obtain ⟨log', hpass⟩ := h.exists_error hread collect log
    rw [run_recover_error hpass]
    cases error with
    | abort abort => exact .error _ _ _
    | damage damage =>
      refine .ok _ (hrel _ damage (spells_damage damage blank)) ?_
      rw [hlines, damageLines, Log.writeAll_append, ← List.singleton_append, Log.writeAll_append,
        Log.writeAll_texts, List.length_replicate]
      have hcount : ∀ line : Int, line + ((blank + 1 : Nat) : Int) = line + 1 + blank := by omega
      cases collect <;> exact congrArg (fun line => Log.mk line _ _ _) (hcount _)
  · obtain ⟨pieces, hb, hpass⟩ := h.exists_run hread collect log
    rw [run_recover_ok hpass]
    exact .ok left hb rfl

end Follows

-- --------------------
-- Records
-- --------------------

variable {decompiler : Decompiler} {before : List SourceLine}

theorem follows_express (x : Expressing Text) :
    Follows (asLine (ofExpressing x)) (Expressing.line x) before SpellsLine
      fun line => before ++ [line] := by
  intro collect log tokens
  have hrun : (ofExpressing x).run collect (log.writeAll collect before) tokens =
    (x.outcome.value, (log.writeAll collect before).note collect x.outcome.notes, tokens) := rfl
  unfold asLine Expressing.line
  rcases hx : x.outcome with ⟨outcome, notes⟩
  rw [hx] at hrun
  cases outcome with
  | ok text =>
    rw [run_bind_ok hrun]
    refine .ok tokens rfl ?_
    rw [Log.writeAll_append]
    rfl
  | error error =>
    rw [run_bind_error hrun]
    exact .error error _ tokens

theorem follows_trigger (decompiler : Decompiler) (before : List SourceLine) :
    Follows (trigger decompiler) (Trigger.decode decompiler.symbols decompiler.profile) before
      SpellsLine fun line => before ++ [line] := by
  unfold trigger Trigger.decode
  refine (follows_reader _).bind ?_
  rintro opcode _ rfl
  cases Trigger.definition? decompiler.symbols opcode with
  | some found =>
    refine (follows_reader _).bind ?_
    rintro record _ rfl
    rw [← failHom.app_triggerM]
    exact follows_express _
  | none =>
    refine (follows_reader _).bind ?_
    rintro _ _ rfl
    intro collect log tokens
    refine .ok tokens rfl ?_
    rw [Log.writeAll_append]
    cases collect <;> rfl

theorem follows_action (decompiler : Decompiler) (before : List SourceLine) :
    Follows (action decompiler) (Action.decode decompiler.symbols decompiler.profile) before
      SpellsLine fun line => before ++ [line] := by
  unfold action Action.decode
  refine (follows_reader _).bind ?_
  rintro record _ rfl
  rw [← failHom.app_actionM]
  exact follows_express _

-- --------------------
-- Blocks
-- --------------------

theorem follows_conditionStep (decompiler : Decompiler) (before : List SourceLine)
    (condition : Condition) (other : Decompiler.Condition) (token : Token)
    (h : Spells condition.pieces other.lines ∧ condition.missing = other.missing) :
    Follows (conditionStep decompiler condition token) (decompiler.conditionStep other token)
      (before ++ other.lines)
      (fun condition other => Spells condition.pieces other.lines ∧ condition.missing = other.missing)
      fun other => before ++ other.lines := by
  obtain ⟨hlines, hmissing⟩ := h
  unfold conditionStep Decompiler.conditionStep
  by_cases htoken : token.lexeme = .marker .trigger
  · rw [if_pos htoken, if_pos htoken]
    refine (follows_trigger decompiler _).bind ?_
    rintro _ line rfl
    unfold Condition.add Decompiler.Condition.add
    rw [hmissing]
    by_cases hopen : other.missing > 0
    · rw [if_pos hopen, if_pos hopen]
      exact follows_pure ⟨hlines.append (spells_indented line _), rfl⟩ (by simp [SourceLine.indented])
    · rw [if_neg hopen, if_neg hopen]
      cases Decompiler.orCount line.text with
      | ok count =>
        exact follows_pure ⟨hlines.append (spells_indented line _), rfl⟩
          (by simp [SourceLine.indented])
      | error fault => exact follows_throw _
  · rw [if_neg htoken, if_neg htoken]
    exact follows_pure ⟨hlines, hmissing⟩ rfl

theorem follows_condition (decompiler : Decompiler) (before : List SourceLine) :
    Follows (condition decompiler) decompiler.condition before Spells fun lines => before ++ lines := by
  unfold condition Decompiler.condition
  refine Follows.newLines ["IF"] ?_
  refine (follows_sweep (follows_conditionStep decompiler before) _ { pieces := ["IF\n"] }
    { lines := [{ text := "IF" }] } ⟨rfl, rfl⟩).bind ?_
  rintro ⟨made, closed⟩ ⟨other, _⟩ ⟨⟨hlines, -⟩, rfl⟩
  cases closed with
  | true => exact follows_pure hlines rfl
  | false => exact follows_throw _

theorem follows_response (decompiler : Decompiler) (before : List SourceLine) :
    Follows (response decompiler) decompiler.response before Spells fun lines => before ++ lines := by
  unfold response Decompiler.response
  refine (follows_reader _).bind ?_
  rintro weight _ rfl
  refine Follows.newLines [decompiler.indent ++ "RESPONSE #" ++ Text.ofInt weight] ?_
  refine (follows_many (follows_action decompiler) .action).bind ?_
  rintro _ actions rfl
  refine (follows_reader _).bind ?_
  rintro _ _ rfl
  refine follows_pure ?_ (by simp [SourceLine.indented])
  simp [Spells, Text.ofLines, SourceLine.indented, List.flatMap, Function.comp_def]

theorem follows_responseSetStep (decompiler : Decompiler) (before : List SourceLine)
    (pieces : List Text) (lines : List SourceLine) (token : Token) (h : Spells pieces lines) :
    Follows (responseSetStep decompiler pieces token) (decompiler.responseSetStep lines token)
      (before ++ lines) Spells fun lines => before ++ lines := by
  unfold responseSetStep Decompiler.responseSetStep
  refine (follows_reader _).bind ?_
  rintro next _ rfl
  unfold Decompiler.responseAt
  split
  · refine (follows_response decompiler _).bind ?_
    intro more others hmore
    exact follows_pure (h.append hmore) (by simp)
  · exact follows_pure h rfl

theorem follows_responseSet (decompiler : Decompiler) (before : List SourceLine) :
    Follows (responseSet decompiler) decompiler.responseSet before Spells
      fun lines => before ++ lines := by
  unfold responseSet Decompiler.responseSet
  refine Follows.newLines ["THEN"] ?_
  refine (follows_sweep (follows_responseSetStep decompiler before) _ _ [{ text := "THEN" }]
    rfl).bind ?_
  rintro ⟨made, closed⟩ ⟨lines, _⟩ ⟨hlines, rfl⟩
  cases closed with
  | true => exact follows_pure hlines rfl
  | false => exact follows_throw _

theorem follows_blockStep (decompiler : Decompiler) (before : List SourceLine)
    (pieces : List Text) (lines : List SourceLine) (token : Token) (h : Spells pieces lines) :
    Follows (blockStep decompiler pieces token) (decompiler.blockStep lines token)
      (before ++ lines) Spells fun lines => before ++ lines := by
  unfold blockStep Decompiler.blockStep
  cases token.lexeme with
  | marker marker =>
    cases marker with
    | condition =>
      refine (follows_condition decompiler _).bind ?_
      intro more others hmore
      exact follows_pure (h.append hmore) (by simp)
    | responseSet =>
      refine (follows_responseSet decompiler _).bind ?_
      intro more others hmore
      exact follows_pure (h.append hmore) (by simp)
    | _ => exact follows_pure h rfl
  | _ => exact follows_pure h rfl

theorem follows_block (decompiler : Decompiler) (before : List SourceLine) :
    Follows (block decompiler) decompiler.block before Spells fun lines => before ++ lines := by
  unfold block Decompiler.block
  have hsweep := follows_sweep (follows_blockStep decompiler before) (some .block) [] [] rfl
  rw [List.append_nil] at hsweep
  refine hsweep.bind ?_
  rintro ⟨pieces, closed⟩ ⟨lines, _⟩ ⟨hlines, rfl⟩
  refine Follows.newLines ["END", []] ?_
  exact follows_pure (hlines.append rfl) (by simp)

-- --------------------
-- Code
-- --------------------

theorem follows_items {item : Pass (List Text)} {step : List SourceLine → Token → Reader (List SourceLine)}
    {marker : Marker} {count : Nat}
    (hitem : ∀ before pieces lines token, Spells pieces lines →
      Follows (if token.lexeme = .marker marker then do
          return pieces ++ (← item.orDamage marker count)
        else return pieces) (step lines token) (before ++ lines) Spells fun lines => before ++ lines) :
    Follows (items marker count item) (do
      let (lines, _) ← Reader.sweep none step []
      return lines) [] Spells id := by
  have hsweep := follows_sweep (hitem []) none [] [] rfl
  refine Follows.bind hsweep ?_
  rintro ⟨pieces, closed⟩ ⟨lines, _⟩ ⟨hlines, rfl⟩
  exact follows_pure hlines rfl

theorem follows_script (decompiler : Decompiler) :
    Follows (script decompiler) decompiler.script [] Spells id := by
  refine follows_items fun before pieces lines token h => ?_
  unfold Decompiler.scriptStep
  split
  · have hblock : Follows ((block decompiler).orDamage .block 2) decompiler.blockOrDamage
        (before ++ lines) Spells fun others => before ++ lines ++ others :=
      (follows_block decompiler _).orDamage .block (fun _ _ => id) fun _ => rfl
    refine hblock.bind ?_
    intro more others hmore
    exact follows_pure (h.append hmore) (by simp)
  · exact follows_pure h rfl

theorem follows_recordPieces {record : Pass Text} {reader : Reader SourceLine}
    (hrecord : Follows record reader before SpellsLine fun line => before ++ [line]) :
    Follows (do return [(← record) ++ "\n"]) reader before (fun pieces line => Spells pieces [line])
      fun line => before ++ [line] := by
  refine hrecord.map ?_
  rintro _ line rfl
  exact spells_indented line []

theorem follows_records {record : Pass Text} {reader : Reader SourceLine}
    (hrecord : ∀ before, Follows record reader before SpellsLine fun line => before ++ [line])
    (marker : Marker) :
    Follows (records marker record) (Decompiler.records marker reader) [] Spells id := by
  refine follows_items fun before pieces lines token h => ?_
  unfold Decompiler.recordsStep
  split
  · have hor : Follows (Pass.orDamage marker 1 (do return [(← record) ++ "\n"]))
        (Decompiler.recordOrDamage marker reader) (before ++ lines)
        (fun pieces line => Spells pieces [line]) fun line => before ++ lines ++ [line] :=
      (follows_recordPieces (hrecord _)).orDamage marker (fun _ _ => id) fun _ => rfl
    refine hor.bind ?_
    intro more line hmore
    exact follows_pure (h.append hmore) (by simp)
  · exact follows_pure h rfl

end Pass

namespace Log

theorem foldl_record (log : Log) (notes : List Note) :
    notes.foldl record log =
      { line := log.line
        resources := log.resources.insertMany (notes.filterMap Note.resource?)
        stringRefs := log.stringRefs.insertMany (notes.filterMap Note.stringRef?)
        diagnostics := (notes.filterMap Note.message?).foldl (·.insert log.line ·)
          log.diagnostics } := by
  induction notes generalizing log with
  | nil => rfl
  | cons note notes ih =>
    rw [List.foldl_cons, ih]
    cases note with
    | unresolved => rfl
    | damaged => rfl
    | resource => exact congrArg (Log.mk _ · _ _) Std.TreeSet.insertMany_cons.symm
    | stringRef => exact congrArg (Log.mk _ _ · _) Std.TreeSet.insertMany_cons.symm

theorem line_note (collect : Bool) (log : Log) (notes : List Note) :
    (log.note collect notes).line = log.line := by
  cases collect with
  | false => rfl
  | true => rw [note, if_pos rfl, foldl_record]

theorem writeAll_true (log : Log) (lines : List SourceLine) (first : Nat) (h : log.line = first) :
    log.writeAll true lines =
      { line := (first + lines.length : Nat)
        resources := log.resources.insertMany
          ((lines.flatMap SourceLine.notes).filterMap Note.resource?)
        stringRefs := log.stringRefs.insertMany
          ((lines.flatMap SourceLine.notes).filterMap Note.stringRef?)
        diagnostics := (Decompiled.messagesFrom first lines).foldl
          (fun diagnostics message => diagnostics.insert message.1 message.2) log.diagnostics } := by
  induction lines generalizing log first with
  | nil => simp [writeAll, Decompiled.messagesFrom, ← h]
  | cons line lines ih =>
    have hwrite : log.write true line =
      { line.notes.foldl record log with line := (line.notes.foldl record log).line + 1 } := rfl
    have hnext : (log.write true line).line = (first + 1 : Nat) := by
      simp [hwrite, foldl_record, h]
    show (log.write true line).writeAll true lines = _
    rw [ih _ _ hnext, Decompiled.messagesFrom_cons]
    simp only [hwrite, foldl_record, List.flatMap_cons, List.filterMap_append,
      Std.TreeSet.insertMany_append, List.foldl_append, List.foldl_map, List.length_cons, h]
    congr 1
    omega

/-- From the start on, what is recorded is what the notes of the lines say at their places. -/
theorem writeAll_start (collect : Bool) (lines : List SourceLine) :
    ({} : Log).writeAll collect lines =
      { line := 1 + lines.length
        resources := (Decompiled.ofLines collect lines).resources
        stringRefs := (Decompiled.ofLines collect lines).stringRefs
        diagnostics := (Decompiled.ofLines collect lines).diagnostics } := by
  cases collect with
  | false => exact writeAll_silent (.inl rfl) _
  | true =>
    rw [writeAll_true {} lines 1 rfl]
    simp only [Decompiled.ofLines, if_true, Decompiled.flatMap_fst_zipIdx,
      Std.TreeSet.ofList_eq_insertMany_empty]
    rfl

end Log

namespace Pass

theorem Follows.readCode {pass : Pass (List Text)} {reader : Reader (List SourceLine)}
    (h : Follows pass reader [] Spells id) (code : Text) (collect : Bool) :
    pass.readCode code collect = reader.readCode code collect := by
  unfold Pass.readCode Reader.readCode
  cases (readTokens code).mapError fun fault => DecodeError.abort (.numeral fault) with
  | error error => rfl
  | ok tokens =>
    have hrun := h collect {} tokens
    rcases hpass : pass.run collect (({} : Log).writeAll collect []) tokens with ⟨_, _, _⟩
    rcases hread : reader.run tokens with ⟨_, _⟩
    rw [hpass, hread] at hrun
    have hpass : pass.run collect {} tokens = _ := hpass
    dsimp only [Bind.bind, Except.bind]
    rw [hpass, hread]
    cases hrun with
    | ok rest hspells hlog =>
      rw [Log.writeAll_start] at hlog
      subst hlog
      exact congrArg (fun source => Except.ok (Decompiled.mk source _ _ _)) hspells
    | error error => rfl

end Pass

/-- What compiled code can be: a script, or the bare triggers or actions of a dialog. -/
inductive CodeForm
  | script
  | dialog (isAction : Bool)

namespace Decompiler

variable (decompiler : Decompiler)

def decompileAs (form : CodeForm) (code : Text) (collect : Bool) : Except DecodeError Decompiled :=
  match form with
  | .script => decompiler.decompile code collect
  | .dialog isAction => decompiler.decompileDialog code isAction collect

def dialogPass : Bool → Pass Text
  | true => Pass.action decompiler
  | false => Pass.trigger decompiler

def passOf : CodeForm → Pass (List Text)
  | .script => Pass.script decompiler
  | .dialog isAction => Pass.records (dialogMarker isAction) (decompiler.dialogPass isAction)

/-- One block of a script, or one record of a dialog. -/
def itemOf : CodeForm → Pass (List Text)
  | .script => Pass.block decompiler
  | .dialog isAction => do return [(← decompiler.dialogPass isAction) ++ "\n"]

def markerOf : CodeForm → Marker
  | .script => .block
  | .dialog isAction => dialogMarker isAction

/-- So many blank lines follow the message about an item. -/
def blankOf : CodeForm → Nat
  | .script => 1
  | .dialog _ => 0

def readerOf : CodeForm → Reader (List SourceLine)
  | .script => decompiler.script
  | .dialog isAction => records (dialogMarker isAction) (decompiler.dialogRecord isAction)

theorem follows_dialogPass (isAction : Bool) (before : List SourceLine) :
    (decompiler.dialogPass isAction).Follows (decompiler.dialogRecord isAction) before
      Pass.SpellsLine fun line => before ++ [line] := by
  cases isAction with
  | true => exact Pass.follows_action decompiler before
  | false => exact Pass.follows_trigger decompiler before

theorem follows_passOf (form : CodeForm) :
    (decompiler.passOf form).Follows (decompiler.readerOf form) [] Pass.Spells id := by
  cases form with
  | script => exact Pass.follows_script decompiler
  | dialog isAction => exact Pass.follows_records (decompiler.follows_dialogPass isAction) _

theorem decompileAs_eq_readCode (form : CodeForm) (code : Text) (collect : Bool) :
    decompiler.decompileAs form code collect = (decompiler.passOf form).readCode code collect := by
  cases form with
  | script => rfl
  | dialog isAction => cases isAction <;> rfl

/-- Code is decompiled to its lines. -/
theorem decompileAs_eq (form : CodeForm) (code : Text) (collect : Bool) :
    decompiler.decompileAs form code collect = (decompiler.readerOf form).readCode code collect := by
  rw [decompileAs_eq_readCode, (decompiler.follows_passOf form).readCode]

theorem decompile_eq (code : Text) (collect : Bool) :
    decompiler.decompile code collect = decompiler.script.readCode code collect :=
  decompiler.decompileAs_eq .script code collect

theorem decompileDialog_eq (code : Text) (isAction collect : Bool) :
    decompiler.decompileDialog code isAction collect =
      (records (dialogMarker isAction) (decompiler.dialogRecord isAction)).readCode code collect :=
  decompiler.decompileAs_eq (.dialog isAction) code collect

end Decompiler

end InfinityScript
