import InfinityScript.Proofs.Outcome
import InfinityScript.Proofs.Script.Passes
import InfinityScript.Symbol.Reading

/-!
# Decompiling without recording

A pass is told whether to record, and looks at that wherever there is something to record. A
run that records and one that does not keep in step all the same (`Pass.Lockstep`): they come
to the same result or the same error, leave the same tokens and count the same lines, also
where damage is met and what was recorded is put back. So code is decompiled to the same
source, and fails in the same way, whether its notes are collected or not
(`Decompiler.decompileAs_unrecorded`).
-/

namespace InfinityScript

/-- The log of a run that records nothing beside that of one that records. -/
structure Log.InStep (quiet told : Log) : Prop where
  line : quiet.line = told.line
  resources : quiet.resources = ∅
  stringRefs : quiet.stringRefs = ∅
  diagnostics : quiet.diagnostics = ∅

namespace Pass

variable {α β σ : Type} {pass : Pass α}

/-- Two runs from logs that are in step come to the same end, and their logs stay in step. -/
def Lockstep (pass : Pass α) : Prop :=
  ∀ quiet told tokens, Log.InStep quiet told → ∃ outcome quiet' told' left,
    pass.run false quiet tokens = (outcome, quiet', left) ∧
    pass.run true told tokens = (outcome, told', left) ∧ Log.InStep quiet' told'

theorem lockstep_pure (a : α) : Lockstep (Pure.pure a) :=
  fun _ _ _ h => ⟨_, _, _, _, rfl, rfl, h⟩

theorem lockstep_throw (error : DecodeError) : Lockstep (throw error : Pass α) :=
  fun _ _ _ h => ⟨_, _, _, _, rfl, rfl, h⟩

theorem lockstep_reader (reader : Reader α) : Lockstep (liftM reader : Pass α) :=
  fun _ _ _ h => ⟨_, _, _, _, rfl, rfl, h⟩

/-- Of the two runs only one records, and no line is counted. -/
theorem lockstep_note (note : Note) : Lockstep (MonadNote.note note) :=
  fun _ _ _ h => ⟨_, _, _, _, rfl, rfl, ⟨h.line, h.resources, h.stringRefs, h.diagnostics⟩⟩

theorem lockstep_newLines (count : Nat) : Lockstep (newLines count) :=
  fun _ _ _ h => ⟨_, _, _, _, rfl, rfl,
    ⟨congrArg (· + (count : Int)) h.line, h.resources, h.stringRefs, h.diagnostics⟩⟩

theorem Lockstep.bind {next : α → Pass β} (h : Lockstep pass) (hnext : ∀ a, Lockstep (next a)) :
    Lockstep (pass >>= next) := by
  intro quiet told tokens hstep
  obtain ⟨outcome, quiet', told', left, hquiet, htold, hstep'⟩ := h quiet told tokens hstep
  cases outcome with
  | ok a =>
    rw [run_bind_ok hquiet, run_bind_ok htold]
    exact hnext a quiet' told' left hstep'
  | error error =>
    rw [run_bind_error hquiet, run_bind_error htold]
    exact ⟨_, _, _, _, rfl, rfl, hstep'⟩

/-- Each run puts back what it had saved itself. -/
theorem Lockstep.orDamage {pass : Pass (List Text)} (h : Lockstep pass) (marker : Marker)
    (lines : Nat) : Lockstep (pass.orDamage marker lines) := by
  intro quiet told tokens hstep
  have hsave : ∀ collect log, save.run collect log tokens = (.ok log, log, tokens) := fun _ _ => rfl
  unfold Pass.orDamage
  rw [run_bind_ok (hsave false quiet), run_bind_ok (hsave true told)]
  obtain ⟨outcome, quiet', told', left, hquiet, htold, hstep'⟩ := h quiet told tokens hstep
  cases outcome with
  | ok pieces =>
    rw [run_recover_ok hquiet, run_recover_ok htold]
    exact ⟨_, _, _, _, rfl, rfl, hstep'⟩
  | error error =>
    rw [run_recover_error hquiet, run_recover_error htold]
    cases error with
    | abort abort => exact ⟨_, _, _, _, rfl, rfl, hstep'⟩
    | damage damage =>
      have hrest : Lockstep (do
          MonadNote.note (.damaged damage)
          Reader.skipPast (.marker marker)
          newLines lines
          return ["Error - " ++ damage.message ++ List.replicate lines '\n']) :=
        (lockstep_note _).bind fun _ => (lockstep_reader _).bind fun _ =>
          (lockstep_newLines _).bind fun _ => lockstep_pure _
      exact hrest quiet told left hstep

theorem lockstep_sweep {step : σ → Token → Pass σ} (h : ∀ made token, Lockstep (step made token))
    (closing : Option Marker) (made : σ) : Lockstep (sweep closing step made) := by
  intro quiet told tokens hstep
  show ∃ outcome quiet' told' left,
    sweepRun closing step false made quiet tokens = (outcome, quiet', left) ∧
    sweepRun closing step true made told tokens = (outcome, told', left) ∧ _
  fun_induction sweepRun closing step false made quiet tokens generalizing told with
  | case1 made quiet =>
    rw [sweepRun]
    exact ⟨_, _, _, _, rfl, rfl, hstep⟩
  | case2 made quiet token rest hclosing =>
    rw [sweepRun, if_pos hclosing]
    exact ⟨_, _, _, _, rfl, rfl, hstep⟩
  | case3 made quiet token rest hclosing made' quiet' left hrun ih =>
    obtain ⟨_, _, told', _, hquiet, htold, hstep'⟩ := h made token quiet told rest hstep
    cases hrun.symm.trans hquiet
    rw [sweepRun_ok hclosing htold]
    exact ih told' hstep'
  | case4 made quiet token rest hclosing error quiet' left hrun =>
    obtain ⟨_, _, told', _, hquiet, htold, hstep'⟩ := h made token quiet told rest hstep
    cases hrun.symm.trans hquiet
    rw [sweepRun_error hclosing htold]
    exact ⟨_, _, _, _, rfl, rfl, hstep'⟩

theorem lockstep_many {item : Pass α} (h : Lockstep item) (marker : Marker) :
    Lockstep (many marker item) := by
  intro quiet told tokens hstep
  show ∃ outcome quiet' told' left,
    manyRun marker item false quiet tokens = (outcome, quiet', left) ∧
    manyRun marker item true told tokens = (outcome, told', left) ∧ _
  fun_induction manyRun marker item false quiet tokens generalizing told with
  | case1 quiet =>
    rw [manyRun]
    exact ⟨_, _, _, _, rfl, rfl, hstep⟩
  | case2 quiet token rest hmarker value quiet' left hrun values quiet'' left' hvalues ih =>
    obtain ⟨_, _, told', _, hquiet, htold, hstep'⟩ := h quiet told rest hstep
    cases hrun.symm.trans hquiet
    obtain ⟨_, _, _, _, hquiet', htold', hend⟩ := ih told' hstep'
    cases hvalues.symm.trans hquiet'
    rw [manyRun_ok hmarker htold, htold']
    exact ⟨_, _, _, _, rfl, rfl, hend⟩
  | case3 quiet token rest hmarker error quiet' left hrun =>
    obtain ⟨_, _, told', _, hquiet, htold, hstep'⟩ := h quiet told rest hstep
    cases hrun.symm.trans hquiet
    rw [manyRun_error hmarker htold]
    exact ⟨_, _, _, _, rfl, rfl, hstep'⟩
  | case4 quiet token rest hmarker =>
    rw [manyRun, if_neg hmarker]
    exact ⟨_, _, _, _, rfl, rfl, hstep⟩

theorem lockstep_ofExpressing (x : Expressing α) : Lockstep (ofExpressing x) :=
  fun _ told _ h => ⟨_, _, _, _, rfl, rfl,
    ⟨h.line.trans (told.line_note true x.outcome.notes).symm, h.resources, h.stringRefs, h.diagnostics⟩⟩

theorem Lockstep.asLine {pass : Pass Text} (h : Lockstep pass) : Lockstep pass.asLine :=
  h.bind fun _ => (lockstep_newLines 1).bind fun _ => lockstep_pure _

variable (decompiler : Decompiler)

theorem lockstep_trigger : Lockstep (trigger decompiler) := by
  refine (lockstep_reader _).bind fun opcode => ?_
  cases Trigger.definition? decompiler.symbols opcode with
  | none =>
    exact (lockstep_reader _).bind fun _ =>
      ((lockstep_note _).bind fun _ => lockstep_pure _).asLine
  | some found =>
    refine (lockstep_reader _).bind fun record => ?_
    rw [← failHom.app_triggerM]
    exact (lockstep_ofExpressing _).asLine

theorem lockstep_action : Lockstep (action decompiler) := by
  refine (lockstep_reader _).bind fun record => ?_
  rw [← failHom.app_actionM]
  exact (lockstep_ofExpressing _).asLine

theorem lockstep_conditionStep (condition : Condition) (token : Token) :
    Lockstep (conditionStep decompiler condition token) := by
  unfold conditionStep
  split
  · refine (lockstep_trigger decompiler).bind fun text => ?_
    unfold Condition.add
    split
    · exact lockstep_pure _
    · cases Decompiler.orCount text with
      | ok count => exact lockstep_pure _
      | error fault => exact lockstep_throw _
  · exact lockstep_pure _

theorem lockstep_condition : Lockstep (condition decompiler) := by
  refine (lockstep_newLines _).bind fun _ =>
    (lockstep_sweep (lockstep_conditionStep decompiler) _ _).bind fun made => ?_
  dsimp only
  split
  · exact lockstep_pure _
  · exact lockstep_throw _

theorem lockstep_response : Lockstep (response decompiler) :=
  (lockstep_reader _).bind fun _ => (lockstep_newLines _).bind fun _ =>
    (lockstep_many (lockstep_action decompiler) _).bind fun _ =>
      (lockstep_reader _).bind fun _ => lockstep_pure _

theorem lockstep_responseSet : Lockstep (responseSet decompiler) := by
  have hstep : ∀ pieces token, Lockstep (responseSetStep decompiler pieces token) := by
    intro pieces token
    refine (lockstep_reader _).bind fun next => ?_
    split
    · exact (lockstep_response decompiler).bind fun _ => lockstep_pure _
    · exact lockstep_pure _
  refine (lockstep_newLines _).bind fun _ => (lockstep_sweep hstep _ _).bind fun made => ?_
  dsimp only
  split
  · exact lockstep_pure _
  · exact lockstep_throw _

theorem lockstep_block : Lockstep (block decompiler) := by
  have hstep : ∀ pieces token, Lockstep (blockStep decompiler pieces token) := by
    intro pieces token
    unfold blockStep
    split
    · exact (lockstep_condition decompiler).bind fun _ => lockstep_pure _
    · exact (lockstep_responseSet decompiler).bind fun _ => lockstep_pure _
    · exact lockstep_pure _
  exact (lockstep_sweep hstep _ _).bind fun _ => (lockstep_newLines _).bind fun _ => lockstep_pure _

theorem lockstep_items {item : Pass (List Text)} (h : Lockstep item) (marker : Marker)
    (lines : Nat) : Lockstep (items marker lines item) := by
  refine (lockstep_sweep (fun pieces token => ?_) _ _).bind fun _ => lockstep_pure _
  split
  · exact (h.orDamage marker lines).bind fun _ => lockstep_pure _
  · exact lockstep_pure _

end Pass

theorem Decompiler.lockstep_passOf (decompiler : Decompiler) (form : CodeForm) :
    (decompiler.passOf form).Lockstep := by
  cases form with
  | script => exact Pass.lockstep_items (Pass.lockstep_block decompiler) _ _
  | dialog isAction =>
    refine Pass.lockstep_items (Pass.Lockstep.bind ?_ fun _ => Pass.lockstep_pure _) _ _
    cases isAction with
    | true => exact Pass.lockstep_action decompiler
    | false => exact Pass.lockstep_trigger decompiler

/-- Whether notes are recorded makes no difference to what is read, of a script and of the
triggers or actions of a dialog alike, be the code sound or damaged. Without recording the
same error is raised or the same source is made, and nothing is said about it. -/
theorem Decompiler.decompileAs_unrecorded (decompiler : Decompiler) (form : CodeForm) (code : Text) :
    (∀ error, decompiler.decompileAs form code false = .error error ↔
      decompiler.decompileAs form code true = .error error) ∧
    ∀ quiet, decompiler.decompileAs form code false = .ok quiet →
      quiet.resources = ∅ ∧ quiet.stringRefs = ∅ ∧ quiet.diagnostics = ∅ ∧
        ∃ told, decompiler.decompileAs form code true = .ok told ∧ quiet.source = told.source := by
  rw [decompileAs_eq_readCode, decompileAs_eq_readCode]
  unfold Pass.readCode
  cases (readTokens code).mapError fun fault => DecodeError.abort (.numeral fault) with
  | error error =>
    refine ⟨fun _ => Iff.rfl, fun quiet hquiet => ?_⟩
    cases hquiet
  | ok tokens =>
    obtain ⟨outcome, quiet, told, left, hquiet, htold, hstep⟩ :=
      decompiler.lockstep_passOf form {} {} tokens ⟨rfl, rfl, rfl, rfl⟩
    dsimp only [Bind.bind, Except.bind]
    rw [hquiet, htold]
    cases outcome with
    | error error =>
      refine ⟨fun _ => Iff.rfl, fun quiet hquiet => ?_⟩
      cases hquiet
    | ok pieces =>
      refine ⟨fun error => ⟨fun herror => ?_, fun herror => ?_⟩, fun result hresult => ?_⟩
      · cases herror
      · cases herror
      · cases hresult
        exact ⟨hstep.resources, hstep.stringRefs, hstep.diagnostics, _, rfl, rfl⟩

theorem Decompiler.decompileAs_unrecorded_sample :
    let decompiler : Decompiler :=
      ⟨.build [(Table.read "TRIGGER" "0x401C See(O:Object*)").value] [] [] [] none, .ofGame .none, " "⟩
    let code : Text := "TR 16412 x TR TR 16412 0 0 0 0 \"\" \"\" OB 77 0 0 0 0 0 0 0 0 0 0 0 \"\" OB TR"
    ∃ quiet told, decompiler.decompileAs (.dialog false) code false = .ok quiet ∧
      decompiler.decompileAs (.dialog false) code true = .ok told ∧
      quiet.source = "Error - Expected NUMBER but found `x`\nSee([77])\n".toList ∧
      told.source = quiet.source ∧ quiet.diagnostics = ∅ ∧
      told.diagnostics[(2 : Int)]? = some "77 not found in EA.IDS".toList := by
  intro decompiler code
  obtain ⟨quiet, hquiet, hsource⟩ := Outcome.exists_of_any (by decide +kernel :
    (decompiler.decompileAs (.dialog false) code false).toOption.any fun quiet =>
      quiet.source = "Error - Expected NUMBER but found `x`\nSee([77])\n".toList)
  obtain ⟨found, hfound, hdiagnostic⟩ := Outcome.exists_of_any (by decide +kernel :
    (decompiler.decompileAs (.dialog false) code true).toOption.any fun told =>
      told.diagnostics[(2 : Int)]? = some "77 not found in EA.IDS".toList)
  obtain ⟨-, hruns⟩ := decompileAs_unrecorded decompiler (.dialog false) code
  obtain ⟨-, -, hempty, told, htold, hsame⟩ := hruns quiet hquiet
  obtain rfl : found = told := Except.ok.inj (hfound.symm.trans htold)
  exact ⟨quiet, found, hquiet, htold, of_decide_eq_true hsource, hsame.symm, hempty,
    of_decide_eq_true hdiagnostic⟩

end InfinityScript
