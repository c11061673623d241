import InfinityScript.Action
import InfinityScript.Proofs.Code.SourceLine

/-!
# Notes of expressed records

Records are expressed in any monad that takes notes. Seen as a value with its notes, an
argument or an object is expressed on its own, and a record from these: maps between monads
that keep the notes (`NoteHom`) commute with all of it. In a pass the notes are recorded on the
way (`Pass.Says`).
-/

namespace InfinityScript

/-- A map between monads that keeps what is noted. -/
structure NoteHom (m n : Type → Type) [Monad m] [MonadNote m] [Monad n] [MonadNote n] where
  app : {α : Type} → m α → n α
  app_pure {α : Type} (a : α) : app (pure a) = pure a
  app_bind {α β : Type} (x : m α) (f : α → m β) : app (x >>= f) = app x >>= fun a => app (f a)
  app_note (note : Note) : app (MonadNote.note note) = MonadNote.note note

structure FailHom (m n : Type → Type) [Monad m] [MonadNote m] [MonadExceptOf DecodeError m]
    [Monad n] [MonadNote n] [MonadExceptOf DecodeError n] extends NoteHom m n where
  app_throw {α : Type} (error : DecodeError) : app (throw error : m α) = throw error

section Maps

variable {m n : Type → Type} [Monad m] [MonadNote m] [Monad n] [MonadNote n] {α β : Type}

namespace NoteHom

variable (hom : NoteHom m n)

theorem app_foldlM (f : β → α → m β) (xs : List α) (b : β) :
    hom.app (xs.foldlM f b) = xs.foldlM (fun b a => hom.app (f b a)) b := by
  induction xs generalizing b with
  | nil => exact hom.app_pure b
  | cons x xs ih => simp only [List.foldlM_cons, hom.app_bind, ih]

theorem app_mapM [LawfulMonad m] [LawfulMonad n] (f : α → m β) (xs : List α) :
    hom.app (xs.mapM f) = xs.mapM fun a => hom.app (f a) := by
  induction xs with
  | nil => simp only [List.mapM_nil, hom.app_pure]
  | cons x xs ih => simp only [List.mapM_cons, hom.app_bind, hom.app_pure, ih]

theorem app_unresolvedM (number shown : Int) (table : Text) :
    hom.app (Argument.unresolvedM number shown table) = Argument.unresolvedM number shown table := by
  simp only [Argument.unresolvedM, hom.app_bind, hom.app_note, hom.app_pure]

theorem app_expressIntegerM (symbols : Symbols) (parameter : Parameter) (number : Int) :
    hom.app (Argument.expressIntegerM symbols parameter number) =
      Argument.expressIntegerM symbols parameter number := by
  unfold Argument.expressIntegerM
  split
  · exact hom.app_pure _
  · split
    · exact hom.app_unresolvedM _ _ _
    · split
      · exact hom.app_pure _
      · split
        · dsimp only
          split
          · exact hom.app_pure _
          · exact hom.app_unresolvedM _ _ _
        · exact hom.app_unresolvedM _ _ _

theorem app_identifierM (symbols : Symbols) (table : Text) (number : Int) :
    hom.app (Object.identifierM symbols table number) = Object.identifierM symbols table number := by
  unfold Object.identifierM
  split
  · exact hom.app_pure _
  · split
    · exact hom.app_pure _
    · simp only [hom.app_bind, hom.app_note, hom.app_pure]

theorem app_objectM [LawfulMonad m] [LawfulMonad n] (symbols : Symbols) (profile : Profile)
    (record : ObjectRecord) :
    hom.app (Object.expressM symbols profile record) = Object.expressM symbols profile record := by
  simp only [Object.expressM, hom.app_bind, hom.app_mapM, hom.app_identifierM, hom.app_pure]

theorem app_ofResourceM (symbols : Symbols) (function definition name : Text) :
    hom.app (Comment.ofResourceM symbols function definition name) =
      Comment.ofResourceM symbols function definition name := by
  unfold Comment.ofResourceM
  split
  · exact hom.app_pure _
  · split
    · exact hom.app_pure _
    · simp only [hom.app_bind, hom.app_note, hom.app_pure]

theorem app_triggerAddM (symbols : Symbols) (entry : Entry) (record : TriggerRecord)
    (strings : List (Option Text)) (object : Text) (progress : Trigger.Progress)
    (parameter : Parameter) :
    hom.app (progress.addM symbols entry record strings object parameter) =
      progress.addM symbols entry record strings object parameter := by
  unfold Trigger.Progress.addM
  cases parameter.kind with
  | string => simp only [hom.app_bind, hom.app_ofResourceM, hom.app_pure]
  | object => exact hom.app_pure _
  | point => exact hom.app_pure _
  | integer => simp only [hom.app_bind, hom.app_expressIntegerM, hom.app_pure]
  | action => exact hom.app_pure _

end NoteHom

namespace FailHom

variable [MonadExceptOf DecodeError m] [MonadExceptOf DecodeError n] (hom : FailHom m n)

theorem app_ofSignature (x : Except ParameterFault α) :
    hom.app (DecodeError.ofSignature x) = DecodeError.ofSignature x := by
  cases x with
  | ok a => exact hom.app_pure a
  | error fault => exact hom.app_throw _

theorem app_triggerM [LawfulMonad m] [LawfulMonad n] (symbols : Symbols) (profile : Profile)
    (entry : Entry) (opcode : Int) (record : TriggerRecord) :
    hom.app (Trigger.expressM symbols profile entry opcode record) =
      Trigger.expressM symbols profile entry opcode record := by
  simp only [Trigger.expressM, hom.app_bind, hom.app_objectM, hom.app_ofSignature, hom.app_foldlM,
    hom.app_triggerAddM, hom.app_pure]

theorem app_stringCommentM (symbols : Symbols) (entry : Entry) (definition value : Text) :
    hom.app (Action.stringCommentM symbols entry definition value) =
      Action.stringCommentM symbols entry definition value := by
  unfold Action.stringCommentM
  split
  · cases Comment.ofSpells symbols value with
    | ok comment => exact hom.app_pure comment
    | error abort => exact hom.app_throw _
  · exact hom.app_ofResourceM _ _ _ _

theorem app_actionAddM (symbols : Symbols) (entry : Entry) (record : ActionRecord)
    (strings : Option (List (Option Text))) (objects : List Text) (progress : Action.Progress)
    (parameter : Parameter) :
    hom.app (progress.addM symbols entry record strings objects parameter) =
      progress.addM symbols entry record strings objects parameter := by
  unfold Action.Progress.addM
  cases parameter.kind with
  | string => cases strings <;> simp only [hom.app_bind, hom.app_stringCommentM, hom.app_pure]
  | object => exact hom.app_pure _
  | point => exact hom.app_pure _
  | action => exact hom.app_pure _
  | integer =>
    simp only [hom.app_bind, hom.app_expressIntegerM]
    split <;> simp only [hom.app_bind, hom.app_note, hom.app_pure]

theorem app_actionM [LawfulMonad m] [LawfulMonad n] (symbols : Symbols) (profile : Profile)
    (record : ActionRecord) :
    hom.app (Action.expressM symbols profile record) = Action.expressM symbols profile record := by
  simp only [Action.expressM, hom.app_bind, hom.app_objectM, hom.app_mapM]
  cases symbols.byId? "ACTION.IDS" record.opcode with
  | none => simp only [hom.app_bind, hom.app_note, hom.app_pure]
  | some entry =>
    simp only [hom.app_bind, hom.app_ofSignature, hom.app_foldlM, hom.app_actionAddM, hom.app_pure]

end FailHom

end Maps

theorem Expressing.outcome_ofNoted {α : Type} (x : Noted Note α) :
    (ofNoted x).outcome = ⟨.ok x.value, x.notes⟩ :=
  congrArg (Noted.mk _) (List.append_nil x.notes)

/-- What cannot fail takes its notes along to where something can. -/
def Expressing.noteHom : NoteHom (Noted Note) Expressing where
  app := ofNoted
  app_pure _ := rfl
  app_bind _ _ := ExceptT.lift_bind _ _
  app_note _ := rfl

namespace Log

def note (collect : Bool) (log : Log) (notes : List Note) : Log :=
  if collect then notes.foldl record log else log

theorem note_append {collect : Bool} (log : Log) (first second : List Note) :
    log.note collect (first ++ second) = (log.note collect first).note collect second := by
  cases collect with
  | false => rfl
  | true => exact List.foldl_append

end Log

namespace Pass

variable {α β : Type} {pass : Pass α} {collect : Bool} {log : Log} {tokens rest : List Token}

theorem run_bind_ok {next : α → Pass β} {value : α} {log' : Log}
    (h : pass.run collect log tokens = (.ok value, log', rest)) :
    (pass >>= next).run collect log tokens = (next value).run collect log' rest := by
  show (pass.bind next).run collect log tokens = _
  simp only [bind, h]

theorem run_bind_error {next : α → Pass β} {error : DecodeError} {log' : Log}
    (h : pass.run collect log tokens = (.error error, log', rest)) :
    (pass >>= next).run collect log tokens = (.error error, log', rest) := by
  show (pass.bind next).run collect log tokens = _
  simp only [bind, h]

theorem run_ofReader {reader : Reader α} {outcome : Except DecodeError α}
    (h : reader.run tokens = (outcome, rest)) :
    (liftM reader : Pass α).run collect log tokens = (outcome, log, rest) := by
  show ((reader.run tokens).1, log, (reader.run tokens).2) = _
  rw [h]

instance : LawfulMonad Pass := LawfulMonad.mk' _
  (fun pass => by
    refine Pass.ext (funext fun collect => funext fun log => funext fun tokens => ?_)
    rcases h : pass.run collect log tokens with ⟨outcome, log', rest⟩
    cases outcome with
    | ok value => exact run_bind_ok h
    | error error => exact run_bind_error h)
  (fun _ _ => rfl)
  (fun pass next last => by
    refine Pass.ext (funext fun collect => funext fun log => funext fun tokens => ?_)
    rcases h : pass.run collect log tokens with ⟨outcome, log', rest⟩
    cases outcome with
    | ok value =>
      rw [run_bind_ok h]
      show ((pass >>= next) >>= last).run collect log tokens = _
      rcases hnext : (next value).run collect log' rest with ⟨outcome, log'', left⟩
      have hboth := (run_bind_ok h).trans hnext
      cases outcome with
      | ok value => rw [run_bind_ok hboth, run_bind_ok hnext]
      | error error => rw [run_bind_error hboth, run_bind_error hnext]
    | error error => rw [run_bind_error h, run_bind_error (run_bind_error h)])

/-- What is expressed with its notes, recorded on the way. -/
def ofExpressing (x : Expressing α) : Pass α :=
  ⟨fun collect log tokens => (x.outcome.value, log.note collect x.outcome.notes, tokens),
    fun _ _ _ => List.suffix_rfl⟩

def failHom : FailHom Expressing Pass where
  app := ofExpressing
  app_pure _ := by
    refine Pass.ext (funext fun collect => funext fun log => funext fun tokens => ?_)
    cases collect <;> rfl
  app_bind x f := by
    refine Pass.ext (funext fun collect => funext fun log => funext fun tokens => ?_)
    have hrun : (ofExpressing x).run collect log tokens =
      (x.outcome.value, log.note collect x.outcome.notes, tokens) := rfl
    show ((x.outcome >>= ExceptT.bindCont f).value,
      log.note collect (x.outcome >>= ExceptT.bindCont f).notes, tokens) = _
    rcases hx : x.outcome with ⟨outcome, notes⟩
    rw [hx] at hrun
    rw [Noted.value_bind, Noted.notes_bind, Log.note_append]
    cases outcome with
    | ok value =>
      rw [run_bind_ok hrun]
      rfl
    | error error =>
      rw [run_bind_error hrun]
      cases collect <;> rfl
  app_note _ := by
    refine Pass.ext (funext fun collect => funext fun log => funext fun tokens => ?_)
    cases collect <;> rfl
  app_throw _ := by
    refine Pass.ext (funext fun collect => funext fun log => funext fun tokens => ?_)
    cases collect <;> rfl

/-- Whatever has been recorded before, the pass comes to the value with its notes and reads
nothing. -/
def Says (pass : Pass α) (said : Noted Note α) : Prop :=
  ∀ collect log tokens, pass.run collect log tokens =
    (.ok said.value, log.note collect said.notes, tokens)

theorem Says.value_eq {said other : Noted Note α} (h : Says pass said) (hother : Says pass other) :
    said.value = other.value :=
  Except.ok.inj (Prod.mk.inj ((h false {} []).symm.trans (hother false {} []))).1

theorem says_ofNoted (x : Noted Note α) : Says (ofExpressing (.ofNoted x)) x := by
  intro collect log tokens
  rw [ofExpressing, Expressing.outcome_ofNoted]

end Pass

namespace Argument

def unresolved (number shown : Int) (table : Text) : Noted Note Text :=
  unresolvedM number shown table

def expressInteger (symbols : Symbols) (parameter : Parameter) (number : Int) : Noted Note Text :=
  expressIntegerM symbols parameter number

end Argument

namespace Object

def identifier (symbols : Symbols) (table : Text) (number : Int) : Noted Note (Option Text) :=
  identifierM symbols table number

def express (symbols : Symbols) (profile : Profile) (record : ObjectRecord) : Noted Note Text :=
  expressM symbols profile record

theorem value_express (symbols : Symbols) (profile : Profile) (record : ObjectRecord) :
    (express symbols profile record).value =
      compose ((record.qualifiers profile).map fun n => (identifier symbols "OBJECT.IDS" n).value)
        ((profile.objectTables.zip (record.vector profile)).map fun pair =>
          (identifier symbols pair.1 pair.2).value) (area? record) record.name := by
  simp only [express, expressM, Noted.value_bind, Noted.value_pure, Noted.value_mapM]
  rfl

end Object

def Comment.ofResource (symbols : Symbols) (function definition name : Text) :
    Noted Note (Option Text) :=
  ofResourceM symbols function definition name

namespace Expressing

theorem ofNoted_expressInteger (symbols : Symbols) (parameter : Parameter) (number : Int) :
    ofNoted (Argument.expressInteger symbols parameter number) =
      Argument.expressIntegerM symbols parameter number :=
  noteHom.app_expressIntegerM symbols parameter number

theorem ofNoted_object (symbols : Symbols) (profile : Profile) (record : ObjectRecord) :
    ofNoted (Object.express symbols profile record) = Object.expressM symbols profile record :=
  noteHom.app_objectM symbols profile record

theorem ofNoted_ofResource (symbols : Symbols) (function definition name : Text) :
    ofNoted (Comment.ofResource symbols function definition name) =
      Comment.ofResourceM symbols function definition name :=
  noteHom.app_ofResourceM symbols function definition name

end Expressing

namespace Pass

theorem says_expressInteger (symbols : Symbols) (parameter : Parameter) (number : Int) :
    Says (Argument.expressIntegerM symbols parameter number)
      (Argument.expressInteger symbols parameter number) := by
  rw [← failHom.app_expressIntegerM, ← Expressing.ofNoted_expressInteger]
  exact says_ofNoted _

theorem says_object (symbols : Symbols) (profile : Profile) (record : ObjectRecord) :
    Says (Object.expressM symbols profile record) (Object.express symbols profile record) := by
  rw [← failHom.app_objectM, ← Expressing.ofNoted_object]
  exact says_ofNoted _

end Pass

namespace Trigger

def Progress.add (symbols : Symbols) (entry : Entry) (record : TriggerRecord)
    (strings : List (Option Text)) (object : Text) (progress : Progress) (parameter : Parameter) :
    Noted Note Progress :=
  progress.addM symbols entry record strings object parameter

def express (symbols : Symbols) (profile : Profile) (entry : Entry) (opcode : Int)
    (record : TriggerRecord) : Expressing Text :=
  expressM symbols profile entry opcode record

theorem express_eq (symbols : Symbols) (profile : Profile) (entry : Entry) (opcode : Int)
    (record : TriggerRecord) :
    express symbols profile entry opcode record = (do
      let object ← Expressing.ofNoted (Object.express symbols profile record.object)
      let strings := match record.strings with
        | some (first, second) => Scope.unpack symbols first second
        | none => []
      let entry ← DecodeError.ofSignature
        (symbols.definitionFor "TRIGGER.IDS" opcode entry fun signature =>
          signature.isExceeded record.integers [] [object] strings)
      let signature ← DecodeError.ofSignature entry.signature
      let progress ← Expressing.ofNoted
        (signature.foldlM (Progress.add symbols entry record strings object) {})
      let line := (if record.negated then ['!'] else []) ++ entry.name ++ "(" ++
        Text.join "," progress.arguments ++ ")"
      return Comment.append line progress.comment) := by
  have hprogress : ∀ entry strings object signature,
      Expressing.ofNoted (List.foldlM (Progress.add symbols entry record strings object) {} signature) =
        List.foldlM (Progress.addM symbols entry record strings object) {} signature := by
    intro entry strings object signature
    refine (Expressing.noteHom.app_foldlM _ signature _).trans ?_
    simp only [Progress.add, Expressing.noteHom.app_triggerAddM]
  simp only [Expressing.ofNoted_object, hprogress]
  rfl

end Trigger

namespace Action

def stringComment (symbols : Symbols) (entry : Entry) (definition value : Text) :
    Expressing (Option Text) :=
  stringCommentM symbols entry definition value

def Progress.add (symbols : Symbols) (entry : Entry) (record : ActionRecord)
    (strings : Option (List (Option Text))) (objects : List Text) (progress : Progress)
    (parameter : Parameter) : Expressing Progress :=
  progress.addM symbols entry record strings objects parameter

def express (symbols : Symbols) (profile : Profile) (record : ActionRecord) : Expressing Text :=
  expressM symbols profile record

theorem express_eq (symbols : Symbols) (profile : Profile) (record : ActionRecord) :
    express symbols profile record = (do
      let actor ← Expressing.ofNoted (Object.express symbols profile record.actor)
      let objects ← Expressing.ofNoted (record.objects.mapM (Object.express symbols profile))
      let strings := record.strings.map fun (first, second) => Scope.unpack symbols first second
      match symbols.byId? "ACTION.IDS" record.opcode with
      | none =>
        NotedT.note (.unresolved record.opcode "ACTION.IDS")
        return "Error - Could not find action " ++ Text.ofInt record.opcode
      | some entry =>
        let entry ← DecodeError.ofSignature
          (symbols.definitionFor "ACTION.IDS" record.opcode entry fun signature =>
            signature.isExceeded record.integers [record.x, record.y] objects (strings.getD []))
        let signature ← DecodeError.ofSignature entry.signature
        let strings := strings.map (reclaimScope signature)
        let progress ← signature.foldlM (Progress.add symbols entry record strings objects) {}
        let line := entry.name ++ "(" ++ Text.join "," progress.arguments ++ ")"
        let line :=
          if actor = anyone then line else "ActionOverride(" ++ actor ++ "," ++ line ++ ")"
        return Comment.append line progress.comment) := by
  have hobjects : Expressing.ofNoted (record.objects.mapM (Object.express symbols profile)) =
      record.objects.mapM (Object.expressM symbols profile) := by
    refine (Expressing.noteHom.app_mapM _ record.objects).trans ?_
    simp only [Object.express, Expressing.noteHom.app_objectM]
  simp only [Expressing.ofNoted_object, hobjects]
  rfl

end Action

end InfinityScript
