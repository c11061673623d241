import Std.Data.TreeSet
import InfinityScript.Code.Reader
import InfinityScript.Noted

/-!
# Passes over compiled code

Code is decompiled in one pass over its tokens. The pass counts the lines of source that it
makes and, if it is asked to, records under the number of the line to come what there is to
say about that line. Neither is undone by an error: what goes on after one has to put back
what was counted and recorded in vain.
-/

namespace InfinityScript

inductive Note
  /-- A number that has no name in its table. -/
  | unresolved (number : Int) (table : Text)
  /-- The line stands for damaged code. -/
  | damaged (damage : Damage)
  | resource (name : Text)
  | stringRef (number : Int)
  deriving DecidableEq, Repr

def Note.message? : Note → Option Text
  | .unresolved number table => some (Text.ofInt number ++ " not found in " ++ table)
  | .damaged damage => some damage.message
  | .resource _ | .stringRef _ => none

class MonadNote (m : Type → Type) where
  note : Note → m Unit

/-- The number of the line to come, and what has been recorded about the lines before. -/
structure Log where
  line : Int := 1
  resources : Std.TreeSet Text := ∅
  stringRefs : Std.TreeSet Int := ∅
  diagnostics : Diagnostics := ∅

/-- A message replaces the one that is already there about its line. -/
def Log.record (log : Log) (note : Note) : Log where
  line := log.line
  resources := match note with
    | .resource name => log.resources.insert name
    | _ => log.resources
  stringRefs := match note with
    | .stringRef number => log.stringRefs.insert number
    | _ => log.stringRefs
  diagnostics := match note.message? with
    | some message => log.diagnostics.insert log.line message
    | none => log.diagnostics

/-- A pass is told whether to record, and given the log so far and the tokens that are left. -/
@[ext] structure Pass (α : Type) where
  run : Bool → Log → List Token → Except DecodeError α × Log × List Token
  suffix : ∀ collect log tokens, (run collect log tokens).2.2 <:+ tokens

namespace Pass

variable {α β σ : Type}

theorem length_run_le (pass : Pass α) (collect : Bool) (log : Log) (tokens : List Token) :
    (pass.run collect log tokens).2.2.length ≤ tokens.length :=
  (pass.suffix collect log tokens).length_le

def pure (value : α) : Pass α :=
  ⟨fun _ log tokens => (.ok value, log, tokens), fun _ _ _ => List.suffix_rfl⟩

def bind (pass : Pass α) (next : α → Pass β) : Pass β where
  run collect log tokens :=
    match pass.run collect log tokens with
    | (.ok value, log, rest) => (next value).run collect log rest
    | (.error error, log, rest) => (.error error, log, rest)
  suffix collect log tokens := by
    have first := pass.suffix collect log tokens
    split
    · next value log rest h =>
      rw [h] at first
      exact ((next value).suffix collect log rest).trans first
    · next error log rest h =>
      rw [h] at first
      exact first

instance : Monad Pass where
  pure := pure
  bind := bind

def fail (error : DecodeError) : Pass α :=
  ⟨fun _ log tokens => (.error error, log, tokens), fun _ _ _ => List.suffix_rfl⟩

/-- Goes on with `handle` where the error left off. -/
def recover (pass : Pass α) (handle : DecodeError → Pass α) : Pass α where
  run collect log tokens :=
    match pass.run collect log tokens with
    | (.error error, log, rest) => (handle error).run collect log rest
    | outcome => outcome
  suffix collect log tokens := by
    have first := pass.suffix collect log tokens
    split
    · next error log rest h =>
      rw [h] at first
      exact ((handle error).suffix collect log rest).trans first
    · exact first

instance : MonadExceptOf DecodeError Pass where
  throw := fail
  tryCatch := recover

def ofReader (reader : Reader α) : Pass α where
  run _ log tokens := ((reader.run tokens).1, log, (reader.run tokens).2)
  suffix _ _ tokens := reader.suffix tokens

instance : MonadLift Reader Pass := ⟨ofReader⟩

def record (note : Note) : Pass Unit :=
  ⟨fun collect log tokens => (.ok (), if collect then log.record note else log, tokens),
    fun _ _ _ => List.suffix_rfl⟩

instance : MonadNote Pass := ⟨record⟩

def newLines (count : Nat) : Pass Unit :=
  ⟨fun _ log tokens => (.ok (), { log with line := log.line + count }, tokens),
    fun _ _ _ => List.suffix_rfl⟩

def save : Pass Log := ⟨fun _ log tokens => (.ok log, log, tokens), fun _ _ _ => List.suffix_rfl⟩

def restore (saved : Log) : Pass Unit :=
  ⟨fun _ _ tokens => (.ok (), saved, tokens), fun _ _ _ => List.suffix_rfl⟩

def sweepRun (closing : Option Marker) (step : σ → Token → Pass σ) (collect : Bool) (made : σ)
    (log : Log) : List Token → Except DecodeError (σ × Bool) × Log × List Token
  | [] => (.ok (made, false), log, [])
  | token :: rest =>
    if closing.any fun marker => token.lexeme = .marker marker then (.ok (made, true), log, rest)
    else
      match _h : (step made token).run collect log rest with
      | (.ok made', log', left) => sweepRun closing step collect made' log' left
      | (.error error, log', left) => (.error error, log', left)
termination_by tokens => tokens.length
decreasing_by
  have := (step made token).length_run_le collect log rest
  simp only [_h] at this
  simp only [List.length_cons]
  omega

theorem sweepRun_suffix (closing : Option Marker) (step : σ → Token → Pass σ) (collect : Bool)
    (made : σ) (log : Log) (tokens : List Token) :
    (sweepRun closing step collect made log tokens).2.2 <:+ tokens := by
  fun_induction sweepRun closing step collect made log tokens with
  | case1 => exact List.suffix_rfl
  | case2 => exact List.suffix_cons _ _
  | case3 made log token rest _ made' log' left h ih =>
    have := (step made token).suffix collect log rest
    rw [h] at this
    exact ih.trans (this.trans (List.suffix_cons _ _))
  | case4 made log token rest _ error log' left h =>
    have := (step made token).suffix collect log rest
    rw [h] at this
    exact this.trans (List.suffix_cons _ _)

/-- Reads tokens up to a closing marker or, failing one, to the end, and changes what has been
made so far at each; true when the marker was there. -/
def sweep (closing : Option Marker) (step : σ → Token → Pass σ) (made : σ) : Pass (σ × Bool) where
  run collect := sweepRun closing step collect made
  suffix collect := sweepRun_suffix closing step collect made

def manyRun (marker : Marker) (item : Pass α) (collect : Bool) (log : Log) :
    List Token → Except DecodeError (List α) × Log × List Token
  | [] => (.ok [], log, [])
  | token :: rest =>
    if token.lexeme = .marker marker then
      match _h : item.run collect log rest with
      | (.ok value, log', left) =>
        let (values, log', left) := manyRun marker item collect log' left
        (values.map (value :: ·), log', left)
      | (.error error, log', left) => (.error error, log', left)
    else (.ok [], log, token :: rest)
termination_by tokens => tokens.length
decreasing_by
  have := item.length_run_le collect log rest
  simp only [_h] at this
  simp only [List.length_cons]
  omega

theorem manyRun_suffix (marker : Marker) (item : Pass α) (collect : Bool) (log : Log)
    (tokens : List Token) : (manyRun marker item collect log tokens).2.2 <:+ tokens := by
  fun_induction manyRun marker item collect log tokens with
  | case1 => exact List.suffix_rfl
  | case2 log token rest _ value log' left h values log'' left' h' ih =>
    have := item.suffix collect log rest
    rw [h] at this
    rw [h'] at ih
    exact ih.trans (this.trans (List.suffix_cons _ _))
  | case3 log token rest _ error log' left h =>
    have := item.suffix collect log rest
    rw [h] at this
    exact this.trans (List.suffix_cons _ _)
  | case4 => exact List.suffix_rfl

def many (marker : Marker) (item : Pass α) : Pass (List α) where
  run := manyRun marker item
  suffix := manyRun_suffix marker item

end Pass

def DecodeError.ofSignature {α : Type} {m : Type → Type} [Monad m] [MonadExceptOf DecodeError m]
    (x : Except ParameterFault α) : m α :=
  match x with
  | .ok a => pure a
  | .error fault => throw (.damage (.signature fault))

end InfinityScript
