import InfinityScript.Code.Pass

/-!
# Lines of decompiled source

Source can be seen as lines, each of which carries the notes made on the way to it. A reader
then makes lines and keeps no count: a line that is dropped takes its notes with it, and the
number of a line is its place among the others.
-/

namespace InfinityScript

instance : MonadNote (Noted Note) := ⟨Noted.note⟩

/-- A line without its line feed. -/
structure SourceLine where
  text : Text
  notes : List Note := []
  deriving DecidableEq, Repr

namespace SourceLine

def ofDamage (damage : Damage) : SourceLine where
  text := "Error - " ++ damage.message
  notes := [.damaged damage]

def indented (line : SourceLine) (indent : Text) : SourceLine :=
  { line with text := indent ++ line.text }

end SourceLine

abbrev Expressing := NotedT DecodeError Note

namespace Expressing

variable {α : Type}

instance : MonadNote Expressing := ⟨NotedT.note⟩

def ofNoted (x : Noted Note α) : Expressing α := ExceptT.lift x

/-- The line of a record that has been read; notes made before an error are lost. -/
def line (x : Expressing Text) : Reader SourceLine :=
  match x.outcome with
  | ⟨.ok text, notes⟩ => pure { text, notes }
  | ⟨.error error, _⟩ => Reader.fail error

end Expressing

namespace Reader

variable {α σ : Type}

def recover (reader : Reader α) (handle : Damage → Reader α) : Reader α where
  run tokens :=
    match reader.run tokens with
    | (.error (.damage damage), rest) => (handle damage).run rest
    | outcome => outcome
  suffix tokens := by
    have first := reader.suffix tokens
    split
    · next damage rest h =>
      rw [h] at first
      exact ((handle damage).suffix rest).trans first
    · exact first

def sweepRun (closing : Option Marker) (step : σ → Token → Reader σ) (state : σ) :
    List Token → Except DecodeError (σ × Bool) × List Token
  | [] => (.ok (state, false), [])
  | token :: rest =>
    if closing.any fun marker => token.lexeme = .marker marker then (.ok (state, true), rest)
    else
      match _h : (step state token).run rest with
      | (.ok state', left) => sweepRun closing step state' left
      | (.error error, left) => (.error error, left)
termination_by tokens => tokens.length
decreasing_by
  have := (step state token).length_run_le rest
  simp only [_h] at this
  simp only [List.length_cons]
  omega

theorem sweepRun_suffix (closing : Option Marker) (step : σ → Token → Reader σ) (state : σ)
    (tokens : List Token) : (sweepRun closing step state tokens).2 <:+ tokens := by
  fun_induction sweepRun closing step state tokens with
  | case1 => exact List.suffix_rfl
  | case2 => exact List.suffix_cons _ _
  | case3 state token rest _ state' left h ih =>
    have := (step state token).suffix rest
    rw [h] at this
    exact ih.trans (this.trans (List.suffix_cons _ _))
  | case4 state token rest _ error left h =>
    have := (step state token).suffix rest
    rw [h] at this
    exact this.trans (List.suffix_cons _ _)

def sweep (closing : Option Marker) (step : σ → Token → Reader σ) (state : σ) :
    Reader (σ × Bool) where
  run := sweepRun closing step state
  suffix := sweepRun_suffix closing step state

def manyRun (marker : Marker) (item : Reader α) :
    List Token → Except DecodeError (List α) × List Token
  | [] => (.ok [], [])
  | token :: rest =>
    if token.lexeme = .marker marker then
      match _h : item.run rest with
      | (.ok value, left) =>
        let (values, left) := manyRun marker item left
        (values.map (value :: ·), left)
      | (.error error, left) => (.error error, left)
    else (.ok [], token :: rest)
termination_by tokens => tokens.length
decreasing_by
  have := item.length_run_le rest
  simp only [_h] at this
  simp only [List.length_cons]
  omega

theorem manyRun_suffix (marker : Marker) (item : Reader α) (tokens : List Token) :
    (manyRun marker item tokens).2 <:+ tokens := by
  fun_induction manyRun marker item tokens with
  | case1 => exact List.suffix_rfl
  | case2 token rest _ value left h values left' h' ih =>
    have := item.suffix rest
    rw [h] at this
    rw [h'] at ih
    exact ih.trans (this.trans (List.suffix_cons _ _))
  | case3 token rest _ error left h =>
    have := item.suffix rest
    rw [h] at this
    exact this.trans (List.suffix_cons _ _)
  | case4 => exact List.suffix_rfl

def many (marker : Marker) (item : Reader α) : Reader (List α) where
  run := manyRun marker item
  suffix := manyRun_suffix marker item

end Reader

end InfinityScript
