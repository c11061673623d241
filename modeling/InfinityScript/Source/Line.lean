import InfinityScript.Text.Basic

/-!
# Lines of a source

A source is read by statements: comments and blank lines are passed over, but
they count, so that a line number names a physical line.
-/

namespace InfinityScript

/-- A script source, as one text or as its physical lines. -/
inductive Source
  | text (text : Text)
  | lines (lines : List Text)
  deriving DecidableEq, Repr

def Source.notTextMessage : Text := "Input data must be a string or a list of strings"

def Source.physicalLines : Source → List Text
  | .text whole => Text.physicalLines whole
  | .lines pieces => pieces

structure Line where
  number : Nat
  text : Text
  deriving DecidableEq, Repr

/-- The statements among physical lines of which the first has the number `first`. -/
def Line.statements (first : Nat) : List Text → List Line
  | [] => []
  | line :: lines =>
    let text := Text.statement line
    if text = [] then statements (first + 1) lines
    else ⟨first, text⟩ :: statements (first + 1) lines

structure Listing where
  lines : List Line
  length : Nat
  deriving DecidableEq, Repr

def Source.listing (source : Source) : Listing where
  lines := Line.statements 1 source.physicalLines
  length := source.physicalLines.length

/-- A place in a source: `index` physical lines have been read, and the last of them has the
number `number`, which is zero at the start. -/
structure LineReader where
  lines : List Text
  index : Nat := 0
  number : Nat := 0
  deriving DecidableEq, Repr

namespace LineReader

def ofSource (source : Source) : LineReader := { lines := source.physicalLines }

def hasMore (reader : LineReader) : Bool × LineReader :=
  (reader.index < reader.lines.length, reader)

def advance (reader : LineReader) (count : Nat) : LineReader :=
  { reader with index := reader.index + count, number := reader.number + count }

/-- The first statement of the lines `left` that come next, and the place after it; the text
is empty when there is none. -/
def seek (reader : LineReader) : List Text → Text × LineReader
  | [] => ([], reader)
  | line :: left =>
    let text := Text.statement line
    if text = [] then (reader.advance 1).seek left else (text, reader.advance 1)

def next (reader : LineReader) : Text × LineReader := reader.seek (reader.lines.drop reader.index)

/-- Reads the next statement and goes back to the place before it. -/
def peek (reader : LineReader) : Text × LineReader :=
  let (text, ahead) := reader.next
  (text, { ahead with index := reader.index, number := reader.number })

def restart (reader : LineReader) : LineReader := { reader with index := 0, number := 0 }

theorem lines_seek (reader : LineReader) (left : List Text) :
    (reader.seek left).2.lines = reader.lines := by
  induction left generalizing reader with
  | nil => rfl
  | cons line left ih =>
    rw [seek]
    split
    · exact ih (reader.advance 1)
    · rfl

theorem seek_index {reader : LineReader} {left : List Text} (h : (reader.seek left).1 ≠ []) :
    reader.index < (reader.seek left).2.index ∧
      (reader.seek left).2.index ≤ reader.index + left.length := by
  induction left generalizing reader with
  | nil => exact absurd rfl h
  | cons line left ih =>
    rw [seek] at h ⊢
    split at h
    · next blank =>
      have ahead := ih h
      have step : (reader.advance 1).index = reader.index + 1 := rfl
      rw [if_pos blank, List.length_cons]
      omega
    · next said =>
      rw [if_neg said, List.length_cons]
      exact ⟨Nat.lt_succ_self _, Nat.add_le_add_left (Nat.succ_le_succ (Nat.zero_le _)) _⟩

theorem next_index {reader : LineReader} (h : reader.next.1 ≠ []) :
    reader.index < reader.next.2.index ∧ reader.next.2.index ≤ reader.lines.length := by
  obtain ⟨low, high⟩ := seek_index h
  rw [List.length_drop] at high
  refine ⟨low, ?_⟩
  change (reader.seek (reader.lines.drop reader.index)).2.index ≤ reader.lines.length
  omega

def readAll (reader : LineReader) : List Line × LineReader :=
  if _ : reader.next.1 = [] then ([], reader.next.2)
  else
    let (lines, last) := readAll reader.next.2
    (⟨reader.next.2.number, reader.next.1⟩ :: lines, last)
termination_by reader.lines.length - reader.index
decreasing_by
  have := @next_index reader (by assumption)
  have : reader.next.2.lines = reader.lines := reader.lines_seek _
  rw [this]
  omega

end LineReader

end InfinityScript
