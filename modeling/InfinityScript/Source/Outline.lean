import InfinityScript.Source.Line
import InfinityScript.Text.Basic
import InfinityScript.Text.Case

/-!
# Outline of a script

A script is a sequence of blocks

    IF
      triggers
    THEN
      RESPONSE #100
        actions
    END

The outline groups the statements of a source into blocks without looking into
them. It stops at a statement that stands where a block should begin. Among the
triggers, `OR(n)` opens a group of the `n` after it, which must be filled before
the condition ends and holds no other group.
-/

namespace InfinityScript.OrGroup

/-- The triggers still missing from the open group, after a trigger that asks for a
group of `count` and, at zero, for none; true when a group opened inside another. -/
def step (missing count : Int) : Int × Bool :=
  if count = 0 ∧ missing > 0 then (missing - 1, false)
  else if count > 0 ∧ missing > 0 then (missing, true)
  else (count, false)

end InfinityScript.OrGroup

namespace InfinityScript

inductive BodyLine (σ : Type)
  | response (weight : Option Text)
  | action (statement : σ)
  deriving DecidableEq, Repr

/-- A response line begins with RESPONSE; its weight follows the first `#`. -/
def BodyLine.ofText (text : Text) : BodyLine Text :=
  if Text.upper (text.take 8) = "RESPONSE" then
    .response ((Text.cut? '#' text).map fun (_, weight) => Text.trim weight)
  else .action text

/-- One block, with statements of type `σ`. `thenLine` and `endLine` are missing when
the source ends before them. -/
structure Block (σ : Type) where
  triggers : List (Nat × σ)
  thenLine : Option Nat
  body : List (Nat × BodyLine σ)
  endLine : Option Nat
  deriving DecidableEq, Repr

/-- The statements before one that reads `word`, its number, and those after it. -/
def Line.upTo (word : Text) : List Line → List Line × Option Nat × List Line
  | [] => ([], none, [])
  | line :: lines =>
    if Text.upper line.text = word then ([], some line.number, lines)
    else
      let (before, number, after) := upTo word lines
      (line :: before, number, after)

theorem Line.length_upTo_le (word : Text) (lines : List Line) :
    (Line.upTo word lines).2.2.length ≤ lines.length := by
  induction lines with
  | nil => simp [upTo]
  | cons line lines ih =>
    simp only [upTo]
    split
    · simp
    · exact Nat.le_succ_of_le ih

structure Outline where
  blocks : List (Block Text)
  /-- The number of a statement that should have been an IF. -/
  stray : Option Nat
  deriving DecidableEq, Repr

namespace Outline

def readBlock (lines : List Line) : Block Text × List Line :=
  let (triggers, thenLine, rest) := Line.upTo "THEN" lines
  let (body, endLine, rest) := Line.upTo "END" rest
  ({ triggers := triggers.map fun line => (line.number, line.text)
     thenLine
     body := body.map fun line => (line.number, BodyLine.ofText line.text)
     endLine }, rest)

theorem length_readBlock_le (lines : List Line) : (readBlock lines).2.length ≤ lines.length :=
  Nat.le_trans (Line.length_upTo_le _ _) (Line.length_upTo_le _ _)

def ofLines : List Line → Outline
  | [] => ⟨[], none⟩
  | line :: lines =>
    if Text.upper line.text ≠ "IF" then ⟨[], some line.number⟩
    else
      let read := readBlock lines
      let outline := ofLines read.2
      { outline with blocks := read.1 :: outline.blocks }
termination_by lines => lines.length
decreasing_by
  have := length_readBlock_le lines
  simp only [List.length_cons]
  omega

end Outline

end InfinityScript
