import InfinityScript.Console.Report
import InfinityScript.Text.Basic
import InfinityScript.Text.Numeral

/-!
# Differences of texts

The first line in which two texts differ, with the differing characters coloured.
-/

namespace InfinityScript.Difference

def paintPair (pair : Char × Char) : Text × Text :=
  if pair.1 = pair.2 then ([pair.1], [pair.2])
  else (Colour.paint Colour.red [pair.1], Colour.paint Colour.green [pair.2])

/-- Two lines padded to the same length, with what differs coloured, and whether
anything does. -/
def paintLines (a b : Text) : Bool × Text × Text :=
  let width := max a.length b.length
  let pairs := (Text.padRight width a).zip (Text.padRight width b)
  (pairs.any fun pair => pair.1 ≠ pair.2,
    pairs.flatMap fun pair => (paintPair pair).1, pairs.flatMap fun pair => (paintPair pair).2)

/-- The first pair of lines that differ, with its number; a missing line is an
empty one. -/
def firstFrom (number : Nat) : List Text → List Text → Option (Nat × Text × Text)
  | [], [] => none
  | a :: as, [] => if a = [] then firstFrom (number + 1) as [] else some (number, a, [])
  | [], b :: bs => if b = [] then firstFrom (number + 1) [] bs else some (number, [], b)
  | a :: as, b :: bs => if a = b then firstFrom (number + 1) as bs else some (number, a, b)

def numbered (number : Nat) (line name : Text) : Text :=
  Text.padLeft 6 (Text.ofNat number) ++ " | " ++ line ++ " # " ++ name

/-- The number of the first line in which two texts differ, zero when there is none,
and the lines that show it. -/
def find (new ref nameNew nameRef : Text) : Nat × List Text :=
  match firstFrom 1 (Text.displayLines new) (Text.displayLines ref) with
  | none => (0, [])
  | some (number, a, b) =>
    let (_, paintedNew, paintedRef) := paintLines a b
    (number, [numbered number paintedNew nameNew, numbered number paintedRef nameRef])

end InfinityScript.Difference
