import InfinityScript.Code.Reader
import InfinityScript.Game
import InfinityScript.Scope
import InfinityScript.Word

/-!
# Object records

An object is written

    OB
    leading numbers, five qualifiers, [area], "name", trailing numbers OB

The identifier vector says what the object is like, the qualifiers whom it stands
near. Whether there is an area, and how the vector is divided, is up to the
profile.
-/

namespace InfinityScript

def anyone : Text := "[ANYONE]"

/-- The area field of an object without an area. -/
def noArea : Text := "[-1.-1.-1.-1]"

structure ObjectRecord where
  numbers : List Int
  area : Option Text
  name : Text
  deriving DecidableEq, Repr

namespace ObjectRecord

def vector (profile : Profile) (record : ObjectRecord) : List Int :=
  window 0 profile.leadingWidth record.numbers ++
    window (profile.leadingWidth + 5) record.numbers.length record.numbers

/-- The qualifiers, innermost first. -/
def qualifiers (profile : Profile) (record : ObjectRecord) : List Int :=
  window profile.leadingWidth (profile.leadingWidth + 5) record.numbers

def read (profile : Profile) : Reader ObjectRecord := do
  let before ← Reader.numbers
  let area ← Reader.coordinate?
  let name ← Reader.string
  let after ← Reader.numbers
  Reader.marker .object
  let record : ObjectRecord := { numbers := before ++ after, area, name }
  if record.numbers.length ≠ profile.objectNumberCount then
    Reader.fail (.damage (.objectWidth profile.objectNumberCount record.numbers.length))
  else if record.qualifiers profile = [] then Reader.fail (.abort .noQualifiers)
  else return record

end ObjectRecord

namespace Profile

def checkLeading (profile : Profile) : Except RepeatFault Unit :=
  Text.checkRepeat 2 profile.leadingWidth

def checkTrailing (profile : Profile) : Except RepeatFault Unit :=
  Text.checkRepeat 2 profile.trailingWidth

def checkWidths (profile : Profile) : Except RepeatFault Unit := do
  profile.checkLeading
  if profile.hasObjectArea ∧ profile.trailingWidth ≠ 0 then profile.checkTrailing

def leadingZeros (profile : Profile) : Text :=
  (List.replicate profile.leadingWidth.toNat ("0 " : Text)).flatten

/-- The trailing numbers of an object without identifiers; only objects that carry an
area have any. -/
def trailingZeros (profile : Profile) : Text :=
  if profile.hasObjectArea then
    ' ' :: (List.replicate profile.trailingWidth.toNat ("0 " : Text)).flatten
  else []

def leadingText (profile : Profile) (vector : List Int) : Text :=
  Text.join " " ((window 0 profile.leadingWidth vector).map Text.ofInt) ++ " "

def trailingText (profile : Profile) (vector : List Int) : Text :=
  ' ' :: Text.join " " ((window profile.leadingWidth vector.length vector).map Text.ofInt) ++ " "

/-- The five qualifier numbers for qualifiers given outermost first. -/
def qualifierText (qualifiers : List Int) : Text :=
  (qualifiers.reverse ++ List.replicate (5 - qualifiers.length) 0).flatMap fun id =>
    Text.ofInt (toSigned32 id) ++ " "

/-- What follows the qualifiers: the area and the trailing numbers where the
profile has them, the name, and the closing marker. -/
def objectTail (profile : Profile) (area name trailing : Text) : Text :=
  if ¬ profile.hasObjectArea then name ++ "OB"
  else if profile.trailingWidth ≠ 0 then area ++ " " ++ name ++ trailing ++ "OB"
  else area ++ " " ++ name ++ "OB"

def objectLayout (profile : Profile) (leading : Text) (qualifiers : List Int)
    (area name trailing : Text) : Text :=
  "OB\n" ++ leading ++ qualifierText qualifiers ++ profile.objectTail area name trailing

def emptyObject (profile : Profile) : Text :=
  profile.objectLayout profile.leadingZeros [0] noArea emptyString profile.trailingZeros

end Profile

end InfinityScript
