import InfinityScript.Text.Case
import InfinityScript.Text.Numeral

/-!
# Games

The games whose scripts are compiled. Games of one family lay out their scripts
in the same way. A profile says how: which tables the identifier vector of an
object draws on, how many of its numbers stand before the five qualifiers, and
whether records carry the optional area and point fields.
-/

namespace InfinityScript

inductive Family
  | none
  | baldursGate
  | torment
  | icewindDale
  | icewindDale2
  deriving DecidableEq, Repr

def Family.name : Family → Text
  | .none => "NONE"
  | .baldursGate => "BG"
  | .torment => "PST"
  | .icewindDale => "IWD"
  | .icewindDale2 => "IWD2"

inductive Game
  | none
  | bg1
  | bg1TotSC
  | bg2SoA
  | bg2ToB
  | bgEE
  | bg2EE
  | torment
  | icewind
  | icewindHoW
  | icewindHoWToT
  | iwdEE
  | icewind2
  deriving DecidableEq, Repr

namespace Game

def all : List Game :=
  [.none, .bg1, .bg1TotSC, .bg2SoA, .bg2ToB, .bgEE, .bg2EE, .torment, .icewind, .icewindHoW,
    .icewindHoWToT, .iwdEE, .icewind2]

def name : Game → Text
  | .none => "NONE"
  | .bg1 => "BG1"
  | .bg1TotSC => "BG1TOTSC"
  | .bg2SoA => "BG2SOA"
  | .bg2ToB => "BG2TOB"
  | .bgEE => "BGEE"
  | .bg2EE => "BG2EE"
  | .torment => "TORMENT"
  | .icewind => "ICEWIND"
  | .icewindHoW => "ICEWINDHOW"
  | .icewindHoWToT => "ICEWINDHOWTOT"
  | .iwdEE => "IWDEE"
  | .icewind2 => "ICEWIND2"

/-- The enhanced edition of the first Icewind Dale runs on the engine of the other
enhanced editions. -/
def family : Game → Family
  | .none => .none
  | .bg1 | .bg1TotSC | .bg2SoA | .bg2ToB | .bgEE | .bg2EE | .iwdEE => .baldursGate
  | .torment => .torment
  | .icewind | .icewindHoW | .icewindHoWToT => .icewindDale
  | .icewind2 => .icewindDale2

def default : Game := .bg2SoA

def ofName? (name : Text) : Option Game := all.find? fun game => game.name == Text.upper name

def unknownMessage (name : Text) : Text :=
  "Unknown game type `" ++ name ++ "`... expected one of [" ++
    Text.join ", " (all.map fun game => ("'" : Text) ++ game.name ++ "'") ++ "]"

end Game

structure Profile where
  game : Game
  /-- The tables of the identifier vector, in order. -/
  objectTables : List Text
  /-- How many numbers of the vector stand before the qualifiers; the others stand
  after the object's name. -/
  leadingWidth : Int
  /-- Objects carry an area `[x.y.w.h]`. -/
  hasObjectArea : Bool
  /-- Triggers carry a point `[x,y]`. -/
  hasTriggerPoint : Bool
  deriving DecidableEq, Repr

namespace Profile

def vectorWidth (profile : Profile) : Nat := profile.objectTables.length

def trailingWidth (profile : Profile) : Int := profile.vectorWidth - profile.leadingWidth

/-- The identifier vector and the five qualifiers. -/
def objectNumberCount (profile : Profile) : Nat := profile.vectorWidth + 5

/-- A profile of one's own; without a leading width the whole vector leads. -/
def custom (game : Game) (objectTables : List Text) (leadingWidth : Option Int)
    (hasObjectArea hasTriggerPoint : Bool) : Profile where
  game
  objectTables
  leadingWidth := leadingWidth.getD objectTables.length
  hasObjectArea
  hasTriggerPoint

def ofGame (game : Game) : Profile :=
  match game.family with
  | .torment =>
    custom game ["EA.IDS", "FACTION.IDS", "TEAM.IDS", "GENERAL.IDS", "RACE.IDS", "CLASS.IDS",
      "SPECIFIC.IDS", "GENDER.IDS", "ALIGN.IDS"] none true true
  | .icewindDale2 =>
    custom game ["EA.IDS", "GENERAL.IDS", "RACE.IDS", "CLASS.IDS", "SPECIFIC.IDS", "GENDER.IDS",
      "ALIGNMNT.IDS", "SUBRACE.IDS", "CLASS.IDS", "CLASSMSK.IDS"] (some 8) true false
  | .icewindDale => custom game standardTables none true false
  | .none | .baldursGate => custom game standardTables none false false
where
  standardTables : List Text :=
    ["EA.IDS", "GENERAL.IDS", "RACE.IDS", "CLASS.IDS", "SPECIFIC.IDS", "GENDER.IDS", "ALIGN.IDS"]

def describe (profile : Profile) : Text :=
  "GameProfile(" ++ profile.game.name ++ ", width=" ++ Text.ofNat profile.vectorWidth ++ ")"

end Profile

end InfinityScript
