import InfinityScript.Text.Case

/-!
# Resources named by strings

A string argument often names a resource of the game. What kind of resource
follows from the declaration of the parameter, and for some declarations from
the function it is passed to. A kind is given by file extensions.
-/

namespace InfinityScript.Resource

/-- The resource kinds of a declaration, whatever the function. -/
def byDefinition : List (Text × List Text) := [
  ("S:DIALOGFILE*", [".DLG", ".VEF", ".VVC"]),
  ("S:CUTSCENE*", [".BCS"]),
  ("S:SCRIPTFILE*", [".BCS"]),
  ("S:SCRIPT*", [".BCS"]),
  ("S:ITEM*", [".ITM"]),
  ("S:ITEM", [".ITM"]),
  ("S:TAKE*", [".ITM"]),
  ("S:GIVE*", [".ITM"]),
  ("S:OLDOBJECT*", [".ITM"]),
  ("S:SOUND*", [".WAV"]),
  ("S:VOICE*", [".WAV"]),
  ("S:TEXTLIST*", [".2DA"]),
  ("S:EFFECT*", [".BAM", ".VEF", ".VVC"]),
  ("S:PARCHMENT*", [".MOS"]),
  ("S:SPELL*", [".SPL"]),
  ("S:RES*", [".SPL"]),
  ("S:STORE*", [".STO"]),
  ("S:TOAREA*", [".ARE"]),
  ("S:AREANAME*", [".ARE"]),
  ("S:FROMAREA*", [".ARE"]),
  ("S:AREA*", [".ARE"]),
  ("S:AREA1*", [".ARE"]),
  ("S:AREA2*", [".ARE"]),
  ("S:BAMRESREF*", [".BAM"]),
  ("S:POOL*", [".SRC"]),
  ("S:PALETTE*", [".BMP"])]

/-- The declarations that leave the kind to the function. -/
def functionDefinitions : List Text := ["S:RESREF*", "S:OBJECT*", "S:NEWOBJECT*"]

def byFunction : List (List Text × List Text) := [
  ([".ITM"],
    ["DropItem", "EquipItem", "GetItem", "GiveItem", "UseItem", "HasItem", "Contains", "NumItems",
      "NumItemsGT", "NumItemsLT", "NumItemsParty", "NumItemsPartyGT", "NumItemsPartyLT",
      "HasItemEquiped", "PartyHasItem", "PartyHasItemIdentified", "HasItemEquipedReal", "Acquired",
      "Unusable", "CreateItem", "GiveItemCreate", "DestroyItem", "TakePartyItemNum",
      "CreateItemNumGlobal", "CreateItemGlobal", "PickUpItem"]),
  ([".CRE"],
    ["ChangeAnimation", "ChangeAnimationNoEffect", "CreateCreature", "CreateCreatureObject",
      "CreateCreatureImpassable", "CreateCreatureDoor", "CreateCreatureObjectDoor",
      "CreateCreatureObjectOffScreen", "CreateCreatureOffScreen", "CreateCreatureAtLocation",
      "CreateCreatureObjectCopy", "CreateCreatureObjectOffset", "CreateCreatureCopyPoint",
      "CreateCreatureImpassableAllowOverlap"]),
  ([".ARE"],
    ["AreaCheck", "AreaCheckObject", "RevealAreaOnMap", "HideAreaOnMap", "CopyGroundPilesTo",
      "EscapeAreaObjectMove"]),
  ([], ["G", "GGT", "GLT"]),
  ([".2DA"], ["IncrementChapter", "TakeItemListParty", "TakeItemListPartyNum"]),
  ([".MVE"], ["StartMovie"]),
  ([".SPL"], ["AddSpecialAbility"]),
  ([".VEF", ".VVC", ".BAM"], ["CreateVisualEffect"])]

/-- The kinds a function may take when no line of `byFunction` names it. -/
def anyKind : List Text :=
  [".CRE", ".ITM", ".ARE", ".2DA", ".BCS", ".MVE", ".SPL", ".DLG", ".VEF", ".VVC", ".BAM"]

def kindsOfFunction (function : Text) : List Text :=
  match byFunction.find? fun (_, functions) => functions.any (Text.sameWord function) with
  | some (kinds, _) => kinds
  | none => anyKind

def kinds (function definition : Text) : List Text :=
  let definition := Text.upper definition
  if definition ∈ functionDefinitions then kindsOfFunction function
  else (byDefinition.lookup definition).getD []

end InfinityScript.Resource
