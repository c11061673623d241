import Std.Data.TreeMap
import Std.Data.TreeSet
import InfinityScript.Symbol.Entry

/-!
# Symbols

All that a script is compiled and decompiled against: the symbol tables, the
resources of the game, its string table, descriptions shown as comments, and the
script names of creatures and areas.

A table is read in both directions. The first entry of an id is its base
definition and the second its overflow definition; of entries with the same
name, in any case, the first counts.
-/

namespace InfinityScript

/-- The entries in the order they were added, with an index for each lookup. -/
structure Table where
  name : Text
  entries : Array Entry := #[]
  byId : Std.TreeMap Int Entry := ∅
  overflowById : Std.TreeMap Int Entry := ∅
  byName : Std.TreeMap Text Entry := ∅

namespace Table

def empty (name : Text) : Table := { name := tableName name }

def add (table : Table) (entry : Entry) : Table :=
  let key := Text.upper entry.name
  { table with
    entries := table.entries.push entry
    byId := table.byId.insertIfNew entry.id entry
    overflowById :=
      if table.byId.contains entry.id then table.overflowById.insertIfNew entry.id entry
      else table.overflowById
    byName := table.byName.insertIfNew key entry }

/-- Ids may be written signed or unsigned, so a negative id is also tried 2^32
higher. -/
def wrapped (index : Std.TreeMap Int Entry) (id : Int) : Option Entry :=
  match index[id]? with
  | some entry => some entry
  | none => if id < 0 then index[id + 4294967296]? else none

def get? (table : Table) (id : Int) : Option Entry := wrapped table.byId id

def getOverflow? (table : Table) (id : Int) : Option Entry := wrapped table.overflowById id

def lookup? (table : Table) (name : Text) : Option Entry :=
  table.byName[Text.upper (Text.trim name)]?

def size (table : Table) : Nat := table.entries.size

end Table

/-- Script names are compared in lower case and without spaces. -/
def scriptNameKey (name : Text) : Text := (Text.lower name).filter (· ≠ ' ')

structure ScriptNames where
  creatures : Std.TreeSet Text := ∅
  areas : Std.TreeSet Text := ∅

namespace ScriptNames

def ofLists (creatures areas : List Text) : ScriptNames where
  creatures := .ofList (creatures.map scriptNameKey)
  areas := .ofList (areas.map scriptNameKey)

def hasCreature (names : ScriptNames) (name : Text) : Bool :=
  names.creatures.contains (scriptNameKey name)

def hasArea (names : ScriptNames) (name : Text) : Bool :=
  names.areas.contains (scriptNameKey name)

end ScriptNames

structure Symbols where
  tables : Std.TreeMap Text Table := ∅
  resources : Std.TreeSet Text := ∅
  strings : Std.TreeMap Int Text := ∅
  descriptions : Std.TreeMap Text Text := ∅
  scriptNames : Option ScriptNames := none

namespace Symbols

/-- The pairs of a list with each key once, where it stands first, and with the
value that the key has last. -/
def lastValues (pairs : List (Text × Text)) : List (Text × Text) :=
  pairs.foldl (fun kept (key, value) =>
    if kept.any (·.1 == key) then kept.map fun pair => if pair.1 = key then (key, value) else pair
    else kept ++ [(key, value)]) []

/-- Symbols from their parts. A later table replaces an earlier one of the same
name; resources and descriptions are filed under upper case names. -/
def build (tables : List Table) (resources : List Text) (strings : List (Int × Text))
    (descriptions : List (Text × Text)) (scriptNames : Option ScriptNames) : Symbols where
  tables := .ofList (tables.map fun table => (table.name, table))
  resources := .ofList (resources.map Text.upper)
  strings := .ofList strings
  descriptions :=
    .ofList ((lastValues descriptions).map fun (name, text) => (Text.upper name, text))
  scriptNames

def table? (symbols : Symbols) (name : Text) : Option Table := symbols.tables[tableName name]?

def byName? (symbols : Symbols) (table name : Text) : Option Entry :=
  (symbols.table? table).bind (·.lookup? name)

def byId? (symbols : Symbols) (table : Text) (id : Int) : Option Entry :=
  (symbols.table? table).bind (·.get? id)

def overflowById? (symbols : Symbols) (table : Text) (id : Int) : Option Entry :=
  (symbols.table? table).bind (·.getOverflow? id)

def hasResource (symbols : Symbols) (name : Text) : Bool :=
  symbols.resources.contains (Text.upper name)

def description? (symbols : Symbols) (resource : Text) : Option Text :=
  symbols.descriptions[Text.upper resource]?

def string? (symbols : Symbols) (number : Int) : Option Text := symbols.strings[number]?

end Symbols

end InfinityScript
