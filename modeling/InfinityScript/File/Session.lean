import InfinityScript.Code.Reader
import InfinityScript.Console.Report
import InfinityScript.Fault
import InfinityScript.File.Tree
import InfinityScript.Game
import InfinityScript.Symbol.Table
import InfinityScript.Symbol.Reading

/-!
# Sessions

A tool reads and writes files and prints lines. What it has printed and written
before it fails stays.
-/

namespace InfinityScript

inductive Failure
  | unknownGame (name : Text)
  | missingFile (path : Path)
  | missingFolder (path : Path)
  | unsupportedExtension (extension : Text)
  | encrypted (path : Option Path)
  | noCode
  | path (fault : PathFault) (path : Path)
  /-- A path has a character that ends texts of the file system. -/
  | nulInPath
  | codepage (fault : Codepage.Fault)
  | halt (reason : Halt)
  | decode (error : DecodeError)
  | numeral (fault : NumeralFault)
  | repetition (fault : RepeatFault)
  /-- No scripts were named. -/
  | noScripts
  /-- No folder of scripts was named. -/
  | noScriptFolder
  /-- No folder of symbol tables was named. -/
  | noSymbolFolder
  | missingScript
  | missingScriptFolder
  | outputNotFolder
  deriving DecidableEq, Repr

def Failure.message : Failure → Text
  | .unknownGame name => Game.unknownMessage name
  | .missingFile file => "File does not exist... '" ++ file.render ++ "'"
  | .missingFolder folder => "Directory does not exist... '" ++ folder.render ++ "'"
  | .unsupportedExtension extension => "Unsupported script extension `" ++ extension ++ "`..."
  | .encrypted none => "Encrypted scripts are not supported..."
  | .encrypted (some file) => "Encrypted scripts are not supported... '" ++ file.render ++ "'"
  | .noCode => "The script has no compiled code!"
  | .path fault file => fault.message file
  | .codepage fault => fault.message
  | .nulInPath => "embedded null byte"
  | .halt reason => reason.message
  | .decode (.damage damage) => damage.message
  | .decode (.abort abort) => abort.message
  | .numeral fault => fault.message
  | .repetition fault => fault.message
  | .noScripts => "No input script file name or directory specified!"
  | .noScriptFolder => "No input directory specified!"
  | .noSymbolFolder => "No IDS directory specified!"
  | .missingScript => "The input file does not exist!"
  | .missingScriptFolder => "The input directory does not exist!"
  | .outputNotFolder => "Expected output to be a directory!"

/-- Failures that say a kind of script is not handled. -/
def Failure.isUnsupported : Failure → Bool
  | .unsupportedExtension _ | .encrypted _ => true
  | _ => false

structure Workspace where
  tree : Tree
  /-- The folder in which paths are looked up. -/
  folder : Path
  printed : List Text := []

abbrev Session := ExceptT Failure (StateM Workspace)

namespace Session

def print (line : Text) : Session Unit :=
  modify fun space => { space with printed := space.printed ++ [line] }

def printAll (lines : List Text) : Session Unit :=
  modify fun space => { space with printed := space.printed ++ lines }

def resolve (text : Text) : Session Path := do
  if '\x00' ∈ text then throw .nulInPath
  return Path.resolve (← get).folder text

def ask (path : Path) (question : Tree → Path → Bool) : Session Bool := do
  match (← get).tree.ask path question with
  | .ok answer => return answer
  | .error fault => throw (.path fault path)

def has (path : Path) : Session Bool :=
  ask path fun tree path => tree.isFile path || tree.isFolder path

def isFolder (path : Path) : Session Bool := ask path Tree.isFolder

def read (path : Path) : Session Bytes := do
  match (← get).tree.read path with
  | .ok bytes => return bytes
  | .error fault => throw (.path fault path)

def decode (bytes : Bytes) : Session Text :=
  match Codepage.decode bytes with
  | .ok text => pure text
  | .error fault => throw (.codepage fault)

/-- Reads a text file; its line ends become line feeds. -/
def readText (path : Path) : Session Text := do
  return Text.unifyLineEnds (← decode (← read path))

def write (path : Path) (bytes : Bytes) : Session Unit := do
  let space ← get
  match space.tree.write path bytes with
  | .ok tree => set { space with tree }
  | .error fault => throw (.path fault path)

/-- Writes a text file. The file is emptied first, so a text that cannot be encoded
leaves an empty file. -/
def writeText (path : Path) (text : Text) : Session Unit := do
  write path []
  match Codepage.encode text with
  | .ok bytes => write path bytes
  | .error fault => throw (.codepage fault)

def makeOneFolder (path : Path) : Session Unit := do
  let space ← get
  match space.tree.makeFolder path with
  | .ok tree => set { space with tree }
  | .error fault => unless ← isFolder path do throw (.path fault path)

/-- Makes the folder that the first `depth` names of a path lead to, after those above
it that are not there. -/
def makeFolderAt (path : Path) : Nat → Session Unit
  | 0 => makeOneFolder []
  | depth + 1 => do
    let folder := path.take (depth + 1)
    if (← get).tree.obstacle? folder = some .notFound then makeFolderAt path depth
    makeOneFolder folder

def makeFolder (path : Path) : Session Unit := makeFolderAt path path.length

def game (name : Text) : Session Game :=
  match Game.ofName? name with
  | some game => pure game
  | none => throw (.unknownGame name)

def readTable (path : Path) : Session Table := do
  unless ← has path do throw (.missingFile path)
  let ⟨table, skipped⟩ := (Table.load path.name (← readText path)).outcome
  printAll (skipped.map fun line => Report.warning line.message)
  match table with
  | .ok table => return table
  | .error fault => throw (.numeral fault)

/-- The symbols of a folder: its symbol tables, and all other files as resources. -/
def readSymbols (path : Path) : Session Symbols := do
  unless ← isFolder path do throw (.missingFolder path)
  let files := (← get).tree.filesIn path false
  let (tables, resources) := files.partition fun file => Text.upper file.suffix = ".IDS"
  return Symbols.build (← tables.mapM readTable) (resources.map Path.name) [] [] none

end Session

end InfinityScript
