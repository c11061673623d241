import Std.Data.TreeMap
import Std.Data.TreeSet
import InfinityScript.Codepage
import InfinityScript.Text.Basic
import InfinityScript.Text.Case
import InfinityScript.Text.Quoted

/-!
# File trees

The files and folders that a tool works on, by their absolute paths. The folder
of a file or folder in a tree is in the tree as well.
-/

namespace InfinityScript

abbrev Path := List Text

namespace Path

def resolve (folder : Path) (text : Text) : Path :=
  let start := if text.head? = some '/' then [] else folder
  (Text.splitOn '/' text).foldl (fun path name =>
    if name = [] ∨ name = "." then path
    else if name = ".." then path.dropLast
    else path ++ [name]) start

def render (path : Path) : Text := '/' :: Text.join "/" path

def name (path : Path) : Text := path.getLast?.getD []

/-- A name in front of its last dot and from the dot on. A dot at either end of the
name divides nothing. -/
def divide (name : Text) : Text × Text :=
  match Text.cutLast? '.' name with
  | some (stem, ending) => if stem = [] ∨ ending = [] then (name, []) else (stem, '.' :: ending)
  | none => (name, [])

def stem (path : Path) : Text := (divide path.name).1

def suffix (path : Path) : Text := (divide path.name).2

def extension (path : Path) : Text := (Text.lower path.suffix).drop 1

def withSuffix (path : Path) (suffix : Text) : Path := path.dropLast ++ [path.stem ++ suffix]

/-- How many bytes a text takes in the file system. -/
def byteSize (text : Text) : Nat := (String.ofList text).utf8ByteSize

def longestName : Nat := 255

def longestPath : Nat := 4095

end Path

structure Tree where
  files : Std.TreeMap Path Bytes := ∅
  folders : Std.TreeSet Path := ∅

inductive PathFault
  | notFound
  | exists
  | notFolder
  | isFolder
  | nameTooLong
  deriving DecidableEq, Repr

def PathFault.message (fault : PathFault) (path : Path) : Text :=
  let reason : Text := match fault with
    | .notFound => "[Errno 2] No such file or directory"
    | .exists => "[Errno 17] File exists"
    | .notFolder => "[Errno 20] Not a directory"
    | .isFolder => "[Errno 21] Is a directory"
    | .nameTooLong => "[Errno 36] File name too long"
  reason ++ ": " ++ Text.quoted path.render

namespace Tree

def isFile (tree : Tree) (path : Path) : Bool := tree.files.contains path

/-- The root is always there. -/
def isFolder (tree : Tree) (path : Path) : Bool := path.isEmpty || tree.folders.contains path

def above (path : Path) : List Path := (List.range path.length).map path.take

def addFolder (tree : Tree) (path : Path) : Tree :=
  { tree with folders := (path :: above path).foldl (·.insert ·) tree.folders }

def addFile (tree : Tree) (path : Path) (bytes : Bytes) : Tree :=
  let tree := tree.addFolder path.dropLast
  { tree with files := tree.files.insert path bytes }

/-- Why names cannot be followed from a folder up to the last of them, which need not
be there. -/
def blockedFrom? (tree : Tree) (folder : Path) : List Text → Option PathFault
  | [] => none
  | name :: names =>
    if tree.isFile folder then some .notFolder
    else if ¬ tree.isFolder folder then some .notFound
    else if Path.byteSize name > Path.longestName then some .nameTooLong
    else tree.blockedFrom? (folder ++ [name]) names

def obstacle? (tree : Tree) (path : Path) : Option PathFault :=
  if Path.byteSize path.render > Path.longestPath then some .nameTooLong
  else tree.blockedFrom? [] path

/-- Asks something about a path. Nothing is true of a path that leads nowhere; one
that is too long cannot be asked about. -/
def ask (tree : Tree) (path : Path) (question : Tree → Path → Bool) : Except PathFault Bool :=
  match tree.obstacle? path with
  | some .nameTooLong => .error .nameTooLong
  | some _ => .ok false
  | none => .ok (question tree path)

def read (tree : Tree) (path : Path) : Except PathFault Bytes :=
  match tree.obstacle? path, tree.files[path]? with
  | some fault, _ => .error fault
  | none, some bytes => .ok bytes
  | none, none => .error (if tree.isFolder path then .isFolder else .notFound)

def write (tree : Tree) (path : Path) (bytes : Bytes) : Except PathFault Tree :=
  match tree.obstacle? path with
  | some fault => .error fault
  | none =>
    if tree.isFolder path then .error .isFolder
    else .ok { tree with files := tree.files.insert path bytes }

def makeFolder (tree : Tree) (path : Path) : Except PathFault Tree :=
  match tree.obstacle? path with
  | some fault => .error fault
  | none =>
    if tree.isFile path || tree.isFolder path then .error .exists
    else .ok { tree with folders := tree.folders.insert path }

/-- The files in a folder, and with `deep` those in the folders below it, in the
order of their names. -/
def filesIn (tree : Tree) (folder : Path) (deep : Bool) : List Path :=
  tree.files.keys.filter fun path =>
    if deep then folder.isPrefixOf path && path.length > folder.length
    else path.dropLast == folder && !path.isEmpty

end Tree

end InfinityScript
