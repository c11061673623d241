import InfinityScript.Command.Tool

/-!
# Command line

`baf2bcs`, `bcs2baf` and `bcscheck`, named by the first word of the command line.
The files that a request is about are loaded into a tree, the tool works on the
tree, and what it changed there is written back.
-/

namespace InfinityScript

def locate (path : Path) := do return (← IO.currentDir).join (String.ofList path.render)

/-- Loads the folder or file at a path, with `deep` also the folders in it. -/
partial def loadPath (deep : Bool) (path : Path) (tree : Tree) : IO Tree := do
  let place ← locate path
  if ← place.isDir then
    (← place.readDir).foldlM (fun tree entry => do
      let inside := path ++ [entry.fileName.toList]
      if ← entry.path.isDir then
        if deep then loadPath deep inside tree else return tree.addFolder inside
      else return tree.addFile inside (← IO.FS.readBinFile entry.path).toList) (tree.addFolder path)
  else if ← place.pathExists then
    return tree.addFile path (← IO.FS.readBinFile place).toList
  else if path.isEmpty then return tree
  else loadAbove path.dropLast tree
where
  /-- The nearest thing there is on the way to a path that is not there. -/
  loadAbove (path : Path) (tree : Tree) : IO Tree := do
    let place ← locate path
    if ← place.isDir then return tree.addFolder path
    else if ← place.pathExists then return tree.addFile path []
    else if path.isEmpty then return tree
    else loadAbove path.dropLast tree

/-- Writes the folders and files of a tree that another does not have. -/
def store (before after : Tree) : IO Unit := do
  for folder in after.folders.toList do
    unless before.isFolder folder do IO.FS.createDirAll (← locate folder)
  for (path, bytes) in after.files.toList do
    unless before.files[path]? == some bytes do
      IO.FS.writeBinFile (← locate path) ⟨bytes.toArray⟩

def runRequest (tool : Tool) (request : Request) : IO Nat := do
  let folder := Path.resolve [] (← IO.currentDir).toString.toList
  let named := [request.input.getD [], request.output, request.ids].filter (!·.isEmpty)
  let tree ← (named.map (Path.resolve folder)).foldlM
    (fun tree path => loadPath request.recursive path tree) ({} : Tree)
  let (code, space) := tool.fulfil request { tree, folder }
  for line in space.printed do IO.println (String.ofList line)
  store tree space.tree
  return code

end InfinityScript

open InfinityScript in
def main (arguments : List String) : IO UInt32 := do
  match arguments.map String.toList with
  | [] => do
    IO.eprintln "expected the name of a tool: baf2bcs, bcs2baf or bcscheck"
    return 2
  | name :: words =>
    match Tool.ofName? name with
    | none => do
      IO.eprintln ("unknown tool: " ++ String.ofList name)
      return 2
    | some tool =>
      match Request.ofArguments tool.options words with
      | .error misuse => do
        IO.eprintln (String.ofList (tool.name ++ ": error: " ++ misuse.message))
        return 2
      | .ok request => do
        if request.help then IO.println (String.ofList tool.usage)
        return (← runRequest tool request).toUInt32
