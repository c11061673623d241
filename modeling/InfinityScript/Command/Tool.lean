import InfinityScript.Command.Request
import InfinityScript.Console.Difference
import InfinityScript.Script.Loaded

/-!
# Tools

The tools of the command line and their exit codes: 0 for success, 1 where a script
or file was at fault, 2 where the command line was. A conversion turns a script file
into one of another kind, beside it or in a folder of the output. A check asks whether
the source of a compiled script compiles to the same code again.
-/

namespace InfinityScript.Check

/-- Decompiles a script, compiles the source again and reports where the code differs.
Says whether the script is sound. -/
def checkFile (settings : Settings) (symbols : Symbols) (path : Path) : Session Bool := do
  let compiled ← CompiledScript.ofFile settings symbols path
  let script ← SourceScript.ofText settings symbols compiled.source
  if script.hasErrors || !script.warnings.isEmpty then
    Session.print (path.name ++ ": " ++ Text.ofNat script.errors.size ++ " error(s), " ++
      Text.ofNat script.warnings.size ++ " warning(s)")
    Session.printAll (script.report path.name)
  let (line, shown) := Difference.find script.code compiled.code "recompiled" path.name
  Session.printAll shown
  if line > 0 then
    Session.print (Report.warning
      (path.name ++ ": recompiled script differs from line " ++ Text.ofNat line))
  return !script.hasErrors && line == 0

/-- Checks a script; one of a kind that is not handled is passed over with a warning. -/
def checkOrSkip (settings : Settings) (symbols : Symbols) (path : Path) : Session Bool :=
  tryCatch (checkFile settings symbols path) fun failure => do
    unless failure.isUnsupported do throw failure
    Session.print (Report.warning (path.name ++ ": " ++ failure.message))
    return true

def run (request : Request) (settings : Settings) : Session Bool := do
  let name := request.input.getD []
  if name = [] then throw .noScriptFolder
  let input ← Session.resolve name
  unless ← Session.isFolder input do throw .missingScriptFolder
  let symbols ← Session.readSymbols
    (← Session.resolve (if request.ids = [] then name else request.ids))
  let files := ((← get).tree.filesIn input request.recursive).filter fun file =>
    (".bcs" : Text).isSuffixOf file.name
  let verdicts ← files.mapM (checkOrSkip settings symbols)
  let unsound := verdicts.count false
  Session.print ("Checked " ++ Text.ofNat verdicts.length ++ " script(s), " ++
    Text.ofNat unsound ++ " with problems")
  return unsound == 0

end InfinityScript.Check

namespace InfinityScript

structure Conversion where
  /-- The suffix of the files that are converted. -/
  source : Text
  /-- The suffix of the files they become. -/
  target : Text
  /-- What is being done to a file. -/
  activity : Text
  /-- Converts one file into another and says whether that went well. -/
  convert : Settings → Symbols → Path → Path → Session Bool

namespace Conversion

def compiling : Conversion where
  source := ".baf"
  target := ".bcs"
  activity := "Compiling"
  convert settings symbols input output := do
    let script ← SourceScript.ofFile settings symbols input
    if script.hasErrors then
      Session.print ("Skipping '" ++ input.render ++ "' because it contains " ++
        Text.ofNat script.errors.size ++ " error(s)")
      return false
    script.toFile output
    return true

def decompiling : Conversion where
  source := ".bcs"
  target := ".baf"
  activity := "Decompiling"
  convert settings symbols input output := do
    let script ← CompiledScript.ofFile settings symbols input
    script.toFile output
    return true

def announcement (conversion : Conversion) (input : Path) : Text :=
  conversion.activity ++ " file '" ++ input.render ++ "'"

def convertFile (conversion : Conversion) (settings : Settings) (symbols : Symbols)
    (input output : Path) : Session Bool := do
  Session.print (conversion.announcement input)
  conversion.convert settings symbols input output

/-- The file that a single input becomes. A name without a dot is that of a folder. -/
def outputFile (conversion : Conversion) (input : Path) (output : Option Path) : Path :=
  match output with
  | none => input.withSuffix conversion.target
  | some path =>
    if '.' ∈ path.name then path else path ++ [input.stem ++ conversion.target]

def scripts (conversion : Conversion) (tree : Tree) (folder : Path) (deep : Bool) : List Path :=
  (tree.filesIn folder deep).filter fun file => conversion.source.isSuffixOf file.name

def convertFolder (conversion : Conversion) (settings : Settings) (symbols : Symbols)
    (input output : Path) (deep : Bool) : Session Bool := do
  let files := conversion.scripts (← get).tree input deep
  files.foldlM (fun success file => do
    let target := (output ++ file.drop input.length).withSuffix conversion.target
    Session.makeFolder target.dropLast
    return (← conversion.convertFile settings symbols file target) && success) true

def run (conversion : Conversion) (request : Request) (settings : Settings) : Session Bool := do
  let name := request.input.getD []
  if name = [] then throw .noScripts
  if request.ids = [] then throw .noSymbolFolder
  let symbols ← Session.readSymbols (← Session.resolve request.ids)
  let input ← Session.resolve name
  if '.' ∈ input.name then
    unless ← Session.has input do throw .missingScript
    let output ←
      if request.output = [] then pure none else some <$> Session.resolve request.output
    conversion.convertFile settings symbols input (conversion.outputFile input output)
  else
    unless ← Session.has input do throw .missingScriptFolder
    let output ←
      if request.output = [] then pure input else Session.resolve request.output
    if '.' ∈ output.name then throw .outputNotFolder
    conversion.convertFolder settings symbols input output request.recursive

end Conversion

inductive Tool
  | compiler
  | decompiler
  | checker
  deriving DecidableEq, Repr

namespace Tool

def name : Tool → Text
  | .compiler => "baf2bcs"
  | .decompiler => "bcs2baf"
  | .checker => "bcscheck"

def ofName? (text : Text) : Option Tool :=
  [compiler, decompiler, checker].find? fun tool => tool.name = text

def options : Tool → List OptionName
  | .compiler => [.output, .recursive, .ids, .game, .debug]
  | .decompiler => [.output, .recursive, .ids, .game, .spaces, .debug]
  | .checker => [.ids, .game, .recursive]

def usage (tool : Tool) : Text :=
  let shown (option : OptionName) : Text :=
    " [" ++ option.name ++ (if option.takesValue then " value]" else "]")
  "usage: " ++ tool.name ++ " [input]" ++ tool.options.flatMap shown

/-- The settings that a request asks for. No spaces means a tab. -/
def settings (request : Request) : Session Settings := do
  let game ← Session.game request.game
  match Text.checkRepeat 1 request.spaces with
  | .error fault => throw (.repetition fault)
  | .ok () =>
    let indent : Text :=
      if request.spaces = 0 then "\t" else List.replicate request.spaces.toNat ' '
    return { game, debug := request.debug, indent }

def perform (tool : Tool) (request : Request) : Session Bool := do
  let settings ← settings request
  match tool with
  | .compiler => Conversion.compiling.run request settings
  | .decompiler => Conversion.decompiling.run request settings
  | .checker => Check.run request settings

/-- The exit code of a request and the workspace it leaves. A failure is printed. -/
def fulfil (tool : Tool) (request : Request) (space : Workspace) : Nat × Workspace :=
  if request.help then (0, space)
  else match (tool.perform request).run space with
    | (.ok success, space) => (if success then 0 else 1, space)
    | (.error failure, space) =>
      (1, { space with printed := space.printed ++ [Report.error failure.message] })

def run (tool : Tool) (arguments : List Text) (space : Workspace) : Nat × Workspace :=
  match Request.ofArguments tool.options arguments with
  | .ok request => tool.fulfil request space
  | .error _ => (2, space)

end Tool

end InfinityScript
