import InfinityScript.File.Session
import InfinityScript.Game
import InfinityScript.Script.Compile
import InfinityScript.Script.Decompile

/-!
# Loaded scripts

A script in source form is compiled when it is loaded, and one in compiled form
decompiled. Encrypted scripts, which begin with two bytes FF, are refused.
-/

namespace InfinityScript

structure Settings where
  game : Game := .default
  /-- Print diagnostics. -/
  debug : Bool := false
  indent : Text := "\t"
  deriving DecidableEq, Repr

def Settings.profile (settings : Settings) : Profile := .ofGame settings.game

structure SourceScript where
  settings : Settings
  source : Text := []
  code : Text := []
  errors : Diagnostics := ∅
  warnings : Diagnostics := ∅

namespace SourceScript

def hasErrors (script : SourceScript) : Bool := !script.errors.isEmpty

/-- Takes up a source and compiles it. The source is kept even where compiling
fails. -/
def load (symbols : Symbols) (source : Text) : ExceptT Halt (StateM SourceScript) Unit := do
  modify fun script => { script with source }
  match compile symbols (← get).settings.profile (.text source) with
  | .ok compiled => modify fun script =>
      { script with
        code := compiled.code
        errors := compiled.errors
        warnings := compiled.warnings }
  | .error reason => throw reason

def report (script : SourceScript) (name : Text) : List Text :=
  Report.diagnostics script.source script.errors script.warnings name

def ofText (settings : Settings) (symbols : Symbols) (source : Text) (name : Text := []) :
    Session SourceScript := do
  match (load symbols source).run { settings } with
  | (.ok (), script) =>
    if settings.debug then Session.printAll (script.report name)
    return script
  | (.error reason, _) => throw (.halt reason)

def ofFile (settings : Settings) (symbols : Symbols) (path : Path) : Session SourceScript := do
  unless ← Session.has path do throw (.missingFile path)
  if path.extension ≠ "baf" then throw (.unsupportedExtension path.extension)
  ofText settings symbols (← Session.readText path) path.name

def toFile (script : SourceScript) (path : Path) : Session Unit := do
  if script.code = [] then throw .noCode
  Session.writeText path script.code

def toConsole (script : SourceScript) : Session Unit := do
  if script.code = [] then throw .noCode
  Session.print script.code

end SourceScript

structure CompiledScript where
  settings : Settings
  code : Text := []
  source : Text := []
  resources : Std.TreeSet Text := ∅
  stringRefs : Std.TreeSet Int := ∅
  diagnostics : Diagnostics := ∅

namespace CompiledScript

def isEncrypted (bytes : Bytes) : Bool := [0xFF, 0xFF].isPrefixOf bytes

def isEncryptedText (code : Text) : Bool := ['\xff', '\xff'].isPrefixOf code

/-- Takes up code and decompiles it. The code is kept even where decompiling
aborts. -/
def load (symbols : Symbols) (code : Text) :
    ExceptT DecodeError (StateM CompiledScript) Unit := do
  modify fun script => { script with code }
  let settings := (← get).settings
  let decompiler : Decompiler := { symbols, profile := settings.profile, indent := settings.indent }
  match decompiler.decompile code true with
  | .ok result => modify fun script =>
      { script with
        source := result.source
        resources := result.resources
        stringRefs := result.stringRefs
        diagnostics := result.diagnostics }
  | .error error => throw error

def report (script : CompiledScript) (name : Text) : List Text :=
  Report.diagnostics script.source ∅ script.diagnostics name

/-- A script from code that is known not to be encrypted. -/
def ofPlainText (settings : Settings) (symbols : Symbols) (code : Text) (name : Text) :
    Session CompiledScript := do
  match (load symbols code).run { settings } with
  | (.ok (), script) =>
    if settings.debug then Session.printAll (script.report name)
    return script
  | (.error error, _) => throw (.decode error)

def ofText (settings : Settings) (symbols : Symbols) (code : Text) : Session CompiledScript := do
  if isEncryptedText code then throw (.encrypted none)
  ofPlainText settings symbols code []

def ofFile (settings : Settings) (symbols : Symbols) (path : Path) : Session CompiledScript := do
  unless ← Session.has path do throw (.missingFile path)
  if path.extension ≠ "bcs" then throw (.unsupportedExtension path.extension)
  let bytes ← Session.read path
  if isEncrypted bytes then throw (.encrypted (some path))
  ofPlainText settings symbols (← Session.decode bytes) path.name

def toFile (script : CompiledScript) (path : Path) : Session Unit :=
  Session.writeText path script.source

def toConsole (script : CompiledScript) : Session Unit := Session.print script.source

end CompiledScript

end InfinityScript
