import InfinityScript.Fault
import InfinityScript.Symbol.Table
import InfinityScript.Text.Basic

/-!
# Calls

A statement is a call `Name(argument,…)`. Arguments are divided by commas, but a
string or a point may hold a comma itself; a piece that was cut in two is joined
to the one after it, once for each kind of bracket. The call is looked up by its
name, and its arguments are bound to the parameters of the function.
-/

namespace InfinityScript.Call

/-- The name before the first parenthesis and the text up to the last one. -/
def split (line : Text) : Except Fault (Text × Text) :=
  match Text.cut? '(' line, Text.cutLast? ')' line with
  | some (name, rest), some _ =>
    let arguments := match Text.cutLast? ')' rest with
      | some (arguments, _) => arguments
      | none => []
    .ok (Text.trimRight name, arguments)
  | _, _ => .error .missingParenthesis

def isCut (delimiter : Delimiter) (argument : Text) : Bool :=
  argument.head? == some delimiter.opening &&
    (argument.length == 1 || argument.getLast? != some delimiter.closing)

def mend (delimiter : Delimiter) (argument : Text) (pieces : List Text) :
    Except Fault (Text × { rest : List Text // rest.length ≤ pieces.length }) :=
  if isCut delimiter argument then
    match pieces with
    | [] => .error (.unclosed delimiter argument)
    | piece :: rest => .ok (Text.trim (argument ++ ',' :: piece), ⟨rest, by simp⟩)
  else .ok (argument, ⟨pieces, by simp⟩)

/-- Puts the pieces together to arguments, looking for cut ones in the order given. -/
def assemble (first second : Delimiter) : List Text → Except Fault (List Text)
  | [] => .ok []
  | piece :: pieces => do
    let (argument, ⟨pieces₁, _⟩) ← mend first (Text.trim piece) pieces
    let (argument, ⟨pieces₂, _⟩) ← mend second argument pieces₁
    let arguments ← assemble first second pieces₂
    return argument :: arguments
termination_by pieces => pieces.length
decreasing_by simp; omega

/-- The arguments of a call; blank ones are left out. With `quotesFirst` a cut
string is looked for before a cut point. -/
def arguments (text : Text) (quotesFirst : Bool) : Except Fault (List Text) :=
  let pieces := (Text.splitOn ',' text).filter fun piece => Text.trim piece ≠ []
  if quotesFirst then assemble .quote .bracket pieces else assemble .bracket .quote pieces

end InfinityScript.Call

namespace InfinityScript

/-- The function of a name in a table; a symbol without parameters is none. -/
def Symbols.function (symbols : Symbols) (table name : Text) : Except Fault Entry :=
  match symbols.byName? table name with
  | some entry => if entry.isFunction then .ok entry else .error (.notFound name table)
  | none => .error (.notFound name table)

namespace Call

/-- A symbol may hold a comma. When there are too many arguments, the argument of
a last integer parameter takes the piece after it. -/
def rejoin (signature : Signature) (arguments : List Text) : List Text :=
  match signature.getLast? with
  | some last =>
    if last.kind = .integer then
      match arguments.drop (signature.length - 1) with
      | argument :: extra :: rest =>
        arguments.take (signature.length - 1) ++ (argument ++ ',' :: extra) :: rest
      | _ => arguments
    else arguments
  | none => arguments

def bind (entry : Entry) (arguments : List Text) : Except Fault (List (Parameter × Text)) :=
  match entry.signature with
  | .error fault => .error (.signature fault)
  | .ok signature =>
    let arguments := rejoin signature arguments
    let parameters := entry.parameters.getD []
    if arguments.length > signature.length then .error (.tooManyArguments parameters)
    else if arguments.length < signature.length then .error (.tooFewArguments parameters)
    else .ok (signature.zip arguments)

end Call

end InfinityScript
