import InfinityScript.Symbol.Entry
import InfinityScript.Text.Numeral
import InfinityScript.Text.Basic

/-!
# Faults and warnings of a source

What can be wrong with a script source, and the words in which it is said. A
fault leaves a placeholder in the compiled code, so that the code shows where the
source was not understood.
-/

namespace InfinityScript

inductive Delimiter
  | quote
  | bracket
  deriving DecidableEq, Repr

namespace Delimiter

def opening : Delimiter → Char
  | .quote => '"'
  | .bracket => '['

def closing : Delimiter → Char
  | .quote => '"'
  | .bracket => ']'

def name : Delimiter → Text
  | .quote => "quote"
  | .bracket => "bracket"

end Delimiter

/-- Why a statement, or a part of it, has no code. -/
inductive Fault
  | missingIf
  | missingThen
  | missingEnd
  | missingWeight
  | nestedOr
  | missingTriggers (count : Int)
  | missingParenthesis
  | unclosed (delimiter : Delimiter) (text : Text)
  | notFound (name table : Text)
  | signature (fault : ParameterFault)
  | tooManyArguments (parameters : Text)
  | tooFewArguments (parameters : Text)
  | noSlotLeft (value : Text)
  | expected (definition value : Text)
  | pointIncomplete (point : Text)
  | pointNotNumeric (point : Text)
  | unclosedCall (value : Text)
  | tooManyQualifiers (value : Text)
  | unclosedVector
  | unknownSymbol (value : Text)
  | areaWithoutField
  | missingBeginQuote (value : Text)
  | missingQuotes (value : Text)
  | invalidArea (definition value : Text)
  deriving DecidableEq, Repr

def Fault.message : Fault → Text
  | .missingIf => "Missing IF"
  | .missingThen => "Missing THEN"
  | .missingEnd => "Missing END"
  | .missingWeight => "Missing # in RESPONSE"
  | .nestedOr => "Nested ORs not allowed"
  | .missingTriggers count =>
    "Missing " ++ Text.ofInt count ++ " trigger(s) in order to match OR()"
  | .missingParenthesis => "Missing parenthesis"
  | .unclosed delimiter text => "Missing end " ++ delimiter.name ++ " - " ++ text
  | .notFound name table => name ++ " not found in " ++ table
  | .signature fault => fault.message
  | .tooManyArguments parameters => "Too many arguments - (" ++ parameters ++ ")"
  | .tooFewArguments parameters => "Too few arguments - (" ++ parameters ++ ")"
  | .noSlotLeft value => "Too many arguments of one kind - " ++ value
  | .expected definition value => "Expected " ++ definition ++ " but found " ++ value
  | .pointIncomplete point => "[" ++ point ++ "] - arguments missing"
  | .pointNotNumeric point => "[" ++ point ++ "] must contain numbers only"
  | .unclosedCall value => "Missing end parenthesis " ++ value
  | .tooManyQualifiers value => "Too many object qualifiers - " ++ value
  | .unclosedVector => "Missing end bracket"
  | .unknownSymbol value => "Unknown symbol - " ++ value
  | .areaWithoutField => "Missing parenthesis?"
  | .missingBeginQuote value => "Missing begin quote - " ++ value
  | .missingQuotes value => "Missing quotes - " ++ value
  | .invalidArea definition value => "Invalid area string: " ++ definition ++ " - " ++ value

/-- What stands in the compiled code for a part that has none. -/
def Fault.placeholder (fault : Fault) : Text := "Error - " ++ fault.message

/-- What is doubtful about a statement that has code. -/
inductive Warning
  | longString (definition value : Text)
  | unknownScriptName (definition value : Text)
  | missingResource (definition value : Text)
  deriving DecidableEq, Repr

def Warning.message : Warning → Text
  | .longString definition value => "Invalid string length: " ++ definition ++ " - " ++ value
  | .unknownScriptName definition value => "Script name not found: " ++ definition ++ " - " ++ value
  | .missingResource definition value => "Resource not found: " ++ definition ++ " - " ++ value

inductive Remark
  | error (fault : Fault)
  | warning (warning : Warning)
  deriving DecidableEq, Repr

def Remark.error? : Remark → Option Text
  | .error fault => some fault.message
  | .warning _ => none

def Remark.warning? : Remark → Option Text
  | .warning doubt => some doubt.message
  | .error _ => none

/-- What ends a whole compilation. -/
inductive Halt
  /-- An empty text was asked for its first character. -/
  | emptyText
  /-- A list of slots was asked for one that it does not have. -/
  | slotOutOfRange
  /-- A slot was asked for by a number that is no place in any list. -/
  | indexOutOfRange
  | numeral (fault : NumeralFault)
  | repetition (fault : RepeatFault)
  deriving DecidableEq, Repr

def Halt.message : Halt → Text
  | .emptyText => "string index out of range"
  | .slotOutOfRange => "list assignment index out of range"
  | .indexOutOfRange => "cannot fit 'int' into an index-sized integer"
  | .numeral fault => fault.message
  | .repetition fault => fault.message

/-- Why a statement, or a part of it, is refused: a fault of the source, which is
reported, or what ends the compilation. -/
inductive Refusal
  | fault (fault : Fault)
  | halt (reason : Halt)
  deriving DecidableEq, Repr

namespace Refusal

variable {α : Type}

def message : Refusal → Text
  | .fault cause => cause.message
  | .halt reason => reason.message

def ofFault : Except Fault α → Except Refusal α := Except.mapError .fault

def ofNumeral : Except NumeralFault α → Except Refusal α :=
  Except.mapError fun fault => .halt (.numeral fault)

def ofRepeat : Except RepeatFault α → Except Refusal α :=
  Except.mapError fun fault => .halt (.repetition fault)

end Refusal

end InfinityScript
