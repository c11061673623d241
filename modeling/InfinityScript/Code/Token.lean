import InfinityScript.Text.Basic
import InfinityScript.Text.Numeral

/-!
# Tokens of compiled code

Compiled code is a text of markers and fields. A marker is often glued to the
field before it, as in `100AC` or `""OB`, so the text is cut by what can stand at
each place rather than at blanks only.
-/

namespace InfinityScript

inductive Marker
  | script
  | block
  | condition
  | trigger
  | responseSet
  | response
  | action
  | object
  deriving DecidableEq, Repr

namespace Marker

def all : List Marker :=
  [.script, .block, .condition, .trigger, .responseSet, .response, .action, .object]

def code : Marker → Text
  | .script => "SC"
  | .block => "CR"
  | .condition => "CO"
  | .trigger => "TR"
  | .responseSet => "RS"
  | .response => "RE"
  | .action => "AC"
  | .object => "OB"

def ofCode? (code : Text) : Option Marker := all.find? (·.code == code)

end Marker

/-- What a token says. Strings and coordinates keep their brackets. -/
inductive Lexeme
  | marker (marker : Marker)
  | number (value : Int)
  | string (text : Text)
  | coordinate (text : Text)
  | word (text : Text)
  deriving DecidableEq, Repr

/-- What a token can be asked to be; at the end of the code there is none. -/
inductive TokenKind
  | marker (marker : Marker)
  | number
  | string
  | coordinate
  | word
  | endOfFile
  deriving DecidableEq, Repr

def TokenKind.name : TokenKind → Text
  | .marker m => m.code
  | .number => "NUMBER"
  | .string => "STRING"
  | .coordinate => "COORDINATE"
  | .word => "WORD"
  | .endOfFile => "ENDOFFILE"

namespace Lexeme

def kind : Lexeme → TokenKind
  | .marker m => .marker m
  | .number _ => .number
  | .string _ => .string
  | .coordinate _ => .coordinate
  | .word _ => .word

def text : Lexeme → Text
  | .marker m => m.code
  | .number n => Text.ofInt n
  | .string shown | .coordinate shown | .word shown => shown

/-- A letter or underscore, which keeps two letters from being a marker. -/
def joinsMarker (c : Char) : Bool := c.isAlpha || c == '_'

def isWordChar (c : Char) : Bool := !Text.isBlank c && c != '"' && c != '[' && c != ']'

/-- A bracketed lexeme, from an opening character whose `rest` follows, if its
closing character follows at all. -/
def bracketed? (closing : Char) (rest : Text) : Option Text :=
  (Text.cut? closing rest).map fun (body, _) => body ++ [closing]

def numeral? (c : Char) (rest : Text) : Option Text :=
  let digits := rest.takeWhile Text.isDecimalDigit
  if Text.isDecimalDigit c || (c == '-' && !digits.isEmpty) then some (c :: digits) else none

def marker? (c : Char) : Text → Option Marker
  | d :: after => if after.head?.any joinsMarker then none else Marker.ofCode? [c, d]
  | [] => none

/-- The lexeme that starts with `c`, none for blanks, and how many characters of
`rest` it takes. -/
def read (c : Char) (rest : Text) : Option Lexeme × Nat :=
  if Text.isBlank c then (none, (rest.takeWhile Text.isBlank).length)
  else if c = '"' then
    match bracketed? '"' rest with
    | some body => (some (.string (c :: body)), body.length)
    | none => (some (.word [c]), 0)
  else if c = '[' then
    match bracketed? ']' rest with
    | some body => (some (.coordinate (c :: body)), body.length)
    | none => (some (.word [c]), 0)
  else if c = ']' then (some (.word [c]), 0)
  else match numeral? c rest with
    | some numeral => (some (.number ((Text.readSigned? numeral).getD 0)), numeral.length - 1)
    | none =>
      match marker? c rest with
      | some m => (some (.marker m), 1)
      | none =>
        let tail := rest.takeWhile isWordChar
        (some (.word (c :: tail)), tail.length)

end Lexeme

-- Scanning goes by what is read, not by how it is read.
attribute [irreducible] Lexeme.read

/-- A lexeme and the characters it covers, from `start` up to but not including
`stop`. -/
structure Token where
  lexeme : Lexeme
  start : Nat
  stop : Nat
  deriving DecidableEq, Repr

namespace Token

def kind (token : Token) : TokenKind := token.lexeme.kind

def kindOf : Option Token → TokenKind
  | some token => token.kind
  | none => .endOfFile

def scan (position : Nat) : Text → List Token
  | [] => []
  | c :: rest =>
    let (lexeme?, extra) := Lexeme.read c rest
    let stop := position + extra + 1
    let tokens := scan stop (rest.drop extra)
    match lexeme? with
    | some lexeme => ⟨lexeme, position, stop⟩ :: tokens
    | none => tokens
termination_by text => text.length
decreasing_by simp only [List.length_drop, List.length_cons]; omega

def checkNumbers (position : Nat) (text : Text) : List Token → Except NumeralFault Unit
  | [] => .ok ()
  | token :: tokens => do
    let text := text.drop (token.start - position)
    if token.kind = .number then Text.checkDigits (text.take (token.stop - token.start))
    checkNumbers token.start text tokens

end Token

/-- The tokens of compiled code, however long its numbers are. -/
def tokenize (code : Text) : List Token := Token.scan 0 code

/-- The tokens of compiled code whose numbers can all be read. -/
def readTokens (code : Text) : Except NumeralFault (List Token) := do
  let tokens := tokenize code
  Token.checkNumbers 0 code tokens
  return tokens

end InfinityScript
