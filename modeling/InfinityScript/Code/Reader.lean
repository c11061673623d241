import InfinityScript.Code.Token
import InfinityScript.Symbol.Entry

/-!
# Readers of tokens

A reader looks at the tokens that are left, gives a result or an error, and
leaves a tail of them. What it leaves on an error is where reading can go on:
damage costs the block or record in which it lies, an abort all of the code.
-/

namespace InfinityScript

/-- Damage to one block or record. -/
inductive Damage
  | mismatch (expected : TokenKind) (found : Option Lexeme)
  | objectWidth (expected found : Nat)
  | signature (fault : ParameterFault)
  deriving DecidableEq, Repr

def Damage.message : Damage → Text
  | .mismatch expected none => "Expected " ++ expected.name ++ " but found end of file"
  | .mismatch expected (some lexeme) =>
    "Expected " ++ expected.name ++ " but found `" ++ lexeme.text ++ "`"
  | .objectWidth expected found =>
    "Expected " ++ Text.ofNat expected ++ " object identifiers but found " ++ Text.ofNat found
  | .signature fault => fault.message

/-- What ends the reading of the whole code. -/
inductive Abort
  /-- A spell number is made of digits that form no decimal number. -/
  | spellNumber (chunk : Text)
  /-- An object record of the profile has no room for qualifiers. -/
  | noQualifiers
  /-- A number is too long to be read. -/
  | numeral (fault : NumeralFault)
  deriving DecidableEq, Repr

def Abort.message : Abort → Text
  | .spellNumber chunk => "invalid literal for int() with base 10: '" ++ chunk ++ "'"
  | .noQualifiers => "list index out of range"
  | .numeral fault => fault.message

inductive DecodeError
  | damage (damage : Damage)
  | abort (abort : Abort)
  deriving DecidableEq, Repr

structure Reader (α : Type) where
  run : List Token → Except DecodeError α × List Token
  /-- What is left is a tail of what was given. -/
  suffix : ∀ tokens, (run tokens).2 <:+ tokens

namespace Reader

variable {α β : Type}

theorem length_run_le (reader : Reader α) (tokens : List Token) :
    (reader.run tokens).2.length ≤ tokens.length :=
  (reader.suffix tokens).length_le

def pure (value : α) : Reader α := ⟨fun tokens => (.ok value, tokens), fun _ => List.suffix_rfl⟩

def fail (error : DecodeError) : Reader α :=
  ⟨fun tokens => (.error error, tokens), fun _ => List.suffix_rfl⟩

def bind (reader : Reader α) (next : α → Reader β) : Reader β where
  run tokens :=
    match reader.run tokens with
    | (.ok value, rest) => (next value).run rest
    | (.error error, rest) => (.error error, rest)
  suffix tokens := by
    have first := reader.suffix tokens
    split
    · next value rest h =>
      rw [h] at first
      exact ((next value).suffix rest).trans first
    · next error rest h =>
      rw [h] at first
      exact first

instance : Monad Reader where
  pure := pure
  bind := bind

def peek : Reader (Option Token) :=
  ⟨fun tokens => (.ok tokens.head?, tokens), fun _ => List.suffix_rfl⟩

def next : Reader (Option Token) :=
  ⟨fun tokens => (.ok tokens.head?, tokens.tail), List.tail_suffix⟩

/-- Reads the next token if `take` accepts it, and otherwise leaves it. -/
def accept (expected : TokenKind) (take : Option Lexeme → Option α) : Reader α where
  run tokens :=
    let found := tokens.head?.map Token.lexeme
    match take found with
    | some value => (.ok value, tokens.tail)
    | none => (.error (.damage (.mismatch expected found)), tokens)
  suffix tokens := by
    dsimp only
    split
    · exact List.tail_suffix tokens
    · exact List.suffix_rfl

def expect (kind : TokenKind) : Reader (Option Token) := do
  let token ← peek
  accept kind fun _ => if Token.kindOf token = kind then some token else none

def number : Reader Int :=
  accept .number fun
    | some (.number n) => some n
    | _ => none

def string : Reader Text :=
  accept .string fun
    | some (.string text) => some text
    | _ => none

def marker (marker : Marker) : Reader Unit :=
  accept (.marker marker) fun
    | some (.marker found) => if found = marker then some () else none
    | _ => none

def leadingNumbers : List Token → List Int × List Token
  | ⟨.number n, _, _⟩ :: rest =>
    let (numbers, rest) := leadingNumbers rest
    (n :: numbers, rest)
  | tokens => ([], tokens)

theorem leadingNumbers_suffix (tokens : List Token) : (leadingNumbers tokens).2 <:+ tokens := by
  fun_induction leadingNumbers tokens with
  | case1 n _ _ rest _ _ h ih =>
    rw [h] at ih
    exact ih.trans (List.suffix_cons _ _)
  | case2 => exact List.suffix_rfl

def numbers : Reader (List Int) where
  run tokens := (.ok (leadingNumbers tokens).1, (leadingNumbers tokens).2)
  suffix := leadingNumbers_suffix

def coordinate? : Reader (Option Text) := do
  match (← peek).map Token.lexeme with
  | some (.coordinate text) =>
    let _ ← next
    return some text
  | _ => return none

/-- Reads up to and including the next token of a kind, or to the end. -/
def skipPast (kind : TokenKind) : Reader Unit where
  run tokens := (.ok (), (tokens.dropWhile (·.kind ≠ kind)).tail)
  suffix _ := (List.tail_suffix _).trans (List.dropWhile_suffix _)

end Reader

/-- A place in compiled code: `position` of its tokens have been read. -/
structure Cursor where
  tokens : List Token
  position : Nat := 0
  deriving Repr

namespace Cursor

def ofCode (code : Text) : Except NumeralFault Cursor := do
  return { tokens := ← readTokens code }

def hasMore (cursor : Cursor) : Bool × Cursor := (cursor.position < cursor.tokens.length, cursor)

def read {α : Type} (cursor : Cursor) (reader : Reader α) : Except DecodeError α × Cursor :=
  let (outcome, rest) := reader.run (cursor.tokens.drop cursor.position)
  (outcome, { cursor with position := cursor.tokens.length - rest.length })

end Cursor

end InfinityScript
