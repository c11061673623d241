import InfinityScript.Text.Basic
import InfinityScript.Text.Numeral

/-!
# Requests

What a tool is asked to do on its command line. An option is given by its name or
by the beginning of it, with its value behind an equals sign or as the next word.
-/

namespace InfinityScript

inductive OptionName
  | help
  | output
  | recursive
  | ids
  | game
  | spaces
  | debug
  deriving DecidableEq, Repr

namespace OptionName

def name : OptionName → Text
  | .help => "--help"
  | .output => "--output"
  | .recursive => "--recursive"
  | .ids => "--ids"
  | .game => "--game"
  | .spaces => "--spaces"
  | .debug => "--debug"

def takesValue : OptionName → Bool
  | .help | .recursive | .debug => false
  | .output | .ids | .game | .spaces => true

end OptionName

inductive Misuse
  | ambiguous (word : Text)
  | unrecognized (words : List Text)
  | missingValue (option : OptionName)
  | unexpectedValue (option : OptionName) (value : Text)
  | notNumber (option : OptionName) (value : Text)
  deriving DecidableEq, Repr

def Misuse.message : Misuse → Text
  | .ambiguous word => "ambiguous option: " ++ word
  | .unrecognized words => "unrecognized arguments: " ++ Text.join " " words
  | .missingValue option => "argument " ++ option.name ++ ": expected one argument"
  | .unexpectedValue option value =>
    "argument " ++ option.name ++ ": ignored explicit argument '" ++ value ++ "'"
  | .notNumber option value =>
    "argument " ++ option.name ++ ": invalid int value: '" ++ value ++ "'"

inductive CommandWord
  | option (name : OptionName) (value : Option Text)
  | unknownOption (word : Text)
  | plain (word : Text)
  /-- After this word there are no options. -/
  | divider
  deriving DecidableEq, Repr

namespace CommandWord

/-- `-5`, `-5.5` or `-.5`. -/
def isNegativeNumber : Text → Bool
  | '-' :: digits =>
    let fraction := digits.dropWhile Text.isDecimalDigit
    match fraction with
    | [] => !digits.isEmpty
    | '.' :: places => !places.isEmpty && places.all Text.isDecimalDigit
    | _ => false
  | _ => false

def divide (word : Text) : Text × Option Text :=
  match Text.cut? '=' word with
  | some (name, value) => (name, some value)
  | none => (word, none)

def candidates (options : List OptionName) (word : Text) : List (OptionName × Option Text) :=
  let (start, value) := divide word
  if word.take 2 = "-h" then [(.help, if word = "-h" then none else some (word.drop 2))]
  else if word.take 2 ≠ "--" then []
  else match options.find? fun known => known.name = start with
    | some known => [(known, value)]
    | none => (options.filter fun known => start.isPrefixOf known.name).map (·, value)

def ofText (options : List OptionName) (word : Text) : Except Misuse CommandWord :=
  if word.take 1 ≠ "-" ∨ word = "-" then .ok (.plain word)
  else match candidates options word with
    | [(known, value)] => .ok (.option known value)
    | _ :: _ :: _ => .error (.ambiguous word)
    | [] =>
      if isNegativeNumber word ∨ ' ' ∈ word then .ok (.plain word)
      else .ok (.unknownOption word)

def ofTexts (options : List OptionName) : List Text → Except Misuse (List CommandWord)
  | [] => .ok []
  | word :: words =>
    if word = "--" then .ok (.divider :: words.map .plain)
    else do return (← ofText options word) :: (← ofTexts options words)

end CommandWord

/-- What a tool is to do. An empty text is as good as none. -/
structure Request where
  input : Option Text := none
  output : Text := []
  ids : Text := []
  game : Text := "BG2SOA"
  spaces : Int := 0
  recursive : Bool := false
  debug : Bool := false
  /-- Only the way to call the tool is asked for. -/
  help : Bool := false
  deriving DecidableEq, Repr

namespace Request

def switch (request : Request) : OptionName → Request
  | .recursive => { request with recursive := true }
  | .debug => { request with debug := true }
  | _ => request

def assign (request : Request) (option : OptionName) (value : Text) : Except Misuse Request :=
  match option with
  | .output => .ok { request with output := value }
  | .ids => .ok { request with ids := value }
  | .game => .ok { request with game := value }
  | .spaces =>
    match Text.readLoose? value with
    | some spaces => .ok { request with spaces }
    | none => .error (.notNumber option value)
  | _ => .error (.unexpectedValue option value)

/-- Takes up the words of a command line. The first plain word names the input, with a
divider next to it; `extra` are the words that nothing takes. -/
def takeWords (request : Request) (extra : List Text) : List CommandWord → Except Misuse Request
  | [] => if extra = [] then .ok request else .error (.unrecognized extra)
  | .unknownOption word :: words => request.takeWords (extra ++ [word]) words
  | .divider :: words =>
    request.takeWords (if request.input.isNone then extra else extra ++ [("--" : Text)]) words
  | .plain word :: .divider :: words =>
    match request.input with
    | none => { request with input := some word }.takeWords extra words
    | some _ => request.takeWords (extra ++ [word, ("--" : Text)]) words
  | .plain word :: words =>
    match request.input with
    | none => { request with input := some word }.takeWords extra words
    | some _ => request.takeWords (extra ++ [word]) words
  | .option option (some value) :: words => do (← request.assign option value).takeWords extra words
  | .option option none :: .plain value :: words =>
    if option.takesValue then do (← request.assign option value).takeWords extra words
    else if option = .help then .ok { request with help := true }
    else (request.switch option).takeWords extra (.plain value :: words)
  | .option option none :: words =>
    if option.takesValue then .error (.missingValue option)
    else if option = .help then .ok { request with help := true }
    else (request.switch option).takeWords extra words
termination_by words => words.length

def ofArguments (options : List OptionName) (arguments : List Text) : Except Misuse Request := do
  let words ← CommandWord.ofTexts (.help :: options) arguments
  ({} : Request).takeWords [] words

end Request

end InfinityScript
