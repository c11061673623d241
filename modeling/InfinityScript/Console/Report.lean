import InfinityScript.Noted
import InfinityScript.Text.Basic
import InfinityScript.Text.Numeral

/-!
# Reports

Messages for the terminal, in its colours. A diagnostic is shown with the line
it is about when the source is at hand.
-/

namespace InfinityScript.Colour

def red : Text := "\x1b[31m"
def green : Text := "\x1b[32m"
def yellow : Text := "\x1b[33m"
def cyan : Text := "\x1b[36m"
def reset : Text := "\x1b[0m"

def paint (colour text : Text) : Text := colour ++ text ++ reset

/-- A text with the part from index `first` up to index `last` in a colour. Negative
indices count from the end. -/
def paintPart (colour text : Text) (first last : Int) : Text :=
  window 0 first text ++ colour ++ window first last text ++ reset ++
    window last text.length text

end InfinityScript.Colour

namespace InfinityScript.Report

def warning (message : Text) : Text := Colour.paint Colour.yellow ("WARNING: " ++ message)

def error (message : Text) : Text := Colour.paint Colour.red ("ERROR: " ++ message)

/-- A source line after its number, with all but its indent in a colour. -/
def highlight (line : Text) (number : Int) (colour : Text) : Text :=
  let text := Text.trimRight line
  let indent := text.length - (Text.trimLeft text).length
  Colour.paint Colour.cyan (Text.padLeft 4 (Text.ofInt number) ++ "| ") ++
    Colour.paintPart colour text indent text.length

def severityLines (severity colour : Text) (lines : List Text) (name : Text)
    (diagnostics : Diagnostics) : List Text :=
  diagnostics.toList.flatMap fun (number, message) =>
    let label : Text := if name = [] then [] else name ++ ":"
    let told := Colour.paint colour
      (severity ++ ":" ++ label ++ Text.ofInt number ++ ": " ++ message)
    let shown :=
      if 0 < number then (lines[number.toNat - 1]?).map (highlight · number colour) else none
    told :: shown.toList

/-- Errors and then warnings, each with the displayed line of its number. -/
def diagnostics (source : Text) (errors warnings : Diagnostics) (name : Text) : List Text :=
  let lines := Text.displayLines source
  severityLines "Error" Colour.red lines name errors ++
    severityLines "Warning" Colour.yellow lines name warnings

end InfinityScript.Report
