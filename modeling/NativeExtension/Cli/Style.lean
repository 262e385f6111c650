import NativeExtension.Machine.Basic
import NativeExtension.Text.Digit

/-!
# NativeExtension.Cli.Style

**How pieces of text are set off on a terminal.** A style is switched on by a sequence of
control characters in front of the piece and off by another one behind it, which takes
back either everything (`paint`) or the colour alone (`tint`).

Two things are set off for reasons of their own. Signs and names in what a command prints
are plain unless the environment insists, since the streams are taken for files. Reports
are set off unless the environment forbids it.
-/

namespace NativeExtension

namespace Cli

/-- A way to set off a piece of text. -/
inductive Style where
  | dimmed
  | italic
  | red
  | green
  | yellow
deriving DecidableEq, Repr

namespace Style

def number : Style → String
  | .dimmed => "2"
  | .italic => "3"
  | .red => "31"
  | .green => "32"
  | .yellow => "33"

/-- The control sequence with a number. -/
def sequence (number : String) : String := "\x1b[" ++ number ++ "m"

def paint (style : Style) (text : String) : String :=
  sequence style.number ++ text ++ sequence "0"

/-- The text in a colour, with the colour taken back behind it. -/
def tint (style : Style) (text : String) : String :=
  sequence style.number ++ text ++ sequence "39"

end Style

end Cli

namespace Machine

/-- The value of a variable that is set to a text. -/
def textVar? (m : Machine) (name : String) : Option String := (m.var? name).bind text?

/-- Does the environment insist on colours, whatever the streams are? -/
def insistsOnColor (m : Machine) : Bool :=
  match m.textVar? "FORCE_COLOR" with
  | some value => value ≠ "false" && Text.signedNumeral? value.toList ≠ some 0
  | none => (m.textVar? "CLICOLOR_FORCE").any (· ≠ "0")

/-- Does the environment let reports be coloured? -/
def letsReportsBeColored (m : Machine) : Bool := (m.textVar? "NO_COLOR").all (· = "")

end Machine

end NativeExtension
