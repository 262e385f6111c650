import NativeExtension.Cli.Style
import NativeExtension.Session.Basic

/-!
# NativeExtension.Cli.ReportLine

**A report as it is printed.** It stands on a line of its own: the level, with blanks in
front up to the width of the longest one, the part that it comes from, the message, and
the details with their names. The message cannot lead a terminal astray; the details are
printed as they are.
-/

namespace NativeExtension.Cli

/-- A control character as it stands in a message: those that could lead a terminal astray
are written out, the others stay. -/
def visible (c : Char) : List Char :=
  let n := c.toNat
  if n = 0x07 ∨ n = 0x08 ∨ n = 0x0C ∨ n = 0x1B ∨ n = 0x7F then
    '\\' :: 'x' :: [Nat.digitChar (n / 16), Nat.digitChar (n % 16)]
  else if 0x80 ≤ n ∧ n < 0xA0 then
    '\\' :: 'u' :: '\x7b' :: [Nat.digitChar (n / 16), Nat.digitChar (n % 16), '\x7d']
  else [c]

def setOff (colored : Bool) (style : Style) (text : String) : String :=
  if colored then style.paint text else text

def levelStyle : Level → Style
  | .info => .green
  | .warn => .yellow

/-- The width of the longest name of a level, in letters. -/
def levelWidth : Nat := 5

/-- The name of a level behind blanks that fill it up to the common width. -/
def levelText (level : Level) : String :=
  String.ofList (List.replicate (levelWidth - level.name.length) ' ') ++ level.name

/-- A detail behind a message. -/
def detailText (colored : Bool) (name value : String) : String :=
  " " ++ setOff colored .italic name ++ setOff colored .dimmed "=" ++ value

def reportLine (colored : Bool) (report : Report) : String :=
  setOff colored (levelStyle report.level) (levelText report.level) ++ " " ++
    setOff colored .dimmed report.reporter.name ++ setOff colored .dimmed ":" ++ " " ++
    String.ofList (report.message.toList.flatMap visible) ++
    String.join (report.details.map fun (name, value) => detailText colored name value) ++ "\n"

end NativeExtension.Cli
