import NativeExtension.Text.Blank

/-!
# NativeExtension.Pattern.Basic

**The smallest parts of a search pattern.** A pattern is made of atoms, among them what
is written with a backslash. How a text is read depends on the `Mode`, which may change
within a pattern: whether blanks count, and whether the characters of Unicode are known
or those of ASCII alone.

A search goes byte by byte and finds characters only as wholes. So an atom is refused
that could stop in the middle of a character, and an edge of a word is known only where
the letters are those of ASCII (`Atom.isAllowed`).

A closing brace cannot occur in a pattern here, since the text that a pattern is cut
from ends at one. An opening brace that is not taken for itself is therefore never
closed, and refused.
-/

namespace NativeExtension.Pattern

/-- How the next characters of a pattern are to be read. -/
structure Mode where
  /-- Are the characters those of Unicode, and not of ASCII alone? -/
  unicode : Bool := true
  /-- Do blanks and comments stand for nothing? -/
  spaced : Bool := false
deriving DecidableEq, Repr, Inhabited

namespace Mode

/-- The text behind blanks and comments; a comment goes from `#` to the end of the line. -/
def dropBlanks (inComment : Bool) : List Char → List Char
  | [] => []
  | c :: rest =>
    if inComment then dropBlanks (c ≠ '\n') rest
    else if Text.isBlank c then dropBlanks false rest
    else if c = '#' then dropBlanks true rest
    else c :: rest

/-- The text behind what stands for nothing. -/
def skip (mode : Mode) (text : List Char) : List Char :=
  if mode.spaced then dropBlanks false text else text

end Mode

inductive Atom where
  /-- A character, which may be written as a byte. -/
  | literal (c : Char) (asByte : Bool)
  | any
  /-- The digits, the blanks or the characters of words; or, negated, all others. -/
  | kind (negated : Bool)
  | category
  | edge
  | wordEdge
deriving DecidableEq, Repr

/-- Code points from here on are beyond ASCII. -/
def asciiLimit : Nat := 0x80

namespace Atom

/-- May the atom stand in a pattern? -/
def isAllowed (mode : Mode) : Atom → Bool
  | .literal c asByte => mode.unicode || !asByte || c.toNat < asciiLimit
  | .any => mode.unicode
  | .kind negated => mode.unicode || !negated
  | .category => mode.unicode
  | .edge => true
  | .wordEdge => !mode.unicode

/-- May the atom stand in a set of characters? -/
def isAllowedInSet (mode : Mode) : Atom → Bool
  | .literal c _ => mode.unicode || c.toNat < asciiLimit
  | .kind negated => mode.unicode || !negated
  | .category => mode.unicode
  | .any | .edge | .wordEdge => false

end Atom

/-! ### What is written with a backslash -/

def hexDigit? (c : Char) : Option Nat :=
  if c.isDigit then some (c.toNat - '0'.toNat)
  else if 'a' ≤ c ∧ c ≤ 'f' then some (c.toNat - 'a'.toNat + 10)
  else if 'A' ≤ c ∧ c ≤ 'F' then some (c.toNat - 'A'.toNat + 10)
  else none

/-- The number that so many hexadecimal digits write, read after the number `read`. -/
def hexNumber? (mode : Mode) (read : Nat) : Nat → List Char → Option (Nat × List Char)
  | 0, text => some (read, text)
  | _ + 1, [] => none
  | count + 1, c :: rest =>
    match hexDigit? c with
    | some digit => hexNumber? mode (read * 16 + digit) count (mode.skip rest)
    | none => none

def hexCharacter? (mode : Mode) (count : Nat) (text : List Char) : Option (Atom × List Char) :=
  match hexNumber? mode 0 count (mode.skip text) with
  | some (n, rest) =>
    if n.isValidChar then some (.literal (Char.ofNat n) (count = 2), rest) else none
  | none => none

/-- Does the character behind a backslash stand for itself? Every character of ASCII does
but letters, digits and angle brackets. -/
def isEscapable (c : Char) : Bool :=
  c.toNat < asciiLimit && !c.isAlphanum && c ≠ '<' && c ≠ '>'

def controlLetters : List (Char × Nat) :=
  [('a', 0x07), ('f', 0x0C), ('t', 0x09), ('n', 0x0A), ('r', 0x0D), ('v', 0x0B)]

/-- The letters of the general categories that one letter names. -/
def categoryLetters : List Char := "clmnpsz".toList

def escape? (mode : Mode) : List Char → Option (Atom × List Char)
  | [] => none
  | c :: rest =>
    if c = 'x' then hexCharacter? mode 2 rest
    else if c = 'u' then hexCharacter? mode 4 rest
    else if c = 'U' then hexCharacter? mode 8 rest
    else if c = 'p' ∨ c = 'P' then
      match mode.skip rest with
      | letter :: behind =>
        if categoryLetters.contains letter.toLower then some (.category, mode.skip behind)
        else none
      | [] => none
    else if "dsw".contains c then some (.kind false, rest)
    else if "DSW".contains c then some (.kind true, rest)
    else if c = 'A' ∨ c = 'z' then some (.edge, rest)
    else if "bB<>".contains c then some (.wordEdge, rest)
    else if isEscapable c then some (.literal c false, rest)
    else (controlLetters.lookup c).map fun n => (.literal (Char.ofNat n) false, rest)

/-- The depth of parts that stand beside each other: one part is as deep as it is, several
lie one level deeper. -/
def depthOf : List Nat → Nat
  | [] => 0
  | [depth] => depth
  | depths => depths.foldl max 0 + 1

end NativeExtension.Pattern
