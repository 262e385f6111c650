import NativeExtension.Pattern.CharacterSet
import NativeExtension.Text.Letter

/-!
# NativeExtension.Pattern.Reader

**Which texts are search patterns.** A pattern has branches, a bar between two, each a row
of parts; a part is an atom, a set of characters or a group, and `?`, `*` and `+` behind a
part repeat it. A group may have a name, which no other group has, and may change the mode
within it; a mode change without a group lasts to the end of the group around it.

A pattern is read with a stack of the groups that are still open. Every step takes at
least one character, so the length of the text bounds the reading.
-/

namespace NativeExtension.Pattern

/-- How deep the parts of a pattern may lie in one another. -/
def deepest : Nat := 250

/-- What a row of parts is made of. -/
inductive Part where
  /-- A change of the mode, which cannot be repeated. -/
  | setting
  /-- Something to be found, and how deep its parts lie. -/
  | found (depth : Nat)
deriving DecidableEq, Repr

def Part.depth : Part → Nat
  | .setting => 0
  | .found depth => depth

/-- A group that is still open, or the whole pattern. -/
structure Group where
  /-- The mode outside, which holds again behind the group. -/
  outside : Mode := {}
  /-- How deep the finished branches lie. -/
  branches : List Nat := []
  /-- The parts of the branch that is being read, the last one first. -/
  parts : List Part := []
deriving DecidableEq, Repr

namespace Group

def add (group : Group) (part : Part) : Group := { group with parts := part :: group.parts }

def branchDepth (group : Group) : Nat := depthOf (group.parts.map Part.depth)

def nextBranch (group : Group) : Group :=
  { group with branches := group.branchDepth :: group.branches, parts := [] }

def depth (group : Group) : Nat := depthOf (group.branchDepth :: group.branches)

/-- The group with its last part repeated; there has to be one. -/
def repeatLast? (group : Group) : Option Group :=
  match group.parts with
  | .found depth :: others => some { group with parts := .found (depth + 1) :: others }
  | _ => none

end Group

/-- What has been read of a pattern, and the text that is left. -/
structure Reading where
  mode : Mode := {}
  /-- The names of groups so far. -/
  names : List (List Char) := []
  current : Group := {}
  /-- The groups around it, innermost first. -/
  around : List Group := []
  rest : List Char
deriving DecidableEq, Repr

namespace Reading

def behind (reading : Reading) (depth : Nat) (rest : List Char) : Reading :=
  { reading with current := reading.current.add (.found depth), rest := rest }

def inside (reading : Reading) (mode : Mode) (rest : List Char) : Reading :=
  { reading with
    mode := mode
    current := { outside := reading.mode }
    around := reading.current :: reading.around
    rest := rest }

def outside? (reading : Reading) (rest : List Char) : Option Reading :=
  match reading.around with
  | [] => none
  | outer :: others =>
    some { reading with
      mode := reading.current.outside
      current := outer.add (.found (reading.current.depth + 1))
      around := others
      rest := rest }

/-- Goes on behind an atom, if the mode lets it stand there. -/
def behindAtom? (reading : Reading) (atom : Atom) (rest : List Char) : Option Reading :=
  if atom.isAllowed reading.mode then some (reading.behind 0 rest) else none

/-! ### Groups -/

def isFirstOfName (c : Char) : Bool := c = '_' || Text.isAlphabetic c

def isInName (c : Char) : Bool := "_.[]".contains c || Text.isAlphanumeric c

def isName : List Char → Bool
  | [] => false
  | c :: rest => isFirstOfName c && rest.all isInName

/-- Reads the name of a group and goes on inside the group. -/
def named? (reading : Reading) (text : List Char) : Option Reading :=
  let name := text.takeWhile (· ≠ '>')
  match text.dropWhile (· ≠ '>') with
  | _ :: rest =>
    if isName name && !reading.names.contains name then
      some { reading.inside reading.mode rest with names := name :: reading.names }
    else none
  | [] => none

/-- The letters that change the mode, and the dash in front of those that are turned off. -/
def modeLetters : List Char := "imsUuRx-".toList

/-- Is the row one of different letters, with none left out behind the dash? -/
def isModeRow (letters : List Char) : Bool :=
  letters.all modeLetters.contains && letters.Nodup && letters.getLast? ≠ some '-'

/-- What a letter makes of what it stands for. -/
def turned (letters : List Char) (letter : Char) (before : Bool) : Bool :=
  if (letters.takeWhile (· ≠ '-')).contains letter then true
  else if letters.contains letter then false
  else before

/-- The mode that a row of letters makes of another. -/
def modeAfter (letters : List Char) (mode : Mode) : Mode where
  unicode := turned letters 'u' mode.unicode
  spaced := turned letters 'x' mode.spaced

/-- Reads a row of letters that changes the mode, for a new group or for what follows in
this one. -/
def modeChange? (reading : Reading) (text : List Char) : Option Reading :=
  let isEnd (c : Char) : Bool := c = ':' || c = ')'
  let letters := text.takeWhile (!isEnd ·)
  let mode := modeAfter letters reading.mode
  if !isModeRow letters then none
  else
    match text.dropWhile (!isEnd ·) with
    | ':' :: rest => some (reading.inside mode rest)
    | ')' :: rest =>
      -- without letters the question mark would repeat a part that is not there
      if letters = [] then none
      else
        some { reading with
          mode := mode
          current := reading.current.add .setting
          rest := rest }
    | _ => none

/-- Reads the start of a group behind its parenthesis. -/
def group? (reading : Reading) (text : List Char) : Option Reading :=
  match reading.mode.skip text with
  | '?' :: 'P' :: '<' :: rest => reading.named? rest
  | '?' :: '<' :: rest => reading.named? rest
  | '?' :: rest => reading.modeChange? rest
  | rest => some (reading.inside reading.mode rest)

/-! ### Steps -/

/-- Goes on behind a sign of repetition, and behind the `?` that makes it a reluctant one. -/
def repeated? (reading : Reading) (rest : List Char) : Option Reading :=
  reading.current.repeatLast?.map fun current =>
    { reading with
      current := current
      rest := if rest.head? = some '?' then rest.drop 1 else rest }

def step? (reading : Reading) (c : Char) (rest : List Char) : Option Reading :=
  match c with
  | '(' => reading.group? rest
  | ')' => reading.outside? rest
  | '|' => some { reading with current := reading.current.nextBranch, rest := rest }
  | '[' => (characterSet? reading.mode rest).map fun (depth, rest) => reading.behind depth rest
  | '?' | '*' | '+' => reading.repeated? rest
  -- what a brace opens is never closed
  | '\x7b' => none
  | '\\' => (escape? reading.mode rest).bind fun (atom, rest) => reading.behindAtom? atom rest
  | '.' => reading.behindAtom? .any rest
  | '^' | '$' => reading.behindAtom? .edge rest
  | _ => reading.behindAtom? (.literal c false) rest

/-- Is what was read a whole pattern, not too deep? -/
def isWhole (reading : Reading) : Bool :=
  reading.around = [] && reading.current.depth ≤ deepest

/-- Reads to the end of the text in at most `bound` steps. -/
def finish? : Nat → Reading → Option Reading
  | 0, reading => if reading.mode.skip reading.rest = [] then some reading else none
  | bound + 1, reading =>
    match reading.mode.skip reading.rest with
    | [] => some reading
    | c :: rest => (reading.step? c rest).bind (finish? bound)

end Reading

/-- Is the text a search pattern? -/
def isPattern (text : List Char) : Bool :=
  (Reading.finish? text.length { rest := text }).any Reading.isWhole

end NativeExtension.Pattern
