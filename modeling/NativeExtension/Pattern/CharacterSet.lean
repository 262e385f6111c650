import NativeExtension.Pattern.Basic

/-!
# NativeExtension.Pattern.CharacterSet

**Sets of characters in brackets.** A set lists characters, ranges, named classes and
further sets, and `&&`, `--` and `~~` combine what stands on their two sides. A dash at
the start or the end stands for itself, and so does a closing bracket at the start.

A set is read with a stack of the sets that are still open. Every step takes at least one
character, so the length of the text bounds the reading. All that is kept of a set is how
deep sets lie in one another.
-/

namespace NativeExtension.Pattern

namespace CharacterSet

def classNames : List (List Char) :=
  ["alnum", "alpha", "ascii", "blank", "cntrl", "digit", "graph", "lower", "print", "punct",
    "space", "upper", "word", "xdigit"].map String.toList

structure OpenSet where
  /-- Was nothing read of it but dashes? -/
  fresh : Bool := true
  /-- How deep what stands left of the last operator lies, if there is an operator. -/
  left : Option Nat := none
  /-- How deep the members behind it lie. -/
  members : List Nat := []
deriving DecidableEq, Repr

namespace OpenSet

/-- How deep all that was read of the set lies. -/
def depth (set : OpenSet) : Nat :=
  match set.left with
  | none => depthOf set.members
  | some left => max left (depthOf set.members) + 1

def addMember (set : OpenSet) (depth : Nat) : OpenSet :=
  { set with members := depth :: set.members }

def afterOperator (set : OpenSet) : OpenSet := { fresh := false, left := some set.depth }

end OpenSet

/-! ### Members -/

/-- Reads a member that stands alone, or one end of a range. -/
def item? (mode : Mode) : List Char → Option (Atom × List Char)
  | [] => none
  | c :: rest => if c = '\\' then escape? mode rest else some (.literal c false, rest)

/-- Are the two atoms characters in their order? -/
def isRange : Atom → Atom → Bool
  | .literal first _, .literal last _ => first ≤ last
  | _, _ => false

/-- Reads a member, which is an atom or a range, and gives what follows. -/
def member? (mode : Mode) (text : List Char) : Option (List Char) := do
  let (first, rest) ← item? mode text
  if !first.isAllowedInSet mode then none
  match mode.skip rest with
  | '-' :: behind =>
    match mode.skip behind with
    | [] => none
    | c :: others =>
      -- a dash before the end or before another dash is not the sign of a range
      if c = ']' ∨ c = '-' then return '-' :: behind
      let (last, rest) ← item? mode (c :: others)
      if isRange first last && last.isAllowedInSet mode then return rest
      none
  | rest => return rest

/-- A named class behind an opening bracket: whether it is negated, and what follows. -/
def className? : List Char → Option (Bool × List Char)
  | ':' :: inner =>
    let negated : Bool := inner.head? = some '^'
    let name := if negated then inner.drop 1 else inner
    match name.dropWhile (· ≠ ':') with
    | ':' :: ']' :: behind =>
      if classNames.contains (name.takeWhile (· ≠ ':')) then some (negated, behind) else none
    | _ => none
  | _ => none

/-- Reads the start of a set behind its bracket. All but some characters of ASCII are not
characters of ASCII. -/
def start? (mode : Mode) (text : List Char) : Option (List Char) :=
  match mode.skip text with
  | '^' :: rest => if mode.unicode then some rest else none
  | rest => some rest

/-! ### Whole sets -/

inductive Step where
  /-- Sets are still open, the innermost one first; then the text that is left. -/
  | reading (current : OpenSet) (around : List OpenSet) (rest : List Char)
  | closed (depth : Nat) (rest : List Char)
deriving DecidableEq, Repr

def close (current : OpenSet) (around : List OpenSet) (rest : List Char) : Step :=
  match around with
  | [] => .closed (current.depth + 1) rest
  | outer :: others => .reading (outer.addMember (current.depth + 1)) others rest

/-- Opens a set inside the innermost one, unless a named class stands there. -/
def descend? (mode : Mode) (current : OpenSet) (around : List OpenSet) (rest : List Char) :
    Option Step :=
  match className? rest with
  | some (negated, behind) =>
    if negated && !mode.unicode then none
    else some (.reading (current.addMember 0) around behind)
  | none => (start? mode rest).map (.reading {} (current :: around) ·)

/-- Reads on from a character behind the start of a set. -/
def stepInside? (mode : Mode) (current : OpenSet) (around : List OpenSet) (c : Char)
    (rest : List Char) : Option Step :=
  match c, rest with
  | ']', _ => some (close current around rest)
  | '[', _ => descend? mode current around rest
  | '&', '&' :: behind => some (.reading current.afterOperator around behind)
  | '-', '-' :: behind => some (.reading current.afterOperator around behind)
  | '~', '~' :: behind => some (.reading current.afterOperator around behind)
  | _, _ => (member? mode (c :: rest)).map (.reading (current.addMember 0) around ·)

/-- Reads on from a character. -/
def step? (mode : Mode) (current : OpenSet) (around : List OpenSet) (c : Char)
    (rest : List Char) : Option Step :=
  -- dashes at the start leave the set as if nothing had been read
  if current.fresh && c = '-' then some (.reading (current.addMember 0) around rest)
  else
    let begun := { current with fresh := false }
    -- a set is not empty, so a bracket in the first place does not close it
    if current.fresh && c = ']' && current.members = [] then
      some (.reading (begun.addMember 0) around rest)
    else stepInside? mode begun around c rest

/-- Reads on until the outermost set is closed, in at most `bound` steps. -/
def finish? (mode : Mode) : Nat → Step → Option (Nat × List Char)
  | _, .closed depth rest => some (depth, rest)
  | 0, .reading .. => none
  | bound + 1, .reading current around text =>
    match mode.skip text with
    | [] => none
    | c :: rest => (step? mode current around c rest).bind (finish? mode bound)

end CharacterSet

/-- Reads a set of characters behind its opening bracket: how deep sets lie in it, and what
follows. -/
def characterSet? (mode : Mode) (text : List Char) : Option (Nat × List Char) :=
  (CharacterSet.start? mode text).bind fun rest =>
    CharacterSet.finish? mode (text.length + 1) (.reading {} [] rest)

end NativeExtension.Pattern
