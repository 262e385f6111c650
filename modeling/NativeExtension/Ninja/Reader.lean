import NativeExtension.Text.Fields

/-!
# NativeExtension.Ninja.Reader

**Reading a Ninja file.** A file is read line by line, and each line stands for itself:
a variable, a rule, a binding of the rule above it, a build edge, the default target, or
nothing. What the reader gives is what the lines say once the escapes are taken away:

* in a path `$$`, `$ ` and `$:` stand for a dollar sign, a space and a colon, and a bare
  space, colon or bar ends the path;
* in a value the spaces behind the equals sign are skipped and `$$` stands for a dollar
  sign;
* the bindings of a rule are kept as they are written, since they are filled in for each
  edge that uses the rule.

References to variables occur in the bindings of rules only; in a path or a value they
are refused. So are a zero character, a carriage return that is not followed by a line
feed, and a last line without an end.
-/

namespace NativeExtension.Ninja

/-- A rule with its bindings, as they are written. -/
structure RuleText where
  name : List Char
  /-- The bindings, each under its name. -/
  bindings : List (List Char × List Char)
deriving DecidableEq, Repr

structure Edge where
  output : List Char
  rule : List Char
  inputs : List (List Char)
deriving DecidableEq, Repr

structure Contents where
  assignments : List (List Char × List Char) := []
  rules : List RuleText := []
  edges : List Edge := []
  defaults : List (List Char) := []
deriving DecidableEq, Repr

inductive Line where
  | blank
  | variable (key value : List Char)
  | rule (name : List Char)
  /-- A binding of the rule above. -/
  | binding (key template : List Char)
  | edge (edge : Edge)
  | default (target : List Char)
deriving DecidableEq, Repr

/-! ### Tokens -/

def isNameChar (c : Char) : Bool := c.isAlphanum || c = '_' || c = '.' || c = '-'

def endsPath (c : Char) : Bool := c = ' ' || c = ':' || c = '|'

def skipSpaces (text : List Char) : List Char := text.dropWhile (· = ' ')

/-- Reads a name; there has to be one. -/
def readName (text : List Char) : Option (List Char × List Char) :=
  match text.takeWhile isNameChar with
  | [] => none
  | name => some (name, text.dropWhile isNameChar)

/-- Reads a path, which may be empty; `escaped` tells whether a dollar sign stands right in
front. -/
def readPathFrom : Bool → List Char → Option (List Char × List Char)
  | false, [] => some ([], [])
  | true, [] => none
  | true, c :: rest =>
    if c = '$' ∨ c = ' ' ∨ c = ':' then
      (readPathFrom false rest).map fun (path, after) => (c :: path, after)
    else none
  | false, c :: rest =>
    if c = '$' then readPathFrom true rest
    else if endsPath c then some ([], c :: rest)
    else (readPathFrom false rest).map fun (path, after) => (c :: path, after)

def readPath (text : List Char) : Option (List Char × List Char) := readPathFrom false text

/-- Reads a value, which goes to the end of the line; `escaped` tells whether a dollar sign
stands right in front. -/
def readValueFrom : Bool → List Char → Option (List Char)
  | false, [] => some []
  | true, [] => none
  | true, c :: rest => if c = '$' then (readValueFrom false rest).map ('$' :: ·) else none
  | false, c :: rest =>
    if c = '$' then readValueFrom true rest else (readValueFrom false rest).map (c :: ·)

def readValue (text : List Char) : Option (List Char) := readValueFrom false text

/-- Reads paths with spaces between them, to the end of the line; `bound` is at least
the number of characters. -/
def readPathsUpTo : Nat → List Char → Option (List (List Char))
  | 0, text => if text = [] then some [] else none
  | bound + 1, text =>
    match skipSpaces text with
    | [] => some []
    | c :: rest =>
      match readPath (c :: rest) with
      | some (first :: path, after) => (readPathsUpTo bound after).map ((first :: path) :: ·)
      | _ => none

/-- Reads paths with spaces between them, to the end of the line. -/
def readPaths (text : List Char) : Option (List (List Char)) :=
  readPathsUpTo text.length text

/-! ### Lines -/

/-- Reads an equals sign, perhaps after spaces, and skips the spaces behind it. -/
def readEquals (text : List Char) : Option (List Char) :=
  match skipSpaces text with
  | '=' :: rest => some (skipSpaces rest)
  | _ => none

def readRule (text : List Char) : Option Line :=
  match readName (skipSpaces text) with
  | some (name, after) => if skipSpaces after = [] then some (.rule name) else none
  | none => none

def readEdge (text : List Char) : Option Line :=
  match readPath (skipSpaces text) with
  | some (first :: output, after) =>
    match skipSpaces after with
    | ':' :: behind =>
      match readName (skipSpaces behind) with
      | some (rule, rest) =>
        (readPaths rest).map fun inputs =>
          .edge { output := first :: output, rule := rule, inputs := inputs }
      | none => none
    | _ => none
  | _ => none

def readDefault (text : List Char) : Option Line :=
  match readPath (skipSpaces text) with
  | some (first :: target, after) =>
    if skipSpaces after = [] then some (.default (first :: target)) else none
  | _ => none

/-- Reads a line that does not start with a space. -/
def readStatement (text : List Char) : Option Line :=
  match readName text with
  | none => none
  | some (word, after) =>
    if word = "rule".toList then readRule after
    else if word = "build".toList then readEdge after
    else if word = "default".toList then readDefault after
    else
      match readEquals after with
      | some value => (readValue value).map (.variable word)
      | none => none

/-- Reads a line that starts with a space. -/
def readBinding (text : List Char) : Option Line :=
  match readName (skipSpaces text) with
  | some (key, after) => (readEquals after).map (.binding key)
  | none => none

/-- A line without the carriage return at its end. -/
def dropReturn (text : List Char) : List Char :=
  if text.getLast? = some '\r' then text.dropLast else text

/-- Reads a line, given without its line feed. -/
def readLine (text : List Char) : Option Line :=
  let line := dropReturn text
  if line.contains '\r' ∨ line.contains '\x00' then none
  else if skipSpaces line = [] then some .blank
  else if line.head? = some ' ' then readBinding line
  else readStatement line

/-! ### Files -/

namespace Contents

/-- The rules with one more binding for the last of them. -/
def bindLast (key template : List Char) (rules : List RuleText) : Option (List RuleText) :=
  match rules.reverse with
  | [] => none
  | last :: earlier =>
    some (earlier.reverse ++ [{ last with bindings := last.bindings ++ [(key, template)] }])

/-- What a file says with one more line; a binding needs a rule above it. -/
def add (contents : Contents) (line : Line) : Option Contents :=
  match line with
  | .blank => some contents
  | .variable key value =>
    some { contents with assignments := contents.assignments ++ [(key, value)] }
  | .rule name =>
    some { contents with rules := contents.rules ++ [{ name := name, bindings := [] }] }
  | .binding key template =>
    (bindLast key template contents.rules).map fun rules => { contents with rules := rules }
  | .edge edge => some { contents with edges := contents.edges ++ [edge] }
  | .default target => some { contents with defaults := contents.defaults ++ [target] }

def ofLines (lines : List Line) : Option Contents := lines.foldlM add {}

/-- What a file says, if it can be read. -/
def ofText? (text : List Char) : Option Contents :=
  match (Text.fields '\n' text).reverse with
  | [] :: lines => (lines.reverse.mapM readLine).bind ofLines
  | _ => none

end Contents

end NativeExtension.Ninja
