import NativeExtension.Arguments.Posix
import NativeExtension.Ninja.Reader

/-!
# NativeExtension.Ninja.Expansion

**The command line of a build edge.** The command of the edge's rule is a template: `$`
and a name stand for a variable, `$in` and `$out` for the edge's own files, quoted for the
shell, and `$$`, `$ ` and `$:` for a dollar sign, a space and a colon. A variable that is
not bound stands for nothing; of two bindings the later one counts.
-/

namespace NativeExtension.Ninja

/-- Characters of a name that is written behind a dollar sign without brackets. A dot
ends it. -/
def isReferenceChar (c : Char) : Bool := c.isAlphanum || c = '_' || c = '-'

/-- A template with its variables filled in. `pending` holds the characters of a reference
read so far, if one is being read. -/
def fill (value : List Char → List Char) : Option (List Char) → List Char → Option (List Char)
  | none, [] => some []
  | some name, [] => if name = [] then none else some (value name)
  | none, c :: rest =>
    if c = '$' then fill value (some []) rest else (fill value none rest).map (c :: ·)
  | some name, c :: rest =>
    if isReferenceChar c then fill value (some (name ++ [c])) rest
    else if name = [] then
      if c = '$' ∨ c = ' ' ∨ c = ':' then (fill value none rest).map (c :: ·) else none
    else if c = '$' then (fill value (some []) rest).map (value name ++ ·)
    else (fill value none rest).map (value name ++ c :: ·)

namespace Contents

def value (contents : Contents) (name : List Char) : List Char :=
  (contents.assignments.reverse.lookup name).getD []

def rule? (contents : Contents) (name : List Char) : Option RuleText :=
  contents.rules.find? (·.name = name)

/-- A variable as an edge sees it. -/
def edgeValue (contents : Contents) (edge : Edge) (name : List Char) : List Char :=
  if name = "in".toList then
    List.intercalate [' '] (edge.inputs.map Posix.quoteChars)
  else if name = "out".toList then Posix.quoteChars edge.output
  else contents.value name

/-- The command line of an edge. -/
def commandLine? (contents : Contents) (edge : Edge) : Option (List Char) := do
  let rule ← contents.rule? edge.rule
  let template ← rule.bindings.lookup "command".toList
  fill (contents.edgeValue edge) none template

/-- The command of an edge as the words that a shell makes of it. -/
def command? (contents : Contents) (edge : Edge) : Option (List (List Char)) :=
  (contents.commandLine? edge).bind Posix.words?

end Contents

end NativeExtension.Ninja
