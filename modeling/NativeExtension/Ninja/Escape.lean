/-!
# NativeExtension.Ninja.Escape

**Ninja's two escapes.** In a path of a `build` or `default` statement a dollar sign, a
space and a colon carry a meaning, and a dollar sign in front takes it from them. In the
value of a variable only the dollar sign itself has to be written so.
-/

namespace NativeExtension.Ninja

/-- Does the character mean something inside a path? -/
def isSpecialInPath (c : Char) : Bool := c = '$' || c = ' ' || c = ':'

/-- A character of a path as it is written. -/
def escapedPathChar (c : Char) : List Char :=
  if isSpecialInPath c then ['$', c] else [c]

/-- A character of a value as it is written. -/
def escapedValueChar (c : Char) : List Char :=
  if c = '$' then ['$', '$'] else [c]

/-- A path as it is written in a `build` or `default` statement. -/
def escapePath (path : String) : String :=
  String.ofList (path.toList.flatMap escapedPathChar)

/-- A value as it is written behind the equals sign. -/
def escapeValue (value : String) : String :=
  String.ofList (value.toList.flatMap escapedValueChar)

@[simp] theorem toList_escapePath (path : String) :
    (escapePath path).toList = path.toList.flatMap escapedPathChar := by
  simp [escapePath]

@[simp] theorem toList_escapeValue (value : String) :
    (escapeValue value).toList = value.toList.flatMap escapedValueChar := by
  simp [escapeValue]

end NativeExtension.Ninja
