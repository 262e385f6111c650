/-!
# NativeExtension.Arguments.Windows

**Arguments on a Windows command line**, both ways. The command line is a single text
that the started program takes apart itself.

* `quote` writes one argument. An argument with a blank or a double quote in it, or with
  nothing in it, is put between double quotes, and each double quote inside gets a
  backslash in front; a backslash gets nothing.
* `words` takes a command line apart as a started program does. It splits at the blanks
  outside of double quotes. Backslashes stand for themselves, except in front of a double
  quote: there two stand for one, and one that is left over takes from the double quote
  its power to open and close.
-/

namespace NativeExtension.Windows

/-- Characters that split or quote a command line. -/
def isActive (c : Char) : Bool := c = ' ' || c = '\t' || c = '"'

/-- A character between double quotes. -/
def quotedChar (c : Char) : List Char :=
  if c = '"' then ['\\', '"'] else [c]

/-- An argument as it stands on a command line. -/
def quoteChars (argument : List Char) : List Char :=
  if argument ≠ [] ∧ !argument.any isActive then argument
  else '"' :: argument.flatMap quotedChar ++ ['"']

def quote (argument : String) : String :=
  String.ofList (quoteChars argument.toList)

def isSeparator (c : Char) : Bool := c = ' ' || c = '\t'

/-- A word with some backslashes behind it; no word and no backslashes are no word. -/
def withBackslashes (word : Option (List Char)) (count : Nat) : Option (List Char) :=
  if count = 0 then word else some (word.getD [] ++ List.replicate count '\\')

/-- The words of the rest of a command line: `word` is what has been read of the current
one, `quoted` tells whether it stands between double quotes, and `count` backslashes have
just been read. -/
def wordsFrom (word : Option (List Char)) (quoted : Bool) (count : Nat) :
    List Char → List (List Char)
  | [] => (withBackslashes word count).toList
  | c :: rest =>
    if c = '\\' then wordsFrom word quoted (count + 1) rest
    else if c = '"' then
      let text := word.getD [] ++ List.replicate (count / 2) '\\'
      if count % 2 = 0 then wordsFrom (some text) (!quoted) 0 rest
      else wordsFrom (some (text ++ ['"'])) quoted 0 rest
    else if isSeparator c && !quoted then
      (withBackslashes word count).toList ++ wordsFrom none false 0 rest
    else wordsFrom (some ((withBackslashes word count).getD [] ++ [c])) quoted 0 rest

/-- The words of a command line. -/
def words (line : List Char) : List (List Char) := wordsFrom none false 0 line

@[simp] theorem toList_quote (argument : String) :
    (quote argument).toList = quoteChars argument.toList := by
  simp [quote]

end NativeExtension.Windows
