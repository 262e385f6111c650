/-!
# NativeExtension.Text.Json

**Values of the JSON format and their printed form.** The form is the spacious one: each
element of a list and each field of an object on a line of its own, two spaces deeper
than what holds it; an empty list or object stays on its line. In a text only the quote,
the backslash and the control characters are escaped.
-/

namespace NativeExtension

/-- A JSON value; the fields of an object keep their order. -/
inductive Json where
  | null
  | bool (value : Bool)
  | number (value : Nat)
  | text (value : String)
  | list (items : List Json)
  | object (fields : List (String × Json))

namespace Json

/-- A character as it stands inside a quoted text. -/
def escapedChar (c : Char) : List Char :=
  if c = '"' then ['\\', '"']
  else if c = '\\' then ['\\', '\\']
  else if c = '\n' then ['\\', 'n']
  else if c = '\r' then ['\\', 'r']
  else if c = '\t' then ['\\', 't']
  else if c = '\x08' then ['\\', 'b']
  else if c = '\x0c' then ['\\', 'f']
  else if c.toNat < 0x20 then
    ['\\', 'u', '0', '0', Nat.digitChar (c.toNat / 16), Nat.digitChar (c.toNat % 16)]
  else [c]

def quoted (text : String) : String :=
  String.ofList ('"' :: text.toList.flatMap escapedChar ++ ['"'])

/-- The blanks in front of a line that lies `depth` levels deep. -/
def indent (depth : Nat) : String :=
  String.ofList (List.replicate (2 * depth) ' ')

/-- Printed parts between brackets, one a line; nothing but the brackets if there is no
part. -/
def bracketed (depth : Nat) (left right : String) (parts : List String) : String :=
  if parts.isEmpty then left ++ right
  else
    left ++ "\n" ++ String.intercalate ",\n" (parts.map (indent (depth + 1) ++ ·)) ++ "\n" ++
      indent depth ++ right

mutual

/-- The printed form of a value that starts on a line `depth` levels deep. -/
def printAt (depth : Nat) : Json → String
  | .null => "null"
  | .bool true => "true"
  | .bool false => "false"
  | .number value => toString value
  | .text value => quoted value
  | .list items => bracketed depth "[" "]" (printItems (depth + 1) items)
  | .object fields => bracketed depth "\x7b" "\x7d" (printFields (depth + 1) fields)

def printItems (depth : Nat) : List Json → List String
  | [] => []
  | item :: rest => printAt depth item :: printItems depth rest

def printField (depth : Nat) : String × Json → String
  | (key, value) => quoted key ++ ": " ++ printAt depth value

def printFields (depth : Nat) : List (String × Json) → List String
  | [] => []
  | field :: rest => printField depth field :: printFields depth rest

end

def print (value : Json) : String := printAt 0 value

def texts (values : List String) : Json := .list (values.map .text)

end Json

end NativeExtension
