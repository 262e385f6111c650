import NativeExtension.Pattern.Reader
import NativeExtension.Session.Basic
import NativeExtension.Text.ByteOrder
import NativeExtension.Text.Digit

/-!
# NativeExtension.Cli.Directive

**One directive of a filter for reports.** `level` alone sets the level for all parts of
the program, `target=level` for the parts whose name starts with the target, and a target
alone opens everything of those parts. Brackets behind the target speak of spans: of those
with the name in the brackets, or of those with the detail that is named in braces, which
may have to match a pattern. There are no spans here, so such a directive selects nothing;
but one that only asks for a detail, without a span's name and without a pattern, selects
the reports that have this detail.

Signs are looked for in the text without the blanks around it, while the pieces between
them are taken from the text as it is written, at the same number of bytes from its start
(`Cursor`). Without blanks around it that is the same text. Blanks in front shift every
piece, so that little of such a directive is understood.
-/

namespace NativeExtension.Cli

/-- How much is let through: nothing at 0, then errors, warnings, information, and at 4
and 5 what is of use only to those who work on the program. -/
abbrev Threshold := Nat

def thresholdOf : Level → Threshold
  | .warn => 2
  | .info => 3

def thresholdWords : List (List Char × Threshold) :=
  [("off".toList, 0), ("error".toList, 1), ("warn".toList, 2), ("info".toList, 3),
    ("debug".toList, 4), ("trace".toList, 5)]

def openThreshold : Threshold := 5

/-- The threshold that a text names, as a word in letters of either case or as a number. -/
def threshold? (text : List Char) : Option Threshold :=
  match Text.signedNumeral? text with
  | some n => if n ≤ openThreshold then some n else none
  | none => thresholdWords.lookup (Text.lowerAscii text)

structure Directive where
  /-- What the name of a part has to start with. -/
  target : String := ""
  /-- The detail that a report has to have, if one is asked for. -/
  detail : Option String := none
  /-- Does it speak of spans, and so of no report? -/
  ofSpans : Bool := false
  threshold : Threshold := openThreshold
deriving DecidableEq, Repr

/-- The names of what can be told of a report: its message and its details. -/
def detailNames (report : Report) : List String := "message" :: report.details.map (·.1)

namespace Directive

def selects (directive : Directive) (report : Report) : Bool :=
  !directive.ofSpans &&
    directive.target.toList.isPrefixOf report.reporter.name.toList &&
    directive.detail.all (detailNames report).contains

/-- Does the second detail ask for no less than the first? A detail asks for more than
none, and of two the later in the order of bytes counts as the sharper. -/
def detailLe : Option String → Option String → Bool
  | none, _ => true
  | some _, none => false
  | some a, some b => bytesLe (utf8 a) (utf8 b)

/-- Is the second directive at least as sharp as the first, both speaking of one report? -/
def le (a b : Directive) : Bool :=
  a.target.length < b.target.length ||
    (a.target.length == b.target.length && detailLe a.detail b.detail)

/-! ### Reading -/

/-- A place in a directive, in two views of it that go on by the same number of bytes. -/
structure Cursor where
  /-- What is left of the text without the blanks around it. -/
  seen : Bytes
  /-- What is left of the text as it is written. -/
  written : Bytes
deriving DecidableEq, Repr

namespace Cursor

def ofText (text : List Char) : Cursor :=
  ⟨utf8 (String.ofList (Text.trim text)), utf8 (String.ofList text)⟩

/-- The place so many bytes further on. -/
def drop (cursor : Cursor) (count : Nat) : Cursor :=
  ⟨cursor.seen.drop count, cursor.written.drop count⟩

def sign? (cursor : Cursor) : Option Char := cursor.seen.head?.map fun b => Char.ofNat b.toNat

/-- The piece in front of the first of some signs, or of the end, and the place there. -/
def cut (cursor : Cursor) (signs : List Char) : Bytes × Cursor :=
  let length := (cursor.seen.takeWhile fun b => !signs.contains (Char.ofNat b.toNat)).length
  (cursor.written.take length, cursor.drop length)

end Cursor

/-- May a directive start with the character, when it does not start with a span? -/
def isFirst (c : Char) : Bool := Text.isAlphanumeric c || "-:_".contains c

/-- The directive with the threshold that a text names, at the end of the directive; no
text means everything. -/
def withThreshold? (directive : Directive) (text : Bytes) : Option Directive :=
  if text = [] then some directive
  else
    (text? text).bind fun word =>
      (threshold? word.toList).map fun t => { directive with threshold := t }

/-- What a word alone says: a threshold for all parts, or a target that is opened. -/
def ofWord (word : String) : Directive :=
  match threshold? word.toList with
  | some t => { threshold := t }
  | none => { target := word }

/-- Reads the end of a directive, where nothing stands or a threshold behind its sign. -/
def ofEnd? (directive : Directive) (cursor : Cursor) : Option Directive :=
  match cursor.sign? with
  | none => some directive
  | some c => if c = '=' then directive.withThreshold? (cursor.drop 1).written else none

def isDigits (text : List Char) : Bool := text ≠ [] && text.all Char.isDigit

def dropSign : List Char → List Char
  | '+' :: rest => rest
  | '-' :: rest => rest
  | text => text

/-- Is the text the end of a decimal number: nothing, or an exponent? -/
def isExponent : List Char → Bool
  | [] => true
  | c :: rest => (c = 'e' || c = 'E') && isDigits (dropSign rest)

/-- Does the text write a decimal number, with a digit before the point or behind it? -/
def isDecimal (text : List Char) : Bool :=
  let whole := text.takeWhile Char.isDigit
  match text.dropWhile Char.isDigit with
  | '.' :: rest =>
    isDigits (whole ++ rest.takeWhile Char.isDigit) && isExponent (rest.dropWhile Char.isDigit)
  | rest => isDigits whole && isExponent rest

def numberWords : List (List Char) := ["inf", "infinity", "nan"].map String.toList

def isNumeral (text : List Char) : Bool :=
  isDecimal (dropSign text) || numberWords.contains (Text.lowerAscii (dropSign text))

/-- The directive that asks for a detail, as it is named in braces. The detail's value may
follow, which is a number or a pattern. -/
def withDetail? (directive : Directive) (text : Bytes) : Option Directive :=
  (text? text).bind fun text =>
    match Text.fields '=' text.toList with
    | [] | [[]] => none
    | [name] => some { directive with detail := some (String.ofList name) }
    | _ :: value :: _ =>
      if isNumeral value || Pattern.isPattern value then some { directive with ofSpans := true }
      else none

/-- Reads what stands in brackets and the end of the directive. -/
def ofSpan? (directive : Directive) (cursor : Cursor) : Option Directive := do
  let (name, cursor) := cursor.cut [']', '\x7b']
  let sign ← cursor.sign?
  if sign = ']' then
    ofEnd? { directive with ofSpans := true } (cursor.drop 1)
  else
    -- no name in front of the braces: reports with the detail may be meant
    let (text, behind) := (cursor.drop 1).cut ['\x7d']
    let directive ← withDetail? { directive with ofSpans := name ≠ [] } text
    if behind.seen.take 2 = utf8 "\x7d]" then directive.ofEnd? (behind.drop 2) else none

def read? (text : List Char) : Option Directive := do
  let first ← (Text.trim text).head?
  let start := Cursor.ofText text
  if first = '[' then ({} : Directive).ofSpan? (start.drop 1)
  else if isFirst first then
    let (target, cursor) := start.cut ['=', '[']
    match cursor.sign? with
    -- nothing but a word, with the blanks around it
    | none => return ofWord (← text? start.written)
    | some sign =>
      let directive : Directive := { target := ← text? target }
      if sign = '=' then directive.withThreshold? (cursor.drop 1).written
      else directive.ofSpan? (cursor.drop 1)
  else none

end Directive

end NativeExtension.Cli
