import NativeExtension.Text.Utf8
import NativeExtension.Text.Fields

/-!
# NativeExtension.Path.Basic

**File names as they are written, and the components they stand for.** A `Path` keeps
its spelling byte for byte, because that spelling is what is printed and handed on.
What two spellings have in common is their list of `components`: repeated slashes, a
trailing slash and inner `.` pieces do not count, a leading `.` and every `..` do.

* `p.Equiv q` — the same components; this is how paths are compared.
* `p.join q`, `p.parent?`, `p.fileName?`, `p.stem?`, `p.extension?` — taking paths
  apart and putting them together, on the spelling.
-/

namespace NativeExtension

def slash : UInt8 := 0x2F

def dot : UInt8 := 0x2E

/-- A file name as it is written. -/
structure Path where
  bytes : Bytes
deriving DecidableEq, Repr, Inhabited

/-- One step of a path. -/
inductive Component where
  /-- The top of the tree, for a path that starts with a slash. -/
  | root
  /-- A `.` at the start of a relative path. -/
  | current
  | parent
  | name (bytes : Bytes)
deriving DecidableEq, Repr

/-- What a piece between two slashes stands for; an empty piece and `.` for nothing. -/
def Component.ofPiece? (piece : Bytes) : Option Component :=
  if piece = [] ∨ piece = [dot] then none
  else if piece = [dot, dot] then some .parent
  else some (.name piece)

/-- The bytes that write a component down. -/
def Component.bytes : Component → Bytes
  | .root => [slash]
  | .current => [dot]
  | .parent => [dot, dot]
  | .name bytes => bytes

namespace Path

def ofText (text : String) : Path := ⟨utf8 text⟩

/-- The spelling as text for a person to read; ill-formed bytes become U+FFFD. -/
def display (p : Path) : String := shown p.bytes

def isEmpty (p : Path) : Bool := p.bytes.isEmpty

/-- Does the path start at the top of the tree? -/
def isAbsolute (p : Path) : Bool := p.bytes.head? = some slash

def pieces (p : Path) : List Bytes := Text.fields slash p.bytes

/-- The leading part of a spelling that is no name (`/`, a leading `.`, or nothing) and
the spelling behind it. -/
def splitHead : Bytes → Bytes × Bytes
  | [] => ([], [])
  | b :: rest =>
    if b = slash then ([slash], rest)
    else if b = dot ∧ (rest = [] ∨ rest.head? = some slash) then ([dot], rest)
    else ([], b :: rest)

/-- The component that the leading part of a spelling stands for. -/
def headComponents (head : Bytes) : List Component :=
  if head = [slash] then [.root] else if head = [dot] then [.current] else []

def components (p : Path) : List Component :=
  let (head, body) := splitHead p.bytes
  headComponents head ++ (Text.fields slash body).filterMap Component.ofPiece?

/-- Paths are compared step by step, so `/a//b` and `/a/b/` are one path. -/
def Equiv (p q : Path) : Prop := p.components = q.components

instance (p q : Path) : Decidable (p.Equiv q) :=
  inferInstanceAs (Decidable (p.components = q.components))

/-- `q` as seen from `p`: an absolute `q` replaces `p`, any other is written behind it
with exactly one slash between. Joining the empty path adds a slash at the end. -/
def join (p q : Path) : Path :=
  if q.isAbsolute then q
  else if p.bytes = [] ∨ p.bytes.getLast? = some slash then ⟨p.bytes ++ q.bytes⟩
  else ⟨p.bytes ++ slash :: q.bytes⟩

def joinText (p : Path) (name : String) : Path := p.join (ofText name)

/-- Pieces that stand for nothing, dropped from the end. -/
def trimPieces (pieces : List Bytes) : List Bytes :=
  (pieces.reverse.dropWhile fun piece => (Component.ofPiece? piece).isNone).reverse

/-- The path without its last step; a bare root and the empty path have none. -/
def parent? (p : Path) : Option Path :=
  let (head, body) := splitHead p.bytes
  match (trimPieces (Text.fields slash body)).reverse with
  | [] => if head = [dot] then some ⟨[]⟩ else none
  | _ :: earlier =>
    some ⟨head ++ List.intercalate [slash] (trimPieces earlier.reverse)⟩

/-- The last step, if it is a name. -/
def fileName? (p : Path) : Option Bytes :=
  match p.components.getLast? with
  | some (.name bytes) => some bytes
  | _ => none

/-- A file name cut at its last dot. A name without a dot, or with none but a leading
one, is all stem. -/
def splitExtension (name : Bytes) : Bytes × Option Bytes :=
  match (Text.fields dot name).reverse with
  | extension :: before :: earlier =>
    let stem := List.intercalate [dot] (before :: earlier).reverse
    if stem = [] then (name, none) else (stem, some extension)
  | _ => (name, none)

def stem? (p : Path) : Option Bytes :=
  p.fileName?.map fun name => (splitExtension name).1

/-- What follows the last dot of the file name. -/
def extension? (p : Path) : Option Bytes :=
  p.fileName?.bind fun name => (splitExtension name).2

@[simp] theorem equiv_refl (p : Path) : p.Equiv p := rfl

theorem Equiv.symm {p q : Path} (h : p.Equiv q) : q.Equiv p := Eq.symm h

theorem Equiv.trans {p q r : Path} (h : p.Equiv q) (h' : q.Equiv r) : p.Equiv r :=
  Eq.trans h h'

end Path

end NativeExtension
