import NativeExtension.Machine.Script

/-!
# NativeExtension.Machine.FileTree

**Files and directories.** A tree is a list of entries, each at its `Location`: the names
on the way to it, innermost first, so that the directory that holds an entry is the tail
of its location and everything below a directory has its location at the end. The root
is there always. A file keeps its identity when it is written again and gets a new one
when another file is put in its place.

* `get?` — what is at a location; the view through which the tree is read.
* `set`, `removeBelow`, `clear` — the ways a tree changes.
-/

namespace NativeExtension

/-- The names on the way from the root to an entry, innermost first. -/
abbrev Location := List Bytes

/-- What a shared library exports: functions without arguments, by what they return. -/
structure Library where
  /-- The exported symbols, each with what it returns. -/
  exports : List (String × Int)
deriving DecidableEq, Repr, Inhabited

namespace Library

def call? (library : Library) (symbol : String) : Option Int :=
  library.exports.lookup symbol

end Library

inductive Content where
  /-- Bytes that are neither a program nor a library. -/
  | data (bytes : Bytes)
  | program (script : Script)
  /-- Bytes that stand where a program stood: they may be run, but are none. -/
  | formerProgram (bytes : Bytes)
  | library (library : Library)
deriving DecidableEq, Repr

namespace Content

/-- The bytes of a file that is neither a program nor a library. -/
def bytes? : Content → Option Bytes
  | .data bytes => some bytes
  | .formerProgram bytes => some bytes
  | .program _ => none
  | .library _ => none

/-- What a file holds once `bytes` are written over it; whether it may be run stays. -/
def overwritten (content : Content) (bytes : Bytes) : Content :=
  match content with
  | .program _ => .formerProgram bytes
  | .formerProgram _ => .formerProgram bytes
  | .data _ => .data bytes
  | .library _ => .data bytes

@[simp] theorem bytes?_overwritten (content : Content) (bytes : Bytes) :
    (content.overwritten bytes).bytes? = some bytes := by
  cases content <;> rfl

end Content

/-- What may be at a location. -/
inductive Entry where
  /-- A directory; in a fixed one nothing can be created. -/
  | directory (fixed : Bool)
  | file (id : Nat) (content : Content)
  | device
deriving DecidableEq, Repr

namespace Entry

def isDirectory : Entry → Bool
  | .directory _ => true
  | _ => false

def isFile : Entry → Bool
  | .file _ _ => true
  | _ => false

end Entry

/-- Where the device lies that swallows what is written to it. No other device is at work. -/
def nullDevice : Location := [utf8 "null", utf8 "dev"]

structure FileTree where
  /-- Every entry but the root, oldest first. -/
  entries : List (Location × Entry)
  /-- The identity that the next new file gets. -/
  nextId : Nat
deriving DecidableEq, Repr, Inhabited

namespace FileTree

def empty : FileTree := ⟨[], 0⟩

def get? (tree : FileTree) : Location → Option Entry
  | [] => some (.directory false)
  | name :: directory => tree.entries.lookup (name :: directory)

/-- The names in a directory, oldest first. -/
def names (tree : FileTree) (directory : Location) : List Bytes :=
  tree.entries.filterMap fun (location, _) =>
    match location with
    | name :: parent => if parent = directory then some name else none
    | [] => none

def set (tree : FileTree) (location : Location) (entry : Entry) : FileTree :=
  { tree with
    entries := tree.entries.filter (fun e => e.1 ≠ location) ++ [(location, entry)] }

def addFile (tree : FileTree) (location : Location) (content : Content) : FileTree :=
  { (tree.set location (.file tree.nextId content)) with nextId := tree.nextId + 1 }

def removeBelow (tree : FileTree) (location : Location) : FileTree :=
  { tree with
    entries := tree.entries.filter fun e => !location.isSuffixOf e.1 }

def clear (tree : FileTree) (location : Location) : FileTree :=
  { tree with
    entries := tree.entries.filter fun e => e.1 = location || !location.isSuffixOf e.1 }

/-- Everything below a directory, each entry with the names that lead to it from there,
outermost first. -/
def below (tree : FileTree) (directory : Location) : List (List Bytes × Entry) :=
  tree.entries.filterMap fun (location, entry) =>
    if directory.isSuffixOf location ∧ location ≠ directory then
      some ((location.take (location.length - directory.length)).reverse, entry)
    else none

/-! ### The view after a change -/

@[simp] theorem get?_root (tree : FileTree) : tree.get? [] = some (.directory false) := rfl

private theorem lookup_filter_of_keeps (keeps : Location → Bool) {location : Location}
    (h : keeps location = true) (entries : List (Location × Entry)) :
    (entries.filter fun e => keeps e.1).lookup location = entries.lookup location := by
  induction entries with
  | nil => rfl
  | cons e rest ih =>
    obtain ⟨other, entry⟩ := e
    by_cases same : location = other
    · subst same
      simp [h]
    · have differs : (location == other) = false := beq_false_of_ne same
      by_cases kept : keeps other = true
      · simp [kept, List.lookup_cons, differs, ih]
      · simp [kept, List.lookup_cons, differs, ih]

private theorem lookup_filter_of_drops (keeps : Location → Bool) {location : Location}
    (h : keeps location = false) (entries : List (Location × Entry)) :
    (entries.filter fun e => keeps e.1).lookup location = none := by
  rw [List.lookup_eq_none_iff]
  intro e he
  have kept := (List.mem_filter.mp he).2
  refine bne_iff_ne.mpr fun same => ?_
  rw [← same, h] at kept
  exact absurd kept (by decide)

theorem get?_set_self (tree : FileTree) {location : Location} (h : location ≠ [])
    (entry : Entry) : (tree.set location entry).get? location = some entry := by
  cases location with
  | nil => exact absurd rfl h
  | cons name directory =>
    have gone := lookup_filter_of_drops (fun l => decide (l ≠ name :: directory))
      (show decide (name :: directory ≠ name :: directory) = false by simp) tree.entries
    rw [get?, set, List.lookup_append, gone]
    simp

theorem get?_set_of_ne (tree : FileTree) {location other : Location}
    (h : other ≠ location) (entry : Entry) :
    (tree.set location entry).get? other = tree.get? other := by
  cases other with
  | nil => rfl
  | cons name directory =>
    have kept := lookup_filter_of_keeps (fun l => decide (l ≠ location))
      (show decide (name :: directory ≠ location) = true by simpa using h) tree.entries
    rw [get?, set, List.lookup_append, kept]
    simp [get?, List.lookup_cons, beq_false_of_ne h]

/-- A file that was added is there, under a new identity. -/
theorem get?_addFile_self (tree : FileTree) {location : Location} (h : location ≠ [])
    (content : Content) :
    (tree.addFile location content).get? location = some (.file tree.nextId content) :=
  get?_set_self tree h _

theorem get?_addFile_of_ne (tree : FileTree) {location other : Location}
    (h : other ≠ location) (content : Content) :
    (tree.addFile location content).get? other = tree.get? other :=
  get?_set_of_ne tree h _

end FileTree

/-! ### Places -/

/-- A place to be: a location, or a removed directory that many levels below it. -/
structure Place where
  /-- The location; of a removed directory, the innermost one above that is left. -/
  location : Location
  removed : Nat := 0
deriving DecidableEq, Repr, Inhabited

namespace Place

/-- Does the place lie in a directory that has been removed? -/
def isRemoved (place : Place) : Bool := place.removed ≠ 0

/-- One level up; the root is above itself. -/
def above (place : Place) : Place :=
  if place.isRemoved then { place with removed := place.removed - 1 }
  else ⟨place.location.tail, 0⟩

/-- The same place after all below `location` was removed, though not `location` itself. -/
def withoutBelow (place : Place) (location : Location) : Place :=
  if location.isSuffixOf place.location then
    ⟨location, place.removed + (place.location.length - location.length)⟩
  else place

end Place

end NativeExtension
