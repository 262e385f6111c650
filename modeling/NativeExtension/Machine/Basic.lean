import NativeExtension.Machine.Program
import NativeExtension.Path.Absolute

/-!
# NativeExtension.Machine.Basic

**A machine: its files, the current directory and the environment.** A path is followed
piece by piece from the root or from the current directory (`follow`): an empty piece
and `.` stay, `..` goes up, a name goes down, and each of them needs a directory to
stand in. Where a path leads depends on its spelling only as far as the directories on its
way have to be there.

A directory that is removed while somebody is in it does not vanish for them: they are
still in a directory, which is empty and in which nothing can be created, and `..` leads
them out of it, up to what is left. A `Place` counts how far up that is.

* `locate` — the place that a path leads to, if something is there;
* `target` — the directory and the name that a path leads to, there or not, which is
  where something can be created.

### What is left out

* Links, owners, permission bits and times. An entry is a directory, a file or a device, and that
  alone says what can be done with it; nothing can be created in a `fixed` directory.
* All devices but the null device. Another one gives nothing and takes nothing.
* Space, memory and descriptors that run out, and calls that are interrupted.
* Others at work during a call or a run. They change the machine between two operations.
* Programs that remove something, or that make programs or libraries. A program does `Deed`s: it
  makes directories, writes bytes and records that it was called.
* What a library does besides returning numbers, and the libraries that a process has open before
  its first load.
-/

namespace NativeExtension

/-- A machine, as far as building an extension can see or change it. -/
structure Machine where
  files : FileTree
  cwd : Place
  env : List (String × Bytes)
  /-- Where the system looks for a library that is asked for by its name alone. -/
  libraryDirs : List Path := []
  behavior : Behavior := Script.perform

instance : Inhabited Machine := ⟨{ files := default, cwd := default, env := [] }⟩

namespace Machine

/-- The longest name that the system takes in a directory. -/
def longestName : Nat := 255

/-- The system takes only paths that are shorter than this. -/
def pathLimit : Nat := 4096

/-! ### Environment -/

def var? (m : Machine) (name : String) : Option Bytes := m.env.lookup name

/-- The value of a variable that is not empty. -/
def setVar? (m : Machine) (name : String) : Option Bytes :=
  (m.var? name).filter (· ≠ [])

/-- The machine with a variable set, or unset. -/
def withVar (m : Machine) (name : String) (value : Option Bytes) : Machine :=
  let others := m.env.filter (·.1 ≠ name)
  { m with env := value.elim others fun bytes => (name, bytes) :: others }

/-! ### Following paths -/

/-- What is at a place. A removed directory is still one to those who are in it. -/
def entryAt? (m : Machine) (place : Place) : Option Entry :=
  if place.isRemoved then some (.directory true) else m.files.get? place.location

/-- Where a piece of a path leads from a place. -/
def stepFrom (m : Machine) (here : Place) (piece : Bytes) : Except SystemError Place :=
  match m.entryAt? here with
  | some (.directory _) =>
    if piece = [] ∨ piece = [dot] then .ok here
    else if piece = [dot, dot] then .ok here.above
    else if here.isRemoved then .error .missing
    else if longestName < piece.length then .error .nameTooLong
    else if (m.files.get? (piece :: here.location)).isSome then
      .ok ⟨piece :: here.location, 0⟩
    else .error .missing
  | some _ => .error .notDirectory
  | none => .error .missing

/-- Where the pieces of a path lead from a place. -/
def follow (m : Machine) (here : Place) : List Bytes → Except SystemError Place
  | [] => .ok here
  | piece :: rest => do m.follow (← m.stepFrom here piece) rest

/-- Refuses what the system does not take for a path at all. -/
def checkPath (p : Path) : Except SystemError Unit :=
  if p.bytes.contains 0 then .error .zeroInFileName
  else if p.isEmpty then .error .missing
  else if pathLimit ≤ p.bytes.length then .error .nameTooLong
  else .ok ()

/-- Where following a path starts. -/
def startOf (m : Machine) (p : Path) : Place := if p.isAbsolute then ⟨[], 0⟩ else m.cwd

/-- The place that a path leads to, if something is there. -/
def locate (m : Machine) (p : Path) : Except SystemError Place := do
  checkPath p
  m.follow (m.startOf p) p.pieces

def find (m : Machine) (p : Path) : Except SystemError (Place × Entry) := do
  let place ← m.locate p
  match m.entryAt? place with
  | some entry => return (place, entry)
  | none => throw .missing

def pathExists (m : Machine) (p : Path) : Bool :=
  match m.find p with
  | .ok _ => true
  | .error _ => false

def isDirectory (m : Machine) (p : Path) : Bool :=
  match m.find p with
  | .ok (_, entry) => entry.isDirectory
  | .error _ => false

def isFile (m : Machine) (p : Path) : Bool :=
  match m.find p with
  | .ok (_, entry) => entry.isFile
  | .error _ => false

/-- The directory in which a path ends and the last piece of the path. -/
structure Target where
  directory : Location
  removed : Bool
  /-- Is it one in which nothing can be created? -/
  fixed : Bool
  /-- The last piece; empty if the path is nothing but slashes. -/
  piece : Bytes
  /-- Is a slash written behind the last piece? -/
  trailingSlash : Bool
deriving DecidableEq, Repr

namespace Target

/-- Is the last piece a name, and not `.`, `..` or nothing? -/
def isName (target : Target) : Bool :=
  target.piece ≠ [] && target.piece ≠ [dot] && target.piece ≠ [dot, dot]

def location (target : Target) : Location := target.piece :: target.directory

/-- Refuses a name that cannot be looked for in the directory. -/
def checkName (target : Target) : Except SystemError Unit :=
  if target.removed then .error .missing
  else if longestName < target.piece.length then .error .nameTooLong
  else .ok ()

end Target

/-- Empty pieces, dropped from the end. -/
def dropTrailing (pieces : List Bytes) : List Bytes :=
  (pieces.reverse.dropWhile (· = [])).reverse

/-- The directory and the last piece that a path leads to. -/
def target (m : Machine) (p : Path) : Except SystemError Target := do
  checkPath p
  let kept := dropTrailing p.pieces
  let directory ← m.follow (m.startOf p) kept.dropLast
  match m.entryAt? directory with
  | some (.directory fixed) =>
    return {
      directory := directory.location
      removed := directory.isRemoved
      fixed := fixed
      piece := kept.getLast?.getD []
      trailingSlash := p.bytes.getLast? = some slash }
  | some _ => throw .notDirectory
  | none => throw .missing

/-- The path of the current directory, which has none once it has been removed. -/
def currentDir (m : Machine) : Except SystemError Path :=
  if m.cwd.isRemoved then .error .missing
  else
    match m.cwd.location with
    | [] => .ok ⟨[slash]⟩
    | location => .ok ⟨location.reverse.flatMap (slash :: ·)⟩

def absolute (m : Machine) (p : Path) : Except SystemError Path :=
  p.absolute m.currentDir

def changeDir (m : Machine) (p : Path) : Except SystemError Machine := do
  let (place, entry) ← m.find p
  if entry.isDirectory then return { m with cwd := place }
  else throw .notDirectory

end Machine

end NativeExtension
