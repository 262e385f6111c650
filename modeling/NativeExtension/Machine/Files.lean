import NativeExtension.Machine.Basic
import NativeExtension.Text.ByteOrder

/-!
# NativeExtension.Machine.Files

**Reading, writing and listing files.** Every call leaves the machine as it was when it
is refused, with one exception that `createDirAll` shares with the system: directories
made on the way to one that cannot be made stay.
-/

namespace NativeExtension.Machine

/-! ### Reading -/

/-- The bytes of a file, when they are neither a program's nor a library's. -/
def read? (m : Machine) (p : Path) : Option Bytes :=
  match m.find p with
  | .ok (_, .file _ content) => content.bytes?
  | .ok (place, .device) => if place.location = nullDevice then some [] else none
  | _ => none

/-- The names in a directory; a removed one has none. -/
def list (m : Machine) (p : Path) : Except SystemError (List Bytes) := do
  let (place, entry) ← m.find p
  if !entry.isDirectory then throw .notDirectory
  if place.isRemoved then return []
  return m.files.names place.location

/-- The name of an entry below a directory, which leads to it through `names`; a directory
has a slash at the end. -/
def nameBelow (names : List Bytes) (entry : Entry) : Bytes :=
  List.intercalate [slash] names ++ if entry.isDirectory then [slash] else []

def listBelow (m : Machine) (p : Path) : Except SystemError (List Bytes) := do
  let place ← m.locate p
  if place.isRemoved then return []
  return ((m.files.below place.location).map fun (names, entry) => nameBelow names entry).mergeSort
    bytesLe

/-! ### Writing -/

/-- The files after `bytes` were written to the end of a path. A file that is there
keeps its identity. -/
def writtenAt (m : Machine) (target : Target) (bytes : Bytes) :
    Except SystemError FileTree :=
  if !target.isName || target.trailingSlash then .error .isDirectory
  else do
    target.checkName
    match m.files.get? target.location with
    | some (.directory _) => throw .isDirectory
    | some .device => if target.location = nullDevice then return m.files else throw .noDevice
    | some (.file id content) =>
      return m.files.set target.location (.file id (content.overwritten bytes))
    | none =>
      if target.fixed then throw .missing
      return m.files.addFile target.location (.data bytes)

/-- Writes a file, which is created if it is not there. -/
def write (m : Machine) (p : Path) (bytes : Bytes) : Except SystemError Machine := do
  let files ← m.writtenAt (← m.target p) bytes
  return { m with files := files }

/-! ### Directories -/

def createDir (m : Machine) (p : Path) : Except SystemError Machine := do
  let target ← m.target p
  if !target.isName then throw .alreadyThere
  target.checkName
  if (m.files.get? target.location).isSome then throw .alreadyThere
  if target.fixed then throw .missing
  return { m with files := m.files.set target.location (.directory false) }

/-- A path, its parent, that one's parent, and so on; at most `bound` of them. -/
def ancestorsUpTo : Nat → Path → List Path
  | 0, _ => []
  | bound + 1, p =>
    match p.parent? with
    | none => [p]
    | some above => p :: ancestorsUpTo bound above

/-- A path and all its ancestors, from the innermost out. Each has fewer bytes than the
one before. -/
def ancestors (p : Path) : List Path := ancestorsUpTo (p.bytes.length + 1) p

/-- What is left of a refusal to make a directory when there already is one. -/
def forgive (m : Machine) (p : Path) (cause : SystemError) : Except SystemError Unit :=
  if m.isDirectory p then .ok () else .error cause

/-- Makes the first of the directories, after the others if they are missing. -/
def createDirs (m : Machine) : List Path → Except SystemError Unit × Machine
  | [] => (.error .missing, m)
  | p :: above =>
    if p.isEmpty then (.ok (), m)
    else
      match m.createDir p with
      | .ok made => (.ok (), made)
      | .error cause =>
        if cause = .missing then
          match m.createDirs above with
          | (.error cause, stopped) => (.error cause, stopped)
          | (.ok (), ready) =>
            match ready.createDir p with
            | .ok made => (.ok (), made)
            | .error cause => (ready.forgive p cause, ready)
        else (m.forgive p cause, m)

/-- Makes a directory and every missing one on the way to it. -/
def createDirAll (m : Machine) (p : Path) : Except SystemError Unit × Machine :=
  m.createDirs (ancestors p)

/-! ### What others do to the files -/

/-- The machine with `content` in the place of the file at the end of a path, the
directories on its way made. A directory that is there stays as it is. -/
def put (m : Machine) (p : Path) (content : Content) : Machine :=
  let ready := (m.createDirAll (p.parent?.getD ⟨[]⟩)).2
  match ready.target p with
  | .error _ => ready
  | .ok target =>
    match ready.writtenAt target [] with
    | .ok _ => { ready with files := ready.files.addFile target.location content }
    | .error _ => ready

def putDir (m : Machine) (p : Path) : Machine := (m.createDirAll p).2

/-- Does a path end in a name, so that what it leads to can itself be removed? -/
def namesEntry (m : Machine) (p : Path) : Bool :=
  match m.target p with
  | .ok target => target.isName
  | .error _ => false

/-- The machine without what is at the end of a path and all below it. A path that ends in
no name leads to a directory that stays, empty. -/
def remove (m : Machine) (p : Path) : Machine :=
  match m.locate p with
  | .error _ => m
  | .ok place =>
    if place.isRemoved then m
    else if m.namesEntry p then
      -- whoever is in it, or below it, falls back on the directory that held it
      { m with
        files := m.files.removeBelow place.location
        cwd :=
          if place.location.isSuffixOf m.cwd.location then m.cwd.withoutBelow place.location.tail
          else m.cwd }
    else
      { m with
        files := m.files.clear place.location
        cwd := m.cwd.withoutBelow place.location }

end NativeExtension.Machine
