import NativeExtension.Machine.Files

/-!
# NativeExtension.Machine.Loader

**The system's loader of shared libraries.** It remembers every library that is still
open under the names it was opened by. A name that it knows gives the library it knows,
whatever has become of the file since; otherwise the file is looked up
(`Machine.libraryFile?`), and a file that is open already under another name is not mapped
a second time. A name without a slash is looked for in the directories of the system's
libraries, and in the current one only if it is among them.
-/

namespace NativeExtension

structure OpenLibrary where
  /-- The names it has been opened by. -/
  names : List Path
  /-- The identity of the file it was mapped from. -/
  file : Nat
  library : Library
deriving DecidableEq, Repr

/-- The libraries that are open. -/
abbrev Loader := List OpenLibrary

namespace Machine

/-- The file at a path: the path, the identity of the file and what it holds. -/
def fileAt? (m : Machine) (p : Path) : Option (Path × Nat × Content) :=
  match m.find p with
  | .ok (_, .file id content) => some (p, id, content)
  | _ => none

/-- The file that the loader opens: the one at the path, or for a name without a slash the first of
that name in the directories of the system's libraries. -/
def libraryFile? (m : Machine) (p : Path) : Option (Path × Nat × Content) :=
  if p.bytes.contains slash then m.fileAt? p
  else m.libraryDirs.findSome? fun directory => m.fileAt? (directory.join p)

end Machine

namespace Loader

/-- The smallest size of a file that could be a library. -/
def smallestLibrary : Nat := 64

def missingWords (p : Path) : String :=
  p.display ++ ": cannot open shared object file: No such file or directory"

def notLibraryWords (p : Path) (content : Content) : String :=
  match content.bytes? with
  | some bytes =>
    if bytes.length < smallestLibrary then p.display ++ ": file too short"
    else p.display ++ ": invalid ELF header"
  | none => p.display ++ ": invalid ELF header"

def noSymbolWords (p : Path) (symbol : String) : String :=
  p.display ++ ": undefined symbol: " ++ symbol

/-- The loader with one more name for the library of a file. -/
def addName (loader : Loader) (file : Nat) (p : Path) : Loader :=
  loader.map fun entry =>
    if entry.file = file then { entry with names := entry.names ++ [p] } else entry

/-- Opens the library that a path or a bare name stands for: what it holds, and the loader
afterwards. A refusal comes in the loader's own words. -/
def openLibrary (loader : Loader) (m : Machine) (p : Path) :
    Except String (Library × Loader) :=
  match loader.find? (·.names.contains p) with
  | some known => .ok (known.library, loader)
  | none =>
    match m.libraryFile? p with
    | none => .error (missingWords p)
    | some (q, id, content) =>
      match loader.find? (·.file = id) with
      | some known => .ok (known.library, loader.addName id p)
      | none =>
        match content with
        | .library library =>
          .ok (library, loader ++ [{ names := [p], file := id, library := library }])
        | _ => .error (notLibraryWords q content)

/-- The loader after a library was closed by one who has just opened it: a library that
was not open before is gone, and one that was stays, under its new name too. -/
def closeAgain (before after : Loader) : Loader := after.take before.length

end Loader

end NativeExtension
