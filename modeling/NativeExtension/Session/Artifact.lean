import NativeExtension.Headers
import NativeExtension.Session.Basic
import NativeExtension.Text.ByteOrder

/-!
# NativeExtension.Session.Artifact

**From a built library to a loaded extension.** The library of the extension `name` is
`name.suffix`, or else the first in order of the files `name.….suffix`, so that a tag
between the two is allowed. A library becomes an extension when its entry point returns
zero; only then is it registered under its name, in the place of an earlier one, whose
handle stays good.
-/

namespace NativeExtension

/-- May a file of that name be a library of the extension `name`? -/
def isArtifactName (name suffix : String) (file : Bytes) : Bool :=
  let shownFile := Utf8.decodeLossy file
  (name ++ ".").toList.isPrefixOf shownFile && ("." ++ suffix).toList.isSuffixOf shownFile

/-- The library of an extension among the names in a directory. -/
def chooseArtifact? (name suffix : String) (isFile : Bytes → Bool) (names : List Bytes) :
    Option Bytes :=
  leastBytes? (names.filter fun file => isArtifactName name suffix file && isFile file)

namespace Machine

def findArtifact (m : Machine) (name : String) (directory : Path) (suffix : String) :
    Except LoadError Path :=
  let exact := directory.joinText (name ++ "." ++ suffix)
  if m.isFile exact then .ok exact
  else
    match m.list directory with
    | .error cause => .error (.unreadable directory cause)
    | .ok names =>
      let isFile := fun file => m.isFile (directory.join ⟨file⟩)
      match chooseArtifact? name suffix isFile names with
      | some file => .ok (directory.join ⟨file⟩)
      | none => .error (.notFound name directory)

end Machine

namespace Session

def register (s : Session) (extension : Extension) : Session :=
  { s with
    extensions := s.extensions ++ [extension]
    registry := (extension.name, extension) :: s.registry.filter (·.1 ≠ extension.name) }

/-- The extension last loaded under a name. -/
def loaded? (s : Session) (name : String) : Option Extension := s.registry.lookup name

/-- Opens the library at `path` and calls its entry point. A library that is not accepted
is closed again. -/
def bindLibrary (name : String) (path : Path) : Attempt LoadError Library := do
  let s ← get
  match s.loader.openLibrary s.machine path with
  | .error words => throw (.unloadable path words)
  | .ok (library, opened) =>
    let symbol := entrySymbol name
    let rejected : Session := { s with loader := s.loader.closeAgain opened }
    match library.call? symbol with
    | none =>
      set rejected
      throw (.noEntryPoint path symbol (Loader.noSymbolWords path symbol))
    | some code =>
      if code = 0 then
        set { s with loader := opened }
        return library
      else
        set rejected
        throw (.refused name code)

/-- Loads the library of the extension `name` from a directory and registers it. -/
def loadArtifact (name : String) (directory : Path) (suffix : String) :
    Attempt LoadError Extension := do
  let path ← attempt ((← getMachine).findArtifact name directory suffix)
  let library ← bindLibrary name path
  let extension : Extension :=
    { handle := (← get).extensions.length, name := name, path := path, library := library }
  modify fun s => s.register extension
  report .info .artifact ("loaded extension " ++ name) [("path", path.display)]
  return extension

/-- What the function under `symbol` returns in the extension of a handle. A zero byte at
the end of the symbol ends it and is no part of it. -/
def call? (s : Session) (handle : Nat) (symbol : String) : Option Int := do
  let extension ← s.extensions[handle]?
  let name := if symbol.toList.getLast? = some '\x00' then symbol.toList.dropLast else symbol.toList
  extension.library.call? (String.ofList name)

end Session

end NativeExtension
