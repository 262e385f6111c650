import NativeExtension.Path.Basic
import NativeExtension.SystemError

/-!
# NativeExtension.Error

**Why an extension could not be had.** Three kinds of failure, none of which is tried
again: the request or the machine cannot build at all (`ConfigError`), the build ran
and failed (`BuildFailure`), or the library could not be bound (`LoadError`).
`Error.message` is the text of each, `Error.causes` what lay behind it.
-/

namespace NativeExtension

/-- What is wrong with an extension's name. -/
inductive NameFault where
  | empty
  | separator
  | notIdentifier
deriving DecidableEq, Repr

def NameFault.reason : NameFault → String
  | .empty => "name is empty"
  | .separator => "name contains a path separator"
  | .notIdentifier => "name must be a C identifier"

/-- The request or the machine cannot produce a build. -/
inductive ConfigError where
  /-- The build runner could not be started. -/
  | runnerMissing (runner : String) (cause : SystemError)
  /-- The build runner starts but fails even to tell its version. -/
  | runnerUnusable (runner : String) (code : Option Int)
  /-- A CUDA path is needed and there is no CUDA root. -/
  | cudaRootMissing
  | invalidName (name : String) (fault : NameFault)
  | noSources (name : String)
  /-- Two sources would write the same object file. -/
  | objectCollision (object : String) (first second : Path)
  /-- A path could not be made absolute. -/
  | unresolvable (path : Path) (cause : SystemError)
deriving DecidableEq, Repr

/-- The build ran and failed. -/
structure BuildFailure where
  name : String
  log : String
  /-- The exit code; none when a signal ended the runner. -/
  code : Option Int
deriving DecidableEq, Repr

/-- The built library could not be bound. -/
inductive LoadError where
  | notFound (name : String) (directory : Path)
  | unreadable (directory : Path) (cause : SystemError)
  /-- The loader refused the file, in its own words. -/
  | unloadable (path : Path) (words : String)
  /-- The library lacks the entry point; the loader's words say so too. -/
  | noEntryPoint (path : Path) (symbol : String) (words : String)
  /-- The entry point returned something other than zero. -/
  | refused (name : String) (code : Int)
deriving DecidableEq, Repr

/-- Any failure on the way from a request to a loaded extension. -/
inductive Error where
  | config (error : ConfigError)
  | build (failure : BuildFailure)
  | load (error : LoadError)
  | io (path : Path) (cause : SystemError)
deriving DecidableEq, Repr

/-- An exit code as it stands in a message; a process that a signal ended has none. -/
def exitCodeText : Option Int → String
  | some code => "Some(" ++ toString code ++ ")"
  | none => "None"

namespace ConfigError

def message : ConfigError → String
  | .runnerMissing runner cause =>
    "ninja is required to load extensions, but `" ++ runner ++ "` could not be run: " ++
      cause.message
  | .runnerUnusable runner code =>
    "`" ++ runner ++ " --version` exited with code " ++ exitCodeText code
  | .cudaRootMissing =>
    "CUDA_HOME environment variable is not set. Please set it to your CUDA install root."
  | .invalidName name fault =>
    "invalid extension name `" ++ name ++ "`: " ++ fault.reason
  | .noSources name => "no sources given for extension `" ++ name ++ "`"
  | .objectCollision object first second =>
    "object file `" ++ object ++ "` would be produced by both " ++ first.display ++
      " and " ++ second.display ++ "; rename one of the sources"
  | .unresolvable path cause =>
    "failed to resolve path " ++ path.display ++ ": " ++ cause.message

/-- What lay behind the failure, nearest first. -/
def causes : ConfigError → List String
  | .runnerMissing _ cause | .unresolvable _ cause => [cause.message]
  | _ => []

end ConfigError

namespace BuildFailure

/-- The failure in words, which are mostly the runner's own. -/
def message (failure : BuildFailure) : String :=
  "error building extension '" ++ failure.name ++ "': " ++ failure.log

end BuildFailure

namespace LoadError

def message : LoadError → String
  | .notFound name directory =>
    "no shared library for extension `" ++ name ++ "` in " ++ directory.display
  | .unreadable directory cause =>
    "failed to read workspace " ++ directory.display ++ ": " ++ cause.message
  | .unloadable path words => "failed to load " ++ path.display ++ ": " ++ words
  | .noEntryPoint path symbol _ =>
    path.display ++ " does not export `" ++ symbol ++
      "`; was it built with EXTBUILD_EXTENSION?"
  | .refused name code =>
    "extension `" ++ name ++ "` failed to initialize (returned " ++ toString code ++ ")"

def causes : LoadError → List String
  | .unreadable _ cause => [cause.message]
  | .unloadable _ words | .noEntryPoint _ _ words => [words]
  | _ => []

end LoadError

namespace Error

def message : Error → String
  | .config error => error.message
  | .build failure => failure.message
  | .load error => error.message
  | .io path cause => "io error at " ++ path.display ++ ": " ++ cause.message

def causes : Error → List String
  | .config error => error.causes
  | .build _ => []
  | .load error => error.causes
  | .io _ cause => [cause.message]

end Error

end NativeExtension
