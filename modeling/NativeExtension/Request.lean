import NativeExtension.Error
import NativeExtension.Path.Absolute
import NativeExtension.Source

/-!
# NativeExtension.Request

**What a caller asks for, and what a build works on.** `LoadOptions` is the request as
it comes in; `BuildSpec` is what is left of it once the name has been checked and every
path has been made absolute. The name ends up as a directory, a file stem, a macro
value and part of a symbol, so only a C identifier is let through.
-/

namespace NativeExtension

/-- A request to build, and perhaps load, one extension. -/
structure LoadOptions where
  /-- The extension's name, which its sources repeat at the entry point. -/
  name : String := ""
  sources : List Path := []
  hostFlags : List String := []
  deviceFlags : List String := []
  linkFlags : List String := []
  /-- Further include directories, searched first. -/
  includes : List Path := []
  /-- Build here and not in the workspace that goes by the name. -/
  buildDirectory : Option Path := none
  verbose : Bool := false
deriving DecidableEq, Repr, Inhabited

/-- A checked request, every path absolute. -/
structure BuildSpec where
  name : String
  sources : List Path
  hostFlags : List String
  deviceFlags : List String
  linkFlags : List String
  includes : List Path
deriving DecidableEq, Repr, Inhabited

def isIdentifierStart (c : Char) : Bool := c.isAlpha || c = '_'

def isIdentifierPart (c : Char) : Bool := c.isAlphanum || c = '_'

/-- What is wrong with `name`, if anything. -/
def nameFault? (name : String) : Option NameFault :=
  match name.toList with
  | [] => some .empty
  | first :: rest =>
    if (first :: rest).any fun c => c = '/' || c = '\\' then some .separator
    else if isIdentifierStart first && rest.all isIdentifierPart then none
    else some .notIdentifier

/-- Accepts the C identifiers. -/
def validateName (name : String) : Except ConfigError Unit :=
  match nameFault? name with
  | none => .ok ()
  | some fault => .error (.invalidName name fault)

def resolvePath (cwd : Except SystemError Path) (p : Path) : Except ConfigError Path :=
  match p.absolute cwd with
  | .ok resolved => .ok resolved
  | .error cause => .error (.unresolvable p cause)

namespace BuildSpec

/-- Checks a request and makes its paths absolute against `cwd`. The first failing check
decides: the name, whether there are sources, each source, each include directory. -/
def ofOptions (cwd : Except SystemError Path) (options : LoadOptions) :
    Except ConfigError BuildSpec := do
  validateName options.name
  if options.sources.isEmpty then throw (.noSources options.name)
  let sources ← options.sources.mapM (resolvePath cwd)
  let includes ← options.includes.mapM (resolvePath cwd)
  return {
    name := options.name
    sources := sources
    hostFlags := options.hostFlags
    deviceFlags := options.deviceFlags
    linkFlags := options.linkFlags
    includes := includes }

/-- Does any source go through the CUDA compiler? -/
def hasDevice (spec : BuildSpec) : Bool := spec.sources.any Path.isDeviceSource

end BuildSpec

end NativeExtension
