import NativeExtension.Headers
import NativeExtension.Ninja.Description
import NativeExtension.Session.Artifact
import NativeExtension.Session.CompilerCheck
import NativeExtension.Session.Detection
import NativeExtension.Session.Runner

/-!
# NativeExtension.Session.Build

**The way from a request to a loaded extension.** In order:

1. the runner is checked;
2. the request is checked, and its workspace found or made;
3. the C++ compiler is checked, once, for advice;
4. the bundled header is put in place, unless it is there already;
5. the build description is written, always;
6. the runner builds, and decides by itself what is stale;
7. the library is loaded.

Steps 1 to 5 are `prepare`: after it all files are as the runner needs them.
-/

namespace NativeExtension

/-- What a build gave. -/
structure BuildOutput where
  spec : BuildSpec
  workspace : Path
  buildFile : Path
  /-- All that the runner printed. -/
  log : String
deriving DecidableEq, Repr

namespace Session

/-- A call on the files of the machine, whose refusal is a failure at `path`. -/
def onFiles (path : Path) (call : Machine → Except SystemError Unit × Machine) :
    Attempt Error Unit := do
  let (result, after) := call (← getMachine)
  setMachine after
  match result with
  | .ok () => return ()
  | .error cause => throw (.io path cause)

/-- A write to a file; the machine stays as it is if the write is refused. -/
def writeFile (path : Path) (bytes : Bytes) : Attempt Error Unit :=
  onFiles path fun m =>
    match m.write path bytes with
    | .ok after => (.ok (), after)
    | .error cause => (.error cause, m)

def makeDirectories (path : Path) : Attempt Error Unit :=
  onFiles path (·.createDirAll path)

/-- The workspace of an extension. One that the caller names is taken as it is; one that
goes by the extension's name is made if it is missing. -/
def resolveWorkspace (name : String) (explicit : Option Path) : Attempt Error Path := do
  match explicit with
  | some directory => return directory
  | none =>
    let workspace := workspaceOf (← getMachine).extensionsRoot name
    makeDirectories workspace
    return workspace

/-- Puts the bundled header below an include directory, and tells whether it had to be
written. A header that is there already is left alone, because its time of change would
make the runner compile everything anew. -/
def installHeader (directory : Path) : Attempt Error Bool := do
  let path := directory.joinText extensionHeaderPath
  if (← getMachine).read? path = some (utf8 extensionHeader) then return false
  match path.parent? with
  | some parent => makeDirectories parent
  | none => pure ()
  writeFile path (utf8 extensionHeader)
  return true

/-- Puts the bundled header below each of some include directories. -/
def installHeaders : List Path → Attempt Error Unit
  | [] => pure ()
  | directory :: rest => do
    let _ ← installHeader directory
    installHeaders rest

def writeDescription (path : Path) (spec : BuildSpec) (toolchain : Toolchain) :
    Attempt Error Unit := do
  let text ← attempt ((Ninja.render spec toolchain).mapError Error.config)
  writeFile path (utf8 text)

/-- Reports a step of the pipeline to a caller who wants to hear of it. -/
def step (verbose : Bool) (message : String) : Action Unit :=
  if verbose then report .info .pipeline message [] else pure ()

def deviceMessage (device all : Nat) : String :=
  "Detected " ++ toString device ++ " CUDA file(s) among " ++ toString all ++
    " sources, linking against cudart"

def checkRequest (options : LoadOptions) : Attempt Error BuildSpec := do
  let m ← getMachine
  attempt ((BuildSpec.ofOptions m.currentDir options).mapError Error.config)

/-- All that comes before the runner is started: the checked request and the workspace,
in which the build description stands ready. -/
def prepare (options : LoadOptions) (toolchain : Toolchain) (runner : Runner) :
    Attempt Error (BuildSpec × Path) := do
  raising Error.config (checkRunner runner)
  let spec ← checkRequest options
  let workspace ← resolveWorkspace spec.name options.buildDirectory
  step options.verbose
    ("Using " ++ workspace.display ++ " as build directory for " ++ spec.name)
  let parts := Sources.classify spec.sources
  if parts.anyDevice then
    step options.verbose (deviceMessage parts.device.length spec.sources.length)
  let _ ← compilerCompatible toolchain.cxx
  installHeaders toolchain.bundledIncludes
  step options.verbose ("Emitting ninja build file " ++ (buildFile workspace).display)
  writeDescription (buildFile workspace) spec toolchain
  return (spec, workspace)

/-- Builds an extension with a given toolchain and runner. -/
def buildWith (options : LoadOptions) (toolchain : Toolchain) (runner : Runner) :
    Attempt Error BuildOutput := do
  let (spec, workspace) ← prepare options toolchain runner
  step options.verbose ("Building extension module " ++ spec.name)
  let log ← runBuild runner spec.name workspace
  return { spec := spec, workspace := workspace, buildFile := buildFile workspace, log := log }

def build (options : LoadOptions) : Attempt Error BuildOutput := do
  let toolchain ← detectToolchain
  buildWith options toolchain (← getMachine).runner

def loadWith (options : LoadOptions) (toolchain : Toolchain) (runner : Runner) :
    Attempt Error Extension := do
  let output ← buildWith options toolchain runner
  step options.verbose ("Loading extension module " ++ output.spec.name)
  raising Error.load
    (loadArtifact output.spec.name output.workspace toolchain.os.librarySuffix)

def load (options : LoadOptions) : Attempt Error Extension := do
  let toolchain ← detectToolchain
  loadWith options toolchain (← getMachine).runner

end Session

end NativeExtension
