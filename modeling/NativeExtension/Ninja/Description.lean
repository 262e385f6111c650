import NativeExtension.Arguments.Posix
import NativeExtension.Arguments.Windows
import NativeExtension.Ninja.Escape
import NativeExtension.Ninja.Statement
import NativeExtension.Request
import NativeExtension.Toolchain.Basic

/-!
# NativeExtension.Ninja.Description

**The build description of an extension.** Each source is compiled to an object file of
its own, and the objects are linked into one shared library, which is the default
target. Host sources go through the rule `compile`, which also tracks headers, CUDA
sources through `cuda_compile`; a description without CUDA sources says nothing of CUDA
at all. The description depends on the checked request and the toolchain alone, so
writing it again does not disturb what Ninja remembers.

* `objectEdges` — which object each source becomes, and the collision of two;
* `includeDirs`, `hostFlags`, `deviceFlags`, `linkFlags` — the flags;
* `statements` — the file, and `render` its text.
-/

namespace NativeExtension.Ninja

/-- The rule that a compiler's sources go through. -/
def ruleOf : Compiler → String
  | .host => "compile"
  | .device => "cuda_compile"

def linkRule : String := "link"

/-- One compilation: a source and the object it becomes. -/
structure ObjectEdge where
  object : String
  compiler : Compiler
  source : Path
deriving DecidableEq, Repr

/-- The object file of a source: its stem, or the whole path if it has no file name. -/
def objectName (source : Path) : String :=
  shown (source.stem?.getD source.bytes) ++ ".o"

def objectEdge (source : Path) : ObjectEdge where
  object := objectName source
  compiler := source.compiler
  source := source

/-- The compilations of `sources`, when those of `earlier` stand before them. -/
def objectEdgesAfter (earlier : List ObjectEdge) :
    List Path → Except ConfigError (List ObjectEdge)
  | [] => .ok earlier
  | source :: rest =>
    match earlier.find? (·.object = objectName source) with
    | some first => .error (.objectCollision (objectName source) first.source source)
    | none => objectEdgesAfter (earlier ++ [objectEdge source]) rest

/-- The compilation of each source, in order. Of two sources with one stem the second
would overwrite the object of the first, so it is refused. -/
def objectEdges (sources : List Path) : Except ConfigError (List ObjectEdge) :=
  objectEdgesAfter [] sources

/-- The directories that are not yet in `seen`, each where it first stands. -/
def firstSeen (seen : List Path) : List Path → List Path
  | [] => []
  | dir :: rest =>
    if seen.any (fun earlier => decide (earlier.Equiv dir)) then firstSeen seen rest
    else dir :: firstSeen (dir :: seen) rest

/-- The include directories in search order, before repetitions are dropped: the
caller's, the bundled ones, CUDA's if CUDA is used, the loading program's. -/
def includeCandidates (spec : BuildSpec) (toolchain : Toolchain) :
    Except ConfigError (List Path) := do
  let cuda ← if spec.hasDevice then (toolchain.cudaIncludeDir).map ([·]) else .ok []
  return spec.includes ++ toolchain.bundledIncludes ++ cuda ++ toolchain.runtimeIncludes

/-- The include directories in search order, each once. -/
def includeDirs (spec : BuildSpec) (toolchain : Toolchain) :
    Except ConfigError (List Path) :=
  (includeCandidates spec toolchain).map (firstSeen [])

/-- A path as an argument of the commands that Ninja runs on `os`. -/
def quotePath (os : Os) (p : Path) : String :=
  match os with
  | .windows => Windows.quote p.display
  | .linux | .macos => Posix.quote p.display

def hostFlags (spec : BuildSpec) (includes : List Path) (os : Os) : List String :=
  ["-fPIC", "-std=c++17", "-DARTIFACT_NAME=" ++ spec.name] ++
    includes.map (fun dir => "-I" ++ quotePath os dir) ++ spec.hostFlags

def deviceFlags (spec : BuildSpec) : List String :=
  "--compiler-options '-fPIC'" :: spec.deviceFlags

def linkFlags (spec : BuildSpec) (toolchain : Toolchain) :
    Except ConfigError (List String) := do
  let cuda ←
    if spec.hasDevice then
      (toolchain.cudaLibDir).map fun dir =>
        ["-L" ++ quotePath toolchain.os dir, "-lcudart"]
    else .ok []
  return "-shared" :: spec.linkFlags ++ cuda ++ toolchain.os.openSymbolFlags

/-- Flags as the value of a variable. -/
def joinFlags (flags : List String) : String :=
  escapeValue (String.intercalate " " flags)

/-- What is settled before the first line is written. -/
structure Plan where
  edges : List ObjectEdge
  cxx : String
  /-- The CUDA compiler, quoted, if CUDA is used. -/
  nvcc : Option String
  hostFlags : List String
  deviceFlags : List String
  linkFlags : List String
  library : String
deriving DecidableEq, Repr

/-- Settles what the description of `spec` says. It fails if two sources collide, and
else if CUDA is used and there is no CUDA root. -/
def plan (spec : BuildSpec) (toolchain : Toolchain) : Except ConfigError Plan := do
  let edges ← objectEdges spec.sources
  let includes ← includeDirs spec toolchain
  let nvcc ←
    if spec.hasDevice then
      (toolchain.nvcc).map fun program => some (quotePath toolchain.os program)
    else .ok none
  let linkFlags ← linkFlags spec toolchain
  return {
    edges := edges
    cxx := toolchain.cxx
    nvcc := nvcc
    hostFlags := hostFlags spec includes toolchain.os
    deviceFlags := deviceFlags spec
    linkFlags := linkFlags
    library := toolchain.artifactName spec.name }

namespace Plan

/-- The statements that only a description with CUDA sources has. -/
def whenDevice (plan : Plan) (statements : String → List Statement) : List Statement :=
  match plan.nvcc with
  | some program => statements program
  | none => []

def toolStatements (plan : Plan) : List Statement :=
  [.variable "ninja_required_version" "1.3", .variable "cxx" (escapeValue plan.cxx)] ++
    plan.whenDevice (fun program => [.variable "nvcc" (escapeValue program)]) ++ [.blank]

def flagStatements (plan : Plan) : List Statement :=
  [.variable "cflags" (joinFlags plan.hostFlags)] ++
    plan.whenDevice (fun _ => [.variable "cuda_flags" (joinFlags plan.deviceFlags)]) ++
    [.variable "ldflags" (joinFlags plan.linkFlags), .blank]

def ruleStatements (plan : Plan) : List Statement :=
  [.rule (ruleOf .host) "$cxx -MMD -MF $out.d $cflags -c $in -o $out",
    .depfile "$out.d" "gcc", .blank] ++
    plan.whenDevice (fun _ =>
      [.rule (ruleOf .device) "$nvcc $cuda_flags -c $in -o $out", .blank]) ++
    [.rule linkRule "$cxx $ldflags $in -o $out", .blank]

def edgeStatement (edge : ObjectEdge) : Statement :=
  .build (escapePath edge.object) (ruleOf edge.compiler) [escapePath edge.source.display]

/-- The compilations, the linking and the default target. -/
def graphStatements (plan : Plan) : List Statement :=
  plan.edges.map edgeStatement ++
    [.blank,
      .build (escapePath plan.library) linkRule
        (plan.edges.map fun edge => escapePath edge.object),
      .blank, .default (escapePath plan.library), .blank]

def statements (plan : Plan) : List Statement :=
  plan.toolStatements ++ plan.flagStatements ++ plan.ruleStatements ++
    plan.graphStatements

end Plan

def statements (spec : BuildSpec) (toolchain : Toolchain) :
    Except ConfigError (List Statement) :=
  (plan spec toolchain).map Plan.statements

/-- The text of the description of `spec`. -/
def render (spec : BuildSpec) (toolchain : Toolchain) : Except ConfigError String :=
  (statements spec toolchain).map fileText

end NativeExtension.Ninja
