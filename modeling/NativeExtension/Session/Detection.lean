import NativeExtension.Machine.Settings
import NativeExtension.Session.Basic
import NativeExtension.Text.Blank
import NativeExtension.Toolchain.Basic
import NativeExtension.Toolchain.CudaVersion

/-!
# NativeExtension.Session.Detection

**The toolchain of this machine.** The CUDA root is the one that the environment names,
else the usual place if something is there, else the directory above the one in which
the CUDA compiler is found. It is looked for once in the life of a process. That there is
none is a result like any other.
-/

namespace NativeExtension

/-- The path of the newest CUDA installation in a directory that holds several. -/
def Machine.newestVersionedDir? (m : Machine) (parent : Path) : Option Path :=
  match m.list parent with
  | .ok names => (newestVersioned? names).map fun name => parent.join ⟨name⟩
  | .error _ => none

namespace Session

def usualCudaRoot : Path := Path.ofText "/usr/local/cuda"

/-- The CUDA root that the path of the CUDA compiler tells: two steps up. -/
def rootOfCompiler? (program : Path) : Option Path :=
  program.parent?.bind Path.parent?

/-- The CUDA root that the answer of the search program tells. -/
def rootTold? (answer : Bytes) : Option Path :=
  (Text.firstLine? (Utf8.decodeLossy answer)).bind fun line =>
    rootOfCompiler? ⟨Utf8.encode line⟩

/-- Asks the system's search program for the CUDA compiler. -/
def searchCudaRoot (os : Os) : Action (Option Path) := do
  let launch : Launch := { program := utf8 os.searchProgram, arguments := [utf8 "nvcc"] }
  match ← start launch with
  | .error _ => return none
  | .ok outcome =>
    if outcome.ending.success then return rootTold? outcome.out else return none

/-- Looks for the CUDA root. -/
def locateCudaRoot (os : Os) (usual : Option Path) : Action (Option Path) := do
  let m ← getMachine
  match m.cudaHomeVar? with
  | some root => return some root
  | none =>
    match usual.filter m.pathExists with
    | some root => return some root
    | none => searchCudaRoot os

def findCudaRoot : Action (Option Path) := locateCudaRoot .linux (some usualCudaRoot)

/-- The CUDA root of this machine, which is looked for the first time and remembered. -/
def cudaRoot : Action (Option Path) := do
  match (← get).knownCudaRoot with
  | some root => return root
  | none =>
    let root ← findCudaRoot
    modify fun s => { s with knownCudaRoot := some root }
    return root

def detectToolchain : Action Toolchain := do
  let root ← cudaRoot
  let m ← getMachine
  return {
    cxx := m.hostCompiler
    cudaHome := root
    bundledIncludes := [m.bundledIncludeDir]
    runtimeIncludes := m.runtimeIncludeDirs
    os := .linux }

end Session

end NativeExtension
