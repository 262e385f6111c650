import NativeExtension.Machine.Basic
import NativeExtension.Workspace

/-!
# NativeExtension.Machine.Settings

**What the environment variables decide.** A variable that is set but empty counts as
not set. Nothing here is made absolute: a relative directory in a variable stays
relative.
-/

namespace NativeExtension.Machine

/-- The C++ compiler: `CXX` if it is set to a text, else `c++`. -/
def hostCompiler (m : Machine) : String :=
  match (m.setVar? "CXX").bind text? with
  | some compiler => compiler
  | none => "c++"

/-- The build runner: `EXTBUILD_NINJA`, else `ninja`. -/
def runnerProgram (m : Machine) : Bytes :=
  (m.setVar? "EXTBUILD_NINJA").getD (utf8 "ninja")

def temporaryDir (m : Machine) : Path := ⟨(m.var? "TMPDIR").getD (utf8 "/tmp")⟩

/-- The directory of all workspaces, when no variable says otherwise. -/
def defaultExtensionsRoot (m : Machine) : Path := workspacesIn m.temporaryDir

/-- The directory of all workspaces: `EXTBUILD_EXTENSIONS_DIR`, or the default one. -/
def extensionsRoot (m : Machine) : Path :=
  match m.setVar? "EXTBUILD_EXTENSIONS_DIR" with
  | some bytes => ⟨bytes⟩
  | none => m.defaultExtensionsRoot

def bundledIncludeDir (m : Machine) : Path := bundledDir m.extensionsRoot

/-- The headers of the loading program: the directories that `EXTBUILD_RUNTIME_INCLUDE`
lists, a colon between two. -/
def runtimeIncludeDirs (m : Machine) : List Path :=
  match m.var? "EXTBUILD_RUNTIME_INCLUDE" with
  | some bytes => ((Text.fields 0x3A bytes).filter (· ≠ [])).map Path.mk
  | none => []

/-- The CUDA root that the environment names: `CUDA_HOME`, else `CUDA_PATH`. -/
def cudaHomeVar? (m : Machine) : Option Path :=
  ((m.setVar? "CUDA_HOME").or (m.setVar? "CUDA_PATH")).map Path.mk

end NativeExtension.Machine
