/-!
# NativeExtension.Platform

**The systems an extension can be linked for.** What the build description and the
search for tools need to know of each: the suffix of a shared library, the linker's
opt-in for symbols that are bound at load time, the program that searches `PATH`.
-/

namespace NativeExtension

/-- A system that extensions are built for. -/
inductive Os where
  | linux
  | macos
  | windows
deriving DecidableEq, Repr, Inhabited

namespace Os

def name : Os → String
  | .linux => "linux"
  | .macos => "darwin"
  | .windows => "windows"

/-- The suffix of a shared library, without the dot. -/
def librarySuffix : Os → String
  | .linux => "so"
  | .macos => "dylib"
  | .windows => "dll"

/-- Flags that leave symbols open until the library is loaded. Only one linker asks for
them; the others accept open symbols as they are. -/
def openSymbolFlags : Os → List String
  | .macos => ["-undefined dynamic_lookup"]
  | .linux | .windows => []

/-- The program that finds an executable on `PATH`. -/
def searchProgram : Os → String
  | .windows => "where"
  | .linux | .macos => "which"

def executable (os : Os) (program : String) : String :=
  match os with
  | .windows => program ++ ".exe"
  | .linux | .macos => program

end Os

/-- A machine architecture and a system, such as `aarch64-linux`. -/
def platformTriple (architecture : String) (os : Os) : String :=
  architecture ++ "-" ++ os.name

end NativeExtension
