import NativeExtension.Error
import NativeExtension.Path.Basic
import NativeExtension.Platform

/-!
# NativeExtension.Toolchain.Basic

**The tools a build description is written for.** A `Toolchain` may have been found on
this machine or be put together by hand for another one. A missing CUDA root is no
fault of a toolchain: it becomes one when a path below the root is asked for.
-/

namespace NativeExtension

/-- All that a build description needs to know about a machine. -/
structure Toolchain where
  cxx : String := "c++"
  /-- The CUDA root, if there is one. -/
  cudaHome : Option Path := none
  /-- Where the bundled headers are put before a build. -/
  bundledIncludes : List Path := []
  /-- Headers of the program that will load the extension, searched last. -/
  runtimeIncludes : List Path := []
  os : Os := .linux
deriving DecidableEq, Repr, Inhabited

/-- The path below the CUDA root that `parts` lead to. -/
def joinCudaHome (home : Option Path) (parts : List String) : Except ConfigError Path :=
  match home with
  | none => .error .cudaRootMissing
  | some root => .ok (parts.foldl Path.joinText root)

namespace Toolchain

def nvcc (toolchain : Toolchain) : Except ConfigError Path :=
  joinCudaHome toolchain.cudaHome ["bin", toolchain.os.executable "nvcc"]

def cudaIncludeDir (toolchain : Toolchain) : Except ConfigError Path :=
  joinCudaHome toolchain.cudaHome ["include"]

def cudaLibDir (toolchain : Toolchain) : Except ConfigError Path :=
  joinCudaHome toolchain.cudaHome ["lib64"]

/-- The file name of the library that is linked for the extension `name`. -/
def artifactName (toolchain : Toolchain) (name : String) : String :=
  name ++ "." ++ toolchain.os.librarySuffix

end Toolchain

end NativeExtension
