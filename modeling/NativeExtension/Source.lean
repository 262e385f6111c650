import NativeExtension.Path.Basic

/-!
# NativeExtension.Source

**Which compiler a source goes through.** The file's extension alone decides; the file
is never opened.
-/

namespace NativeExtension

/-- The two compilers of a build. -/
inductive Compiler where
  /-- The C++ compiler, which also links. -/
  | host
  | device
deriving DecidableEq, Repr

namespace Path

/-- Does the path name a CUDA source? -/
def isDeviceSource (p : Path) : Bool :=
  p.extension? = some (utf8 "cu") || p.extension? = some (utf8 "cuh")

/-- The compiler that the source at `p` goes through. -/
def compiler (p : Path) : Compiler :=
  if p.isDeviceSource then .device else .host

end Path

/-- Sources parted by compiler, each side in the order given. -/
structure Sources where
  host : List Path
  device : List Path
deriving DecidableEq, Repr

namespace Sources

/-- Parts the sources by compiler. -/
def classify (sources : List Path) : Sources where
  host := sources.filter fun p => !p.isDeviceSource
  device := sources.filter Path.isDeviceSource

def anyDevice (sources : Sources) : Bool := !sources.device.isEmpty

end Sources

end NativeExtension
