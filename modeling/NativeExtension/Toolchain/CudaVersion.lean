import NativeExtension.Path.Basic
import NativeExtension.Text.Digit
import NativeExtension.Toolchain.Version

/-!
# NativeExtension.Toolchain.CudaVersion

**The newest of several CUDA installations.** Side by side, installations lie in
directories named after their version, such as `v12.4`. Versions compare as pairs of
numbers, so `v9.2` is older than `v12.0`; all other names are passed over.
-/

namespace NativeExtension

/-- The parts of a text before and behind the first dot. -/
def splitFirstDot : List Char → Option (List Char × List Char)
  | [] => none
  | c :: rest =>
    if c = '.' then some ([], rest)
    else (splitFirstDot rest).map fun (before, after) => (c :: before, after)

/-- The version that a directory's name tells: `v`, a numeral, a dot, a numeral. -/
def versionOfDirectory? (name : List Char) : Option Version :=
  match name with
  | 'v' :: version => do
    let (major, minor) ← splitFirstDot version
    return ⟨← Text.signedNumeral? major, ← Text.signedNumeral? minor⟩
  | _ => none

/-- The file names that tell a version, each with it, in the order given. -/
def versionedNames (names : List Bytes) : List (Version × Bytes) :=
  names.filterMap fun name => do
    let version ← (Utf8.decode? name).bind versionOfDirectory?
    return (version, name)

/-- The later of two entries, if its version is no lower; the earlier one otherwise. -/
def newer (best entry : Version × Bytes) : Version × Bytes :=
  if best.1.le entry.1 then entry else best

/-- The name that tells the highest version. -/
def newestVersioned? (names : List Bytes) : Option Bytes :=
  match versionedNames names with
  | [] => none
  | first :: rest => some (rest.foldl newer first).2

end NativeExtension
