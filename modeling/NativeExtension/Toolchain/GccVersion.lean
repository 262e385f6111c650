import NativeExtension.Text.Digit
import NativeExtension.Toolchain.Version

/-!
# NativeExtension.Toolchain.GccVersion

**The version in what a compiler says of itself.** Only a compiler that calls itself
`gcc` is understood. Its version is the first run of digits with a dot and more digits,
or an `x`, right behind it. The digits of any script make a run; a run that is not all
ASCII, or too large, is a version that cannot be read, and no later one is tried.
-/

namespace NativeExtension

/-- The oldest GCC whose C++ library is binary compatible with current ones. -/
def oldestCompatibleGcc : Version := ⟨4, 9⟩

namespace GccVersion

/-- A version that starts right here: digits, a dot, and digits or an `x`. -/
def versionHere? (text : List Char) : Option (List Char × List Char) :=
  let major := text.takeWhile Text.isDecimalDigit
  match text.dropWhile Text.isDecimalDigit with
  | '.' :: after =>
    let minor := after.takeWhile Text.isDecimalDigit
    if major = [] then none
    else if minor ≠ [] then some (major, minor)
    else if after.head? = some 'x' then some (major, ['x'])
    else none
  | _ => none

/-- The first version in `text`. -/
def firstVersion? : List Char → Option (List Char × List Char)
  | [] => none
  | c :: rest =>
    match versionHere? (c :: rest) with
    | some version => some version
    | none => firstVersion? rest

/-- The value of a version as it is written; a minor number `x` counts as zero. -/
def value? (version : List Char × List Char) : Option Version := do
  let major ← Text.numeral? version.1
  let minor ← if version.2 = ['x'] then some 0 else Text.numeral? version.2
  return ⟨major, minor⟩

def occurs (word : List Char) : List Char → Bool
  | [] => word.isEmpty
  | c :: rest => word.isPrefixOf (c :: rest) || occurs word rest

end GccVersion

/-- The version of GCC that `info` tells, if it is GCC's and can be read. -/
def gccVersion? (info : List Char) : Option Version :=
  if GccVersion.occurs "gcc".toList info then
    (GccVersion.firstVersion? info).bind GccVersion.value?
  else none

end NativeExtension
