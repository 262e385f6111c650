import NativeExtension.Session.Basic
import NativeExtension.Text.Blank
import NativeExtension.Toolchain.GccVersion

/-!
# NativeExtension.Session.CompilerCheck

**Is the C++ compiler likely to fit the libraries that the extension will meet?** The
compiler is asked for its version, and one that does not call itself a recent GCC gets a
warning. The verdict is advice: no build depends on it. It is sought once per compiler.
-/

namespace NativeExtension.Session

/-- The warning that every compiler gets which does not pass. -/
def incompatibleWarning : String :=
  "compiler may be ABI-incompatible; use a compiler that is ABI-compatible with GCC " ++
    oldestCompatibleGcc.text ++ " and above " ++
    "(see https://gcc.gnu.org/onlinedocs/libstdc++/manual/abi.html)"

def warnIncompatible (compiler : String) : Action Unit :=
  report .warn .compiler incompatibleWarning [("compiler", compiler)]

/-- The version of GCC that a compiler's answer tells. -/
def versionTold (answer : Bytes) : Option Version :=
  gccVersion? (Text.lowerAscii (Utf8.decodeLossy answer))

def versionQuery (compiler : String) : Launch where
  program := utf8 compiler
  arguments := [utf8 "--version"]

/-- Asks a compiler for its version and judges it. -/
def checkCompiler (compiler : String) : Action Bool := do
  match ← start (versionQuery compiler) with
  | .error cause =>
    report .warn .compiler "error checking compiler version"
      [("compiler", compiler), ("error", cause.message)]
    warnIncompatible compiler
    return false
  | .ok outcome =>
    match versionTold outcome.out with
    | none =>
      warnIncompatible compiler
      return false
    | some version =>
      if oldestCompatibleGcc.le version then return true
      warnIncompatible (compiler ++ " " ++ version.text)
      return false

/-- The verdict on a compiler, which is sought the first time and remembered. -/
def compilerCompatible (compiler : String) : Action Bool := do
  match (← get).verdicts.lookup compiler with
  | some verdict => return verdict
  | none =>
    let verdict ← checkCompiler compiler
    modify fun s => { s with verdicts := (compiler, verdict) :: s.verdicts }
    return verdict

end NativeExtension.Session
