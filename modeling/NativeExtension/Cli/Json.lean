import NativeExtension.Request
import NativeExtension.Text.Json

/-!
# NativeExtension.Cli.Json

**Requests and paths as JSON.** JSON holds text, so a path that is no text cannot be
written down, and no lossy form takes its place.
-/

namespace NativeExtension

/-- A value cannot be written as JSON. -/
inductive JsonError where
  /-- It holds a path that is no text. -/
  | pathNotText
deriving DecidableEq, Repr

def JsonError.message : JsonError → String
  | .pathNotText => "path contains invalid UTF-8 characters"

def Path.toJson (p : Path) : Except JsonError Json :=
  match text? p.bytes with
  | some text => .ok (.text text)
  | none => .error .pathNotText

def pathsToJson (paths : List Path) : Except JsonError Json :=
  (paths.mapM Path.toJson).map .list

def BuildSpec.toJson (spec : BuildSpec) : Except JsonError Json := do
  let sources ← pathsToJson spec.sources
  let includes ← pathsToJson spec.includes
  return .object
    [("name", .text spec.name), ("sources", sources),
      ("extra_cflags", Json.texts spec.hostFlags),
      ("extra_cuda_cflags", Json.texts spec.deviceFlags),
      ("extra_ldflags", Json.texts spec.linkFlags),
      ("extra_include_paths", includes)]

end NativeExtension
