import NativeExtension.Path.Basic
import NativeExtension.SystemError

/-!
# NativeExtension.Path.Absolute

**A path made absolute by its spelling alone.** No file is looked at, so the path need
not exist. A relative path is written behind the current directory; `.` pieces and
repeated slashes go, while `..`, a trailing slash and a leading `//` stay, because for
them the meaning of the path is not the writer's to decide: `..` may leave through
another directory's door, a trailing slash asks for a directory, and two leading
slashes (but not three) may name a tree of their own.
-/

namespace NativeExtension.Path

/-- Do exactly two slashes stand in front? -/
def isDoubleRooted (p : Path) : Bool :=
  match p.bytes with
  | a :: b :: rest => a = slash && b = slash && rest.head? != some slash
  | _ => false

/-- Each component in turn, seen from `base`. -/
def extend (base : Path) (steps : List Component) : Path :=
  steps.foldl (fun p step => p.join ⟨step.bytes⟩) base

/-- A slash at the end, for a path that was written with one. -/
def keepTrailingSlash (written p : Path) : Path :=
  if written.bytes.getLast? = some slash then p.join ⟨[]⟩ else p

/-- `p` made absolute against the directory `cwd`, which is asked for only when `p` is
relative and may be out of reach. -/
def absolute (cwd : Except SystemError Path) (p : Path) : Except SystemError Path :=
  if p.isEmpty then .error .emptyPath
  else if p.isAbsolute then
    if p.isDoubleRooted then
      .ok (keepTrailingSlash p (extend ⟨[slash, slash]⟩ (p.components.drop 1)))
    else
      .ok (keepTrailingSlash p (extend ⟨[]⟩ p.components))
  else do
    let here ← cwd
    return keepTrailingSlash p (extend here (p.components.filter (· ≠ .current)))

end NativeExtension.Path
