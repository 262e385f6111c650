import NativeExtension.Machine.FileTree

/-!
# NativeExtension.Machine.Program

**What programs do when they are run.** The programs that a build starts are not part of the
library, so what they do is a parameter: a `Behavior` says of each program what it does wherever it
runs. It may look at everything that lies on the machine, at the directory it runs in and at the
environment (`View`), and do what another program does that it finds there. What it does to the
files is a list of deeds, each of which may fail without the others (`Performance`).

`Script.perform` is the behavior of programs that look at nothing but their arguments.
-/

namespace NativeExtension

/-- What a program finds. -/
structure View where
  entry? : Location → Option Entry
  cwd : Place
  env : List (String × Bytes)

/-- One thing that a program does to the files. -/
inductive Deed where
  /-- It adds a line to the record of its calls, a file beside the program. -/
  | record (line : Bytes)
  | makeDir (p : Path)
  /-- It writes a file, which is created if it is not there. -/
  | write (p : Path) (bytes : Bytes)
deriving DecidableEq, Repr

/-- All that a program does in one run: its deeds in order, what it prints and how it ends. -/
structure Performance where
  deeds : List Deed
  outcome : Outcome
deriving DecidableEq, Repr

/-- What each program does, by the view it has, where it lies, what its file holds, and its
arguments. -/
abbrev Behavior := View → Location → Script → List Bytes → Performance

namespace Script

/-- What a script does to the files. -/
def deeds (script : Script) (arguments : List Bytes) : List Deed :=
  (if script.recordsCalls then [.record (argumentLine arguments)] else []) ++
    if (script.versionReply? arguments).isSome then []
    else script.creates.toList.map (Deed.write · [])

/-- What scripts do. None of them looks at the files; only the shell that starts one sees whether
the directory it runs in is still there. -/
def perform : Behavior := fun view _ script arguments =>
  { deeds := script.deeds arguments
    outcome := script.outcomeIn view.cwd.isRemoved arguments }

end Script

end NativeExtension
