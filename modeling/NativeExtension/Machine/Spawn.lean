import NativeExtension.Machine.Files

/-!
# NativeExtension.Machine.Spawn

**Starting a program.** The child first changes into its directory and only then looks
for the program, so a program that is given by a relative path is looked for in the
child's directory. A bare name is looked for in the directories of `PATH`, the current
one where an entry is empty. The search goes on past an entry that holds no such file,
and past one that may not be run; of these the latter is what is reported if nothing
better turns up.

* `executable` — the file that a launch runs, without running it;
* `spawn` — the run, as the machine's `Behavior` has it.
-/

namespace NativeExtension

/-- A program with its arguments, to be started in a directory. -/
structure Launch where
  program : Bytes
  arguments : List Bytes
  /-- Where it is to run; none for the directory of the caller. -/
  directory : Option Path := none
deriving DecidableEq, Repr

namespace Machine

/-- The program at a path, with its location, if it can be run. -/
def programAt (m : Machine) (p : Path) : Except SystemError (Location × Script) := do
  match ← m.find p with
  | (place, .file _ (.program script)) => return (place.location, script)
  | (_, .file _ (.formerProgram _)) => throw .noProgram
  | _ => throw .denied

/-- The directories searched for a bare name when `PATH` is not set. -/
def defaultSearchPath : Bytes := utf8 "/bin:/usr/bin"

/-- An entry of the search path that has another behind it. One that is too long for a path
counts as empty. -/
def innerEntry (entry : Bytes) : Path := if entry.length < pathLimit then ⟨entry⟩ else ⟨[]⟩

/-- The last entry of the search path, unless it is too long for a path. -/
def lastEntry (entry : Bytes) : List Path := if entry.length < pathLimit then [⟨entry⟩] else []

/-- The directories searched for a bare name. -/
def searchPath (m : Machine) : List Path :=
  let entries := Text.fields 0x3A ((m.var? "PATH").getD defaultSearchPath)
  entries.dropLast.map innerEntry ++ entries.getLast?.toList.flatMap lastEntry

def candidate (directory : Path) (name : Bytes) : Path :=
  if directory.isEmpty then ⟨name⟩ else ⟨directory.bytes ++ slash :: name⟩

/-- Looks for a bare name in directory after directory. `last` is what the last one
said, and `denied` whether any file on the way could not be run. -/
def search (m : Machine) (name : Bytes) (denied : Bool) (last : SystemError) :
    List Path → Except SystemError (Location × Script)
  | [] => .error (if denied then .denied else last)
  | directory :: rest =>
    match m.programAt (candidate directory name) with
    | .ok found => .ok found
    | .error cause =>
      if cause = .denied then m.search name true cause rest
      else if cause = .missing ∨ cause = .notDirectory then m.search name denied cause rest
      else .error cause

/-- The program that a name stands for, looked for from the current directory. -/
def resolveProgram (m : Machine) (program : Bytes) :
    Except SystemError (Location × Script) :=
  if program = [] then .error .missing
  else if program.contains slash then m.programAt ⟨program⟩
  else m.search program false .missing m.searchPath

/-- The machine as the child of a launch sees it: in the child's directory. -/
def childOf (m : Machine) (launch : Launch) : Except SystemError Machine :=
  match launch.directory with
  | none => .ok m
  | some directory => m.changeDir directory

/-- Does a launch hold the byte zero, which cannot be handed on? -/
def holdsZero (launch : Launch) : Bool :=
  launch.program.contains 0 || launch.arguments.any (·.contains 0) ||
    (launch.directory.map (·.bytes.contains 0)).getD false

/-- The file that a launch runs, and what it does. -/
def executable (m : Machine) (launch : Launch) :
    Except SystemError (Location × Script) := do
  if holdsZero launch then throw .zeroInData
  (← m.childOf launch).resolveProgram launch.program

/-- The file beside a program in which its calls are recorded. -/
def callRecord (program : Location) : Location :=
  match program with
  | [] => []
  | name :: directory => (name ++ utf8 ".calls") :: directory

/-- The files with a line added to the record of a program's calls. -/
def recordCall (files : FileTree) (program : Location) (line : Bytes) : FileTree :=
  let record := callRecord program
  match files.get? record with
  | none => files.addFile record (.data line)
  | some (.file id content) =>
    match content.bytes? with
    | some earlier => files.set record (.file id (content.overwritten (earlier ++ line)))
    | none => files
  | some _ => files

/-- The machine after one deed of a program. What cannot be done is left undone. -/
def after (m : Machine) (program : Location) : Deed → Machine
  | .record line => { m with files := recordCall m.files program line }
  | .makeDir p => (m.createDir p).toOption.getD m
  | .write p bytes => (m.write p bytes).toOption.getD m

def afterAll (m : Machine) (program : Location) (deeds : List Deed) : Machine :=
  deeds.foldl (·.after program) m

/-- What a program finds that runs in the machine's current directory. -/
def view (m : Machine) : View := ⟨m.files.get?, m.cwd, m.env⟩

def perform (m : Machine) (program : Location) (script : Script) (arguments : List Bytes) :
    Performance :=
  m.behavior m.view program script arguments

/-- Starts a program and waits for its end. -/
def spawn (m : Machine) (launch : Launch) : Except SystemError Outcome × Machine :=
  match m.executable launch, m.childOf launch with
  | .ok (program, script), .ok child =>
    let performance := child.perform program script launch.arguments
    (.ok performance.outcome,
      { m with files := (child.afterAll program performance.deeds).files })
  | .error cause, _ => (.error cause, m)
  | .ok _, .error cause => (.error cause, m)

end Machine

end NativeExtension
