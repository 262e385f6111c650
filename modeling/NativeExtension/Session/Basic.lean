import NativeExtension.Error
import NativeExtension.Machine.Loader
import NativeExtension.Machine.Spawn

/-!
# NativeExtension.Session.Basic

**A process that builds and loads extensions.** A `Session` holds the machine it runs on
and what the process keeps for as long as it lives: the CUDA root, the verdict on each
compiler, the libraries that are open, the extensions it has loaded and the name under
which each was last registered. Its `journal` lists, in order, what it reported, what it
started and what it printed.

An `Action` may change the session; an `Attempt` may also fail, and what it had changed
until then stays changed.
-/

namespace NativeExtension

inductive Level where
  | info
  | warn
deriving DecidableEq, Repr

def Level.name : Level → String
  | .info => "INFO"
  | .warn => "WARN"

/-- The part of the library that a report comes from. -/
inductive Reporter where
  | pipeline
  | runner
  | artifact
  | compiler
deriving DecidableEq, Repr

def Reporter.name : Reporter → String
  | .pipeline => "extbuild_lib::load"
  | .runner => "extbuild_lib::invoke"
  | .artifact => "extbuild_lib::artifact"
  | .compiler => "extbuild_lib::toolchain::compiler"

/-- A report: a message with named details. -/
structure Report where
  level : Level
  reporter : Reporter
  message : String
  details : List (String × String) := []
deriving DecidableEq, Repr

/-- What a session does that can be seen from outside. -/
inductive Event where
  | reported (report : Report)
  /-- It starts a program: the file that runs, or why none does. -/
  | started (launch : Launch) (file : Except SystemError Location)
  | printed (stream : Stream) (text : String)
deriving Repr

/-- A loaded library that its entry point has accepted. -/
structure Extension where
  /-- The number of the load that it comes from. -/
  handle : Nat
  name : String
  path : Path
  library : Library
deriving DecidableEq, Repr

/-- A process that builds and loads extensions. -/
structure Session where
  machine : Machine
  /-- What it did, in order. -/
  journal : List Event := []
  /-- The CUDA root, or that there is none, once it has been looked for. -/
  knownCudaRoot : Option (Option Path) := none
  /-- The verdict on each compiler that was checked. -/
  verdicts : List (String × Bool) := []
  loader : Loader := []
  /-- All extensions loaded so far, in order. -/
  extensions : List Extension := []
  /-- The extension last loaded under each name. -/
  registry : List (String × Extension) := []

/-- Something a session does. -/
abbrev Action := StateM Session

/-- Something a session does that may fail. -/
abbrev Attempt (ε : Type) := ExceptT ε Action

namespace Session

def getMachine : Action Machine := do return (← get).machine

def setMachine (m : Machine) : Action Unit := modify fun s => { s with machine := m }

def note (event : Event) : Action Unit :=
  modify fun s => { s with journal := s.journal ++ [event] }

def report (level : Level) (reporter : Reporter) (message : String)
    (details : List (String × String)) : Action Unit :=
  note (.reported { level := level, reporter := reporter, message := message, details := details })

def print (stream : Stream) (text : String) : Action Unit := note (.printed stream text)

/-- Starts a program and waits for its end. -/
def start (launch : Launch) : Action (Except SystemError Outcome) := do
  let m ← getMachine
  note (.started launch ((m.executable launch).map (·.1)))
  let (result, after) := m.spawn launch
  setMachine after
  return result

/-- The result of an attempt that has been made already. -/
def attempt {ε α : Type} : Except ε α → Attempt ε α
  | .ok a => pure a
  | .error e => throw e

/-- An attempt whose failures are failures of another kind. -/
def raising {ε δ α : Type} (f : ε → δ) (action : Attempt ε α) : Attempt δ α :=
  ExceptT.mk do return (← action.run).mapError f

/-! ### What the basic actions do -/

@[simp] theorem run_getMachine (s : Session) : getMachine.run s = (s.machine, s) := rfl

@[simp] theorem run_setMachine (m : Machine) (s : Session) :
    (setMachine m).run s = ((), { s with machine := m }) := rfl

@[simp] theorem run_note (event : Event) (s : Session) :
    (note event).run s = ((), { s with journal := s.journal ++ [event] }) := rfl

@[simp] theorem run_report (level : Level) (reporter : Reporter) (message : String)
    (details : List (String × String)) (s : Session) :
    (report level reporter message details).run s =
      ((), { s with
        journal := s.journal ++ [.reported
          { level := level, reporter := reporter, message := message, details := details }] }) :=
  rfl

/-- Starting a program adds to the journal and changes the machine, and nothing else. -/
theorem run_start (launch : Launch) (s : Session) :
    (start launch).run s =
      ((s.machine.spawn launch).1,
        { s with
          machine := (s.machine.spawn launch).2
          journal := s.journal ++
            [.started launch ((s.machine.executable launch).map (·.1))] }) := rfl

end Session

end NativeExtension
