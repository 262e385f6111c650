import NativeExtension.Machine.Settings
import NativeExtension.Session.Basic

/-!
# NativeExtension.Session.Runner

**The build runner.** A runner that cannot be started is a fault of the machine's set-up
and is found out before a build is tried; one that is started and fails is a failed
build. All that it prints, to either stream, is the build's log.
-/

namespace NativeExtension

/-- The program that carries out a build description. -/
structure Runner where
  /-- The program: a path, or a bare name. -/
  program : Bytes := utf8 "ninja"
deriving DecidableEq, Repr, Inhabited

namespace Runner

def name (runner : Runner) : String := shown runner.program

def versionQuery (runner : Runner) : Launch where
  program := runner.program
  arguments := [utf8 "--version"]

/-- The command that builds in a workspace. -/
def buildCommand (runner : Runner) (workspace : Path) : Launch where
  program := runner.program
  arguments := [utf8 "-v"]
  directory := some workspace

end Runner

def Machine.runner (m : Machine) : Runner := ⟨m.runnerProgram⟩

namespace Session

/-- Checks that the runner can be started and tells its version. -/
def checkRunner (runner : Runner) : Attempt ConfigError Unit := do
  match ← start runner.versionQuery with
  | .error cause => throw (.runnerMissing runner.name cause)
  | .ok outcome =>
    if !outcome.ending.success then
      throw (.runnerUnusable runner.name outcome.ending.code?)

/-- Why a runner did not start in a workspace: nothing was found, or the workspace could
not be used. -/
def startFailure (runner : Runner) (workspace : Path) (cause : SystemError) : Error :=
  if cause = .missing then .config (.runnerMissing runner.name cause)
  else .io workspace cause

/-- Runs the build description of a workspace and gives the log. -/
def runBuild (runner : Runner) (name : String) (workspace : Path) :
    Attempt Error String := do
  report .info .runner ("building extension " ++ name)
    [("runner", runner.name), ("workspace", workspace.display)]
  match ← start (runner.buildCommand workspace) with
  | .error cause => throw (startFailure runner workspace cause)
  | .ok outcome =>
    let log := shown outcome.merged
    if outcome.ending.success then return log
    else throw (.build { name := name, log := log, code := outcome.ending.code? })

end Session

end NativeExtension
