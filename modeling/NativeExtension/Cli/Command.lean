import NativeExtension.Cli.Arguments
import NativeExtension.Cli.Duration
import NativeExtension.Cli.Json
import NativeExtension.Cli.LogFilter
import NativeExtension.Cli.ReportLine
import NativeExtension.Session.Build

/-!
# NativeExtension.Cli.Command

**The three commands.** `build` goes the whole way, and by default loads what it built,
because only that shows the extension to be usable; `emit` prints the build description
that `build` would write and starts nothing but the search for CUDA; `info` shows the
toolchain. A failure is printed with all that lay behind it on one line, and the exit
code is 1.
-/

namespace NativeExtension.Cli

open Session

/-- Why a command failed: the error and what lay behind it, outermost first. -/
abbrev Failure := List String

def failureText (failure : Failure) : String := String.intercalate ": " failure

def failureOf (error : Error) : Failure := error.message :: error.causes

/-- An attempt at something that is told of when it fails. -/
def within {α : Type} (purpose : String) (action : Attempt Error α) : Attempt Failure α :=
  raising (fun error => purpose :: failureOf error) action

def printLine (text : String) : Action Unit := Session.print .out (text ++ "\n")

/-- A piece of text that is set off if the environment insists on it. -/
def setOffIfForced (style : String → String) (text : String) : Action String := do
  return if (← getMachine).insistsOnColor then style text else text

def printSuccess (message : String) : Action Unit := do
  printLine ((← setOffIfForced Style.green.tint "✓") ++ " " ++ message)

def printFact (name value : String) : Action Unit := do
  printLine ("  " ++ (← setOffIfForced Style.dimmed.paint name) ++ ": " ++ value)

def printWarning (message : String) : Action Unit := do
  let sign ← setOffIfForced Style.yellow.tint "⚠"
  Session.print .err (sign ++ " " ++ (← setOffIfForced Style.yellow.tint message) ++ "\n")

def printFailure (failure : Failure) : Action Unit := do
  let sign ← setOffIfForced Style.red.tint "✗"
  let text ← setOffIfForced Style.red.tint (failureText failure)
  Session.print .err (sign ++ " " ++ text ++ "\n")

def printJson (value : Except JsonError Json) : Attempt Failure Unit :=
  match value with
  | .ok json => printLine json.print
  | .error error => throw ["Failed to serialize to JSON", error.message]

/-! ### `build` -/

/-- What `build` tells when it has gone well. -/
structure Summary where
  name : String
  workspace : Path
  /-- The library, if it was loaded. -/
  artifact : Option Path
  /-- The checked request, if nothing was loaded. -/
  spec : Option BuildSpec
deriving DecidableEq, Repr

def pathOrNull : Option Path → Except JsonError Json
  | some p => p.toJson
  | none => .ok .null

/-- The fields of a summary that stand there only if nothing was loaded. -/
def specFields : Option BuildSpec → Except JsonError (List (String × Json))
  | some spec => do return [("spec", ← spec.toJson)]
  | none => .ok []

namespace Summary

def toJson (summary : Summary) (milliseconds : Nat) : Except JsonError Json := do
  let workspace ← summary.workspace.toJson
  let artifact ← pathOrNull summary.artifact
  let spec ← specFields summary.spec
  return .object
    ([("name", .text summary.name), ("workspace", workspace), ("artifact", artifact),
      ("loaded", .bool summary.artifact.isSome)] ++ spec ++
      [("duration_ms", .number milliseconds)])

def printText (summary : Summary) (milliseconds : Nat) : Action Unit := do
  printSuccess ((if summary.artifact.isSome then "Loaded" else "Built") ++ " extension '" ++
    summary.name ++ "'")
  printFact "Workspace" summary.workspace.display
  match summary.artifact with
  | some artifact => printFact "Artifact" artifact.display
  | none => pure ()
  printFact "Duration" (formatDuration milliseconds)

end Summary

/-- Builds an extension and loads it unless that is not wanted. -/
def buildSummary (arguments : ExtensionArguments) (verbose noLoad : Bool) :
    Attempt Failure Summary := do
  let toolchain ← detectToolchain
  let runner := (← getMachine).runner
  let built ← within ("Failed to build extension '" ++ arguments.name ++ "'")
    (buildWith (arguments.request verbose) toolchain runner)
  if verbose then Session.print .err built.log
  if noLoad then
    return {
      name := built.spec.name
      workspace := built.workspace
      artifact := none
      spec := some built.spec }
  else
    let extension ← within ("Failed to load extension '" ++ arguments.name ++ "'")
      (raising Error.load
        (loadArtifact built.spec.name built.workspace toolchain.os.librarySuffix))
    return {
      name := extension.name
      workspace := built.workspace
      artifact := some extension.path
      spec := none }

/-- The command `build`, which takes `milliseconds`. -/
def runBuildCommand (arguments : ExtensionArguments) (verbose noLoad : Bool)
    (format : Format) (milliseconds : Nat) : Attempt Failure Unit := do
  let summary ← buildSummary arguments verbose noLoad
  match format with
  | .json => printJson (summary.toJson milliseconds)
  | .text => summary.printText milliseconds

/-! ### `emit` -/

/-- The build description that `build` would write. -/
def description (arguments : ExtensionArguments) : Attempt Error String := do
  let spec ← checkRequest (arguments.request false)
  let toolchain ← detectToolchain
  attempt ((Ninja.render spec toolchain).mapError Error.config)

def writeOutput (path : Path) (text : String) : Attempt Failure Unit := do
  let m ← getMachine
  match m.write path (utf8 text) with
  | .ok after => setMachine after
  | .error cause => throw ["Failed to write " ++ path.display, cause.message]

def runEmitCommand (arguments : ExtensionArguments) (out : Option Path) :
    Attempt Failure Unit := do
  let text ← raising failureOf (description arguments)
  match out with
  | some path =>
    writeOutput path text
    printSuccess ("Wrote " ++ path.display)
  | none => Session.print .out text

/-! ### `info` -/

/-- What `info` tells. -/
structure Facts where
  platform : String
  cxx : String
  cudaHome : Option Path
  nvcc : Option Path
  ninja : String
  ninjaAvailable : Bool
  extensionsRoot : Path
  includeDirs : List Path
deriving DecidableEq, Repr

namespace Facts

def collect (architecture : String) : Action Facts := do
  let toolchain ← detectToolchain
  let runner := (← getMachine).runner
  let available ← (checkRunner runner).run
  return {
    platform := platformTriple architecture toolchain.os
    cxx := toolchain.cxx
    cudaHome := toolchain.cudaHome
    nvcc := toolchain.nvcc.toOption
    ninja := runner.name
    ninjaAvailable := available.isOk
    extensionsRoot := (← getMachine).extensionsRoot
    includeDirs := toolchain.bundledIncludes ++ toolchain.runtimeIncludes }

def toJson (facts : Facts) : Except JsonError Json := do
  let cudaHome ← pathOrNull facts.cudaHome
  let nvcc ← pathOrNull facts.nvcc
  let root ← facts.extensionsRoot.toJson
  let includes ← pathsToJson facts.includeDirs
  return .object
    [("platform", .text facts.platform), ("cxx", .text facts.cxx), ("cuda_home", cudaHome),
      ("nvcc", nvcc), ("ninja", .text facts.ninja),
      ("ninja_available", .bool facts.ninjaAvailable), ("extensions_root", root),
      ("include_dirs", includes)]

def pathOrNotFound : Option Path → String
  | some p => p.display
  | none => "(not found)"

def printText (facts : Facts) : Action Unit := do
  printLine "Toolchain:"
  printFact "Platform" facts.platform
  printFact "C++ compiler" facts.cxx
  printFact "CUDA home" (pathOrNotFound facts.cudaHome)
  printFact "nvcc" (pathOrNotFound facts.nvcc)
  printFact "Ninja" facts.ninja
  printFact "Extensions root" facts.extensionsRoot.display
  facts.includeDirs.forM fun dir => printFact "Include" dir.display
  if !facts.ninjaAvailable then
    printWarning ("`" ++ facts.ninja ++ "` could not be run; builds will fail")

end Facts

def runInfoCommand (architecture : String) (format : Format) : Attempt Failure Unit := do
  let facts ← Facts.collect architecture
  match format with
  | .json => printJson facts.toJson
  | .text => facts.printText

/-! ### The program -/

/-- What the program is told of its surroundings, apart from the machine. -/
structure Surroundings where
  architecture : String
  milliseconds : Nat
deriving DecidableEq, Repr

def Command.run (command : Command) (verbose : Bool) (around : Surroundings) :
    Attempt Failure Unit :=
  match command with
  | .build extension noLoad format =>
    runBuildCommand extension verbose noLoad format around.milliseconds
  | .emit extension out => runEmitCommand extension out
  | .info format => runInfoCommand around.architecture format

/-- What the program leaves behind: its exit code and what it printed. -/
structure Ended where
  code : Nat
  out : String := ""
  err : String := ""
deriving DecidableEq, Repr

/-- Carries out a command and gives the exit code, a failure printed. -/
def Command.conclude (command : Command) (verbose : Bool) (around : Surroundings) :
    Action Nat := do
  match ← (command.run verbose around).run with
  | .ok () => return 0
  | .error failure =>
    printFailure failure
    return 1

/-- What reports look like: which of them are printed, and whether in colours. -/
structure ReportStyle where
  filter : LogFilter
  colored : Bool
deriving Repr

/-- What an event adds to a stream. -/
def eventText (style : ReportStyle) (stream : Stream) : Event → String
  | .reported report =>
    if stream = .err ∧ style.filter.shows report then reportLine style.colored report else ""
  | .started _ _ => ""
  | .printed s text => if s = stream then text else ""

/-- All that the events of a journal print to a stream. -/
def printedText (style : ReportStyle) (stream : Stream) (journal : List Event) : String :=
  String.join (journal.map (eventText style stream))

def versionLine : String := "extbuild 0.1.0\n"

def usage : String :=
  "Usage: extbuild [-v] build|emit NAME SOURCE... [OPTIONS]\n       extbuild [-v] info\n"

/-- Runs the program with some arguments on a machine: what it leaves behind, and the
machine afterwards. -/
def runProgram (arguments : List Bytes) (around : Surroundings) (m : Machine) :
    Ended × Machine :=
  match Invocation.ofArguments false arguments with
  | .misuse => ({ code := 2, err := usage }, m)
  | .version => ({ code := 0, out := versionLine }, m)
  | .help => ({ code := 0, out := usage }, m)
  | .run verbose command =>
    let (code, s) := (command.conclude verbose around).run { machine := m }
    let style : ReportStyle :=
      { filter := LogFilter.ofVariable (m.var? "RUST_LOG") verbose
        colored := m.letsReportsBeColored }
    ({ code := code
       out := printedText style .out s.journal
       err := printedText style .err s.journal }, s.machine)

end NativeExtension.Cli
