import NativeExtension.Cli.Command
import NativeExtension.Proofs.Session.BuildCourse

/-!
# NativeExtension.Proofs.Cli.Commands

**What the commands come down to.** `emit` describes the request and puts the description where it
is wanted (`run_description`, `run_runEmitCommand`); `build` builds with the toolchain of the
machine and then loads (`run_buildSummary`). All that the commands do beyond that is to print: no
program is started for it, and the machine stays as it is (`Idles`).
-/

namespace NativeExtension

/-- Nothing was started, and the machine is as it was. -/
structure Idles (s s' : Session) : Prop where
  machine : s'.machine = s.machine
  launches : s'.launches = s.launches

instance : Composes Idles where
  refl := fun _ => ⟨rfl, rfl⟩
  trans := fun h h' => ⟨h'.machine.trans h.machine, h'.launches.trans h.launches⟩

theorem Idles.course {licence : Licence} {asks : Launch → Prop} {s s' : Session}
    (h : Idles s s') : Course licence asks s s' := Course.of_move (.noted h.machine h.launches)

namespace Cli

open Session

/-! ### Printing and loading -/

theorem idles_print (stream : Stream) (text : String) :
    Along Idles (Session.print stream text) :=
  fun _ => ⟨rfl, by simp [launches, Session.print]⟩

theorem idles_printLine (text : String) : Along Idles (printLine text) := idles_print _ _

theorem idles_setOffIfForced (style : String → String) (text : String) :
    Along Idles (setOffIfForced style text) :=
  Along.bind along_getMachine fun _ => Along.pure _

theorem idles_printSuccess (message : String) : Along Idles (printSuccess message) :=
  Along.bind (idles_setOffIfForced _ _) fun _ => idles_printLine _

theorem idles_printFact (name value : String) : Along Idles (printFact name value) :=
  Along.bind (idles_setOffIfForced _ _) fun _ => idles_printLine _

theorem idles_printJson (value : Except JsonError Json) : Along Idles (printJson value).run := by
  cases value with
  | ok json => exact Along.lift (idles_printLine _)
  | error error => exact Along.attempt_throw _

theorem idles_printText (summary : Summary) (milliseconds : Nat) :
    Along Idles (summary.printText milliseconds) := by
  have hduration := idles_printFact "Duration" (formatDuration milliseconds)
  refine Along.bind (idles_printSuccess _) fun _ => ?_
  refine Along.bind (idles_printFact "Workspace" summary.workspace.display) fun _ => ?_
  cases summary.artifact with
  | some artifact =>
      exact Along.bind (idles_printFact "Artifact" artifact.display) fun _ => hduration
  | none => exact hduration

theorem idles_loadArtifact (name : String) (directory : Path) (suffix : String) :
    Along Idles (loadArtifact name directory suffix).run := by
  intro s
  have hafter : ∀ e opened, Idles s (s.afterLoad e opened) :=
    fun e opened => ⟨rfl, by simp [launches, afterLoad]⟩
  change Idles s ((loadArtifact name directory suffix).run.run s).2
  rw [run_loadArtifact]
  split
  · exact ⟨rfl, rfl⟩
  · split
    · exact ⟨rfl, rfl⟩
    · split
      · exact ⟨rfl, rfl⟩
      · split
        · exact hafter _ _
        · exact ⟨rfl, rfl⟩

/-! ### `emit` -/

/-- A request is described as it stands, with the toolchain of the machine. -/
theorem run_description (arguments : ExtensionArguments) (s : Session) :
    (description arguments).run.run s =
      match BuildSpec.ofOptions s.machine.currentDir (arguments.request false) with
      | .error error => (.error (.config error), s)
      | .ok spec =>
        ((Ninja.render spec (detectToolchain.run s).1).mapError Error.config,
          (detectToolchain.run s).2) := by
  unfold description
  rw [run_bind, run_checkRequest]
  cases BuildSpec.ofOptions s.machine.currentDir (arguments.request false) with
  | error error => rfl
  | ok spec =>
      dsimp only [Except.mapError]
      rw [run_lift_bind, run_attempt]

/-- `emit` by the description that it makes: printed, written, or the failure to make it. -/
theorem run_runEmitCommand (arguments : ExtensionArguments) (out : Option Path) (s : Session) :
    (runEmitCommand arguments out).run.run s =
      match (description arguments).run.run s with
      | (.error error, s') => (.error (failureOf error), s')
      | (.ok text, s') =>
        match out with
        | none => (.ok (), ((Session.print .out text).run s').2)
        | some path =>
          match s'.machine.write path (utf8 text) with
          | .error cause => (.error ["Failed to write " ++ path.display, cause.message], s')
          | .ok m =>
            (.ok (),
              ((printSuccess ("Wrote " ++ path.display)).run { s' with machine := m }).2) := by
  unfold runEmitCommand
  rw [run_bind, run_raising]
  cases (description arguments).run.run s with
  | mk result s' =>
  cases result with
  | error error => rfl
  | ok text =>
  cases out with
  | none => rfl
  | some path =>
      change (writeOutput path text >>= _).run.run s' = _
      unfold writeOutput
      rw [run_bind, run_lift_bind, run_getMachine]
      dsimp only
      cases s'.machine.write path (utf8 text) <;> rfl

/-! ### `build` -/

/-- The session after the log of a build was printed, if that is wanted. -/
def afterLog (verbose : Bool) (log : String) (s : Session) : Session :=
  if verbose then ((Session.print .err log).run s).2 else s

theorem idles_afterLog (verbose : Bool) (log : String) (s : Session) :
    Idles s (afterLog verbose log s) := by
  unfold afterLog
  split
  · exact idles_print _ _ s
  · exact Composes.refl s

/-- The extension is built with the toolchain of the machine, and loaded unless that is not
wanted. -/
theorem run_buildSummary (arguments : ExtensionArguments) (verbose noLoad : Bool) (s : Session) :
    (buildSummary arguments verbose noLoad).run.run s =
      match (build (arguments.request verbose)).run.run s with
      | (.error error, s') =>
        (.error (("Failed to build extension '" ++ arguments.name ++ "'") :: failureOf error), s')
      | (.ok output, s') =>
        if noLoad then
          (.ok { name := output.spec.name, workspace := output.workspace, artifact := none,
                 spec := some output.spec }, afterLog verbose output.log s')
        else
          match (loadArtifact output.spec.name output.workspace Os.linux.librarySuffix).run.run
              (afterLog verbose output.log s') with
          | (.error error, s'') =>
            (.error (("Failed to load extension '" ++ arguments.name ++ "'") ::
              failureOf (.load error)), s'')
          | (.ok extension, s'') =>
            (.ok { name := extension.name, workspace := output.workspace,
                   artifact := some extension.path, spec := none }, s'') := by
  unfold buildSummary
  rw [run_lift_bind, run_lift_bind, run_getMachine, run_bind, within, run_raising, run_build]
  cases (buildWith (arguments.request verbose) (detectToolchain.run s).1
    (detectToolchain.run s).2.machine.runner).run.run (detectToolchain.run s).2 with
  | mk result s' =>
  cases result with
  | error error => rfl
  | ok output =>
      have hload : ∀ told : Session,
          ((do
            let extension ← within ("Failed to load extension '" ++ arguments.name ++ "'")
              (raising Error.load
                (loadArtifact output.spec.name output.workspace
                  (detectToolchain.run s).1.os.librarySuffix))
            return { name := extension.name, workspace := output.workspace,
                     artifact := some extension.path, spec := none }) :
            Attempt Failure Summary).run.run told =
          match (loadArtifact output.spec.name output.workspace Os.linux.librarySuffix).run.run
              told with
          | (.error error, s'') =>
            (.error (("Failed to load extension '" ++ arguments.name ++ "'") ::
              failureOf (.load error)), s'')
          | (.ok extension, s'') =>
            (.ok { name := extension.name, workspace := output.workspace,
                   artifact := some extension.path, spec := none }, s'') := by
        intro told
        have hos : (detectToolchain.run s).1.os = .linux := rfl
        rw [run_bind, within, run_raising, run_raising, hos]
        cases (loadArtifact output.spec.name output.workspace
          Os.linux.librarySuffix).run.run told with
        | mk loaded s'' => cases loaded <;> rfl
      cases noLoad with
      | true => cases verbose <;> rfl
      | false => cases verbose <;> exact hload _

/-- Once the extension is built, no more programs are started, and the machine stays as it is. -/
theorem idles_runBuildCommand (arguments : ExtensionArguments) (verbose noLoad : Bool)
    (format : Format) (milliseconds : Nat) (s : Session) :
    Idles ((build (arguments.request verbose)).run.run s).2
      ((runBuildCommand arguments verbose noLoad format milliseconds).run.run s).2 := by
  have hsummary : Idles ((build (arguments.request verbose)).run.run s).2
      ((buildSummary arguments verbose noLoad).run.run s).2 := by
    rw [run_buildSummary]
    cases (build (arguments.request verbose)).run.run s with
    | mk result s' =>
    cases result with
    | error error => exact Composes.refl s'
    | ok output =>
        have htold := idles_afterLog verbose output.log s'
        have hloaded := idles_loadArtifact output.spec.name output.workspace
          Os.linux.librarySuffix (afterLog verbose output.log s')
        dsimp only
        split
        · exact htold
        · refine Composes.trans htold ?_
          change Idles _ ((loadArtifact output.spec.name output.workspace
            Os.linux.librarySuffix).run.run (afterLog verbose output.log s')).2 at hloaded
          split <;> next hrun => rwa [hrun] at hloaded
  unfold runBuildCommand
  rw [run_bind]
  cases hrun : (buildSummary arguments verbose noLoad).run.run s with
  | mk result s' =>
  rw [hrun] at hsummary
  cases result with
  | error error => exact hsummary
  | ok summary =>
      cases format with
      | json => exact Composes.trans hsummary (idles_printJson _ s')
      | text => exact Composes.trans hsummary (Along.lift (idles_printText summary _) s')

/-- A summary that cannot be had makes the command fail. -/
theorem runBuildCommand_of_summary {arguments : ExtensionArguments} {verbose noLoad : Bool}
    {s : Session} {failure : Failure}
    (h : ((buildSummary arguments verbose noLoad).run.run s).1 = .error failure)
    (format : Format) (milliseconds : Nat) :
    (runBuildCommand arguments verbose noLoad format milliseconds).run.run s =
      (.error failure, ((buildSummary arguments verbose noLoad).run.run s).2) := by
  unfold runBuildCommand
  rw [run_bind]
  cases hrun : (buildSummary arguments verbose noLoad).run.run s with
  | mk result s' =>
      rw [hrun] at h
      obtain rfl : result = .error failure := h
      rfl

/-- A build that fails makes the command fail. -/
theorem runBuildCommand_error {arguments : ExtensionArguments} {verbose noLoad : Bool}
    {format : Format} {milliseconds : Nat} {s s' : Session} {error : Error}
    (h : (build (arguments.request verbose)).run.run s = (.error error, s')) :
    (runBuildCommand arguments verbose noLoad format milliseconds).run.run s =
      (.error (("Failed to build extension '" ++ arguments.name ++ "'") :: failureOf error),
        s') := by
  have hsummary : (buildSummary arguments verbose noLoad).run.run s =
      (.error (("Failed to build extension '" ++ arguments.name ++ "'") :: failureOf error),
        s') := by
    rw [run_buildSummary, h]
  rw [runBuildCommand_of_summary (congrArg Prod.fst hsummary), hsummary]

end Cli

end NativeExtension
