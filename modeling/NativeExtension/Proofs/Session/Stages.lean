import NativeExtension.Proofs.Ninja.Settling
import NativeExtension.Proofs.Session.BuildCourse

/-!
# NativeExtension.Proofs.Session.Stages

**A build that fails has done no more than the stages before the failure.** If the runner cannot
be used or the request is refused, nothing was done but to ask the runner for its version; if
there is no description of what was asked for, the one that was there is as it was; and when the
runner is told to build, the description and the bundled headers are in place
(`buildWith_staged`).

The description is safe as long as nothing that a build makes on its way passes where it lies.
A workspace or an include directory whose path passes through the description and comes back is
the exception: the directory that such a path asks for is made before the build fails
(`buildWith_unstaged`).
-/

namespace NativeExtension

open Session

/-- The request itself is at fault. -/
inductive ConfigError.IsRefusal : ConfigError → Prop where
  | invalidName (name : String) (fault : NameFault) : IsRefusal (.invalidName name fault)
  | noSources (name : String) : IsRefusal (.noSources name)
  | unresolvable (path : Path) (cause : SystemError) : IsRefusal (.unresolvable path cause)

/-- There is no description of what was asked for. -/
inductive ConfigError.IsUndescribable : ConfigError → Prop where
  | cudaRootMissing : IsUndescribable .cudaRootMissing
  | objectCollision (object : String) (first second : Path) :
      IsUndescribable (.objectCollision object first second)

/-- Nothing was done but to ask the runner for its version. -/
structure OnlyAsked (s : Session) (runner : Runner) (after : Session) : Prop where
  queried : after = s.queried runner
  launches : after.launches = s.launches ++ [runner.versionQuery]
  verdicts : after.verdicts = s.verdicts
  machine : s.machine.Quiet → after.machine = s.machine

theorem onlyAsked (s : Session) (runner : Runner) : OnlyAsked s runner (s.queried runner) where
  queried := rfl
  launches := launches_start _ _
  verdicts := rfl
  machine := fun hquiet => hquiet.spawn _

/-! ### The stages of a build -/

/-- On the machine all stands ready for the runner to build. -/
structure StandsReady (options : LoadOptions) (toolchain : Toolchain) (s : Session)
    (spec : BuildSpec) (ready : Machine) : Prop where
  checked : BuildSpec.ofOptions s.machine.currentDir options = .ok spec
  description : ∃ text, Ninja.render spec toolchain = .ok text ∧
    ready.Stores (buildFile (workspacePath s.machine options)) (utf8 text)
  headers : ∀ directory ∈ toolchain.bundledIncludes,
    ready.Stores (headerIn directory) (utf8 extensionHeader)

/-- How far a build has come when it ends so. -/
structure Staged (options : LoadOptions) (toolchain : Toolchain) (runner : Runner) (s : Session)
    (result : Except Error BuildOutput) (after : Session) : Prop where
  unusable : ∀ error, ((checkRunner runner).run.run s).1 = .error error →
    result = .error (.config error) ∧ OnlyAsked s runner after
  refused : ∀ error, result = .error (.config error) → error.IsRefusal →
    OnlyAsked s runner after
  undescribed : ∀ error, result = .error (.config error) → error.IsUndescribable →
    Course (stagingLicence s.machine options toolchain.bundledIncludes) asksVersion s after ∧
    ∀ location, LeadsTo s.machine.cwd (buildFile (workspacePath s.machine options)) location →
      (options.buildDirectory = none → ¬ LeadsThrough s.machine.cwd
        (workspaceOf s.machine.extensionsRoot options.name) location) →
      (∀ directory ∈ toolchain.bundledIncludes,
        ¬ LeadsThrough s.machine.cwd directory location) →
      ¬ (stagingLicence s.machine options toolchain.bundledIncludes).Covers location ∧
        (s.machine.Quiet →
          after.machine.files.get? location = s.machine.files.get? location)
  started : ∀ new launch, after.launches = s.launches ++ new → launch ∈ new →
    launch.arguments = [utf8 "-v"] →
    launch = runner.buildCommand (workspacePath s.machine options) ∧
    ∃ spec ready, StandsReady options toolchain s spec ready ∧
      after.machine = (ready.spawn launch).2 ∧
      ∀ outcome, (ready.spawn launch).1 = .ok outcome →
        result =
          if outcome.ending.success then
            .ok { spec := spec, workspace := workspacePath s.machine options,
                  buildFile := buildFile (workspacePath s.machine options),
                  log := shown outcome.merged }
          else .error (.build { name := options.name, log := shown outcome.merged,
                                code := outcome.ending.code? })

/-- The places that staging may change are not that of the description, unless a path on the way
passes there. -/
theorem staging_spares {m : Machine} {options : LoadOptions} {bundled : List Path}
    {workspace : Path} {location : Location}
    (hleads : LeadsTo m.cwd (buildFile workspace) location)
    (hworkspace : options.buildDirectory = none →
      ¬ LeadsThrough m.cwd (workspaceOf m.extensionsRoot options.name) location)
    (hbundled : ∀ directory ∈ bundled, ¬ LeadsThrough m.cwd directory location) :
    ¬ (stagingLicence m options bundled).Covers location := by
  rintro ((⟨hdefault, hthrough⟩ | ⟨directory, hdirectory, hthrough⟩) |
    ⟨bytes, ⟨directory, -, hheader⟩, -⟩)
  · exact hworkspace hdefault hthrough
  · rcases leadsThrough_headerIn hthrough with hthrough | hspot | hheader
    · exact hbundled directory hdirectory hthrough
    · have hlast := Path.spotFrom_joinText workspace (by decide : Path.IsName "build.ninja") m.cwd
      rw [LeadsTo, buildFile, hlast, hspot] at hleads
      exact absurd (Option.some.inj (List.cons.inj hleads).1) (by decide)
    · exact not_leadsTo_both hheader hleads
  · exact not_leadsTo_both hheader hleads

/-- Nothing on a course of queries is told to build. -/
theorem not_told_on_course {licence : Licence} {s s' : Session}
    (h : Course licence asksVersion s s') {new : List Launch} {launch : Launch}
    (hnew : s'.launches = s.launches ++ new) (hlaunch : launch ∈ new) :
    launch.arguments ≠ [utf8 "-v"] := by
  obtain ⟨others, hothers, hasks⟩ := h.launches_eq
  obtain rfl := List.append_cancel_left (hnew.symm.trans hothers)
  exact fun htold => not_asksVersion htold (hasks launch hlaunch)

section Failures

variable {options : LoadOptions} {toolchain : Toolchain} {runner : Runner} {s s' : Session}

/-- What is known of a failure on the course before the runner is told to build. -/
theorem staged_of_course {error : Error}
    (hcourse : Course (stagingLicence s.machine options toolchain.bundledIncludes) asksVersion s s')
    (hunusable : ∀ cause, ((checkRunner runner).run.run s).1 = .error cause →
      error = .config cause ∧ OnlyAsked s runner s')
    (hrefused : ∀ cause, error = .config cause → cause.IsRefusal → OnlyAsked s runner s') :
    Staged options toolchain runner s (.error error) s' where
  unusable := by
    intro cause hcause
    obtain ⟨rfl, hasked⟩ := hunusable cause hcause
    exact ⟨rfl, hasked⟩
  refused := fun cause herror => hrefused cause (Except.error.inj herror)
  undescribed := by
    refine fun _ _ _ => ⟨hcourse, ?_⟩
    intro location hleads hworkspace hbundled
    have hspared := staging_spares hleads hworkspace hbundled
    exact ⟨hspared, fun hquiet => hcourse.get?_of_quiet hquiet hspared⟩
  started := by
    intro new launch hnew hlaunch htold
    exact absurd htold (not_told_on_course hcourse hnew hlaunch)

/-- A failed preparation ended in one of its stages, and each stage has its own field. -/
theorem staged_of_preparation {error : Error}
    (h : Preparation options toolchain runner s (.error error) s') :
    Staged options toolchain runner s (.error error) s' := by
  cases h with
  | unusable hrunner =>
      refine staged_of_course (course_queried runner s) ?_ fun _ _ _ => onlyAsked s runner
      intro cause hcause
      obtain rfl := Except.error.inj (hrunner.symm.trans hcause)
      exact ⟨rfl, onlyAsked s runner⟩
  | refused hrunner hrefused =>
      refine staged_of_course (course_queried runner s) ?_ fun _ _ _ => onlyAsked s runner
      intro cause hcause
      cases hrunner.symm.trans hcause
  | unwritable hrunner hcourse =>
      refine staged_of_course hcourse ?_ ?_
      · intro cause hcause
        cases hrunner.symm.trans hcause
      · intro cause herror
        cases herror
  | undescribed hrunner hrender hcourse =>
      refine staged_of_course hcourse ?_ ?_
      · intro cause hcause
        cases hrunner.symm.trans hcause
      · intro cause herror hrefusal
        obtain rfl := Error.config.inj herror
        -- a description that is missing is no fault of the request
        rcases Ninja.render_error hrender with rfl | ⟨object, first, second, rfl⟩ <;>
          cases hrefusal

/-- The runner's own run gives no other fault of the configuration than that it is missing. -/
theorem buildResult_config {name : String} {workspace : Path}
    {outcome : Except SystemError Outcome} {error : ConfigError}
    (h : buildResult runner name workspace outcome = .error (.config error)) :
    ∃ cause, error = .runnerMissing runner.name cause := by
  cases outcome with
  | error cause =>
      have hfailure : startFailure runner workspace cause = .config error := Except.error.inj h
      unfold startFailure at hfailure
      split at hfailure
      · exact ⟨cause, (Error.config.inj hfailure).symm⟩
      · cases hfailure
  | ok outcome =>
      unfold buildResult at h
      dsimp only at h
      split at h
      · cases h
      · cases Except.error.inj h

/-- What is known of a build whose runner was told to build. -/
theorem staged_of_ready {spec : BuildSpec} {ready noted : Session}
    (hready : Preparation options toolchain runner s
      (.ok (spec, workspacePath s.machine options)) ready)
    (hmachine : noted.machine = ready.machine) (hlaunches : noted.launches = ready.launches) :
    Staged options toolchain runner s
      ((buildResult runner spec.name (workspacePath s.machine options)
        (ready.machine.spawn (runner.buildCommand (workspacePath s.machine options))).1).map
        fun log => { spec := spec, workspace := workspacePath s.machine options,
                     buildFile := buildFile (workspacePath s.machine options), log := log })
      ((start (runner.buildCommand (workspacePath s.machine options))).run noted).2 := by
  cases hready with
  | ready hrunner hchecked hrender hcourse hdescription hheaders =>
  have hname := BuildSpec.name_of_ofOptions hchecked
  constructor
  case unusable =>
    intro error hcause
    cases hrunner.symm.trans hcause
  case refused =>
    intro error herror hrefusal
    obtain ⟨cause, rfl⟩ := buildResult_config (map_error_iff.mp herror)
    cases hrefusal
  case undescribed =>
    intro error herror hundescribable
    obtain ⟨cause, rfl⟩ := buildResult_config (map_error_iff.mp herror)
    cases hundescribable
  case started =>
    intro new launch hnew hlaunch htold
    obtain ⟨queries, hqueries, hasks⟩ := hcourse.launches_eq
    rw [launches_start, hlaunches, hqueries, List.append_assoc] at hnew
    obtain rfl := List.append_cancel_left hnew
    have hlast : launch = runner.buildCommand (workspacePath s.machine options) := by
      rcases List.mem_append.mp hlaunch with hquery | hlast
      · exact absurd (hasks launch hquery) (not_asksVersion htold)
      · exact List.mem_singleton.mp hlast
    refine ⟨hlast, spec, ready.machine, ⟨hchecked, ⟨_, hrender, hdescription⟩, hheaders⟩, ?_, ?_⟩
    · rw [run_start, hmachine, hlast]
    · intro outcome houtcome
      rw [← hlast, houtcome, buildResult, hname]
      split <;> rfl

end Failures

/-- **A build that fails has done no more than the stages before the failure**, and the runner is
told to build when all stands ready. -/
theorem buildWith_staged (options : LoadOptions) (toolchain : Toolchain) (runner : Runner)
    (s : Session) :
    Staged options toolchain runner s ((buildWith options toolchain runner).run.run s).1
      ((buildWith options toolchain runner).run.run s).2 := by
  have hprepared := prepare_cases options toolchain runner s
  rcases run_buildWith options toolchain runner s with
    ⟨error, s', hprepare, hrun⟩ |
      ⟨spec, workspace, ready, noted, hprepare, hmachine, hlaunches, hrun⟩
  · rw [hprepare] at hprepared
    rw [hrun]
    exact staged_of_preparation hprepared
  · rw [hprepare] at hprepared
    rw [hrun]
    have hworkspace : workspace = workspacePath s.machine options := by
      cases hprepared
      rfl
    subst hworkspace
    exact staged_of_ready hprepared hmachine hlaunches

/-- Two sources of one name. -/
def collidingOptions : LoadOptions where
  name := "ops"
  sources := [.ofText "/a/x.cpp", .ofText "/b/x.cpp"]

/-- A runner that only ends well. -/
def idleRunner : Runner := ⟨utf8 "/ninja"⟩

/-- A machine with that runner, and a description in the directory `/w`. -/
def describedMachine : Machine where
  files :=
    { entries := [([utf8 "ninja"], .file 0 (.program {})), ([utf8 "w"], .directory false),
        ([utf8 "build.ninja", utf8 "w"], .file 1 (.data (utf8 "earlier")))]
      nextId := 2 }
  cwd := ⟨[], 0⟩
  env := []

/-- A build of the colliding sources there. -/
def describedBuild : Except Error BuildOutput × Session :=
  (buildWith { collidingOptions with buildDirectory := some (.ofText "/w") }
    { bundledIncludes := [.ofText "/inc"] } idleRunner).run.run { machine := describedMachine }

/-- The earlier description survives a request that cannot be described, though the bundled
header has been put in place. -/
theorem buildWith_staged_colliding :
    describedBuild.1 =
        .error (.config (.objectCollision "x.o" (.ofText "/a/x.cpp") (.ofText "/b/x.cpp"))) ∧
      describedBuild.2.machine.files.get? [utf8 "build.ninja", utf8 "w"] =
        some (.file 1 (.data (utf8 "earlier"))) ∧
      describedBuild.2.machine.files.get?
        [utf8 "extension.h", utf8 "extbuild", utf8 "inc"] ≠ none := by
  have hresult : describedBuild.1 =
      .error (.config (.objectCollision "x.o" (.ofText "/a/x.cpp") (.ofText "/b/x.cpp"))) := by
    decide +kernel
  have hquiet : describedMachine.Quiet := Machine.quiet_of_entries rfl (by simp [describedMachine])
  have hstaged := buildWith_staged { collidingOptions with buildDirectory := some (.ofText "/w") }
    { bundledIncludes := [.ofText "/inc"] } idleRunner { machine := describedMachine }
  rw [← describedBuild] at hstaged
  obtain ⟨-, hspared⟩ := hstaged.undescribed _ hresult (.objectCollision _ _ _)
  obtain ⟨-, hsame⟩ := hspared [utf8 "build.ninja", utf8 "w"] (by decide) nofun (by decide)
  refine ⟨hresult, (hsame hquiet).trans (by decide), by decide +kernel⟩

/-- A machine with that runner, whose workspaces lie below a path that passes through the
description of one of them. -/
def detourMachine : Machine where
  files := { entries := [([utf8 "ninja"], .file 0 (.program {}))], nextId := 1 }
  cwd := ⟨[], 0⟩
  env := [("EXTBUILD_EXTENSIONS_DIR", utf8 "/t/ops/build.ninja/../..")]

/-- A build of the colliding sources there. -/
def detourBuild : Except Error BuildOutput × Session :=
  (buildWith collidingOptions {} idleRunner).run.run { machine := detourMachine }

/-- A build that cannot be described leaves a directory where the description belongs, if the path
of all workspaces passes there. -/
theorem buildWith_unstaged :
    detourBuild.1 =
        .error (.config (.objectCollision "x.o" (.ofText "/a/x.cpp") (.ofText "/b/x.cpp"))) ∧
      LeadsTo detourMachine.cwd (buildFile (workspacePath detourMachine collidingOptions))
        [utf8 "build.ninja", utf8 "ops", utf8 "t"] ∧
      detourMachine.files.get? [utf8 "build.ninja", utf8 "ops", utf8 "t"] = none ∧
      detourBuild.2.machine.files.get? [utf8 "build.ninja", utf8 "ops", utf8 "t"] =
        some (.directory false) := by
  refine ⟨?_, ?_, ?_, ?_⟩ <;> decide +kernel

end NativeExtension
