import NativeExtension.Proofs.Session.Preparation

/-!
# NativeExtension.Proofs.Session.BuildCourse

**The course of a build.** A build that is prepared starts the runner in its workspace, and its
result is what the runner's outcome means (`run_buildWith`). However it ends, it has changed no
more than its licence covers, but for what the programs did that it started (`course_buildWith`);
looking for the toolchain of the machine before does not add to that (`course_build`).
-/

namespace NativeExtension

open Session

/-! ### Running the build -/

/-- What a run of the runner means for the build. -/
def buildResult (runner : Runner) (name : String) (workspace : Path) :
    Except SystemError Outcome → Except Error String
  | .error cause => .error (startFailure runner workspace cause)
  | .ok outcome =>
    if outcome.ending.success then .ok (shown outcome.merged)
    else .error (.build
      { name := name, log := shown outcome.merged, code := outcome.ending.code? })

/-- To tell the runner is to report and to start it; the result is read off its outcome. -/
theorem run_runBuild (runner : Runner) (name : String) (workspace : Path) (s : Session) :
    ∃ noted : Session, noted.machine = s.machine ∧ noted.launches = s.launches ∧
      (runBuild runner name workspace).run.run s =
        (buildResult runner name workspace (s.machine.spawn (runner.buildCommand workspace)).1,
          ((start (runner.buildCommand workspace)).run noted).2) := by
  refine ⟨((report .info .runner ("building extension " ++ name)
    [("runner", runner.name), ("workspace", workspace.display)]).run s).2,
    rfl, by simp [launches], ?_⟩
  unfold runBuild
  rw [run_lift_bind, run_lift_bind, run_start, run_report]
  dsimp only
  cases (s.machine.spawn (runner.buildCommand workspace)).1 with
  | error cause => rfl
  | ok outcome =>
      dsimp only [buildResult]
      by_cases hsuccess : outcome.ending.success = true
      · rw [if_pos hsuccess, if_pos hsuccess]
        rfl
      · rw [if_neg hsuccess, if_neg hsuccess]
        rfl

theorem launches_step (verbose : Bool) (message : String) (s : Session) :
    ((step verbose message).run s).2.launches = s.launches := by
  unfold step
  split
  · simp [launches]
  · rfl

/-- A build either ends with its preparation, or goes on from a prepared session to tell the
runner. -/
theorem run_buildWith (options : LoadOptions) (toolchain : Toolchain) (runner : Runner)
    (s : Session) :
    (∃ error s', (prepare options toolchain runner).run.run s = (.error error, s') ∧
      (buildWith options toolchain runner).run.run s = (.error error, s')) ∨
    ∃ spec workspace ready noted,
      (prepare options toolchain runner).run.run s = (.ok (spec, workspace), ready) ∧
      noted.machine = ready.machine ∧ noted.launches = ready.launches ∧
      (buildWith options toolchain runner).run.run s =
        ((buildResult runner spec.name workspace
            (ready.machine.spawn (runner.buildCommand workspace)).1).map fun log =>
          { spec := spec, workspace := workspace, buildFile := buildFile workspace, log := log },
          ((start (runner.buildCommand workspace)).run noted).2) := by
  unfold buildWith
  rw [run_bind]
  cases hprepare : (prepare options toolchain runner).run.run s with
  | mk result ready =>
  cases result with
  | error error => exact Or.inl ⟨error, ready, rfl, rfl⟩
  | ok prepared =>
  obtain ⟨spec, workspace⟩ := prepared
  dsimp only
  rw [run_lift_bind, run_bind]
  obtain ⟨noted, hmachine, hlaunches, hrun⟩ := run_runBuild runner spec.name workspace
    ((step options.verbose ("Building extension module " ++ spec.name)).run ready).2
  rw [step_machine] at hmachine hrun
  rw [launches_step] at hlaunches
  refine Or.inr ⟨spec, workspace, ready, noted, rfl, hmachine, hlaunches, ?_⟩
  rw [hrun]
  cases buildResult runner spec.name workspace
    (ready.machine.spawn (runner.buildCommand workspace)).1 <;> rfl

/-- Up to the runner a build makes and writes only what its licence allows, and asks only for
versions. -/
theorem Preparation.course {options : LoadOptions} {toolchain : Toolchain} {runner : Runner}
    {s s' : Session} {result : Except Error (BuildSpec × Path)}
    (h : Preparation options toolchain runner s result s') :
    Course (buildLicence s.machine options toolchain.bundledIncludes) asksVersion s s' := by
  have hstaging := staging_within_build s.machine options toolchain.bundledIncludes
  cases h with
  | unusable _ => exact course_queried runner s
  | refused _ _ => exact course_queried runner s
  | unwritable _ hcourse => exact hcourse.mono hstaging fun _ h => h
  | undescribed _ _ hcourse => exact hcourse.mono hstaging fun _ h => h
  | ready _ _ _ hcourse _ _ => exact hcourse

/-- All that a build starts: the runner and the compiler are asked for their version, and the runner
is told to build. -/
def BuildLaunch (options : LoadOptions) (toolchain : Toolchain) (runner : Runner) (m : Machine)
    (launch : Launch) : Prop :=
  launch = runner.versionQuery ∨ launch = versionQuery toolchain.cxx ∨
    launch = runner.buildCommand (workspacePath m options)

namespace BuildLaunch

variable (options : LoadOptions) (toolchain : Toolchain) (runner : Runner) (m : Machine)

theorem checked : BuildLaunch options toolchain runner m runner.versionQuery := Or.inl rfl

theorem judged : BuildLaunch options toolchain runner m (versionQuery toolchain.cxx) :=
  Or.inr (Or.inl rfl)

theorem told :
    BuildLaunch options toolchain runner m (runner.buildCommand (workspacePath m options)) :=
  Or.inr (Or.inr rfl)

end BuildLaunch

theorem buildLaunch_congr {m m' : Machine} (henv : m'.env = m.env) (options : LoadOptions)
    (toolchain : Toolchain) (runner : Runner) :
    BuildLaunch options toolchain runner m' = BuildLaunch options toolchain runner m := by
  unfold BuildLaunch
  rw [workspacePath_congr henv]

namespace AllowsBuild

variable {m : Machine} {options : LoadOptions} {toolchain : Toolchain} {runner : Runner}
  {licence : Licence} {asks : Launch → Prop} {s : Session}

theorem describe (h : AllowsBuild m options toolchain.bundledIncludes licence) (spec : BuildSpec) :
    Along (Under m licence asks)
      (describe options spec (workspacePath m options) toolchain).run := by
  refine Along.attempt_bind (h.installHeaders fun _ hmem => hmem) fun _ => ?_
  refine Along.attempt_bind (Along.lift (courses_step _ _)) fun _ => ?_
  refine Along.attempt_bind (Along.attempt_bind (Along.attempt _) fun text => ?_) fun _ =>
    Along.attempt_pure _
  exact courses_writeFile (h.description _)

/-- The course of what comes before the runner is told to build. -/
theorem course_prepare (h : AllowsBuild s.machine options toolchain.bundledIncludes licence)
    (hrunner : asks runner.versionQuery) (hcompiler : asks (versionQuery toolchain.cxx)) :
    Course licence asks s ((prepare options toolchain runner).run.run s).2 := by
  have hqueried : Course licence asks s (s.queried runner) := Course.of_move (.ran hrunner)
  rw [run_prepare]
  cases ((checkRunner runner).run.run s).1 with
  | error error => exact hqueried
  | ok _ =>
  dsimp only
  cases hchecked : BuildSpec.ofOptions s.machine.currentDir options with
  | error error => exact hqueried
  | ok spec =>
  dsimp only
  rw [BuildSpec.name_of_ofOptions hchecked]
  have hresolve := hqueried.trans
    (h.resolveWorkspace (s.queried runner) hqueried.cwd_eq hqueried.env_eq)
  change Course _ _ _ ((resolveWorkspace options.name options.buildDirectory).run.run
    (s.queried runner)).2 at hresolve
  cases hresolved : (resolveWorkspace options.name options.buildDirectory).run.run
      (s.queried runner) with
  | mk resolved made =>
  rw [hresolved] at hresolve
  cases resolved with
  | error error => exact hresolve
  | ok workspace =>
  obtain rfl : workspace = workspacePath s.machine options :=
    (resolveWorkspace_ok hresolved).trans (workspacePath_congr hqueried.env_eq options)
  have hadvised := hresolve.trans (courses_advise options spec (workspacePath s.machine options)
    hcompiler made hresolve.cwd_eq hresolve.env_eq)
  exact hadvised.trans (h.describe spec _ hadvised.cwd_eq hadvised.env_eq)

/-- **The course of a build that may do what it does**, however it ends, with all that it
starts. -/
theorem course_buildWith (h : AllowsBuild s.machine options toolchain.bundledIncludes licence)
    (runner : Runner) :
    Course licence (BuildLaunch options toolchain runner s.machine) s
      ((buildWith options toolchain runner).run.run s).2 := by
  have hcourse : Course licence (BuildLaunch options toolchain runner s.machine) s
      ((prepare options toolchain runner).run.run s).2 :=
    h.course_prepare (BuildLaunch.checked ..) (BuildLaunch.judged ..)
  rcases run_buildWith options toolchain runner s with
    ⟨error, s', hprepare, hrun⟩ |
      ⟨spec, workspace, ready, noted, hprepare, hmachine, hlaunches, hrun⟩
  · rw [hprepare] at hcourse
    rw [hrun]
    exact hcourse
  · have hprepared := prepare_cases options toolchain runner s
    rw [hprepare] at hcourse hprepared
    have hworkspace : workspace = workspacePath s.machine options := by
      cases hprepared
      rfl
    subst hworkspace
    rw [hrun]
    exact (hcourse.trans (Course.of_move (.noted hmachine hlaunches))).trans
      (Course.of_move (.ran (BuildLaunch.told ..)))

end AllowsBuild

/-- **The course of a build**, however it ends. -/
theorem course_buildWith (options : LoadOptions) (toolchain : Toolchain) (runner : Runner)
    (s : Session) :
    Course (buildLicence s.machine options toolchain.bundledIncludes) anyLaunch s
      ((buildWith options toolchain runner).run.run s).2 :=
  (allows_build.course_buildWith runner).mono ⟨fun _ h => h, fun _ _ h => h⟩
    fun _ _ => trivial

/-! ### With the toolchain of this machine -/

/-- Looking for the toolchain only starts programs. -/
theorem course_detectToolchain (s : Session) :
    Course Licence.none anyLaunch s (detectToolchain.run s).2 :=
  courses_detectToolchain (m := s.machine) trivial s rfl rfl

theorem cwd_detectToolchain (s : Session) :
    (detectToolchain.run s).2.machine.cwd = s.machine.cwd := (course_detectToolchain s).cwd_eq

theorem env_detectToolchain (s : Session) :
    (detectToolchain.run s).2.machine.env = s.machine.env := (course_detectToolchain s).env_eq

theorem bundledIncludes_detectToolchain (s : Session) :
    (detectToolchain.run s).1.bundledIncludes = [s.machine.bundledIncludeDir] := by
  rw [Machine.bundledIncludeDir, ← extensionsRoot_congr (env_detectToolchain s)]
  rfl

theorem run_build (options : LoadOptions) (s : Session) :
    (build options).run.run s =
      (buildWith options (detectToolchain.run s).1 (detectToolchain.run s).2.machine.runner).run.run
        (detectToolchain.run s).2 := by
  unfold build
  rw [run_lift_bind, run_lift_bind, run_getMachine]

/-- **The course of a build with the toolchain of this machine**, however it ends. -/
theorem course_build (options : LoadOptions) (s : Session) :
    Course (buildLicence s.machine options [s.machine.bundledIncludeDir]) anyLaunch s
      ((build options).run.run s).2 := by
  have hbuilt := course_buildWith options (detectToolchain.run s).1
    (detectToolchain.run s).2.machine.runner (detectToolchain.run s).2
  rw [bundledIncludes_detectToolchain,
    buildLicence_congr (cwd_detectToolchain s) (env_detectToolchain s)] at hbuilt
  rw [run_build]
  exact ((course_detectToolchain s).mono (Licence.none_within _) fun _ h => h).trans hbuilt

end NativeExtension