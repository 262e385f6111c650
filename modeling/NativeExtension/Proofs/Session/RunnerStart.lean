import NativeExtension.Proofs.Session.Anchoring
import NativeExtension.Proofs.Session.Stages

/-!
# NativeExtension.Proofs.Session.RunnerStart

**Which file runs when the runner is told to build.** The runner is checked from the caller's
directory and told to build from the workspace. A runner that is given by an absolute path is
the same file both times, and so is one that is searched for along direct paths
(`RunnerKept.absolute`, `RunnerKept.direct`). A relative path with a slash in it is followed from
another place the second time: it leads to the same file only if it means the same in both
(`RunnerKept.relative`), and to none if nothing lies there in the workspace, which ends the build
as if the runner were not installed (`buildWith_runnerKept`). So does a workspace whose path is
empty (`RunnerKept.nowhere`).
-/

namespace NativeExtension

open Session

/-! ### Up to the start of the runner -/

/-- The runner can be checked only if a program is found under its name. -/
theorem executable_of_checkRunner {runner : Runner} {s : Session}
    (h : ((checkRunner runner).run.run s).1 = .ok ()) :
    ∃ file script, s.machine.executable runner.versionQuery = .ok (file, script) := by
  cases hexecutable : s.machine.executable runner.versionQuery with
  | ok found => exact ⟨found.1, found.2, rfl⟩
  | error cause =>
      have hspawn := Machine.spawn_error_iff.mpr hexecutable
      unfold checkRunner at h
      rw [run_lift_bind, run_start] at h
      dsimp only at h
      rw [hspawn] at h
      cases h

theorem resolveProgram_of_executable {m : Machine} {runner : Runner}
    {found : Location × Script} (h : m.executable runner.versionQuery = .ok found) :
    runner.program.contains 0 = false ∧ m.resolveProgram runner.program = .ok found := by
  rw [Machine.executable_eq] at h
  split at h
  · cases h
  · next hzero =>
    obtain ⟨child, hchild, hresolve⟩ := bind_ok_iff.mp h
    obtain rfl := Except.ok.inj hchild
    refine ⟨?_, hresolve⟩
    rw [Bool.not_eq_true] at hzero
    exact (Bool.or_eq_false_iff.mp (Bool.or_eq_false_iff.mp hzero).1).1

/-! ### In the workspace -/

/-- Nothing is started from a workspace whose path is empty. -/
theorem executable_of_empty {m : Machine} {runner : Runner} {workspace : Path}
    (hzero : runner.program.contains 0 = false) (hempty : workspace.bytes = []) :
    m.executable (runner.buildCommand workspace) = .error .missing := by
  obtain rfl : workspace = ⟨[]⟩ := by rw [← hempty]
  have hclean : Machine.holdsZero (runner.buildCommand ⟨[]⟩) = false := by
    simp only [Machine.holdsZero, Runner.buildCommand, hzero]
    decide
  have hchild : m.childOf (runner.buildCommand ⟨[]⟩) = .error .missing := rfl
  rw [Machine.executable_eq, hclean, hchild]
  rfl

/-- A workspace that holds a description can be changed into, and the runner is looked for
there. -/
theorem executable_of_described {m : Machine} {runner : Runner} {workspace : Path} {bytes : Bytes}
    (hzero : runner.program.contains 0 = false) (hne : workspace.bytes ≠ [])
    (hdescription : m.Stores (buildFile workspace) bytes) :
    ∃ place, m.childOf (runner.buildCommand workspace) = .ok { m with cwd := place } ∧
      m.executable (runner.buildCommand workspace) =
        ({ m with cwd := place } : Machine).resolveProgram runner.program := by
  obtain ⟨held, id, content, hfind, -⟩ := hdescription
  have hname : Path.IsName "build.ninja" := by decide
  obtain ⟨place, fixed, hworkspace⟩ := Machine.find_of_joinText hname hne hfind
  have hchild : m.childOf (runner.buildCommand workspace) = .ok { m with cwd := place } := by
    change m.changeDir workspace = _
    rw [Machine.changeDir, hworkspace]
    rfl
  have hpath : workspace.bytes.contains 0 = false := by
    obtain ⟨_, hcheck, -⟩ := bind_ok_iff.mp (Machine.find_ok hworkspace).1
    unfold Machine.checkPath at hcheck
    split at hcheck
    · cases hcheck
    · next hclean => simpa using hclean
  have hclean : Machine.holdsZero (runner.buildCommand workspace) = false := by
    simp only [Machine.holdsZero, Runner.buildCommand, hzero, Option.map_some, Option.getD_some,
      hpath]
    decide
  refine ⟨place, hchild, ?_⟩
  rw [Machine.executable_eq, hclean, hchild]
  rfl

/-- Which file runs when the runner is told to build, given the file that was checked. -/
structure RunnerKept (m : Machine) (runner : Runner) (workspace : Path) (ready : Machine)
    (file : Location) (script : Script) : Prop where
  /-- None, if the path of the workspace is empty. -/
  nowhere : workspace.bytes = [] →
    ready.executable (runner.buildCommand workspace) = .error .missing
  /-- The one that was checked, if the runner is given by an absolute path. -/
  absolute : workspace.bytes ≠ [] → (⟨runner.program⟩ : Path).isAbsolute = true →
    ready.executable (runner.buildCommand workspace) = .ok (file, script)
  /-- Not none, if the runner is searched for along absolute paths. -/
  searched : workspace.bytes ≠ [] → slash ∉ runner.program →
    (∀ directory ∈ m.searchPath,
      (Machine.candidate directory runner.program).isAbsolute = true) →
    ready.executable (runner.buildCommand workspace) ≠ .error .missing
  /-- The one that was checked, if these paths are direct. -/
  direct : workspace.bytes ≠ [] → slash ∉ runner.program → m.files.Grounded →
    (∀ directory ∈ m.searchPath, (Machine.candidate directory runner.program).IsDirect) →
    ready.executable (runner.buildCommand workspace) = .ok (file, script)
  /-- The one to which a relative path leads from the workspace, which is the one that was checked
  exactly if the path means the same there; if the workspace is the caller's directory it is. -/
  relative : workspace.bytes ≠ [] → slash ∈ runner.program →
    (⟨runner.program⟩ : Path).isAbsolute = false →
    ∃ place : Place, place.spot = workspace.spotFrom m.cwd ∧
      ready.executable (runner.buildCommand workspace) =
        ({ ready with cwd := place } : Machine).programAt ⟨runner.program⟩ ∧
      (∀ found, ready.executable (runner.buildCommand workspace) = .ok found →
        (found.1 = file ↔ (⟨runner.program⟩ : Path).Steady m.cwd place)) ∧
      (place = m.cwd → ready.executable (runner.buildCommand workspace) = .ok (file, script))

section Kept

variable {m ready : Machine} {runner : Runner} {workspace : Path} {file : Location}
  {script : Script}

theorem slash_mem_of_isAbsolute {p : Path} (h : p.isAbsolute = true) : slash ∈ p.bytes :=
  List.mem_of_mem_head? (of_decide_eq_true h)

/-- One case for each way to name a runner. Between the check and the start there are only
edits, so a path that means the same file at both times leads to the file that was checked. -/
theorem runnerKept {bytes : Bytes}
    (hexecutable : m.executable runner.versionQuery = .ok (file, script))
    (hedits : Edits .any m ready)
    (hdescription : ready.Stores (buildFile workspace) bytes)
    (hkept : ready.files.get? file = m.files.get? file) :
    RunnerKept m runner workspace ready file script := by
  obtain ⟨hzero, hresolve⟩ := resolveProgram_of_executable hexecutable
  have hne : runner.program ≠ [] := by
    intro hnil
    rw [hnil] at hresolve
    cases hresolve
  have hbare : slash ∉ runner.program →
      Machine.Found m runner.program (file, script) m.searchPath := by
    intro hslash
    rw [Machine.resolveProgram_of_bare m hne hslash] at hresolve
    exact Machine.search_ok_iff.mp hresolve
  constructor
  case nowhere => exact executable_of_empty hzero
  case absolute =>
    intro hworkspace habsolute
    obtain ⟨place, -, hchild⟩ := executable_of_described hzero hworkspace hdescription
    have hslash : slash ∈ runner.program := slash_mem_of_isAbsolute habsolute
    rw [Machine.resolveProgram_of_slash _ hslash] at hresolve hchild
    rw [hchild, Machine.programAt_atPlace habsolute]
    exact Machine.programAt_of_edits hedits hresolve hkept
  case searched =>
    intro hworkspace hslash habsolute
    obtain ⟨place, -, hchild⟩ := executable_of_described hzero hworkspace hdescription
    obtain ⟨directory, hmem, hat⟩ := (hbare hslash).mem
    have hpath : ({ ready with cwd := place } : Machine).searchPath = m.searchPath :=
      Machine.searchPath_congr hedits.env_eq
    rw [hchild, Machine.resolveProgram_of_bare _ hne hslash, hpath,
      Machine.search_atPlace habsolute]
    exact Machine.search_ne_missing hmem (Machine.programAt_of_edits hedits hat hkept)
  case direct =>
    intro hworkspace hslash hgrounded hdirect
    obtain ⟨place, -, hchild⟩ := executable_of_described hzero hworkspace hdescription
    have hpath : ({ ready with cwd := place } : Machine).searchPath = m.searchPath :=
      Machine.searchPath_congr hedits.env_eq
    rw [hchild, Machine.resolveProgram_of_bare _ hne hslash, hpath,
      Machine.search_atPlace fun directory hmem => (hdirect directory hmem).absolute]
    exact Machine.search_ok_iff.mpr ((hbare hslash).of_edits hedits hgrounded hdirect hkept)
  case relative =>
    intro hworkspace hslash hrelative
    obtain ⟨place, hplace, hchild⟩ := executable_of_described hzero hworkspace hdescription
    have hspot := spot_of_childOf hplace
    rw [hedits.cwd_eq] at hspot
    rw [Machine.resolveProgram_of_slash _ hslash] at hresolve hchild
    refine ⟨place, hspot, hchild, ?_, ?_⟩
    · intro found hfound
      rw [hchild] at hfound
      have hthere := Machine.spot_of_programAt hfound
      have hhere := Machine.spot_of_programAt hresolve
      -- two locations are one if their spots are
      have hinjective : found.1 = file ↔ found.1.map some = file.map some :=
        ⟨fun h => by rw [h], fun h => List.map_injective_iff.mpr (fun _ _ => Option.some.inj) h⟩
      rw [hinjective, hthere, hhere, Path.Steady]
      exact eq_comm
    · intro hcwd
      have hsame : ({ ready with cwd := place } : Machine) = ready := by
        rw [hcwd, ← hedits.cwd_eq]
      rw [hchild, hsame]
      exact Machine.programAt_of_edits hedits hresolve hkept

end Kept

/-! ### How a build ends whose runner was checked -/

/-- Of all outcomes only a start that finds nothing is told as a missing runner. -/
theorem buildResult_runnerMissing {runner : Runner} {name missing : String} {workspace : Path}
    {cause : SystemError} {result : Except SystemError Outcome} :
    buildResult runner name workspace result = .error (.config (.runnerMissing missing cause)) ↔
      missing = runner.name ∧ cause = .missing ∧ result = .error .missing := by
  cases result with
  | error why =>
      unfold buildResult startFailure
      dsimp only
      split
      · next hwhy =>
        subst hwhy
        simp [eq_comm]
      · next hwhy => simp [hwhy]
  | ok outcome =>
      unfold buildResult
      dsimp only
      split <;> simp

/-- A request that is refused is at fault itself. -/
theorem isRefusal_of_ofOptions {cwd : Except SystemError Path} {options : LoadOptions}
    {error : ConfigError} (h : BuildSpec.ofOptions cwd options = .error error) :
    error.IsRefusal := by
  have hresolve : ∀ {p : Path}, resolvePath cwd p = .error error → error.IsRefusal := by
    intro p hp
    unfold resolvePath at hp
    split at hp
    · cases hp
    · obtain rfl := Except.error.inj hp
      exact .unresolvable _ _
  unfold BuildSpec.ofOptions at h
  rcases bind_error_iff.mp h with hname | ⟨_, -, h⟩
  · unfold validateName at hname
    split at hname
    · cases hname
    · obtain rfl := Except.error.inj hname
      exact .invalidName _ _
  · split at h
    · rcases bind_error_iff.mp h with hthrow | ⟨_, hthrow, -⟩
      · obtain rfl := Except.error.inj hthrow
        exact .noSources _
      · cases hthrow
    · rcases bind_error_iff.mp h with hsources | ⟨sources, -, h⟩
      · obtain ⟨p, -, hp⟩ := error_of_mapM_error hsources
        exact hresolve hp
      · rcases bind_error_iff.mp h with hincludes | ⟨includes, -, h⟩
        · obtain ⟨p, -, hp⟩ := error_of_mapM_error hincludes
          exact hresolve hp
        · cases h

/-- A prepared build leaves the description in place, after edits alone. -/
theorem prepare_ok {options : LoadOptions} {toolchain : Toolchain} {runner : Runner}
    {s ready : Session} {spec : BuildSpec} {workspace : Path}
    (h : (prepare options toolchain runner).run.run s = (.ok (spec, workspace), ready)) :
    Edits .any s.machine ready.machine ∧
      ∃ text, ready.machine.Stores (buildFile workspace) (utf8 text) := by
  have hcases := prepare_cases options toolchain runner s
  rw [h] at hcases
  cases hcases with
  | ready _ _ _ hcourse hdescription _ => exact ⟨hcourse.edits_any, _, hdescription⟩

/-- Once the runner was checked, it is not for the runner that a build cannot be prepared. -/
theorem prepare_ne_runnerMissing {options : LoadOptions} {toolchain : Toolchain}
    {runner : Runner} {s s' : Session} {name : String} {cause : SystemError}
    (hchecked : ((checkRunner runner).run.run s).1 = .ok ()) :
    (prepare options toolchain runner).run.run s ≠
      (.error (.config (.runnerMissing name cause)), s') := by
  intro h
  have hcases := prepare_cases options toolchain runner s
  rw [h] at hcases
  cases hcases with
  | unusable hrunner => cases hchecked.symm.trans hrunner
  | refused _ hrefused => cases isRefusal_of_ofOptions hrefused
  | undescribed _ hrender _ =>
      rcases Ninja.render_error hrender with hcuda | ⟨_, _, _, hcollision⟩
      · cases hcuda
      · cases hcollision

/-- **A build whose runner was checked ends as if the runner were not installed exactly if
nothing is found under the runner's name from the workspace**, and which file is found there
depends on how the runner is named. -/
theorem buildWith_runnerKept {options : LoadOptions} {toolchain : Toolchain} {runner : Runner}
    {s : Session} (hchecked : ((checkRunner runner).run.run s).1 = .ok ()) :
    ∃ file script, s.machine.executable runner.versionQuery = .ok (file, script) ∧
      (∀ name cause, ((buildWith options toolchain runner).run.run s).1 =
          .error (.config (.runnerMissing name cause)) ↔
        name = runner.name ∧ cause = .missing ∧ ∃ spec workspace ready,
          (prepare options toolchain runner).run.run s = (.ok (spec, workspace), ready) ∧
          ready.machine.executable (runner.buildCommand workspace) = .error .missing) ∧
      ∀ spec workspace ready,
        (prepare options toolchain runner).run.run s = (.ok (spec, workspace), ready) →
        ready.machine.files.get? file = s.machine.files.get? file →
        RunnerKept s.machine runner workspace ready.machine file script := by
  obtain ⟨file, script, hexecutable⟩ := executable_of_checkRunner hchecked
  refine ⟨file, script, hexecutable, ?_, ?_⟩
  · intro name cause
    rcases run_buildWith options toolchain runner s with
      ⟨error, s', hprepare, hrun⟩ | ⟨spec, workspace, ready, noted, hprepare, -, -, hrun⟩
    · rw [hrun]
      constructor
      · rintro herror
        obtain rfl := Except.error.inj herror
        exact absurd hprepare (prepare_ne_runnerMissing hchecked)
      · rintro ⟨-, -, spec, workspace, ready, hready, -⟩
        cases hprepare.symm.trans hready
    · rw [hrun]
      dsimp only
      rw [map_error_iff, buildResult_runnerMissing, Machine.spawn_error_iff]
      constructor
      · rintro ⟨hname, hcause, hmissing⟩
        exact ⟨hname, hcause, spec, workspace, ready, hprepare, hmissing⟩
      · rintro ⟨hname, hcause, spec', workspace', ready', hready, hmissing⟩
        cases hprepare.symm.trans hready
        exact ⟨hname, hcause, hmissing⟩
  · intro spec workspace ready hprepare hkept
    obtain ⟨hedits, text, hdescription⟩ := prepare_ok hprepare
    exact runnerKept hexecutable hedits hdescription hkept

/-- A machine with a runner below the current directory, and a directory to build in. -/
def tooledMachine : Machine where
  files :=
    { entries := [([utf8 "bin"], .directory false),
        ([utf8 "ninja", utf8 "bin"], .file 0 (.program {})), ([utf8 "w"], .directory false)]
      nextId := 1 }
  cwd := ⟨[], 0⟩
  env := []

theorem tooledMachine_quiet : tooledMachine.Quiet :=
  Machine.quiet_of_entries rfl (by simp [tooledMachine])

/-- The runner by its path from the current directory. -/
def relativeRunner : Runner := ⟨utf8 "bin/ninja"⟩

/-- A request to build in that directory. -/
def placedOptions : LoadOptions := { plainOptions with buildDirectory := some (.ofText "/w") }

/-- All that comes before the runner is started there. -/
def tooledPreparation : Except Error (BuildSpec × Path) × Session :=
  (prepare placedOptions {} relativeRunner).run.run { machine := tooledMachine }

/-- The runner passes its check, is as it was when all stands ready, and the build ends as if it
were not installed. -/
theorem buildWith_runnerKept_relative :
    ((checkRunner relativeRunner).run.run { machine := tooledMachine }).1 = .ok () ∧
      tooledPreparation.2.machine.files.get? [utf8 "ninja", utf8 "bin"] =
        tooledMachine.files.get? [utf8 "ninja", utf8 "bin"] ∧
      ((buildWith placedOptions {} relativeRunner).run.run { machine := tooledMachine }).1 =
        .error (.config (.runnerMissing "bin/ninja" .missing)) := by
  have hchecked : ((checkRunner relativeRunner).run.run { machine := tooledMachine }).1 =
      .ok () := by
    decide +kernel
  have hresult : tooledPreparation.1 =
      .ok (⟨"ops", [.ofText "/x.cpp"], [], [], [], []⟩, .ofText "/w") := by
    decide +kernel
  have hmissing : tooledPreparation.2.machine.executable
      (relativeRunner.buildCommand (.ofText "/w")) = .error .missing := by
    decide +kernel
  have hkept : tooledPreparation.2.machine.files.get? [utf8 "ninja", utf8 "bin"] =
      tooledMachine.files.get? [utf8 "ninja", utf8 "bin"] := by
    decide +kernel
  refine ⟨hchecked, hkept, ?_⟩
  obtain ⟨file, script, -, hends, -⟩ := @buildWith_runnerKept placedOptions {} relativeRunner
    { machine := tooledMachine } hchecked
  have hname : "bin/ninja" = relativeRunner.name := by decide +kernel
  cases hrun : tooledPreparation with
  | mk result ready =>
  rw [hrun] at hresult hmissing
  obtain rfl : result = _ := hresult
  rw [tooledPreparation] at hrun
  exact (hends _ _).mpr ⟨hname, rfl, _, _, ready, hrun, hmissing⟩

end NativeExtension
