import NativeExtension.Proofs.Session.BuildCourse

/-!
# NativeExtension.Proofs.Session.Completion

**What a build has gone through when the runner is told to build.** The request was checked and
described, and the description stands in the workspace (`toldReady_of_buildWith`); if the build
succeeds, the runner has ended well as well (`built_of_buildWith`).
-/

namespace NativeExtension

open Session

section Told

variable {options : LoadOptions} {toolchain : Toolchain} {runner : Runner} {s : Session}

/-- The runner is told to build, as the last thing that is started, when the description of the
request stands in its workspace. -/
structure ToldReady (options : LoadOptions) (toolchain : Toolchain) (runner : Runner) (s : Session)
    (launch : Launch) (after : Session) (spec : BuildSpec) (text : String) (ready : Session) :
    Prop where
  prepared : (prepare options toolchain runner).run.run s =
    (.ok (spec, workspacePath s.machine options), ready)
  checked : BuildSpec.ofOptions s.machine.currentDir options = .ok spec
  rendered : Ninja.render spec toolchain = .ok text
  stored : ready.machine.Stores (buildFile (workspacePath s.machine options)) (utf8 text)
  told : launch = runner.buildCommand (workspacePath s.machine options)
  launches : after.launches = ready.launches ++ [launch]
  machine : after.machine = (ready.machine.spawn launch).2

/-- **Whenever the runner is told to build, the description stands ready.** -/
theorem toldReady_of_buildWith
    (hfresh : ∀ launch ∈ s.launches, launch.arguments ≠ [utf8 "-v"]) {launch : Launch}
    (hmem : launch ∈ ((buildWith options toolchain runner).run.run s).2.launches)
    (htold : launch.arguments = [utf8 "-v"]) :
    ∃ spec text ready, ToldReady options toolchain runner s launch
      ((buildWith options toolchain runner).run.run s).2 spec text ready := by
  have hprepared := prepare_cases options toolchain runner s
  have huntold : launch ∉ ((prepare options toolchain runner).run.run s).2.launches := by
    obtain ⟨queries, hqueries, hasks⟩ := hprepared.course.launches_eq
    rw [hqueries]
    intro hmem
    rcases List.mem_append.mp hmem with hearlier | hquery
    · exact hfresh launch hearlier htold
    · exact not_asksVersion htold (hasks launch hquery)
  rcases run_buildWith options toolchain runner s with
    ⟨error, s', hprepare, hrun⟩ |
      ⟨spec, workspace, ready, noted, hprepare, hmachine, hlaunches, hrun⟩
  · rw [hrun] at hmem
    rw [hprepare] at huntold
    exact absurd hmem huntold
  · rw [hprepare] at hprepared huntold
    have hworkspace : workspace = workspacePath s.machine options := by
      cases hprepared
      rfl
    subst hworkspace
    cases hprepared with
    | @ready _ text _ _ hchecked hrender hcourse hdescription _ =>
    have hlaunched := launches_start (runner.buildCommand (workspacePath s.machine options)) noted
    rw [hlaunches] at hlaunched
    rw [hrun] at hmem ⊢
    dsimp only at hmem ⊢
    rw [hlaunched] at hmem
    have hlast : launch = runner.buildCommand (workspacePath s.machine options) :=
      List.mem_singleton.mp ((List.mem_append.mp hmem).resolve_left huntold)
    exact ⟨spec, text, ready,
      { prepared := hprepare, checked := hchecked, rendered := hrender, stored := hdescription,
        told := hlast, launches := by rw [hlaunched, hlast],
        machine := by rw [run_start, hmachine, hlast] }⟩

/-- What a build that succeeded has gone through: all stood ready, and the runner ended well. -/
structure Built (options : LoadOptions) (toolchain : Toolchain) (runner : Runner) (s : Session)
    (output : BuildOutput) (after : Session) (text : String) (ready : Session) : Prop where
  usable : ((checkRunner runner).run.run s).1 = .ok ()
  prepared : (prepare options toolchain runner).run.run s =
    (.ok (output.spec, output.workspace), ready)
  checked : BuildSpec.ofOptions s.machine.currentDir options = .ok output.spec
  workspace : output.workspace = workspacePath s.machine options
  file : output.buildFile = buildFile output.workspace
  rendered : Ninja.render output.spec toolchain = .ok text
  course : Course (buildLicence s.machine options toolchain.bundledIncludes) asksVersion s ready
  stored : ready.machine.Stores output.buildFile (utf8 text)
  headers : ∀ directory ∈ toolchain.bundledIncludes,
    ready.machine.Stores (headerIn directory) (utf8 extensionHeader)
  ended : ∃ outcome, (ready.machine.spawn (runner.buildCommand output.workspace)).1 = .ok outcome ∧
    outcome.ending.success = true ∧ output.log = shown outcome.merged
  machine : after.machine = (ready.machine.spawn (runner.buildCommand output.workspace)).2

/-- **A build succeeds only if all stood ready and the runner ended well.** -/
theorem built_of_buildWith {output : BuildOutput} {after : Session}
    (h : (buildWith options toolchain runner).run.run s = (.ok output, after)) :
    ∃ text ready, Built options toolchain runner s output after text ready := by
  have hprepared := prepare_cases options toolchain runner s
  rcases run_buildWith options toolchain runner s with
    ⟨error, s', -, hrun⟩ | ⟨spec, workspace, ready, noted, hprepare, hmachine, -, hrun⟩
  · rw [hrun] at h
    cases h
  · rw [hprepare] at hprepared
    rw [hrun] at h
    obtain ⟨hresult, rfl⟩ := Prod.mk.inj h
    obtain ⟨log, hlog, rfl⟩ := map_ok_iff.mp hresult
    have hworkspace : workspace = workspacePath s.machine options := by
      cases hprepared
      rfl
    subst hworkspace
    cases hprepared with
    | @ready _ text _ hrunner hchecked hrender hcourse hdescription hheaders =>
    refine ⟨text, ready,
      { usable := hrunner, prepared := hprepare, checked := hchecked, workspace := rfl, file := rfl,
        rendered := hrender, course := hcourse, stored := hdescription, headers := hheaders,
        ended := ?_, machine := by rw [run_start, hmachine] }⟩
    generalize (ready.machine.spawn (runner.buildCommand
      (workspacePath s.machine options))).1 = outcome at hlog ⊢
    cases outcome with
    | error cause => cases hlog
    | ok outcome =>
        unfold buildResult at hlog
        dsimp only at hlog
        split at hlog
        · next hsuccess => exact ⟨outcome, rfl, hsuccess, (Except.ok.inj hlog).symm⟩
        · cases hlog

end Told

end NativeExtension
