import NativeExtension.Proofs.Machine.Again
import NativeExtension.Proofs.Machine.Launches
import NativeExtension.Proofs.Session.Completion
import NativeExtension.Proofs.Session.RunnerStart

/-!
# NativeExtension.Proofs.Session.Rebuild

**Building again changes nothing.** All that a build does to the files, it finds done when it is
asked for again: the workspace is there, the bundled headers hold what they should and are not
written, and the description is written over with what it holds. So as long as the runner and the
compiler leave the files alone and the runner tells its version as before (`SteadyPrograms`), the
second build gives what the first gave and leaves every file and directory as it is
(`buildWith_again`).
-/

namespace NativeExtension

open Session

/-! ### Each stage, once more -/

section Again

variable {s s' t : Session}

/-- What was made is there still, so there is nothing to make. -/
theorem makeDirectories_again {path : Path} {u : Unit}
    (h : (makeDirectories path).run.run s = (.ok u, s')) (hgrows : Grows s'.machine t.machine) :
    (makeDirectories path).run.run t = (.ok (), t) := by
  unfold makeDirectories at h ⊢
  rw [run_onFiles] at h ⊢
  cases hmade : s.machine.createDirAll path with
  | mk result made =>
  rw [hmade] at h
  cases result with
  | error cause => cases h
  | ok _ =>
      obtain ⟨-, rfl⟩ := Prod.mk.inj h
      rw [Machine.createDirAll_again hmade hgrows]
      rfl

/-- A workspace that was found or made is there. -/
theorem resolveWorkspace_again {name : String} {explicit : Option Path} {workspace : Path}
    (h : (resolveWorkspace name explicit).run.run s = (.ok workspace, s'))
    (hgrows : Grows s'.machine t.machine) (henv : t.machine.env = s.machine.env) :
    (resolveWorkspace name explicit).run.run t = (.ok workspace, t) := by
  cases explicit with
  | some directory =>
      cases h
      rfl
  | none =>
      rw [run_resolveWorkspace] at h ⊢
      rw [extensionsRoot_congr henv]
      obtain ⟨_, made, hmade, h⟩ := run_bind_ok h
      cases h
      rw [run_bind, makeDirectories_again hmade hgrows]
      rfl

/-- A bundled header that is in place is left alone. -/
theorem installHeader_again {directory : Path}
    (hstored : t.machine.Stores (headerIn directory) (utf8 extensionHeader)) :
    (installHeader directory).run.run t = (.ok false, t) := by
  have hread := hstored.read?_eq
  unfold headerIn at hread
  unfold installHeader
  rw [run_lift_bind, run_getMachine]
  dsimp only
  rw [if_pos hread]
  rfl

theorem edits_installHeaders (directories : List Path) (s : Session) :
    Edits .any s.machine ((installHeaders directories).run.run s).2.machine := by
  have hcourse : Along (Under s.machine .any fun _ => False) (installHeaders directories).run :=
    courses_installHeaders (fun _ _ _ _ => Licence.within_any _) fun _ _ => Licence.within_any _
  exact (hcourse s rfl rfl).edits

/-- By induction on the directories: a header that holds its text already is not written. -/
theorem installHeaders_again {directories : List Path}
    (hstored : ∀ directory ∈ directories,
      t.machine.Stores (headerIn directory) (utf8 extensionHeader)) :
    (installHeaders directories).run.run t = (.ok (), t) := by
  induction directories with
  | nil => rfl
  | cons first rest ih =>
      obtain ⟨hfirst, hrest⟩ := List.forall_mem_cons.mp hstored
      unfold installHeaders
      rw [run_bind, installHeader_again hfirst]
      exact ih hrest

end Again

/-! ### The whole build, once more -/

section Build

variable {options : LoadOptions} {toolchain : Toolchain} {runner : Runner} {s after : Session}
  {output : BuildOutput}

/-- Whatever of its own the build has changed by then, neither the runner nor the compiler changes
anything, and the runner tells its version as before. -/
structure SteadyPrograms (options : LoadOptions) (toolchain : Toolchain) (runner : Runner)
    (m : Machine) : Prop where
  leaves : ∀ launch, BuildLaunch options toolchain runner m launch →
    ∀ m', Edits (buildLicence m options toolchain.bundledIncludes) m m' →
      (m'.spawn launch).2 = m'
  tells : ∀ m', Edits (buildLicence m options toolchain.bundledIncludes) m m' →
    (m'.spawn runner.versionQuery).1 = (m.spawn runner.versionQuery).1

/-- How the stages before the runner is told to build have succeeded. -/
structure Prepared (options : LoadOptions) (toolchain : Toolchain) (runner : Runner) (s : Session)
    (spec : BuildSpec) (workspace : Path) (ready : Session) (made installed : Session)
    (text : String) : Prop where
  usable : ((checkRunner runner).run.run s).1 = .ok ()
  checked : BuildSpec.ofOptions s.machine.currentDir options = .ok spec
  resolved : (resolveWorkspace spec.name options.buildDirectory).run.run (s.queried runner) =
    (.ok workspace, made)
  headers : (installHeaders toolchain.bundledIncludes).run.run
    ((advise options spec workspace toolchain).run made).2 = (.ok (), installed)
  rendered : Ninja.render spec toolchain = .ok text
  written : installed.machine.write (buildFile workspace) (utf8 text) = .ok ready.machine

/-- A preparation that succeeded, taken apart stage by stage, with the session between each
two. -/
theorem prepared_of_prepare {spec : BuildSpec} {workspace : Path} {ready : Session}
    (h : (prepare options toolchain runner).run.run s = (.ok (spec, workspace), ready)) :
    ∃ made installed text,
      Prepared options toolchain runner s spec workspace ready made installed text := by
  rw [run_prepare] at h
  cases husable : ((checkRunner runner).run.run s).1 with
  | error error =>
      rw [husable] at h
      cases h
  | ok _ =>
  cases hchecked : BuildSpec.ofOptions s.machine.currentDir options with
  | error error =>
      rw [husable, hchecked] at h
      cases h
  | ok checked =>
  rw [husable, hchecked] at h
  dsimp only at h
  cases hresolved : (resolveWorkspace checked.name options.buildDirectory).run.run
      (s.queried runner) with
  | mk resolved made =>
  rw [hresolved] at h
  cases resolved with
  | error error => cases h
  | ok there =>
  dsimp only at h
  rw [run_describe] at h
  cases hinstalled : (installHeaders toolchain.bundledIncludes).run.run
      ((advise options checked there toolchain).run made).2 with
  | mk result installed =>
  rw [hinstalled] at h
  cases result with
  | error error => cases h
  | ok _ =>
  dsimp only at h
  rw [step_machine] at h
  cases hrender : Ninja.render checked toolchain with
  | error error =>
      rw [hrender] at h
      cases h
  | ok text =>
  rw [hrender] at h
  dsimp only at h
  cases hwritten : installed.machine.write (buildFile there) (utf8 text) with
  | error cause =>
      rw [hwritten] at h
      cases h
  | ok written =>
  rw [hwritten] at h
  cases h
  exact ⟨made, installed, text, ⟨husable, hchecked, hresolved, hinstalled, hrender, hwritten⟩⟩

namespace Prepared

variable {spec : BuildSpec} {workspace : Path} {ready made installed : Session} {text : String}

theorem edits_installed
    (h : Prepared options toolchain runner s spec workspace ready made installed text) :
    Edits .any installed.machine ready.machine := by
  rcases (Machine.write_ok h.written).1 with hsame | hedit
  · rw [hsame]
    exact Edits.refl _ _
  · exact (Edits.of_edit hedit).mono (Licence.within_any _)

theorem edits_made
    (h : Prepared options toolchain runner s spec workspace ready made installed text) :
    Edits .any made.machine ready.machine := by
  have hadvised : Course .none anyLaunch made
      ((advise options spec workspace toolchain).run made).2 :=
    courses_advise (m := made.machine) options spec workspace trivial made rfl rfl
  have hheaders := edits_installHeaders toolchain.bundledIncludes
    ((advise options spec workspace toolchain).run made).2
  rw [h.headers] at hheaders
  exact (hadvised.edits_any.trans hheaders).trans h.edits_installed

end Prepared

theorem checkRunner_congr {t : Session}
    (h : (t.machine.spawn runner.versionQuery).1 = (s.machine.spawn runner.versionQuery).1) :
    ((checkRunner runner).run.run t).1 = ((checkRunner runner).run.run s).1 := by
  unfold checkRunner
  rw [run_lift_bind, run_lift_bind, run_start, run_start, h]
  dsimp only
  cases (s.machine.spawn runner.versionQuery).1 with
  | error cause => rfl
  | ok outcome =>
      dsimp only
      split <;> rfl

/-- Where the compiler changes nothing, nothing changes while it is judged. -/
theorem advise_machine {spec : BuildSpec} {workspace : Path} {t : Session}
    (hidle : (t.machine.spawn (versionQuery toolchain.cxx)).2 = t.machine) :
    ((advise options spec workspace toolchain).run t).2.machine = t.machine := by
  have hadvised : Course .none (Eq (versionQuery toolchain.cxx)) t
      ((advise options spec workspace toolchain).run t).2 :=
    courses_advise (m := t.machine) options spec workspace rfl t rfl rfl
  refine Edits.eq_of_none (hadvised.edits_of_idle ?_)
  rintro _ rfl m hnone
  rw [hnone.eq_of_none]
  exact hidle

/-- **Preparing once more only writes the description over with what it holds.** -/
theorem prepare_again {spec : BuildSpec} {workspace : Path} {ready made installed t : Session}
    {text : String} (hsteady : SteadyPrograms options toolchain runner s.machine)
    (hprepared : Prepared options toolchain runner s spec workspace ready made installed text)
    (hedits : Edits (buildLicence s.machine options toolchain.bundledIncludes) s.machine
      ready.machine)
    (hdescription : ready.machine.Stores (buildFile workspace) (utf8 text))
    (hheaders : ∀ directory ∈ toolchain.bundledIncludes,
      ready.machine.Stores (headerIn directory) (utf8 extensionHeader))
    (hmachine : t.machine = ready.machine) :
    ∃ again, (prepare options toolchain runner).run.run t = (.ok (spec, workspace), again) ∧
      DifferInBytes (fun _ => False) t.machine again.machine ∧
      Course (.toWrite t.machine.cwd (buildFile workspace) (utf8 text))
        (BuildLaunch options toolchain runner t.machine) t again := by
  rw [← hmachine] at hedits hdescription hheaders
  have husable : ((checkRunner runner).run.run t).1 = .ok () := by
    rw [checkRunner_congr (hsteady.tells _ hedits)]
    exact hprepared.usable
  have hchecked : BuildSpec.ofOptions t.machine.currentDir options = .ok spec := by
    rw [Machine.currentDir, hedits.cwd_eq]
    exact hprepared.checked
  have hasked : (t.queried runner).machine = t.machine :=
    hsteady.leaves _ (BuildLaunch.checked ..) _ hedits
  have hresolved := resolveWorkspace_again (t := t.queried runner) hprepared.resolved
    (by rw [hasked, hmachine]; exact hprepared.edits_made.grows)
    (by rw [hasked, hedits.env_eq]; exact (s.machine.edits_spawn _).env_eq.symm)
  have hadvised : ((advise options spec workspace toolchain).run (t.queried runner)).2.machine =
      t.machine := by
    rw [advise_machine, hasked]
    rw [hasked]
    exact hsteady.leaves _ (BuildLaunch.judged ..) _ hedits
  generalize hrun : ((advise options spec workspace toolchain).run (t.queried runner)).2 =
    advised at hadvised
  have hinstalled := installHeaders_again (t := advised) (by rwa [hadvised])
  obtain ⟨written, hwritten, hsame⟩ := Machine.write_again hprepared.written
    (by rw [hmachine]; exact Grows.refl _) hdescription
  have hcourse : Course (.toWrite t.machine.cwd (buildFile workspace) (utf8 text))
      (BuildLaunch options toolchain runner t.machine) t advised := by
    rw [← hrun]
    exact (Course.of_move (.ran (BuildLaunch.checked ..))).trans
      (courses_advise options spec workspace (BuildLaunch.judged ..) (t.queried runner) rfl rfl)
  rw [run_prepare, husable, hchecked]
  dsimp only
  rw [hresolved]
  dsimp only
  rw [hrun, run_describe, hinstalled]
  dsimp only
  rw [hprepared.rendered]
  dsimp only
  rw [step_machine, hadvised, hwritten]
  refine ⟨_, rfl, hsame, hcourse.trans ?_⟩
  refine (courses_step options.verbose
    ("Emitting ninja build file " ++ (buildFile workspace).display) advised rfl rfl).trans
    (Course.of_edits ?_)
  rw [step_machine, hadvised]
  rcases (Machine.write_ok hwritten).1 with rfl | hedit
  · exact Edits.refl _ _
  · exact Edits.of_edit hedit

/-- What a build that succeeded gives once more, and what it leaves as it is. -/
structure BuiltAgain (options : LoadOptions) (toolchain : Toolchain) (runner : Runner)
    (output : BuildOutput) (again : Session) : Prop where
  result : ((buildWith options toolchain runner).run.run again).1 = .ok output
  /-- Every file with what it holds, and every directory. -/
  files : ∀ location,
    ((buildWith options toolchain runner).run.run again).2.machine.files.get? location =
      again.machine.files.get? location
  cwd : ((buildWith options toolchain runner).run.run again).2.machine.cwd = again.machine.cwd
  env : ((buildWith options toolchain runner).run.run again).2.machine.env = again.machine.env
  /-- All that the build does itself is to write the description over with what it holds. -/
  own : ∃ text, again.machine.Stores output.buildFile (utf8 text) ∧
    Course (.toWrite again.machine.cwd output.buildFile (utf8 text))
      (BuildLaunch options toolchain runner again.machine) again
      ((buildWith options toolchain runner).run.run again).2
  /-- No bundled header is written again. -/
  headers : ∀ directory ∈ toolchain.bundledIncludes, ∀ t : Session, t.machine = again.machine →
    (installHeader directory).run.run t = (.ok false, t)

/-- A runner that ended well ends the build with what it was for. -/
theorem buildResult_ok {outcome : Outcome} (hsuccess : outcome.ending.success = true)
    (hfile : output.buildFile = buildFile output.workspace)
    (hlog : output.log = shown outcome.merged) :
    ((buildResult runner output.spec.name output.workspace (.ok outcome)).map fun log =>
      { spec := output.spec, workspace := output.workspace,
        buildFile := buildFile output.workspace, log := log : BuildOutput }) = .ok output := by
  unfold buildResult
  dsimp only
  rw [if_pos hsuccess, ← hfile, ← hlog]
  rfl

/-- A build that is prepared as before, on a machine that holds the same files, ends as before. -/
theorem builtAgain_of_prepare {text : String} {again prepared : Session}
    (hprepare : (prepare options toolchain runner).run.run again =
      (.ok (output.spec, output.workspace), prepared))
    (hsame : DifferInBytes (fun _ => False) again.machine prepared.machine)
    (hcourse : Course (.toWrite again.machine.cwd (buildFile output.workspace) (utf8 text))
      (BuildLaunch options toolchain runner again.machine) again prepared)
    (hworkspace : output.workspace = workspacePath again.machine options)
    (hfile : output.buildFile = buildFile output.workspace)
    (hstored : again.machine.Stores output.buildFile (utf8 text))
    (hheaders : ∀ directory ∈ toolchain.bundledIncludes,
      again.machine.Stores (headerIn directory) (utf8 extensionHeader))
    (hidle : (prepared.machine.spawn (runner.buildCommand output.workspace)).2 = prepared.machine)
    {outcome : Outcome}
    (hended : (again.machine.spawn (runner.buildCommand output.workspace)).1 = .ok outcome)
    (hsuccess : outcome.ending.success = true) (hlog : output.log = shown outcome.merged) :
    BuiltAgain options toolchain runner output again := by
  have havoids : (runner.buildCommand output.workspace).Avoids again.machine
      { bytes := fun _ => False } := .of_heedless (Launch.heedless_of_same _ _) rfl rfl
  have hends := (hsame.spawn havoids).1
  rw [hended] at hends
  rcases run_buildWith options toolchain runner again with
    ⟨error, s', hfails, -⟩ | ⟨spec, workspace, ready, noted, hsucceeds, hnoted, hquiet, hrun⟩
  · cases hprepare.symm.trans hfails
  · cases hprepare.symm.trans hsucceeds
    have hafter : ((buildWith options toolchain runner).run.run again).2.machine =
        prepared.machine := by
      rw [hrun, run_start, hnoted]
      exact hidle
    constructor
    case result =>
      rw [hrun, hends]
      exact buildResult_ok hsuccess hfile hlog
    case files =>
      intro location
      rw [hafter]
      exact hsame.get?_eq id
    case cwd =>
      rw [hafter]
      exact hsame.cwd
    case env =>
      rw [hafter]
      exact hsame.env
    case own =>
      refine ⟨text, hstored, ?_⟩
      rw [hrun, hfile]
      refine (hcourse.trans (Course.of_move (.noted hnoted hquiet))).trans
        (Course.of_move (.ran ?_))
      rw [hworkspace]
      exact BuildLaunch.told ..
    case headers =>
      exact fun directory hdirectory t ht => installHeader_again (ht ▸ hheaders directory hdirectory)

/-- **Building again changes nothing.** -/
theorem buildWith_again (hsteady : SteadyPrograms options toolchain runner s.machine)
    (hbuilt : (buildWith options toolchain runner).run.run s = (.ok output, after))
    {again : Session} (hmachine : again.machine = after.machine) :
    BuiltAgain options toolchain runner output again := by
  obtain ⟨text, ready, hready⟩ := built_of_buildWith hbuilt
  obtain ⟨made, installed, text', hprepared⟩ := prepared_of_prepare hready.prepared
  obtain rfl : text' = text := Except.ok.inj (hprepared.rendered.symm.trans hready.rendered)
  -- nothing but edits of its own has led up to where the runner was told to build
  have hallows : AllowsBuild s.machine options toolchain.bundledIncludes _ := allows_build
  have hcourse := hallows.course_prepare (BuildLaunch.checked options toolchain runner s.machine)
    (BuildLaunch.judged ..)
  rw [hready.prepared] at hcourse
  have hedits := hcourse.edits_of_idle hsteady.leaves
  have hagain : again.machine = ready.machine := by
    rw [hmachine, hready.machine, hready.workspace]
    exact hsteady.leaves _ (BuildLaunch.told ..) _ hedits
  obtain ⟨prepared, hprepare, hsame, hsecond⟩ := prepare_again hsteady hprepared hedits
    (hready.file ▸ hready.stored) hready.headers hagain
  rw [← hagain] at hedits
  have hworkspace := workspacePath_congr hedits.env_eq options
  -- the description is written to where the first build wrote it
  have hwithin : (Licence.toWrite again.machine.cwd (buildFile output.workspace)
      (utf8 text')).Within (buildLicence s.machine options toolchain.bundledIncludes) := by
    rw [hedits.cwd_eq, hready.workspace]
    exact allows_build.description _
  have hrewritten : Edits (buildLicence s.machine options toolchain.bundledIncludes) s.machine
      prepared.machine := by
    refine hedits.trans ((hsecond.edits_of_idle fun launch hasks m' hwrites => ?_).mono hwithin)
    rw [buildLaunch_congr hedits.env_eq] at hasks
    exact hsteady.leaves launch hasks m' (hedits.trans (hwrites.mono hwithin))
  obtain ⟨outcome, hended, hsuccess, hlog⟩ := hready.ended
  refine builtAgain_of_prepare hprepare hsame hsecond (hready.workspace.trans hworkspace.symm)
    hready.file (hagain ▸ hready.stored) (hagain ▸ hready.headers) ?_ (hagain ▸ hended) hsuccess
    hlog
  rw [hready.workspace]
  exact hsteady.leaves _ (BuildLaunch.told ..) _ hrewritten

end Build

/-! ### A build on a machine without a workspace -/

/-- Where programs are scripts that leave the files alone, a runner that is given by a path tells its
version as before, unless the build writes over it. -/
theorem steadyPrograms_of_quiet {options : LoadOptions} {toolchain : Toolchain} {runner : Runner}
    {m : Machine} (hscripts : m.behavior = Script.perform) (hquiet : m.Quiet) (hslash : slash ∈ runner.program) {file : Location}
    {script : Script} (hexecutable : m.executable runner.versionQuery = .ok (file, script))
    (hspared : ¬ (buildLicence m options toolchain.bundledIncludes).Covers file) :
    SteadyPrograms options toolchain runner m where
  leaves := fun launch _ m' hedits => (hquiet.of_edits hedits).spawn launch
  tells := by
    intro m' hedits
    obtain ⟨hzero, hresolve⟩ := resolveProgram_of_executable hexecutable
    rw [Machine.resolveProgram_of_slash _ hslash] at hresolve
    have hagain : m'.executable runner.versionQuery = .ok (file, script) := by
      rw [Machine.executable_eq] at hexecutable ⊢
      split at hexecutable
      · cases hexecutable
      · next hclean =>
        rw [if_neg hclean]
        change m'.resolveProgram runner.program = _
        rw [Machine.resolveProgram_of_slash _ hslash]
        exact Machine.programAt_of_edits hedits hresolve (hedits.get?_of_not_covers hspared)
    have hspawn : ∀ machine : Machine, machine.behavior = Script.perform →
        machine.executable runner.versionQuery = .ok (file, script) →
        (machine.spawn runner.versionQuery).1 =
          .ok (script.outcomeIn machine.cwd.isRemoved runner.versionQuery.arguments) := by
      intro machine hscripted hfound
      have hchild : machine.childOf runner.versionQuery = .ok machine := rfl
      simp only [Machine.spawn, hfound, hchild, Machine.perform, hscripted]
      rfl
    rw [hspawn m' (hedits.behavior_eq.trans hscripts) hagain, hspawn m hscripts hexecutable,
      hedits.cwd_eq]

/-- The runner by its path from the root. -/
def rootedRunner : Runner := ⟨utf8 "/bin/ninja"⟩

/-- A toolchain whose header is to lie in a directory that is not there yet. -/
def headedToolchain : Toolchain := { bundledIncludes := [.ofText "/include"] }

/-- The first build. -/
def freshBuild : Except Error BuildOutput × Session :=
  (buildWith plainOptions headedToolchain rootedRunner).run.run { machine := tooledMachine }

/-- The second build, in another process. -/
def secondBuild : Except Error BuildOutput × Session :=
  (buildWith plainOptions headedToolchain rootedRunner).run.run { machine := freshBuild.2.machine }

/-- What both of them give. -/
def freshOutput : BuildOutput where
  spec := ⟨"ops", [.ofText "/x.cpp"], [], [], [], []⟩
  workspace := .ofText "/tmp/extbuild_extensions/ops"
  buildFile := .ofText "/tmp/extbuild_extensions/ops/build.ninja"
  log := ""

/-- The first build makes the workspace and puts the header in place, and the second changes
nothing. -/
theorem buildWith_again_fresh :
    freshBuild.1 = .ok freshOutput ∧
      tooledMachine.files.get? [utf8 "include"] = none ∧
      freshBuild.2.machine.files.get? [utf8 "include"] = some (.directory false) ∧
      secondBuild.1 = .ok freshOutput ∧
      (∀ location, secondBuild.2.machine.files.get? location =
        freshBuild.2.machine.files.get? location) ∧
      ((installHeader (.ofText "/include")).run.run { machine := freshBuild.2.machine }).1 =
        .ok false := by
  have hresult : freshBuild.1 = .ok freshOutput := by decide +kernel
  have hmade : freshBuild.2.machine.files.get? [utf8 "include"] = some (.directory false) := by
    decide +kernel
  have hsteady : SteadyPrograms plainOptions headedToolchain rootedRunner tooledMachine := by
    have hexecutable : tooledMachine.executable rootedRunner.versionQuery =
        .ok ([utf8 "ninja", utf8 "bin"], {}) := by
      decide +kernel
    refine steadyPrograms_of_quiet rfl tooledMachine_quiet (by decide) hexecutable ?_
    rintro ((⟨-, hthrough⟩ | ⟨directory, hdirectory, hthrough⟩) |
      ⟨_, ⟨⟨directory, hdirectory, hleads⟩, -⟩ | hleads⟩)
    · exact absurd hthrough (by decide +kernel)
    · obtain rfl := List.mem_singleton.mp hdirectory
      exact absurd hthrough (by decide +kernel)
    · obtain rfl := List.mem_singleton.mp hdirectory
      exact absurd hleads (by decide +kernel)
    · exact absurd hleads (by decide +kernel)
  refine ⟨hresult, by decide, hmade, ?_⟩
  rw [secondBuild]
  cases hrun : freshBuild with
  | mk result after =>
  rw [hrun] at hresult
  obtain rfl : result = _ := hresult
  have hagain : BuiltAgain plainOptions headedToolchain rootedRunner freshOutput
      { machine := after.machine } := buildWith_again hsteady hrun rfl
  refine ⟨hagain.result, hagain.files, ?_⟩
  exact congrArg Prod.fst
    (hagain.headers (.ofText "/include") List.mem_cons_self { machine := after.machine } rfl)

end NativeExtension
