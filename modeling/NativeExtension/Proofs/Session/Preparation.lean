import NativeExtension.Proofs.Session.Staging

/-!
# NativeExtension.Proofs.Session.Preparation

**The stages before the runner is started.** They come in a fixed order (`run_prepare`,
`run_describe`), and each has done no more than those before it when it fails: `Preparation` lists
the ways in which they can end, with what has been done by then, and `prepare_cases` shows that
there is no other. All that is started until then are programs that are asked for their version.
-/

namespace NativeExtension

open Session

/-! ### Failures on files -/

/-- If the attempt fails, it is because of what is at one of those paths. -/
def FailsAt {α : Type} (paths : Path → Prop) (x : Attempt Error α) : Prop :=
  ∀ s error s', x.run.run s = (.error error, s') →
    ∃ path cause, error = .io path cause ∧ paths path

/-- If the attempt fails, it is because of a file. -/
def FailsOnFiles {α : Type} (x : Attempt Error α) : Prop :=
  ∀ s error s', x.run.run s = (.error error, s') → ∃ path cause, error = .io path cause

/-- The bundled header below a directory, and the directory that holds it. -/
def headerPaths (directory : Path) (path : Path) : Prop :=
  path = headerIn directory ∨ (headerIn directory).parent? = some path

namespace FailsAt

variable {α β : Type} {paths wide : Path → Prop}

theorem pure (a : α) : FailsAt paths (Pure.pure a : Attempt Error α) := by
  intro s error s' h
  cases h

/-- Either of two attempts fails only where it is said to. -/
theorem bind {x : Attempt Error α} {next : α → Attempt Error β} (h : FailsAt paths x)
    (hnext : ∀ a, FailsAt paths (next a)) : FailsAt paths (x >>= next) := by
  intro s error s' hrun
  rw [run_bind] at hrun
  split at hrun
  · next a middle _ => exact hnext a middle error s' hrun
  · next e middle hx =>
    cases hrun
    exact h s error s' hx

theorem lift_bind {action : Action α} {next : α → Attempt Error β}
    (hnext : ∀ a, FailsAt paths (next a)) : FailsAt paths (liftM action >>= next) := by
  intro s error s' hrun
  rw [run_lift_bind] at hrun
  exact hnext _ _ error s' hrun

theorem mono {x : Attempt Error α} (h : FailsAt paths x) (hwide : ∀ path, paths path → wide path) :
    FailsAt wide x := by
  intro s error s' hrun
  obtain ⟨path, cause, herror, hpath⟩ := h s error s' hrun
  exact ⟨path, cause, herror, hwide path hpath⟩

theorem onFiles {path : Path} (hpath : paths path)
    (call : Machine → Except SystemError Unit × Machine) : FailsAt paths (onFiles path call) := by
  intro s error s' hrun
  rw [run_onFiles] at hrun
  cases hresult : (call s.machine).1 with
  | ok _ =>
      rw [hresult] at hrun
      cases hrun
  | error cause =>
      rw [hresult] at hrun
      exact ⟨path, cause, (Except.error.inj (Prod.mk.inj hrun).1).symm, hpath⟩

/-- The header's own path and the directory above it are the only ones that a failure can
name. -/
theorem installHeader (directory : Path) :
    FailsAt (headerPaths directory) (installHeader directory) := by
  have hwrite : FailsAt (headerPaths directory) (do
      writeFile (headerIn directory) (utf8 extensionHeader)
      return true) := bind (onFiles (Or.inl rfl) _) fun _ => pure _
  refine lift_bind ?_
  intro machine
  split
  · exact pure _
  · split
    · next parent hparent => exact bind (onFiles (Or.inr hparent) _) fun _ => hwrite
    · exact hwrite

theorem installHeaders (directories : List Path) :
    FailsAt (fun path => ∃ directory ∈ directories, headerPaths directory path)
      (installHeaders directories) := by
  induction directories with
  | nil => exact pure _
  | cons first rest ih =>
      refine bind ((installHeader first).mono ?_) fun _ => ih.mono ?_
      · exact fun path hpath => ⟨first, List.mem_cons_self, hpath⟩
      · rintro path ⟨directory, hmem, hpath⟩
        exact ⟨directory, List.mem_cons_of_mem _ hmem, hpath⟩

theorem onSomeFile {x : Attempt Error α} (h : FailsAt paths x) : FailsOnFiles x := by
  intro s error s' hrun
  obtain ⟨path, cause, herror, -⟩ := h s error s' hrun
  exact ⟨path, cause, herror⟩

end FailsAt

/-- Only a workspace that has to be made can fail to be one. -/
theorem resolveWorkspace_error {name : String} {explicit : Option Path} {s s' : Session}
    {error : Error} (h : (resolveWorkspace name explicit).run.run s = (.error error, s')) :
    explicit = none ∧ ∃ cause, error = .io (workspaceOf s.machine.extensionsRoot name) cause := by
  cases explicit with
  | some directory => cases h
  | none =>
      rw [run_resolveWorkspace] at h
      have hmakes : FailsAt (· = workspaceOf s.machine.extensionsRoot name) (do
          makeDirectories (workspaceOf s.machine.extensionsRoot name)
          return workspaceOf s.machine.extensionsRoot name) := by
        refine FailsAt.bind (FailsAt.onFiles ?_ _) fun _ => FailsAt.pure _
        rfl
      obtain ⟨path, cause, herror, rfl⟩ := hmakes s error s' h
      exact ⟨rfl, cause, herror⟩

namespace FailsOnFiles

theorem installHeaders (directories : List Path) :
    FailsOnFiles (installHeaders directories) := (FailsAt.installHeaders directories).onSomeFile

theorem resolveWorkspace (name : String) (explicit : Option Path) :
    FailsOnFiles (resolveWorkspace name explicit) := by
  intro s error s' h
  obtain ⟨-, cause, herror⟩ := resolveWorkspace_error h
  exact ⟨_, cause, herror⟩

end FailsOnFiles

/-! ### The stages before the runner is started -/

/-- The session after the runner was asked for its version. -/
def Session.queried (s : Session) (runner : Runner) : Session :=
  ((start runner.versionQuery).run s).2

/-- What is said about a request, and the compiler, before the files are prepared. -/
def advise (options : LoadOptions) (spec : BuildSpec) (workspace : Path) (toolchain : Toolchain) :
    Action Unit := do
  step options.verbose
    ("Using " ++ workspace.display ++ " as build directory for " ++ spec.name)
  let parts := Sources.classify spec.sources
  if parts.anyDevice then
    step options.verbose (deviceMessage parts.device.length spec.sources.length)
  let _ ← compilerCompatible toolchain.cxx

/-- What is left to do once the workspace is known. -/
def describe (options : LoadOptions) (spec : BuildSpec) (workspace : Path)
    (toolchain : Toolchain) : Attempt Error (BuildSpec × Path) := do
  installHeaders toolchain.bundledIncludes
  step options.verbose ("Emitting ninja build file " ++ (buildFile workspace).display)
  writeDescription (buildFile workspace) spec toolchain
  return (spec, workspace)

theorem run_checkRunner (runner : Runner) (s : Session) :
    ((checkRunner runner).run.run s).2 = s.queried runner := by
  unfold checkRunner
  rw [run_lift_bind]
  cases hresult : ((start runner.versionQuery).run s).1 with
  | error cause => rfl
  | ok outcome =>
      dsimp only
      split <;> rfl

theorem run_checkRequest (options : LoadOptions) (s : Session) :
    (checkRequest options).run.run s =
      ((BuildSpec.ofOptions s.machine.currentDir options).mapError Error.config, s) := by
  unfold checkRequest
  rw [run_lift_bind, run_getMachine, run_attempt]

theorem currentDir_queried (runner : Runner) (s : Session) :
    (s.queried runner).machine.currentDir = s.machine.currentDir := by
  unfold Session.queried
  rw [run_start, Machine.spawn_eq]
  rfl

/-- The stages, in their order. -/
theorem run_prepare (options : LoadOptions) (toolchain : Toolchain) (runner : Runner)
    (s : Session) :
    (prepare options toolchain runner).run.run s =
      match ((checkRunner runner).run.run s).1 with
      | .error error => (.error (.config error), s.queried runner)
      | .ok () =>
        match BuildSpec.ofOptions s.machine.currentDir options with
        | .error error => (.error (.config error), s.queried runner)
        | .ok spec =>
          match (resolveWorkspace spec.name options.buildDirectory).run.run (s.queried runner) with
          | (.error error, s') => (.error error, s')
          | (.ok workspace, s') =>
            (describe options spec workspace toolchain).run.run
              ((advise options spec workspace toolchain).run s').2 := by
  have hqueried := run_checkRunner runner s
  have hdirectory := currentDir_queried runner s
  unfold prepare
  rw [run_bind, run_raising]
  cases hcheck : (checkRunner runner).run.run s with
  | mk result queried =>
      rw [hcheck] at hqueried
      obtain rfl : queried = s.queried runner := hqueried
      cases result with
      | error error => rfl
      | ok usable =>
          change (checkRequest options >>= _).run.run (s.queried runner) = _
          rw [run_bind, run_checkRequest, hdirectory]
          cases BuildSpec.ofOptions s.machine.currentDir options with
          | error error => rfl
          | ok spec =>
              change (resolveWorkspace spec.name options.buildDirectory >>= _).run.run
                (s.queried runner) = _
              rw [run_bind]
              dsimp only
              cases (resolveWorkspace spec.name options.buildDirectory).run.run
                  (s.queried runner) with
              | mk resolved s' =>
                  cases resolved with
                  | error error => rfl
                  | ok workspace =>
                      unfold advise
                      dsimp only
                      split <;> rfl

/-! ### The header and the description -/

theorem run_writeFile (path : Path) (bytes : Bytes) (s : Session) :
    (writeFile path bytes).run.run s =
      match s.machine.write path bytes with
      | .error cause => (.error (.io path cause), s)
      | .ok m => (.ok (), { s with machine := m }) := by
  unfold writeFile
  rw [run_onFiles]
  cases s.machine.write path bytes <;> rfl

/-- A chain of attempts succeeds if each does. -/
theorem run_bind_ok {α β : Type} {x : Attempt Error α} {next : α → Attempt Error β}
    {s s' : Session} {b : β} (h : (x >>= next).run.run s = (.ok b, s')) :
    ∃ a middle, x.run.run s = (.ok a, middle) ∧ (next a).run.run middle = (.ok b, s') := by
  rw [run_bind] at h
  split at h
  · next a middle hx => exact ⟨a, middle, hx, h⟩
  · cases h

/-- A write that succeeds leaves the bytes at the path, unless the path leads to the null
device. -/
theorem writeFile_stores {path : Path} {bytes : Bytes} {s s' : Session} {u : Unit}
    (hnull : ∀ here, ¬ LeadsTo here path nullDevice)
    (h : (writeFile path bytes).run.run s = (.ok u, s')) : s'.machine.Stores path bytes := by
  rw [run_writeFile] at h
  split at h
  · cases h
  · next m hwritten =>
    cases h
    exact Machine.write_stores hwritten (hnull _)

/-- Whether it was there or had to be written, the header holds its text afterwards. -/
theorem installHeader_stores {directory : Path} {s s' : Session} {written : Bool}
    (h : (installHeader directory).run.run s = (.ok written, s')) :
    s'.machine.Stores (headerIn directory) (utf8 extensionHeader) := by
  unfold installHeader at h
  rw [run_lift_bind, run_getMachine] at h
  dsimp only at h
  split at h
  · next hthere =>
    obtain ⟨-, rfl⟩ := Prod.mk.inj h
    exact Machine.stores_of_read? hthere (headerIn_not_null _ _)
  · split at h
    · obtain ⟨_, _, _, h⟩ := run_bind_ok h
      obtain ⟨_, _, hwrite, h⟩ := run_bind_ok h
      cases h
      exact writeFile_stores (fun here => headerIn_not_null here _) hwrite
    · obtain ⟨_, _, hwrite, h⟩ := run_bind_ok h
      cases h
      exact writeFile_stores (fun here => headerIn_not_null here _) hwrite

/-- Where no program is started, all that happens is edits. -/
theorem Course.edits {licence : Licence} {s s' : Session}
    (h : Course licence (fun _ => False) s s') : Edits licence s.machine s'.machine :=
  h.edits_of_idle fun _ hasks => hasks.elim

/-- **Every bundled header is in place** once all have been installed. -/
theorem installHeaders_stores {m : Machine} (options : LoadOptions) {bundled : List Path}
    {directories : List Path} (hbundled : ∀ directory ∈ directories, directory ∈ bundled)
    {s s' : Session} (hcwd : s.machine.cwd = m.cwd) (henv : s.machine.env = m.env) {u : Unit}
    (h : (installHeaders directories).run.run s = (.ok u, s')) :
    ∀ directory ∈ directories,
      s'.machine.Stores (headerIn directory) (utf8 extensionHeader) := by
  induction directories generalizing s with
  | nil => simp
  | cons first rest ih =>
      obtain ⟨hfirst, hrest⟩ := List.forall_mem_cons.mp hbundled
      obtain ⟨_, middle, hinstalled, hothers⟩ := run_bind_ok h
      have hthere : Along (Under m (stagingLicence m options bundled) fun _ => False)
          (installHeader first).run :=
        allows_staging.installHeader hfirst
      have hlater : Along (Under m (stagingLicence m options bundled) fun _ => False)
          (installHeaders rest).run :=
        allows_staging.installHeaders hrest
      have hbefore := hthere s hcwd henv
      rw [hinstalled] at hbefore
      have hcwd' := hbefore.cwd_eq.trans hcwd
      have henv' := hbefore.env_eq.trans henv
      have hafter := hlater middle hcwd' henv'
      rw [hothers] at hafter
      refine List.forall_mem_cons.mpr ⟨?_, ih hrest hcwd' henv' hothers⟩
      -- whatever is written later to the same place is the header again
      refine (installHeader_stores hinstalled).of_edits hafter.edits ?_
      intro location written _ hwritten
      exact hwritten.2

/-- How the stages before the runner is started can end, and what has been done by then. -/
inductive Preparation (options : LoadOptions) (toolchain : Toolchain) (runner : Runner)
    (s : Session) : Except Error (BuildSpec × Path) → Session → Prop where
  /-- The runner cannot be used; nothing else was done. -/
  | unusable {error : ConfigError}
      (hrunner : ((checkRunner runner).run.run s).1 = .error error) :
      Preparation options toolchain runner s (.error (.config error)) (s.queried runner)
  /-- The request is refused; nothing else was done. -/
  | refused {error : ConfigError}
      (hrunner : ((checkRunner runner).run.run s).1 = .ok ())
      (hrefused : BuildSpec.ofOptions s.machine.currentDir options = .error error) :
      Preparation options toolchain runner s (.error (.config error)) (s.queried runner)
  /-- A file or directory could not be made. -/
  | unwritable {path : Path} {cause : SystemError} {s' : Session}
      (hrunner : ((checkRunner runner).run.run s).1 = .ok ())
      (hcourse : Course (stagingLicence s.machine options toolchain.bundledIncludes) asksVersion
        s s') :
      Preparation options toolchain runner s (.error (.io path cause)) s'
  /-- There is no description of what was asked for. -/
  | undescribed {spec : BuildSpec} {error : ConfigError} {s' : Session}
      (hrunner : ((checkRunner runner).run.run s).1 = .ok ())
      (hrender : Ninja.render spec toolchain = .error error)
      (hcourse : Course (stagingLicence s.machine options toolchain.bundledIncludes) asksVersion
        s s') :
      Preparation options toolchain runner s (.error (.config error)) s'
  /-- All stands ready. -/
  | ready {spec : BuildSpec} {text : String} {s' : Session}
      (hrunner : ((checkRunner runner).run.run s).1 = .ok ())
      (hchecked : BuildSpec.ofOptions s.machine.currentDir options = .ok spec)
      (hrender : Ninja.render spec toolchain = .ok text)
      (hcourse : Course (buildLicence s.machine options toolchain.bundledIncludes) asksVersion s s')
      (hdescription : s'.machine.Stores (buildFile (workspacePath s.machine options)) (utf8 text))
      (hheaders : ∀ directory ∈ toolchain.bundledIncludes,
        s'.machine.Stores (headerIn directory) (utf8 extensionHeader)) :
      Preparation options toolchain runner s
        (.ok (spec, workspacePath s.machine options)) s'

theorem course_queried {licence : Licence} (runner : Runner) (s : Session) :
    Course licence asksVersion s (s.queried runner) := Course.of_move (.ran rfl)

theorem courses_advise {m : Machine} {licence : Licence} {asks : Launch → Prop}
    (options : LoadOptions) (spec : BuildSpec) (workspace : Path) {toolchain : Toolchain}
    (h : asks (versionQuery toolchain.cxx)) :
    Along (Under m licence asks) (advise options spec workspace toolchain) := by
  refine Along.bind (courses_step _ _) ?_
  intro _
  have hcheck : Along (Under m licence asks) (do
      let _ ← compilerCompatible toolchain.cxx : Action Unit) :=
    Along.bind (courses_compilerCompatible h) fun _ => Along.pure _
  dsimp only
  split
  · exact Along.bind (courses_step _ _) fun _ => hcheck
  · exact hcheck

/-- A description that cannot be rendered fails before the file is touched. -/
theorem run_writeDescription (path : Path) (spec : BuildSpec) (toolchain : Toolchain)
    (s : Session) :
    (writeDescription path spec toolchain).run.run s =
      match Ninja.render spec toolchain with
      | .error error => (.error (.config error), s)
      | .ok text => (writeFile path (utf8 text)).run.run s := by
  unfold writeDescription
  rw [run_bind, run_attempt]
  cases Ninja.render spec toolchain <;> rfl

/-- A header or a failure, and then a description or a failure. -/
theorem run_describe (options : LoadOptions) (spec : BuildSpec) (workspace : Path)
    (toolchain : Toolchain) (s : Session) :
    (describe options spec workspace toolchain).run.run s =
      match (installHeaders toolchain.bundledIncludes).run.run s with
      | (.error error, s') => (.error error, s')
      | (.ok (), s') =>
        let emitting := ((step options.verbose
          ("Emitting ninja build file " ++ (buildFile workspace).display)).run s').2
        match Ninja.render spec toolchain with
        | .error error => (.error (.config error), emitting)
        | .ok text =>
          match emitting.machine.write (buildFile workspace) (utf8 text) with
          | .error cause => (.error (.io (buildFile workspace) cause), emitting)
          | .ok m => (.ok (spec, workspace), { emitting with machine := m }) := by
  unfold describe
  rw [run_bind]
  cases (installHeaders toolchain.bundledIncludes).run.run s with
  | mk result s' =>
      cases result with
      | error error => rfl
      | ok _ =>
          dsimp only
          rw [run_lift_bind, run_bind, run_writeDescription]
          cases Ninja.render spec toolchain with
          | error error => rfl
          | ok text =>
              dsimp only
              rw [run_writeFile]
              generalize ((step options.verbose
                ("Emitting ninja build file " ++ (buildFile workspace).display)).run s').2 =
                emitting
              cases emitting.machine.write (buildFile workspace) (utf8 text) <;> rfl

/-- The header and the description, after what came before them. -/
theorem describe_cases {options : LoadOptions} {toolchain : Toolchain} {runner : Runner}
    {s advised : Session} {spec : BuildSpec}
    (hrunner : ((checkRunner runner).run.run s).1 = .ok ())
    (hchecked : BuildSpec.ofOptions s.machine.currentDir options = .ok spec)
    (hcourse : Course (stagingLicence s.machine options toolchain.bundledIncludes) asksVersion
      s advised) :
    Preparation options toolchain runner s
      ((describe options spec (workspacePath s.machine options) toolchain).run.run advised).1
      ((describe options spec (workspacePath s.machine options) toolchain).run.run advised).2 := by
  have hheaders := hcourse.trans (allows_staging.installHeaders (fun _ hmem => hmem) advised
    hcourse.cwd_eq hcourse.env_eq)
  rw [run_describe]
  change Course _ _ _ ((installHeaders toolchain.bundledIncludes).run.run advised).2 at hheaders
  cases hinstalled : (installHeaders toolchain.bundledIncludes).run.run advised with
  | mk result installed =>
  rw [hinstalled] at hheaders
  cases result with
  | error error =>
      obtain ⟨path, cause, rfl⟩ := FailsOnFiles.installHeaders _ _ _ _ hinstalled
      exact .unwritable hrunner hheaders
  | ok _ =>
  have hstored := installHeaders_stores options (fun _ h => h) hcourse.cwd_eq hcourse.env_eq
    hinstalled
  have hemitting := hheaders.trans (courses_step options.verbose
    ("Emitting ninja build file " ++ (buildFile (workspacePath s.machine options)).display)
    installed hheaders.cwd_eq hheaders.env_eq)
  rw [← step_machine options.verbose ("Emitting ninja build file " ++
    (buildFile (workspacePath s.machine options)).display) installed] at hstored
  dsimp only
  generalize ((step options.verbose ("Emitting ninja build file " ++
    (buildFile (workspacePath s.machine options)).display)).run installed).2 = emitting
    at hemitting hstored ⊢
  cases hrender : Ninja.render spec toolchain with
  | error error => exact .undescribed hrunner hrender hemitting
  | ok text =>
  dsimp only
  cases hwrite : emitting.machine.write (buildFile (workspacePath s.machine options))
      (utf8 text) with
  | error cause => exact .unwritable hrunner hemitting
  | ok written =>
  have hdescription := Machine.write_stores hwrite (buildFile_not_null _ _)
  have hwide := hemitting.mono (staging_within_build s.machine options toolchain.bundledIncludes)
    fun _ h => h
  rcases (Machine.write_ok hwrite).1 with rfl | hedit
  · exact .ready hrunner hchecked hrender hwide hdescription hstored
  · rw [hemitting.cwd_eq] at hedit
    refine .ready hrunner hchecked hrender
      (hwide.trans (Course.of_move (.edited (hedit.mono (allows_build.description _)))))
      hdescription ?_
    intro directory hdirectory
    refine (hstored directory hdirectory).of_edit hedit ?_
    rintro location bytes hheader ⟨hleads, -⟩
    rw [hemitting.cwd_eq] at hheader
    exact (not_leadsTo_both hheader hleads).elim

/-- **There is no other way for the stages before the runner is started to end.** -/
theorem prepare_cases (options : LoadOptions) (toolchain : Toolchain) (runner : Runner)
    (s : Session) :
    Preparation options toolchain runner s ((prepare options toolchain runner).run.run s).1
      ((prepare options toolchain runner).run.run s).2 := by
  rw [run_prepare]
  cases hrunner : ((checkRunner runner).run.run s).1 with
  | error error => exact .unusable hrunner
  | ok _ =>
  dsimp only
  cases hchecked : BuildSpec.ofOptions s.machine.currentDir options with
  | error error => exact .refused hrunner hchecked
  | ok spec =>
  have hname := BuildSpec.name_of_ofOptions hchecked
  dsimp only
  rw [hname]
  have hqueried : Course (stagingLicence s.machine options toolchain.bundledIncludes) asksVersion
      s (s.queried runner) := course_queried runner s
  have hresolve := hqueried.trans
    (allows_staging.resolveWorkspace (s.queried runner) hqueried.cwd_eq hqueried.env_eq)
  change Course _ _ _ ((resolveWorkspace options.name options.buildDirectory).run.run
    (s.queried runner)).2 at hresolve
  cases hresolved : (resolveWorkspace options.name options.buildDirectory).run.run
      (s.queried runner) with
  | mk resolved made =>
  rw [hresolved] at hresolve
  cases resolved with
  | error error =>
      obtain ⟨path, cause, rfl⟩ := FailsOnFiles.resolveWorkspace _ _ _ _ _ hresolved
      exact .unwritable hrunner hresolve
  | ok workspace =>
  obtain rfl : workspace = workspacePath s.machine options :=
    (resolveWorkspace_ok hresolved).trans (workspacePath_congr hqueried.env_eq options)
  have hasks : asksVersion (versionQuery toolchain.cxx) := rfl
  exact describe_cases hrunner hchecked (hresolve.trans
    (courses_advise options spec _ hasks made hresolve.cwd_eq hresolve.env_eq))

/-! ### Failures before the runner is started -/

section Failures

variable {options : LoadOptions} {toolchain : Toolchain} {runner : Runner} {s : Session}
  {spec : BuildSpec} {error : ConfigError}

/-- A request that is refused is refused before anything is done for it. -/
theorem prepare_refused (hrunner : ((checkRunner runner).run.run s).1 = .ok ())
    (hrefused : BuildSpec.ofOptions s.machine.currentDir options = .error error) :
    (prepare options toolchain runner).run.run s =
      (.error (.config error), s.queried runner) := by
  rw [run_prepare, hrunner, hrefused]

/-- The paths of the directories and files that are made before the description is written. -/
def stagingPaths (m : Machine) (options : LoadOptions) (bundled : List Path) (path : Path) :
    Prop :=
  (options.buildDirectory = none ∧ path = workspaceOf m.extensionsRoot options.name) ∨
    ∃ directory ∈ bundled, headerPaths directory path

/-- A request that cannot be described fails for that, or for a file that is made before. -/
theorem prepare_undescribed (hrunner : ((checkRunner runner).run.run s).1 = .ok ())
    (hchecked : BuildSpec.ofOptions s.machine.currentDir options = .ok spec)
    (hrender : Ninja.render spec toolchain = .error error) :
    ∃ failure, ((prepare options toolchain runner).run.run s).1 = .error failure ∧
      (failure = .config error ∨ ∃ path cause, failure = .io path cause ∧
        stagingPaths s.machine options toolchain.bundledIncludes path) := by
  have hname := BuildSpec.name_of_ofOptions hchecked
  have hqueried : Course .none asksVersion s (s.queried runner) := course_queried runner s
  rw [run_prepare, hrunner, hchecked]
  dsimp only
  rw [hname]
  cases hresolved : (resolveWorkspace options.name options.buildDirectory).run.run
      (s.queried runner) with
  | mk resolved made =>
  cases resolved with
  | error failure =>
      obtain ⟨hdefault, cause, rfl⟩ := resolveWorkspace_error hresolved
      refine ⟨_, rfl, Or.inr ⟨_, cause, rfl, Or.inl ⟨hdefault, ?_⟩⟩⟩
      rw [extensionsRoot_congr hqueried.env_eq]
  | ok workspace =>
  dsimp only
  rw [run_describe]
  generalize ((advise options spec workspace toolchain).run made).2 = advised
  cases hinstalled : (installHeaders toolchain.bundledIncludes).run.run advised with
  | mk result installed =>
  cases result with
  | error failure =>
      obtain ⟨path, cause, rfl, hpath⟩ := FailsAt.installHeaders _ _ _ _ hinstalled
      exact ⟨_, rfl, Or.inr ⟨path, cause, rfl, Or.inr hpath⟩⟩
  | ok _ =>
      dsimp only
      rw [hrender]
      exact ⟨_, rfl, Or.inl rfl⟩

end Failures

end NativeExtension
