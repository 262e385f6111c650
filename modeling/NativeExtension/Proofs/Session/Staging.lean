import NativeExtension.Proofs.Session.Course

/-!
# NativeExtension.Proofs.Session.Staging

**The courses of what a build does.** Each action of a build starts programs, makes directories
on the way of some path, or writes to the end of one: it has a `Course` as soon as the licence
allows that. Before the runner is started, a build makes directories on the way to a workspace
that goes by the extension's name and to the bundled headers, and writes the bundled headers
(`stagingLicence`); last of all it writes the description (`buildLicence`). Any licence that allows
as much will do for its course (`AllowsBuild`). Header and description never meet in one place
(`not_leadsTo_both`).
-/

namespace NativeExtension

open Session

/-! ### Courses of actions -/

/-- A course leads on, if the session is in that directory and has that environment. -/
def Under (m : Machine) (licence : Licence) (asks : Launch → Prop) (s s' : Session) : Prop :=
  s.machine.cwd = m.cwd → s.machine.env = m.env → Course licence asks s s'

instance (m : Machine) (licence : Licence) (asks : Launch → Prop) :
    Composes (Under m licence asks) where
  refl s := fun _ _ => Course.refl _ _ s
  trans := by
    intro s₁ s₂ s₃ h h' hcwd henv
    have hfirst := h hcwd henv
    exact hfirst.trans (h' (hfirst.cwd_eq.trans hcwd) (hfirst.env_eq.trans henv))

section Actions

variable {m : Machine} {licence : Licence} {asks : Launch → Prop}

theorem under_noted {s s' : Session} (hmachine : s'.machine = s.machine)
    (hlaunches : s'.launches = s.launches) : Under m licence asks s s' :=
  fun _ _ => Course.of_move (.noted hmachine hlaunches)

theorem courses_report (level : Level) (reporter : Reporter) (message : String)
    (details : List (String × String)) :
    Along (Under m licence asks) (report level reporter message details) := by
  intro s
  exact under_noted rfl (by simp [launches])

theorem courses_step (verbose : Bool) (message : String) :
    Along (Under m licence asks) (step verbose message) := by
  unfold step
  split
  · exact courses_report _ _ _ _
  · exact Along.pure _

theorem courses_start {launch : Launch} (h : asks launch) :
    Along (Under m licence asks) (start launch) :=
  fun _ _ _ => Course.of_move (.ran h)

/-! The toolchain -/

theorem courses_compilerCompatible {compiler : String} (h : asks (versionQuery compiler)) :
    Along (Under m licence asks) (compilerCompatible compiler) :=
  along_compilerCompatible
    (along_checkCompiler (courses_start h) fun _ _ => courses_report _ _ _ _)
    fun _ _ => under_noted rfl rfl

theorem courses_detectToolchain
    (h : asks { program := utf8 Os.linux.searchProgram, arguments := [utf8 "nvcc"] }) :
    Along (Under m licence asks) detectToolchain :=
  along_detectToolchain
    (along_cudaRoot (along_findCudaRoot (courses_start h)) fun _ _ => under_noted rfl rfl)

/-! The files -/

/-- What a call on the files gives and leaves, with the refusal turned into a failure at the
path. -/
theorem run_onFiles (path : Path) (call : Machine → Except SystemError Unit × Machine)
    (s : Session) :
    (onFiles path call).run.run s =
      ((call s.machine).1.mapError (Error.io path), { s with machine := (call s.machine).2 }) := by
  unfold onFiles
  rw [run_lift_bind, run_getMachine]
  dsimp only
  cases hcall : call s.machine with
  | mk result after => cases result <;> rfl

theorem courses_onFiles {path : Path} {call : Machine → Except SystemError Unit × Machine}
    (h : ∀ machine : Machine, machine.cwd = m.cwd → Edits licence machine (call machine).2) :
    Along (Under m licence asks) (onFiles path call).run := by
  intro s hcwd _
  rw [run_onFiles]
  exact Course.of_edits (h s.machine hcwd)

theorem courses_makeDirectories {path : Path} (h : (Licence.toMake m.cwd path).Within licence) :
    Along (Under m licence asks) (makeDirectories path).run := by
  refine courses_onFiles ?_
  intro machine hcwd
  rw [← hcwd] at h
  exact (machine.edits_createDirAll path).mono h

/-- A write is one edit, or none if it is refused or goes to the null device. -/
theorem courses_writeFile {path : Path} {bytes : Bytes}
    (h : (Licence.toWrite m.cwd path bytes).Within licence) :
    Along (Under m licence asks) (writeFile path bytes).run := by
  refine courses_onFiles ?_
  intro machine hcwd
  rw [← hcwd] at h
  split
  · next hwritten =>
    rcases (Machine.write_ok hwritten).1 with rfl | hedit
    · exact Edits.refl _ _
    · exact Edits.of_edit (hedit.mono h)
  · exact Edits.refl _ _

/-- The bundled header below an include directory. -/
def headerIn (directory : Path) : Path := directory.joinText extensionHeaderPath

/-- A header that is there is left alone; else directories are made on the way to it and it is
written. -/
theorem courses_installHeader {directory : Path}
    (hmake : ∀ parent, (headerIn directory).parent? = some parent →
      (Licence.toMake m.cwd parent).Within licence)
    (hwrite : (Licence.toWrite m.cwd (headerIn directory) (utf8 extensionHeader)).Within licence) :
    Along (Under m licence asks) (installHeader directory).run := by
  refine Along.attempt_bind (Along.lift along_getMachine) ?_
  intro machine
  split
  · exact Along.attempt_pure _
  · split
    · next parent hparent =>
      refine Along.attempt_bind (courses_makeDirectories (hmake parent hparent)) ?_
      intro _
      exact Along.attempt_bind (courses_writeFile hwrite) fun _ => Along.attempt_pure _
    · exact Along.attempt_bind (courses_writeFile hwrite) fun _ => Along.attempt_pure _

/-- By induction on the directories, all under one licence. -/
theorem courses_installHeaders {directories : List Path}
    (hmake : ∀ directory ∈ directories, ∀ parent, (headerIn directory).parent? = some parent →
      (Licence.toMake m.cwd parent).Within licence)
    (hwrite : ∀ directory ∈ directories,
      (Licence.toWrite m.cwd (headerIn directory) (utf8 extensionHeader)).Within licence) :
    Along (Under m licence asks) (installHeaders directories).run := by
  induction directories with
  | nil => exact Along.attempt_pure _
  | cons directory rest ih =>
      obtain ⟨hmakeFirst, hmakeRest⟩ := List.forall_mem_cons.mp hmake
      obtain ⟨hwriteFirst, hwriteRest⟩ := List.forall_mem_cons.mp hwrite
      exact Along.attempt_bind (courses_installHeader hmakeFirst hwriteFirst)
        fun _ => ih hmakeRest hwriteRest

end Actions

/-! ### The way to a bundled header -/

/-- The way to a bundled header goes on from its directory by two names. -/
theorem components_headerIn (directory : Path) : (headerIn directory).components =
    directory.components ++ [.name (utf8 "extbuild")] ++ [.name (utf8 "extension.h")] := by
  have hplain : (Path.ofText extensionHeaderPath).IsPlain := by
    unfold Path.IsPlain
    rfl
  rw [headerIn, Path.joinText, Path.components_join directory hplain, List.append_assoc]
  rfl

theorem spotFrom_headerIn (directory : Path) (here : Place) : (headerIn directory).spotFrom here =
    some (utf8 "extension.h") :: some (utf8 "extbuild") :: directory.spotFrom here := by
  rw [Path.spotFrom, components_headerIn, walk_append, walk_append]
  rfl

/-- What the way to a bundled header passes lies on the way to its directory or right below. -/
theorem leadsThrough_headerIn {here : Place} {directory : Path} {location : Location}
    (h : LeadsThrough here (headerIn directory) location) :
    LeadsThrough here directory location ∨
      location.map some = some (utf8 "extbuild") :: directory.spotFrom here ∨
      LeadsTo here (headerIn directory) location := by
  obtain ⟨steps, hne, hsteps, hwalk⟩ := h
  rw [components_headerIn] at hsteps
  rcases List.prefix_concat_iff.mp hsteps with rfl | hsteps
  · rw [← components_headerIn] at hwalk
    exact Or.inr (Or.inr hwalk)
  · rcases List.prefix_concat_iff.mp hsteps with rfl | hsteps
    · rw [walk_append] at hwalk
      exact Or.inr (Or.inl hwalk.symm)
    · exact Or.inl ⟨steps, hne, hsteps, hwalk⟩

/-- The bundled header and the description never lie in one place. -/
theorem not_leadsTo_both {here : Place} {directory workspace : Path} {location : Location}
    (hheader : LeadsTo here (headerIn directory) location)
    (hdescription : LeadsTo here (buildFile workspace) location) : False := by
  have hspot := Path.spotFrom_joinText workspace (by decide : Path.IsName "build.ninja") here
  rw [LeadsTo, spotFrom_headerIn] at hheader
  rw [LeadsTo, buildFile, hspot, ← hheader] at hdescription
  exact absurd (Option.some.inj (List.cons.inj hdescription).1) (by decide)

theorem buildFile_not_null (here : Place) (workspace : Path) :
    ¬ LeadsTo here (buildFile workspace) nullDevice :=
  Machine.not_leadsTo_null
    (Path.spotFrom_joinText workspace (by decide : Path.IsName "build.ninja") here) (by decide)

theorem headerIn_not_null (here : Place) (directory : Path) :
    ¬ LeadsTo here (headerIn directory) nullDevice :=
  Machine.not_leadsTo_null (spotFrom_headerIn directory here) (by decide)

/-! ### What a build may change -/

/-- The workspace of a request: the directory that the caller names, or the one that goes by the
extension's name. -/
def workspacePath (m : Machine) (options : LoadOptions) : Path :=
  options.buildDirectory.getD (workspaceOf m.extensionsRoot options.name)

/-- What may be changed before the description is written. -/
def stagingLicence (m : Machine) (options : LoadOptions) (bundled : List Path) : Licence where
  directory := fun location =>
    (options.buildDirectory = none ∧
      LeadsThrough m.cwd (workspaceOf m.extensionsRoot options.name) location) ∨
    ∃ directory ∈ bundled, LeadsThrough m.cwd (headerIn directory) location
  file := fun location bytes =>
    (∃ directory ∈ bundled, LeadsTo m.cwd (headerIn directory) location) ∧
      bytes = utf8 extensionHeader

/-- What may be changed before the runner is started. -/
def buildLicence (m : Machine) (options : LoadOptions) (bundled : List Path) : Licence where
  directory := (stagingLicence m options bundled).directory
  file := fun location bytes =>
    (stagingLicence m options bundled).file location bytes ∨
      LeadsTo m.cwd (buildFile (workspacePath m options)) location

/-- The launch asks a program for its version. -/
def asksVersion (launch : Launch) : Prop := launch.arguments = [utf8 "--version"]

instance : DecidablePred asksVersion := fun launch =>
  inferInstanceAs (Decidable (launch.arguments = [utf8 "--version"]))

theorem not_asksVersion {launch : Launch} (h : launch.arguments = [utf8 "-v"]) :
    ¬ asksVersion launch := by
  unfold asksVersion
  rw [h]
  decide

theorem staging_within_build (m : Machine) (options : LoadOptions) (bundled : List Path) :
    (stagingLicence m options bundled).Within (buildLicence m options bundled) :=
  ⟨fun _ h => h, fun _ _ h => Or.inl h⟩

/-! What the licences depend on -/

/-- Where workspaces lie is read off the environment. -/
theorem extensionsRoot_congr {m m' : Machine} (h : m'.env = m.env) :
    m'.extensionsRoot = m.extensionsRoot := by
  simp [Machine.extensionsRoot, Machine.setVar?, Machine.defaultExtensionsRoot,
    Machine.temporaryDir, Machine.var?, h]

theorem workspacePath_congr {m m' : Machine} (h : m'.env = m.env) (options : LoadOptions) :
    workspacePath m' options = workspacePath m options := by
  rw [workspacePath, workspacePath, extensionsRoot_congr h]

/-- The licence of a build depends on the environment and the current directory alone. -/
theorem buildLicence_congr {m m' : Machine} (hcwd : m'.cwd = m.cwd) (henv : m'.env = m.env)
    (options : LoadOptions) (bundled : List Path) :
    buildLicence m' options bundled = buildLicence m options bundled := by
  simp only [buildLicence, stagingLicence, workspacePath_congr henv, extensionsRoot_congr henv,
    hcwd]

/-- The licence allows what a build does before it writes the description. -/
structure AllowsStaging (m : Machine) (options : LoadOptions) (bundled : List Path)
    (licence : Licence) : Prop where
  workspace : options.buildDirectory = none →
    (Licence.toMake m.cwd (workspaceOf m.extensionsRoot options.name)).Within licence
  parents : ∀ directory ∈ bundled, ∀ parent, (headerIn directory).parent? = some parent →
    (Licence.toMake m.cwd parent).Within licence
  headers : ∀ directory ∈ bundled,
    (Licence.toWrite m.cwd (headerIn directory) (utf8 extensionHeader)).Within licence

/-- The licence allows what a build does itself. -/
structure AllowsBuild (m : Machine) (options : LoadOptions) (bundled : List Path)
    (licence : Licence) : Prop extends AllowsStaging m options bundled licence where
  description : ∀ bytes,
    (Licence.toWrite m.cwd (buildFile (workspacePath m options)) bytes).Within licence

section Staging

variable {m : Machine} {options : LoadOptions} {bundled : List Path} {licence wide : Licence}
  {asks : Launch → Prop}

namespace AllowsStaging

theorem mono (h : AllowsStaging m options bundled licence) (hwide : licence.Within wide) :
    AllowsStaging m options bundled wide where
  workspace := fun hdefault => (h.workspace hdefault).trans hwide
  parents := fun directory hmem parent hparent =>
    (h.parents directory hmem parent hparent).trans hwide
  headers := fun directory hmem => (h.headers directory hmem).trans hwide

theorem installHeader (h : AllowsStaging m options bundled licence) {directory : Path}
    (hmem : directory ∈ bundled) :
    Along (Under m licence asks) (installHeader directory).run :=
  courses_installHeader (h.parents directory hmem) (h.headers directory hmem)

theorem installHeaders (h : AllowsStaging m options bundled licence) {directories : List Path}
    (hall : ∀ directory ∈ directories, directory ∈ bundled) :
    Along (Under m licence asks) (installHeaders directories).run :=
  courses_installHeaders (fun _ hmem => h.parents _ (hall _ hmem))
    fun _ hmem => h.headers _ (hall _ hmem)

end AllowsStaging

/-- The licence of a build allows it up to the description. -/
theorem allows_staging : AllowsStaging m options bundled (stagingLicence m options bundled) where
  workspace := fun hdefault =>
    ⟨fun _ hthrough => Or.inl ⟨hdefault, hthrough⟩, fun _ _ hfile => hfile.elim⟩
  parents := fun directory hmem _ hparent =>
    ⟨fun _ hthrough => Or.inr ⟨directory, hmem,
      hthrough.of_begins (Path.components_of_parent? hparent)⟩, fun _ _ hfile => hfile.elim⟩
  headers := fun directory hmem =>
    ⟨fun _ hmake => hmake.elim, fun _ _ hfile => ⟨⟨directory, hmem, hfile.1⟩, hfile.2⟩⟩

theorem allows_build : AllowsBuild m options bundled (buildLicence m options bundled) where
  toAllowsStaging := allows_staging.mono (staging_within_build m options bundled)
  description := fun _ => ⟨fun _ hmake => hmake.elim, fun _ _ hfile => Or.inr hfile.1⟩

theorem run_resolveWorkspace (name : String) (s : Session) :
    (resolveWorkspace name none).run.run s =
      (do
        makeDirectories (workspaceOf s.machine.extensionsRoot name)
        return workspaceOf s.machine.extensionsRoot name : Attempt Error Path).run.run s := by
  unfold resolveWorkspace
  dsimp only
  rw [run_lift_bind, run_getMachine]

/-- A workspace that the caller names is not made; one that goes by the extension's name is,
below the root of the session's environment, which is that of `m`. -/
theorem AllowsStaging.resolveWorkspace (h : AllowsStaging m options bundled licence) :
    Along (Under m licence asks)
      (Session.resolveWorkspace options.name options.buildDirectory).run := by
  cases hexplicit : options.buildDirectory with
  | some directory => exact Along.attempt_pure _
  | none =>
      intro s hcwd henv
      have hwithin := h.workspace hexplicit
      rw [← extensionsRoot_congr henv] at hwithin
      have hmade : Along (Under m licence asks)
          (do
            makeDirectories (workspaceOf s.machine.extensionsRoot options.name)
            return workspaceOf s.machine.extensionsRoot options.name :
            Attempt Error Path).run :=
        Along.attempt_bind (courses_makeDirectories hwithin) fun _ => Along.attempt_pure _
      have hcourse := hmade s hcwd henv
      rwa [← run_resolveWorkspace] at hcourse

/-- The workspace that is resolved is that of the request. -/
theorem resolveWorkspace_ok {s s' : Session} {workspace : Path}
    (h : (resolveWorkspace options.name options.buildDirectory).run.run s = (.ok workspace, s')) :
    workspace = workspacePath s.machine options := by
  unfold workspacePath
  cases hexplicit : options.buildDirectory with
  | some directory =>
      rw [hexplicit] at h
      cases h
      rfl
  | none =>
      rw [hexplicit] at h
      rw [run_resolveWorkspace, run_bind] at h
      split at h <;> cases h
      rfl

end Staging

end NativeExtension
