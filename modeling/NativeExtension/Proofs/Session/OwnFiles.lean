import NativeExtension.Proofs.Machine.Launches
import NativeExtension.Proofs.Session.SideBySide

/-!
# NativeExtension.Proofs.Session.OwnFiles

**A build touches only its own files, however it ends.** It makes the workspace that goes by the
extension's name and what is missing on the way there, unless the caller names a directory; it
makes the directories that hold the bundled headers, and writes the headers and the description
(`ownLicence`). A place that no program writes to is as it was, or has become what that allows
(`Course.becomes`), whether the build succeeds or fails on its way, and nothing goes away.

Of all files it reads the bundled headers alone. Where two machines differ in what other files hold,
the sources among them, the build does the same on both, as far as the programs do that it starts
(`apart_actsAlike`).
-/

namespace NativeExtension

open Session

/-! ### What a build changes itself -/

/-- To make the directories of a build and to write its files. -/
def ownLicence (m : Machine) (options : LoadOptions) (toolchain : Toolchain) : Licence where
  directory := fun location =>
    (options.buildDirectory = none ∧
      LeadsThrough m.cwd (workspaceOf m.extensionsRoot options.name) location) ∨
    ∃ directory ∈ toolchain.bundledIncludes,
      LeadsThrough m.cwd (directory.joinText "extbuild") location
  file := fun location bytes =>
    (∃ directory ∈ toolchain.bundledIncludes,
      LeadsTo m.cwd (headerIn directory) location ∧ bytes = utf8 extensionHeader) ∨
    LeadsTo m.cwd (buildFile (workspacePath m options)) location

/-- The directory that holds a bundled header goes the way of that header up to it. -/
theorem components_parent?_headerIn {directory parent : Path}
    (h : (headerIn directory).parent? = some parent) :
    parent.components = (directory.joinText "extbuild").components := by
  obtain ⟨last, hlast⟩ := Path.components_parent? h
  rw [components_headerIn] at hlast
  rw [Path.components_joinText _ (by decide : Path.IsName "extbuild")]
  exact (List.append_inj' hlast rfl).1.symm

theorem allows_own (m : Machine) (options : LoadOptions) (toolchain : Toolchain) :
    AllowsBuild m options toolchain.bundledIncludes (ownLicence m options toolchain) where
  workspace := fun hdefault =>
    ⟨fun _ hthrough => Or.inl ⟨hdefault, hthrough⟩, fun _ _ hfile => hfile.elim⟩
  parents := by
    intro directory hmem parent hparent
    refine ⟨fun _ hthrough => Or.inr ⟨directory, hmem, ?_⟩, fun _ _ hfile => hfile.elim⟩
    exact hthrough.of_begins (components_parent?_headerIn hparent ▸ List.prefix_refl _)
  headers := fun directory hmem =>
    ⟨fun _ hmake => hmake.elim, fun _ _ hfile => Or.inl ⟨directory, hmem, hfile⟩⟩
  description := fun _ => ⟨fun _ hmake => hmake.elim, fun _ _ hfile => Or.inr hfile.1⟩

section Becomes

variable {licence : Licence} {asks : Launch → Prop} {s s' : Session} {location : Location}

/-- One thing that is done makes of a place what the licence allows, if no program that is started
writes there. -/
theorem Move.becomes (h : Move licence asks s s')
    (huntouched : ∀ launch, asks launch → ¬ s.machine.Touches launch location) :
    Becomes licence location (s.machine.files.get? location) (s'.machine.files.get? location) := by
  cases h with
  | @ran launch hasks =>
      rw [run_start, (s.machine.edits_spawn_ofLaunch launch).get?_of_not_covers
        (huntouched launch hasks)]
      exact .same _
  | edited hedit => exact hedit.becomes location
  | noted hmachine _ =>
      rw [hmachine]
      exact .same _

/-- **A place that no program writes to becomes what the licence allows**, or stays as it is. -/
theorem Course.becomes (h : Course licence asks s s')
    (huntouched : ∀ launch, asks launch → ¬ s.machine.Touches launch location) :
    Becomes licence location (s.machine.files.get? location) (s'.machine.files.get? location) := by
  induction h with
  | refl => exact .same _
  | tail hearlier hmove ih =>
      have hedits := Course.edits_any hearlier
      exact ih.trans (hmove.becomes fun launch hasks htouches =>
        huntouched launch hasks (htouches.before hedits))

end Becomes

/-! ### What a build reads -/

/-- The sessions differ in nothing but what some files on their machines hold, the first after
changes to the files of a machine. -/
inductive ApartInBytes (places : Location → Prop) (first : Machine) (s : Session) :
    Session → Prop where
  | mk {m' : Machine} (machines : DifferInBytes places s.machine m')
      (edits : Edits .any first s.machine) : ApartInBytes places first s { s with machine := m' }

section Apart

variable {places : Location → Prop} {first : Machine} {options : LoadOptions}
  {toolchain : Toolchain} {runner : Runner}

theorem alike_start_apart {launch : Launch}
    (hheedless : launch.Heedless first { bytes := places }) :
    Alike (ApartInBytes places first) (start launch) := by
  rintro s _ ⟨hmachines, hedits⟩
  have havoids : launch.Avoids s.machine { bytes := places } :=
    .of_heedless (hheedless.of_edits hedits) rfl rfl
  obtain ⟨hresult, hafter, -⟩ := hmachines.spawn havoids
  rw [run_start, run_start]
  dsimp only
  rw [hmachines.executable_eq havoids]
  exact ⟨hresult, .mk hafter (hedits.trans (Machine.edits_spawn _ _))⟩

theorem keepsBeside_report_apart (level : Level) (reporter : Reporter) (message : String)
    (details : List (String × String)) :
    KeepsBeside (ApartInBytes places first) (report level reporter message details) := by
  rintro s _ ⟨hmachines, hedits⟩
  exact .mk hmachines hedits

theorem alike_compilerCompatible_apart {compiler : String}
    (hheedless : (versionQuery compiler).Heedless first { bytes := places }) :
    Alike (ApartInBytes places first) (compilerCompatible compiler) := by
  refine alike_compilerCompatible ?_
    (alike_checkCompiler (alike_start_apart hheedless) keepsBeside_report_apart) ?_
  · rintro s _ ⟨-, -⟩
    rfl
  · rintro s _ verdict ⟨hmachines, hedits⟩
    exact .mk hmachines hedits

theorem alike_makeDirectories_apart (path : Path) :
    Alike (ApartInBytes places first) (makeDirectories path).run := by
  refine Alike.onFiles ?_
  rintro s _ ⟨hmachines, hedits⟩
  obtain ⟨hresult, hafter⟩ := hmachines.createDirAll (path.avoids_nil _)
  exact ⟨hresult,
    .mk hafter (hedits.trans ((s.machine.edits_createDirAll path).mono (Licence.within_any _)))⟩

theorem alike_writeFile_apart (path : Path) (bytes : Bytes) :
    Alike (ApartInBytes places first) (writeFile path bytes).run := by
  refine Alike.writeFile ?_
  rintro s _ (@⟨m', hmachines, hedits⟩)
  have hwritten := hmachines.write (path.avoids_nil _) bytes
  have hkept : ∀ written, s.machine.write path bytes = .ok written →
      Edits .any first written := by
    intro written hwrite
    rcases (Machine.write_ok hwrite).1 with rfl | hedit
    · exact hedits
    · exact hedits.trans (Edits.of_edit (hedit.mono (Licence.within_any _)))
  dsimp only
  generalize s.machine.write path bytes = written, m'.write path bytes = written'
    at hwritten hkept ⊢
  cases hwritten with
  | ok hafter => exact .ok (.mk hafter (hkept _ rfl))
  | error hcause => exact .error hcause

/-- **A build does the same whatever is held by files that are no bundled headers**, if the programs
do that it starts. -/
theorem apart_actsAlike
    (hspared : ∀ directory ∈ toolchain.bundledIncludes, ∀ location,
      LeadsTo first.cwd (headerIn directory) location → ¬ places location)
    (hheedless : ∀ launch, BuildLaunch options toolchain runner first launch →
      launch.Heedless first { bytes := places }) :
    ActsAlike (ApartInBytes places first) options toolchain runner first := by
  constructor
  case cwd =>
    rintro s _ ⟨hmachines, -⟩
    exact hmachines.cwd
  case env =>
    rintro s _ ⟨hmachines, hedits⟩
    exact ⟨hedits.env_eq, hmachines.env.trans hedits.env_eq⟩
  case reports => exact keepsBeside_report_apart
  case checked => exact alike_start_apart (hheedless _ (BuildLaunch.checked ..))
  case judged => exact (alike_compilerCompatible_apart (hheedless _ (BuildLaunch.judged ..))).keeps
  case made => exact fun _ => alike_makeDirectories_apart _
  case installed =>
    intro directory hmem
    refine Alike.installHeader ?_ (fun _ _ => alike_makeDirectories_apart _)
      (alike_writeFile_apart _ _)
    rintro s _ ⟨hmachines, hedits⟩
    refine hmachines.read?_eq (Path.avoids_nil _ _) fun location hleads => ?_
    rw [hedits.cwd_eq] at hleads
    exact hspared directory hmem location hleads
  case described => exact alike_writeFile_apart _
  case told => exact alike_start_apart (hheedless _ (BuildLaunch.told ..))

end Apart

/-! ### However it ends -/

/-- The build, however it ended, has touched only its own files. -/
structure TouchesOwn (options : LoadOptions) (toolchain : Toolchain) (runner : Runner)
    (s : Session) (result : Except Error BuildOutput) (after : Session) : Prop where
  /-- What it did, one thing after another: it started the runner and the compiler, and changed what
  is its own. -/
  course : Course (ownLicence s.machine options toolchain)
    (BuildLaunch options toolchain runner s.machine) s after
  /-- A place that none of those programs writes to is as it was, or has become a directory or a
  file of the build. -/
  changed : ∀ location,
    (∀ launch, BuildLaunch options toolchain runner s.machine launch →
      ¬ s.machine.Touches launch location) →
    Becomes (ownLicence s.machine options toolchain) location (s.machine.files.get? location)
      (after.machine.files.get? location)
  /-- Whatever was there is there. -/
  kept : Grows s.machine after.machine
  /-- A directory that the caller names is taken as it is. -/
  explicit : ∀ directory, options.buildDirectory = some directory → ∀ t,
    (resolveWorkspace options.name options.buildDirectory).run.run t = (.ok directory, t)
  /-- What a file holds that is no bundled header makes no difference to anything, unless it does to
  those programs. -/
  unread : ∀ places : Location → Prop,
    (∀ directory ∈ toolchain.bundledIncludes, ∀ location,
      LeadsTo s.machine.cwd (headerIn directory) location → ¬ places location) →
    (∀ launch, BuildLaunch options toolchain runner s.machine launch →
      launch.Heedless s.machine { bytes := places }) →
    ∀ m', DifferInBytes places s.machine m' →
      ∃ m'', DifferInBytes places after.machine m'' ∧
        (buildWith options toolchain runner).run.run { s with machine := m' } =
          (result, { after with machine := m'' })

/-- **A build touches only its own files, on every outcome.** -/
theorem buildWith_ownFiles (options : LoadOptions) (toolchain : Toolchain) (runner : Runner)
    (s : Session) :
    TouchesOwn options toolchain runner s ((buildWith options toolchain runner).run.run s).1
      ((buildWith options toolchain runner).run.run s).2 := by
  have hcourse := (allows_own s.machine options toolchain).course_buildWith runner
  constructor
  case course => exact hcourse
  case changed => exact fun location => hcourse.becomes
  case kept => exact hcourse.edits_any.grows
  case explicit =>
    intro directory hexplicit t
    rw [hexplicit]
    rfl
  case unread =>
    intro places hspared hheedless m' hdiffer
    obtain ⟨hresult, hafter⟩ := (apart_actsAlike hspared hheedless).buildWith s _
      (.mk hdiffer (Edits.refl _ _))
    generalize (buildWith options toolchain runner).run.run { s with machine := m' } = built'
      at hresult hafter ⊢
    obtain ⟨result, after⟩ := built'
    cases hafter with
    | mk hmachines _ => exact ⟨_, hmachines, Prod.ext hresult rfl⟩

/-- A machine with a file where the bundled headers are to lie. -/
def bareMachine : Machine where
  files :=
    { entries := [([utf8 "bin"], .directory false),
        ([utf8 "ninja", utf8 "bin"], .file 0 (.program {})), ([utf8 "inc"], .file 1 (.data []))]
      nextId := 3 }
  cwd := ⟨[], 0⟩
  env := []

/-- The same with a source. -/
def blockedMachine (source : String) : Machine :=
  { bareMachine with
    files := bareMachine.files.set [utf8 "x.cpp"] (.file 2 (.data (utf8 source))) }

def blockedOptions : LoadOptions where
  name := "ops"
  sources := [.ofText "/x.cpp"]

def blockedToolchain : Toolchain := { bundledIncludes := [.ofText "/inc"] }

/-- A build there. -/
def blockedBuild (source : String) : Except Error BuildOutput × Session :=
  (buildWith blockedOptions blockedToolchain ⟨utf8 "/bin/ninja"⟩).run.run
    { machine := blockedMachine source }

/-- The build fails where it has made its workspace; nothing has changed that is not its own, and it
fails alike if the source holds something else. -/
theorem buildWith_ownFiles_blocked :
    (blockedBuild "int x;").1 = .error (.io (.ofText "/inc/extbuild") .notDirectory) ∧
      (blockedMachine "int x;").files.get? [utf8 "tmp"] = none ∧
      (blockedBuild "int x;").2.machine.files.get? [utf8 "tmp"] = some (.directory false) ∧
      (∀ location,
        ¬ (ownLicence (blockedMachine "int x;") blockedOptions blockedToolchain).Covers location →
        (blockedBuild "int x;").2.machine.files.get? location =
          (blockedMachine "int x;").files.get? location) ∧
      (blockedBuild "").1 = (blockedBuild "int x;").1 := by
  have hown := buildWith_ownFiles blockedOptions blockedToolchain ⟨utf8 "/bin/ninja"⟩
    { machine := blockedMachine "int x;" }
  rw [← blockedBuild] at hown
  have hquiet : (blockedMachine "int x;").Quiet := by
    have hbare : bareMachine.Quiet := Machine.quiet_of_entries rfl (by simp [bareMachine])
    intro location id script hthere
    rw [blockedMachine] at hthere
    by_cases hsource : location = [utf8 "x.cpp"]
    · rw [hsource, FileTree.get?_set_self _ (List.cons_ne_nil _ _)] at hthere
      cases hthere
    · rw [FileTree.get?_set_of_ne _ hsource] at hthere
      exact hbare location id script hthere
  have hdiffer : DifferInBytes (· = [utf8 "x.cpp"]) (blockedMachine "int x;")
      (blockedMachine "") := by
    unfold blockedMachine
    have hholds : (Content.data (utf8 "int x;")).bytes? = some (utf8 "int x;") := rfl
    exact (Twins.refl _ bareMachine).set (List.cons_ne_nil _ _)
      (.file (Or.inl rfl) (.bytes rfl hholds (utf8 "")))
  have hspared : ∀ directory ∈ blockedToolchain.bundledIncludes, ∀ location,
      LeadsTo (blockedMachine "int x;").cwd (headerIn directory) location →
        ¬ location = [utf8 "x.cpp"] := by
    rintro directory hdirectory location hleads rfl
    obtain rfl := List.mem_singleton.mp hdirectory
    exact absurd hleads (by decide +kernel)
  obtain ⟨_, -, hrun⟩ := hown.unread _ hspared
    (fun launch _ => launch.heedless_of_scripted rfl _) _ hdiffer
  refine ⟨by decide +kernel, by decide +kernel, by decide +kernel, fun location hspared => ?_, ?_⟩
  · exact (hown.changed location fun _ _ htouches => hquiet.not_touches htouches).eq_of_not_covers
      hspared
  · rw [blockedBuild, hrun]

end NativeExtension
