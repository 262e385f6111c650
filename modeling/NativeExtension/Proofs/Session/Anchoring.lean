import NativeExtension.Proofs.Names
import NativeExtension.Proofs.Ninja.SearchOrder
import NativeExtension.Proofs.Path.Shown
import NativeExtension.Proofs.Session.BuildCourse

/-!
# NativeExtension.Proofs.Session.Anchoring

**What the paths of a description mean where the runner is started.** The runner is started in
the workspace, and the paths were gathered in the caller's directory. The paths of a request are
absolute by then and mean the same in both (`Anchored.request`). Those that a detected toolchain
takes from the environment stand in the description as they are: all that is named means the same
exactly if the directory of all workspaces, the loading program's headers and the CUDA root do
(`Anchored.named`), and a relative one does only if the two directories are alike above what it
climbs (`Path.steady_iff`). So the bundled headers are not found if all workspaces lie below the
caller's directory by a relative path (`Anchored.adrift`).
-/

namespace NativeExtension

open Session

/-- The path leads to the same spot from both places. -/
def Path.Steady (here there : Place) (p : Path) : Prop := p.spotFrom here = p.spotFrom there

instance (here there : Place) (p : Path) : Decidable (p.Steady here there) :=
  inferInstanceAs (Decidable (p.spotFrom here = p.spotFrom there))

namespace Path

variable {here there : Place} {p q : Path}

theorem Equiv.steady_iff (h : p.Equiv q) : p.Steady here there ↔ q.Steady here there := by
  have hsteps : p.components = q.components := h
  simp only [Steady, spotFrom, hsteps]

theorem steady_of_isAbsolute (h : p.isAbsolute = true) : p.Steady here there :=
  spotFrom_of_isAbsolute h here there

/-- **A path is steady if it starts at the root, or the places are alike above what it climbs.** -/
theorem steady_iff : p.Steady here there ↔
    p.isAbsolute = true ∨ here.spot.drop p.climb = there.spot.drop p.climb := by
  cases habsolute : p.isAbsolute with
  | true => simp [steady_of_isAbsolute habsolute]
  | false => simpa [Steady] using spotFrom_eq_iff_drop habsolute here there

theorem steady_named_iff : p.named.Steady here there ↔ p.Steady here there :=
  spotFrom_named_eq_iff p here there

/-- A file name behind a path makes no difference. -/
theorem steady_joinText_iff {name : String} (h : IsName name) :
    (p.joinText name).Steady here there ↔ p.Steady here there := by
  rw [Steady, spotFrom_joinText p h, spotFrom_joinText p h, List.cons_inj_right]
  rfl

end Path

/-! ### The paths of a description -/

/-- The description names the path, as text: for a source, a directory of headers, the CUDA compiler
or the directory of the CUDA libraries. -/
inductive Named (spec : BuildSpec) (toolchain : Toolchain) : Path → Prop where
  | source {p : Path} (h : p ∈ spec.sources) : Named spec toolchain p.named
  | headers {includes : List Path} {p : Path}
      (hincludes : Ninja.includeDirs spec toolchain = .ok includes) (h : p ∈ includes) :
      Named spec toolchain p.named
  | compiler {p : Path} (hdevice : spec.hasDevice = true) (h : toolchain.nvcc = .ok p) :
      Named spec toolchain p.named
  | libraries {p : Path} (hdevice : spec.hasDevice = true) (h : toolchain.cudaLibDir = .ok p) :
      Named spec toolchain p.named

/-- The CUDA root, if the request uses CUDA. -/
def cudaRoots (spec : BuildSpec) (toolchain : Toolchain) : List Path :=
  if spec.hasDevice then toolchain.cudaHome.toList else []

/-- The directories at or below which all lie that a toolchain found on the machine brings in. -/
def origins (m : Machine) (spec : BuildSpec) (toolchain : Toolchain) : List Path :=
  m.extensionsRoot :: cudaRoots spec toolchain ++ m.runtimeIncludeDirs

namespace Ninja

theorem toList_usedRoot {spec : BuildSpec} {toolchain : Toolchain} {root : Option Path}
    (h : usedRoot spec toolchain = .ok root) : root.toList = cudaRoots spec toolchain := by
  rcases usedRoot_ok_iff.mp h with ⟨hhost, rfl⟩ | ⟨hdevice, home, hhome, rfl⟩
  · simp [cudaRoots, hhost]
  · simp [cudaRoots, hdevice, hhome]

theorem includeDirs_ok {spec : BuildSpec} {toolchain : Toolchain} {includes : List Path}
    (h : includeDirs spec toolchain = .ok includes) :
    includes = firstSeen [] (spec.includes ++ toolchain.bundledIncludes ++
      (cudaRoots spec toolchain).map (·.joinText "include") ++ toolchain.runtimeIncludes) := by
  rw [includeDirs_eq] at h
  obtain ⟨root, hroot, rfl⟩ := map_ok_iff.mp h
  rw [searchOrder, ← toList_usedRoot hroot, Option.toList_map]

end Ninja

section Descriptions

variable {m : Machine} {here there : Place} {spec : BuildSpec} {toolchain : Toolchain}

theorem mem_cudaRoots (hdevice : spec.hasDevice = true) {cuda : Path}
    (h : toolchain.cudaHome = some cuda) : cuda ∈ cudaRoots spec toolchain := by
  simp [cudaRoots, hdevice, h]

theorem steady_include_iff {p : Path} :
    (p.joinText "include").Steady here there ↔ p.Steady here there :=
  Path.steady_joinText_iff (by decide)

theorem steady_nvcc_iff {cuda : Path} (os : Os) :
    (["bin", os.executable "nvcc"].foldl Path.joinText cuda).Steady here there ↔
      cuda.Steady here there := by
  have hname : Path.IsName (os.executable "nvcc") := by cases os <;> decide
  exact (Path.steady_joinText_iff hname).trans
    (Path.steady_joinText_iff (by decide : Path.IsName "bin"))

theorem origins_steady_iff : (∀ p ∈ origins m spec toolchain, p.Steady here there) ↔
    m.extensionsRoot.Steady here there ∧
      (∀ cuda ∈ cudaRoots spec toolchain, cuda.Steady here there) ∧
      ∀ p ∈ m.runtimeIncludeDirs, p.Steady here there := by
  rw [origins, List.cons_append, List.forall_mem_cons, List.forall_mem_append]

/-- The directories of headers are steady if those are that they lie at or below. -/
theorem includes_steady_iff {includes : List Path}
    (hincludes : Ninja.includeDirs spec toolchain = .ok includes)
    (hbundled : toolchain.bundledIncludes = [m.bundledIncludeDir])
    (hruntime : toolchain.runtimeIncludes = m.runtimeIncludeDirs) :
    (∀ p ∈ includes, p.Steady here there) ↔
      (∀ p ∈ spec.includes, p.Steady here there) ∧
        ∀ p ∈ origins m spec toolchain, p.Steady here there := by
  have hbelow : m.bundledIncludeDir.Steady here there ↔ m.extensionsRoot.Steady here there :=
    steady_include_iff
  rw [Ninja.includeDirs_ok hincludes, hbundled, hruntime,
    Ninja.forall_mem_firstSeen_iff Path.Equiv.steady_iff, origins_steady_iff]
  simp only [List.forall_mem_append, List.forall_mem_singleton, List.forall_mem_map,
    steady_include_iff, hbelow, and_assoc]

/-- **All that a description names is steady exactly if the directories of the toolchain are.** -/
theorem named_steady_iff {includes : List Path}
    (hincludes : Ninja.includeDirs spec toolchain = .ok includes)
    (hbundled : toolchain.bundledIncludes = [m.bundledIncludeDir])
    (hruntime : toolchain.runtimeIncludes = m.runtimeIncludeDirs)
    (hrequest : ∀ p ∈ spec.sources ++ spec.includes, p.Steady here there) :
    (∀ p, Named spec toolchain p → p.Steady here there) ↔
      ∀ p ∈ origins m spec toolchain, p.Steady here there := by
  obtain ⟨hsources, hcaller⟩ := List.forall_mem_append.mp hrequest
  constructor
  · intro hnamed
    have hheaders : ∀ p ∈ includes, p.Steady here there := fun p hp =>
      Path.steady_named_iff.mp (hnamed p.named (.headers hincludes hp))
    exact ((includes_steady_iff hincludes hbundled hruntime).mp hheaders).2
  · intro horigins p hp
    have hheaders := (includes_steady_iff hincludes hbundled hruntime).mpr ⟨hcaller, horigins⟩
    obtain ⟨-, hcuda, -⟩ := origins_steady_iff.mp horigins
    cases hp with
    | source h => exact Path.steady_named_iff.mpr (hsources _ h)
    | headers hfound h =>
        obtain rfl := Except.ok.inj (hincludes.symm.trans hfound)
        exact Path.steady_named_iff.mpr (hheaders _ h)
    | compiler hdevice h =>
        obtain ⟨cuda, hhome, rfl⟩ := Ninja.joinCudaHome_ok h
        exact Path.steady_named_iff.mpr
          ((steady_nvcc_iff toolchain.os).mpr (hcuda cuda (mem_cudaRoots hdevice hhome)))
    | libraries hdevice h =>
        obtain ⟨cuda, hhome, rfl⟩ := Ninja.joinCudaHome_ok h
        have hname : Path.IsName "lib64" := by decide
        exact Path.steady_named_iff.mpr
          ((Path.steady_joinText_iff hname).mpr (hcuda cuda (mem_cudaRoots hdevice hhome)))

end Descriptions

/-! ### Where the runner is started -/

theorem runtimeIncludeDirs_congr {m m' : Machine} (h : m'.env = m.env) :
    m'.runtimeIncludeDirs = m.runtimeIncludeDirs := by
  simp [Machine.runtimeIncludeDirs, Machine.var?, h]

theorem runtimeIncludes_detectToolchain (s : Session) :
    (detectToolchain.run s).1.runtimeIncludes = s.machine.runtimeIncludeDirs := by
  rw [← runtimeIncludeDirs_congr (env_detectToolchain s)]
  rfl

/-- A runner is started where the path of the workspace leads. -/
theorem spot_of_childOf {m child : Machine} {runner : Runner} {workspace : Path}
    (h : m.childOf (runner.buildCommand workspace) = .ok child) :
    child.cwd.spot = workspace.spotFrom m.cwd := Machine.childOf_spot h

/-- A relative path that never leads up means something else in a directory below its end. -/
theorem not_steady_below {here there : Place} {p : Path} {names : Spot} (hnames : names ≠ [])
    (hrelative : p.isAbsolute = false) (hparent : .parent ∉ p.components)
    (hthere : there.spot = names ++ p.spotFrom here) : ¬ p.Steady here there := by
  intro hsteady
  have hbelow : there.spot <:+ p.spotFrom there :=
    suffix_walk (Path.root_notMem_components hrelative) hparent there.spot
  rw [hthere, ← hsteady] at hbelow
  have hlength := hbelow.length_le
  rw [List.length_append] at hlength
  exact hnames (List.length_eq_zero_iff.mp (by omega))

/-- What the paths of a description mean in the place where the runner is started. -/
structure Anchored (options : LoadOptions) (toolchain : Toolchain) (s : Session)
    (spec : BuildSpec) (there : Place) : Prop where
  /-- The runner is started in the workspace. -/
  workspace : there.spot = (workspacePath s.machine options).spotFrom s.machine.cwd
  /-- The paths of the request mean what they meant to the caller. -/
  request : ∀ p ∈ spec.sources ++ spec.includes, p.named.Steady s.machine.cwd there
  /-- All that is named does so exactly if the directories that the environment gives do. -/
  named : (∀ p, Named spec toolchain p → p.Steady s.machine.cwd there) ↔
    ∀ p ∈ origins s.machine spec toolchain, p.Steady s.machine.cwd there
  /-- One of them does if it is absolute, or the places are alike above what it climbs. -/
  origin : ∀ p ∈ origins s.machine spec toolchain, p.Steady s.machine.cwd there ↔
    p.isAbsolute = true ∨ s.machine.cwd.spot.drop p.climb = there.spot.drop p.climb
  /-- The bundled headers are looked for elsewhere than where they were put, if all workspaces
  lie below the caller's directory by a relative path. -/
  adrift : options.buildDirectory = none → s.machine.extensionsRoot.isAbsolute = false →
    .parent ∉ s.machine.extensionsRoot.components →
    ¬ s.machine.bundledIncludeDir.named.Steady s.machine.cwd there

/-- What is known of every place to which the path of the workspace leads. -/
theorem anchored {options : LoadOptions} {toolchain : Toolchain} {s : Session} {spec : BuildSpec}
    {there : Place} {includes : List Path}
    (hthere : there.spot = (workspacePath s.machine options).spotFrom s.machine.cwd)
    (hname : validateName options.name = .ok ())
    (hbundled : toolchain.bundledIncludes = [s.machine.bundledIncludeDir])
    (hruntime : toolchain.runtimeIncludes = s.machine.runtimeIncludeDirs)
    (hincludes : Ninja.includeDirs spec toolchain = .ok includes)
    (habsolute : ∀ p ∈ spec.sources ++ spec.includes, p.isAbsolute = true) :
    Anchored options toolchain s spec there := by
  have hrequest : ∀ p ∈ spec.sources ++ spec.includes, p.Steady s.machine.cwd there :=
    fun p hp => Path.steady_of_isAbsolute (habsolute p hp)
  constructor
  case workspace => exact hthere
  case request => exact fun p hp => Path.steady_named_iff.mpr (hrequest p hp)
  case named => exact named_steady_iff hincludes hbundled hruntime hrequest
  case origin => exact fun p _ => Path.steady_iff
  case adrift =>
    intro hdefault hrelative hparent hsteady
    have hroot : s.machine.extensionsRoot.Steady s.machine.cwd there :=
      steady_include_iff.mp (Path.steady_named_iff.mp hsteady)
    have hbelow : there.spot =
        [some (utf8 options.name)] ++ s.machine.extensionsRoot.spotFrom s.machine.cwd := by
      rw [hthere, workspacePath, hdefault]
      exact Path.spotFrom_joinText _ (isName_of_validateName hname) _
    exact not_steady_below (by simp) hrelative hparent hbelow hroot

/-- The build of the request starts the runner once the description is in place. -/
structure RunsPrepared (options : LoadOptions) (s : Session) (spec : BuildSpec)
    (workspace : Path) (ready : Session) : Prop where
  description : ∃ text, Ninja.render spec (detectToolchain.run s).1 = .ok text ∧
    ready.machine.Stores (buildFile workspace) (utf8 text)
  started : ∃ noted : Session, noted.machine = ready.machine ∧ ((build options).run.run s).2 =
    ((start ((detectToolchain.run s).2.machine.runner.buildCommand workspace)).run noted).2

/-- **What a description names means the same in the workspace exactly if the toolchain's own
directories do**, and those do if they are absolute. -/
theorem build_anchored {options : LoadOptions} {s ready : Session} {spec : BuildSpec}
    {workspace : Path} {child : Machine}
    (hprepared : (prepare options (detectToolchain.run s).1
        (detectToolchain.run s).2.machine.runner).run.run (detectToolchain.run s).2 =
      (.ok (spec, workspace), ready))
    (hchild : ready.machine.childOf
      ((detectToolchain.run s).2.machine.runner.buildCommand workspace) = .ok child) :
    RunsPrepared options s spec workspace ready ∧
      Anchored options (detectToolchain.run s).1 s spec child.cwd := by
  have hcases := prepare_cases options (detectToolchain.run s).1
    (detectToolchain.run s).2.machine.runner (detectToolchain.run s).2
  rw [hprepared] at hcases
  cases hcases with
  | ready _ hchecked hrender hcourse hdescription _ =>
  refine ⟨⟨⟨_, hrender, hdescription⟩, ?_⟩, ?_⟩
  · rcases run_buildWith options (detectToolchain.run s).1 (detectToolchain.run s).2.machine.runner
        (detectToolchain.run s).2 with
      ⟨_, _, hprepare, -⟩ | ⟨_, _, _, noted, hprepare, hmachine, -, hrun⟩ <;>
      cases hprepared.symm.trans hprepare
    rw [run_build, hrun]
    exact ⟨noted, hmachine, rfl⟩
  · obtain ⟨includes, -, -, hincludes, -⟩ := Ninja.render_settles hrender
    obtain ⟨hname, -⟩ := BuildSpec.ofOptions_ok hchecked
    refine anchored ?_ hname (bundledIncludes_detectToolchain s)
      (runtimeIncludes_detectToolchain s) hincludes (BuildSpec.isAbsolute_of_ofOptions hchecked)
    rw [spot_of_childOf hchild, hcourse.cwd_eq, cwd_detectToolchain,
      workspacePath_congr (env_detectToolchain s)]

/-- A machine with a runner, whose workspaces lie below the current directory. -/
def relativeMachine : Machine where
  files := { entries := [([utf8 "ninja"], .file 0 (.program {}))], nextId := 1 }
  cwd := ⟨[], 0⟩
  env := [("EXTBUILD_EXTENSIONS_DIR", utf8 "e"), ("EXTBUILD_NINJA", utf8 "/ninja"),
    ("CUDA_HOME", utf8 "/cuda")]

/-- A request for an extension. -/
def plainOptions : LoadOptions where
  name := "ops"
  sources := [.ofText "x.cpp"]

/-- The toolchain that is found there. -/
def relativeDetection : Toolchain × Session := detectToolchain.run { machine := relativeMachine }

/-- All that comes before the runner is started there. -/
def relativePreparation : Except Error (BuildSpec × Path) × Session :=
  (prepare plainOptions relativeDetection.1 relativeDetection.2.machine.runner).run.run
    relativeDetection.2

/-- The source is found where the runner is started, and the bundled headers are not. -/
theorem build_anchored_relative :
    ∃ spec workspace child, relativePreparation.1 = .ok (spec, workspace) ∧
      relativePreparation.2.machine.childOf
        (relativeDetection.2.machine.runner.buildCommand workspace) = .ok child ∧
      spec.sources = [.ofText "/x.cpp"] ∧
      (Path.ofText "/x.cpp").named.Steady relativeMachine.cwd child.cwd ∧
      ¬ relativeMachine.bundledIncludeDir.named.Steady relativeMachine.cwd child.cwd := by
  have hresult : relativePreparation.1 =
      .ok (⟨"ops", [.ofText "/x.cpp"], [], [], [], []⟩, .ofText "e/ops") := by
    decide +kernel
  have hstarted : (relativePreparation.2.machine.childOf
      (relativeDetection.2.machine.runner.buildCommand (.ofText "e/ops"))).isOk = true := by
    decide +kernel
  cases hrun : relativePreparation with
  | mk result ready =>
  rw [hrun] at hresult hstarted
  obtain rfl : result = _ := hresult
  cases hchild : ready.machine.childOf
      (relativeDetection.2.machine.runner.buildCommand (.ofText "e/ops")) with
  | error cause =>
      rw [hchild] at hstarted
      cases hstarted
  | ok child =>
      have hstart := hchild
      rw [relativePreparation, relativeDetection] at hrun
      rw [relativeDetection] at hstart
      obtain ⟨-, hanchored⟩ := build_anchored hrun hstart
      refine ⟨_, _, child, rfl, hchild, rfl, hanchored.request _ (by simp), ?_⟩
      exact hanchored.adrift rfl (by decide) (by decide)

end NativeExtension
