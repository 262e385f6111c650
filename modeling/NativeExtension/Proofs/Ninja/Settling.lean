import NativeExtension.Proofs.Ninja.Collisions

/-!
# NativeExtension.Proofs.Ninja.Settling

**What is settled before the first line is written.** When a description can be written at
all, its plan is made of the request and of three things that may fail: the include
directories, the CUDA compiler and the flags of the linker (`plan_settles`). Each of them fails
only for want of the CUDA root, so what is left to decide is whether the objects differ and which
root is used (`render_eq`). When there is no description, two sources collide or the CUDA root is
missing (`render_error`).
-/

namespace NativeExtension.Ninja

/-- The CUDA compiler as the commands call it, if CUDA is used. -/
def nvccArgument (spec : BuildSpec) (toolchain : Toolchain) : Except ConfigError (Option String) :=
  if spec.hasDevice then (toolchain.nvcc).map fun program => some (quotePath toolchain.os program)
  else .ok none

/-- The plan that is settled by the include directories, the CUDA compiler and the flags of
the linker. -/
def settled (spec : BuildSpec) (toolchain : Toolchain) (includes : List Path)
    (nvcc : Option String) (link : List String) : Plan where
  edges := spec.sources.map objectEdge
  cxx := toolchain.cxx
  nvcc := nvcc
  hostFlags := hostFlags spec includes toolchain.os
  deviceFlags := deviceFlags spec
  linkFlags := link
  library := toolchain.artifactName spec.name

/-- When no two collide, what comes behind the earlier compilations does not depend on them.
-/
theorem objectEdgesAfter_ok {earlier edges : List ObjectEdge} {sources : List Path}
    (h : objectEdgesAfter earlier sources = .ok edges) :
    edges = earlier ++ sources.map objectEdge := by
  induction sources generalizing earlier with
  | nil =>
      obtain rfl := Except.ok.inj h
      simp
  | cons source rest ih =>
      rw [objectEdgesAfter] at h
      split at h
      · cases h
      · rw [ih h]
        simp

/-- The plan is made of four answers that may fail, in this order; nothing else in it can. -/
theorem plan_eq (spec : BuildSpec) (toolchain : Toolchain) :
    plan spec toolchain = (do
      let _ ← objectEdges spec.sources
      let includes ← includeDirs spec toolchain
      let nvcc ← nvccArgument spec toolchain
      let link ← linkFlags spec toolchain
      return settled spec toolchain includes nvcc link) := by
  unfold plan nvccArgument
  cases hedges : objectEdges spec.sources with
  | error e => rfl
  | ok edges =>
      obtain rfl := objectEdgesAfter_ok hedges
      cases spec.hasDevice <;> rfl

theorem plan_settles {spec : BuildSpec} {toolchain : Toolchain} {p : Plan}
    (h : plan spec toolchain = .ok p) :
    ∃ includes nvcc link, includeDirs spec toolchain = .ok includes ∧
      nvccArgument spec toolchain = .ok nvcc ∧ linkFlags spec toolchain = .ok link ∧
      p = settled spec toolchain includes nvcc link := by
  rw [plan_eq] at h
  obtain ⟨-, -, h⟩ := bind_ok_iff.mp h
  obtain ⟨includes, hincludes, h⟩ := bind_ok_iff.mp h
  obtain ⟨nvcc, hnvcc, h⟩ := bind_ok_iff.mp h
  obtain ⟨link, hlink, h⟩ := bind_ok_iff.mp h
  exact ⟨includes, nvcc, link, hincludes, hnvcc, hlink, (ok_iff_pure.mp h).symm⟩

theorem render_settles {spec : BuildSpec} {toolchain : Toolchain} {text : String}
    (h : render spec toolchain = .ok text) :
    ∃ includes nvcc link, includeDirs spec toolchain = .ok includes ∧
      nvccArgument spec toolchain = .ok nvcc ∧ linkFlags spec toolchain = .ok link ∧
      text = fileText (settled spec toolchain includes nvcc link).statements := by
  unfold render statements at h
  obtain ⟨written, hwritten, rfl⟩ := map_ok_iff.mp h
  obtain ⟨p, hplan, rfl⟩ := map_ok_iff.mp hwritten
  obtain ⟨includes, nvcc, link, hincludes, hnvcc, hlink, rfl⟩ := plan_settles hplan
  exact ⟨includes, nvcc, link, hincludes, hnvcc, hlink, rfl⟩

/-- Each tool below the CUDA root is found as soon as there is a root. -/
theorem joinCudaHome_ok {home : Option Path} {parts : List String} {p : Path}
    (h : joinCudaHome home parts = .ok p) :
    ∃ root, home = some root ∧ p = parts.foldl Path.joinText root := by
  unfold joinCudaHome at h
  split at h
  · cases h
  · next root => exact ⟨root, rfl, (Except.ok.inj h).symm⟩

/-- Without CUDA sources the compiler is not even looked for. -/
theorem nvccArgument_ok {spec : BuildSpec} {toolchain : Toolchain} {nvcc : Option String}
    (h : nvccArgument spec toolchain = .ok nvcc) :
    spec.hasDevice = false ∧ nvcc = none ∨
      spec.hasDevice = true ∧ ∃ program, toolchain.nvcc = .ok program ∧
        nvcc = some (quotePath toolchain.os program) := by
  unfold nvccArgument at h
  split at h
  · next hdevice =>
    obtain ⟨program, hprogram, rfl⟩ := map_ok_iff.mp h
    exact Or.inr ⟨hdevice, program, hprogram, rfl⟩
  · next hdevice =>
    obtain rfl := Except.ok.inj h
    exact Or.inl ⟨by simpa using hdevice, rfl⟩

theorem isSome_nvccArgument {spec : BuildSpec} {toolchain : Toolchain} {nvcc : Option String}
    (h : nvccArgument spec toolchain = .ok nvcc) : nvcc.isSome = spec.hasDevice := by
  rcases nvccArgument_ok h with ⟨hhost, rfl⟩ | ⟨hdevice, program, -, rfl⟩
  · rw [hhost, Option.isSome_none]
  · rw [hdevice, Option.isSome_some]

/-- The libraries of CUDA are linked only with CUDA sources. -/
theorem linkFlags_ok {spec : BuildSpec} {toolchain : Toolchain} {link : List String}
    (h : linkFlags spec toolchain = .ok link) :
    spec.hasDevice = false ∧ link = "-shared" :: spec.linkFlags ++ toolchain.os.openSymbolFlags ∨
      spec.hasDevice = true ∧ ∃ dir, toolchain.cudaLibDir = .ok dir ∧
        link = "-shared" :: spec.linkFlags ++
          ["-L" ++ quotePath toolchain.os dir, "-lcudart"] ++ toolchain.os.openSymbolFlags := by
  unfold linkFlags at h
  split at h
  · next hdevice =>
    obtain ⟨cuda, hcuda, h⟩ := bind_ok_iff.mp h
    obtain ⟨dir, hdir, rfl⟩ := map_ok_iff.mp hcuda
    exact Or.inr ⟨hdevice, dir, hdir, (ok_iff_pure.mp h).symm⟩
  · next hdevice =>
    obtain ⟨cuda, hcuda, h⟩ := bind_ok_iff.mp h
    obtain rfl := Except.ok.inj hcuda
    refine Or.inl ⟨by simpa using hdevice, ?_⟩
    simpa using (ok_iff_pure.mp h).symm

/-! ### The CUDA root -/

/-- The CUDA root, as far as a description has to do with it: none if CUDA is not used. -/
def usedRoot (spec : BuildSpec) (toolchain : Toolchain) : Except ConfigError (Option Path) :=
  if spec.hasDevice then
    match toolchain.cudaHome with
    | some root => .ok (some root)
    | none => .error .cudaRootMissing
  else .ok none

theorem usedRoot_error_iff {spec : BuildSpec} {toolchain : Toolchain} {error : ConfigError} :
    usedRoot spec toolchain = .error error ↔
      error = .cudaRootMissing ∧ spec.hasDevice = true ∧ toolchain.cudaHome = none := by
  unfold usedRoot
  cases spec.hasDevice <;> cases toolchain.cudaHome <;> simp [eq_comm]

theorem usedRoot_ok_iff {spec : BuildSpec} {toolchain : Toolchain} {root : Option Path} :
    usedRoot spec toolchain = .ok root ↔
      spec.hasDevice = false ∧ root = none ∨
        spec.hasDevice = true ∧ ∃ home, toolchain.cudaHome = some home ∧ root = some home := by
  unfold usedRoot
  cases spec.hasDevice <;> cases toolchain.cudaHome <;> simp [eq_comm]

/-- The include directories in search order, repetitions included. -/
def searchOrder (spec : BuildSpec) (toolchain : Toolchain) (root : Option Path) : List Path :=
  spec.includes ++ toolchain.bundledIncludes ++ (root.map (·.joinText "include")).toList ++
    toolchain.runtimeIncludes

/-- The CUDA compiler below a root, as the commands call it. -/
def nvccBelow (os : Os) (root : Path) : String :=
  quotePath os ((root.joinText "bin").joinText (os.executable "nvcc"))

/-- What a CUDA root adds to the flags of the linker. -/
def cudaLinkFlags (os : Os) (root : Path) : List String :=
  ["-L" ++ quotePath os (root.joinText "lib64"), "-lcudart"]

/-- The plan that is settled by the CUDA root that is used. -/
def planned (spec : BuildSpec) (toolchain : Toolchain) (root : Option Path) : Plan :=
  settled spec toolchain (firstSeen [] (searchOrder spec toolchain root))
    (root.map (nvccBelow toolchain.os))
    ("-shared" :: spec.linkFlags ++ root.elim [] (cudaLinkFlags toolchain.os) ++
      toolchain.os.openSymbolFlags)

theorem includeCandidates_eq (spec : BuildSpec) (toolchain : Toolchain) :
    includeCandidates spec toolchain =
      (usedRoot spec toolchain).map (searchOrder spec toolchain) := by
  unfold includeCandidates usedRoot Toolchain.cudaIncludeDir
  cases spec.hasDevice with
  | false => rfl
  | true => cases toolchain.cudaHome <;> rfl

theorem nvccArgument_eq (spec : BuildSpec) (toolchain : Toolchain) :
    nvccArgument spec toolchain =
      (usedRoot spec toolchain).map (Option.map (nvccBelow toolchain.os)) := by
  unfold nvccArgument usedRoot Toolchain.nvcc
  cases spec.hasDevice with
  | false => rfl
  | true => cases toolchain.cudaHome <;> rfl

theorem linkFlags_eq (spec : BuildSpec) (toolchain : Toolchain) :
    linkFlags spec toolchain = (usedRoot spec toolchain).map fun root =>
      "-shared" :: spec.linkFlags ++ root.elim [] (cudaLinkFlags toolchain.os) ++
        toolchain.os.openSymbolFlags := by
  unfold linkFlags usedRoot Toolchain.cudaLibDir
  cases spec.hasDevice with
  | false => rfl
  | true => cases toolchain.cudaHome <;> rfl

/-- **All that is left to decide is whether the objects differ and which CUDA root is used.** -/
theorem render_eq (spec : BuildSpec) (toolchain : Toolchain) :
    render spec toolchain = (do
      let _ ← objectEdges spec.sources
      (usedRoot spec toolchain).map fun root =>
        fileText (planned spec toolchain root).statements) := by
  unfold render statements
  rw [plan_eq]
  unfold includeDirs
  rw [includeCandidates_eq, nvccArgument_eq, linkFlags_eq]
  cases objectEdges spec.sources with
  | error e => rfl
  | ok edges => cases usedRoot spec toolchain <;> rfl

/-- **A description cannot be had only if two sources collide or the CUDA root is missing.** -/
theorem render_error {spec : BuildSpec} {toolchain : Toolchain} {error : ConfigError}
    (h : render spec toolchain = .error error) :
    error = .cudaRootMissing ∨
      ∃ object first second, error = .objectCollision object first second := by
  rw [render_eq] at h
  rcases bind_error_iff.mp h with hobjects | ⟨_, -, hroot⟩
  · exact Or.inr (objectEdges_error hobjects).2
  · exact Or.inl (usedRoot_error_iff.mp (map_error_iff.mp hroot)).1

end NativeExtension.Ninja
