import NativeExtension.Proofs.Session.Along
import NativeExtension.Session.Build

/-!
# NativeExtension.Proofs.Session.Frame

**What building leaves alone.** Apart from the verdict on the compiler and the CUDA root, which are
remembered, a build does nothing to a session but to change its machine, to start programs and to
report. A relation that overlooks the machine and what is reported (`Overlooks`) therefore holds
across a build as soon as it holds across those few steps (`along_buildWith`): each action is looked
at once, whatever the relation.

So no step on the way from a request to a finished build touches the open libraries, the extensions
loaded so far or the registry (`keeps_buildWith`, `keeps_build`): only loading does.
-/

namespace NativeExtension

namespace Session

section Toolchain

variable {R : Session → Session → Prop} [Composes R]

/-! ### The toolchain -/

theorem along_getMachine : Along R getMachine := Along.get

theorem along_searchCudaRoot {os : Os}
    (hstart : Along R (start { program := utf8 os.searchProgram, arguments := [utf8 "nvcc"] })) :
    Along R (searchCudaRoot os) := by
  refine Along.bind hstart ?_
  intro result
  cases result with
  | error e => exact Along.pure _
  | ok outcome =>
      dsimp only
      split <;> exact Along.pure _

theorem along_findCudaRoot
    (hstart : Along R
      (start { program := utf8 Os.linux.searchProgram, arguments := [utf8 "nvcc"] })) :
    Along R findCudaRoot := by
  refine Along.bind along_getMachine ?_
  intro m
  split
  · exact Along.pure _
  · split
    · exact Along.pure _
    · exact along_searchCudaRoot hstart

/-- Two cases: a root that is remembered is given, else one is looked for and remembered. -/
theorem along_cudaRoot (hfind : Along R findCudaRoot)
    (hset : ∀ (s : Session) (root : Option Path), R s { s with knownCudaRoot := some root }) :
    Along R cudaRoot := by
  refine Along.bind Along.get ?_
  intro s
  split
  · exact Along.pure _
  · refine Along.bind hfind ?_
    intro root
    exact Along.bind (Along.of_modify fun s => hset s root) fun _ => Along.pure _

theorem along_detectToolchain (hroot : Along R cudaRoot) : Along R detectToolchain := by
  refine Along.bind hroot ?_
  intro root
  exact Along.bind along_getMachine fun m => Along.pure _

/-- The check of a compiler starts it and reports on it. -/
theorem along_checkCompiler {compiler : String} (hstart : Along R (start (versionQuery compiler)))
    (hwarn : ∀ message details, Along R (report .warn .compiler message details)) :
    Along R (checkCompiler compiler) := by
  have hincompatible : ∀ compiler, Along R (warnIncompatible compiler) := fun _ => hwarn _ _
  refine Along.bind hstart ?_
  intro result
  cases result with
  | error e =>
      refine Along.bind (hwarn _ _) ?_
      intro _
      exact Along.bind (hincompatible _) fun _ => Along.pure _
  | ok outcome =>
      dsimp only
      split
      · exact Along.bind (hincompatible _) fun _ => Along.pure _
      · split
        · exact Along.pure _
        · exact Along.bind (hincompatible _) fun _ => Along.pure _

/-- As for the root: the check is run only without a remembered verdict. -/
theorem along_compilerCompatible {compiler : String} (hcheck : Along R (checkCompiler compiler))
    (hset : ∀ (s : Session) (verdict : Bool),
      R s { s with verdicts := (compiler, verdict) :: s.verdicts }) :
    Along R (compilerCompatible compiler) := by
  refine Along.bind Along.get ?_
  intro s
  split
  · exact Along.pure _
  · refine Along.bind hcheck ?_
    intro verdict
    exact Along.bind (Along.of_modify fun s => hset s verdict) fun _ => Along.pure _

end Toolchain

end Session

/-- The relation overlooks changes of the machine, and all reports but those on a compiler. -/
class Overlooks (R : Session → Session → Prop) : Prop extends Composes R where
  machine : ∀ (s : Session) (m : Machine), R s { s with machine := m }
  report : ∀ {reporter : Reporter}, reporter ≠ .compiler →
    ∀ (level : Level) (message : String) (details : List (String × String)),
      Along R (Session.report level reporter message details)

namespace Session

section Build

variable {R : Session → Session → Prop} [Overlooks R]

/-! ### The build -/

theorem along_setMachine (m : Machine) : Along R (setMachine m) := fun s => Overlooks.machine s m

theorem along_step (verbose : Bool) (message : String) : Along R (step verbose message) := by
  unfold step
  split
  · exact Overlooks.report (by decide) _ _ _
  · exact Along.pure _

theorem along_checkRunner {runner : Runner} (hstart : Along R (start runner.versionQuery)) :
    Along R (checkRunner runner).run := by
  refine Along.attempt_bind (Along.lift hstart) ?_
  intro result
  cases result with
  | error e => exact Along.attempt_throw _
  | ok outcome =>
      dsimp only
      split
      · exact Along.attempt_throw _
      · exact Along.attempt_pure _

theorem along_checkRequest (options : LoadOptions) : Along R (checkRequest options).run :=
  Along.attempt_bind (Along.lift along_getMachine) fun _ => Along.attempt _

/-- A call on the files changes the machine alone, whether it succeeds or not. -/
theorem along_onFiles (path : Path) (call : Machine → Except SystemError Unit × Machine) :
    Along R (onFiles path call).run := by
  refine Along.attempt_bind (Along.lift along_getMachine) ?_
  intro m
  refine Along.attempt_bind (Along.lift (along_setMachine _)) ?_
  intro _
  cases (call m).1 with
  | error e => exact Along.attempt_throw _
  | ok a => exact Along.attempt_pure _

theorem along_resolveWorkspace (name : String) (explicit : Option Path) :
    Along R (resolveWorkspace name explicit).run := by
  cases explicit with
  | some directory => exact Along.attempt_pure _
  | none =>
      refine Along.attempt_bind (Along.lift along_getMachine) ?_
      intro m
      exact Along.attempt_bind (along_onFiles _ _) fun _ => Along.attempt_pure _

/-- Whichever way a header is installed, there are only calls on the files. -/
theorem along_installHeader (directory : Path) : Along R (installHeader directory).run := by
  refine Along.attempt_bind (Along.lift along_getMachine) ?_
  intro m
  split
  · exact Along.attempt_pure _
  · split
    · refine Along.attempt_bind (along_onFiles _ _) ?_
      intro _
      exact Along.attempt_bind (along_onFiles _ _) fun _ => Along.attempt_pure _
    · exact Along.attempt_bind (along_onFiles _ _) fun _ => Along.attempt_pure _

theorem along_installHeaders (directories : List Path) :
    Along R (installHeaders directories).run := by
  induction directories with
  | nil => exact Along.attempt_pure _
  | cons directory rest ih =>
      exact Along.attempt_bind (along_installHeader directory) fun _ => ih

theorem along_writeDescription (path : Path) (spec : BuildSpec) (toolchain : Toolchain) :
    Along R (writeDescription path spec toolchain).run :=
  Along.attempt_bind (Along.attempt _) fun _ => along_onFiles _ _

/-- A preparation is made of the actions above; where CUDA is used it reports once more. -/
theorem along_prepare (options : LoadOptions) {toolchain : Toolchain} {runner : Runner}
    (hrunner : Along R (start runner.versionQuery))
    (hcompiler : Along R (compilerCompatible toolchain.cxx)) :
    Along R (prepare options toolchain runner).run := by
  refine Along.attempt_bind (Along.raising (along_checkRunner hrunner)) ?_
  intro _
  refine Along.attempt_bind (along_checkRequest options) ?_
  intro spec
  refine Along.attempt_bind (along_resolveWorkspace _ _) ?_
  intro workspace
  refine Along.attempt_bind (Along.lift (along_step _ _)) ?_
  intro _
  have hrest : Along R (do
      let _ ← compilerCompatible toolchain.cxx
      installHeaders toolchain.bundledIncludes
      step options.verbose ("Emitting ninja build file " ++ (buildFile workspace).display)
      writeDescription (buildFile workspace) spec toolchain
      return (spec, workspace) : Attempt Error (BuildSpec × Path)).run := by
    refine Along.attempt_bind (Along.lift hcompiler) ?_
    intro _
    refine Along.attempt_bind (along_installHeaders _) ?_
    intro _
    refine Along.attempt_bind (Along.lift (along_step _ _)) ?_
    intro _
    exact Along.attempt_bind (along_writeDescription _ _ _) fun _ => Along.attempt_pure _
  dsimp only
  split
  · exact Along.attempt_bind (Along.lift (along_step _ _)) fun _ => hrest
  · exact hrest

theorem along_runBuild {runner : Runner} {workspace : Path} (name : String)
    (hstart : Along R (start (runner.buildCommand workspace))) :
    Along R (runBuild runner name workspace).run := by
  refine Along.attempt_bind (Along.lift (Overlooks.report (by decide) _ _ _)) ?_
  intro _
  refine Along.attempt_bind (Along.lift hstart) ?_
  intro result
  cases result with
  | error e => exact Along.attempt_throw _
  | ok outcome =>
      dsimp only
      split
      · exact Along.attempt_pure _
      · exact Along.attempt_throw _

/-- **What holds across the start of a program and the check of the compiler holds across a
build**, however it ends. -/
theorem along_buildWith (options : LoadOptions) {toolchain : Toolchain} {runner : Runner}
    (hstart : ∀ launch, Along R (start launch))
    (hcompiler : Along R (compilerCompatible toolchain.cxx)) :
    Along R (buildWith options toolchain runner).run := by
  refine Along.attempt_bind (along_prepare options (hstart _) hcompiler) ?_
  intro ready
  refine Along.attempt_bind (Along.lift (along_step _ _)) ?_
  intro _
  exact Along.attempt_bind (along_runBuild _ (hstart _)) fun _ => Along.attempt_pure _

end Build

end Session

/-! ### The libraries -/

/-- The two sessions have the same libraries open, extensions loaded and names registered. -/
structure SameLibraries (s s' : Session) : Prop where
  extensions : s'.extensions = s.extensions
  registry : s'.registry = s.registry
  loader : s'.loader = s.loader

namespace SameLibraries

theorem refl (s : Session) : SameLibraries s s := ⟨rfl, rfl, rfl⟩

theorem trans {s₁ s₂ s₃ : Session} (h : SameLibraries s₁ s₂) (h' : SameLibraries s₂ s₃) :
    SameLibraries s₁ s₃ :=
  ⟨h'.extensions.trans h.extensions, h'.registry.trans h.registry, h'.loader.trans h.loader⟩

instance : Overlooks SameLibraries where
  refl := refl
  trans := trans
  machine := fun _ _ => ⟨rfl, rfl, rfl⟩
  report := fun _ _ _ _ _ => ⟨rfl, rfl, rfl⟩

end SameLibraries

/-- The action leaves the libraries of every session alone. -/
def Keeps {α : Type} (action : Action α) : Prop := ∀ s, SameLibraries s (action.run s).2

namespace Session

theorem keeps_step (verbose : Bool) (message : String) : Keeps (step verbose message) :=
  along_step _ _

theorem keeps_start (launch : Launch) : Keeps (start launch) := by
  intro s
  rw [run_start]
  exact ⟨rfl, rfl, rfl⟩

theorem keeps_detectToolchain : Keeps detectToolchain :=
  along_detectToolchain
    (along_cudaRoot (along_findCudaRoot (keeps_start _)) fun _ _ => ⟨rfl, rfl, rfl⟩)

theorem keeps_compilerCompatible (compiler : String) : Keeps (compilerCompatible compiler) :=
  along_compilerCompatible
    (along_checkCompiler (keeps_start _) fun _ _ _ => ⟨rfl, rfl, rfl⟩) fun _ _ => ⟨rfl, rfl, rfl⟩

/-- **A build leaves the libraries alone**, however it ends. -/
theorem keeps_buildWith (options : LoadOptions) (toolchain : Toolchain) (runner : Runner) :
    Keeps (buildWith options toolchain runner).run :=
  along_buildWith options keeps_start (keeps_compilerCompatible _)

theorem keeps_build (options : LoadOptions) : Keeps (build options).run := by
  refine Along.attempt_bind (Along.lift keeps_detectToolchain) ?_
  intro toolchain
  exact Along.attempt_bind (Along.lift along_getMachine) fun m => keeps_buildWith _ _ _

end Session

end NativeExtension
