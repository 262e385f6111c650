import NativeExtension.Proofs.Ninja.Lines
import NativeExtension.Proofs.Ninja.Settling

/-!
# NativeExtension.Proofs.Ninja.CudaReach

**How far CUDA reaches into a description.** There is a description unless two sources collide
or CUDA is used and has no root, and a collision is reported first (`render_collision_iff`,
`render_rootMissing_iff`, `render_written_iff`). Where CUDA is not used, neither its root nor its
flags are looked at. Where it is used, its flags stand in one variable, and the lines above and
below that variable are written without them (`render_cudaReach`).
-/

namespace NativeExtension.Ninja

/-- Some source goes through the CUDA compiler. -/
def UsesCuda (spec : BuildSpec) : Prop := ∃ source ∈ spec.sources, source.isDeviceSource = true

instance (spec : BuildSpec) : Decidable (UsesCuda spec) :=
  inferInstanceAs (Decidable (∃ source ∈ spec.sources, source.isDeviceSource = true))

theorem hasDevice_iff {spec : BuildSpec} : spec.hasDevice = true ↔ UsesCuda spec :=
  List.any_eq_true

/-! ### Whether there is a description -/

section Outcome

variable {spec : BuildSpec} {toolchain : Toolchain}

theorem render_of_nodup (h : (spec.sources.map objectName).Nodup) :
    render spec toolchain =
      (usedRoot spec toolchain).map fun root =>
        fileText (planned spec toolchain root).statements := by
  rw [render_eq, objectEdges_ok_iff.mpr ⟨rfl, h⟩]
  rfl

theorem render_of_collision {error : ConfigError} (h : objectEdges spec.sources = .error error) :
    render spec toolchain = .error error := by
  rw [render_eq, h]
  rfl

/-- Collisions are looked for first, so no other error can hide one. -/
theorem render_collision_iff {object : String} {first second : Path} :
    render spec toolchain = .error (.objectCollision object first second) ↔
      objectEdges spec.sources = .error (.objectCollision object first second) := by
  constructor
  · intro h
    rw [render_eq] at h
    rcases bind_error_iff.mp h with hobjects | ⟨_, -, hroot⟩
    · exact hobjects
    · cases (usedRoot_error_iff.mp (map_error_iff.mp hroot)).1
  · exact render_of_collision

/-- The lack of a root is told only where no two sources collide. -/
theorem render_rootMissing_iff :
    render spec toolchain = .error .cudaRootMissing ↔
      (spec.sources.map objectName).Nodup ∧ UsesCuda spec ∧ toolchain.cudaHome = none := by
  rcases objectEdges_cases spec.sources with ⟨-, hnodup⟩ |
      ⟨front, first, second, back, hsplit, -, hfirst, hsame, herror⟩
  · rw [render_of_nodup hnodup, map_error_iff, usedRoot_error_iff, hasDevice_iff]
    simp [hnodup]
  · rw [render_of_collision herror]
    simp [not_nodup_of_split hsplit hfirst hsame]

theorem render_written_iff :
    (∃ text, render spec toolchain = .ok text) ↔
      (spec.sources.map objectName).Nodup ∧ (UsesCuda spec → toolchain.cudaHome ≠ none) := by
  rcases objectEdges_cases spec.sources with ⟨-, hnodup⟩ |
      ⟨front, first, second, back, hsplit, -, hfirst, hsame, herror⟩
  · rw [render_of_nodup hnodup, ← hasDevice_iff]
    unfold usedRoot
    cases spec.hasDevice <;> cases toolchain.cudaHome <;> simp [hnodup, Except.map]
  · rw [render_of_collision herror]
    simp [not_nodup_of_split hsplit hfirst hsame]

end Outcome

/-! ### What depends on the root and on the flags -/

/-- **Without CUDA neither its root nor its flags are looked at.** -/
theorem render_of_host {spec : BuildSpec} (h : ¬UsesCuda spec) (toolchain : Toolchain)
    (home : Option Path) (flags : List String) :
    render { spec with deviceFlags := flags } { toolchain with cudaHome := home } =
      render spec toolchain := by
  have hhost : spec.hasDevice = false := by
    rw [← Bool.not_eq_true, hasDevice_iff]
    exact h
  have hroot : usedRoot spec toolchain = .ok none := usedRoot_ok_iff.mpr (Or.inl ⟨hhost, rfl⟩)
  have hroot' : usedRoot { spec with deviceFlags := flags } { toolchain with cudaHome := home } =
      .ok none := usedRoot_ok_iff.mpr (Or.inl ⟨hhost, rfl⟩)
  rw [render_eq, render_eq, hroot, hroot']
  rfl

/-- The lines of a text. -/
def linesOf (text : String) : List (List Char) := Text.fields '\n' text.toList

/-- The lines that statements are written as. -/
def writtenLines (statements : List Statement) : List (List Char) :=
  (statements.flatMap Statement.lines).flatMap (Text.fields '\n')

theorem writtenLines_append (front back : List Statement) :
    writtenLines (front ++ back) = writtenLines front ++ writtenLines back := by
  simp [writtenLines]

theorem writtenLines_variable (key value : String) :
    writtenLines [.variable key value] = linesOf (key ++ " = " ++ value) := by
  simp [writtenLines, Statement.lines, linesOf, String.toList_append]

/-- The lines of a file are those of its statements, and the empty one behind the last end. -/
theorem linesOf_fileText (statements : List Statement) :
    linesOf (fileText statements) = writtenLines statements ++ [[]] := by
  rw [linesOf, toList_fileText, Text.fields_flatMap_ended, writtenLines]

namespace Plan

/-- What stands above the flags of the CUDA compiler. -/
def aboveDeviceFlags (plan : Plan) : List Statement :=
  plan.toolStatements ++ [.variable "cflags" (joinFlags plan.hostFlags)]

/-- What stands below them. -/
def belowDeviceFlags (plan : Plan) : List Statement :=
  [.variable "ldflags" (joinFlags plan.linkFlags), .blank] ++ plan.ruleStatements ++
    plan.graphStatements

/-- All that the CUDA flags reach is one line; what stands above and below does not have them.
-/
theorem statements_of_nvcc {plan : Plan} {program : String} (h : plan.nvcc = some program) :
    plan.statements =
      plan.aboveDeviceFlags ++ [.variable "cuda_flags" (joinFlags plan.deviceFlags)] ++
        plan.belowDeviceFlags := by
  have hflags : plan.flagStatements = [.variable "cflags" (joinFlags plan.hostFlags)] ++
      [.variable "cuda_flags" (joinFlags plan.deviceFlags)] ++
      [.variable "ldflags" (joinFlags plan.linkFlags), .blank] := by
    rw [flagStatements, whenDevice, h]
  rw [statements, hflags, aboveDeviceFlags, belowDeviceFlags]
  simp only [List.append_assoc]

end Plan

/-- **With CUDA the flags stand in a variable of their own**, and no other line is written
with them. -/
theorem render_of_root {spec : BuildSpec} {toolchain : Toolchain} {root : Path}
    (hnodup : (spec.sources.map objectName).Nodup) (hdevice : UsesCuda spec)
    (hroot : toolchain.cudaHome = some root) :
    ∃ above below, ∀ flags, ∃ text,
      render { spec with deviceFlags := flags } toolchain = .ok text ∧
        linesOf text =
          above ++ linesOf ("cuda_flags = " ++ joinFlags ("--compiler-options '-fPIC'" :: flags)) ++
            below := by
  let plan := planned spec toolchain (some root)
  refine ⟨writtenLines plan.aboveDeviceFlags, writtenLines plan.belowDeviceFlags ++ [[]], ?_⟩
  intro flags
  let spec' := { spec with deviceFlags := flags }
  have hused : usedRoot spec' toolchain = .ok (some root) :=
    usedRoot_ok_iff.mpr (Or.inr ⟨hasDevice_iff.mpr hdevice, root, hroot, rfl⟩)
  refine ⟨fileText (planned spec' toolchain (some root)).statements, ?_, ?_⟩
  · have hrender : render spec' toolchain = _ := render_of_nodup hnodup
    rw [hused] at hrender
    exact hrender
  · -- the plan for these flags differs from `plan` in these flags alone
    have hplan : planned spec' toolchain (some root) =
        { plan with deviceFlags := deviceFlags spec' } := rfl
    rw [linesOf_fileText, Plan.statements_of_nvcc rfl, writtenLines_append, writtenLines_append,
      writtenLines_variable, hplan, List.append_assoc]
    rfl

/-- What of CUDA can be told from a description. -/
structure CudaReach (spec : BuildSpec) (toolchain : Toolchain) : Prop where
  collides :
    (∃ object first second,
      render spec toolchain = .error (.objectCollision object first second)) ↔
      ¬(spec.sources.map objectName).Nodup
  /-- The sources that are named are those that the compilations name. -/
  collision : ∀ object first second,
    render spec toolchain = .error (.objectCollision object first second) ↔
      objectEdges spec.sources = .error (.objectCollision object first second)
  rootMissing :
    render spec toolchain = .error .cudaRootMissing ↔
      (spec.sources.map objectName).Nodup ∧ UsesCuda spec ∧ toolchain.cudaHome = none
  written :
    (∃ text, render spec toolchain = .ok text) ↔
      (spec.sources.map objectName).Nodup ∧ (UsesCuda spec → toolchain.cudaHome ≠ none)
  noOther : ∀ error, render spec toolchain = .error error →
    error = .cudaRootMissing ∨ ∃ object first second, error = .objectCollision object first second
  host : ¬UsesCuda spec → ∀ home flags,
    render { spec with deviceFlags := flags } { toolchain with cudaHome := home } =
      render spec toolchain
  /-- For other flags the failure is the same, or the lines above and below theirs are. -/
  device : UsesCuda spec → toolchain.cudaHome ≠ none →
    (∃ error, ∀ flags, render { spec with deviceFlags := flags } toolchain = .error error) ∨
    ∃ above below, ∀ flags, ∃ text,
      render { spec with deviceFlags := flags } toolchain = .ok text ∧
        linesOf text =
          above ++ linesOf ("cuda_flags = " ++ joinFlags ("--compiler-options '-fPIC'" :: flags)) ++
            below

/-- **A description fails exactly if it must, and says of CUDA what it has to.** -/
theorem render_cudaReach (spec : BuildSpec) (toolchain : Toolchain) :
    CudaReach spec toolchain where
  collides := by
    rcases objectEdges_cases spec.sources with ⟨hok, hnodup⟩ |
        ⟨front, first, second, back, hsplit, -, hfirst, hsame, herror⟩
    · simp [render_collision_iff, hok, hnodup]
    · refine iff_of_true ?_ (not_nodup_of_split hsplit hfirst hsame)
      exact ⟨_, first, second, render_collision_iff.mpr herror⟩
  collision _ _ _ := render_collision_iff
  rootMissing := render_rootMissing_iff
  written := render_written_iff
  noOther _ h := render_error h
  host h home flags := render_of_host h toolchain home flags
  device hdevice hhome := by
    obtain ⟨root, hroot⟩ := Option.ne_none_iff_exists'.mp hhome
    rcases objectEdges_cases spec.sources with ⟨-, hnodup⟩ | ⟨_, _, _, _, -, -, -, -, herror⟩
    · exact Or.inr (render_of_root hnodup hdevice hroot)
    · exact Or.inl ⟨_, fun flags => render_of_collision herror⟩

/-- A source for each compiler. -/
def flaggedSpec : BuildSpec where
  name := "ext"
  sources := [.ofText "/a/x.cpp", .ofText "/a/k.cu"]
  hostFlags := []
  deviceFlags := ["-O3"]
  linkFlags := []
  includes := []

/-- Nothing for the CUDA compiler, in spite of its flags. -/
def hostSpec : BuildSpec := { flaggedSpec with sources := [.ofText "/a/x.cpp", .ofText "/a/k.CU"] }

/-- A CUDA root that is relative and no text. -/
def oddToolchain : Toolchain where
  cudaHome := some ⟨[0xFF, 0x0A]⟩

theorem render_cudaReach_oddRoot :
    UsesCuda flaggedSpec ∧ oddToolchain.cudaHome ≠ none ∧ ¬UsesCuda hostSpec ∧
      (∃ text, ∀ home flags, render { hostSpec with deviceFlags := flags }
        { oddToolchain with cudaHome := home } = .ok text) ∧
      ∃ above below, ∀ flags, ∃ text,
        render { flaggedSpec with deviceFlags := flags } oddToolchain = .ok text ∧
          linesOf text =
            above ++
              linesOf ("cuda_flags = " ++ joinFlags ("--compiler-options '-fPIC'" :: flags)) ++
              below := by
  have hmixed := render_cudaReach flaggedSpec oddToolchain
  have hhost := render_cudaReach hostSpec oddToolchain
  have hdevice : UsesCuda flaggedSpec := by decide
  have hroot : oddToolchain.cudaHome ≠ none := by decide
  have hno : ¬UsesCuda hostSpec := by decide
  refine ⟨hdevice, hroot, hno, ?_, ?_⟩
  · obtain ⟨text, htext⟩ := hhost.written.mpr ⟨by decide, fun h => absurd h hno⟩
    exact ⟨text, fun home flags => (hhost.host hno home flags).trans htext⟩
  · obtain ⟨text, htext⟩ := hmixed.written.mpr ⟨by decide, fun _ => hroot⟩
    refine (hmixed.device hdevice hroot).resolve_left ?_
    intro hfails
    obtain ⟨error, herror⟩ := hfails
    have hboth : (.ok text : Except ConfigError String) = .error error :=
      htext.symm.trans (herror flaggedSpec.deviceFlags)
    cases hboth

end NativeExtension.Ninja
