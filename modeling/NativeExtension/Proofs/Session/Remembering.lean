import NativeExtension.Proofs.Session.BuildCourse
import NativeExtension.Proofs.Session.Run

/-!
# NativeExtension.Proofs.Session.Remembering

**What one call adds to what a process remembers.** All that a build does but the check of the
compiler leaves the verdicts alone, warns of no compiler and, but for the runner, asks nothing for
its version (`Unadvised`). The check itself does nothing if there is a verdict already; else it asks
the compiler once and remembers the verdict (`OnceAdvised`). The CUDA root is left alone by all but
the search for it (`SameRoot`), and once it is known it is what every later search gives
(`Session.rootNow`).
-/

namespace NativeExtension

open Session

namespace Session

/-- The warnings of compilers, in order. -/
def warnings (s : Session) : List Report :=
  s.journal.filterMap fun
    | .reported report => if report.reporter = .compiler then some report else none
    | _ => none

/-- The programs that were asked for their version, in order. -/
def versionQueries (s : Session) : List Launch := s.launches.filter (asksVersion ·)

/-- A start adds to the queries only if it asks for a version. -/
theorem versionQueries_start (launch : Launch) (s : Session) :
    ((start launch).run s).2.versionQueries =
      s.versionQueries ++ if asksVersion launch then [launch] else [] := by
  rw [versionQueries, launches_start, List.filter_append, versionQueries]
  by_cases hasks : asksVersion launch <;> simp [hasks]

theorem warnings_start (launch : Launch) (s : Session) :
    ((start launch).run s).2.warnings = s.warnings := by
  simp [run_start, warnings]

end Session

/-! ### Steps without advice -/

/-- No verdict is added, no warning given, and no program asked for its version. -/
structure Unadvised (s s' : Session) : Prop where
  verdicts : s'.verdicts = s.verdicts
  warnings : s'.warnings = s.warnings
  queries : s'.versionQueries = s.versionQueries

namespace Unadvised

theorem refl (s : Session) : Unadvised s s := ⟨rfl, rfl, rfl⟩

theorem trans {s₁ s₂ s₃ : Session} (h : Unadvised s₁ s₂) (h' : Unadvised s₂ s₃) :
    Unadvised s₁ s₃ :=
  ⟨h'.verdicts.trans h.verdicts, h'.warnings.trans h.warnings, h'.queries.trans h.queries⟩

instance : Overlooks Unadvised where
  refl := refl
  trans := trans
  machine := fun _ _ => ⟨rfl, rfl, rfl⟩
  report := fun hreporter _ _ _ s =>
    ⟨rfl, by simp [Session.warnings, hreporter], by simp [versionQueries, launches]⟩

theorem start {launch : Launch} (h : ¬ asksVersion launch) : Along Unadvised (start launch) :=
  fun s => ⟨rfl, warnings_start _ _, by simp [versionQueries_start, h]⟩

theorem cudaRoot : Along Unadvised cudaRoot :=
  along_cudaRoot (along_findCudaRoot (start (by decide))) fun _ _ => ⟨rfl, rfl, rfl⟩

theorem detectToolchain : Along Unadvised detectToolchain := along_detectToolchain cudaRoot

theorem describe (options : LoadOptions) (spec : BuildSpec) (workspace : Path)
    (toolchain : Toolchain) : Along Unadvised (describe options spec workspace toolchain).run := by
  refine Along.attempt_bind (along_installHeaders _) ?_
  intro _
  refine Along.attempt_bind (Along.lift (along_step _ _)) ?_
  intro _
  exact Along.attempt_bind (along_writeDescription _ _ _) fun _ => Along.attempt_pure _

theorem runBuild (runner : Runner) (name : String) (workspace : Path) :
    Along Unadvised (runBuild runner name workspace).run :=
  along_runBuild name (start (not_asksVersion rfl))

theorem loadArtifact (name : String) (directory : Path) (suffix : String) :
    Along Unadvised (loadArtifact name directory suffix).run :=
  along_loadArtifact (fun _ _ => ⟨rfl, rfl, rfl⟩) (fun _ _ => ⟨rfl, rfl, rfl⟩) name directory suffix

end Unadvised

/-! ### The check of a compiler -/

/-- A check asks the compiler for its version once, and leaves the verdicts to the caller. -/
theorem run_checkCompiler (compiler : String) (s : Session) :
    ((checkCompiler compiler).run s).2.verdicts = s.verdicts ∧
      ((checkCompiler compiler).run s).2.versionQueries =
        s.versionQueries ++ [versionQuery compiler] := by
  have hasked : ((start (versionQuery compiler)).run s).2.versionQueries =
      s.versionQueries ++ [versionQuery compiler] := by
    rw [versionQueries_start]
    exact congrArg _ (if_pos rfl)
  have hverdicts : ((start (versionQuery compiler)).run s).2.verdicts = s.verdicts := rfl
  unfold checkCompiler
  rw [StateT.run_bind]
  generalize (start (versionQuery compiler)).run s = started at hasked hverdicts ⊢
  obtain ⟨result, s'⟩ := started
  dsimp only at hasked hverdicts
  rw [← hasked, ← hverdicts]
  have hreported : ∀ message details s,
      ((report .warn .compiler message details).run s).2.verdicts = s.verdicts ∧
        ((report .warn .compiler message details).run s).2.versionQueries = s.versionQueries :=
    fun _ _ _ => ⟨rfl, by simp [versionQueries, launches]⟩
  cases result with
  | error cause => exact ⟨rfl, (hreported _ _ _).2.trans (hreported _ _ s').2⟩
  | ok outcome =>
      dsimp only [bind]
      cases versionTold outcome.out with
      | none => exact hreported _ _ s'
      | some version =>
          dsimp only
          split
          · exact ⟨rfl, rfl⟩
          · exact hreported _ _ s'

/-- The verdict that is remembered is given again; else the compiler is checked, and the verdict
remembered. -/
theorem run_compilerCompatible (compiler : String) (s : Session) :
    (compilerCompatible compiler).run s =
      match s.verdicts.lookup compiler with
      | some verdict => (verdict, s)
      | none =>
        (((checkCompiler compiler).run s).1,
          { ((checkCompiler compiler).run s).2 with
            verdicts := (compiler, ((checkCompiler compiler).run s).1) ::
              ((checkCompiler compiler).run s).2.verdicts }) := by
  unfold compilerCompatible
  rw [StateT.run_bind]
  change StateT.run (match s.verdicts.lookup compiler with
    | some verdict => pure verdict
    | none => _) s = _
  cases s.verdicts.lookup compiler <;> rfl

/-- At most the verdict on one compiler was sought on the way, after nothing but edits. -/
inductive OnceAdvised (compiler : String) (s s' : Session) : Prop where
  | unheeded (h : Unadvised s s')
  | sought (asked : Session) (hbefore : Unadvised s asked)
      (hedits : Edits .any s.machine asked.machine)
      (hafter : Unadvised ((compilerCompatible compiler).run asked).2 s')

namespace OnceAdvised

variable {compiler : String} {s s' s'' : Session}

theorem after (h : OnceAdvised compiler s s') (hlater : Unadvised s' s'') :
    OnceAdvised compiler s s'' := by
  cases h with
  | unheeded h => exact .unheeded (h.trans hlater)
  | sought asked hbefore hedits hafter =>
      exact .sought asked hbefore hedits (hafter.trans hlater)

/-- What comes behind the check gives no more advice, and a failed attempt has nothing behind
it. -/
theorem bind {ε α β : Type} {start : Session} {x : Attempt ε α} {next : α → Attempt ε β}
    (hx : OnceAdvised compiler s (x.run.run start).2)
    (hnext : ∀ a, Along Unadvised (next a).run) :
    OnceAdvised compiler s ((x >>= next).run.run start).2 := by
  rw [run_bind]
  cases hrun : x.run.run start with
  | mk result middle =>
      rw [hrun] at hx
      cases result with
      | error e => exact hx
      | ok a => exact hx.after (hnext a middle)

end OnceAdvised

/-! ### Builds and loads -/

section Builds

variable (options : LoadOptions) (toolchain : Toolchain) (runner : Runner)

end Builds

/-! ### The CUDA root -/

/-- What is known of the CUDA root is the same. -/
def SameRoot (s s' : Session) : Prop := s'.knownCudaRoot = s.knownCudaRoot

namespace SameRoot

instance : Overlooks SameRoot where
  refl := fun _ => rfl
  trans := fun h h' => h'.trans h
  machine := fun _ _ => rfl
  report := fun _ _ _ _ _ => rfl

theorem start (launch : Launch) : Along SameRoot (start launch) := fun _ => rfl

theorem compilerCompatible (compiler : String) : Along SameRoot (compilerCompatible compiler) :=
  along_compilerCompatible (along_checkCompiler (start _) fun _ _ _ => rfl) fun _ _ => rfl

theorem buildWith (options : LoadOptions) (toolchain : Toolchain) (runner : Runner) :
    Along SameRoot (buildWith options toolchain runner).run :=
  along_buildWith options start (compilerCompatible _)

theorem loadArtifact (name : String) (directory : Path) (suffix : String) :
    Along SameRoot (loadArtifact name directory suffix).run :=
  along_loadArtifact (fun _ _ => rfl) (fun _ _ => rfl) name directory suffix

theorem loadWith (options : LoadOptions) (toolchain : Toolchain) (runner : Runner) :
    Along SameRoot (loadWith options toolchain runner).run := by
  refine Along.attempt_bind (buildWith options toolchain runner) ?_
  intro output
  refine Along.attempt_bind (Along.lift (along_step _ _)) ?_
  intro _
  exact Along.raising (loadArtifact _ _ _)

end SameRoot

end NativeExtension
