import NativeExtension.Proofs.Session.BuildCourse
import NativeExtension.Proofs.Session.Run

/-!
# NativeExtension.Proofs.Session.SideBySide

**Two runs side by side.** An action goes `Alike` in sessions that are related if it gives the same
in both and leaves them related. That is carried along the actions' own structure: a build goes
alike as soon as the programs that it starts and the files that it makes do (`ActsAlike.buildWith`).
What the compiler answers is not read, so there it is enough that the sessions stay related.
-/

namespace NativeExtension

open Session

/-- The action gives the same in two related sessions, and leaves them related. -/
def Alike {α : Type} (T : Session → Session → Prop) (action : Action α) : Prop :=
  ∀ s s', T s s' → (action.run s').1 = (action.run s).1 ∧ T (action.run s).2 (action.run s').2

/-- The action leaves two related sessions related, whatever it gives. -/
def KeepsBeside {α : Type} (T : Session → Session → Prop) (action : Action α) : Prop :=
  ∀ s s', T s s' → T (action.run s).2 (action.run s').2

/-- The attempt gives that in some session that is related to another. -/
def GivesIn {ε α : Type} (T : Session → Session → Prop) (x : Attempt ε α) (a : α) : Prop :=
  ∃ s s' after : Session, T s s' ∧ x.run.run s = (.ok a, after)

theorem GivesIn.yields {T : Session → Session → Prop} {ε α : Type} {x : Attempt ε α} {a : α}
    {P : α → Prop} (h : GivesIn T x a) (hx : Yields x P) : P a := by
  obtain ⟨s, _, after, -, hrun⟩ := h
  exact hx s a after hrun

namespace Alike

variable {T : Session → Session → Prop} {ε δ α β : Type}

theorem keeps {action : Action α} (h : Alike T action) : KeepsBeside T action :=
  fun s s' hs => (h s s' hs).2

theorem pure (a : α) : Alike T (Pure.pure a : Action α) := fun _ _ h => ⟨rfl, h⟩

/-- Both runs go on with the same value, so what follows is the same action in both. -/
theorem bind {action : Action α} {next : α → Action β} (h : Alike T action)
    (hnext : ∀ a, Alike T (next a)) : Alike T (action >>= next) := by
  intro s s' hs
  obtain ⟨hresult, hafter⟩ := h s s' hs
  rw [StateT.run_bind, StateT.run_bind]
  change ((next (action.run s').1).run _).1 = _ ∧ T _ ((next (action.run s').1).run _).2
  rw [hresult]
  exact hnext _ _ _ hafter

/-! ### Attempts -/

theorem attempt_pure (a : α) : Alike T (Pure.pure a : Attempt ε α).run := fun _ _ h => ⟨rfl, h⟩

theorem attempt_throw (e : ε) : Alike T (throw e : Attempt ε α).run := fun _ _ h => ⟨rfl, h⟩

/-- An attempt that fails does so in both runs; what follows need go alike only for values
that the attempt can give. -/
theorem attempt_bind {x : Attempt ε α} {next : α → Attempt ε β} (hx : Alike T x.run)
    (hnext : ∀ a, GivesIn T x a → Alike T (next a).run) : Alike T (x >>= next).run := by
  intro s s' h
  obtain ⟨hresult, hafter⟩ := hx s s' h
  have hgives : ∀ a, (x.run.run s).1 = .ok a → GivesIn T x a :=
    fun a ha => ⟨s, s', _, h, Prod.ext ha rfl⟩
  rw [run_bind, run_bind]
  generalize x.run.run s = first, x.run.run s' = first' at hresult hafter hgives ⊢
  obtain ⟨result, after⟩ := first
  obtain ⟨result', after'⟩ := first'
  obtain rfl : result' = result := hresult
  cases result' with
  | error e => exact ⟨rfl, hafter⟩
  | ok a => exact hnext a (hgives a rfl) after after' hafter

theorem lift_bind {action : Action α} {next : α → Attempt ε β} (h : Alike T action)
    (hnext : ∀ a, Alike T (next a).run) : Alike T (liftM action >>= next).run := by
  intro s s' hs
  obtain ⟨hresult, hafter⟩ := h s s' hs
  rw [run_lift_bind, run_lift_bind, hresult]
  exact hnext _ _ _ hafter

/-- What an action gives does not matter to what does not ask. -/
theorem skip {action : Action α} {x : Attempt ε β} (haction : KeepsBeside T action)
    (hx : Alike T x.run) : Alike T (liftM action >>= fun _ => x).run := by
  intro s s' h
  rw [run_lift_bind, run_lift_bind]
  exact hx _ _ (haction s s' h)

theorem raising {f : ε → δ} {x : Attempt ε α} (hx : Alike T x.run) :
    Alike T (Session.raising f x).run := by
  intro s s' h
  obtain ⟨hresult, hafter⟩ := hx s s' h
  rw [run_raising, run_raising, hresult]
  exact ⟨rfl, hafter⟩

theorem attempt (result : Except ε α) : Alike T (Session.attempt result).run := by
  cases result with
  | error e => exact attempt_throw e
  | ok a => exact attempt_pure a

/-- What looks at the machine may do so, if it sees the same in both sessions. -/
theorem getMachine {next : Machine → Attempt ε α}
    (hsame : ∀ s s', T s s' → next s'.machine = next s.machine)
    (hnext : ∀ s s', T s s' → Alike T (next s.machine).run) :
    Alike T (liftM Session.getMachine >>= next).run := by
  intro s s' h
  rw [run_lift_bind, run_lift_bind, run_getMachine, run_getMachine, hsame s s' h]
  exact hnext s s' h s s' h

/-- Enough that the call itself answers the same and leaves the machines related. -/
theorem onFiles {path : Path} {call : Machine → Except SystemError Unit × Machine}
    (hcall : ∀ s s', T s s' → (call s'.machine).1 = (call s.machine).1 ∧
      T { s with machine := (call s.machine).2 } { s' with machine := (call s'.machine).2 }) :
    Alike T (Session.onFiles path call).run := by
  intro s s' h
  obtain ⟨hresult, hafter⟩ := hcall s s' h
  rw [run_onFiles, run_onFiles, hresult]
  exact ⟨rfl, hafter⟩

/-- A write that is refused leaves both machines as they were. -/
theorem writeFile {path : Path} {bytes : Bytes}
    (hwrite : ∀ s s', T s s' → SameOutcome Eq
      (fun m m' => T { s with machine := m } { s' with machine := m' })
      (s.machine.write path bytes) (s'.machine.write path bytes)) :
    Alike T (Session.writeFile path bytes).run := by
  refine Alike.onFiles ?_
  intro s s' h
  have hwritten := hwrite s s' h
  generalize s.machine.write path bytes = written, s'.machine.write path bytes = written'
    at hwritten ⊢
  cases hwritten with
  | ok hafter => exact ⟨rfl, hafter⟩
  | error hcause =>
      rw [hcause]
      exact ⟨rfl, h⟩

/-- Whether the header has to be written is read in both sessions, so it has to read the same
there. -/
theorem installHeader {directory : Path}
    (hread : ∀ s s', T s s' →
      s'.machine.read? (headerIn directory) = s.machine.read? (headerIn directory))
    (hmake : ∀ parent, (headerIn directory).parent? = some parent →
      Alike T (makeDirectories parent).run)
    (hwrite : Alike T (Session.writeFile (headerIn directory) (utf8 extensionHeader)).run) :
    Alike T (Session.installHeader directory).run := by
  have hwrites : Alike T (do
      Session.writeFile (headerIn directory) (utf8 extensionHeader)
      return true : Attempt Error Bool).run :=
    Alike.attempt_bind hwrite fun _ _ => Alike.attempt_pure _
  refine Alike.getMachine ?_ ?_
  · intro s s' h
    have hsame := hread s s' h
    unfold headerIn at hsame
    rw [hsame]
  · intro s s' h
    split
    · exact Alike.attempt_pure _
    · split
      · next parent hparent => exact Alike.attempt_bind (hmake parent hparent) fun _ _ => hwrites
      · exact hwrites

end Alike

/-! ### A build -/

/-- What a build does to the machine goes alike in related sessions. -/
structure ActsAlike (T : Session → Session → Prop) (options : LoadOptions) (toolchain : Toolchain)
    (runner : Runner) (first : Machine) : Prop where
  cwd : ∀ s s', T s s' → s'.machine.cwd = s.machine.cwd
  env : ∀ s s', T s s' → s.machine.env = first.env ∧ s'.machine.env = first.env
  reports : ∀ level reporter message details,
    KeepsBeside T (report level reporter message details)
  checked : Alike T (start runner.versionQuery)
  judged : KeepsBeside T (compilerCompatible toolchain.cxx)
  made : options.buildDirectory = none →
    Alike T (makeDirectories (workspaceOf first.extensionsRoot options.name)).run
  installed : ∀ directory ∈ toolchain.bundledIncludes, Alike T (installHeader directory).run
  described : ∀ bytes, Alike T (writeFile (buildFile (workspacePath first options)) bytes).run
  told : Alike T (start (runner.buildCommand (workspacePath first options)))

section Build

variable {T : Session → Session → Prop} {options : LoadOptions} {toolchain : Toolchain}
  {runner : Runner} {first : Machine}

theorem keepsBeside_step
    (hreports : ∀ level reporter message details,
      KeepsBeside T (report level reporter message details)) (verbose : Bool) (message : String) :
    KeepsBeside T (step verbose message) := by
  unfold step
  split
  · exact hreports _ _ _ _
  · exact fun _ _ h => h

theorem alike_checkCompiler {compiler : String}
    (hstart : Alike T (start (versionQuery compiler)))
    (hreports : ∀ level reporter message details,
      KeepsBeside T (report level reporter message details)) :
    Alike T (checkCompiler compiler) := by
  have hreport : ∀ level reporter message details,
      Alike T (report level reporter message details) :=
    fun _ _ _ _ _ _ h => ⟨rfl, hreports _ _ _ _ _ _ h⟩
  refine Alike.bind hstart ?_
  intro result
  cases result with
  | error cause =>
      refine Alike.bind (hreport _ _ _ _) fun _ => ?_
      exact Alike.bind (hreport _ _ _ _) fun _ => Alike.pure _
  | ok outcome =>
      dsimp only
      split
      · exact Alike.bind (hreport _ _ _ _) fun _ => Alike.pure _
      · split
        · exact Alike.pure _
        · exact Alike.bind (hreport _ _ _ _) fun _ => Alike.pure _

/-- A verdict that is remembered in both is given in both; else both check, and remember the
same. -/
theorem alike_compilerCompatible {compiler : String}
    (hverdicts : ∀ s s', T s s' → s'.verdicts = s.verdicts)
    (hcheck : Alike T (checkCompiler compiler))
    (hremember : ∀ s s' (verdict : Bool), T s s' →
      T { s with verdicts := (compiler, verdict) :: s.verdicts }
        { s' with verdicts := (compiler, verdict) :: s'.verdicts }) :
    Alike T (compilerCompatible compiler) := by
  intro s s' h
  unfold compilerCompatible
  rw [StateT.run_bind, StateT.run_bind, StateT.run_get, StateT.run_get]
  dsimp only [bind, pure]
  rw [hverdicts s s' h]
  cases s.verdicts.lookup compiler with
  | some verdict => exact ⟨rfl, h⟩
  | none =>
      refine Alike.bind hcheck (fun verdict => ?_) s s' h
      exact Alike.bind (fun s s' h => ⟨rfl, hremember s s' verdict h⟩) fun _ => Alike.pure _

theorem alike_checkRunner (h : Alike T (start runner.versionQuery)) :
    Alike T (checkRunner runner).run := by
  refine Alike.lift_bind h ?_
  intro result
  cases result with
  | error cause => exact Alike.attempt_throw _
  | ok outcome =>
      dsimp only
      split
      · exact Alike.attempt_throw _
      · exact Alike.attempt_pure _

theorem alike_checkRequest (hcwd : ∀ s s', T s s' → s'.machine.cwd = s.machine.cwd)
    (options : LoadOptions) : Alike T (checkRequest options).run := by
  refine Alike.getMachine ?_ fun _ _ _ => Alike.attempt _
  intro s s' h
  rw [Machine.currentDir, Machine.currentDir, hcwd s s' h]

/-- By induction on the directories. -/
theorem alike_installHeaders {directories : List Path}
    (h : ∀ directory ∈ directories, Alike T (installHeader directory).run) :
    Alike T (installHeaders directories).run := by
  induction directories with
  | nil => exact Alike.attempt_pure _
  | cons directory rest ih =>
      obtain ⟨hfirst, hrest⟩ := List.forall_mem_cons.mp h
      exact Alike.attempt_bind hfirst fun _ _ => ih hrest

namespace ActsAlike

variable (h : ActsAlike T options toolchain runner first)

include h

theorem resolveWorkspace :
    Alike T (Session.resolveWorkspace options.name options.buildDirectory).run := by
  cases hexplicit : options.buildDirectory with
  | some directory => exact Alike.attempt_pure _
  | none =>
      refine Alike.getMachine ?_ ?_
      · intro s s' hs
        obtain ⟨henv, henv'⟩ := h.env s s' hs
        rw [extensionsRoot_congr (henv'.trans henv.symm)]
      · intro s s' hs
        rw [extensionsRoot_congr (h.env s s' hs).1]
        exact Alike.attempt_bind (h.made hexplicit) fun _ _ => Alike.attempt_pure _

/-- The stages of a preparation one after the other. The verdict on the compiler is dropped,
so for the check it is enough that the sessions stay related. -/
theorem prepare : Alike T (Session.prepare options toolchain runner).run := by
  refine Alike.attempt_bind (Alike.raising (alike_checkRunner h.checked)) ?_
  intro _ _
  refine Alike.attempt_bind (alike_checkRequest h.cwd options) ?_
  intro spec hspec
  have hname : spec.name = options.name := hspec.yields (checkRequest_yields options)
  rw [hname]
  refine Alike.attempt_bind h.resolveWorkspace ?_
  rintro workspace ⟨s, s', after, hs, hresolved⟩
  obtain rfl : workspace = workspacePath first options :=
    (resolveWorkspace_ok hresolved).trans (workspacePath_congr (h.env s s' hs).1 options)
  refine Alike.skip (keepsBeside_step h.reports _ _) ?_
  have hrest : Alike T (do
      let _ ← compilerCompatible toolchain.cxx
      installHeaders toolchain.bundledIncludes
      step options.verbose
        ("Emitting ninja build file " ++ (buildFile (workspacePath first options)).display)
      writeDescription (buildFile (workspacePath first options)) spec toolchain
      return (spec, workspacePath first options) : Attempt Error (BuildSpec × Path)).run := by
    refine Alike.skip h.judged ?_
    refine Alike.attempt_bind (alike_installHeaders h.installed) fun _ _ => ?_
    refine Alike.skip (keepsBeside_step h.reports _ _) ?_
    exact Alike.attempt_bind (Alike.attempt_bind (Alike.attempt _) fun _ _ => h.described _)
      fun _ _ => Alike.attempt_pure _
  dsimp only
  split
  · exact Alike.skip (keepsBeside_step h.reports _ _) hrest
  · exact hrest

/-- What the runner answers is all that the result of telling it depends on. -/
theorem runBuild (name : String) :
    Alike T (Session.runBuild runner name (workspacePath first options)).run := by
  refine Alike.skip (h.reports _ _ _ _) ?_
  refine Alike.lift_bind h.told ?_
  intro result
  cases result with
  | error cause => exact Alike.attempt_throw _
  | ok outcome =>
      dsimp only
      split
      · exact Alike.attempt_pure _
      · exact Alike.attempt_throw _

/-- **A build goes alike where what it does to the machine goes alike.** -/
theorem buildWith : Alike T (Session.buildWith options toolchain runner).run := by
  refine Alike.attempt_bind h.prepare ?_
  rintro ⟨spec, workspace⟩ ⟨s, s', after, hs, hprepared⟩
  obtain rfl : workspace = workspacePath first options := by
    have hcases := prepare_cases options toolchain runner s
    rw [hprepared] at hcases
    cases hcases
    exact workspacePath_congr (h.env s s' hs).1 options
  refine Alike.skip (keepsBeside_step h.reports _ _) ?_
  exact Alike.attempt_bind (h.runBuild _) fun _ _ => Alike.attempt_pure _

end ActsAlike

end Build

end NativeExtension
