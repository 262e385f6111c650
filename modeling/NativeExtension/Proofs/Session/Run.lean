import NativeExtension.Proofs.Path.Absolute
import NativeExtension.Proofs.Session.Frame
import NativeExtension.Proofs.Session.Loading

/-!
# NativeExtension.Proofs.Session.Run

**The life of a process.** A `Run` starts with nothing loaded and goes on by `Operation`s in
any order: loads, builds, questions to the registry, and changes that others make to the
machine. Each `Step` of it keeps the session before and after and the answer that was given.

What a single operation can do is said once (`perform_cases`): it leaves the libraries alone,
or it comes down to a load from a session that has the same libraries (`LoadsFrom`).
-/

namespace NativeExtension

/-- What a program does with the library, and what happens to the machine meanwhile. -/
inductive Operation where
  | loadArtifact (name : String) (directory : Path) (suffix : String)
  | loadWith (options : LoadOptions) (toolchain : Toolchain) (runner : Runner)
  | load (options : LoadOptions)
  | buildWith (options : LoadOptions) (toolchain : Toolchain) (runner : Runner)
  | build (options : LoadOptions)
  | loaded (name : String)
  /-- Files, environment and current directory change by another hand. -/
  | change (machine : Machine)

/-- What an operation answers. -/
inductive Answer where
  | artifact (result : Except LoadError Extension)
  | extension (result : Except Error Extension)
  | built (result : Except Error BuildOutput)
  | registered (extension : Option Extension)
  | changed

/-- The extension that was loaded, if one was. -/
def Answer.loaded? : Answer → Option Extension
  | .artifact (.ok e) => some e
  | .extension (.ok e) => some e
  | _ => none

namespace Operation

/-- The name under which an operation loads. -/
def target? : Operation → Option String
  | .loadArtifact name _ _ => some name
  | .loadWith options _ _ => some options.name
  | .load options => some options.name
  | _ => none

/-- The library at that path is found once the extension has been built. -/
def FindsBuilt (s : Session) (options : LoadOptions) (toolchain : Toolchain) (runner : Runner)
    (path : Path) : Prop :=
  ∃ output s', (Session.buildWith options toolchain runner).run.run s = (.ok output, s') ∧
    s'.machine.findArtifact options.name output.workspace toolchain.os.librarySuffix = .ok path

/-- The library at that path is found by the load that starts in `s`. -/
def Finds (s : Session) : Operation → Path → Prop
  | .loadArtifact name directory suffix, path =>
      s.machine.findArtifact name directory suffix = .ok path
  | .loadWith options toolchain runner, path => FindsBuilt s options toolchain runner path
  | .load options, path =>
      ∃ toolchain s', Session.detectToolchain.run s = (toolchain, s') ∧
        FindsBuilt s' options toolchain s'.machine.runner path
  | _, _ => False

end Operation

/-- Carries an operation out. -/
def perform : Operation → Action Answer
  | .loadArtifact name directory suffix => do
    return .artifact (← (Session.loadArtifact name directory suffix).run)
  | .loadWith options toolchain runner => do
    return .extension (← (Session.loadWith options toolchain runner).run)
  | .load options => do return .extension (← (Session.load options).run)
  | .buildWith options toolchain runner => do
    return .built (← (Session.buildWith options toolchain runner).run)
  | .build options => do return .built (← (Session.build options).run)
  | .loaded name => do return .registered ((← get).loaded? name)
  | .change machine => do
    Session.setMachine machine
    return .changed

/-- One step of a run. -/
structure Step where
  before : Session
  operation : Operation
  answer : Answer
  after : Session

/-- The step that an operation makes from a session. -/
def Step.of (s : Session) (operation : Operation) : Step where
  before := s
  operation := operation
  answer := ((perform operation).run s).1
  after := ((perform operation).run s).2

/-- The runs of a process that starts on a machine, with their steps and the session in
which they end. -/
inductive Run (m : Machine) : List Step → Session → Prop where
  | start : Run m [] { machine := m }
  | step {done : List Step} {s : Session} (h : Run m done s) (operation : Operation) :
      Run m (done ++ [Step.of s operation]) (Step.of s operation).after

/-! ### What a build is named -/

/-- Whatever the attempt gives has the property. -/
def Yields {ε α : Type} (x : Attempt ε α) (P : α → Prop) : Prop :=
  ∀ s a s', x.run.run s = (.ok a, s') → P a

namespace Yields

variable {ε α β : Type} {x : Attempt ε α} {next : α → Attempt ε β} {P : β → Prop}

/-- What an attempt gives may be used for what is said of the next one. -/
theorem bind {Q : α → Prop} (hx : Yields x Q) (hnext : ∀ a, Q a → Yields (next a) P) :
    Yields (x >>= next) P := by
  intro s b s' h
  rw [Session.run_bind] at h
  cases hrun : x.run.run s with
  | mk result middle =>
      rw [hrun] at h
      cases result with
      | error e => cases h
      | ok a => exact hnext a (hx s a middle hrun) middle b s' h

theorem skip (hnext : ∀ a, Yields (next a) P) : Yields (x >>= next) P :=
  bind (Q := fun _ => True) (fun _ _ _ _ => trivial) fun a _ => hnext a

theorem pure {Q : α → Prop} {a : α} (h : Q a) : Yields (Pure.pure a : Attempt ε α) Q := by
  intro s b s' hrun
  cases hrun
  exact h

end Yields

namespace Session

theorem checkRequest_yields (options : LoadOptions) :
    Yields (checkRequest options) fun spec => spec.name = options.name := by
  intro s spec s' h
  unfold checkRequest at h
  rw [run_lift_bind, run_getMachine, run_attempt] at h
  have hspec : (BuildSpec.ofOptions s.machine.currentDir options).mapError Error.config =
      .ok spec := (Prod.mk.inj h).1
  cases hchecked : BuildSpec.ofOptions s.machine.currentDir options with
  | error e =>
      rw [hchecked] at hspec
      cases hspec
  | ok checked =>
      rw [hchecked] at hspec
      cases hspec
      exact BuildSpec.name_of_ofOptions hchecked

theorem prepare_yields (options : LoadOptions) (toolchain : Toolchain) (runner : Runner) :
    Yields (prepare options toolchain runner) fun ready => ready.1.name = options.name := by
  refine Yields.skip fun _ => Yields.bind (checkRequest_yields options) fun spec hspec => ?_
  refine Yields.skip fun workspace => Yields.skip fun _ => ?_
  have hrest : Yields (do
      let _ ← compilerCompatible toolchain.cxx
      installHeaders toolchain.bundledIncludes
      step options.verbose ("Emitting ninja build file " ++ (buildFile workspace).display)
      writeDescription (buildFile workspace) spec toolchain
      return (spec, workspace)) fun ready => ready.1.name = options.name :=
    Yields.skip fun _ => Yields.skip fun _ => Yields.skip fun _ => Yields.skip fun _ =>
      Yields.pure hspec
  dsimp only
  split
  · exact Yields.skip fun _ => hrest
  · exact hrest

/-- What was built has the name that was asked for. -/
theorem buildWith_yields (options : LoadOptions) (toolchain : Toolchain) (runner : Runner) :
    Yields (buildWith options toolchain runner) fun output => output.spec.name = options.name :=
  Yields.bind (prepare_yields options toolchain runner) fun _ hname =>
    Yields.skip fun _ => Yields.skip fun _ => Yields.pure hname

/-! ### What an operation comes down to -/

/-- A build and load fails on the way, or comes down to a load from a session that has the
same libraries. -/
theorem run_loadWith (options : LoadOptions) (toolchain : Toolchain) (runner : Runner)
    (s : Session) :
    (∃ error s', (loadWith options toolchain runner).run.run s = (.error error, s') ∧
      SameLibraries s s') ∨
    ∃ ready directory, SameLibraries s ready ∧
      (∀ path, ready.machine.findArtifact options.name directory toolchain.os.librarySuffix =
        .ok path → Operation.FindsBuilt s options toolchain runner path) ∧
      (loadWith options toolchain runner).run.run s =
        (raising Error.load
          (loadArtifact options.name directory toolchain.os.librarySuffix)).run.run ready := by
  have hkeeps := keeps_buildWith options toolchain runner s
  unfold loadWith
  rw [run_bind]
  cases hbuild : (buildWith options toolchain runner).run.run s with
  | mk result built =>
      rw [hbuild] at hkeeps
      cases result with
      | error error => exact Or.inl ⟨error, built, rfl, hkeeps⟩
      | ok output =>
          -- what is loaded is looked for under the name in the checked request
          have hname : output.spec.name = options.name :=
            buildWith_yields options toolchain runner s output built hbuild
          dsimp only
          rw [run_lift_bind]
          refine Or.inr
            ⟨_, output.workspace, hkeeps.trans (keeps_step _ _ built), ?_, by rw [hname]⟩
          intro path hfind
          rw [step_machine] at hfind
          exact ⟨output, built, hbuild, hfind⟩

end Session

/-- The operation comes down to a load from `ready`, a session with the same libraries. -/
structure LoadsFrom (s : Session) (operation : Operation) (ready : Session) (name : String)
    (directory : Path) (suffix : String) : Prop where
  same : SameLibraries s ready
  target : operation.target? = some name
  finds : ∀ path, ready.machine.findArtifact name directory suffix = .ok path →
    operation.Finds s path
  loaded : (Step.of s operation).answer.loaded? =
    ((Session.loadArtifact name directory suffix).run.run ready).1.toOption
  after : (Step.of s operation).after =
    ((Session.loadArtifact name directory suffix).run.run ready).2

theorem loaded?_artifact (result : Except LoadError Extension) :
    (Answer.artifact result).loaded? = result.toOption := by
  cases result <;> rfl

theorem loaded?_extension (result : Except LoadError Extension) :
    (Answer.extension (result.mapError Error.load)).loaded? = result.toOption := by
  cases result <;> rfl

/-- A load registers what its build's workspace gives, or leaves the libraries as they were.
-/
theorem loadWith_cases (options : LoadOptions) (toolchain : Toolchain) (runner : Runner)
    (s : Session) :
    (Step.of s (.loadWith options toolchain runner)).answer.loaded? = none ∧
      SameLibraries s (Step.of s (.loadWith options toolchain runner)).after ∨
    ∃ ready name directory suffix,
      LoadsFrom s (.loadWith options toolchain runner) ready name directory suffix := by
  have hstep : Step.of s (.loadWith options toolchain runner) =
      { before := s, operation := .loadWith options toolchain runner,
        answer := .extension ((Session.loadWith options toolchain runner).run.run s).1,
        after := ((Session.loadWith options toolchain runner).run.run s).2 } := rfl
  rcases Session.run_loadWith options toolchain runner s
    with ⟨error, s', hrun, hsame⟩ | ⟨ready, directory, hsame, hfinds, hrun⟩
  · rw [hstep, hrun]
    exact Or.inl ⟨rfl, hsame⟩
  · refine Or.inr ⟨ready, options.name, directory, _, hsame, rfl, hfinds, ?_, ?_⟩
    · rw [hstep, hrun, Session.run_raising]
      exact loaded?_extension _
    · rw [hstep, hrun, Session.run_raising]

theorem Session.run_load (options : LoadOptions) (s : Session) :
    (load options).run.run s =
      (loadWith options (detectToolchain.run s).1 (detectToolchain.run s).2.machine.runner).run.run
        (detectToolchain.run s).2 := by
  unfold load
  rw [run_lift_bind, run_lift_bind, run_getMachine]

/-- With the toolchain of the machine it is the same, once that has been found. -/
theorem load_cases (options : LoadOptions) (s : Session) :
    (Step.of s (.load options)).answer.loaded? = none ∧
      SameLibraries s (Step.of s (.load options)).after ∨
    ∃ ready name directory suffix, LoadsFrom s (.load options) ready name directory suffix := by
  have hkeeps := Session.keeps_detectToolchain s
  cases hdetect : Session.detectToolchain.run s with
  | mk toolchain detected =>
      rw [hdetect] at hkeeps
      have hload : (Session.load options).run.run s =
          (Session.loadWith options toolchain detected.machine.runner).run.run detected := by
        rw [Session.run_load, hdetect]
      have hstep : Step.of s (.load options) =
          { Step.of detected (.loadWith options toolchain detected.machine.runner) with
            before := s, operation := .load options } := by
        change Step.mk _ _ (.extension ((Session.load options).run.run s).1)
          ((Session.load options).run.run s).2 = _
        rw [hload]
        rfl
      rw [hstep]
      rcases loadWith_cases options toolchain detected.machine.runner detected
        with ⟨hnone, hsame⟩ | ⟨ready, name, directory, suffix, hloads⟩
      · exact Or.inl ⟨hnone, hkeeps.trans hsame⟩
      · refine Or.inr ⟨ready, name, directory, suffix, hkeeps.trans hloads.same,
          hloads.target, ?_, ?_, ?_⟩
        · exact fun path hfind => ⟨toolchain, detected, hdetect, hloads.finds path hfind⟩
        · rw [hstep]
          exact hloads.loaded
        · rw [hstep]
          exact hloads.after

/-- **An operation leaves the libraries alone or comes down to one load.** -/
theorem perform_cases (operation : Operation) (s : Session) :
    (Step.of s operation).answer.loaded? = none ∧ SameLibraries s (Step.of s operation).after ∨
    ∃ ready name directory suffix, LoadsFrom s operation ready name directory suffix := by
  -- only the first three load
  cases operation with
  | loadArtifact name directory suffix =>
      exact Or.inr ⟨s, name, directory, suffix, SameLibraries.refl s, rfl, fun _ h => h,
        loaded?_artifact _, rfl⟩
  | loadWith options toolchain runner => exact loadWith_cases options toolchain runner s
  | load options => exact load_cases options s
  | buildWith options toolchain runner =>
      exact Or.inl ⟨rfl, Session.keeps_buildWith options toolchain runner s⟩
  | build options => exact Or.inl ⟨rfl, Session.keeps_build options s⟩
  | loaded name => exact Or.inl ⟨rfl, SameLibraries.refl s⟩
  | change machine => exact Or.inl ⟨rfl, rfl, rfl, rfl⟩

end NativeExtension
