import NativeExtension.Proofs.Cli.Commands
import NativeExtension.Proofs.Session.Caches
import NativeExtension.Proofs.Session.CompilerRoot
import NativeExtension.Proofs.Session.Completion

/-!
# NativeExtension.Proofs.Cli.Agreement

**`emit` shows what `build` does.** The two commands go to the description by different ways:
`emit` checks the request before it looks for the toolchain, prepares no files and asks no runner.
Started on the same machine, each in a process of its own, they agree all the same
(`runEmitCommand_agrees`). What `emit` refuses, `build` refuses, if no file or directory stopped it
before; and what `emit` prints is what stands in the workspace when `build` starts the runner.
Nothing but the file that is asked for is written by `emit`.
-/

namespace NativeExtension

open Session

/-! ### Looking for the toolchain -/

theorem searches_detectToolchain (s : Session) :
    Course Licence.none (· = nvccSearch) s (detectToolchain.run s).2 := by
  have hcourses : Along (Under s.machine Licence.none (· = nvccSearch)) detectToolchain :=
    courses_detectToolchain rfl
  exact hcourses s rfl rfl

theorem currentDir_congr {m m' : Machine} (h : m'.cwd = m.cwd) : m'.currentDir = m.currentDir := by
  rw [Machine.currentDir, Machine.currentDir, h]

theorem currentDir_detectToolchain (s : Session) :
    (detectToolchain.run s).2.machine.currentDir = s.machine.currentDir :=
  currentDir_congr (cwd_detectToolchain s)

/-- Nothing more is printed to the stream. -/
def Unprinted (style : Cli.ReportStyle) (stream : Stream) (s s' : Session) : Prop :=
  Cli.printedText style stream s'.journal = Cli.printedText style stream s.journal

instance (style : Cli.ReportStyle) (stream : Stream) : Composes (Unprinted style stream) where
  refl := fun _ => rfl
  trans := fun h h' => Eq.trans h' h

/-- Looking for the toolchain prints nothing. -/
theorem unprinted_detectToolchain (s : Session) (style : Cli.ReportStyle) (stream : Stream) :
    Cli.printedText style stream (detectToolchain.run s).2.journal =
      Cli.printedText style stream s.journal := by
  have hstart : ∀ launch, Along (Unprinted style stream) (start launch) := by
    intro launch s
    rw [run_start]
    simp [Unprinted, Cli.printedText, Cli.eventText]
  exact along_detectToolchain
    (along_cudaRoot (along_findCudaRoot (hstart _)) fun _ _ => rfl) s

namespace Cli

/-! ### What is printed -/

theorem printedText_append (style : ReportStyle) (stream : Stream) (earlier later : List Event) :
    printedText style stream (earlier ++ later) =
      printedText style stream earlier ++ printedText style stream later := by
  simp [printedText]

/-! ### The two commands -/

variable (m : Machine) (arguments : ExtensionArguments)

/-- `emit` in a process of its own. -/
def emitRun (out : Option Path) : Except Failure Unit × Session :=
  (runEmitCommand arguments out).run.run { machine := m }

/-- `build` in a process of its own. -/
def buildRun (verbose noLoad : Bool) (format : Format) (milliseconds : Nat) :
    Except Failure Unit × Session :=
  (runBuildCommand arguments verbose noLoad format milliseconds).run.run { machine := m }

/-- What `emit` finds to emit. -/
def described : Except Error String := ((description arguments).run.run { machine := m }).1

/-- The process of a command once it has looked for the toolchain. -/
def detected : Toolchain × Session := detectToolchain.run { machine := m }

variable {m arguments}

/-- The text went where it was wanted, be it the null device, or the file for it could not be
written. -/
structure Delivered (text : String) (out : Option Path) (ended : Except Failure Unit × Session) :
    Prop where
  printed : out = none →
    ended.1 = .ok () ∧ ∀ style, printedText style .out ended.2.journal = text
  written : ∀ path, out = some path → ended.1 = .ok () →
    ended.2.machine.Stores path (utf8 text) ∨ LeadsTo ended.2.machine.cwd path nullDevice
  unwritten : ∀ failure, ended.1 = .error failure → ∃ (path : Path) (cause : SystemError),
    out = some path ∧ failure = ["Failed to write " ++ path.display, cause.message]

/-- To write to the file that is asked for. -/
def outputLicence (here : Place) (out : Option Path) : Licence where
  directory := fun _ => False
  file := fun location _ => ∃ path, out = some path ∧ LeadsTo here path location

/-! What `emit` does -/

/-- `emit` ends at the check of the request, or goes on to the rendering with the toolchain looked
for in between. -/
theorem described_cases (m : Machine) (arguments : ExtensionArguments) :
    (∃ error, BuildSpec.ofOptions m.currentDir (arguments.request false) = .error error ∧
      (description arguments).run.run { machine := m } =
        (.error (.config error), { machine := m })) ∨
    ∃ spec, BuildSpec.ofOptions m.currentDir (arguments.request false) = .ok spec ∧
      (description arguments).run.run { machine := m } =
        ((Ninja.render spec (detected m).1).mapError Error.config, (detected m).2) := by
  rw [run_description]
  cases BuildSpec.ofOptions m.currentDir (arguments.request false) with
  | error error => exact Or.inl ⟨error, rfl, rfl⟩
  | ok spec => exact Or.inr ⟨spec, rfl, rfl⟩

/-- A description is that of the checked request with the toolchain of the machine. -/
theorem described_ok {text : String} (h : described m arguments = .ok text) :
    ∃ spec, BuildSpec.ofOptions m.currentDir (arguments.request false) = .ok spec ∧
      Ninja.render spec (detected m).1 = .ok text ∧
      (description arguments).run.run { machine := m } = (.ok text, (detected m).2) := by
  unfold described at h
  rcases described_cases m arguments with ⟨error, -, hrun⟩ | ⟨spec, hchecked, hrun⟩
  · rw [hrun] at h
    cases h
  · rw [hrun] at h
    cases hrender : Ninja.render spec (detected m).1 with
    | error error =>
        rw [hrender] at h
        cases h
    | ok rendered =>
        rw [hrender] at h hrun
        cases h
        exact ⟨spec, hchecked, hrender, hrun⟩

/-- Only the request itself, or that it cannot be described, makes `emit` find nothing. -/
theorem described_error {error : Error} (h : described m arguments = .error error) :
    ∃ cause, error = .config cause ∧
      (BuildSpec.ofOptions m.currentDir (arguments.request false) = .error cause ∨
        ∃ spec, BuildSpec.ofOptions m.currentDir (arguments.request false) = .ok spec ∧
          Ninja.render spec (detected m).1 = .error cause) := by
  unfold described at h
  rcases described_cases m arguments with ⟨cause, hrefused, hrun⟩ | ⟨spec, hchecked, hrun⟩
  · rw [hrun] at h
    cases h
    exact ⟨cause, rfl, Or.inl hrefused⟩
  · rw [hrun] at h
    cases hrender : Ninja.render spec (detected m).1 with
    | error cause =>
        rw [hrender] at h
        cases h
        exact ⟨cause, rfl, Or.inr ⟨spec, hchecked, hrender⟩⟩
    | ok text =>
        rw [hrender] at h
        cases h

theorem emitRun_error {error : Error} (out : Option Path)
    (h : described m arguments = .error error) :
    (emitRun m arguments out).1 = .error (failureOf error) := by
  unfold described at h
  unfold emitRun
  rw [run_runEmitCommand]
  cases hrun : (description arguments).run.run { machine := m } with
  | mk result s' =>
      rw [hrun] at h
      obtain rfl : result = .error error := h
      rfl

/-- What is printed on the way goes to the other stream, so the text is all that there is; a
file holds it if it could be written. -/
theorem delivered {text : String} (out : Option Path) (h : described m arguments = .ok text) :
    Delivered text out (emitRun m arguments out) := by
  obtain ⟨spec, -, -, hrun⟩ := described_ok h
  unfold emitRun
  rw [run_runEmitCommand, hrun]
  cases out with
  | none =>
      refine ⟨fun _ => ⟨rfl, fun style => ?_⟩, nofun, nofun⟩
      have hsilent := unprinted_detectToolchain { machine := m } style .out
      change printedText style .out ((detected m).2.journal ++ [.printed .out text]) = text
      rw [printedText_append]
      change printedText style .out (detected m).2.journal = "" at hsilent
      rw [hsilent]
      simp [printedText, eventText]
  | some path =>
      dsimp only
      cases hwritten : (detected m).2.machine.write path (utf8 text) with
      | error cause =>
          refine ⟨nofun, nofun, ?_⟩
          rintro failure hfailure
          cases hfailure
          exact ⟨path, cause, rfl, rfl⟩
      | ok written =>
          refine ⟨nofun, ?_, nofun⟩
          intro path' hpath _
          cases hpath
          obtain ⟨hchange, hends⟩ := Machine.write_ok hwritten
          have hcwd : written.cwd = (detected m).2.machine.cwd := by
            rcases hchange with rfl | hedit
            · rfl
            · exact hedit.cwd_eq
          dsimp only
          rwa [(idles_printSuccess _ _).machine, hcwd]

/-- **All that `emit` does** is to look for the CUDA compiler and to write the file that is asked
for. -/
theorem course_emitRun (m : Machine) (arguments : ExtensionArguments) (out : Option Path) :
    Course (outputLicence m.cwd out) (· = nvccSearch) { machine := m }
      (emitRun m arguments out).2 := by
  have hdetected : Course (outputLicence m.cwd out) (· = nvccSearch) { machine := m }
      (detected m).2 :=
    (searches_detectToolchain _).mono (Licence.none_within _) fun _ h => h
  unfold emitRun
  rw [run_runEmitCommand]
  rcases described_cases m arguments with ⟨error, -, hrun⟩ | ⟨spec, -, hrun⟩
  · rw [hrun]
    exact Course.refl _ _ _
  · rw [hrun]
    cases Ninja.render spec (detected m).1 with
    | error error => exact hdetected
    | ok text =>
    cases out with
    | none => exact hdetected.trans (idles_print _ _ _).course
    | some path =>
    dsimp only [Except.mapError]
    cases hwritten : (detected m).2.machine.write path (utf8 text) with
    | error cause => exact hdetected
    | ok written =>
        have hcwd : (detected m).2.machine.cwd = m.cwd := cwd_detectToolchain _
        have hedits : Edits (outputLicence m.cwd (some path)) (detected m).2.machine written := by
          rcases (Machine.write_ok hwritten).1 with rfl | hedit
          · exact Edits.refl _ _
          · rw [hcwd] at hedit
            refine Edits.of_edit (hedit.mono ⟨fun _ hmake => hmake.elim, ?_⟩)
            exact fun location _ hfile => ⟨path, rfl, hfile.1⟩
        exact (hdetected.trans (Course.of_edits hedits)).trans (idles_printSuccess _ _).course

/-! What `build` does -/

section Build

variable {verbose noLoad : Bool} {format : Format} {milliseconds : Nat}

/-- Whether steps are reported is not looked at when a request is checked. -/
theorem ofOptions_request (cwd : Except SystemError Path) (arguments : ExtensionArguments)
    (verbose : Bool) : BuildSpec.ofOptions cwd (arguments.request verbose) =
      BuildSpec.ofOptions cwd (arguments.request false) := rfl

/-- `build` fails as well, for the same reason or for a file or directory that is made before, and
the runner is not told to build. -/
structure RefusedToo (m : Machine) (options : LoadOptions) (cause : ConfigError)
    (ended : Except Failure Unit × Session) : Prop where
  failure : ∃ failure, ended.1 =
      .error (("Failed to build extension '" ++ options.name ++ "'") :: failureOf failure) ∧
    (failure = .config cause ∨ cause.IsUndescribable ∧ ∃ path refusal,
      failure = .io path refusal ∧ stagingPaths m options [m.bundledIncludeDir] path)
  untold : ∀ launch ∈ ended.2.launches, launch.arguments ≠ [utf8 "-v"]

/-- The runner is told to build with that text as the description. -/
structure ToldAlike (m : Machine) (options : LoadOptions) (text : String) (launch : Launch)
    (after ready : Session) : Prop where
  told : ∃ spec, ToldReady options (detected m).1 m.runner (detected m).2 launch after spec text
    ready
  stored : ready.machine.Stores (buildFile (workspacePath m options)) (utf8 text)
  read : ready.machine.read? (buildFile (workspacePath m options)) = some (utf8 text)

theorem untold_detected (m : Machine) :
    ∀ launch ∈ (detected m).2.launches, launch.arguments ≠ [utf8 "-v"] := by
  obtain ⟨new, hnew, hsearches⟩ := (searches_detectToolchain { machine := m }).launches_eq
  intro launch hmem
  change launch ∈ (detectToolchain.run { machine := m }).2.launches at hmem
  rw [hnew] at hmem
  obtain rfl := hsearches launch (by simpa [launches] using hmem)
  decide

theorem run_build_detected (options : LoadOptions) (m : Machine) :
    (build options).run.run { machine := m } =
      (buildWith options (detected m).1 m.runner).run.run (detected m).2 := by
  rw [run_build, runner_detectToolchain]
  rfl

/-- What cannot be described is not prepared, if it comes to that. -/
theorem prepare_of_described_error {cause : ConfigError}
    (hrunner : ((checkRunner m.runner).run.run (detected m).2).1 = .ok ())
    (h : described m arguments = .error (.config cause)) :
    ∃ failure,
      ((prepare (arguments.request verbose) (detected m).1 m.runner).run.run
        (detected m).2).1 = .error failure ∧
      (failure = .config cause ∨ cause.IsUndescribable ∧ ∃ path refusal,
        failure = .io path refusal ∧
          stagingPaths m (arguments.request verbose) [m.bundledIncludeDir] path) := by
  have hdirectory : (detected m).2.machine.currentDir = m.currentDir :=
    currentDir_detectToolchain _
  have hbundled : (detected m).1.bundledIncludes = [m.bundledIncludeDir] :=
    bundledIncludes_detectToolchain _
  have hroot : (detected m).2.machine.extensionsRoot = m.extensionsRoot :=
    extensionsRoot_congr (env_detectToolchain _)
  obtain ⟨_, hcause, hreason⟩ := described_error h
  cases hcause
  rcases hreason with hrefused | ⟨spec, hchecked, hrender⟩
  · rw [← hdirectory, ← ofOptions_request _ _ verbose] at hrefused
    exact ⟨_, congrArg Prod.fst (prepare_refused hrunner hrefused), Or.inl rfl⟩
  · rw [← hdirectory, ← ofOptions_request _ _ verbose] at hchecked
    obtain ⟨failure, hfailure, hwhy⟩ := prepare_undescribed hrunner hchecked hrender
    refine ⟨failure, hfailure, hwhy.imp_right ?_⟩
    rintro ⟨path, refusal, hio, hpath⟩
    rw [stagingPaths, hbundled, hroot] at hpath
    refine ⟨?_, path, refusal, hio, hpath⟩
    rcases Ninja.render_error hrender with rfl | ⟨object, first, second, rfl⟩
    · exact .cudaRootMissing
    · exact .objectCollision _ _ _

/-- Where `emit` finds no description, the preparation of `build` fails, and before it no
runner is told to build. -/
theorem refusedToo {cause : ConfigError}
    (hrunner : ((checkRunner m.runner).run.run (detected m).2).1 = .ok ())
    (h : described m arguments = .error (.config cause)) :
    RefusedToo m (arguments.request verbose) cause
      (buildRun m arguments verbose noLoad format milliseconds) := by
  obtain ⟨failure, hfailure, hwhy⟩ := prepare_of_described_error hrunner h
  have hprepared := prepare_cases (arguments.request verbose) (detected m).1 m.runner (detected m).2
  rcases run_buildWith (arguments.request verbose) (detected m).1 m.runner (detected m).2 with
    ⟨error, s', hprepare, hrun⟩ | ⟨spec, workspace, ready, noted, hprepare, -⟩
  · rw [hprepare] at hfailure hprepared
    cases hfailure
    rw [← run_build_detected] at hrun
    unfold buildRun
    rw [runBuildCommand_error hrun]
    refine ⟨⟨failure, rfl, hwhy⟩, ?_⟩
    obtain ⟨queries, hqueries, hasks⟩ := hprepared.course.launches_eq
    intro launch hmem htold
    dsimp only at hmem hqueries
    rw [hqueries] at hmem
    rcases List.mem_append.mp hmem with hearlier | hquery
    · exact untold_detected m launch hearlier htold
    · exact not_asksVersion htold (hasks launch hquery)
  · rw [hprepare] at hfailure
    cases hfailure

/-- `build` renders the same checked request with the same toolchain, and stores it before it
tells the runner. -/
theorem toldAlike {text : String} (h : described m arguments = .ok text) {launch : Launch}
    (hmem : launch ∈ (buildRun m arguments verbose noLoad format milliseconds).2.launches)
    (htold : launch.arguments = [utf8 "-v"]) :
    ∃ ready, ToldAlike m (arguments.request verbose) text launch
      (buildRun m arguments verbose noLoad format milliseconds).2 ready := by
  have hidle := idles_runBuildCommand arguments verbose noLoad format milliseconds
    { machine := m }
  rw [run_build_detected] at hidle
  change Idles _ (buildRun m arguments verbose noLoad format milliseconds).2 at hidle
  rw [hidle.launches] at hmem
  obtain ⟨spec, text', ready, hready⟩ := toldReady_of_buildWith (untold_detected m) hmem htold
  obtain ⟨spec', hchecked, hrender, -⟩ := described_ok h
  have hdirectory : (detected m).2.machine.currentDir = m.currentDir :=
    currentDir_detectToolchain _
  have hworkspace : workspacePath (detected m).2.machine (arguments.request verbose) =
      workspacePath m (arguments.request verbose) := workspacePath_congr (env_detectToolchain _) _
  -- the same request with the same toolchain
  have hspec : spec = spec' := by
    have hboth := hready.checked
    rw [hdirectory, ofOptions_request] at hboth
    exact Except.ok.inj (hboth.symm.trans hchecked)
  have htext : text' = text := by
    have hboth := hready.rendered
    rw [hspec] at hboth
    exact Except.ok.inj (hboth.symm.trans hrender)
  subst hspec htext
  have hstored := hready.stored
  rw [hworkspace] at hstored
  refine ⟨ready, ⟨spec, ?_⟩, hstored, hstored.read?_eq⟩
  exact { hready with
    launches := hidle.launches.trans hready.launches
    machine := hidle.machine.trans hready.machine }

/-- What `emit` and `build` have in common, each in a process of its own on the same machine. -/
structure Agrees (m : Machine) (arguments : ExtensionArguments) (out : Option Path)
    (verbose noLoad : Bool) (format : Format) (milliseconds : Nat) : Prop where
  refused : ∀ error, described m arguments = .error error →
    (emitRun m arguments out).1 = .error (failureOf error) ∧ ∃ cause, error = .config cause ∧
      RefusedToo m (arguments.request verbose) cause
        (buildRun m arguments verbose noLoad format milliseconds)
  delivered : ∀ text, described m arguments = .ok text →
    Delivered text out (emitRun m arguments out)
  told : ∀ text, described m arguments = .ok text →
    ∀ launch ∈ (buildRun m arguments verbose noLoad format milliseconds).2.launches,
      launch.arguments = [utf8 "-v"] → ∃ ready, ToldAlike m (arguments.request verbose) text launch
        (buildRun m arguments verbose noLoad format milliseconds).2 ready
  /-- All that `emit` does itself is to write the file that is asked for. -/
  own : Course (outputLicence m.cwd out) (· = nvccSearch) { machine := m }
    (emitRun m arguments out).2
  /-- Where programs leave the files alone, everything else stays as it is. -/
  kept : m.Quiet → ∀ location, (∀ path, out = some path → ¬ LeadsTo m.cwd path location) →
    (emitRun m arguments out).2.machine.files.get? location = m.files.get? location

/-- **`emit` and `build` agree** where the runner can be started and tells its version: what the one
refuses the other refuses or fails before, and what the one emits the other builds from. -/
theorem runEmitCommand_agrees (m : Machine) (arguments : ExtensionArguments) (out : Option Path)
    (verbose noLoad : Bool) (format : Format) (milliseconds : Nat)
    (hrunner : ((checkRunner m.runner).run.run (detected m).2).1 = .ok ()) :
    Agrees m arguments out verbose noLoad format milliseconds := by
  have hcourse := course_emitRun m arguments out
  constructor
  case refused =>
    intro error herror
    obtain ⟨cause, rfl, -⟩ := described_error herror
    exact ⟨emitRun_error out herror, cause, rfl, refusedToo hrunner herror⟩
  case delivered => exact fun text htext => Cli.delivered out htext
  case told => exact fun text htext launch hmem htold => toldAlike htext hmem htold
  case own => exact hcourse
  case kept =>
    intro hquiet location helsewhere
    refine hcourse.get?_of_quiet hquiet ?_
    rintro (hmake | ⟨_, path, hout, hleads⟩)
    · exact hmake
    · exact helsewhere path hout hleads

/-- Arguments that name a build directory. -/
def placedArguments : ExtensionArguments where
  name := "ops"
  sources := [.ofText "/x.cpp"]
  buildDir := some (.ofText "/w")

/-- Arguments that name two sources of one name. -/
def collidingArguments : ExtensionArguments where
  name := "ops"
  sources := collidingOptions.sources

/-- Where `emit` is to write. -/
def emittedFile : Path := .ofText "/out.ninja"

/-- The text that `emit` writes to a file is what the runner is told to build from; and where two
sources have one name, both commands refuse them. -/
theorem runEmitCommand_agrees_placed :
    (∃ text launch ready, described tooledMachine placedArguments = .ok text ∧
      (emitRun tooledMachine placedArguments (some emittedFile)).2.machine.Stores emittedFile
        (utf8 text) ∧
      launch ∈ (buildRun tooledMachine placedArguments false true .text 0).2.launches ∧
      ToldAlike tooledMachine (placedArguments.request false) text launch
        (buildRun tooledMachine placedArguments false true .text 0).2 ready ∧
      ready.machine.read? (.ofText "/w/build.ninja") = some (utf8 text) ∧
      (emitRun tooledMachine placedArguments (some emittedFile)).2.machine.files.get?
        [utf8 "build.ninja", utf8 "w"] = none) ∧
    RefusedToo tooledMachine (collidingArguments.request true)
      (.objectCollision "x.o" (.ofText "/a/x.cpp") (.ofText "/b/x.cpp"))
      (buildRun tooledMachine collidingArguments true true .text 0) := by
  have hrunner : ((checkRunner tooledMachine.runner).run.run (detected tooledMachine).2).1 =
      .ok () := by decide +kernel
  refine ⟨?_, ?_⟩
  · have hagrees := runEmitCommand_agrees tooledMachine placedArguments (some emittedFile) false
      true .text 0 hrunner
    have hdescribed : (described tooledMachine placedArguments).isOk = true := by decide +kernel
    cases htext : described tooledMachine placedArguments with
    | error error =>
        rw [htext] at hdescribed
        cases hdescribed
    | ok text =>
    have hstarted :
        ∃ launch ∈ (buildRun tooledMachine placedArguments false true .text 0).2.launches,
          launch.arguments = [utf8 "-v"] := by decide +kernel
    obtain ⟨launch, hmem, htold⟩ := hstarted
    obtain ⟨ready, hready⟩ := hagrees.told text htext launch hmem htold
    refine ⟨text, launch, ready, rfl, ?_, hmem, hready, hready.read, ?_⟩
    · have hwritten := (hagrees.delivered text htext).written emittedFile rfl (by decide +kernel)
      exact hwritten.resolve_right (by decide +kernel)
    · refine (hagrees.kept tooledMachine_quiet _ ?_).trans (by decide)
      rintro path hpath
      cases hpath
      decide
  · have hagrees := runEmitCommand_agrees tooledMachine collidingArguments none true true .text 0
      hrunner
    have hrefused : described tooledMachine collidingArguments =
        .error (.config (.objectCollision "x.o" (.ofText "/a/x.cpp") (.ofText "/b/x.cpp"))) := by
      decide +kernel
    obtain ⟨-, cause, hcause, htoo⟩ := hagrees.refused _ hrefused
    cases hcause
    exact htoo

end Build

end Cli

end NativeExtension
