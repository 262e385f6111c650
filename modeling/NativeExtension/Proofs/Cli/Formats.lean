import NativeExtension.Proofs.Cli.Commands
import NativeExtension.Proofs.Outcome
import NativeExtension.Proofs.Session.LinkedLibrary
import NativeExtension.Proofs.Session.RunnerStart
import NativeExtension.Proofs.Text.Decoding

/-!
# NativeExtension.Proofs.Cli.Formats

**What the form of the output decides.** `build` prints its summary last, when everything is built
and loaded. As text a summary can always be printed; as JSON only if all paths in it are texts. So
in both forms the command does the same to the machine, and its exit code tells in text whether the
extension was built and loaded, in JSON whether it could be told of besides (`runProgram_formats`).
-/

namespace NativeExtension

/-! ### What can be written as JSON -/

/-- The path spells a text. -/
def Path.IsText (p : Path) : Prop := ∃ text, p = .ofText text

/-- A path can be written as JSON exactly if it is text. -/
theorem exists_pathToJson_iff {p : Path} : (∃ json, p.toJson = .ok json) ↔ p.IsText := by
  unfold Path.toJson
  cases htext : text? p.bytes with
  | none =>
      refine iff_of_false nofun ?_
      rintro ⟨text, rfl⟩
      rw [Path.ofText, text?_eq_some_iff.mpr rfl] at htext
      cases htext
  | some text =>
      have hspelled : p = .ofText text := by
        rw [Path.ofText, ← text?_eq_some_iff.mp htext]
      exact iff_of_true ⟨_, rfl⟩ ⟨text, hspelled⟩

theorem exists_pathsToJson_iff {paths : List Path} :
    (∃ json, pathsToJson paths = .ok json) ↔ ∀ p ∈ paths, p.IsText := by
  simp [pathsToJson, map_ok_iff, ← exists_pathToJson_iff, ← exists_mapM_ok_iff]

theorem exists_specToJson_iff {spec : BuildSpec} :
    (∃ json, spec.toJson = .ok json) ↔ ∀ p ∈ spec.sources ++ spec.includes, p.IsText := by
  rw [List.forall_mem_append, ← exists_pathsToJson_iff, ← exists_pathsToJson_iff]
  unfold BuildSpec.toJson
  constructor
  · rintro ⟨json, h⟩
    obtain ⟨sources, hsources, h⟩ := bind_ok_iff.mp h
    obtain ⟨includes, hincludes, -⟩ := bind_ok_iff.mp h
    exact ⟨⟨sources, hsources⟩, includes, hincludes⟩
  · rintro ⟨⟨sources, hsources⟩, includes, hincludes⟩
    exact ⟨_, bind_ok_iff.mpr ⟨sources, hsources, bind_ok_iff.mpr ⟨includes, hincludes, rfl⟩⟩⟩

namespace Cli

open Session

/-- The paths that a summary tells of. -/
def Summary.paths (summary : Summary) : List Path :=
  [summary.workspace] ++ summary.artifact.toList ++
    summary.spec.toList.flatMap fun spec => spec.sources ++ spec.includes

theorem exists_pathOrNull_iff {path : Option Path} :
    (∃ json, pathOrNull path = .ok json) ↔ ∀ p ∈ path.toList, p.IsText := by
  cases path with
  | none => exact iff_of_true ⟨_, rfl⟩ nofun
  | some p =>
      rw [Option.toList_some, List.forall_mem_singleton, ← exists_pathToJson_iff, pathOrNull]

theorem exists_specFields_iff {spec : Option BuildSpec} :
    (∃ fields, specFields spec = .ok fields) ↔
      ∀ p ∈ spec.toList.flatMap fun spec => spec.sources ++ spec.includes, p.IsText := by
  cases spec with
  | none => exact iff_of_true ⟨_, rfl⟩ nofun
  | some spec =>
      rw [Option.toList_some, List.flatMap_singleton, ← exists_specToJson_iff, specFields]
      constructor
      · rintro ⟨fields, h⟩
        obtain ⟨json, hjson, -⟩ := bind_ok_iff.mp h
        exact ⟨json, hjson⟩
      · rintro ⟨json, hjson⟩
        exact ⟨_, bind_ok_iff.mpr ⟨json, hjson, rfl⟩⟩

/-- A summary can be written as JSON exactly if all paths in it are texts. -/
theorem Summary.exists_toJson_iff {summary : Summary} {milliseconds : Nat} :
    (∃ json, summary.toJson milliseconds = .ok json) ↔ ∀ p ∈ summary.paths, p.IsText := by
  rw [Summary.paths, List.forall_mem_append, List.forall_mem_append, List.forall_mem_singleton,
    ← exists_pathToJson_iff, ← exists_pathOrNull_iff, ← exists_specFields_iff]
  unfold Summary.toJson
  constructor
  · rintro ⟨json, h⟩
    obtain ⟨workspace, hworkspace, h⟩ := bind_ok_iff.mp h
    obtain ⟨artifact, hartifact, h⟩ := bind_ok_iff.mp h
    obtain ⟨spec, hspec, -⟩ := bind_ok_iff.mp h
    exact ⟨⟨⟨workspace, hworkspace⟩, artifact, hartifact⟩, spec, hspec⟩
  · rintro ⟨⟨⟨workspace, hworkspace⟩, artifact, hartifact⟩, spec, hspec⟩
    exact ⟨_, bind_ok_iff.mpr ⟨workspace, hworkspace, bind_ok_iff.mpr
      ⟨artifact, hartifact, bind_ok_iff.mpr ⟨spec, hspec, rfl⟩⟩⟩⟩

/-! ### The exit code -/

/-- Either it went well and the code is 0, or it did not and the code is 1. -/
def Tells (code : Nat) (wentWell : Prop) : Prop := code = 0 ∧ wentWell ∨ code = 1 ∧ ¬wentWell

theorem tells_conclude (command : Command) (verbose : Bool) (around : Surroundings) (s : Session) :
    Tells ((command.conclude verbose around).run s).1
      (((command.run verbose around).run.run s).1 = .ok ()) := by
  unfold Command.conclude
  rw [StateT.run_bind]
  cases (command.run verbose around).run.run s with
  | mk result s' =>
  cases result with
  | ok done => exact .inl ⟨rfl, rfl⟩
  | error failure => exact .inr ⟨rfl, nofun⟩

theorem machine_conclude (command : Command) (verbose : Bool) (around : Surroundings)
    (s : Session) : ((command.conclude verbose around).run s).2.machine =
      ((command.run verbose around).run.run s).2.machine := by
  unfold Command.conclude
  rw [StateT.run_bind]
  cases (command.run verbose around).run.run s with
  | mk result s' =>
  cases result with
  | ok done => rfl
  | error failure => rfl

/-- The command succeeds if there is a summary and it can be printed. -/
theorem runBuildCommand_ok_iff {arguments : ExtensionArguments} {verbose noLoad : Bool}
    {format : Format} {milliseconds : Nat} {s : Session} :
    ((runBuildCommand arguments verbose noLoad format milliseconds).run.run s).1 = .ok () ↔
      ∃ summary, ((buildSummary arguments verbose noLoad).run.run s).1 = .ok summary ∧
        (format = .json → ∀ p ∈ summary.paths, p.IsText) := by
  unfold runBuildCommand
  rw [run_bind]
  cases (buildSummary arguments verbose noLoad).run.run s with
  | mk result s' =>
  cases result with
  | error failure => exact iff_of_false nofun nofun
  | ok summary =>
  cases format with
  | text => exact iff_of_true rfl ⟨summary, rfl, nofun⟩
  | json =>
      have hprinted : ((printJson (summary.toJson milliseconds)).run.run s').1 = .ok () ↔
          ∃ json, summary.toJson milliseconds = .ok json := by
        cases summary.toJson milliseconds with
        | ok json => exact iff_of_true rfl ⟨json, rfl⟩
        | error error => exact iff_of_false nofun nofun
      refine hprinted.trans (Summary.exists_toJson_iff.trans ?_)
      constructor
      · intro h
        exact ⟨summary, rfl, fun _ => h⟩
      · rintro ⟨_, ⟨⟩, h⟩
        exact h rfl

/-- The extension is built and, unless that is not wanted, loaded; and these are the paths to tell
of. -/
inductive Accomplishes (m : Machine) (arguments : ExtensionArguments) (verbose : Bool) :
    Bool → List Path → Prop where
  | built {output : BuildOutput} {s : Session}
      (hbuild : (build (arguments.request verbose)).run.run { machine := m } = (.ok output, s)) :
      Accomplishes m arguments verbose true
        (output.workspace :: (output.spec.sources ++ output.spec.includes))
  | loaded {output : BuildOutput} {extension : Extension} {s : Session}
      (hbuild : (build (arguments.request verbose)).run.run { machine := m } = (.ok output, s))
      (hload : ((loadArtifact output.spec.name output.workspace
        Os.linux.librarySuffix).run.run s).1 = .ok extension) :
      Accomplishes m arguments verbose false [output.workspace, extension.path]

/-- To accomplish a command is to build, and to load if that is wanted; the summary is put
together from what these gave. -/
theorem accomplishes_iff {m : Machine} {arguments : ExtensionArguments} {verbose noLoad : Bool}
    {told : List Path} :
    Accomplishes m arguments verbose noLoad told ↔
      ∃ summary, ((buildSummary arguments verbose noLoad).run.run { machine := m }).1 =
        .ok summary ∧ summary.paths = told := by
  rw [run_buildSummary]
  cases hbuild : (build (arguments.request verbose)).run.run { machine := m } with
  | mk result s =>
  cases result with
  | error error =>
      refine iff_of_false ?_ nofun
      rintro (⟨h⟩ | ⟨h, -⟩) <;> cases hbuild.symm.trans h
  | ok output =>
  cases noLoad with
  | true =>
      constructor
      · rintro ⟨h⟩
        cases hbuild.symm.trans h
        exact ⟨_, rfl, by simp [Summary.paths]⟩
      · rintro ⟨_, ⟨⟩, rfl⟩
        simpa [Summary.paths] using Accomplishes.built hbuild
  | false =>
      -- the log that is printed in between does not matter to the load
      have hload := loadArtifact_congr (idles_afterLog verbose output.log s).machine
        (sameLibraries_afterLog verbose output.log s) output.spec.name output.workspace
        Os.linux.librarySuffix
      dsimp only
      rw [if_neg Bool.false_ne_true]
      cases hrun : (loadArtifact output.spec.name output.workspace Os.linux.librarySuffix).run.run
        (afterLog verbose output.log s) with
      | mk result s' =>
      rw [hrun] at hload
      cases result with
      | error error =>
          refine iff_of_false ?_ nofun
          rintro (_ | ⟨h, hloaded⟩)
          cases hbuild.symm.trans h
          cases hload.trans hloaded
      | ok extension =>
          constructor
          · rintro (_ | ⟨h, hloaded⟩)
            cases hbuild.symm.trans h
            cases hload.trans hloaded
            exact ⟨_, rfl, rfl⟩
          · rintro ⟨_, ⟨⟩, rfl⟩
            exact .loaded hbuild hload.symm

/-! ### Choosing a form -/

/-- The name of a form, as it stands on a command line. -/
def Format.word : Format → String
  | .text => "text"
  | .json => "json"

/-- A command line that asks `build` for a form of the output. -/
def buildLine (format : Format) (rest : List Bytes) : List Bytes :=
  utf8 "build" :: utf8 "--format" :: utf8 format.word :: rest

/-- The same build, with its output in another form. -/
def Invocation.inFormat (format : Format) : Invocation → Invocation
  | .run verbose (.build arguments noLoad _) => .run verbose (.build arguments noLoad format)
  | invocation => invocation

/-- The item that the choice of a form is. -/
def Format.item (format : Format) : Item := .value .format (utf8 format.word)

/-- The option and its value are two arguments and one item. -/
theorem lex_format (format : Format) (rest : List Bytes) :
    lex .build none (utf8 "--format" :: utf8 format.word :: rest) =
      (lex .build none rest).map (format.item :: ·) := by
  have hread : readOption .build (utf8 "--format") =
      some { items := [], pending := some .format } := by
    decide +kernel
  have hvalue : looksLikeOption (utf8 format.word) = false := by
    cases format <;> decide
  have hplain : lex .build (some .format) (utf8 format.word :: rest) =
      (lex .build none rest).map (format.item :: ·) := by
    rw [lex, if_pos (by rw [hvalue]; rfl)]
    rfl
  rw [lex, if_neg (by decide), if_pos (by decide), hread]
  dsimp only
  rw [if_neg (by decide), hplain, Option.map_map]
  rfl

theorem values_item_format (format : Format) (items : List Item) :
    Item.values (format.item :: items) .format = utf8 format.word :: Item.values items .format := by
  simp [Item.values, Format.item]

theorem values_item_of_ne (format : Format) (items : List Item) {parameter : Parameter}
    (h : parameter ≠ .format) :
    Item.values (format.item :: items) parameter = Item.values items parameter := by
  simp [Item.values, Format.item, h.symm]

/-- A form can be chosen once. -/
theorem wellFormed_item_iff (format : Format) (items : List Item) :
    Item.wellFormed .build (format.item :: items) = true ↔
      Item.wellFormed .build items = true ∧ Item.values items .format = [] := by
  have hcount : ∀ switch, (format.item :: items).count (.switch switch) =
      items.count (.switch switch) :=
    fun switch => List.count_cons_of_ne (by rw [Format.item]; nofun)
  have hplains : Item.plains (format.item :: items) = Item.plains items := rfl
  have haccepts : Parameter.accepts .format (utf8 format.word) = true := by
    cases format <;> decide
  have hbuildDir := values_item_of_ne format items (nofun : Parameter.buildDir ≠ .format)
  have hout := values_item_of_ne format items (nofun : Parameter.out ≠ .format)
  unfold Item.wellFormed
  simp only [hcount, hplains, hbuildDir, hout, values_item_format, List.all_cons, List.all_nil]
  simp only [Format.item, haccepts, Parameter.repeats, Bool.and_eq_true, Bool.or_eq_true,
    decide_eq_true_iff, List.length_cons, Bool.false_eq_true, false_or, and_true, true_and]
  rw [← List.length_eq_zero_iff]
  grind

theorem format_item {format : Format} {items : List Item} (h : Item.values items .format = []) :
    Item.format (format.item :: items) = format := by
  rw [Item.format, values_item_format, h]
  cases format <;> decide

/-- Everything but the form comes from the items behind it. -/
theorem ofItems?_item {format : Format} {items : List Item}
    (h : Item.values items .format = []) :
    Command.ofItems? .build (format.item :: items) =
      (Item.extension? items).map fun extension =>
        .build extension (Item.has items .noLoad) format := by
  have hvalues : ∀ parameter, parameter ≠ .format →
      Item.values (format.item :: items) parameter = Item.values items parameter :=
    fun _ hne => values_item_of_ne format items hne
  have hextension : Item.extension? (format.item :: items) = Item.extension? items := by
    have hplains : Item.plains (format.item :: items) = Item.plains items := rfl
    simp [Item.extension?, hplains, Item.texts, Item.path?, hvalues]
  have hhas : Item.has (format.item :: items) .noLoad = Item.has items .noLoad := rfl
  rw [Command.ofItems?, hextension, hhas, format_item h]

/-- **A command line that chooses a form.** It asks for the same as with the other form, but for the
form itself. -/
theorem ofArguments_buildLine (format : Format) (rest : List Bytes) :
    Invocation.ofArguments false (buildLine format rest) =
      (Invocation.ofArguments false (buildLine .text rest)).inFormat format := by
  have hcommand : ∀ format, Invocation.ofArguments false (buildLine format rest) =
      Invocation.ofCommand false .build (utf8 "--format" :: utf8 format.word :: rest) := by
    intro format
    have hname : CommandName.ofBytes? (utf8 "build") = some .build := by decide
    rw [buildLine, Invocation.ofArguments, hname]
  rw [hcommand, hcommand, Invocation.ofCommand, Invocation.ofCommand, lex_format, lex_format]
  cases lex .build none rest with
  | none => rfl
  | some items =>
  dsimp only [Option.map_some]
  by_cases hformed : Item.wellFormed .build items = true ∧ Item.values items .format = []
  · have hhelp : ∀ format : Format, (format.item :: items).contains .help =
        items.contains .help := fun format => rfl
    have hverbose : ∀ format : Format, Item.has (format.item :: items) .verbose =
        Item.has items .verbose := fun format => rfl
    have hwell : ∀ format : Format, Item.wellFormed .build (format.item :: items) = true :=
      fun format => (wellFormed_item_iff format items).mpr hformed
    rw [hwell, hwell, hhelp, hhelp, hverbose, hverbose, ofItems?_item hformed.2,
      ofItems?_item hformed.2]
    cases items.contains .help with
    | true => rfl
    | false => cases Item.extension? items <;> rfl
  · have hmisuse : ∀ format : Format, Item.wellFormed .build (format.item :: items) = false :=
      fun format => Bool.eq_false_iff.mpr fun h => hformed ((wellFormed_item_iff format items).mp h)
    rw [hmisuse, hmisuse]
    rfl

/-! ### The two runs -/

/-- What the program leaves behind when it is asked to build. -/
theorem runProgram_build {line : List Bytes} {verbose noLoad : Bool}
    {arguments : ExtensionArguments} {format : Format}
    (h : Invocation.ofArguments false line = .run verbose (.build arguments noLoad format))
    (around : Surroundings) (m : Machine) :
    (runProgram line around m).2 =
      ((build (arguments.request verbose)).run.run { machine := m }).2.machine ∧
    Tells (runProgram line around m).1.code (∃ told, Accomplishes m arguments verbose noLoad told ∧
      (format = .json → ∀ p ∈ told, p.IsText)) := by
  have hcode : (runProgram line around m).1.code =
      (((Command.build arguments noLoad format).conclude verbose around).run
        { machine := m }).1 := by
    rw [runProgram, h]
    rfl
  have hmachine : (runProgram line around m).2 =
      (((Command.build arguments noLoad format).conclude verbose around).run
        { machine := m }).2.machine := by
    rw [runProgram, h]
    rfl
  constructor
  · rw [hmachine, machine_conclude]
    exact (idles_runBuildCommand arguments verbose noLoad format around.milliseconds _).machine
  · have hok : (((Command.build arguments noLoad format).run verbose around).run.run
        { machine := m }).1 = .ok () ↔ ∃ told, Accomplishes m arguments verbose noLoad told ∧
          (format = .json → ∀ p ∈ told, p.IsText) := by
      refine runBuildCommand_ok_iff.trans ?_
      simp only [accomplishes_iff]
      constructor
      · rintro ⟨summary, hsummary, hpaths⟩
        exact ⟨summary.paths, ⟨summary, hsummary, rfl⟩, hpaths⟩
      · rintro ⟨_, ⟨summary, hsummary, rfl⟩, hpaths⟩
        exact ⟨summary, hsummary, hpaths⟩
    rw [hcode, ← hok]
    exact tells_conclude _ _ _ _

/-- **What the form of the output decides.** A command line may choose either form and ask for the
same otherwise. Two runs of `build` that differ in nothing but the form leave the same machine. The
exit code is 0 in text if the extension was built and, unless that is not wanted, loaded; in JSON it
is 0 if besides all paths to tell of are texts. Else it is 1. -/
theorem runProgram_formats (m : Machine) (around around' : Surroundings) :
    (∀ rest, Invocation.ofArguments false (buildLine .json rest) =
      (Invocation.ofArguments false (buildLine .text rest)).inFormat .json) ∧
    ∀ line line' verbose arguments noLoad,
      Invocation.ofArguments false line = .run verbose (.build arguments noLoad .text) →
      Invocation.ofArguments false line' = .run verbose (.build arguments noLoad .json) →
      (runProgram line' around' m).2 = (runProgram line around m).2 ∧
      Tells (runProgram line around m).1.code
        (∃ told, Accomplishes m arguments verbose noLoad told) ∧
      Tells (runProgram line' around' m).1.code
        (∃ told, Accomplishes m arguments verbose noLoad told ∧ ∀ p ∈ told, p.IsText) := by
  refine ⟨ofArguments_buildLine .json, ?_⟩
  intro line line' verbose arguments noLoad hline hline'
  obtain ⟨hmachine, hcode⟩ := runProgram_build hline around m
  obtain ⟨hmachine', hcode'⟩ := runProgram_build hline' around' m
  refine ⟨hmachine'.trans hmachine.symm, ?_, ?_⟩
  · simpa using hcode
  · simpa using hcode'

/-- A source whose name is no text, for which nothing but a build is wanted. -/
def illFormedRest : List Bytes :=
  [utf8 "ops", [slash, 0xFF], utf8 "--no-load", utf8 "--build-dir", utf8 "/w"]

/-- What that asks for. -/
def illFormedArguments : ExtensionArguments where
  name := "ops"
  sources := [⟨[slash, 0xFF]⟩]
  buildDir := some (.ofText "/w")

/-- The extension is built in both forms, and in JSON the command fails. -/
theorem runProgram_formats_illFormed :
    (runProgram (buildLine .json illFormedRest) ⟨"x86_64", 1⟩ tooledMachine).2 =
        (runProgram (buildLine .text illFormedRest) ⟨"x86_64", 2⟩ tooledMachine).2 ∧
      (runProgram (buildLine .text illFormedRest) ⟨"x86_64", 2⟩ tooledMachine).1.code = 0 ∧
      (runProgram (buildLine .json illFormedRest) ⟨"x86_64", 1⟩ tooledMachine).1.code = 1 ∧
      ∃ told, Accomplishes tooledMachine illFormedArguments false true told ∧
        ¬∀ p ∈ told, p.IsText := by
  have htext : Invocation.ofArguments false (buildLine .text illFormedRest) =
      .run false (.build illFormedArguments true .text) := by decide +kernel
  have hjson : Invocation.ofArguments false (buildLine .json illFormedRest) =
      .run false (.build illFormedArguments true .json) := by decide +kernel
  have hcode : (runProgram (buildLine .text illFormedRest) ⟨"x86_64", 2⟩ tooledMachine).1.code =
      0 := by decide +kernel
  have hcode' : (runProgram (buildLine .json illFormedRest) ⟨"x86_64", 1⟩ tooledMachine).1.code =
      1 := by decide +kernel
  obtain ⟨hmachine, hbuilt, htold⟩ := (runProgram_formats tooledMachine ⟨"x86_64", 2⟩
    ⟨"x86_64", 1⟩).2 _ _ false illFormedArguments true htext hjson
  rw [hcode] at hbuilt
  rw [hcode'] at htold
  obtain ⟨-, told, hdone⟩ | ⟨⟨⟩, -⟩ := hbuilt
  obtain ⟨⟨⟩, -⟩ | ⟨-, hnot⟩ := htold
  exact ⟨hmachine, hcode, hcode', told, hdone, fun htexts => hnot ⟨told, hdone, htexts⟩⟩

end Cli

end NativeExtension
