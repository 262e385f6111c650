import NativeExtension.Proofs.Cli.Commands
import NativeExtension.Proofs.Ninja.DefaultTarget
import NativeExtension.Proofs.Session.ArtifactNames
import NativeExtension.Proofs.Session.Completion
import NativeExtension.Proofs.Session.Registry

/-!
# NativeExtension.Proofs.Session.LinkedLibrary

**The loader takes the file that the description links.** The description names the library as the
default target, and the loader computes the name of the library by itself; both come to the same
name (`isDefaultTarget_of_render`). So once a build has succeeded and left the default target in its
workspace, that file is opened and no other, whatever else lies there; and if no file there is named
for the extension, nothing is loaded (`buildWith_loadsLinked`).
-/

namespace NativeExtension

open Session

/-! ### The default target of a description -/

/-- The target is the default target of a description: the last that it names, the one that a reader
of it finds, and the only one as long as no text in it breaks a line. -/
structure IsDefaultTarget (spec : BuildSpec) (toolchain : Toolchain) (text : String)
    (target : List Char) : Prop where
  last : (Ninja.defaultTargets text.toList).getLast? = some target
  read : ∀ contents, Ninja.Contents.ofText? text.toList = some contents →
    contents.defaults.getLast? = some target
  only : (∀ includes, Ninja.includeDirs spec toolchain = .ok includes →
      Ninja.Legible spec toolchain includes) →
    Ninja.defaultTargets text.toList = [target]

/-- The default target is the last thing that a description says. -/
theorem isDefaultTarget_of_render {spec : BuildSpec} {toolchain : Toolchain} {text : String}
    (hname : validateName spec.name = .ok ()) (hrender : Ninja.render spec toolchain = .ok text) :
    IsDefaultTarget spec toolchain text (toolchain.artifactName spec.name).toList where
  last := Ninja.getLast?_defaultTargets_render hname hrender
  read := by
    intro contents hread
    rw [Ninja.defaults_of_ofText? hread]
    exact Ninja.getLast?_defaultTargets_render hname hrender
  only := Ninja.defaultTargets_of_legible hrender

/-- The library of an accepted name is one file name. -/
theorem isName_library {name : String} (h : validateName name = .ok ()) (os : Os) :
    Path.IsName (name ++ "." ++ os.librarySuffix) := by
  have hdot : utf8 "." = [dot] := rfl
  obtain ⟨first, rest, hcons⟩ := List.exists_cons_of_ne_nil (isName_of_validateName h).1
  have hfirst : first ≠ dot := by
    rintro rfl
    exact (isPlainWord_of_validateName h).dot_notMem_utf8 (by rw [hcons]; exact List.mem_cons_self)
  have hslash : slash ∉ utf8 os.librarySuffix := by cases os <;> decide
  unfold Path.IsName
  rw [utf8_append, utf8_append, hdot]
  refine ⟨by simp, by simp [hcons, hfirst], by simp [hcons, hfirst], ?_⟩
  have hown := (isName_of_validateName h).2.2.2
  simp only [List.mem_append, not_or]
  exact ⟨⟨hown, by decide⟩, hslash⟩

/-! ### After a build -/

/-- The library at the path was bound as it was after the build, and nothing was registered if it
was refused, and else the extension that it became. -/
inductive Opens (name : String) (path : Path) (s after : Session) :
    Except LoadError Extension → Session → Prop where
  | accepted {e : Extension} {loaded : Session} (hname : e.name = name) (hpath : e.path = path)
      (hbound : ((bindLibrary name path).run.run after).1 = .ok e.library)
      (hregisters : Registers s loaded e) : Opens name path s after (.ok e) loaded
  | refused {error : LoadError} {loaded : Session}
      (hbound : ((bindLibrary name path).run.run after).1 = .error error)
      (hsame : SameRegistrations s loaded) : Opens name path s after (.error error) loaded

/-- The default target is opened if it is there, and nothing is loaded if nothing in the workspace
is named for the extension; `report` is what the caller makes of it. -/
structure LoadsLinked {β : Type} (report : Except LoadError Extension → β) (name suffix : String)
    (workspace : Path) (target : List Char) (s after : Session) (loaded : β × Session) : Prop where
  linked : after.machine.isFile (workspace.joinText (String.ofList target)) = true →
    ∃ result, loaded.1 = report result ∧
      Opens name (workspace.joinText (String.ofList target)) s after result loaded.2
  missing : ∀ names, after.machine.list workspace = .ok names →
    (∀ file ∈ names, NamedFor name suffix file →
      after.machine.isFile (workspace.join ⟨file⟩) = false) →
    loaded.1 = report (.error (.notFound name workspace)) ∧ SameLibraries s loaded.2

/-- The library that a load finds is the one that it opens. -/
theorem opens_of_loadArtifact {name suffix : String} {directory path : Path}
    {s after told : Session} (hbefore : SameLibraries s after)
    (hmachine : told.machine = after.machine) (htold : SameLibraries after told)
    (hfound : told.machine.findArtifact name directory suffix = .ok path) :
    Opens name path s after ((loadArtifact name directory suffix).run.run told).1
      ((loadArtifact name directory suffix).run.run told).2 := by
  have hresult := loadArtifact_found hfound
  rw [bindLibrary_congr hmachine htold.loader] at hresult
  rcases loadArtifact_cases name directory suffix told with
    ⟨error, loaded, hrun, hsame⟩ | ⟨e, loaded, hrun, hname, hpath, hregisters⟩
  · rw [hrun] at hresult ⊢
    exact .refused (map_error_iff.mp hresult.symm) (hsame.after (hbefore.trans htold))
  · rw [hrun] at hresult ⊢
    obtain ⟨library, hbound, rfl⟩ := map_ok_iff.mp hresult.symm
    exact .accepted hname (Except.ok.inj (hpath.symm.trans hfound)) hbound
      (hregisters.after (hbefore.trans htold))

/-- Whoever loads from the workspace, in a session in which nothing but the journal has changed
since the build, loads what was linked. -/
theorem loadsLinked_of_loadArtifact {β : Type} (report : Except LoadError Extension → β)
    {name : String} (hname : validateName name = .ok ()) (toolchain : Toolchain)
    (workspace : Path) {s after told : Session} (hbefore : SameLibraries s after)
    (hmachine : told.machine = after.machine) (htold : SameLibraries after told) :
    LoadsLinked report name toolchain.os.librarySuffix workspace
      (toolchain.artifactName name).toList s after
      (report ((loadArtifact name workspace toolchain.os.librarySuffix).run.run told).1,
        ((loadArtifact name workspace toolchain.os.librarySuffix).run.run told).2) where
  linked := by
    intro hfile
    rw [String.ofList_toList, Toolchain.artifactName] at hfile ⊢
    rw [← hmachine] at hfile
    exact ⟨_, rfl, opens_of_loadArtifact hbefore hmachine htold (Machine.findArtifact_exact hfile)⟩
  missing := by
    intro names hlist hnone
    rw [← hmachine] at hlist hnone
    have hsearch := Machine.findArtifact_notFound (isPlainWord_of_validateName hname)
      (isPlainWord_librarySuffix toolchain.os) (isName_library hname toolchain.os) hlist hnone
    rw [loadArtifact_error hsearch]
    exact ⟨rfl, hbefore.trans htold⟩

/-- What the build was told to make is what is loaded after it. -/
structure LinkedLibrary {β : Type} (report : Except LoadError Extension → β) (options : LoadOptions)
    (toolchain : Toolchain) (runner : Runner) (s : Session) (output : BuildOutput)
    (after : Session) (loaded : β × Session) : Prop where
  described : ∃ text ready target, Built options toolchain runner s output after text ready ∧
    IsDefaultTarget output.spec toolchain text target ∧
    LoadsLinked report output.spec.name toolchain.os.librarySuffix output.workspace target s after
      loaded

/-- What a build leaves behind (`built_of_buildWith`) and what a load from there opens, put
together. -/
theorem linkedLibrary_of_built {β : Type} (report : Except LoadError Extension → β)
    {options : LoadOptions} {toolchain : Toolchain} {runner : Runner} {s after : Session}
    {output : BuildOutput}
    (hbuilt : (buildWith options toolchain runner).run.run s = (.ok output, after))
    {told : Session} (hmachine : told.machine = after.machine) (htold : SameLibraries after told) :
    LinkedLibrary report options toolchain runner s output after
      (report ((loadArtifact output.spec.name output.workspace
          toolchain.os.librarySuffix).run.run told).1,
        ((loadArtifact output.spec.name output.workspace
          toolchain.os.librarySuffix).run.run told).2) := by
  have hkept := keeps_buildWith options toolchain runner s
  change SameLibraries s ((buildWith options toolchain runner).run.run s).2 at hkept
  rw [hbuilt] at hkept
  obtain ⟨text, ready, hready⟩ := built_of_buildWith hbuilt
  have hname : validateName output.spec.name = .ok () := by
    rw [BuildSpec.name_of_ofOptions hready.checked]
    exact (BuildSpec.ofOptions_ok hready.checked).1
  exact ⟨text, ready, _, hready, isDefaultTarget_of_render hname hready.rendered,
    loadsLinked_of_loadArtifact report hname toolchain output.workspace hkept hmachine htold⟩

/-- What the command reports of a load. -/
def loadSummary (arguments : Cli.ExtensionArguments) (output : BuildOutput) :
    Except LoadError Extension → Except Cli.Failure Cli.Summary
  | .ok extension =>
    .ok { name := extension.name, workspace := output.workspace, artifact := some extension.path,
          spec := none }
  | .error error =>
    .error (("Failed to load extension '" ++ arguments.name ++ "'") ::
      Cli.failureOf (.load error))

/-- Between a build and its load nothing happens but a report. -/
theorem run_loadWith_ok {options : LoadOptions} {toolchain : Toolchain} {runner : Runner}
    {s after : Session} {output : BuildOutput}
    (h : (buildWith options toolchain runner).run.run s = (.ok output, after)) :
    ∃ told : Session, told.machine = after.machine ∧ SameLibraries after told ∧
      (loadWith options toolchain runner).run.run s =
        (((loadArtifact output.spec.name output.workspace
            toolchain.os.librarySuffix).run.run told).1.mapError Error.load,
          ((loadArtifact output.spec.name output.workspace
            toolchain.os.librarySuffix).run.run told).2) := by
  refine ⟨((step options.verbose ("Loading extension module " ++ output.spec.name)).run after).2,
    step_machine _ _ _, keeps_step _ _ _, ?_⟩
  unfold loadWith
  rw [run_bind, h]
  dsimp only
  rw [run_lift_bind, run_raising]

theorem sameLibraries_afterLog (verbose : Bool) (log : String) (s : Session) :
    SameLibraries s (Cli.afterLog verbose log s) := by
  unfold Cli.afterLog
  split <;> exact ⟨rfl, rfl, rfl⟩

/-- The command prints the log between the build and the load, and changes nothing else. -/
theorem run_buildSummary_ok {arguments : Cli.ExtensionArguments} {verbose : Bool}
    {s after : Session} {output : BuildOutput}
    (h : (build (arguments.request verbose)).run.run s = (.ok output, after)) :
    (Cli.buildSummary arguments verbose false).run.run s =
      (loadSummary arguments output ((loadArtifact output.spec.name output.workspace
          Os.linux.librarySuffix).run.run (Cli.afterLog verbose output.log after)).1,
        ((loadArtifact output.spec.name output.workspace Os.linux.librarySuffix).run.run
          (Cli.afterLog verbose output.log after)).2) := by
  rw [Cli.run_buildSummary, h]
  dsimp only
  rw [if_neg Bool.false_ne_true]
  cases (loadArtifact output.spec.name output.workspace Os.linux.librarySuffix).run.run
    (Cli.afterLog verbose output.log after) with
  | mk result loaded => cases result <;> rfl

/-- **The loader takes the file that the description links**, from the library and from the command
alike. -/
theorem buildWith_loadsLinked :
    (∀ options toolchain runner s output after,
      (buildWith options toolchain runner).run.run s = (.ok output, after) →
      LinkedLibrary (·.mapError Error.load) options toolchain runner s output after
        ((loadWith options toolchain runner).run.run s)) ∧
    ∀ arguments verbose s output after,
      (build (arguments.request verbose)).run.run s = (.ok output, after) →
      LinkedLibrary (loadSummary arguments output) (arguments.request verbose)
        (detectToolchain.run s).1 (detectToolchain.run s).2.machine.runner (detectToolchain.run s).2
        output after ((Cli.buildSummary arguments verbose false).run.run s) ∧
      ∀ failure, ((Cli.buildSummary arguments verbose false).run.run s).1 = .error failure →
        ∀ format milliseconds,
          (Cli.runBuildCommand arguments verbose false format milliseconds).run.run s =
            (.error failure, ((Cli.buildSummary arguments verbose false).run.run s).2) := by
  constructor
  · intro options toolchain runner s output after hbuilt
    obtain ⟨told, hmachine, htold, hrun⟩ := run_loadWith_ok hbuilt
    rw [hrun]
    exact linkedLibrary_of_built _ hbuilt hmachine htold
  · intro arguments verbose s output after hbuilt
    refine ⟨?_, fun failure hfailure => Cli.runBuildCommand_of_summary hfailure⟩
    rw [run_buildSummary_ok hbuilt]
    rw [run_build] at hbuilt
    exact linkedLibrary_of_built (loadSummary arguments output) hbuilt
      (Cli.idles_afterLog verbose output.log after).machine
      (sameLibraries_afterLog verbose output.log after)

/-! ### A workspace with two libraries, and one with none -/

/-- A machine with a runner and a directory to build in, which holds some libraries. -/
def workshop (libraries : List (String × Library)) : Session where
  machine :=
    { files :=
        { entries := [([utf8 "bin"], .directory false),
              ([utf8 "ninja", utf8 "bin"], .file 0 (.program {})),
              ([utf8 "w"], .directory false)] ++
            libraries.mapIdx fun index library =>
              ([utf8 library.1, utf8 "w"], .file (index + 1) (.library library.2))
          nextId := libraries.length + 1 }
      cwd := ⟨[], 0⟩
      env := [] }

/-- A library of the extension, behind one with a tag. -/
def taggedWorkshop : Session :=
  workshop [("ops.a.so", ⟨[]⟩), ("ops.so", ⟨[(entrySymbol "ops", 0)]⟩)]

/-- Arguments that ask for a build there. -/
def workshopArguments : Cli.ExtensionArguments where
  name := "ops"
  sources := [.ofText "/x.cpp"]
  buildDir := some (.ofText "/w")

/-- What such a build gives. -/
def workshopOutput : BuildOutput where
  spec := ⟨"ops", [.ofText "/x.cpp"], [], [], [], []⟩
  workspace := .ofText "/w"
  buildFile := .ofText "/w/build.ninja"
  log := ""

/-- The build in front of the tagged library. -/
def taggedBuild : Except Error BuildOutput × Session :=
  (buildWith (workshopArguments.request false) {} {}).run.run taggedWorkshop

/-- The build in front of no library. -/
def bareBuild : Except Error BuildOutput × Session :=
  (build (workshopArguments.request false)).run.run (workshop [])

/-- What the library of the extension becomes there. -/
def workshopExtension : Extension where
  handle := 0
  name := "ops"
  path := .ofText "/w/ops.so"
  library := ⟨[(entrySymbol "ops", 0)]⟩

/-- The linked library is loaded and not the one with the tag; where there is none, the command says
so. -/
theorem buildWith_loadsLinked_workshop :
    (taggedBuild.1 = .ok workshopOutput ∧
      taggedBuild.2.machine.isFile (.ofText "/w/ops.so") = true ∧
      ((loadWith (workshopArguments.request false) {} {}).run.run taggedWorkshop).1 =
        .ok workshopExtension ∧
      ((loadWith (workshopArguments.request false) {} {}).run.run taggedWorkshop).2.extensions =
        [workshopExtension]) ∧
    bareBuild.1 = .ok workshopOutput ∧
      bareBuild.2.machine.list (.ofText "/w") = .ok [utf8 "build.ninja"] ∧
      ((Cli.buildSummary workshopArguments false false).run.run (workshop [])).1 =
        loadSummary workshopArguments workshopOutput (.error (.notFound "ops" (.ofText "/w"))) := by
  obtain ⟨hlibrary, hcommand⟩ := buildWith_loadsLinked
  constructor
  · have hresult : taggedBuild.1 = .ok workshopOutput := by decide +kernel
    have hfile : taggedBuild.2.machine.isFile (.ofText "/w/ops.so") = true := by decide +kernel
    have hlibraryThere : ((bindLibrary "ops" (.ofText "/w/ops.so")).run.run taggedBuild.2).1 =
        .ok workshopExtension.library := by decide +kernel
    refine ⟨hresult, hfile, ?_⟩
    cases hrun : taggedBuild with
    | mk result after =>
    rw [hrun] at hresult hfile hlibraryThere
    obtain rfl : result = _ := hresult
    obtain ⟨text, ready, target, hbuilt, htarget, hloads⟩ := (hlibrary _ _ _ _ _ _ hrun).described
    have hname : validateName workshopOutput.spec.name = .ok () := by decide
    have hlast := (isDefaultTarget_of_render hname hbuilt.rendered).last
    obtain rfl := Option.some.inj (htarget.last.symm.trans hlast)
    have hpath : workshopOutput.workspace.joinText (String.ofList
        (({} : Toolchain).artifactName workshopOutput.spec.name).toList) = .ofText "/w/ops.so" := by
      decide +kernel
    have hlinked := hloads.linked
    rw [hpath] at hlinked
    obtain ⟨result, hloaded, hopens⟩ := hlinked hfile
    generalize (loadWith (workshopArguments.request false) {} {}).run.run taggedWorkshop = loaded
      at hloaded hopens ⊢
    cases hopens with
    | refused hbound => cases hbound.symm.trans hlibraryThere
    | @accepted e _ hname hpath hbound hregisters =>
        obtain rfl : e = workshopExtension := by
          obtain ⟨handle, name, path, library⟩ := e
          obtain rfl : handle = 0 := hregisters.handle
          obtain rfl : name = "ops" := hname
          obtain rfl : path = .ofText "/w/ops.so" := hpath
          obtain rfl : library = workshopExtension.library :=
            Except.ok.inj (hbound.symm.trans hlibraryThere)
          rfl
        exact ⟨hloaded, hregisters.extensions⟩
  · have hresult : bareBuild.1 = .ok workshopOutput := by decide +kernel
    have hlist : bareBuild.2.machine.list (.ofText "/w") = .ok [utf8 "build.ninja"] := by
      decide +kernel
    refine ⟨hresult, hlist, ?_⟩
    cases hrun : bareBuild with
    | mk result after =>
    rw [hrun] at hresult hlist
    obtain rfl : result = _ := hresult
    obtain ⟨text, ready, target, -, -, hloads⟩ := (hcommand _ _ _ _ _ hrun).1.described
    refine (hloads.missing _ hlist ?_).1
    rintro file hfile hnamed
    obtain rfl := List.mem_singleton.mp hfile
    have hplain : IsPlainWord "ops" := isPlainWord_of_validateName (by decide)
    have hother : isArtifactName "ops" Os.linux.librarySuffix (utf8 "build.ninja") = true :=
      (isArtifactName_iff hplain (isPlainWord_librarySuffix .linux) _).mpr hnamed
    exact absurd hother (by decide)

end NativeExtension
