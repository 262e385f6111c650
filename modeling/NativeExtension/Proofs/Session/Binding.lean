import NativeExtension.Proofs.Path.Spelling
import NativeExtension.Proofs.Session.OpenLibraries
import NativeExtension.Proofs.Session.Registry

/-!
# NativeExtension.Proofs.Session.Binding

**Which library a load binds.** A load is meant to bind the library that is on disk when it is
called. It binds the one that the loader sees under the path that was found
(`Session.binding_eq`), and the two part in two cases only: a library that is still open
stands for a file that has changed since, or the directory was given as the empty path, so
that the path has no slash and the loader looks among the system's libraries and not where the
file is (`Run.binding_spec`).
-/

namespace NativeExtension

/-- A failed load, without the system loader's own words about a file. -/
def LoadError.wordless : LoadError → LoadError
  | .unloadable path _ => .unloadable path ""
  | error => error

/-- What the function under a symbol returns. A zero byte at the end of the symbol ends it
and is no part of it. -/
def Library.lookUp? (library : Library) (symbol : String) : Option Int :=
  library.call? (String.ofList
    (if symbol.toList.getLast? = some '\x00' then symbol.toList.dropLast else symbol.toList))

/-- What a load binds when the path that was found holds this library, or none. -/
def verdict (name : String) (path : Path) : Option Library → Except LoadError Library
  | none => .error (.unloadable path "")
  | some library =>
    match library.call? (entrySymbol name) with
    | none =>
      .error (.noEntryPoint path (entrySymbol name)
        (Loader.noSymbolWords path (entrySymbol name)))
    | some code => if code = 0 then .ok library else .error (.refused name code)

/-- What a load is meant to bind: the library that is on disk. -/
def Machine.binding (m : Machine) (name : String) (directory : Path) (suffix : String) :
    Except LoadError Library :=
  match m.findArtifact name directory suffix with
  | .error error => .error error
  | .ok path => verdict name path (m.libraryAt? path)

namespace Session

/-- What a load binds in a session. -/
def binding (s : Session) (name : String) (directory : Path) (suffix : String) :
    Except LoadError Library :=
  (((loadArtifact name directory suffix).run.run s).1.map (·.library)).mapError
    LoadError.wordless

/-- The loader does not stand between a load and the file at a path: if it has a library open under
the path, that one gives what the file gives, and if it has none and the path has no slash, so does
what it finds among the system's libraries. -/
def SeesFile (s : Session) (name : String) (path : Path) : Prop :=
  match s.loader.known? s.machine path with
  | some library => verdict name path (some library) = verdict name path (s.machine.libraryAt? path)
  | none => path.bytes.contains slash = false →
      verdict name path (s.machine.libraryNamed? path) =
        verdict name path (s.machine.libraryAt? path)

/-- The loader does not stand between a load and the file that it finds. -/
def SeesDisk (s : Session) (name : String) (directory : Path) (suffix : String) : Prop :=
  ∀ path, s.machine.findArtifact name directory suffix = .ok path → s.SeesFile name path

/-! ### What a load binds -/

theorem findArtifact_wordless {m : Machine} {name : String} {directory : Path}
    {suffix : String} {error : LoadError}
    (h : m.findArtifact name directory suffix = .error error) : error.wordless = error := by
  unfold Machine.findArtifact at h
  dsimp only at h
  split at h
  · cases h
  · split at h
    · cases h
      rfl
    · split at h
      · cases h
      · cases h
        rfl

theorem findArtifact_join {m : Machine} {name : String} {directory : Path} {suffix : String}
    {path : Path} (h : m.findArtifact name directory suffix = .ok path) :
    ∃ file, directory.join file = path := by
  unfold Machine.findArtifact at h
  dsimp only at h
  split at h
  · exact ⟨_, Except.ok.inj h⟩
  · split at h
    · cases h
    · split at h
      · exact ⟨_, Except.ok.inj h⟩
      · cases h

/-- A load binds what the loader sees in the path that was found. -/
theorem binding_eq (s : Session) (name : String) (directory : Path) (suffix : String) :
    s.binding name directory suffix =
      match s.machine.findArtifact name directory suffix with
      | .error error => .error error
      | .ok path => verdict name path (s.loader.view? s.machine path) := by
  unfold binding
  rw [run_loadArtifact]
  cases hfind : s.machine.findArtifact name directory suffix with
  | error error => exact congrArg Except.error (findArtifact_wordless hfind)
  | ok path =>
      dsimp only
      rw [← Loader.openLibrary_view]
      cases s.loader.openLibrary s.machine path with
      | error words => rfl
      | ok found =>
          obtain ⟨library, opened⟩ := found
          dsimp only [Except.toOption, Option.map_some, verdict]
          cases library.call? (entrySymbol name) with
          | none => rfl
          | some code =>
              dsimp only
              by_cases hcode : code = 0
              · rw [if_pos hcode, if_pos hcode]
                rfl
              · rw [if_neg hcode, if_neg hcode]
                rfl

/-- By cases on what the loader has: a library that is open is given back whatever the file
holds, and else the file is opened, or a library of the system in its place. -/
theorem verdict_view_iff (s : Session) (name : String) (path : Path) :
    verdict name path (s.loader.view? s.machine path) =
      verdict name path (s.machine.libraryAt? path) ↔ s.SeesFile name path := by
  rw [Loader.view?, SeesFile]
  cases s.loader.known? s.machine path with
  | some library => exact Iff.rfl
  | none =>
      dsimp only [Option.none_or]
      cases hslash : path.bytes.contains slash with
      | false => exact ⟨fun h _ => h, fun h => h rfl⟩
      | true =>
          rw [s.machine.libraryNamed?_of_slash hslash]
          exact ⟨nofun, fun _ => rfl⟩

/-- A load binds what is on disk exactly where the loader does not stand between. -/
theorem binding_eq_disk_iff (s : Session) (name : String) (directory : Path)
    (suffix : String) :
    s.binding name directory suffix = s.machine.binding name directory suffix ↔
      s.SeesDisk name directory suffix := by
  rw [binding_eq, Machine.binding, SeesDisk]
  cases s.machine.findArtifact name directory suffix with
  | error error =>
      refine ⟨fun _ path hpath => ?_, fun _ => rfl⟩
      cases hpath
  | ok path =>
      dsimp only
      rw [verdict_view_iff]
      refine ⟨?_, fun h => h path rfl⟩
      rintro h other hother
      cases hother
      exact h

/-- Where the loader stands between, the load binds the library of an extension that was loaded
before, or the directory is the empty path and it binds what is among the system's libraries. -/
theorem binding_of_not_seesFile {s : Session} (hloader : LoaderSound s) {name : String}
    {directory path : Path} {suffix : String}
    (hfind : s.machine.findArtifact name directory suffix = .ok path)
    (h : ¬ s.SeesFile name path) :
    directory.bytes = [] ∧
        s.binding name directory suffix = verdict name path (s.machine.libraryNamed? path) ∨
      ∃ e ∈ s.extensions, s.binding name directory suffix = verdict name path (some e.library) := by
  rw [SeesFile] at h
  rw [binding_eq, hfind]
  dsimp only
  rw [Loader.view?]
  cases hknown : s.loader.known? s.machine path with
  | some library =>
      -- whatever is open belongs to an extension
      obtain ⟨entry, hentry, rfl⟩ := Loader.mem_of_known? hknown
      obtain ⟨e, he, hlibrary⟩ := hloader.owned entry hentry
      exact Or.inr ⟨e, he, by rw [hlibrary]; rfl⟩
  | none =>
      rw [hknown] at h
      obtain ⟨hslash, -⟩ := Classical.not_imp.mp h
      -- a path that was found is the directory with a name behind it
      obtain ⟨file, rfl⟩ := findArtifact_join hfind
      have hmissing : slash ∉ (directory.join file).bytes := by simpa using hslash
      exact Or.inl ⟨Path.nil_of_join_slashless hmissing, rfl⟩

/-- What is looked up through the handle that a load gave is what that library exports. -/
theorem call?_loaded {s s' : Session} {name : String} {directory : Path} {suffix : String}
    {e : Extension} (h : (loadArtifact name directory suffix).run.run s = (.ok e, s'))
    (symbol : String) : s'.call? e.handle symbol = e.library.lookUp? symbol := by
  rcases loadArtifact_cases name directory suffix s
    with ⟨error, refused, hrun, -⟩ | ⟨loaded, after, hrun, -, -, hregisters⟩
  · rw [hrun] at h
    cases h
  · rw [hrun] at h
    cases h
    have hkept : s'.extensions[e.handle]? = some e := by
      rw [hregisters.extensions, hregisters.handle]
      simp
    rw [call?, hkept]
    rfl

end Session

/-! ### Whole runs -/

/-- **Which library a load binds, in every session that a run reaches.** It is the one on disk
exactly where the loader does not stand between (`Session.SeesDisk`). A path that an extension
was loaded from gives the library of that extension, whatever is there now. Where the load
does not bind what is on disk, it binds the library of an earlier extension, or it found a path
with no slash because the directory is the empty path and binds what has that name among the
system's libraries, if anything has. And what is looked up through the handle that a load gave is
what the library that it bound exports. -/
theorem Run.binding_spec {m : Machine} {done : List Step} {s : Session} (h : Run m done s)
    (name : String) (directory : Path) (suffix : String) :
    (s.binding name directory suffix = s.machine.binding name directory suffix ↔
      s.SeesDisk name directory suffix) ∧
    (∀ e ∈ s.extensions, s.machine.findArtifact name directory suffix = .ok e.path →
      s.binding name directory suffix = verdict name e.path (some e.library)) ∧
    (s.binding name directory suffix ≠ s.machine.binding name directory suffix →
      ∃ path, s.machine.findArtifact name directory suffix = .ok path ∧
        (directory.bytes = [] ∧ s.binding name directory suffix =
            verdict name path (s.machine.libraryNamed? path) ∨
          ∃ e ∈ s.extensions,
            s.binding name directory suffix = verdict name path (some e.library))) ∧
    ∀ e s', (Session.loadArtifact name directory suffix).run.run s = (.ok e, s') →
      s.binding name directory suffix = .ok e.library ∧
        ∀ symbol, s'.call? e.handle symbol = e.library.lookUp? symbol := by
  have hloader := h.loaderSound
  refine ⟨s.binding_eq_disk_iff name directory suffix, ?_, ?_, ?_⟩
  · intro e he hfind
    rw [Session.binding_eq, hfind]
    dsimp only
    rw [(hloader.kept e he).view? hloader.sound]
  · intro hdiffers
    rw [Ne, Session.binding_eq_disk_iff, Session.SeesDisk] at hdiffers
    obtain ⟨path, hpath⟩ := Classical.not_forall.mp hdiffers
    obtain ⟨hfind, hunseen⟩ := Classical.not_imp.mp hpath
    exact ⟨path, hfind, Session.binding_of_not_seesFile hloader hfind hunseen⟩
  · intro e s' hrun
    refine ⟨?_, Session.call?_loaded hrun⟩
    rw [Session.binding, hrun]
    rfl

/-- The library that a rebuild puts in the place of the one at the root. -/
def rebuiltLibrary : Library := ⟨[("extbuild_init_demo", 0), ("value", 2)]⟩

/-- The machine after that rebuild. -/
def rebuiltMachine : Machine := demoMachine.put (.ofText "/demo.so") (.library rebuiltLibrary)

/-- A rebuild between two loads: the second load binds the library of the first. -/
theorem Run.binding_spec_rebuilt :
    ∃ done s, Run demoMachine done s ∧
      s.machine.binding "demo" (.ofText "/") "so" = .ok rebuiltLibrary ∧
      s.binding "demo" (.ofText "/") "so" = .ok demoExtension.library ∧
      ¬ s.SeesDisk "demo" (.ofText "/") "so" := by
  have hloaded := Run.start.step (m := demoMachine) demoLoad
  have hrun := hloaded.step (.change rebuiltMachine)
  obtain ⟨hiff, hkept, -, -⟩ := hrun.binding_spec "demo" (.ofText "/") "so"
  have hdisk : rebuiltMachine.binding "demo" (.ofText "/") "so" = .ok rebuiltLibrary := rfl
  have hbinding := hkept demoExtension (List.mem_singleton.mpr rfl) rfl
  refine ⟨_, _, hrun, hdisk, hbinding, ?_⟩
  intro hsees
  have heq := (hbinding.symm.trans (hiff.mpr hsees)).trans hdisk
  cases heq

-- the empty path: the library is found, and not loaded
example :
    demoMachine.binding "demo" (.ofText "") "so" = .ok demoExtension.library ∧
    Session.binding { machine := demoMachine } "demo" (.ofText "") "so" =
      .error (.unloadable (.ofText "demo.so") "") :=
  ⟨rfl, rfl⟩

-- or another of that name is, from a directory of the system's libraries
example :
    Session.binding
        { machine :=
            { demoMachine.put (.ofText "/lib/demo.so") (.library rebuiltLibrary) with
              libraryDirs := [.ofText "/lib"] } }
        "demo" (.ofText "") "so" = .ok rebuiltLibrary :=
  rfl

end NativeExtension
