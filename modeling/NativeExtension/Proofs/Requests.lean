import NativeExtension.Ninja.Description
import NativeExtension.Proofs.Path.Settled

/-!
# NativeExtension.Proofs.Requests

**Checking a request settles it.** A request is refused for the first thing that is wrong with
it, and a path is wrong only if it is empty. What is accepted keeps its name, its flags and the
order of its paths, each path is made absolute, and a source that names a file goes on naming it.
A request that has been checked is its own check, in whatever directory it is made again
(`BuildSpec.ofOptions_normalForm`).
-/

namespace NativeExtension

/-! ### One path -/

theorem resolvePath_of_isEmpty (cwd : Except SystemError Path) {p : Path}
    (h : p.isEmpty = true) : resolvePath cwd p = .error (.unresolvable p .emptyPath) := by
  unfold resolvePath Path.absolute
  rw [if_pos h]

theorem exists_resolvePath {here p : Path} (hhere : here.IsDirectoryName)
    (h : p.isEmpty = false) : ∃ q, resolvePath (.ok here) p = .ok q :=
  ⟨_, resolvePath_ok_iff.mpr (Path.absolute_eq hhere h)⟩

/-- The source becomes the same object through the same compiler. -/
structure SameSource (written settled : Path) : Prop where
  stem : settled.stem? = written.stem?
  extension : settled.extension? = written.extension?
  device : settled.isDeviceSource = written.isDeviceSource
  object : Ninja.objectName settled = Ninja.objectName written

theorem Path.SettledFrom.sameSource {here written settled : Path}
    (h : SettledFrom here written settled) (hname : written.fileName? ≠ none) :
    SameSource written settled := by
  obtain ⟨name, hname⟩ := Option.ne_none_iff_exists'.mp hname
  have hsame : settled.fileName? = written.fileName? := (h.fileName? hname).trans hname.symm
  have hstem : settled.stem? = written.stem? := by rw [stem?, stem?, hsame]
  have hextension : settled.extension? = written.extension? := by
    rw [extension?, extension?, hsame]
  refine ⟨hstem, hextension, by rw [isDeviceSource, isDeviceSource, hextension], ?_⟩
  rw [Ninja.objectName, Ninja.objectName, hstem, stem?, hname, Option.map_some,
    Option.getD_some, Option.getD_some]

/-! ### What is wrong with a request -/

namespace LoadOptions

/-- Nothing is wrong with the request. -/
structure IsSound (options : LoadOptions) : Prop where
  name : validateName options.name = .ok ()
  sources : options.sources ≠ []
  paths : ∀ p ∈ options.sources ++ options.includes, p.isEmpty = false

/-- The first thing that is wrong with the request. -/
inductive FirstFault (options : LoadOptions) : ConfigError → Prop where
  | name {error : ConfigError} (hname : validateName options.name = .error error) :
      FirstFault options error
  | noSources (hname : validateName options.name = .ok ()) (hsources : options.sources = []) :
      FirstFault options (.noSources options.name)
  | source {p : Path} (hname : validateName options.name = .ok ())
      (hp : options.sources.find? Path.isEmpty = some p) :
      FirstFault options (.unresolvable p .emptyPath)
  | includeDir {p : Path} (hname : validateName options.name = .ok ())
      (hsources : options.sources ≠ []) (hpaths : options.sources.find? Path.isEmpty = none)
      (hp : options.includes.find? Path.isEmpty = some p) :
      FirstFault options (.unresolvable p .emptyPath)

/-- One of the checks is the first to fail, or none fails. -/
theorem isSound_or_firstFault (options : LoadOptions) :
    options.IsSound ∨ ∃ error, options.FirstFault error := by
  cases hname : validateName options.name with
  | error error => exact Or.inr ⟨error, .name hname⟩
  | ok =>
      by_cases hsources : options.sources = []
      · exact Or.inr ⟨_, .noSources hname hsources⟩
      cases hsource : options.sources.find? Path.isEmpty with
      | some p => exact Or.inr ⟨_, .source hname hsource⟩
      | none =>
          cases hinclude : options.includes.find? Path.isEmpty with
          | some p => exact Or.inr ⟨_, .includeDir hname hsources hsource hinclude⟩
          | none =>
              refine Or.inl ⟨hname, hsources, List.forall_mem_append.mpr ⟨?_, ?_⟩⟩
              · simpa using hsource
              · simpa using hinclude

end LoadOptions

/-! ### Checking -/

namespace BuildSpec

variable {cwd : Except SystemError Path} {options : LoadOptions}

/-- The checks in their order, each of which has to pass. -/
theorem ofOptions_ok_iff {spec : BuildSpec} :
    ofOptions cwd options = .ok spec ↔
      validateName options.name = .ok () ∧ options.sources ≠ [] ∧
        ∃ sources includes,
          List.Forall₂ (fun written p => written.absolute cwd = .ok p) options.sources sources ∧
          List.Forall₂ (fun written p => written.absolute cwd = .ok p) options.includes includes ∧
          spec = { name := options.name, sources := sources, hostFlags := options.hostFlags,
                   deviceFlags := options.deviceFlags, linkFlags := options.linkFlags,
                   includes := includes } := by
  simp only [← resolvePath_ok_iff, ← mapM_ok_iff]
  constructor
  · exact ofOptions_ok
  · intro h
    obtain ⟨hname, hne, sources, includes, hsources, hincludes, rfl⟩ := h
    unfold ofOptions
    rw [hname, hsources, hincludes]
    simp [hne, bind, Except.bind, pure, Except.pure]

/-! ### Seen from a directory -/

variable {here : Path}

/-- The first empty path ends the list. -/
theorem mapM_resolvePath_error (hhere : here.IsDirectoryName) {paths : List Path} {p : Path}
    (h : paths.find? Path.isEmpty = some p) :
    paths.mapM (resolvePath (.ok here)) = .error (.unresolvable p .emptyPath) := by
  obtain ⟨hempty, before, after, hsplit, hbefore⟩ := List.find?_eq_some_iff_append.mp h
  refine mapM_error_iff.mpr ⟨before, p, after, hsplit, ?_, resolvePath_of_isEmpty _ hempty⟩
  intro earlier hearlier
  exact exists_resolvePath hhere (by simpa using hbefore earlier hearlier)

/-- Paths that are all written are all settled. -/
theorem exists_settled (hhere : here.IsDirectoryName) {paths : List Path}
    (h : ∀ p ∈ paths, p.isEmpty = false) :
    ∃ settled, List.Forall₂ (fun written p => written.absolute (.ok here) = .ok p) paths settled :=
  ⟨_, List.forall₂_map_right_iff.mpr
    (List.forall₂_same.mpr fun p hp => Path.absolute_eq hhere (h p hp))⟩

theorem ofOptions_of_isSound (hhere : here.IsDirectoryName) (h : options.IsSound) :
    ∃ spec, ofOptions (.ok here) options = .ok spec := by
  obtain ⟨hsources, hincludes⟩ := List.forall_mem_append.mp h.paths
  obtain ⟨sources, hsources⟩ := exists_settled hhere hsources
  obtain ⟨includes, hincludes⟩ := exists_settled hhere hincludes
  exact ⟨_, ofOptions_ok_iff.mpr
    ⟨h.name, h.sources, sources, includes, hsources, hincludes, rfl⟩⟩

/-- A check that fails is the one that is told of if those in front of it pass. -/
theorem ofOptions_of_firstFault (hhere : here.IsDirectoryName) {error : ConfigError}
    (h : options.FirstFault error) : ofOptions (.ok here) options = .error error := by
  unfold ofOptions
  cases h with
  | name hname => rw [hname]; rfl
  | noSources hname hsources => rw [hname, hsources]; rfl
  | source hname hp =>
      have hne : options.sources ≠ [] := List.ne_nil_of_mem (List.mem_of_find?_eq_some hp)
      rw [hname, mapM_resolvePath_error hhere hp]
      simp [hne, bind, Except.bind]
  | includeDir hname hsources hpaths hp =>
      obtain ⟨settled, hsettled⟩ := exists_settled hhere (by simpa using hpaths)
      have hresolved : options.sources.mapM (resolvePath (.ok here)) = .ok settled :=
        mapM_ok_iff.mpr (hsettled.imp fun _ _ => resolvePath_ok_iff.mpr)
      rw [hname, hresolved, mapM_resolvePath_error hhere hp]
      simp [hsources, bind, Except.bind]

/-- **A request is accepted exactly if nothing is wrong with it.** -/
theorem exists_ofOptions_iff (hhere : here.IsDirectoryName) :
    (∃ spec, ofOptions (.ok here) options = .ok spec) ↔ options.IsSound := by
  refine ⟨?_, ofOptions_of_isSound hhere⟩
  intro h
  obtain ⟨spec, hspec⟩ := h
  refine options.isSound_or_firstFault.resolve_right ?_
  intro hfault
  obtain ⟨error, herror⟩ := hfault
  rw [ofOptions_of_firstFault hhere herror] at hspec
  cases hspec

/-- **And else it is refused for the first thing that is wrong.** -/
theorem ofOptions_error_iff (hhere : here.IsDirectoryName) {error : ConfigError} :
    ofOptions (.ok here) options = .error error ↔ options.FirstFault error := by
  refine ⟨?_, ofOptions_of_firstFault hhere⟩
  intro h
  rcases options.isSound_or_firstFault with hsound | ⟨first, hfirst⟩
  · obtain ⟨spec, hspec⟩ := ofOptions_of_isSound hhere hsound
    rw [hspec] at h
    cases h
  · rw [ofOptions_of_firstFault hhere hfirst] at h
    obtain rfl := Except.error.inj h
    exact hfirst

/-! ### Checking again -/

/-- A checked request as a request. -/
def toOptions (spec : BuildSpec) (buildDirectory : Option Path) (verbose : Bool) : LoadOptions where
  name := spec.name
  sources := spec.sources
  hostFlags := spec.hostFlags
  deviceFlags := spec.deviceFlags
  linkFlags := spec.linkFlags
  includes := spec.includes
  buildDirectory := buildDirectory
  verbose := verbose

theorem ofOptions_toOptions {spec : BuildSpec} (hname : validateName spec.name = .ok ())
    (hsources : spec.sources ≠ []) (htidy : ∀ p ∈ spec.sources ++ spec.includes, p.IsTidy)
    (cwd : Except SystemError Path) (buildDirectory : Option Path) (verbose : Bool) :
    ofOptions cwd (spec.toOptions buildDirectory verbose) = .ok spec := by
  obtain ⟨hsettled, hsettled'⟩ := List.forall_mem_append.mp htidy
  refine ofOptions_ok_iff.mpr ⟨hname, hsources, spec.sources, spec.includes, ?_, ?_, rfl⟩
  · exact List.forall₂_same.mpr fun p hp => (hsettled p hp).absolute cwd
  · exact List.forall₂_same.mpr fun p hp => (hsettled' p hp).absolute cwd

/-- What is left of a request that was made in the directory `here`. -/
structure NormalForm (here : Path) (options : LoadOptions) (spec : BuildSpec) : Prop where
  name : spec.name = options.name
  hostFlags : spec.hostFlags = options.hostFlags
  deviceFlags : spec.deviceFlags = options.deviceFlags
  linkFlags : spec.linkFlags = options.linkFlags
  sources : List.Forall₂ (fun written settled => Path.SettledFrom here written settled ∧
    (written.fileName? ≠ none → SameSource written settled)) options.sources spec.sources
  includes : List.Forall₂ (Path.SettledFrom here) options.includes spec.includes
  again : ∀ cwd buildDirectory verbose,
    ofOptions cwd (spec.toOptions buildDirectory verbose) = .ok spec

/-- Source by source and directory by directory, what `absolute` leaves of the spelling. -/
theorem normalForm_of_ofOptions (hhere : here.IsDirectoryName) {spec : BuildSpec}
    (h : ofOptions (.ok here) options = .ok spec) : NormalForm here options spec := by
  have htidy : ∀ p ∈ spec.sources ++ spec.includes, p.IsTidy :=
    forall_of_ofOptions (fun _ _ hp => (Path.settledFrom_of_absolute hhere hp).tidy) h
  obtain ⟨hname, hne, sources, includes, hsources, hincludes, rfl⟩ := ofOptions_ok_iff.mp h
  have hlength : options.sources.length = sources.length := hsources.length_eq
  refine ⟨rfl, rfl, rfl, rfl, ?_, ?_, ofOptions_toOptions hname ?_ htidy⟩
  · refine hsources.imp fun written settled hsettled => ?_
    have hfrom := Path.settledFrom_of_absolute hhere hsettled
    exact ⟨hfrom, hfrom.sameSource⟩
  · exact hincludes.imp fun _ _ => Path.settledFrom_of_absolute hhere
  · intro hnil
    exact hne (List.length_eq_zero_iff.mp (hlength.trans (congrArg List.length hnil)))

/-- **A request is put into its normal form once and for all.** -/
theorem ofOptions_normalForm (hhere : here.IsDirectoryName) (options : LoadOptions) :
    ((∃ spec, ofOptions (.ok here) options = .ok spec) ↔ options.IsSound) ∧
    (∀ error, ofOptions (.ok here) options = .error error ↔ options.FirstFault error) ∧
    (∀ spec, ofOptions (.ok here) options = .ok spec → NormalForm here options spec) :=
  ⟨exists_ofOptions_iff hhere, fun _ => ofOptions_error_iff hhere,
    fun _ => normalForm_of_ofOptions hhere⟩

/-- Every way of spelling a path that is kept or dropped. -/
def spelledOptions : LoadOptions where
  name := "ext"
  sources := [.ofText "./a.cpp", .ofText "//x/../k.cu", .ofText "///y/./b.x.cuh"]
  deviceFlags := ["-O3"]
  includes := [.ofText "inc//sub/", .ofText ".", .ofText "..", .ofText "/."]

theorem ofOptions_normalForm_respelled :
    (Path.ofText "/w").IsDirectoryName ∧ ∃ spec,
      ofOptions (.ok (.ofText "/w")) spelledOptions = .ok spec ∧
      spec.sources = [.ofText "/w/a.cpp", .ofText "//x/../k.cu", .ofText "/y/b.x.cuh"] ∧
      spec.includes = [.ofText "/w/inc/sub/", .ofText "/w", .ofText "/w/..", .ofText "/"] ∧
      ofOptions (.error .missing) (spec.toOptions none true) = .ok spec ∧
      ofOptions (.ok (.ofText "/w"))
        { spelledOptions with sources := [.ofText "a.cpp", ⟨[]⟩], includes := [⟨[]⟩] } =
        .error (.unresolvable ⟨[]⟩ .emptyPath) := by
  have hhere : (Path.ofText "/w").IsDirectoryName :=
    ⟨by decide, by decide, by decide, by decide⟩
  obtain ⟨haccepted, -, hnormal⟩ := ofOptions_normalForm hhere spelledOptions
  obtain ⟨spec, hspec⟩ := haccepted.mpr ⟨by decide, by decide, by decide⟩
  obtain ⟨-, hrefused, -⟩ := ofOptions_normalForm hhere
    { spelledOptions with sources := [.ofText "a.cpp", ⟨[]⟩], includes := [⟨[]⟩] }
  refine ⟨hhere, spec, hspec, ?_, ?_, (hnormal spec hspec).again _ _ _,
    (hrefused _).mpr (.source (by decide) (by decide))⟩
  · obtain rfl := Except.ok.inj hspec
    decide
  · obtain rfl := Except.ok.inj hspec
    decide

end BuildSpec

end NativeExtension
