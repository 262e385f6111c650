import NativeExtension.Ninja.Expansion
import NativeExtension.Proofs.Arguments.Words
import NativeExtension.Proofs.Names
import NativeExtension.Proofs.Ninja.ReadBack
import NativeExtension.Proofs.Path.Absolute

/-!
# NativeExtension.Proofs.Ninja.Commands

**Every path reaches its compiler as one argument.** A command passes through two layers on
its way: the runner fills in its template, and a shell splits the line into words. What is
quoted before it is joined and escaped comes out of both as it went in, whatever characters
the paths hold.
-/

namespace NativeExtension

open Posix

/-! ### Paths and flags that can be conveyed -/

/-- A path that can be written down as text on one line. -/
structure Path.Printable (p : Path) : Prop where
  text : ∃ spelled, p.bytes = utf8 spelled
  unbroken : Ninja.UnbrokenBytes p.bytes

/-- A text that is one word of a command line as it stands. -/
def IsBareWord (text : String) : Prop := text.toList ≠ [] ∧ text.toList.all isBare = true

instance (text : String) : Decidable (IsBareWord text) :=
  decidable_of_iff (!text.toList.isEmpty && text.toList.all isBare) (by simp [IsBareWord])

theorem Path.Printable.encode_display {p : Path} (h : p.Printable) :
    Utf8.encode p.display.toList = p.bytes := by
  obtain ⟨spelled, hspelled⟩ := h.text
  rw [Path.display, hspelled, shown_utf8]
  rfl

theorem Path.Printable.joinText {p : Path} (h : p.Printable) {name : String}
    (hrelative : (Path.ofText name).isAbsolute = false)
    (hname : Ninja.UnbrokenBytes (utf8 name)) : (p.joinText name).Printable where
  text := by
    obtain ⟨spelled, hspelled⟩ := h.text
    obtain ⟨gap, hgap, hbytes⟩ := Path.join_of_relative p hrelative
    rcases hgap with rfl | rfl
    · refine ⟨spelled ++ name, ?_⟩
      rw [Path.joinText, hbytes, hspelled]
      simp [Path.ofText, utf8]
    · refine ⟨spelled ++ "/" ++ name, ?_⟩
      rw [Path.joinText, hbytes, hspelled]
      simp only [Path.ofText, utf8, String.toList_append, Utf8.encode_append]
      rfl
  unbroken := (Ninja.unbroken_joinText hrelative hname p).mpr h.unbroken

/-- A bare word with bare text behind it is a bare word, so an option may be put in front of a
name. -/
theorem isBareWord_append {a b : String} (ha : IsBareWord a) (hb : b.toList.all isBare = true) :
    IsBareWord (a ++ b) := by
  refine ⟨?_, ?_⟩
  · rw [String.toList_append]
    exact List.append_ne_nil_of_left_ne_nil ha.1 _
  · rw [String.toList_append, List.all_append, ha.2, hb]
    rfl

namespace Ninja

theorem unbroken_of_isBareWord {text : String} (h : IsBareWord text) : Unbroken text.toList :=
  unbroken_of_all (by decide) h.2

theorem isBare_of_isIdentifierPart {c : Char} (h : isIdentifierPart c = true) :
    isBare c = true := by
  unfold isIdentifierPart at h
  unfold isBare
  rcases Bool.or_eq_true_iff.mp h with halphanum | hunderscore
  · rw [halphanum, Bool.true_or]
  · obtain rfl := of_decide_eq_true hunderscore
    decide

/-- A checked name is one bare word. -/
theorem isBareWord_of_validateName {name : String} (h : validateName name = .ok ()) :
    IsBareWord name :=
  ⟨toList_ne_nil_of_validateName h, List.all_eq_true.mpr fun _ hc =>
    isBare_of_isIdentifierPart (isIdentifierPart_of_validateName h hc)⟩

/-- So is the name of a checked request. -/
theorem isBareWord_of_ofOptions {cwd : Except SystemError Path} {options : LoadOptions}
    {spec : BuildSpec} (h : BuildSpec.ofOptions cwd options = .ok spec) :
    IsBareWord spec.name := by
  rw [BuildSpec.name_of_ofOptions h]
  exact isBareWord_of_validateName (BuildSpec.ofOptions_ok h).1

/-! ### Command lines -/

/-- The arguments that the tool of an edge is started with. -/
def Contents.arguments? (contents : Contents) (edge : Edge) : Option (List Bytes) :=
  (contents.command? edge).map (List.map Utf8.encode)

theorem fill_host (value : List Char → List Char) :
    fill value none (Plan.commandOf .host).toList =
      some (List.intercalate [' '] [value "cxx".toList, "-MMD".toList, "-MF".toList,
        value "out".toList ++ ".d".toList, value "cflags".toList, "-c".toList, value "in".toList,
        "-o".toList, value "out".toList]) := by
  simp [fill, Plan.commandOf, isReferenceChar]

theorem fill_device (value : List Char → List Char) :
    fill value none (Plan.commandOf .device).toList =
      some (List.intercalate [' '] [value "nvcc".toList, value "cuda_flags".toList, "-c".toList,
        value "in".toList, "-o".toList, value "out".toList]) := by
  simp [fill, Plan.commandOf, isReferenceChar]

theorem fill_link (value : List Char → List Char) :
    fill value none Plan.linkCommand.toList =
      some (List.intercalate [' '] [value "cxx".toList, value "ldflags".toList,
        value "in".toList, "-o".toList, value "out".toList]) := by
  simp [fill, Plan.linkCommand, isReferenceChar]

theorem commandLine?_of_rule {contents : Contents} {edge : Edge} {rule : RuleText}
    {template : List Char} (hrule : contents.rule? edge.rule = some rule)
    (htemplate : rule.bindings.lookup "command".toList = some template) :
    contents.commandLine? edge = fill (contents.edgeValue edge) none template := by
  rw [Contents.commandLine?, hrule, Option.bind_eq_bind, Option.bind_some, htemplate,
    Option.bind_eq_bind, Option.bind_some]

namespace Plan

theorem value_cxx (plan : Plan) : plan.contents.value "cxx".toList = plan.cxx.toList := by
  cases hnvcc : plan.nvcc <;> simp [Contents.value, contents, named, hnvcc, List.lookup_cons]

theorem value_cflags (plan : Plan) : plan.contents.value "cflags".toList =
    List.intercalate [' '] (plan.hostFlags.map String.toList) := by
  cases hnvcc : plan.nvcc <;>
    simp [Contents.value, contents, named, hnvcc, List.lookup_cons, String.toList_intercalate]

theorem value_ldflags (plan : Plan) : plan.contents.value "ldflags".toList =
    List.intercalate [' '] (plan.linkFlags.map String.toList) := by
  cases hnvcc : plan.nvcc <;>
    simp [Contents.value, contents, named, hnvcc, String.toList_intercalate]

theorem value_nvcc {plan : Plan} {program : String} (h : plan.nvcc = some program) :
    plan.contents.value "nvcc".toList = program.toList := by
  simp [Contents.value, contents, named, h, List.lookup_cons]

theorem value_cudaFlags {plan : Plan} {program : String} (h : plan.nvcc = some program) :
    plan.contents.value "cuda_flags".toList =
      List.intercalate [' '] (plan.deviceFlags.map String.toList) := by
  simp [Contents.value, contents, named, h, List.lookup_cons, String.toList_intercalate]

section CommandLine

variable (plan : Plan) {edge : ObjectEdge}

theorem edgeValue_in (edge : ObjectEdge) : plan.contents.edgeValue edge.edge "in".toList =
    quoteChars edge.source.display.toList := by
  simp [Contents.edgeValue, ObjectEdge.edge]

theorem edgeValue_out (edge : ObjectEdge) : plan.contents.edgeValue edge.edge "out".toList =
    quoteChars edge.object.toList := by
  simp [Contents.edgeValue, ObjectEdge.edge]

/-- The command line of a C++ compilation. -/
theorem commandLine?_host (h : edge.compiler = .host) :
    plan.contents.commandLine? edge.edge =
      some (List.intercalate [' '] [plan.cxx.toList, "-MMD".toList, "-MF".toList,
        quoteChars edge.object.toList ++ ".d".toList,
        List.intercalate [' '] (plan.hostFlags.map String.toList), "-c".toList,
        quoteChars edge.source.display.toList, "-o".toList, quoteChars edge.object.toList]) := by
  have hrule : plan.contents.rule? edge.edge.rule = some hostRule := by
    simp [Contents.rule?, contents, ObjectEdge.edge, h, hostRule]
  have hcxx : plan.contents.edgeValue edge.edge "cxx".toList = plan.cxx.toList := plan.value_cxx
  have hflags : plan.contents.edgeValue edge.edge "cflags".toList =
      List.intercalate [' '] (plan.hostFlags.map String.toList) := plan.value_cflags
  rw [commandLine?_of_rule hrule rfl, fill_host, hcxx, hflags, edgeValue_in, edgeValue_out]

/-- The command line of a CUDA compilation. -/
theorem commandLine?_device {program : String} (hprogram : plan.nvcc = some program)
    (h : edge.compiler = .device) :
    plan.contents.commandLine? edge.edge =
      some (List.intercalate [' '] [program.toList,
        List.intercalate [' '] (plan.deviceFlags.map String.toList), "-c".toList,
        quoteChars edge.source.display.toList, "-o".toList, quoteChars edge.object.toList]) := by
  have hrule : plan.contents.rule? edge.edge.rule = some deviceRule := by
    simp [Contents.rule?, contents, ObjectEdge.edge, h, hprogram, hostRule, deviceRule, ruleOf]
  have hnvcc : plan.contents.edgeValue edge.edge "nvcc".toList = program.toList :=
    value_nvcc hprogram
  have hflags : plan.contents.edgeValue edge.edge "cuda_flags".toList =
      List.intercalate [' '] (plan.deviceFlags.map String.toList) := value_cudaFlags hprogram
  rw [commandLine?_of_rule hrule rfl, fill_device, hnvcc, hflags, edgeValue_in, edgeValue_out]

/-- The command line that links. -/
theorem commandLine?_link :
    plan.contents.commandLine? plan.linkEdge =
      some (List.intercalate [' '] [plan.cxx.toList,
        List.intercalate [' '] (plan.linkFlags.map String.toList),
        List.intercalate [' '] (plan.edges.map fun edge => quoteChars edge.object.toList),
        "-o".toList, quoteChars plan.library.toList]) := by
  have hrule : plan.contents.rule? plan.linkEdge.rule = some linkRuleText := by
    cases hnvcc : plan.nvcc <;>
      simp [Contents.rule?, contents, linkEdge, hnvcc, hostRule, deviceRule, linkRuleText, ruleOf,
        linkRule]
  have hcxx : plan.contents.edgeValue plan.linkEdge "cxx".toList = plan.cxx.toList :=
    plan.value_cxx
  have hflags : plan.contents.edgeValue plan.linkEdge "ldflags".toList =
      List.intercalate [' '] (plan.linkFlags.map String.toList) := plan.value_ldflags
  have hin : plan.contents.edgeValue plan.linkEdge "in".toList =
      List.intercalate [' '] (plan.edges.map fun edge => quoteChars edge.object.toList) := by
    simp [Contents.edgeValue, linkEdge, List.map_map, Function.comp_def]
  have hout : plan.contents.edgeValue plan.linkEdge "out".toList =
      quoteChars plan.library.toList := by
    simp [Contents.edgeValue, linkEdge]
  rw [commandLine?_of_rule hrule rfl, fill_link, hcxx, hflags, hin, hout]

end CommandLine

end Plan

/-! ### Words -/

theorem arguments?_of_line {contents : Contents} {edge : Edge} {line : List Char}
    {words : List (List Char)} (hline : contents.commandLine? edge = some line)
    (hwords : ReadsAs line words) :
    contents.arguments? edge = some (words.map Utf8.encode) := by
  rw [Contents.arguments?, Contents.command?, hline, Option.bind_some, hwords.1, Option.map_some]

theorem readsAs_bareWord {text : String} (h : IsBareWord text) :
    ReadsAs text.toList [text.toList] :=
  readsAs_bare h.1 h.2

theorem readsAs_bareWords {flags : List String} (h : ∀ flag ∈ flags, IsBareWord flag) :
    ReadsAs (List.intercalate [' '] (flags.map String.toList)) (flags.map String.toList) :=
  readsAs_map fun flag hflag => readsAs_bareWord (h flag hflag)

theorem toList_quotePath {os : Os} (hos : os ≠ .windows) (p : Path) :
    (quotePath os p).toList = quoteChars p.display.toList := by
  cases os with
  | linux => exact toList_quote _
  | macos => exact toList_quote _
  | windows => exact absurd rfl hos

/-- A quoted path behind a bare option is one word with it. -/
theorem readsAs_option {os : Os} (hos : os ≠ .windows) {option : String} (h : IsBareWord option)
    (p : Path) :
    ReadsAs (option ++ quotePath os p).toList [option.toList ++ p.display.toList] := by
  rw [String.toList_append, toList_quotePath hos]
  exact ((starts_bare h.1 h.2).append (continues_quoteChars _)).readsAs

/-- The flags of the C++ compiler as words: each directory behind its option, the caller's
flags as they are. -/
theorem readsAs_hostFlags {spec : BuildSpec} (includes : List Path) {os : Os}
    (hos : os ≠ .windows) (hname : IsBareWord spec.name)
    (hflags : ∀ flag ∈ spec.hostFlags, IsBareWord flag) :
    ReadsAs (List.intercalate [' '] ((hostFlags spec includes os).map String.toList))
      (["-fPIC".toList, "-std=c++17".toList, ("-DARTIFACT_NAME=" ++ spec.name).toList] ++
        includes.map (fun dir => "-I".toList ++ dir.display.toList) ++
        spec.hostFlags.map String.toList) := by
  have hfixed : ∀ flag ∈ ["-fPIC", "-std=c++17", "-DARTIFACT_NAME=" ++ spec.name],
      IsBareWord flag := by
    simp only [List.forall_mem_cons]
    refine ⟨by decide, by decide, ?_, by simp⟩
    exact isBareWord_append (by decide) hname.2
  have hdirs : ReadsAs
      (List.intercalate [' '] (includes.map fun dir => ("-I" ++ quotePath os dir).toList))
      (includes.map fun dir => "-I".toList ++ dir.display.toList) :=
    readsAs_map fun dir _ => readsAs_option hos (by decide) dir
  unfold hostFlags
  rw [List.map_append, List.map_append, List.map_map]
  exact ((readsAs_bareWords hfixed).intercalate_append hdirs).intercalate_append
    (readsAs_bareWords hflags)

/-- The flags of the CUDA compiler as words; the quotes around the first value are gone. -/
theorem readsAs_deviceFlags {spec : BuildSpec}
    (hflags : ∀ flag ∈ spec.deviceFlags, IsBareWord flag) :
    ReadsAs (List.intercalate [' '] ((deviceFlags spec).map String.toList))
      (["--compiler-options".toList, "-fPIC".toList] ++ spec.deviceFlags.map String.toList) := by
  have hoption : ReadsAs "--compiler-options".toList ["--compiler-options".toList] :=
    readsAs_bareWord (by decide)
  -- the one flag that is quoted when it is put together
  have hvalue : ReadsAs "'-fPIC'".toList ["-fPIC".toList] :=
    (starts_quoted "-fPIC".toList).readsAs
  exact (hoption.append hvalue).intercalate_cons (readsAs_bareWords hflags)

/-- The arguments that leave symbols open until the library is loaded. -/
def openSymbolArguments : Os → List String
  | .macos => ["-undefined", "dynamic_lookup"]
  | .linux | .windows => []

theorem readsAs_openSymbolFlags (os : Os) :
    ReadsAs (List.intercalate [' '] (os.openSymbolFlags.map String.toList))
      ((openSymbolArguments os).map String.toList) := by
  cases os with
  | linux => exact readsAs_nil
  | windows => exact readsAs_nil
  | macos =>
      have hundefined : ReadsAs "-undefined".toList ["-undefined".toList] :=
        readsAs_bareWord (by decide)
      have hlookup : ReadsAs "dynamic_lookup".toList ["dynamic_lookup".toList] :=
        readsAs_bareWord (by decide)
      exact hundefined.append hlookup

/-- The directory of the CUDA libraries, if the link needs it. -/
def libraryDir (spec : BuildSpec) (toolchain : Toolchain) : Option Path :=
  if spec.hasDevice then toolchain.cudaHome.map (·.joinText "lib64") else none

/-- The flags of the linker as words. -/
theorem readsAs_linkFlags {spec : BuildSpec} {toolchain : Toolchain} {link : List String}
    (hos : toolchain.os ≠ .windows) (h : linkFlags spec toolchain = .ok link)
    (hflags : ∀ flag ∈ spec.linkFlags, IsBareWord flag) :
    ReadsAs (List.intercalate [' '] (link.map String.toList))
      (["-shared".toList] ++ spec.linkFlags.map String.toList ++
        (libraryDir spec toolchain).toList.flatMap
          (fun dir => ["-L".toList ++ dir.display.toList, "-lcudart".toList]) ++
        (openSymbolArguments toolchain.os).map String.toList) := by
  have hshared : ReadsAs "-shared".toList ["-shared".toList] :=
    readsAs_bareWord (by decide)
  have hcaller : ReadsAs
      (List.intercalate [' '] (("-shared" :: spec.linkFlags).map String.toList))
      (["-shared".toList] ++ spec.linkFlags.map String.toList) :=
    hshared.intercalate_cons (readsAs_bareWords hflags)
  have hopen := readsAs_openSymbolFlags toolchain.os
  rcases linkFlags_ok h with ⟨hdevice, rfl⟩ | ⟨hdevice, dir, hdir, rfl⟩
  · have hlibrary : libraryDir spec toolchain = none := by simp [libraryDir, hdevice]
    rw [List.map_append, hlibrary, Option.toList_none, List.flatMap_nil, List.append_nil]
    exact hcaller.intercalate_append hopen
  · obtain ⟨root, hroot, rfl⟩ := joinCudaHome_ok hdir
    have hlibrary : libraryDir spec toolchain = some (root.joinText "lib64") := by
      simp [libraryDir, hdevice, hroot]
    have hcudart : ReadsAs "-lcudart".toList ["-lcudart".toList] :=
      readsAs_bareWord (by decide)
    have hcuda : ReadsAs
        (List.intercalate [' '] (["-L" ++ quotePath toolchain.os (root.joinText "lib64"),
          "-lcudart"].map String.toList))
        ["-L".toList ++ (root.joinText "lib64").display.toList, "-lcudart".toList] :=
      (readsAs_option hos (by decide) _).intercalate_cons
        hcudart.intercalate_singleton
    rw [List.map_append, List.map_append, hlibrary, Option.toList_some, List.flatMap_singleton]
    exact (hcaller.intercalate_append hcuda).intercalate_append hopen

/-! ### The arguments of each tool -/

/-- What a C++ compilation is started with. -/
def hostArguments (spec : BuildSpec) (toolchain : Toolchain) (includes : List Path)
    (source : Path) : List Bytes :=
  [utf8 toolchain.cxx, utf8 "-MMD", utf8 "-MF", utf8 (objectName source ++ ".d"), utf8 "-fPIC",
      utf8 "-std=c++17", utf8 ("-DARTIFACT_NAME=" ++ spec.name)] ++
    includes.map (fun dir => utf8 "-I" ++ dir.bytes) ++ spec.hostFlags.map utf8 ++
    [utf8 "-c", source.bytes, utf8 "-o", utf8 (objectName source)]

/-- What a CUDA compilation is started with. -/
def deviceArguments (spec : BuildSpec) (program source : Path) : List Bytes :=
  [program.bytes, utf8 "--compiler-options", utf8 "-fPIC"] ++ spec.deviceFlags.map utf8 ++
    [utf8 "-c", source.bytes, utf8 "-o", utf8 (objectName source)]

/-- What the linking is started with. -/
def linkArguments (spec : BuildSpec) (toolchain : Toolchain) : List Bytes :=
  [utf8 toolchain.cxx, utf8 "-shared"] ++ spec.linkFlags.map utf8 ++
    (libraryDir spec toolchain).toList.flatMap
      (fun dir => [utf8 "-L" ++ dir.bytes, utf8 "-lcudart"]) ++
    (openSymbolArguments toolchain.os).map utf8 ++
    spec.sources.map (utf8 ∘ objectName) ++
    [utf8 "-o", utf8 (toolchain.artifactName spec.name)]

/-- The edge that links the objects into the library. -/
def libraryEdge (spec : BuildSpec) (toolchain : Toolchain) : Edge where
  output := (toolchain.artifactName spec.name).toList
  rule := linkRule.toList
  inputs := spec.sources.map fun source => (objectName source).toList

/-- The paths of a request and its toolchain are printable, no source holds a bar, and the
compiler and all flags are bare words. -/
structure Conveyable (spec : BuildSpec) (toolchain : Toolchain) (includes : List Path) :
    Prop where
  sources : ∀ source ∈ spec.sources, source.Printable ∧ bar ∉ source.bytes
  includes : ∀ dir ∈ includes, dir.Printable
  cudaRoot : spec.hasDevice = true → ∀ root ∈ toolchain.cudaHome, root.Printable
  cxx : IsBareWord toolchain.cxx
  hostFlags : ∀ flag ∈ spec.hostFlags, IsBareWord flag
  deviceFlags : spec.hasDevice = true → ∀ flag ∈ spec.deviceFlags, IsBareWord flag
  linkFlags : ∀ flag ∈ spec.linkFlags, IsBareWord flag

section Arguments

variable {spec : BuildSpec} {toolchain : Toolchain} {includes : List Path}
  {nvcc : Option String} {link : List String}

theorem bar_notMem_of_isBareWord {text : String} (h : IsBareWord text) : '|' ∉ text.toList :=
  fun hmem => absurd (List.all_eq_true.mp h.2 _ hmem) (by decide)

/-- What can be conveyed can be read back. -/
theorem Conveyable.legible (h : Conveyable spec toolchain includes) (hname : IsBareWord spec.name)
    (hsources : ∀ source ∈ spec.sources, source.bytes ≠ []) :
    Legible spec toolchain includes where
  cxx := by
    refine ⟨unbroken_of_isBareWord h.cxx, ?_⟩
    intro hhead
    have hspace := List.all_eq_true.mp h.cxx.2 ' ' (List.mem_of_mem_head? hhead)
    exact absurd hspace (by decide)
  name := ⟨unbroken_of_isBareWord hname, bar_notMem_of_isBareWord hname⟩
  sources := fun source hsource =>
    ⟨hsources source hsource, (h.sources source hsource).1.unbroken, (h.sources source hsource).2⟩
  includes := fun dir hdir => (h.includes dir hdir).unbroken
  hostFlags := fun flag hflag => unbroken_of_isBareWord (h.hostFlags flag hflag)
  linkFlags := fun flag hflag => unbroken_of_isBareWord (h.linkFlags flag hflag)
  deviceFlags := fun hdevice flag hflag =>
    unbroken_of_isBareWord (h.deviceFlags hdevice flag hflag)
  cudaRoot := fun hdevice root hroot => (h.cudaRoot hdevice root hroot).unbroken

theorem isDeviceSource_of_compiler {source : Path} (h : source.compiler = .device) :
    source.isDeviceSource = true := by
  unfold Path.compiler at h
  split at h
  · assumption
  · cases h

theorem printable_nvcc {program : Path} (h : ∀ root ∈ toolchain.cudaHome, root.Printable)
    (hprogram : toolchain.nvcc = .ok program) : program.Printable := by
  obtain ⟨root, hroot, rfl⟩ := joinCudaHome_ok hprogram
  obtain ⟨hrelative, hname⟩ := nvccName_plain toolchain.os
  exact ((h root hroot).joinText (by decide) (by decide)).joinText hrelative hname

/-- What is below a CUDA root that can be conveyed can be conveyed. -/
theorem printable_libraryDir (h : Conveyable spec toolchain includes) :
    ∀ dir ∈ libraryDir spec toolchain, dir.Printable := by
  intro dir hdir
  unfold libraryDir at hdir
  split at hdir
  · next hdevice =>
    obtain ⟨root, hroot, rfl⟩ := Option.map_eq_some_iff.mp hdir
    exact (h.cudaRoot hdevice root hroot).joinText (by decide) (by decide)
  · cases hdir

theorem encode_texts (texts : List String) :
    (texts.map String.toList).map Utf8.encode = texts.map utf8 :=
  List.map_map

/-- The text of a printable path has the path's own bytes, behind an option too. -/
theorem encode_dirs {option : String} {dirs : List Path} (h : ∀ dir ∈ dirs, dir.Printable) :
    (dirs.map fun dir => option.toList ++ dir.display.toList).map Utf8.encode =
      dirs.map fun dir => utf8 option ++ dir.bytes := by
  rw [List.map_map]
  refine List.map_congr_left ?_
  intro dir hdir
  rw [Function.comp_apply, Utf8.encode_append, (h dir hdir).encode_display]
  rfl

/-- How a compilation ends. -/
theorem readsAs_compile (source : Path) :
    ReadsAs (List.intercalate [' '] ["-c".toList, quoteChars source.display.toList, "-o".toList,
        quoteChars (objectName source).toList])
      ["-c".toList, source.display.toList, "-o".toList, (objectName source).toList] := by
  have hcompile : ReadsAs "-c".toList ["-c".toList] := readsAs_bareWord (by decide)
  have houtput : ReadsAs "-o".toList ["-o".toList] := readsAs_bareWord (by decide)
  exact hcompile.intercalate_cons ((readsAs_quoteChars _).intercalate_cons
    (houtput.intercalate_cons (readsAs_quoteChars _).intercalate_singleton))

/-- The command of a host edge: its template with the variables filled in, read word by word.
-/
theorem arguments?_host (hos : toolchain.os ≠ .windows)
    (h : Conveyable spec toolchain includes) (hname : IsBareWord spec.name) {source : Path}
    (hsource : source ∈ spec.sources) (hhost : source.compiler = .host) :
    (settled spec toolchain includes nvcc link).contents.arguments? (objectEdge source).edge =
      some (hostArguments spec toolchain includes source) := by
  have hline := (settled spec toolchain includes nvcc link).commandLine?_host
    (show (objectEdge source).compiler = .host from hhost)
  have hmmd : ReadsAs "-MMD".toList ["-MMD".toList] := readsAs_bareWord (by decide)
  have hmf : ReadsAs "-MF".toList ["-MF".toList] := readsAs_bareWord (by decide)
  have hdepfile : ReadsAs (quoteChars (objectName source).toList ++ ".d".toList)
      [(objectName source).toList ++ ".d".toList] :=
    ((starts_quoteChars _).append (continues_bare (by decide))).readsAs
  have hflags := readsAs_hostFlags includes hos hname h.hostFlags
  have hwords := (readsAs_bareWord h.cxx).intercalate_cons (hmmd.intercalate_cons
    (hmf.intercalate_cons (hdepfile.intercalate_cons (hflags.intercalate_cons
      (readsAs_compile source)))))
  rw [arguments?_of_line hline hwords]
  simp only [List.map_append, List.map_cons, List.map_nil, encode_texts, encode_dirs h.includes,
    (h.sources source hsource).1.encode_display]
  simp [hostArguments, utf8]

/-- The command of a device edge. No include directory and no name reaches it. -/
theorem arguments?_device (h : Conveyable spec toolchain includes)
    (hos : toolchain.os ≠ .windows) {program source : Path}
    (hdevice : spec.hasDevice = true) (hprogram : toolchain.nvcc = .ok program)
    (hnvcc : nvcc = some (quotePath toolchain.os program))
    (hsource : source ∈ spec.sources) (hcompiler : source.compiler = .device) :
    (settled spec toolchain includes nvcc link).contents.arguments? (objectEdge source).edge =
      some (deviceArguments spec program source) := by
  have hline := (settled spec toolchain includes nvcc link).commandLine?_device hnvcc
    (show (objectEdge source).compiler = .device from hcompiler)
  have hquoted : ReadsAs (quotePath toolchain.os program).toList [program.display.toList] := by
    rw [toList_quotePath hos]
    exact readsAs_quoteChars _
  have hflags := readsAs_deviceFlags (h.deviceFlags hdevice)
  have hwords := hquoted.intercalate_cons (hflags.intercalate_cons (readsAs_compile source))
  have hprintable := printable_nvcc (h.cudaRoot hdevice) hprogram
  rw [arguments?_of_line hline hwords]
  simp only [List.map_append, List.map_cons, List.map_nil, encode_texts,
    hprintable.encode_display, (h.sources source hsource).1.encode_display]
  simp [deviceArguments, utf8]

theorem encode_libraryDir (h : Conveyable spec toolchain includes) :
    ((libraryDir spec toolchain).toList.flatMap fun dir =>
        ["-L".toList ++ dir.display.toList, "-lcudart".toList]).map Utf8.encode =
      (libraryDir spec toolchain).toList.flatMap fun dir =>
        [utf8 "-L" ++ dir.bytes, utf8 "-lcudart"] := by
  cases hdir : libraryDir spec toolchain with
  | none => rfl
  | some dir =>
      rw [Option.toList_some, List.flatMap_singleton, List.flatMap_singleton, List.map_cons,
        List.map_cons, Utf8.encode_append, (printable_libraryDir h dir hdir).encode_display]
      rfl

theorem linkEdge_settled :
    (settled spec toolchain includes nvcc link).linkEdge = libraryEdge spec toolchain := by
  simp [Plan.linkEdge, settled, libraryEdge, objectEdge]

/-- The command of the link edge, with the objects in the order of the sources. -/
theorem arguments?_link (hos : toolchain.os ≠ .windows) (h : Conveyable spec toolchain includes)
    (hlink : linkFlags spec toolchain = .ok link) :
    (settled spec toolchain includes nvcc link).contents.arguments? (libraryEdge spec toolchain) =
      some (linkArguments spec toolchain) := by
  have hline := (settled spec toolchain includes nvcc link).commandLine?_link
  have houtput : ReadsAs "-o".toList ["-o".toList] := readsAs_bareWord (by decide)
  have hobjects : ReadsAs (List.intercalate [' ']
        ((spec.sources.map objectEdge).map fun edge => quoteChars edge.object.toList))
      ((spec.sources.map objectEdge).map fun edge => edge.object.toList) :=
    readsAs_map fun edge _ => readsAs_quoteChars edge.object.toList
  have hflags := readsAs_linkFlags hos hlink h.linkFlags
  have hlibrary := readsAs_quoteChars (toolchain.artifactName spec.name).toList
  have hwords := (readsAs_bareWord h.cxx).intercalate_cons (hflags.intercalate_cons
    (hobjects.intercalate_cons (houtput.intercalate_cons hlibrary.intercalate_singleton)))
  rw [← linkEdge_settled, arguments?_of_line hline hwords]
  simp only [List.map_append, List.map_cons, List.map_nil, encode_texts, encode_libraryDir h]
  simp [linkArguments, objectEdge, utf8, Function.comp_def]

end Arguments

/-- **Every path of a checked request reaches its tool as one argument.** When the paths can
be conveyed, the description reads back, and the runner and a POSIX shell make of each of its
edges the arguments that the edge is meant to have. -/
theorem arguments?_render {m : Machine} {options : LoadOptions} {spec : BuildSpec}
    {toolchain : Toolchain} {includes : List Path} {text : String}
    (hspec : BuildSpec.ofOptions m.currentDir options = .ok spec)
    (hos : toolchain.os ≠ .windows) (hrender : render spec toolchain = .ok text)
    (hincludes : includeDirs spec toolchain = .ok includes)
    (hconveyable : Conveyable spec toolchain includes) :
    ∃ contents, Contents.ofText? text.toList = some contents ∧
      contents.edges =
        spec.sources.map (ObjectEdge.edge ∘ objectEdge) ++ [libraryEdge spec toolchain] ∧
      (∀ source ∈ spec.sources, source.compiler = .host →
        contents.arguments? (objectEdge source).edge =
          some (hostArguments spec toolchain includes source)) ∧
      (∀ source ∈ spec.sources, source.compiler = .device →
        ∃ program, toolchain.nvcc = .ok program ∧
          contents.arguments? (objectEdge source).edge =
            some (deviceArguments spec program source)) ∧
      contents.arguments? (libraryEdge spec toolchain) = some (linkArguments spec toolchain) := by
  obtain ⟨found, nvcc, link, hfound, hnvcc, hlink, rfl⟩ := render_settles hrender
  obtain rfl := Except.ok.inj (hincludes.symm.trans hfound)
  have hbareName := isBareWord_of_ofOptions hspec
  have hlegible := hconveyable.legible hbareName (BuildSpec.sources_ne_nil hspec)
  refine ⟨(settled spec toolchain includes nvcc link).contents,
    Plan.ofText?_statements ((expressible_settled hnvcc hlink).mpr hlegible), ?_, ?_, ?_, ?_⟩
  · rw [← linkEdge_settled, Plan.contents, settled, List.map_map]
  · exact fun source hsource hhost => arguments?_host hos hconveyable hbareName hsource hhost
  · intro source hsource hcompiler
    rcases nvccArgument_ok hnvcc with ⟨hdevice, rfl⟩ | ⟨hdevice, program, hprogram, rfl⟩
    · -- a CUDA source makes the request one that uses CUDA
      have hany : spec.hasDevice = true :=
        List.any_eq_true.mpr ⟨source, hsource, isDeviceSource_of_compiler hcompiler⟩
      rw [hdevice] at hany
      cases hany
    · exact ⟨program, hprogram,
        arguments?_device hconveyable hos hdevice hprogram rfl hsource hcompiler⟩
  · exact arguments?_link hos hconveyable hlink

/-- A request whose paths hold characters of both layers. -/
def quotedOptions : LoadOptions where
  name := "ops"
  sources := [.ofText "a b/$k'.cu", .ofText "x;y$.cpp"]
  hostFlags := ["-O3"]
  includes := [.ofText "in c", .ofText "it's"]

/-- The request once it was checked at the root of a machine. -/
def quotedSpec : BuildSpec where
  name := "ops"
  sources := [.ofText "/a b/$k'.cu", .ofText "/x;y$.cpp"]
  hostFlags := ["-O3"]
  deviceFlags := []
  linkFlags := []
  includes := [.ofText "/in c", .ofText "/it's"]

theorem arguments?_render_quoted :
    ∃ text contents, render quotedSpec spacedToolchain = .ok text ∧
      Contents.ofText? text.toList = some contents ∧
      contents.arguments? (objectEdge (.ofText "/x;y$.cpp")).edge =
        some (hostArguments quotedSpec spacedToolchain
          [.ofText "/in c", .ofText "/it's", .ofText "/cuda $12/include"]
          (.ofText "/x;y$.cpp")) := by
  obtain ⟨text, hrender⟩ : ∃ text, render quotedSpec spacedToolchain = .ok text := ⟨_, rfl⟩
  have hspec : BuildSpec.ofOptions (default : Machine).currentDir quotedOptions =
      .ok quotedSpec := rfl
  have hdirs : includeDirs quotedSpec spacedToolchain =
      .ok [.ofText "/in c", .ofText "/it's", .ofText "/cuda $12/include"] := rfl
  have hprintable : ∀ t ∈ ["/a b/$k'.cu", "/x;y$.cpp", "/in c", "/it's", "/cuda $12/include",
      "/cuda $12"], (Path.ofText t).Printable := fun t ht =>
    ⟨⟨t, rfl⟩, by revert t; decide⟩
  have hconveyable : Conveyable quotedSpec spacedToolchain
      [.ofText "/in c", .ofText "/it's", .ofText "/cuda $12/include"] :=
    { sources := List.forall_mem_cons.mpr ⟨⟨hprintable _ (by simp), by decide⟩,
        List.forall_mem_singleton.mpr ⟨hprintable _ (by simp), by decide⟩⟩
      includes := List.forall_mem_cons.mpr ⟨hprintable _ (by simp),
        List.forall_mem_cons.mpr ⟨hprintable _ (by simp),
          List.forall_mem_singleton.mpr (hprintable _ (by simp))⟩⟩
      cudaRoot := fun _ root hroot => Option.some.inj hroot ▸ hprintable "/cuda $12" (by simp)
      cxx := by decide
      hostFlags := List.forall_mem_singleton.mpr (by decide)
      deviceFlags := fun _ => List.forall_mem_nil _
      linkFlags := List.forall_mem_nil _ }
  obtain ⟨contents, hread, -, hhost, -⟩ :=
    arguments?_render hspec (by decide) hrender hdirs hconveyable
  exact ⟨text, contents, hrender, hread, hhost _ (by decide) (by decide)⟩

end Ninja

end NativeExtension
