import NativeExtension.Proofs.Ninja.Commands

/-!
# NativeExtension.Proofs.Ninja.Compilations

**Host sources are given the bundled header, CUDA sources are not.** The header takes the name
of the extension from a macro, and it is found in one of the include directories. Both come
with the flags that the rule for host sources passes in front of the caller's. The rule for
CUDA sources passes neither, so there only the caller's own flags can bring them.
-/

namespace NativeExtension.Ninja

open Posix

/-! ### The flags of a compilation -/

/-- The flags by which a source finds the bundled header and the header knows the name of the
extension. -/
def headerFlags (spec : BuildSpec) (includes : List Path) (os : Os) : List String :=
  ("-DARTIFACT_NAME=" ++ spec.name) :: includes.map fun dir => "-I" ++ quotePath os dir

/-- The flags that each source of a compiler is compiled with. -/
def ownFlags (spec : BuildSpec) (includes : List Path) (os : Os) : Compiler → List String
  | .host => ["-fPIC", "-std=c++17"] ++ headerFlags spec includes os
  | .device => ["--compiler-options '-fPIC'"]

/-- The flags that the caller asks for. -/
def callerFlags (spec : BuildSpec) : Compiler → List String
  | .host => spec.hostFlags
  | .device => spec.deviceFlags

theorem hostFlags_eq (spec : BuildSpec) (includes : List Path) (os : Os) :
    hostFlags spec includes os = ownFlags spec includes os .host ++ callerFlags spec .host := by
  simp [hostFlags, ownFlags, headerFlags, callerFlags]

theorem deviceFlags_eq (spec : BuildSpec) (includes : List Path) (os : Os) :
    deviceFlags spec = ownFlags spec includes os .device ++ callerFlags spec .device := by
  simp [deviceFlags, ownFlags, callerFlags]

/-- The CUDA compiler's own flags have nothing of the header's, whatever the request. -/
theorem headerFlags_infix_iff (spec : BuildSpec) (includes : List Path) (os : Os)
    (compiler : Compiler) :
    headerFlags spec includes os <:+: ownFlags spec includes os compiler ↔ compiler = .host := by
  cases compiler with
  | host =>
      refine iff_of_true ?_ rfl
      exact (List.suffix_append ["-fPIC", "-std=c++17"] _).isInfix
  | device =>
      refine iff_of_false ?_ (by decide)
      intro hinfix
      -- the macro would have to be the one flag of the rule
      have hmem := hinfix.subset List.mem_cons_self
      have heq := congrArg (fun flag : String => flag.toList[1]?) (List.mem_singleton.mp hmem)
      simp at heq

/-! ### Command lines -/

/-- A compiler as its rule calls it. -/
def toolText (toolchain : Toolchain) : Compiler → Except ConfigError String
  | .host => .ok toolchain.cxx
  | .device => toolchain.nvcc.map (quotePath toolchain.os)

/-- What a rule passes so that the headers of an object are tracked. -/
def trackingArguments (object : String) : Compiler → List (List Char)
  | .host => ["-MMD".toList, "-MF".toList, quoteChars object.toList ++ ".d".toList]
  | .device => []

/-- The command line that compiles `source` with some flags. -/
def compileLine (tool : String) (flags : List String) (source : Path) : List Char :=
  List.intercalate [' '] ([tool.toList] ++ trackingArguments (objectName source) source.compiler ++
    [List.intercalate [' '] (flags.map String.toList), "-c".toList,
      quoteChars source.display.toList, "-o".toList, quoteChars (objectName source).toList])

section Settled

variable {spec : BuildSpec} {toolchain : Toolchain} {includes : List Path}
  {nvcc : Option String} {link : List String} {source : Path}

theorem hasDevice_of_compiler (hsource : source ∈ spec.sources)
    (hcompiler : source.compiler = .device) : spec.hasDevice = true :=
  List.any_eq_true.mpr ⟨source, hsource, isDeviceSource_of_compiler hcompiler⟩

/-- The command line of a compilation, whatever the paths and flags are. -/
theorem commandLine?_compile (hnvcc : nvccArgument spec toolchain = .ok nvcc)
    (hsource : source ∈ spec.sources) :
    ∃ tool, toolText toolchain source.compiler = .ok tool ∧
      (settled spec toolchain includes nvcc link).contents.commandLine? (objectEdge source).edge =
        some (compileLine tool (ownFlags spec includes toolchain.os source.compiler ++
          callerFlags spec source.compiler) source) := by
  cases hcompiler : source.compiler with
  | host =>
      have hline := (settled spec toolchain includes nvcc link).commandLine?_host
        (show (objectEdge source).compiler = .host from hcompiler)
      refine ⟨toolchain.cxx, rfl, ?_⟩
      rw [hline, settled, hostFlags_eq, compileLine, hcompiler]
      rfl
  | device =>
      obtain ⟨hnone, -⟩ | ⟨-, program, hprogram, rfl⟩ := nvccArgument_ok hnvcc
      · rw [hasDevice_of_compiler hsource hcompiler] at hnone
        cases hnone
      · have hline := (settled spec toolchain includes (some (quotePath toolchain.os program))
          link).commandLine?_device rfl
            (show (objectEdge source).compiler = .device from hcompiler)
        refine ⟨quotePath toolchain.os program, ?_, ?_⟩
        · rw [toolText, hprogram]
          rfl
        · rw [hline, settled, deviceFlags_eq spec includes toolchain.os, compileLine, hcompiler]
          rfl

end Settled

/-! ### What the words of the flags say -/

/-- The values that words give to an option, in order, each value in one word with the
option. -/
def optionValues (option : String) (words : List (List Char)) : List (List Char) :=
  (words.filter option.toList.isPrefixOf).map (·.drop option.toList.length)

/-- The words of `ownFlags`. -/
def ownWords (name : String) (includes : List Path) : Compiler → List (List Char)
  | .host => ["-fPIC".toList, "-std=c++17".toList, ("-DARTIFACT_NAME=" ++ name).toList] ++
      includes.map fun dir => "-I".toList ++ dir.display.toList
  | .device => ["--compiler-options".toList, "-fPIC".toList]

theorem readsAs_ownFlags {spec : BuildSpec} (includes : List Path) {os : Os}
    (hos : os ≠ .windows) (hname : IsBareWord spec.name) (compiler : Compiler) :
    ReadsAs (List.intercalate [' '] ((ownFlags spec includes os compiler).map String.toList))
      (ownWords spec.name includes compiler) := by
  cases compiler with
  | host =>
      -- the flags of a request whose caller adds none
      have hflags := @readsAs_hostFlags { spec with hostFlags := [] } includes os hos hname
        (List.forall_mem_nil _)
      simpa [hostFlags, ownFlags, headerFlags, ownWords] using hflags
  | device =>
      have hflags := @readsAs_deviceFlags { spec with deviceFlags := [] } (List.forall_mem_nil _)
      simpa [deviceFlags, ownFlags, ownWords] using hflags

theorem optionValues_append (option : String) (first second : List (List Char)) :
    optionValues option (first ++ second) =
      optionValues option first ++ optionValues option second := by
  rw [optionValues, List.filter_append, List.map_append, optionValues, optionValues]

theorem optionValues_map (option : String) {α : Type} (value : α → List Char) (as : List α) :
    optionValues option (as.map fun a => option.toList ++ value a) = as.map value := by
  induction as with
  | nil => rfl
  | cons a rest ih =>
      have hprefix : option.toList.isPrefixOf (option.toList ++ value a) = true :=
        List.isPrefixOf_iff_prefix.mpr (List.prefix_append _ _)
      rw [optionValues] at ih ⊢
      rw [List.map_cons, List.filter_cons_of_pos hprefix, List.map_cons, ih, List.drop_left,
        List.map_cons]

/-- Host sources see the macro and every include directory, in order, before the caller's flags. -/
theorem optionValues_host (name : String) (includes : List Path) :
    optionValues "-D" (ownWords name includes .host) = [("ARTIFACT_NAME=" ++ name).toList] ∧
      optionValues "-I" (ownWords name includes .host) =
        includes.map fun dir => dir.display.toList := by
  constructor
  · rw [ownWords, optionValues_append]
    have hdirs : optionValues "-D" (includes.map fun dir => "-I".toList ++ dir.display.toList) =
        [] := by
      simp [optionValues]
    rw [hdirs]
    simp [optionValues]
  · rw [ownWords, optionValues_append, optionValues_map]
    simp [optionValues]

theorem optionValues_device (name : String) (includes : List Path) :
    optionValues "-D" (ownWords name includes .device) = [] ∧
      optionValues "-I" (ownWords name includes .device) = [] := by
  rw [ownWords]
  exact ⟨by decide, by decide⟩

/-- **A source is given the bundled header exactly if it is a host source.** Each source of a
description has one compilation, and its command line passes the flags of its rule and behind
them the caller's. The flags of the rule for host sources define the macro as the name of the
extension and hold every include directory, in order; those of the rule for CUDA sources define
no macro and hold no directory. -/
theorem render_headerFlags_iff {m : Machine} {options : LoadOptions} {spec : BuildSpec}
    {toolchain : Toolchain} {text : String}
    (hspec : BuildSpec.ofOptions m.currentDir options = .ok spec)
    (hrender : render spec toolchain = .ok text) :
    ∃ includes contents, includeDirs spec toolchain = .ok includes ∧
      (Contents.ofText? text.toList = some contents ↔ Legible spec toolchain includes) ∧
      contents.edges =
        spec.sources.map (ObjectEdge.edge ∘ objectEdge) ++ [libraryEdge spec toolchain] ∧
      ∀ source ∈ spec.sources,
        (∃ tool, toolText toolchain source.compiler = .ok tool ∧
          contents.commandLine? (objectEdge source).edge =
            some (compileLine tool (ownFlags spec includes toolchain.os source.compiler ++
              callerFlags spec source.compiler) source)) ∧
        (headerFlags spec includes toolchain.os <:+:
            ownFlags spec includes toolchain.os source.compiler ↔ source.compiler = .host) ∧
        (toolchain.os ≠ .windows → ∃ words,
          ReadsAs (List.intercalate [' ']
            ((ownFlags spec includes toolchain.os source.compiler).map String.toList)) words ∧
          (source.compiler = .host →
            optionValues "-D" words = [("ARTIFACT_NAME=" ++ spec.name).toList] ∧
            optionValues "-I" words = includes.map fun dir => dir.display.toList) ∧
          (source.compiler = .device →
            optionValues "-D" words = [] ∧ optionValues "-I" words = [])) := by
  obtain ⟨includes, nvcc, link, hincludes, hnvcc, hlink, rfl⟩ := render_settles hrender
  have hbareName := isBareWord_of_ofOptions hspec
  refine ⟨includes, (settled spec toolchain includes nvcc link).contents, hincludes, ?_, ?_, ?_⟩
  · rw [Plan.ofText?_statements_iff, expressible_settled hnvcc hlink]
  · rw [← linkEdge_settled, Plan.contents, settled, List.map_map]
  · intro source hsource
    refine ⟨commandLine?_compile hnvcc hsource, headerFlags_infix_iff _ _ _ _, ?_⟩
    intro hos
    refine ⟨_, readsAs_ownFlags includes hos hbareName source.compiler, ?_, ?_⟩
    · intro hhost
      rw [hhost]
      exact optionValues_host spec.name includes
    · intro hdevice
      rw [hdevice]
      exact optionValues_device spec.name includes

/-- An extension of one CUDA source. -/
def kernelOptions : LoadOptions where
  name := "demo"
  sources := [.ofText "src/k.cu"]
  deviceFlags := ["-O2"]
  includes := [.ofText "inc"]

/-- The request once it was checked at the root of a machine. -/
def kernelSpec : BuildSpec where
  name := "demo"
  sources := [.ofText "/src/k.cu"]
  hostFlags := []
  deviceFlags := ["-O2"]
  linkFlags := []
  includes := [.ofText "/inc"]

/-- A toolchain that bundles a header. -/
def kernelToolchain : Toolchain where
  cudaHome := some (.ofText "/opt/cuda")
  bundledIncludes := [.ofText "/opt/include"]

/-- The CUDA source of `kernelSpec` is compiled without the macro and without a directory. -/
theorem render_headerFlags_iff_kernel :
    ∃ text contents, render kernelSpec kernelToolchain = .ok text ∧
      Contents.ofText? text.toList = some contents ∧
      contents.commandLine? (objectEdge (.ofText "/src/k.cu")).edge =
        some "/opt/cuda/bin/nvcc --compiler-options '-fPIC' -O2 -c /src/k.cu -o k.o".toList := by
  obtain ⟨text, hrender⟩ : ∃ text, render kernelSpec kernelToolchain = .ok text := ⟨_, rfl⟩
  have hspec : BuildSpec.ofOptions (default : Machine).currentDir kernelOptions =
      .ok kernelSpec := rfl
  have hdirs : includeDirs kernelSpec kernelToolchain =
      .ok [.ofText "/inc", .ofText "/opt/include", .ofText "/opt/cuda/include"] := rfl
  obtain ⟨includes, contents, hincludes, hread, -, hsources⟩ :=
    render_headerFlags_iff hspec hrender
  obtain rfl := Except.ok.inj (hdirs.symm.trans hincludes)
  obtain ⟨⟨tool, htool, hline⟩, -, -⟩ := hsources (.ofText "/src/k.cu") (by decide)
  obtain rfl : "/opt/cuda/bin/nvcc" = tool := Except.ok.inj htool
  have hlegible : Legible kernelSpec kernelToolchain
      [.ofText "/inc", .ofText "/opt/include", .ofText "/opt/cuda/include"] :=
    { cxx := ⟨by decide, by decide⟩
      name := by decide
      sources := by decide
      includes := by decide
      hostFlags := by decide
      linkFlags := by decide
      deviceFlags := by decide
      cudaRoot := by decide }
  exact ⟨text, contents, hrender, hread.mpr hlegible, hline⟩

end NativeExtension.Ninja
