import NativeExtension.Proofs.Arguments.Quoting
import NativeExtension.Proofs.Ninja.Reading
import NativeExtension.Proofs.Ninja.Settling
import NativeExtension.Proofs.Path.Spelling
import NativeExtension.Proofs.Text.Ascii

/-!
# NativeExtension.Proofs.Ninja.ReadBack

**A description reads back exactly when its texts and paths are such as a file can hold.**
`Legible` says what that asks of the request and the toolchain. Escapes and quotes take care
of everything but the characters that no escape covers: line ends and zero characters
anywhere, bars in paths, and spaces in front of the compiler's name.
-/

namespace NativeExtension.Ninja

/-! ### Bytes and characters -/

/-- Bytes that end a line or are refused wherever they stand. -/
def isBreakByte (b : UInt8) : Bool := b = 0x0A || b = 0x0D || b = 0x00

/-- A spelling that one line can hold. -/
def UnbrokenBytes (bytes : Bytes) : Prop := ∀ b ∈ bytes, isBreakByte b = false

instance (bytes : Bytes) : Decidable (UnbrokenBytes bytes) :=
  decidable_of_iff (bytes.all fun b => !isBreakByte b) (by simp [UnbrokenBytes])

/-- The byte of `|`. -/
def bar : UInt8 := 0x7C

/-- Line ends and the zero character are the only breaks, so nothing else has to be looked
for. -/
theorem unbroken_iff {text : List Char} :
    Unbroken text ↔ '\n' ∉ text ∧ '\r' ∉ text ∧ '\x00' ∉ text := by
  constructor
  · intro h
    refine ⟨fun hmem => ?_, fun hmem => ?_, fun hmem => ?_⟩ <;> exact absurd (h _ hmem) (by decide)
  · rintro ⟨hline, hreturn, hzero⟩ c hc
    have hneLine : c ≠ '\n' := fun heq => hline (heq ▸ hc)
    have hneReturn : c ≠ '\r' := fun heq => hreturn (heq ▸ hc)
    have hneZero : c ≠ '\x00' := fun heq => hzero (heq ▸ hc)
    simp [isBreak, hneLine, hneReturn, hneZero]

theorem unbrokenBytes_iff {bytes : Bytes} :
    UnbrokenBytes bytes ↔ 0x0A ∉ bytes ∧ 0x0D ∉ bytes ∧ 0x00 ∉ bytes := by
  constructor
  · intro h
    refine ⟨fun hmem => ?_, fun hmem => ?_, fun hmem => ?_⟩ <;> exact absurd (h _ hmem) (by decide)
  · rintro ⟨hline, hreturn, hzero⟩ b hb
    have hneLine : b ≠ 0x0A := fun heq => hline (heq ▸ hb)
    have hneReturn : b ≠ 0x0D := fun heq => hreturn (heq ▸ hb)
    have hneZero : b ≠ 0x00 := fun heq => hzero (heq ▸ hb)
    simp [isBreakByte, hneLine, hneReturn, hneZero]

theorem mem_shown_iff {a : UInt8} (ha : a < 128) (bytes : Bytes) :
    Char.ofNat a.toNat ∈ (shown bytes).toList ↔ a ∈ bytes := by
  rw [shown, String.toList_ofList]
  exact Utf8.mem_decodeLossy_iff ha bytes

/-- A spelling breaks a line exactly if what is shown of it does. -/
theorem unbroken_shown (bytes : Bytes) : Unbroken (shown bytes).toList ↔ UnbrokenBytes bytes := by
  have hline := mem_shown_iff (a := 0x0A) (by decide) bytes
  have hreturn := mem_shown_iff (a := 0x0D) (by decide) bytes
  have hzero := mem_shown_iff (a := 0x00) (by decide) bytes
  rw [unbroken_iff, unbrokenBytes_iff]
  exact and_congr (not_congr hline) (and_congr (not_congr hreturn) (not_congr hzero))

theorem bar_mem_shown (bytes : Bytes) : '|' ∈ (shown bytes).toList ↔ bar ∈ bytes :=
  mem_shown_iff (a := bar) (by decide) bytes

theorem shown_eq_nil_iff (bytes : Bytes) : (shown bytes).toList = [] ↔ bytes = [] := by
  rw [shown, String.toList_ofList]
  exact Utf8.decodeLossy_eq_nil_iff bytes

theorem UnbrokenBytes.of_subset {a b : Bytes} (hsub : a ⊆ b) (h : UnbrokenBytes b) :
    UnbrokenBytes a :=
  fun x hx => h x (hsub hx)

/-! ### Flags -/

/-- The spaces that are put between parts break no line. -/
theorem unbroken_intercalate (parts : List (List Char)) :
    Unbroken (List.intercalate [' '] parts) ↔ ∀ part ∈ parts, Unbroken part := by
  -- the spaces between the parts break nothing
  have hmem : ∀ c, c ≠ ' ' →
      (c ∈ List.intercalate [' '] parts ↔ ∃ part ∈ parts, c ∈ part) := fun c hc =>
    Text.mem_intercalate_iff (by simpa using hc) parts
  constructor
  · intro h part hpart c hc
    by_cases hspace : c = ' '
    · rw [hspace]
      decide
    · exact h c ((hmem c hspace).mpr ⟨part, hpart, hc⟩)
  · intro h c hc
    by_cases hspace : c = ' '
    · rw [hspace]
      decide
    · obtain ⟨part, hpart, hc⟩ := (hmem c hspace).mp hc
      exact h part hpart c hc

/-- Flags make a value if each of them fits a line and the first does not start with a
space. -/
theorem isValue_flags {flag : String} (rest : List String) (hflag : flag.toList ≠ [])
    (hhead : flag.toList.head? ≠ some ' ') :
    IsValue (String.intercalate " " (flag :: rest)).toList ↔
      ∀ f ∈ flag :: rest, Unbroken f.toList := by
  obtain ⟨c, others, hcons⟩ := List.exists_cons_of_ne_nil hflag
  have hvalue : (String.intercalate " " (flag :: rest)).toList.head? = flag.toList.head? := by
    rw [String.toList_intercalate, List.map_cons, hcons]
    cases rest with
    | nil => simp
    | cons next others => simp
  unfold IsValue
  rw [hvalue, String.toList_intercalate]
  have hspace : " ".toList = [' '] := rfl
  rw [hspace, unbroken_intercalate]
  simp [hhead]

theorem unbroken_quotePath (os : Os) (p : Path) :
    Unbroken (quotePath os p).toList ↔ UnbrokenBytes p.bytes := by
  rw [← unbroken_shown, unbroken_iff, unbroken_iff]
  cases os <;>
    simp [quotePath, Path.display, Posix.mem_quoteChars_iff, Windows.mem_quoteChars_iff]

theorem head?_quotePath (os : Os) (p : Path) : (quotePath os p).toList.head? ≠ some ' ' := by
  cases os with
  | linux => simpa [quotePath] using Posix.head?_quoteChars _
  | macos => simpa [quotePath] using Posix.head?_quoteChars _
  | windows => simpa [quotePath] using Windows.head?_quoteChars _

theorem isValue_quotePath (os : Os) (p : Path) :
    IsValue (quotePath os p).toList ↔ UnbrokenBytes p.bytes := by
  unfold IsValue
  rw [unbroken_quotePath]
  simp [head?_quotePath]

/-! ### Below the CUDA root -/

theorem unbroken_joinText {name : String} (hrelative : (Path.ofText name).isAbsolute = false)
    (hname : UnbrokenBytes (utf8 name)) (p : Path) :
    UnbrokenBytes (p.joinText name).bytes ↔ UnbrokenBytes p.bytes := by
  obtain ⟨hline, hreturn, hzero⟩ := unbrokenBytes_iff.mp hname
  have hmem : ∀ b, b ≠ slash → b ∉ utf8 name →
      (b ∉ (p.joinText name).bytes ↔ b ∉ p.bytes) := by
    intro b hslash hb
    rw [Path.joinText, Path.mem_join_iff p hrelative hslash]
    simp [Path.ofText, hb]
  rw [unbrokenBytes_iff, unbrokenBytes_iff, hmem 0x0A (by decide) hline,
    hmem 0x0D (by decide) hreturn, hmem 0x00 (by decide) hzero]

theorem nvccName_plain (os : Os) : (Path.ofText (os.executable "nvcc")).isAbsolute = false ∧
    UnbrokenBytes (utf8 (os.executable "nvcc")) := by
  cases os <;> exact ⟨by decide, by decide⟩

/-- Below a CUDA root only fixed names are added, so the root alone decides. -/
theorem unbroken_nvcc {toolchain : Toolchain} {program : Path}
    (h : toolchain.nvcc = .ok program) :
    UnbrokenBytes program.bytes ↔ ∀ root ∈ toolchain.cudaHome, UnbrokenBytes root.bytes := by
  obtain ⟨root, hroot, rfl⟩ := joinCudaHome_ok h
  obtain ⟨hrelative, hname⟩ := nvccName_plain toolchain.os
  rw [List.foldl_cons, List.foldl_cons, List.foldl_nil,
    unbroken_joinText hrelative hname, unbroken_joinText (by decide) (by decide)]
  simp [hroot]

theorem unbroken_cudaLibDir {toolchain : Toolchain} {dir : Path}
    (h : toolchain.cudaLibDir = .ok dir) :
    UnbrokenBytes dir.bytes ↔ ∀ root ∈ toolchain.cudaHome, UnbrokenBytes root.bytes := by
  obtain ⟨root, hroot, rfl⟩ := joinCudaHome_ok h
  rw [List.foldl_cons, List.foldl_nil, unbroken_joinText (by decide) (by decide)]
  simp [hroot]

/-! ### Values -/

/-- The fixed flags in front break no line and start with no space; what is left is the name,
the directories and the caller's flags. -/
theorem isValue_hostFlags (spec : BuildSpec) (includes : List Path) (os : Os) :
    IsValue (String.intercalate " " (hostFlags spec includes os)).toList ↔
      Unbroken spec.name.toList ∧ (∀ dir ∈ includes, UnbrokenBytes dir.bytes) ∧
        ∀ flag ∈ spec.hostFlags, Unbroken flag.toList := by
  have hpic : Unbroken "-fPIC".toList := by decide
  have hstandard : Unbroken "-std=c++17".toList := by decide
  have hname : Unbroken ("-DARTIFACT_NAME=" ++ spec.name).toList ↔ Unbroken spec.name.toList := by
    rw [String.toList_append, unbroken_append]
    exact and_iff_right (by decide)
  have hdir : ∀ dir, Unbroken ("-I" ++ quotePath os dir).toList ↔ UnbrokenBytes dir.bytes := by
    intro dir
    rw [String.toList_append, unbroken_append, unbroken_quotePath]
    exact and_iff_right (by decide)
  unfold hostFlags
  rw [List.cons_append, List.cons_append, isValue_flags _ (by decide) (by decide)]
  simp only [List.forall_mem_cons, List.cons_append, List.nil_append, List.forall_mem_append,
    List.forall_mem_map, hpic, hstandard, hname, hdir, true_and]

theorem isValue_deviceFlags (spec : BuildSpec) :
    IsValue (String.intercalate " " (deviceFlags spec)).toList ↔
      ∀ flag ∈ spec.deviceFlags, Unbroken flag.toList := by
  unfold deviceFlags
  rw [isValue_flags _ (by decide) (by decide), List.forall_mem_cons]
  exact and_iff_right (by decide)

/-- Of the paths only the CUDA root stands among the linker's flags, and only with CUDA
sources. -/
theorem isValue_linkFlags {spec : BuildSpec} {toolchain : Toolchain} {link : List String}
    (h : linkFlags spec toolchain = .ok link) :
    IsValue (String.intercalate " " link).toList ↔
      (∀ flag ∈ spec.linkFlags, Unbroken flag.toList) ∧
        (spec.hasDevice = true → ∀ root ∈ toolchain.cudaHome, UnbrokenBytes root.bytes) := by
  have hshared : Unbroken "-shared".toList := by decide
  have hcudart : Unbroken "-lcudart".toList := by decide
  have hopen : ∀ flag ∈ toolchain.os.openSymbolFlags, Unbroken flag.toList := by
    cases toolchain.os <;> decide
  have hdir : ∀ dir, Unbroken ("-L" ++ quotePath toolchain.os dir).toList ↔
      UnbrokenBytes dir.bytes := by
    intro dir
    rw [String.toList_append, unbroken_append, unbroken_quotePath]
    exact and_iff_right (by decide)
  rcases linkFlags_ok h with ⟨hdevice, rfl⟩ | ⟨hdevice, dir, hlib, rfl⟩
  · rw [List.cons_append, isValue_flags _ (by decide) (by decide), List.forall_mem_cons,
      List.forall_mem_append, and_iff_right hshared, and_iff_left hopen]
    simp [hdevice]
  · rw [List.cons_append, List.cons_append, isValue_flags _ (by decide) (by decide),
      List.forall_mem_cons, List.forall_mem_append, List.forall_mem_append, List.forall_mem_cons,
      List.forall_mem_singleton, hdir, unbroken_cudaLibDir hlib, and_iff_right hshared,
      and_iff_left hopen, and_iff_left hcudart]
    simp [hdevice]

theorem isValue_nvccArgument {spec : BuildSpec} {toolchain : Toolchain} {nvcc : Option String}
    (h : nvccArgument spec toolchain = .ok nvcc) :
    (∀ program ∈ nvcc, IsValue program.toList) ↔
      (spec.hasDevice = true → ∀ root ∈ toolchain.cudaHome, UnbrokenBytes root.bytes) := by
  rcases nvccArgument_ok h with ⟨hdevice, rfl⟩ | ⟨hdevice, program, hprogram, rfl⟩
  · simp [hdevice]
  · rw [← unbroken_nvcc hprogram, ← isValue_quotePath toolchain.os]
    simp [hdevice]

/-! ### Paths -/

theorem isPath_shown (bytes : Bytes) :
    IsPath (shown bytes).toList ↔ bytes ≠ [] ∧ UnbrokenBytes bytes ∧ bar ∉ bytes := by
  unfold IsPath
  rw [unbroken_shown, bar_mem_shown, ne_eq, shown_eq_nil_iff]

theorem isPath_artifactName (toolchain : Toolchain) (name : String) :
    IsPath (toolchain.artifactName name).toList ↔ Unbroken name.toList ∧ '|' ∉ name.toList := by
  have hsuffix : Unbroken toolchain.os.librarySuffix.toList ∧
      '|' ∉ toolchain.os.librarySuffix.toList := by
    cases toolchain.os <;> decide
  have hdot : Unbroken ".".toList := by decide
  unfold IsPath Toolchain.artifactName
  simp only [String.toList_append, unbroken_append, List.mem_append, hsuffix, hdot]
  simp

/-- The object of a source can be a path if the source can. -/
theorem isPath_objectName {source : Path} (h : IsPath source.display.toList) :
    IsPath (objectName source).toList := by
  obtain ⟨-, hunbroken, hbar⟩ := (isPath_shown source.bytes).mp h
  have hsub : source.stem?.getD source.bytes ⊆ source.bytes := by
    cases hstem : source.stem? with
    | none => exact List.Subset.refl _
    | some stem => exact fun b hb => Path.mem_of_mem_stem? hstem hb
  have hshown : Unbroken (shown (source.stem?.getD source.bytes)).toList :=
    (unbroken_shown _).mpr (hunbroken.of_subset hsub)
  have hnoBar : '|' ∉ (shown (source.stem?.getD source.bytes)).toList := fun hmem =>
    hbar (hsub ((bar_mem_shown _).mp hmem))
  have hsuffix : Unbroken ".o".toList := by decide
  unfold IsPath objectName
  simp only [String.toList_append, unbroken_append, List.mem_append, hshown, hnoBar, hsuffix]
  simp

/-! ### Descriptions -/

/-- A plan's file can hold what the plan says if each value can be a value and each path a
path. -/
theorem Plan.expressible_iff (plan : Plan) :
    plan.contents.Expressible ↔
      (IsValue plan.cxx.toList ∧ (∀ program ∈ plan.nvcc, IsValue program.toList) ∧
        IsValue (String.intercalate " " plan.hostFlags).toList ∧
        (plan.nvcc.isSome → IsValue (String.intercalate " " plan.deviceFlags).toList) ∧
        IsValue (String.intercalate " " plan.linkFlags).toList) ∧
      (∀ edge ∈ plan.edges, IsPath edge.object.toList ∧ IsPath edge.source.display.toList) ∧
      IsPath plan.library.toList := by
  constructor
  · intro h
    refine ⟨⟨h.values (named "cxx" plan.cxx) (by simp [contents]), fun program hprogram => ?_,
      h.values (named "cflags" _) (by simp [contents]), fun hsome => ?_,
      h.values (named "ldflags" _) (by simp [contents])⟩, fun edge hedge => ?_,
      h.defaults _ (by simp [contents])⟩
    · exact h.values (named "nvcc" program) (by simp_all [contents])
    · obtain ⟨program, hprogram⟩ := Option.isSome_iff_exists.mp hsome
      exact h.values (named "cuda_flags" _) (by simp [contents, hprogram])
    · have hmem : edge.edge ∈ plan.contents.edges :=
        List.mem_append_left _ (List.mem_map_of_mem hedge)
      exact ⟨h.outputs _ hmem, h.inputs _ hmem _ List.mem_cons_self⟩
  · rintro ⟨⟨hcxx, hnvcc, hhost, hdevice, hlink⟩, hedges, hlibrary⟩
    have hversion : IsValue "1.3".toList := ⟨by decide, by decide⟩
    constructor
    · -- without CUDA its two variables are not there
      cases hprogram : plan.nvcc with
      | none =>
          simp only [contents, hprogram, Option.toList_none, List.map_nil, List.append_nil,
            List.cons_append, List.nil_append, List.forall_mem_cons]
          exact ⟨hversion, hcxx, hhost, hlink, by simp⟩
      | some program =>
          simp only [contents, hprogram, Option.toList_some, List.map_cons, List.map_nil,
            List.cons_append, List.nil_append, List.forall_mem_cons]
          exact ⟨hversion, hcxx, hnvcc program hprogram, hhost, hdevice (by simp [hprogram]),
            hlink, by simp⟩
    · refine List.forall_mem_append.mpr ⟨?_, by simpa [linkEdge] using hlibrary⟩
      exact List.forall_mem_map.mpr fun edge hedge => (hedges edge hedge).1
    · refine List.forall_mem_append.mpr ⟨?_, ?_⟩
      · refine List.forall_mem_map.mpr ?_
        intro edge hedge
        simpa [ObjectEdge.edge] using (hedges edge hedge).2
      · simpa [linkEdge] using fun edge hedge => (hedges edge hedge).1
    · simpa [contents] using hlibrary

/-- What the description of a request asks of its texts and paths to be read back. -/
structure Legible (spec : BuildSpec) (toolchain : Toolchain) (includes : List Path) : Prop where
  cxx : IsValue toolchain.cxx.toList
  name : Unbroken spec.name.toList ∧ '|' ∉ spec.name.toList
  sources : ∀ source ∈ spec.sources,
    source.bytes ≠ [] ∧ UnbrokenBytes source.bytes ∧ bar ∉ source.bytes
  includes : ∀ dir ∈ includes, UnbrokenBytes dir.bytes
  hostFlags : ∀ flag ∈ spec.hostFlags, Unbroken flag.toList
  linkFlags : ∀ flag ∈ spec.linkFlags, Unbroken flag.toList
  deviceFlags : spec.hasDevice = true → ∀ flag ∈ spec.deviceFlags, Unbroken flag.toList
  cudaRoot : spec.hasDevice = true → ∀ root ∈ toolchain.cudaHome, UnbrokenBytes root.bytes

/-- Field by field, what a file can say of a plan is what `Legible` asks of the request and
the toolchain. -/
theorem expressible_settled {spec : BuildSpec} {toolchain : Toolchain} {includes : List Path}
    {nvcc : Option String} {link : List String} (hnvcc : nvccArgument spec toolchain = .ok nvcc)
    (hlink : linkFlags spec toolchain = .ok link) :
    (settled spec toolchain includes nvcc link).contents.Expressible ↔
      Legible spec toolchain includes := by
  have hedges : (∀ edge ∈ spec.sources.map objectEdge,
      IsPath edge.object.toList ∧ IsPath edge.source.display.toList) ↔
      ∀ source ∈ spec.sources,
        source.bytes ≠ [] ∧ UnbrokenBytes source.bytes ∧ bar ∉ source.bytes := by
    simp only [List.forall_mem_map]
    refine forall₂_congr ?_
    intro source _
    rw [← isPath_shown]
    exact and_iff_right_of_imp isPath_objectName
  -- the name stands in a flag too, and the CUDA root in two values
  rw [Plan.expressible_iff]
  simp only [settled, isValue_nvccArgument hnvcc, isValue_hostFlags, isValue_deviceFlags,
    isValue_linkFlags hlink, isSome_nvccArgument hnvcc, isPath_artifactName, hedges]
  constructor
  · rintro ⟨⟨hcxx, hroot, ⟨-, hincludes, hhost⟩, hdevice, hflags, -⟩, hsources, hname⟩
    exact ⟨hcxx, hname, hsources, hincludes, hhost, hflags, hdevice, hroot⟩
  · intro h
    exact ⟨⟨h.cxx, h.cudaRoot, ⟨h.name.1, h.includes, h.hostFlags⟩, h.deviceFlags, h.linkFlags,
      h.cudaRoot⟩, h.sources, h.name⟩

/-- **A plan's file says what the plan says exactly when a file can say it.** -/
theorem Plan.ofText?_statements_iff (plan : Plan) :
    Contents.ofText? (fileText plan.statements).toList = some plan.contents ↔
      plan.contents.Expressible :=
  ⟨expressible_of_ofText?, Plan.ofText?_statements⟩

/-- **A description that was written reads back as what it says exactly when it is
legible.** What it says is the plan's variables, rules, edges and default target, each text
as it was before it was escaped. -/
theorem ofText?_render {spec : BuildSpec} {toolchain : Toolchain} {text : String}
    (hrender : render spec toolchain = .ok text) :
    ∃ includes nvcc link, includeDirs spec toolchain = .ok includes ∧
      nvccArgument spec toolchain = .ok nvcc ∧ linkFlags spec toolchain = .ok link ∧
      (Contents.ofText? text.toList =
          some (settled spec toolchain includes nvcc link).contents ↔
        Legible spec toolchain includes) := by
  obtain ⟨includes, nvcc, link, hincludes, hnvcc, hlink, rfl⟩ := render_settles hrender
  refine ⟨includes, nvcc, link, hincludes, hnvcc, hlink, ?_⟩
  rw [Plan.ofText?_statements_iff, expressible_settled hnvcc hlink]

/-- A CUDA request whose paths need every escape. -/
def spacedSpec : BuildSpec where
  name := "ops"
  sources := [.ofText "/a b/ops.cu", .ofText "/a b/$x:y.cpp"]
  hostFlags := ["-DQUOTE='"]
  deviceFlags := []
  linkFlags := []
  includes := [.ofText "/in c"]

/-- A toolchain with a CUDA root whose path needs every escape. -/
def spacedToolchain : Toolchain := { cudaHome := some (.ofText "/cuda $12") }

theorem ofText?_render_spaced :
    ∃ text includes nvcc link, render spacedSpec spacedToolchain = .ok text ∧
      includeDirs spacedSpec spacedToolchain = .ok includes ∧
      Contents.ofText? text.toList =
        some (settled spacedSpec spacedToolchain includes nvcc link).contents := by
  obtain ⟨text, hrender⟩ : ∃ text, render spacedSpec spacedToolchain = .ok text := ⟨_, rfl⟩
  obtain ⟨includes, nvcc, link, hincludes, -, -, hread⟩ := ofText?_render hrender
  have hdirs : includeDirs spacedSpec spacedToolchain =
      .ok [.ofText "/in c", .ofText "/cuda $12/include"] := rfl
  obtain rfl := Except.ok.inj (hdirs.symm.trans hincludes)
  have hlegible : Legible spacedSpec spacedToolchain
      [.ofText "/in c", .ofText "/cuda $12/include"] :=
    { cxx := ⟨by decide, by decide⟩
      name := by decide
      sources := by decide
      includes := by decide
      hostFlags := by decide
      linkFlags := by decide
      deviceFlags := by decide
      cudaRoot := by decide }
  exact ⟨text, _, nvcc, link, hrender, hdirs, hread.mpr hlegible⟩

end NativeExtension.Ninja
