import Mathlib.Data.List.Nodup
import Mathlib.Data.List.TFAE
import NativeExtension.Ninja.Expansion
import NativeExtension.Proofs.Ninja.Contents
import NativeExtension.Proofs.Ninja.Settling

/-!
# NativeExtension.Proofs.Ninja.Graph

**A description is a well-formed graph that builds one library.** No two of its edges write
one file, whatever the name of the extension; every rule and every variable stands above what
uses it, once; the link takes the objects of all compilations, in the order of the sources
(`WellFormed`, `Links`).

Whether a build is for CUDA is asked in many places: of the request, of its parted sources, of
each edge, and before each statement that only such a build has. All of them answer alike
(`render_wellFormed`).
-/

namespace NativeExtension

/-- What a compiler gets. -/
def Sources.side (sources : Sources) : Compiler → List Path
  | .host => sources.host
  | .device => sources.device

namespace Ninja

/-! ### What the statements of a file declare -/

/-- A build edge as it is written, escapes included. -/
structure WrittenEdge where
  output : String
  ruleName : String
  inputs : List String
deriving DecidableEq, Repr

/-- The edges of a file, in order. -/
def edgesOf (file : List Statement) : List WrittenEdge :=
  file.filterMap fun
    | .build output ruleName inputs => some ⟨output, ruleName, inputs⟩
    | _ => none

/-- The rules that a file declares, in order. -/
def rulesOf (file : List Statement) : List String :=
  file.filterMap fun
    | .rule name _ => some name
    | _ => none

/-- The variables that a file binds, in order. -/
def variablesOf (file : List Statement) : List String :=
  file.filterMap fun
    | .variable key _ => some key
    | _ => none

/-- The values that a file binds to a variable, in order. -/
def valuesOf (file : List Statement) (key : String) : List String :=
  file.filterMap fun
    | .variable bound value => if bound = key then some value else none
    | _ => none

/-- The default targets of a file. -/
def defaultsOf (file : List Statement) : List String :=
  file.filterMap fun
    | .default target => some target
    | _ => none

/-- The variables that a template refers to. `pending` holds the characters of a reference
read so far, if one is being read. -/
def referencesFrom : Option (List Char) → List Char → List (List Char)
  | none, [] => []
  | some name, [] => [name]
  | none, c :: rest => if c = '$' then referencesFrom (some []) rest else referencesFrom none rest
  | some name, c :: rest =>
    if isReferenceChar c then referencesFrom (some (name ++ [c])) rest
    else if name = [] then referencesFrom none rest
    else name :: if c = '$' then referencesFrom (some []) rest else referencesFrom none rest

/-- The variables that a command refers to. -/
def references (command : String) : List String :=
  (referencesFrom none command.toList).map String.ofList

/-- A file that can be carried out: no two edges write one file, and what is used has been
declared above, once. -/
structure WellFormed (file : List Statement) : Prop where
  outputs : ((edgesOf file).map (·.output)).Nodup
  rules : ∀ before after output ruleName inputs,
    file = before ++ .build output ruleName inputs :: after →
    ruleName ∈ rulesOf before ∧ (rulesOf file).count ruleName = 1
  bindings : ∀ before after name command, file = before ++ .rule name command :: after →
    ∀ used ∈ references command, used ≠ "in" → used ≠ "out" →
      used ∈ variablesOf before ∧ (variablesOf file).count used = 1

/-- The edges of a file compile each source and then link all objects into the library,
which is the default target. -/
structure Links (file : List Statement) (sources : List Path) (library : String) : Prop where
  edges : ∃ compiles, edgesOf file =
      compiles ++ [⟨escapePath library, linkRule, compiles.map (·.output)⟩] ∧
    compiles.map (·.inputs) = sources.map fun source => [escapePath source.display]
  default : defaultsOf file = [escapePath library]

/-- Each source goes through the rule of the side on which it stands when the sources are
parted. Both sides together are the sources, each side in their order. -/
structure Dispatches (file : List Statement) (sources : List Path) : Prop where
  each : ∀ (i : Nat) source, sources[i]? = some source → ∃ edge : WrittenEdge, (edgesOf file)[i]? = some edge ∧
    edge.inputs = [escapePath source.display] ∧ ∀ compiler,
      (edge.ruleName = ruleOf compiler ↔ source ∈ (Sources.classify sources).side compiler)
  sides : ∀ compiler, ((edgesOf file).filter (·.ruleName = ruleOf compiler)).map (·.inputs) =
    ((Sources.classify sources).side compiler).map fun source => [escapePath source.display]
  order : ∀ compiler, List.Sublist ((Sources.classify sources).side compiler) sources
  parts : ((Sources.classify sources).host ++ (Sources.classify sources).device).Perm sources

/-! ### Outputs -/

/-- A character can be told from what is written for it, whatever follows. -/
theorem escapedPathChar_append_inj {c d : Char} {rest others : List Char}
    (h : escapedPathChar c ++ rest = escapedPathChar d ++ others) : c = d ∧ rest = others := by
  -- a character that is not escaped is no dollar sign
  have hdollar : isSpecialInPath '$' = true := rfl
  unfold escapedPathChar at h
  split at h <;> split at h <;> simp only [List.cons_append, List.nil_append, List.cons.injEq] at h
  · exact h.2
  · next hd => exact absurd (h.1 ▸ hdollar) hd
  · next hc _ => exact absurd (h.1 ▸ hdollar) hc
  · exact h

/-- No two paths are written alike. -/
theorem flatMap_escapedPathChar_injective {a b : List Char}
    (h : a.flatMap escapedPathChar = b.flatMap escapedPathChar) : a = b := by
  have hne : ∀ c, escapedPathChar c ≠ [] := by
    intro c
    unfold escapedPathChar
    split <;> simp
  induction a generalizing b with
  | nil =>
      cases b with
      | nil => rfl
      | cons d others => simp [hne] at h
  | cons c rest ih =>
      cases b with
      | nil => simp [hne] at h
      | cons d others =>
          rw [List.flatMap_cons, List.flatMap_cons] at h
          obtain ⟨rfl, hrest⟩ := escapedPathChar_append_inj h
          rw [ih hrest]

theorem escapePath_injective : Function.Injective escapePath := by
  intro a b h
  have hlists : a.toList.flatMap escapedPathChar = b.toList.flatMap escapedPathChar := by
    rw [← toList_escapePath, ← toList_escapePath, h]
  exact String.toList_injective (flatMap_escapedPathChar_injective hlists)

/-- The library is no object: the two end otherwise. -/
theorem objectName_ne_artifactName (source : Path) (toolchain : Toolchain) (name : String) :
    objectName source ≠ toolchain.artifactName name := by
  intro h
  have hends := congrArg (fun text => text.toList.reverse) h
  unfold objectName Toolchain.artifactName at hends
  cases hos : toolchain.os <;> simp [hos, Os.librarySuffix] at hends

/-- Objects of their own for all sources, and none of them is the library. -/
theorem nodup_outputs {spec : BuildSpec} {edges : List ObjectEdge}
    (h : objectEdges spec.sources = .ok edges) (toolchain : Toolchain) :
    (edges.map (fun edge => escapePath edge.object) ++
      [escapePath (toolchain.artifactName spec.name)]).Nodup := by
  obtain ⟨rfl, hobjects⟩ := objectEdges_ok_iff.mp h
  rw [← List.concat_eq_append]
  refine (List.nodup_concat _ _).mpr ⟨?_, ?_⟩
  · intro hmem
    obtain ⟨edge, hedge, heq⟩ := List.mem_map.mp hmem
    obtain ⟨source, -, rfl⟩ := List.mem_map.mp hedge
    exact objectName_ne_artifactName source toolchain spec.name (escapePath_injective heq)
  · have hmap := hobjects.map escapePath_injective
    rw [List.map_map] at hmap ⊢
    exact hmap

/-! ### The statements of a plan -/

namespace Plan

variable (plan : Plan)

/-- A compilation as its statement writes it. -/
def written (edge : ObjectEdge) : WrittenEdge where
  output := escapePath edge.object
  ruleName := ruleOf edge.compiler
  inputs := [escapePath edge.source.display]

/-- The edges of a description: the compilations in order, and the linking of their objects.
-/
theorem edgesOf_statements : edgesOf plan.statements =
    plan.edges.map written ++ [⟨escapePath plan.library, linkRule,
      (plan.edges.map written).map (·.output)⟩] := by
  have hcompiles : (plan.edges.map edgeStatement).filterMap (fun statement =>
      match statement with
      | .build output ruleName inputs => some (⟨output, ruleName, inputs⟩ : WrittenEdge)
      | _ => none) = plan.edges.map written := by
    induction plan.edges with
    | nil => rfl
    | cons edge rest ih => simpa [edgeStatement, written] using ih
  unfold edgesOf statements toolStatements flagStatements ruleStatements graphStatements whenDevice
  simp only [List.filterMap_append, hcompiles]
  cases plan.nvcc <;> simp [written]

theorem rulesOf_statements : rulesOf plan.statements =
    [ruleOf .host] ++ plan.nvcc.toList.map (fun _ => ruleOf .device) ++ [linkRule] := by
  cases hnvcc : plan.nvcc <;>
    simp [rulesOf, statements, toolStatements, flagStatements, ruleStatements, graphStatements,
      whenDevice, edgeStatement, hnvcc]

theorem variablesOf_statements : variablesOf plan.statements =
    ["ninja_required_version", "cxx"] ++ plan.nvcc.toList.map (fun _ => "nvcc") ++ ["cflags"] ++
      plan.nvcc.toList.map (fun _ => "cuda_flags") ++ ["ldflags"] := by
  cases hnvcc : plan.nvcc <;>
    simp [variablesOf, statements, toolStatements, flagStatements, ruleStatements,
      graphStatements, whenDevice, edgeStatement, hnvcc]

theorem valuesOf_ldflags : valuesOf plan.statements "ldflags" = [joinFlags plan.linkFlags] := by
  cases hnvcc : plan.nvcc <;>
    simp [valuesOf, statements, toolStatements, flagStatements, ruleStatements,
      graphStatements, whenDevice, edgeStatement, hnvcc]

theorem defaultsOf_statements : defaultsOf plan.statements = [escapePath plan.library] := by
  cases hnvcc : plan.nvcc <;>
    simp [defaultsOf, statements, toolStatements, flagStatements, ruleStatements,
      graphStatements, whenDevice, edgeStatement, hnvcc]

/-- What stands above the edges. -/
def preamble : List Statement :=
  plan.toolStatements ++ plan.flagStatements ++ plan.ruleStatements

/-- What stands above the rules. -/
def bindingStatements : List Statement := plan.toolStatements ++ plan.flagStatements

theorem rulesOf_preamble : rulesOf plan.preamble = rulesOf plan.statements := by
  rw [rulesOf_statements]
  cases hnvcc : plan.nvcc <;>
    simp [rulesOf, preamble, toolStatements, flagStatements, ruleStatements, whenDevice, hnvcc]

theorem variablesOf_bindingStatements :
    variablesOf plan.bindingStatements = variablesOf plan.statements := by
  rw [variablesOf_statements]
  cases hnvcc : plan.nvcc <;>
    simp [variablesOf, bindingStatements, toolStatements, flagStatements, whenDevice, hnvcc]

theorem nodup_rulesOf : (rulesOf plan.statements).Nodup := by
  rw [rulesOf_statements]
  cases plan.nvcc <;> simp [ruleOf, linkRule]

theorem nodup_variablesOf : (variablesOf plan.statements).Nodup := by
  rw [variablesOf_statements]
  cases plan.nvcc <;> simp

theorem build_notMem_preamble (output ruleName : String) (inputs : List String) :
    Statement.build output ruleName inputs ∉ plan.preamble := by
  cases hnvcc : plan.nvcc <;>
    simp [preamble, toolStatements, flagStatements, ruleStatements, whenDevice, hnvcc]

theorem rule_notMem_bindingStatements (name command : String) :
    Statement.rule name command ∉ plan.bindingStatements := by
  cases hnvcc : plan.nvcc <;>
    simp [bindingStatements, toolStatements, flagStatements, whenDevice, hnvcc]

/-- No rule has a command but the three that are declared for the two compilers and the
linker. -/
theorem rule_mem_statements {name command : String}
    (h : Statement.rule name command ∈ plan.statements) :
    command = commandOf .host ∨ plan.nvcc.isSome ∧ command = commandOf .device ∨
      command = linkCommand := by
  cases hnvcc : plan.nvcc with
  | none =>
      have hrules : name = ruleOf .host ∧ command = commandOf .host ∨
          name = linkRule ∧ command = linkCommand := by
        simpa [statements, toolStatements, flagStatements, ruleStatements, graphStatements,
          whenDevice, edgeStatement, commandOf, linkCommand, hnvcc] using h
      rcases hrules with ⟨-, rfl⟩ | ⟨-, rfl⟩
      · exact Or.inl rfl
      · exact Or.inr (Or.inr rfl)
  | some program =>
      have hrules : name = ruleOf .host ∧ command = commandOf .host ∨
          name = ruleOf .device ∧ command = commandOf .device ∨
            name = linkRule ∧ command = linkCommand := by
        simpa [statements, toolStatements, flagStatements, ruleStatements, graphStatements,
          whenDevice, edgeStatement, commandOf, linkCommand, hnvcc] using h
      rcases hrules with ⟨-, rfl⟩ | ⟨-, rfl⟩ | ⟨-, rfl⟩
      · exact Or.inl rfl
      · exact Or.inr (Or.inl ⟨rfl, rfl⟩)
      · exact Or.inr (Or.inr rfl)

/-- What a command uses is bound somewhere in the file. -/
theorem references_bound {name command used : String}
    (h : Statement.rule name command ∈ plan.statements) (hused : used ∈ references command)
    (hin : used ≠ "in") (hout : used ≠ "out") : used ∈ variablesOf plan.statements := by
  have hhost : references (commandOf .host) = ["cxx", "out", "cflags", "in", "out"] := by decide
  have hdevice : references (commandOf .device) = ["nvcc", "cuda_flags", "in", "out"] := by decide
  have hlink : references linkCommand = ["cxx", "ldflags", "in", "out"] := by decide
  rw [variablesOf_statements]
  rcases plan.rule_mem_statements h with rfl | ⟨hnvcc, rfl⟩ | rfl
  · have hnames : used = "cxx" ∨ used = "cflags" := by simpa [hhost, hin, hout] using hused
    rcases hnames with rfl | rfl <;> simp
  · obtain ⟨program, hprogram⟩ := Option.isSome_iff_exists.mp hnvcc
    have hnames : used = "nvcc" ∨ used = "cuda_flags" := by
      simpa [hdevice, hin, hout] using hused
    rcases hnames with rfl | rfl <;> simp [hprogram]
  · have hnames : used = "cxx" ∨ used = "ldflags" := by simpa [hlink, hin, hout] using hused
    rcases hnames with rfl | rfl <;> simp

end Plan

/-- What stands in front of an element, if it is not the front part. -/
theorem prefix_of_split {α : Type} {front back before after : List α} {x : α}
    (h : front ++ back = before ++ x :: after) (hx : x ∉ front) : front <+: before := by
  rcases List.append_eq_append_iff.mp h with ⟨gap, hbefore, -⟩ | ⟨gap, hfront, htail⟩
  · exact ⟨gap, hbefore.symm⟩
  · cases gap with
    | nil =>
        rw [List.append_nil] at hfront
        exact hfront ▸ List.prefix_refl _
    | cons y rest =>
        obtain ⟨rfl, -⟩ := List.cons.inj htail
        exact absurd (by simp [hfront]) hx

/-- **The file of a plan is well-formed**, if its outputs differ and the CUDA compiler is known
whenever an edge needs it. -/
theorem Plan.wellFormed_statements {plan : Plan}
    (houtputs : (plan.edges.map (fun edge => escapePath edge.object) ++
      [escapePath plan.library]).Nodup)
    (hnvcc : ∀ edge ∈ plan.edges, edge.compiler = .device → plan.nvcc.isSome) :
    WellFormed plan.statements := by
  constructor
  case outputs =>
    rw [edgesOf_statements]
    simpa [written, Function.comp_def] using houtputs
  case rules =>
    intro before after output ruleName inputs h
    have hedge : ⟨output, ruleName, inputs⟩ ∈ edgesOf plan.statements := by
      simp [h, edgesOf]
    have hdeclared : ruleName ∈ rulesOf plan.statements := by
      rw [edgesOf_statements] at hedge
      rw [rulesOf_statements]
      rcases List.mem_append.mp hedge with hcompile | hlink
      · obtain ⟨edge, hmem, heq⟩ := List.mem_map.mp hcompile
        obtain rfl : ruleOf edge.compiler = ruleName := congrArg WrittenEdge.ruleName heq
        cases hcompiler : edge.compiler with
        | host => simp
        | device =>
            obtain ⟨program, hprogram⟩ := Option.isSome_iff_exists.mp (hnvcc edge hmem hcompiler)
            simp [hprogram]
      · obtain rfl : ruleName = linkRule :=
          congrArg WrittenEdge.ruleName (List.mem_singleton.mp hlink)
        simp
    -- all rules stand in the preamble, and no edge does
    have hsplit : plan.preamble ++ plan.graphStatements =
        before ++ .build output ruleName inputs :: after := h
    have hstart : plan.preamble <+: before :=
      prefix_of_split hsplit (plan.build_notMem_preamble _ _ _)
    refine ⟨?_, List.count_eq_one_of_mem plan.nodup_rulesOf hdeclared⟩
    have hpreamble : ruleName ∈ rulesOf plan.preamble := by rwa [rulesOf_preamble]
    exact (hstart.filterMap _).subset hpreamble
  case bindings =>
    intro before after name command h used hused hin hout
    have hrule : Statement.rule name command ∈ plan.statements := by simp [h]
    have hbound := plan.references_bound hrule hused hin hout
    have hsplit : plan.bindingStatements ++ (plan.ruleStatements ++ plan.graphStatements) =
        before ++ .rule name command :: after := by
      rw [← h, bindingStatements, statements, List.append_assoc _ plan.ruleStatements]
    have hstart : plan.bindingStatements <+: before :=
      prefix_of_split hsplit (plan.rule_notMem_bindingStatements _ _)
    refine ⟨?_, List.count_eq_one_of_mem plan.nodup_variablesOf hbound⟩
    have habove : used ∈ variablesOf plan.bindingStatements := by
      rwa [variablesOf_bindingStatements]
    exact (hstart.filterMap _).subset habove

/-! ### Parted sources -/

theorem mem_side_iff {sources : List Path} {source : Path} (h : source ∈ sources)
    (compiler : Compiler) :
    source ∈ (Sources.classify sources).side compiler ↔ source.compiler = compiler := by
  cases compiler <;> cases hdevice : source.isDeviceSource <;>
    simp [Sources.side, Sources.classify, Path.compiler, h, hdevice]

theorem side_eq_filter (sources : List Path) (compiler : Compiler) :
    (Sources.classify sources).side compiler =
      sources.filter fun source => source.compiler = compiler := by
  cases compiler <;>
    refine List.filter_congr ?_ <;>
      intro source _ <;>
        cases hdevice : source.isDeviceSource <;> simp [Path.compiler, hdevice]

theorem ruleOf_injective : Function.Injective ruleOf := by
  intro a b h
  cases a <;> cases b <;> simp_all [ruleOf]

theorem ruleOf_ne_linkRule (compiler : Compiler) : ruleOf compiler ≠ linkRule := by
  cases compiler <;> decide

/-- The edges of the sources of a request, and nothing but they, go through the rules of the
compilers, each source through that of its own. -/
theorem Plan.dispatches_statements {plan : Plan} {sources : List Path}
    (h : plan.edges = sources.map objectEdge) : Dispatches plan.statements sources := by
  have hedges : edgesOf plan.statements = sources.map (fun source => written (objectEdge source)) ++
      [⟨escapePath plan.library, linkRule, (plan.edges.map written).map (·.output)⟩] := by
    rw [edgesOf_statements, h, List.map_map]
    rfl
  constructor
  case each =>
    intro i source hsource
    obtain ⟨hi, rfl⟩ := List.getElem?_eq_some_iff.mp hsource
    refine ⟨written (objectEdge sources[i]), ?_, rfl, ?_⟩
    · rw [hedges, List.getElem?_append_left (by simpa using hi), List.getElem?_map,
        List.getElem?_eq_getElem hi, Option.map_some]
    · intro compiler
      rw [mem_side_iff (List.getElem_mem hi)]
      exact ruleOf_injective.eq_iff
  case sides =>
    intro compiler
    have hlink : ¬ linkRule = ruleOf compiler := fun heq => ruleOf_ne_linkRule compiler heq.symm
    rw [hedges, side_eq_filter, List.filter_append, List.filter_map]
    simp [hlink, written, objectEdge, Function.comp_def, ruleOf_injective.eq_iff]
  case order =>
    intro compiler
    rw [side_eq_filter]
    exact List.filter_sublist
  case parts =>
    exact List.perm_append_comm.trans (List.filter_append_perm Path.isDeviceSource sources)

/-- The edges of a plan link its objects into its library. -/
theorem Plan.links_statements {plan : Plan} {sources : List Path}
    (h : plan.edges = sources.map objectEdge) : Links plan.statements sources plan.library where
  edges := by
    refine ⟨plan.edges.map written, plan.edgesOf_statements, ?_⟩
    rw [h, List.map_map, List.map_map]
    rfl
  default := plan.defaultsOf_statements

/-! ### Is it for CUDA? -/

theorem hasDevice_iff_exists {spec : BuildSpec} :
    spec.hasDevice = true ↔ ∃ source ∈ spec.sources, source.compiler = .device := by
  have hdevice : ∀ source : Path, source.isDeviceSource = true ↔ source.compiler = .device := by
    intro source
    cases h : source.isDeviceSource <;> simp [Path.compiler, h]
  simp [BuildSpec.hasDevice, hdevice]

/-- An edge asks for the CUDA rule only for a CUDA source. -/
theorem Plan.exists_deviceEdge_iff {plan : Plan} {sources : List Path}
    (h : plan.edges = sources.map objectEdge) :
    (∃ edge ∈ edgesOf plan.statements, edge.ruleName = ruleOf .device) ↔
      ∃ source ∈ sources, source.compiler = .device := by
  have hlink : ¬ linkRule = ruleOf .device := (ruleOf_ne_linkRule .device).symm
  rw [edgesOf_statements, h]
  simp [written, objectEdge, ruleOf_injective.eq_iff, hlink]

theorem anyDevice_classify (spec : BuildSpec) :
    (Sources.classify spec.sources).anyDevice = spec.hasDevice := by
  rw [Bool.eq_iff_iff]
  simp [Sources.anyDevice, Sources.classify, BuildSpec.hasDevice]

/-- A build for CUDA links one library more than the caller asks for, and no other does. -/
theorem count_linkFlags {spec : BuildSpec} {toolchain : Toolchain} {link : List String}
    (h : linkFlags spec toolchain = .ok link) :
    link.count "-lcudart" = spec.linkFlags.count "-lcudart" + spec.hasDevice.toNat := by
  have hopen : toolchain.os.openSymbolFlags.count "-lcudart" = 0 := by
    cases toolchain.os <;> decide
  rcases linkFlags_ok h with ⟨hhost, rfl⟩ | ⟨hdevice, dir, -, rfl⟩
  · simp [hhost, hopen]
  · have hdirectory : ("-L" ++ quotePath toolchain.os dir) ≠ "-lcudart" := by
      intro heq
      simpa using congrArg String.toList heq
    simp [hdevice, hopen, hdirectory]

/-- **A description is a well-formed build of one library**, in which each source goes through
its own rule; and it is for CUDA in all of its parts or in none. -/
theorem render_wellFormed {spec : BuildSpec} {toolchain : Toolchain} {text : String}
    (h : render spec toolchain = .ok text) :
    ∃ file link, statements spec toolchain = .ok file ∧ text = fileText file ∧
      linkFlags spec toolchain = .ok link ∧
      valuesOf file "ldflags" = [joinFlags link] ∧
      WellFormed file ∧ Links file spec.sources (toolchain.artifactName spec.name) ∧
      Dispatches file spec.sources ∧
      [spec.hasDevice = true,
        (Sources.classify spec.sources).anyDevice = true,
        ∃ edge ∈ edgesOf file, edge.ruleName = "cuda_compile",
        "cuda_compile" ∈ rulesOf file,
        "nvcc" ∈ variablesOf file,
        "cuda_flags" ∈ variablesOf file,
        link.count "-lcudart" = spec.linkFlags.count "-lcudart" + 1].TFAE := by
  obtain ⟨file, hfile, rfl⟩ := map_ok_iff.mp h
  obtain ⟨p, hplan, rfl⟩ := map_ok_iff.mp hfile
  obtain ⟨edges, hobjects, -⟩ := bind_ok_iff.mp hplan
  obtain ⟨includes, nvcc, link, -, hnvcc, hlink, rfl⟩ := plan_settles hplan
  have hdevice : nvcc.isSome = true ↔ spec.hasDevice = true := by
    rw [isSome_nvccArgument hnvcc]
  refine ⟨_, link, hfile, rfl, hlink, Plan.valuesOf_ldflags _, ?_, Plan.links_statements rfl,
    Plan.dispatches_statements rfl, ?_⟩
  · refine Plan.wellFormed_statements ?_ ?_
    · have houtputs := nodup_outputs hobjects toolchain
      obtain rfl := objectEdgesAfter_ok hobjects
      exact houtputs
    · intro edge hedge hcompiler
      obtain ⟨source, hsource, rfl⟩ := List.mem_map.mp hedge
      exact hdevice.mpr (hasDevice_iff_exists.mpr ⟨source, hsource, hcompiler⟩)
  · -- each part of the file answers as the request does
    have hedges : (∃ edge ∈ edgesOf (settled spec toolchain includes nvcc link).statements,
        edge.ruleName = "cuda_compile") ↔ spec.hasDevice = true := by
      rw [hasDevice_iff_exists]
      exact Plan.exists_deviceEdge_iff rfl
    have hrules : "cuda_compile" ∈ rulesOf (settled spec toolchain includes nvcc link).statements ↔
        spec.hasDevice = true := by
      rw [Plan.rulesOf_statements, ← hdevice]
      cases nvcc <;> simp [settled, ruleOf, linkRule]
    have hnvccBound : "nvcc" ∈ variablesOf (settled spec toolchain includes nvcc link).statements ↔
        spec.hasDevice = true := by
      rw [Plan.variablesOf_statements, ← hdevice]
      cases nvcc <;> simp [settled]
    have hflagsBound : "cuda_flags" ∈
        variablesOf (settled spec toolchain includes nvcc link).statements ↔
          spec.hasDevice = true := by
      rw [Plan.variablesOf_statements, ← hdevice]
      cases nvcc <;> simp [settled]
    have hcount : link.count "-lcudart" = spec.linkFlags.count "-lcudart" + 1 ↔
        spec.hasDevice = true := by
      rw [count_linkFlags hlink]
      cases spec.hasDevice <;> simp
    rw [hedges, hrules, hnvccBound, hflagsBound, hcount, anyDevice_classify]
    simp

/-- A request with a source for each compiler, whose caller names the CUDA runtime too. -/
def mixedSpec : BuildSpec where
  name := "ops"
  sources := [.ofText "/x/kernel.cu", .ofText "/x/bind.cpp"]
  hostFlags := []
  deviceFlags := []
  linkFlags := ["-lcudart"]
  includes := []

theorem render_wellFormed_mixed :
    ∃ text file link, render mixedSpec { cudaHome := some (.ofText "/cuda") } = .ok text ∧
      text = fileText file ∧ WellFormed file ∧ Links file mixedSpec.sources "ops.so" ∧
      Dispatches file mixedSpec.sources ∧ "cuda_compile" ∈ rulesOf file ∧
      valuesOf file "ldflags" = [joinFlags link] ∧ link.count "-lcudart" = 2 := by
  obtain ⟨text, hrender⟩ :
      ∃ text, render mixedSpec { cudaHome := some (.ofText "/cuda") } = .ok text := ⟨_, rfl⟩
  obtain ⟨file, link, -, htext, -, hvalues, hwell, hlinks, hdispatches, hall⟩ :=
    render_wellFormed hrender
  exact ⟨text, file, link, hrender, htext, hwell, hlinks, hdispatches, (hall.out 0 3).mp rfl,
    hvalues, (hall.out 0 6).mp rfl⟩

end Ninja

end NativeExtension
