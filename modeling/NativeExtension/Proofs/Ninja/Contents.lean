import NativeExtension.Ninja.Description
import NativeExtension.Proofs.Ninja.Lines

/-!
# NativeExtension.Proofs.Ninja.Contents

**What a description says.** `Plan.contents` is a plan as the variables, rules, edges and
default target that its file is meant to declare, each text as it was before it was
escaped. The file says that whenever a file can say it at all (`Contents.Expressible`,
`ofText?_statements`).
-/

namespace NativeExtension.Ninja

/-! ### What a file can say -/

/-- A file can hold such values, and such paths in edges and default targets. -/
structure Contents.Expressible (contents : Contents) : Prop where
  values : ∀ assignment ∈ contents.assignments, IsValue assignment.2
  outputs : ∀ edge ∈ contents.edges, IsPath edge.output
  inputs : ∀ edge ∈ contents.edges, ∀ input ∈ edge.inputs, IsPath input
  defaults : ∀ target ∈ contents.defaults, IsPath target

/-- A variable or binding with its text. -/
def named (key value : String) : List Char × List Char := (key.toList, value.toList)

/-- The edge that a compilation is meant to be. -/
def ObjectEdge.edge (edge : ObjectEdge) : Edge where
  output := edge.object.toList
  rule := (ruleOf edge.compiler).toList
  inputs := [edge.source.display.toList]

namespace Plan

/-- The command of a rule. -/
def commandOf : Compiler → String
  | .host => "$cxx -MMD -MF $out.d $cflags -c $in -o $out"
  | .device => "$nvcc $cuda_flags -c $in -o $out"

/-- The command of the rule that links. -/
def linkCommand : String := "$cxx $ldflags $in -o $out"

def hostRule : RuleText where
  name := (ruleOf .host).toList
  bindings := [named "command" (commandOf .host), named "depfile" "$out.d", named "deps" "gcc"]

def deviceRule : RuleText where
  name := (ruleOf .device).toList
  bindings := [named "command" (commandOf .device)]

def linkRuleText : RuleText where
  name := linkRule.toList
  bindings := [named "command" linkCommand]

/-- The edge that links all objects into the library. -/
def linkEdge (plan : Plan) : Edge where
  output := plan.library.toList
  rule := linkRule.toList
  inputs := plan.edges.map fun edge => edge.object.toList

/-- What the file of a plan is meant to say. -/
def contents (plan : Plan) : Contents where
  assignments :=
    [named "ninja_required_version" "1.3", named "cxx" plan.cxx] ++
      plan.nvcc.toList.map (named "nvcc") ++
      [named "cflags" (String.intercalate " " plan.hostFlags)] ++
      plan.nvcc.toList.map
        (fun _ => named "cuda_flags" (String.intercalate " " plan.deviceFlags)) ++
      [named "ldflags" (String.intercalate " " plan.linkFlags)]
  rules := [hostRule] ++ plan.nvcc.toList.map (fun _ => deviceRule) ++ [linkRuleText]
  edges := plan.edges.map ObjectEdge.edge ++ [plan.linkEdge]
  defaults := [plan.library.toList]

/-! ### Line by line -/

def toolLines (plan : Plan) : List Line :=
  [.variable "ninja_required_version".toList "1.3".toList,
    .variable "cxx".toList plan.cxx.toList] ++
    plan.nvcc.toList.map (fun program => .variable "nvcc".toList program.toList) ++ [.blank]

def flagLines (plan : Plan) : List Line :=
  [.variable "cflags".toList (String.intercalate " " plan.hostFlags).toList] ++
    plan.nvcc.toList.map (fun _ => .variable "cuda_flags".toList
      (String.intercalate " " plan.deviceFlags).toList) ++
    [.variable "ldflags".toList (String.intercalate " " plan.linkFlags).toList, .blank]

def ruleLines (plan : Plan) : List Line :=
  [.rule (ruleOf .host).toList, .binding "command".toList (commandOf .host).toList,
      .binding "depfile".toList "$out.d".toList, .binding "deps".toList "gcc".toList, .blank] ++
    plan.nvcc.toList.flatMap (fun _ => [.rule (ruleOf .device).toList,
      .binding "command".toList (commandOf .device).toList, .blank]) ++
    [.rule linkRule.toList, .binding "command".toList linkCommand.toList, .blank]

def graphLines (plan : Plan) : List Line :=
  plan.edges.map (Line.edge ∘ ObjectEdge.edge) ++
    [.blank, .edge plan.linkEdge, .blank, .default plan.library.toList, .blank]

/-- What the lines of a plan's file are meant to say. -/
def said (plan : Plan) : List Line :=
  plan.toolLines ++ plan.flagLines ++ plan.ruleLines ++ plan.graphLines

theorem foldlM_add_edges (edges : List ObjectEdge) (contents : Contents) :
    (edges.map (Line.edge ∘ ObjectEdge.edge)).foldlM Contents.add contents =
      some { contents with edges := contents.edges ++ edges.map ObjectEdge.edge } := by
  induction edges generalizing contents with
  | nil => simp
  | cons edge rest ih => simp [Contents.add, ih]

theorem ofLines_said (plan : Plan) : Contents.ofLines plan.said = some plan.contents := by
  unfold Contents.ofLines said toolLines flagLines ruleLines graphLines
  simp only [List.foldlM_append]
  cases hnvcc : plan.nvcc <;>
    simp [hnvcc, Contents.add, Contents.bindLast, foldlM_add_edges, contents, named, hostRule,
      deviceRule, linkRuleText]

/-- The compilers' names read back, the CUDA compiler's if there is one. -/
theorem readAs_toolStatements {plan : Plan} (h : plan.contents.Expressible) :
    ReadAs plan.toolStatements plan.toolLines := by
  have hversion : ReadAs [.variable "ninja_required_version" "1.3"]
      [.variable "ninja_required_version".toList "1.3".toList] := ⟨by decide, by decide⟩
  have hcxx := readAs_variable "cxx" (by decide)
    (h.values (named "cxx" plan.cxx) (by simp [contents]))
  have hnvcc : ReadAs (plan.whenDevice fun program => [.variable "nvcc" (escapeValue program)])
      (plan.nvcc.toList.map fun program => .variable "nvcc".toList program.toList) := by
    unfold whenDevice
    cases hprogram : plan.nvcc with
    | none => exact ReadAs.nil
    | some program =>
        exact readAs_variable _ (by decide)
          (h.values (named "nvcc" program) (by simp [contents, hprogram]))
  exact ((hversion.cons hcxx).append hnvcc).append readAs_blank

theorem readAs_flagStatements {plan : Plan} (h : plan.contents.Expressible) :
    ReadAs plan.flagStatements plan.flagLines := by
  have hhost := readAs_variable "cflags" (by decide)
    (h.values (named "cflags" (String.intercalate " " plan.hostFlags)) (by simp [contents]))
  have hdevice : ReadAs
      (plan.whenDevice fun _ => [.variable "cuda_flags" (joinFlags plan.deviceFlags)])
      (plan.nvcc.toList.map fun _ =>
        .variable "cuda_flags".toList (String.intercalate " " plan.deviceFlags).toList) := by
    unfold whenDevice
    cases hprogram : plan.nvcc with
    | none => exact ReadAs.nil
    | some program =>
        exact readAs_variable _ (by decide)
          (h.values (named "cuda_flags" (String.intercalate " " plan.deviceFlags))
            (by simp [contents, hprogram]))
  have hlink := readAs_variable "ldflags" (by decide)
    (h.values (named "ldflags" (String.intercalate " " plan.linkFlags)) (by simp [contents]))
  exact (hhost.append hdevice).append (hlink.cons readAs_blank)

theorem readAs_hostRule :
    ReadAs [.rule (ruleOf .host) (commandOf .host), .depfile "$out.d" "gcc", .blank]
      [.rule (ruleOf .host).toList, .binding "command".toList (commandOf .host).toList,
        .binding "depfile".toList "$out.d".toList, .binding "deps".toList "gcc".toList, .blank] :=
  ⟨by decide, by decide⟩

theorem readAs_deviceRule :
    ReadAs [.rule (ruleOf .device) (commandOf .device), .blank]
      [.rule (ruleOf .device).toList, .binding "command".toList (commandOf .device).toList,
        .blank] :=
  ⟨by decide, by decide⟩

theorem readAs_linkRule :
    ReadAs [.rule linkRule linkCommand, .blank]
      [.rule linkRule.toList, .binding "command".toList linkCommand.toList, .blank] :=
  ⟨by decide, by decide⟩

theorem readAs_ruleStatements (plan : Plan) :
    ReadAs plan.ruleStatements plan.ruleLines := by
  have hdevice : ReadAs
      (plan.whenDevice fun _ => [.rule (ruleOf .device) (commandOf .device), .blank])
      (plan.nvcc.toList.flatMap fun _ => [.rule (ruleOf .device).toList,
        .binding "command".toList (commandOf .device).toList, .blank]) := by
    unfold whenDevice
    cases plan.nvcc with
    | none => exact ReadAs.nil
    | some program => exact readAs_deviceRule
  exact (readAs_hostRule.append hdevice).append readAs_linkRule

theorem ruleOf_all (compiler : Compiler) :
    (ruleOf compiler).toList ≠ [] ∧ (ruleOf compiler).toList.all isNameChar = true := by
  cases compiler <;> decide

/-- By induction on the compilations, each a statement of its own. -/
theorem readAs_edges {edges : List ObjectEdge}
    (houtputs : ∀ edge ∈ edges, IsPath edge.object.toList)
    (hsources : ∀ edge ∈ edges, IsPath edge.source.display.toList) :
    ReadAs (edges.map edgeStatement) (edges.map (Line.edge ∘ ObjectEdge.edge)) := by
  induction edges with
  | nil => exact ReadAs.nil
  | cons edge rest ih =>
      obtain ⟨houtput, houtputs⟩ := List.forall_mem_cons.mp houtputs
      obtain ⟨hsource, hsources⟩ := List.forall_mem_cons.mp hsources
      obtain ⟨hne, hall⟩ := ruleOf_all edge.compiler
      have hedge : ReadAs [edgeStatement edge] [.edge edge.edge] :=
        readAs_build _ [edge.source.display] houtput hne hall (by simpa using hsource)
      exact hedge.cons (ih houtputs hsources)

theorem readAs_graphStatements {plan : Plan} (h : plan.contents.Expressible) :
    ReadAs plan.graphStatements plan.graphLines := by
  have houtputs : ∀ edge ∈ plan.edges, IsPath edge.object.toList := fun edge hedge =>
    h.outputs edge.edge (List.mem_append_left _ (List.mem_map_of_mem hedge))
  have hsources : ∀ edge ∈ plan.edges, IsPath edge.source.display.toList := fun edge hedge =>
    h.inputs edge.edge (List.mem_append_left _ (List.mem_map_of_mem hedge)) _
      List.mem_cons_self
  have hlibrary : IsPath plan.library.toList := h.defaults _ (by simp [contents])
  have hlink : ReadAs [.build (escapePath plan.library) linkRule
      (plan.edges.map fun edge => escapePath edge.object)] [.edge plan.linkEdge] := by
    have hbuild := readAs_build linkRule (plan.edges.map (·.object)) hlibrary
      (by decide) (by decide) (by simpa using houtputs)
    simpa [linkEdge, List.map_map, Function.comp_def] using hbuild
  exact (readAs_edges houtputs hsources).append (readAs_blank.cons (hlink.cons
    (readAs_blank.cons ((readAs_default hlibrary).cons readAs_blank))))

/-- **A file says what it is meant to say, if a file can say it.** -/
theorem ofText?_statements {plan : Plan} (h : plan.contents.Expressible) :
    Contents.ofText? (fileText plan.statements).toList = some plan.contents := by
  have hread : ReadAs plan.statements plan.said :=
    (((readAs_toolStatements h).append (readAs_flagStatements h)).append
      (readAs_ruleStatements plan)).append (readAs_graphStatements h)
  rw [ofText?_fileText hread, ofLines_said]

end Plan

end NativeExtension.Ninja
