import NativeExtension.Proofs.Names
import NativeExtension.Proofs.Ninja.ReadBack

/-!
# NativeExtension.Proofs.Ninja.DefaultTarget

**The default target of a description is the library that the toolchain names.** The targets of a
file are those of its lines that name one (`defaultTargets`), and a file that can be read has no
others (`defaults_of_ofText?`). A description ends with the line that names the library, whatever
stands before it, so the last of its targets is the library of an accepted name
(`getLast?_defaultTargets_render`). It is the only one if the description is legible
(`defaultTargets_of_legible`): other targets can only come from a text that breaks a line.
-/

namespace NativeExtension.Ninja

/-- The target that a line names, if it names one. -/
def Line.target? : Line → Option (List Char)
  | .default target => some target
  | _ => none

/-- The default targets of a file: those of its lines that name one, without the escapes. -/
def defaultTargets (text : List Char) : List (List Char) :=
  (Text.fields '\n' text).filterMap fun line => (readLine line).bind Line.target?

/-! ### Files that can be read -/

theorem Contents.defaults_add {contents contents' : Contents} {line : Line}
    (h : contents.add line = some contents') :
    contents'.defaults = contents.defaults ++ line.target?.toList := by
  cases line with
  | binding key template =>
      obtain ⟨rules, -, rfl⟩ := Option.map_eq_some_iff.mp h
      exact (List.append_nil _).symm
  | default target =>
      cases h
      rfl
  | _ =>
      cases h
      exact (List.append_nil _).symm

/-- By induction on the lines, each adding at most one target. -/
theorem Contents.defaults_foldlM {lines : List Line} {contents contents' : Contents}
    (h : lines.foldlM Contents.add contents = some contents') :
    contents'.defaults = contents.defaults ++ lines.filterMap Line.target? := by
  induction lines generalizing contents with
  | nil =>
      cases h
      simp
  | cons line rest ih =>
      obtain ⟨next, hnext, hrest⟩ := Option.bind_eq_some_iff.mp h
      rw [ih hrest, Contents.defaults_add hnext, List.append_assoc]
      cases hline : line.target? <;> simp [hline]

/-- What is picked out of the results can be picked out while they are made. -/
theorem filterMap_of_mapM {α β γ : Type} {f : α → Option β} {g : β → Option γ} {xs : List α}
    {ys : List β} (h : xs.mapM f = some ys) :
    xs.filterMap (fun x => (f x).bind g) = ys.filterMap g := by
  induction xs generalizing ys with
  | nil =>
      cases h
      rfl
  | cons x rest ih =>
      rw [List.mapM_cons] at h
      obtain ⟨y, hy, h⟩ := Option.bind_eq_some_iff.mp h
      obtain ⟨others, hothers, h⟩ := Option.bind_eq_some_iff.mp h
      cases h
      simp [List.filterMap_cons, hy, ih hothers]

/-- **A file that can be read has the default targets of its lines.** -/
theorem defaults_of_ofText? {text : List Char} {contents : Contents}
    (h : Contents.ofText? text = some contents) : contents.defaults = defaultTargets text := by
  unfold Contents.ofText? at h
  split at h
  · next lines hlines =>
    obtain ⟨said, hread, hadded⟩ := Option.bind_eq_some_iff.mp h
    have hfields : Text.fields '\n' text = lines.reverse ++ [[]] := by
      rw [← List.reverse_reverse (Text.fields '\n' text), hlines, List.reverse_cons]
    -- nothing stands behind the last line end
    have hlast : (readLine []).bind Line.target? = none := by decide
    rw [Contents.defaults_foldlM hadded, defaultTargets, hfields, List.filterMap_append,
      filterMap_of_mapM hread]
    simp [hlast]
  · cases h

/-! ### Descriptions -/

/-- The line that names a target. -/
def defaultLine (target : List Char) : List Char :=
  "default".toList ++ ' ' :: target.flatMap escapedPathChar

theorem unbroken_defaultLine {target : List Char} (h : Unbroken target) :
    Unbroken (defaultLine target) :=
  unbroken_append.mpr ⟨by decide, unbroken_cons.mpr ⟨by decide, unbroken_escapedPath h⟩⟩

/-- A description ends with the line of its library. -/
theorem toList_fileText_statements (plan : Plan) :
    ∃ before, (fileText plan.statements).toList =
      before ++ '\n' :: (defaultLine plan.library.toList ++ ['\n', '\n']) := by
  obtain ⟨before, hbefore⟩ : ∃ before, plan.statements =
      before ++ [.blank, .default (escapePath plan.library), .blank] := by
    refine ⟨plan.toolStatements ++ plan.flagStatements ++ plan.ruleStatements ++
      (plan.edges.map Plan.edgeStatement ++ [.blank, .build (escapePath plan.library) linkRule
        (plan.edges.map fun edge => escapePath edge.object)]), ?_⟩
    simp [Plan.statements, Plan.graphStatements, List.append_assoc]
  have htext : ∀ statements, (fileText statements).toList =
      statements.flatMap fun statement => statement.text.toList := by
    simp [fileText, String.toList_join, List.flatMap_map]
  have hlines : (Statement.default (escapePath plan.library)).lines =
      [defaultLine plan.library.toList] := by
    unfold defaultLine
    rw [Statement.lines, toList_escapePath]
  have hlast : (Statement.default (escapePath plan.library)).text.toList =
      defaultLine plan.library.toList ++ ['\n'] := by
    rw [Statement.toList_text, hlines, List.flatMap_singleton]
  refine ⟨(fileText before).toList, ?_⟩
  rw [hbefore, htext, htext, List.flatMap_append, List.flatMap_cons, List.flatMap_cons, hlast]
  simp [Statement.text]

/-- An accepted name makes a library that a path can name. -/
theorem isPath_library {name : String} (h : validateName name = .ok ()) (toolchain : Toolchain) :
    IsPath (toolchain.artifactName name).toList := by
  have habsent : ∀ c, isIdentifierPart c = false → c ∉ name.toList := by
    intro c hc hmem
    rw [isIdentifierPart_of_validateName h hmem] at hc
    cases hc
  refine (isPath_artifactName toolchain name).mpr ⟨?_, habsent '|' (by decide)⟩
  exact unbroken_iff.mpr ⟨habsent _ (by decide), habsent _ (by decide), habsent _ (by decide)⟩

/-- **The last default target of a description is the library that the toolchain names.** -/
theorem getLast?_defaultTargets_render {spec : BuildSpec} {toolchain : Toolchain} {text : String}
    (hname : validateName spec.name = .ok ()) (hrender : render spec toolchain = .ok text) :
    (defaultTargets text.toList).getLast? = some (toolchain.artifactName spec.name).toList := by
  obtain ⟨includes, nvcc, link, -, -, -, rfl⟩ := render_settles hrender
  obtain ⟨before, hbefore⟩ :=
    toList_fileText_statements (settled spec toolchain includes nvcc link)
  have htarget := isPath_library hname toolchain
  have hread : readLine (defaultLine (toolchain.artifactName spec.name).toList) =
      some (.default (toolchain.artifactName spec.name).toList) := readLine_default htarget
  have hblank : (readLine []).bind Line.target? = none := by decide
  -- the three lines at the end: the one that names the library, and two empty ones
  have hfields : Text.fields '\n'
      (defaultLine (toolchain.artifactName spec.name).toList ++ ['\n', '\n']) =
      [defaultLine (toolchain.artifactName spec.name).toList, [], []] :=
    Text.fields_append_cons (unbroken_defaultLine htarget.2.1).newline_notMem _
  rw [defaultTargets, hbefore, Text.fields_append_separator, List.filterMap_append]
  change (_ ++ List.filterMap _ (Text.fields '\n'
    (defaultLine (toolchain.artifactName spec.name).toList ++ ['\n', '\n']))).getLast? = _
  rw [hfields]
  simp [hread, hblank, Line.target?]

/-- A legible description has no other default target. -/
theorem defaultTargets_of_legible {spec : BuildSpec} {toolchain : Toolchain} {text : String}
    (hrender : render spec toolchain = .ok text)
    (hlegible : ∀ includes, includeDirs spec toolchain = .ok includes →
      Legible spec toolchain includes) :
    defaultTargets text.toList = [(toolchain.artifactName spec.name).toList] := by
  obtain ⟨includes, nvcc, link, hincludes, hnvcc, hlink, rfl⟩ := render_settles hrender
  have hexpressible := (expressible_settled hnvcc hlink).mpr (hlegible includes hincludes)
  exact (defaults_of_ofText? (Plan.ofText?_statements hexpressible)).symm

end NativeExtension.Ninja
