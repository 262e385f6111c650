import NativeExtension.Proofs.Ninja.Lines
import NativeExtension.Proofs.Ninja.Respelling
import NativeExtension.Proofs.Path.Tidy
import NativeExtension.Proofs.Text.Telling

/-!
# NativeExtension.Proofs.Ninja.Spellings

**A description shows its paths as they are spelled.** Equal requests have the same description if
what it shows of their paths, and of the toolchain's, is spelled the same (`SpelledAlike`), and
only then (`render_eq_iff_spelledAlike`). A checked request has its paths tidied, so what can still
differ there are a second slash in front and a slash at the end.
-/

namespace NativeExtension.Ninja

/-! ### Codes and quotes -/

/-- A code that writes most characters as they are and the others behind one that is no mark. -/
theorem sparesMarks_of_escapes {code : Char → List Char} (escape : Char) (hescape : ¬IsMark escape)
    (h : ∀ c, code c = [c] ∨ ¬IsMark c ∧ ∃ rest, code c = escape :: rest) : SparesMarks code where
  mark c hc := (h c).resolve_right fun hother => hother.1 hc
  other c hc := by
    rcases h c with hself | ⟨-, rest, hrest⟩
    · rw [hself]
      exact ⟨List.cons_ne_nil _ _, closes_cons hc _⟩
    · rw [hrest]
      exact ⟨List.cons_ne_nil _ _, closes_cons hescape _⟩

theorem sparesMarks_posix : SparesMarks Posix.quotedChar := by
  refine sparesMarks_of_escapes '\'' (by decide) fun c => ?_
  unfold Posix.quotedChar
  split
  · next hquote => exact Or.inr ⟨by rw [hquote]; decide, _, rfl⟩
  · exact Or.inl rfl

theorem sparesMarks_windows : SparesMarks Windows.quotedChar := by
  refine sparesMarks_of_escapes '\\' (by decide) fun c => ?_
  unfold Windows.quotedChar
  split
  · next hquote => exact Or.inr ⟨by rw [hquote]; decide, _, rfl⟩
  · exact Or.inl rfl

theorem sparesMarks_value : SparesMarks escapedValueChar := by
  refine sparesMarks_of_escapes '$' (by decide) fun c => ?_
  unfold escapedValueChar
  split
  · next hdollar => exact Or.inr ⟨by rw [hdollar]; decide, _, rfl⟩
  · exact Or.inl rfl

/-- Neither a slash nor a dot has to be escaped in a path. -/
theorem sparesMarks_path : SparesMarks escapedPathChar := by
  refine sparesMarks_of_escapes '$' (by decide) fun c => ?_
  unfold escapedPathChar
  split
  · next hspecial =>
    refine Or.inr ⟨?_, _, rfl⟩
    rintro (rfl | rfl) <;> exact absurd hspecial (by decide)
  · exact Or.inl rfl

/-- A text as it stands in the value of a variable. -/
def inValue (text : List Char) : List Char := text.flatMap escapedValueChar

theorem head?_inValue (text : List Char) : (inValue text).head? = text.head? := by
  cases text with
  | nil => rfl
  | cons c rest =>
      rw [inValue, List.flatMap_cons, escapedValueChar]
      split
      · next hdollar => simp [hdollar]
      · rfl

/-- An argument that is bare or stands between quotes is told apart in the value of a variable. -/
theorem tells_quoted {code : Char → List Char} (hcode : SparesMarks code) (quote : Char)
    (hquote : ¬IsMark quote) (hself : escapedValueChar quote = [quote]) (bare : List Char → Prop)
    [DecidablePred bare] (hbare : ∀ text, bare text → text ≠ [] ∧ text.head? ≠ some quote)
    {a b : List Char} (hletters : letters a = letters b) :
    Tells (a = b) (inValue (if bare a then a else quote :: a.flatMap code ++ [quote]))
      (inValue (if bare b then b else quote :: b.flatMap code ++ [quote])) := by
  have hquoted : ∀ text : List Char, inValue (quote :: text.flatMap code ++ [quote]) =
      [quote] ++ text.flatMap (fun c => (code c).flatMap escapedValueChar) ++ [quote] := by
    intro text
    simp [inValue, hself, List.flatMap_assoc]
  -- one is bare and the other begins with a quote
  have hmixed : ∀ text others, bare text → ∀ r r',
      inValue text ++ r ≠ inValue (quote :: others) ++ r' := by
    intro text others htext r r' heq
    obtain ⟨hne, hhead⟩ := hbare text htext
    obtain ⟨c, rest, rfl⟩ := List.exists_cons_of_ne_nil hne
    have hfirst := congrArg List.head? heq
    rw [List.head?_append, List.head?_append, head?_inValue, head?_inValue] at hfirst
    exact hhead hfirst
  by_cases ha : bare a
  · rw [if_pos ha]
    by_cases hb : bare b
    · rw [if_pos hb]
      exact sparesMarks_value.tells hletters
    · rw [if_neg hb]
      exact fun r r' _ _ heq => absurd heq (hmixed a _ ha r r')
  · rw [if_neg ha]
    by_cases hb : bare b
    · rw [if_pos hb]
      exact fun r r' _ _ heq => absurd heq.symm (hmixed b _ hb r' r)
    · rw [if_neg hb, hquoted, hquoted]
      exact (((hcode.comp sparesMarks_value).tells hletters).between [quote] hquote []).tells

/-- **A quoted path in the value of a variable tells its spelling.** -/
theorem tells_quotePath (os : Os) {p q : Path} (h : p.Equiv q) :
    Tells (p = q) (inValue (quotePath os p).toList) (inValue (quotePath os q).toList) := by
  have hposix : Tells (p = q) (inValue (Posix.quote p.display).toList)
      (inValue (Posix.quote q.display).toList) := by
    rw [Posix.toList_quote, Posix.toList_quote]
    refine (tells_quoted sparesMarks_posix '\'' (by decide) rfl
      (fun text => text ≠ [] ∧ text.all Posix.isBare = true) ?_ h.letters_display).imp
      fun hchars => h.eq_of_display_eq (String.toList_injective hchars)
    rintro text ⟨hne, hall⟩
    refine ⟨hne, fun hhead => ?_⟩
    exact absurd (List.all_eq_true.mp hall _ (List.mem_of_head? hhead)) (by decide)
  have hwindows : Tells (p = q) (inValue (Windows.quote p.display).toList)
      (inValue (Windows.quote q.display).toList) := by
    rw [Windows.toList_quote, Windows.toList_quote]
    refine (tells_quoted sparesMarks_windows '"' (by decide) rfl
      (fun text => text ≠ [] ∧ (!text.any Windows.isActive) = true) ?_ h.letters_display).imp
      fun hchars => h.eq_of_display_eq (String.toList_injective hchars)
    rintro text ⟨hne, hall⟩
    refine ⟨hne, fun hhead => ?_⟩
    rw [Bool.not_eq_true', List.any_eq_false] at hall
    exact hall _ (List.mem_of_head? hhead) rfl
  cases os with
  | linux => exact hposix
  | macos => exact hposix
  | windows => exact hwindows

/-! ### Flags -/

/-- Flags behind the first stand each behind a space, which is what lets them be told apart
one by one. -/
theorem toList_joinFlags_cons (flag : String) (rest : List String) :
    (joinFlags (flag :: rest)).toList =
      inValue flag.toList ++ rest.flatMap fun other => ' ' :: inValue other.toList := by
  have hjoined : (String.intercalate " " (flag :: rest)).toList =
      flag.toList ++ rest.flatMap fun other => ' ' :: other.toList := by
    rw [String.toList_intercalate]
    induction rest generalizing flag with
    | nil => simp
    | cons next others ih =>
        rw [List.map_cons, List.map_cons, List.intercalate_cons_cons, ← List.map_cons, ih]
        simp
  have hspace : ∀ text : List Char, inValue (' ' :: text) = ' ' :: inValue text := fun _ => rfl
  rw [joinFlags, toList_escapeValue, hjoined, List.flatMap_append, List.flatMap_assoc]
  rfl

/-- Directories behind an option, as they stand in the value of a variable. -/
theorem tells_option (option : String) (os : Os) {p q : Path} (h : p.Equiv q) :
    Tells (p = q) (' ' :: inValue (option ++ quotePath os p).toList)
      (' ' :: inValue (option ++ quotePath os q).toList) := by
  have hsplit : ∀ dir : Path, ' ' :: inValue (option ++ quotePath os dir).toList =
      (' ' :: inValue option.toList) ++ inValue (quotePath os dir).toList := by
    simp [inValue]
  rw [hsplit, hsplit]
  exact (tells_quotePath os h).behind _

/-- Flags in the value of a variable start with a space, so they close what is before them. -/
theorem closes_flags (flags : List String)
    (hne : (flags.flatMap fun flag => ' ' :: inValue flag.toList) ≠ []) :
    Closes (flags.flatMap fun flag => ' ' :: inValue flag.toList) := by
  cases flags with
  | nil => exact absurd rfl hne
  | cons flag rest => exact closes_cons (by decide) _

/-- **Flags with other spellings in their midst tell the spellings.** -/
theorem tells_joinFlags {P : Prop} (first : String) (front : List String)
    {middle middle' : List String} (back : List String)
    (h : Tells P (middle.flatMap fun flag => ' ' :: inValue flag.toList)
      (middle'.flatMap fun flag => ' ' :: inValue flag.toList)) :
    Tells P (joinFlags (first :: (front ++ middle ++ back))).toList
      (joinFlags (first :: (front ++ middle' ++ back))).toList := by
  have hback := h.append (tells_same (back.flatMap fun flag => ' ' :: inValue flag.toList))
    (closes_flags back) (closes_flags back)
  simp only [toList_joinFlags_cons, List.flatMap_append, List.append_assoc]
  exact ((hback.behind _).behind _).imp And.left

variable {spec spec' : BuildSpec} {toolchain toolchain' : Toolchain}

/-- Among the flags of the C++ compiler only the directories can be spelled in two ways. -/
theorem tells_hostFlags (h : spec.Equiv spec') (ht : toolchain.Equiv toolchain')
    {includes includes' : List Path} (hdirs : List.Forall₂ Path.Equiv includes includes') :
    Tells (includes = includes') (joinFlags (hostFlags spec includes toolchain.os)).toList
      (joinFlags (hostFlags spec' includes' toolchain'.os)).toList := by
  have hmiddle : Tells (includes = includes')
      ((includes.map fun dir => "-I" ++ quotePath toolchain.os dir).flatMap
        fun flag => ' ' :: inValue flag.toList)
      ((includes'.map fun dir => "-I" ++ quotePath toolchain.os dir).flatMap
        fun flag => ' ' :: inValue flag.toList) := by
    rw [List.flatMap_map, List.flatMap_map]
    exact tells_flatMap hdirs (fun _ => closes_cons (by decide) _) (fun _ => List.cons_ne_nil _ _)
      fun _ _ hdir => tells_option "-I" toolchain.os hdir
  unfold hostFlags
  rw [← h.name, ← h.hostFlags, ← ht.os]
  exact tells_joinFlags "-fPIC" ["-std=c++17", "-DARTIFACT_NAME=" ++ spec.name] spec.hostFlags
    hmiddle

/-- Among the flags of the linker only the directory of CUDA's libraries can. -/
theorem tells_linkFlags (h : spec.Equiv spec') (ht : toolchain.Equiv toolchain')
    {link link' : List String} (hlink : linkFlags spec toolchain = .ok link)
    (hlink' : linkFlags spec' toolchain' = .ok link') :
    Tells (spec.hasDevice = true → toolchain.cudaLibDir = toolchain'.cudaLibDir)
      (joinFlags link).toList (joinFlags link').toList := by
  rcases linkFlags_ok hlink with ⟨hhost, rfl⟩ | ⟨hdevice, dir, hdir, rfl⟩ <;>
    rcases linkFlags_ok hlink' with ⟨hhost', rfl⟩ | ⟨hdevice', dir', hdir', rfl⟩
  · rw [← h.linkFlags, ← ht.os]
    exact (tells_same _).imp fun _ hdevice => absurd hdevice (by simp [hhost])
  · rw [hasDevice_congr h, hdevice'] at hhost
    cases hhost
  · rw [hasDevice_congr h, hhost'] at hdevice
    cases hdevice
  · have hdirs : dir.Equiv dir' := (sameOutcome_cudaLibDir ht).of_ok hdir hdir'
    rw [← h.linkFlags, ← ht.os]
    have hmiddle : Tells (dir = dir' ∧ True)
        (["-L" ++ quotePath toolchain.os dir, "-lcudart"].flatMap
          fun flag => ' ' :: inValue flag.toList)
        (["-L" ++ quotePath toolchain.os dir', "-lcudart"].flatMap
          fun flag => ' ' :: inValue flag.toList) :=
      (tells_option "-L" toolchain.os hdirs).append
        (tells_same (' ' :: inValue "-lcudart".toList ++ []))
        (fun _ => closes_cons (by decide) _) (fun _ => closes_cons (by decide) _)
    refine (tells_joinFlags "-shared" spec.linkFlags toolchain.os.openSymbolFlags hmiddle).imp ?_
    rintro ⟨rfl, -⟩ -
    rw [hdir, hdir']

/-! ### Statements -/

theorem toList_fileText_append (front back : List Statement) :
    (fileText (front ++ back)).toList = (fileText front).toList ++ (fileText back).toList := by
  simp [fileText, String.toList_join]

theorem toList_fileText_singleton (s : Statement) : (fileText [s]).toList = s.text.toList := by
  simp [fileText]

theorem tellsEnded_variable {P : Prop} (key : String) {value value' : String}
    (h : Tells P value.toList value'.toList) :
    TellsEnded P (fileText [.variable key value]).toList
      (fileText [.variable key value']).toList := by
  have htext : ∀ v : String, (fileText [.variable key v]).toList =
      key.toList ++ " = ".toList ++ v.toList ++ ['\n'] := by
    intro v
    rw [toList_fileText_singleton, Statement.text]
    simp
  rw [htext, htext]
  exact h.between _ (by decide) []

/-- Equal sources have equal stems; only a source without a file name shows its whole path. -/
theorem letters_objectName {p q : Path} (h : p.Equiv q) :
    letters (objectName p).toList = letters (objectName q).toList := by
  unfold objectName
  rw [← h.stem?]
  cases p.stem? with
  | some stem => rfl
  | none =>
      have hletters : letters (p.display.toList) = letters (q.display.toList) := h.letters_display
      rw [String.toList_append, String.toList_append, letters_append, letters_append]
      exact congrArg (· ++ letters ".o".toList) hletters

/-- **The statement of a compilation tells the spelling of its source.** -/
theorem tellsEnded_edge {p q : Path} (h : p.Equiv q) :
    TellsEnded (p = q) (Plan.edgeStatement (objectEdge p)).text.toList
      (Plan.edgeStatement (objectEdge q)).text.toList := by
  have htext : ∀ source : Path, (Plan.edgeStatement (objectEdge source)).text.toList =
      ("build ".toList ++ (escapePath (objectName source)).toList ++
        ':' :: (" ".toList ++ (ruleOf source.compiler).toList ++ " ".toList)) ++
      ([] ++ (escapePath source.display).toList ++ ['\n']) := by
    intro source
    simp [Plan.edgeStatement, objectEdge, Statement.text]
  rw [htext, htext, ← h.compiler]
  have hobject : Tells True (escapePath (objectName p)).toList
      (escapePath (objectName q)).toList := by
    rw [toList_escapePath, toList_escapePath]
    exact (sparesMarks_path.tells (letters_objectName h)).imp fun _ => trivial
  have hsource : Tells (p = q) (escapePath p.display).toList (escapePath q.display).toList := by
    rw [toList_escapePath, toList_escapePath]
    exact (sparesMarks_path.tells h.letters_display).imp
      fun hchars => h.eq_of_display_eq (String.toList_injective hchars)
  exact ((hobject.between _ (by decide) _).append (hsource.between _ (by decide) _)).imp And.right

theorem tellsEnded_edges {sources sources' : List Path}
    (h : List.Forall₂ Path.Equiv sources sources') :
    TellsEnded (sources = sources')
      (fileText ((sources.map objectEdge).map Plan.edgeStatement)).toList
      (fileText ((sources'.map objectEdge).map Plan.edgeStatement)).toList := by
  have htext : ∀ paths : List Path,
      (fileText ((paths.map objectEdge).map Plan.edgeStatement)).toList =
        paths.flatMap fun p => (Plan.edgeStatement (objectEdge p)).text.toList := by
    simp [fileText, String.toList_join, List.flatMap_map]
  rw [htext, htext]
  exact tellsEnded_flatMap h fun _ _ => tellsEnded_edge

/-- Of the tools only the CUDA compiler is named by a path. -/
theorem tellsEnded_toolStatements (h : spec.Equiv spec') (ht : toolchain.Equiv toolchain')
    {includes includes' : List Path} {nvcc nvcc' : Option String} {link link' : List String}
    (hnvcc : nvccArgument spec toolchain = .ok nvcc)
    (hnvcc' : nvccArgument spec' toolchain' = .ok nvcc') :
    TellsEnded (spec.hasDevice = true → toolchain.nvcc = toolchain'.nvcc)
      (fileText (settled spec toolchain includes nvcc link).toolStatements).toList
      (fileText (settled spec' toolchain' includes' nvcc' link').toolStatements).toList := by
  unfold Plan.toolStatements
  simp only [toList_fileText_append, settled, ← ht.cxx]
  rcases nvccArgument_ok hnvcc with ⟨hhost, rfl⟩ | ⟨hdevice, program, hprogram, rfl⟩ <;>
    rcases nvccArgument_ok hnvcc' with ⟨hhost', rfl⟩ | ⟨hdevice', program', hprogram', rfl⟩
  · exact (tellsEnded_same _).imp fun _ hdevice => absurd hdevice (by simp [hhost])
  · rw [hasDevice_congr h, hdevice'] at hhost
    cases hhost
  · rw [hasDevice_congr h, hhost'] at hdevice
    cases hdevice
  · have hprograms : program.Equiv program' := (sameOutcome_nvcc ht).of_ok hprogram hprogram'
    have hvalue := tells_quotePath toolchain.os hprograms
    simp only [inValue, ← toList_escapeValue] at hvalue
    rw [← ht.os]
    refine (((tellsEnded_same _).append (tellsEnded_variable "nvcc" hvalue)).append
      (tellsEnded_same _)).imp ?_
    rintro ⟨⟨-, rfl⟩, -⟩ -
    rw [hprogram, hprogram']

theorem whenDevice_congr {p p' : Plan} (h : p.nvcc.isSome = p'.nvcc.isSome)
    (statements : List Statement) :
    (p.whenDevice fun _ => statements) = p'.whenDevice fun _ => statements := by
  unfold Plan.whenDevice
  cases hp : p.nvcc <;> cases hp' : p'.nvcc <;> simp_all

/-- The variables are told apart one after the other, since each ends its line. -/
theorem tellsEnded_flagStatements {P Q : Prop} {p p' : Plan}
    (hhost : Tells P (joinFlags p.hostFlags).toList (joinFlags p'.hostFlags).toList)
    (hdevice : p.deviceFlags = p'.deviceFlags) (hnvcc : p.nvcc.isSome = p'.nvcc.isSome)
    (hlink : Tells Q (joinFlags p.linkFlags).toList (joinFlags p'.linkFlags).toList) :
    TellsEnded (P ∧ Q) (fileText p.flagStatements).toList (fileText p'.flagStatements).toList := by
  have hsplit : ∀ plan : Plan, (fileText plan.flagStatements).toList =
      (fileText [.variable "cflags" (joinFlags plan.hostFlags)]).toList ++
        (fileText (plan.whenDevice fun _ =>
          [.variable "cuda_flags" (joinFlags plan.deviceFlags)])).toList ++
        ((fileText [.variable "ldflags" (joinFlags plan.linkFlags)]).toList ++
          (fileText [.blank]).toList) := by
    intro plan
    simp only [← toList_fileText_append]
    rfl
  rw [hsplit, hsplit, ← hdevice, ← whenDevice_congr hnvcc]
  refine (((tellsEnded_variable "cflags" hhost).append (tellsEnded_same _)).append
    ((tellsEnded_variable "ldflags" hlink).append (tellsEnded_same _))).imp ?_
  rintro ⟨⟨hP, -⟩, hQ, -⟩
  exact ⟨hP, hQ⟩

/-- Descriptions that are the same have the same tools, flags and compilations. -/
theorem statements_tell {P Q R : Prop} {p p' : Plan}
    (htools : TellsEnded P (fileText p.toolStatements).toList (fileText p'.toolStatements).toList)
    (hflags : TellsEnded Q (fileText p.flagStatements).toList (fileText p'.flagStatements).toList)
    (hnvcc : p.nvcc.isSome = p'.nvcc.isSome)
    (hedges : TellsEnded R (fileText (p.edges.map Plan.edgeStatement)).toList
      (fileText (p'.edges.map Plan.edgeStatement)).toList)
    (h : fileText p.statements = fileText p'.statements) : P ∧ Q ∧ R := by
  have hrules : p.ruleStatements = p'.ruleStatements := by
    rw [Plan.ruleStatements, Plan.ruleStatements, whenDevice_congr hnvcc]
  have hfront := ((htools.append hflags).append
    (tellsEnded_same (fileText p.ruleStatements).toList)).append hedges
  have hchars := congrArg String.toList h
  simp only [Plan.statements, Plan.graphStatements, toList_fileText_append, ← hrules,
    ← List.append_assoc] at hchars
  obtain ⟨⟨⟨⟨hP, hQ⟩, -⟩, hR⟩, -⟩ := hfront _ _ (by simpa only [List.append_assoc] using hchars)
  exact ⟨hP, hQ, hR⟩

/-! ### The description -/

/-- What a description shows of the paths of a request and a toolchain is spelled the same. -/
structure SpelledAlike (spec spec' : BuildSpec) (toolchain toolchain' : Toolchain) : Prop where
  sources : spec.sources = spec'.sources
  includes : includeDirs spec toolchain = includeDirs spec' toolchain'
  nvcc : spec.hasDevice = true → toolchain.nvcc = toolchain'.nvcc
  libraries : spec.hasDevice = true → toolchain.cudaLibDir = toolchain'.cudaLibDir

/-- **Equal requests that are spelled alike have the same description, or none for the same
reason.** -/
theorem SpelledAlike.render_eq (hspelled : SpelledAlike spec spec' toolchain toolchain')
    (h : spec.Equiv spec') (ht : toolchain.Equiv toolchain') :
    render spec toolchain = render spec' toolchain' := by
  have hnvcc : nvccArgument spec toolchain = nvccArgument spec' toolchain' := by
    unfold nvccArgument
    rw [← hasDevice_congr h, ← ht.os]
    split
    · next hdevice => rw [hspelled.nvcc hdevice]
    · rfl
  have hlink : linkFlags spec toolchain = linkFlags spec' toolchain' := by
    unfold linkFlags
    rw [← hasDevice_congr h, ← ht.os, ← h.linkFlags]
    split
    · next hdevice => rw [hspelled.libraries hdevice]
    · rfl
  have hsettled : settled spec toolchain = settled spec' toolchain' := by
    funext includes nvcc link
    simp only [settled, hostFlags, deviceFlags, Toolchain.artifactName, h.name, h.hostFlags,
      h.deviceFlags, ht.cxx, ht.os, hspelled.sources]
  rw [render, render, statements, statements, plan_eq, plan_eq, hspelled.includes, hnvcc, hlink,
    hsettled, hspelled.sources]

/-- **Equal requests that have the same description are spelled alike.** -/
theorem spelledAlike_of_render (h : spec.Equiv spec') (ht : toolchain.Equiv toolchain')
    {text : String} (hrender : render spec toolchain = .ok text)
    (hrender' : render spec' toolchain' = .ok text) :
    SpelledAlike spec spec' toolchain toolchain' := by
  obtain ⟨includes, nvcc, link, hincludes, hnvcc, hlink, htext⟩ := render_settles hrender
  obtain ⟨includes', nvcc', link', hincludes', hnvcc', hlink', htext'⟩ := render_settles hrender'
  have hdirs := (sameOutcome_includeDirs h ht).of_ok hincludes hincludes'
  have hsome : nvcc.isSome = nvcc'.isSome := by
    rw [isSome_nvccArgument hnvcc, isSome_nvccArgument hnvcc', hasDevice_congr h]
  have htools := @tellsEnded_toolStatements spec spec' toolchain toolchain' h ht includes includes'
    nvcc nvcc' link link' hnvcc hnvcc'
  have hhost := tells_hostFlags h ht hdirs
  have hdevice : deviceFlags spec = deviceFlags spec' := by
    rw [deviceFlags, deviceFlags, h.deviceFlags]
  have hflags := @tellsEnded_flagStatements _ _ (settled spec toolchain includes nvcc link)
    (settled spec' toolchain' includes' nvcc' link') hhost hdevice hsome
    (tells_linkFlags h ht hlink hlink')
  obtain ⟨htool, ⟨hincludesEq, hlibrary⟩, hsources⟩ := statements_tell htools hflags hsome
    (tellsEnded_edges h.sources) (htext.symm.trans htext')
  refine ⟨hsources, ?_, htool, hlibrary⟩
  rw [hincludes, hincludes', hincludesEq]

/-! ### Checked requests -/

/-- Tidied paths that are equal differ in their ends alone. -/
theorem eq_iff_sameEnds {ps qs : List Path} (h : List.Forall₂ Path.Equiv ps qs)
    (hps : ∀ p ∈ ps, p.IsTidy) (hqs : ∀ q ∈ qs, q.IsTidy) :
    ps = qs ↔ List.Forall₂ Path.SameEnds ps qs := by
  induction h with
  | nil => exact iff_of_true rfl .nil
  | cons hfirst _ ih =>
      obtain ⟨hp, hps⟩ := List.forall_mem_cons.mp hps
      obtain ⟨hq, hqs⟩ := List.forall_mem_cons.mp hqs
      rw [List.cons.injEq, hp.eq_iff hq hfirst, ih hps hqs, List.forall₂_cons]

/-- Equal checked requests are one request exactly if their paths have the same ends. -/
theorem spec_eq_iff_sameEnds (h : spec.Equiv spec')
    (hpaths : ∀ p ∈ spec.sources ++ spec.includes, p.IsTidy)
    (hpaths' : ∀ p ∈ spec'.sources ++ spec'.includes, p.IsTidy) :
    spec = spec' ↔ List.Forall₂ Path.SameEnds spec.sources spec'.sources ∧
      List.Forall₂ Path.SameEnds spec.includes spec'.includes := by
  obtain ⟨hsources, hincludes⟩ := List.forall_mem_append.mp hpaths
  obtain ⟨hsources', hincludes'⟩ := List.forall_mem_append.mp hpaths'
  rw [← eq_iff_sameEnds h.sources hsources hsources',
    ← eq_iff_sameEnds h.includes hincludes hincludes']
  constructor
  · rintro rfl
    exact ⟨rfl, rfl⟩
  · rintro ⟨hs, hi⟩
    obtain ⟨hname, -, hhost, hdevice, hlink, -⟩ := h
    cases spec
    cases spec'
    rw [BuildSpec.mk.injEq]
    exact ⟨hname, hs, hhost, hdevice, hlink, hi⟩

/-- **Equal checked requests have the same description exactly if it shows their paths spelled
alike.** Checking leaves a path no other freedom than a second slash in front and a slash at the
end, but these are shown, and so are the toolchain's paths as they are. Spelled alike, equal
requests also fail alike; and spelled in different ways, they both have a description or fail for
the same reason, as long as each source has a file name. -/
theorem render_eq_iff_spelledAlike {m m' : Machine} {options options' : LoadOptions}
    (hnames : ∀ name ∈ m.cwd.location, (Component.name name).IsStep)
    (hnames' : ∀ name ∈ m'.cwd.location, (Component.name name).IsStep)
    (hspec : BuildSpec.ofOptions m.currentDir options = .ok spec)
    (hspec' : BuildSpec.ofOptions m'.currentDir options' = .ok spec')
    (h : spec.Equiv spec') (ht : toolchain.Equiv toolchain') :
    (SpelledAlike spec spec' toolchain toolchain' →
      render spec toolchain = render spec' toolchain') ∧
    (∀ text text', render spec toolchain = .ok text → render spec' toolchain' = .ok text' →
      (text = text' ↔ SpelledAlike spec spec' toolchain toolchain')) ∧
    ((∀ source ∈ spec.sources, source.fileName? ≠ none) →
      SameOutcome ConfigError.Equiv (fun _ _ => True) (render spec toolchain) (render spec' toolchain')) ∧
    (spec = spec' ↔ List.Forall₂ Path.SameEnds spec.sources spec'.sources ∧
      List.Forall₂ Path.SameEnds spec.includes spec'.includes) := by
  refine ⟨fun hspelled => hspelled.render_eq h ht, ?_, render_sameOutcome h ht, ?_⟩
  · intro text text' hrender hrender'
    constructor
    · rintro rfl
      exact spelledAlike_of_render h ht hrender hrender'
    · intro hspelled
      rw [hspelled.render_eq h ht, hrender'] at hrender
      exact (Except.ok.inj hrender).symm
  · exact spec_eq_iff_sameEnds h (BuildSpec.isTidy_of_ofOptions hnames hspec)
      (BuildSpec.isTidy_of_ofOptions hnames' hspec')

/-- A request with one include directory. -/
def includingOptions (dir : Path) : LoadOptions where
  name := "demo"
  sources := [.ofText "/a/x.cpp"]
  includes := [dir]

/-- The request once it was checked. -/
def includingSpec (dir : Path) : BuildSpec where
  name := "demo"
  sources := [.ofText "/a/x.cpp"]
  hostFlags := []
  deviceFlags := []
  linkFlags := []
  includes := [dir]

/-- A slash at the end of an include directory makes another description of an equal request. -/
theorem render_eq_iff_spelledAlike_trailingSlash :
    (includingSpec (.ofText "/inc/a")).Equiv (includingSpec (.ofText "/inc/a/")) ∧
      ∃ text text', render (includingSpec (.ofText "/inc/a")) {} = .ok text ∧
        render (includingSpec (.ofText "/inc/a/")) {} = .ok text' ∧ text ≠ text' := by
  have hequiv : (includingSpec (.ofText "/inc/a")).Equiv (includingSpec (.ofText "/inc/a/")) :=
    { name := rfl
      sources := .cons rfl .nil
      hostFlags := rfl
      deviceFlags := rfl
      linkFlags := rfl
      includes := .cons (by decide) .nil }
  have htoolchain : ({} : Toolchain).Equiv {} :=
    { cxx := rfl, cudaHome := .none, bundledIncludes := .nil, runtimeIncludes := .nil, os := rfl }
  have hspec : BuildSpec.ofOptions (default : Machine).currentDir
      (includingOptions (.ofText "/inc/a")) = .ok (includingSpec (.ofText "/inc/a")) := rfl
  have hspec' : BuildSpec.ofOptions (default : Machine).currentDir
      (includingOptions (.ofText "/inc/a/")) = .ok (includingSpec (.ofText "/inc/a/")) := rfl
  obtain ⟨text, hrender⟩ : ∃ text,
      render (includingSpec (.ofText "/inc/a")) {} = .ok text := ⟨_, rfl⟩
  obtain ⟨text', hrender'⟩ : ∃ text,
      render (includingSpec (.ofText "/inc/a/")) {} = .ok text := ⟨_, rfl⟩
  have hnames : ∀ name ∈ (default : Machine).cwd.location, (Component.name name).IsStep :=
    List.forall_mem_nil _
  obtain ⟨-, htexts, -, -⟩ :=
    render_eq_iff_spelledAlike hnames hnames hspec hspec' hequiv htoolchain
  refine ⟨hequiv, text, text', hrender, hrender', fun heq => ?_⟩
  have hspelled := ((htexts text text' hrender hrender').mp heq).includes
  exact absurd hspelled (by decide)

end NativeExtension.Ninja
