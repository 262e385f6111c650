import NativeExtension.Ninja.RoundTrip
import NativeExtension.Ninja.Statement
import NativeExtension.Proofs.Text.Fields

/-!
# NativeExtension.Proofs.Ninja.Lines

**Written statements read back line by line.** A file is its lines, and a line is read by
itself, so what a file says follows from what each statement's lines say (`ReadAs`,
`ofText?_fileText`). A variable with an escaped value, an edge and a default target with
escaped paths read back as themselves, under conditions on the texts alone:

* `Unbroken` — nothing in the text ends a line or is refused wherever it stands;
* `IsValue` — a text that can be a value: unbroken, with no space in front;
* `IsPath` — a text that can be a path: unbroken, not empty and without a bar.
-/

namespace NativeExtension.Ninja

/-! ### Texts that a line can hold -/

/-- Characters that end a line or are refused wherever they stand. -/
def isBreak (c : Char) : Bool := c = '\n' || c = '\r' || c = '\x00'

/-- A text that one line can hold. -/
def Unbroken (text : List Char) : Prop := ∀ c ∈ text, isBreak c = false

instance (text : List Char) : Decidable (Unbroken text) :=
  decidable_of_iff (text.all fun c => !isBreak c) (by simp [Unbroken])

/-- A text that can be the value of a variable. -/
def IsValue (text : List Char) : Prop := Unbroken text ∧ text.head? ≠ some ' '

/-- A text that can be a path. -/
def IsPath (text : List Char) : Prop := text ≠ [] ∧ Unbroken text ∧ '|' ∉ text

@[simp] theorem unbroken_append {a b : List Char} :
    Unbroken (a ++ b) ↔ Unbroken a ∧ Unbroken b := by
  simp [Unbroken, or_imp, forall_and]

@[simp] theorem unbroken_cons {c : Char} {rest : List Char} :
    Unbroken (c :: rest) ↔ isBreak c = false ∧ Unbroken rest := by
  simp [Unbroken]

@[simp] theorem unbroken_nil : Unbroken [] := nofun

theorem Unbroken.newline_notMem {text : List Char} (h : Unbroken text) : '\n' ∉ text :=
  fun hmem => absurd (h _ hmem) (by decide)

theorem unbroken_flatMap {text : List Char} {written : Char → List Char}
    (hwritten : ∀ c, isBreak c = false → Unbroken (written c)) (h : Unbroken text) :
    Unbroken (text.flatMap written) := by
  intro c hc
  obtain ⟨source, hsource, hc⟩ := List.mem_flatMap.mp hc
  exact hwritten source (h source hsource) c hc

/-- Escaping puts in dollar signs, which break no line. -/
theorem unbroken_escapedValue {text : List Char} (h : Unbroken text) :
    Unbroken (text.flatMap escapedValueChar) := by
  refine unbroken_flatMap (fun c hc => ?_) h
  unfold escapedValueChar
  split
  · simp [isBreak]
  · simpa using hc

theorem unbroken_escapedPath {text : List Char} (h : Unbroken text) :
    Unbroken (text.flatMap escapedPathChar) := by
  refine unbroken_flatMap (fun c hc => ?_) h
  unfold escapedPathChar
  split
  · simpa [isBreak] using hc
  · simpa using hc

/-! ### One line -/

/-- In an unbroken line the checks for breaks and the carriage return do nothing, and what is
left of `readLine` is the choice between a binding and a statement. -/
theorem readLine_of_unbroken {line : List Char} (h : Unbroken line) :
    readLine line =
      if skipSpaces line = [] then some .blank
      else if line.head? = some ' ' then readBinding line else readStatement line := by
  have hreturn : '\r' ∉ line := fun hmem => absurd (h _ hmem) (by decide)
  have hzero : '\x00' ∉ line := fun hmem => absurd (h _ hmem) (by decide)
  have hdrop : dropReturn line = line := by
    unfold dropReturn
    rw [if_neg fun hlast => hreturn (List.mem_of_getLast? hlast)]
  unfold readLine
  rw [hdrop]
  simp [hreturn, hzero]

theorem skipSpaces_of_head {text : List Char} (h : text.head? ≠ some ' ') :
    skipSpaces text = text := by
  cases text with
  | nil => rfl
  | cons c rest =>
      have hc : c ≠ ' ' := by simpa using h
      simp [skipSpaces, hc]

@[simp] theorem skipSpaces_space (text : List Char) :
    skipSpaces (' ' :: text) = skipSpaces text := by
  simp [skipSpaces]

/-- A word of name characters is read up to the first other character. -/
theorem readName_append {name rest : List Char} (hname : name ≠ [])
    (hall : name.all isNameChar = true)
    (hrest : ∀ c, rest.head? = some c → isNameChar c = false) :
    readName (name ++ rest) = some (name, rest) := by
  have hword : ∀ c ∈ name, isNameChar c = true := List.all_eq_true.mp hall
  have htake : rest.takeWhile isNameChar = [] := by
    cases rest with
    | nil => rfl
    | cons c others => simp [hrest c rfl]
  have hdrop : rest.dropWhile isNameChar = rest := by
    cases rest with
    | nil => rfl
    | cons c others => simp [hrest c rfl]
  unfold readName
  rw [List.takeWhile_append_of_pos hword, List.dropWhile_append_of_pos hword, htake, hdrop,
    List.append_nil]
  cases name with
  | nil => exact absurd rfl hname
  | cons c others => rfl

theorem head?_escapedValue {value : List Char} (h : value.head? ≠ some ' ') :
    (value.flatMap escapedValueChar).head? ≠ some ' ' := by
  cases value with
  | nil => simp
  | cons c rest =>
      have hc : c ≠ ' ' := by simpa using h
      by_cases hd : c = '$'
      · simp [escapedValueChar, hd]
      · simp [escapedValueChar, hd, hc]

/-- A space in front of a path is escaped, so what is written never starts with one. -/
theorem head?_escapedPath (path : List Char) :
    (path.flatMap escapedPathChar).head? ≠ some ' ' := by
  cases path with
  | nil => simp
  | cons c rest =>
      by_cases hc : isSpecialInPath c = true
      · simp [escapedPathChar, hc]
      · have hspace : c ≠ ' ' := by
          rintro rfl
          exact hc (by decide)
        simp [escapedPathChar, hc, hspace]

theorem escapedPath_ne_nil {path : List Char} (h : path ≠ []) :
    path.flatMap escapedPathChar ≠ [] := by
  cases path with
  | nil => exact absurd rfl h
  | cons c rest =>
      by_cases hc : isSpecialInPath c = true <;> simp [escapedPathChar, hc]

theorem readEquals_value {value : List Char} (h : value.head? ≠ some ' ') :
    readEquals (" = ".toList ++ value) = some value := by
  have hskip : skipSpaces (" = ".toList ++ value) = '=' :: ' ' :: value := by
    simp [skipSpaces]
  unfold readEquals
  rw [hskip]
  simp [skipSpaces_of_head h]

/-- Characters of a kind that has no break in it break no line. -/
theorem unbroken_of_all {kind : Char → Bool}
    (hkind : (kind '\n' || kind '\r' || kind '\x00') = false) {text : List Char}
    (h : text.all kind = true) : Unbroken text := by
  simp only [Bool.or_eq_false_iff] at hkind
  obtain ⟨⟨hline, hreturn⟩, hzero⟩ := hkind
  intro c hc
  have hc : kind c = true := List.all_eq_true.mp h c hc
  rw [Bool.eq_false_iff]
  intro hbreak
  simp only [isBreak, Bool.or_eq_true, decide_eq_true_eq] at hbreak
  rcases hbreak with (rfl | rfl) | rfl
  · exact Bool.false_ne_true (hline.symm.trans hc)
  · exact Bool.false_ne_true (hreturn.symm.trans hc)
  · exact Bool.false_ne_true (hzero.symm.trans hc)

theorem unbroken_of_nameChars {name : List Char} (h : name.all isNameChar = true) :
    Unbroken name :=
  unbroken_of_all (by decide) h

/-- A line that starts with a word of name characters is read as a statement. -/
theorem readLine_of_word {word rest : List Char} (hne : word ≠ [])
    (hall : word.all isNameChar = true) (hrest : Unbroken rest) :
    readLine (word ++ rest) = readStatement (word ++ rest) := by
  rw [readLine_of_unbroken (unbroken_append.mpr ⟨unbroken_of_nameChars hall, hrest⟩)]
  cases word with
  | nil => exact absurd rfl hne
  | cons c others =>
      have hc : c ≠ ' ' := by
        rintro rfl
        exact absurd (List.all_eq_true.mp hall ' ' List.mem_cons_self) (by decide)
      simp [skipSpaces, hc]

/-- Words that start a line of another kind than a variable. -/
def lineWords : List (List Char) := ["rule".toList, "build".toList, "default".toList]

/-- Can a variable have that name? -/
def isKey (key : List Char) : Bool := key ≠ [] && key.all isNameChar && !lineWords.contains key

/-- A variable reads back from its escaped value. -/
theorem readLine_variable {key value : List Char} (hkey : isKey key = true)
    (hvalue : IsValue value) :
    readLine (key ++ (" = ".toList ++ value.flatMap escapedValueChar)) =
      some (.variable key value) := by
  simp only [isKey, lineWords, Bool.and_eq_true, decide_eq_true_eq, Bool.not_eq_true',
    List.contains_eq_mem, decide_eq_false_iff_not, List.mem_cons, List.not_mem_nil, or_false,
    not_or] at hkey
  obtain ⟨⟨hne, hall⟩, hrule, hbuild, hdefault⟩ := hkey
  have hname : readName (key ++ (" = ".toList ++ value.flatMap escapedValueChar)) =
      some (key, " = ".toList ++ value.flatMap escapedValueChar) :=
    readName_append hne hall (by simp [isNameChar])
  have hrest : Unbroken (" = ".toList ++ value.flatMap escapedValueChar) :=
    unbroken_append.mpr ⟨by simp [isBreak], unbroken_escapedValue hvalue.1⟩
  rw [readLine_of_word hne hall hrest, readStatement, hname]
  dsimp only
  rw [if_neg hrule, if_neg hbuild, if_neg hdefault,
    readEquals_value (head?_escapedValue hvalue.2)]
  dsimp only
  rw [readValue_escapedValue, Option.map_some]

/-! ### Edges and default targets -/

/-- Escaped paths as an edge lists them. -/
def listed (paths : List (List Char)) : List Char :=
  paths.flatMap fun path => ' ' :: path.flatMap escapedPathChar

theorem listed_cons (path : List Char) (rest : List (List Char)) :
    listed (path :: rest) = ' ' :: (path.flatMap escapedPathChar ++ listed rest) := rfl

theorem listed_ends (paths : List (List Char)) :
    listed paths = [] ∨ ∃ c others, listed paths = c :: others ∧ endsPath c = true := by
  cases paths with
  | nil => exact Or.inl rfl
  | cons path rest => exact Or.inr ⟨' ', _, rfl, rfl⟩

theorem unbroken_listed {paths : List (List Char)} (h : ∀ path ∈ paths, IsPath path) :
    Unbroken (listed paths) := by
  intro c hc
  obtain ⟨path, hpath, hc⟩ := List.mem_flatMap.mp hc
  rcases List.mem_cons.mp hc with rfl | hc
  · decide
  · exact unbroken_escapedPath (h path hpath).2.1 c hc

theorem skipSpaces_escapedPath {path : List Char} (h : path ≠ []) (rest : List Char) :
    skipSpaces (path.flatMap escapedPathChar ++ rest) = path.flatMap escapedPathChar ++ rest := by
  obtain ⟨c, others, hcons⟩ := List.exists_cons_of_ne_nil (escapedPath_ne_nil h)
  have hhead := head?_escapedPath path
  rw [hcons] at hhead ⊢
  exact skipSpaces_of_head hhead

/-- By induction on the paths: an escaped path ends where the space in front of the next one
stands. -/
theorem readPathsUpTo_listed {paths : List (List Char)} (hpaths : ∀ path ∈ paths, IsPath path)
    {bound : Nat} (hbound : paths.length ≤ bound) :
    readPathsUpTo bound (listed paths) = some paths := by
  -- each path takes one unit of the bound, whatever is left of it
  induction paths generalizing bound with
  | nil => cases bound <;> simp [readPathsUpTo, skipSpaces, listed]
  | cons path rest ih =>
      obtain ⟨hpath, hrest⟩ := List.forall_mem_cons.mp hpaths
      obtain ⟨bound, rfl⟩ : ∃ n, bound = n + 1 := ⟨bound - 1, by simp at hbound; omega⟩
      have hread := readPath_escapedPath hpath.2.2 (listed_ends rest)
      have hskip : skipSpaces (listed (path :: rest)) =
          path.flatMap escapedPathChar ++ listed rest := by
        rw [listed_cons, skipSpaces_space, skipSpaces_escapedPath hpath.1]
      obtain ⟨c, others, hcons⟩ :=
        List.exists_cons_of_ne_nil
          (List.append_ne_nil_of_left_ne_nil (escapedPath_ne_nil hpath.1) (listed rest))
      obtain ⟨first, after, rfl⟩ := List.exists_cons_of_ne_nil hpath.1
      rw [readPathsUpTo, hskip, hcons]
      dsimp only
      rw [← hcons, hread]
      dsimp only
      rw [ih hrest (by simpa using hbound), Option.map_some]

theorem readPaths_listed {paths : List (List Char)} (h : ∀ path ∈ paths, IsPath path) :
    readPaths (listed paths) = some paths := by
  refine readPathsUpTo_listed h ?_
  -- the text is at least as long as the list, for the spaces alone
  clear h
  induction paths with
  | nil => simp
  | cons path rest ih =>
      rw [listed_cons]
      simp
      omega

/-- An edge reads back, with its paths as they were before they were escaped. -/
theorem readEdge_listed {output rule : List Char} {inputs : List (List Char)}
    (houtput : IsPath output) (hne : rule ≠ []) (hall : rule.all isNameChar = true)
    (hinputs : ∀ path ∈ inputs, IsPath path) :
    readEdge (' ' :: (output.flatMap escapedPathChar ++
        ':' :: ' ' :: (rule ++ listed inputs))) =
      some (.edge { output := output, rule := rule, inputs := inputs }) := by
  have hpath : readPath (output.flatMap escapedPathChar ++
      ':' :: ' ' :: (rule ++ listed inputs)) =
      some (output, ':' :: ' ' :: (rule ++ listed inputs)) :=
    readPath_escapedPath houtput.2.2 (Or.inr ⟨':', _, rfl, rfl⟩)
  have hcolon : skipSpaces (':' :: ' ' :: (rule ++ listed inputs)) =
      ':' :: ' ' :: (rule ++ listed inputs) := skipSpaces_of_head (by simp)
  have hrule : readName (skipSpaces (' ' :: (rule ++ listed inputs))) =
      some (rule, listed inputs) := by
    obtain ⟨c, others, rfl⟩ := List.exists_cons_of_ne_nil hne
    have hc : c ≠ ' ' := by
      rintro rfl
      exact absurd (List.all_eq_true.mp hall ' ' List.mem_cons_self) (by decide)
    rw [skipSpaces_space, skipSpaces_of_head (by simp [hc])]
    refine readName_append hne hall ?_
    intro d hd
    cases inputs with
    | nil => simp [listed] at hd
    | cons path rest =>
        obtain rfl : ' ' = d := by simpa [listed_cons] using hd
        rfl
  obtain ⟨first, after, rfl⟩ := List.exists_cons_of_ne_nil houtput.1
  rw [readEdge, skipSpaces_space, skipSpaces_escapedPath houtput.1, hpath]
  dsimp only
  rw [hcolon]
  simp only [hrule, readPaths_listed hinputs, Option.map_some]

/-- An edge reads back from its escaped paths. -/
theorem readLine_edge {output rule : List Char} {inputs : List (List Char)}
    (houtput : IsPath output) (hne : rule ≠ []) (hall : rule.all isNameChar = true)
    (hinputs : ∀ path ∈ inputs, IsPath path) :
    readLine ("build".toList ++ ' ' :: (output.flatMap escapedPathChar ++
        ':' :: ' ' :: (rule ++ listed inputs))) =
      some (.edge { output := output, rule := rule, inputs := inputs }) := by
  have hrest : Unbroken (' ' :: (output.flatMap escapedPathChar ++
      ':' :: ' ' :: (rule ++ listed inputs))) := by
    simp [unbroken_escapedPath houtput.2.1, unbroken_of_nameChars hall, unbroken_listed hinputs,
      isBreak]
  rw [readLine_of_word (by decide) (by decide) hrest, readStatement,
    readName_append (by decide) (by decide) (by simp [isNameChar])]
  dsimp only
  rw [if_neg (by decide), if_pos rfl, readEdge_listed houtput hne hall hinputs]

/-- A default target reads back from its escaped path. -/
theorem readLine_default {target : List Char} (htarget : IsPath target) :
    readLine ("default".toList ++ ' ' :: target.flatMap escapedPathChar) =
      some (.default target) := by
  have hrest : Unbroken (' ' :: target.flatMap escapedPathChar) := by
    simp [unbroken_escapedPath htarget.2.1, isBreak]
  have hpath : readPath (target.flatMap escapedPathChar ++ []) = some (target, []) :=
    readPath_escapedPath htarget.2.2 (Or.inl rfl)
  have hskip := skipSpaces_escapedPath htarget.1 []
  rw [List.append_nil] at hpath hskip
  rw [readLine_of_word (by decide) (by decide) hrest, readStatement,
    readName_append (by decide) (by decide) (by simp [isNameChar])]
  dsimp only
  rw [if_neg (by decide), if_neg (by decide), if_pos rfl, readDefault, skipSpaces_space, hskip,
    hpath]
  obtain ⟨first, after, rfl⟩ := List.exists_cons_of_ne_nil htarget.1
  rfl

/-! ### Files -/

namespace Statement

/-- The lines of a statement, without their ends. -/
def lines : Statement → List (List Char)
  | .variable key value => [key.toList ++ (" = ".toList ++ value.toList)]
  | .rule name command =>
      ["rule ".toList ++ name.toList, "  command = ".toList ++ command.toList]
  | .depfile file style =>
      ["  depfile = ".toList ++ file.toList, "  deps = ".toList ++ style.toList]
  | .build output ruleName inputs =>
      ["build".toList ++ ' ' :: (output.toList ++
        ':' :: ' ' :: (ruleName.toList ++ inputs.flatMap fun input => ' ' :: input.toList))]
  | .default target => ["default".toList ++ ' ' :: target.toList]
  | .blank => [[]]

/-- A statement is written as its lines, each with its end. -/
theorem toList_text (s : Statement) : s.text.toList = s.lines.flatMap (· ++ ['\n']) := by
  cases s <;>
    simp [text, lines, String.toList_append, String.toList_join, List.flatMap_map,
      List.append_assoc]

end Statement

/-- A file is written as the lines of its statements, each with its end. -/
theorem toList_fileText (statements : List Statement) :
    (fileText statements).toList =
      (statements.flatMap Statement.lines).flatMap (· ++ ['\n']) := by
  simp [fileText, String.toList_join, List.flatMap_map, List.flatMap_assoc,
    Statement.toList_text]

/-- The statements stand on lines of their own, and these say `said`. -/
def ReadAs (statements : List Statement) (said : List Line) : Prop :=
  (∀ line ∈ statements.flatMap Statement.lines, '\n' ∉ line) ∧
    (statements.flatMap Statement.lines).mapM readLine = some said

theorem ReadAs.nil : ReadAs [] [] := ⟨nofun, rfl⟩

/-- Statements that end their lines are read one after another. -/
theorem ReadAs.append {a b : List Statement} {x y : List Line} (ha : ReadAs a x)
    (hb : ReadAs b y) : ReadAs (a ++ b) (x ++ y) := by
  refine ⟨?_, ?_⟩
  · rw [List.flatMap_append]
    exact List.forall_mem_append.mpr ⟨ha.1, hb.1⟩
  · rw [List.flatMap_append, List.mapM_append, ha.2, hb.2]
    rfl

theorem ReadAs.cons {s : Statement} {rest : List Statement} {x y : List Line}
    (hs : ReadAs [s] x) (hrest : ReadAs rest y) : ReadAs (s :: rest) (x ++ y) :=
  hs.append hrest

theorem ReadAs.of_line {s : Statement} {line : List Char} {said : Line} (hlines : s.lines = [line])
    (hline : Unbroken line) (hread : readLine line = some said) : ReadAs [s] [said] := by
  refine ⟨?_, ?_⟩
  · simpa [hlines] using hline.newline_notMem
  · simp [hlines, hread]

theorem readAs_variable (key : String) {value : String} (hkey : isKey key.toList = true)
    (hvalue : IsValue value.toList) :
    ReadAs [.variable key (escapeValue value)] [.variable key.toList value.toList] := by
  refine .of_line rfl ?_ ?_
  · simp only [isKey, Bool.and_eq_true] at hkey
    rw [toList_escapeValue, unbroken_append, unbroken_append]
    exact ⟨unbroken_of_nameChars hkey.1.2, by simp [isBreak], unbroken_escapedValue hvalue.1⟩
  · rw [toList_escapeValue]
    exact readLine_variable hkey hvalue

/-- The statement of an edge, under conditions on its texts that the reader itself would ask
for. -/
theorem readAs_build {output : String} (rule : String) (inputs : List String)
    (houtput : IsPath output.toList) (hne : rule.toList ≠ [])
    (hall : rule.toList.all isNameChar = true) (hinputs : ∀ input ∈ inputs, IsPath input.toList) :
    ReadAs [.build (escapePath output) rule (inputs.map escapePath)]
      [.edge
        { output := output.toList, rule := rule.toList, inputs := inputs.map String.toList }] := by
  have hpaths : ∀ path ∈ inputs.map String.toList, IsPath path := by
    simpa using hinputs
  have hlisted : ((inputs.map escapePath).flatMap fun input => ' ' :: input.toList) =
      listed (inputs.map String.toList) := by
    simp [listed, List.flatMap_map]
  have hlines : (Statement.build (escapePath output) rule (inputs.map escapePath)).lines =
      ["build".toList ++ ' ' :: (output.toList.flatMap escapedPathChar ++
        ':' :: ' ' :: (rule.toList ++ listed (inputs.map String.toList)))] := by
    rw [Statement.lines, toList_escapePath, hlisted]
  refine .of_line hlines ?_ ?_
  · simp [unbroken_escapedPath houtput.2.1, unbroken_of_nameChars hall, unbroken_listed hpaths,
      isBreak]
  · exact readLine_edge houtput hne hall hpaths

theorem readAs_default {target : String} (htarget : IsPath target.toList) :
    ReadAs [.default (escapePath target)] [.default target.toList] := by
  have hlines : (Statement.default (escapePath target)).lines =
      ["default".toList ++ ' ' :: target.toList.flatMap escapedPathChar] := by
    rw [Statement.lines, toList_escapePath]
  refine .of_line hlines ?_ ?_
  · simp [unbroken_escapedPath htarget.2.1, isBreak]
  · exact readLine_default htarget

theorem readAs_blank : ReadAs [.blank] [.blank] := ⟨by decide, by decide⟩

/-- What a file says is what its lines say. -/
theorem ofText?_fileText {statements : List Statement} {said : List Line}
    (h : ReadAs statements said) :
    Contents.ofText? (fileText statements).toList = Contents.ofLines said := by
  rw [Contents.ofText?, toList_fileText, Text.fields_of_lines h.1]
  simp [h.2]

end NativeExtension.Ninja
