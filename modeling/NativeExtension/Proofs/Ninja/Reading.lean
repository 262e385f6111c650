import NativeExtension.Proofs.Ninja.Contents

/-!
# NativeExtension.Proofs.Ninja.Reading

**What reading can give.** Whatever text is read, the values and paths that come out are
such as a line can hold (`expressible_of_ofText?`): the reader takes line ends away, refuses
the other breaks, skips the spaces in front of a value and ends a path at a bar. So a
character that does not survive being written cannot be brought back by any line that it
may have broken off.
-/

namespace NativeExtension.Ninja

theorem Unbroken.of_subset {a b : List Char} (hsub : a ⊆ b) (h : Unbroken b) : Unbroken a :=
  fun c hc => h c (hsub hc)

theorem skipSpaces_subset (text : List Char) : skipSpaces text ⊆ text :=
  (List.dropWhile_suffix _).subset

theorem head?_skipSpaces (text : List Char) : (skipSpaces text).head? ≠ some ' ' := by
  induction text with
  | nil => simp [skipSpaces]
  | cons c rest ih =>
      by_cases hc : c = ' '
      · subst hc
        rw [skipSpaces_space]
        exact ih
      · simp [skipSpaces, hc]

/-! ### Tokens -/

theorem readName_subset {text name after : List Char} (h : readName text = some (name, after)) :
    after ⊆ text := by
  unfold readName at h
  split at h
  · cases h
  · obtain ⟨-, rfl⟩ := Prod.mk.inj (Option.some.inj h)
    exact (List.dropWhile_suffix _).subset

/-- A path takes its characters from the text and ends before a bar. By induction on the text,
for both states of the reader, since a dollar sign changes the state and adds nothing. -/
theorem readPathFrom_spec {text path after : List Char} {escaped : Bool}
    (h : readPathFrom escaped text = some (path, after)) :
    path ⊆ text ∧ after ⊆ text ∧ '|' ∉ path := by
  induction text generalizing escaped path with
  | nil =>
      cases escaped with
      | true => cases h
      | false =>
          obtain ⟨rfl, rfl⟩ := Prod.mk.inj (Option.some.inj h)
          simp
  | cons c rest ih =>
      -- a character taken into the path is no bar, and the rest is read behind it
      have htake : c ≠ '|' → (readPathFrom false rest).map
            (fun read => (c :: read.1, read.2)) = some (path, after) →
          path ⊆ c :: rest ∧ after ⊆ c :: rest ∧ '|' ∉ path := by
        intro hbar hmap
        obtain ⟨⟨tail, last⟩, htail, heq⟩ := Option.map_eq_some_iff.mp hmap
        obtain ⟨rfl, rfl⟩ := Prod.mk.inj heq
        obtain ⟨hpath, hafter, hbars⟩ := ih htail
        refine ⟨List.cons_subset_cons c hpath, List.subset_cons_of_subset c hafter, ?_⟩
        simp [hbars, Ne.symm hbar]
      cases escaped with
      | true =>
          rw [readPathFrom] at h
          split at h
          · next hspecial =>
            refine htake ?_ h
            rintro rfl
            exact absurd hspecial (by decide)
          · cases h
      | false =>
          rw [readPathFrom] at h
          split at h
          · obtain ⟨hpath, hafter, hbars⟩ := ih h
            exact ⟨List.subset_cons_of_subset c hpath, List.subset_cons_of_subset c hafter, hbars⟩
          · split at h
            · obtain ⟨rfl, rfl⟩ := Prod.mk.inj (Option.some.inj h)
              simp
            · next hends =>
              refine htake ?_ h
              rintro rfl
              exact hends (by decide)

/-- A path that was read and is not empty can be a path. -/
theorem isPath_of_readPath {text path after : List Char} (htext : Unbroken text)
    (h : readPath text = some (path, after)) (hne : path ≠ []) : IsPath path := by
  obtain ⟨hsub, -, hbar⟩ := readPathFrom_spec h
  exact ⟨hne, htext.of_subset hsub, hbar⟩

/-- By induction on the bound: each path is read from what the one before it has left. -/
theorem readPathsUpTo_spec {bound : Nat} {text : List Char} {paths : List (List Char)}
    (htext : Unbroken text) (h : readPathsUpTo bound text = some paths) :
    ∀ path ∈ paths, IsPath path := by
  induction bound generalizing text paths with
  | zero =>
      rw [readPathsUpTo] at h
      split at h
      · obtain rfl := Option.some.inj h
        simp
      · cases h
  | succ bound ih =>
      rw [readPathsUpTo] at h
      split at h
      · obtain rfl := Option.some.inj h
        simp
      · next c rest hskip =>
        have hunbroken : Unbroken (c :: rest) := hskip ▸ htext.of_subset (skipSpaces_subset text)
        split at h
        · next first tail after hread =>
          obtain ⟨others, hothers, rfl⟩ := Option.map_eq_some_iff.mp h
          refine List.forall_mem_cons.mpr ⟨isPath_of_readPath hunbroken hread (by simp), ?_⟩
          exact ih (hunbroken.of_subset (readPathFrom_spec hread).2.1) hothers
        · cases h

/-- A value has only characters of its text; a dollar sign that escapes is dropped. -/
theorem readValueFrom_subset {text value : List Char} {escaped : Bool}
    (h : readValueFrom escaped text = some value) : value ⊆ text := by
  induction text generalizing escaped value with
  | nil =>
      cases escaped with
      | true => cases h
      | false =>
          obtain rfl := Option.some.inj h
          exact List.Subset.refl _
  | cons c rest ih =>
      cases escaped with
      | true =>
          rw [readValueFrom] at h
          split at h
          · next hdollar =>
            subst hdollar
            obtain ⟨tail, htail, rfl⟩ := Option.map_eq_some_iff.mp h
            exact List.cons_subset_cons _ (ih htail)
          · cases h
      | false =>
          rw [readValueFrom] at h
          split at h
          · exact List.subset_cons_of_subset c (ih h)
          · obtain ⟨tail, htail, rfl⟩ := Option.map_eq_some_iff.mp h
            exact List.cons_subset_cons _ (ih htail)

/-- A value starts with a space only if its text does. -/
theorem head?_readValue {text value : List Char} (h : readValue text = some value)
    (htext : text.head? ≠ some ' ') : value.head? ≠ some ' ' := by
  unfold readValue at h
  cases text with
  | nil =>
      obtain rfl := Option.some.inj h
      simp
  | cons c rest =>
      have hc : c ≠ ' ' := by simpa using htext
      rw [readValueFrom] at h
      split at h
      · cases rest with
        | nil => cases h
        | cons d others =>
            rw [readValueFrom] at h
            split at h
            · obtain ⟨tail, -, rfl⟩ := Option.map_eq_some_iff.mp h
              simp
            · cases h
      · obtain ⟨tail, -, rfl⟩ := Option.map_eq_some_iff.mp h
        simpa using hc

/-! ### Lines -/

/-- What one line says is such as a line can hold. -/
def Line.Expressible : Line → Prop
  | .variable _ value => IsValue value
  | .edge e => IsPath e.output ∧ ∀ input ∈ e.inputs, IsPath input
  | .default target => IsPath target
  | .blank | .rule _ | .binding _ _ => True

/-- The names of an edge come out of one line, so no break can be in them. -/
theorem readEdge_expressible {text : List Char} {line : Line} (htext : Unbroken text)
    (h : readEdge text = some line) : line.Expressible := by
  have hskip := htext.of_subset (skipSpaces_subset text)
  unfold readEdge at h
  split at h
  · next first output after houtput =>
    have hafter := hskip.of_subset (readPathFrom_spec houtput).2.1
    split at h
    · next behind hcolon =>
      have hbehind : Unbroken behind :=
        hafter.of_subset fun c hc => skipSpaces_subset after (hcolon ▸ List.mem_cons_of_mem _ hc)
      split at h
      · next rule rest hname =>
        have hrest :=
          (hbehind.of_subset (skipSpaces_subset behind)).of_subset (readName_subset hname)
        obtain ⟨inputs, hinputs, rfl⟩ := Option.map_eq_some_iff.mp h
        exact ⟨isPath_of_readPath hskip houtput (by simp), readPathsUpTo_spec hrest hinputs⟩
      · cases h
    · cases h
  · cases h

theorem readDefault_expressible {text : List Char} {line : Line} (htext : Unbroken text)
    (h : readDefault text = some line) : line.Expressible := by
  have hskip := htext.of_subset (skipSpaces_subset text)
  unfold readDefault at h
  split at h
  · next first target after htarget =>
    split at h
    · obtain rfl := Option.some.inj h
      exact isPath_of_readPath hskip htarget (by simp)
    · cases h
  · cases h

theorem readRule_expressible {text : List Char} {line : Line} (h : readRule text = some line) :
    line.Expressible := by
  unfold readRule at h
  split at h
  · split at h
    · obtain rfl := Option.some.inj h
      trivial
    · cases h
  · cases h

/-- The spaces behind an equals sign are skipped, so no value starts with one. -/
theorem readEquals_spec {text value : List Char} (h : readEquals text = some value) :
    value ⊆ text ∧ value.head? ≠ some ' ' := by
  unfold readEquals at h
  split at h
  · next rest hequals =>
    obtain rfl := Option.some.inj h
    refine ⟨fun c hc => skipSpaces_subset text ?_, head?_skipSpaces rest⟩
    rw [hequals]
    exact List.mem_cons_of_mem _ (skipSpaces_subset rest hc)
  · cases h

/-- The word in front decides which of the kinds of statement the line is. -/
theorem readStatement_expressible {text : List Char} {line : Line} (htext : Unbroken text)
    (h : readStatement text = some line) : line.Expressible := by
  unfold readStatement at h
  split at h
  · cases h
  · next word after hword =>
    have hafter := htext.of_subset (readName_subset hword)
    split at h
    · exact readRule_expressible h
    split at h
    · exact readEdge_expressible hafter h
    split at h
    · exact readDefault_expressible hafter h
    split at h
    · next written hequals =>
      obtain ⟨hwritten, hhead⟩ := readEquals_spec hequals
      obtain ⟨value, hvalue, rfl⟩ := Option.map_eq_some_iff.mp h
      exact ⟨(hafter.of_subset hwritten).of_subset (readValueFrom_subset hvalue),
        head?_readValue hvalue hhead⟩
    · cases h

theorem readBinding_expressible {text : List Char} {line : Line}
    (h : readBinding text = some line) : line.Expressible := by
  unfold readBinding at h
  split at h
  · obtain ⟨template, -, rfl⟩ := Option.map_eq_some_iff.mp h
    trivial
  · cases h

theorem dropReturn_subset (text : List Char) : dropReturn text ⊆ text := by
  unfold dropReturn
  split
  · have hinitial := List.dropLast_prefix text
    exact hinitial.subset
  · exact List.Subset.refl _

/-- A line is read only if no break is left in it once a carriage return at its end is gone.
-/
theorem readLine_expressible {text : List Char} {line : Line} (htext : '\n' ∉ text)
    (h : readLine text = some line) : line.Expressible := by
  unfold readLine at h
  dsimp only at h
  split at h
  · cases h
  · next hbreaks =>
    have hunbroken : Unbroken (dropReturn text) := by
      intro c hc
      have hnewline : c ≠ '\n' := fun heq => htext (heq ▸ dropReturn_subset text hc)
      have hreturn : c ≠ '\r' := by
        rintro rfl
        exact hbreaks (Or.inl (List.contains_iff_mem.mpr hc))
      have hzero : c ≠ '\x00' := by
        rintro rfl
        exact hbreaks (Or.inr (List.contains_iff_mem.mpr hc))
      simp [isBreak, hnewline, hreturn, hzero]
    split at h
    · obtain rfl := Option.some.inj h
      trivial
    · split at h
      · exact readBinding_expressible h
      · exact readStatement_expressible hunbroken h

/-! ### Files -/

theorem expressible_empty : ({} : Contents).Expressible where
  values := by simp
  outputs := by simp
  inputs := by simp
  defaults := by simp

/-- A line adds to one field of the contents and leaves the others as they are. -/
theorem add_expressible {contents after : Contents} {line : Line} (hcontents : contents.Expressible)
    (hline : line.Expressible) (h : contents.add line = some after) : after.Expressible := by
  cases line with
  | blank =>
      obtain rfl := Option.some.inj h
      exact hcontents
  | «variable» key value =>
      obtain rfl := Option.some.inj h
      exact { hcontents with
        values := List.forall_mem_append.mpr
          ⟨hcontents.values, by simpa [Line.Expressible] using hline⟩ }
  | rule name =>
      obtain rfl := Option.some.inj h
      exact { hcontents with }
  | binding key template =>
      obtain ⟨rules, -, rfl⟩ := Option.map_eq_some_iff.mp h
      exact { hcontents with }
  | edge made =>
      obtain rfl := Option.some.inj h
      exact { hcontents with
        outputs := List.forall_mem_append.mpr ⟨hcontents.outputs, by simpa using hline.1⟩
        inputs := List.forall_mem_append.mpr ⟨hcontents.inputs, by simpa using hline.2⟩ }
  | default target =>
      obtain rfl := Option.some.inj h
      exact { hcontents with
        defaults := List.forall_mem_append.mpr
          ⟨hcontents.defaults, by simpa [Line.Expressible] using hline⟩ }

theorem foldlM_add_expressible {lines : List Line} {contents after : Contents}
    (hcontents : contents.Expressible) (hlines : ∀ line ∈ lines, line.Expressible)
    (h : lines.foldlM Contents.add contents = some after) : after.Expressible := by
  induction lines generalizing contents with
  | nil =>
      obtain rfl := Option.some.inj h
      exact hcontents
  | cons line rest ih =>
      obtain ⟨hline, hrest⟩ := List.forall_mem_cons.mp hlines
      rw [List.foldlM_cons] at h
      obtain ⟨next, hnext, hafter⟩ := Option.bind_eq_some_iff.mp h
      exact ih (add_expressible hcontents hline hnext) hrest hafter

/-- Each line is read by itself, so what holds of one holds of all. -/
theorem mapM_readLine_expressible {texts : List (List Char)} {lines : List Line}
    (htexts : ∀ text ∈ texts, '\n' ∉ text) (h : texts.mapM readLine = some lines) :
    ∀ line ∈ lines, line.Expressible := by
  induction texts generalizing lines with
  | nil =>
      obtain rfl := Option.some.inj h
      simp
  | cons text rest ih =>
      obtain ⟨htext, hrest⟩ := List.forall_mem_cons.mp htexts
      rw [List.mapM_cons] at h
      obtain ⟨line, hline, h⟩ := Option.bind_eq_some_iff.mp h
      obtain ⟨others, hothers, h⟩ := Option.bind_eq_some_iff.mp h
      obtain rfl := Option.some.inj h
      exact List.forall_mem_cons.mpr ⟨readLine_expressible htext hline, ih hrest hothers⟩

/-- **Whatever is read, a file can say.** -/
theorem expressible_of_ofText? {text : List Char} {contents : Contents}
    (h : Contents.ofText? text = some contents) : contents.Expressible := by
  unfold Contents.ofText? at h
  split at h
  · next lines hfields =>
    obtain ⟨said, hsaid, hfold⟩ := Option.bind_eq_some_iff.mp h
    refine foldlM_add_expressible expressible_empty (mapM_readLine_expressible ?_ hsaid) hfold
    intro line hline
    have hmem : line ∈ (Text.fields '\n' text).reverse :=
      hfields ▸ List.mem_cons_of_mem _ (List.mem_reverse.mp hline)
    exact Text.not_mem_of_mem_fields (List.mem_reverse.mp hmem)
  · cases h

end NativeExtension.Ninja
