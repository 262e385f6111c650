import Mathlib.Algebra.Ring.Nat
import NativeExtension.Arguments.Windows
import NativeExtension.Proofs.Text.Fields

/-!
# NativeExtension.Proofs.Arguments.WindowsWords

**Which lists of arguments a started Windows program gets back.** Quoting puts a backslash in front
of a double quote and a double quote at each end, and leaves the backslashes of the argument alone.
So a backslash that now stands in front of a double quote is read as half of one, and the list
comes back exactly if there is none (`words_quoted_iff`): no backslash stands in front of a double
quote, and no argument that has to be quoted ends in one (`Survives`).

That nothing else comes back by chance is a matter of weight: whatever a line is read as, a
backslash in front of a double quote brings half of what every other brings (`weight_wordsFrom`).
-/

namespace NativeExtension.Windows

/-- The argument means the same once it is quoted. -/
def Survives (argument : List Char) : Prop :=
  ¬['\\', '"'] <:+: argument ∧
    (argument.any isActive = true → argument.getLast? ≠ some '\\')

/-- The argument is left as it is. -/
def IsBare (argument : List Char) : Prop := argument ≠ [] ∧ argument.any isActive = false

instance (argument : List Char) : Decidable (IsBare argument) :=
  inferInstanceAs (Decidable (_ ∧ _))

theorem quoteChars_of_isBare {argument : List Char} (h : IsBare argument) :
    quoteChars argument = argument := by
  unfold quoteChars
  rw [if_pos ⟨h.1, by simp [h.2]⟩]

theorem quoteChars_of_not_isBare {argument : List Char} (h : ¬IsBare argument) :
    quoteChars argument = '"' :: (argument.flatMap quotedChar ++ ['"']) := by
  unfold quoteChars
  rw [if_neg (by simpa [IsBare] using h)]
  rfl

theorem IsBare.quote_notMem {argument : List Char} (h : IsBare argument) : '"' ∉ argument := by
  intro hmem
  have hactive : argument.any isActive = true := List.any_eq_true.mpr ⟨'"', hmem, by decide⟩
  rw [h.2] at hactive
  cases hactive

/-! ### Exposed backslashes -/

/-- How many backslashes of a text come to stand in front of a double quote when it is put between
double quotes, if `count` stand in front of the text. -/
def exposed (count : Nat) : List Char → Nat
  | [] => count
  | c :: rest =>
    if c = '\\' then exposed (count + 1) rest
    else if c = '"' then count + exposed 0 rest
    else exposed 0 rest

/-- Backslashes in front of a text are exposed unless something else comes before the next double
quote. -/
theorem exposed_succ_eq_zero_iff {count : Nat} {text : List Char} :
    exposed (count + 1) text = 0 ↔
      text ≠ [] ∧ text.head? ≠ some '"' ∧ exposed 0 text = 0 := by
  induction text generalizing count with
  | nil => simp [exposed]
  | cons c rest ih =>
      by_cases hbackslash : c = '\\'
      · simp [exposed, hbackslash, ih]
      · by_cases hquote : c = '"'
        · simp [exposed, hquote]
        · simp [exposed, hbackslash, hquote]

/-- No backslash is exposed if none stands in front of a double quote or at the end. -/
theorem exposed_eq_zero_iff {text : List Char} :
    exposed 0 text = 0 ↔ ¬['\\', '"'] <:+: text ∧ text.getLast? ≠ some '\\' := by
  induction text with
  | nil => simp [exposed]
  | cons c rest ih =>
      have hlast : rest ≠ [] → (c :: rest).getLast? = rest.getLast? :=
        fun hne => List.getLast?_cons_of_ne_nil hne
      by_cases hbackslash : c = '\\'
      · subst hbackslash
        have hexposed : exposed 0 ('\\' :: rest) = exposed 1 rest := rfl
        rw [hexposed, exposed_succ_eq_zero_iff, ih, List.infix_cons_iff]
        cases rest with
        | nil => simp
        | cons d others =>
            rw [hlast (List.cons_ne_nil d others)]
            simp [List.cons_prefix_cons, eq_comm (a := '"'), and_assoc]
      · have hexposed : exposed 0 (c :: rest) = exposed 0 rest := by
          simp [exposed, hbackslash]
        rw [hexposed, ih, List.infix_cons_iff]
        have hfront : ¬['\\', '"'] <+: c :: rest := by
          simp [List.cons_prefix_cons, Ne.symm hbackslash]
        cases rest with
        | nil => simp [hbackslash, hfront]
        | cons d others =>
            rw [hlast (List.cons_ne_nil d others)]
            simp [hfront]

/-- How many backslashes of an argument are exposed once it is quoted. -/
def loss (argument : List Char) : Nat := if IsBare argument then 0 else exposed 0 argument

/-- The count of lost backslashes says by a number what `Survives` says of the spelling. -/
theorem loss_eq_zero_iff {argument : List Char} : loss argument = 0 ↔ Survives argument := by
  unfold loss Survives
  split
  · next hbare =>
    -- without double quotes there is nothing for a backslash to stand in front of
    have hfree : ¬['\\', '"'] <:+: argument :=
      fun h => hbare.quote_notMem (h.subset (by simp))
    simp [hbare.2, hfree]
  · next hbare =>
    rw [exposed_eq_zero_iff]
    by_cases hnil : argument = []
    · simp [hnil]
    · have hactive : argument.any isActive = true :=
        eq_true_of_ne_false fun hplain => hbare ⟨hnil, hplain⟩
      simp [hactive]

/-! ### What a line weighs -/

/-- What a character weighs. -/
def charWeight (c : Char) : Nat := if c = '\\' then 2 else if c = '"' then 1 else 0

/-- What a text weighs. -/
def weight (text : List Char) : Nat := (text.map charWeight).sum

/-- What the words of a line will weigh, if `count` backslashes stand in front of it. -/
def lineWeight (count : Nat) : List Char → Nat
  | [] => 2 * count
  | c :: rest =>
    if c = '\\' then lineWeight (count + 1) rest
    else if c = '"' then count + lineWeight 0 rest
    else 2 * count + lineWeight 0 rest

@[simp] theorem weight_nil : weight [] = 0 := rfl

@[simp] theorem weight_cons (c : Char) (text : List Char) :
    weight (c :: text) = charWeight c + weight text := by simp [weight]

@[simp] theorem weight_append (text other : List Char) :
    weight (text ++ other) = weight text + weight other := by simp [weight]

@[simp] theorem weight_backslashes (count : Nat) :
    weight (List.replicate count '\\') = 2 * count := by
  induction count with
  | zero => rfl
  | succ count ih =>
      rw [List.replicate_succ, weight_cons, ih]
      simp [charWeight]
      omega

theorem weight_withBackslashes (word : Option (List Char)) (count : Nat) :
    weight ((withBackslashes word count).getD []) = weight (word.getD []) + 2 * count := by
  unfold withBackslashes
  split
  · next h => simp [h]
  · simp

theorem flatten_toList (word : Option (List Char)) : word.toList.flatten = word.getD [] := by
  cases word <;> simp

/-- **What a line is read as weighs what the line lets it weigh**, quoted or not. -/
theorem weight_wordsFrom (word : Option (List Char)) (quoted : Bool) (count : Nat)
    (line : List Char) :
    weight (wordsFrom word quoted count line).flatten =
      weight (word.getD []) + lineWeight count line := by
  induction line generalizing word quoted count with
  | nil => rw [wordsFrom, flatten_toList, weight_withBackslashes, lineWeight]
  | cons c rest ih =>
      rw [wordsFrom, lineWeight]
      by_cases hbackslash : c = '\\'
      · rw [if_pos hbackslash, if_pos hbackslash, ih]
      · rw [if_neg hbackslash, if_neg hbackslash]
        by_cases hquote : c = '"'
        · -- of `count` backslashes half are left, and the odd one keeps the double quote
          rw [if_pos hquote, if_pos hquote]
          dsimp only
          split
          · rw [ih]
            simp
            omega
          · rw [ih]
            simp [charWeight]
            omega
        · rw [if_neg hquote, if_neg hquote]
          split
          · rw [List.flatten_append, weight_append, flatten_toList, weight_withBackslashes, ih]
            simp
            omega
          · have hchar : charWeight c = 0 := by simp [charWeight, hbackslash, hquote]
            rw [ih]
            simp [weight_withBackslashes, hchar]
            omega

/-! ### What quoting costs -/

/-- Between double quotes each exposed backslash loses half its weight. -/
theorem lineWeight_quotedChars (count : Nat) (text rest : List Char) :
    lineWeight count (text.flatMap quotedChar ++ '"' :: rest) + exposed count text =
      2 * count + weight text + lineWeight 0 rest := by
  induction text generalizing count with
  | nil =>
      simp [lineWeight, exposed]
      omega
  | cons c others ih =>
      by_cases hbackslash : c = '\\'
      · have hrest := ih (count + 1)
        simp [quotedChar, lineWeight, exposed, charWeight, hbackslash] at hrest ⊢
        omega
      · have hrest := ih 0
        by_cases hquote : c = '"'
        · simp [quotedChar, lineWeight, exposed, charWeight, hquote] at hrest ⊢
          omega
        · simp [quotedChar, lineWeight, exposed, charWeight, hbackslash, hquote] at hrest ⊢
          omega

/-- The end of a line, or a space and more of it. -/
def EndsArgument (rest : List Char) : Prop := rest = [] ∨ rest.head? = some ' '

/-- Outside of quotes nothing is lost: no double quote stands there to halve backslashes. -/
theorem lineWeight_bare (count : Nat) {text rest : List Char} (htext : '"' ∉ text)
    (hrest : EndsArgument rest) :
    lineWeight count (text ++ rest) = 2 * count + weight text + lineWeight 0 rest := by
  induction text generalizing count with
  | nil =>
      cases rest with
      | nil => simp [lineWeight]
      | cons c others =>
          obtain rfl : c = ' ' := by simpa [EndsArgument] using hrest
          simp [lineWeight]
  | cons c others ih =>
      obtain ⟨hquote, hothers⟩ : '"' ≠ c ∧ '"' ∉ others := by simpa using htext
      rw [List.cons_append, lineWeight]
      by_cases hbackslash : c = '\\'
      · rw [if_pos hbackslash, ih _ hothers, hbackslash]
        simp [charWeight]
        omega
      · rw [if_neg hbackslash, if_neg (Ne.symm hquote), ih _ hothers]
        simp [charWeight, hbackslash, Ne.symm hquote]
        omega

/-- **An argument loses on the line what it has exposed.** -/
theorem lineWeight_quoteChars (argument : List Char) {rest : List Char}
    (hrest : EndsArgument rest) :
    lineWeight 0 (quoteChars argument ++ rest) + loss argument =
      weight argument + lineWeight 0 rest := by
  unfold loss
  split
  · next hbare =>
    rw [quoteChars_of_isBare hbare, lineWeight_bare 0 hbare.quote_notMem hrest]
    omega
  · next hbare =>
    have hbetween := lineWeight_quotedChars 0 argument rest
    rw [quoteChars_of_not_isBare hbare]
    simp [lineWeight] at hbetween ⊢
    omega

theorem endsArgument_more (arguments : List (List Char)) :
    EndsArgument (arguments.flatMap fun argument => ' ' :: quoteChars argument) := by
  cases arguments with
  | nil => exact Or.inl rfl
  | cons argument rest => exact Or.inr rfl

/-- By induction on the arguments: each loses what it has exposed, and the space in front of
it weighs nothing. -/
theorem lineWeight_more (arguments : List (List Char)) :
    lineWeight 0 (arguments.flatMap fun argument => ' ' :: quoteChars argument) +
      (arguments.map loss).sum = weight arguments.flatten := by
  induction arguments with
  | nil => rfl
  | cons argument rest ih =>
      have hfirst := lineWeight_quoteChars argument (endsArgument_more rest)
      rw [List.flatMap_cons, List.cons_append, lineWeight, if_neg (by decide),
        if_neg (by decide), List.map_cons, List.sum_cons, List.flatten_cons, weight_append]
      omega

/-- The arguments as they stand on a line. -/
def lineOf (arguments : List (List Char)) : List Char :=
  List.intercalate [' '] (arguments.map quoteChars)

theorem lineOf_cons (argument : List Char) (rest : List (List Char)) :
    lineOf (argument :: rest) =
      quoteChars argument ++ rest.flatMap fun other => ' ' :: quoteChars other := by
  rw [lineOf, List.map_cons, Text.intercalate_cons, List.flatMap_map]

theorem lineWeight_lineOf (arguments : List (List Char)) :
    lineWeight 0 (lineOf arguments) + (arguments.map loss).sum = weight arguments.flatten := by
  cases arguments with
  | nil => rfl
  | cons argument rest =>
      have hfirst := lineWeight_quoteChars argument (endsArgument_more rest)
      have hmore := lineWeight_more rest
      rw [lineOf_cons, List.map_cons, List.sum_cons, List.flatten_cons, weight_append]
      omega

/-- **Arguments that come back have exposed nothing.** -/
theorem survives_of_words {arguments : List (List Char)}
    (h : words (lineOf arguments) = arguments) : ∀ argument ∈ arguments, Survives argument := by
  have hread := weight_wordsFrom none false 0 (lineOf arguments)
  have hwritten := lineWeight_lineOf arguments
  rw [← words, h] at hread
  have hsum : (arguments.map loss).sum = 0 := by
    simp at hread
    omega
  intro argument hmem
  exact loss_eq_zero_iff.mp
    (List.sum_eq_zero_iff_forall_eq_nat.mp hsum _ (List.mem_map_of_mem hmem))

/-! ### What comes back -/

/-- A program that reads `text` between two words has read the word `word` and goes on with it. -/
def Begins (text word : List Char) : Prop :=
  ∃ part count, withBackslashes part count = some word ∧
    ∀ rest, wordsFrom none false 0 (text ++ rest) = wordsFrom part false count rest

/-- Between double quotes a text without exposed backslashes is read as it is. -/
theorem wordsFrom_quotedChars {count : Nat} {text : List Char} (h : exposed count text = 0)
    (word rest : List Char) :
    wordsFrom (some word) true count (text.flatMap quotedChar ++ '"' :: rest) =
      wordsFrom (some (word ++ List.replicate count '\\' ++ text)) false 0 rest := by
  induction text generalizing count word with
  | nil =>
      obtain rfl : count = 0 := h
      simp [wordsFrom]
  | cons c others ih =>
      by_cases hbackslash : c = '\\'
      · have hmore : exposed (count + 1) others = 0 := by simpa [exposed, hbackslash] using h
        have hread := ih hmore word
        simp [quotedChar, wordsFrom, hbackslash, List.replicate_succ'] at hread ⊢
        exact hread
      · by_cases hquote : c = '"'
        · have hnone : count = 0 ∧ exposed 0 others = 0 := by
            simpa [exposed, hquote] using h
          obtain ⟨rfl, hothers⟩ := hnone
          have hread := ih hothers (word ++ ['"'])
          simp [quotedChar, wordsFrom, hquote] at hread ⊢
          exact hread
        · have hothers : exposed 0 others = 0 := by
            simpa [exposed, hbackslash, hquote] using h
          have hword : (withBackslashes (some word) count).getD [] =
              word ++ List.replicate count '\\' := by
            unfold withBackslashes
            split
            · next hzero => simp [hzero]
            · rfl
          have hread := ih hothers (word ++ List.replicate count '\\' ++ [c])
          simp [quotedChar, wordsFrom, hbackslash, hquote, hword] at hread ⊢
          exact hread

/-- A text without blanks and double quotes goes on with a word. -/
theorem wordsFrom_plain {text : List Char} (h : text.any isActive = false)
    (part : Option (List Char)) (count : Nat)
    (hword : text ≠ [] ∨ withBackslashes part count ≠ none) :
    ∃ part' count',
      withBackslashes part' count' = some ((withBackslashes part count).getD [] ++ text) ∧
      ∀ rest, wordsFrom part false count (text ++ rest) = wordsFrom part' false count' rest := by
  induction text generalizing part count with
  | nil =>
      obtain ⟨word, hword⟩ := Option.ne_none_iff_exists'.mp (hword.resolve_left (by simp))
      exact ⟨part, count, by simp [hword], fun _ => rfl⟩
  | cons c others ih =>
      obtain ⟨hc, hothers⟩ : isActive c = false ∧ others.any isActive = false := by
        simpa using h
      obtain ⟨⟨hspace, htab⟩, hquote⟩ : (c ≠ ' ' ∧ c ≠ '\t') ∧ c ≠ '"' := by
        simpa [isActive] using hc
      by_cases hbackslash : c = '\\'
      · have hone : withBackslashes part (count + 1) =
            some ((withBackslashes part count).getD [] ++ ['\\']) := by
          unfold withBackslashes
          by_cases hzero : count = 0
          · simp [hzero]
          · simp [hzero, List.replicate_succ']
        obtain ⟨part', count', hpart, hread⟩ :=
          ih hothers part (count + 1) (Or.inr (by simp [hone]))
        refine ⟨part', count', ?_, ?_⟩
        · rw [hpart, hone, hbackslash]
          simp
        · intro rest
          rw [List.cons_append, wordsFrom, if_pos hbackslash, hread]
      · obtain ⟨part', count', hpart, hread⟩ :=
          ih hothers (some ((withBackslashes part count).getD [] ++ [c])) 0
            (Or.inr (by simp [withBackslashes]))
        refine ⟨part', count', ?_, ?_⟩
        · rw [hpart]
          simp [withBackslashes]
        · intro rest
          have hword : (isSeparator c && !false) = false := by simp [isSeparator, hspace, htab]
          rw [List.cons_append, wordsFrom, if_neg hbackslash, if_neg hquote,
            if_neg (Bool.eq_false_iff.mp hword), hread]

/-- **A quoted argument that has exposed nothing is read as it was.** -/
theorem begins_quoteChars {argument : List Char} (h : Survives argument) :
    Begins (quoteChars argument) argument := by
  rw [← loss_eq_zero_iff, loss] at h
  split at h
  · next hbare =>
    obtain ⟨part, count, hpart, hread⟩ := wordsFrom_plain hbare.2 none 0 (Or.inl hbare.1)
    rw [quoteChars_of_isBare hbare]
    exact ⟨part, count, by simpa [withBackslashes] using hpart, hread⟩
  · next hbare =>
    refine ⟨some argument, 0, rfl, ?_⟩
    intro rest
    have hread := wordsFrom_quotedChars h [] rest
    rw [quoteChars_of_not_isBare hbare]
    simp [wordsFrom] at hread ⊢
    exact hread

/-- Behind a word, arguments that survive are read as further words. -/
theorem wordsFrom_more {part : Option (List Char)} {count : Nat} {word : List Char}
    (hword : withBackslashes part count = some word) {arguments : List (List Char)}
    (h : ∀ argument ∈ arguments, Survives argument) :
    wordsFrom part false count (arguments.flatMap fun argument => ' ' :: quoteChars argument) =
      word :: arguments := by
  induction arguments generalizing part count word with
  | nil => simp [wordsFrom, hword]
  | cons argument rest ih =>
      obtain ⟨hfirst, hrest⟩ := List.forall_mem_cons.mp h
      obtain ⟨part', count', hpart, hread⟩ := begins_quoteChars hfirst
      have hspace : (isSeparator ' ' && !false) = true := rfl
      rw [List.flatMap_cons, List.cons_append, wordsFrom, if_neg (by decide),
        if_neg (by decide), if_pos hspace, hread, ih hpart hrest, hword]
      rfl

/-- Arguments that survive are read one after another, each from the quoting of its own. -/
theorem words_of_survives {arguments : List (List Char)}
    (h : ∀ argument ∈ arguments, Survives argument) : words (lineOf arguments) = arguments := by
  cases arguments with
  | nil => rfl
  | cons argument rest =>
      obtain ⟨hfirst, hrest⟩ := List.forall_mem_cons.mp h
      obtain ⟨part, count, hpart, hread⟩ := begins_quoteChars hfirst
      rw [lineOf_cons, words, hread, wordsFrom_more hpart hrest]

/-! ### Command lines -/

/-- **Quoted arguments come back exactly if none of them has a backslash in front of a double
quote, or at its end when it has to be quoted.** -/
theorem words_quoted_iff (arguments : List String) :
    words (String.intercalate " " (arguments.map quote)).toList = arguments.map String.toList ↔
      ∀ argument ∈ arguments, Survives argument.toList := by
  have hline : (String.intercalate " " (arguments.map quote)).toList =
      lineOf (arguments.map String.toList) := by
    rw [String.toList_intercalate, lineOf, List.map_map, List.map_map]
    congr 1
    exact List.map_congr_left fun argument _ => toList_quote argument
  rw [hline]
  constructor
  · intro h argument hmem
    exact survives_of_words h _ (List.mem_map_of_mem hmem)
  · intro h
    refine words_of_survives ?_
    intro text htext
    obtain ⟨argument, hmem, rfl⟩ := List.mem_map.mp htext
    exact h argument hmem

/-- A directory with a space in its name that ends in a backslash does not come back: the double
quote behind it becomes part of it, and so does all up to the next one. -/
theorem words_quoted_iff_trailingBackslash :
    words (String.intercalate " " (["C:\\my dir\\", "/O2"].map quote)).toList =
        ["C:\\my dir\" /O2".toList] ∧
      words (String.intercalate " " (["C:\\my dir\\", "/O2"].map quote)).toList ≠
        ["C:\\my dir\\", "/O2"].map String.toList := by
  refine ⟨rfl, ?_⟩
  intro h
  obtain ⟨-, hlast⟩ := (words_quoted_iff _).mp h "C:\\my dir\\" List.mem_cons_self
  exact hlast rfl rfl

-- a backslash at the end of an argument that is not quoted, one in front of a blank, and a double
-- quote on its own
example :
    words (String.intercalate " " (["C:\\bin\\", "", "C:\\a\\ b", "say \"hi\""].map quote)).toList =
      ["C:\\bin\\", "", "C:\\a\\ b", "say \"hi\""].map String.toList :=
  rfl

end NativeExtension.Windows
