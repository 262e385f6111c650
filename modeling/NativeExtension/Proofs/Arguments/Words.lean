import NativeExtension.Arguments.Posix
import NativeExtension.Proofs.Text.Fields

/-!
# NativeExtension.Proofs.Arguments.Words

**Which words a shell makes of a text that was put together.** Three ways of reading a text
fit together: it goes on with a word that has begun (`Continues`), it begins a word
(`Starts`), or it is some whole words (`ReadsAs`). Bare and quoted texts do the first two,
and texts that are whole words stay so behind one another with a space between. So a list of
quoted arguments is read as those arguments (`words?_quoted`).
-/

namespace NativeExtension.Posix

/-- A shell that reads `text` in a word goes on with the word by `part`. -/
def Continues (text part : List Char) : Prop :=
  ∀ word rest, wordsFrom (.word word) (text ++ rest) = wordsFrom (.word (word ++ part)) rest

/-- A shell that reads `text` between two words begins the word `part`. -/
def Starts (text part : List Char) : Prop :=
  ∀ rest, wordsFrom .between (text ++ rest) = wordsFrom (.word part) rest

/-- A shell reads `text` as `words`, also in front of further words. -/
def ReadsAs (text : List Char) (words : List (List Char)) : Prop :=
  words? text = some words ∧
    ∀ rest, wordsFrom .between (text ++ ' ' :: rest) =
      (wordsFrom .between rest).map (words ++ ·)

/-! ### Parts of words -/

theorem continues_bare {text : List Char} (h : text.all isBare = true) : Continues text text :=
  fun word rest => wordsFrom_bare h word rest

/-- In a word a shell takes a quoted argument as it takes a bare one: the quotes leave no
trace. -/
theorem continues_quoteChars (argument : List Char) :
    Continues (quoteChars argument) argument := by
  intro word rest
  unfold quoteChars
  split
  · next hbare => exact wordsFrom_bare hbare.2 word rest
  · rw [List.cons_append, List.cons_append, wordsFrom, if_neg (by decide), List.append_assoc]
    exact wordsFrom_quoted argument word rest

theorem starts_quoteChars (argument : List Char) : Starts (quoteChars argument) argument :=
  wordsFrom_quoteChars argument

/-- What stands between single quotes is one word. -/
theorem starts_quoted (argument : List Char) :
    Starts ('\'' :: (argument.flatMap quotedChar ++ ['\''])) argument := by
  intro rest
  have hquoted := wordsFrom_quoted argument [] rest
  rw [List.nil_append] at hquoted
  rw [List.cons_append, wordsFrom, if_neg (by decide), List.append_assoc]
  exact hquoted

/-- A bare text that is not empty is quoted as itself, so it starts a word because quoted
texts do. -/
theorem starts_bare {text : List Char} (hne : text ≠ []) (h : text.all isBare = true) :
    Starts text text := by
  intro rest
  -- quoting leaves such a text alone
  have hquote : quoteChars text = text := if_pos ⟨hne, h⟩
  have hread := wordsFrom_quoteChars text rest
  rw [hquote] at hread
  exact hread

theorem Starts.append {a b x y : List Char} (ha : Starts a x) (hb : Continues b y) :
    Starts (a ++ b) (x ++ y) := by
  intro rest
  rw [List.append_assoc, ha, hb]

/-! ### Whole words -/

/-- A text that begins a word and has nothing behind it is that word. -/
theorem Starts.readsAs {text word : List Char} (h : Starts text word) : ReadsAs text [word] := by
  constructor
  · have hend := h []
    rw [List.append_nil] at hend
    rw [words?, hend]
    rfl
  · intro rest
    rw [h, wordsFrom, if_pos (by decide)]
    rfl

theorem readsAs_nil : ReadsAs [] [] := by
  refine ⟨rfl, ?_⟩
  intro rest
  rw [List.nil_append, wordsFrom, if_pos (by decide)]
  simp

/-- Texts that are whole words stay so behind one another, with a space between. -/
theorem ReadsAs.append {a b : List Char} {x y : List (List Char)} (ha : ReadsAs a x)
    (hb : ReadsAs b y) : ReadsAs (a ++ ' ' :: b) (x ++ y) := by
  constructor
  · rw [words?, ha.2, ← words?, hb.1, Option.map_some]
  · intro rest
    rw [List.append_assoc, List.cons_append, ha.2, hb.2, Option.map_map]
    congr 1
    funext words
    simp

theorem readsAs_bare {text : List Char} (hne : text ≠ []) (h : text.all isBare = true) :
    ReadsAs text [text] :=
  (starts_bare hne h).readsAs

theorem readsAs_quoteChars (argument : List Char) : ReadsAs (quoteChars argument) [argument] :=
  (starts_quoteChars argument).readsAs

/-! ### Lists of arguments -/

/-- The list form of `ReadsAs.append`: either side may be without arguments. -/
theorem ReadsAs.intercalate_append {as bs : List (List Char)} {x y : List (List Char)}
    (ha : ReadsAs (List.intercalate [' '] as) x) (hb : ReadsAs (List.intercalate [' '] bs) y) :
    ReadsAs (List.intercalate [' '] (as ++ bs)) (x ++ y) := by
  -- without arguments on one side there is no space between
  by_cases has : as = []
  · subst has
    obtain rfl : [] = x := Option.some.inj ha.1
    exact hb
  · by_cases hbs : bs = []
    · subst hbs
      obtain rfl : [] = y := Option.some.inj hb.1
      rw [List.append_nil, List.append_nil]
      exact ha
    · rw [Text.intercalate_append _ has hbs, List.append_assoc, List.singleton_append]
      exact ha.append hb

theorem ReadsAs.intercalate_singleton {a : List Char} {x : List (List Char)} (h : ReadsAs a x) :
    ReadsAs (List.intercalate [' '] [a]) x := by
  rw [List.intercalate_singleton]
  exact h

theorem ReadsAs.intercalate_cons {a : List Char} {bs : List (List Char)} {x y : List (List Char)}
    (ha : ReadsAs a x) (hb : ReadsAs (List.intercalate [' '] bs) y) :
    ReadsAs (List.intercalate [' '] (a :: bs)) (x ++ y) :=
  ha.intercalate_singleton.intercalate_append hb

/-- Arguments that are each written as one word are read as those words. -/
theorem readsAs_map {α : Type} {written : α → List Char} {word : α → List Char}
    {arguments : List α} (h : ∀ a ∈ arguments, ReadsAs (written a) [word a]) :
    ReadsAs (List.intercalate [' '] (arguments.map written)) (arguments.map word) := by
  induction arguments with
  | nil => exact readsAs_nil
  | cons a rest ih =>
      obtain ⟨hfirst, hrest⟩ := List.forall_mem_cons.mp h
      exact hfirst.intercalate_cons (ih hrest)

/-! ### Command lines -/

/-- A quoted argument behind a bare prefix is one word, with the prefix in front. -/
theorem readsAs_prefixed {bare : List Char} (h : bare.all isBare = true) (argument : List Char) :
    ReadsAs (bare ++ quoteChars argument) [bare ++ argument] := by
  by_cases hnil : bare = []
  · subst hnil
    exact readsAs_quoteChars argument
  · exact ((starts_bare hnil h).append (continues_quoteChars argument)).readsAs

/-- **A shell gives back every list of quoted arguments**, whatever they hold; and where a bare
prefix stands in front of a quoted argument, it gives back the two as one word. -/
theorem words?_quoted :
    (∀ arguments : List String,
      words? (String.intercalate " " (arguments.map quote)).toList =
        some (arguments.map String.toList)) ∧
    ∀ flags : List (String × String), (∀ flag ∈ flags, flag.1.toList.all isBare = true) →
      words? (String.intercalate " " (flags.map fun flag => flag.1 ++ quote flag.2)).toList =
        some (flags.map fun flag => (flag.1 ++ flag.2).toList) := by
  constructor
  · intro arguments
    have hread : ReadsAs (List.intercalate [' '] (arguments.map fun a => quoteChars a.toList))
        (arguments.map String.toList) := readsAs_map fun a _ => readsAs_quoteChars a.toList
    rw [String.toList_intercalate, List.map_map]
    simpa [Function.comp_def] using hread.1
  · intro flags hbare
    have hread : ReadsAs
        (List.intercalate [' '] (flags.map fun flag => flag.1.toList ++ quoteChars flag.2.toList))
        (flags.map fun flag => flag.1.toList ++ flag.2.toList) :=
      readsAs_map fun flag hflag => readsAs_prefixed (hbare flag hflag) flag.2.toList
    rw [String.toList_intercalate, List.map_map]
    simpa [Function.comp_def, String.toList_append] using hread.1

/-- An empty directory, one with a quote, and one that a shell would expand. -/
def oddFlags : List (String × String) :=
  [("-I", ""), ("-I", "/tmp/it's here"), ("-L", "$HOME/*\n\\")]

theorem words?_quoted_odd :
    (∀ flag ∈ oddFlags, flag.1.toList.all isBare = true) ∧
      (String.intercalate " " (oddFlags.map fun flag => flag.1 ++ quote flag.2)) =
        "-I'' -I'/tmp/it'\\''s here' -L'$HOME/*\n\\'" ∧
      words? (String.intercalate " " (oddFlags.map fun flag => flag.1 ++ quote flag.2)).toList =
        some ["-I".toList, "-I/tmp/it's here".toList, "-L$HOME/*\n\\".toList] := by
  have hbare : ∀ flag ∈ oddFlags, flag.1.toList.all isBare = true :=
    List.forall_mem_cons.mpr
      ⟨rfl, List.forall_mem_cons.mpr ⟨rfl, List.forall_mem_singleton.mpr rfl⟩⟩
  exact ⟨hbare, rfl, words?_quoted.2 oddFlags hbare⟩

end NativeExtension.Posix
