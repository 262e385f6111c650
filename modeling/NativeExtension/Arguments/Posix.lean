/-!
# NativeExtension.Arguments.Posix

**Arguments on a command line for a POSIX shell**, both ways.

* `quote` writes one argument. An argument of harmless characters is left bare; any other
  is put between single quotes, where a shell takes every character as it is except the
  single quote itself, which is written as `'\''`: close, an escaped quote, open again.
* `words?` takes a command line apart as a shell does, as far as arguments written by
  `quote` and bare words go; a line on which a shell would do more is refused.
-/

namespace NativeExtension.Posix

/-- Characters that mean nothing to a shell wherever they stand. -/
def isBare (c : Char) : Bool :=
  c.isAlphanum || "-_./=+:,@%".toList.contains c

/-- A character between single quotes. -/
def quotedChar (c : Char) : List Char :=
  if c = '\'' then ['\'', '\\', '\'', '\''] else [c]

/-- An argument as a shell has to be given it. -/
def quoteChars (argument : List Char) : List Char :=
  if argument ≠ [] ∧ argument.all isBare then argument
  else '\'' :: argument.flatMap quotedChar ++ ['\'']

def quote (argument : String) : String :=
  String.ofList (quoteChars argument.toList)

def isSeparator (c : Char) : Bool := c = ' ' || c = '\t' || c = '\n'

/-- Where a shell stands on a command line. -/
inductive Mode where
  | between
  /-- In a word, of which `text` has been read. -/
  | word (text : List Char)
  /-- Between single quotes in a word, of which `text` has been read. -/
  | quoted (text : List Char)
  /-- Behind a backslash in a word, of which `text` has been read. -/
  | escaped (text : List Char)
deriving DecidableEq, Repr

/-- Where a character leads that belongs to a word, of which `text` has been read; nowhere
if a shell would do more with it than take it. -/
def takeInWord (text : List Char) (c : Char) : Option Mode :=
  if c = '\'' then some (.quoted text)
  else if c = '\\' then some (.escaped text)
  else if isBare c then some (.word (text ++ [c]))
  else none

/-- The words of the rest of a command line. Blanks and line ends part words; between
single quotes every character stands for itself; a backslash outside of quotes takes
the next character as it is. Outside of quotes no other character is taken than those
that mean nothing to a shell. -/
def wordsFrom : Mode → List Char → Option (List (List Char))
  | .between, [] => some []
  | .word text, [] => some [text]
  | .quoted _, [] => none
  | .escaped _, [] => none
  | .between, c :: rest =>
    if isSeparator c then wordsFrom .between rest
    else
      match takeInWord [] c with
      | some mode => wordsFrom mode rest
      | none => none
  | .word text, c :: rest =>
    if isSeparator c then (wordsFrom .between rest).map (text :: ·)
    else
      match takeInWord text c with
      | some mode => wordsFrom mode rest
      | none => none
  | .quoted text, c :: rest =>
    if c = '\'' then wordsFrom (.word text) rest else wordsFrom (.quoted (text ++ [c])) rest
  | .escaped text, c :: rest => wordsFrom (.word (text ++ [c])) rest

/-- The words of a command line, unless a shell would do more than split it. -/
def words? (line : List Char) : Option (List (List Char)) := wordsFrom .between line

@[simp] theorem toList_quote (argument : String) :
    (quote argument).toList = quoteChars argument.toList := by
  simp [quote]

/-! ### A quoted argument on a command line -/

theorem isSeparator_of_isBare {c : Char} (h : isBare c = true) : isSeparator c = false := by
  by_cases blank : c = ' ' ∨ c = '\t' ∨ c = '\n'
  · rcases blank with rfl | rfl | rfl <;> exact absurd h (by decide)
  · simp_all [isSeparator]

theorem takeInWord_of_isBare {c : Char} (h : isBare c = true) (text : List Char) :
    takeInWord text c = some (.word (text ++ [c])) := by
  have quote : c ≠ '\'' := by rintro rfl; exact absurd h (by decide)
  have backslash : c ≠ '\\' := by rintro rfl; exact absurd h (by decide)
  simp [takeInWord, quote, backslash, h]

/-- Bare characters go on with a word. -/
theorem wordsFrom_bare {argument : List Char} (h : argument.all isBare = true)
    (text rest : List Char) :
    wordsFrom (.word text) (argument ++ rest) = wordsFrom (.word (text ++ argument)) rest := by
  induction argument generalizing text with
  | nil => simp
  | cons c others ih =>
    simp only [List.all_cons, Bool.and_eq_true] at h
    rw [List.cons_append, wordsFrom, if_neg (by simp [isSeparator_of_isBare h.1]),
      takeInWord_of_isBare h.1]
    simp [ih h.2]

/-- What stands between the quotes of a quoted argument is read as the argument. -/
theorem wordsFrom_quoted (argument text rest : List Char) :
    wordsFrom (.quoted text) (argument.flatMap quotedChar ++ '\'' :: rest) =
      wordsFrom (.word (text ++ argument)) rest := by
  induction argument generalizing text with
  | nil => simp [wordsFrom]
  | cons c others ih =>
    by_cases h : c = '\''
    · subst h
      simp only [List.flatMap_cons, quotedChar, ↓reduceIte, List.cons_append, List.nil_append,
        wordsFrom]
      rw [if_neg (by decide)]
      simp only [takeInWord, Char.reduceEq, ↓reduceIte, wordsFrom]
      rw [if_neg (by decide)]
      simp [ih]
    · simp [quotedChar, h, wordsFrom, ih]

/-- A quoted argument is read as one word, which goes on with what follows. -/
theorem wordsFrom_quoteChars (argument rest : List Char) :
    wordsFrom .between (quoteChars argument ++ rest) = wordsFrom (.word argument) rest := by
  unfold quoteChars
  split
  · next h =>
    obtain ⟨nonempty, bare⟩ := h
    cases argument with
    | nil => exact absurd rfl nonempty
    | cons c others =>
      simp only [List.all_cons, Bool.and_eq_true] at bare
      rw [List.cons_append, wordsFrom, if_neg (by simp [isSeparator_of_isBare bare.1]),
        takeInWord_of_isBare bare.1]
      exact wordsFrom_bare bare.2 _ _
  · rw [List.cons_append, List.cons_append, wordsFrom, if_neg (by decide)]
    simp only [takeInWord, ↓reduceIte]
    rw [List.append_assoc]
    simpa using wordsFrom_quoted argument [] rest

end NativeExtension.Posix
