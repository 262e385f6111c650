import NativeExtension.Ninja.Escape
import NativeExtension.Ninja.Reader

/-!
# NativeExtension.Ninja.RoundTrip

**What was escaped reads back.** A value reads back whatever it holds
(`readValue_escapedValue`). A path reads back up to the end of the line or to a character
that ends a path (`readPath_escapedPath`), unless it holds a bar: a bar ends a path and no
escape takes that from it.
-/

namespace NativeExtension.Ninja

/-- An escaped value reads back. -/
theorem readValue_escapedValue (value : List Char) :
    readValue (value.flatMap escapedValueChar) = some value := by
  unfold readValue
  induction value with
  | nil => rfl
  | cons c rest ih =>
    by_cases h : c = '$'
    · subst h
      simp [escapedValueChar, readValueFrom, ih]
    · simp [escapedValueChar, readValueFrom, h, ih]

/-- A character of a path reads back as it was escaped. -/
theorem readPathFrom_escapedPathChar {c : Char} (noBar : c ≠ '|') (rest : List Char) :
    readPathFrom false (escapedPathChar c ++ rest) =
      (readPathFrom false rest).map fun (path, after) => (c :: path, after) := by
  by_cases special : isSpecialInPath c = true
  · have listed : c = '$' ∨ c = ' ' ∨ c = ':' := by
      simpa [isSpecialInPath, or_assoc] using special
    simp [escapedPathChar, special, readPathFrom, listed]
  · have plain : c ≠ '$' ∧ c ≠ ' ' ∧ c ≠ ':' := by
      simpa [isSpecialInPath, not_or, and_assoc] using special
    simp [escapedPathChar, special, readPathFrom, plain, endsPath, noBar]

/-- An escaped path without a bar reads back, with what follows where the path ends. -/
theorem readPath_escapedPath {path rest : List Char} (noBar : '|' ∉ path)
    (ends : rest = [] ∨ ∃ c after, rest = c :: after ∧ endsPath c = true) :
    readPath (path.flatMap escapedPathChar ++ rest) = some (path, rest) := by
  unfold readPath
  induction path with
  | nil =>
    rcases ends with rfl | ⟨c, after, rfl, h⟩
    · rfl
    · have dollar : c ≠ '$' := by rintro rfl; exact absurd h (by decide)
      simp [readPathFrom, dollar, h]
  | cons c others ih =>
    have parts : '|' ≠ c ∧ '|' ∉ others := by simpa using noBar
    rw [List.flatMap_cons, List.append_assoc, readPathFrom_escapedPathChar (Ne.symm parts.1),
      ih parts.2]
    rfl

end NativeExtension.Ninja
