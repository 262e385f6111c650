import NativeExtension.Arguments.Posix
import NativeExtension.Arguments.Windows

/-!
# NativeExtension.Proofs.Arguments.Quoting

**Quoting adds nothing but quotes and backslashes**, whichever shell it is for, and no
quoted argument starts with a space.
-/

namespace NativeExtension

section Members

variable {c : Char} (hescape : c ≠ '\\')

include hescape

/-- A character that is neither a quote nor a backslash stands in a quoted argument exactly if
it stands in the argument. -/
theorem Posix.mem_quoteChars_iff (hquote : c ≠ '\'') (argument : List Char) :
    c ∈ Posix.quoteChars argument ↔ c ∈ argument := by
  have hchar : ∀ d, c ∈ Posix.quotedChar d ↔ c = d := by
    intro d
    unfold Posix.quotedChar
    split
    · next heq => simp [heq, hquote, hescape]
    · simp
  unfold Posix.quoteChars
  split
  · rfl
  · simp [hquote, hchar]

theorem Windows.mem_quoteChars_iff (hquote : c ≠ '"') (argument : List Char) :
    c ∈ Windows.quoteChars argument ↔ c ∈ argument := by
  have hchar : ∀ d, c ∈ Windows.quotedChar d ↔ c = d := by
    intro d
    unfold Windows.quotedChar
    split
    · next heq => simp [heq, hquote, hescape]
    · simp
  unfold Windows.quoteChars
  split
  · rfl
  · simp [hquote, hchar]

end Members

/-- A value of the file loses the spaces in front of it, and a quoted argument has none to
lose. -/
theorem Posix.head?_quoteChars (argument : List Char) :
    (Posix.quoteChars argument).head? ≠ some ' ' := by
  unfold Posix.quoteChars
  split
  · next hbare =>
    intro hhead
    have hmem : ' ' ∈ argument := List.mem_of_mem_head? hhead
    exact absurd (List.all_eq_true.mp hbare.2 ' ' hmem) (by decide)
  · simp

theorem Windows.head?_quoteChars (argument : List Char) :
    (Windows.quoteChars argument).head? ≠ some ' ' := by
  unfold Windows.quoteChars
  split
  · next hplain =>
    intro hhead
    have hmem : ' ' ∈ argument := List.mem_of_mem_head? hhead
    have hactive : argument.any Windows.isActive = true :=
      List.any_eq_true.mpr ⟨' ', hmem, by decide⟩
    simp [hactive] at hplain
  · simp

end NativeExtension
