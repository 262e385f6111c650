import NativeExtension.Proofs.Path.Components
import NativeExtension.Proofs.Text.Ascii
import NativeExtension.Text.RoundTrip

/-!
# NativeExtension.Proofs.Names

**What an accepted name is made of.** It is a C identifier (`isIdentifierPart_of_validateName`),
so it is one file name and no way through directories (`isName_of_validateName`).
-/

namespace NativeExtension

/-- An accepted name is not empty, and its characters pass the two checks of an identifier. -/
theorem validateName_ok {name : String} (h : validateName name = .ok ()) :
    ∃ first rest, name.toList = first :: rest ∧ isIdentifierStart first = true ∧
      rest.all isIdentifierPart = true := by
  have hfault : nameFault? name = none := by
    unfold validateName at h
    split at h
    · next hnone => exact hnone
    · cases h
  unfold nameFault? at hfault
  split at hfault
  · cases hfault
  · next first rest hname =>
    split at hfault
    · cases hfault
    · split at hfault
      · next hidentifier =>
        obtain ⟨hfirst, hrest⟩ := Bool.and_eq_true_iff.mp hidentifier
        exact ⟨first, rest, hname, hfirst, hrest⟩
      · cases hfault

theorem toList_ne_nil_of_validateName {name : String} (h : validateName name = .ok ()) :
    name.toList ≠ [] := by
  obtain ⟨first, rest, hname, -, -⟩ := validateName_ok h
  simp [hname]

theorem isIdentifierPart_of_start {c : Char} (h : isIdentifierStart c = true) :
    isIdentifierPart c = true := by
  unfold isIdentifierStart at h
  unfold isIdentifierPart Char.isAlphanum
  rcases Bool.or_eq_true_iff.mp h with halpha | hunderscore
  · rw [halpha, Bool.true_or, Bool.true_or]
  · rw [hunderscore, Bool.or_true]

/-- **An accepted name is an identifier.** -/
theorem isIdentifierPart_of_validateName {name : String} (h : validateName name = .ok ())
    {c : Char} (hc : c ∈ name.toList) : isIdentifierPart c = true := by
  obtain ⟨first, rest, hname, hfirst, hrest⟩ := validateName_ok h
  rw [hname] at hc
  rcases List.mem_cons.mp hc with rfl | hc
  · exact isIdentifierPart_of_start hfirst
  · exact List.all_eq_true.mp hrest c hc

/-- **An accepted name is a file name.** -/
theorem isName_of_validateName {name : String} (h : validateName name = .ok ()) :
    Path.IsName name := by
  have habsent : ∀ b : UInt8, b < 128 → isIdentifierPart (Char.ofNat b.toNat) = false →
      b ∉ utf8 name := by
    intro b hb hpart hmem
    rw [← Utf8.mem_decodeLossy_iff hb, utf8, Utf8.decodeLossy_encode] at hmem
    rw [isIdentifierPart_of_validateName h hmem] at hpart
    cases hpart
  have hdot : dot ∉ utf8 name := habsent dot (by decide) (by decide)
  refine ⟨?_, ?_, ?_, habsent slash (by decide) (by decide)⟩
  · intro hnil
    rw [← Utf8.decodeLossy_eq_nil_iff, utf8, Utf8.decodeLossy_encode] at hnil
    exact toList_ne_nil_of_validateName h hnil
  · exact fun heq => hdot (by simp [heq])
  · exact fun heq => hdot (by simp [heq])

end NativeExtension
