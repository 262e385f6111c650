import NativeExtension.Proofs.Toolchain.VersionSearch
import NativeExtension.Text.Blank

/-!
# NativeExtension.Proofs.Toolchain.LowerCase

**The version that is told in lower case.** The lower-case form of a character beyond ASCII can be
more than one character and depend on what stands around it. The search for a version sees none of
this: the characters that it looks at are written in lower case only by themselves or by the ASCII
capital (`LowersTo`), and in place of another character there may stand any that it does not look
at (`Alike`). So all lower-case forms of a text tell the version that the form tells in which only
the ASCII letters are lowered (`gccVersion?_of_lowered`).
-/

namespace NativeExtension.GccVersion

/-- The characters that the search for a version looks at. -/
def isTelling (c : Char) : Bool :=
  Text.isDecimalDigit c || c == '.' || c == 'x' || c == 'g' || c == 'c'

/-- The lower-case form of a character. An ASCII character has its own, a digit is its own, and no
other character is written with one that a search for a version looks at. -/
inductive LowersTo : Char → List Char → Prop
  | ascii {c : Char} : c.toNat < 128 → LowersTo c [c.toLower]
  | digit {c : Char} : Text.isDecimalDigit c = true → LowersTo c [c]
  | other {c : Char} {written : List Char} : 128 ≤ c.toNat → Text.isDecimalDigit c = false →
      written ≠ [] → (∀ d ∈ written, isTelling d = false) → LowersTo c written

/-- A lower-case form of a text: one character after the other is lowered. -/
inductive Lowered : List Char → List Char → Prop
  | nil : Lowered [] []
  | cons {c : Char} {written text told : List Char} : LowersTo c written → Lowered text told →
      Lowered (c :: text) (written ++ told)

/-- Two texts that differ only in characters that no search for a version looks at. -/
inductive Alike : List Char → List Char → Prop
  | nil : Alike [] []
  | same (c : Char) {text text' : List Char} : Alike text text' → Alike (c :: text) (c :: text')
  | dull {c : Char} {written text text' : List Char} : isTelling c = false → written ≠ [] →
      (∀ d ∈ written, isTelling d = false) → Alike text text' →
      Alike (c :: text) (written ++ text')

theorem isDecimalDigit_of_dull {c : Char} (h : isTelling c = false) :
    Text.isDecimalDigit c = false := by
  simp only [isTelling, Bool.or_eq_false_iff] at h
  exact h.1.1.1.1

theorem ne_of_dull {c d : Char} (hc : isTelling c = false) (hd : isTelling d = true) : c ≠ d := by
  rintro rfl
  rw [hc] at hd
  cases hd

/-- No word that starts with a character that is looked at stands at a dull one. -/
theorem isPrefixOf_of_dull {c d : Char} (hc : isTelling c = true) (hd : isTelling d = false)
    (rest others : List Char) : (c :: rest).isPrefixOf (d :: others) = false := by
  rw [List.isPrefixOf_cons_cons, beq_false_of_ne (ne_of_dull hd hc).symm, Bool.false_and]

/-! ### Texts that a search does not tell apart -/

namespace Alike

variable {text text' : List Char}

/-- A character that is looked at stands at the front of both or of none. -/
theorem head?_iff (h : Alike text text') {c : Char} (hc : isTelling c = true) :
    text.head? = some c ↔ text'.head? = some c := by
  cases h with
  | nil => rfl
  | same d h => rfl
  | dull hd hne hwritten h =>
      obtain ⟨e, others, rfl⟩ := List.exists_cons_of_ne_nil hne
      have he := hwritten e List.mem_cons_self
      simp [ne_of_dull hd hc, ne_of_dull he hc]

/-- Behind a character that is looked at the texts are alike again. -/
theorem tail {c : Char} (h : Alike (c :: text) (c :: text')) (hc : isTelling c = true) :
    Alike text text' := by
  generalize hfront : c :: text = front at h
  generalize hfront' : c :: text' = front' at h
  cases h with
  | nil => cases hfront
  | same d h =>
      obtain ⟨rfl, rfl⟩ := List.cons.inj hfront
      obtain ⟨-, rfl⟩ := List.cons.inj hfront'
      exact h
  | dull hd hne hwritten h =>
      obtain ⟨rfl, rfl⟩ := List.cons.inj hfront
      exact absurd rfl (ne_of_dull hd hc)

theorem takeWhile_eq (h : Alike text text') :
    text.takeWhile Text.isDecimalDigit = text'.takeWhile Text.isDecimalDigit := by
  induction h with
  | nil => rfl
  | same c h ih => rw [List.takeWhile_cons, List.takeWhile_cons, ih]
  | dull hc hne hwritten h ih =>
      obtain ⟨d, others, rfl⟩ := List.exists_cons_of_ne_nil hne
      have hd := isDecimalDigit_of_dull (hwritten d List.mem_cons_self)
      rw [List.cons_append, List.takeWhile_cons_of_neg (by simp [isDecimalDigit_of_dull hc]),
        List.takeWhile_cons_of_neg (by simp [hd])]

theorem dropWhile (h : Alike text text') :
    Alike (text.dropWhile Text.isDecimalDigit) (text'.dropWhile Text.isDecimalDigit) := by
  induction h with
  | nil => exact .nil
  | same c h ih =>
      rw [List.dropWhile_cons, List.dropWhile_cons]
      split
      · exact ih
      · exact .same c h
  | dull hc hne hwritten h ih =>
      have hkept := Alike.dull hc hne hwritten h
      obtain ⟨d, others, rfl⟩ := List.exists_cons_of_ne_nil hne
      have hd := isDecimalDigit_of_dull (hwritten d List.mem_cons_self)
      rw [List.cons_append] at hkept ⊢
      rwa [List.dropWhile_cons_of_neg (by simp [isDecimalDigit_of_dull hc]),
        List.dropWhile_cons_of_neg (by simp [hd])]

theorem minor?_eq (h : Alike text text') : minor? text = minor? text' := by
  unfold minor?
  rw [h.takeWhile_eq]
  congr 2
  exact propext (h.head?_iff rfl)

end Alike

/-- A character that is no digit starts no version. -/
theorem versionHere?_of_dull {c : Char} (h : isTelling c = false) (rest : List Char) :
    versionHere? (c :: rest) = none := by
  refine versionHere?_of_no_dot ?_
  rw [List.dropWhile_cons_of_neg (by simp [isDecimalDigit_of_dull h]), List.head?_cons]
  exact fun heq => ne_of_dull h rfl (Option.some.inj heq)

namespace Alike

variable {text text' : List Char}

theorem versionHere?_eq (h : Alike text text') : versionHere? text = versionHere? text' := by
  have hdrop := h.dropWhile
  have hdots := hdrop.head?_iff (c := '.') rfl
  by_cases hdot : (text.dropWhile Text.isDecimalDigit).head? = some '.'
  · obtain ⟨after, hafter⟩ := List.head?_eq_some_iff.mp hdot
    obtain ⟨after', hafter'⟩ := List.head?_eq_some_iff.mp (hdots.mp hdot)
    rw [hafter, hafter'] at hdrop
    have hbehind := hdrop.tail rfl
    rw [versionHere?_of_dot hafter, versionHere?_of_dot hafter', h.takeWhile_eq, hbehind.minor?_eq]
  · rw [versionHere?_of_no_dot hdot, versionHere?_of_no_dot (hdots.not.mp hdot)]

/-- By induction on the relation: what is dropped or changed takes no part in a version. -/
theorem firstVersion?_eq (h : Alike text text') : firstVersion? text = firstVersion? text' := by
  induction h with
  | nil => rfl
  | same c h ih => rw [firstVersion?, firstVersion?, (Alike.same c h).versionHere?_eq, ih]
  | @dull c written text text' hc hne hwritten h ih =>
      rw [firstVersion?, versionHere?_of_dull hc, ih]
      clear hne
      induction written with
      | nil => rfl
      | cons d others ihwritten =>
          obtain ⟨hd, hothers⟩ := List.forall_mem_cons.mp hwritten
          rw [List.cons_append, firstVersion?, versionHere?_of_dull hd]
          exact ihwritten hothers

/-- A word of characters that are looked at stands at the front of both or of none. -/
theorem isPrefixOf_eq (h : Alike text text') {word : List Char}
    (hword : ∀ c ∈ word, isTelling c = true) : word.isPrefixOf text = word.isPrefixOf text' := by
  induction word generalizing text text' with
  | nil => rfl
  | cons c rest ih =>
      obtain ⟨hc, hrest⟩ := List.forall_mem_cons.mp hword
      cases h with
      | nil => rfl
      | same d h => rw [List.isPrefixOf_cons_cons, List.isPrefixOf_cons_cons, ih h hrest]
      | dull hd hne hwritten h =>
          obtain ⟨e, others, rfl⟩ := List.exists_cons_of_ne_nil hne
          have he := hwritten e List.mem_cons_self
          rw [List.cons_append, isPrefixOf_of_dull hc hd, isPrefixOf_of_dull hc he]

/-- A word of telling characters occurs in both texts or in neither. -/
theorem occurs_eq (h : Alike text text') {first : Char} {rest : List Char}
    (hword : ∀ c ∈ first :: rest, isTelling c = true) :
    occurs (first :: rest) text = occurs (first :: rest) text' := by
  have hfirst := hword first List.mem_cons_self
  have hdull : ∀ c others, isTelling c = false →
      occurs (first :: rest) (c :: others) = occurs (first :: rest) others := by
    intro c others hc
    rw [occurs, isPrefixOf_of_dull hfirst hc, Bool.false_or]
  induction h with
  | nil => rfl
  | same c h ih => rw [occurs, occurs, (Alike.same c h).isPrefixOf_eq hword, ih]
  | @dull c written text text' hc hne hwritten h ih =>
      rw [hdull c text hc, ih]
      clear hne
      induction written with
      | nil => rfl
      | cons d others ihwritten =>
          obtain ⟨hd, hothers⟩ := List.forall_mem_cons.mp hwritten
          rw [List.cons_append, hdull d _ hd]
          exact ihwritten hothers

theorem gccVersion?_eq (h : Alike text text') : gccVersion? text = gccVersion? text' := by
  have hword : ∀ c ∈ ['g', 'c', 'c'], isTelling c = true :=
    List.forall_mem_cons.mpr
      ⟨rfl, List.forall_mem_cons.mpr ⟨rfl, List.forall_mem_singleton.mpr rfl⟩⟩
  unfold gccVersion?
  rw [h.firstVersion?_eq]
  congr 2
  exact h.occurs_eq hword

end Alike

/-! ### Lower-case forms -/

/-- Only the capitals between `A` and `Z` are lowered. -/
theorem toLower_of_no_capital {c : Char} (h : c.toNat < 65 ∨ 90 < c.toNat) : c.toLower = c := by
  unfold Char.toLower
  split
  · next hcapital =>
    have hlow : 65 ≤ c.toNat := hcapital.1
    have hhigh : c.toNat ≤ 90 := hcapital.2
    omega
  · rfl

theorem no_capital_of_digit {c : Char} (h : Text.isDecimalDigit c = true) :
    c.toNat < 65 ∨ 90 < c.toNat := by
  obtain ⟨first, hfirst, hin⟩ := List.any_eq_true.mp h
  have hrow : first + 9 < 65 ∨ 90 < first := by
    have hrows : ∀ first ∈ Text.zeros, first + 9 < 65 ∨ 90 < first := by decide
    exact hrows first hfirst
  simp only [Bool.and_eq_true, decide_eq_true_eq] at hin
  omega

theorem dull_of_wide {c : Char} (h : 128 ≤ c.toNat) (hdigit : Text.isDecimalDigit c = false) :
    isTelling c = false := by
  have hne : ∀ d : Char, d.toNat < 128 → (c == d) = false := by
    intro d hd
    refine beq_false_of_ne ?_
    rintro rfl
    omega
  simp only [isTelling, hdigit, hne '.' (by decide), hne 'x' (by decide), hne 'g' (by decide),
    hne 'c' (by decide), Bool.or_self]

/-- A lower-case form and the one in which only the ASCII letters are lowered. -/
theorem alike_of_lowered {text told : List Char} (h : Lowered text told) :
    Alike (Text.lowerAscii text) told := by
  induction h with
  | nil => exact .nil
  | @cons c written text told hc h ih =>
      change Alike (c.toLower :: Text.lowerAscii text) (written ++ told)
      cases hc with
      | ascii hascii => exact .same _ ih
      | digit hdigit =>
          rw [toLower_of_no_capital (no_capital_of_digit hdigit)]
          exact .same _ ih
      | other hwide hdigit hne hwritten =>
          rw [toLower_of_no_capital (by omega)]
          exact .dull (dull_of_wide hwide hdigit) hne hwritten ih

/-- Lowering only the ASCII letters gives a lower-case form. -/
theorem lowered_lowerAscii (text : List Char) : Lowered text (Text.lowerAscii text) := by
  induction text with
  | nil => exact .nil
  | cons c rest ih =>
      change Lowered (c :: rest) ([c.toLower] ++ Text.lowerAscii rest)
      refine .cons ?_ ih
      by_cases hascii : c.toNat < 128
      · exact .ascii hascii
      · rw [toLower_of_no_capital (by omega)]
        by_cases hdigit : Text.isDecimalDigit c = true
        · exact .digit hdigit
        · have hdull := dull_of_wide (Nat.le_of_not_lt hascii) (Bool.eq_false_iff.mpr hdigit)
          refine .other (Nat.le_of_not_lt hascii) (Bool.eq_false_iff.mpr hdigit)
            (List.cons_ne_nil c []) ?_
          intro d hd
          rwa [List.mem_singleton.mp hd]

/-- **All lower-case forms of a text tell the same version.** -/
theorem gccVersion?_of_lowered {text told : List Char} (h : Lowered text told) :
    gccVersion? told = gccVersion? (Text.lowerAscii text) :=
  (alike_of_lowered h).gccVersion?_eq.symm

end NativeExtension.GccVersion
