import Mathlib.Data.Nat.Digits.Defs
import NativeExtension.Text.Digit

/-!
# NativeExtension.Proofs.Text.Numerals

**What a numeral is worth.** A row of digits is read as a number exactly if it is a row of ASCII
digits whose value fits into 32 bits, and then it is read as its value (`numeral?_eq_some_iff`).
Where a sign is allowed, it is one plus sign in front (`signedNumeral?_eq_some_iff`).
-/

namespace NativeExtension.Text

/-- The value of a row of ASCII digits, the most significant one first. -/
def digitsValue (digits : List Char) : Nat :=
  Nat.ofDigits 10 (digits.map fun c => c.toNat - '0'.toNat).reverse

/-- The digits write the number, which fits into 32 bits. -/
structure Writes (digits : List Char) (n : Nat) : Prop where
  nonempty : digits ≠ []
  ascii : ∀ c ∈ digits, c.isDigit = true
  value : digitsValue digits = n
  fits : n < 2 ^ 32

theorem digitsValue_cons (c : Char) (digits : List Char) :
    digitsValue (c :: digits) =
      (c.toNat - '0'.toNat) * 10 ^ digits.length + digitsValue digits := by
  unfold digitsValue
  rw [List.map_cons, List.reverse_cons, Nat.ofDigits_append, Nat.ofDigits_singleton,
    List.length_reverse, List.length_map, Nat.mul_comm, Nat.add_comm]

/-- By Horner's rule; the value read so far is general in the induction. -/
theorem digitsFrom_of_ascii {digits : List Char} (h : ∀ c ∈ digits, c.isDigit = true) (acc : Nat) :
    digitsFrom acc digits = some (acc * 10 ^ digits.length + digitsValue digits) := by
  induction digits generalizing acc with
  | nil => simp [digitsFrom, digitsValue]
  | cons c rest ih =>
      obtain ⟨hc, hrest⟩ := List.forall_mem_cons.mp h
      rw [digitsFrom, if_pos hc, ih hrest, digitsValue_cons, List.length_cons, Nat.pow_succ']
      congr 1
      rw [Nat.add_mul, Nat.mul_assoc, Nat.add_assoc]

theorem ascii_of_digitsFrom {digits : List Char} {acc n : Nat}
    (h : digitsFrom acc digits = some n) : ∀ c ∈ digits, c.isDigit = true := by
  induction digits generalizing acc with
  | nil => exact fun c hc => absurd hc List.not_mem_nil
  | cons c rest ih =>
      rw [digitsFrom] at h
      split at h
      · next hc => exact List.forall_mem_cons.mpr ⟨hc, ih h⟩
      · cases h

/-- **A row of digits is read as a number exactly if it writes it.** -/
theorem numeral?_eq_some_iff {digits : List Char} {n : Nat} :
    numeral? digits = some n ↔ Writes digits n := by
  unfold numeral?
  constructor
  · intro h
    split at h
    · cases h
    · next hne =>
      obtain ⟨hread, hfits⟩ := Option.filter_eq_some_iff.mp h
      have hascii := ascii_of_digitsFrom hread
      rw [digitsFrom_of_ascii hascii] at hread
      exact ⟨hne, hascii, by simpa using hread, of_decide_eq_true hfits⟩
  · intro h
    rw [if_neg h.nonempty, digitsFrom_of_ascii h.ascii]
    refine Option.filter_eq_some_iff.mpr ⟨?_, decide_eq_true h.fits⟩
    rw [Nat.zero_mul, Nat.zero_add, h.value]

/-! ### With a sign -/

/-- The numeral writes the number, perhaps with a plus sign in front. -/
inductive WritesSigned : List Char → Nat → Prop where
  | bare {digits : List Char} {n : Nat} : Writes digits n → WritesSigned digits n
  | plus {digits : List Char} {n : Nat} : Writes digits n → WritesSigned ('+' :: digits) n

theorem Writes.plus_notMem {digits : List Char} {n : Nat} (h : Writes digits n) : '+' ∉ digits :=
  fun hplus => absurd (h.ascii '+' hplus) (by decide)

/-- **A numeral is read as a number exactly if it writes it**, signed or not. -/
theorem signedNumeral?_eq_some_iff {numeral : List Char} {n : Nat} :
    signedNumeral? numeral = some n ↔ WritesSigned numeral n := by
  unfold signedNumeral?
  split
  · next digits =>
    rw [numeral?_eq_some_iff]
    constructor
    · exact .plus
    · intro h
      cases h with
      | bare hdigits => exact absurd List.mem_cons_self hdigits.plus_notMem
      | plus hdigits => exact hdigits
  · next hbare =>
    rw [numeral?_eq_some_iff]
    constructor
    · exact .bare
    · intro h
      cases h with
      | bare hdigits => exact hdigits
      | plus hdigits => exact absurd rfl (hbare _)

/-- A signed numeral is ASCII, and no dot is in it. -/
theorem WritesSigned.ascii {numeral : List Char} {n : Nat} (h : WritesSigned numeral n) :
    ∀ c ∈ numeral, c.isDigit = true ∨ c = '+' := by
  intro c hc
  cases h with
  | bare hdigits => exact Or.inl (hdigits.ascii c hc)
  | plus hdigits =>
      rcases List.mem_cons.mp hc with rfl | hc
      · exact Or.inr rfl
      · exact Or.inl (hdigits.ascii c hc)

end NativeExtension.Text
