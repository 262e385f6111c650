import Mathlib.Data.List.Infix
import NativeExtension.Proofs.Text.Numerals
import NativeExtension.Toolchain.GccVersion

/-!
# NativeExtension.Proofs.Toolchain.VersionSearch

**Which version is read from what a compiler says of itself.** A version is a whole run of digits
with a dot behind it and then a digit or an `x` (`VersionAt`). The first one in the text is the one
that is read (`firstVersion?_of_first`), and if its numbers cannot be read there is none, whatever
comes later (`gccVersion?_iff_first`).
-/

namespace NativeExtension.GccVersion

/-! ### Versions in a text -/

/-- A run of digits with none on either side. -/
structure IsRun (before run after : List Char) : Prop where
  nonempty : run ≠ []
  digits : ∀ c ∈ run, Text.isDecimalDigit c = true
  starts : ∀ c, before.getLast? = some c → Text.isDecimalDigit c = false
  ends : ∀ c, after.head? = some c → Text.isDecimalDigit c = false

/-- A whole run of digits, a dot directly behind it, and directly behind that a digit or an `x`. -/
structure VersionAt (text before major after : List Char) : Prop where
  split : text = before ++ major ++ '.' :: after
  run : IsRun before major ('.' :: after)
  follows : ∃ c, after.head? = some c ∧ (Text.isDecimalDigit c = true ∨ c = 'x')

/-- The first version in a text. -/
structure FirstVersionAt (text before major after : List Char) : Prop
    extends VersionAt text before major after where
  first : ∀ before' major' after', VersionAt text before' major' after' →
    before.length ≤ before'.length

/-- What stands behind the dot writes the minor number: an `x` stands for zero. -/
def MinorIs (after : List Char) (n : Nat) : Prop :=
  after.head? = some 'x' ∧ n = 0 ∨
    ∃ minor rest, after = minor ++ rest ∧ IsRun [] minor rest ∧ Text.Writes minor n

/-- The text of the minor number that starts a text. -/
def minor? (after : List Char) : Option (List Char) :=
  if after.takeWhile Text.isDecimalDigit ≠ [] then some (after.takeWhile Text.isDecimalDigit)
  else if after.head? = some 'x' then some ['x']
  else none

theorem isDecimalDigit_x : Text.isDecimalDigit 'x' = false := by decide

theorem isDecimalDigit_dot : Text.isDecimalDigit '.' = false := by decide

namespace IsRun

variable {before run after : List Char}

/-- A whole run is what is taken as long as there are digits. -/
theorem takeWhile_eq (h : IsRun before run after) :
    (run ++ after).takeWhile Text.isDecimalDigit = run := by
  have hstop : after.takeWhile Text.isDecimalDigit = [] := by
    cases after with
    | nil => rfl
    | cons c rest => rw [List.takeWhile_cons_of_neg (by simp [h.ends c rfl])]
  rw [List.takeWhile_append_of_pos h.digits, hstop, List.append_nil]

theorem dropWhile_eq (h : IsRun before run after) :
    (run ++ after).dropWhile Text.isDecimalDigit = after := by
  have hstop : after.dropWhile Text.isDecimalDigit = after := by
    cases after with
    | nil => rfl
    | cons c rest => rw [List.dropWhile_cons_of_neg (by simp [h.ends c rfl])]
  rw [List.dropWhile_append_of_pos h.digits, hstop]

/-- What is taken as long as there are digits is a whole run, unless it is nothing. -/
theorem of_takeWhile {text : List Char} (hne : text.takeWhile Text.isDecimalDigit ≠ []) :
    IsRun [] (text.takeWhile Text.isDecimalDigit) (text.dropWhile Text.isDecimalDigit) where
  nonempty := hne
  digits := List.all_eq_true.mp List.all_takeWhile
  starts := nofun
  ends c hc := by
    obtain ⟨rest, hrest⟩ := List.head?_eq_some_iff.mp hc
    have hne : text.dropWhile Text.isDecimalDigit ≠ [] := by
      rw [hrest]
      exact List.cons_ne_nil c rest
    have hhead := List.head_dropWhile_not Text.isDecimalDigit hne
    simpa [hrest] using hhead

end IsRun

/-! ### Where a version is found -/

/-- One character decides whether there is a minor number. -/
theorem minor?_ne_none_iff {after : List Char} :
    minor? after ≠ none ↔
      ∃ c, after.head? = some c ∧ (Text.isDecimalDigit c = true ∨ c = 'x') := by
  unfold minor?
  cases after with
  | nil => simp
  | cons c rest =>
      by_cases hdigit : Text.isDecimalDigit c = true
      · simp [hdigit]
      · rw [List.takeWhile_cons_of_neg hdigit]
        by_cases hx : c = 'x' <;> simp [hdigit, hx]

/-- Where there is a dot behind the digits at the front of a text, what follows it decides. -/
theorem versionHere?_of_dot {text after : List Char}
    (h : text.dropWhile Text.isDecimalDigit = '.' :: after) :
    versionHere? text =
      if text.takeWhile Text.isDecimalDigit = [] then none
      else (minor? after).map (text.takeWhile Text.isDecimalDigit, ·) := by
  unfold versionHere?
  rw [h]
  change (if text.takeWhile Text.isDecimalDigit = [] then none else _) = _
  unfold minor?
  split
  · rfl
  · split
    · rfl
    · split <;> rfl

/-- Where there is none, no version stands there. -/
theorem versionHere?_of_no_dot {text : List Char}
    (h : (text.dropWhile Text.isDecimalDigit).head? ≠ some '.') : versionHere? text = none := by
  unfold versionHere?
  split
  · next after hdrop =>
    rw [hdrop] at h
    exact absurd rfl h
  · rfl

/-- A version stands at the front of a text exactly if the text starts with one. -/
theorem versionHere?_eq_some_iff {text major minor : List Char} :
    versionHere? text = some (major, minor) ↔
      ∃ after, text = major ++ '.' :: after ∧ IsRun [] major ('.' :: after) ∧
        minor? after = some minor := by
  constructor
  · intro h
    have hdot : (text.dropWhile Text.isDecimalDigit).head? = some '.' := by
      by_contra hdot
      rw [versionHere?_of_no_dot hdot] at h
      cases h
    obtain ⟨after, hdrop⟩ := List.head?_eq_some_iff.mp hdot
    rw [versionHere?_of_dot hdrop] at h
    split at h
    · cases h
    · next hne =>
      have hrun := IsRun.of_takeWhile hne
      have hsplit := List.takeWhile_append_dropWhile (p := Text.isDecimalDigit) (l := text)
      obtain ⟨minor', hminor, hpair⟩ := Option.map_eq_some_iff.mp h
      obtain ⟨hmajor, rfl⟩ := Prod.mk.inj hpair
      rw [hdrop, hmajor] at hrun hsplit
      exact ⟨after, hsplit.symm, hrun, hminor⟩
  · rintro ⟨after, rfl, hrun, hminor⟩
    rw [versionHere?_of_dot hrun.dropWhile_eq, hrun.takeWhile_eq, if_neg hrun.nonempty, hminor]
    rfl

/-- A version that stands at the front of a text. -/
theorem versionAt_of_versionHere? {text : List Char} {version : List Char × List Char}
    (h : versionHere? text = some version) : ∃ after, VersionAt text [] version.1 after := by
  obtain ⟨after, hsplit, hrun, hminor⟩ := versionHere?_eq_some_iff.mp h
  exact ⟨after, hsplit, hrun, minor?_ne_none_iff.mp (by simp [hminor])⟩

namespace VersionAt

variable {text before major after : List Char}

/-- A version at the front of a text is found there. -/
theorem versionHere?_eq (h : VersionAt text [] major after) :
    versionHere? text = (minor? after).map (major, ·) := by
  obtain ⟨minor, hminor⟩ := Option.ne_none_iff_exists'.mp (minor?_ne_none_iff.mpr h.follows)
  rw [hminor]
  exact versionHere?_eq_some_iff.mpr ⟨after, h.split, h.run, hminor⟩

/-- In front of a version there may stand anything; a digit directly in front is part of it. -/
theorem cons (h : VersionAt text before major after) (c : Char) :
    ∃ before' major', VersionAt (c :: text) before' major' after ∧
      (before' = c :: before ∨ before = [] ∧ before' = []) := by
  by_cases hjoins : before = [] ∧ Text.isDecimalDigit c = true
  · obtain ⟨rfl, hdigit⟩ := hjoins
    refine ⟨[], c :: major, ⟨?_, ⟨?_, ?_, ?_, h.run.ends⟩, h.follows⟩, Or.inr ⟨rfl, rfl⟩⟩
    · rw [h.split]
      rfl
    · exact List.cons_ne_nil c major
    · exact List.forall_mem_cons.mpr ⟨hdigit, h.run.digits⟩
    · exact nofun
  · refine ⟨c :: before, major, ⟨?_, ⟨h.run.nonempty, h.run.digits, ?_, h.run.ends⟩, h.follows⟩,
      Or.inl rfl⟩
    · rw [h.split]
      rfl
    · intro d hd
      cases hbefore : before with
      | nil =>
          rw [hbefore] at hd hjoins
          obtain rfl : c = d := by simpa using hd
          simpa using hjoins
      | cons e others =>
          rw [hbefore, List.getLast?_cons_cons, ← hbefore] at hd
          exact h.run.starts d hd

/-- Behind its first character a text has the versions that do not start with it. -/
theorem tail {c : Char} (h : VersionAt (c :: text) (c :: before) major after) :
    VersionAt text before major after := by
  refine ⟨(List.cons_inj_right c).mp h.split,
    ⟨h.run.nonempty, h.run.digits, ?_, h.run.ends⟩, h.follows⟩
  intro d hd
  refine h.run.starts d ?_
  cases hbefore : before with
  | nil =>
      rw [hbefore] at hd
      cases hd
  | cons e others => rw [List.getLast?_cons_cons, ← hbefore, hd]

end VersionAt

/-- **The first version is the one that is found.** -/
theorem firstVersion?_of_first {text before major after : List Char}
    (h : FirstVersionAt text before major after) :
    firstVersion? text = (minor? after).map (major, ·) := by
  induction before generalizing text with
  | nil =>
      have hhere := h.toVersionAt.versionHere?_eq
      obtain ⟨minor, hminor⟩ := Option.ne_none_iff_exists'.mp (minor?_ne_none_iff.mpr h.follows)
      obtain ⟨c, rest, hmajor⟩ := List.exists_cons_of_ne_nil h.run.nonempty
      have htext : text = c :: (rest ++ '.' :: after) := by rw [h.split, hmajor]; rfl
      rw [htext, firstVersion?, ← htext, hhere, hminor]
      rfl
  | cons c others ih =>
      obtain ⟨rest, rfl⟩ : ∃ rest, text = c :: rest := ⟨_, h.split⟩
      have hrest : FirstVersionAt rest others major after := by
        refine ⟨h.toVersionAt.tail, ?_⟩
        intro before' major' after' hother
        obtain ⟨before'', major'', hlonger, hbefore⟩ := hother.cons c
        have hfirst := h.first _ _ _ hlonger
        rcases hbefore with rfl | ⟨rfl, rfl⟩
        · exact Nat.le_of_succ_le_succ hfirst
        · exact absurd hfirst (Nat.not_succ_le_zero _)
      rw [firstVersion?]
      cases hhere : versionHere? (c :: rest) with
      | some version =>
          obtain ⟨after', hversion⟩ := versionAt_of_versionHere? hhere
          exact absurd (h.first _ _ _ hversion) (Nat.not_succ_le_zero _)
      | none => exact ih hrest

/-- What is found is a version. -/
theorem exists_versionAt {text : List Char} {version : List Char × List Char}
    (h : firstVersion? text = some version) :
    ∃ before major after, VersionAt text before major after := by
  induction text with
  | nil => cases h
  | cons c rest ih =>
      rw [firstVersion?] at h
      split at h
      · next found hhere =>
        obtain ⟨after, hversion⟩ := versionAt_of_versionHere? hhere
        exact ⟨[], found.1, after, hversion⟩
      · obtain ⟨before, major, after, hversion⟩ := ih h
        obtain ⟨before', major', hlonger, -⟩ := hversion.cons c
        exact ⟨before', major', after, hlonger⟩

/-- Where there is a version, one is the first. -/
theorem exists_first {text : List Char}
    (h : ∃ before major after, VersionAt text before major after) :
    ∃ before major after, FirstVersionAt text before major after := by
  obtain ⟨before, major, after, hversion⟩ := h
  -- on the length of what stands in front: an earlier version has less in front of it
  induction hlength : before.length using Nat.strongRecOn generalizing before major after with
  | ind length ih =>
      by_cases hfirst : ∀ before' major' after', VersionAt text before' major' after' →
          before.length ≤ before'.length
      · exact ⟨before, major, after, hversion, hfirst⟩
      · simp only [not_forall, not_le] at hfirst
        obtain ⟨before', major', after', hother, hless⟩ := hfirst
        exact ih before'.length (hlength ▸ hless) before' major' after' hother rfl

/-! ### The numbers of a version -/

/-- A minor number is a letter `x` or a whole run of digits; the two cannot be taken for one
another. -/
theorem isRun_of_minor? {after minor : List Char} (h : minor? after = some minor) :
    minor = ['x'] ∧ after.head? = some 'x' ∨
      minor ≠ ['x'] ∧ after.head? ≠ some 'x' ∧
        ∃ rest, after = minor ++ rest ∧ IsRun [] minor rest := by
  unfold minor? at h
  split at h
  · next hne =>
    obtain rfl := Option.some.inj h
    have hrun := IsRun.of_takeWhile hne
    have hsplit := List.takeWhile_append_dropWhile (p := Text.isDecimalDigit) (l := after)
    refine Or.inr ⟨?_, ?_, _, hsplit.symm, hrun⟩
    · intro hx
      have hdigit := hrun.digits 'x' (by simp [hx])
      rw [isDecimalDigit_x] at hdigit
      cases hdigit
    · intro hx
      obtain ⟨rest, rfl⟩ := List.head?_eq_some_iff.mp hx
      exact hne (List.takeWhile_cons_of_neg (by simp [isDecimalDigit_x]))
  · split at h
    · next hx => exact Or.inl ⟨(Option.some.inj h).symm, hx⟩
    · cases h

/-- The minor number is what the text behind the dot writes. -/
theorem minorIs_iff {after minor : List Char} (h : minor? after = some minor) (n : Nat) :
    MinorIs after n ↔ (if minor = ['x'] then some 0 else Text.numeral? minor) = some n := by
  rcases isRun_of_minor? h with ⟨rfl, hx⟩ | ⟨hne, hx, rest, rfl, hrun⟩
  · rw [if_pos rfl]
    constructor
    · rintro (⟨-, rfl⟩ | ⟨other, rest, rfl, hrun, -⟩)
      · rfl
      · -- an `x` starts no run of digits
        obtain ⟨c, others, rfl⟩ := List.exists_cons_of_ne_nil hrun.nonempty
        obtain rfl : c = 'x' := by simpa using hx
        have hdigit := hrun.digits 'x' List.mem_cons_self
        rw [isDecimalDigit_x] at hdigit
        cases hdigit
    · intro hzero
      exact Or.inl ⟨hx, (Option.some.inj hzero).symm⟩
  · rw [if_neg hne, Text.numeral?_eq_some_iff]
    constructor
    · rintro (⟨hx', -⟩ | ⟨other, rest', hsplit, hother, hwrites⟩)
      · exact absurd hx' hx
      · rw [← hrun.takeWhile_eq, hsplit, hother.takeWhile_eq]
        exact hwrites
    · exact fun hwrites => Or.inr ⟨minor, rest, rfl, hrun, hwrites⟩

theorem value?_eq_some_iff {major minor : List Char} {a b : Nat} :
    value? (major, minor) = some ⟨a, b⟩ ↔ Text.Writes major a ∧
      (if minor = ['x'] then some 0 else Text.numeral? minor) = some b := by
  rw [← Text.numeral?_eq_some_iff]
  unfold value?
  by_cases hx : minor = ['x'] <;> simp [hx, Option.bind_eq_some_iff]

/-- Does a word occur in a text? -/
theorem occurs_iff {word text : List Char} : occurs word text = true ↔ word <:+: text := by
  induction text with
  | nil => simp [occurs]
  | cons c rest ih =>
      rw [occurs, Bool.or_eq_true, List.isPrefixOf_iff_prefix, ih, List.infix_cons_iff]

/-- **The version of GCC that a text tells** is the first one in it, if the text names `gcc` and the
numbers of the version can be read. -/
theorem gccVersion?_iff_first {text : List Char} {a b : Nat} :
    gccVersion? text = some ⟨a, b⟩ ↔
      "gcc".toList <:+: text ∧ ∃ before major after,
        FirstVersionAt text before major after ∧ Text.Writes major a ∧ MinorIs after b := by
  unfold gccVersion?
  by_cases hnamed : occurs "gcc".toList text = true
  · rw [if_pos hnamed, and_iff_right (occurs_iff.mp hnamed)]
    constructor
    · intro h
      obtain ⟨⟨major, minor⟩, hfound, hvalue⟩ := Option.bind_eq_some_iff.mp h
      obtain ⟨before, major', after, hfirst⟩ := exists_first (exists_versionAt hfound)
      rw [firstVersion?_of_first hfirst] at hfound
      obtain ⟨minor', hminor, hpair⟩ := Option.map_eq_some_iff.mp hfound
      obtain ⟨rfl, rfl⟩ := Prod.mk.inj hpair
      obtain ⟨hmajor, hwritten⟩ := value?_eq_some_iff.mp hvalue
      exact ⟨before, major', after, hfirst, hmajor, (minorIs_iff hminor b).mpr hwritten⟩
    · rintro ⟨before, major, after, hfirst, hmajor, hwritten⟩
      obtain ⟨minor, hminor⟩ :=
        Option.ne_none_iff_exists'.mp (minor?_ne_none_iff.mpr hfirst.follows)
      rw [firstVersion?_of_first hfirst, hminor]
      exact value?_eq_some_iff.mpr ⟨hmajor, (minorIs_iff hminor b).mp hwritten⟩
  · rw [if_neg hnamed]
    constructor
    · exact nofun
    · intro h
      exact absurd (occurs_iff.mpr h.1) hnamed

end NativeExtension.GccVersion
