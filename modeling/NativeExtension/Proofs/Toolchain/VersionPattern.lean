import Mathlib.Data.List.Basic
import NativeExtension.Proofs.Toolchain.VersionSearch

/-!
# NativeExtension.Proofs.Toolchain.VersionPattern

**The version that is read is the one that a search finds.** A search for a pattern tries every
place of a text from the left, and at each place the ways to read the pattern in order of
preference: of a row of characters the longest first, of two alternatives the first one
(`SearchPattern.readings`). What it finds is the first reading at the first place that has one
(`SearchPattern.search`). For the pattern `(\d+)\.(\d+|x)` only the longest row of digits at a place
can be followed by the dot, so looking for whole rows finds the same (`search_versionPattern`).
-/

namespace NativeExtension.GccVersion

/-- A pattern to search for. -/
inductive SearchPattern where
  /-- One of the characters. -/
  | one (accepts : Char → Bool)
  /-- One or more of the characters, as many as possible. -/
  | row (accepts : Char → Bool)
  /-- The one and directly behind it the other. -/
  | both (first second : SearchPattern)
  /-- The one, or else the other. -/
  | either (first second : SearchPattern)
  /-- What is read of it is to be told. -/
  | group (pattern : SearchPattern)

/-- A way to read a pattern. -/
structure Reading where
  taken : List Char
  /-- What was read of each group, in order. -/
  groups : List (List Char) := []
  rest : List Char

/-- The ways to take one or more characters from the front of a text, the longest first, each with
the text behind it. -/
def rows (accepts : Char → Bool) : List Char → List (List Char × List Char)
  | [] => []
  | c :: rest =>
    if accepts c then (rows accepts rest).map (fun row => (c :: row.1, row.2)) ++ [([c], rest)]
    else []

namespace SearchPattern

/-- The ways to read a pattern at the front of a text, in order of preference. -/
def readings : SearchPattern → List Char → List Reading
  | .one _, [] => []
  | .one accepts, c :: rest => if accepts c then [{ taken := [c], rest := rest }] else []
  | .row accepts, text => (rows accepts text).map fun row => { taken := row.1, rest := row.2 }
  | .both first second, text =>
    (first.readings text).flatMap fun reading =>
      (second.readings reading.rest).map fun more =>
        { taken := reading.taken ++ more.taken
          groups := reading.groups ++ more.groups
          rest := more.rest }
  | .either first second, text => first.readings text ++ second.readings text
  | .group pattern, text =>
    (pattern.readings text).map fun reading =>
      { reading with groups := reading.taken :: reading.groups }

/-- What a search for the pattern finds in a text. -/
def search (pattern : SearchPattern) : List Char → Option Reading
  | [] => (pattern.readings []).head?
  | c :: rest => (pattern.readings (c :: rest)).head?.or (pattern.search rest)

end SearchPattern

/-- Digits in a group, a dot, and digits or an `x` in another group. -/
def versionPattern : SearchPattern :=
  .both (.group (.row Text.isDecimalDigit))
    (.both (.one (· = '.')) (.group (.either (.row Text.isDecimalDigit) (.one (· = 'x')))))

/-! ### Rows -/

theorem rows_eq_nil {accepts : Char → Bool} {text : List Char} (h : text.takeWhile accepts = []) :
    rows accepts text = [] := by
  cases text with
  | nil => rfl
  | cons c rest =>
      by_cases hc : accepts c = true
      · rw [List.takeWhile_cons_of_pos hc] at h
        cases h
      · rw [rows, if_neg hc]

/-- The longest row comes first; behind every other there is one of the characters. -/
theorem rows_eq_cons {accepts : Char → Bool} {text : List Char} (h : text.takeWhile accepts ≠ []) :
    ∃ shorter, rows accepts text =
        (text.takeWhile accepts, text.dropWhile accepts) :: shorter ∧
      ∀ row ∈ shorter, ∃ c rest, row.2 = c :: rest ∧ accepts c = true := by
  induction text with
  | nil => exact absurd rfl h
  | cons c rest ih =>
      have hc : accepts c = true := by
        by_contra hc
        exact h (List.takeWhile_cons_of_neg hc)
      rw [rows, if_pos hc, List.takeWhile_cons_of_pos hc, List.dropWhile_cons_of_pos hc]
      by_cases hrest : rest.takeWhile accepts = []
      · -- the row of one character is the longest
        have hdrop : rest.dropWhile accepts = rest := by
          have hsplit := List.takeWhile_append_dropWhile (p := accepts) (l := rest)
          rwa [hrest, List.nil_append] at hsplit
        refine ⟨[], ?_, fun row hrow => absurd hrow List.not_mem_nil⟩
        rw [rows_eq_nil hrest, hrest, hdrop]
        rfl
      · obtain ⟨shorter, hrows, hbehind⟩ := ih hrest
        refine ⟨shorter.map (fun row => (c :: row.1, row.2)) ++ [([c], rest)], ?_, ?_⟩
        · rw [hrows]
          rfl
        · intro row hrow
          rcases List.mem_append.mp hrow with hlonger | hlast
          · obtain ⟨other, hother, rfl⟩ := List.mem_map.mp hlonger
            exact hbehind other hother
          · obtain rfl := List.mem_singleton.mp hlast
            obtain ⟨d, others, rfl⟩ : ∃ d others, rest = d :: others :=
              List.exists_cons_of_ne_nil (by rintro rfl; exact hrest rfl)
            refine ⟨d, others, rfl, ?_⟩
            by_contra hd
            exact hrest (List.takeWhile_cons_of_neg hd)

/-! ### The pattern of a version -/

/-- What is to follow the major number: a dot, and digits or an `x` in a group. -/
def minorPattern : SearchPattern :=
  .both (.one (· = '.')) (.group (.either (.row Text.isDecimalDigit) (.one (· = 'x'))))

theorem readings_minorPattern_of_ne {text : List Char} (h : text.head? ≠ some '.') :
    minorPattern.readings text = [] := by
  cases text with
  | nil => rfl
  | cons c rest =>
      have hc : decide (c = '.') = false := by simpa using h
      rw [minorPattern, SearchPattern.readings, SearchPattern.readings, if_neg (by simp [hc])]
      rfl

/-- Behind the dot a row of digits is preferred, and of these the longest. -/
theorem groups_minorPattern (after : List Char) :
    (minorPattern.readings ('.' :: after)).head?.map Reading.groups =
      (minor? after).map fun minor => [minor] := by
  unfold minor?
  by_cases hdigits : after.takeWhile Text.isDecimalDigit = []
  · rw [if_neg (not_not.mpr hdigits)]
    have hrows := rows_eq_nil hdigits
    cases after with
    | nil => rfl
    | cons c rest =>
        by_cases hx : c = 'x'
        · subst hx
          simp [minorPattern, SearchPattern.readings, hrows]
        · simp [minorPattern, SearchPattern.readings, hrows, hx]
  · obtain ⟨shorter, hrows, -⟩ := rows_eq_cons hdigits
    rw [if_pos hdigits]
    simp [minorPattern, SearchPattern.readings, hrows]

/-- A row of digits, and behind it what is to follow. -/
def withMajor (row : List Char × List Char) : List Reading :=
  (minorPattern.readings row.2).map fun more =>
    { taken := row.1 ++ more.taken, groups := row.1 :: more.groups, rest := more.rest }

theorem readings_versionPattern (text : List Char) :
    versionPattern.readings text = (rows Text.isDecimalDigit text).flatMap withMajor := by
  change ((rows Text.isDecimalDigit text).map _ |>.map _).flatMap _ = _
  rw [List.map_map, List.flatMap_map]
  rfl

theorem withMajor_of_no_dot {row : List Char × List Char} (h : row.2.head? ≠ some '.') :
    withMajor row = [] := by
  rw [withMajor, readings_minorPattern_of_ne h, List.map_nil]

theorem groups_withMajor (major after : List Char) :
    (withMajor (major, '.' :: after)).head?.map Reading.groups =
      (minor? after).map fun minor => [major, minor] := by
  have hgroups := congrArg (Option.map (major :: ·)) (groups_minorPattern after)
  rw [Option.map_map, Option.map_map] at hgroups
  rw [withMajor, List.head?_map, Option.map_map]
  exact hgroups

/-- At one place the pattern is read as the version that stands there. -/
theorem groups_versionPattern (text : List Char) :
    (versionPattern.readings text).head?.map Reading.groups =
      (versionHere? text).map fun version => [version.1, version.2] := by
  rw [readings_versionPattern]
  by_cases hdigits : text.takeWhile Text.isDecimalDigit = []
  · have hnone : versionHere? text = none := by
      by_cases hdot : (text.dropWhile Text.isDecimalDigit).head? = some '.'
      · obtain ⟨after, hafter⟩ := List.head?_eq_some_iff.mp hdot
        rw [versionHere?_of_dot hafter, if_pos hdigits]
      · exact versionHere?_of_no_dot hdot
    rw [rows_eq_nil hdigits, hnone]
    rfl
  · obtain ⟨shorter, hrows, hbehind⟩ := rows_eq_cons hdigits
    -- behind a shorter row there is a digit and no dot
    have hshorter : shorter.flatMap withMajor = [] := by
      rw [List.flatMap_eq_nil_iff]
      intro row hrow
      obtain ⟨c, rest, hrest, hc⟩ := hbehind row hrow
      refine withMajor_of_no_dot ?_
      rw [hrest]
      rintro ⟨rfl⟩
      rw [isDecimalDigit_dot] at hc
      cases hc
    rw [hrows, List.flatMap_cons, hshorter, List.append_nil]
    by_cases hdot : (text.dropWhile Text.isDecimalDigit).head? = some '.'
    · obtain ⟨after, hafter⟩ := List.head?_eq_some_iff.mp hdot
      rw [versionHere?_of_dot hafter, if_neg hdigits, hafter, groups_withMajor, Option.map_map]
      rfl
    · rw [versionHere?_of_no_dot hdot, withMajor_of_no_dot hdot]
      rfl

/-- **A search for the pattern finds the first version**, with the major number in the first group
and the minor number in the second. -/
theorem search_versionPattern (text : List Char) :
    (versionPattern.search text).map Reading.groups =
      (firstVersion? text).map fun version => [version.1, version.2] := by
  induction text with
  | nil => rfl
  | cons c rest ih =>
      have hhere := groups_versionPattern (c :: rest)
      rw [SearchPattern.search, firstVersion?]
      cases hversion : versionHere? (c :: rest) with
      | some version =>
          rw [hversion] at hhere
          obtain ⟨reading, hreading, hgroups⟩ := Option.map_eq_some_iff.mp hhere
          rw [hreading]
          exact congrArg some hgroups
      | none =>
          rw [hversion] at hhere
          rw [Option.map_eq_none_iff.mp hhere]
          exact ih

end NativeExtension.GccVersion
