import NativeExtension.Text.Fields

/-!
# NativeExtension.Proofs.Text.Fields

**Cutting and gluing lists.** What a field holds the list holds (`mem_of_mem_fields`), a
text of ended lines is cut into those lines (`fields_of_lines`), and gluing two lists of
parts is gluing each and putting a separator between (`intercalate_append`), as cutting at
a separator is cutting what stands on its two sides (`fields_append_separator`). Cutting undoes
gluing (`fields_intercalate`), and empty fields show where separators stand side by side
(`nil_mem_fields_iff`).
-/

namespace NativeExtension.Text

section Fields

variable {α : Type} [DecidableEq α] {separator x : α}

theorem mem_of_mem_fields {xs part : List α} (hpart : part ∈ fields separator xs)
    (hx : x ∈ part) : x ∈ xs := by
  induction xs generalizing part with
  | nil =>
      obtain rfl : part = [] := by simpa [fields] using hpart
      exact hx
  | cons y rest ih =>
      rw [fields] at hpart
      split at hpart
      · rcases List.mem_cons.mp hpart with rfl | hpart
        · exact absurd hx List.not_mem_nil
        · exact List.mem_cons_of_mem _ (ih hpart hx)
      · split at hpart
        · next hnil => exact absurd hnil (fields_ne_nil separator rest)
        · next first others hrest =>
          rcases List.mem_cons.mp hpart with rfl | hpart
          · rcases List.mem_cons.mp hx with rfl | hx
            · exact List.mem_cons_self
            · exact List.mem_cons_of_mem _ (ih (hrest ▸ List.mem_cons_self) hx)
          · exact List.mem_cons_of_mem _ (ih (hrest ▸ List.mem_cons_of_mem _ hpart) hx)

/-- A separator stands between the fields on its two sides. -/
theorem fields_append_separator (xs ys : List α) :
    fields separator (xs ++ separator :: ys) = fields separator xs ++ fields separator ys := by
  induction xs with
  | nil => simp [fields]
  | cons y rest ih =>
      rw [List.cons_append, fields, fields, ih]
      split
      · rfl
      · cases hrest : fields separator rest with
        | nil => exact absurd hrest (fields_ne_nil separator rest)
        | cons first others => rfl

/-- Each of the parts, if all are ended, is cut by itself. -/
theorem fields_flatMap_ended (parts : List (List α)) :
    fields separator (parts.flatMap (· ++ [separator])) =
      parts.flatMap (fields separator) ++ [[]] := by
  induction parts with
  | nil => rfl
  | cons part rest ih =>
      rw [List.flatMap_cons, List.append_assoc, List.singleton_append, fields_append_separator, ih,
        List.flatMap_cons, List.append_assoc]

/-- Lines that end in a separator leave an empty field behind the last one. -/
theorem fields_of_lines {lines : List (List α)} (h : ∀ line ∈ lines, separator ∉ line) :
    fields separator (lines.flatMap (· ++ [separator])) = lines ++ [[]] := by
  induction lines with
  | nil => rfl
  | cons line rest ih =>
      rw [List.flatMap_cons, List.append_assoc, List.singleton_append,
        fields_append_cons (h line List.mem_cons_self),
        ih fun other hother => h other (List.mem_cons_of_mem _ hother), List.cons_append]

end Fields

theorem intercalate_append {α : Type} (separator : List α) {xs ys : List (List α)}
    (hxs : xs ≠ []) (hys : ys ≠ []) :
    List.intercalate separator (xs ++ ys) =
      List.intercalate separator xs ++ separator ++ List.intercalate separator ys := by
  induction xs with
  | nil => exact absurd rfl hxs
  | cons part rest ih =>
      cases rest with
      | nil =>
          rw [List.singleton_append, List.intercalate_cons_of_ne_nil hys,
            List.intercalate_singleton]
      | cons next others =>
          rw [List.cons_append, List.intercalate_cons_of_ne_nil (by simp),
            List.intercalate_cons_of_ne_nil (by simp), ih (by simp)]
          simp only [List.append_assoc]

/-- Each part but the first stands behind a separator. -/
theorem intercalate_cons {α : Type} (separator : α) (part : List α) (parts : List (List α)) :
    List.intercalate [separator] (part :: parts) = part ++ parts.flatMap (separator :: ·) := by
  induction parts generalizing part with
  | nil => simp
  | cons next rest ih =>
      rw [List.intercalate_cons_of_ne_nil (by simp), ih, List.flatMap_cons]
      simp

/-- Parts without a separator are what their gluing is cut into. -/
theorem fields_intercalate {α : Type} [DecidableEq α] {separator : α} {parts : List (List α)}
    (hne : parts ≠ []) (h : ∀ part ∈ parts, separator ∉ part) :
    fields separator (List.intercalate [separator] parts) = parts := by
  induction parts with
  | nil => exact absurd rfl hne
  | cons part rest ih =>
      obtain ⟨hpart, hrest⟩ := List.forall_mem_cons.mp h
      by_cases hnil : rest = []
      · rw [hnil, List.intercalate_singleton, fields_of_not_mem hpart]
      · rw [List.intercalate_cons_of_ne_nil hnil, List.append_assoc, List.singleton_append,
          fields_append_cons hpart, ih hnil hrest]

/-- A field is empty at a separator in front, at the end or behind another, and if there is
nothing at all. -/
theorem nil_mem_fields_iff {α : Type} [DecidableEq α] {separator : α} {xs : List α} :
    [] ∈ fields separator xs ↔
      xs = [] ∨ xs.head? = some separator ∨ xs.getLast? = some separator ∨
        [separator, separator] <:+: xs := by
  constructor
  · intro h
    obtain ⟨before, after, hparts⟩ := List.append_of_mem h
    have hxs := intercalate_fields separator xs
    rw [hparts] at hxs
    by_cases hbefore : before = []
    · rw [hbefore, List.nil_append, intercalate_cons, List.nil_append] at hxs
      cases after with
      | nil => exact Or.inl hxs.symm
      | cons next others => exact Or.inr (Or.inl (by rw [← hxs]; rfl))
    · rw [intercalate_append _ hbefore (by simp), intercalate_cons, List.nil_append] at hxs
      cases after with
      | nil => exact Or.inr (Or.inr (Or.inl (by simp [← hxs])))
      | cons next others =>
          refine Or.inr (Or.inr (Or.inr ?_))
          rw [← hxs, List.flatMap_cons]
          exact ⟨List.intercalate [separator] before, next ++ others.flatMap (separator :: ·),
            by simp⟩
  · intro h
    rcases h with rfl | hhead | hlast | ⟨front, back, rfl⟩
    · exact List.mem_singleton_self []
    · obtain ⟨rest, rfl⟩ := List.head?_eq_some_iff.mp hhead
      simp [fields]
    · obtain ⟨before, rfl⟩ := List.getLast?_eq_some_iff.mp hlast
      rw [fields_append_separator]
      simp [fields]
    · rw [List.append_assoc, List.cons_append, fields_append_separator]
      simp [fields]

/-- The last field is empty only behind a separator, or if there is nothing at all. -/
theorem getLast?_of_fields {α : Type} [DecidableEq α] {separator : α} {xs : List α}
    (h : (fields separator xs).getLast? = some []) :
    xs = [] ∨ xs.getLast? = some separator := by
  obtain ⟨before, hbefore⟩ := List.getLast?_eq_some_iff.mp h
  have hxs := intercalate_fields separator xs
  rw [hbefore] at hxs
  by_cases hnil : before = []
  · rw [hnil] at hxs
    exact Or.inl hxs.symm
  · rw [intercalate_append _ hnil (by simp), List.intercalate_singleton, List.append_nil] at hxs
    exact Or.inr (by rw [← hxs, List.getLast?_concat])

/-- What stands between the parts is only the separator. -/
theorem mem_intercalate_iff {α : Type} {separator : List α} {x : α} (hx : x ∉ separator)
    (parts : List (List α)) :
    x ∈ List.intercalate separator parts ↔ ∃ part ∈ parts, x ∈ part := by
  induction parts with
  | nil => simp
  | cons part rest ih =>
      cases rest with
      | nil => simp
      | cons next others =>
          rw [List.intercalate_cons_of_ne_nil (by simp), List.mem_append, List.mem_append, ih]
          simp [hx]

end NativeExtension.Text
