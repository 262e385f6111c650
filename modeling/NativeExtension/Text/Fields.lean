/-!
# NativeExtension.Text.Fields

**A list cut at a separator.** There is one field more than there are separators, so an
empty list has one empty field. Nothing is lost: the fields with separators between them
are the list again (`intercalate_fields`), and no field holds a separator
(`not_mem_of_mem_fields`).
-/

namespace NativeExtension.Text

/-- The parts of a list between the elements equal to `separator`; there is one part
more than there are separators. -/
def fields {α : Type} [DecidableEq α] (separator : α) : List α → List (List α)
  | [] => [[]]
  | x :: rest =>
    if x = separator then [] :: fields separator rest
    else
      match fields separator rest with
      | [] => [[x]]
      | part :: parts => (x :: part) :: parts

theorem fields_ne_nil {α : Type} [DecidableEq α] (separator : α) (xs : List α) :
    fields separator xs ≠ [] := by
  cases xs with
  | nil => simp [fields]
  | cons x rest =>
    unfold fields
    split
    · simp
    · split <;> simp

/-- Without a separator there is one field. -/
theorem fields_of_not_mem {α : Type} [DecidableEq α] {separator : α} {xs : List α}
    (h : separator ∉ xs) : fields separator xs = [xs] := by
  induction xs with
  | nil => rfl
  | cons x rest ih =>
    have hx : x ≠ separator := fun e => h (by simp [e])
    rw [fields, if_neg hx, ih fun hr => h (List.mem_cons_of_mem _ hr)]

/-- A separator ends a field that holds none. -/
theorem fields_append_cons {α : Type} [DecidableEq α] {separator : α} {xs : List α}
    (h : separator ∉ xs) (ys : List α) :
    fields separator (xs ++ separator :: ys) = xs :: fields separator ys := by
  induction xs with
  | nil => simp [fields]
  | cons x rest ih =>
    have hx : x ≠ separator := fun e => h (by simp [e])
    rw [List.cons_append, fields, if_neg hx, ih fun hr => h (List.mem_cons_of_mem _ hr)]

/-- No field holds a separator. -/
theorem not_mem_of_mem_fields {α : Type} [DecidableEq α] {separator : α} {xs part : List α}
    (h : part ∈ fields separator xs) : separator ∉ part := by
  induction xs generalizing part with
  | nil => simp_all [fields]
  | cons x rest ih =>
    unfold fields at h
    split at h
    · rcases List.mem_cons.mp h with rfl | h
      · simp
      · exact ih h
    · next hx =>
      split at h
      · next hrest => exact absurd hrest (fields_ne_nil separator rest)
      · next first others hrest =>
        rw [hrest] at ih
        rcases List.mem_cons.mp h with rfl | h
        · intro inside
          rcases List.mem_cons.mp inside with e | inside
          · exact hx e.symm
          · exact ih (List.mem_cons_self ..) inside
        · exact ih (List.mem_cons_of_mem _ h)

/-- The fields with separators between them are the list again. -/
theorem intercalate_fields {α : Type} [DecidableEq α] (separator : α) (xs : List α) :
    List.intercalate [separator] (fields separator xs) = xs := by
  induction xs with
  | nil => rfl
  | cons x rest ih =>
    unfold fields
    split
    · next hx =>
      subst hx
      rw [List.intercalate_cons_of_ne_nil (fields_ne_nil x rest), ih]
      rfl
    · split
      · next h => exact absurd h (fields_ne_nil separator rest)
      · next first others h =>
        rw [h] at ih
        cases others <;> simp_all

end NativeExtension.Text
