import Mathlib.Data.List.DropRight
import NativeExtension.Text.Blank

/-!
# NativeExtension.Proofs.Text.FirstLine

**The first line in which something stands.** `firstLine?` cuts a text into lines, trims each and
takes the first that is not empty. Seen from the text, that is a piece of it with nothing but blanks
before it, from one solid character to another, and with nothing but blanks behind it on its line
(`firstLine?_eq_some_iff`).
-/

namespace NativeExtension.Text

/-- A piece of text that is not empty and has no blank at either end. -/
def Solid (line : List Char) : Prop :=
  ∃ h : line ≠ [], isBlank (line.head h) = false ∧ isBlank (line.getLast h) = false

/-- The line is the first one in which something stands, without the blanks around it. The blanks
before it go over any number of lines, those behind it do not. -/
def FirstLine (text line : List Char) : Prop :=
  ∃ before behind after, text = before ++ (line ++ behind) ++ after ∧
    (∀ c ∈ before, isBlank c = true) ∧ Solid line ∧ (∀ c ∈ behind, isBlank c = true) ∧
    '\n' ∉ line ++ behind ∧ (after = [] ∨ after.head? = some '\n')

variable {text line front back : List Char}

/-! ### Blanks around a piece of text -/

theorem trim_of_head {c : Char} {rest : List Char} (h : isBlank c = false) :
    trim (c :: rest) = (c :: rest).rdropWhile isBlank := by
  rw [trim, List.dropWhile_cons_of_neg (by simp [h]), List.rdropWhile]

/-- Trimming takes off the blanks behind a solid piece. -/
theorem trim_append (hsolid : Solid line) (h : ∀ c ∈ back, isBlank c = true) :
    trim (line ++ back) = line := by
  obtain ⟨hne, hfirst, hlast⟩ := hsolid
  have hline : line.rdropWhile isBlank = line :=
    List.rdropWhile_eq_self_iff.mpr fun _ => by simp [hlast]
  obtain ⟨c, rest, rfl⟩ := List.exists_cons_of_ne_nil hne
  rw [List.head_cons] at hfirst
  rw [List.cons_append, trim_of_head hfirst, ← List.cons_append, List.rdropWhile,
    List.reverse_append, List.dropWhile_append_of_pos (by simpa using h), ← List.rdropWhile, hline]

/-- What starts with no blank is a solid piece with blanks behind it. -/
theorem exists_solid {c : Char} (h : isBlank c = false) (rest : List Char) :
    ∃ line behind, c :: rest = line ++ behind ∧ Solid line ∧ ∀ d ∈ behind, isBlank d = true := by
  have hparts := List.rdropWhile_append_rtakeWhile (p := isBlank) (l := c :: rest)
  have hne : (c :: rest).rdropWhile isBlank ≠ [] := by
    intro hnil
    rw [List.rdropWhile_eq_nil_iff.mp hnil c List.mem_cons_self] at h
    cases h
  have hhead : ((c :: rest).rdropWhile isBlank).head hne = c := by
    have hfirst := (List.rdropWhile_prefix isBlank (c :: rest)).head hne
    rw [hfirst, List.head_cons]
  refine ⟨_, _, hparts.symm, ⟨hne, ?_, ?_⟩, fun d => List.mem_rtakeWhile_imp⟩
  · rw [hhead, h]
  · simpa using List.rdropWhile_last_not isBlank (c :: rest) hne

/-! ### The line in the text -/

theorem exists_fields_eq_cons (hfront : '\n' ∉ front) (hback : back = [] ∨ back.head? = some '\n') :
    ∃ parts, fields '\n' (front ++ back) = front :: parts := by
  rcases hback with rfl | hback
  · rw [List.append_nil]
    exact ⟨[], fields_of_not_mem hfront⟩
  · obtain ⟨rest, rfl⟩ := List.head?_eq_some_iff.mp hback
    exact ⟨_, fields_append_cons hfront rest⟩

/-- A blank before the text changes nothing, whether it ends a line or stands on one. -/
theorem firstLine?_blank_cons {c : Char} (h : isBlank c = true) (rest : List Char) :
    firstLine? (c :: rest) = firstLine? rest := by
  unfold firstLine?
  rw [fields]
  split
  · rfl
  · cases hfields : fields '\n' rest with
    | nil => exact absurd hfields (fields_ne_nil _ _)
    | cons part parts =>
        have htrim : trim (c :: part) = trim part := by
          rw [trim, List.dropWhile_cons_of_pos h, ← trim]
        rw [List.map_cons, List.map_cons, htrim]

/-- Blanks in front make blank lines, or go with the first line, which is trimmed. -/
theorem firstLine?_blank_append (h : ∀ c ∈ front, isBlank c = true) :
    firstLine? (front ++ back) = firstLine? back := by
  induction front with
  | nil => rfl
  | cons c front ih =>
      rw [List.cons_append, firstLine?_blank_cons (h c List.mem_cons_self)]
      exact ih fun d hd => h d (List.mem_cons_of_mem _ hd)

theorem FirstLine.firstLine? (h : FirstLine text line) : firstLine? text = some line := by
  obtain ⟨before, behind, after, rfl, hbefore, hsolid, hbehind, hline, hafter⟩ := h
  obtain ⟨parts, hparts⟩ := exists_fields_eq_cons hline hafter
  have hne : line ≠ [] := hsolid.1
  rw [List.append_assoc, firstLine?_blank_append hbefore, Text.firstLine?, hparts, List.map_cons,
    trim_append hsolid hbehind, List.find?_cons_of_pos (by simpa using hne)]

/-- A text in which something stands has a first line. -/
theorem exists_firstLine {c : Char} {rest : List Char} (htext : text = front ++ c :: rest)
    (hfront : ∀ d ∈ front, isBlank d = true) (h : isBlank c = false) :
    ∃ line, FirstLine text line := by
  have hc : c ≠ '\n' := by
    rintro rfl
    cases h
  have hrest := List.takeWhile_append_dropWhile (p := fun d => d ≠ '\n') (l := rest)
  obtain ⟨line, behind, hsplit, hsolid, hbehind⟩ :=
    exists_solid h (rest.takeWhile (· ≠ '\n'))
  refine ⟨line, front, behind, rest.dropWhile (· ≠ '\n'), ?_, hfront, hsolid, hbehind, ?_, ?_⟩
  · rw [htext, ← hsplit, List.append_assoc, List.cons_append, hrest]
  · rw [← hsplit, List.mem_cons]
    rintro (heq | hmem)
    · exact hc heq.symm
    · simpa using List.mem_takeWhile_imp hmem
  · cases hafter : rest.dropWhile (· ≠ '\n') with
    | nil => exact .inl rfl
    | cons d after =>
        have hd := List.head?_dropWhile_not (· ≠ '\n') rest
        rw [hafter] at hd
        exact .inr (by simpa using hd)

/-- **The first line of a text.** `firstLine?` finds it exactly if something stands in the text, and
finds nothing else. -/
theorem firstLine?_eq_some_iff : firstLine? text = some line ↔ FirstLine text line := by
  refine ⟨fun h => ?_, FirstLine.firstLine?⟩
  have hparts := List.takeWhile_append_dropWhile (p := isBlank) (l := text)
  have hfront : ∀ c ∈ text.takeWhile isBlank, isBlank c = true := fun _ => List.mem_takeWhile_imp
  cases hrest : text.dropWhile isBlank with
  | nil =>
      rw [hrest] at hparts
      rw [← hparts, firstLine?_blank_append hfront] at h
      cases h
  | cons c rest =>
      have hc := List.head?_dropWhile_not isBlank text
      rw [hrest] at hc hparts
      obtain ⟨found, hfound⟩ := exists_firstLine hparts.symm hfront (by simpa using hc)
      obtain rfl := Option.some.inj (h.symm.trans hfound.firstLine?)
      exact hfound

end NativeExtension.Text
