import NativeExtension.Proofs.Path.Shown
import NativeExtension.Source

/-!
# NativeExtension.Proofs.Path.Respelled

**What two spellings of one path have in common.** The file name, so the stem, the extension and
the compiler of a source; and every character they show but slashes and dots, in order
(`Path.Equiv.letters_display`). Two spellings that also show the same text are one
(`Path.Equiv.eq_of_display_eq`).
-/

namespace NativeExtension

/-- A character that paths with the same steps may have more or less of. -/
def IsMark (c : Char) : Prop := c = '/' ∨ c = '.'

instance (c : Char) : Decidable (IsMark c) := by unfold IsMark; infer_instance

/-- A text without its slashes and dots. -/
def letters (text : List Char) : List Char := text.filter fun c => ¬IsMark c

theorem letters_append (a b : List Char) : letters (a ++ b) = letters a ++ letters b :=
  List.filter_append a b

theorem letters_cons_of_mark {c : Char} (h : IsMark c) (rest : List Char) :
    letters (c :: rest) = letters rest := List.filter_cons_of_neg (by simpa using h)

theorem letters_cons_of_not_mark {c : Char} (h : ¬IsMark c) (rest : List Char) :
    letters (c :: rest) = c :: letters rest := List.filter_cons_of_pos (by simpa using h)

namespace Path

/-! ### Steps -/

variable {p q : Path}

theorem Equiv.stepsOf (h : p.Equiv q) : stepsOf p.bytes = stepsOf q.bytes := by
  rw [stepsOf_bytes, stepsOf_bytes, show p.components = q.components from h]

theorem Equiv.fileName? (h : p.Equiv q) : p.fileName? = q.fileName? := by
  rw [Path.fileName?, Path.fileName?, show p.components = q.components from h]

theorem Equiv.stem? (h : p.Equiv q) : p.stem? = q.stem? := by
  rw [Path.stem?, Path.stem?, h.fileName?]

theorem Equiv.isDeviceSource (h : p.Equiv q) : p.isDeviceSource = q.isDeviceSource := by
  rw [Path.isDeviceSource, Path.isDeviceSource, Path.extension?, Path.extension?, h.fileName?]

theorem Equiv.compiler (h : p.Equiv q) : p.compiler = q.compiler := by
  rw [Path.compiler, Path.compiler, h.isDeviceSource]

theorem Equiv.join_isPlain (h : p.Equiv q) {last : Path} (hlast : last.IsPlain) :
    (p.join last).Equiv (q.join last) := by
  unfold Path.Equiv
  rw [components_join p hlast, components_join q hlast, show p.components = q.components from h]

/-! ### What is shown -/

/-- **The letters a spelling shows are those of its steps.** -/
theorem letters_decodeLossy (bytes : Bytes) :
    letters (Utf8.decodeLossy bytes) =
      (Path.stepsOf bytes).flatMap fun step => letters (Utf8.decodeLossy step.bytes) := by
  by_cases hmem : slash ∈ bytes
  · obtain ⟨front, back, hbytes, hfront⟩ := List.eq_append_cons_of_mem hmem
    have hshorter : front.length < bytes.length ∧ back.length < bytes.length := by
      simp [hbytes]; omega
    have hmark : IsMark (Char.ofNat slash.toNat) := by decide
    rw [hbytes, Utf8.decodeLossy_append_cons (by decide), letters_append,
      letters_cons_of_mark hmark, stepsOf_append_slash_cons, List.flatMap_append,
      letters_decodeLossy front, letters_decodeLossy back]
  · rw [Path.stepsOf, Text.fields_of_not_mem hmem]
    cases hpiece : Component.ofPiece? bytes with
    | some step => simp [hpiece, bytes_of_ofPiece? hpiece]
    | none =>
        rcases Component.ofPiece?_eq_none_iff.mp hpiece with rfl | rfl <;> decide
termination_by bytes.length
decreasing_by
  · exact hshorter.1
  · exact hshorter.2

/-- **Two spellings of a path show the same letters.** -/
theorem Equiv.letters_display (h : p.Equiv q) :
    letters p.display.toList = letters q.display.toList := by
  have hletters : ∀ bytes, letters (shown bytes).toList = letters (Utf8.decodeLossy bytes) := by
    simp [shown]
  rw [Path.display, Path.display, hletters, hletters, letters_decodeLossy, letters_decodeLossy,
    h.stepsOf]

/-- Pieces that stand for the same steps and show the same are the same. -/
theorem eq_of_shownBytes_eq {pieces pieces' : List Bytes}
    (hshown : pieces.map shownBytes = pieces'.map shownBytes)
    (hsteps : pieces.filterMap Component.ofPiece? = pieces'.filterMap Component.ofPiece?) :
    pieces = pieces' := by
  induction pieces generalizing pieces' with
  | nil => exact (List.map_eq_nil_iff.mp hshown.symm).symm
  | cons piece rest ih =>
      obtain ⟨piece', rest', rfl, hpiece, hrest⟩ := List.map_eq_cons_iff.mp hshown.symm
      have hstep := congrArg Component.ofPiece? hpiece
      rw [ofPiece?_shownBytes, ofPiece?_shownBytes] at hstep
      cases hnone : Component.ofPiece? piece with
      | none =>
          rw [hnone, Option.map_none, Option.map_eq_none_iff] at hstep
          rw [List.filterMap_cons_none hnone, List.filterMap_cons_none hstep] at hsteps
          rw [ih hrest.symm hsteps]
          rcases Component.ofPiece?_eq_none_iff.mp hnone with rfl | rfl
          · rw [shownBytes_eq_nil_iff.mp hpiece]
          · rw [shownBytes_eq_dot_iff.mpr rfl] at hpiece
            rw [shownBytes_eq_dot_iff.mp hpiece]
      | some step =>
          rw [hnone, Option.map_some] at hstep
          obtain ⟨step', hsome, -⟩ := Option.map_eq_some_iff.mp hstep
          rw [List.filterMap_cons_some hnone, List.filterMap_cons_some hsome] at hsteps
          obtain ⟨rfl, hothers⟩ := List.cons.inj hsteps
          rw [ih hrest.symm hothers, ← bytes_of_ofPiece? hnone,
            ← bytes_of_ofPiece? hsome]

/-- **Spellings of one path that show the same text are one spelling.** -/
theorem Equiv.eq_of_display_eq (h : p.Equiv q) (hdisplay : p.display = q.display) : p = q := by
  have hshown : shownBytes p.bytes = shownBytes q.bytes := congrArg utf8 hdisplay
  have hpieces : Text.fields slash p.bytes = Text.fields slash q.bytes := by
    refine eq_of_shownBytes_eq ?_ h.stepsOf
    rw [← fields_shownBytes, ← fields_shownBytes, hshown]
  have hbytes := congrArg (List.intercalate [slash]) hpieces
  rw [Text.intercalate_fields, Text.intercalate_fields] at hbytes
  cases p
  cases q
  exact congrArg Path.mk hbytes

end Path

end NativeExtension
