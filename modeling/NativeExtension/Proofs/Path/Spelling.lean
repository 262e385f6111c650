import NativeExtension.Path.Basic
import NativeExtension.Proofs.Text.Fields

/-!
# NativeExtension.Proofs.Path.Spelling

**The parts of a path are spelled with its own bytes.** A file name and its stem hold no
byte that the path does not hold (`Path.mem_of_mem_stem?`), and joining a relative name
adds nothing but the name and a slash (`Path.mem_join_iff`).
-/

namespace NativeExtension

/-- A piece stands for no step if it is empty or `.`. -/
theorem Component.ofPiece?_eq_none_iff {piece : Bytes} :
    Component.ofPiece? piece = none ↔ piece = [] ∨ piece = [dot] := by
  unfold Component.ofPiece?
  split
  · next h => exact iff_of_true rfl h
  · next h =>
    refine iff_of_false ?_ h
    split <;> exact nofun

namespace Path

theorem splitHead_suffix (bytes : Bytes) : (splitHead bytes).2 <:+ bytes := by
  cases bytes with
  | nil => exact List.suffix_refl _
  | cons b rest =>
      rw [splitHead]
      split
      · exact List.suffix_cons b rest
      · split
        · exact List.suffix_cons b rest
        · exact List.suffix_refl _

theorem name_notMem_headComponents (name head : Bytes) :
    Component.name name ∉ headComponents head := by
  unfold headComponents
  split
  · simp
  · split <;> simp

/-- A step is written with the bytes of its piece. -/
theorem bytes_of_ofPiece? {piece : Bytes} {step : Component}
    (h : Component.ofPiece? piece = some step) : step.bytes = piece := by
  unfold Component.ofPiece? at h
  split at h
  · cases h
  · split at h
    · next hdots =>
      obtain rfl := Option.some.inj h
      exact hdots.symm
    · obtain rfl := Option.some.inj h
      rfl

theorem mem_of_mem_components {p : Path} {name : Bytes}
    (h : Component.name name ∈ p.components) {b : UInt8} (hb : b ∈ name) : b ∈ p.bytes := by
  unfold components at h
  rcases List.mem_append.mp h with hhead | hbody
  · exact absurd hhead (name_notMem_headComponents name _)
  · obtain ⟨piece, hpiece, hname⟩ := List.mem_filterMap.mp hbody
    obtain rfl : name = piece := bytes_of_ofPiece? hname
    exact (splitHead_suffix p.bytes).subset (Text.mem_of_mem_fields hpiece hb)

theorem mem_of_mem_fileName? {p : Path} {name : Bytes} (h : p.fileName? = some name) {b : UInt8}
    (hb : b ∈ name) : b ∈ p.bytes := by
  unfold fileName? at h
  split at h
  · next last hlast =>
    obtain rfl := Option.some.inj h
    exact mem_of_mem_components (List.mem_of_getLast? hlast) hb
  · cases h

/-- The stem of a name is what stands before its last dot. -/
theorem splitExtension_begins (name : Bytes) : (splitExtension name).1 <+: name := by
  unfold splitExtension
  split
  · next last before earlier hfields =>
    dsimp only
    split
    · exact List.prefix_refl _
    · have hparts : Text.fields dot name = (before :: earlier).reverse ++ [last] := by
        rw [← List.reverse_reverse (Text.fields dot name), hfields, List.reverse_cons]
      have hname := Text.intercalate_fields dot name
      rw [hparts] at hname
      refine ⟨dot :: last, ?_⟩
      conv => rhs; rw [← hname]
      rw [Text.intercalate_append _ (by simp) (by simp), List.intercalate_singleton,
        List.append_assoc, List.singleton_append]
  · exact List.prefix_refl _

theorem mem_of_mem_stem? {p : Path} {stem : Bytes} (h : p.stem? = some stem) {b : UInt8}
    (hb : b ∈ stem) : b ∈ p.bytes := by
  unfold stem? at h
  obtain ⟨name, hname, rfl⟩ := Option.map_eq_some_iff.mp h
  exact mem_of_mem_fileName? hname ((splitExtension_begins name).subset hb)

/-! ### Joining -/

/-- A path without a slash does not start at the root. -/
theorem isAbsolute_of_slashless {bytes : Bytes} (h : slash ∉ bytes) :
    (⟨bytes⟩ : Path).isAbsolute = false := by
  refine decide_eq_false fun hhead => ?_
  exact h (List.mem_of_head? hhead)

theorem join_of_relative (p : Path) {q : Path} (h : q.isAbsolute = false) :
    ∃ gap, (gap = [] ∨ gap = [slash]) ∧ (p.join q).bytes = p.bytes ++ gap ++ q.bytes := by
  unfold join
  rw [if_neg (by simp [h])]
  split
  · exact ⟨[], Or.inl rfl, by simp⟩
  · exact ⟨[slash], Or.inr rfl, by simp⟩

theorem mem_join_iff (p : Path) {q : Path} (h : q.isAbsolute = false) {b : UInt8}
    (hb : b ≠ slash) : b ∈ (p.join q).bytes ↔ b ∈ p.bytes ∨ b ∈ q.bytes := by
  obtain ⟨gap, hgap, hbytes⟩ := join_of_relative p h
  rw [hbytes]
  rcases hgap with rfl | rfl <;> simp [hb]

/-- A joined path without a slash was joined to nothing. -/
theorem nil_of_join_slashless {p q : Path} (h : slash ∉ (p.join q).bytes) : p.bytes = [] := by
  unfold join at h
  split at h
  · next habsolute =>
    exact absurd (List.mem_of_mem_head? (of_decide_eq_true habsolute)) h
  · split at h
    · next hend =>
      refine hend.resolve_right fun hlast => h ?_
      exact List.mem_append_left _ (List.mem_of_getLast? hlast)
    · exact absurd (List.mem_append_right _ List.mem_cons_self) h

end Path

end NativeExtension
