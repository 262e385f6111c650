import NativeExtension.Proofs.Path.Respelled
import NativeExtension.Proofs.Path.Tidy

/-!
# NativeExtension.Proofs.Path.Settled

**A path that was made absolute stays as it is.** The system names a directory from the root
with nothing to leave out (`IsDirectoryName`). Seen from such a directory, every path but the
empty one becomes absolute: it goes the way of the path written behind the directory's name, and
of the spelling as it was given only the ends are kept (`settledFrom_of_absolute`). Nothing is
left to be done a second time, from wherever it is done (`IsTidy.absolute`).
-/

namespace NativeExtension

namespace Path

/-! ### Names of directories -/

/-- A path as the system names a directory: from the root, with nothing in it that stands for
nothing. -/
structure IsDirectoryName (p : Path) : Prop where
  absolute : p.isAbsolute = true
  noDot : [dot] ∉ p.pieces
  noRepeat : ¬[slash, slash] <:+: p.bytes
  noTrailing : p.bytes.getLast? = some slash → p.bytes = [slash]

/-- Pieces that all stand for steps are the bytes of these steps. -/
theorem map_bytes_filterMap {pieces : List Bytes}
    (h : ∀ piece ∈ pieces, Component.ofPiece? piece ≠ none) :
    (pieces.filterMap Component.ofPiece?).map Component.bytes = pieces := by
  induction pieces with
  | nil => rfl
  | cons piece rest ih =>
      obtain ⟨hpiece, hrest⟩ := List.forall_mem_cons.mp h
      obtain ⟨step, hstep⟩ := Option.ne_none_iff_exists'.mp hpiece
      rw [List.filterMap_cons_some hstep, List.map_cons, bytes_of_ofPiece? hstep, ih hrest]

theorem slashed_stepsOf {rest : Bytes}
    (h : ∀ piece ∈ Text.fields slash rest, Component.ofPiece? piece ≠ none) :
    slashed (stepsOf rest) = slash :: rest := by
  have hmap : (stepsOf rest).map Component.bytes = Text.fields slash rest := map_bytes_filterMap h
  have hfields := Text.fields_ne_nil slash rest
  have hne : stepsOf rest ≠ [] := by
    intro hnil
    rw [hnil] at hmap
    exact hfields hmap.symm
  rw [slashed_eq hne, hmap, List.intercalate_cons_of_ne_nil hfields, Text.intercalate_fields]
  rfl

/-- Behind its first slash a directory's name other than the root's holds steps alone. -/
theorem isDirectoryName_slash_cons {rest : Bytes} (hne : rest ≠ []) :
    (⟨slash :: rest⟩ : Path).IsDirectoryName ↔
      ∀ piece ∈ Text.fields slash rest, Component.ofPiece? piece ≠ none := by
  have hpieces : (⟨slash :: rest⟩ : Path).pieces = [] :: Text.fields slash rest := by
    simp [pieces, Text.fields]
  have hrepeat : [slash, slash] <:+: slash :: rest ↔
      rest.head? = some slash ∨ [slash, slash] <:+: rest := by
    rw [List.infix_cons_iff, List.cons_prefix_cons]
    cases rest <;> simp [@eq_comm _ slash]
  have hlast : (slash :: rest).getLast? = rest.getLast? := by
    rw [List.getLast?_cons, List.getLast?_eq_some_getLast hne, Option.getD_some]
  constructor
  · intro h piece hpiece hnone
    rcases Component.ofPiece?_eq_none_iff.mp hnone with rfl | rfl
    · rcases Text.nil_mem_fields_iff.mp hpiece with hnil | hhead | hend | hslashes
      · exact hne hnil
      · exact h.noRepeat (hrepeat.mpr (Or.inl hhead))
      · exact hne (List.cons.inj (h.noTrailing (hlast.trans hend))).2
      · exact h.noRepeat (hrepeat.mpr (Or.inr hslashes))
    · exact h.noDot (hpieces ▸ List.mem_cons_of_mem _ hpiece)
  · intro h
    have hempty : ¬(rest = [] ∨ rest.head? = some slash ∨ rest.getLast? = some slash ∨
        [slash, slash] <:+: rest) :=
      fun hany => h [] (Text.nil_mem_fields_iff.mpr hany) rfl
    refine ⟨by simp [isAbsolute], ?_, ?_, ?_⟩
    · rw [hpieces]
      intro hdot
      exact h [dot] ((List.mem_cons.mp hdot).resolve_left (by simp)) rfl
    · rw [hrepeat]
      exact fun hslashes => hempty (Or.inr (hslashes.imp_right Or.inr))
    · intro hend
      exact absurd (Or.inr (Or.inr (Or.inl (hlast.symm.trans hend)))) hempty

/-- **The name of a directory is each of its steps behind one slash**, and no more. -/
theorem isDirectoryName_iff {p : Path} :
    p.IsDirectoryName ↔ ∃ steps, (∀ step ∈ steps, step.IsStep) ∧ p = tidy false false steps := by
  constructor
  · intro h
    obtain ⟨rest, hrest⟩ := bytes_of_isAbsolute h.absolute
    obtain rfl : p = ⟨slash :: rest⟩ := by rw [← hrest]
    by_cases hnil : rest = []
    · exact ⟨[], by simp, by rw [hnil]; rfl⟩
    · have hbytes := slashed_stepsOf ((isDirectoryName_slash_cons hnil).mp h)
      exact ⟨stepsOf rest, fun _ => isStep_of_mem_stepsOf, by simp [tidy, hbytes]⟩
  · intro h
    obtain ⟨steps, hsteps, rfl⟩ := h
    by_cases hnil : steps = []
    · rw [hnil]
      exact ⟨by decide, by decide, by decide, by decide⟩
    · have hmap : steps.map Component.bytes ≠ [] := by simpa using hnil
      have hbytes : tidy false false steps =
          ⟨slash :: List.intercalate [slash] (steps.map Component.bytes)⟩ := by
        simp [tidy, slashed_eq hnil, List.intercalate_cons_of_ne_nil hmap]
      have hpieces : ∀ piece ∈ steps.map Component.bytes, Component.ofPiece? piece ≠ none := by
        simpa using fun step hstep => Option.ne_none_iff_exists'.mpr ⟨step, (hsteps step hstep).1⟩
      have hfields : Text.fields slash (List.intercalate [slash] (steps.map Component.bytes)) =
          steps.map Component.bytes :=
        Text.fields_intercalate hmap (by simpa using fun step hstep => (hsteps step hstep).2)
      rw [hbytes, isDirectoryName_slash_cons, hfields]
      · exact hpieces
      · intro hempty
        rw [hempty] at hfields
        exact hpieces [] (hfields ▸ List.mem_singleton_self []) rfl

/-! ### Seen from a directory -/

/-- Joining a relative path puts its steps behind the others, whatever slashes are written. -/
theorem stepsOf_join (here : Path) {p : Path} (h : p.isAbsolute = false) :
    stepsOf (here.join p).bytes = stepsOf here.bytes ++ stepsOf p.bytes := by
  unfold join
  rw [if_neg (by simp [h])]
  split
  · next hend => exact stepsOf_append (hend.imp_right Or.inl)
  · exact stepsOf_append_slash_cons here.bytes p.bytes

/-- **A path becomes the way behind the directory's name**, with the ends that it has itself. -/
theorem absolute_eq {here p : Path} (hhere : here.IsDirectoryName) (hne : p.isEmpty = false) :
    p.absolute (.ok here) =
      .ok (tidy p.isDoubleRooted p.endsInSlash (stepsOf (here.join p).bytes)) := by
  cases h : p.isAbsolute with
  | true => rw [absolute_of_isAbsolute _ h, join, if_pos h]
  | false =>
      obtain ⟨location, hlocation, rfl⟩ := isDirectoryName_iff.mp hhere
      have hsingle : p.isDoubleRooted = false := by
        unfold isDoubleRooted
        split
        · next a b rest hbytes =>
          have ha : a ≠ slash := by simpa [isAbsolute, hbytes] using h
          simp [ha]
        · rfl
      rw [absolute_of_relative hne h false false hlocation, stepsOf_join _ h,
        stepsOf_tidy _ _ hlocation, hsingle, Bool.false_and, Bool.false_or]

/-- What becomes of a path that is seen from a directory. -/
structure SettledFrom (here written settled : Path) : Prop where
  absolute : settled.isAbsolute = true
  way : settled.Equiv (here.join written)
  tidy : settled.IsTidy
  front : settled.isDoubleRooted = written.isDoubleRooted
  /-- The top of the tree ends with a slash in any case. -/
  back : settled.bytes.getLast? = some slash ↔
    written.bytes.getLast? = some slash ∨ settled.components = [.root]

/-- The two courses of `absolute` have one description: the steps of the directory, if the
path needs them, and its own. -/
theorem settledFrom_of_absolute {here written settled : Path} (hhere : here.IsDirectoryName)
    (h : written.absolute (.ok here) = .ok settled) : SettledFrom here written settled := by
  have hne : written.isEmpty = false := by
    rw [← Bool.not_eq_true]
    intro hempty
    simp [Path.absolute, hempty] at h
  have hsteps : ∀ step ∈ stepsOf (here.join written).bytes, step.IsStep :=
    fun _ => isStep_of_mem_stepsOf
  rw [absolute_eq hhere hne] at h
  obtain rfl := Except.ok.inj h
  have hcomponents : ∀ doubled trailing,
      (Path.tidy doubled trailing (stepsOf (here.join written).bytes)).components =
        .root :: stepsOf (here.join written).bytes := by
    intro doubled trailing
    rw [components_of_isAbsolute_eq (isAbsolute_tidy _ _ _), stepsOf_tidy _ _ hsteps]
  refine ⟨isAbsolute_tidy _ _ _, ?_, ⟨_, _, _, hsteps, rfl⟩, isDoubleRooted_tidy _ _ hsteps, ?_⟩
  · unfold Equiv
    rw [hcomponents, components_of_isAbsolute_eq (isAbsolute_join (Or.inl hhere.absolute))]
  · rw [getLast?_tidy _ _ hsteps, hcomponents]
    simp [endsInSlash]

/-- **A tidy path is not touched**, and the current directory may as well be out of reach. -/
theorem IsTidy.absolute {p : Path} (h : p.IsTidy) (cwd : Except SystemError Path) :
    p.absolute cwd = .ok p := by
  obtain ⟨doubled, trailing, steps, hsteps, rfl⟩ := h
  have hend : (tidy doubled trailing steps).endsInSlash = (trailing || steps.isEmpty) := by
    rw [Bool.eq_iff_iff, endsInSlash, decide_eq_true_iff, getLast?_tidy _ _ hsteps]
    simp
  rw [absolute_of_isAbsolute cwd (isAbsolute_tidy _ _ _), isDoubleRooted_tidy _ _ hsteps,
    stepsOf_tidy _ _ hsteps, hend]
  cases steps <;> simp [tidy]

/-! ### The file that a path names -/

theorem getLast?_stepsOf {p : Path} {name : Bytes} (h : p.fileName? = some name) :
    (stepsOf p.bytes).getLast? = some (.name name) := by
  have hlast : p.components.getLast? = some (.name name) := by
    unfold fileName? at h
    split at h
    · next last hlast =>
      obtain rfl := Option.some.inj h
      exact hlast
    · cases h
  obtain ⟨before, hbefore⟩ := List.getLast?_eq_some_iff.mp hlast
  rw [stepsOf_bytes, hbefore, List.filter_append]
  simp

/-- **A path that names a file names the same one when it is settled.** -/
theorem SettledFrom.fileName? {here written settled : Path} (h : SettledFrom here written settled)
    {name : Bytes} (hname : written.fileName? = some name) : settled.fileName? = some name := by
  have hlast : (stepsOf (here.join written).bytes).getLast? = some (.name name) := by
    cases habsolute : written.isAbsolute with
    | true => rw [join, if_pos habsolute, getLast?_stepsOf hname]
    | false =>
        rw [stepsOf_join here habsolute, List.getLast?_append, getLast?_stepsOf hname,
          Option.some_or]
  rw [Path.fileName?, components_of_isAbsolute_eq h.absolute, h.way.stepsOf, List.getLast?_cons,
    hlast, Option.getD_some]

end Path

end NativeExtension
