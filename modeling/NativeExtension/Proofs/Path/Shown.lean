import NativeExtension.Proofs.Machine.Route
import NativeExtension.Proofs.Text.Ascii

/-!
# NativeExtension.Proofs.Path.Shown

**A path that is shown goes the way of the path.** Bytes that are no text are shown as
replacement characters, so the text of a path may name something else than the path does. But a
slash and a dot are shown as what they are and nothing else is, so the text has the steps of the
path, with the names as they are shown (`stepsOf_shownBytes`): it starts at the root if the path
does, and leads as far up. So it means the same in two places exactly if the path does
(`Path.spotFrom_named_eq_iff`).
-/

namespace NativeExtension

/-- The bytes of the text that shows some bytes. -/
def shownBytes (bytes : Bytes) : Bytes := utf8 (shown bytes)

theorem shownBytes_eq (bytes : Bytes) :
    shownBytes bytes = Utf8.encode (Utf8.decodeLossy bytes) := by
  simp [shownBytes, shown, utf8]

theorem shownBytes_append_slash (front back : Bytes) :
    shownBytes (front ++ slash :: back) = shownBytes front ++ slash :: shownBytes back := by
  have hslash : Utf8.encode [Char.ofNat slash.toNat] = [slash] := by decide
  rw [shownBytes_eq, shownBytes_eq, shownBytes_eq, Utf8.decodeLossy_append_cons (by decide),
    ← List.singleton_append, Utf8.encode_append, Utf8.encode_append, hslash,
    List.singleton_append]

/-- Nothing but ASCII bytes is shown as those bytes. -/
theorem shownBytes_eq_iff {bytes plain : Bytes} (hplain : ∀ b ∈ plain, b < 128)
    (hself : shownBytes plain = plain) : shownBytes bytes = plain ↔ bytes = plain := by
  constructor
  · intro h
    rw [← hself, shownBytes_eq, shownBytes_eq] at h
    exact Utf8.eq_of_decodeLossy_eq hplain (Utf8.encode_injective h)
  · rintro rfl
    exact hself

theorem shownBytes_eq_nil_iff {bytes : Bytes} : shownBytes bytes = [] ↔ bytes = [] :=
  shownBytes_eq_iff (List.forall_mem_nil _) (by decide)

theorem shownBytes_eq_dot_iff {bytes : Bytes} : shownBytes bytes = [dot] ↔ bytes = [dot] :=
  shownBytes_eq_iff (List.forall_mem_singleton.mpr (by decide)) (by decide)

theorem slash_mem_shownBytes_iff (bytes : Bytes) : slash ∈ shownBytes bytes ↔ slash ∈ bytes := by
  have hround : Utf8.decodeLossy (shownBytes bytes) = Utf8.decodeLossy bytes := by
    rw [shownBytes_eq, Utf8.decodeLossy_encode]
  rw [← Utf8.mem_decodeLossy_iff (by decide), hround, Utf8.mem_decodeLossy_iff (by decide)]

/-- **What is shown is cut at the slashes of the bytes.** -/
theorem fields_shownBytes (bytes : Bytes) :
    Text.fields slash (shownBytes bytes) = (Text.fields slash bytes).map shownBytes := by
  by_cases hmem : slash ∈ bytes
  · obtain ⟨front, back, hbytes, hfront⟩ := List.eq_append_cons_of_mem hmem
    have hshorter : back.length < bytes.length := by simp [hbytes]; omega
    have hshown : slash ∉ shownBytes front := (slash_mem_shownBytes_iff front).not.mpr hfront
    rw [hbytes, shownBytes_append_slash, Text.fields_append_cons hshown,
      Text.fields_append_cons hfront, List.map_cons, fields_shownBytes back]
  · have hshown : slash ∉ shownBytes bytes := (slash_mem_shownBytes_iff bytes).not.mpr hmem
    rw [Text.fields_of_not_mem hshown, Text.fields_of_not_mem hmem, List.map_singleton]
termination_by bytes.length

/-- The step as it is shown. -/
def Component.shownAs : Component → Component
  | .name bytes => .name (shownBytes bytes)
  | step => step

/-- What a piece stands for is settled by ASCII bytes alone, and showing keeps these. -/
theorem ofPiece?_shownBytes (piece : Bytes) :
    Component.ofPiece? (shownBytes piece) = (Component.ofPiece? piece).map Component.shownAs := by
  have hascii : ∀ b ∈ [dot, dot], b < 128 :=
    List.forall_mem_cons.mpr ⟨by decide, List.forall_mem_singleton.mpr (by decide)⟩
  have hdots : shownBytes piece = [dot, dot] ↔ piece = [dot, dot] :=
    shownBytes_eq_iff hascii (by decide)
  unfold Component.ofPiece?
  simp only [shownBytes_eq_nil_iff, shownBytes_eq_dot_iff, hdots]
  split
  · rfl
  · split <;> rfl

/-- **What is shown has the steps of the bytes.** -/
theorem stepsOf_shownBytes (bytes : Bytes) :
    Path.stepsOf (shownBytes bytes) = (Path.stepsOf bytes).map Component.shownAs := by
  unfold Path.stepsOf
  rw [fields_shownBytes, List.filterMap_map, List.map_filterMap]
  exact List.filterMap_congr fun piece _ => ofPiece?_shownBytes piece

/-! ### Paths -/

namespace Path

/-- The path that the text spells which shows a path. -/
def named (p : Path) : Path := ofText p.display

theorem bytes_named (p : Path) : p.named.bytes = shownBytes p.bytes := rfl

/-- A path starts at the root if nothing stands before its first slash. -/
theorem isAbsolute_iff_fields (p : Path) : p.isAbsolute = true ↔
    p.bytes ≠ [] ∧ (Text.fields slash p.bytes).head? = some [] := by
  unfold isAbsolute
  cases hbytes : p.bytes with
  | nil => simp
  | cons b rest =>
      rw [Text.fields]
      by_cases hslash : b = slash
      · simp [hslash]
      · rw [if_neg hslash]
        split <;> simp [hslash]

theorem isAbsolute_named (p : Path) : p.named.isAbsolute = p.isAbsolute := by
  rw [Bool.eq_iff_iff, isAbsolute_iff_fields, isAbsolute_iff_fields, bytes_named,
    fields_shownBytes, List.head?_map]
  simp [shownBytes_eq_nil_iff]

/-- As many levels up, and as many names down. -/
structure SameShape (reached reached' : Nat × Spot) : Prop where
  climb : reached.1 = reached'.1
  names : reached.2.length = reached'.2.length

/-- Showing changes names and nothing else, so both ways climb by the same steps. -/
theorem sameShape_climbStep (step : Component) {reached reached' : Nat × Spot}
    (h : SameShape reached reached') :
    SameShape (climbStep reached step.shownAs) (climbStep reached' step) := by
  obtain ⟨climb, names⟩ := reached
  obtain ⟨climb', names'⟩ := reached'
  obtain ⟨rfl, hnames⟩ := h
  cases step with
  | root => exact ⟨rfl, rfl⟩
  | current => exact ⟨rfl, hnames⟩
  | parent =>
      cases names' with
      | nil =>
          obtain rfl := List.length_eq_zero_iff.mp hnames
          exact ⟨rfl, rfl⟩
      | cons name' others' =>
          obtain ⟨name, others, rfl⟩ := List.exists_cons_of_length_eq_add_one hnames
          exact ⟨rfl, Nat.succ.inj hnames⟩
  | name bytes => exact ⟨rfl, congrArg (· + 1) hnames⟩

/-- How far up a way leads does not depend on the names. -/
theorem climbAndNames_shownAs (steps : List Component) :
    (climbAndNames (steps.map Component.shownAs)).1 = (climbAndNames steps).1 := by
  have hsteps : ∀ reached reached' : Nat × Spot, SameShape reached reached' →
      SameShape ((steps.map Component.shownAs).foldl climbStep reached)
        (steps.foldl climbStep reached') := by
    induction steps with
    | nil => exact fun _ _ h => h
    | cons step rest ih => exact fun _ _ h => ih _ _ (sameShape_climbStep step h)
  exact (hsteps _ _ ⟨rfl, rfl⟩).climb

/-- **The text that shows a path means the same in two places exactly if the path does.** -/
theorem spotFrom_named_eq_iff (p : Path) (here there : Place) :
    p.named.spotFrom here = p.named.spotFrom there ↔ p.spotFrom here = p.spotFrom there := by
  rw [spotFrom_eq_walk, spotFrom_eq_walk, spotFrom_eq_walk p, spotFrom_eq_walk p,
    isAbsolute_named, bytes_named, stepsOf_shownBytes]
  cases p.isAbsolute with
  | true => simp
  | false =>
      have hroot := root_notMem_stepsOf p.bytes
      have hshown : .root ∉ (stepsOf p.bytes).map Component.shownAs := by
        rw [← stepsOf_shownBytes]
        exact root_notMem_stepsOf _
      simp only [Bool.false_eq_true, if_false, walk_eq_climb hroot, walk_eq_climb hshown,
        climbAndNames_shownAs, List.append_cancel_left_eq]

end Path

end NativeExtension
