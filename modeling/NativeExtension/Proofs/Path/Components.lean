import NativeExtension.Machine.Files
import NativeExtension.Proofs.Path.Absolute
import NativeExtension.Proofs.Path.Spelling

/-!
# NativeExtension.Proofs.Path.Components

**The steps of a path that was put together or cut.** A spelling that is cut between two
pieces has the steps of both parts in turn (`components_append`). So a joined path goes the
way of the first and then that of the second (`components_join`). The parent of a path goes
all of its way but the last step (`components_parent?`), and so an ancestor goes the first part
of it and no other (`components_of_mem_ancestors`). The paths of a checked request all start at
the root (`BuildSpec.isAbsolute_of_ofOptions`).
-/

namespace NativeExtension.Path

/-- The steps that a spelling adds when it stands behind another. -/
def stepsOf (bytes : Bytes) : List Component :=
  (Text.fields slash bytes).filterMap Component.ofPiece?

/-- No piece goes over from `front` to `back`. -/
def CutsBetween (front back : Bytes) : Prop :=
  front.getLast? = some slash ∨ back.head? = some slash ∨ back = []

@[simp] theorem stepsOf_nil : stepsOf [] = [] := rfl

@[simp] theorem stepsOf_slash_cons (bytes : Bytes) : stepsOf (slash :: bytes) = stepsOf bytes := by
  simp [stepsOf, Text.fields, Component.ofPiece?]

theorem components_eq (p : Path) :
    p.components = headComponents (splitHead p.bytes).1 ++ stepsOf (splitHead p.bytes).2 := rfl

theorem stepsOf_append_slash_cons (front back : Bytes) :
    stepsOf (front ++ slash :: back) = stepsOf front ++ stepsOf back := by
  unfold stepsOf
  rw [Text.fields_append_separator, List.filterMap_append]

/-- A spelling may be cut in front of a slash without cutting a step. -/
theorem stepsOf_append {front back : Bytes} (h : front = [] ∨ CutsBetween front back) :
    stepsOf (front ++ back) = stepsOf front ++ stepsOf back := by
  rcases h with rfl | hlast | hhead | rfl
  · rfl
  · obtain ⟨before, rfl⟩ := List.getLast?_eq_some_iff.mp hlast
    rw [List.append_assoc, List.singleton_append, stepsOf_append_slash_cons,
      stepsOf_append_slash_cons, stepsOf_nil, List.append_nil]
  · obtain ⟨rest, rfl⟩ := List.head?_eq_some_iff.mp hhead
    rw [stepsOf_append_slash_cons, stepsOf_slash_cons]
  · simp

theorem splitHead_append_eq (bytes : Bytes) :
    (splitHead bytes).1 ++ (splitHead bytes).2 = bytes := by
  cases bytes with
  | nil => rfl
  | cons b rest =>
      rw [splitHead]
      split
      · next hslash => rw [hslash]; rfl
      · split
        · next hdot => rw [hdot.1]; rfl
        · rfl

/-- What stands in front of the names does not depend on what follows a cut. -/
theorem splitHead_append {front back : Bytes} (hne : front ≠ []) (h : CutsBetween front back) :
    splitHead (front ++ back) = ((splitHead front).1, (splitHead front).2 ++ back) := by
  cases front with
  | nil => exact absurd rfl hne
  | cons b rest =>
      rw [List.cons_append, splitHead, splitHead]
      by_cases hslash : b = slash
      · rw [if_pos hslash, if_pos hslash]
      · rw [if_neg hslash, if_neg hslash]
        cases rest with
        | cons c others => by_cases hdot : b = dot ∧ c = slash <;> simp [hdot]
        | nil =>
            -- the whole front is one byte and no slash, so the cut shows in what follows
            have hback : back = [] ∨ back.head? = some slash := by
              rcases h with hlast | hhead | hnil
              · exact absurd (by simpa using hlast) hslash
              · exact Or.inr hhead
              · exact Or.inl hnil
            by_cases hdot : b = dot <;> simp [hdot, hback]

/-- What is cut off in front leaves the cut behind it where it was. -/
theorem splitHead_cuts {front back : Bytes} (h : CutsBetween front back) :
    (splitHead front).2 = [] ∨ CutsBetween (splitHead front).2 back := by
  rcases h with hlast | hhead | hnil
  · by_cases hbody : (splitHead front).2 = []
    · exact Or.inl hbody
    · rw [← splitHead_append_eq front, List.getLast?_append,
        List.getLast?_eq_some_getLast hbody, Option.some_or] at hlast
      exact Or.inr (Or.inl ((List.getLast?_eq_some_getLast hbody).trans hlast))
  · exact Or.inr (Or.inr (Or.inl hhead))
  · exact Or.inr (Or.inr (Or.inr hnil))

/-- **A path that is cut between two pieces has the steps of both parts in turn.** -/
theorem components_append {front back : Bytes} (hne : front ≠ []) (h : CutsBetween front back) :
    (⟨front ++ back⟩ : Path).components = (⟨front⟩ : Path).components ++ stepsOf back := by
  rw [components_eq, components_eq, splitHead_append hne h, stepsOf_append (splitHead_cuts h),
    List.append_assoc]

/-! ### What leads the steps -/

/-- A step of a body is a `..` or a name. -/
theorem mem_stepsOf_cases {bytes : Bytes} {step : Component} (h : step ∈ stepsOf bytes) :
    step = .parent ∨ ∃ name, step = .name name := by
  obtain ⟨piece, -, hpiece⟩ := List.mem_filterMap.mp h
  unfold Component.ofPiece? at hpiece
  split at hpiece
  · cases hpiece
  · split at hpiece
    · exact Or.inl (Option.some.inj hpiece).symm
    · exact Or.inr ⟨piece, (Option.some.inj hpiece).symm⟩

theorem root_notMem_stepsOf (bytes : Bytes) : .root ∉ stepsOf bytes := by
  intro hmem
  simpa using mem_stepsOf_cases hmem

theorem root_notMem_components {p : Path} (h : p.isAbsolute = false) :
    .root ∉ p.components := by
  have hhead : (splitHead p.bytes).1 ≠ [slash] := by
    cases hbytes : p.bytes with
    | nil => simp [splitHead]
    | cons b rest =>
        have hslash : b ≠ slash := by simpa [isAbsolute, hbytes] using h
        rw [splitHead, if_neg hslash]
        split <;> simp [dot, slash]
  rw [components_eq, headComponents, if_neg hhead]
  split <;> simp [root_notMem_stepsOf]

/-- Only the first step leads to the root. -/
theorem root_notMem_tail (p : Path) : .root ∉ p.components.tail := by
  rw [components_eq, headComponents]
  split
  · exact root_notMem_stepsOf _
  · split
    · exact root_notMem_stepsOf _
    · exact fun hmem => root_notMem_stepsOf _ (List.mem_of_mem_tail hmem)

/-- The steps of a path without what leads them are those of its whole spelling. -/
theorem stepsOf_bytes (p : Path) :
    stepsOf p.bytes = p.components.filter fun step => step ≠ .root ∧ step ≠ .current := by
  have hbody : (stepsOf (splitHead p.bytes).2).filter
      (fun step => step ≠ .root ∧ step ≠ .current) = stepsOf (splitHead p.bytes).2 := by
    refine List.filter_eq_self.mpr fun step hstep => ?_
    rcases mem_stepsOf_cases hstep with rfl | ⟨name, rfl⟩ <;> simp
  rw [components_eq, List.filter_append, hbody]
  cases hbytes : p.bytes with
  | nil => rfl
  | cons b rest =>
      rw [splitHead]
      split
      · next hslash =>
        rw [hslash, stepsOf_slash_cons]
        rfl
      · split
        · next hdot =>
          have hcut : CutsBetween [dot] rest := by
            rcases hdot.2 with hnil | hhead
            · exact Or.inr (Or.inr hnil)
            · exact Or.inr (Or.inl hhead)
          have happend := stepsOf_append (Or.inr hcut)
          rw [hdot.1, ← List.singleton_append, happend]
          rfl
        · rfl

/-- A relative path without its leading `.` is its steps. -/
theorem filter_components {p : Path} (h : p.isAbsolute = false) :
    p.components.filter (· ≠ .current) = stepsOf p.bytes := by
  rw [stepsOf_bytes]
  refine List.filter_congr fun step hstep => ?_
  have hroot : step ≠ .root := fun heq => root_notMem_components h (heq ▸ hstep)
  simp [hroot]

/-! ### Joining -/

/-- The path starts with a name, or a `..`, or it is empty. -/
def IsPlain (p : Path) : Prop := (splitHead p.bytes).1 = []

theorem IsPlain.splitHead {p : Path} (h : p.IsPlain) : splitHead p.bytes = ([], p.bytes) := by
  have hbody := splitHead_append_eq p.bytes
  rw [h, List.nil_append] at hbody
  exact Prod.ext h hbody

theorem IsPlain.components {p : Path} (h : p.IsPlain) : p.components = stepsOf p.bytes := by
  rw [components_eq, h.splitHead]
  rfl

theorem IsPlain.isAbsolute {p : Path} (h : p.IsPlain) : p.isAbsolute = false := by
  cases hbytes : p.bytes with
  | nil => simp [Path.isAbsolute, hbytes]
  | cons b rest =>
      have hhead := h.splitHead
      by_cases hslash : b = slash
      · simp [hbytes, Path.splitHead, hslash] at hhead
      · simp [Path.isAbsolute, hbytes, hslash]

/-- A path with neither the root nor a `.` in front is plain. -/
theorem isPlain_of_headComponents {p : Path} (h : headComponents (Path.splitHead p.bytes).1 = []) :
    p.IsPlain := by
  unfold IsPlain
  cases hbytes : p.bytes with
  | nil => rfl
  | cons b rest =>
      rw [hbytes, Path.splitHead] at h
      rw [Path.splitHead]
      split at h
      · simp [headComponents] at h
      · next hslash =>
        rw [if_neg hslash]
        split at h
        · simp [headComponents, dot, slash] at h
        · next hdot => rw [if_neg hdot]

/-- A plain path adds its steps behind those of the path it is joined to. -/
theorem components_join (p : Path) {q : Path} (h : q.IsPlain) :
    (p.join q).components = p.components ++ q.components := by
  rw [h.components, join, if_neg (by simp [h.isAbsolute])]
  by_cases hnil : p.bytes = []
  · obtain rfl : p = ⟨[]⟩ := by rw [← hnil]
    exact h.components
  · by_cases hlast : p.bytes.getLast? = some slash
    · rw [if_pos (Or.inr hlast), components_append hnil (Or.inl hlast)]
    · rw [if_neg (by simp [hnil, hlast]), components_append hnil (Or.inr (Or.inl rfl)),
        stepsOf_slash_cons]

/-- The text is a file name. -/
def IsName (name : String) : Prop :=
  utf8 name ≠ [] ∧ utf8 name ≠ [dot] ∧ utf8 name ≠ [dot, dot] ∧ slash ∉ utf8 name

instance (name : String) : Decidable (IsName name) := by unfold IsName; infer_instance

theorem IsName.ofPiece? {name : String} (h : IsName name) :
    Component.ofPiece? (utf8 name) = some (.name (utf8 name)) := by
  simp [Component.ofPiece?, h.1, h.2.1, h.2.2.1]

theorem isPlain_of_ofPiece? {file : Bytes} (hname : Component.ofPiece? file = some (.name file))
    (hslash : slash ∉ file) : (⟨file⟩ : Path).IsPlain := by
  unfold IsPlain
  cases file with
  | nil => rfl
  | cons b rest =>
      have hb : b ≠ slash := fun heq => hslash (by simp [heq])
      dsimp only
      rw [Path.splitHead, if_neg hb, if_neg]
      rintro ⟨rfl, rfl | hhead⟩
      · cases hname
      · exact hslash (List.mem_cons_of_mem _ (List.mem_of_head? hhead))

theorem components_of_ofPiece? {file : Bytes}
    (hname : Component.ofPiece? file = some (.name file)) (hslash : slash ∉ file) :
    (⟨file⟩ : Path).components = [.name file] := by
  rw [(isPlain_of_ofPiece? hname hslash).components, stepsOf, Text.fields_of_not_mem hslash]
  simp [hname]

theorem IsName.isPlain {name : String} (h : IsName name) : (ofText name).IsPlain :=
  isPlain_of_ofPiece? h.ofPiece? h.2.2.2

theorem IsName.components {name : String} (h : IsName name) :
    (ofText name).components = [.name (utf8 name)] :=
  components_of_ofPiece? h.ofPiece? h.2.2.2

theorem components_joinText (p : Path) {name : String} (h : IsName name) :
    (p.joinText name).components = p.components ++ [.name (utf8 name)] := by
  rw [joinText, components_join p h.isPlain, h.components]

/-! ### Ancestors -/

theorem trimPieces_begins (pieces : List Bytes) : trimPieces pieces <+: pieces := by
  unfold trimPieces
  rw [← List.reverse_suffix, List.reverse_reverse]
  exact List.dropWhile_suffix _

theorem splitHead_fst_cuts (bytes : Bytes) :
    (splitHead bytes).1 = [] ∨ CutsBetween (splitHead bytes).1 (splitHead bytes).2 := by
  cases bytes with
  | nil => exact Or.inl rfl
  | cons b rest =>
      rw [splitHead]
      split
      · exact Or.inr (Or.inl rfl)
      · split
        · next hdot => exact Or.inr (Or.inr hdot.2.symm)
        · exact Or.inl rfl

/-- Pieces that stand for nothing do not count. -/
theorem filterMap_trimPieces (pieces : List Bytes) :
    (trimPieces pieces).filterMap Component.ofPiece? = pieces.filterMap Component.ofPiece? := by
  unfold trimPieces
  rw [← List.reverse_reverse (pieces.filterMap _), ← List.filterMap_reverse,
    List.filterMap_reverse]
  congr 1
  induction pieces.reverse with
  | nil => rfl
  | cons piece rest ih =>
      rw [List.dropWhile_cons]
      split
      · next hnothing =>
        rw [ih, List.filterMap_cons_none (Option.isNone_iff_eq_none.mp hnothing)]
      · rfl

/-- What is left of pieces ends in one that stands for a step. -/
theorem exists_step_of_trimPieces {pieces earlier : List Bytes} {last : Bytes}
    (h : (trimPieces pieces).reverse = last :: earlier) :
    ∃ step, Component.ofPiece? last = some step := by
  unfold trimPieces at h
  rw [List.reverse_reverse] at h
  have hkept := List.head?_dropWhile_not (fun piece => (Component.ofPiece? piece).isNone)
    pieces.reverse
  rw [h, List.head?_cons] at hkept
  exact Option.isSome_iff_exists.mp (by simpa using hkept)

theorem stepsOf_intercalate {pieces : List Bytes} (h : ∀ piece ∈ pieces, slash ∉ piece) :
    stepsOf (List.intercalate [slash] pieces) = pieces.filterMap Component.ofPiece? := by
  by_cases hnil : pieces = []
  · rw [hnil]
    rfl
  · rw [stepsOf, Text.fields_intercalate hnil h]

/-- The first pieces of a spelling are the spelling up to a cut. -/
theorem intercalate_cuts {pieces : List Bytes} {bytes : Bytes}
    (h : pieces <+: Text.fields slash bytes) (hne : pieces ≠ []) :
    ∃ rest, bytes = List.intercalate [slash] pieces ++ rest ∧
      (rest.head? = some slash ∨ rest = []) := by
  obtain ⟨others, hothers⟩ := h
  have hbytes := Text.intercalate_fields slash bytes
  rw [← hothers] at hbytes
  by_cases hnil : others = []
  · exact ⟨[], by simpa [hnil] using hbytes.symm, Or.inr rfl⟩
  · rw [Text.intercalate_append _ hne hnil, List.append_assoc] at hbytes
    exact ⟨_, hbytes.symm, Or.inl rfl⟩

/-- What stands in front of the names stays in front of the first of them. -/
theorem splitHead_first {bytes : Bytes} {pieces : List Bytes}
    (h : pieces <+: Text.fields slash (Path.splitHead bytes).2) :
    Path.splitHead ((Path.splitHead bytes).1 ++ List.intercalate [slash] pieces) =
      ((Path.splitHead bytes).1, List.intercalate [slash] pieces) := by
  have hspelled := splitHead_append_eq bytes
  obtain ⟨rest, hrest, hcuts⟩ : ∃ rest,
      bytes = (Path.splitHead bytes).1 ++ List.intercalate [slash] pieces ++ rest ∧
        ((Path.splitHead bytes).1 ++ List.intercalate [slash] pieces = [] ∨
          CutsBetween ((Path.splitHead bytes).1 ++ List.intercalate [slash] pieces) rest) := by
    by_cases hnil : pieces = []
    · refine ⟨(Path.splitHead bytes).2, ?_, ?_⟩
      · simpa [hnil] using hspelled.symm
      · simpa [hnil] using splitHead_fst_cuts bytes
    · obtain ⟨rest, hbody, hrest⟩ := intercalate_cuts h hnil
      exact ⟨rest, by rw [List.append_assoc, ← hbody, hspelled], Or.inr (Or.inr hrest)⟩
  generalize hhead : (Path.splitHead bytes).1 = head at hrest hcuts ⊢
  by_cases hnil : head ++ List.intercalate [slash] pieces = []
  · obtain ⟨rfl, hbody⟩ := List.append_eq_nil_iff.mp hnil
    rw [hbody]
    rfl
  · have hsplit := splitHead_append hnil (hcuts.resolve_left hnil)
    rw [← hrest] at hsplit
    have hsame := hhead
    rw [hsplit] at hsame
    have hfront := splitHead_append_eq (head ++ List.intercalate [slash] pieces)
    rw [hsame] at hfront
    exact Prod.ext hsame (List.append_cancel_left hfront)

/-- **The parent goes all of a path's way but the last step.** -/
theorem components_parent? {p above : Path} (h : p.parent? = some above) :
    ∃ last, p.components = above.components ++ [last] := by
  have hsteps := filterMap_trimPieces (Text.fields slash (splitHead p.bytes).2)
  rw [components_eq, stepsOf, ← hsteps]
  unfold parent? at h
  dsimp only at h
  split at h
  · next htrimmed =>
    split at h
    · next hhead =>
      obtain rfl := Option.some.inj h
      rw [hhead, List.reverse_eq_nil_iff.mp htrimmed]
      exact ⟨.current, rfl⟩
    · cases h
  · next last earlier htrimmed =>
    obtain rfl := Option.some.inj h
    obtain ⟨step, hstep⟩ := exists_step_of_trimPieces htrimmed
    have hreverse := List.reverse_eq_cons_iff.mp htrimmed
    have hstart : trimPieces earlier.reverse <+: Text.fields slash (splitHead p.bytes).2 :=
      (trimPieces_begins _).trans
        ((List.prefix_append _ [last]).trans (hreverse ▸ trimPieces_begins _))
    refine ⟨step, ?_⟩
    rw [components_eq, splitHead_first hstart, hreverse, List.filterMap_append,
      stepsOf_intercalate, filterMap_trimPieces]
    · simp [hstep]
    · exact fun piece hpiece => Text.not_mem_of_mem_fields (hstart.subset hpiece)

theorem components_of_parent? {p above : Path} (h : p.parent? = some above) :
    above.components <+: p.components := by
  obtain ⟨last, hlast⟩ := components_parent? h
  rw [hlast]
  exact List.prefix_append _ _

/-- **An ancestor goes the first part of a path's way.** -/
theorem components_of_mem_ancestors {p above : Path} (h : above ∈ Machine.ancestors p) :
    above.components <+: p.components := by
  have hbound : ∀ bound p, above ∈ Machine.ancestorsUpTo bound p →
      above.components <+: p.components := by
    intro bound
    induction bound with
    | zero => simp [Machine.ancestorsUpTo]
    | succ bound ih =>
        intro p hmem
        rw [Machine.ancestorsUpTo] at hmem
        split at hmem
        · obtain rfl := List.mem_singleton.mp hmem
          exact List.prefix_refl _
        · next parent hparent =>
          rcases List.mem_cons.mp hmem with rfl | hmem
          · exact List.prefix_refl _
          · exact (ih parent hmem).trans (components_of_parent? hparent)
  exact hbound _ p h

/-! ### Paths that start at the root -/

theorem isAbsolute_join {p q : Path} (h : p.isAbsolute = true ∨ q.isAbsolute = true) :
    (p.join q).isAbsolute = true := by
  unfold join
  split
  · next habsolute => exact habsolute
  · next hrelative =>
    have hhead : p.bytes.head? = some slash := by
      simpa [isAbsolute] using h.resolve_right hrelative
    split <;> simp [isAbsolute, List.head?_append, hhead]

theorem isAbsolute_extend {base : Path} (h : base.isAbsolute = true) (steps : List Component) :
    (extend base steps).isAbsolute = true := by
  unfold extend
  induction steps generalizing base with
  | nil => exact h
  | cons step rest ih =>
      rw [List.foldl_cons]
      exact ih (isAbsolute_join (Or.inl h))

theorem isAbsolute_keepTrailingSlash {written p : Path} (h : p.isAbsolute = true) :
    (keepTrailingSlash written p).isAbsolute = true := by
  unfold keepTrailingSlash
  split
  · exact isAbsolute_join (Or.inl h)
  · exact h

/-- A path that was made absolute is absolute. -/
theorem isAbsolute_of_absolute {cwd : Except SystemError Path} {p q : Path}
    (hcwd : ∀ here, cwd = .ok here → here.isAbsolute = true) (h : p.absolute cwd = .ok q) :
    q.isAbsolute = true := by
  unfold absolute at h
  split at h
  · cases h
  · split at h
    · next habsolute =>
      split at h
      · obtain rfl := Except.ok.inj h
        exact isAbsolute_keepTrailingSlash (isAbsolute_extend rfl _)
      · obtain rfl := Except.ok.inj h
        obtain ⟨rest, hcomponents⟩ := components_of_isAbsolute habsolute
        rw [hcomponents, extend, List.foldl_cons]
        exact isAbsolute_keepTrailingSlash (isAbsolute_extend (isAbsolute_join (Or.inr rfl)) rest)
    · obtain ⟨here, hhere, h⟩ := bind_ok_iff.mp h
      obtain rfl := ok_iff_pure.mp h
      exact isAbsolute_keepTrailingSlash (isAbsolute_extend (hcwd here hhere) _)

end NativeExtension.Path

namespace NativeExtension

theorem Machine.isAbsolute_currentDir {m : Machine} {here : Path} (h : m.currentDir = .ok here) :
    here.isAbsolute = true := by
  unfold Machine.currentDir at h
  split at h
  · cases h
  · split at h
    · obtain rfl := Except.ok.inj h
      rfl
    · next hlocation =>
      obtain rfl := Except.ok.inj h
      obtain ⟨outermost, others, hnames⟩ := List.exists_cons_of_ne_nil
        (fun hnil => hlocation (List.reverse_eq_nil_iff.mp hnil))
      simp [Path.isAbsolute, hnames]

/-- Every path of a checked request is absolute. -/
theorem BuildSpec.isAbsolute_of_ofOptions {m : Machine} {options : LoadOptions} {spec : BuildSpec}
    (h : ofOptions m.currentDir options = .ok spec) :
    ∀ p ∈ spec.sources ++ spec.includes, p.isAbsolute = true :=
  forall_of_ofOptions
    (fun _ _ => Path.isAbsolute_of_absolute fun _ => Machine.isAbsolute_currentDir) h

end NativeExtension
