import NativeExtension.Machine.Basic
import NativeExtension.Path.Absolute
import NativeExtension.Proofs.Outcome
import NativeExtension.Request

/-!
# NativeExtension.Proofs.Path.Absolute

**An absolute path is never empty**, so no source of a checked request is
(`BuildSpec.sources_ne_nil`): what holds of every path that was made absolute holds of the paths
of a checked request (`BuildSpec.forall_of_ofOptions`).
-/

namespace NativeExtension

namespace Path

theorem join_ne_nil {p q : Path} (h : p.bytes ≠ [] ∨ q.bytes ≠ []) : (p.join q).bytes ≠ [] := by
  unfold join
  split
  · next habsolute =>
    intro hnil
    simp [isAbsolute, hnil] at habsolute
  · split
    · rcases h with h | h <;> simp [h]
    · simp

theorem extend_ne_nil {base : Path} (h : base.bytes ≠ []) (steps : List Component) :
    (extend base steps).bytes ≠ [] := by
  unfold extend
  induction steps generalizing base with
  | nil => exact h
  | cons step rest ih =>
      rw [List.foldl_cons]
      exact ih (join_ne_nil (Or.inl h))

theorem keepTrailingSlash_ne_nil {written p : Path} (h : p.bytes ≠ []) :
    (keepTrailingSlash written p).bytes ≠ [] := by
  unfold keepTrailingSlash
  split
  · exact join_ne_nil (Or.inl h)
  · exact h

theorem bytes_of_isAbsolute {p : Path} (h : p.isAbsolute = true) :
    ∃ rest, p.bytes = slash :: rest :=
  List.head?_eq_some_iff.mp (of_decide_eq_true h)

theorem components_of_isAbsolute {p : Path} (h : p.isAbsolute = true) :
    ∃ rest, p.components = .root :: rest := by
  obtain ⟨rest, hbytes⟩ := bytes_of_isAbsolute h
  have hhead : splitHead p.bytes = ([slash], rest) := by rw [hbytes, splitHead, if_pos rfl]
  unfold components
  rw [hhead]
  exact ⟨_, rfl⟩

/-- The empty path is refused, and any other has something written in it afterwards. -/
theorem absolute_ne_nil {cwd : Except SystemError Path} {p q : Path}
    (hcwd : ∀ here, cwd = .ok here → here.bytes ≠ []) (h : p.absolute cwd = .ok q) :
    q.bytes ≠ [] := by
  unfold absolute at h
  split at h
  · cases h
  · split at h
    · next habsolute =>
      obtain ⟨rest, hcomponents⟩ := components_of_isAbsolute habsolute
      have hroot : (extend ⟨[]⟩ p.components).bytes ≠ [] := by
        rw [hcomponents, extend, List.foldl_cons]
        exact extend_ne_nil (join_ne_nil (Or.inr (by simp [Component.bytes]))) rest
      split at h
      · obtain rfl := Except.ok.inj h
        exact keepTrailingSlash_ne_nil (extend_ne_nil (by simp) _)
      · obtain rfl := Except.ok.inj h
        exact keepTrailingSlash_ne_nil hroot
    · obtain ⟨here, hhere, h⟩ := bind_ok_iff.mp h
      obtain rfl := ok_iff_pure.mp h
      exact keepTrailingSlash_ne_nil (extend_ne_nil (hcwd here hhere) _)

end Path

theorem Machine.currentDir_ne_nil {m : Machine} {here : Path} (h : m.currentDir = .ok here) :
    here.bytes ≠ [] := by
  unfold Machine.currentDir at h
  split at h
  · cases h
  · split at h
    · obtain rfl := Except.ok.inj h
      simp
    · next hlocation =>
      obtain rfl := Except.ok.inj h
      obtain ⟨first, hfirst⟩ := List.exists_mem_of_ne_nil m.cwd.location hlocation
      exact List.ne_nil_of_mem
        (List.mem_flatMap.mpr ⟨first, List.mem_reverse.mpr hfirst, List.mem_cons_self⟩)

theorem resolvePath_ok_iff {cwd : Except SystemError Path} {p q : Path} :
    resolvePath cwd p = .ok q ↔ p.absolute cwd = .ok q := by
  unfold resolvePath
  cases p.absolute cwd <;> simp

namespace BuildSpec

/-- What checking a request gives, step by step. -/
theorem ofOptions_ok {cwd : Except SystemError Path} {options : LoadOptions} {spec : BuildSpec}
    (h : ofOptions cwd options = .ok spec) :
    validateName options.name = .ok () ∧ options.sources ≠ [] ∧
      ∃ sources includes, options.sources.mapM (resolvePath cwd) = .ok sources ∧
        options.includes.mapM (resolvePath cwd) = .ok includes ∧
        spec = { name := options.name, sources := sources, hostFlags := options.hostFlags,
                 deviceFlags := options.deviceFlags, linkFlags := options.linkFlags,
                 includes := includes } := by
  unfold ofOptions at h
  obtain ⟨_, hname, h⟩ := bind_ok_iff.mp h
  split at h
  · obtain ⟨_, hthrow, -⟩ := bind_ok_iff.mp h
    cases hthrow
  · next hsources =>
    obtain ⟨sources, hresolved, h⟩ := bind_ok_iff.mp h
    obtain ⟨includes, hincludes, h⟩ := bind_ok_iff.mp h
    refine ⟨hname, by simpa using hsources, sources, includes, hresolved, hincludes, ?_⟩
    exact (ok_iff_pure.mp h).symm

/-- A checked request keeps its name. -/
theorem name_of_ofOptions {cwd : Except SystemError Path} {options : LoadOptions}
    {spec : BuildSpec} (h : ofOptions cwd options = .ok spec) : spec.name = options.name := by
  obtain ⟨-, -, sources, includes, -, -, rfl⟩ := ofOptions_ok h
  rfl

/-- The paths of a checked request have what every path has that was made absolute. -/
theorem forall_of_ofOptions {cwd : Except SystemError Path} {options : LoadOptions}
    {spec : BuildSpec} {kind : Path → Prop}
    (hkind : ∀ written p : Path, written.absolute cwd = .ok p → kind p)
    (h : ofOptions cwd options = .ok spec) : ∀ p ∈ spec.sources ++ spec.includes, kind p := by
  obtain ⟨-, -, sources, includes, hsources, hincludes, rfl⟩ := ofOptions_ok h
  intro p hp
  rcases List.mem_append.mp hp with hp | hp
  · obtain ⟨written, -, hwritten⟩ := mem_of_mapM_ok hsources hp
    exact hkind written p (resolvePath_ok_iff.mp hwritten)
  · obtain ⟨written, -, hwritten⟩ := mem_of_mapM_ok hincludes hp
    exact hkind written p (resolvePath_ok_iff.mp hwritten)

/-- No source of a checked request is the empty path. -/
theorem sources_ne_nil {m : Machine} {options : LoadOptions} {spec : BuildSpec}
    (h : ofOptions m.currentDir options = .ok spec) :
    ∀ source ∈ spec.sources, source.bytes ≠ [] := by
  have hall : ∀ p ∈ spec.sources ++ spec.includes, p.bytes ≠ [] :=
    forall_of_ofOptions (fun _ _ => Path.absolute_ne_nil fun _ => Machine.currentDir_ne_nil) h
  exact fun source hsource => hall source (List.mem_append_left _ hsource)

end BuildSpec

end NativeExtension
