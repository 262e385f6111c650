import Mathlib.Data.List.Forall2
import NativeExtension.Proofs.Ninja.Settling
import NativeExtension.Proofs.Path.Respelled

/-!
# NativeExtension.Proofs.Ninja.Respelling

**Requests that are equal have descriptions of one shape.** Requests and toolchains are compared
field by field, and their paths step by step, so equal ones may be spelled in different ways
(`BuildSpec.Equiv`, `Toolchain.Equiv`). What is settled for a description keeps this: the include
directories, the tools below the CUDA root, the objects of sources that have file names. So both
requests have a description, or neither has, for the same reason (`render_sameOutcome`).
-/

namespace NativeExtension

/-- Requests are compared field by field, and their paths step by step. -/
structure BuildSpec.Equiv (spec spec' : BuildSpec) : Prop where
  name : spec.name = spec'.name
  sources : List.Forall₂ Path.Equiv spec.sources spec'.sources
  hostFlags : spec.hostFlags = spec'.hostFlags
  deviceFlags : spec.deviceFlags = spec'.deviceFlags
  linkFlags : spec.linkFlags = spec'.linkFlags
  includes : List.Forall₂ Path.Equiv spec.includes spec'.includes

/-- Toolchains are compared field by field, and their paths step by step. -/
structure Toolchain.Equiv (toolchain toolchain' : Toolchain) : Prop where
  cxx : toolchain.cxx = toolchain'.cxx
  cudaHome : Option.Rel Path.Equiv toolchain.cudaHome toolchain'.cudaHome
  bundledIncludes : List.Forall₂ Path.Equiv toolchain.bundledIncludes toolchain'.bundledIncludes
  runtimeIncludes : List.Forall₂ Path.Equiv toolchain.runtimeIncludes toolchain'.runtimeIncludes
  os : toolchain.os = toolchain'.os

/-- Failures that name the same paths, however spelled. -/
inductive ConfigError.Equiv : ConfigError → ConfigError → Prop where
  | same (error : ConfigError) : Equiv error error
  | collision (object : String) {first first' second second' : Path} :
      first.Equiv first' → second.Equiv second' →
      Equiv (.objectCollision object first second) (.objectCollision object first' second')

namespace Ninja

variable {spec spec' : BuildSpec} {toolchain toolchain' : Toolchain}

/-! ### Include directories and CUDA -/

theorem hasDevice_congr (h : spec.Equiv spec') : spec.hasDevice = spec'.hasDevice := by
  have hany : ∀ xs ys : List Path, List.Forall₂ Path.Equiv xs ys →
      xs.any Path.isDeviceSource = ys.any Path.isDeviceSource := by
    intro xs ys hxs
    induction hxs with
    | nil => rfl
    | cons hfirst _ ih => rw [List.any_cons, List.any_cons, hfirst.isDeviceSource, ih]
  exact hany _ _ h.sources

/-- Equal roots give equal paths below them, or the same failure without a root. -/
theorem sameOutcome_joinCudaHome {home home' : Option Path}
    (h : Option.Rel Path.Equiv home home') {parts : List String}
    (hparts : ∀ part ∈ parts, (Path.ofText part).IsPlain) :
    SameOutcome ConfigError.Equiv Path.Equiv (joinCudaHome home parts)
      (joinCudaHome home' parts) := by
  cases h with
  | none => exact .error (.same _)
  | @some root root' hroot =>
      refine .ok ?_
      induction parts generalizing root root' with
      | nil => exact hroot
      | cons part rest ih =>
          have hfirst := hparts part List.mem_cons_self
          exact ih (fun other hother => hparts other (List.mem_cons_of_mem _ hother))
            (hroot.join_isPlain hfirst)

theorem sameOutcome_nvcc (h : toolchain.Equiv toolchain') :
    SameOutcome ConfigError.Equiv Path.Equiv toolchain.nvcc toolchain'.nvcc := by
  unfold Toolchain.nvcc
  rw [← h.os]
  refine sameOutcome_joinCudaHome h.cudaHome (List.forall_mem_cons.mpr ⟨rfl, ?_⟩)
  refine List.forall_mem_singleton.mpr ?_
  cases toolchain.os <;> rfl

theorem sameOutcome_cudaIncludeDir (h : toolchain.Equiv toolchain') :
    SameOutcome ConfigError.Equiv Path.Equiv toolchain.cudaIncludeDir toolchain'.cudaIncludeDir :=
  sameOutcome_joinCudaHome h.cudaHome (List.forall_mem_singleton.mpr rfl)

theorem sameOutcome_cudaLibDir (h : toolchain.Equiv toolchain') :
    SameOutcome ConfigError.Equiv Path.Equiv toolchain.cudaLibDir toolchain'.cudaLibDir :=
  sameOutcome_joinCudaHome h.cudaHome (List.forall_mem_singleton.mpr rfl)

/-- Whether a directory was seen does not depend on its spelling. -/
theorem seen_congr {seen seen' : List Path} (h : List.Forall₂ Path.Equiv seen seen')
    {dir dir' : Path} (hdir : dir.Equiv dir') :
    seen.any (fun earlier => decide (earlier.Equiv dir)) =
      seen'.any (fun earlier => decide (earlier.Equiv dir')) := by
  induction h with
  | nil => rfl
  | @cons first first' rest rest' hfirst _ ih =>
      have hiff : first.Equiv dir ↔ first'.Equiv dir' :=
        ⟨fun h => hfirst.symm.trans (h.trans hdir), fun h => hfirst.trans (h.trans hdir.symm)⟩
      rw [List.any_cons, List.any_cons, ih, decide_eq_decide.mpr hiff]

/-- What was seen before is compared by components, so respelling it changes nothing. -/
theorem forall₂_firstSeen {seen seen' dirs dirs' : List Path}
    (hseen : List.Forall₂ Path.Equiv seen seen') (h : List.Forall₂ Path.Equiv dirs dirs') :
    List.Forall₂ Path.Equiv (firstSeen seen dirs) (firstSeen seen' dirs') := by
  induction h generalizing seen seen' with
  | nil => exact .nil
  | cons hfirst _ ih =>
      rw [firstSeen, firstSeen, seen_congr hseen hfirst]
      split
      · exact ih hseen
      · exact .cons hfirst (ih (.cons hfirst hseen))

/-- **Equal requests have the same include directories, up to spelling.** -/
theorem sameOutcome_includeDirs (h : spec.Equiv spec') (ht : toolchain.Equiv toolchain') :
    SameOutcome ConfigError.Equiv (List.Forall₂ Path.Equiv) (includeDirs spec toolchain)
      (includeDirs spec' toolchain') := by
  have hcandidates : ∀ cuda cuda', List.Forall₂ Path.Equiv cuda cuda' →
      List.Forall₂ Path.Equiv
        (spec.includes ++ toolchain.bundledIncludes ++ cuda ++ toolchain.runtimeIncludes)
        (spec'.includes ++ toolchain'.bundledIncludes ++ cuda' ++ toolchain'.runtimeIncludes) :=
    fun _ _ hcuda => List.rel_append (List.rel_append (List.rel_append h.includes
      ht.bundledIncludes) hcuda) ht.runtimeIncludes
  unfold includeDirs includeCandidates
  rw [hasDevice_congr h]
  refine SameOutcome.map (R := List.Forall₂ Path.Equiv) ?_ fun _ _ => forall₂_firstSeen .nil
  split
  · have hcuda := (sameOutcome_cudaIncludeDir ht).map (S := List.Forall₂ Path.Equiv)
      fun _ _ (hdir : Path.Equiv _ _) => List.Forall₂.cons hdir .nil
    exact hcuda.bind fun cuda cuda' hdirs => .ok (hcandidates cuda cuda' hdirs)
  · exact .ok (hcandidates [] [] .nil)

/-! ### Objects -/

theorem objectName_congr {p q : Path} (h : p.Equiv q) (hname : p.fileName? ≠ none) :
    objectName p = objectName q := by
  obtain ⟨name, hname⟩ := Option.ne_none_iff_exists'.mp hname
  have hstem : p.stem? = some (Path.splitExtension name).1 := by
    rw [Path.stem?, hname, Option.map_some]
  rw [objectName, objectName, ← h.stem?, hstem, Option.getD_some, Option.getD_some]

/-- The compilations of one source in two spellings. -/
def SameEdge (edge edge' : ObjectEdge) : Prop :=
  edge.object = edge'.object ∧ edge.source.Equiv edge'.source

theorem sameEdge_find? {earlier earlier' : List ObjectEdge}
    (h : List.Forall₂ SameEdge earlier earlier') (object : String) :
    Option.Rel SameEdge (earlier.find? (·.object = object))
      (earlier'.find? (·.object = object)) := by
  induction h with
  | nil => exact .none
  | cons hfirst _ ih =>
      rw [List.find?_cons, List.find?_cons, ← hfirst.1]
      split
      · exact .some hfirst
      · exact ih

/-- By induction on the sources: equal paths have one object name, so they collide with the
same compilation, and the refusal names equal paths. -/
theorem sameOutcome_objectEdgesAfter {earlier earlier' : List ObjectEdge}
    (hearlier : List.Forall₂ SameEdge earlier earlier') {sources sources' : List Path}
    (h : List.Forall₂ Path.Equiv sources sources')
    (hnames : ∀ source ∈ sources, source.fileName? ≠ none) :
    SameOutcome ConfigError.Equiv (List.Forall₂ SameEdge) (objectEdgesAfter earlier sources)
      (objectEdgesAfter earlier' sources') := by
  induction h generalizing earlier earlier' with
  | nil => exact .ok hearlier
  | @cons source source' rest rest' hfirst _ ih =>
      have hobject : objectName source = objectName source' :=
        objectName_congr hfirst (hnames source List.mem_cons_self)
      have hfind := sameEdge_find? hearlier (objectName source)
      rw [objectEdgesAfter, objectEdgesAfter, ← hobject]
      cases hleft : earlier.find? (·.object = objectName source) with
      | none =>
          rw [hleft] at hfind
          cases hright : earlier'.find? (·.object = objectName source) with
          | some edge => rw [hright] at hfind; cases hfind
          | none =>
              refine ih (List.rel_append hearlier (.cons ⟨hobject, hfirst⟩ .nil)) ?_
              exact fun other hother => hnames other (List.mem_cons_of_mem _ hother)
      | some edge =>
          rw [hleft] at hfind
          cases hright : earlier'.find? (·.object = objectName source) with
          | none => rw [hright] at hfind; cases hfind
          | some edge' =>
              rw [hright] at hfind
              cases hfind with
              | some hedge => exact .error (.collision _ hedge.2 hfirst)

/-! ### The outcome -/

/-- **Equal requests whose sources have file names have a description both, or fail for the same
reason.** -/
theorem render_sameOutcome (h : spec.Equiv spec') (ht : toolchain.Equiv toolchain')
    (hnames : ∀ source ∈ spec.sources, source.fileName? ≠ none) :
    SameOutcome ConfigError.Equiv (fun _ _ => True) (render spec toolchain)
      (render spec' toolchain') := by
  have hnvcc : SameOutcome ConfigError.Equiv (fun _ _ => True) (nvccArgument spec toolchain)
      (nvccArgument spec' toolchain') := by
    unfold nvccArgument
    rw [hasDevice_congr h]
    split
    · exact (sameOutcome_nvcc ht).map fun _ _ _ => trivial
    · exact .ok trivial
  have hlink : SameOutcome ConfigError.Equiv (fun _ _ => True) (linkFlags spec toolchain)
      (linkFlags spec' toolchain') := by
    unfold linkFlags
    rw [hasDevice_congr h]
    split
    · refine SameOutcome.bind (R := fun _ _ => True) ?_ fun _ _ _ => .ok trivial
      exact (sameOutcome_cudaLibDir ht).map fun _ _ _ => trivial
    · exact .ok trivial
  unfold render statements
  rw [plan_eq, plan_eq]
  refine SameOutcome.map (R := fun _ _ => True) ?_ fun _ _ _ => trivial
  refine SameOutcome.map (R := fun _ _ => True) ?_ fun _ _ _ => trivial
  refine (sameOutcome_objectEdgesAfter .nil h.sources hnames).bind fun _ _ _ => ?_
  refine (sameOutcome_includeDirs h ht).bind fun _ _ _ => ?_
  refine hnvcc.bind fun _ _ _ => ?_
  exact hlink.bind fun _ _ _ => .ok trivial

end Ninja

end NativeExtension
