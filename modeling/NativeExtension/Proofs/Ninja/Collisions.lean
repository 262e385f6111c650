import Mathlib.Data.List.Forall2
import Mathlib.Data.List.Nodup
import NativeExtension.Ninja.Description
import NativeExtension.Proofs.Outcome

/-!
# NativeExtension.Proofs.Ninja.Collisions

**Sources that would become one object are found, and the first two of them are named.** The
compilations are collected source by source. As long as nothing collides they are those of the
sources so far, whose objects differ, and the first source that does collide ends the list
(`objectEdgesAfter_cases`). So there are compilations exactly if all objects differ, and else the
failure names the least source that collides with one before it, and that one, of which there is
no other (`objectEdges_collisions`).
-/

namespace NativeExtension.Ninja

/-! ### Source by source -/

/-- What becomes of the sources `after` once those of `before` have been taken in. -/
theorem objectEdgesAfter_cases (before after : List Path)
    (hbefore : (before.map objectName).Nodup) :
    (objectEdgesAfter (before.map objectEdge) after = .ok ((before ++ after).map objectEdge) ∧
      ((before ++ after).map objectName).Nodup) ∨
    ∃ front first second back, before ++ after = front ++ second :: back ∧
      (front.map objectName).Nodup ∧ first ∈ front ∧ objectName first = objectName second ∧
      objectEdgesAfter (before.map objectEdge) after =
        .error (.objectCollision (objectName second) first second) := by
  induction after generalizing before with
  | nil => exact Or.inl ⟨by simp [objectEdgesAfter], by simpa using hbefore⟩
  | cons source rest ih =>
      rw [objectEdgesAfter]
      cases hfind : (before.map objectEdge).find? (·.object = objectName source) with
      | some edge =>
          obtain ⟨first, hfirst, rfl⟩ := List.mem_map.mp (List.mem_of_find?_eq_some hfind)
          have hdecided := List.find?_some hfind
          have hsame : objectName first = objectName source := of_decide_eq_true hdecided
          exact Or.inr ⟨before, first, source, rest, rfl, hbefore, hfirst, hsame, rfl⟩
      | none =>
          have hnew : objectName source ∉ before.map objectName := by
            intro hmem
            obtain ⟨earlier, hearlier, hsame⟩ := List.mem_map.mp hmem
            have hdiffers :=
              List.find?_eq_none.mp hfind (objectEdge earlier) (List.mem_map_of_mem hearlier)
            exact hdiffers (decide_eq_true hsame)
          have hlonger : ((before ++ [source]).map objectName).Nodup := by
            rw [List.map_append, List.map_singleton, ← List.concat_eq_append, List.nodup_concat]
            exact ⟨hnew, hbefore⟩
          have hedges : before.map objectEdge ++ [objectEdge source] =
              (before ++ [source]).map objectEdge := by simp
          have hsources : before ++ source :: rest = before ++ [source] ++ rest := by simp
          rw [hsources]
          simp only [hedges]
          exact ih (before ++ [source]) hlonger

variable {sources : List Path}

/-- **The compilations are those of the sources, or two of them collide.** -/
theorem objectEdges_cases (sources : List Path) :
    (objectEdges sources = .ok (sources.map objectEdge) ∧ (sources.map objectName).Nodup) ∨
    ∃ front first second back, sources = front ++ second :: back ∧
      (front.map objectName).Nodup ∧ first ∈ front ∧ objectName first = objectName second ∧
      objectEdges sources = .error (.objectCollision (objectName second) first second) :=
  objectEdgesAfter_cases [] sources List.nodup_nil

theorem not_nodup_of_split {front back : List Path} {first second : Path}
    (h : sources = front ++ second :: back) (hfirst : first ∈ front)
    (hsame : objectName first = objectName second) : ¬(sources.map objectName).Nodup := by
  intro hnodup
  rw [h, List.map_append, List.nodup_append] at hnodup
  exact hnodup.2.2 (objectName first) (List.mem_map_of_mem hfirst) (objectName second)
    (List.mem_map_of_mem List.mem_cons_self) hsame

/-- The compilations are refused only for a name that stands twice. -/
theorem objectEdges_ok_iff {edges : List ObjectEdge} :
    objectEdges sources = .ok edges ↔
      edges = sources.map objectEdge ∧ (sources.map objectName).Nodup := by
  rcases objectEdges_cases sources with ⟨hok, hnodup⟩ |
      ⟨front, first, second, back, hsplit, -, hfirst, hsame, herror⟩
  · rw [hok]
    simp [hnodup, eq_comm]
  · rw [herror]
    simp [not_nodup_of_split hsplit hfirst hsame]

/-- Nothing but a collision keeps the compilations from being listed. -/
theorem objectEdges_error {error : ConfigError} (h : objectEdges sources = .error error) :
    ¬(sources.map objectName).Nodup ∧
      ∃ object first second, error = .objectCollision object first second := by
  rcases objectEdges_cases sources with ⟨hok, -⟩ |
      ⟨front, first, second, back, hsplit, -, hfirst, hsame, herror⟩
  · rw [hok] at h
    cases h
  · rw [herror] at h
    exact ⟨not_nodup_of_split hsplit hfirst hsame, _, first, second, (Except.error.inj h).symm⟩

/-! ### Places in the list -/

/-- The source at `j` would overwrite the object of the one at `i`, which stands before it. -/
structure Collide (sources : List Path) (i j : Nat) : Prop where
  before : i < j
  within : j < sources.length
  same : (sources.map objectName)[i]? = (sources.map objectName)[j]?

/-- The source at `j` is the first that collides with one before it, and it collides with the
source at `i` and no other. -/
structure FirstCollision (sources : List Path) (i j : Nat) : Prop where
  collide : Collide sources i j
  least : ∀ i' j', Collide sources i' j' → j ≤ j'
  only : ∀ i', Collide sources i' j → i' = i

/-- Where sources go well up to one that collides, it is the first to do so. -/
theorem firstCollision_of_split {front back : List Path} {first second : Path}
    (h : sources = front ++ second :: back) (hfront : (front.map objectName).Nodup)
    (hfirst : first ∈ front) (hsame : objectName first = objectName second) :
    ∃ i j, sources[i]? = some first ∧ sources[j]? = some second ∧ FirstCollision sources i j := by
  obtain ⟨i, hi⟩ := List.getElem?_of_mem hfirst
  have hbound : i < front.length := (List.getElem?_eq_some_iff.mp hi).1
  have hin : ∀ k, k < front.length → sources[k]? = front[k]? := by
    intro k hk
    rw [h, List.getElem?_append_left hk]
  have hlast : sources[front.length]? = some second := by simp [h]
  -- objects of sources in the front are told apart by their places
  have hinjective : ∀ k l, k < front.length → l < front.length →
      (sources.map objectName)[k]? = (sources.map objectName)[l]? → k = l := by
    intro k l hk hl heq
    simp only [List.getElem?_map, hin k hk, hin l hl] at heq
    rw [← List.getElem?_map, ← List.getElem?_map] at heq
    exact (List.getElem?_inj (by simpa using hk) hfront).mp heq
  have hcollide : Collide sources i front.length :=
    { before := hbound
      within := by simp [h]
      same := by simp [List.getElem?_map, hin i hbound, hi, hlast, hsame] }
  refine ⟨i, front.length, by rw [hin i hbound, hi], hlast, hcollide, ?_, ?_⟩
  · intro i' j' hother
    by_contra hshort
    have hj' : j' < front.length := by omega
    have hbefore := hother.before
    have heq := hinjective i' j' (by omega) hj' hother.same
    omega
  · intro i' hother
    exact hinjective i' i hother.before hbound (hother.same.trans hcollide.same.symm)

/-! ### The outcome -/

/-- The edge compiles the source into its object, by the rule that its extension asks for. -/
structure Compiles (source : Path) (edge : ObjectEdge) : Prop where
  object : edge.object = shown (source.stem?.getD source.bytes) ++ ".o"
  rule : ruleOf edge.compiler = if source.isDeviceSource then "cuda_compile" else "compile"
  source : edge.source = source

theorem compiles_objectEdge (source : Path) : Compiles source (objectEdge source) where
  object := rfl
  rule := by
    show ruleOf source.compiler = _
    unfold Path.compiler
    split <;> rfl
  source := rfl

/-- **There are compilations exactly if all objects differ**, one for each source and in their
order; and else the failure names the first two sources that collide. -/
theorem objectEdges_collisions (sources : List Path) :
    ((∃ edges, objectEdges sources = .ok edges) ↔ (sources.map objectName).Nodup) ∧
    (∀ edges, objectEdges sources = .ok edges → List.Forall₂ Compiles sources edges) ∧
    (¬(sources.map objectName).Nodup →
      ∃ i j first second, sources[i]? = some first ∧ sources[j]? = some second ∧
        FirstCollision sources i j ∧
        objectEdges sources = .error (.objectCollision (objectName second) first second)) := by
  refine ⟨?_, ?_, ?_⟩
  · simp [objectEdges_ok_iff]
  · intro edges h
    obtain ⟨rfl, -⟩ := objectEdges_ok_iff.mp h
    rw [List.forall₂_map_right_iff]
    exact List.forall₂_same.mpr fun source _ => compiles_objectEdge source
  · intro hcollide
    rcases objectEdges_cases sources with ⟨-, hnodup⟩ |
        ⟨front, first, second, back, hsplit, hfront, hfirst, hsame, herror⟩
    · exact absurd hnodup hcollide
    · obtain ⟨i, j, hi, hj, hij⟩ := firstCollision_of_split hsplit hfront hfirst hsame
      exact ⟨i, j, first, second, hi, hj, hij, herror⟩

/-- Stems that are no text, and a path without a file name. -/
def collidingSources : List Path :=
  [.ofText "/a/x.cpp", ⟨[0x2F, 0xFF, 0x2E, 0x63]⟩, .ofText "..",
    ⟨[0x2F, 0xFE, 0x2E, 0x63, 0x75]⟩, .ofText "/b/x.cu"]

theorem objectEdges_collisions_undecodable :
    ¬(collidingSources.map objectName).Nodup ∧
      ∃ i j first second, collidingSources[i]? = some first ∧
        first.bytes = [0x2F, 0xFF, 0x2E, 0x63] ∧
        collidingSources[j]? = some second ∧ second.bytes = [0x2F, 0xFE, 0x2E, 0x63, 0x75] ∧
        FirstCollision collidingSources i j ∧
        objectEdges collidingSources = .error (.objectCollision "\uFFFD.o" first second) := by
  have hcollide : ¬(collidingSources.map objectName).Nodup := by decide
  obtain ⟨i, j, first, second, hi, hj, hij, herror⟩ :=
    (objectEdges_collisions collidingSources).2.2 hcollide
  have hcomputed : objectEdges collidingSources = .error (.objectCollision "\uFFFD.o"
      ⟨[0x2F, 0xFF, 0x2E, 0x63]⟩ ⟨[0x2F, 0xFE, 0x2E, 0x63, 0x75]⟩) := rfl
  rw [hcomputed] at herror
  obtain ⟨-, rfl, rfl⟩ := ConfigError.objectCollision.inj (Except.error.inj herror)
  exact ⟨hcollide, i, j, _, _, hi, rfl, hj, rfl, hij, hcomputed⟩

end NativeExtension.Ninja
