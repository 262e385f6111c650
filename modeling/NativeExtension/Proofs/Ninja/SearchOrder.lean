import Mathlib.Data.List.Basic
import NativeExtension.Proofs.Ninja.Settling

/-!
# NativeExtension.Proofs.Ninja.SearchOrder

**Each include directory is searched once, where it first stands.** The directories are gone
through with those seen so far at hand, and directories are compared by their steps, however they
are spelled. Only which directories have been seen counts, not how often or in which order
(`firstSeen_congr`), so a list can be cut anywhere and its parts gone through in turn
(`firstSeen_append`). What is kept is the list without repetitions, in its order and its
spellings, each directory at its earliest place (`FirstSeen`); so a repetition put in changes
neither what is kept nor the description (`includeDirs_firstSeen`).
-/

namespace NativeExtension.Ninja

/-- The directory stands in `seen`, in this spelling or another. -/
def Seen (seen : List Path) (dir : Path) : Prop := ∃ earlier ∈ seen, earlier.Equiv dir

variable {seen seen' dirs : List Path} {dir : Path}

/-! ### Directory by directory -/

theorem any_equiv_iff :
    seen.any (fun earlier => decide (earlier.Equiv dir)) = true ↔ Seen seen dir := by
  simp [Seen]

theorem firstSeen_of_seen (h : Seen seen dir) (rest : List Path) :
    firstSeen seen (dir :: rest) = firstSeen seen rest := by
  rw [firstSeen, if_pos (any_equiv_iff.mpr h)]

theorem firstSeen_of_new (h : ¬Seen seen dir) (rest : List Path) :
    firstSeen seen (dir :: rest) = dir :: firstSeen (dir :: seen) rest := by
  rw [firstSeen, if_neg (any_equiv_iff.not.mpr h)]

theorem seen_append {p : Path} : Seen (seen ++ seen') p ↔ Seen seen p ∨ Seen seen' p := by
  simp only [Seen, List.mem_append, or_and_right, exists_or]

theorem seen_cons {p : Path} : Seen (dir :: seen) p ↔ dir.Equiv p ∨ Seen seen p := by
  simp [Seen]

theorem Seen.of_equiv {p : Path} (h : Seen seen dir) (hequiv : dir.Equiv p) : Seen seen p := by
  obtain ⟨earlier, hearlier, hdir⟩ := h
  exact ⟨earlier, hearlier, hdir.trans hequiv⟩

/-- Which directories have been seen is all that counts. -/
theorem firstSeen_congr (h : ∀ p, Seen seen p ↔ Seen seen' p) (dirs : List Path) :
    firstSeen seen dirs = firstSeen seen' dirs := by
  induction dirs generalizing seen seen' with
  | nil => rfl
  | cons dir rest ih =>
      by_cases hdir : Seen seen dir
      · rw [firstSeen_of_seen hdir, firstSeen_of_seen ((h dir).mp hdir), ih h]
      · rw [firstSeen_of_new hdir, firstSeen_of_new ((h dir).not.mp hdir)]
        have hcons : ∀ p, Seen (dir :: seen) p ↔ Seen (dir :: seen') p := by
          intro p
          rw [seen_cons, seen_cons, h p]
        rw [ih hcons]

/-- **A list may be cut anywhere and its parts gone through in turn.** -/
theorem firstSeen_append (seen before after : List Path) :
    firstSeen seen (before ++ after) =
      firstSeen seen before ++ firstSeen (before ++ seen) after := by
  induction before generalizing seen with
  | nil => rfl
  | cons dir rest ih =>
      by_cases hdir : Seen seen dir
      · have hsame : ∀ p, Seen (rest ++ seen) p ↔ Seen (dir :: rest ++ seen) p := by
          intro p
          rw [List.cons_append, seen_cons]
          exact (or_iff_right_of_imp fun hp => seen_append.mpr (Or.inr (hdir.of_equiv hp))).symm
        rw [List.cons_append, firstSeen_of_seen hdir, firstSeen_of_seen hdir, ih,
          firstSeen_congr hsame]
      · have hsame : ∀ p, Seen (rest ++ dir :: seen) p ↔ Seen (dir :: rest ++ seen) p := by
          intro p
          rw [List.cons_append, seen_cons, seen_append, seen_append, seen_cons]
          exact or_left_comm
        rw [List.cons_append, firstSeen_of_new hdir, firstSeen_of_new hdir, ih,
          firstSeen_congr hsame]
        rfl

/-! ### What is kept -/

theorem firstSeen_sublist (seen dirs : List Path) : List.Sublist (firstSeen seen dirs) dirs := by
  induction dirs generalizing seen with
  | nil => exact List.Sublist.refl _
  | cons dir rest ih =>
      by_cases hdir : Seen seen dir
      · rw [firstSeen_of_seen hdir]
        exact (ih seen).cons dir
      · rw [firstSeen_of_new hdir]
        exact (ih (dir :: seen)).cons_cons dir

theorem mem_of_mem_firstSeen {p : Path} (h : p ∈ firstSeen seen dirs) : p ∈ dirs :=
  (firstSeen_sublist seen dirs).subset h

/-- A directory that was dropped had been seen in another spelling. -/
theorem seen_or_mem_firstSeen {p : Path} (h : p ∈ dirs) (seen : List Path) :
    ∃ q ∈ seen ++ firstSeen seen dirs, q.Equiv p := by
  induction dirs generalizing seen with
  | nil => cases h
  | cons dir rest ih =>
      by_cases hdir : Seen seen dir
      · rw [firstSeen_of_seen hdir]
        rcases List.mem_cons.mp h with rfl | h
        · exact seen_append.mpr (Or.inl hdir)
        · exact ih h seen
      · rw [firstSeen_of_new hdir]
        rcases List.mem_cons.mp h with rfl | h
        · exact ⟨p, by simp, rfl⟩
        · obtain ⟨q, hq, hequiv⟩ := ih h (dir :: seen)
          refine ⟨q, ?_, hequiv⟩
          simp only [List.mem_append, List.mem_cons] at hq ⊢
          tauto

/-- What holds of all spellings of a directory holds of all directories if of those kept. -/
theorem forall_mem_firstSeen_iff {P : Path → Prop} (hP : ∀ {p q : Path}, p.Equiv q → (P p ↔ P q))
    (dirs : List Path) : (∀ p ∈ firstSeen [] dirs, P p) ↔ ∀ p ∈ dirs, P p := by
  constructor
  · intro hkept p hp
    obtain ⟨q, hq, hequiv⟩ := seen_or_mem_firstSeen hp []
    exact (hP hequiv).mp (hkept q hq)
  · exact fun hall p hp => hall p (mem_of_mem_firstSeen hp)

/-- **Each directory kept stands where nothing before it is the same**, and what is kept in front
of it and behind it comes from the parts of the list on these sides. -/
theorem firstSeen_split {front back : List Path} {kept : Path}
    (h : firstSeen seen dirs = front ++ kept :: back) :
    ∃ before after, dirs = before ++ kept :: after ∧ ¬Seen (before ++ seen) kept ∧
      List.Sublist front before ∧ List.Sublist back after := by
  induction dirs generalizing seen front with
  | nil => simp [firstSeen] at h
  | cons dir rest ih =>
      by_cases hdir : Seen seen dir
      · rw [firstSeen_of_seen hdir] at h
        obtain ⟨before, after, rfl, hnew, hfront, hback⟩ := ih h
        refine ⟨dir :: before, after, rfl, ?_, hfront.cons dir, hback⟩
        rw [List.cons_append, seen_cons, not_or]
        exact ⟨fun hequiv => hnew (seen_append.mpr (Or.inr (hdir.of_equiv hequiv))), hnew⟩
      · rw [firstSeen_of_new hdir] at h
        cases front with
        | nil =>
            obtain ⟨rfl, rfl⟩ := List.cons.inj h
            exact ⟨[], rest, rfl, hdir, List.Sublist.refl _, firstSeen_sublist _ rest⟩
        | cons first others =>
            obtain ⟨rfl, hrest⟩ := List.cons.inj h
            obtain ⟨before, after, rfl, hnew, hfront, hback⟩ := ih hrest
            refine ⟨dir :: before, after, rfl, ?_, hfront.cons_cons dir, hback⟩
            rw [seen_append, seen_cons] at hnew
            rw [List.cons_append, seen_cons, seen_append]
            tauto

theorem not_seen_of_mem_firstSeen {p : Path} (h : p ∈ firstSeen seen dirs) : ¬Seen seen p := by
  obtain ⟨front, back, hsplit⟩ := List.append_of_mem h
  obtain ⟨before, after, -, hnew, -, -⟩ := firstSeen_split hsplit
  exact fun hseen => hnew (seen_append.mpr (Or.inr hseen))

/-- A directory that was seen is in `seen` for all that follow, so no later one is equal to
it. -/
theorem pairwise_firstSeen (seen dirs : List Path) :
    (firstSeen seen dirs).Pairwise fun p q => ¬p.Equiv q := by
  induction dirs generalizing seen with
  | nil => exact List.Pairwise.nil
  | cons dir rest ih =>
      by_cases hdir : Seen seen dir
      · rw [firstSeen_of_seen hdir]
        exact ih seen
      · rw [firstSeen_of_new hdir]
        refine List.Pairwise.cons (fun p hp hequiv => ?_) (ih (dir :: seen))
        exact not_seen_of_mem_firstSeen hp (seen_cons.mpr (Or.inl hequiv))

/-- Directories that all differ from each other and from those seen are all kept. -/
theorem firstSeen_eq_self (hseen : ∀ p ∈ dirs, ¬Seen seen p)
    (hdirs : dirs.Pairwise fun p q => ¬p.Equiv q) : firstSeen seen dirs = dirs := by
  induction dirs generalizing seen with
  | nil => rfl
  | cons dir rest ih =>
      obtain ⟨hfirst, hrest⟩ := List.pairwise_cons.mp hdirs
      rw [firstSeen_of_new (hseen dir List.mem_cons_self)]
      congr 1
      refine ih (fun p hp hcons => ?_) hrest
      rcases seen_cons.mp hcons with hequiv | hearlier
      · exact hfirst p hp hequiv
      · exact hseen p (List.mem_cons_of_mem _ hp) hearlier

theorem firstSeen_firstSeen (dirs : List Path) :
    firstSeen [] (firstSeen [] dirs) = firstSeen [] dirs :=
  firstSeen_eq_self (by simp [Seen]) (pairwise_firstSeen [] dirs)

/-- **A repetition is as good as not there.** -/
theorem firstSeen_insert {before : List Path} (h : Seen before dir) (after : List Path) :
    firstSeen [] (before ++ dir :: after) = firstSeen [] (before ++ after) := by
  rw [firstSeen_append, firstSeen_append, List.append_nil, firstSeen_of_seen h]

/-- `dirs` are the directories of `candidates`, each of them once: in their order and their
spellings, and each at its earliest place. -/
structure FirstSeen (candidates dirs : List Path) : Prop where
  sublist : List.Sublist dirs candidates
  distinct : dirs.Pairwise fun p q => ¬p.Equiv q
  complete : ∀ dir ∈ candidates, Seen dirs dir
  earliest : ∀ front kept back, dirs = front ++ kept :: back →
    ∃ before after, candidates = before ++ kept :: after ∧ ¬Seen before kept ∧
      List.Sublist front before ∧ List.Sublist back after

theorem firstSeen_spec (candidates : List Path) :
    FirstSeen candidates (firstSeen [] candidates) where
  sublist := firstSeen_sublist [] candidates
  distinct := pairwise_firstSeen [] candidates
  complete dir hdir := seen_or_mem_firstSeen hdir []
  earliest front kept back h := by
    obtain ⟨before, after, hsplit, hnew, hfront, hback⟩ := firstSeen_split h
    rw [List.append_nil] at hnew
    exact ⟨before, after, hsplit, hnew, hfront, hback⟩

/-! ### The include directories of a description -/

/-- The include directories in search order, repetitions included: the caller's, the bundled ones,
CUDA's if a source needs it, the loading program's. -/
inductive Candidates (spec : BuildSpec) (toolchain : Toolchain) : List Path → Prop where
  | host (h : spec.hasDevice = false) :
      Candidates spec toolchain
        (spec.includes ++ toolchain.bundledIncludes ++ toolchain.runtimeIncludes)
  | device {cuda : Path} (h : spec.hasDevice = true) (hcuda : toolchain.cudaIncludeDir = .ok cuda) :
      Candidates spec toolchain
        (spec.includes ++ toolchain.bundledIncludes ++ [cuda] ++ toolchain.runtimeIncludes)

variable {spec : BuildSpec} {toolchain : Toolchain}

/-- The order of search is fixed once it is known whether CUDA's headers are in it. -/
theorem candidates_iff {candidates : List Path} :
    Candidates spec toolchain candidates ↔
      ∃ root, usedRoot spec toolchain = .ok root ∧
        searchOrder spec toolchain root = candidates := by
  constructor
  · intro h
    cases h with
    | host hhost =>
        exact ⟨none, usedRoot_ok_iff.mpr (Or.inl ⟨hhost, rfl⟩), by simp [searchOrder]⟩
    | device hdevice hcuda =>
        obtain ⟨home, hhome, rfl⟩ := joinCudaHome_ok hcuda
        exact ⟨some home, usedRoot_ok_iff.mpr (Or.inr ⟨hdevice, home, hhome, rfl⟩), rfl⟩
  · intro h
    obtain ⟨root, hroot, rfl⟩ := h
    rcases usedRoot_ok_iff.mp hroot with ⟨hhost, rfl⟩ | ⟨hdevice, home, hhome, rfl⟩
    · have hcandidates : Candidates spec toolchain _ := .host hhost
      simpa [searchOrder] using hcandidates
    · refine Candidates.device hdevice ?_
      rw [Toolchain.cudaIncludeDir, hhome]
      rfl

theorem includeDirs_eq (spec : BuildSpec) (toolchain : Toolchain) :
    includeDirs spec toolchain =
      (usedRoot spec toolchain).map fun root => firstSeen [] (searchOrder spec toolchain root) := by
  rw [includeDirs, includeCandidates_eq]
  cases usedRoot spec toolchain <;> rfl

/-- The requests and the toolchains are the same but for the include directories that they name. -/
structure SameButIncludes (spec spec' : BuildSpec) (toolchain toolchain' : Toolchain) : Prop where
  spec : spec' = { spec with includes := spec'.includes }
  toolchain : toolchain' =
    { toolchain with
      bundledIncludes := toolchain'.bundledIncludes
      runtimeIncludes := toolchain'.runtimeIncludes }

namespace SameButIncludes

variable {spec' : BuildSpec} {toolchain' : Toolchain}

theorem usedRoot_eq (h : SameButIncludes spec spec' toolchain toolchain') :
    usedRoot spec' toolchain' = usedRoot spec toolchain := by
  rw [h.spec, h.toolchain]
  rfl

theorem planned_eq (h : SameButIncludes spec spec' toolchain toolchain') {root : Option Path}
    (hkept : firstSeen [] (searchOrder spec' toolchain' root) =
      firstSeen [] (searchOrder spec toolchain root)) :
    planned spec' toolchain' root = planned spec toolchain root := by
  unfold planned
  rw [hkept, h.spec, h.toolchain]
  rfl

/-- **Include directories bear on the description through those that are kept.** -/
theorem outcome (h : SameButIncludes spec spec' toolchain toolchain')
    (hkept : ∀ root, usedRoot spec toolchain = .ok root →
      firstSeen [] (searchOrder spec' toolchain' root) =
        firstSeen [] (searchOrder spec toolchain root)) :
    includeDirs spec' toolchain' = includeDirs spec toolchain ∧
      render spec' toolchain' = render spec toolchain := by
  have hsources : spec'.sources = spec.sources := by rw [h.spec]
  rw [includeDirs_eq, includeDirs_eq, render_eq, render_eq, h.usedRoot_eq, hsources]
  cases hroot : usedRoot spec toolchain with
  | error error => exact ⟨rfl, rfl⟩
  | ok root =>
      have hdirs := hkept root hroot
      exact ⟨by simp only [Except.map, hdirs], by simp only [Except.map, h.planned_eq hdirs]⟩

end SameButIncludes

/-- **The include directories are the candidates without repetitions**, and there are none only for
want of the CUDA root. A repetition put in anywhere changes neither them nor the description, and
they hold none themselves. -/
theorem includeDirs_firstSeen (spec : BuildSpec) (toolchain : Toolchain) :
    (∀ error, includeDirs spec toolchain = .error error ↔
      error = .cudaRootMissing ∧ spec.hasDevice = true ∧ toolchain.cudaHome = none) ∧
    (¬(spec.hasDevice = true ∧ toolchain.cudaHome = none) →
      ∃ candidates dirs, Candidates spec toolchain candidates ∧
        includeDirs spec toolchain = .ok dirs ∧ FirstSeen candidates dirs ∧
        firstSeen [] dirs = dirs) ∧
    (∀ spec' toolchain', SameButIncludes spec spec' toolchain toolchain' →
      (spec.hasDevice = true ∧ toolchain.cudaHome = none) ∨
        (∃ before dir after, Candidates spec toolchain (before ++ after) ∧
          Candidates spec' toolchain' (before ++ dir :: after) ∧ Seen before dir) →
      includeDirs spec' toolchain' = includeDirs spec toolchain ∧
        render spec' toolchain' = render spec toolchain) := by
  refine ⟨?_, ?_, ?_⟩
  · intro error
    rw [includeDirs_eq, map_error_iff, usedRoot_error_iff]
  · intro hroot
    cases hused : usedRoot spec toolchain with
    | error error => exact absurd (usedRoot_error_iff.mp hused).2 hroot
    | ok root =>
        refine ⟨searchOrder spec toolchain root, _, candidates_iff.mpr ⟨root, hused, rfl⟩, ?_,
          firstSeen_spec _, firstSeen_firstSeen _⟩
        rw [includeDirs_eq, hused]
        rfl
  · intro spec' toolchain' hsame hinserted
    refine hsame.outcome fun root hroot => ?_
    rcases hinserted with hmissing | ⟨before, dir, after, hwithout, hwith, hseen⟩
    · rw [usedRoot_error_iff.mpr ⟨rfl, hmissing⟩] at hroot
      cases hroot
    · -- both lists of candidates go with the one root that is used
      obtain ⟨used, hused, horder⟩ := candidates_iff.mp hwithout
      obtain ⟨used', hused', horder'⟩ := candidates_iff.mp hwith
      rw [hsame.usedRoot_eq, hroot] at hused'
      rw [hroot] at hused
      obtain rfl := Except.ok.inj hused
      obtain rfl := Except.ok.inj hused'
      rw [horder, horder', firstSeen_insert hseen]

/-- A kernel whose caller includes a directory that the loading program may name again. -/
def searchedSpec : BuildSpec where
  name := "demo"
  sources := [.ofText "/src/k.cu"]
  hostFlags := []
  deviceFlags := []
  linkFlags := []
  includes := [.ofText "/inc/a/", .ofText "/cuda/./include"]

/-- A toolchain with a CUDA root, for a program with these headers. -/
def searchedToolchain (runtime : List Path) : Toolchain where
  cudaHome := some (.ofText "/cuda")
  bundledIncludes := [.ofText "/ext/include"]
  runtimeIncludes := runtime

theorem includeDirs_firstSeen_respelled :
    includeDirs searchedSpec (searchedToolchain [.ofText "//inc/a", .ofText "/rt"]) =
        includeDirs searchedSpec (searchedToolchain [.ofText "/rt"]) ∧
      includeDirs searchedSpec (searchedToolchain [.ofText "/rt"]) =
        .ok [.ofText "/inc/a/", .ofText "/cuda/./include", .ofText "/ext/include", .ofText "/rt"] ∧
      render searchedSpec (searchedToolchain [.ofText "//inc/a", .ofText "/rt"]) =
        render searchedSpec (searchedToolchain [.ofText "/rt"]) := by
  obtain ⟨-, -, hinsert⟩ :=
    includeDirs_firstSeen searchedSpec (searchedToolchain [.ofText "/rt"])
  have hboth := hinsert searchedSpec (searchedToolchain [.ofText "//inc/a", .ofText "/rt"])
    ⟨rfl, rfl⟩ (Or.inr ⟨[.ofText "/inc/a/", .ofText "/cuda/./include", .ofText "/ext/include",
      .ofText "/cuda/include"], .ofText "//inc/a", [.ofText "/rt"], .device rfl rfl,
      .device rfl rfl, .ofText "/inc/a/", List.mem_cons_self, by decide⟩)
  exact ⟨hboth.1, rfl, hboth.2⟩

end NativeExtension.Ninja
