import NativeExtension.Proofs.Session.Run

/-!
# NativeExtension.Proofs.Session.Registry

**The registry over whole runs.** What is registered under a name is what the last load under
it gave (`Run.loaded?_eq`), from the path that was found in that very load
(`Run.registered`), and a handle that was once given keeps its extension for good
(`Run.handle_stays`). Each is an induction on the run; the step is `registers_cases`.
-/

namespace NativeExtension

/-! ### One step -/

private theorem lookup_filter_of_ne {name other : String} (h : other ≠ name)
    (entries : List (String × Extension)) :
    (entries.filter (·.1 ≠ name)).lookup other = entries.lookup other := by
  induction entries with
  | nil => rfl
  | cons entry rest ih =>
      by_cases hname : entry.1 = name
      · have hdiffers : (other == entry.1) = false := beq_false_of_ne (hname ▸ h)
        rw [List.filter_cons_of_neg (by simpa using hname), ih, List.lookup_cons, hdiffers]
      · rw [List.filter_cons_of_pos (by simpa using hname), List.lookup_cons, List.lookup_cons, ih]

namespace Session

variable {s s' : Session} {e : Extension}

theorem Registers.loaded?_self (h : Registers s s' e) : s'.loaded? e.name = some e := by
  rw [loaded?, h.registry, List.lookup_cons, beq_self_eq_true]

theorem Registers.loaded?_of_ne (h : Registers s s' e) {name : String} (hne : name ≠ e.name) :
    s'.loaded? name = s.loaded? name := by
  rw [loaded?, h.registry, List.lookup_cons, beq_false_of_ne hne]
  exact lookup_filter_of_ne hne s.registry

theorem SameRegistrations.loaded?_eq (h : SameRegistrations s s') (name : String) :
    s'.loaded? name = s.loaded? name := by
  rw [loaded?, h.registry, loaded?]

end Session

/-- An operation registers nothing, or the one extension that it gives, from the path that is
found in that very load. -/
theorem registers_cases (operation : Operation) (s : Session) :
    (Step.of s operation).answer.loaded? = none ∧
      Session.SameRegistrations s (Step.of s operation).after ∨
    ∃ e, (Step.of s operation).answer.loaded? = some e ∧ operation.target? = some e.name ∧
      operation.Finds s e.path ∧ Session.Registers s (Step.of s operation).after e := by
  rcases perform_cases operation s
    with ⟨hnone, hsame⟩ | ⟨ready, name, directory, suffix, hload⟩
  · exact Or.inl ⟨hnone, hsame.extensions, hsame.registry⟩
  · rw [hload.loaded, hload.after]
    rcases Session.loadArtifact_cases name directory suffix ready
      with ⟨error, s', hrun, hsame⟩ | ⟨e, s', hrun, he, hfind, hregisters⟩
    · rw [hrun]
      exact Or.inl ⟨rfl, hsame.after hload.same⟩
    · rw [hrun]
      exact Or.inr ⟨e, rfl, he ▸ hload.target, hload.finds e.path hfind,
        hregisters.after hload.same⟩

/-- An operation that does not load under a name leaves what is loaded under it. -/
theorem loaded?_of_other {operation : Operation} {s : Session} {name : String}
    (h : operation.target? ≠ some name) :
    (Step.of s operation).after.loaded? name = s.loaded? name := by
  rcases registers_cases operation s with ⟨-, hsame⟩ | ⟨e, -, htarget, -, hregisters⟩
  · exact hsame.loaded?_eq name
  · refine hregisters.loaded?_of_ne ?_
    rintro rfl
    exact h htarget

/-! ### Whole runs -/

/-- The extension that the last load under a name gave, as the answers tell. -/
def lastLoaded? (name : String) (done : List Step) : Option Extension :=
  (done.filterMap fun step =>
    if step.operation.target? = some name then step.answer.loaded? else none).getLast?

theorem lastLoaded?_concat (name : String) (done : List Step) (step : Step) :
    lastLoaded? name (done ++ [step]) =
      ((if step.operation.target? = some name then step.answer.loaded? else none).or
        (lastLoaded? name done)) := by
  unfold lastLoaded?
  rw [List.filterMap_append, List.getLast?_append]
  congr 1
  cases hlast : (if step.operation.target? = some name then step.answer.loaded? else none) with
  | none => simp [hlast]
  | some e => simp [hlast]

namespace Run

variable {m : Machine} {done : List Step} {s : Session}

theorem step_eq (h : Run m done s) : ∀ step ∈ done, step = Step.of step.before step.operation := by
  induction h with
  | start => simp
  | step hrun operation ih =>
      exact List.forall_mem_append.mpr ⟨ih, List.forall_mem_singleton.mpr rfl⟩

/-- By induction on the run: each step registers what it loaded, or nothing. -/
theorem loaded?_eq (h : Run m done s) (name : String) : s.loaded? name = lastLoaded? name done := by
  induction h with
  | start => rfl
  | @step done s hrun operation ih =>
      rw [lastLoaded?_concat, ← ih]
      by_cases htarget : operation.target? = some name
      · rcases registers_cases operation s with ⟨hnone, hsame⟩ | ⟨e, hloaded, hname, -, hregisters⟩
        · rw [hsame.loaded?_eq name, hnone]
          simp
        · obtain rfl : e.name = name := Option.some.inj (hname.symm.trans htarget)
          have hif : (if (Step.of s operation).operation.target? = some e.name then
              (Step.of s operation).answer.loaded? else none) = some e := by
            rw [hloaded]
            exact if_pos htarget
          rw [hif, hregisters.loaded?_self]
          rfl
      · have hif : (if (Step.of s operation).operation.target? = some name then
            (Step.of s operation).answer.loaded? else none) = none := if_neg htarget
        rw [hif, loaded?_of_other htarget]
        rfl

/-- By induction on the run: an entry of the registry comes from the step that made it, and no
later step changes it. -/
theorem registered (h : Run m done s) : ∀ entry ∈ s.registry, entry.2.name = entry.1 ∧
    ∃ step ∈ done, step.answer.loaded? = some entry.2 ∧
      step.operation.Finds step.before entry.2.path := by
  induction h with
  | start => simp
  | @step done s hrun operation ih =>
      -- an entry that was there before keeps the step that it comes from
      have hearlier : ∀ entry ∈ s.registry, entry.2.name = entry.1 ∧
          ∃ step ∈ done ++ [Step.of s operation], step.answer.loaded? = some entry.2 ∧
            step.operation.Finds step.before entry.2.path := by
        intro entry hentry
        obtain ⟨hname, step, hstep, hfinds⟩ := ih entry hentry
        exact ⟨hname, step, List.mem_append_left _ hstep, hfinds⟩
      rcases registers_cases operation s with ⟨-, hsame⟩ | ⟨e, hloaded, -, hfinds, hregisters⟩
      · rw [hsame.registry]
        exact hearlier
      · rw [hregisters.registry]
        refine List.forall_mem_cons.mpr ⟨⟨rfl, Step.of s operation, ?_, hloaded, hfinds⟩, ?_⟩
        · exact List.mem_append_right _ List.mem_cons_self
        · intro entry hentry
          exact hearlier entry (List.mem_filter.mp hentry).1

theorem extensions_grow (operation : Operation) (s : Session) :
    ∃ more, (Step.of s operation).after.extensions = s.extensions ++ more := by
  rcases registers_cases operation s with ⟨-, hsame⟩ | ⟨e, -, -, -, hregisters⟩
  · exact ⟨[], by rw [hsame.extensions, List.append_nil]⟩
  · exact ⟨[e], hregisters.extensions⟩

/-- Handles are positions in a list that only grows at its end. -/
theorem handle_stays (h : Run m done s) : ∀ step ∈ done, ∀ e, step.answer.loaded? = some e →
    s.extensions[e.handle]? = some e := by
  induction h with
  | start => simp
  | @step done s hrun operation ih =>
      intro step hstep e hloaded
      rcases List.mem_append.mp hstep with hearlier | hlast
      -- an earlier handle lies within the list, which only grows at its end
      · obtain ⟨more, hmore⟩ := extensions_grow operation s
        have hold := ih step hearlier e hloaded
        have hbound := (List.getElem?_eq_some_iff.mp hold).1
        rw [hmore, List.getElem?_append_left hbound]
        exact hold
      · obtain rfl := List.mem_singleton.mp hlast
        rcases registers_cases operation s with ⟨hnone, -⟩ | ⟨e', hsome, -, -, hregisters⟩
        · rw [hnone] at hloaded
          cases hloaded
        · obtain rfl : e' = e := Option.some.inj (hsome.symm.trans hloaded)
          rw [hregisters.extensions, hregisters.handle]
          simp

/-- **The registry over whole runs.** What is registered under a name is what the last load
under it gave, and nothing if there was none; each entry has its key for a name and the path
that was found in its load; what does not load registers nothing, and what loads under one
name leaves the others alone; a handle keeps its extension to the end. -/
theorem registry_spec (h : Run m done s) :
    (∀ name, s.loaded? name = lastLoaded? name done) ∧
    (∀ entry ∈ s.registry, entry.2.name = entry.1 ∧
      ∃ step ∈ done, step.answer.loaded? = some entry.2 ∧
        step.operation.Finds step.before entry.2.path) ∧
    (∀ step ∈ done, step.answer.loaded? = none → step.after.registry = step.before.registry) ∧
    (∀ step ∈ done, ∀ name, step.operation.target? ≠ some name →
      step.after.loaded? name = step.before.loaded? name) ∧
    ∀ step ∈ done, ∀ e, step.answer.loaded? = some e → s.extensions[e.handle]? = some e := by
  refine ⟨h.loaded?_eq, h.registered, fun step hstep hnone => ?_,
    fun step hstep name hother => ?_, h.handle_stays⟩
  · rw [h.step_eq step hstep] at hnone ⊢
    rcases registers_cases step.operation step.before with ⟨-, hsame⟩ | ⟨e, hsome, -⟩
    · exact hsame.registry
    · rw [hnone] at hsome
      cases hsome
  · rw [h.step_eq step hstep]
    exact loaded?_of_other hother

end Run

/-- A machine with one library at the root. -/
def demoMachine : Machine where
  files :=
    { entries := [([utf8 "demo.so"], .file 0 (.library ⟨[("extbuild_init_demo", 0)]⟩))]
      nextId := 1 }
  cwd := ⟨[], 0⟩
  env := []

/-- The load of that library. -/
def demoLoad : Operation := .loadArtifact "demo" (.ofText "/") "so"

/-- What the load gives to a new process. -/
def demoExtension : Extension where
  handle := 0
  name := "demo"
  path := .ofText "/demo.so"
  library := ⟨[("extbuild_init_demo", 0)]⟩

theorem registry_spec_demo :
    ∃ done s, Run demoMachine done s ∧ s.loaded? "demo" = some demoExtension ∧
      s.extensions[demoExtension.handle]? = some demoExtension := by
  have hfirst := Run.start.step (m := demoMachine) demoLoad
  -- the second load fails, since the library is gone by then
  have hrun := (hfirst.step (.change default)).step demoLoad
  obtain ⟨hloaded, -, -, -, hhandle⟩ := hrun.registry_spec
  exact ⟨_, _, hrun, (hloaded "demo").trans rfl,
    hhandle _ List.mem_cons_self demoExtension rfl⟩

end NativeExtension
