import Mathlib.Data.List.Forall2

/-!
# NativeExtension.Proofs.Outcome

**Taking a computation apart.** A chain of steps succeeds if each step does, and fails as the
first step that fails.
-/

namespace NativeExtension

section Outcome

variable {ε α β : Type} {x : Except ε α}

theorem bind_ok_iff {f : α → Except ε β} {b : β} :
    x >>= f = .ok b ↔ ∃ a, x = .ok a ∧ f a = .ok b := by
  cases x with
  | error e => exact ⟨nofun, nofun⟩
  | ok a =>
      constructor
      · intro h
        exact ⟨a, rfl, h⟩
      · rintro ⟨a', ha, h⟩
        obtain rfl := Except.ok.inj ha
        exact h

/-- A chain fails in its first part, or in its second after the first has succeeded. -/
theorem bind_error_iff {f : α → Except ε β} {e : ε} :
    x >>= f = .error e ↔ x = .error e ∨ ∃ a, x = .ok a ∧ f a = .error e := by
  cases x with
  | error e' =>
      constructor
      · intro h
        obtain rfl := Except.error.inj h
        exact Or.inl rfl
      · rintro (h | ⟨a, ha, -⟩)
        · obtain rfl := Except.error.inj h
          rfl
        · cases ha
  | ok a =>
      constructor
      · intro h
        exact Or.inr ⟨a, rfl, h⟩
      · rintro (h | ⟨a', ha, h⟩)
        · cases h
        · obtain rfl := Except.ok.inj ha
          exact h

theorem map_error_iff {f : α → β} {e : ε} : x.map f = .error e ↔ x = .error e := by
  cases x with
  | error e' => simp [Except.map]
  | ok a => simp [Except.map]

theorem map_ok_iff {f : α → β} {b : β} : x.map f = .ok b ↔ ∃ a, x = .ok a ∧ f a = b := by
  cases x with
  | error e => exact ⟨nofun, nofun⟩
  | ok a => simp [Except.map]

theorem ok_iff_pure {a b : α} : (pure a : Except ε α) = .ok b ↔ a = b := by
  simp [pure, Except.pure]

instance decidableEqExcept [DecidableEq ε] [DecidableEq α] : DecidableEq (Except ε α)
  | .ok a, .ok b => decidable_of_iff (a = b) ⟨congrArg _, Except.ok.inj⟩
  | .error d, .error e => decidable_of_iff (d = e) ⟨congrArg _, Except.error.inj⟩
  | .ok _, .error _ => isFalse nofun
  | .error _, .ok _ => isFalse nofun

/-- A list of steps gives what each step gives. -/
theorem mapM_ok_iff {f : α → Except ε β} {xs : List α} {ys : List β} :
    xs.mapM f = .ok ys ↔ List.Forall₂ (fun x y => f x = .ok y) xs ys := by
  induction xs generalizing ys with
  | nil => rw [List.mapM_nil, ok_iff_pure, List.forall₂_nil_left_iff, eq_comm]
  | cons x rest ih =>
      rw [List.mapM_cons, bind_ok_iff, List.forall₂_cons_left_iff]
      constructor
      · rintro ⟨first, hfirst, h⟩
        obtain ⟨others, hothers, h⟩ := bind_ok_iff.mp h
        exact ⟨first, others, hfirst, ih.mp hothers, (ok_iff_pure.mp h).symm⟩
      · rintro ⟨first, others, hfirst, hothers, rfl⟩
        exact ⟨first, hfirst, bind_ok_iff.mpr ⟨others, ih.mpr hothers, rfl⟩⟩

/-- A list of steps succeeds if each step does. -/
theorem exists_mapM_ok_iff {ε α β : Type} {f : α → Except ε β} {xs : List α} :
    (∃ ys, xs.mapM f = .ok ys) ↔ ∀ x ∈ xs, ∃ y, f x = .ok y := by
  induction xs with
  | nil => exact iff_of_true ⟨[], rfl⟩ nofun
  | cons x rest ih =>
      simp only [List.mapM_cons, bind_ok_iff, ok_iff_pure, List.forall_mem_cons, ← ih]
      constructor
      · rintro ⟨_, y, hy, ys, hys, rfl⟩
        exact ⟨⟨y, hy⟩, ys, hys⟩
      · rintro ⟨⟨y, hy⟩, ys, hys⟩
        exact ⟨_, y, hy, ys, hys, rfl⟩

theorem mem_of_mapM_ok {f : α → Except ε β} {xs : List α} {ys : List β} (h : xs.mapM f = .ok ys)
    {y : β} (hy : y ∈ ys) : ∃ x ∈ xs, f x = .ok y := by
  induction mapM_ok_iff.mp h with
  | nil => cases hy
  | cons hstep hrest ih =>
      rcases List.mem_cons.mp hy with rfl | hy
      · exact ⟨_, List.mem_cons_self, hstep⟩
      · obtain ⟨x, hx, hstep⟩ := ih (mapM_ok_iff.mpr hrest) hy
        exact ⟨x, List.mem_cons_of_mem _ hx, hstep⟩

/-- A list of steps fails at the first step that fails. -/
theorem mapM_error_iff {f : α → Except ε β} {xs : List α} {e : ε} :
    xs.mapM f = .error e ↔ ∃ before x after, xs = before ++ x :: after ∧
      (∀ earlier ∈ before, ∃ y, f earlier = .ok y) ∧ f x = .error e := by
  induction xs with
  | nil => simp [pure, Except.pure]
  | cons x rest ih =>
      rw [List.mapM_cons, bind_error_iff]
      constructor
      · rintro (hfirst | ⟨first, hfirst, h⟩)
        · exact ⟨[], x, rest, rfl, by simp, hfirst⟩
        · have hrest : rest.mapM f = .error e := by
            rcases bind_error_iff.mp h with hrest | ⟨others, -, hpure⟩
            · exact hrest
            · cases hpure
          obtain ⟨before, failing, after, rfl, hbefore, hfails⟩ := ih.mp hrest
          exact ⟨x :: before, failing, after, rfl,
            List.forall_mem_cons.mpr ⟨⟨first, hfirst⟩, hbefore⟩, hfails⟩
      · rintro ⟨before, failing, after, hsplit, hbefore, hfails⟩
        cases before with
        | nil =>
            obtain ⟨rfl, rfl⟩ := List.cons.inj hsplit
            exact Or.inl hfails
        | cons first others =>
            obtain ⟨rfl, rfl⟩ := List.cons.inj hsplit
            obtain ⟨⟨y, hy⟩, hothers⟩ := List.forall_mem_cons.mp hbefore
            refine Or.inr ⟨y, hy, bind_error_iff.mpr (Or.inl ?_)⟩
            exact ih.mpr ⟨others, failing, after, rfl, hothers, hfails⟩

theorem error_of_mapM_error {f : α → Except ε β} {xs : List α} {e : ε}
    (h : xs.mapM f = .error e) : ∃ x ∈ xs, f x = .error e := by
  obtain ⟨before, x, after, rfl, -, hfails⟩ := mapM_error_iff.mp h
  exact ⟨x, by simp, hfails⟩

end Outcome

/-! ### Two computations side by side -/

/-- Both computations succeed, with results that go together, or both fail, for reasons that go
together. -/
inductive SameOutcome {ε δ α β : Type} (E : ε → δ → Prop) (R : α → β → Prop) :
    Except ε α → Except δ β → Prop where
  | ok {a : α} {b : β} : R a b → SameOutcome E R (.ok a) (.ok b)
  | error {e : ε} {e' : δ} : E e e' → SameOutcome E R (.error e) (.error e')

namespace SameOutcome

variable {ε δ α β γ ζ : Type} {E : ε → δ → Prop} {R : α → β → Prop} {S : γ → ζ → Prop}
  {x : Except ε α} {y : Except δ β}

theorem bind {f : α → Except ε γ} {g : β → Except δ ζ} (h : SameOutcome E R x y)
    (hnext : ∀ a b, R a b → SameOutcome E S (f a) (g b)) : SameOutcome E S (x >>= f) (y >>= g) := by
  cases h with
  | ok hR => exact hnext _ _ hR
  | error he => exact .error he

theorem map {f : α → γ} {g : β → ζ} (h : SameOutcome E R x y)
    (hnext : ∀ a b, R a b → S (f a) (g b)) : SameOutcome E S (x.map f) (y.map g) := by
  cases h with
  | ok hR => exact .ok (hnext _ _ hR)
  | error he => exact .error he

theorem imp {T : α → β → Prop} (h : SameOutcome E R x y) (hT : ∀ a b, R a b → T a b) :
    SameOutcome E T x y := by
  cases h with
  | ok hR => exact .ok (hT _ _ hR)
  | error he => exact .error he

theorem of_ok {a : α} {b : β} (h : SameOutcome E R x y) (hx : x = .ok a) (hy : y = .ok b) :
    R a b := by
  subst hx hy
  cases h with
  | ok hR => exact hR

end SameOutcome

end NativeExtension
