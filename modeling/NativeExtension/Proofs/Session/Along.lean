import NativeExtension.Session.Basic

/-!
# NativeExtension.Proofs.Session.Along

**What holds across each step of an action holds across the action.** A relation between the
session before and the session after that holds of a session with itself, and of two steps
together if of each (`Composes`), is carried along the actions' own structure: an action is
looked at once, and only for what it does itself.
-/

namespace NativeExtension

/-- The relation holds of doing nothing, and of one thing after another. -/
class Composes (R : Session → Session → Prop) : Prop where
  refl : ∀ s, R s s
  trans : ∀ {s₁ s₂ s₃}, R s₁ s₂ → R s₂ s₃ → R s₁ s₃

/-- The relation holds between every session and the session after the action. -/
def Along {α : Type} (R : Session → Session → Prop) (action : Action α) : Prop :=
  ∀ s, R s (action.run s).2

namespace Along

variable {R : Session → Session → Prop} [Composes R] {α β ε δ : Type}

theorem pure (a : α) : Along R (Pure.pure a : Action α) := Composes.refl

theorem bind {action : Action α} {next : α → Action β} (h : Along R action)
    (hnext : ∀ a, Along R (next a)) : Along R (action >>= next) := by
  intro s
  rw [StateT.run_bind]
  exact Composes.trans (h s) (hnext _ _)

theorem get : Along R (MonadState.get : Action Session) := Composes.refl

omit [Composes R] in
theorem of_modify {f : Session → Session} (h : ∀ s, R s (f s)) :
    Along R (modify f : Action Unit) := h

/-! ### Attempts -/

theorem attempt_pure (a : α) : Along R (Pure.pure a : Attempt ε α).run := Composes.refl

theorem attempt_throw (e : ε) : Along R (throw e : Attempt ε α).run := Composes.refl

theorem attempt_bind {x : Attempt ε α} {next : α → Attempt ε β} (h : Along R x.run)
    (hnext : ∀ a, Along R (next a).run) : Along R (x >>= next).run := by
  rw [ExceptT.run_bind]
  refine Along.bind h ?_
  intro result
  cases result with
  | error e => exact Along.pure _
  | ok a => exact hnext a

theorem lift {action : Action α} (h : Along R action) :
    Along R (liftM action : Attempt ε α).run := by
  have hrun : (liftM action : Attempt ε α).run = action >>= fun a => Pure.pure (.ok a) := rfl
  rw [hrun]
  exact Along.bind h fun a => Along.pure _

theorem attempt (result : Except ε α) : Along R (Session.attempt result).run := by
  cases result with
  | error e => exact attempt_throw e
  | ok a => exact attempt_pure a

theorem raising {f : ε → δ} {x : Attempt ε α} (h : Along R x.run) :
    Along R (Session.raising f x).run := by
  unfold Session.raising
  exact Along.bind h fun result => Along.pure _

end Along

end NativeExtension
