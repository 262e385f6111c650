import NativeExtension.Proofs.Session.Frame

/-!
# NativeExtension.Proofs.Session.Loading

**What one load does to a session.** A library is looked for, opened, asked for its entry
point and initialised, in this order, and the first of these stages that fails decides the
error (`run_loadArtifact`). Whatever fails, the registry and the extensions stay as they
were; a load that succeeds adds one extension and registers it (`loadArtifact_cases`).
-/

namespace NativeExtension.Session

/-- The extension that a load gives. -/
def loadedFrom (s : Session) (name : String) (path : Path) (library : Library) : Extension where
  handle := s.extensions.length
  name := name
  path := path
  library := library

/-- The session after a load that succeeded. -/
def afterLoad (s : Session) (extension : Extension) (opened : Loader) : Session :=
  { s.register extension with
    loader := opened
    journal := s.journal ++ [.reported
      { level := .info, reporter := .artifact, message := "loaded extension " ++ extension.name,
        details := [("path", extension.path.display)] }] }

/-- The session after a library that was opened has not been accepted. -/
def afterRefusal (s : Session) (opened : Loader) : Session :=
  { s with loader := s.loader.closeAgain opened }

/-! ### Runs of attempts -/

section Runs

variable {ε α β : Type} (s : Session)

theorem run_get_bind (next : Session → Attempt ε α) :
    (get >>= next : Attempt ε α).run.run s = (next s).run.run s := rfl

theorem run_lift_bind (action : Action α) (next : α → Attempt ε β) :
    (liftM action >>= next : Attempt ε β).run.run s =
      (next (action.run s).1).run.run (action.run s).2 := rfl

theorem run_attempt (result : Except ε α) : (attempt result).run.run s = (result, s) := by
  cases result <;> rfl

theorem run_raising {δ : Type} (f : ε → δ) (x : Attempt ε α) :
    (raising f x).run.run s = ((x.run.run s).1.mapError f, (x.run.run s).2) := rfl

/-- An attempt goes on from where its first part stopped, if that succeeded. -/
theorem run_bind (x : Attempt ε α) (next : α → Attempt ε β) :
    (x >>= next).run.run s =
      match x.run.run s with
      | (.ok a, s') => (next a).run.run s'
      | (.error e, s') => (.error e, s') := by
  rw [ExceptT.run_bind, StateT.run_bind]
  cases hx : x.run.run s with
  | mk result s' => cases result <;> rfl

end Runs

theorem step_machine (verbose : Bool) (message : String) (s : Session) :
    ((step verbose message).run s).2.machine = s.machine := by
  unfold step
  split <;> rfl

/-! ### Binding and loading -/

/-- The four ends of binding: the loader refuses, the entry point is missing, it refuses, or
all is well. In the two in the middle the library is closed again. -/
theorem run_bindLibrary (name : String) (path : Path) (s : Session) :
    (bindLibrary name path).run.run s =
      match s.loader.openLibrary s.machine path with
      | .error words => (.error (.unloadable path words), s)
      | .ok (library, opened) =>
        match library.call? (entrySymbol name) with
        | none =>
          (.error (.noEntryPoint path (entrySymbol name)
            (Loader.noSymbolWords path (entrySymbol name))), s.afterRefusal opened)
        | some code =>
          if code = 0 then (.ok library, { s with loader := opened })
          else (.error (.refused name code), s.afterRefusal opened) := by
  unfold bindLibrary
  rw [run_get_bind]
  cases hopen : s.loader.openLibrary s.machine path with
  | error words => rfl
  | ok found =>
      obtain ⟨library, opened⟩ := found
      dsimp only
      cases hcall : library.call? (entrySymbol name) with
      | none => rfl
      | some code =>
          dsimp only
          by_cases hcode : code = 0
          · rw [if_pos hcode, if_pos hcode]
            rfl
          · rw [if_neg hcode, if_neg hcode]
            rfl

/-- The same ends behind the search for the file; only the last of them registers anything. -/
theorem run_loadArtifact (name : String) (directory : Path) (suffix : String) (s : Session) :
    (loadArtifact name directory suffix).run.run s =
      match s.machine.findArtifact name directory suffix with
      | .error e => (.error e, s)
      | .ok path =>
        match s.loader.openLibrary s.machine path with
        | .error words => (.error (.unloadable path words), s)
        | .ok (library, opened) =>
          match library.call? (entrySymbol name) with
          | none =>
            (.error (.noEntryPoint path (entrySymbol name)
              (Loader.noSymbolWords path (entrySymbol name))), s.afterRefusal opened)
          | some code =>
            if code = 0 then
              (.ok (s.loadedFrom name path library),
                s.afterLoad (s.loadedFrom name path library) opened)
            else (.error (.refused name code), s.afterRefusal opened) := by
  unfold loadArtifact
  rw [run_lift_bind, run_getMachine, run_bind, run_attempt]
  cases s.machine.findArtifact name directory suffix with
  | error e => rfl
  | ok path =>
      dsimp only
      rw [run_bind, run_bindLibrary]
      cases s.loader.openLibrary s.machine path with
      | error words => rfl
      | ok found =>
          obtain ⟨library, opened⟩ := found
          dsimp only
          cases library.call? (entrySymbol name) with
          | none => rfl
          | some code =>
              dsimp only
              by_cases hcode : code = 0
              · rw [if_pos hcode, if_pos hcode]
                rfl
              · rw [if_neg hcode, if_neg hcode]

theorem loadArtifact_error {name suffix : String} {directory : Path} {s : Session}
    {error : LoadError} (h : s.machine.findArtifact name directory suffix = .error error) :
    (loadArtifact name directory suffix).run.run s = (.error error, s) := by
  rw [run_loadArtifact, h]

/-- A load gives what comes of binding the library that is found. -/
theorem loadArtifact_found {name suffix : String} {directory path : Path} {s : Session}
    (h : s.machine.findArtifact name directory suffix = .ok path) :
    ((loadArtifact name directory suffix).run.run s).1 =
      ((bindLibrary name path).run.run s).1.map (s.loadedFrom name path) := by
  rw [run_loadArtifact, run_bindLibrary, h]
  dsimp only
  cases s.loader.openLibrary s.machine path with
  | error words => rfl
  | ok found =>
      obtain ⟨library, opened⟩ := found
      dsimp only
      cases library.call? (entrySymbol name) with
      | none => rfl
      | some code =>
          dsimp only
          split <;> rfl

/-- What comes of binding a library depends on the machine and on the open libraries alone. -/
theorem bindLibrary_congr {s s' : Session} (hmachine : s'.machine = s.machine)
    (hloader : s'.loader = s.loader) (name : String) (path : Path) :
    ((bindLibrary name path).run.run s').1 = ((bindLibrary name path).run.run s).1 := by
  rw [run_bindLibrary, run_bindLibrary, hmachine, hloader]
  split
  · rfl
  · split
    · rfl
    · split <;> rfl

/-- What comes of a load depends on the machine and on the libraries, and on nothing else. -/
theorem loadArtifact_congr {s s' : Session} (hmachine : s'.machine = s.machine)
    (hsame : SameLibraries s s') (name : String) (directory : Path) (suffix : String) :
    ((loadArtifact name directory suffix).run.run s').1 =
      ((loadArtifact name directory suffix).run.run s).1 := by
  cases hfound : s.machine.findArtifact name directory suffix with
  | error error =>
      rw [loadArtifact_error hfound, loadArtifact_error (by rw [hmachine, hfound])]
  | ok path =>
      have hgives : s'.loadedFrom name path = s.loadedFrom name path := by
        funext library
        rw [loadedFrom, loadedFrom, hsame.extensions]
      rw [loadArtifact_found hfound, loadArtifact_found (by rw [hmachine, hfound]), hgives,
        bindLibrary_congr hmachine hsame.loader]

/-- What holds across changes of the open libraries and the registry, and across a report, holds
across a load. -/
theorem along_loadArtifact {R : Session → Session → Prop} [Overlooks R]
    (hloader : ∀ (s : Session) (loader : Loader), R s { s with loader := loader })
    (hregister : ∀ (s : Session) (e : Extension), R s (s.register e))
    (name : String) (directory : Path) (suffix : String) :
    Along R (loadArtifact name directory suffix).run := by
  intro s
  have hafter : ∀ e opened, R s (s.afterLoad e opened) := by
    intro e opened
    have hreport : Along R (report .info .artifact ("loaded extension " ++ e.name)
        [("path", e.path.display)]) := Overlooks.report (by decide) _ _ _
    exact Composes.trans (Composes.trans (hregister s e) (hloader _ opened)) (hreport _)
  have hrun := run_loadArtifact name directory suffix s
  change R s ((loadArtifact name directory suffix).run.run s).2
  rw [hrun]
  split
  · exact Composes.refl s
  · split
    · exact Composes.refl s
    · split
      · exact hloader s _
      · split
        · exact hafter _ _
        · exact hloader s _

/-- Nothing was loaded or registered from `s` to `s'`. -/
structure SameRegistrations (s s' : Session) : Prop where
  extensions : s'.extensions = s.extensions
  registry : s'.registry = s.registry

/-- From `s` to `s'` one extension was loaded and registered. -/
structure Registers (s s' : Session) (e : Extension) : Prop where
  handle : e.handle = s.extensions.length
  extensions : s'.extensions = s.extensions ++ [e]
  registry : s'.registry = (e.name, e) :: s.registry.filter (·.1 ≠ e.name)

theorem SameRegistrations.after {s₁ s₂ s₃ : Session} (h : SameRegistrations s₂ s₃)
    (hsame : SameLibraries s₁ s₂) : SameRegistrations s₁ s₃ where
  extensions := h.extensions.trans hsame.extensions
  registry := h.registry.trans hsame.registry

theorem Registers.after {s₁ s₂ s₃ : Session} {e : Extension} (h : Registers s₂ s₃ e)
    (hsame : SameLibraries s₁ s₂) : Registers s₁ s₃ e where
  handle := by rw [h.handle, hsame.extensions]
  extensions := by rw [h.extensions, hsame.extensions]
  registry := by rw [h.registry, hsame.registry]

/-- A load fails and registers nothing, or registers the extension that it gives. -/
theorem loadArtifact_cases (name : String) (directory : Path) (suffix : String) (s : Session) :
    (∃ error s', (loadArtifact name directory suffix).run.run s = (.error error, s') ∧
      SameRegistrations s s') ∨
    ∃ e s', (loadArtifact name directory suffix).run.run s = (.ok e, s') ∧ e.name = name ∧
      s.machine.findArtifact name directory suffix = .ok e.path ∧ Registers s s' e := by
  rw [run_loadArtifact]
  cases s.machine.findArtifact name directory suffix with
  | error error => exact Or.inl ⟨error, s, rfl, rfl, rfl⟩
  | ok path =>
      dsimp only
      cases s.loader.openLibrary s.machine path with
      | error words => exact Or.inl ⟨_, s, rfl, rfl, rfl⟩
      | ok found =>
          obtain ⟨library, opened⟩ := found
          dsimp only
          cases library.call? (entrySymbol name) with
          | none => exact Or.inl ⟨_, _, rfl, rfl, rfl⟩
          | some code =>
              dsimp only
              by_cases hcode : code = 0
              · rw [if_pos hcode]
                exact Or.inr ⟨_, _, rfl, rfl, rfl, rfl, rfl, rfl⟩
              · rw [if_neg hcode]
                exact Or.inl ⟨_, _, rfl, rfl, rfl⟩

end NativeExtension.Session
