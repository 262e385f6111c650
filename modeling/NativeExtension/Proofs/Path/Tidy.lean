import Mathlib.Data.List.Basic
import NativeExtension.Proofs.Path.Components

/-!
# NativeExtension.Proofs.Path.Tidy

**What making a path absolute leaves of its spelling.** The result is `tidy`: each step behind
one slash, and nothing else but a second slash in front, if there was one, and a slash at the end,
if there was one (`Path.absolute_of_isAbsolute`, `Path.absolute_of_relative`). So two paths of
checked requests that lead the same way are spelled the same exactly if they have the same ends
(`Path.IsTidy.eq_iff`).
-/

namespace NativeExtension

/-- The step is what its own bytes stand for between two slashes: a `..` or a file name. -/
def Component.IsStep (step : Component) : Prop :=
  Component.ofPiece? step.bytes = some step ∧ slash ∉ step.bytes

namespace Component.IsStep

variable {step : Component}

theorem bytes_ne_nil (h : step.IsStep) : step.bytes ≠ [] := by
  intro hnil
  have hpiece := h.1
  simp [Component.ofPiece?, hnil] at hpiece

theorem head?_ne (h : step.IsStep) (rest : Bytes) : (step.bytes ++ rest).head? ≠ some slash := by
  obtain ⟨first, others, hbytes⟩ := List.exists_cons_of_ne_nil h.bytes_ne_nil
  rw [hbytes, List.cons_append, List.head?_cons]
  intro hfirst
  exact h.2 (by simp [hbytes, Option.some.inj hfirst])

theorem getLast?_ne (h : step.IsStep) : step.bytes.getLast? ≠ some slash :=
  fun hlast => h.2 (List.mem_of_getLast? hlast)

theorem stepsOf (h : step.IsStep) : Path.stepsOf step.bytes = [step] := by
  rw [Path.stepsOf, Text.fields_of_not_mem h.2]
  simp [h.1]

end Component.IsStep

/-- What stands between two slashes is a step if it is anything. -/
theorem Component.isStep_of_ofPiece? {piece : Bytes} {step : Component} (hslash : slash ∉ piece)
    (h : Component.ofPiece? piece = some step) : step.IsStep := by
  rw [IsStep, Path.bytes_of_ofPiece? h]
  exact ⟨h, hslash⟩

namespace Path

theorem isStep_of_mem_stepsOf {bytes : Bytes} {step : Component} (h : step ∈ stepsOf bytes) :
    step.IsStep := by
  obtain ⟨piece, hpiece, hstep⟩ := List.mem_filterMap.mp h
  exact Component.isStep_of_ofPiece? (Text.not_mem_of_mem_fields hpiece) hstep

/-- Each step behind one slash; the top of the tree is one slash. -/
def slashed (steps : List Component) : Bytes :=
  if steps = [] then [slash] else steps.flatMap fun step => slash :: step.bytes

/-- The steps behind the root, with a second slash in front or not and, if there are steps, with
one at the end or not. -/
def tidy (doubled trailing : Bool) (steps : List Component) : Path :=
  ⟨(if doubled then [slash] else []) ++ slashed steps ++
    if trailing ∧ steps ≠ [] then [slash] else []⟩

/-- The path is spelled like a path that was made absolute. -/
def IsTidy (p : Path) : Prop :=
  ∃ doubled trailing steps, (∀ step ∈ steps, step.IsStep) ∧ p = tidy doubled trailing steps

theorem slashed_ne_nil (steps : List Component) : slashed steps ≠ [] := by
  unfold slashed
  cases steps <;> simp

theorem slashed_append {steps : List Component} (step : Component) (hne : steps ≠ []) :
    slashed (steps ++ [step]) = slashed steps ++ slash :: step.bytes := by
  simp [slashed, hne]

theorem getLast?_slashed {steps : List Component} (h : ∀ step ∈ steps, step.IsStep) :
    (slashed steps).getLast? = some slash ↔ steps = [] := by
  rcases List.eq_nil_or_concat' steps with rfl | ⟨before, last, rfl⟩
  · simp [slashed]
  · have hlast : last.IsStep := h last (by simp)
    have hbytes : slashed (before ++ [last]) =
        (before.flatMap fun step => slash :: step.bytes) ++ [slash] ++ last.bytes := by
      simp [slashed]
    rw [hbytes, List.getLast?_append_of_ne_nil _ hlast.bytes_ne_nil]
    simp [hlast.getLast?_ne]

/-- A tidy path ends in a slash if it is to, or if it is the root. -/
theorem getLast?_tidy (doubled trailing : Bool) {steps : List Component}
    (h : ∀ step ∈ steps, step.IsStep) :
    (tidy doubled trailing steps).bytes.getLast? = some slash ↔ trailing = true ∨ steps = [] := by
  unfold tidy
  by_cases htrailing : trailing = true ∧ steps ≠ []
  · simp [htrailing]
  · rw [if_neg htrailing, List.append_nil,
      List.getLast?_append_of_ne_nil _ (slashed_ne_nil steps), getLast?_slashed h]
    simp only [not_and_or, not_not] at htrailing
    constructor
    · exact Or.inr
    · rintro (hset | hnil)
      · exact htrailing.resolve_left (not_not.mpr hset)
      · exact hnil

/-! ### Putting steps behind a tidy path -/

/-- Joining a step puts the slash in that is missing, and no second one. -/
theorem join_step (doubled trailing : Bool) {steps : List Component} {step : Component}
    (h : ∀ step ∈ steps, step.IsStep) (hstep : step.IsStep) :
    (tidy doubled trailing steps).join ⟨step.bytes⟩ = tidy doubled false (steps ++ [step]) := by
  have hrelative : (⟨step.bytes⟩ : Path).isAbsolute = false := by
    simpa [isAbsolute] using hstep.head?_ne []
  rw [join, if_neg (by simp [hrelative])]
  by_cases hnil : steps = []
  · rw [if_pos (Or.inr ((getLast?_tidy doubled trailing h).mpr (Or.inr hnil)))]
    simp [tidy, slashed, hnil]
  · by_cases htrailing : trailing = true
    · rw [if_pos (Or.inr ((getLast?_tidy doubled trailing h).mpr (Or.inl htrailing)))]
      simp [tidy, slashed_append step hnil, htrailing, hnil]
    · have hlast : (tidy doubled trailing steps).bytes.getLast? ≠ some slash := by
        rw [Ne, getLast?_tidy doubled trailing h]
        simp [htrailing, hnil]
      have hbytes : (tidy doubled trailing steps).bytes ≠ [] := by simp [tidy, slashed_ne_nil]
      rw [if_neg (by simp [hbytes, hlast])]
      simp [tidy, slashed_append step hnil, htrailing]

/-- Joining the empty path is what adds a slash at the end. -/
theorem join_nothing (doubled trailing : Bool) {steps : List Component}
    (h : ∀ step ∈ steps, step.IsStep) :
    (tidy doubled trailing steps).join ⟨[]⟩ = tidy doubled true steps := by
  rw [join, if_neg (by simp [isAbsolute])]
  by_cases hlast : trailing = true ∨ steps = []
  · rw [if_pos (Or.inr ((getLast?_tidy doubled trailing h).mpr hlast))]
    rcases hlast with htrailing | hnil
    · simp [htrailing]
    · simp [tidy, hnil]
  · have hslash : (tidy doubled trailing steps).bytes.getLast? ≠ some slash :=
      (getLast?_tidy doubled trailing h).not.mpr hlast
    have hbytes : (tidy doubled trailing steps).bytes ≠ [] := by simp [tidy, slashed_ne_nil]
    rw [if_neg (by simp [hbytes, hslash])]
    simp only [not_or, Bool.not_eq_true] at hlast
    simp [tidy, hlast]

/-- Steps behind a tidy path leave it tidy, and a slash at its end only if there are none. -/
theorem extend_tidy (doubled trailing : Bool) {before steps : List Component}
    (hbefore : ∀ step ∈ before, step.IsStep) (h : ∀ step ∈ steps, step.IsStep) :
    (tidy doubled trailing before).extend steps =
      tidy doubled (trailing && steps.isEmpty) (before ++ steps) := by
  unfold extend
  induction steps generalizing trailing before with
  | nil => simp
  | cons step rest ih =>
      obtain ⟨hstep, hrest⟩ := List.forall_mem_cons.mp h
      have hlonger : ∀ other ∈ before ++ [step], other.IsStep :=
        List.forall_mem_append.mpr ⟨hbefore, by simpa using hstep⟩
      rw [List.foldl_cons, join_step doubled trailing hbefore hstep, ih false hlonger hrest,
        List.append_assoc, List.singleton_append]
      simp

/-- Does the spelling end with a slash? -/
def endsInSlash (p : Path) : Bool := p.bytes.getLast? = some slash

theorem keepTrailingSlash_tidy (written : Path) (doubled trailing : Bool) {steps : List Component}
    (h : ∀ step ∈ steps, step.IsStep) :
    keepTrailingSlash written (tidy doubled trailing steps) =
      tidy doubled (trailing || written.endsInSlash) steps := by
  unfold keepTrailingSlash endsInSlash
  split
  · next hlast => simp [join_nothing doubled trailing h, hlast]
  · next hlast => simp [hlast]

/-! ### Making a path absolute -/

theorem components_of_isAbsolute_eq {p : Path} (h : p.isAbsolute = true) :
    p.components = .root :: stepsOf p.bytes := by
  obtain ⟨rest, hbytes⟩ := bytes_of_isAbsolute h
  rw [components_eq, hbytes, stepsOf_slash_cons]
  rfl

/-- **An absolute path keeps its steps and its ends**, wherever it is seen from. -/
theorem absolute_of_isAbsolute (cwd : Except SystemError Path) {p : Path}
    (h : p.isAbsolute = true) :
    p.absolute cwd = .ok (tidy p.isDoubleRooted p.endsInSlash (stepsOf p.bytes)) := by
  have hsteps : ∀ step ∈ stepsOf p.bytes, step.IsStep := fun _ => isStep_of_mem_stepsOf
  obtain ⟨rest, hbytes⟩ := bytes_of_isAbsolute h
  have hne : p.isEmpty = false := by rw [isEmpty, hbytes, List.isEmpty_cons]
  -- from either root the path is put together out of its steps
  have hextended : ∀ doubled,
      keepTrailingSlash p (extend (tidy doubled false []) (stepsOf p.bytes)) =
        tidy doubled p.endsInSlash (stepsOf p.bytes) := by
    intro doubled
    rw [extend_tidy doubled false (by simp) hsteps, List.nil_append, Bool.false_and,
      keepTrailingSlash_tidy p _ _ hsteps, Bool.false_or]
  unfold absolute
  rw [if_neg (by simp [hne]), if_pos h, components_of_isAbsolute_eq h]
  cases hdoubled : p.isDoubleRooted with
  | true => exact congrArg Except.ok (hextended true)
  | false => exact congrArg Except.ok (hextended false)

/-- **A relative path is put behind the steps of the directory it is seen from.** -/
theorem absolute_of_relative {p : Path} (hne : p.isEmpty = false) (h : p.isAbsolute = false)
    (doubled trailing : Bool) {location : List Component}
    (hlocation : ∀ step ∈ location, step.IsStep) :
    p.absolute (.ok (tidy doubled trailing location)) =
      .ok (tidy doubled (trailing && (stepsOf p.bytes).isEmpty || p.endsInSlash)
        (location ++ stepsOf p.bytes)) := by
  have hsteps : ∀ step ∈ stepsOf p.bytes, step.IsStep := fun _ => isStep_of_mem_stepsOf
  unfold absolute
  rw [if_neg (by simp [hne]), if_neg (by simp [h]), filter_components h]
  refine congrArg Except.ok ?_
  rw [extend_tidy doubled trailing hlocation hsteps,
    keepTrailingSlash_tidy p _ _ (List.forall_mem_append.mpr ⟨hlocation, hsteps⟩)]

/-- **A path that is made absolute comes out tidy.** -/
theorem absolute_isTidy {cwd : Except SystemError Path} {p q : Path}
    (hcwd : ∀ here, cwd = .ok here → here.IsTidy) (h : p.absolute cwd = .ok q) : q.IsTidy := by
  have hsteps : ∀ step ∈ stepsOf p.bytes, step.IsStep := fun _ => isStep_of_mem_stepsOf
  cases habsolute : p.isAbsolute with
  | true =>
      rw [absolute_of_isAbsolute cwd habsolute] at h
      exact ⟨_, _, _, hsteps, (Except.ok.inj h).symm⟩
  | false =>
      cases hempty : p.isEmpty with
      | true => simp [absolute, hempty] at h
      | false =>
          cases hhere : cwd with
          | error e => simp [absolute, hempty, habsolute, hhere, bind, Except.bind] at h
          | ok here =>
              obtain ⟨doubled, trailing, location, hlocation, rfl⟩ := hcwd here hhere
              rw [hhere, absolute_of_relative hempty habsolute _ _ hlocation] at h
              exact ⟨_, _, _, List.forall_mem_append.mpr ⟨hlocation, hsteps⟩,
                (Except.ok.inj h).symm⟩

/-! ### Telling tidy paths apart -/

/-- Steps behind slashes are an empty piece and their own bytes, with slashes between. -/
theorem slashed_eq {steps : List Component} (hne : steps ≠ []) :
    slashed steps = List.intercalate [slash] ([] :: steps.map Component.bytes) := by
  rw [slashed, if_neg hne, Text.intercalate_cons, List.nil_append, List.flatMap_map]

/-- A step holds no slash, so cutting at the slashes gives back the steps. -/
theorem stepsOf_slashed {steps : List Component} (h : ∀ step ∈ steps, step.IsStep) :
    stepsOf (slashed steps) = steps := by
  by_cases hnil : steps = []
  · rw [hnil]
    rfl
  have hpieces : ∀ piece ∈ [] :: steps.map Component.bytes, slash ∉ piece := by
    simpa using fun step hstep => (h step hstep).2
  rw [slashed_eq hnil, stepsOf_intercalate hpieces, List.filterMap_cons_none (by rfl),
    List.filterMap_map]
  exact (List.filterMap_congr fun step hstep => (h step hstep).1).trans List.filterMap_some

theorem stepsOf_tidy (doubled trailing : Bool) {steps : List Component}
    (h : ∀ step ∈ steps, step.IsStep) : stepsOf (tidy doubled trailing steps).bytes = steps := by
  have hend : stepsOf (slashed steps ++ if trailing = true ∧ steps ≠ [] then [slash] else []) =
      steps := by
    split
    · rw [stepsOf_append_slash_cons, stepsOf_slashed h, stepsOf_nil, List.append_nil]
    · rw [List.append_nil, stepsOf_slashed h]
  unfold tidy
  dsimp only
  rw [List.append_assoc]
  cases doubled
  · exact hend
  · rw [if_pos rfl, List.singleton_append, stepsOf_slash_cons, hend]

theorem isAbsolute_tidy (doubled trailing : Bool) (steps : List Component) :
    (tidy doubled trailing steps).isAbsolute = true := by
  cases doubled <;> cases steps <;> simp [isAbsolute, tidy, slashed]

theorem IsTidy.isAbsolute {p : Path} (h : p.IsTidy) : p.isAbsolute = true := by
  obtain ⟨doubled, trailing, steps, -, rfl⟩ := h
  exact isAbsolute_tidy doubled trailing steps

/-- A second slash in front is seen in the spelling, for no step starts with one. -/
theorem isDoubleRooted_tidy (doubled trailing : Bool) {steps : List Component}
    (h : ∀ step ∈ steps, step.IsStep) :
    (tidy doubled trailing steps).isDoubleRooted = doubled := by
  cases steps with
  | nil => cases doubled <;> simp [isDoubleRooted, tidy, slashed]
  | cons step rest =>
      have hhead := (h step List.mem_cons_self).head?_ne
      obtain ⟨first, others, hbytes⟩ :=
        List.exists_cons_of_ne_nil (h step List.mem_cons_self).bytes_ne_nil
      have hfirst : first ≠ slash := by simpa [hbytes] using hhead []
      cases doubled <;> simp [isDoubleRooted, tidy, slashed, hbytes, hfirst]

/-- Both paths or neither start with just two slashes, and both or neither end with a slash. -/
structure SameEnds (p q : Path) : Prop where
  front : p.isDoubleRooted = q.isDoubleRooted
  back : p.bytes.getLast? = some slash ↔ q.bytes.getLast? = some slash

/-- **Tidy paths that lead the same way are one path exactly if they have the same ends.** -/
theorem IsTidy.eq_iff {p q : Path} (hp : p.IsTidy) (hq : q.IsTidy) (h : p.Equiv q) :
    p = q ↔ p.SameEnds q := by
  constructor
  · rintro rfl
    exact ⟨rfl, Iff.rfl⟩
  rintro ⟨hfront, hback⟩
  unfold Equiv at h
  rw [components_of_isAbsolute_eq hp.isAbsolute, components_of_isAbsolute_eq hq.isAbsolute] at h
  have hsteps := (List.cons.inj h).2
  obtain ⟨doubled, trailing, steps, hps, rfl⟩ := hp
  obtain ⟨doubled', trailing', steps', hqs, rfl⟩ := hq
  rw [stepsOf_tidy _ _ hps, stepsOf_tidy _ _ hqs] at hsteps
  subst hsteps
  rw [isDoubleRooted_tidy _ _ hps, isDoubleRooted_tidy _ _ hqs] at hfront
  subst hfront
  rw [getLast?_tidy _ _ hps, getLast?_tidy _ _ hqs] at hback
  by_cases hnil : steps = []
  · simp [tidy, hnil]
  · rw [or_iff_left hnil, or_iff_left hnil] at hback
    rw [Bool.eq_iff_iff.mpr hback]

end Path

/-! ### The current directory and checked requests -/

/-- The current directory is named by its steps if the directories above it have file names. -/
theorem Machine.currentDir_eq_tidy {m : Machine} {here : Path}
    (hnames : ∀ name ∈ m.cwd.location, (Component.name name).IsStep)
    (h : m.currentDir = .ok here) :
    ∃ steps, (∀ step ∈ steps, step.IsStep) ∧ here = Path.tidy false false steps := by
  unfold Machine.currentDir at h
  split at h
  · cases h
  · split at h
    · obtain rfl := Except.ok.inj h
      exact ⟨[], by simp, rfl⟩
    · next hlocation =>
      obtain rfl := Except.ok.inj h
      refine ⟨m.cwd.location.reverse.map .name, by simpa using hnames, ?_⟩
      have hne : m.cwd.location.reverse.map Component.name ≠ [] := by simpa using hlocation
      rw [Path.tidy, Path.slashed, if_neg hne, List.flatMap_map]
      simp [Component.bytes]

theorem Machine.isTidy_currentDir {m : Machine} {here : Path}
    (hnames : ∀ name ∈ m.cwd.location, (Component.name name).IsStep)
    (h : m.currentDir = .ok here) : here.IsTidy := by
  obtain ⟨steps, hsteps, rfl⟩ := currentDir_eq_tidy hnames h
  exact ⟨false, false, steps, hsteps, rfl⟩

/-- The paths of a checked request are tidy. -/
theorem BuildSpec.isTidy_of_ofOptions {m : Machine} {options : LoadOptions} {spec : BuildSpec}
    (hnames : ∀ name ∈ m.cwd.location, (Component.name name).IsStep)
    (h : ofOptions m.currentDir options = .ok spec) :
    ∀ p ∈ spec.sources ++ spec.includes, p.IsTidy :=
  forall_of_ofOptions
    (fun _ _ => Path.absolute_isTidy fun _ => Machine.isTidy_currentDir hnames) h

end NativeExtension
