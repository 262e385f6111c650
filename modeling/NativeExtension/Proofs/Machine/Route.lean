import Mathlib.Data.List.Infix
import NativeExtension.Proofs.Path.Components

/-!
# NativeExtension.Proofs.Machine.Route

**Where a path leads is decided by its steps.** A `Spot` is a place as a position that needs
not be there: the names on the way to it, innermost first, where a removed directory has no
name. Each step of a path leads from spot to spot, and no file is asked. The files only decide
how far the system follows: what it finds is at the spot that the steps lead to (`locate_spot`),
and so is what it creates (`target_leadsTo`).

* `LeadsTo`, `LeadsThrough` — the location at the end of a path, and those on its way;
* `Path.spotFrom_eq_iff_drop` — when a relative path means the same in two directories;
* `Machine.stepFrom_ok_iff` — all that one step on the files can do (`Machine.StepsTo`).
-/

namespace NativeExtension

/-- A position: the names on the way to it, innermost first. A removed directory has none. -/
abbrev Spot := List (Option Bytes)

/-- The position of a place. -/
def Place.spot (place : Place) : Spot :=
  List.replicate place.removed none ++ place.location.map some

/-- Where a step leads; the root is above itself. -/
def Component.lead (spot : Spot) : Component → Spot
  | .root => []
  | .current => spot
  | .parent => spot.tail
  | .name bytes => some bytes :: spot

/-- Where steps lead, one after the other. -/
def walk (spot : Spot) (steps : List Component) : Spot := steps.foldl Component.lead spot

/-- Where a path leads from a place. -/
def Path.spotFrom (p : Path) (here : Place) : Spot := walk here.spot p.components

/-- The path leads to the location. -/
def LeadsTo (here : Place) (p : Path) (location : Location) : Prop :=
  p.spotFrom here = location.map some

/-- The path leads to the location or passes it on its way; where it starts is not on its way. -/
def LeadsThrough (here : Place) (p : Path) (location : Location) : Prop :=
  ∃ steps, steps ≠ [] ∧ steps <+: p.components ∧ walk here.spot steps = location.map some

instance (here : Place) (p : Path) (location : Location) : Decidable (LeadsTo here p location) :=
  inferInstanceAs (Decidable (p.spotFrom here = location.map some))

instance (here : Place) (p : Path) (location : Location) :
    Decidable (LeadsThrough here p location) :=
  decidable_of_iff
    (∃ steps ∈ p.components.inits, steps ≠ [] ∧ walk here.spot steps = location.map some)
    (by simp [LeadsThrough, and_left_comm])

@[simp] theorem walk_nil (spot : Spot) : walk spot [] = spot := rfl

@[simp] theorem walk_cons (spot : Spot) (step : Component) (rest : List Component) :
    walk spot (step :: rest) = walk (step.lead spot) rest := rfl

@[simp] theorem walk_append (spot : Spot) (steps rest : List Component) :
    walk spot (steps ++ rest) = walk (walk spot steps) rest := List.foldl_append

@[simp] theorem Component.lead_name (spot : Spot) (bytes : Bytes) :
    Component.lead spot (.name bytes) = some bytes :: spot := rfl

/-- A path leads to one location. -/
theorem LeadsTo.unique {here : Place} {p : Path} {location other : Location}
    (h : LeadsTo here p location) (hother : LeadsTo here p other) : location = other :=
  List.map_injective_iff.mpr (fun _ _ => Option.some.inj) (h.symm.trans hother)

theorem LeadsTo.through {here : Place} {p : Path} {location : Location}
    (h : LeadsTo here p location) (hsteps : p.components ≠ []) : LeadsThrough here p location :=
  ⟨p.components, hsteps, List.prefix_refl _, h⟩

theorem LeadsThrough.of_begins {here : Place} {p q : Path} {location : Location}
    (h : LeadsThrough here q location) (hstart : q.components <+: p.components) :
    LeadsThrough here p location := by
  obtain ⟨steps, hne, hsteps, hwalk⟩ := h
  exact ⟨steps, hne, hsteps.trans hstart, hwalk⟩

/-! ### Paths that were put together -/

theorem Path.spotFrom_join (p : Path) {file : Bytes}
    (hname : Component.ofPiece? file = some (.name file)) (hslash : slash ∉ file) (here : Place) :
    (p.join ⟨file⟩).spotFrom here = some file :: p.spotFrom here := by
  rw [Path.spotFrom, Path.components_join p (Path.isPlain_of_ofPiece? hname hslash),
    Path.components_of_ofPiece? hname hslash, walk_append]
  rfl

theorem Path.spotFrom_joinText (p : Path) {name : String} (h : Path.IsName name) (here : Place) :
    (p.joinText name).spotFrom here = some (utf8 name) :: p.spotFrom here :=
  Path.spotFrom_join p h.ofPiece? h.2.2.2 here

/-- Joining a name adds the end of the path to the places that it leads through. -/
theorem leadsThrough_joinText_iff {here : Place} {p : Path} {name : String}
    (h : Path.IsName name) {location : Location} :
    LeadsThrough here (p.joinText name) location ↔
      LeadsThrough here p location ∨ LeadsTo here (p.joinText name) location := by
  unfold LeadsThrough LeadsTo Path.spotFrom
  rw [Path.components_joinText p h]
  constructor
  · rintro ⟨steps, hne, hsteps, hwalk⟩
    rcases List.prefix_concat_iff.mp hsteps with rfl | hsteps
    · exact Or.inr hwalk
    · exact Or.inl ⟨steps, hne, hsteps, hwalk⟩
  · rintro (⟨steps, hne, hsteps, hwalk⟩ | hwalk)
    · exact ⟨steps, hne, hsteps.trans (List.prefix_append _ _), hwalk⟩
    · exact ⟨_, by simp, List.prefix_refl _, hwalk⟩

/-- A path that starts at the root leads everywhere from one place to the same spot. -/
theorem Path.spotFrom_of_isAbsolute {p : Path} (h : p.isAbsolute = true) (here there : Place) :
    p.spotFrom here = p.spotFrom there := by
  obtain ⟨rest, hcomponents⟩ := Path.components_of_isAbsolute h
  unfold Path.spotFrom
  rw [hcomponents]
  rfl

/-- In front of the steps that its pieces stand for, a path has nothing but what leads to the root,
if it starts there, and else nowhere. -/
theorem Path.exists_lead (p : Path) : ∃ lead, p.components = lead ++ stepsOf p.bytes ∧
    ∀ spot, walk spot lead = if p.isAbsolute then [] else spot := by
  unfold Path.isAbsolute
  rw [Path.components_eq]
  cases hbytes : p.bytes with
  | nil => exact ⟨[], rfl, fun _ => rfl⟩
  | cons b rest =>
      rw [Path.splitHead]
      by_cases hslash : b = slash
      · rw [if_pos hslash, hslash, stepsOf_slash_cons]
        exact ⟨[.root], rfl, fun _ => rfl⟩
      · have hrelative : ¬ decide ((b :: rest).head? = some slash) = true := by simp [hslash]
        rw [if_neg hslash]
        simp only [if_neg hrelative]
        split
        · next hdot =>
          have hcuts : Path.CutsBetween [dot] rest := Or.inr hdot.2.symm
          have hsteps : Path.stepsOf (dot :: rest) = Path.stepsOf rest :=
            Path.stepsOf_append (Or.inr hcuts)
          rw [hdot.1, hsteps]
          exact ⟨[.current], rfl, fun _ => rfl⟩
        · exact ⟨[], rfl, fun _ => rfl⟩

/-- The way of a path is that of its pieces, from the root if it starts there. -/
theorem Path.spotFrom_eq_walk (p : Path) (here : Place) :
    p.spotFrom here = walk (if p.isAbsolute then [] else here.spot) (stepsOf p.bytes) := by
  obtain ⟨lead, hcomponents, hlead⟩ := p.exists_lead
  rw [Path.spotFrom, hcomponents, walk_append, hlead]

/-! ### Climbing

Steps that do not start at the root lead some levels up out of where they start and from there
down along some names. -/

/-- One step further: how many levels up the way led so far, and the names that it led down
along from there, innermost first. -/
def climbStep (reached : Nat × Spot) : Component → Nat × Spot
  | .parent => if reached.2 = [] then (reached.1 + 1, []) else (reached.1, reached.2.tail)
  | step => (reached.1, step.lead reached.2)

/-- How many levels up out of where it starts a way leads, and the names it leads down. -/
def climbAndNames (steps : List Component) : Nat × Spot := steps.foldl climbStep (0, [])

/-- How many levels a relative path leads up out of where it starts. -/
def Path.climb (p : Path) : Nat := (climbAndNames p.components).1

/-- One step on a way that has led so many levels up and some names down. -/
theorem lead_climbStep {step : Component} (h : step ≠ .root) (spot : Spot)
    (reached : Nat × Spot) :
    step.lead (reached.2 ++ spot.drop reached.1) =
      (climbStep reached step).2 ++ spot.drop (climbStep reached step).1 := by
  obtain ⟨climb, names⟩ := reached
  cases step with
  | root => exact absurd rfl h
  | current => rfl
  | parent =>
      cases names with
      | nil => simp [climbStep, Component.lead, List.tail_drop]
      | cons name others => simp [climbStep, Component.lead]
  | name bytes => simp [climbStep]

/-- A way without the root in it leads some levels up and then some names down; by induction
on its steps, wherever it has come so far. -/
theorem walk_eq_climb {steps : List Component} (hroot : .root ∉ steps) (spot : Spot) :
    walk spot steps = (climbAndNames steps).2 ++ spot.drop (climbAndNames steps).1 := by
  have hsteps : ∀ reached : Nat × Spot, walk (reached.2 ++ spot.drop reached.1) steps =
      (steps.foldl climbStep reached).2 ++ spot.drop (steps.foldl climbStep reached).1 := by
    induction steps with
    | nil => exact fun _ => rfl
    | cons step rest ih =>
        have hstep : step ≠ .root := fun heq => hroot (heq ▸ List.mem_cons_self)
        have hrest : .root ∉ rest := fun hmem => hroot (List.mem_cons_of_mem _ hmem)
        intro reached
        rw [walk_cons, lead_climbStep hstep, ih hrest, List.foldl_cons]
  exact hsteps (0, [])

/-- Steps down stay below where they start. -/
theorem suffix_walk {steps : List Component} (hroot : .root ∉ steps) (hparent : .parent ∉ steps)
    (spot : Spot) : spot <:+ walk spot steps := by
  induction steps generalizing spot with
  | nil => exact List.suffix_refl _
  | cons step rest ih =>
      have hstep : spot <:+ step.lead spot := by
        cases step with
        | root => exact absurd List.mem_cons_self hroot
        | current => exact List.suffix_refl _
        | parent => exact absurd List.mem_cons_self hparent
        | name bytes => exact List.suffix_cons _ _
      exact hstep.trans (ih (fun hmem => hroot (List.mem_cons_of_mem _ hmem))
        (fun hmem => hparent (List.mem_cons_of_mem _ hmem)) _)

/-- A path that never leads up passes nothing but what holds its end. -/
theorem LeadsThrough.suffix {here : Place} {p : Path} {location : Location}
    (h : LeadsThrough here p location) (hparent : .parent ∉ p.components) :
    location.map some <:+ p.spotFrom here := by
  obtain ⟨steps, hne, ⟨rest, hrest⟩, hwalk⟩ := h
  have htail : rest ⊆ p.components.tail := by
    rw [← hrest, List.tail_append_of_ne_nil hne]
    exact List.subset_append_right _ _
  rw [Path.spotFrom, ← hrest, walk_append, ← hwalk]
  exact suffix_walk (fun hmem => p.root_notMem_tail (htail hmem))
    (fun hmem => hparent (hrest ▸ List.mem_append_right _ hmem)) _

/-- **A relative path means the same in two directories exactly if they are alike above what it
climbs.** -/
theorem Path.spotFrom_eq_iff_drop {p : Path} (h : p.isAbsolute = false) (here there : Place) :
    p.spotFrom here = p.spotFrom there ↔ here.spot.drop p.climb = there.spot.drop p.climb := by
  unfold Path.spotFrom
  rw [walk_eq_climb (Path.root_notMem_components h), walk_eq_climb (Path.root_notMem_components h),
    List.append_cancel_left_eq]
  rfl

/-! ### Places -/

@[simp] theorem Place.spot_mk (location : Location) :
    (⟨location, 0⟩ : Place).spot = location.map some := rfl

theorem Place.removed_of_kept {place : Place} (h : place.isRemoved = false) :
    place.removed = 0 := by
  simpa [Place.isRemoved] using h

theorem Place.spot_of_kept {place : Place} (h : place.isRemoved = false) :
    place.spot = place.location.map some := by
  simp [Place.spot, Place.removed_of_kept h]

theorem Place.spot_above (place : Place) : place.above.spot = place.spot.tail := by
  obtain ⟨location, removed⟩ := place
  cases removed with
  | zero => simp [Place.above, Place.isRemoved, Place.spot]
  | succ levels => simp [Place.above, Place.isRemoved, Place.spot, List.replicate_succ]

/-! ### Following -/

namespace Machine

variable {m : Machine} {here there : Place} {p : Path}

/-- Where a piece of a path leads from a directory. -/
inductive StepsTo (m : Machine) (here : Place) : Bytes → Place → Prop where
  | stays {piece : Bytes} : piece = [] ∨ piece = [dot] → StepsTo m here piece here
  | up : StepsTo m here [dot, dot] here.above
  | down {piece : Bytes} : piece ≠ [] → piece ≠ [dot] → piece ≠ [dot, dot] →
      here.isRemoved = false → piece.length ≤ longestName →
      (m.files.get? (piece :: here.location)).isSome = true →
      StepsTo m here piece ⟨piece :: here.location, 0⟩

/-- Where a step leads, read off the spelling of its piece: nothing is looked up for `.` and
`..`, and a name leads to what is there. -/
theorem stepFrom_ok_iff {piece : Bytes} :
    m.stepFrom here piece = .ok there ↔
      (∃ fixed, m.entryAt? here = some (.directory fixed)) ∧ StepsTo m here piece there := by
  constructor
  · intro h
    unfold stepFrom at h
    split at h
    · next fixed hdirectory =>
      refine ⟨⟨fixed, hdirectory⟩, ?_⟩
      split at h
      · next hstays =>
        obtain rfl := Except.ok.inj h
        exact .stays hstays
      · next hmoves =>
        obtain ⟨hne, hdot⟩ := not_or.mp hmoves
        split at h
        · next hparent =>
          obtain rfl := Except.ok.inj h
          exact hparent ▸ .up
        · next hname =>
          split at h
          · cases h
          · next hkept =>
            split at h
            · cases h
            · next hshort =>
              split at h
              · next hthere =>
                obtain rfl := Except.ok.inj h
                exact .down hne hdot hname (Bool.eq_false_iff.mpr hkept)
                  (Nat.le_of_not_lt hshort) hthere
              · cases h
    · cases h
    · cases h
  · rintro ⟨⟨fixed, hdirectory⟩, hsteps⟩
    rw [stepFrom, hdirectory]
    dsimp only
    cases hsteps with
    | stays hstays => rw [if_pos hstays]
    | up => rfl
    | down hne hdot hname hkept hshort hthere =>
        rw [if_neg (not_or.mpr ⟨hne, hdot⟩), if_neg hname, if_neg (by simp [hkept]),
          if_neg (Nat.not_lt.mpr hshort), if_pos hthere]

/-- A step that leads on needs a directory to stand in. -/
theorem stepFrom_ok {piece : Bytes} (h : m.stepFrom here piece = .ok there) :
    ∃ fixed, m.entryAt? here = some (.directory fixed) := (stepFrom_ok_iff.mp h).1

/-- An empty piece leads nowhere else from a directory. -/
theorem stepFrom_nil {fixed : Bool} (h : m.entryAt? here = some (.directory fixed)) :
    m.stepFrom here [] = .ok here := stepFrom_ok_iff.mpr ⟨⟨fixed, h⟩, .stays (Or.inl rfl)⟩

namespace StepsTo

variable {m' : Machine} {piece : Bytes}

/-- A step leads the same way on a machine where what it leads to is there as well. -/
theorem of_there (h : StepsTo m here piece there)
    (hthere : (m.files.get? there.location).isSome = true →
      (m'.files.get? there.location).isSome = true) : StepsTo m' here piece there := by
  cases h with
  | stays hstays => exact .stays hstays
  | up => exact .up
  | down hne hdot hname hkept hshort hsome =>
      exact .down hne hdot hname hkept hshort (hthere hsome)

/-- A name leads to what lies under it, in a directory that has not been removed. -/
theorem of_name (h : StepsTo m here piece there)
    (hname : Component.ofPiece? piece = some (.name piece)) :
    here.isRemoved = false ∧ piece.length ≤ longestName ∧
      (m.files.get? (piece :: here.location)).isSome = true ∧
      there = ⟨piece :: here.location, 0⟩ := by
  cases h with
  | stays hstays => simp [Component.ofPiece?, hstays] at hname
  | up => cases hname
  | down _ _ _ hkept hshort hthere => exact ⟨hkept, hshort, hthere, rfl⟩

/-- A step leads on by the piece, or else nowhere but up. -/
theorem location_suffix (h : StepsTo m here piece there) :
    there.location <:+ piece :: here.location := by
  cases h with
  | stays => exact List.suffix_cons _ _
  | up =>
      unfold Place.above
      split
      · exact List.suffix_cons _ _
      · exact (List.tail_suffix _).trans (List.suffix_cons _ _)
  | down => exact List.suffix_refl _

end StepsTo

/-- A step that succeeds leads where its piece says, whatever the files are. -/
theorem stepFrom_spot {piece : Bytes} (h : m.stepFrom here piece = .ok there) :
    there.spot = walk here.spot (Component.ofPiece? piece).toList := by
  cases (stepFrom_ok_iff.mp h).2 with
  | stays hstays => simp [Component.ofPiece?, hstays]
  | up => exact here.spot_above
  | down hne hdot hname hkept _ _ =>
      have hpiece : Component.ofPiece? piece = some (.name piece) := by
        simp [Component.ofPiece?, hne, hdot, hname]
      rw [hpiece, Place.spot_of_kept hkept]
      rfl

/-- By induction on the pieces: where a way leads can be read off its spelling. -/
theorem follow_spot {pieces : List Bytes} (h : m.follow here pieces = .ok there) :
    there.spot = walk here.spot (pieces.filterMap Component.ofPiece?) := by
  induction pieces generalizing here with
  | nil =>
      obtain rfl := Except.ok.inj h
      rfl
  | cons piece rest ih =>
      obtain ⟨next, hnext, hrest⟩ := bind_ok_iff.mp h
      rw [ih hrest, stepFrom_spot hnext, ← walk_append]
      cases hpiece : Component.ofPiece? piece <;> simp [hpiece]

/-- A path is followed from where its first piece is looked for, piece by piece. -/
theorem spotFrom_eq (m : Machine) (p : Path) :
    p.spotFrom m.cwd = walk (m.startOf p).spot (p.pieces.filterMap Component.ofPiece?) := by
  rw [Path.spotFrom_eq_walk, startOf]
  split <;> rfl

theorem locate_spot {place : Place} (h : m.locate p = .ok place) :
    place.spot = p.spotFrom m.cwd := by
  obtain ⟨-, -, h⟩ := bind_ok_iff.mp h
  rw [spotFrom_eq, follow_spot h]

theorem find_ok {place : Place} {entry : Entry} (h : m.find p = .ok (place, entry)) :
    m.locate p = .ok place ∧ m.entryAt? place = some entry := by
  obtain ⟨found, hlocate, h⟩ := bind_ok_iff.mp h
  split at h
  · next hentry =>
    obtain ⟨rfl, rfl⟩ := Prod.mk.inj (ok_iff_pure.mp h)
    exact ⟨hlocate, hentry⟩
  · cases h

/-! ### The end of a path -/

namespace Target

variable {target : Target}

theorem isName_iff : target.isName = true ↔
    target.piece ≠ [] ∧ target.piece ≠ [dot] ∧ target.piece ≠ [dot, dot] := by
  simp [isName, and_assoc]

theorem ofPiece?_of_isName (h : target.isName = true) :
    Component.ofPiece? target.piece = some (.name target.piece) := by
  obtain ⟨hne, hdot, hdots⟩ := isName_iff.mp h
  simp [Component.ofPiece?, hne, hdot, hdots]

end Target

/-- What is known of the directory in which a path ends. -/
theorem target_ok {target : Target} (h : m.target p = .ok target) :
    ∃ directory, m.follow (m.startOf p) (dropTrailing p.pieces).dropLast = .ok directory ∧
      m.entryAt? directory = some (.directory target.fixed) ∧
      target = {
        directory := directory.location
        removed := directory.isRemoved
        fixed := target.fixed
        piece := (dropTrailing p.pieces).getLast?.getD []
        trailingSlash := p.bytes.getLast? = some slash } := by
  obtain ⟨-, -, h⟩ := bind_ok_iff.mp h
  obtain ⟨directory, hdirectory, h⟩ := bind_ok_iff.mp h
  split at h
  · next fixed hentry =>
    obtain rfl := ok_iff_pure.mp h
    exact ⟨directory, hdirectory, hentry, rfl⟩
  · cases h
  · cases h

/-- What is dropped from the end is empty. -/
theorem dropTrailing_append (pieces : List Bytes) :
    ∃ empties, pieces = dropTrailing pieces ++ empties ∧ ∀ piece ∈ empties, piece = [] := by
  refine ⟨(pieces.reverse.takeWhile (· = [])).reverse, ?_, ?_⟩
  · unfold dropTrailing
    rw [← List.reverse_append, List.takeWhile_append_dropWhile, List.reverse_reverse]
  · intro piece hpiece
    have hall := List.all_eq_true.mp (List.all_takeWhile (p := (· = [])) (l := pieces.reverse))
    simpa using hall piece (List.mem_reverse.mp hpiece)

theorem filterMap_dropTrailing (pieces : List Bytes) :
    (dropTrailing pieces).filterMap Component.ofPiece? = pieces.filterMap Component.ofPiece? := by
  obtain ⟨empties, hsplit, hempties⟩ := dropTrailing_append pieces
  have hempty : empties.filterMap Component.ofPiece? = [] := by
    rw [List.filterMap_eq_nil_iff]
    intro piece hpiece
    simp [hempties piece hpiece, Component.ofPiece?]
  conv => rhs; rw [hsplit]
  rw [List.filterMap_append, hempty, List.append_nil]

/-- A path that ends in a name has that name for its last piece that counts. -/
theorem target_pieces {target : Target} (h : m.target p = .ok target)
    (hname : target.isName = true) :
    dropTrailing p.pieces = (dropTrailing p.pieces).dropLast ++ [target.piece] ∧
      Component.ofPiece? target.piece = some (.name target.piece) := by
  obtain ⟨directory, -, -, htarget⟩ := target_ok h
  have hpiece : (dropTrailing p.pieces).getLast?.getD [] = target.piece := by rw [htarget]
  refine ⟨?_, Target.ofPiece?_of_isName hname⟩
  cases hlast : (dropTrailing p.pieces).getLast? with
  | none =>
      rw [hlast] at hpiece
      exact absurd hpiece.symm (Target.isName_iff.mp hname).1
  | some last =>
      rw [hlast] at hpiece
      obtain ⟨before, hbefore⟩ := List.getLast?_eq_some_iff.mp hlast
      rw [hbefore, List.dropLast_concat, ← hpiece, Option.getD_some]

theorem target_components_ne_nil {target : Target} (h : m.target p = .ok target)
    (hname : target.isName = true) : p.components ≠ [] := by
  obtain ⟨hkept, hofPiece⟩ := target_pieces h hname
  have hsteps : Path.stepsOf p.bytes ≠ [] := by
    change p.pieces.filterMap Component.ofPiece? ≠ []
    rw [← filterMap_dropTrailing, hkept, List.filterMap_append, List.filterMap_cons, hofPiece]
    simp
  intro hnil
  have hhead := (List.append_eq_nil_iff.mp ((Path.components_eq p).symm.trans hnil)).1
  rw [(Path.isPlain_of_headComponents hhead).components] at hnil
  exact hsteps hnil

/-- A name that can be looked for is short enough and looked for in a directory that is there. -/
theorem checkName_ok {target : Target} (h : target.checkName = .ok ()) :
    target.removed = false ∧ target.piece.length ≤ longestName := by
  unfold Target.checkName at h
  split at h
  · cases h
  · next hthere =>
    split at h
    · cases h
    · next hlong => exact ⟨by simpa using hthere, Nat.le_of_not_lt hlong⟩

/-- The directory in which a name can be looked for has not been removed, so it is found at its
location. -/
theorem target_kept {target : Target} (h : m.target p = .ok target)
    (hcheck : target.checkName = .ok ()) :
    m.follow (m.startOf p) (dropTrailing p.pieces).dropLast = .ok ⟨target.directory, 0⟩ ∧
      m.entryAt? ⟨target.directory, 0⟩ = some (.directory target.fixed) := by
  obtain ⟨directory, hfollow, hdirectory, htarget⟩ := target_ok h
  have hkept : directory.isRemoved = false := by rw [← (checkName_ok hcheck).1, htarget]
  have hplace : directory = ⟨target.directory, 0⟩ := by
    rw [htarget, ← Place.removed_of_kept hkept]
  rw [← hplace]
  exact ⟨hfollow, hdirectory⟩

/-- **What can be created at the end of a path is where its steps lead.** -/
theorem target_leadsTo {target : Target} (h : m.target p = .ok target)
    (hname : target.isName = true) (hcheck : target.checkName = .ok ()) :
    LeadsTo m.cwd p target.location := by
  obtain ⟨hfollow, -⟩ := target_kept h hcheck
  obtain ⟨hkept, hofPiece⟩ := target_pieces h hname
  unfold LeadsTo
  rw [spotFrom_eq, ← filterMap_dropTrailing, hkept, List.filterMap_append, walk_append,
    ← follow_spot hfollow, List.filterMap_cons, hofPiece]
  rfl

end Machine

end NativeExtension
