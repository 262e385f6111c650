import NativeExtension.Proofs.Names
import NativeExtension.Proofs.Session.BuildCourse

/-!
# NativeExtension.Proofs.Session.Workspaces

**What the build of one extension does in the workspace of another.** The workspaces of two
names lie beside each other, and a build changes nothing in a workspace that goes by another
name (`build_keepsApart`) with two exceptions. The bundled headers lie among the workspaces, in
the directory `include`, which is the workspace of an extension of that name: the build of every
other extension writes there. And the path of all workspaces may itself lead through one of them
and out again, in which case the directories on its way are made there; a path without `..` never
does (`root_avoids`).
-/

namespace NativeExtension

open Session

/-! ### Where workspaces lie -/

/-- The location is that at the end of the path, or lies below it. -/
def LiesIn (here : Place) (p : Path) (location : Location) : Prop :=
  p.spotFrom here <:+ location.map some

instance (here : Place) (p : Path) (location : Location) : Decidable (LiesIn here p location) :=
  inferInstanceAs (Decidable (p.spotFrom here <:+ location.map some))

theorem spotFrom_workspaceOf (root : Path) {name : String} (h : validateName name = .ok ())
    (here : Place) :
    (workspaceOf root name).spotFrom here = some (utf8 name) :: root.spotFrom here :=
  Path.spotFrom_joinText root (isName_of_validateName h) here

theorem spotFrom_bundledDir (root : Path) (here : Place) :
    (bundledDir root).spotFrom here = some (utf8 "include") :: root.spotFrom here :=
  Path.spotFrom_joinText root (by decide : Path.IsName "include") here

/-- Two ways from one base, of which one goes on along the other, start with the same step. -/
theorem head_eq_of_suffix {α : Type} {x y : α} {base : List α} (further : List α)
    (h : x :: base <:+ further ++ y :: base) : x = y := by
  obtain ⟨front, hfront⟩ := h
  have hsteps : (front ++ [x]) ++ base = (further ++ [y]) ++ base := by simpa using hfront
  exact List.singleton_inj.mp (List.append_inj' (List.append_cancel_right hsteps) rfl).2

section Places

variable {here : Place} {root : Path} {name other : String} {location : Location}

/-- **The workspaces of two names lie beside each other.** -/
theorem workspaces_beside (hname : validateName name = .ok ())
    (hother : validateName other = .ok ()) (hne : name ≠ other) :
    ¬ (workspaceOf root name).spotFrom here <:+ (workspaceOf root other).spotFrom here := by
  rw [spotFrom_workspaceOf root hname, spotFrom_workspaceOf root hother]
  intro hsuffix
  have hbytes := head_eq_of_suffix [] hsuffix
  exact hne (utf8_injective (Option.some.inj hbytes))

/-- Only one name has its workspace where the bundled headers lie. -/
theorem workspace_eq_bundledDir_iff (hother : validateName other = .ok ()) :
    (workspaceOf root other).spotFrom here = (bundledDir root).spotFrom here ↔
      other = "include" := by
  rw [spotFrom_workspaceOf root hother, spotFrom_bundledDir, List.cons.injEq, Option.some.injEq]
  exact ⟨fun h => utf8_injective h.1, fun h => ⟨congrArg utf8 h, rfl⟩⟩

/-- A path that never leads up passes through none of the workspaces below it. -/
theorem root_avoids (hroot : .parent ∉ root.components) (hother : validateName other = .ok ())
    (hinside : LiesIn here (workspaceOf root other) location) :
    ¬ LeadsThrough here root location := by
  intro hthrough
  rw [LiesIn, spotFrom_workspaceOf root hother] at hinside
  exact absurd (hinside.trans (hthrough.suffix hroot)).length_le (Nat.not_succ_le_self _)

/-- What the way to a workspace passes in that of another name, the way to all of them passes. -/
theorem leadsThrough_workspaceOf (hname : validateName name = .ok ())
    (hother : validateName other = .ok ()) (hne : name ≠ other)
    (hinside : LiesIn here (workspaceOf root other) location)
    (h : LeadsThrough here (workspaceOf root name) location) : LeadsThrough here root location := by
  rcases (leadsThrough_joinText_iff (isName_of_validateName hname)).mp h with hroot | hend
  · exact hroot
  · rw [LiesIn, ← hend] at hinside
    exact absurd hinside (workspaces_beside hother hname (Ne.symm hne))

/-- The description in a workspace lies in that of no other name. -/
theorem not_leadsTo_buildFile (hname : validateName name = .ok ())
    (hother : validateName other = .ok ()) (hne : name ≠ other)
    (hinside : LiesIn here (workspaceOf root other) location) :
    ¬ LeadsTo here (buildFile (workspaceOf root name)) location := by
  intro hleads
  have hspot := Path.spotFrom_joinText (workspaceOf root name)
    (by decide : Path.IsName "build.ninja") here
  rw [LiesIn, ← hleads, buildFile, hspot, spotFrom_workspaceOf root hname,
    spotFrom_workspaceOf root hother] at hinside
  have hbytes := head_eq_of_suffix [_] hinside
  exact hne (utf8_injective (Option.some.inj hbytes)).symm

/-- What the way to a bundled header passes in a workspace, the way to all workspaces passes,
unless the workspace is that of the name `include`. -/
theorem leadsThrough_bundled (hother : validateName other = .ok ())
    (hinside : LiesIn here (workspaceOf root other) location)
    (h : LeadsThrough here (headerIn (bundledDir root)) location) :
    LeadsThrough here root location ∨ other = "include" := by
  have hbelow : ∀ further, location.map some = further ++ (bundledDir root).spotFrom here →
      other = "include" := by
    intro further hlocation
    rw [LiesIn, hlocation, spotFrom_bundledDir, spotFrom_workspaceOf root hother] at hinside
    exact utf8_injective (Option.some.inj (head_eq_of_suffix further hinside))
  rcases leadsThrough_headerIn h with hthrough | hspot | hheader
  · rcases (leadsThrough_joinText_iff (by decide : Path.IsName "include")).mp hthrough with
      hroot | hend
    · exact Or.inl hroot
    · exact Or.inr (hbelow [] hend.symm)
  · exact Or.inr (hbelow [_] hspot)
  · rw [LeadsTo, spotFrom_headerIn] at hheader
    exact Or.inr (hbelow [_, _] hheader.symm)

end Places

/-! ### The build -/

/-- What the build of one extension means for the workspace that goes by another name. -/
structure KeepsApart (options : LoadOptions) (other : String) (s after : Session) : Prop where
  /-- Neither workspace is the other, or lies inside it. -/
  beside :
    ¬ (workspaceOf s.machine.extensionsRoot options.name).spotFrom s.machine.cwd <:+
        (workspaceOf s.machine.extensionsRoot other).spotFrom s.machine.cwd ∧
      ¬ (workspaceOf s.machine.extensionsRoot other).spotFrom s.machine.cwd <:+
        (workspaceOf s.machine.extensionsRoot options.name).spotFrom s.machine.cwd
  /-- The bundled headers lie in the workspace of one name. -/
  bundled : (workspaceOf s.machine.extensionsRoot other).spotFrom s.machine.cwd =
    s.machine.bundledIncludeDir.spotFrom s.machine.cwd ↔ other = "include"
  /-- But for what programs do, all that changes is what the licence covers. -/
  course : Course (buildLicence s.machine options [s.machine.bundledIncludeDir]) anyLaunch s after
  /-- In the workspace it covers what the way to all workspaces passes, and the way to the
  bundled header if they lie there. -/
  covered : ∀ location,
    LiesIn s.machine.cwd (workspaceOf s.machine.extensionsRoot other) location →
    (buildLicence s.machine options [s.machine.bundledIncludeDir]).Covers location →
    LeadsThrough s.machine.cwd s.machine.extensionsRoot location ∨
      other = "include" ∧
        LeadsThrough s.machine.cwd (headerIn s.machine.bundledIncludeDir) location
  /-- The way to all workspaces passes none of them if it never leads up. -/
  direct : .parent ∉ s.machine.extensionsRoot.components →
    ∀ location, LiesIn s.machine.cwd (workspaceOf s.machine.extensionsRoot other) location →
      ¬ LeadsThrough s.machine.cwd s.machine.extensionsRoot location
  /-- Where programs leave the files alone, the workspace is as it was. -/
  unchanged : s.machine.Quiet → other ≠ "include" →
    ∀ location, LiesIn s.machine.cwd (workspaceOf s.machine.extensionsRoot other) location →
      ¬ LeadsThrough s.machine.cwd s.machine.extensionsRoot location →
      after.machine.files.get? location = s.machine.files.get? location
  /-- The workspace where the bundled headers lie holds one when the runner is started. -/
  intruded : other = "include" → ∀ prepared ready,
    (prepare options (detectToolchain.run s).1 (detectToolchain.run s).2.machine.runner).run.run
      (detectToolchain.run s).2 = (.ok prepared, ready) →
    ready.machine.Stores (headerIn (workspaceOf s.machine.extensionsRoot other))
      (utf8 extensionHeader)

/-- What a build may change in a workspace that goes by another name. -/
theorem covered_in_workspace {m : Machine} {options : LoadOptions} {other : String}
    {location : Location} (hname : validateName options.name = .ok ())
    (hother : validateName other = .ok ()) (hne : options.name ≠ other)
    (hdefault : options.buildDirectory = none)
    (hinside : LiesIn m.cwd (workspaceOf m.extensionsRoot other) location)
    (hcovers : (buildLicence m options [m.bundledIncludeDir]).Covers location) :
    LeadsThrough m.cwd m.extensionsRoot location ∨
      other = "include" ∧ LeadsThrough m.cwd (headerIn m.bundledIncludeDir) location := by
  have hheaders : LeadsThrough m.cwd (headerIn m.bundledIncludeDir) location →
      LeadsThrough m.cwd m.extensionsRoot location ∨
        other = "include" ∧ LeadsThrough m.cwd (headerIn m.bundledIncludeDir) location :=
    fun hthrough => (leadsThrough_bundled hother hinside hthrough).imp_right (⟨·, hthrough⟩)
  rcases hcovers with (⟨-, hworkspace⟩ | ⟨directory, hdirectory, hthrough⟩) |
    ⟨bytes, ⟨⟨directory, hdirectory, hleads⟩, -⟩ | hdescription⟩
  · exact Or.inl (leadsThrough_workspaceOf hname hother hne hinside hworkspace)
  · obtain rfl := List.mem_singleton.mp hdirectory
    exact hheaders hthrough
  · obtain rfl := List.mem_singleton.mp hdirectory
    refine hheaders (hleads.through ?_)
    rw [components_headerIn]
    simp
  · rw [workspacePath, hdefault, Option.getD_none] at hdescription
    exact absurd hdescription (not_leadsTo_buildFile hname hother hne hinside)

/-- **The build of one extension changes nothing in the workspace of another**, unless that is
where the bundled headers lie, or the way to all workspaces passes there. -/
theorem build_keepsApart (options : LoadOptions) (other : String) (s : Session)
    (hname : validateName options.name = .ok ()) (hother : validateName other = .ok ())
    (hne : options.name ≠ other) (hdefault : options.buildDirectory = none) :
    KeepsApart options other s ((build options).run.run s).2 := by
  have hcourse := course_build options s
  constructor
  case beside =>
    exact ⟨workspaces_beside hname hother hne, workspaces_beside hother hname (Ne.symm hne)⟩
  case bundled => exact workspace_eq_bundledDir_iff hother
  case course => exact hcourse
  case covered =>
    exact fun location hinside => covered_in_workspace hname hother hne hdefault hinside
  case direct => exact fun hroot location hinside => root_avoids hroot hother hinside
  case unchanged =>
    intro hquiet hinclude location hinside hroot
    refine hcourse.get?_of_quiet hquiet fun hcovers => ?_
    rcases covered_in_workspace hname hother hne hdefault hinside hcovers with
      hthrough | ⟨hother, -⟩
    · exact hroot hthrough
    · exact hinclude hother
  case intruded =>
    intro hinclude prepared ready hprepared
    have hcases := prepare_cases options (detectToolchain.run s).1
      (detectToolchain.run s).2.machine.runner (detectToolchain.run s).2
    rw [hprepared] at hcases
    cases hcases with
    | ready _ _ _ _ _ hheaders =>
        rw [bundledIncludes_detectToolchain] at hheaders
        rw [hinclude]
        exact hheaders _ (List.mem_singleton.mpr rfl)

/-- A machine with a runner, and a file in the workspace of one extension. -/
def sharedMachine : Machine where
  files :=
    { entries := [([utf8 "ninja"], .file 0 (.program {})), ([utf8 "e"], .directory false),
        ([utf8 "ops", utf8 "e"], .directory false),
        ([utf8 "x.o", utf8 "ops", utf8 "e"], .file 1 (.data (utf8 "object")))]
      nextId := 2 }
  cwd := ⟨[], 0⟩
  env := [("EXTBUILD_EXTENSIONS_DIR", utf8 "/e"), ("EXTBUILD_NINJA", utf8 "/ninja"),
    ("CUDA_HOME", utf8 "/cuda")]

/-- A request for an extension of another name. -/
def demoOptions : LoadOptions where
  name := "demo"
  sources := [.ofText "/a/x.cpp"]

/-- Its build there. -/
def sharedBuild : Except Error BuildOutput × Session :=
  (build demoOptions).run.run { machine := sharedMachine }

/-- The build of another extension leaves that file alone, and puts a header into the workspace
of the name `include`. -/
theorem build_keepsApart_demo :
    sharedBuild.2.machine.files.get? [utf8 "x.o", utf8 "ops", utf8 "e"] =
        some (.file 1 (.data (utf8 "object"))) ∧
      (workspaceOf sharedMachine.extensionsRoot "include").spotFrom sharedMachine.cwd =
        sharedMachine.bundledIncludeDir.spotFrom sharedMachine.cwd ∧
      sharedMachine.files.get? [utf8 "extension.h", utf8 "extbuild", utf8 "include", utf8 "e"] =
        none ∧
      sharedBuild.2.machine.files.get?
        [utf8 "extension.h", utf8 "extbuild", utf8 "include", utf8 "e"] ≠ none := by
  have hquiet : sharedMachine.Quiet := Machine.quiet_of_entries rfl (by simp [sharedMachine])
  have hinclude := build_keepsApart demoOptions "include" { machine := sharedMachine }
    (by decide) (by decide) (by decide) rfl
  have hops := build_keepsApart demoOptions "ops" { machine := sharedMachine }
    (by decide) (by decide) (by decide) rfl
  rw [← sharedBuild] at hops
  have hspared := hops.unchanged hquiet (by decide) [utf8 "x.o", utf8 "ops", utf8 "e"]
    (by decide) (by decide)
  exact ⟨hspared.trans (by decide), hinclude.bundled.mpr rfl, by decide, by decide +kernel⟩

end NativeExtension
