import NativeExtension.Proofs.Machine.Twins

/-!
# NativeExtension.Proofs.Machine.Launches

**What a launch may do, and what it cannot tell apart.** Which program a launch runs depends on the
files, and what that program does depends on whatever it looks at. `MayStart` says which programs a
launch may run, and what they may find there, as long as files are only made and written in between;
what such a program does is all that the launch changes (`edits_spawn_ofLaunch`).

On twins a launch has the same outcome if it `Avoids` where they differ (`Twins.spawn`). That has
two sides: the system finds the same program on both, since no path along which it looks leads to
what differs, and the program itself is `Heedless` of what differs. The first can be read off the
machine. The second is the program's affair; it holds of programs that look at nothing but their
arguments (`Launch.heedless_of_scripted`), and of every program where nothing differs
(`Launch.heedless_of_same`).
-/

namespace NativeExtension

/-! ### Which program a launch may run -/

namespace Machine

variable {m m' : Machine} {licence : Licence} {launch : Launch} {program here : Location}
  {script : Script} {child : Machine}

/-- The paths along which a program of that name is looked for. -/
def candidates (m : Machine) (name : Bytes) : List Path :=
  if name.contains slash then [⟨name⟩] else m.searchPath.map (candidate · name)

/-- The program lies where the launch looks for one. -/
def MayRun (m : Machine) (launch : Launch) (program : Location) (script : Script) : Prop :=
  (∃ p ∈ m.candidates launch.program,
    walk (launch.startFrom m.cwd) p.components = program.map some) ∧
  ∃ id, m.files.get? program = some (.file id (.program script))

/-- The launch may run the program on that machine, now or after files have changed. -/
def MayStart (m : Machine) (launch : Launch) (program : Location) (script : Script)
    (child : Machine) : Prop :=
  m.MayRun launch program script ∧
    ∃ later, Edits .any m later ∧ later.childOf launch = .ok child

theorem candidates_congr (h : m'.env = m.env) (name : Bytes) :
    m'.candidates name = m.candidates name := by
  rw [candidates, candidates, searchPath_congr h]

/-- The file that runs lies where one of the candidates leads: the path itself, or the name in
one of the directories of the search path. -/
theorem mayRun_of_executable (h : m.executable launch = .ok (program, script)) :
    m.MayRun launch program script := by
  refine ⟨?_, executable_ok h⟩
  rw [executable_eq] at h
  split at h
  · cases h
  · obtain ⟨child, hchild, hresolve⟩ := bind_ok_iff.mp h
    have hpath : child.candidates launch.program = m.candidates launch.program :=
      candidates_congr (by rw [childOf_ok hchild]) _
    rw [← childOf_spot hchild, ← hpath, candidates]
    by_cases hslash : launch.program.contains slash = true
    · rw [if_pos hslash]
      rw [resolveProgram_of_slash child (by simpa using hslash)] at hresolve
      exact ⟨_, List.mem_singleton_self _, (spot_of_programAt hresolve).symm⟩
    · have hne : launch.program ≠ [] := by
        intro hnil
        rw [resolveProgram, if_pos hnil] at hresolve
        cases hresolve
      rw [if_neg hslash]
      rw [resolveProgram_of_bare child hne (by simpa using hslash), search_ok_iff] at hresolve
      obtain ⟨directory, hmem, hat⟩ := hresolve.mem
      exact ⟨_, List.mem_map_of_mem hmem, (spot_of_programAt hat).symm⟩

theorem mayStart_of_executable (h : m.executable launch = .ok (program, script))
    (hchild : m.childOf launch = .ok child) : m.MayStart launch program script child :=
  ⟨mayRun_of_executable h, m, Edits.refl _ _, hchild⟩

/-- Edits bring in no program that a launch may run. -/
theorem MayRun.before (h : m'.MayRun launch program script) (hedits : Edits licence m m') :
    m.MayRun launch program script := by
  obtain ⟨hcandidate, id, hthere⟩ := h
  obtain ⟨before, hbefore, -, hscript⟩ := hedits.runnable_before hthere rfl
  rw [hscript script rfl] at hbefore
  rw [candidates_congr hedits.env_eq, hedits.cwd_eq] at hcandidate
  exact ⟨hcandidate, id, hbefore⟩

theorem MayStart.before (h : m'.MayStart launch program script child)
    (hedits : Edits licence m m') : m.MayStart launch program script child := by
  obtain ⟨hmay, later, hlater, hchild⟩ := h
  exact ⟨hmay.before hedits, later, (hedits.mono licence.within_any).trans hlater, hchild⟩

theorem MayStart.behavior_eq (h : m.MayStart launch program script child) :
    child.behavior = m.behavior := by
  obtain ⟨-, later, hlater, hchild⟩ := h
  rw [childOf_ok hchild]
  exact hlater.behavior_eq

/-! ### What a launch may do -/

/-- A program that the launch may run does the deed. -/
def MayDo (m : Machine) (launch : Launch) (program : Location) (here : Place) (deed : Deed) :
    Prop :=
  ∃ script child, m.MayStart launch program script child ∧ child.cwd = here ∧
    deed ∈ (child.perform program script launch.arguments).deeds

end Machine

/-- To do what a launch may do. -/
def Licence.ofLaunch (m : Machine) (launch : Launch) : Licence where
  directory := fun location => ∃ program here deed, m.MayDo launch program here deed ∧
    (deed.licence program here).directory location
  file := fun location bytes => ∃ program here deed, m.MayDo launch program here deed ∧
    (deed.licence program here).file location bytes

namespace Machine

variable {m m' : Machine} {licence : Licence} {launch : Launch} {location : Location}

/-- A program that the launch may run makes or writes something there. -/
def Touches (m : Machine) (launch : Launch) (location : Location) : Prop :=
  (Licence.ofLaunch m launch).Covers location

/-- Edits bring in no program, so a launch may do no more after them than before. -/
theorem ofLaunch_before (hedits : Edits licence m m') :
    (Licence.ofLaunch m' launch).Within (.ofLaunch m launch) := by
  have hbefore : ∀ {program here deed}, m'.MayDo launch program here deed →
      m.MayDo launch program here deed := by
    rintro program here deed ⟨script, child, hmay, hdeed⟩
    exact ⟨script, child, hmay.before hedits, hdeed⟩
  constructor
  · rintro location ⟨program, here, deed, hmay, hallowed⟩
    exact ⟨program, here, deed, hbefore hmay, hallowed⟩
  · rintro location bytes ⟨program, here, deed, hmay, hallowed⟩
    exact ⟨program, here, deed, hbefore hmay, hallowed⟩

theorem Touches.before (h : m'.Touches launch location) (hedits : Edits licence m m') :
    m.Touches launch location :=
  h.mono (ofLaunch_before hedits)

/-- **A launch changes nothing but what it may.** -/
theorem edits_spawn_ofLaunch (m : Machine) (launch : Launch) :
    Edits (.ofLaunch m launch) m (m.spawn launch).2 := by
  refine m.edits_spawn_within ?_
  intro program script child hexecutable hchild deed hdeed
  have hmay : m.MayDo launch program child.cwd deed :=
    ⟨script, child, mayStart_of_executable hexecutable hchild, rfl, hdeed⟩
  exact ⟨fun _ hmake => ⟨program, child.cwd, deed, hmay, hmake⟩,
    fun _ _ hwrite => ⟨program, child.cwd, deed, hmay, hwrite⟩⟩

theorem Quiet.not_mayDo (h : m.Quiet) {program : Location} {here : Place} {deed : Deed} :
    ¬ m.MayDo launch program here deed := by
  rintro ⟨script, child, hmay, -, hdeed⟩
  obtain ⟨id, hthere⟩ := hmay.1.2
  rw [perform, hmay.behavior_eq, h program id script hthere] at hdeed
  cases hdeed

theorem Quiet.not_touches (h : m.Quiet) : ¬ m.Touches launch location := by
  rintro (⟨program, here, deed, hmay, -⟩ | ⟨_, program, here, deed, hmay, -⟩)
  · exact h.not_mayDo hmay
  · exact h.not_mayDo hmay

end Machine

/-! ### What a launch cannot tell apart -/

/-- The program that the launch runs does the same wherever nothing differs but what may. -/
def Launch.Heedless (launch : Launch) (m : Machine) (d : Differences) : Prop :=
  ∀ program script child, m.MayStart launch program script child →
    ∀ child', Twins d child child' →
      child'.perform program script launch.arguments =
        child.perform program script launch.arguments

/-- The deed leaves the places alone, wherever it leads from there. -/
def Deed.Avoids (program : Location) (start : Spot) (places : List Location) : Deed → Prop
  | .record _ => Machine.callRecord program ∉ places
  | .makeDir p => p.Avoids start places
  | .write p _ => p.Avoids start places

/-- The launch looks at none of the hidden places, runs none of the programs that may differ, and
no program that it may run heeds what differs or changes anything at the hidden places. -/
structure Launch.Avoids (launch : Launch) (m : Machine) (d : Differences) : Prop where
  directory : ∀ p ∈ launch.directory, p.Avoids m.cwd.spot d.hidden
  program : ∀ p ∈ m.candidates launch.program, p.LeadsAlike (launch.startFrom m.cwd) d
  heedless : launch.Heedless m d
  deeds : ∀ program here deed, m.MayDo launch program here deed →
    deed.Avoids program here.spot d.hidden

/-- To change anything but some places. -/
def Licence.outside (places : List Location) : Licence where
  directory := (· ∉ places)
  file := fun location _ => location ∉ places

theorem Path.Avoids.toMake {p : Path} {here : Place} {places : List Location}
    (h : p.Avoids here.spot places) : (Licence.toMake here p).Within (.outside places) :=
  ⟨fun _ hthrough => h.not_mem_through hthrough, fun _ _ hfile => hfile.elim⟩

theorem Path.Avoids.toWrite {p : Path} {here : Place} {places : List Location}
    (h : p.Avoids here.spot places) (bytes : Bytes) :
    (Licence.toWrite here p bytes).Within (.outside places) :=
  ⟨fun _ hmake => hmake.elim, fun _ _ hwrite => h.not_mem hwrite.1⟩

/-- Whatever kind of deed it is, the places that it may change are those to which it leads. -/
theorem Deed.Avoids.outside {program : Location} {here : Place} {places : List Location}
    {deed : Deed} (h : deed.Avoids program here.spot places) :
    (deed.licence program here).Within (.outside places) := by
  cases deed with
  | record line =>
      refine ⟨fun _ hmake => hmake.elim, ?_⟩
      rintro location _ rfl
      exact h
  | makeDir p => exact Path.Avoids.toMake h
  | write p bytes => exact Path.Avoids.toWrite h bytes

namespace Launch

variable {launch : Launch} {m m' : Machine} {d : Differences} {licence : Licence}

theorem Heedless.of_edits (h : launch.Heedless m d) (hedits : Edits licence m m') :
    launch.Heedless m' d :=
  fun program script child hmay => h program script child (hmay.before hedits)

/-- Scripts look at nothing but their arguments, and whether the directory they run in is there. -/
theorem heedless_of_scripted (h : m.behavior = Script.perform) (launch : Launch)
    (d : Differences) : launch.Heedless m d := by
  intro program script child hmay child' htwins
  have hchild : child.behavior = Script.perform := hmay.behavior_eq.trans h
  rw [Machine.perform, Machine.perform, htwins.behavior, hchild, Script.perform, Script.perform,
    Machine.view, Machine.view, htwins.cwd]

/-- Whatever a program looks at, it does the same where all is the same. -/
theorem heedless_of_same (launch : Launch) (m : Machine) :
    launch.Heedless m { bytes := fun _ => False } := by
  intro program script child _ child' htwins
  rw [Machine.perform, Machine.perform, htwins.behavior, DifferInBytes.view_eq htwins]

namespace Avoids

/-- Where nothing is hidden and no programs differ, a launch avoids what it does not heed. -/
theorem of_heedless (h : launch.Heedless m d) (hhidden : d.hidden = [])
    (hprograms : d.programs = []) : launch.Avoids m d := by
  have hoff : ∀ spot, Spot.Off spot [] := fun spot location hmem => absurd hmem List.not_mem_nil
  refine ⟨fun p _ => ?_, fun p _ => ⟨?_, ?_⟩, h, fun program here deed _ => ?_⟩
  · rw [hhidden]
    exact p.avoids_nil _
  · rw [hhidden]
    exact p.avoids_nil _
  · rw [hprograms]
    exact hoff _
  · rw [hhidden]
    cases deed with
    | record => exact List.not_mem_nil
    | makeDir p => exact p.avoids_nil _
    | write p => exact p.avoids_nil _

/-- All that is avoided is said of every program that the launch may run, and edits bring in
none. -/
theorem of_edits (h : launch.Avoids m d) (hedits : Edits licence m m') : launch.Avoids m' d := by
  constructor
  case directory =>
    rw [hedits.cwd_eq]
    exact h.directory
  case program =>
    rw [hedits.cwd_eq, Machine.candidates_congr hedits.env_eq]
    exact h.program
  case heedless => exact h.heedless.of_edits hedits
  case deeds =>
    rintro program here deed ⟨script, child, hmay, hdeed⟩
    exact h.deeds program here deed ⟨script, child, hmay.before hedits, hdeed⟩

theorem edits_spawn (h : launch.Avoids m d) :
    Edits (.outside d.hidden) m (m.spawn launch).2 := by
  refine m.edits_spawn_within ?_
  intro program script child hexecutable hchild deed hdeed
  exact (h.deeds program child.cwd deed
    ⟨script, child, Machine.mayStart_of_executable hexecutable hchild, rfl, hdeed⟩).outside

end Avoids

end Launch

/-! ### Running programs on twins -/

namespace Twins

variable {d : Differences} {m m' : Machine} {launch : Launch}

/-- A program is found at the same place on both. It may differ only where the launch does not
lead, and bytes that differ are no program. -/
theorem programAt_eq (h : Twins d m m') {p : Path} (hp : p.LeadsAlike m.cwd.spot d) :
    m'.programAt p = m.programAt p := by
  have hfind := h.find hp.1
  have hends : ∀ found, m.find p = .ok found → found.1.spot.Off d.programs := by
    intro found hfound
    rw [Machine.locate_spot (Machine.find_ok hfound).1]
    exact hp.2
  unfold Machine.programAt
  generalize m.find p = found, m'.find p = found' at hfind hends ⊢
  cases hfind with
  | error hcause => rw [hcause]
  | @ok found found' hsame =>
      have hoff := hends found rfl
      obtain ⟨place, entry⟩ := found
      obtain ⟨place', entry'⟩ := found'
      obtain ⟨rfl, hentry⟩ := hsame
      cases hentry with
      | directory => rfl
      | device => rfl
      | @file _ _ content _ _ hcontent =>
          cases hcontent with
          | same => cases content <;> rfl
          | program happart => exact absurd hoff happart
          | bytes _ hholds => cases content <;> first | rfl | cases hholds

/-- By induction on the directories: each is looked at on both machines, or on neither. -/
theorem search_eq (h : Twins d m m') {name : Bytes} {denied : Bool} {last : SystemError}
    {directories : List Path}
    (hdirectories : ∀ directory ∈ directories,
      (Machine.candidate directory name).LeadsAlike m.cwd.spot d) :
    m'.search name denied last directories = m.search name denied last directories := by
  induction directories generalizing denied last with
  | nil => rfl
  | cons directory rest ih =>
      obtain ⟨hfirst, hrest⟩ := List.forall_mem_cons.mp hdirectories
      rw [Machine.search, Machine.search, h.programAt_eq hfirst]
      simp only [ih hrest]

theorem resolveProgram_eq (h : Twins d m m') {name : Bytes}
    (hname : ∀ p ∈ m.candidates name, p.LeadsAlike m.cwd.spot d) :
    m'.resolveProgram name = m.resolveProgram name := by
  unfold Machine.resolveProgram
  unfold Machine.candidates at hname
  by_cases hempty : name = []
  · rw [if_pos hempty, if_pos hempty]
  · rw [if_neg hempty, if_neg hempty]
    by_cases hslash : name.contains slash = true
    · rw [if_pos hslash] at hname ⊢
      rw [if_pos hslash]
      exact h.programAt_eq (hname _ (List.mem_singleton_self _))
    · rw [if_neg hslash] at hname ⊢
      rw [if_neg hslash, Machine.searchPath_congr h.env]
      exact h.search_eq fun directory hmem => hname _ (List.mem_map_of_mem hmem)

/-- The child starts at the same place on both, if its directory is off the hidden places. -/
theorem childOf (h : Twins d m m')
    (hdirectory : ∀ p ∈ launch.directory, p.Avoids m.cwd.spot d.hidden) :
    SameOutcome Eq (Twins d) (m.childOf launch) (m'.childOf launch) := by
  unfold Machine.childOf
  cases hnamed : launch.directory with
  | none => exact .ok h
  | some directory =>
      refine (h.find (hdirectory directory hnamed)).bind ?_
      rintro ⟨place, entry⟩ ⟨place', entry'⟩ ⟨rfl, hentry⟩
      cases hentry with
      | directory fixed => exact .ok (h.atPlace place')
      | file => exact .error rfl
      | device => exact .error rfl

/-- The search for the program is made on the children, which are twins again. -/
theorem executable_eq (h : Twins d m m') (havoids : launch.Avoids m d) :
    m'.executable launch = m.executable launch := by
  have hchildren := h.childOf havoids.directory
  rw [Machine.executable_eq, Machine.executable_eq]
  cases hchild : m.childOf launch with
  | error cause =>
      rw [hchild] at hchildren
      generalize m'.childOf launch = child' at hchildren ⊢
      cases hchildren with
      | error hcause => rw [hcause]
  | ok child =>
      rw [hchild] at hchildren
      generalize m'.childOf launch = child' at hchildren ⊢
      cases hchildren with
      | ok htwins =>
          have hresolved : _ = child.resolveProgram launch.program := htwins.resolveProgram_eq (by
            rw [Machine.childOf_spot hchild,
              Machine.candidates_congr (m := m) (by rw [Machine.childOf_ok hchild])]
            exact havoids.program)
          exact congrArg _ hresolved

/-- The line is added behind what the record holds, which may be bytes that differ: these
differ afterwards too, and in nothing else. -/
theorem recordCall (h : Twins d m m') {program : Location}
    (hrecord : Machine.callRecord program ∉ d.hidden) (line : Bytes) :
    Twins d { m with files := Machine.recordCall m.files program line }
      { m' with files := Machine.recordCall m'.files program line } := by
  have hsame := h.same _ hrecord
  have hproper := @Machine.ne_nil_of_get? m.files (Machine.callRecord program)
  unfold Machine.recordCall
  dsimp only
  generalize m.files.get? (Machine.callRecord program) = entry,
    m'.files.get? (Machine.callRecord program) = entry' at hsame hproper ⊢
  cases hsame with
  | nothing => exact h.addFile (hproper nofun) _
  | directory fixed => exact h
  | device => exact h
  | @file id id' content content' hid hcontent =>
      dsimp only
      cases hcontent with
      | program => exact h
      | same =>
          cases content.bytes? with
          | none => exact h
          | some earlier => exact h.set (hproper nofun) (.file hid (.same _))
      | @bytes hbytes _ earlier hholds other =>
          -- each keeps its own bytes in front of the line
          rw [hholds, Content.bytes?_overwritten]
          refine h.set (hproper nofun) (.file hid ?_)
          rw [Content.overwritten_overwritten,
            ← content.overwritten_overwritten (earlier ++ line) (other ++ line)]
          exact .bytes hbytes (Content.bytes?_overwritten _ _) _

/-- One deed on both machines: it succeeds on both or on neither, and a deed that fails leaves
its machine as it was. -/
theorem after (h : Twins d m m') {program : Location} {deed : Deed}
    (hdeed : deed.Avoids program m.cwd.spot d.hidden) :
    Twins d (m.after program deed) (m'.after program deed) := by
  cases deed with
  | record line => exact h.recordCall hdeed line
  | makeDir p =>
      have hmade := h.createDir hdeed
      rw [Machine.after, Machine.after]
      generalize m.createDir p = made, m'.createDir p = made' at hmade ⊢
      cases hmade with
      | ok htwins => exact htwins
      | error _ => exact h
  | write p bytes =>
      have hwritten := h.write hdeed bytes
      rw [Machine.after, Machine.after]
      generalize m.write p bytes = written, m'.write p bytes = written' at hwritten ⊢
      cases hwritten with
      | ok htwins => exact htwins
      | error _ => exact h

/-- Deeds that leave the hidden places alone leave twins twins. -/
theorem afterAll (h : Twins d m m') {program : Location} {deeds : List Deed}
    (hdeeds : ∀ deed ∈ deeds, deed.Avoids program m.cwd.spot d.hidden) :
    Twins d (m.afterAll program deeds) (m'.afterAll program deeds) := by
  induction deeds generalizing m m' with
  | nil => exact h
  | cons deed rest ih =>
      obtain ⟨hfirst, hrest⟩ := List.forall_mem_cons.mp hdeeds
      rw [← (m.edits_after program deed).cwd_eq] at hrest
      exact ih (h.after hfirst) hrest

/-- **A launch that avoids where twins differ has the same outcome on both**, and leaves the hidden
places alone on either. -/
theorem spawn (h : Twins d m m') (havoids : launch.Avoids m d) :
    (m'.spawn launch).1 = (m.spawn launch).1 ∧
      Twins d (m.spawn launch).2 (m'.spawn launch).2 ∧
      Edits (.outside d.hidden) m' (m'.spawn launch).2 := by
  have hexecutable' := h.executable_eq havoids
  cases hexecutable : m.executable launch with
  | error cause =>
      rw [hexecutable] at hexecutable'
      have hspawn : m.spawn launch = (.error cause, m) := by rw [Machine.spawn, hexecutable]
      have hspawn' : m'.spawn launch = (.error cause, m') := by rw [Machine.spawn, hexecutable']
      rw [hspawn, hspawn']
      exact ⟨rfl, h, Edits.refl _ _⟩
  | ok found =>
      obtain ⟨program, script⟩ := found
      rw [hexecutable] at hexecutable'
      obtain ⟨child, hchild⟩ := Machine.childOf_of_executable hexecutable
      obtain ⟨child', hchild'⟩ := Machine.childOf_of_executable hexecutable'
      have hchildren : Twins d child child' :=
        (h.childOf havoids.directory).of_ok hchild hchild'
      have hmay := Machine.mayStart_of_executable hexecutable hchild
      have hperform := havoids.heedless program script child hmay child' hchildren
      have hdeeds : ∀ deed ∈ (child.perform program script launch.arguments).deeds,
          deed.Avoids program child.cwd.spot d.hidden :=
        fun deed hdeed => havoids.deeds program child.cwd deed ⟨script, child, hmay, rfl, hdeed⟩
      have hafter := hchildren.afterAll hdeeds
      refine ⟨?_, ?_, m'.edits_spawn_within ?_⟩
      · simp only [Machine.spawn, hexecutable, hexecutable', hchild, hchild', hperform]
      · simp only [Machine.spawn, hexecutable, hexecutable', hchild, hchild', hperform]
        exact ⟨h.cwd, h.env, h.libraryDirs, h.behavior, hafter.fresh, hafter.same⟩
      · intro program' script' other hfound hother deed hdeed
        obtain ⟨rfl, rfl⟩ := Prod.mk.inj (Except.ok.inj (hexecutable'.symm.trans hfound))
        obtain rfl := Except.ok.inj (hchild'.symm.trans hother)
        rw [hperform] at hdeed
        rw [hchildren.cwd]
        exact (hdeeds deed hdeed).outside

end Twins

end NativeExtension
