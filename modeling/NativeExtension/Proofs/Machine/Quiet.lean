import NativeExtension.Machine.Spawn
import NativeExtension.Proofs.Machine.Edits

/-!
# NativeExtension.Proofs.Machine.Quiet

**Starting a program changes nothing but files, and those only if the program does.** On a
machine whose programs leave the files alone (`Quiet`), starting one leaves the whole machine as
it is (`Quiet.spawn`), and no edit brings in a program of another kind (`Quiet.of_edit`).
-/

namespace NativeExtension

/-- Where the child of a launch starts: where the launch's directory leads, if it names one. -/
def Launch.startFrom (launch : Launch) (here : Place) : Spot :=
  (launch.directory.map (·.spotFrom here)).getD here.spot

namespace Machine

variable {m m' : Machine}

/-- No program on the machine does anything to the files, whatever it finds. -/
def Quiet (m : Machine) : Prop :=
  ∀ location id script, m.files.get? location = some (.file id (.program script)) →
    ∀ view arguments, (m.behavior view location script arguments).deeds = []

/-- Scripts that neither record their calls nor create a file leave the files alone. -/
theorem quiet_of_entries (hscripts : m.behavior = Script.perform)
    (h : ∀ entry ∈ m.files.entries, ∀ id script, entry.2 = .file id (.program script) →
      script.recordsCalls = false ∧ script.creates = none) : m.Quiet := by
  intro location id script hscript view arguments
  cases location with
  | nil => cases hscript
  | cons name directory =>
      obtain ⟨before, after, hentries, -⟩ := List.lookup_eq_some_iff.mp hscript
      obtain ⟨hcalls, hcreates⟩ :=
        h (name :: directory, .file id (.program script)) (by simp [hentries]) id script rfl
      simp [hscripts, Script.perform, Script.deeds, hcalls, hcreates]

/-- Edits bring in no program, so what was quiet stays so. -/
theorem Quiet.of_edit {licence : Licence} (h : m.Quiet) (hedit : Edit licence m m') :
    m'.Quiet := by
  intro location id script hscript
  rw [hedit.behavior_eq]
  have hbecomes := hedit.becomes location
  rw [hscript] at hbecomes
  generalize hbefore : m.files.get? location = before at hbecomes
  generalize hafter : some (Entry.file id (.program script)) = after at hbecomes
  cases hbecomes with
  | same =>
      rw [← hafter] at hbefore
      exact h location id script hbefore
  | directory => cases hafter
  | overwritten _ content => cases content <;> cases hafter
  | added => cases hafter

theorem Quiet.of_edits {licence : Licence} (h : m.Quiet) (hedits : Edits licence m m') :
    m'.Quiet := by
  induction hedits with
  | refl => exact h
  | tail _ hedit ih => exact ih.of_edit hedit

/-! ### Programs -/

theorem childOf_ok {launch : Launch} {child : Machine} (h : m.childOf launch = .ok child) :
    child = { m with cwd := child.cwd } := by
  unfold childOf at h
  split at h
  · obtain rfl := Except.ok.inj h
    rfl
  · obtain ⟨⟨place, entry⟩, -, h⟩ := bind_ok_iff.mp h
    dsimp only at h
    split at h
    · obtain rfl := ok_iff_pure.mp h
      rfl
    · cases h

/-- Where a child starts can be read off the directory of its launch. -/
theorem childOf_spot {launch : Launch} {child : Machine} (h : m.childOf launch = .ok child) :
    child.cwd.spot = launch.startFrom m.cwd := by
  unfold childOf at h
  unfold Launch.startFrom
  split at h
  · next hnone =>
    obtain rfl := Except.ok.inj h
    rw [hnone]
    rfl
  · next directory hsome =>
    obtain ⟨⟨place, entry⟩, hfind, h⟩ := bind_ok_iff.mp h
    dsimp only at h
    split at h
    · obtain rfl := ok_iff_pure.mp h
      rw [hsome]
      exact locate_spot (find_ok hfind).1
    · cases h

theorem programAt_ok {p : Path} {program : Location} {script : Script}
    (h : m.programAt p = .ok (program, script)) :
    ∃ id, m.files.get? program = some (.file id (.program script)) := by
  obtain ⟨⟨place, entry⟩, hfind, h⟩ := bind_ok_iff.mp h
  obtain ⟨-, hentry⟩ := find_ok hfind
  split at h
  · next id found heq =>
    obtain ⟨rfl, rfl⟩ := Prod.mk.inj (ok_iff_pure.mp h)
    obtain ⟨rfl, rfl⟩ := Prod.mk.inj heq
    unfold entryAt? at hentry
    split at hentry
    · cases hentry
    · exact ⟨id, hentry⟩
  · cases h
  · cases h

/-- By induction on the directories: what a search gives was found in one of them. -/
theorem search_ok {name : Bytes} {denied : Bool} {last : SystemError} {directories : List Path}
    {program : Location} {script : Script}
    (h : m.search name denied last directories = .ok (program, script)) :
    ∃ id, m.files.get? program = some (.file id (.program script)) := by
  induction directories generalizing denied last with
  | nil => cases h
  | cons directory rest ih =>
      rw [search] at h
      split at h
      · next hfound =>
        obtain rfl := Except.ok.inj h
        exact programAt_ok hfound
      · split at h
        · exact ih h
        · split at h
          · exact ih h
          · cases h

/-- Whatever way the program was named, there is a file that holds it. -/
theorem executable_ok {launch : Launch} {program : Location} {script : Script}
    (h : m.executable launch = .ok (program, script)) :
    ∃ id, m.files.get? program = some (.file id (.program script)) := by
  unfold executable at h
  dsimp only at h
  split at h
  · obtain ⟨_, hthrow, -⟩ := bind_ok_iff.mp h
    cases hthrow
  · obtain ⟨child, hchild, h⟩ := bind_ok_iff.mp h
    have hfiles : child.files = m.files := by rw [childOf_ok hchild]
    unfold resolveProgram at h
    rw [← hfiles]
    split at h
    · cases h
    · split at h
      · exact programAt_ok h
      · exact search_ok h

/-! ### Starting -/

/-- Starting a program changes the files alone. -/
theorem spawn_eq (m : Machine) (launch : Launch) :
    (m.spawn launch).2 = { m with files := (m.spawn launch).2.files } := by
  unfold spawn
  split <;> rfl

/-- **Starting a program that leaves the files alone changes nothing.** -/
theorem Quiet.spawn (h : m.Quiet) (launch : Launch) : (m.spawn launch).2 = m := by
  unfold Machine.spawn
  split
  · next program script child hprogram hchild =>
    obtain ⟨id, hscript⟩ := executable_ok hprogram
    have hidle : (child.perform program script launch.arguments).deeds = [] := by
      have hbehavior : child.behavior = m.behavior := by rw [childOf_ok hchild]
      rw [perform, hbehavior]
      exact h program id script hscript _ _
    have hfiles : child.files = m.files := by rw [childOf_ok hchild]
    dsimp only
    rw [hidle, afterAll, List.foldl_nil, hfiles]
  · rfl
  · rfl

end Machine

end NativeExtension
