import NativeExtension.Proofs.Machine.Quiet
import NativeExtension.Proofs.Machine.Writing

/-!
# NativeExtension.Proofs.Machine.Programs

**Which program a name stands for once files have changed.** Programs only make and write files,
as the session does that starts them: whatever they do is a row of edits (`edits_spawn`), and
edits bring in no program (`Edits.runnable_before`). So a path at which a program was found leads
to it as long as its file is kept (`programAt_of_edits`), and a search that found it along
absolute paths does not end in nothing (`search_ne_missing`). It finds the same program
again if the paths are direct, on a tree in which every entry lies in a directory
(`Found.of_edits`): a path that leads up again, or that holds a name too long to be looked for,
may mean something else as soon as a directory on its way has been made.
-/

namespace NativeExtension

/-! ### All that programs do is edits -/

/-- To make any directory, and to write anything anywhere. -/
def Licence.any : Licence where
  directory := fun _ => True
  file := fun _ _ => True

theorem Licence.within_any (licence : Licence) : licence.Within .any :=
  ⟨fun _ _ => trivial, fun _ _ _ => trivial⟩

section Edits

variable {licence : Licence} {m m' : Machine}

/-- An edit does not depend on where the machine is. -/
theorem Edit.atPlace (h : Edit licence m m') (place : Place) :
    Edit licence { m with cwd := place } { m' with cwd := place } := by
  cases h with
  | directory hallowed hproper hfree => exact .directory hallowed hproper hfree
  | overwritten hallowed hproper hfile => exact .overwritten hallowed hproper hfile
  | added hallowed hproper hfree => exact .added hallowed hproper hfree

theorem Edits.atPlace (h : Edits licence m m') (place : Place) :
    Edits licence { m with cwd := place } { m' with cwd := place } := by
  induction h with
  | refl => exact Edits.refl _ _
  | tail _ hedit ih => exact ih.trans (Edits.of_edit (hedit.atPlace place))

end Edits

theorem Entry.SameThing.trans {a b c : Entry} (h : a.SameThing b) (h' : b.SameThing c) :
    a.SameThing c := by
  cases h <;> cases h'
  · exact .directory _
  · exact .file _ _ _
  · exact .device

theorem Grows.refl (m : Machine) : Grows m m := ⟨rfl, fun _ entry h => ⟨entry, h, .refl entry⟩⟩

theorem Grows.trans {m m' m'' : Machine} (h : Grows m m') (h' : Grows m' m'') : Grows m m'' := by
  refine ⟨h'.cwd.trans h.cwd, ?_⟩
  intro location entry hentry
  obtain ⟨middle, hmiddle, hsame⟩ := h.there location entry hentry
  obtain ⟨entry', hentry', hsame'⟩ := h'.there location middle hmiddle
  exact ⟨entry', hentry', hsame.trans hsame'⟩

theorem Edits.grows {licence : Licence} {m m' : Machine} (h : Edits licence m m') : Grows m m' := by
  induction h with
  | refl => exact Grows.refl _
  | tail _ hedit ih => exact ih.trans hedit.grows

/-- To do what a program's deed does from where the program runs. -/
def Deed.licence (program : Location) (here : Place) : Deed → Licence
  | .record _ =>
    { directory := fun _ => False
      file := fun location _ => location = Machine.callRecord program }
  | .makeDir p => .toMake here p
  | .write p bytes => .toWrite here p bytes

namespace Machine

theorem ne_nil_of_get? {tree : FileTree} {location : Location}
    (h : tree.get? location ≠ some (.directory false)) : location ≠ [] := by
  rintro rfl
  exact h rfl

section Effects

variable {licence : Licence} (m : Machine)

theorem edits_recordCall (program : Location) (line : Bytes) :
    Edits (Deed.licence program m.cwd (.record line)) m
      { m with files := recordCall m.files program line } := by
  unfold recordCall
  dsimp only
  split
  · next hfree =>
    exact Edits.of_edit (.added rfl (ne_nil_of_get? (by rw [hfree]; nofun)) hfree)
  · next id content hfile =>
    split
    · exact Edits.of_edit (.overwritten rfl (ne_nil_of_get? (by rw [hfile]; nofun)) hfile)
    · exact Edits.refl _ _
  · exact Edits.refl _ _

/-- A deed is one edit at most; one that cannot be done is none. -/
theorem edits_after (program : Location) (deed : Deed) :
    Edits (deed.licence program m.cwd) m (m.after program deed) := by
  cases deed with
  | record line => exact m.edits_recordCall program line
  | makeDir p =>
      rw [after]
      cases hmade : m.createDir p with
      | error cause => exact Edits.refl _ _
      | ok made => exact Edits.of_edit (edit_createDir hmade)
  | write p bytes =>
      rw [after]
      cases hwritten : m.write p bytes with
      | error cause => exact Edits.refl _ _
      | ok written =>
          rcases (write_ok hwritten).1 with rfl | hedit
          · exact Edits.refl _ _
          · exact Edits.of_edit hedit

/-- By induction on the deeds. Each is read in the directory in which the run started, for no
deed leads out of it. -/
theorem edits_afterAll {program : Location} {deeds : List Deed}
    (h : ∀ deed ∈ deeds, (deed.licence program m.cwd).Within licence) :
    Edits licence m (m.afterAll program deeds) := by
  induction deeds generalizing m with
  | nil => exact Edits.refl _ _
  | cons deed rest ih =>
      obtain ⟨hfirst, hrest⟩ := List.forall_mem_cons.mp h
      have hedits := (m.edits_after program deed).mono hfirst
      rw [← hedits.cwd_eq] at hrest
      exact hedits.trans (ih _ hrest)

/-- **What a program does that is started is a row of edits**, which the licence allows if it allows
each of its deeds. -/
theorem edits_spawn_within {launch : Launch}
    (h : ∀ program script child, m.executable launch = .ok (program, script) →
      m.childOf launch = .ok child →
      ∀ deed ∈ (child.perform program script launch.arguments).deeds,
        (deed.licence program child.cwd).Within licence) :
    Edits licence m (m.spawn launch).2 := by
  unfold spawn
  split
  · next program script child hexecutable hchild =>
    have hedits := (child.edits_afterAll (h program script child hexecutable hchild)).atPlace m.cwd
    have hback : ({ child with cwd := m.cwd } : Machine) = m := by rw [childOf_ok hchild]
    have hafter : ∀ done : Machine, Edits licence child done →
        ({ done with cwd := m.cwd } : Machine) = { m with files := done.files } := by
      intro done hdone
      rw [hdone.machine_eq, childOf_ok hchild]
    rw [hback, hafter _ (child.edits_afterAll (h program script child hexecutable hchild))] at hedits
    exact hedits
  · exact Edits.refl _ _
  · exact Edits.refl _ _

theorem edits_spawn (launch : Launch) : Edits .any m (m.spawn launch).2 :=
  m.edits_spawn_within fun _ _ _ _ _ _ _ => Licence.within_any _

end Effects

end Machine

/-! ### Where programs come from -/

/-- Does the file count as a program, though it may hold none any more? -/
def Content.isRunnable : Content → Bool
  | .program _ | .formerProgram _ => true
  | .data _ | .library _ => false

/-- **Edits bring in no program**: what can be run was there before and could be run, and a program
is the one that it was. -/
theorem Edits.runnable_before {licence : Licence} {m m' : Machine} (h : Edits licence m m')
    {location : Location} {id : Nat} {content : Content}
    (hthere : m'.files.get? location = some (.file id content))
    (hrunnable : content.isRunnable = true) :
    ∃ before, m.files.get? location = some (.file id before) ∧ before.isRunnable = true ∧
      ∀ script, content = .program script → before = .program script := by
  induction h generalizing content with
  | refl => exact ⟨content, hthere, hrunnable, fun _ h => h⟩
  | @tail middle last _ hedit ih =>
      have hbecomes := hedit.becomes location
      rw [hthere] at hbecomes
      generalize hbefore : middle.files.get? location = before at hbecomes
      generalize hafter : some (Entry.file id content) = after at hbecomes
      cases hbecomes with
      | same =>
          rw [← hafter] at hbefore
          exact ih hbefore hrunnable
      | directory => cases hafter
      | overwritten _ earlier =>
          -- what is written over a program is no program
          obtain ⟨rfl, rfl⟩ := Entry.file.inj (Option.some.inj hafter)
          have hearlier : earlier.isRunnable = true := by
            cases earlier <;> first | rfl | cases hrunnable
          obtain ⟨first, hfirst, hran, -⟩ := ih hbefore hearlier
          refine ⟨first, hfirst, hran, ?_⟩
          intro script hscript
          cases earlier <;> cases hscript
      | added =>
          obtain ⟨-, rfl⟩ := Entry.file.inj (Option.some.inj hafter)
          cases hrunnable

/-! ### Trees whose entries lie in directories -/

/-- Every entry lies in a directory. -/
def FileTree.Grounded (tree : FileTree) : Prop :=
  ∀ name directory entry, tree.get? (name :: directory) = some entry →
    ∃ fixed, tree.get? directory = some (.directory fixed)

namespace FileTree

variable {tree : FileTree}

/-- All above an entry are directories. -/
theorem Grounded.above (h : tree.Grounded) {location above : Location} {entry : Entry}
    (hentry : tree.get? location = some entry) (habove : above <:+ location) :
    above = location ∨ ∃ fixed, tree.get? above = some (.directory fixed) := by
  induction location generalizing entry with
  | nil => exact Or.inl (List.suffix_nil.mp habove)
  | cons name directory ih =>
      rcases List.suffix_cons_iff.mp habove with rfl | habove
      · exact Or.inl rfl
      · obtain ⟨fixed, hdirectory⟩ := h name directory entry hentry
        rcases ih hdirectory habove with rfl | hmore
        · exact Or.inr ⟨fixed, hdirectory⟩
        · exact Or.inr hmore

end FileTree

/-! ### Following paths down -/

/-- The path starts at the root, never leads up, and holds no name that is too long. -/
structure Path.IsDirect (p : Path) : Prop where
  absolute : p.isAbsolute = true
  down : [dot, dot] ∉ p.pieces
  short : ∀ piece ∈ p.pieces, piece.length ≤ Machine.longestName

instance (p : Path) : Decidable p.IsDirect :=
  decidable_of_iff (p.isAbsolute = true ∧ [dot, dot] ∉ p.pieces ∧
      ∀ piece ∈ p.pieces, piece.length ≤ Machine.longestName)
    ⟨fun ⟨habsolute, hdown, hshort⟩ => ⟨habsolute, hdown, hshort⟩,
      fun h => ⟨h.absolute, h.down, h.short⟩⟩

namespace Machine

variable {m m' : Machine} {here there : Place} {pieces : List Bytes}

/-- A piece that does not lead up stays or leads down. -/
theorem stepFrom_down {piece : Bytes} (hdown : piece ≠ [dot, dot])
    (h : m.stepFrom here piece = .ok there) :
    there = here ∨ here.removed = 0 ∧ there = ⟨piece :: here.location, 0⟩ := by
  cases (stepFrom_ok_iff.mp h).2 with
  | stays => exact Or.inl rfl
  | up => exact absurd rfl hdown
  | down _ _ _ hkept => exact Or.inr ⟨Place.removed_of_kept hkept, rfl⟩

/-- Without a step up a way stays in or below the directory in which it starts, and that is
not one that was removed. -/
theorem follow_down (hdown : [dot, dot] ∉ pieces) (hhere : here.removed = 0)
    (h : m.follow here pieces = .ok there) :
    there.removed = 0 ∧ here.location <:+ there.location := by
  induction pieces generalizing here with
  | nil =>
      obtain rfl := Except.ok.inj h
      exact ⟨hhere, List.suffix_refl _⟩
  | cons piece rest ih =>
      have hparts : piece ≠ [dot, dot] ∧ [dot, dot] ∉ rest := by
        simpa [eq_comm] using hdown
      obtain ⟨next, hnext, hrest⟩ := bind_ok_iff.mp h
      rcases stepFrom_down hparts.1 hnext with rfl | ⟨-, rfl⟩
      · exact ih hparts.2 hhere hrest
      · obtain ⟨hremoved, hsuffix⟩ := ih hparts.2 rfl hrest
        exact ⟨hremoved, (List.suffix_cons _ _).trans hsuffix⟩

/-- Two machines agree on a step from a directory of both to what is there on both. -/
theorem stepFrom_of_there {piece : Bytes} {fixed : Bool}
    (hdirectory : m.entryAt? here = some (.directory fixed))
    (hthere : (m.files.get? there.location).isSome = true)
    (h : m'.stepFrom here piece = .ok there) : m.stepFrom here piece = .ok there :=
  stepFrom_ok_iff.mpr ⟨⟨fixed, hdirectory⟩, (stepFrom_ok_iff.mp h).2.of_there fun _ => hthere⟩

/-- **A way down that leads to something was there before**, if something was there at its end. -/
theorem follow_before {licence : Licence} (hedits : Edits licence m m')
    (hgrounded : m.files.Grounded) (hdown : [dot, dot] ∉ pieces) (hhere : here.removed = 0)
    (h : m'.follow here pieces = .ok there) {entry : Entry}
    (hentry : m.files.get? there.location = some entry) : m.follow here pieces = .ok there := by
  induction pieces generalizing here with
  | nil => exact h
  | cons piece rest ih =>
      have hparts : piece ≠ [dot, dot] ∧ [dot, dot] ∉ rest := by
        simpa [eq_comm] using hdown
      obtain ⟨next, hnext, hrest⟩ := bind_ok_iff.mp h
      obtain ⟨-, hbelow⟩ := follow_down hdown hhere h
      -- all on the way down is above what was there
      have hthere : ∀ above, above <:+ there.location →
          (m.files.get? above).isSome = true := by
        intro above habove
        rcases hgrounded.above hentry habove with rfl | ⟨fixed, hdirectory⟩
        · rw [hentry]
          rfl
        · rw [hdirectory]
          rfl
      have hdirectory : ∃ fixed, m.entryAt? here = some (.directory fixed) := by
        obtain ⟨before, hbefore⟩ := Option.isSome_iff_exists.mp (hthere _ hbelow)
        have hplace : m.entryAt? here = some before := by
          rw [entryAt?, if_neg (by simp [Place.isRemoved, hhere]), hbefore]
        obtain ⟨after, hafter, hsame⟩ := hedits.grows.entryAt? hplace
        obtain ⟨fixed, hfixed⟩ := stepFrom_ok hnext
        obtain rfl := Option.some.inj (hafter.symm.trans hfixed)
        cases hsame
        exact ⟨_, hplace⟩
      obtain ⟨fixed, hfixed⟩ := hdirectory
      have hplace : next.removed = 0 := by
        rcases stepFrom_down hparts.1 hnext with rfl | ⟨-, rfl⟩
        · exact hhere
        · rfl
      have hbetween := (follow_down hparts.2 hplace hrest).2
      exact bind_ok_iff.mpr ⟨next, stepFrom_of_there hfixed (hthere _ hbetween) hnext,
        ih hparts.2 hplace hrest⟩

/-! ### Wherever the machine is -/

@[simp] theorem follow_atPlace (m : Machine) (place here : Place) (pieces : List Bytes) :
    ({ m with cwd := place } : Machine).follow here pieces = m.follow here pieces := by
  induction pieces generalizing here with
  | nil => rfl
  | cons piece rest ih =>
      rw [follow, follow]
      exact congrArg (m.stepFrom here piece >>= ·) (funext ih)

/-- An absolute path leads the same way wherever one stands. -/
theorem find_atPlace {p : Path} (h : p.isAbsolute = true) (m : Machine) (place : Place) :
    ({ m with cwd := place } : Machine).find p = m.find p := by
  have hlocate : ({ m with cwd := place } : Machine).locate p = m.locate p := by
    unfold locate startOf
    rw [if_pos h, if_pos h, follow_atPlace]
  unfold find
  rw [hlocate]
  rfl

/-- What is at an absolute path does not depend on where the machine is. -/
theorem programAt_atPlace {p : Path} (h : p.isAbsolute = true) (m : Machine) (place : Place) :
    ({ m with cwd := place } : Machine).programAt p = m.programAt p := by
  unfold programAt
  rw [find_atPlace h]

/-! ### What is found at a path -/

section At

variable {p : Path} {program : Location} {script : Script}

/-- A program was found exactly if a file is there and holds one. -/
theorem programAt_ok_iff : m.programAt p = .ok (program, script) ↔
    ∃ id, m.find p = .ok (⟨program, 0⟩, .file id (.program script)) := by
  constructor
  · intro h
    obtain ⟨⟨⟨location, removed⟩, entry⟩, hfind, h⟩ := bind_ok_iff.mp h
    obtain ⟨-, hentry⟩ := find_ok hfind
    split at h
    · next id found heq =>
      obtain ⟨rfl, rfl⟩ := Prod.mk.inj (ok_iff_pure.mp h)
      obtain ⟨rfl, rfl⟩ := Prod.mk.inj heq
      cases removed with
      | zero => exact ⟨id, hfind⟩
      | succ levels => cases hentry
    · cases h
    · cases h
  · rintro ⟨id, hfind⟩
    rw [programAt, hfind]
    rfl

/-- **A program is found again as long as its file is kept.** -/
theorem programAt_of_edits {licence : Licence} (hedits : Edits licence m m')
    (h : m.programAt p = .ok (program, script))
    (hkept : m'.files.get? program = m.files.get? program) :
    m'.programAt p = .ok (program, script) := by
  obtain ⟨id, hfind⟩ := programAt_ok_iff.mp h
  obtain ⟨entry', hfind', -⟩ := hedits.grows.find hfind
  have hbefore : m.files.get? program = some (.file id (.program script)) := (find_ok hfind).2
  have hafter : m'.files.get? program = some entry' := (find_ok hfind').2
  rw [hkept, hbefore] at hafter
  obtain rfl := Option.some.inj hafter
  exact programAt_ok_iff.mpr ⟨id, hfind'⟩

/-- A step fails in three ways, and one of them, a name that is too long, is ruled out. -/
theorem stepFrom_error {piece : Bytes} {cause : SystemError} (hshort : piece.length ≤ longestName)
    (h : m.stepFrom here piece = .error cause) : cause = .missing ∨ cause = .notDirectory := by
  unfold stepFrom at h
  rw [if_neg (Nat.not_lt.mpr hshort)] at h
  split at h
  · split at h
    · cases h
    · split at h
      · cases h
      · split at h
        · exact Or.inl (Except.error.inj h).symm
        · split at h
          · cases h
          · exact Or.inl (Except.error.inj h).symm
  · exact Or.inr (Except.error.inj h).symm
  · exact Or.inl (Except.error.inj h).symm

/-- By induction on the pieces: the first step that fails decides. -/
theorem follow_error {cause : SystemError}
    (hshort : ∀ piece ∈ pieces, piece.length ≤ longestName)
    (h : m.follow here pieces = .error cause) : cause = .missing ∨ cause = .notDirectory := by
  induction pieces generalizing here with
  | nil => cases h
  | cons piece rest ih =>
      obtain ⟨hpiece, hrest⟩ := List.forall_mem_cons.mp hshort
      rcases bind_error_iff.mp h with hstep | ⟨next, -, hlater⟩
      · exact stepFrom_error hpiece hstep
      · exact ih hrest hlater

end At

end Machine

/-- The system says this of a path that a search goes past. -/
def SystemError.IsPassed (cause : SystemError) : Prop :=
  cause = .denied ∨ cause = .missing ∨ cause = .notDirectory

namespace Machine

variable {m m' : Machine} {licence : Licence} {p : Path}

theorem locate_eq_of_isAbsolute (h : p.isAbsolute = true) (m : Machine) :
    m.locate p = checkPath p >>= fun _ => m.follow ⟨[], 0⟩ p.pieces := by
  rw [locate, startOf, if_pos h]

/-- A direct path that leads to something that can be run led there before. -/
theorem find_before (hedits : Edits licence m m') (hgrounded : m.files.Grounded)
    (hdirect : p.IsDirect) {place : Place} {id : Nat} {content : Content}
    (h : m'.find p = .ok (place, .file id content)) (hrunnable : content.isRunnable = true) :
    ∃ before, m.find p = .ok (place, .file id before) ∧ before.isRunnable = true := by
  obtain ⟨hlocate, hentry⟩ := find_ok h
  rw [locate_eq_of_isAbsolute hdirect.absolute] at hlocate
  obtain ⟨_, hcheck, hfollow⟩ := bind_ok_iff.mp hlocate
  obtain ⟨hremoved, -⟩ := follow_down hdirect.down rfl hfollow
  have hthere : place.isRemoved = false := by simp [Place.isRemoved, hremoved]
  rw [entryAt?, if_neg (by simp [hthere])] at hentry
  obtain ⟨before, hbefore, hran, -⟩ := hedits.runnable_before hentry hrunnable
  have hfollowed := follow_before hedits hgrounded hdirect.down rfl hfollow hbefore
  refine ⟨before, bind_ok_iff.mpr ⟨place, ?_, ?_⟩, hran⟩
  · rw [locate_eq_of_isAbsolute hdirect.absolute, hcheck]
    exact hfollowed
  · rw [entryAt?, if_neg (by simp [hthere]), hbefore]
    rfl

/-- **A search that went past a direct path goes past it still.** -/
theorem programAt_passed (hedits : Edits licence m m') (hgrounded : m.files.Grounded)
    (hdirect : p.IsDirect) {cause : SystemError} (h : m.programAt p = .error cause)
    (hcause : cause.IsPassed) :
    ∃ cause', m'.programAt p = .error cause' ∧ cause'.IsPassed := by
  cases hfind : m'.find p with
  | error cause' =>
      refine ⟨cause', by rw [programAt, hfind]; rfl, ?_⟩
      rcases bind_error_iff.mp hfind with hlocate | ⟨place, -, hentry⟩
      · rw [locate_eq_of_isAbsolute hdirect.absolute] at hlocate
        rcases bind_error_iff.mp hlocate with hcheck | ⟨_, -, hfollow⟩
        · -- what is no path at all was none before
          have hsame : m.programAt p = .error cause' := by
            rw [programAt, find, locate, hcheck]
            rfl
          obtain rfl := Except.error.inj (h.symm.trans hsame)
          exact hcause
        · exact Or.inr (follow_error hdirect.short hfollow)
      · split at hentry
        · cases hentry
        · exact Or.inr (Or.inl (Except.error.inj hentry).symm)
  | ok found =>
      obtain ⟨place, entry⟩ := found
      have hprogram : ∀ id content, entry = .file id content → content.isRunnable = false := by
        rintro id content rfl
        by_contra hrunnable
        obtain ⟨before, hbefore, hran⟩ := find_before hedits hgrounded hdirect hfind
          (by simpa using hrunnable)
        rw [programAt, hbefore] at h
        cases before with
        | program script => cases h
        | formerProgram bytes =>
            obtain rfl := Except.error.inj h
            rcases hcause with hdenied | hmissing | hdirectory
            · cases hdenied
            · cases hmissing
            · cases hdirectory
        | data bytes => cases hran
        | library library => cases hran
      refine ⟨.denied, ?_, Or.inl rfl⟩
      rw [programAt, hfind]
      cases entry with
      | directory fixed => rfl
      | device => rfl
      | file id content =>
          have hcontent := hprogram id content rfl
          cases content with
          | program script => cases hcontent
          | formerProgram bytes => cases hcontent
          | data bytes => rfl
          | library library => rfl

/-! ### Searching -/

/-- The program is the first that is found under the name, past paths at which none is. -/
inductive Found (m : Machine) (name : Bytes) (found : Location × Script) : List Path → Prop where
  | here {directory : Path} {rest : List Path}
      (h : m.programAt (candidate directory name) = .ok found) :
      Found m name found (directory :: rest)
  | later {directory : Path} {rest : List Path} {cause : SystemError}
      (h : m.programAt (candidate directory name) = .error cause) (hcause : cause.IsPassed)
      (hrest : Found m name found rest) : Found m name found (directory :: rest)

variable {name : Bytes} {found : Location × Script} {directories : List Path}

/-- One step of a search has three ends: a program, a cause that stops the search, or a cause
that it passes. All later facts on searches are read off this one. -/
theorem search_cons (m : Machine) (name : Bytes) (denied : Bool) (last : SystemError)
    (directory : Path) (rest : List Path) :
    (∃ found, m.programAt (candidate directory name) = .ok found ∧
      m.search name denied last (directory :: rest) = .ok found) ∨
    (∃ cause, m.programAt (candidate directory name) = .error cause ∧ ¬ cause.IsPassed ∧
      m.search name denied last (directory :: rest) = .error cause) ∨
    ∃ cause denied', m.programAt (candidate directory name) = .error cause ∧ cause.IsPassed ∧
      m.search name denied last (directory :: rest) = m.search name denied' cause rest := by
  cases hat : m.programAt (candidate directory name) with
  | ok found => exact Or.inl ⟨found, rfl, by rw [search, hat]⟩
  | error cause =>
      by_cases hdenied : cause = .denied
      · refine Or.inr (Or.inr ⟨cause, true, rfl, Or.inl hdenied, ?_⟩)
        rw [search, hat]
        exact if_pos hdenied
      · by_cases hnothing : cause = .missing ∨ cause = .notDirectory
        · refine Or.inr (Or.inr ⟨cause, denied, rfl, Or.inr hnothing, ?_⟩)
          rw [search, hat]
          exact (if_neg hdenied).trans (if_pos hnothing)
        · refine Or.inr (Or.inl ⟨cause, rfl, not_or.mpr ⟨hdenied, hnothing⟩, ?_⟩)
          rw [search, hat]
          exact (if_neg hdenied).trans (if_neg hnothing)

/-- What a search remembers of the causes that it passed plays no part in what it finds. -/
theorem search_ok_iff {denied : Bool} {last : SystemError} :
    m.search name denied last directories = .ok found ↔ Found m name found directories := by
  induction directories generalizing denied last with
  | nil => exact ⟨nofun, nofun⟩
  | cons directory rest ih =>
      rcases m.search_cons name denied last directory rest with
        ⟨first, hat, hsearch⟩ | ⟨cause, hat, hstops, hsearch⟩ |
          ⟨cause, denied', hat, hpassed, hsearch⟩ <;> rw [hsearch]
      · constructor
        · intro h
          obtain rfl := Except.ok.inj h
          exact .here hat
        · rintro (h | ⟨h, -, -⟩)
          · rw [← hat, h]
          · cases hat.symm.trans h
      · constructor
        · exact nofun
        · rintro (h | ⟨h, hcause, -⟩)
          · cases hat.symm.trans h
          · obtain rfl := Except.error.inj (hat.symm.trans h)
            exact absurd hcause hstops
      · rw [ih]
        constructor
        · exact fun hrest => .later hat hpassed hrest
        · rintro (h | ⟨-, -, hrest⟩)
          · cases hat.symm.trans h
          · exact hrest

theorem Found.mem (h : Found m name found directories) :
    ∃ directory ∈ directories, m.programAt (candidate directory name) = .ok found := by
  induction h with
  | here h => exact ⟨_, List.mem_cons_self, h⟩
  | later _ _ _ ih =>
      obtain ⟨directory, hmem, hat⟩ := ih
      exact ⟨directory, List.mem_cons_of_mem _ hmem, hat⟩

/-- A search that meets a program does not end in nothing. -/
theorem search_ne_missing {denied : Bool} {last : SystemError} {directory : Path}
    (hmem : directory ∈ directories)
    (hat : m.programAt (candidate directory name) = .ok found) :
    m.search name denied last directories ≠ .error .missing := by
  induction directories generalizing denied last with
  | nil => cases hmem
  | cons first rest ih =>
      rcases m.search_cons name denied last first rest with
        ⟨other, -, hsearch⟩ | ⟨cause, -, hstops, hsearch⟩ | ⟨cause, denied', hfirst, -, hsearch⟩ <;>
          rw [hsearch]
      · exact nofun
      · intro h
        obtain rfl := Except.error.inj h
        exact hstops (Or.inr (Or.inl rfl))
      · rcases List.mem_cons.mp hmem with rfl | hlater
        · cases hat.symm.trans hfirst
        · exact ih hlater

/-- **A search along direct paths finds the same program again** as long as its file is kept. -/
theorem Found.of_edits (h : Found m name found directories) (hedits : Edits licence m m')
    (hgrounded : m.files.Grounded)
    (hdirect : ∀ directory ∈ directories, (candidate directory name).IsDirect)
    (hkept : m'.files.get? found.1 = m.files.get? found.1) : Found m' name found directories := by
  induction h with
  | here h => exact .here (programAt_of_edits hedits h hkept)
  | later h hcause _ ih =>
      obtain ⟨hfirst, hrest⟩ := List.forall_mem_cons.mp hdirect
      obtain ⟨cause', h', hcause'⟩ := programAt_passed hedits hgrounded hfirst h hcause
      exact .later h' hcause' (ih hrest)

/-- Where the machine is does not matter for a search along absolute paths. -/
theorem search_atPlace {denied : Bool} {last : SystemError}
    (h : ∀ directory ∈ directories, (candidate directory name).isAbsolute = true) (m : Machine)
    (place : Place) : ({ m with cwd := place } : Machine).search name denied last directories =
      m.search name denied last directories := by
  induction directories generalizing denied last with
  | nil => rfl
  | cons directory rest ih =>
      obtain ⟨hfirst, hrest⟩ := List.forall_mem_cons.mp h
      rw [search, search, programAt_atPlace hfirst]
      simp only [ih hrest]

/-! ### Launches -/

theorem searchPath_congr (h : m'.env = m.env) : m'.searchPath = m.searchPath := by
  simp [searchPath, var?, h]

theorem resolveProgram_of_slash (m : Machine) {program : Bytes} (h : slash ∈ program) :
    m.resolveProgram program = m.programAt ⟨program⟩ := by
  rw [resolveProgram, if_neg (List.ne_nil_of_mem h), if_pos (by simpa using h)]

theorem resolveProgram_of_bare (m : Machine) {program : Bytes} (hne : program ≠ [])
    (h : slash ∉ program) :
    m.resolveProgram program = m.search program false .missing m.searchPath := by
  rw [resolveProgram, if_neg hne, if_neg (by simpa using h)]

/-- What is at a path from some place is where the path leads from there. -/
theorem spot_of_programAt (h : m.programAt p = .ok found) :
    found.1.map some = p.spotFrom m.cwd := by
  obtain ⟨id, hfind⟩ := programAt_ok_iff.mp h
  rw [← locate_spot (find_ok hfind).1, Place.spot_mk]

theorem executable_eq (m : Machine) (launch : Launch) : m.executable launch =
    if holdsZero launch then .error .zeroInData
    else m.childOf launch >>= fun child => child.resolveProgram launch.program := by
  unfold executable
  cases holdsZero launch <;> rfl

/-- Where a program is found there is a directory to run it in. -/
theorem childOf_of_executable {launch : Launch} (h : m.executable launch = .ok found) :
    ∃ child, m.childOf launch = .ok child := by
  rw [executable_eq] at h
  split at h
  · cases h
  · obtain ⟨child, hchild, -⟩ := bind_ok_iff.mp h
    exact ⟨child, hchild⟩

/-- A program is not started exactly if there is none, for the same reason. -/
theorem spawn_error_iff {launch : Launch} {cause : SystemError} :
    (m.spawn launch).1 = .error cause ↔ m.executable launch = .error cause := by
  unfold spawn
  cases hexecutable : m.executable launch with
  | error e => cases m.childOf launch <;> simp
  | ok program =>
      obtain ⟨child, hchild⟩ := childOf_of_executable hexecutable
      rw [hchild]
      exact ⟨nofun, nofun⟩

/-! ### The directory that holds a file -/

/-- The pieces of a path, but for an empty one at its end, stand in front of a name behind it. -/
theorem pieces_join {file : Bytes} (hfile : slash ∉ file) (hne : p.bytes ≠ []) :
    ∃ pieces, (p.join ⟨file⟩).pieces = pieces ++ [file] ∧
      (p.pieces = pieces ∨ p.pieces = pieces ++ [[]]) := by
  have hrelative : ¬ (⟨file⟩ : Path).isAbsolute = true := by
    simp [Path.isAbsolute_of_slashless hfile]
  have hlast := Text.fields_of_not_mem hfile
  by_cases hend : p.bytes.getLast? = some slash
  · obtain ⟨before, hbefore⟩ := List.getLast?_eq_some_iff.mp hend
    have hjoined : (p.join ⟨file⟩).bytes = before ++ slash :: file := by
      rw [Path.join, if_neg hrelative, if_pos (Or.inr hend), hbefore]
      simp
    refine ⟨Text.fields slash before, ?_, Or.inr ?_⟩
    · rw [Path.pieces, hjoined, Text.fields_append_separator, hlast]
    · rw [Path.pieces, hbefore, Text.fields_append_separator]
      rfl
  · have hjoined : (p.join ⟨file⟩).bytes = p.bytes ++ slash :: file := by
      rw [Path.join, if_neg hrelative, if_neg (by simp [hne, hend])]
    refine ⟨p.pieces, ?_, Or.inl rfl⟩
    rw [Path.pieces, hjoined, Text.fields_append_separator, hlast]
    rfl

theorem startOf_join {file : Bytes} (hfile : slash ∉ file) (hne : p.bytes ≠ []) :
    m.startOf (p.join ⟨file⟩) = m.startOf p := by
  obtain ⟨gap, -, hbytes⟩ := Path.join_of_relative p (Path.isAbsolute_of_slashless hfile)
  obtain ⟨b, rest, hcons⟩ := List.exists_cons_of_ne_nil hne
  simp [startOf, Path.isAbsolute, hbytes, hcons]

/-- What the system takes for a path it takes for one without the name at the end. -/
theorem checkPath_of_join {file : Bytes} (hfile : slash ∉ file) (hne : p.bytes ≠ [])
    (h : checkPath (p.join ⟨file⟩) = .ok ()) : checkPath p = .ok () := by
  obtain ⟨gap, -, hbytes⟩ := Path.join_of_relative p (Path.isAbsolute_of_slashless hfile)
  unfold checkPath at h
  rw [hbytes] at h
  split at h
  · cases h
  · next hzero =>
    split at h
    · cases h
    · split at h
      · cases h
      · next hlimit =>
        have hlength : ¬ pathLimit ≤ p.bytes.length := by
          simp only [List.length_append] at hlimit
          omega
        have hclean : ¬ p.bytes.contains 0 = true := fun hmem => hzero (by simp_all)
        rw [checkPath, if_neg hclean, if_neg (by simpa [Path.isEmpty] using hne), if_neg hlength]

/-- What is found by its name is found one step below the directory that holds it. -/
theorem step_of_join {file : Bytes} (hfile : slash ∉ file) (hne : p.bytes ≠ [])
    {found : Place × Entry} (h : m.find (p.join ⟨file⟩) = .ok found) :
    ∃ place fixed, m.find p = .ok (place, .directory fixed) ∧
      m.stepFrom place file = .ok found.1 := by
  obtain ⟨hlocate, -⟩ := find_ok h
  obtain ⟨_, hcheck, hfollow⟩ := bind_ok_iff.mp hlocate
  obtain ⟨pieces, hjoined, hown⟩ := pieces_join hfile hne
  rw [startOf_join hfile hne, hjoined, follow_append] at hfollow
  obtain ⟨place, hplace, hstep⟩ := bind_ok_iff.mp hfollow
  obtain ⟨next, hnext, hthere⟩ := bind_ok_iff.mp hstep
  obtain rfl : next = found.1 := Except.ok.inj hthere
  obtain ⟨fixed, hdirectory⟩ := stepFrom_ok hnext
  have hlocated : m.locate p = .ok place := by
    refine bind_ok_iff.mpr ⟨(), checkPath_of_join hfile hne hcheck, ?_⟩
    rcases hown with hown | hown
    · rw [hown]
      exact hplace
    · rw [hown, follow_append, hplace]
      exact bind_ok_iff.mpr ⟨place, rfl, bind_ok_iff.mpr ⟨place, stepFrom_nil hdirectory, rfl⟩⟩
  refine ⟨place, fixed, bind_ok_iff.mpr ⟨place, hlocated, ?_⟩, hnext⟩
  rw [hdirectory]
  rfl

/-- What holds an entry of that name is a directory. -/
theorem find_of_joinText {name : String} (hname : Path.IsName name) (hne : p.bytes ≠ [])
    {found : Place × Entry} (h : m.find (p.joinText name) = .ok found) :
    ∃ place fixed, m.find p = .ok (place, .directory fixed) := by
  obtain ⟨place, fixed, hfind, -⟩ := step_of_join hname.2.2.2 hne h
  exact ⟨place, fixed, hfind⟩

end Machine

end NativeExtension
