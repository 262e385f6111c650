import NativeExtension.Proofs.Machine.Programs

/-!
# NativeExtension.Proofs.Machine.Listing

**What a directory lists, and what lies in it.** A directory lists the names of what lies in it
(`FileTree.mem_names_iff`), and each of these leads one step further (`Machine.find_join`). A file
more or less in a directory matters to nobody who does not ask for it by its name: every directory
is found as before (`KeepsDirectories.find`), and so is what lies beside the file
(`FileTree.DifferAt.findBelow_eq`). In which order the entries of a tree are kept matters only to
the order of what is listed (`Machine.list_relisted`).
-/

namespace NativeExtension

/-- The names in a directory are those of what lies in it. -/
theorem FileTree.mem_names_iff {tree : FileTree} {name : Bytes} {location : Location} :
    name ∈ tree.names location ↔ (tree.get? (name :: location)).isSome = true := by
  constructor
  · intro h
    obtain ⟨⟨other, entry⟩, hmem, hname⟩ := List.mem_filterMap.mp h
    have hother : other = name :: location := by
      cases other with
      | nil => cases hname
      | cons first parent =>
          dsimp only at hname
          split at hname
          · next hparent => rw [Option.some.inj hname, hparent]
          · cases hname
    rw [Option.isSome_iff_ne_none]
    intro hnone
    have hdiffers := List.lookup_eq_none_iff.mp hnone _ hmem
    simp [hother] at hdiffers
  · intro h
    obtain ⟨entry, hentry⟩ := Option.isSome_iff_exists.mp h
    obtain ⟨before, after, hentries, -⟩ := List.lookup_eq_some_iff.mp hentry
    refine List.mem_filterMap.mpr ⟨(name :: location, entry), ?_, by simp⟩
    rw [hentries]
    simp

/-- No name in the tree holds a slash. -/
def FileTree.Slashless (tree : FileTree) : Prop :=
  ∀ name location, (tree.get? (name :: location)).isSome = true → slash ∉ name

theorem FileTree.slashless_of_entries {tree : FileTree}
    (h : ∀ e ∈ tree.entries, ∀ name ∈ e.1, slash ∉ name) : tree.Slashless := by
  intro name location hthere
  obtain ⟨entry, hentry⟩ := Option.isSome_iff_exists.mp hthere
  obtain ⟨before, after, hentries, -⟩ := List.lookup_eq_some_iff.mp hentry
  exact h (name :: location, entry) (by simp [hentries]) name List.mem_cons_self

/-- Where no location is held twice, what is looked up is what is held. -/
theorem lookup_eq_some_iff_mem {entries : List (Location × Entry)}
    (h : (entries.map Prod.fst).Nodup) {location : Location} {entry : Entry} :
    entries.lookup location = some entry ↔ (location, entry) ∈ entries := by
  rw [List.lookup_eq_some_iff]
  constructor
  · rintro ⟨before, after, rfl, -⟩
    simp
  · intro hmem
    obtain ⟨before, after, rfl⟩ := List.append_of_mem hmem
    rw [List.map_append, List.map_cons] at h
    have hnotMem := (List.nodup_cons.mp (List.perm_middle.nodup_iff.mp h)).1
    refine ⟨before, after, rfl, fun e he => ?_⟩
    refine bne_iff_ne.mpr fun heq => hnotMem ?_
    exact List.mem_append_left _ (List.mem_map.mpr ⟨e, he, heq.symm⟩)

/-- The order in which a tree keeps its entries does not matter then. -/
theorem FileTree.get?_of_perm {tree tree' : FileTree} (h : tree'.entries.Perm tree.entries)
    (hnodup : (tree.entries.map Prod.fst).Nodup) (location : Location) :
    tree'.get? location = tree.get? location := by
  have hnodup' : (tree'.entries.map Prod.fst).Nodup := (h.map Prod.fst).nodup_iff.mpr hnodup
  cases location with
  | nil => rfl
  | cons name directory =>
      ext entry
      rw [get?, get?, lookup_eq_some_iff_mem hnodup', lookup_eq_some_iff_mem hnodup]
      exact h.mem_iff

/-! ### One step below a directory -/

namespace Machine

variable {m : Machine} {p : Path} {here : Place} {fixed : Bool}

/-- What a name leads to from a place. -/
def findBelow (m : Machine) (here : Place) (file : Bytes) : Except SystemError (Place × Entry) := do
  let there ← m.stepFrom here file
  match m.entryAt? there with
  | some entry => return (there, entry)
  | none => throw .missing

/-- Behind the path of a directory a name leads where it leads from there. -/
theorem find_join {file : Bytes} (hfile : slash ∉ file)
    (h : m.find p = .ok (here, .directory fixed)) :
    m.find (p.join ⟨file⟩) =
      (checkPath (p.join ⟨file⟩) >>= fun _ => m.findBelow here file) := by
  obtain ⟨hlocate, hdirectory⟩ := find_ok h
  obtain ⟨_, hcheck, hown⟩ := bind_ok_iff.mp hlocate
  have hne : p.bytes ≠ [] := by
    intro hnil
    simp [checkPath, Path.isEmpty, hnil] at hcheck
  obtain ⟨pieces, hjoined, hpieces⟩ := pieces_join hfile hne
  have hfollow : m.follow (m.startOf p) pieces = .ok here := by
    rcases hpieces with hpieces | hpieces
    · rwa [hpieces] at hown
    · -- an empty piece at the end leads nowhere else
      rw [hpieces, follow_append] at hown
      obtain ⟨place, hplace, hstep⟩ := bind_ok_iff.mp hown
      obtain ⟨next, hnext, hthere⟩ := bind_ok_iff.mp hstep
      obtain rfl := Except.ok.inj hthere
      obtain ⟨other, hother⟩ := stepFrom_ok hnext
      rw [stepFrom_nil hother] at hnext
      rw [hplace, ← Except.ok.inj hnext]
  unfold find locate findBelow
  rw [startOf_join hfile hne, hjoined, follow_append, hfollow]
  cases checkPath (p.join ⟨file⟩) with
  | error cause => rfl
  | ok _ =>
      dsimp only [bind, Except.bind, follow]
      cases m.stepFrom here file <;> rfl

/-- What a directory that is found lists. -/
theorem list_of_find (h : m.find p = .ok (here, .directory fixed)) :
    m.list p = .ok (if here.isRemoved then [] else m.files.names here.location) := by
  unfold list
  rw [h]
  dsimp only [bind, Except.bind, Entry.isDirectory]
  cases here.isRemoved <;> rfl

/-! ### The order of the entries -/

/-- A machine whose tree keeps the same entries in another order finds the same. -/
theorem find_relisted {tree : FileTree}
    (h : ∀ location, tree.get? location = m.files.get? location) (p : Path) :
    ({ m with files := tree } : Machine).find p = m.find p := by
  have hentry : ∀ place,
      ({ m with files := tree } : Machine).entryAt? place = m.entryAt? place := by
    intro place
    rw [entryAt?, entryAt?, h]
  have hstep : ∀ here piece,
      ({ m with files := tree } : Machine).stepFrom here piece = m.stepFrom here piece := by
    intro here piece
    rw [stepFrom, stepFrom, hentry, h]
  have hfollow : ∀ pieces here,
      ({ m with files := tree } : Machine).follow here pieces = m.follow here pieces := by
    intro pieces
    induction pieces with
    | nil => exact fun _ => rfl
    | cons piece rest ih => simp only [follow, hstep, ih, implies_true]
  have hlocate : ({ m with files := tree } : Machine).locate p = m.locate p := by
    rw [locate, locate, hfollow]
    rfl
  unfold find
  simp only [hlocate, hentry]

/-- What is listed differs at most in its order. -/
theorem list_relisted {tree : FileTree}
    (h : ∀ location, tree.get? location = m.files.get? location) (p : Path) :
    SameOutcome Eq (fun names names' => ∀ file, file ∈ names' ↔ file ∈ names)
      (m.list p) (({ m with files := tree } : Machine).list p) := by
  unfold list
  rw [find_relisted h]
  cases m.find p with
  | error cause => exact .error rfl
  | ok found =>
      obtain ⟨place, entry⟩ := found
      dsimp only [bind, Except.bind]
      cases entry.isDirectory with
      | false => exact .error rfl
      | true =>
          cases place.isRemoved with
          | true => exact .ok fun _ => Iff.rfl
          | false =>
              refine .ok fun file => ?_
              rw [FileTree.mem_names_iff, FileTree.mem_names_iff, h]

end Machine

/-! ### A file more or less -/

/-- What is a directory on the first machine is one on the second. -/
structure KeepsDirectories (m m' : Machine) : Prop where
  cwd : m'.cwd = m.cwd
  kept : ∀ location fixed, m.files.get? location = some (.directory fixed) →
    m'.files.get? location = some (.directory fixed)

namespace KeepsDirectories

variable {m m' : Machine} {here there : Place} {fixed : Bool}

theorem entryAt? (h : KeepsDirectories m m')
    (hhere : m.entryAt? here = some (.directory fixed)) :
    m'.entryAt? here = some (.directory fixed) := by
  unfold Machine.entryAt? at hhere ⊢
  split at hhere
  · next hremoved => rwa [if_pos hremoved]
  · next hthere =>
    rw [if_neg hthere]
    exact h.kept _ _ hhere

theorem stepFrom (h : KeepsDirectories m m') {piece : Bytes}
    (hstep : m.stepFrom here piece = .ok there)
    (hthere : m.entryAt? there = some (.directory fixed)) :
    m'.stepFrom here piece = .ok there := by
  obtain ⟨⟨_, hhere⟩, hsteps⟩ := Machine.stepFrom_ok_iff.mp hstep
  refine Machine.stepFrom_ok_iff.mpr ⟨⟨_, h.entryAt? hhere⟩, ?_⟩
  cases hsteps with
  | stays hstays => exact .stays hstays
  | up => exact .up
  | down hne hdot hname hkept hshort _ =>
      have hlocation : m'.files.get? (piece :: here.location) = some (.directory fixed) :=
        h.kept _ _ hthere
      exact .down hne hdot hname hkept hshort (by rw [hlocation]; rfl)

/-- By induction on the pieces. All that the way passes are directories, and these are kept.
-/
theorem follow (h : KeepsDirectories m m') {pieces : List Bytes}
    (hfollow : m.follow here pieces = .ok there)
    (hthere : m.entryAt? there = some (.directory fixed)) :
    m'.follow here pieces = .ok there := by
  induction pieces generalizing here with
  | nil => exact hfollow
  | cons piece rest ih =>
      obtain ⟨next, hnext, hrest⟩ := bind_ok_iff.mp hfollow
      -- the way leads on from there, or ends there
      have hdirectory : ∃ fixed, m.entryAt? next = some (.directory fixed) := by
        cases rest with
        | nil =>
            obtain rfl := Except.ok.inj hrest
            exact ⟨fixed, hthere⟩
        | cons piece' rest' =>
            obtain ⟨_, hstep, -⟩ := bind_ok_iff.mp hrest
            exact Machine.stepFrom_ok hstep
      obtain ⟨_, hdirectory⟩ := hdirectory
      exact bind_ok_iff.mpr ⟨next, h.stepFrom hnext hdirectory, ih hrest⟩

/-- Every directory is found on the second machine as on the first. -/
theorem find (h : KeepsDirectories m m') {p : Path}
    (hfind : m.find p = .ok (there, .directory fixed)) :
    m'.find p = .ok (there, .directory fixed) := by
  obtain ⟨hlocate, hthere⟩ := Machine.find_ok hfind
  obtain ⟨_, hcheck, hfollow⟩ := bind_ok_iff.mp hlocate
  have hstart : m'.startOf p = m.startOf p := by
    rw [Machine.startOf, Machine.startOf, h.cwd]
  have hlocate' : m'.locate p = .ok there := by
    refine bind_ok_iff.mpr ⟨_, hcheck, ?_⟩
    rw [hstart]
    exact h.follow hfollow hthere
  refine bind_ok_iff.mpr ⟨there, hlocate', ?_⟩
  rw [h.entryAt? hthere]
  rfl

end KeepsDirectories

/-- The trees differ at most at the location, and the first has no directory there. -/
structure FileTree.DifferAt (location : Location) (tree tree' : FileTree) : Prop where
  elsewhere : ∀ other, other ≠ location → tree'.get? other = tree.get? other
  noDirectory : ∀ fixed, tree.get? location ≠ some (.directory fixed)

namespace FileTree.DifferAt

variable {m : Machine} {tree : FileTree} {here : Place} {file : Bytes}

theorem keepsDirectories {location : Location} (h : DifferAt location m.files tree) :
    KeepsDirectories m { m with files := tree } := by
  refine ⟨rfl, ?_⟩
  intro other fixed hdirectory
  have hother : other ≠ location := by
    rintro rfl
    exact h.noDirectory fixed hdirectory
  exact (h.elsewhere other hother).trans hdirectory

/-- Another name leads where it led. -/
theorem findBelow_eq (h : DifferAt (file :: here.location) m.files tree) {fixed : Bool}
    (hhere : m.entryAt? here = some (.directory fixed)) {other : Bytes} (hother : other ≠ file) :
    ({ m with files := tree } : Machine).findBelow here other = m.findBelow here other := by
  have hstep : ({ m with files := tree } : Machine).stepFrom here other =
      m.stepFrom here other := by
    unfold Machine.stepFrom
    have hlocation : other :: here.location ≠ file :: here.location :=
      fun heq => hother (List.cons.inj heq).1
    rw [h.keepsDirectories.entryAt? hhere, hhere, h.elsewhere _ hlocation]
  unfold Machine.findBelow
  rw [hstep]
  cases hthere : m.stepFrom here other with
  | error cause => rfl
  | ok there =>
      have hplace : there.location ≠ file :: here.location := by
        intro heq
        have hsuffix := (Machine.stepFrom_ok_iff.mp hthere).2.location_suffix
        rw [heq] at hsuffix
        exact hother (List.cons.inj (hsuffix.eq_of_length rfl)).1.symm
      have hentry : ({ m with files := tree } : Machine).entryAt? there = m.entryAt? there := by
        unfold Machine.entryAt?
        rw [h.elsewhere _ hplace]
      dsimp only [bind, Except.bind]
      rw [hentry]

end FileTree.DifferAt

/-- The file that was added is removed. -/
theorem FileTree.addFile_differAt (tree : FileTree) {location : Location}
    (hproper : location ≠ []) (content : Content) :
    DifferAt location (tree.addFile location content) tree where
  elsewhere _ hother := (get?_addFile_of_ne tree hother content).symm
  noDirectory fixed hdirectory := by
    rw [get?_addFile_self tree hproper] at hdirectory
    cases hdirectory

end NativeExtension
