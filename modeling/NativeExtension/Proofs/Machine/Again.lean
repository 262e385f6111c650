import NativeExtension.Proofs.Machine.Twins

/-!
# NativeExtension.Proofs.Machine.Again

**Making a directory or writing a file once more changes nothing.** Whatever else was made in the
meantime, a directory that was made is there and need not be made (`createDirAll_again`), and bytes
that a file holds still can be written to it again and leave it as it is (`write_again`).
-/

namespace NativeExtension

namespace Grows

variable {m m' : Machine} {p : Path}

theorem isDirectory (h : Grows m m') (hdirectory : m.isDirectory p = true) :
    m'.isDirectory p = true := by
  unfold Machine.isDirectory at hdirectory ⊢
  cases hfind : m.find p with
  | error cause =>
      rw [hfind] at hdirectory
      cases hdirectory
  | ok found =>
      obtain ⟨place, entry⟩ := found
      rw [hfind] at hdirectory
      obtain ⟨entry', hfind', hsame⟩ := h.find hfind
      rw [hfind']
      cases hsame with
      | directory => rfl
      | file => cases hdirectory
      | device => cases hdirectory

/-- A path that ends below a directory ends there still, for the directory is the same one. -/
theorem target (h : Grows m m') {target : Machine.Target} (htarget : m.target p = .ok target) :
    m'.target p = .ok target := by
  obtain ⟨directory, hfollow, hdirectory, hends⟩ := Machine.target_ok htarget
  obtain ⟨_, hpath, -⟩ := bind_ok_iff.mp htarget
  obtain ⟨entry', hentry', hsame⟩ := h.entryAt? hdirectory
  cases hsame
  have hstart : m'.startOf p = m.startOf p := by
    rw [Machine.startOf, Machine.startOf, h.cwd]
  refine bind_ok_iff.mpr ⟨_, hpath, bind_ok_iff.mpr ⟨directory, ?_, ?_⟩⟩
  · rw [hstart]
    exact h.follow hfollow
  · rw [hentry']
    exact congrArg Except.ok hends.symm

end Grows

namespace Machine

variable {m m' made : Machine} {p : Path}

/-! ### Directories -/

/-- Who stands in a directory stays there for as long as no piece leads on. -/
theorem follow_empties {here : Place} {fixed : Bool}
    (hdirectory : m.entryAt? here = some (.directory fixed)) {pieces : List Bytes}
    (hempties : ∀ piece ∈ pieces, piece = []) : m.follow here pieces = .ok here := by
  induction pieces with
  | nil => rfl
  | cons piece rest ih =>
      obtain ⟨rfl, hrest⟩ := List.forall_mem_cons.mp hempties
      exact bind_ok_iff.mpr ⟨here, stepFrom_nil hdirectory, ih hrest⟩

/-- A directory that was made is there. -/
theorem isDirectory_of_createDir (h : m.createDir p = .ok made) : made.isDirectory p = true := by
  have hgrows := (edit_createDir h).grows
  obtain ⟨target, htarget, hname, hcheck, -, rfl⟩ := createDir_ok h
  obtain ⟨_, hpath, -⟩ := bind_ok_iff.mp htarget
  have hproper : target.location ≠ [] := by simp [Target.location]
  have hthere := FileTree.get?_set_self m.files hproper (.directory false)
  have hfollow := follow_target htarget hname hcheck hgrows (by rw [hthere]; rfl)
  obtain ⟨empties, hsplit, hempties⟩ := dropTrailing_append p.pieces
  have hplace : ({ m with files := m.files.set target.location (.directory false) } :
      Machine).entryAt? ⟨target.location, 0⟩ = some (.directory false) := hthere
  have hlocate : ({ m with files := m.files.set target.location (.directory false) } :
      Machine).locate p = .ok ⟨target.location, 0⟩ := by
    refine bind_ok_iff.mpr ⟨_, hpath, ?_⟩
    rw [hsplit, follow_append, hfollow]
    exact follow_empties hplace hempties
  rw [isDirectory, find, hlocate]
  dsimp only [bind, Except.bind]
  rw [hplace]
  rfl

/-- Where a path leads on through, there is a directory. -/
theorem directory_of_follow {here there : Place} {pieces : List Bytes} (hne : pieces ≠ [])
    (h : m.follow here pieces = .ok there) :
    ∃ fixed, m.entryAt? here = some (.directory fixed) := by
  cases pieces with
  | nil => exact absurd rfl hne
  | cons piece rest =>
      obtain ⟨next, hnext, -⟩ := bind_ok_iff.mp h
      exact stepFrom_ok hnext

/-- A name that leads on is short enough and there. -/
theorem stepFrom_isName {here there : Place} {target : Target} (hname : target.isName = true)
    (hplace : target.directory = here.location) (hremoved : target.removed = here.isRemoved)
    (h : m.stepFrom here target.piece = .ok there) :
    target.checkName = .ok () ∧ (m.files.get? target.location).isSome = true := by
  obtain ⟨hkept, hshort, hthere, -⟩ :=
    (stepFrom_ok_iff.mp h).2.of_name (Target.ofPiece?_of_isName hname)
  unfold Target.checkName Target.location
  rw [hremoved, hplace, if_neg (by simp [hkept]), if_neg (Nat.not_lt.mpr hshort)]
  exact ⟨rfl, hthere⟩

/-- Where a path leads to something, the name at its end is that of what is there. -/
theorem target_of_locate {place : Place} (h : m.locate p = .ok place) :
    ∃ target, m.target p = .ok target ∧ (target.isName = true →
      target.checkName = .ok () ∧ (m.files.get? target.location).isSome = true) := by
  obtain ⟨_, hpath, hfollow⟩ := bind_ok_iff.mp h
  have hends : ∀ rest, rest ≠ [] → p.pieces = (dropTrailing p.pieces).dropLast ++ rest →
      ∃ directory target, m.target p = .ok target ∧ target.directory = directory.location ∧
        target.removed = directory.isRemoved ∧
        target.piece = (dropTrailing p.pieces).getLast?.getD [] ∧
        m.follow directory rest = .ok place := by
    intro rest hne hpieces
    rw [hpieces, follow_append] at hfollow
    obtain ⟨directory, hfirst, hrest⟩ := bind_ok_iff.mp hfollow
    obtain ⟨fixed, hdirectory⟩ := directory_of_follow hne hrest
    have htarget : m.target p = .ok
        { directory := directory.location
          removed := directory.isRemoved
          fixed := fixed
          piece := (dropTrailing p.pieces).getLast?.getD []
          trailingSlash := p.bytes.getLast? = some slash } := by
      refine bind_ok_iff.mpr ⟨_, hpath, bind_ok_iff.mpr ⟨directory, hfirst, ?_⟩⟩
      rw [hdirectory]
      rfl
    exact ⟨directory, _, htarget, rfl, rfl, rfl, hrest⟩
  obtain ⟨empties, hsplit, -⟩ := dropTrailing_append p.pieces
  rcases List.eq_nil_or_concat (dropTrailing p.pieces) with hnil | ⟨first, last, hconcat⟩
  · -- nothing but slashes and dots: there is no name
    obtain ⟨directory, target, htarget, -, -, hpiece, -⟩ :=
      hends p.pieces (Text.fields_ne_nil _ _) (by simp [hnil])
    refine ⟨target, htarget, fun hname => ?_⟩
    simp [Target.isName, hpiece, hnil] at hname
  · rw [List.concat_eq_append] at hconcat
    obtain ⟨directory, target, htarget, hplace, hremoved, hpiece, hrest⟩ :=
      hends (last :: empties) (List.cons_ne_nil _ _)
        (by rw [hconcat, List.dropLast_concat]; simpa [hconcat] using hsplit)
    obtain ⟨next, hstep, -⟩ := bind_ok_iff.mp hrest
    have hlast : target.piece = last := by simp [hpiece, hconcat]
    rw [← hlast] at hstep
    exact ⟨target, htarget, fun hname => stepFrom_isName hname hplace hremoved hstep⟩

/-- A directory that is there cannot be made. -/
theorem createDir_of_isDirectory (h : m.isDirectory p = true) :
    m.createDir p = .error .alreadyThere := by
  unfold isDirectory at h
  cases hfind : m.find p with
  | error cause =>
      rw [hfind] at h
      cases h
  | ok found =>
      obtain ⟨place, entry⟩ := found
      obtain ⟨hlocate, -⟩ := find_ok hfind
      obtain ⟨target, htarget, hends⟩ := target_of_locate hlocate
      rw [createDir, htarget]
      dsimp only [bind, Except.bind]
      by_cases hname : target.isName = true
      · obtain ⟨hcheck, hthere⟩ := hends hname
        rw [hname, hcheck, hthere]
        rfl
      · rw [Bool.not_eq_true] at hname
        rw [hname]
        rfl

/-- Directories that are made end in one that is there. -/
theorem isDirectory_of_createDirs {above : List Path}
    (h : m.createDirs (p :: above) = (.ok (), made)) :
    p.isEmpty = true ∨ made.isDirectory p = true := by
  have hforgiven : ∀ {m : Machine} {cause : SystemError}, m.forgive p cause = .ok () →
      m.isDirectory p = true := by
    intro m cause hforgive
    unfold forgive at hforgive
    split at hforgive
    · next hdirectory => exact hdirectory
    · cases hforgive
  rw [createDirs] at h
  split at h
  · next hempty => exact Or.inl hempty
  · refine Or.inr ?_
    split at h
    · next hmade =>
      cases h
      exact isDirectory_of_createDir hmade
    · split at h
      · split at h
        · cases h
        · split at h
          · next hmade =>
            cases h
            exact isDirectory_of_createDir hmade
          · obtain ⟨hforgive, rfl⟩ := Prod.mk.inj h
            exact hforgiven hforgive
      · obtain ⟨hforgive, rfl⟩ := Prod.mk.inj h
        exact hforgiven hforgive

/-- The first directory is there already, so none of those above it is asked for. -/
theorem createDirs_of_isDirectory {above : List Path}
    (h : p.isEmpty = true ∨ m.isDirectory p = true) :
    m.createDirs (p :: above) = (.ok (), m) := by
  rw [createDirs]
  split
  · rfl
  · next hempty =>
    have hdirectory := h.resolve_left hempty
    have hforgive : m.forgive p .alreadyThere = .ok () := by rw [forgive, if_pos hdirectory]
    rw [createDir_of_isDirectory hdirectory]
    dsimp only
    rw [if_neg (by decide), hforgive]

/-- **Making a directory once more changes nothing.** -/
theorem createDirAll_again (h : m.createDirAll p = (.ok (), made)) (hgrows : Grows made m') :
    m'.createDirAll p = (.ok (), m') := by
  have hancestors : ∃ above, ancestors p = p :: above := by
    unfold ancestors
    rw [ancestorsUpTo]
    split
    · exact ⟨_, rfl⟩
    · exact ⟨_, rfl⟩
  obtain ⟨above, habove⟩ := hancestors
  rw [createDirAll, habove] at h ⊢
  exact createDirs_of_isDirectory ((isDirectory_of_createDirs h).imp_right hgrows.isDirectory)

/-! ### Files -/

section Writing

variable {bytes : Bytes} {written : Machine}

/-- Where a file was written, it can be written again. -/
theorem target_of_write (h : m.write p bytes = .ok written) (hgrows : Grows written m') :
    ∃ target, m'.target p = .ok target ∧ (!target.isName || target.trailingSlash) = false ∧
      target.checkName = .ok () ∧ LeadsTo m'.cwd p target.location := by
  have hbefore : Grows m written := by
    rcases (write_ok h).1 with rfl | hedit
    · exact Grows.refl _
    · exact hedit.grows
  obtain ⟨target, htarget, h⟩ := bind_ok_iff.mp h
  obtain ⟨files, hwritten, -⟩ := bind_ok_iff.mp h
  unfold writtenAt at hwritten
  split at hwritten
  · cases hwritten
  · next hplain =>
    rw [Bool.not_eq_true] at hplain
    obtain ⟨_, hcheck, -⟩ := bind_ok_iff.mp hwritten
    have hagain := (hbefore.trans hgrows).target htarget
    have hname : target.isName = true := by
      simp only [Bool.or_eq_false_iff, Bool.not_eq_false'] at hplain
      exact hplain.1
    exact ⟨target, hagain, hplain, hcheck, target_leadsTo hagain hname hcheck⟩

/-- A file that is put where it is leaves all files as they are. -/
theorem differInBytes_set (places : Location → Prop) {location : Location} {entry : Entry}
    (hproper : location ≠ []) (h : m.files.get? location = some entry) :
    DifferInBytes places m { m with files := m.files.set location entry } := by
  refine ⟨rfl, rfl, rfl, rfl, Or.inl rfl, fun other _ => ?_⟩
  dsimp only
  by_cases heq : other = location
  · rw [heq, FileTree.get?_set_self _ hproper, h]
    exact .refl _ _ _ _
  · rw [FileTree.get?_set_of_ne _ heq]
    exact .refl _ _ _ _

/-- **Writing what a file holds already leaves all files as they are.** -/
theorem write_again (h : m.write p bytes = .ok written) (hgrows : Grows written m')
    (hstored : m'.Stores p bytes) :
    ∃ again, m'.write p bytes = .ok again ∧ DifferInBytes (fun _ => False) m' again := by
  obtain ⟨target, htarget, hplain, hcheck, hleads⟩ := target_of_write h hgrows
  obtain ⟨location, id, content, -, hthere, hentry, hbytes⟩ := hstored.location
  obtain rfl := hleads.unique hthere
  rw [write, htarget]
  dsimp only [bind, Except.bind]
  rw [writtenAt, hplain, hcheck]
  dsimp only [bind, Except.bind]
  rw [hentry]
  refine ⟨_, rfl, ?_⟩
  rw [Content.overwritten_self hbytes]
  exact differInBytes_set _ (by simp [Target.location]) hentry

end Writing

end Machine

end NativeExtension
