import NativeExtension.Proofs.Machine.Edits

/-!
# NativeExtension.Proofs.Machine.Writing

**Making directories and writing files are edits where the paths lead.** Making a directory
touches only what lies on the way of its path (`edits_createDirAll`), and writing only the end
of it (`write_ok`). Unless that is the null device, what was written is there to be read
(`write_stores`), and stays so as long as nothing else may be written to the same place
(`Stores.of_edits`).
-/

namespace NativeExtension

/-! ### Making directories -/

namespace Machine

variable {m m' : Machine} {p : Path}

/-- Where a directory can be made, and what it leaves. -/
theorem createDir_ok (h : m.createDir p = .ok m') :
    ∃ target, m.target p = .ok target ∧ target.isName = true ∧ target.checkName = .ok () ∧
      m.files.get? target.location = none ∧
      m' = { m with files := m.files.set target.location (.directory false) } := by
  unfold createDir at h
  obtain ⟨target, htarget, h⟩ := bind_ok_iff.mp h
  dsimp only at h
  split at h
  · obtain ⟨_, hthrow, -⟩ := bind_ok_iff.mp h
    cases hthrow
  · next hname =>
    obtain ⟨_, hcheck, h⟩ := bind_ok_iff.mp h
    split at h
    · obtain ⟨_, hthrow, -⟩ := bind_ok_iff.mp h
      cases hthrow
    · next hfree =>
      split at h
      · obtain ⟨_, hthrow, -⟩ := bind_ok_iff.mp h
        cases hthrow
      · obtain rfl := ok_iff_pure.mp h
        exact ⟨target, htarget, by simpa using hname, hcheck, by simpa using hfree, rfl⟩

theorem edit_createDir (h : m.createDir p = .ok m') : Edit (.toMake m.cwd p) m m' := by
  obtain ⟨target, htarget, hname, hcheck, hfree, rfl⟩ := createDir_ok h
  refine .directory ?_ (by simp [Target.location]) hfree
  exact (target_leadsTo htarget hname hcheck).through (target_components_ne_nil htarget hname)

/-- By induction on the paths, all of them on the way to `p`: what is made first stays where
the others are made. -/
theorem edits_createDirs {paths : List Path} (hpaths : ∀ q ∈ paths, q.components <+: p.components)
    (m : Machine) : Edits (.toMake m.cwd p) m (m.createDirs paths).2 := by
  have hcreate : ∀ {m m' : Machine} {q : Path}, q.components <+: p.components →
      m.createDir q = .ok m' → Edits (.toMake m.cwd p) m m' := by
    intro m m' q hstart hmade
    refine (Edits.of_edit (edit_createDir hmade)).mono ⟨?_, fun _ _ => id⟩
    exact fun _ hthrough => LeadsThrough.of_begins hthrough hstart
  induction paths with
  | nil => exact Edits.refl _ _
  | cons q above ih =>
      obtain ⟨hq, habove⟩ := List.forall_mem_cons.mp hpaths
      have hready := ih habove
      rw [createDirs]
      split
      · exact Edits.refl _ _
      · split
        · next hmade => exact hcreate hq hmade
        · split
          · split
            · next hstopped =>
              rw [hstopped] at hready
              exact hready
            · next ready hmade =>
              rw [hmade] at hready
              split
              · next hmade =>
                have hmore := hcreate hq hmade
                rw [hready.cwd_eq] at hmore
                exact hready.trans hmore
              · exact hready
          · exact Edits.refl _ _

/-- **Making a directory makes directories on the way of its path**, and changes nothing else. -/
theorem edits_createDirAll (m : Machine) (p : Path) :
    Edits (.toMake m.cwd p) m (m.createDirAll p).2 :=
  edits_createDirs (fun _ hmem => Path.components_of_mem_ancestors hmem) m

/-! ### Writing -/

/-- The path leads to a file that holds the bytes. -/
def Stores (m : Machine) (p : Path) (bytes : Bytes) : Prop :=
  ∃ place id content, m.find p = .ok (place, .file id content) ∧ content.bytes? = some bytes

theorem follow_append (m : Machine) (here : Place) (pieces others : List Bytes) :
    m.follow here (pieces ++ others) = m.follow here pieces >>= (m.follow · others) := by
  induction pieces generalizing here with
  | nil => rfl
  | cons piece rest ih =>
      rw [List.cons_append, follow, follow]
      cases m.stepFrom here piece with
      | error cause => rfl
      | ok next => exact ih next

/-- No empty piece stands behind a name. -/
theorem dropTrailing_pieces {target : Target} (h : m.target p = .ok target)
    (hname : target.isName = true) (hslash : target.trailingSlash = false) :
    dropTrailing p.pieces = p.pieces := by
  obtain ⟨directory, -, -, htarget⟩ := target_ok h
  obtain ⟨hkept, -⟩ := target_pieces h hname
  have hlast : p.bytes.getLast? ≠ some slash := by
    rw [htarget] at hslash
    simpa using hslash
  cases hpieces : p.pieces.reverse with
  | nil => exact absurd (List.reverse_eq_nil_iff.mp hpieces) (Text.fields_ne_nil _ _)
  | cons last earlier =>
      have hsplit : p.pieces = earlier.reverse ++ [last] := List.reverse_eq_cons_iff.mp hpieces
      have hne : last ≠ [] := by
        rintro rfl
        have hempty : (Text.fields slash p.bytes).getLast? = some [] := by
          rw [← Path.pieces, hsplit, List.getLast?_concat]
        rcases Text.getLast?_of_fields hempty with hnil | hend
        · simp [Path.pieces, hnil, Text.fields, dropTrailing] at hkept
        · exact hlast hend
      rw [dropTrailing, hpieces, List.dropWhile_cons_of_neg (by simpa using hne), ← hpieces,
        List.reverse_reverse]

/-- A name is found in the directory that holds it. -/
theorem stepFrom_name {target : Target} (hname : target.isName = true)
    (hcheck : target.checkName = .ok ()) {fixed : Bool}
    (hdirectory : m.entryAt? ⟨target.directory, 0⟩ = some (.directory fixed))
    (hthere : (m.files.get? target.location).isSome = true) :
    m.stepFrom ⟨target.directory, 0⟩ target.piece = .ok ⟨target.location, 0⟩ := by
  obtain ⟨hne, hdot, hdots⟩ := Target.isName_iff.mp hname
  exact stepFrom_ok_iff.mpr ⟨⟨fixed, hdirectory⟩,
    .down hne hdot hdots rfl (checkName_ok hcheck).2 hthere⟩

/-- What has been put where a path leads is reached there. -/
theorem follow_target {target : Target} (h : m.target p = .ok target)
    (hname : target.isName = true) (hcheck : target.checkName = .ok ()) (hgrows : Grows m m')
    (hthere : (m'.files.get? target.location).isSome = true) :
    m'.follow (m'.startOf p) (dropTrailing p.pieces) = .ok ⟨target.location, 0⟩ := by
  obtain ⟨hfollow, hdirectory⟩ := target_kept h hcheck
  obtain ⟨hkept, -⟩ := target_pieces h hname
  have hstep : m'.stepFrom ⟨target.directory, 0⟩ target.piece = .ok ⟨target.location, 0⟩ := by
    obtain ⟨entry', hentry', hsame⟩ := hgrows.entryAt? hdirectory
    cases hsame
    exact stepFrom_name hname hcheck hentry' hthere
  have hstart : m'.startOf p = m.startOf p := by rw [startOf, startOf, hgrows.cwd]
  rw [hstart, hkept, follow_append, hgrows.follow hfollow]
  exact bind_ok_iff.mpr ⟨_, rfl, bind_ok_iff.mpr ⟨_, hstep, rfl⟩⟩

/-- What has been put where a path leads is found there. -/
theorem find_target {target : Target} (h : m.target p = .ok target)
    (hname : target.isName = true) (hslash : target.trailingSlash = false)
    (hcheck : target.checkName = .ok ()) (hgrows : Grows m m') {entry : Entry}
    (hentry : m'.files.get? target.location = some entry) :
    m'.find p = .ok (⟨target.location, 0⟩, entry) := by
  obtain ⟨_, hpath, -⟩ := bind_ok_iff.mp h
  have hfollow := follow_target h hname hcheck hgrows (by rw [hentry]; rfl)
  rw [dropTrailing_pieces h hname hslash] at hfollow
  have hlocate : m'.locate p = .ok ⟨target.location, 0⟩ := bind_ok_iff.mpr ⟨_, hpath, hfollow⟩
  refine bind_ok_iff.mpr ⟨_, hlocate, ?_⟩
  have hthere : m'.entryAt? ⟨target.location, 0⟩ = some entry := hentry
  rw [hthere]
  rfl

/-- **A write that succeeds changes the end of its path alone**, and what was written is there,
unless the null device has swallowed it. -/
theorem write_ok {bytes : Bytes} (h : m.write p bytes = .ok m') :
    (m' = m ∨ Edit (.toWrite m.cwd p bytes) m m') ∧
      (m'.Stores p bytes ∨ LeadsTo m.cwd p nullDevice) := by
  obtain ⟨target, htarget, h⟩ := bind_ok_iff.mp h
  obtain ⟨files, hwritten, h⟩ := bind_ok_iff.mp h
  obtain rfl := ok_iff_pure.mp h
  unfold writtenAt at hwritten
  split at hwritten
  · cases hwritten
  · next hplain =>
    obtain ⟨hname, hslash⟩ : target.isName = true ∧ target.trailingSlash = false := by
      simpa using hplain
    obtain ⟨_, hcheck, hwritten⟩ := bind_ok_iff.mp hwritten
    have hleads := target_leadsTo htarget hname hcheck
    have hproper : target.location ≠ [] := by simp [Target.location]
    split at hwritten
    · cases hwritten
    · split at hwritten
      · next hnull =>
        obtain rfl := ok_iff_pure.mp hwritten
        exact ⟨Or.inl rfl, Or.inr (hnull ▸ hleads)⟩
      · cases hwritten
    · next id content hfile =>
      obtain rfl := ok_iff_pure.mp hwritten
      have hedit : Edit (.toWrite m.cwd p bytes) m
          { m with files := m.files.set target.location (.file id (content.overwritten bytes)) } :=
        .overwritten ⟨hleads, rfl⟩ hproper hfile
      refine ⟨Or.inr hedit, Or.inl ⟨_, _, _, find_target htarget hname hslash hcheck hedit.grows
        (FileTree.get?_set_self _ hproper _), ?_⟩⟩
      exact Content.bytes?_overwritten content bytes
    · next hfree =>
      dsimp only at hwritten
      split at hwritten
      · obtain ⟨_, hthrow, -⟩ := bind_ok_iff.mp hwritten
        cases hthrow
      · obtain rfl := ok_iff_pure.mp hwritten
        have hedit : Edit (.toWrite m.cwd p bytes) m
            { m with files := m.files.addFile target.location (.data bytes) } :=
          .added ⟨hleads, rfl⟩ hproper hfree
        exact ⟨Or.inr hedit, Or.inl ⟨_, _, _, find_target htarget hname hslash hcheck hedit.grows
          (FileTree.get?_addFile_self _ hproper _), rfl⟩⟩

/-- What was written can be read, if it was not written to the null device. -/
theorem write_stores {bytes : Bytes} (h : m.write p bytes = .ok m')
    (hnull : ¬ LeadsTo m.cwd p nullDevice) : m'.Stores p bytes :=
  (write_ok h).2.resolve_right hnull

/-- A path that ends in another name does not lead to the null device. -/
theorem not_leadsTo_null {here : Place} {name : Bytes} {directory : Spot}
    (hspot : p.spotFrom here = some name :: directory) (hother : name ≠ utf8 "null") :
    ¬ LeadsTo here p nullDevice := by
  rw [LeadsTo, hspot]
  exact fun hleads => hother (Option.some.inj (List.cons.inj hleads).1)

/-! ### What was written stays -/

/-- What is stored is stored at a location. -/
theorem Stores.location {bytes : Bytes} (h : m.Stores p bytes) :
    ∃ location id content, m.find p = .ok (⟨location, 0⟩, .file id content) ∧
      LeadsTo m.cwd p location ∧ m.files.get? location = some (.file id content) ∧
      content.bytes? = some bytes := by
  obtain ⟨place, id, content, hfind, hbytes⟩ := h
  obtain ⟨hlocate, hthere⟩ := find_ok hfind
  have hspot := locate_spot hlocate
  obtain ⟨location, removed⟩ := place
  cases removed with
  | zero => exact ⟨location, id, content, hfind, hspot.symm, hthere, hbytes⟩
  | succ levels =>
      -- a removed directory is all that is there
      cases Option.some.inj hthere

/-- What is stored can be read. -/
theorem Stores.read?_eq {bytes : Bytes} (h : m.Stores p bytes) : m.read? p = some bytes := by
  obtain ⟨place, id, content, hfind, hbytes⟩ := h
  rw [read?, hfind]
  exact hbytes

/-- What can be read is stored, if it is not read from the null device. -/
theorem stores_of_read? {bytes : Bytes} (h : m.read? p = some bytes)
    (hnull : ¬ LeadsTo m.cwd p nullDevice) : m.Stores p bytes := by
  unfold read? at h
  split at h
  · next place id content hfind => exact ⟨place, id, content, hfind, h⟩
  · next place hfind =>
    split at h
    · next hplace =>
      obtain ⟨hlocate, hthere⟩ := find_ok hfind
      obtain ⟨location, removed⟩ := place
      cases removed with
      | zero =>
          obtain rfl : location = nullDevice := hplace
          exact absurd (locate_spot hlocate).symm hnull
      | succ levels => cases Option.some.inj hthere
    · cases h
  · cases h

/-- A stored text stays, if nothing but that text may be written where it lies. -/
theorem Stores.of_edit {licence : Licence} {bytes : Bytes} (h : m.Stores p bytes)
    (hedit : Edit licence m m')
    (hsame : ∀ location written, LeadsTo m.cwd p location → licence.file location written →
      written = bytes) : m'.Stores p bytes := by
  obtain ⟨location, id, content, hfind, hleads, hthere, hbytes⟩ := h.location
  obtain ⟨entry', hfind', -⟩ := hedit.grows.find hfind
  have hbecomes := hedit.becomes location
  have hafter : m'.files.get? location = some entry' := (find_ok hfind').2
  rw [hthere, hafter] at hbecomes
  cases hbecomes with
  | same => exact ⟨_, id, content, hfind', hbytes⟩
  | @overwritten written _ _ hallowed =>
      obtain rfl := hsame location written hleads hallowed
      exact ⟨_, id, _, hfind', Content.bytes?_overwritten content written⟩

/-- **What is stored stays stored** while nothing else may be written to the same place. -/
theorem Stores.of_edits {licence : Licence} {bytes : Bytes} (h : m.Stores p bytes)
    (hedits : Edits licence m m')
    (hsame : ∀ location written, LeadsTo m.cwd p location → licence.file location written →
      written = bytes) : m'.Stores p bytes := by
  induction hedits with
  | refl => exact h
  | tail hearlier hedit ih =>
      refine ih.of_edit hedit ?_
      rw [Edits.cwd_eq hearlier]
      exact hsame

end Machine

end NativeExtension
