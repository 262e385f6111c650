import NativeExtension.Proofs.Session.ArtifactNames

/-!
# NativeExtension.Proofs.Session.ArtifactSearch

**Which library is found.** The file that the toolchain names, or else the first in order of their
bytes among the regular files whose names match (`PicksLeast`). So the order in which a directory is
listed does not matter (`findArtifact_relisted`), nor does any file whose name does not match
(`findArtifact_beside`); and two extensions never share a file, since a name has no dot and the name
of its library has one behind it (`find_apart`). All of it is put together in
`findArtifact_definite`.
-/

namespace NativeExtension

/-- The order of byte strings is that of lists. -/
theorem bytesLe_iff_le {a b : Bytes} : bytesLe a b = true ↔ a ≤ b := by
  induction a generalizing b with
  | nil => simp [bytesLe]
  | cons x xs ih =>
      cases b with
      | nil => simp [bytesLe]
      | cons y ys =>
          rw [bytesLe, Bool.or_eq_true, Bool.and_eq_true, ih, decide_eq_true_iff, beq_iff_eq,
            List.cons_le_cons_iff]

/-- The least of some byte strings depends only on which they are. -/
theorem leastBytes?_congr {names names' : List Bytes} (h : ∀ name, name ∈ names' ↔ name ∈ names) :
    leastBytes? names' = leastBytes? names := by
  ext least
  simp only [leastBytes?_eq_some_iff, h]

/-- The file that the toolchain names matches. -/
theorem matchesName_exact (name suffix : String) :
    MatchesName name suffix (utf8 (name ++ "." ++ suffix)) := by
  have hshown : Utf8.decodeLossy (utf8 (name ++ "." ++ suffix)) =
      name.toList ++ '.' :: suffix.toList := by
    rw [utf8, Utf8.decodeLossy_encode]
    simp [String.toList_append]
  constructor
  · rw [hshown]
    exact ⟨suffix.toList, by simp [String.toList_append]⟩
  · rw [hshown]
    exact ⟨name.toList, by simp [String.toList_append]⟩

theorem slash_mem_utf8_iff {text : String} : slash ∈ utf8 text ↔ '/' ∈ text.toList := by
  have hmem := Utf8.mem_decodeLossy_iff (a := slash) (by decide) (utf8 text)
  rw [utf8, Utf8.decodeLossy_encode] at hmem
  exact hmem.symm

theorem slash_notMem_exact {name suffix : String} (hname : '/' ∉ name.toList)
    (hsuffix : '/' ∉ suffix.toList) : slash ∉ utf8 (name ++ "." ++ suffix) := by
  rw [slash_mem_utf8_iff]
  simp [String.toList_append, hname, hsuffix]

namespace Machine

variable {m m' : Machine} {name suffix : String} {directory : Path}

/-- A regular file that is listed in the directory under a name that matches. -/
structure Offers (m : Machine) (directory : Path) (name suffix : String) (file : Bytes) :
    Prop where
  listed : ∃ names, m.list directory = .ok names ∧ file ∈ names
  regular : m.isFile (directory.join ⟨file⟩) = true
  named : MatchesName name suffix file

/-- The exact file is found, or else the least of those that are offered. -/
structure PicksLeast (m : Machine) (directory : Path) (name suffix : String) : Prop where
  exact : m.isFile (directory.joinText (name ++ "." ++ suffix)) = true →
    m.findArtifact name directory suffix = .ok (directory.joinText (name ++ "." ++ suffix))
  unreadable : ∀ cause, m.isFile (directory.joinText (name ++ "." ++ suffix)) = false →
    m.list directory = .error cause →
      m.findArtifact name directory suffix = .error (.unreadable directory cause)
  least : ∀ names path, m.isFile (directory.joinText (name ++ "." ++ suffix)) = false →
    m.list directory = .ok names →
      (m.findArtifact name directory suffix = .ok path ↔
        ∃ file, m.Offers directory name suffix file ∧
          (∀ other, m.Offers directory name suffix other → file ≤ other) ∧
          path = directory.join ⟨file⟩)
  nothing : ∀ names cause, m.isFile (directory.joinText (name ++ "." ++ suffix)) = false →
    m.list directory = .ok names →
      (m.findArtifact name directory suffix = .error cause ↔
        cause = .notFound name directory ∧ ∀ file, ¬m.Offers directory name suffix file)

/-! ### What is picked -/

/-- The names that are offered among those that are listed. -/
def offered (m : Machine) (directory : Path) (name suffix : String) (names : List Bytes) :
    List Bytes :=
  names.filter fun file => isArtifactName name suffix file && m.isFile (directory.join ⟨file⟩)

theorem mem_offered_iff {names : List Bytes} {file : Bytes} :
    file ∈ m.offered directory name suffix names ↔
      file ∈ names ∧ MatchesName name suffix file ∧ m.isFile (directory.join ⟨file⟩) = true := by
  rw [offered, List.mem_filter, Bool.and_eq_true, matchesName_iff]

/-- The directory has one listing, so what it offers is what is in that one. -/
theorem offers_iff {names : List Bytes} (hlist : m.list directory = .ok names) {file : Bytes} :
    m.Offers directory name suffix file ↔ file ∈ m.offered directory name suffix names := by
  rw [mem_offered_iff]
  constructor
  · rintro ⟨⟨names', hlist', hmem⟩, hregular, hnamed⟩
    obtain rfl := Except.ok.inj (hlist.symm.trans hlist')
    exact ⟨hmem, hnamed, hregular⟩
  · rintro ⟨hmem, hnamed, hregular⟩
    exact ⟨⟨names, hlist, hmem⟩, hregular, hnamed⟩

/-- Without the exact file there is one look through the names of the directory. -/
theorem findArtifact_of_listed {names : List Bytes}
    (hexact : m.isFile (directory.joinText (name ++ "." ++ suffix)) = false)
    (hlist : m.list directory = .ok names) :
    m.findArtifact name directory suffix =
      match leastBytes? (m.offered directory name suffix names) with
      | some file => .ok (directory.join ⟨file⟩)
      | none => .error (.notFound name directory) := by
  unfold findArtifact
  dsimp only
  rw [hexact, hlist]
  rfl

theorem findArtifact_of_unreadable {cause : SystemError}
    (hexact : m.isFile (directory.joinText (name ++ "." ++ suffix)) = false)
    (hlist : m.list directory = .error cause) :
    m.findArtifact name directory suffix = .error (.unreadable directory cause) := by
  unfold findArtifact
  dsimp only
  rw [hexact, hlist]
  rfl

theorem picksLeast (m : Machine) (directory : Path) (name suffix : String) :
    m.PicksLeast directory name suffix where
  exact := findArtifact_exact
  unreadable _ := findArtifact_of_unreadable
  least names path hexact hlist := by
    rw [findArtifact_of_listed hexact hlist]
    simp only [offers_iff hlist]
    cases hleast : leastBytes? (m.offered directory name suffix names) with
    | none =>
        rw [leastBytes?_eq_none_iff] at hleast
        simp [hleast]
    | some file =>
        obtain ⟨hmem, hbelow⟩ := leastBytes?_eq_some_iff.mp hleast
        constructor
        · intro h
          exact ⟨file, hmem, fun other hother => bytesLe_iff_le.mp (hbelow other hother),
            (Except.ok.inj h).symm⟩
        · rintro ⟨other, hother, hleast', rfl⟩
          obtain rfl := bytesLe_antisymm (hbelow other hother)
            (bytesLe_iff_le.mpr (hleast' file hmem))
          rfl
  nothing names cause hexact hlist := by
    rw [findArtifact_of_listed hexact hlist]
    simp only [offers_iff hlist]
    cases hleast : leastBytes? (m.offered directory name suffix names) with
    | none =>
        rw [leastBytes?_eq_none_iff] at hleast
        simp [hleast, eq_comm]
    | some file =>
        obtain ⟨hmem, -⟩ := leastBytes?_eq_some_iff.mp hleast
        constructor
        · exact nofun
        · rintro ⟨-, hnothing⟩
          exact absurd hmem (hnothing file)

/-! ### What does not matter -/

/-- What is found is settled by whether the exact file is there and by which others are offered. -/
theorem findArtifact_congr
    (hexact : m'.isFile (directory.joinText (name ++ "." ++ suffix)) =
      m.isFile (directory.joinText (name ++ "." ++ suffix)))
    (hlist : SameOutcome Eq (fun names names' => ∀ file,
        file ∈ m'.offered directory name suffix names' ↔
          file ∈ m.offered directory name suffix names)
      (m.list directory) (m'.list directory)) :
    m'.findArtifact name directory suffix = m.findArtifact name directory suffix := by
  cases hfile : m.isFile (directory.joinText (name ++ "." ++ suffix)) with
  | true => rw [findArtifact_exact hfile, findArtifact_exact (hexact.trans hfile)]
  | false =>
      have hfile' := hexact.trans hfile
      generalize hlisted : m.list directory = listed,
        hlisted' : m'.list directory = listed' at hlist
      cases hlist with
      | error hcause =>
          subst hcause
          rw [findArtifact_of_unreadable hfile hlisted, findArtifact_of_unreadable hfile' hlisted']
      | ok hoffered =>
          rw [findArtifact_of_listed hfile hlisted, findArtifact_of_listed hfile' hlisted',
            leastBytes?_congr hoffered]

/-- **The order in which a directory is listed does not matter.** -/
theorem findArtifact_relisted {tree : FileTree}
    (h : ∀ location, tree.get? location = m.files.get? location) :
    ({ m with files := tree } : Machine).findArtifact name directory suffix =
      m.findArtifact name directory suffix := by
  have hfile : ∀ p, ({ m with files := tree } : Machine).isFile p = m.isFile p := by
    intro p
    rw [isFile, isFile, find_relisted h]
  refine findArtifact_congr (hfile _) ((list_relisted h directory).imp ?_)
  intro names names' hsame file
  rw [mem_offered_iff, mem_offered_iff, hsame, hfile]

section Beside

variable {tree : FileTree} {here : Place} {fixed : Bool} {file : Bytes}

/-- Whether another name leads to a regular file is as it was. -/
theorem isFile_beside (hdirectory : m.find directory = .ok (here, .directory fixed))
    (h : FileTree.DifferAt (file :: here.location) m.files tree) {other : Bytes}
    (hslash : slash ∉ other) (hother : other ≠ file) :
    ({ m with files := tree } : Machine).isFile (directory.join ⟨other⟩) =
      m.isFile (directory.join ⟨other⟩) := by
  obtain ⟨-, hhere⟩ := find_ok hdirectory
  rw [isFile, isFile, find_join hslash hdirectory,
    find_join hslash (h.keepsDirectories.find hdirectory), h.findBelow_eq hhere hother]

/-- **A file whose name does not match does not matter.** -/
theorem findArtifact_beside (hname : '/' ∉ name.toList) (hsuffix : '/' ∉ suffix.toList)
    (hslashless : m.files.Slashless) (hdirectory : m.find directory = .ok (here, .directory fixed))
    (hfile : ¬MatchesName name suffix file)
    (h : FileTree.DifferAt (file :: here.location) m.files tree) :
    ({ m with files := tree } : Machine).findArtifact name directory suffix =
      m.findArtifact name directory suffix := by
  have hother : ∀ other, MatchesName name suffix other → other ≠ file := by
    rintro other hmatches rfl
    exact hfile hmatches
  refine findArtifact_congr ?_ ?_
  · exact isFile_beside hdirectory h (slash_notMem_exact hname hsuffix)
      (hother _ (matchesName_exact name suffix))
  · rw [list_of_find hdirectory, list_of_find (h.keepsDirectories.find hdirectory)]
    refine .ok fun other => ?_
    rw [mem_offered_iff, mem_offered_iff]
    cases here.isRemoved with
    | true => simp
    | false =>
        simp only [Bool.false_eq_true, if_false, FileTree.mem_names_iff]
        constructor
        · rintro ⟨hthere, hmatches, hregular⟩
          have hne := hother other hmatches
          rw [h.elsewhere _ fun heq => hne (List.cons.inj heq).1] at hthere
          rw [isFile_beside hdirectory h (hslashless _ _ hthere) hne] at hregular
          exact ⟨hthere, hmatches, hregular⟩
        · rintro ⟨hthere, hmatches, hregular⟩
          have hne := hother other hmatches
          rw [h.elsewhere _ fun heq => hne (List.cons.inj heq).1,
            isFile_beside hdirectory h (hslashless _ _ hthere) hne]
          exact ⟨hthere, hmatches, hregular⟩

end Beside

/-! ### Two extensions -/

/-- A name that was accepted is all that stands in front of the first dot. -/
theorem fields_of_matchesName {file : Bytes} (hname : validateName name = .ok ())
    (hmatches : MatchesName name suffix file) :
    ∃ others, Text.fields '.' (Utf8.decodeLossy file) = name.toList :: others := by
  obtain ⟨rest, hrest⟩ := hmatches.starts
  have hshown : name.toList ++ '.' :: rest = Utf8.decodeLossy file := by
    rw [← hrest]
    simp [String.toList_append]
  rw [← hshown, Text.fields_append_cons (isPlainWord_of_validateName hname).dot_notMem]
  exact ⟨_, rfl⟩

/-- A file whose name matches is no way up or nowhere. -/
theorem ofPiece?_of_matchesName {file : Bytes} (hname : validateName name = .ok ())
    (hmatches : MatchesName name suffix file) : Component.ofPiece? file = some (.name file) := by
  obtain ⟨others, hothers⟩ := fields_of_matchesName hname hmatches
  have hfirst : (Text.fields '.' (Utf8.decodeLossy file)).head? ≠ some [] := by
    rw [hothers]
    exact fun heq => toList_ne_nil_of_validateName hname (Option.some.inj heq)
  have hstays : ¬(file = [] ∨ file = [dot]) := by
    rintro (rfl | rfl) <;> exact hfirst rfl
  have hparent : file ≠ [dot, dot] := by
    rintro rfl
    exact hfirst rfl
  rw [Component.ofPiece?, if_neg hstays, if_neg hparent]

/-- What a directory lists are names of entries, and these hold no slash. -/
theorem slash_notMem_of_list (hslashless : m.files.Slashless) {names : List Bytes}
    (hlist : m.list directory = .ok names) {file : Bytes} (hmem : file ∈ names) : slash ∉ file := by
  obtain ⟨⟨place, entry⟩, -, hlist⟩ := bind_ok_iff.mp hlist
  dsimp only at hlist
  split at hlist
  · cases hlist
  · split at hlist
    · obtain rfl := ok_iff_pure.mp hlist
      cases hmem
    · obtain rfl := ok_iff_pure.mp hlist
      exact hslashless _ _ (FileTree.mem_names_iff.mp hmem)

/-- What is found is a regular file in the directory whose name matches. -/
theorem exists_of_findArtifact (hname : '/' ∉ name.toList) (hsuffix : '/' ∉ suffix.toList)
    (hslashless : m.files.Slashless) {path : Path}
    (h : m.findArtifact name directory suffix = .ok path) :
    ∃ file, slash ∉ file ∧ MatchesName name suffix file ∧ path = directory.join ⟨file⟩ ∧
      m.isFile path = true := by
  cases hexact : m.isFile (directory.joinText (name ++ "." ++ suffix)) with
  | true =>
      rw [findArtifact_exact hexact] at h
      obtain rfl := Except.ok.inj h
      exact ⟨_, slash_notMem_exact hname hsuffix, matchesName_exact name suffix, rfl, hexact⟩
  | false =>
      cases hlist : m.list directory with
      | error cause =>
          rw [findArtifact_of_unreadable hexact hlist] at h
          cases h
      | ok names =>
          obtain ⟨file, hoffers, -, rfl⟩ :=
            ((m.picksLeast directory name suffix).least names path hexact hlist).mp h
          obtain ⟨hmem, hmatches, hregular⟩ := mem_offered_iff.mp ((offers_iff hlist).mp hoffers)
          exact ⟨file, slash_notMem_of_list hslashless hlist hmem, hmatches, rfl, hregular⟩

/-- Where it lies is told by its name. -/
theorem find_of_findArtifact (hname : validateName name = .ok ()) (hsuffix : '/' ∉ suffix.toList)
    (hslashless : m.files.Slashless) {path : Path}
    (h : m.findArtifact name directory suffix = .ok path) :
    ∃ place entry file, m.find path = .ok (place, entry) ∧
      place.spot.head? = some (some file) ∧ MatchesName name suffix file := by
  have hname' : '/' ∉ name.toList :=
    fun hmem => (isName_of_validateName hname).2.2.2 (slash_mem_utf8_iff.mpr hmem)
  obtain ⟨file, hslash, hmatches, rfl, hregular⟩ :=
    exists_of_findArtifact hname' hsuffix hslashless h
  cases hfind : m.find (directory.join ⟨file⟩) with
  | error cause =>
      rw [isFile, hfind] at hregular
      cases hregular
  | ok found =>
      obtain ⟨place, entry⟩ := found
      refine ⟨place, entry, file, rfl, ?_, hmatches⟩
      rw [locate_spot (find_ok hfind).1,
        Path.spotFrom_join directory (ofPiece?_of_matchesName hname hmatches) hslash]
      rfl

/-- **The libraries of two extensions lie at different places.** -/
theorem find_apart {other suffix' : String} {directory' : Path} (hne : name ≠ other)
    (hname : validateName name = .ok ()) (hother : validateName other = .ok ())
    (hsuffix : '/' ∉ suffix.toList) (hsuffix' : '/' ∉ suffix'.toList)
    (hslashless : m.files.Slashless) {path path' : Path}
    (h : m.findArtifact name directory suffix = .ok path)
    (h' : m.findArtifact other directory' suffix' = .ok path') :
    ∃ place entry place' entry', m.find path = .ok (place, entry) ∧
      m.find path' = .ok (place', entry') ∧ place ≠ place' := by
  obtain ⟨place, entry, file, hfind, hspot, hmatches⟩ :=
    find_of_findArtifact hname hsuffix hslashless h
  obtain ⟨place', entry', file', hfind', hspot', hmatches'⟩ :=
    find_of_findArtifact hother hsuffix' hslashless h'
  refine ⟨place, entry, place', entry', hfind, hfind', ?_⟩
  rintro rfl
  obtain rfl := Option.some.inj (Option.some.inj (hspot.symm.trans hspot'))
  obtain ⟨others, hothers⟩ := fields_of_matchesName hname hmatches
  obtain ⟨others', hothers'⟩ := fields_of_matchesName hother hmatches'
  exact hne (String.toList_inj.mp (List.cons.inj (hothers.symm.trans hothers')).1)

/-! ### The search -/

/-- **A definite library is found.** It is the exact file, or else the least of those that match; it
does not depend on the order in which the directory is listed, nor on a file whose name does not
match; and that of another extension is another file. -/
theorem findArtifact_definite :
    (∀ (m : Machine) directory name suffix, m.PicksLeast directory name suffix) ∧
    (∀ (m : Machine) tree directory name suffix,
      (∀ location, tree.get? location = m.files.get? location) →
      ({ m with files := tree } : Machine).findArtifact name directory suffix =
        m.findArtifact name directory suffix) ∧
    (∀ (m : Machine) tree directory name suffix here fixed file,
      '/' ∉ name.toList → '/' ∉ suffix.toList → m.files.Slashless →
      m.find directory = .ok (here, .directory fixed) → ¬MatchesName name suffix file →
      FileTree.DifferAt (file :: here.location) m.files tree →
      ({ m with files := tree } : Machine).findArtifact name directory suffix =
        m.findArtifact name directory suffix) ∧
    (∀ (m : Machine) directory directory' name name' suffix suffix' path path',
      validateName name = .ok () → validateName name' = .ok () → name ≠ name' →
      '/' ∉ suffix.toList → '/' ∉ suffix'.toList → m.files.Slashless →
      m.findArtifact name directory suffix = .ok path →
      m.findArtifact name' directory' suffix' = .ok path' →
      ∃ place entry place' entry', m.find path = .ok (place, entry) ∧
        m.find path' = .ok (place', entry') ∧ place ≠ place') := by
  refine ⟨picksLeast, ?_, ?_, ?_⟩
  · intro m tree directory name suffix h
    exact findArtifact_relisted h
  · intro m tree directory name suffix here fixed file hname hsuffix hslashless hdirectory hfile h
    exact findArtifact_beside hname hsuffix hslashless hdirectory hfile h
  · intro m directory directory' name name' suffix suffix' path path' hname hname' hne hsuffix
      hsuffix' hslashless h h'
    exact find_apart hne hname hname' hsuffix hsuffix' hslashless h h'

/-- A directory with two tagged libraries, one of them under a name that is not UTF-8, a directory
that is named like a third, and the library of an extension whose name starts alike. -/
def clutteredTree : FileTree where
  entries :=
    [([utf8 "ws"], .directory false),
      ([utf8 "demo." ++ [0xFF] ++ utf8 ".so", utf8 "ws"], .file 0 (.data [])),
      ([utf8 "demo.tag-b.so", utf8 "ws"], .file 1 (.data [])),
      ([utf8 "demo.tag-a.so", utf8 "ws"], .directory false)]
  nextId := 2

/-- The directory with the other library beside them. -/
def clutteredMachine : Machine where
  files := clutteredTree.addFile [utf8 "demolition.so", utf8 "ws"] (.data [])
  cwd := ⟨[], 0⟩
  env := []

theorem slashless_cluttered : clutteredMachine.files.Slashless := by
  refine FileTree.slashless_of_entries ?_
  decide +kernel

/-- The same machine with the entries of its tree in the opposite order. -/
def relistedMachine : Machine :=
  { clutteredMachine with
    files := { clutteredMachine.files with entries := clutteredMachine.files.entries.reverse } }

/-- Of the tagged files the one whose name comes first is found: with the entries in the opposite
order, and without the other library, too. That one lies elsewhere. -/
theorem findArtifact_definite_cluttered :
    clutteredMachine.findArtifact "demo" (.ofText "/ws") "so" =
        .ok (.ofText "/ws/demo.tag-b.so") ∧
      relistedMachine.findArtifact "demo" (.ofText "/ws") "so" =
        .ok (.ofText "/ws/demo.tag-b.so") ∧
      ({ clutteredMachine with files := clutteredTree } : Machine).findArtifact "demo"
        (.ofText "/ws") "so" = .ok (.ofText "/ws/demo.tag-b.so") ∧
      ∃ place entry place' entry',
        clutteredMachine.find (.ofText "/ws/demo.tag-b.so") = .ok (place, entry) ∧
          clutteredMachine.find (.ofText "/ws/demolition.so") = .ok (place', entry') ∧
          place ≠ place' := by
  obtain ⟨-, hrelisted, hbeside, hapart⟩ := findArtifact_definite
  have hfound : clutteredMachine.findArtifact "demo" (.ofText "/ws") "so" =
      .ok (.ofText "/ws/demo.tag-b.so") := by
    decide +kernel
  have hother : clutteredMachine.findArtifact "demolition" (.ofText "/ws") "so" =
      .ok (.ofText "/ws/demolition.so") := by
    decide +kernel
  have hdirectory : clutteredMachine.find (.ofText "/ws") =
      .ok (⟨[utf8 "ws"], 0⟩, .directory false) := by
    decide +kernel
  have hnodup : (clutteredMachine.files.entries.map Prod.fst).Nodup := by
    decide +kernel
  have hdiffers : ¬MatchesName "demo" "so" (utf8 "demolition.so") := by
    rw [← matchesName_iff]
    decide +kernel
  refine ⟨hfound, ?_, ?_, ?_⟩
  · rw [← hfound]
    exact hrelisted clutteredMachine _ _ _ _
      (FileTree.get?_of_perm (List.reverse_perm _) hnodup)
  · rw [← hfound]
    exact hbeside clutteredMachine clutteredTree _ _ _ _ _ _ (by decide) (by decide)
      slashless_cluttered hdirectory hdiffers
      (clutteredTree.addFile_differAt (List.cons_ne_nil _ _) _)
  · exact hapart clutteredMachine _ _ "demo" "demolition" _ _ _ _ (by decide) (by decide)
      (by decide) (by decide) (by decide) slashless_cluttered hfound hother

end Machine

end NativeExtension
