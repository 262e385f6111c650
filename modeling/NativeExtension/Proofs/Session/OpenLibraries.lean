import NativeExtension.Proofs.Session.Run

/-!
# NativeExtension.Proofs.Session.OpenLibraries

**Which library a path gives, and what stays open.** Opening a path gives the library that
the loader knows by that name or by that file, and only else what is in the file that it finds:
the one at the path, or for a path without a slash one in the directories of the system's
libraries (`openLibrary_view`). Over a whole run the loader stays sound: no two open libraries
share a name or a file, each extension's library is open under the extension's path, and whatever
is open belongs to an extension (`Run.loaderSound`).
-/

namespace NativeExtension

/-! ### What a path stands for -/

namespace Machine

/-- The library that the file at a path holds now. -/
def libraryAt? (m : Machine) (p : Path) : Option Library :=
  match m.fileAt? p with
  | some (_, _, .library library) => some library
  | _ => none

/-- The library in the file that the loader finds under a name. -/
def libraryNamed? (m : Machine) (p : Path) : Option Library :=
  match m.libraryFile? p with
  | some (_, _, .library library) => some library
  | _ => none

/-- Under a path with a slash the loader finds the file at the path. -/
theorem libraryNamed?_of_slash (m : Machine) {p : Path} (h : p.bytes.contains slash = true) :
    m.libraryNamed? p = m.libraryAt? p := by
  rw [libraryNamed?, libraryFile?, if_pos h, libraryAt?]

end Machine

namespace Loader

/-- The open library that the loader takes a path for: the one that it knows by that name,
else the one that it has mapped from the file that it finds now. -/
def known? (loader : Loader) (m : Machine) (p : Path) : Option Library :=
  match loader.find? (·.names.contains p) with
  | some entry => some entry.library
  | none => (m.libraryFile? p).bind fun file =>
      (loader.find? (·.file = file.2.1)).map (·.library)

/-- The library that opening a path gives. -/
def view? (loader : Loader) (m : Machine) (p : Path) : Option Library :=
  (loader.known? m p).or (m.libraryNamed? p)

/-- Opening a path gives what the loader sees in it. -/
theorem openLibrary_view (loader : Loader) (m : Machine) (p : Path) :
    (loader.openLibrary m p).toOption.map Prod.fst = loader.view? m p := by
  unfold openLibrary view? known? Machine.libraryNamed?
  cases loader.find? (·.names.contains p) with
  | some entry => rfl
  | none =>
      cases m.libraryFile? p with
      | none => rfl
      | some file =>
          obtain ⟨q, id, content⟩ := file
          dsimp only [Option.bind_some]
          cases loader.find? (·.file = id) with
          | some known => rfl
          | none => cases content <;> rfl

/-! ### Soundness of the loader -/

/-- No two open libraries share a name or a file. -/
structure Sound (loader : Loader) : Prop where
  names : loader.Pairwise fun a b => ∀ p ∈ a.names, p ∉ b.names
  files : loader.Pairwise fun a b => a.file ≠ b.file

/-- The library is open under that name. -/
def Holds (loader : Loader) (p : Path) (library : Library) : Prop :=
  ∃ entry ∈ loader, p ∈ entry.names ∧ entry.library = library

/-- A name is known by one open library only. -/
theorem Sound.eq_of_shared {loader : Loader} (h : loader.Sound) {a b : OpenLibrary}
    (ha : a ∈ loader) (hb : b ∈ loader) {p : Path} (hpa : p ∈ a.names) (hpb : p ∈ b.names) :
    a = b := by
  have hnames := h.names
  clear h
  induction loader with
  | nil => simp at ha
  | cons first rest ih =>
      obtain ⟨hfirst, hrest⟩ := List.pairwise_cons.mp hnames
      rcases List.mem_cons.mp ha with rfl | haRest
      · rcases List.mem_cons.mp hb with rfl | hbRest
        · rfl
        · exact absurd hpb (hfirst b hbRest p hpa)
      · rcases List.mem_cons.mp hb with rfl | hbRest
        · exact absurd hpa (hfirst a haRest p hpb)
        · exact ih haRest hbRest hrest

/-- What is open under a name is what opening the name gives. -/
theorem Holds.view? {loader : Loader} (hsound : loader.Sound) {p : Path} {library : Library}
    (h : loader.Holds p library) (m : Machine) : loader.view? m p = some library := by
  obtain ⟨entry, hentry, hname, rfl⟩ := h
  unfold Loader.view? Loader.known?
  cases hfind : loader.find? (·.names.contains p) with
  | none =>
      have hmissing := List.find?_eq_none.mp hfind entry hentry
      simp [hname] at hmissing
  | some other =>
      have hother : p ∈ other.names := by simpa using List.find?_some hfind
      rw [hsound.eq_of_shared (List.mem_of_find?_eq_some hfind) hentry hother hname]
      rfl

/-- What the loader takes a path for is one of the open libraries. -/
theorem mem_of_known? {loader : Loader} {m : Machine} {p : Path} {library : Library}
    (h : loader.known? m p = some library) : ∃ entry ∈ loader, entry.library = library := by
  unfold known? at h
  cases hname : loader.find? (·.names.contains p) with
  | some entry =>
      rw [hname] at h
      exact ⟨entry, List.mem_of_find?_eq_some hname, Option.some.inj h⟩
  | none =>
      rw [hname] at h
      obtain ⟨id, -, hfile⟩ := Option.bind_eq_some_iff.mp h
      obtain ⟨entry, hentry, hlibrary⟩ := Option.map_eq_some_iff.mp hfile
      exact ⟨entry, List.mem_of_find?_eq_some hentry, hlibrary⟩

/-! ### Opening -/

/-- What opening a library can do to the loader: nothing, if the name is known; one more
name for a library whose file is open; or one more library, under a new name and from a new
file. -/
theorem openLibrary_cases {loader opened : Loader} {m : Machine} {p : Path} {library : Library}
    (h : loader.openLibrary m p = .ok (library, opened)) :
    (∃ entry ∈ loader, p ∈ entry.names ∧ entry.library = library ∧ opened = loader) ∨
    (∀ entry ∈ loader, p ∉ entry.names) ∧
      ((∃ entry ∈ loader, entry.library = library ∧ opened = loader.addName entry.file p) ∨
        ∃ id, (∀ entry ∈ loader, entry.file ≠ id) ∧
          opened = loader ++ [{ names := [p], file := id, library := library }]) := by
  unfold openLibrary at h
  split at h
  · next entry hknown =>
    obtain ⟨rfl, rfl⟩ := Prod.mk.inj (Except.ok.inj h)
    have hname : p ∈ entry.names := by simpa using List.find?_some hknown
    exact Or.inl ⟨entry, List.mem_of_find?_eq_some hknown, hname, rfl, rfl⟩
  · next hunknown =>
    have hnew : ∀ entry ∈ loader, p ∉ entry.names := by simpa using hunknown
    refine Or.inr ⟨hnew, ?_⟩
    split at h
    · cases h
    · next q id content hfile =>
      split at h
      · next entry hknown =>
        obtain ⟨rfl, rfl⟩ := Prod.mk.inj (Except.ok.inj h)
        have hid : entry.file = id := by simpa using List.find?_some hknown
        exact Or.inl ⟨entry, List.mem_of_find?_eq_some hknown, rfl, by rw [hid]⟩
      · next hunknownFile =>
        have hnewFile : ∀ entry ∈ loader, entry.file ≠ id := by simpa using hunknownFile
        split at h
        · obtain ⟨rfl, rfl⟩ := Prod.mk.inj (Except.ok.inj h)
          exact Or.inr ⟨id, hnewFile, rfl⟩
        · cases h

/-- The loader has stayed sound, has lost no name and has no library but what it had. -/
structure Widens (loader wider : Loader) : Prop where
  sound : wider.Sound
  holds : ∀ p library, loader.Holds p library → wider.Holds p library
  owned : ∀ entry ∈ wider, ∃ old ∈ loader, old.library = entry.library

theorem Widens.refl {loader : Loader} (h : loader.Sound) : loader.Widens loader where
  sound := h
  holds := fun _ _ hholds => hholds
  owned := fun entry hentry => ⟨entry, hentry, rfl⟩

/-- One entry with its new name, if it gets one. -/
def named (file : Nat) (p : Path) (entry : OpenLibrary) : OpenLibrary :=
  if entry.file = file then { entry with names := entry.names ++ [p] } else entry

theorem addName_eq (loader : Loader) (file : Nat) (p : Path) :
    loader.addName file p = loader.map (named file p) := rfl

@[simp] theorem named_file (file : Nat) (p : Path) (entry : OpenLibrary) :
    (named file p entry).file = entry.file := by
  unfold named
  split <;> rfl

@[simp] theorem named_library (file : Nat) (p : Path) (entry : OpenLibrary) :
    (named file p entry).library = entry.library := by
  unfold named
  split <;> rfl

theorem mem_named {file : Nat} {p q : Path} {entry : OpenLibrary} :
    q ∈ (named file p entry).names ↔ q ∈ entry.names ∨ entry.file = file ∧ q = p := by
  unfold named
  split
  · next hfile => simp [hfile]
  · next hfile => simp [hfile]

/-- A new name for one library keeps the loader sound. -/
theorem widens_addName {loader : Loader} (h : loader.Sound) (file : Nat) {p : Path}
    (hnew : ∀ entry ∈ loader, p ∉ entry.names) : loader.Widens (loader.addName file p) where
  sound := by
    rw [addName_eq]
    refine ⟨?_, ?_⟩
    · rw [List.pairwise_map]
      refine (h.names.and h.files).imp_of_mem ?_
      intro a b ha hb hab q hqa hqb
      -- of two libraries with different files at most one gets the new name
      rcases mem_named.mp hqa with holdA | ⟨hfileA, rfl⟩
      · rcases mem_named.mp hqb with holdB | ⟨-, rfl⟩
        · exact hab.1 q holdA holdB
        · exact hnew _ ha holdA
      · rcases mem_named.mp hqb with holdB | ⟨hfileB, -⟩
        · exact hnew _ hb holdB
        · exact hab.2 (hfileA.trans hfileB.symm)
    · rw [List.pairwise_map]
      simpa using h.files
  holds := by
    rintro q library ⟨entry, hentry, hname, rfl⟩
    rw [addName_eq]
    exact ⟨named file p entry, List.mem_map_of_mem hentry, mem_named.mpr (Or.inl hname),
      named_library file p entry⟩
  owned := by
    intro entry hentry
    rw [addName_eq] at hentry
    obtain ⟨old, hold, rfl⟩ := List.mem_map.mp hentry
    exact ⟨old, hold, (named_library file p old).symm⟩

/-- A new library under a new name and from a new file keeps the loader sound. -/
theorem sound_append {loader : Loader} (h : loader.Sound) {p : Path} {id : Nat}
    (hnew : ∀ entry ∈ loader, p ∉ entry.names) (hfile : ∀ entry ∈ loader, entry.file ≠ id)
    (library : Library) :
    Sound (loader ++ [{ names := [p], file := id, library := library }]) where
  names := by
    refine List.pairwise_append.mpr ⟨h.names, List.pairwise_singleton _ _, ?_⟩
    intro entry hentry other hother q hq hq'
    obtain rfl := List.mem_singleton.mp hother
    obtain rfl := List.mem_singleton.mp hq'
    exact hnew entry hentry hq
  files := by
    refine List.pairwise_append.mpr ⟨h.files, List.pairwise_singleton _ _, ?_⟩
    intro entry hentry other hother
    obtain rfl := List.mem_singleton.mp hother
    exact hfile entry hentry

/-- A library that was opened is held under its name, and what is left of opening it once it
is closed again has only widened the loader. -/
theorem openLibrary_spec {loader opened : Loader} {m : Machine} {p : Path} {library : Library}
    (hsound : loader.Sound) (h : loader.openLibrary m p = .ok (library, opened)) :
    opened.Sound ∧ opened.Holds p library ∧
      (∀ q l, loader.Holds q l → opened.Holds q l) ∧
      (∀ entry ∈ opened, entry.library = library ∨ ∃ old ∈ loader, old.library = entry.library) ∧
      loader.Widens (loader.closeAgain opened) := by
  -- closing again takes away the last library only if opening has added one
  rcases openLibrary_cases h
    with ⟨entry, hentry, hname, hlibrary, rfl⟩ |
      ⟨hnew, ⟨entry, hentry, hlibrary, rfl⟩ | ⟨id, hfile, rfl⟩⟩
  · have hclosed : opened.closeAgain opened = opened := by
      rw [closeAgain, List.take_length]
    rw [hclosed]
    exact ⟨hsound, ⟨entry, hentry, hname, hlibrary⟩, fun _ _ hholds => hholds,
      fun other hother => Or.inr ⟨other, hother, rfl⟩, Widens.refl hsound⟩
  · have hwidens := widens_addName hsound entry.file hnew
    have hclosed : loader.closeAgain (loader.addName entry.file p) =
        loader.addName entry.file p := by
      rw [closeAgain, addName_eq]
      exact List.take_of_length_le (by simp)
    rw [hclosed]
    refine ⟨hwidens.sound, ?_, hwidens.holds, fun other hother => Or.inr ?_, hwidens⟩
    · rw [addName_eq]
      exact ⟨named entry.file p entry, List.mem_map_of_mem hentry,
        mem_named.mpr (Or.inr ⟨rfl, rfl⟩), by rw [named_library, hlibrary]⟩
    · exact hwidens.owned other hother
  · have hclosed : loader.closeAgain
        (loader ++ [{ names := [p], file := id, library := library }]) = loader := by
      rw [closeAgain, List.take_left']
      rfl
    rw [hclosed]
    refine ⟨sound_append hsound hnew hfile library, ?_, ?_, ?_, Widens.refl hsound⟩
    · exact ⟨_, List.mem_append_right _ List.mem_cons_self, List.mem_cons_self, rfl⟩
    · rintro q l ⟨entry, hentry, hname, hlibrary⟩
      exact ⟨entry, List.mem_append_left _ hentry, hname, hlibrary⟩
    · intro entry hentry
      rcases List.mem_append.mp hentry with hold | hadded
      · exact Or.inr ⟨entry, hold, rfl⟩
      · obtain rfl := List.mem_singleton.mp hadded
        exact Or.inl rfl

end Loader

/-! ### Whole runs -/

/-- Each extension's library is open under the extension's path, and each library that is
open belongs to an extension. -/
structure LoaderSound (s : Session) : Prop where
  sound : s.loader.Sound
  kept : ∀ e ∈ s.extensions, s.loader.Holds e.path e.library
  owned : ∀ entry ∈ s.loader, ∃ e ∈ s.extensions, e.library = entry.library

theorem LoaderSound.of_same {s s' : Session} (h : LoaderSound s) (hsame : SameLibraries s s') :
    LoaderSound s' where
  sound := by
    rw [hsame.loader]
    exact h.sound
  kept := by
    rw [hsame.loader, hsame.extensions]
    exact h.kept
  owned := by
    rw [hsame.loader, hsame.extensions]
    exact h.owned

namespace Session

/-- A library that was opened and closed again leaves only what was open before. -/
theorem loaderSound_afterRefusal {s : Session} (h : LoaderSound s) {opened : Loader}
    (hwidens : s.loader.Widens (s.loader.closeAgain opened)) :
    LoaderSound (s.afterRefusal opened) where
  sound := hwidens.sound
  kept := fun e he => hwidens.holds _ _ (h.kept e he)
  owned := by
    intro entry hentry
    obtain ⟨old, hold, hlibrary⟩ := hwidens.owned entry hentry
    obtain ⟨e, he, heq⟩ := h.owned old hold
    exact ⟨e, he, heq.trans hlibrary⟩

/-- A load opens at most one library, which then belongs to the extension that it adds. -/
theorem loaderSound_afterLoad {s : Session} (h : LoaderSound s) {name : String} {path : Path}
    {library : Library} {opened : Loader} (hsound : opened.Sound)
    (hholds : opened.Holds path library)
    (hkept : ∀ q l, s.loader.Holds q l → opened.Holds q l)
    (howned : ∀ entry ∈ opened, entry.library = library ∨
      ∃ old ∈ s.loader, old.library = entry.library) :
    LoaderSound (s.afterLoad (s.loadedFrom name path library) opened) where
  sound := hsound
  kept := by
    intro e he
    rcases List.mem_append.mp he with hold | hnew
    · exact hkept _ _ (h.kept e hold)
    · obtain rfl := List.mem_singleton.mp hnew
      exact hholds
  owned := by
    intro entry hentry
    -- the library that was opened belongs to the new extension, the others to the old ones
    rcases howned entry hentry with hlibrary | ⟨old, hold, hlibrary⟩
    · exact ⟨s.loadedFrom name path library,
        List.mem_append_right _ List.mem_cons_self, hlibrary.symm⟩
    · obtain ⟨e, he, heq⟩ := h.owned old hold
      exact ⟨e, List.mem_append_left _ he, heq.trans hlibrary⟩

/-- A load keeps the loader sound, however it ends. -/
theorem loaderSound_loadArtifact {s : Session} (h : LoaderSound s) (name : String)
    (directory : Path) (suffix : String) :
    LoaderSound ((loadArtifact name directory suffix).run.run s).2 := by
  rw [run_loadArtifact]
  cases s.machine.findArtifact name directory suffix with
  | error e => exact h
  | ok path =>
      dsimp only
      cases hopen : s.loader.openLibrary s.machine path with
      | error words => exact h
      | ok found =>
          obtain ⟨library, opened⟩ := found
          obtain ⟨hsound, hholds, hkept, howned, hwidens⟩ := Loader.openLibrary_spec h.sound hopen
          -- the library stays open if the load succeeds and is closed again if it does not
          dsimp only
          cases library.call? (entrySymbol name) with
          | none => exact loaderSound_afterRefusal h hwidens
          | some code =>
              dsimp only
              split
              · exact loaderSound_afterLoad h hsound hholds hkept howned
              · exact loaderSound_afterRefusal h hwidens

end Session

/-- The loader is sound in every session that a run reaches. -/
theorem Run.loaderSound {m : Machine} {done : List Step} {s : Session} (h : Run m done s) :
    LoaderSound s := by
  induction h with
  | start =>
      refine ⟨⟨List.Pairwise.nil, List.Pairwise.nil⟩, ?_, ?_⟩
      · intro e he
        cases he
      · intro entry hentry
        cases hentry
  | @step done s hrun operation ih =>
      rcases perform_cases operation s
        with ⟨-, hsame⟩ | ⟨ready, name, directory, suffix, hload⟩
      · exact ih.of_same hsame
      · rw [hload.after]
        exact Session.loaderSound_loadArtifact (ih.of_same hload.same) name directory suffix

end NativeExtension
