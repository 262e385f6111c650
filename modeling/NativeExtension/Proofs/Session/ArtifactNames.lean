import NativeExtension.Proofs.Machine.Listing
import NativeExtension.Platform
import NativeExtension.Proofs.Names
import NativeExtension.Session.Artifact

/-!
# NativeExtension.Proofs.Session.ArtifactNames

**Which files a library is looked for among.** A file may be the library of an extension exactly if
it is named after it, with the suffix and perhaps something between the two (`isArtifactName_iff`):
that names are compared as they are shown makes no difference, since a name and a suffix are ASCII
and a dot cuts what is shown where it cuts the bytes. The file that the toolchain names comes
before all others (`findArtifact_exact`); and where no file is so named, there is no library
(`findArtifact_notFound`).
-/

namespace NativeExtension

/-- The file is named `name.suffix` or `name.….suffix`. -/
def NamedFor (name suffix : String) (file : Bytes) : Prop :=
  file = utf8 (name ++ "." ++ suffix) ∨
    ∃ tag, file = utf8 (name ++ ".") ++ tag ++ utf8 ("." ++ suffix)

/-- As it is shown, the name of the file starts with the extension's and a dot, and ends with a dot
and the suffix. -/
structure MatchesName (name suffix : String) (file : Bytes) : Prop where
  starts : (name ++ ".").toList <+: Utf8.decodeLossy file
  ends : ("." ++ suffix).toList <:+ Utf8.decodeLossy file

/-- A text of ASCII characters without a dot. -/
def IsPlainWord (text : String) : Prop := ∀ c ∈ text.toList, c.toNat < 128 ∧ c ≠ '.'

theorem utf8_append (a b : String) : utf8 (a ++ b) = utf8 a ++ utf8 b := by
  simp [utf8, Utf8.encode, String.toList_append]

namespace IsPlainWord

variable {text : String}

/-- Bytes that are shown as a plain word are its bytes. -/
theorem shown_iff (h : IsPlainWord text) (bytes : Bytes) :
    Utf8.decodeLossy bytes = text.toList ↔ bytes = utf8 text := by
  have hown : Utf8.decodeLossy (utf8 text) = text.toList := Utf8.decodeLossy_encode _
  constructor
  · intro hshown
    rw [← hown] at hshown
    exact Utf8.eq_of_decodeLossy_eq (Utf8.encode_ascii fun c hc => (h c hc).1) hshown
  · rintro rfl
    exact hown

theorem dot_notMem (h : IsPlainWord text) : '.' ∉ text.toList := fun hmem => (h _ hmem).2 rfl

theorem dot_notMem_utf8 (h : IsPlainWord text) : dot ∉ utf8 text := by
  intro hmem
  have hshown := (Utf8.mem_decodeLossy_iff (a := dot) (by decide) _).mpr hmem
  rw [(h.shown_iff _).mpr rfl] at hshown
  exact h.dot_notMem hshown

end IsPlainWord

theorem isPlainWord_librarySuffix (os : Os) : IsPlainWord os.librarySuffix := by
  -- letter by letter: the instance for all characters would try every one
  have hletters : os.librarySuffix.toList.all (fun c => c.toNat < 128 && c ≠ '.') = true := by
    cases os <;> decide
  intro c hc
  simpa using List.all_eq_true.mp hletters c hc

/-- An accepted name is a plain word. -/
theorem isPlainWord_of_validateName {name : String} (h : validateName name = .ok ()) :
    IsPlainWord name := by
  intro c hc
  have hpart := isIdentifierPart_of_validateName h hc
  have hbelow : ∀ last : Char, last.toNat < 128 → c.val ≤ last.val → c.toNat < 128 :=
    fun last hlast hle => Nat.lt_of_le_of_lt (UInt32.le_iff_toNat_le.mp hle) hlast
  refine ⟨?_, ?_⟩
  · rcases Bool.or_eq_true_iff.mp hpart with hword | hunderscore
    · rcases Bool.or_eq_true_iff.mp hword with hletter | hdigit
      · rcases Bool.or_eq_true_iff.mp hletter with hupper | hlower
        · exact hbelow 'Z' (by decide) (of_decide_eq_true hupper).2
        · have hbounds := Bool.and_eq_true_iff.mp hlower
          exact hbelow 'z' (by decide) (of_decide_eq_true hbounds.2)
      · have hbounds := Bool.and_eq_true_iff.mp hdigit
        exact hbelow '9' (by decide) (of_decide_eq_true hbounds.2)
    · rw [of_decide_eq_true hunderscore]
      decide
  · rintro rfl
    exact absurd hpart (by decide)

/-! ### The ends of a name -/

section Ends

variable {α : Type} [DecidableEq α] {separator : α} {first last xs : List α}

/-- A list that starts with one part and ends with another, each with the separator between it and
the rest, is cut into these and perhaps more. -/
theorem fields_of_ends (hfirst : separator ∉ first) (hlast : separator ∉ last)
    (hstarts : first ++ [separator] <+: xs) (hends : separator :: last <:+ xs) :
    ∃ parts, Text.fields separator xs = first :: (parts ++ [last]) := by
  obtain ⟨rest, hrest⟩ := hstarts
  obtain ⟨front, hfront⟩ := hends
  have hbehind : Text.fields separator xs = first :: Text.fields separator rest := by
    rw [← hrest, List.append_assoc]
    exact Text.fields_append_cons hfirst rest
  have hbefore : Text.fields separator xs = Text.fields separator front ++ [last] := by
    rw [← hfront, Text.fields_append_separator, Text.fields_of_not_mem hlast]
  -- the parts behind the first are not empty, and end with the last
  obtain ⟨parts, part, hparts⟩ :=
    (List.eq_nil_or_concat' (Text.fields separator rest)).resolve_left (Text.fields_ne_nil _ _)
  rw [hparts] at hbehind
  have hboth := congrArg List.getLast? (hbefore.symm.trans hbehind)
  rw [List.getLast?_concat, ← List.cons_append, List.getLast?_concat] at hboth
  obtain rfl := Option.some.inj hboth
  exact ⟨parts, hbehind⟩

/-- A list that is cut so is the two parts, with nothing or something between them. -/
theorem eq_of_fields {parts : List (List α)}
    (h : Text.fields separator xs = first :: (parts ++ [last])) :
    xs = first ++ separator :: last ∨
      ∃ middle, xs = first ++ separator :: (middle ++ separator :: last) := by
  have hfirst : List.intercalate [separator] (first :: (parts ++ [last])) = first ++ [separator] ++
      List.intercalate [separator] (parts ++ [last]) := by
    have hsplit := Text.intercalate_append [separator] (List.cons_ne_nil first [])
      (List.append_ne_nil_of_right_ne_nil parts (List.cons_ne_nil last []))
    rwa [List.intercalate_singleton] at hsplit
  have hwhole := Text.intercalate_fields separator xs
  rw [h, hfirst] at hwhole
  cases parts with
  | nil =>
      rw [List.nil_append, List.intercalate_singleton] at hwhole
      exact Or.inl (by simp [← hwhole])
  | cons part others =>
      have hlast := Text.intercalate_append [separator] (List.cons_ne_nil part others)
        (List.cons_ne_nil last [])
      rw [List.intercalate_singleton] at hlast
      rw [hlast] at hwhole
      exact Or.inr ⟨List.intercalate [separator] (part :: others), by simp [← hwhole]⟩

end Ends

section Names

variable {name suffix : String}

theorem namedFor_iff (name suffix : String) (file : Bytes) : NamedFor name suffix file ↔
    file = utf8 name ++ dot :: utf8 suffix ∨
      ∃ middle, file = utf8 name ++ dot :: (middle ++ dot :: utf8 suffix) := by
  have hdot : utf8 "." = [dot] := rfl
  simp [NamedFor, utf8_append, hdot]

/-- A file is named for an extension exactly if its name, cut by its dots, starts and ends so. -/
theorem namedFor_iff_fields (hname : IsPlainWord name) (hsuffix : IsPlainWord suffix)
    (file : Bytes) : NamedFor name suffix file ↔
      ∃ tags, Text.fields dot file = utf8 name :: (tags ++ [utf8 suffix]) := by
  rw [namedFor_iff]
  constructor
  · intro h
    refine fields_of_ends hname.dot_notMem_utf8 hsuffix.dot_notMem_utf8 ?_ ?_
    · rcases h with rfl | ⟨middle, rfl⟩ <;> exact ⟨_, List.append_assoc _ _ _⟩
    · rcases h with rfl | ⟨middle, rfl⟩
      · exact ⟨utf8 name, rfl⟩
      · exact ⟨utf8 name ++ dot :: middle, by simp⟩
  · rintro ⟨tags, htags⟩
    exact eq_of_fields htags

theorem matchesName_iff {file : Bytes} :
    isArtifactName name suffix file = true ↔ MatchesName name suffix file := by
  unfold isArtifactName
  dsimp only
  rw [Bool.and_eq_true, List.isPrefixOf_iff_prefix, List.isSuffixOf_iff_suffix]
  exact ⟨fun h => ⟨h.1, h.2⟩, fun h => ⟨h.starts, h.ends⟩⟩

/-- **A file may be the library of an extension exactly if it is named for it.** -/
theorem isArtifactName_iff (hname : IsPlainWord name) (hsuffix : IsPlainWord suffix)
    (file : Bytes) : isArtifactName name suffix file = true ↔ NamedFor name suffix file := by
  have hcut := Utf8.fields_decodeLossy (a := dot) (by decide) file
  have hfront : (name ++ ".").toList = name.toList ++ ['.'] := by simp [String.toList_append]
  have hback : ("." ++ suffix).toList = '.' :: suffix.toList := by simp [String.toList_append]
  rw [namedFor_iff_fields hname hsuffix, matchesName_iff]
  constructor
  · rintro ⟨hstarts, hends⟩
    rw [hfront] at hstarts
    rw [hback] at hends
    obtain ⟨parts, hparts⟩ := fields_of_ends hname.dot_notMem hsuffix.dot_notMem hstarts hends
    -- the parts of the bytes are shown as these
    obtain ⟨first, others, hfields, hfirst, hothers⟩ :=
      List.map_eq_cons_iff.mp (hcut.symm.trans hparts)
    obtain ⟨tags, lasts, rfl, -, hlasts⟩ := List.map_eq_append_iff.mp hothers
    obtain ⟨last, rfl, hlast⟩ := List.map_eq_singleton_iff.mp hlasts
    rw [hfields, (hname.shown_iff first).mp hfirst, (hsuffix.shown_iff last).mp hlast]
    exact ⟨tags, rfl⟩
  · rintro ⟨tags, htags⟩
    have hshown : Text.fields '.' (Utf8.decodeLossy file) =
        name.toList :: (tags.map Utf8.decodeLossy ++ [suffix.toList]) := by
      refine hcut.trans ?_
      rw [htags, List.map_cons, List.map_append, List.map_singleton, (hname.shown_iff _).mpr rfl,
        (hsuffix.shown_iff _).mpr rfl]
    have hends : name.toList ++ ['.'] <+: Utf8.decodeLossy file ∧
        '.' :: suffix.toList <:+ Utf8.decodeLossy file := by
      rcases eq_of_fields hshown with hfile | ⟨middle, hfile⟩
      · rw [hfile]
        exact ⟨⟨_, List.append_assoc _ _ _⟩, ⟨name.toList, rfl⟩⟩
      · rw [hfile]
        exact ⟨⟨_, List.append_assoc _ _ _⟩, ⟨name.toList ++ '.' :: middle, by simp⟩⟩
    exact ⟨by rw [hfront]; exact hends.1, by rw [hback]; exact hends.2⟩

end Names

/-! ### What is found -/

namespace Machine

variable {m : Machine} {directory : Path}

/-- What is found by its name in a directory is listed there. -/
theorem mem_list_of_find {name : String} (hname : Path.IsName name) {found : Place × Entry}
    (hfound : m.find (directory.joinText name) = .ok found) {names : List Bytes}
    (hlist : m.list directory = .ok names) : utf8 name ∈ names := by
  obtain ⟨⟨place, entry⟩, hfind, hlist⟩ := bind_ok_iff.mp hlist
  have hne : directory.bytes ≠ [] := by
    obtain ⟨hlocate, -⟩ := find_ok hfind
    obtain ⟨_, hcheck, -⟩ := bind_ok_iff.mp hlocate
    intro hnil
    simp [checkPath, Path.isEmpty, hnil] at hcheck
  obtain ⟨here, fixed, hdirectory, hstep⟩ := step_of_join hname.2.2.2 hne hfound
  obtain ⟨rfl, rfl⟩ := Prod.mk.inj (Except.ok.inj (hfind.symm.trans hdirectory))
  dsimp only at hlist
  -- nothing is found by a name in a directory that was removed
  obtain ⟨hkept, -, hthere, -⟩ := (stepFrom_ok_iff.mp hstep).2.of_name hname.ofPiece?
  rw [hkept] at hlist
  obtain rfl := ok_iff_pure.mp hlist
  exact FileTree.mem_names_iff.mpr hthere

/-- **The library that the toolchain names is found before all others.** -/
theorem findArtifact_exact {name suffix : String}
    (h : m.isFile (directory.joinText (name ++ "." ++ suffix)) = true) :
    m.findArtifact name directory suffix =
      .ok (directory.joinText (name ++ "." ++ suffix)) := by
  unfold findArtifact
  dsimp only
  rw [if_pos h]

/-- **Where no file is named for the extension, no library is found.** -/
theorem findArtifact_notFound {name suffix : String} (hname : IsPlainWord name)
    (hsuffix : IsPlainWord suffix) (hexact : Path.IsName (name ++ "." ++ suffix))
    {names : List Bytes} (hlist : m.list directory = .ok names)
    (hnone : ∀ file ∈ names, NamedFor name suffix file → m.isFile (directory.join ⟨file⟩) = false) :
    m.findArtifact name directory suffix = .error (.notFound name directory) := by
  have hfile : m.isFile (directory.joinText (name ++ "." ++ suffix)) = false := by
    cases hfound : m.find (directory.joinText (name ++ "." ++ suffix)) with
    | error cause => rw [isFile, hfound]
    | ok found => exact hnone _ (mem_list_of_find hexact hfound hlist) (Or.inl rfl)
  have hchoice : chooseArtifact? name suffix (fun file => m.isFile (directory.join ⟨file⟩)) names =
      none := by
    rw [chooseArtifact?, leastBytes?_eq_none_iff, List.filter_eq_nil_iff]
    intro file hmem hchosen
    obtain ⟨hnamed, hregular⟩ := Bool.and_eq_true_iff.mp hchosen
    rw [hnone file hmem ((isArtifactName_iff hname hsuffix file).mp hnamed)] at hregular
    cases hregular
  unfold findArtifact
  dsimp only
  rw [hfile, hlist]
  dsimp only
  rw [hchoice]
  rfl

end Machine

end NativeExtension
