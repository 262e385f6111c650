import Mathlib.Data.Prod.Lex
import NativeExtension.Machine.Files
import NativeExtension.Proofs.Text.Decoding
import NativeExtension.Proofs.Text.Numerals
import NativeExtension.Session.Detection

/-!
# NativeExtension.Proofs.Toolchain.NewestVersion

**The newest of several installations is the one with the highest version.** A name tells a version
exactly if it is a `v`, a numeral, a dot and a numeral (`tellsVersion_iff`). Of the names in a
directory that do, the one that is picked tells no lower version than any other
(`highest_of_newestVersioned?`); names that tell none are as good as not there
(`newestVersioned?_skip`), and unless two names tell one version, the order in which they are
listed makes no difference (`newestVersioned?_eq_of_mem_iff`).
-/

namespace NativeExtension

/-- The version as a pair of numbers, which are compared one after the other. -/
def Version.pair (v : Version) : Nat ×ₗ Nat := toLex (v.major, v.minor)

theorem Version.le_iff {a b : Version} : a.le b = true ↔ a.pair ≤ b.pair := by
  rw [pair, pair, Prod.Lex.toLex_le_toLex, le, Bool.or_eq_true, Bool.and_eq_true,
    decide_eq_true_iff, decide_eq_true_iff, beq_iff_eq]

/-- The name tells the version: a `v`, a numeral, a dot and a numeral, all in ASCII. -/
def TellsVersion (name : Bytes) (version : Version) : Prop :=
  ∃ major minor, name = Utf8.encode ('v' :: (major ++ '.' :: minor)) ∧
    Text.WritesSigned major version.major ∧ Text.WritesSigned minor version.minor

/-- The name is listed, and no other tells a higher version than it does. -/
structure Highest (names : List Bytes) (name : Bytes) (version : Version) : Prop where
  listed : name ∈ names
  tells : TellsVersion name version
  highest : ∀ other ∈ names, ∀ v, TellsVersion other v → v.pair ≤ version.pair

/-- No two names tell one version. -/
def NoTies (names : List Bytes) : Prop :=
  ∀ name ∈ names, ∀ other ∈ names, ∀ v, TellsVersion name v → TellsVersion other v → name = other

/-! ### The version that a name tells -/

/-- A text has one cut at a dot with none in front of it. -/
theorem splitFirstDot_eq_some_iff {text before after : List Char} :
    splitFirstDot text = some (before, after) ↔ text = before ++ '.' :: after ∧ '.' ∉ before := by
  induction text generalizing before with
  | nil => simp [splitFirstDot]
  | cons c rest ih =>
      rw [splitFirstDot]
      split
      · next hdot =>
        subst hdot
        cases before with
        | nil => simp
        | cons first others => simp +contextual [eq_comm]
      · next hdot =>
        rw [Option.map_eq_some_iff]
        constructor
        · rintro ⟨⟨front, back⟩, hsplit, heq⟩
          obtain ⟨rfl, rfl⟩ := Prod.mk.inj heq
          obtain ⟨rfl, hfront⟩ := ih.mp hsplit
          exact ⟨rfl, by simp [hfront, Ne.symm hdot]⟩
        · rintro ⟨hsplit, hbefore⟩
          cases before with
          | nil => exact absurd (List.cons.inj hsplit).1 hdot
          | cons first others =>
              obtain ⟨rfl, rfl⟩ := List.cons.inj hsplit
              exact ⟨(others, after),
                ih.mpr ⟨rfl, fun hmem => hbefore (List.mem_cons_of_mem _ hmem)⟩, rfl⟩

theorem dot_notMem_of_writesSigned {numeral : List Char} {n : Nat}
    (h : Text.WritesSigned numeral n) : '.' ∉ numeral := by
  intro hdot
  rcases h.ascii '.' hdot with hdigit | hplus
  · exact absurd hdigit (by decide)
  · exact absurd hplus (by decide)

/-- A numeral holds no dot, so the first dot is the one between the two numerals. -/
theorem versionOfDirectory?_eq_some_iff {text : List Char} {version : Version} :
    versionOfDirectory? text = some version ↔ ∃ major minor,
      text = 'v' :: (major ++ '.' :: minor) ∧ Text.WritesSigned major version.major ∧
        Text.WritesSigned minor version.minor := by
  constructor
  · intro h
    unfold versionOfDirectory? at h
    split at h
    · next rest =>
      obtain ⟨⟨major, minor⟩, hsplit, hnumerals⟩ := Option.bind_eq_some_iff.mp h
      obtain ⟨a, ha, hminor⟩ := Option.bind_eq_some_iff.mp hnumerals
      obtain ⟨b, hb, hversion⟩ := Option.bind_eq_some_iff.mp hminor
      obtain rfl := Option.some.inj hversion
      exact ⟨major, minor, congrArg _ (splitFirstDot_eq_some_iff.mp hsplit).1,
        Text.signedNumeral?_eq_some_iff.mp ha, Text.signedNumeral?_eq_some_iff.mp hb⟩
    · cases h
  · rintro ⟨major, minor, rfl, hmajor, hminor⟩
    have hsplit : splitFirstDot (major ++ '.' :: minor) = some (major, minor) :=
      splitFirstDot_eq_some_iff.mpr ⟨rfl, dot_notMem_of_writesSigned hmajor⟩
    simp [versionOfDirectory?, hsplit, Text.signedNumeral?_eq_some_iff.mpr hmajor,
      Text.signedNumeral?_eq_some_iff.mpr hminor]

/-- **Which names tell a version.** -/
theorem tellsVersion_iff {name : Bytes} {version : Version} :
    (Utf8.decode? name).bind versionOfDirectory? = some version ↔ TellsVersion name version := by
  constructor
  · intro h
    obtain ⟨text, htext, h⟩ := Option.bind_eq_some_iff.mp h
    obtain ⟨major, minor, rfl, hmajor, hminor⟩ := versionOfDirectory?_eq_some_iff.mp h
    exact ⟨major, minor, Utf8.decode?_eq_some_iff.mp htext, hmajor, hminor⟩
  · rintro ⟨major, minor, rfl, hmajor, hminor⟩
    rw [Utf8.decode?_encode, Option.bind_some]
    exact versionOfDirectory?_eq_some_iff.mpr ⟨major, minor, rfl, hmajor, hminor⟩

theorem TellsVersion.unique {name : Bytes} {v w : Version} (h : TellsVersion name v)
    (h' : TellsVersion name w) : v = w :=
  Option.some.inj ((tellsVersion_iff.mpr h).symm.trans (tellsVersion_iff.mpr h'))

/-! ### The name that is picked -/

section Names

variable {names names' : List Bytes} {name other : Bytes} {v w : Version}

theorem mem_versionedNames_iff :
    (v, name) ∈ versionedNames names ↔ name ∈ names ∧ TellsVersion name v := by
  unfold versionedNames
  rw [List.mem_filterMap]
  constructor
  · rintro ⟨listed, hlisted, h⟩
    obtain ⟨version, hversion, h⟩ := Option.bind_eq_some_iff.mp h
    obtain ⟨rfl, rfl⟩ := Prod.mk.inj (Option.some.inj h)
    exact ⟨hlisted, tellsVersion_iff.mp hversion⟩
  · rintro ⟨hlisted, htells⟩
    exact ⟨name, hlisted, by simp [tellsVersion_iff.mpr htells]⟩

theorem le_newer (best entry : Version × Bytes) :
    best.1.le (newer best entry).1 = true ∧ entry.1.le (newer best entry).1 = true := by
  unfold newer
  split
  · next hle => exact ⟨hle, Version.le_refl _⟩
  · next hle => exact ⟨Version.le_refl _, (Version.le_total _ _).resolve_left hle⟩

/-- The entry that is left is one of those there were, and none of them is higher. -/
theorem foldl_newer (first : Version × Bytes) (rest : List (Version × Bytes)) :
    rest.foldl newer first ∈ first :: rest ∧
      ∀ entry ∈ first :: rest, entry.1.le (rest.foldl newer first).1 = true := by
  induction rest generalizing first with
  | nil => simp [Version.le_refl]
  | cons next rest ih =>
      obtain ⟨hmem, hhighest⟩ := ih (newer first next)
      obtain ⟨hfirst, hnext⟩ := le_newer first next
      have hbest := hhighest _ List.mem_cons_self
      constructor
      · rcases List.mem_cons.mp hmem with heq | hmem
        · rw [List.foldl_cons, heq, newer]
          split <;> simp
        · exact List.mem_cons_of_mem _ (List.mem_cons_of_mem _ hmem)
      · intro entry hentry
        rw [List.foldl_cons]
        rcases List.mem_cons.mp hentry with rfl | hentry
        · exact Version.le_trans hfirst hbest
        · rcases List.mem_cons.mp hentry with rfl | hentry
          · exact Version.le_trans hnext hbest
          · exact hhighest entry (List.mem_cons_of_mem _ hentry)

/-- **The name that is picked tells the highest version.** -/
theorem highest_of_newestVersioned? (h : newestVersioned? names = some name) :
    ∃ version, Highest names name version := by
  unfold newestVersioned? at h
  split at h
  · cases h
  · next first rest hentries =>
    obtain rfl := Option.some.inj h
    obtain ⟨hmem, hhighest⟩ := foldl_newer first rest
    rw [← hentries] at hmem hhighest
    obtain ⟨hlisted, htells⟩ := mem_versionedNames_iff.mp hmem
    refine ⟨_, hlisted, htells, ?_⟩
    intro other hother v hv
    exact Version.le_iff.mp (hhighest (v, other) (mem_versionedNames_iff.mpr ⟨hother, hv⟩))

/-- A name is picked unless none tells a version. -/
theorem newestVersioned?_eq_none_iff :
    newestVersioned? names = none ↔ ∀ name ∈ names, ∀ v, ¬TellsVersion name v := by
  have hnone : newestVersioned? names = none ↔ versionedNames names = [] := by
    unfold newestVersioned?
    cases versionedNames names <;> simp
  rw [hnone, List.eq_nil_iff_forall_not_mem]
  constructor
  · intro h name hname v hv
    exact h (v, name) (mem_versionedNames_iff.mpr ⟨hname, hv⟩)
  · rintro h ⟨v, name⟩ hmem
    obtain ⟨hname, hv⟩ := mem_versionedNames_iff.mp hmem
    exact h name hname v hv

/-- **A name that tells no version makes no difference**, wherever it is listed. -/
theorem newestVersioned?_skip (h : ∀ v, ¬TellsVersion other v) (before after : List Bytes) :
    newestVersioned? (before ++ other :: after) = newestVersioned? (before ++ after) := by
  have hnone : (Utf8.decode? other).bind versionOfDirectory? = none := by
    rw [Option.eq_none_iff_forall_ne_some]
    exact fun v hv => h v (tellsVersion_iff.mp hv)
  have hentries : versionedNames (before ++ other :: after) =
      versionedNames (before ++ after) := by
    unfold versionedNames
    rw [List.filterMap_append, List.filterMap_append, List.filterMap_cons_none]
    simp [hnone]
  rw [newestVersioned?, newestVersioned?, hentries]

/-- Two highest names tell versions of which neither is the lower, so they tell the same one.
-/
theorem Highest.eq (h : Highest names name v) (h' : Highest names other w)
    (hties : NoTies names) : name = other := by
  have hpair : v.pair = w.pair :=
    le_antisymm (h'.highest name h.listed v h.tells) (h.highest other h'.listed w h'.tells)
  obtain rfl : v = w := Version.le_antisymm (Version.le_iff.mpr hpair.le)
    (Version.le_iff.mpr hpair.ge)
  exact hties name h.listed other h'.listed v h.tells h'.tells

/-- **The order of the names makes no difference** if no two tell one version. -/
theorem newestVersioned?_eq_of_mem_iff (hmem : ∀ name, name ∈ names' ↔ name ∈ names)
    (hties : NoTies names) : newestVersioned? names' = newestVersioned? names := by
  cases hnewest : newestVersioned? names with
  | none =>
      rw [newestVersioned?_eq_none_iff] at hnewest ⊢
      exact fun name hname => hnewest name ((hmem name).mp hname)
  | some name =>
      obtain ⟨v, hhighest⟩ := highest_of_newestVersioned? hnewest
      cases hnewest' : newestVersioned? names' with
      | none =>
          have hnone := newestVersioned?_eq_none_iff.mp hnewest'
          exact absurd hhighest.tells (hnone name ((hmem name).mpr hhighest.listed) v)
      | some other =>
          obtain ⟨w, hlisted, htells, hhighest'⟩ := highest_of_newestVersioned? hnewest'
          have hother : Highest names other w :=
            ⟨(hmem other).mp hlisted, htells, fun x hx => hhighest' x ((hmem x).mpr hx)⟩
          rw [hhighest.eq hother hties]

end Names

/-! ### The directory -/

namespace Machine

theorem newestVersionedDir?_of_list {m : Machine} {parent : Path} {names : List Bytes}
    (h : m.list parent = .ok names) :
    m.newestVersionedDir? parent = (newestVersioned? names).map fun name => parent.join ⟨name⟩ := by
  unfold newestVersionedDir?
  rw [h]

/-- **The newest installation in a directory.** There is one exactly if the directory lists a name
that tells a version, and then it lies under a name that tells the highest one; names that tell no
version are passed over; and the order in which the names are listed does not matter unless two of
them tell one version. -/
theorem newestVersionedDir?_highest :
    (∀ (m : Machine) parent, (∃ p, m.newestVersionedDir? parent = some p) ↔
      ∃ names, m.list parent = .ok names ∧ ∃ name ∈ names, ∃ v, TellsVersion name v) ∧
    (∀ (m : Machine) parent p, m.newestVersionedDir? parent = some p →
      ∃ names name v, m.list parent = .ok names ∧ Highest names name v ∧
        p = parent.join ⟨name⟩) ∧
    (∀ (m m' : Machine) parent before other after, (∀ v, ¬TellsVersion other v) →
      m.list parent = .ok (before ++ other :: after) → m'.list parent = .ok (before ++ after) →
      m'.newestVersionedDir? parent = m.newestVersionedDir? parent) ∧
    (∀ (m m' : Machine) parent names names', m.list parent = .ok names →
      m'.list parent = .ok names' → names'.Perm names → NoTies names →
      m'.newestVersionedDir? parent = m.newestVersionedDir? parent) := by
  refine ⟨?_, ?_, ?_, ?_⟩
  · intro m parent
    cases hlist : m.list parent with
    | error cause => simp [newestVersionedDir?, hlist]
    | ok names =>
        rw [newestVersionedDir?_of_list hlist]
        cases hnewest : newestVersioned? names with
        | none =>
            have hnone := newestVersioned?_eq_none_iff.mp hnewest
            simpa using hnone
        | some name =>
            obtain ⟨v, hhighest⟩ := highest_of_newestVersioned? hnewest
            exact iff_of_true ⟨_, rfl⟩ ⟨names, rfl, name, hhighest.listed, v, hhighest.tells⟩
  · intro m parent p h
    cases hlist : m.list parent with
    | error cause =>
        rw [newestVersionedDir?, hlist] at h
        cases h
    | ok names =>
        rw [newestVersionedDir?_of_list hlist] at h
        obtain ⟨name, hname, rfl⟩ := Option.map_eq_some_iff.mp h
        obtain ⟨v, hhighest⟩ := highest_of_newestVersioned? hname
        exact ⟨names, name, v, rfl, hhighest, rfl⟩
  · intro m m' parent before other after hother hlist hlist'
    rw [newestVersionedDir?_of_list hlist, newestVersionedDir?_of_list hlist',
      newestVersioned?_skip hother]
  · intro m m' parent names names' hlist hlist' hperm hties
    rw [newestVersionedDir?_of_list hlist, newestVersionedDir?_of_list hlist',
      newestVersioned?_eq_of_mem_iff (fun _ => hperm.mem_iff) hties]

/-- A directory with those installations in it, listed in that order. -/
def withInstallations (names : List Bytes) : Machine where
  files :=
    { entries := ([utf8 "cuda"], .directory false) ::
        names.map fun name => ([name, utf8 "cuda"], .directory false)
      nextId := 0 }
  cwd := ⟨[], 0⟩
  env := []

/-- Older installations, and names that tell no version: one without a dot, one with two, one whose
number does not fit, and one that is not text. -/
def olderInstallations : List Bytes :=
  [utf8 "v9.2", utf8 "v+11.09", utf8 "v12", utf8 "v12.0.1", utf8 "v4294967296.0",
    utf8 "v99.9" ++ [0xFF]]

theorem noTies_of_versions {names : List Bytes}
    (h : ∀ name ∈ names, ∀ other ∈ names,
      (Utf8.decode? name).bind versionOfDirectory? = (Utf8.decode? other).bind versionOfDirectory? →
      ((Utf8.decode? name).bind versionOfDirectory?).isSome = true → name = other) :
    NoTies names := by
  intro name hname other hother v hv hv'
  rw [← tellsVersion_iff] at hv hv'
  exact h name hname other hother (hv.trans hv'.symm) (by rw [hv]; rfl)

/-- Version 11.10 is the newest among them; it is also found where another name stands beside it,
and where all are listed in the opposite order. -/
theorem newestVersionedDir?_highest_mixed :
    Highest (olderInstallations ++ [utf8 "v11.10"]) (utf8 "v11.10") ⟨11, 10⟩ ∧
    (withInstallations (olderInstallations ++ [utf8 "notes", utf8 "v11.10"])).newestVersionedDir?
      (.ofText "/cuda") = some (.ofText "/cuda/v11.10") ∧
    (withInstallations (utf8 "v11.10" :: olderInstallations.reverse)).newestVersionedDir?
      (.ofText "/cuda") = some (.ofText "/cuda/v11.10") := by
  obtain ⟨-, hhighest, hskip, horder⟩ := newestVersionedDir?_highest
  have hlist : (withInstallations (olderInstallations ++ [utf8 "v11.10"])).list
      (.ofText "/cuda") = .ok (olderInstallations ++ [utf8 "v11.10"]) := by
    decide +kernel
  have hnewest : (withInstallations (olderInstallations ++ [utf8 "v11.10"])).newestVersionedDir?
      (.ofText "/cuda") = some (.ofText "/cuda/v11.10") := by
    decide +kernel
  refine ⟨?_, ?_, ?_⟩
  · obtain ⟨names, name, v, hnames, hname, hp⟩ := hhighest _ _ _ hnewest
    obtain rfl := Except.ok.inj (hlist.symm.trans hnames)
    have hnamed : ∀ name ∈ olderInstallations ++ [utf8 "v11.10"],
        Path.ofText "/cuda/v11.10" = (Path.ofText "/cuda").join ⟨name⟩ →
          name = utf8 "v11.10" := by
      decide +kernel
    obtain rfl := hnamed name hname.listed hp
    have htells : TellsVersion (utf8 "v11.10") ⟨11, 10⟩ := by
      rw [← tellsVersion_iff]
      decide +kernel
    rwa [hname.tells.unique htells] at hname
  · have hnotes : ∀ v, ¬TellsVersion (utf8 "notes") v := by
      intro v hv
      have hnone : (Utf8.decode? (utf8 "notes")).bind versionOfDirectory? = none := by
        decide +kernel
      rw [← tellsVersion_iff, hnone] at hv
      cases hv
    exact (hskip (withInstallations (olderInstallations ++ [utf8 "notes", utf8 "v11.10"])) _ _
      olderInstallations _ [utf8 "v11.10"] hnotes (by decide +kernel) hlist).symm.trans hnewest
  · have hties : NoTies (olderInstallations ++ [utf8 "v11.10"]) :=
      noTies_of_versions (by decide +kernel)
    have hlist' : (withInstallations (utf8 "v11.10" :: olderInstallations.reverse)).list
        (.ofText "/cuda") = .ok (utf8 "v11.10" :: olderInstallations.reverse) := by
      decide +kernel
    have hperm : (utf8 "v11.10" :: olderInstallations.reverse).Perm
        (olderInstallations ++ [utf8 "v11.10"]) :=
      ((List.reverse_perm _).cons _).trans (List.perm_append_singleton _ _).symm
    exact (horder _ _ _ _ _ hlist hlist' hperm hties).trans hnewest

end Machine

end NativeExtension
