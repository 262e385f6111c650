import NativeExtension.Proofs.Machine.Programs

/-!
# NativeExtension.Proofs.Machine.Twins

**Two machines that differ at some places, and what cannot tell them apart.** `Twins` are in the
same directory, have the same environment, and hold the same files but for what a table of
`Differences` allows: at some places anything may be, at others there may be one program on one
machine and another on the other, at others a file may hold other bytes. A path `Avoids` places if
neither where it starts nor anything on its way is one of them. Whatever is made or written along a
path that avoids the places of the first kind is the same on both machines (`Twins.find`,
`Twins.createDirAll`, `Twins.write`), and so is what is read along it, unless it is read from where
the bytes may differ (`Twins.read?_eq`).

Machines that `DifferInBytes` differ in nothing else, so that every path leads to the same on both;
where no bytes may differ either, they hold the same files (`DifferInBytes.get?_eq`).
-/

namespace NativeExtension

/-! ### Ways around places -/

/-- The position is none of the places. -/
def Spot.Off (spot : Spot) (places : List Location) : Prop :=
  ∀ location ∈ places, spot ≠ location.map some

/-- Neither where the path starts nor anything it leads through is one of the places. -/
def Path.Avoids (p : Path) (start : Spot) (places : List Location) : Prop :=
  ∀ steps, steps <+: p.components → Spot.Off (walk start steps) places

instance (spot : Spot) (places : List Location) : Decidable (Spot.Off spot places) :=
  inferInstanceAs (Decidable (∀ location ∈ places, spot ≠ location.map some))

instance (p : Path) (start : Spot) (places : List Location) : Decidable (p.Avoids start places) :=
  decidable_of_iff (∀ steps ∈ p.components.inits, Spot.Off (walk start steps) places)
    (by simp [Path.Avoids])

theorem Path.avoids_nil (p : Path) (start : Spot) : p.Avoids start [] :=
  fun _ _ _ hmem => absurd hmem List.not_mem_nil

namespace Path.Avoids

variable {p q : Path} {start : Spot} {places : List Location}

theorem of_begins (h : p.Avoids start places) (hstart : q.components <+: p.components) :
    q.Avoids start places := fun steps hsteps => h steps (hsteps.trans hstart)

/-- What the path leads to is none of the places. -/
theorem not_mem {here : Place} (h : p.Avoids here.spot places) {location : Location}
    (hleads : LeadsTo here p location) : location ∉ places :=
  fun hmem => h p.components (List.prefix_refl _) location hmem hleads

/-- What the path leads through is none of the places. -/
theorem not_mem_through {here : Place} (h : p.Avoids here.spot places) {location : Location}
    (hleads : LeadsThrough here p location) : location ∉ places := by
  obtain ⟨steps, -, hsteps, hwalk⟩ := hleads
  exact fun hmem => h steps hsteps location hmem hwalk

/-- The way along the first pieces of the path avoids the places. -/
theorem off {m : Machine} (h : p.Avoids m.cwd.spot places) {pieces : List Bytes}
    (hpieces : pieces <+: p.pieces) :
    Spot.Off (walk (m.startOf p).spot (pieces.filterMap Component.ofPiece?)) places := by
  obtain ⟨lead, hcomponents, hlead⟩ := p.exists_lead
  have hstart : (m.startOf p).spot = walk m.cwd.spot lead := by
    rw [hlead, Machine.startOf]
    split <;> rfl
  rw [hstart, ← walk_append]
  refine h _ ?_
  rw [hcomponents]
  exact (List.prefix_append_right_inj lead).mpr (hpieces.filterMap Component.ofPiece?)

end Path.Avoids

/-! ### Twins -/

/-- Where two machines may differ, and in what. -/
structure Differences where
  /-- Anything may be there on either machine. -/
  hidden : List Location := []
  /-- There may be one program on one machine, and another on the other. -/
  programs : List Location := []
  /-- A file there that is neither a program nor a library may hold other bytes. -/
  bytes : Location → Prop := fun _ => False
  /-- Files may go by other numbers, wherever they are. -/
  numbers : Prop := False

/-- The path leads to the same on both machines, and not where programs may differ. -/
def Path.LeadsAlike (p : Path) (start : Spot) (d : Differences) : Prop :=
  p.Avoids start d.hidden ∧ Spot.Off (walk start p.components) d.programs

instance (p : Path) (start : Spot) (d : Differences) : Decidable (p.LeadsAlike start d) :=
  inferInstanceAs (Decidable (_ ∧ _))

/-- The files hold the same; or each a program, or each bytes, where these may differ. -/
inductive SameContent (programs bytes : Prop) : Content → Content → Prop where
  | same (content : Content) : SameContent programs bytes content content
  | program (h : programs) (script script' : Script) :
      SameContent programs bytes (.program script) (.program script')
  | bytes (h : bytes) {content : Content} {earlier : Bytes}
      (hholds : content.bytes? = some earlier) (other : Bytes) :
      SameContent programs bytes content (content.overwritten other)

/-- The same is there, but for what may differ. -/
inductive SameThere (numbers programs bytes : Prop) : Option Entry → Option Entry → Prop where
  | nothing : SameThere numbers programs bytes none none
  | directory (fixed : Bool) :
      SameThere numbers programs bytes (some (.directory fixed)) (some (.directory fixed))
  | file {id id' : Nat} {content content' : Content} (hid : id' = id ∨ numbers)
      (hcontent : SameContent programs bytes content content') :
      SameThere numbers programs bytes (some (.file id content)) (some (.file id' content'))
  | device : SameThere numbers programs bytes (some .device) (some .device)

/-- A file that is written over with what it holds holds the same. -/
theorem Content.overwritten_self {content : Content} {bytes : Bytes}
    (h : content.bytes? = some bytes) : content.overwritten bytes = content := by
  cases content <;> cases h <;> rfl

namespace SameContent

variable {programs programs' bytes bytes' : Prop} {content content' : Content}

theorem mono (h : SameContent programs bytes content content') (hprograms : programs → programs')
    (hbytes : bytes → bytes') : SameContent programs' bytes' content content' := by
  cases h with
  | same => exact .same _
  | program h script script' => exact .program (hprograms h) script script'
  | bytes h hholds other => exact .bytes (hbytes h) hholds other

/-- Written over, both hold the same. -/
theorem overwritten_eq (h : SameContent programs bytes content content') (new : Bytes) :
    content'.overwritten new = content.overwritten new := by
  cases h with
  | same => rfl
  | program => rfl
  | bytes => exact Content.overwritten_overwritten _ _ _

end SameContent

namespace SameThere

variable {numbers programs programs' bytes bytes' : Prop} {entry entry' : Option Entry}

theorem refl (numbers programs bytes : Prop) (entry : Option Entry) :
    SameThere numbers programs bytes entry entry := by
  cases entry with
  | none => exact .nothing
  | some entry =>
      cases entry with
      | directory fixed => exact .directory fixed
      | file id content => exact .file (Or.inl rfl) (.same content)
      | device => exact .device

theorem isSome_eq (h : SameThere numbers programs bytes entry entry') :
    entry'.isSome = entry.isSome := by
  cases h <;> rfl

theorem mono (h : SameThere numbers programs bytes entry entry') (hprograms : programs → programs')
    (hbytes : bytes → bytes') : SameThere numbers programs' bytes' entry entry' := by
  cases h with
  | nothing => exact .nothing
  | directory fixed => exact .directory fixed
  | file hid hcontent => exact .file hid (hcontent.mono hprograms hbytes)
  | device => exact .device

/-- Where nothing may differ nothing does. -/
theorem eq_of_not (h : SameThere numbers programs bytes entry entry') (hnumbers : ¬ numbers)
    (hprograms : ¬ programs) (hbytes : ¬ bytes) : entry' = entry := by
  cases h with
  | nothing => rfl
  | directory => rfl
  | device => rfl
  | file hid hcontent =>
      obtain rfl := hid.resolve_right hnumbers
      cases hcontent with
      | same => rfl
      | program h => exact absurd h hprograms
      | bytes h => exact absurd h hbytes

end SameThere

/-- The machines differ nowhere but where they may, and programs do the same on both. -/
structure Twins (d : Differences) (m m' : Machine) : Prop where
  cwd : m'.cwd = m.cwd
  env : m'.env = m.env
  libraryDirs : m'.libraryDirs = m.libraryDirs
  behavior : m'.behavior = m.behavior
  fresh : m'.files.nextId = m.files.nextId ∨ d.numbers
  same : ∀ location, location ∉ d.hidden →
    SameThere d.numbers (location ∈ d.programs) (d.bytes location) (m.files.get? location)
      (m'.files.get? location)

/-- The machines differ in nothing but what some files hold. -/
abbrev DifferInBytes (places : Location → Prop) : Machine → Machine → Prop :=
  Twins { bytes := places }

namespace Twins

variable {d : Differences} {m m' : Machine}

theorem refl (d : Differences) (m : Machine) : Twins d m m :=
  ⟨rfl, rfl, rfl, rfl, Or.inl rfl, fun _ _ => .refl _ _ _ _⟩

theorem atPlace (h : Twins d m m') (place : Place) :
    Twins d { m with cwd := place } { m' with cwd := place } :=
  ⟨rfl, h.env, h.libraryDirs, h.behavior, h.fresh, h.same⟩

/-- Twins stay twins, whatever is done to one of them at the hidden places. -/
theorem of_edits {licence licence' : Licence} {after after' : Machine} (h : Twins d m m')
    (hnumbers : d.numbers) (hedits : Edits licence m after) (hedits' : Edits licence' m' after')
    (hwithin : ∀ location, licence.Covers location → location ∈ d.hidden)
    (hwithin' : ∀ location, licence'.Covers location → location ∈ d.hidden) :
    Twins d after after' := by
  refine ⟨?_, ?_, ?_, ?_, Or.inr hnumbers, ?_⟩
  · rw [hedits.cwd_eq, hedits'.cwd_eq, h.cwd]
  · rw [hedits.env_eq, hedits'.env_eq, h.env]
  · rw [hedits.machine_eq, hedits'.machine_eq]
    exact h.libraryDirs
  · rw [hedits.behavior_eq, hedits'.behavior_eq, h.behavior]
  · intro location hmem
    rw [hedits.get?_of_not_covers fun hcovers => hmem (hwithin _ hcovers),
      hedits'.get?_of_not_covers fun hcovers => hmem (hwithin' _ hcovers)]
    exact h.same location hmem

/-! ### Following and finding -/

section Reading

variable {here : Place} {p : Path}

omit m m' in
theorem dropTrailing_begins (pieces : List Bytes) : Machine.dropTrailing pieces <+: pieces := by
  have hsuffix := List.dropWhile_suffix (l := pieces.reverse) (fun piece => decide (piece = []))
  rw [← List.reverse_prefix, List.reverse_reverse] at hsuffix
  exact hsuffix

/-- What is at a place is the same, but for what may differ where the place is. -/
theorem entryAt? (h : Twins d m m') (hhere : here.spot.Off d.hidden) :
    SameThere d.numbers (¬ here.spot.Off d.programs)
      (∃ location, here.spot = location.map some ∧ d.bytes location)
      (m.entryAt? here) (m'.entryAt? here) := by
  unfold Machine.entryAt?
  split
  · exact .refl _ _ _ _
  · next hthere =>
    have hspot := Place.spot_of_kept (Bool.eq_false_iff.mpr hthere)
    exact (h.same _ fun hmem => hhere _ hmem hspot).mono (fun hmem hoff => hoff _ hmem hspot)
      fun hbytes => ⟨_, hspot, hbytes⟩

/-- A step goes alike if neither the directory nor what it leads to is hidden. -/
theorem stepFrom_eq (h : Twins d m m') {piece : Bytes} (hhere : here.spot.Off d.hidden)
    (hthere : Spot.Off (walk here.spot (Component.ofPiece? piece).toList) d.hidden) :
    m'.stepFrom here piece = m.stepFrom here piece := by
  have hentry := h.entryAt? hhere
  unfold Machine.stepFrom
  generalize m.entryAt? here = entry, m'.entryAt? here = entry' at hentry ⊢
  cases hentry with
  | nothing => rfl
  | file => rfl
  | device => rfl
  | directory fixed =>
      by_cases hstays : piece = [] ∨ piece = [dot]
      · simp only [if_pos hstays]
      · by_cases hparent : piece = [dot, dot]
        · simp only [if_neg hstays, if_pos hparent]
        · by_cases hremoved : here.isRemoved = true
          · simp only [if_neg hstays, if_neg hparent, if_pos hremoved]
          · -- only a name is looked up
            have hspot := Place.spot_of_kept (Bool.eq_false_iff.mpr hremoved)
            have hname : piece :: here.location ∉ d.hidden := by
              refine fun hmem => hthere _ hmem ?_
              simp [Component.ofPiece?, hstays, hparent, hspot]
            rw [(h.same _ hname).isSome_eq]

/-- By induction on the pieces: every first part of the way has to stay off the hidden places.
-/
theorem follow_eq (h : Twins d m m') {pieces : List Bytes}
    (hoff : ∀ first, first <+: pieces →
      Spot.Off (walk here.spot (first.filterMap Component.ofPiece?)) d.hidden) :
    m'.follow here pieces = m.follow here pieces := by
  induction pieces generalizing here with
  | nil => rfl
  | cons piece rest ih =>
      have hpiece : ∀ first, (piece :: first).filterMap Component.ofPiece? =
          (Component.ofPiece? piece).toList ++ first.filterMap Component.ofPiece? := by
        intro first
        cases hstep : Component.ofPiece? piece <;> simp [hstep]
      have hnext := hoff [piece] (by simp)
      rw [hpiece, List.filterMap_nil, List.append_nil] at hnext
      rw [Machine.follow, Machine.follow, h.stepFrom_eq (hoff [] List.nil_prefix) hnext]
      cases hstep : m.stepFrom here piece with
      | error cause => rfl
      | ok next =>
          refine ih ?_
          intro first hfirst
          rw [Machine.stepFrom_spot hstep, ← walk_append, ← hpiece]
          exact hoff _ (List.cons_prefix_cons.mpr ⟨rfl, hfirst⟩)

theorem startOf_eq (h : Twins d m m') (p : Path) : m'.startOf p = m.startOf p := by
  rw [Machine.startOf, Machine.startOf, h.cwd]

theorem locate_eq (h : Twins d m m') (hp : p.Avoids m.cwd.spot d.hidden) :
    m'.locate p = m.locate p := by
  unfold Machine.locate
  rw [h.startOf_eq, h.follow_eq fun first hfirst => hp.off hfirst]

/-- **A path leads to the same on both machines**, if it avoids the hidden places. -/
theorem find (h : Twins d m m') (hp : p.Avoids m.cwd.spot d.hidden) :
    SameOutcome Eq (fun found found' => found'.1 = found.1 ∧
        SameThere d.numbers (¬ found.1.spot.Off d.programs)
          (∃ location, found.1.spot = location.map some ∧ d.bytes location)
          (some found.2) (some found'.2))
      (m.find p) (m'.find p) := by
  unfold Machine.find
  rw [h.locate_eq hp]
  cases hlocate : m.locate p with
  | error cause => exact .error rfl
  | ok place =>
      have hplace : place.spot.Off d.hidden := by
        rw [Machine.locate_spot hlocate]
        exact hp p.components (List.prefix_refl _)
      have hentry := h.entryAt? hplace
      dsimp only [bind, Except.bind]
      generalize m.entryAt? place = entry, m'.entryAt? place = entry' at hentry ⊢
      cases hentry with
      | nothing => exact .error rfl
      | directory fixed => exact .ok ⟨rfl, .directory fixed⟩
      | file hid hcontent => exact .ok ⟨rfl, .file hid hcontent⟩
      | device => exact .ok ⟨rfl, .device⟩

theorem isDirectory_eq (h : Twins d m m') (hp : p.Avoids m.cwd.spot d.hidden) :
    m'.isDirectory p = m.isDirectory p := by
  have hfind := h.find hp
  unfold Machine.isDirectory
  generalize m.find p = found, m'.find p = found' at hfind ⊢
  cases hfind with
  | error _ => rfl
  | @ok found found' hsame =>
      obtain ⟨place, entry⟩ := found
      obtain ⟨place', entry'⟩ := found'
      cases hsame.2 <;> rfl

/-- What is read is the same, unless it is read from where the bytes may differ. -/
theorem read?_eq (h : Twins d m m') (hp : p.Avoids m.cwd.spot d.hidden)
    (hspared : ∀ location, LeadsTo m.cwd p location → ¬ d.bytes location) :
    m'.read? p = m.read? p := by
  have hfind := h.find hp
  have hends : ∀ found, m.find p = .ok found → found.1.spot = p.spotFrom m.cwd :=
    fun found hfound => Machine.locate_spot (Machine.find_ok hfound).1
  unfold Machine.read?
  generalize m.find p = found, m'.find p = found' at hfind hends ⊢
  cases hfind with
  | error _ => rfl
  | @ok found found' hsame =>
      have hspot := hends found rfl
      obtain ⟨place, entry⟩ := found
      obtain ⟨place', entry'⟩ := found'
      obtain ⟨rfl, hentry⟩ := hsame
      cases hentry with
      | directory => rfl
      | device => rfl
      | file hid hcontent =>
          cases hcontent with
          | same => rfl
          | program => rfl
          | bytes hbytes =>
              obtain ⟨location, hplace, hbytes⟩ := hbytes
              exact absurd hbytes (hspared location (hspot.symm.trans hplace))

/-- Only the directory in which the path ends is looked up, so what is at its end may differ.
-/
theorem target_eq (h : Twins d m m') (hp : p.Avoids m.cwd.spot d.hidden) :
    m'.target p = m.target p := by
  have hkept : (Machine.dropTrailing p.pieces).dropLast <+: p.pieces :=
    (List.dropLast_prefix _).trans (dropTrailing_begins p.pieces)
  unfold Machine.target
  dsimp only
  rw [h.startOf_eq, h.follow_eq fun first hfirst => hp.off (hfirst.trans hkept)]
  cases Machine.checkPath p with
  | error cause => rfl
  | ok _ =>
  cases hdirectory : m.follow (m.startOf p) (Machine.dropTrailing p.pieces).dropLast with
  | error cause => rfl
  | ok directory =>
      have hoff : directory.spot.Off d.hidden := by
        rw [Machine.follow_spot hdirectory]
        exact hp.off hkept
      have hentry := h.entryAt? hoff
      dsimp only [bind, Except.bind]
      generalize m.entryAt? directory = entry, m'.entryAt? directory = entry' at hentry ⊢
      cases hentry <;> rfl

end Reading

/-! ### Making and writing -/

section Writing

variable {p : Path}

/-- What is put at one place of both machines may differ there as the entries do. -/
theorem set (h : Twins d m m') {location : Location} (hproper : location ≠ [])
    {entry entry' : Entry}
    (hentry : SameThere d.numbers (location ∈ d.programs) (d.bytes location) (some entry)
      (some entry')) :
    Twins d { m with files := m.files.set location entry }
      { m' with files := m'.files.set location entry' } := by
  refine ⟨h.cwd, h.env, h.libraryDirs, h.behavior, h.fresh, ?_⟩
  intro other hother
  dsimp only
  by_cases heq : other = location
  · subst heq
    rw [FileTree.get?_set_self _ hproper, FileTree.get?_set_self _ hproper]
    exact hentry
  · rw [FileTree.get?_set_of_ne _ heq, FileTree.get?_set_of_ne _ heq]
    exact h.same other hother

theorem addFile (h : Twins d m m') {location : Location} (hproper : location ≠ [])
    (content : Content) :
    Twins d { m with files := m.files.addFile location content }
      { m' with files := m'.files.addFile location content } :=
  ⟨h.cwd, h.env, h.libraryDirs, h.behavior, h.fresh.imp_left (congrArg (· + 1)),
    (h.set hproper (.file h.fresh (.same content))).same⟩

/-- What a refusal depends on is the same on both, and where nothing is refused one directory
is added to both. -/
theorem createDir (h : Twins d m m') (hp : p.Avoids m.cwd.spot d.hidden) :
    SameOutcome Eq (Twins d) (m.createDir p) (m'.createDir p) := by
  unfold Machine.createDir
  rw [h.target_eq hp]
  cases htarget : m.target p with
  | error cause => exact .error rfl
  | ok target =>
      dsimp only [bind, Except.bind]
      by_cases hname : (!target.isName) = true
      · rw [if_pos hname, if_pos hname]
        exact .error rfl
      · rw [if_neg hname, if_neg hname]
        cases hcheck : target.checkName with
        | error cause => exact .error rfl
        | ok _ =>
            have hleads := Machine.target_leadsTo htarget (by simpa using hname) hcheck
            dsimp only
            rw [(h.same _ (hp.not_mem hleads)).isSome_eq]
            by_cases hthere : (m.files.get? target.location).isSome = true
            · rw [if_pos hthere, if_pos hthere]
              exact .error rfl
            · rw [if_neg hthere, if_neg hthere]
              by_cases hfixed : target.fixed = true
              · rw [if_pos hfixed, if_pos hfixed]
                exact .error rfl
              · rw [if_neg hfixed, if_neg hfixed]
                exact .ok (h.set (by simp [Machine.Target.location]) (.directory false))

theorem forgive_eq (h : Twins d m m') (hp : p.Avoids m.cwd.spot d.hidden)
    (cause : SystemError) : m'.forgive p cause = m.forgive p cause := by
  rw [Machine.forgive, Machine.forgive, h.isDirectory_eq hp]

/-- Making the first of some directories along one path has the same outcome on both machines; the
directories above it are made first where it cannot be made, and leave the machines twins. -/
theorem createDirs (h : Twins d m m') (hp : p.Avoids m.cwd.spot d.hidden) {paths : List Path}
    (hpaths : ∀ q ∈ paths, q.components <+: p.components) :
    (m'.createDirs paths).1 = (m.createDirs paths).1 ∧
      Twins d (m.createDirs paths).2 (m'.createDirs paths).2 := by
  induction paths with
  | nil => exact ⟨rfl, h⟩
  | cons q above ih =>
      obtain ⟨hq, habove⟩ := List.forall_mem_cons.mp hpaths
      obtain ⟨hsame, hready⟩ := ih habove
      have hcwd := (Machine.edits_createDirs habove m).cwd_eq
      have hcreated := h.createDir (hp.of_begins hq)
      rw [Machine.createDirs, Machine.createDirs]
      by_cases hempty : q.isEmpty = true
      · rw [if_pos hempty, if_pos hempty]
        exact ⟨rfl, h⟩
      · rw [if_neg hempty, if_neg hempty]
        generalize m.createDir q = made, m'.createDir q = made' at hcreated ⊢
        cases hcreated with
        | ok htwins => exact ⟨rfl, htwins⟩
        | @error cause _ hcause =>
            subst hcause
            by_cases hmissing : cause = .missing
            · -- the directories above come first, and are alike afterwards
              simp only [if_pos hmissing]
              generalize m.createDirs above = first, m'.createDirs above = first'
                at hsame hready hcwd ⊢
              obtain ⟨result, ready⟩ := first
              obtain ⟨result', ready'⟩ := first'
              obtain rfl : result' = result := hsame
              cases result' with
              | error cause => exact ⟨rfl, hready⟩
              | ok _ =>
                  have havoids : q.Avoids ready.cwd.spot d.hidden := by
                    rw [show ready.cwd = m.cwd from hcwd]
                    exact hp.of_begins hq
                  have hagain := hready.createDir havoids
                  have hforgiven := hready.forgive_eq havoids
                  dsimp only at hagain hforgiven ⊢
                  generalize ready.createDir q = made, ready'.createDir q = made' at hagain ⊢
                  cases hagain with
                  | ok htwins => exact ⟨rfl, htwins⟩
                  | error hcause =>
                      subst hcause
                      exact ⟨hforgiven _, hready⟩
            · simp only [if_neg hmissing]
              exact ⟨h.forgive_eq (hp.of_begins hq) cause, h⟩

/-- **Making a directory along a path that avoids the places has the same outcome on both
machines.** -/
theorem createDirAll (h : Twins d m m') (hp : p.Avoids m.cwd.spot d.hidden) :
    (m'.createDirAll p).1 = (m.createDirAll p).1 ∧
      Twins d (m.createDirAll p).2 (m'.createDirAll p).2 :=
  h.createDirs hp fun _ hmem => Path.components_of_mem_ancestors hmem

/-- Bytes that are written to one place of both make the files there the same, whatever they held;
only their numbers may still differ. -/
theorem writtenAt (h : Twins d m m') (hp : p.Avoids m.cwd.spot d.hidden)
    {target : Machine.Target} (htarget : m.target p = .ok target) (bytes : Bytes) :
    SameOutcome Eq
      (fun files files' => Twins d { m with files := files } { m' with files := files' })
      (m.writtenAt target bytes) (m'.writtenAt target bytes) := by
  have hproper : target.location ≠ [] := by simp [Machine.Target.location]
  unfold Machine.writtenAt
  by_cases hplain : (!target.isName || target.trailingSlash) = true
  · rw [if_pos hplain, if_pos hplain]
    exact .error rfl
  · rw [if_neg hplain, if_neg hplain]
    have hname : target.isName = true := by
      simp only [Bool.or_eq_true, not_or] at hplain
      simpa using hplain.1
    cases hcheck : target.checkName with
    | error cause => exact .error rfl
    | ok _ =>
        have hsame := h.same _ (hp.not_mem (Machine.target_leadsTo htarget hname hcheck))
        dsimp only [bind, Except.bind]
        generalize m.files.get? target.location = entry,
          m'.files.get? target.location = entry' at hsame ⊢
        cases hsame with
        | directory fixed => exact .error rfl
        | device =>
            dsimp only
            split
            · exact .ok h
            · exact .error rfl
        | file hid hcontent =>
            refine .ok (h.set hproper ?_)
            rw [hcontent.overwritten_eq]
            exact .file hid (.same _)
        | nothing =>
            dsimp only
            by_cases hfixed : target.fixed = true
            · rw [if_pos hfixed, if_pos hfixed]
              exact .error rfl
            · rw [if_neg hfixed, if_neg hfixed]
              exact .ok (h.addFile hproper _)

/-- **A write along a path that avoids the places has the same outcome on both machines.** -/
theorem write (h : Twins d m m') (hp : p.Avoids m.cwd.spot d.hidden) (bytes : Bytes) :
    SameOutcome Eq (Twins d) (m.write p bytes) (m'.write p bytes) := by
  unfold Machine.write
  rw [h.target_eq hp]
  cases htarget : m.target p with
  | error cause => exact .error rfl
  | ok target => exact (h.writtenAt hp htarget bytes).bind fun _ _ hfiles => .ok hfiles

end Writing

end Twins

/-! ### Where only bytes differ -/

namespace DifferInBytes

variable {places : Location → Prop} {m m' : Machine}

/-- Files differ at the places alone. -/
theorem get?_eq (h : DifferInBytes places m m') {location : Location}
    (hspared : ¬ places location) : m'.files.get? location = m.files.get? location :=
  (h.same location List.not_mem_nil).eq_of_not id List.not_mem_nil hspared

/-- Where no bytes differ programs find the same. -/
theorem view_eq (h : DifferInBytes (fun _ => False) m m') : m'.view = m.view := by
  have hfiles : m'.files.get? = m.files.get? := funext fun _ => h.get?_eq id
  rw [Machine.view, Machine.view, hfiles, h.cwd, h.env]

end DifferInBytes

end NativeExtension
