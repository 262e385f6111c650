import Mathlib.Logic.Relation
import NativeExtension.Proofs.Machine.Route

/-!
# NativeExtension.Proofs.Machine.Edits

**What making directories and writing files can do to a machine.** An `Edit` makes a directory
where nothing is, or puts bytes into a file, which is created if nothing is there; a `Licence`
says where, and which bytes. So whatever is there stays what it is (`Grows`), every path that
led somewhere leads there still (`Grows.find`), and only what the licence covers changes
(`Edits.get?_of_not_covers`).
-/

namespace NativeExtension

/-- Where directories may be made, and where which bytes may be written. -/
structure Licence where
  directory : Location → Prop
  file : Location → Bytes → Prop

namespace Licence

/-- Something at the location may be changed. -/
def Covers (licence : Licence) (location : Location) : Prop :=
  licence.directory location ∨ ∃ bytes, licence.file location bytes

/-- Whatever the first allows, the second does. -/
structure Within (narrow wide : Licence) : Prop where
  directory : ∀ location, narrow.directory location → wide.directory location
  file : ∀ location bytes, narrow.file location bytes → wide.file location bytes

theorem Covers.mono {narrow wide : Licence} {location : Location} (h : narrow.Covers location)
    (hwithin : narrow.Within wide) : wide.Covers location :=
  h.imp (hwithin.directory location) fun ⟨bytes, hfile⟩ => ⟨bytes, hwithin.file _ _ hfile⟩

theorem Within.trans {narrow middle wide : Licence} (h : narrow.Within middle)
    (h' : middle.Within wide) : narrow.Within wide :=
  ⟨fun location hmake => h'.directory location (h.directory location hmake),
    fun location bytes hwrite => h'.file location bytes (h.file location bytes hwrite)⟩

/-- To change nothing. -/
def none : Licence where
  directory := fun _ => False
  file := fun _ _ => False

theorem none_within (licence : Licence) : none.Within licence :=
  ⟨fun _ h => h.elim, fun _ _ h => h.elim⟩

/-- To make the directories on the way of a path. -/
def toMake (here : Place) (p : Path) : Licence where
  directory := LeadsThrough here p
  file := fun _ _ => False

/-- To write bytes to the end of a path. -/
def toWrite (here : Place) (p : Path) (bytes : Bytes) : Licence where
  directory := fun _ => False
  file := fun location written => LeadsTo here p location ∧ written = bytes

end Licence

/-- One change that the licence allows. -/
inductive Edit (licence : Licence) (m : Machine) : Machine → Prop where
  | directory {location : Location} (hallowed : licence.directory location)
      (hproper : location ≠ []) (hfree : m.files.get? location = none) :
      Edit licence m { m with files := m.files.set location (.directory false) }
  | overwritten {location : Location} {id : Nat} {content : Content} {bytes : Bytes}
      (hallowed : licence.file location bytes) (hproper : location ≠ [])
      (hfile : m.files.get? location = some (.file id content)) :
      Edit licence m
        { m with files := m.files.set location (.file id (content.overwritten bytes)) }
  | added {location : Location} {bytes : Bytes} (hallowed : licence.file location bytes)
      (hproper : location ≠ []) (hfree : m.files.get? location = none) :
      Edit licence m { m with files := m.files.addFile location (.data bytes) }

/-- Changes that the licence allows, one after the other. -/
def Edits (licence : Licence) : Machine → Machine → Prop := Relation.ReflTransGen (Edit licence)

/-- What an edit can make of what is at a location. -/
inductive Becomes (licence : Licence) (location : Location) : Option Entry → Option Entry → Prop
    where
  | same (entry : Option Entry) : Becomes licence location entry entry
  | directory (hallowed : licence.directory location) :
      Becomes licence location none (some (.directory false))
  | overwritten {bytes : Bytes} (id : Nat) (content : Content)
      (hallowed : licence.file location bytes) :
      Becomes licence location (some (.file id content))
        (some (.file id (content.overwritten bytes)))
  | added {bytes : Bytes} (id : Nat) (hallowed : licence.file location bytes) :
      Becomes licence location none (some (.file id (.data bytes)))

@[simp] theorem Content.overwritten_overwritten (content : Content) (bytes other : Bytes) :
    (content.overwritten bytes).overwritten other = content.overwritten other := by
  cases content <;> rfl

namespace Becomes

variable {licence : Licence} {location : Location} {before middle after : Option Entry}

/-- Every constructor but the first needs the licence to cover the location. -/
theorem eq_of_not_covers (h : Becomes licence location before after)
    (hspared : ¬ licence.Covers location) : after = before := by
  cases h with
  | same => rfl
  | directory hallowed => exact absurd (Or.inl hallowed) hspared
  | overwritten _ _ hallowed => exact absurd (Or.inr ⟨_, hallowed⟩) hspared
  | added _ hallowed => exact absurd (Or.inr ⟨_, hallowed⟩) hspared

/-- What edits can make of it one after the other, one edit can. -/
theorem trans (h : Becomes licence location before middle)
    (h' : Becomes licence location middle after) : Becomes licence location before after := by
  cases h with
  | same => exact h'
  | directory hallowed =>
      cases h' with
      | same => exact .directory hallowed
  | overwritten id content hallowed =>
      cases h' with
      | same => exact .overwritten id content hallowed
      | overwritten _ _ hlast =>
          rw [Content.overwritten_overwritten]
          exact .overwritten id content hlast
  | added id hallowed =>
      cases h' with
      | same => exact .added id hallowed
      | overwritten _ _ hlast => exact .added id hlast

end Becomes

namespace Edit

variable {licence wide : Licence} {m m' : Machine}

/-- A wider licence allows what a narrower one does. -/
theorem mono (h : Edit licence m m') (hwithin : licence.Within wide) : Edit wide m m' := by
  cases h with
  | directory hallowed hproper hfree =>
      exact .directory (hwithin.directory _ hallowed) hproper hfree
  | overwritten hallowed hproper hfile =>
      exact .overwritten (hwithin.file _ _ hallowed) hproper hfile
  | added hallowed hproper hfree => exact .added (hwithin.file _ _ hallowed) hproper hfree

theorem cwd_eq (h : Edit licence m m') : m'.cwd = m.cwd := by cases h <;> rfl

theorem env_eq (h : Edit licence m m') : m'.env = m.env := by cases h <;> rfl

theorem behavior_eq (h : Edit licence m m') : m'.behavior = m.behavior := by cases h <;> rfl

/-- **An edit changes one location, in one of three ways.** -/
theorem becomes (h : Edit licence m m') (other : Location) :
    Becomes licence other (m.files.get? other) (m'.files.get? other) := by
  cases h with
  | @directory location hallowed hproper hfree =>
      by_cases heq : other = location
      · rw [heq, hfree, FileTree.get?_set_self _ hproper]
        exact .directory hallowed
      · rw [FileTree.get?_set_of_ne _ heq]
        exact .same _
  | @overwritten location id content bytes hallowed hproper hfile =>
      by_cases heq : other = location
      · rw [heq, hfile, FileTree.get?_set_self _ hproper]
        exact .overwritten id content hallowed
      · rw [FileTree.get?_set_of_ne _ heq]
        exact .same _
  | @added location bytes hallowed hproper hfree =>
      by_cases heq : other = location
      · rw [heq, hfree, FileTree.get?_addFile_self _ hproper]
        exact .added _ hallowed
      · rw [FileTree.get?_addFile_of_ne _ heq]
        exact .same _

theorem get?_of_not_covers (h : Edit licence m m') {location : Location}
    (hspared : ¬ licence.Covers location) :
    m'.files.get? location = m.files.get? location :=
  (h.becomes location).eq_of_not_covers hspared

end Edit

namespace Edits

variable {licence wide : Licence} {m m' : Machine}

theorem refl (licence : Licence) (m : Machine) : Edits licence m m := Relation.ReflTransGen.refl

theorem of_edit (h : Edit licence m m') : Edits licence m m' := Relation.ReflTransGen.single h

theorem trans {m'' : Machine} (h : Edits licence m m') (h' : Edits licence m' m'') :
    Edits licence m m'' := Relation.ReflTransGen.trans h h'

theorem mono (h : Edits licence m m') (hwithin : licence.Within wide) : Edits wide m m' :=
  Relation.ReflTransGen.mono (fun _ _ hedit => Edit.mono hedit hwithin) _ _ h

theorem cwd_eq (h : Edits licence m m') : m'.cwd = m.cwd := by
  induction h with
  | refl => rfl
  | tail _ hedit ih => rw [hedit.cwd_eq, ih]

theorem env_eq (h : Edits licence m m') : m'.env = m.env := by
  induction h with
  | refl => rfl
  | tail _ hedit ih => rw [hedit.env_eq, ih]

theorem behavior_eq (h : Edits licence m m') : m'.behavior = m.behavior := by
  induction h with
  | refl => rfl
  | tail _ hedit ih => rw [hedit.behavior_eq, ih]

/-- Edits change the files alone. -/
theorem machine_eq (h : Edits licence m m') : m' = { m with files := m'.files } := by
  induction h with
  | refl => rfl
  | tail _ hedit ih =>
      rw [ih] at hedit
      cases hedit <;> rfl

/-- Who may change nothing changes nothing. -/
theorem eq_of_none (h : Edits Licence.none m m') : m' = m := by
  induction h with
  | refl => rfl
  | tail _ hedit _ => cases hedit <;> contradiction

/-- **What no licence covers stays as it is.** -/
theorem get?_of_not_covers (h : Edits licence m m') {location : Location}
    (hspared : ¬ licence.Covers location) :
    m'.files.get? location = m.files.get? location := by
  induction h with
  | refl => rfl
  | tail _ hedit ih => rw [hedit.get?_of_not_covers hspared, ih]

end Edits

/-! ### What is there stays what it is -/

/-- Both are the same directory, file or device, whatever the file holds. -/
inductive Entry.SameThing : Entry → Entry → Prop where
  | directory (fixed : Bool) : SameThing (.directory fixed) (.directory fixed)
  | file (id : Nat) (content content' : Content) : SameThing (.file id content) (.file id content')
  | device : SameThing .device .device

theorem Entry.SameThing.refl (entry : Entry) : entry.SameThing entry := by
  cases entry
  · exact .directory _
  · exact .file _ _ _
  · exact .device

/-- Whatever is on the first machine is on the second, and is the same thing. -/
structure Grows (m m' : Machine) : Prop where
  cwd : m'.cwd = m.cwd
  there : ∀ location entry, m.files.get? location = some entry →
    ∃ entry', m'.files.get? location = some entry' ∧ entry.SameThing entry'

/-- An edit removes nothing, and what it overwrites stays the file that it was. -/
theorem Edit.grows {licence : Licence} {m m' : Machine} (h : Edit licence m m') : Grows m m' := by
  refine ⟨h.cwd_eq, ?_⟩
  intro location entry hentry
  have hbecomes := h.becomes location
  rw [hentry] at hbecomes
  generalize hafter : m'.files.get? location = after at hbecomes
  cases hbecomes with
  | same => exact ⟨entry, rfl, .refl entry⟩
  | overwritten id content hallowed => exact ⟨_, rfl, .file _ _ _⟩

namespace Grows

variable {m m' : Machine}

theorem entryAt? (h : Grows m m') {place : Place} {entry : Entry}
    (hentry : m.entryAt? place = some entry) :
    ∃ entry', m'.entryAt? place = some entry' ∧ entry.SameThing entry' := by
  unfold Machine.entryAt? at hentry ⊢
  split at hentry
  · next hremoved =>
    obtain rfl := Option.some.inj hentry
    rw [if_pos hremoved]
    exact ⟨_, rfl, .directory true⟩
  · next hthere =>
    rw [if_neg hthere]
    exact h.there _ _ hentry

/-- A step that led on leads on, for what was there is there. -/
theorem stepFrom (h : Grows m m') {here there : Place} {piece : Bytes}
    (hstep : m.stepFrom here piece = .ok there) : m'.stepFrom here piece = .ok there := by
  obtain ⟨⟨fixed, hdirectory⟩, hsteps⟩ := Machine.stepFrom_ok_iff.mp hstep
  obtain ⟨entry', hentry', hsame⟩ := h.entryAt? hdirectory
  cases hsame
  refine Machine.stepFrom_ok_iff.mpr ⟨⟨fixed, hentry'⟩, hsteps.of_there fun hsome => ?_⟩
  obtain ⟨entry, hentry⟩ := Option.isSome_iff_exists.mp hsome
  obtain ⟨entry', hafter, -⟩ := h.there _ _ hentry
  rw [hafter]
  rfl

/-- By induction on the pieces. -/
theorem follow (h : Grows m m') {here there : Place} {pieces : List Bytes}
    (hfollow : m.follow here pieces = .ok there) : m'.follow here pieces = .ok there := by
  induction pieces generalizing here with
  | nil => exact hfollow
  | cons piece rest ih =>
      obtain ⟨next, hnext, hrest⟩ := bind_ok_iff.mp hfollow
      exact bind_ok_iff.mpr ⟨next, h.stepFrom hnext, ih hrest⟩

theorem locate (h : Grows m m') {p : Path} {place : Place} (hlocate : m.locate p = .ok place) :
    m'.locate p = .ok place := by
  have hstart : m'.startOf p = m.startOf p := by rw [Machine.startOf, Machine.startOf, h.cwd]
  obtain ⟨_, hcheck, hfollow⟩ := bind_ok_iff.mp hlocate
  refine bind_ok_iff.mpr ⟨_, hcheck, ?_⟩
  rw [hstart]
  exact h.follow hfollow

/-- **A path that led somewhere leads there still.** -/
theorem find (h : Grows m m') {p : Path} {place : Place} {entry : Entry}
    (hfind : m.find p = .ok (place, entry)) :
    ∃ entry', m'.find p = .ok (place, entry') ∧ entry.SameThing entry' := by
  obtain ⟨hlocate, hentry⟩ := Machine.find_ok hfind
  obtain ⟨entry', hentry', hsame⟩ := h.entryAt? hentry
  refine ⟨entry', bind_ok_iff.mpr ⟨place, h.locate hlocate, ?_⟩, hsame⟩
  rw [hentry']
  rfl

end Grows

end NativeExtension
