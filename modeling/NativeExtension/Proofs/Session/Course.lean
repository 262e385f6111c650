import NativeExtension.Proofs.Machine.Programs
import NativeExtension.Proofs.Session.Along
import NativeExtension.Proofs.Session.Loading
import NativeExtension.Session.Build

/-!
# NativeExtension.Proofs.Session.Course

**What a build does, one thing after another.** A session that builds starts programs, makes
directories and writes files, and takes notes. A `Course` is a row of such moves, with the
programs that it may start and the `Licence` for its own changes. Whatever the programs do
themselves is left to them: on a machine whose programs leave the files alone, only what the
licence covers changes (`Course.get?_of_quiet`).

A build makes directories on the way to the bundled headers and to a workspace that goes by the
extension's name, puts the bundled header in place, and writes the description
(`course_buildWith`).
-/

namespace NativeExtension

/-- The programs that the session has started, or tried to start, in order. -/
def Session.launches (s : Session) : List Launch :=
  s.journal.filterMap fun
    | .started launch _ => some launch
    | _ => none

/-- One thing that a session does: it starts a program, changes a file or directory, or takes a
note. -/
inductive Move (licence : Licence) (asks : Launch → Prop) (s : Session) : Session → Prop where
  | ran {launch : Launch} (hasks : asks launch) :
      Move licence asks s ((Session.start launch).run s).2
  | edited {m : Machine} (hedit : Edit licence s.machine m) :
      Move licence asks s { s with machine := m }
  | noted {s' : Session} (hmachine : s'.machine = s.machine)
      (hlaunches : s'.launches = s.launches) : Move licence asks s s'

/-- One thing after another. -/
def Course (licence : Licence) (asks : Launch → Prop) : Session → Session → Prop :=
  Relation.ReflTransGen (Move licence asks)

/-- Any program may be started. -/
def anyLaunch (_ : Launch) : Prop := True

namespace Session

theorem launches_start (launch : Launch) (s : Session) :
    ((start launch).run s).2.launches = s.launches ++ [launch] := by
  simp [run_start, launches]

end Session

namespace Move

variable {licence wide : Licence} {asks asks' : Launch → Prop} {s s' : Session}

theorem mono (h : Move licence asks s s') (hlicence : licence.Within wide)
    (hasks : ∀ launch, asks launch → asks' launch) : Move wide asks' s s' := by
  cases h with
  | ran hlaunch => exact .ran (hasks _ hlaunch)
  | edited hedit => exact .edited (hedit.mono hlicence)
  | noted hmachine hlaunches => exact .noted hmachine hlaunches

theorem cwd_eq (h : Move licence asks s s') : s'.machine.cwd = s.machine.cwd := by
  cases h with
  | ran _ => rw [Session.run_start, Machine.spawn_eq]
  | edited hedit => exact hedit.cwd_eq
  | noted hmachine _ => rw [hmachine]

theorem env_eq (h : Move licence asks s s') : s'.machine.env = s.machine.env := by
  cases h with
  | ran _ => rw [Session.run_start, Machine.spawn_eq]
  | edited hedit => exact hedit.env_eq
  | noted hmachine _ => rw [hmachine]

theorem launches_eq (h : Move licence asks s s') :
    ∃ new, s'.launches = s.launches ++ new ∧ ∀ launch ∈ new, asks launch := by
  cases h with
  | @ran launch hasks => exact ⟨[launch], Session.launches_start _ _, by simpa using hasks⟩
  | edited _ => exact ⟨[], (List.append_nil _).symm, by simp⟩
  | noted _ hlaunches => exact ⟨[], by rw [hlaunches, List.append_nil], by simp⟩

/-- Where programs leave the files alone, only what the licence covers changes. -/
theorem get?_of_quiet (h : Move licence asks s s') (hquiet : s.machine.Quiet) :
    s'.machine.Quiet ∧ ∀ location, ¬ licence.Covers location →
      s'.machine.files.get? location = s.machine.files.get? location := by
  cases h with
  | ran _ =>
      rw [Session.run_start]
      dsimp only
      rw [hquiet.spawn]
      exact ⟨hquiet, fun _ _ => rfl⟩
  | edited hedit =>
      exact ⟨hquiet.of_edit hedit, fun _ hspared => hedit.get?_of_not_covers hspared⟩
  | noted hmachine _ =>
      rw [hmachine]
      exact ⟨hquiet, fun _ _ => rfl⟩

end Move

namespace Course

variable {licence wide : Licence} {asks asks' : Launch → Prop} {s s' s'' : Session}

theorem refl (licence : Licence) (asks : Launch → Prop) (s : Session) :
    Course licence asks s s := Relation.ReflTransGen.refl

theorem of_move (h : Move licence asks s s') : Course licence asks s s' :=
  Relation.ReflTransGen.single h

theorem trans (h : Course licence asks s s') (h' : Course licence asks s' s'') :
    Course licence asks s s'' := Relation.ReflTransGen.trans h h'

theorem mono (h : Course licence asks s s') (hlicence : licence.Within wide)
    (hasks : ∀ launch, asks launch → asks' launch) : Course wide asks' s s' :=
  Relation.ReflTransGen.mono (fun _ _ hmove => Move.mono hmove hlicence hasks) _ _ h

theorem of_edits {m : Machine} (h : Edits licence s.machine m) :
    Course licence asks s { s with machine := m } := by
  induction h with
  | refl => exact refl _ _ _
  | @tail middle last _ hedit ih =>
      exact ih.trans (of_move (Move.edited (s := { s with machine := middle }) hedit))

theorem cwd_eq (h : Course licence asks s s') : s'.machine.cwd = s.machine.cwd := by
  induction h with
  | refl => rfl
  | tail _ hmove ih => rw [hmove.cwd_eq, ih]

theorem env_eq (h : Course licence asks s s') : s'.machine.env = s.machine.env := by
  induction h with
  | refl => rfl
  | tail _ hmove ih => rw [hmove.env_eq, ih]

/-- Whatever is done on the way, by the session or by what it starts, is a row of edits. -/
theorem edits_any (h : Course licence asks s s') : Edits .any s.machine s'.machine := by
  induction h with
  | refl => exact Edits.refl _ _
  | tail _ hmove ih =>
      cases hmove with
      | ran _ => exact ih.trans (Machine.edits_spawn _ _)
      | edited hedit => exact ih.trans ((Edits.of_edit hedit).mono (Licence.within_any _))
      | noted hmachine _ => rwa [hmachine]

/-- All that is started on the way may be asked for. -/
theorem launches_eq (h : Course licence asks s s') :
    ∃ new, s'.launches = s.launches ++ new ∧ ∀ launch ∈ new, asks launch := by
  induction h with
  | refl => exact ⟨[], (List.append_nil _).symm, by simp⟩
  | tail _ hmove ih =>
      obtain ⟨earlier, hearlier, hall⟩ := ih
      obtain ⟨new, hnew, hasks⟩ := hmove.launches_eq
      refine ⟨earlier ++ new, by rw [hnew, hearlier, List.append_assoc], ?_⟩
      intro launch hlaunch
      exact (List.mem_append.mp hlaunch).elim (hall launch) (hasks launch)

/-- Where what is started changes nothing, all that happens is edits. -/
theorem edits_of_idle (h : Course licence asks s s')
    (hidle : ∀ launch, asks launch → ∀ m, Edits licence s.machine m → (m.spawn launch).2 = m) :
    Edits licence s.machine s'.machine := by
  induction h with
  | refl => exact Edits.refl _ _
  | tail _ hmove ih =>
      cases hmove with
      | @ran launch hasks =>
          rw [Session.run_start]
          dsimp only
          rwa [hidle launch hasks _ ih]
      | edited hedit => exact ih.trans (Edits.of_edit hedit)
      | noted hmachine _ => rwa [hmachine]

/-- **Where programs leave the files alone, only what the licence covers changes.** -/
theorem get?_of_quiet (h : Course licence asks s s') (hquiet : s.machine.Quiet)
    {location : Location} (hspared : ¬ licence.Covers location) :
    s'.machine.files.get? location = s.machine.files.get? location := by
  have hall : s'.machine.Quiet ∧
      s'.machine.files.get? location = s.machine.files.get? location := by
    induction h with
    | refl => exact ⟨hquiet, rfl⟩
    | tail _ hmove ih =>
        obtain ⟨hstill, hsame⟩ := hmove.get?_of_quiet ih.1
        exact ⟨hstill, (hsame location hspared).trans ih.2⟩
  exact hall.2

end Course

end NativeExtension
