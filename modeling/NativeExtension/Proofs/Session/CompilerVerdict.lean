import NativeExtension.Proofs.Toolchain.LowerCase
import NativeExtension.Proofs.Toolchain.VersionPattern
import NativeExtension.Session.CompilerCheck
import NativeExtension.Text.RoundTrip

/-!
# NativeExtension.Proofs.Session.CompilerVerdict

**The verdict on a compiler and the warnings that come with it.** A compiler that starts passes
exactly if the first version in what it says of itself can be read and is GCC 4.9 or later, however
its answer is lowered and whatever it ends with; it gets one warning if it does not pass. One that
does not start gets two (`checkCompiler_firstVersion`).
-/

namespace NativeExtension.Session

/-- What a check of a compiler comes to: the verdict, and the warnings in the journal behind the
start of the compiler. -/
structure ChecksTo (compiler : String) (s : Session) (verdict : Bool) (warned : List Report) :
    Prop where
  verdict : ((checkCompiler compiler).run s).1 = verdict
  journal : ((checkCompiler compiler).run s).2.journal =
    s.journal ++ .started (versionQuery compiler)
      ((s.machine.executable (versionQuery compiler)).map (·.1)) :: warned.map .reported
  warns : ∀ report ∈ warned, report.level = .warn ∧ report.reporter = .compiler

/-- The warning of a compiler that does not pass. -/
def incompatible (compiler : String) : Report where
  level := .warn
  reporter := .compiler
  message := incompatibleWarning
  details := [("compiler", compiler)]

theorem run_warnIncompatible (compiler : String) (s : Session) :
    (warnIncompatible compiler).run s =
      ((), { s with journal := s.journal ++ [.reported (incompatible compiler)] }) := rfl

/-- A compiler that does not start is warned of twice: that it did not, and that it may not fit. -/
theorem checksTo_of_error {compiler : String} {s : Session} {cause : SystemError}
    (h : (s.machine.spawn (versionQuery compiler)).1 = .error cause) :
    ChecksTo compiler s false
      [{ level := .warn
         reporter := .compiler
         message := "error checking compiler version"
         details := [("compiler", compiler), ("error", cause.message)] },
        incompatible compiler] := by
  have hrun : (checkCompiler compiler).run s =
      (false, { s with
        machine := (s.machine.spawn (versionQuery compiler)).2
        journal := s.journal ++ [.started (versionQuery compiler)
            ((s.machine.executable (versionQuery compiler)).map (·.1))] ++
          [.reported { level := .warn
                       reporter := .compiler
                       message := "error checking compiler version"
                       details := [("compiler", compiler), ("error", cause.message)] }] ++
          [.reported (incompatible compiler)] }) := by
    unfold checkCompiler
    rw [StateT.run_bind, run_start, h]
    rfl
  refine ⟨by rw [hrun], ?_, ?_⟩
  · rw [hrun]
    simp
  · simp [incompatible]

/-- A compiler that starts is judged by the version that it tells. -/
theorem run_checkCompiler_of_ok {compiler : String} {s : Session} {outcome : Outcome}
    (h : (s.machine.spawn (versionQuery compiler)).1 = .ok outcome) :
    (checkCompiler compiler).run s =
      (match versionTold outcome.out with
       | none => do
          warnIncompatible compiler
          return false
       | some version => do
          if oldestCompatibleGcc.le version then return true
          warnIncompatible (compiler ++ " " ++ version.text)
          return false : Action Bool).run ((start (versionQuery compiler)).run s).2 := by
  unfold checkCompiler
  rw [StateT.run_bind, run_start, h]
  rfl

theorem checksTo_of_recent {compiler : String} {s : Session} {outcome : Outcome}
    {version : Version} (h : (s.machine.spawn (versionQuery compiler)).1 = .ok outcome)
    (htold : versionTold outcome.out = some version)
    (hrecent : oldestCompatibleGcc.le version = true) : ChecksTo compiler s true [] := by
  have hrun : (checkCompiler compiler).run s =
      (true, ((start (versionQuery compiler)).run s).2) := by
    rw [run_checkCompiler_of_ok h, htold]
    dsimp only
    rw [if_pos hrecent]
    rfl
  refine ⟨by rw [hrun], ?_, nofun⟩
  rw [hrun]
  rfl

/-- A compiler that tells no version, or one that is too old, is warned of once. -/
theorem exists_checksTo_of_not_recent {compiler : String} {s : Session} {outcome : Outcome}
    (h : (s.machine.spawn (versionQuery compiler)).1 = .ok outcome)
    (hold : ∀ version, versionTold outcome.out = some version →
      oldestCompatibleGcc.le version ≠ true) :
    ∃ warning, ChecksTo compiler s false [warning] := by
  have hrun : ∃ described, (checkCompiler compiler).run s =
      (false, ((warnIncompatible described).run ((start (versionQuery compiler)).run s).2).2) := by
    rw [run_checkCompiler_of_ok h]
    cases htold : versionTold outcome.out with
    | none => exact ⟨compiler, rfl⟩
    | some version =>
        dsimp only
        rw [if_neg (hold version htold)]
        exact ⟨compiler ++ " " ++ version.text, rfl⟩
  obtain ⟨described, hrun⟩ := hrun
  refine ⟨incompatible described, by rw [hrun], ?_, ?_⟩
  · rw [hrun, run_warnIncompatible, run_start]
    simp
  · simp [incompatible]

/-- A version is recent enough if it is 4.9 or a later one. -/
theorem oldestCompatibleGcc_le_iff (a b : Nat) :
    oldestCompatibleGcc.le ⟨a, b⟩ = true ↔ 4 < a ∨ a = 4 ∧ 9 ≤ b := by
  rw [Version.le, Bool.or_eq_true, Bool.and_eq_true, decide_eq_true_iff, beq_iff_eq,
    decide_eq_true_iff, eq_comm (a := a)]
  rfl

open GccVersion in
/-- **The first version decides.** A search for the version finds the first whole row of digits with
a dot and a digit or an `x` behind it; its numbers are those of the version if they are in ASCII
digits and fit into 32 bits, and else there is none. A compiler that starts passes exactly if its
version is 4.9 or later, and otherwise there is one warning; if it does not start there are two. -/
theorem checkCompiler_firstVersion :
    (∀ text, (versionPattern.search text).map Reading.groups =
      (firstVersion? text).map fun version => [version.1, version.2]) ∧
    (∀ text a b, gccVersion? text = some ⟨a, b⟩ ↔
      "gcc".toList <:+: text ∧ ∃ before major after,
        FirstVersionAt text before major after ∧ Text.Writes major a ∧ MinorIs after b) ∧
    (∀ compiler (s : Session) outcome told,
      (s.machine.spawn (versionQuery compiler)).1 = .ok outcome →
      Lowered (Utf8.decodeLossy outcome.out) told →
      ∃ verdict warned, ChecksTo compiler s verdict warned ∧
        (verdict = true ↔
          ∃ a b, gccVersion? told = some ⟨a, b⟩ ∧ (4 < a ∨ a = 4 ∧ 9 ≤ b)) ∧
        warned.length = if verdict then 0 else 1) ∧
    (∀ compiler (s : Session) cause,
      (s.machine.spawn (versionQuery compiler)).1 = .error cause →
      ∃ warned, ChecksTo compiler s false warned ∧ warned.length = 2) := by
  refine ⟨search_versionPattern, fun text a b => gccVersion?_iff_first, ?_, ?_⟩
  · intro compiler s outcome told hspawn hlowered
    rw [gccVersion?_of_lowered hlowered]
    change ∃ verdict warned, ChecksTo compiler s verdict warned ∧
      (verdict = true ↔ ∃ a b, versionTold outcome.out = some ⟨a, b⟩ ∧ (4 < a ∨ a = 4 ∧ 9 ≤ b)) ∧
      warned.length = if verdict then 0 else 1
    by_cases hrecent : ∃ a b, versionTold outcome.out = some ⟨a, b⟩ ∧ (4 < a ∨ a = 4 ∧ 9 ≤ b)
    · obtain ⟨a, b, htold, hle⟩ := hrecent
      have hchecks := checksTo_of_recent hspawn htold ((oldestCompatibleGcc_le_iff a b).mpr hle)
      exact ⟨true, [], hchecks, iff_of_true rfl ⟨a, b, htold, hle⟩, rfl⟩
    · obtain ⟨warning, hchecks⟩ := exists_checksTo_of_not_recent hspawn fun ⟨a, b⟩ htold hle =>
        hrecent ⟨a, b, htold, (oldestCompatibleGcc_le_iff a b).mp hle⟩
      exact ⟨false, [warning], hchecks, iff_of_false Bool.false_ne_true hrecent, rfl⟩
  · intro compiler s cause hspawn
    exact ⟨_, checksTo_of_error hspawn, rfl⟩

/-- A compiler that tells its version after a sign beyond ASCII, and ends as if it had failed. -/
def signedCompiler : Script where
  version := some { out := utf8 "\u212A: GCC 4.10.x\n", ending := .exit 1 }

/-- A machine with that compiler, which is found below the current directory. -/
def signedSession : Session where
  machine :=
    { files :=
        { entries := [([utf8 "bin"], .directory false),
            ([utf8 "cc", utf8 "bin"], .file 0 (.program signedCompiler))]
          nextId := 1 }
      cwd := ⟨[], 0⟩
      env := [] }

open GccVersion in
/-- The sign of the unit kelvin is a `k` in lower case. The compiler passes with no warning, and
one that is not installed gets two. -/
theorem checkCompiler_firstVersion_signed :
    ChecksTo "bin/cc" signedSession true [] ∧
      ∃ warned, ChecksTo "bin/c++" signedSession false warned ∧ warned.length = 2 := by
  have hspawn : (signedSession.machine.spawn (versionQuery "bin/cc")).1 =
      .ok ⟨[(.out, utf8 "\u212A: GCC 4.10.x\n")], .exit 1⟩ := by
    rfl
  have hmissing : (signedSession.machine.spawn (versionQuery "bin/c++")).1 = .error .missing := by
    rfl
  have hlowered : Lowered (Utf8.decodeLossy (utf8 "\u212A: GCC 4.10.x\n"))
      "k: gcc 4.10.x\n".toList := by
    have hsign : LowersTo '\u212A' ['k'] := by
      refine .other (by decide) (by decide) (List.cons_ne_nil _ _) ?_
      exact List.forall_mem_singleton.mpr rfl
    have hshown : Utf8.decodeLossy (utf8 "\u212A: GCC 4.10.x\n") =
        '\u212A' :: ": GCC 4.10.x\n".toList :=
      Utf8.decodeLossy_encode _
    have htold : "k: gcc 4.10.x\n".toList =
        ['k'] ++ Text.lowerAscii ": GCC 4.10.x\n".toList := by
      rfl
    rw [hshown, htold]
    exact .cons hsign (lowered_lowerAscii _)
  obtain ⟨-, -, hstarted, hmissed⟩ := checkCompiler_firstVersion
  obtain ⟨verdict, warned, hchecks, hverdict, hcount⟩ :=
    hstarted "bin/cc" signedSession _ _ hspawn hlowered
  obtain rfl := hverdict.mpr ⟨4, 10, rfl, Or.inr ⟨rfl, by decide⟩⟩
  obtain rfl := List.eq_nil_of_length_eq_zero hcount
  exact ⟨hchecks, hmissed "bin/c++" signedSession _ hmissing⟩

end NativeExtension.Session
