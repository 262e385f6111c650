import NativeExtension.Proofs.Path.Components
import NativeExtension.Proofs.Text.FirstLine
import NativeExtension.Session.Detection
import NativeExtension.Text.RoundTrip

/-!
# NativeExtension.Proofs.Session.CompilerRoot

**The CUDA root that is found through the compiler, and the compiler below it.** The search goes
two steps up from the program that it is told of, whatever these steps are called; a build
description goes two steps down from the root, always to `bin` and the compiler's own name. So the
description uses the program that was found exactly if that is where it lies
(`locateCudaRoot_twoAbove`).
-/

namespace NativeExtension

/-- The command that looks for the CUDA compiler. -/
def nvccSearch : Launch where
  program := utf8 Os.linux.searchProgram
  arguments := [utf8 "nvcc"]

/-- The search program runs, does not fail, and tells of the program `found`: its path stands on
the first line of the answer that is not blank. -/
def Machine.TellsOf (m : Machine) (found : Path) : Prop :=
  ∃ outcome line, (m.spawn nvccSearch).1 = .ok outcome ∧ outcome.ending.success = true ∧
    Text.FirstLine (Utf8.decodeLossy outcome.out) line ∧ found = ⟨Utf8.encode line⟩

/-- The search tells of one program at most. -/
theorem Machine.TellsOf.unique {m : Machine} {found other : Path} (h : m.TellsOf found)
    (h' : m.TellsOf other) : found = other := by
  obtain ⟨outcome, line, hspawn, -, hline, rfl⟩ := h
  obtain ⟨outcome', line', hspawn', -, hline', rfl⟩ := h'
  obtain rfl := Except.ok.inj (hspawn.symm.trans hspawn')
  obtain rfl := Option.some.inj (hline.firstLine?.symm.trans hline'.firstLine?)
  rfl

namespace Session

/-! ### Two steps up -/

/-- Two steps up take away the last two components, whatever they are. -/
theorem components_rootOfCompiler? {program root : Path} (h : rootOfCompiler? program = some root) :
    ∃ directory file, program.components = root.components ++ [directory, file] := by
  obtain ⟨above, habove, hroot⟩ := Option.bind_eq_some_iff.mp h
  obtain ⟨file, hfile⟩ := Path.components_parent? habove
  obtain ⟨directory, hdirectory⟩ := Path.components_parent? hroot
  refine ⟨directory, file, ?_⟩
  rw [hfile, hdirectory, List.append_assoc, List.singleton_append]

/-- The answer of the search program counts only if it started and ended well. -/
theorem searchCudaRoot_fst (s : Session) :
    ((searchCudaRoot .linux).run s).1 =
      match (s.machine.spawn nvccSearch).1 with
      | .error _ => none
      | .ok outcome => if outcome.ending.success then rootTold? outcome.out else none := by
  unfold searchCudaRoot
  rw [StateT.run_bind, run_start, ← nvccSearch]
  cases (s.machine.spawn nvccSearch).1 with
  | error cause => rfl
  | ok outcome =>
      change (StateT.run (if outcome.ending.success then pure (rootTold? outcome.out)
        else pure none : Action (Option Path)) _).1 = _
      dsimp only
      split <;> rfl

/-- The search finds the directory two steps above the program that it is told of. -/
theorem searchCudaRoot_eq_some {s : Session} {root : Path}
    (h : ((searchCudaRoot .linux).run s).1 = some root) :
    ∃ found, s.machine.TellsOf found ∧ rootOfCompiler? found = some root := by
  rw [searchCudaRoot_fst] at h
  split at h
  · cases h
  · next outcome hspawn =>
    split at h
    · next hsuccess =>
      obtain ⟨line, hline, hroot⟩ := Option.bind_eq_some_iff.mp h
      exact ⟨_, ⟨outcome, line, hspawn, hsuccess, Text.firstLine?_eq_some_iff.mp hline, rfl⟩,
        hroot⟩
    · cases h

/-- Where the root comes from: the environment, else the usual place, else the search. -/
theorem run_locateCudaRoot (os : Os) (usual : Option Path) (s : Session) :
    (locateCudaRoot os usual).run s =
      match s.machine.cudaHomeVar? with
      | some root => (some root, s)
      | none =>
        match usual.filter s.machine.pathExists with
        | some root => (some root, s)
        | none => (searchCudaRoot os).run s := by
  unfold locateCudaRoot
  rw [StateT.run_bind, run_getMachine]
  dsimp only [bind]
  cases s.machine.cudaHomeVar? with
  | some root => rfl
  | none => cases usual.filter s.machine.pathExists <;> rfl

/-- With no root in the environment and nothing at the usual place, the search decides. -/
theorem run_locateCudaRoot_of_unset {s : Session} {os : Os} {usual : Option Path}
    (hhome : s.machine.setVar? "CUDA_HOME" = none) (hpath : s.machine.setVar? "CUDA_PATH" = none)
    (husual : ∀ dir, usual = some dir → s.machine.pathExists dir = false) :
    (locateCudaRoot os usual).run s = (searchCudaRoot os).run s := by
  have hunset : s.machine.cudaHomeVar? = none := by
    rw [Machine.cudaHomeVar?, hhome, hpath]
    rfl
  have hmissing : usual.filter s.machine.pathExists = none := by
    cases usual with
    | none => rfl
    | some dir => rw [Option.filter_some, husual dir rfl, if_neg Bool.false_ne_true]
  rw [run_locateCudaRoot, hunset, hmissing]

/-! ### Two steps down -/

/-- The compiler that is used is two names below the root. -/
theorem components_nvcc {toolchain : Toolchain} {root : Path} (h : toolchain.cudaHome = some root) :
    ∃ compiler, toolchain.nvcc = .ok compiler ∧ compiler.components =
      root.components ++
        [.name (utf8 "bin"), .name (utf8 (toolchain.os.executable "nvcc"))] := by
  have hbin : Path.IsName "bin" := by decide
  have hfile : Path.IsName (toolchain.os.executable "nvcc") := by
    cases toolchain.os <;> decide
  refine ⟨_, by rw [Toolchain.nvcc, h]; rfl, ?_⟩
  rw [List.foldl_cons, List.foldl_cons, List.foldl_nil, Path.components_joinText _ hfile,
    Path.components_joinText _ hbin, List.append_assoc, List.singleton_append]

/-- **The root is two steps above the program, the compiler two steps below the root.** If no root
is named and there is none at the usual place, a root comes from the program that the search tells
of, and has a name unless that program's path has but two steps. The compiler of a toolchain with
that root is that program exactly if the program has the compiler's name in a directory `bin`. -/
theorem locateCudaRoot_twoAbove {s : Session} {usual : Option Path} {root : Path}
    (hhome : s.machine.setVar? "CUDA_HOME" = none) (hpath : s.machine.setVar? "CUDA_PATH" = none)
    (husual : ∀ dir, usual = some dir → s.machine.pathExists dir = false)
    (hroot : ((locateCudaRoot .linux usual).run s).1 = some root) :
    ∃ found directory file, s.machine.TellsOf found ∧
      found.components = root.components ++ [directory, file] ∧
      (2 < found.components.length → root.bytes ≠ []) ∧
      ∀ toolchain : Toolchain, toolchain.cudaHome = some root →
        ∃ compiler, toolchain.nvcc = .ok compiler ∧
          (compiler.Equiv found ↔ directory = .name (utf8 "bin") ∧
            file = .name (utf8 (toolchain.os.executable "nvcc"))) := by
  rw [run_locateCudaRoot_of_unset hhome hpath husual] at hroot
  obtain ⟨found, htold, habove⟩ := searchCudaRoot_eq_some hroot
  obtain ⟨directory, file, hfound⟩ := components_rootOfCompiler? habove
  refine ⟨found, directory, file, htold, hfound, ?_, fun toolchain hcuda => ?_⟩
  · intro hsteps hempty
    obtain rfl : root = ⟨[]⟩ := by rw [← hempty]
    rw [hfound] at hsteps
    exact Nat.lt_irrefl 2 hsteps
  · obtain ⟨compiler, hcompiler, hsteps⟩ := components_nvcc hcuda
    refine ⟨compiler, hcompiler, ?_⟩
    rw [Path.Equiv, hsteps, hfound, List.append_cancel_left_eq, List.cons.injEq, List.cons.injEq,
      and_iff_left rfl, eq_comm, eq_comm (a := Component.name _) (b := file)]

/-- A process on a machine where nothing but the search program is installed, and that program
gives the answer. -/
def searchedSession (answer : String) : Session where
  machine :=
    { files :=
        { entries := [([utf8 "bin"], .directory false),
            ([utf8 "which", utf8 "bin"], .file 0 (.program { out := utf8 answer }))]
          nextId := 1 }
      cwd := ⟨[], 0⟩
      env := [] }

theorem tellsOf_searchedSession {answer line : String}
    (h : Text.firstLine? answer.toList = some line.toList) :
    (searchedSession answer).machine.TellsOf (.ofText line) := by
  have hspawn : ((searchedSession answer).machine.spawn nvccSearch).1 =
      .ok ⟨[(.out, utf8 answer), (.err, []), (.out, [])], .exit 0⟩ := by
    rfl
  have hout : (⟨[(.out, utf8 answer), (.err, []), (.out, [])], .exit 0⟩ : Outcome).out =
      utf8 answer := by
    simp [Outcome.out]
  refine ⟨_, line.toList, hspawn, rfl, ?_, rfl⟩
  rw [hout, utf8, Utf8.decodeLossy_encode]
  exact Text.firstLine?_eq_some_iff.mp h

/-- A program outside a directory `bin` is not the one that will be used; one whose path has but two
steps leaves a root without a name. -/
theorem locateCudaRoot_astray :
    (∃ root compiler,
      ((locateCudaRoot .linux none).run (searchedSession "/opt/cuda/tools/nvcc\n")).1 = some root ∧
      (searchedSession "/opt/cuda/tools/nvcc\n").machine.TellsOf
        (.ofText "/opt/cuda/tools/nvcc") ∧
      ({ cudaHome := some root } : Toolchain).nvcc = .ok compiler ∧
      ¬compiler.Equiv (.ofText "/opt/cuda/tools/nvcc")) ∧
    ((locateCudaRoot .linux none).run (searchedSession "bin/nvcc\n")).1 = some ⟨[]⟩ := by
  refine ⟨⟨.ofText "/opt/cuda", .ofText "/opt/cuda/bin/nvcc", ?_, ?_, ?_, ?_⟩, ?_⟩
  · decide +kernel
  · exact tellsOf_searchedSession (by decide +kernel)
  · decide +kernel
  · decide +kernel
  · decide +kernel

/-- The answer starts with a blank line, and the program lies where the description looks for it. -/
theorem locateCudaRoot_twoAbove_usual :
    ((locateCudaRoot .linux (some usualCudaRoot)).run
        (searchedSession "\n /opt/cuda//bin/nvcc \n")).1 = some (.ofText "/opt/cuda") ∧
      ∃ compiler, ({ cudaHome := some (.ofText "/opt/cuda") } : Toolchain).nvcc = .ok compiler ∧
        compiler.Equiv (.ofText "/opt/cuda//bin/nvcc") := by
  have hroot : ((locateCudaRoot .linux (some usualCudaRoot)).run
      (searchedSession "\n /opt/cuda//bin/nvcc \n")).1 = some (.ofText "/opt/cuda") := by
    decide +kernel
  have hunusual : ∀ dir, some usualCudaRoot = some dir →
      (searchedSession "\n /opt/cuda//bin/nvcc \n").machine.pathExists dir = false := by
    rintro dir ⟨⟩
    decide +kernel
  have htold : (searchedSession "\n /opt/cuda//bin/nvcc \n").machine.TellsOf
      (.ofText "/opt/cuda//bin/nvcc") :=
    tellsOf_searchedSession (by decide +kernel)
  obtain ⟨found, directory, file, hfound, hsteps, -, hcompilers⟩ :=
    locateCudaRoot_twoAbove rfl rfl hunusual hroot
  obtain rfl := hfound.unique htold
  have hplace : (Path.ofText "/opt/cuda//bin/nvcc").components =
      (Path.ofText "/opt/cuda").components ++ [.name (utf8 "bin"), .name (utf8 "nvcc")] := by
    decide +kernel
  rw [hplace] at hsteps
  obtain ⟨rfl, rfl⟩ : Component.name (utf8 "bin") = directory ∧
      Component.name (utf8 "nvcc") = file := by
    simpa using hsteps
  obtain ⟨compiler, hcompiler, hsame⟩ := hcompilers { cudaHome := some (.ofText "/opt/cuda") } rfl
  exact ⟨hroot, compiler, hcompiler, hsame.mpr ⟨rfl, rfl⟩⟩

end Session

end NativeExtension
