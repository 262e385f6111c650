import NativeExtension.Path.Basic

/-!
# NativeExtension.Machine.Script

**What an executable file holds.** A script tells what can be seen of a simple program: the record
of calls it keeps, the file it creates, what it prints and how it ends. Two runs with the same
arguments print and end alike (`outcome`); only the shell that runs a script has something to say
before, when the current directory has been removed (`outcomeIn`).
-/

namespace NativeExtension

/-- How a program ends. -/
inductive Ending where
  | exit (code : UInt8)
  | signal (number : Nat)
deriving DecidableEq, Repr

namespace Ending

def success : Ending → Bool
  | .exit code => code == 0
  | .signal _ => false

/-- The exit code; a signal leaves none. -/
def code? : Ending → Option Int
  | .exit code => some code.toNat
  | .signal _ => none

end Ending

/-- One of the two streams that a program prints to. -/
inductive Stream where
  | out
  | err
deriving DecidableEq, Repr

/-- What a run of a program printed, piece by piece, and how it ended. -/
structure Outcome where
  printed : List (Stream × Bytes)
  ending : Ending
deriving DecidableEq, Repr

namespace Outcome

def out (outcome : Outcome) : Bytes :=
  (outcome.printed.filter (·.1 = .out)).flatMap (·.2)

/-- What was printed to both streams, when they are one. -/
def merged (outcome : Outcome) : Bytes :=
  outcome.printed.flatMap (·.2)

end Outcome

/-- What a program answers when it is asked for its version. -/
structure VersionReply where
  out : Bytes
  ending : Ending
deriving DecidableEq, Repr

/-- A program by what it does. -/
structure Script where
  /-- Does it add a line with its arguments to a file beside it at each call? -/
  recordsCalls : Bool := false
  /-- What it answers to `--version`, if it treats that apart. -/
  version : Option VersionReply := none
  /-- A file that it creates, empty. -/
  creates : Option Path := none
  echoes : Bool := false
  out : Bytes := []
  /-- What it then prints to standard error. -/
  err : Bytes := []
  /-- What it prints last to standard output. -/
  lastOut : Bytes := []
  ending : Ending := .exit 0
deriving DecidableEq, Repr, Inhabited

namespace Script

/-- Arguments on one line, a blank between two. -/
def argumentLine (arguments : List Bytes) : Bytes :=
  List.intercalate [0x20] arguments ++ [0x0A]

/-- The answer of a program that was asked for its version and treats that apart. -/
def versionReply? (script : Script) (arguments : List Bytes) : Option VersionReply :=
  if arguments.head? = some (utf8 "--version") then script.version else none

/-- The pieces that the program prints when it is not asked for its version. -/
def pieces (script : Script) (arguments : List Bytes) : List (Stream × Bytes) :=
  (if script.echoes then [(.out, argumentLine arguments)] else []) ++
    [(.out, script.out), (.err, script.err), (.out, script.lastOut)]

/-- What a run with `arguments` prints and how it ends. -/
def outcome (script : Script) (arguments : List Bytes) : Outcome :=
  match script.versionReply? arguments with
  | some reply => { printed := [(.out, reply.out)], ending := reply.ending }
  | none => { printed := script.pieces arguments, ending := script.ending }

/-- What the shell says before it starts on a script in a directory that has been removed. -/
def removedWords : Bytes := utf8 "sh: 0: getcwd() failed: No such file or directory\n"

/-- What a run prints and how it ends, in a directory that may have been removed. -/
def outcomeIn (script : Script) (removed : Bool) (arguments : List Bytes) : Outcome :=
  let outcome := script.outcome arguments
  if removed then { outcome with printed := (.err, removedWords) :: outcome.printed }
  else outcome

end Script

end NativeExtension
