import NativeExtension.Cli.Command

/-!
# NativeExtension.Main

**The command line program.** It takes a picture of the machine, runs the program on the
picture, and carries out on the machine what has changed in it. The picture holds the
variables, the current directory, the directories and text files that the arguments lead
to, and no programs: whatever would have to be started is reported as missing, so that of
the commands `emit` does all its work, `info` tells what can be told without starting
anything, and `build` stops at the check of its runner.
-/

namespace NativeExtension.Main

/-- The variables that the program looks at. -/
def variableNames : List String :=
  ["PATH", "CUDA_HOME", "CUDA_PATH", "CXX", "EXTBUILD_EXTENSIONS_DIR", "EXTBUILD_NINJA",
    "EXTBUILD_RUNTIME_INCLUDE", "RUST_LOG", "TMPDIR", "NO_COLOR", "FORCE_COLOR",
    "CLICOLOR_FORCE"]

def readVariables : IO (List (String × Bytes)) := do
  let mut found := []
  for name in variableNames do
    if let some value ← IO.getEnv name then
      found := found ++ [(name, utf8 value)]
  return found

/-- The paths that an argument may hold: itself, and what is behind its equals sign. -/
def pathsOf (argument : String) : List Path :=
  let bytes := utf8 argument
  [⟨bytes⟩, ⟨(bytes.dropWhile (· ≠ Cli.equals)).drop 1⟩]

/-- Adds to the picture what is at a path, the directories on its way first. -/
def addPath (here : Path) (m : Machine) (p : Path) : IO Machine := do
  let .ok full := p.absolute (.ok here) | return m
  let mut picture := m
  for step in (Machine.ancestors full).reverse do
    let some name := text? step.bytes | return picture
    let place := (← IO.currentDir) / name
    if ← place.isDir then
      picture := picture.putDir step
    else if ← place.pathExists then
      picture := picture.put step (.data [])
  return picture

/-- A picture of the machine. -/
def takePicture (arguments : List String) : IO Machine := do
  let here := Path.ofText (← IO.currentDir).toString
  let mut m : Machine := { files := .empty, cwd := ⟨[], 0⟩, env := ← readVariables }
  for p in [here, Session.usualCudaRoot] ++ arguments.flatMap pathsOf do
    m ← addPath here m p
  return (m.changeDir here).toOption.getD m

def pathText (location : Location) : String :=
  (Path.mk (location.reverse.flatMap (slash :: ·))).display

/-- Makes on the machine what is in the picture `after` and not in `before`. -/
def carryOut (before after : Machine) : IO Unit := do
  for (location, entry) in after.files.entries do
    if before.files.get? location ≠ some entry then
      match entry with
      | .directory _ => IO.FS.createDirAll (pathText location)
      | .file _ content =>
        if let some bytes := content.bytes? then
          IO.FS.writeBinFile (pathText location) (ByteArray.mk bytes.toArray)
      | .device => pure ()

def architecture : IO String := do
  try
    let told ← IO.FS.readFile "/proc/sys/kernel/arch"
    return String.ofList (Text.trim told.toList)
  catch _ => return "unknown"

end NativeExtension.Main

def main (arguments : List String) : IO UInt32 := do
  let before ← NativeExtension.Main.takePicture arguments
  let around : NativeExtension.Cli.Surroundings :=
    { architecture := ← NativeExtension.Main.architecture, milliseconds := 0 }
  let (ended, after) :=
    NativeExtension.Cli.runProgram (arguments.map NativeExtension.utf8) around before
  IO.print ended.out
  IO.eprint ended.err
  NativeExtension.Main.carryOut before after
  return UInt32.ofNat ended.code
