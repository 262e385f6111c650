/-!
# NativeExtension.Cli.Duration

**How long something took, for a person to read.** Minutes and seconds from one minute
on, seconds with two places (cut off, not rounded) from one second on, and milliseconds
below.
-/

namespace NativeExtension.Cli

/-- A number below one hundred with two digits. -/
def twoDigits (n : Nat) : String :=
  String.ofList [Nat.digitChar (n / 10 % 10), Nat.digitChar (n % 10)]

/-- A duration given in milliseconds, as text. -/
def formatDuration (milliseconds : Nat) : String :=
  let seconds := milliseconds / 1000
  let rest := milliseconds % 1000
  if 60 ≤ seconds then toString (seconds / 60) ++ "m " ++ toString (seconds % 60) ++ "s"
  else if 0 < seconds then toString seconds ++ "." ++ twoDigits (rest / 10) ++ "s"
  else toString rest ++ "ms"

end NativeExtension.Cli
