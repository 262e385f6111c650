import NativeExtension.Cli.Directive
import NativeExtension.Text.Fields

/-!
# NativeExtension.Cli.LogFilter

**Which reports are printed.** A filter is a list of directives, a comma between
two. Of those that speak of a report the sharpest counts: the one with the longest target,
of two with the same target the one that asks for a detail, and of two that ask for the
same the later one. A filter with a directive that cannot be read is no filter at all.
-/

namespace NativeExtension.Cli

/-- A filter for reports. -/
abbrev LogFilter := List Directive

namespace LogFilter

def read? (text : String) : Option LogFilter :=
  ((Text.fields ',' text.toList).filter (· ≠ [])).mapM Directive.read?

/-- The filter when none is given. -/
def standard (verbose : Bool) : LogFilter :=
  [{ threshold := if verbose then thresholdOf .info else thresholdOf .warn }]

/-- The filter that the environment asks for, else the standard one. -/
def ofVariable (value : Option Bytes) (verbose : Bool) : LogFilter :=
  ((value.bind text?).bind read?).getD (standard verbose)

/-- The directive that counts of two that speak of a report. -/
def sharper (best : Option Directive) (directive : Directive) : Option Directive :=
  match best with
  | none => some directive
  | some known => if known.le directive then some directive else some known

/-- The threshold for a report. -/
def thresholdFor (filter : LogFilter) (report : Report) : Threshold :=
  match (filter.filter (·.selects report)).foldl sharper none with
  | some directive => directive.threshold
  | none => 0

def shows (filter : LogFilter) (report : Report) : Bool :=
  thresholdOf report.level ≤ filter.thresholdFor report

end LogFilter

end NativeExtension.Cli
