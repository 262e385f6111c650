/-!
# NativeExtension.Ninja.Statement

**The statements of a Ninja file and how they are written.** A file is a list of
statements, and its text is the text of each in turn. Statements stand together in
blocks; `blank` ends a block with an empty line. Names, values and paths are held as
they are to be written, escapes included.
-/

namespace NativeExtension.Ninja

/-- A statement of a Ninja file. -/
inductive Statement where
  | variable (key value : String)
  | rule (name command : String)
  /-- Tells, of the rule just declared, where the compiler lists the headers it read. -/
  | depfile (file style : String)
  /-- Produces `output` from `inputs` by a rule. -/
  | build (output ruleName : String) (inputs : List String)
  /-- Names what is built when nothing is asked for. -/
  | default (target : String)
  | blank
deriving DecidableEq, Repr

namespace Statement

/-- A statement as it is written. -/
def text : Statement → String
  | .variable key value => key ++ " = " ++ value ++ "\n"
  | .rule name command => "rule " ++ name ++ "\n  command = " ++ command ++ "\n"
  | .depfile file style => "  depfile = " ++ file ++ "\n  deps = " ++ style ++ "\n"
  | .build output ruleName inputs =>
    "build " ++ output ++ ": " ++ ruleName ++ String.join (inputs.map (" " ++ ·)) ++ "\n"
  | .default target => "default " ++ target ++ "\n"
  | .blank => "\n"

end Statement

/-- The text of a file of statements. -/
def fileText (statements : List Statement) : String :=
  String.join (statements.map Statement.text)

end NativeExtension.Ninja
