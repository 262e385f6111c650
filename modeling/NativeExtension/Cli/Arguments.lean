import NativeExtension.Request

/-!
# NativeExtension.Cli.Arguments

**The command line.** It names one of three commands, `build`, `emit` and `info`, with
switches, parameters and plain arguments behind it. Reading goes in two steps: `lex`
takes the arguments of a command apart into items, and `Command.ofItems?` checks the
items and makes a command of them. Every mistake is a `misuse`, whatever it is, and so is
a mistake in front of a wish for help; behind that wish nothing is read.

Rules of the first step:

* a parameter takes its value from behind an equals sign, or from the next argument;
* a parameter for compiler flags takes any next argument, another takes none that looks
  like an option;
* one-letter forms may stand together behind one dash, the last with a value attached;
* `--` makes plain arguments of all that follow.
-/

namespace NativeExtension.Cli

/-- The form of what is printed on success. -/
inductive Format where
  | text
  | json
deriving DecidableEq, Repr, Inhabited

/-- An option without a value. -/
inductive Switch where
  | verbose
  | noLoad
deriving DecidableEq, Repr

/-- An option with a value. -/
inductive Parameter where
  | hostFlag
  | deviceFlag
  | linkFlag
  | includeDir
  | buildDir
  | out
  | format
deriving DecidableEq, Repr

inductive CommandName where
  | build
  | emit
  | info
deriving DecidableEq, Repr

def CommandName.ofBytes? (word : Bytes) : Option CommandName :=
  if word = utf8 "build" then some .build
  else if word = utf8 "emit" then some .emit
  else if word = utf8 "info" then some .info
  else none

namespace Parameter

/-- May the value look like an option? A flag of a compiler usually does. -/
def takesDashes : Parameter → Bool
  | .hostFlag | .deviceFlag | .linkFlag => true
  | _ => false

/-- May the parameter be given more than once? -/
def repeats : Parameter → Bool
  | .hostFlag | .deviceFlag | .linkFlag | .includeDir => true
  | _ => false

/-- Is `value` a value of the parameter? Flags are texts, paths are not empty. -/
def accepts (parameter : Parameter) (value : Bytes) : Bool :=
  match parameter with
  | .hostFlag | .deviceFlag | .linkFlag => (text? value).isSome
  | .includeDir | .buildDir | .out => value ≠ []
  | .format => value = utf8 "text" || value = utf8 "json"

end Parameter

/-- What a word or letter behind dashes stands for. -/
inductive Meaning where
  | switch (switch : Switch)
  | parameter (parameter : Parameter)
  | help
deriving DecidableEq, Repr

namespace CommandName

/-- An option: its word, perhaps its letter, and what it stands for. -/
abbrev OptionEntry := String × Option Char × Meaning

def commonOptions : List OptionEntry :=
  [("verbose", some 'v', .switch .verbose), ("help", some 'h', .help)]

/-- Options of the commands that an extension is given to. -/
def extensionOptions : List OptionEntry :=
  [("cflag", none, .parameter .hostFlag), ("cuda-cflag", none, .parameter .deviceFlag),
    ("ldflag", none, .parameter .linkFlag), ("include", some 'I', .parameter .includeDir),
    ("build-dir", none, .parameter .buildDir)]

def formatOption : OptionEntry := ("format", some 'f', .parameter .format)

def options : CommandName → List OptionEntry
  | .build =>
    commonOptions ++ extensionOptions ++ [("no-load", none, .switch .noLoad), formatOption]
  | .emit => commonOptions ++ extensionOptions ++ [("out", none, .parameter .out)]
  | .info => commonOptions ++ [formatOption]

def ofWord? (command : CommandName) (word : Bytes) : Option Meaning :=
  (command.options.find? fun option => utf8 option.1 = word).map (·.2.2)

def ofLetter? (command : CommandName) (letter : UInt8) : Option Meaning :=
  (command.options.find? fun option =>
    option.2.1.any fun c => c.toNat = letter.toNat).map (·.2.2)

end CommandName

inductive Item where
  | switch (switch : Switch)
  | value (parameter : Parameter) (bytes : Bytes)
  | plain (bytes : Bytes)
  | help
deriving DecidableEq, Repr

/-- What one argument gives: some items, and perhaps a parameter that lacks its value. -/
structure Reading where
  items : List Item
  pending : Option Parameter := none
deriving DecidableEq, Repr

def dash : UInt8 := 0x2D

def equals : UInt8 := 0x3D

/-- Does an argument look like an option? A single dash does not. -/
def looksLikeOption (argument : Bytes) : Bool :=
  argument.head? = some dash && 1 < argument.length

/-- The argument behind which all are plain. -/
def separator : Bytes := [dash, dash]

/-- Reads what stands behind two dashes. -/
def readWord (command : CommandName) (bytes : Bytes) : Option Reading :=
  let word := bytes.takeWhile (· ≠ equals)
  let attached : Option Bytes :=
    match bytes.dropWhile (· ≠ equals) with
    | _ :: value => some value
    | [] => none
  match command.ofWord? word, attached with
  | some (.switch switch), none => some { items := [.switch switch] }
  | some (.parameter parameter), some value => some { items := [.value parameter value] }
  | some (.parameter parameter), none => some { items := [], pending := some parameter }
  | some .help, none => some { items := [.help] }
  | _, _ => none

/-- Reads letters behind one dash. A letter that takes a value takes the letters behind it,
without an equals sign in front. -/
def readLetters (command : CommandName) : Bytes → Option Reading
  | [] => some { items := [] }
  | letter :: rest =>
    match command.ofLetter? letter with
    | some (.switch switch) =>
      (readLetters command rest).map fun reading =>
        { reading with items := .switch switch :: reading.items }
    | some (.parameter parameter) =>
      match rest with
      | [] => some { items := [], pending := some parameter }
      | first :: others =>
        some { items := [.value parameter (if first = equals then others else rest)] }
    | some .help => some { items := [.help] }
    | none => none

def readOption (command : CommandName) (argument : Bytes) : Option Reading :=
  match argument with
  | _ :: second :: rest =>
    if second = dash then readWord command rest else readLetters command (second :: rest)
  | _ => none

/-- The items of the arguments of a command up to a wish for help, `pending` being the
parameter that the first of them may belong to. -/
def lex (command : CommandName) (pending : Option Parameter) :
    List Bytes → Option (List Item)
  | [] => if pending.isNone then some [] else none
  | argument :: rest =>
    match pending with
    | some parameter =>
      if !looksLikeOption argument || parameter.takesDashes then
        (lex command none rest).map (.value parameter argument :: ·)
      else none
    | none =>
      if argument = separator then some (rest.map .plain)
      else if looksLikeOption argument then
        match readOption command argument with
        | some reading =>
          if reading.items.contains .help then some reading.items
          else (lex command reading.pending rest).map (reading.items ++ ·)
        | none => none
      else (lex command none rest).map (.plain argument :: ·)

/-- What to build, as it stands on the command line. -/
structure ExtensionArguments where
  name : String
  sources : List Path
  hostFlags : List String := []
  deviceFlags : List String := []
  linkFlags : List String := []
  includes : List Path := []
  buildDir : Option Path := none
deriving DecidableEq, Repr

def ExtensionArguments.request (arguments : ExtensionArguments) (verbose : Bool) :
    LoadOptions where
  name := arguments.name
  sources := arguments.sources
  hostFlags := arguments.hostFlags
  deviceFlags := arguments.deviceFlags
  linkFlags := arguments.linkFlags
  includes := arguments.includes
  buildDirectory := arguments.buildDir
  verbose := verbose

inductive Command where
  | build (extension : ExtensionArguments) (noLoad : Bool) (format : Format)
  | emit (extension : ExtensionArguments) (out : Option Path)
  | info (format : Format)
deriving DecidableEq, Repr

namespace Item

def values (items : List Item) (parameter : Parameter) : List Bytes :=
  items.filterMap fun item =>
    match item with
    | .value p bytes => if p = parameter then some bytes else none
    | _ => none

def plains (items : List Item) : List Bytes :=
  items.filterMap fun item =>
    match item with
    | .plain bytes => some bytes
    | _ => none

def has (items : List Item) (switch : Switch) : Bool := items.contains (.switch switch)

def path? (items : List Item) (parameter : Parameter) : Option Path :=
  ((values items parameter).getLast?).map Path.mk

def texts (items : List Item) (parameter : Parameter) : List String :=
  (values items parameter).map shown

def format (items : List Item) : Format :=
  if (values items .format).getLast? = some (utf8 "json") then .json else .text

/-- Can the plain arguments belong to the command? The first is a name, which is text, and
the others are paths, which are not empty. -/
def plainsFit (name : CommandName) (plains : List Bytes) : Bool :=
  match name with
  | .build | .emit => plains.head?.all (fun first => (text? first).isSome) &&
      (plains.drop 1).all (· ≠ [])
  | .info => plains = []

/-- Can all items belong to the command, with no switch given twice, no parameter that may
be given but once, and no value that its parameter does not accept? -/
def wellFormed (name : CommandName) (items : List Item) : Bool :=
  [Switch.verbose, .noLoad].all (fun switch => items.count (.switch switch) ≤ 1) &&
    [Parameter.buildDir, .out, .format].all
      (fun parameter => parameter.repeats || (values items parameter).length ≤ 1) &&
    items.all (fun item =>
      match item with
      | .value parameter bytes => parameter.accepts bytes
      | _ => true) &&
    plainsFit name (plains items)

/-- The extension that the items speak of: a name and at least one source. -/
def extension? (items : List Item) : Option ExtensionArguments :=
  match plains items with
  | name :: source :: sources =>
    (text? name).map fun name =>
      { name := name
        sources := (source :: sources).map Path.mk
        hostFlags := texts items .hostFlag
        deviceFlags := texts items .deviceFlag
        linkFlags := texts items .linkFlag
        includes := (values items .includeDir).map Path.mk
        buildDir := path? items .buildDir }
  | _ => none

end Item

/-- The command that some items make, if nothing is missing. -/
def Command.ofItems? (name : CommandName) (items : List Item) : Option Command :=
  match name with
  | .build =>
    (Item.extension? items).map fun extension =>
      .build extension (Item.has items .noLoad) (Item.format items)
  | .emit =>
    (Item.extension? items).map fun extension => .emit extension (Item.path? items .out)
  | .info => some (.info (Item.format items))

inductive Invocation where
  | run (verbose : Bool) (command : Command)
  | version
  | help
  | misuse
deriving DecidableEq, Repr

namespace Invocation

/-- The command line behind the name of a command. -/
def ofCommand (verbose : Bool) (name : CommandName) (arguments : List Bytes) : Invocation :=
  match lex name none arguments with
  | none => .misuse
  | some items =>
    if !Item.wellFormed name items then .misuse
    else if items.contains .help then .help
    else
      match Command.ofItems? name items with
      | some command => .run (verbose || Item.has items .verbose) command
      | none => .misuse

/-- A wish for help in place of a command: on the whole program, or on one command. -/
def ofHelp : List Bytes → Invocation
  | [] => .help
  | [word] =>
    if (CommandName.ofBytes? word).isSome || word = utf8 "help" then .help else .misuse
  | _ => .misuse

/-- What letters before the command say: whether to report each step, unless one of them
settles the matter. -/
def ofLetters (verbose : Bool) : Bytes → Except Invocation Bool
  | [] => .ok verbose
  | letter :: rest =>
    if letter.toNat = 'v'.toNat then
      if verbose then .error .misuse else ofLetters true rest
    else if letter.toNat = 'V'.toNat then .error .version
    else if letter.toNat = 'h'.toNat then .error .help
    else .error .misuse

def ofOption (verbose : Bool) (argument : Bytes) : Except Invocation Bool :=
  if argument = utf8 "--verbose" then
    if verbose then .error .misuse else .ok true
  else if argument = utf8 "--version" then .error .version
  else if argument = utf8 "--help" then .error .help
  else if separator.isPrefixOf argument then .error .misuse
  else ofLetters verbose (argument.drop 1)

/-- A whole command line, `verbose` telling whether each step is to be reported. -/
def ofArguments (verbose : Bool) : List Bytes → Invocation
  | [] => .misuse
  | argument :: rest =>
    match CommandName.ofBytes? argument with
    | some name => ofCommand verbose name rest
    | none =>
      if argument = utf8 "help" then ofHelp rest
      else if looksLikeOption argument then
        match ofOption verbose argument with
        | .ok verbose => ofArguments verbose rest
        | .error settled => settled
      else .misuse

end Invocation

end NativeExtension.Cli
