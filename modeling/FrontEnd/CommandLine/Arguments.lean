/-
The arguments of the program. They are taken from left to right; the
first one that cannot be taken, or that asks for the version or for
help, settles what the program does.

Options are written in full. An option with a value has it behind an
equals sign or as the next argument, where it must not look like an
option. Behind `--` every argument is a file.
-/
import FrontEnd.Settings

namespace FrontEnd

/-- What the arguments ask for. -/
structure Arguments where
  files : List String
  charset : Option Charset
  config : Option String
  /-- Whether to stop at the first syntax error of a file. -/
  noRecovery : Bool
  tokens : Bool
  tree : Bool
  verbosity : Nat
deriving DecidableEq, Repr

/-- What the program is to do. -/
inductive Command where
  | analyze (arguments : Arguments)
  | version
  | help
  /-- The arguments make no sense. -/
  | usageError
deriving DecidableEq, Repr

namespace Arguments

/-- Before the first argument. -/
def initial : Arguments :=
  ⟨[], none, none, false, false, false, 0⟩

/-- What an argument leads to. -/
inductive Step where
  | next (a : Arguments)
  | settle (c : Command)

/-- Adds a file, which has to have a name. -/
def addFile (a : Arguments) (path : String) : Step :=
  if path.isEmpty then .settle .usageError
  else .next { a with files := a.files ++ [path] }

/-- Adds files. -/
def addFiles (a : Arguments) : List String → Step
  | [] => .next a
  | path :: paths =>
    match a.addFile path with
    | .next a => addFiles a paths
    | step => step

/-- Takes an option that has no value. -/
def flag (a : Arguments) (name : String) : Step :=
  if name == "no-error-recovery" then
    if a.noRecovery then .settle .usageError
    else .next { a with noRecovery := true }
  else if name == "tokens" then
    if a.tokens then .settle .usageError
    else .next { a with tokens := true }
  else if name == "ast" then
    if a.tree then .settle .usageError
    else .next { a with tree := true }
  else if name == "verbose" then
    .next { a with verbosity := a.verbosity + 1 }
  else if name == "version" then .settle .version
  else if name == "help" then .settle .help
  else .settle .usageError

/-- Whether an option has a value. -/
def takesValue (name : String) : Bool :=
  name == "charset" || name == "config"

/-- Takes an option that has a value. -/
def option (a : Arguments) (name value : String) : Step :=
  if name == "charset" then
    match a.charset, Charset.ofName? value with
    | none, some charset => .next { a with charset := some charset }
    | _, _ => .settle .usageError
  else if name == "config" then
    if a.config.isSome || value.isEmpty then .settle .usageError
    else .next { a with config := some value }
  else .settle .usageError

/-- Takes options of one letter each. -/
def letters (a : Arguments) : List Char → Step
  | [] => .next a
  | c :: cs =>
    if c == 'v' then letters { a with verbosity := a.verbosity + 1 } cs
    else if c == 'V' then .settle .version
    else if c == 'h' then .settle .help
    else .settle .usageError

/-- Whether an argument looks like an option. A dash alone does not. -/
def looksLikeOption (argument : String) : Bool :=
  match argument.toList with
  | '-' :: _ :: _ => true
  | _ => false

/-- Name and attached value of an option in full. -/
def nameValue (text : List Char) : String × Option String :=
  match text.span (· != '=') with
  | (name, []) => (String.ofList name, none)
  | (name, _ :: value) => (String.ofList name, some (String.ofList value))

/-- The command of some arguments behind those already taken. -/
def command (a : Arguments) : List String → Command
  | [] => if a.files.isEmpty then .usageError else .analyze a
  | argument :: rest =>
    match argument.toList with
    | ['-', '-'] =>
      match a.addFiles rest with
      | .next a => if a.files.isEmpty then .usageError else .analyze a
      | .settle c => c
    | '-' :: '-' :: text =>
      match nameValue text with
      | (name, none) =>
        if takesValue name then
          match rest with
          | [] => .usageError
          | value :: rest =>
            if looksLikeOption value then .usageError
            else
              match a.option name value with
              | .next a => command a rest
              | .settle c => c
        else
          match a.flag name with
          | .next a => command a rest
          | .settle c => c
      | (name, some value) =>
        match a.option name value with
        | .next a => command a rest
        | .settle c => c
    | '-' :: c :: cs =>
      match a.letters (c :: cs) with
      | .next a => command a rest
      | .settle c => c
    | _ =>
      match a.addFile argument with
      | .next a => command a rest
      | .settle c => c

end Arguments

/-- The command of a list of arguments. -/
def Command.ofArguments (arguments : List String) : Command :=
  Arguments.initial.command arguments

end FrontEnd
