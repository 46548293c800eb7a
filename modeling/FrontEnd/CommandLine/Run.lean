/-
A run of the program: its arguments and the files that it reads settle
what it prints and how it exits. Reading files is left to the caller, so
that a run can be had over files in memory as well.
-/
import FrontEnd.CommandLine.Arguments
import FrontEnd.CommandLine.Directory
import FrontEnd.Report

namespace FrontEnd

/-- How a run ends. -/
structure RunOutcome where
  exit : Nat
  /-- What it prints. -/
  output : String
  /-- The error that kept it from starting, if it could tell. -/
  error : Option String
deriving DecidableEq, Repr

namespace RunOutcome

/-- A run that reads no file. -/
def plain (exit : Nat) (output : String) : RunOutcome :=
  ⟨exit, output, none⟩

end RunOutcome

/-- Name and version of the program. -/
def versionText : String := "cxxscan 0.1.0\n"

/-- How the program is to be called. -/
def helpText : String := "\n".intercalate [
  "Tokenize and parse C++ files, then report syntax errors and rule violations",
  "",
  "Usage: cxxscan [OPTIONS] <FILES>...",
  "",
  "Arguments:",
  "  <FILES>...  Source files to analyze",
  "",
  "Options:",
  "      --charset <NAME>     Charset used to decode the sources (UTF-8, US-ASCII, ISO-8859-1)",
  "      --no-error-recovery  Stop each file at its first syntax error",
  "      --config <FILE>      Properties file with sonar.sourceEncoding / sonar.cxx.errorRecoveryEnabled",
  "      --tokens             Print the token stream of each file",
  "      --ast                Print the syntax tree of each file",
  "  -v, --verbose...         Increase log verbosity (-v debug, -vv trace)",
  "  -h, --help               Print help",
  "  -V, --version            Print version",
  ""]

namespace Settings

/-- What is wrong with a properties file that is no text. -/
def notText : String := "stream did not contain valid UTF-8"

/-- The settings of a properties file that was read, or not. -/
def ofFile (path : String) (bytes : Except ReadFailure (List UInt8)) :
    Except SettingsError Settings :=
  match bytes with
  | .error e => .error (.unreadable path e.message)
  | .ok bytes =>
    let decoded := Charset.utf8.decode bytes
    if decoded.valid then ofProperties decoded.text
    else .error (.unreadable path notText)

/-- The settings with those that the arguments give. -/
def override (s : Settings) (a : Arguments) : Settings :=
  { charset := a.charset.getD s.charset
    recovery := s.recovery && !a.noRecovery }

end Settings

namespace Arguments

/-- What the reports are to show. -/
def reportOptions (a : Arguments) (color : Bool) : ReportOptions :=
  ⟨a.tokens, a.tree, color⟩

/-- The report on a file that was read, or nothing. -/
def report (a : Arguments) (color : Bool) (s : Settings) (path : String)
    (bytes : Except ReadFailure (List UInt8)) : String :=
  match bytes with
  | .ok bytes => Report.ofBytes (a.reportOptions color) s path bytes
  | .error _ => ""

/-- How a run ends that had read its files as given. -/
def outcome (a : Arguments) (color : Bool) (s : Settings)
    (files : List (String × Except ReadFailure (List UInt8))) :
    RunOutcome :=
  .plain (if files.any (!·.2.isOk) then 1 else 0)
    (String.join (files.map fun (path, bytes) =>
      a.report color s path bytes))

variable {m : Type → Type} [Monad m]

/-- The settings of a run. -/
def settings (a : Arguments)
    (read : String → m (Except ReadFailure (List UInt8))) :
    m (Except SettingsError Settings) :=
  match a.config with
  | none => return .ok (Settings.default.override a)
  | some path => do
    return (Settings.ofFile path (← read path)).map (·.override a)

/-- Analyses the files and reports on them in order. -/
def analyze (a : Arguments)
    (read : String → m (Except ReadFailure (List UInt8)))
    (color : Bool) : m RunOutcome := do
  match ← a.settings read with
  | .error e => return ⟨2, "", some e.message⟩
  | .ok s =>
    let files ← a.files.mapM fun path => do return (path, ← read path)
    return a.outcome color s files

end Arguments

/-- Runs the program. -/
def Command.run {m : Type → Type} [Monad m] (c : Command)
    (read : String → m (Except ReadFailure (List UInt8)))
    (color : Bool) : m RunOutcome :=
  match c with
  | .analyze a => a.analyze read color
  | .version => return .plain 0 versionText
  | .help => return .plain 0 helpText
  | .usageError => return .plain 2 ""

/-- Runs the program over the files of a directory. -/
def runIn (d : Directory) (arguments : List String) : RunOutcome :=
  Id.run ((Command.ofArguments arguments).run
    (fun path => pure (d.read path)) false)

end FrontEnd
