/-
How a run of a command line ends. The properties file is read first, if the
line names one, and a file that cannot be read or is not taken ends the run
with nothing printed. Else each file has its own report, made of its own bytes
under the settings of the run and of nothing else, and the reports are printed
in the order of the files.

`Ends` says it for whatever the files hold; `run_ends` is over every way in
which paths can lead to bytes, and the files of a directory are one of them
(`runIn_eq`).
-/
import FrontEnd.CommandLine.Run
import FrontEnd.Proofs.CommandLine.Arguments
import FrontEnd.Proofs.Settings

namespace FrontEnd

open Settings

-- ========================================================= the properties file

/-- What a properties file says, where it is read and taken. -/
def Settings.FileSays (read : String → Except ReadFailure (List UInt8))
    (path : String) (ps : List (String × String)) : Prop :=
  ∃ bytes s, read path = .ok bytes
    ∧ (Charset.utf8.decode bytes).valid = true
    ∧ ofProperties (Charset.utf8.decode bytes).text = .ok s
    ∧ ps = properties (Charset.utf8.decode bytes).text

theorem Settings.ofFile_ok {read : String → Except ReadFailure (List UInt8)}
    {path : String} {s : Settings} :
    ofFile path (read path) = .ok s ↔ ∃ bytes, read path = .ok bytes
      ∧ (Charset.utf8.decode bytes).valid = true
      ∧ ofProperties (Charset.utf8.decode bytes).text = .ok s := by
  cases hread : read path with
  | error e => simp [ofFile]
  | ok bytes =>
    cases hvalid : (Charset.utf8.decode bytes).valid <;>
      simp [ofFile, hvalid]

namespace CommandLine

-- =============================================================== the outcome

variable (line : CommandLine)
  (read : String → Except ReadFailure (List UInt8))

/-- What a run is told by a properties file, and nothing where the line names
none. -/
def Told (ps : List (String × String)) : Prop :=
  match line.config with
  | none => ps = []
  | some path => FileSays read path ps

/-- The settings of a run: the arguments come first, then the properties, then
what is so by default. -/
structure Resolves (ps : List (String × String)) (s : Settings) : Prop where
  charset_given : ∀ charset, line.charset = some charset →
    s.charset = charset
  charset_told : line.charset = none →
    ∀ name, lastValue? charsetKey ps = some name →
      Charset.ofName? name = some s.charset
  charset_default : line.charset = none → lastValue? charsetKey ps = none →
    s.charset = .utf8
  recovery_off : s.recovery = false ↔ line.has .noRecovery = true
    ∨ ∃ word, lastValue? recoveryKey ps = some word
      ∧ boolOf? word = some false

/-- The report on a file, without colours, and nothing if it cannot be read. -/
def report (s : Settings) (path : String) : String :=
  match read path with
  | .ok bytes =>
    Report.ofBytes ⟨line.has .tokens, line.has .tree, false⟩ s path bytes
  | .error _ => ""

/-- How a run of the line ends. -/
structure Ends (outcome : RunOutcome) : Prop where
  refused : ∀ path, line.config = some path →
    (¬∃ ps, FileSays read path ps) →
      outcome.exit = 2 ∧ outcome.output = ""
  reported : ∀ ps, line.Told read ps → ∃ s, line.Resolves ps s
    ∧ outcome.output = String.join (line.files.map (line.report read s))
    ∧ (outcome.exit = 1 ↔ ∃ path ∈ line.files, ∃ e, read path = .error e)
    ∧ (outcome.exit = 0
      ↔ ∀ path ∈ line.files, ∃ bytes, read path = .ok bytes)

/-- A run of the line over files that paths lead to. -/
def run : RunOutcome :=
  Id.run ((Command.ofArguments line.arguments).run
    (fun path => pure (read path)) false)

theorem runIn_eq (d : Directory) :
    runIn d line.arguments = line.run d.read := rfl

end CommandLine

namespace Arguments

-- ================================================================ pure runs

variable (a : Arguments) (read : String → Except ReadFailure (List UInt8))

theorem settings_pure :
    Id.run (a.settings fun path => pure (read path))
      = match a.config with
        | none => .ok (Settings.default.override a)
        | some path => (ofFile path (read path)).map (·.override a) := by
  unfold settings
  cases a.config <;> rfl

theorem analyze_pure (color : Bool) :
    Id.run (a.analyze (fun path => pure (read path)) color)
      = match Id.run (a.settings fun path => pure (read path)) with
        | .error e => ⟨2, "", some e.message⟩
        | .ok s => a.outcome color s
          (a.files.map fun path => (path, read path)) := by
  simp only [analyze, pure_bind, List.mapM_pure, Id.run_bind]
  generalize Id.run (a.settings fun path => pure (read path)) = settings
  cases settings <;> rfl

end Arguments

namespace CommandLine

-- =========================================================== the whole run

variable {line : CommandLine}
  {read : String → Except ReadFailure (List UInt8)}
  {ps : List (String × String)} {s : Settings} {path : String}

/-- What is told is what the settings of the run were made of. -/
theorem Told.settings_eq (h : line.Told read ps) :
    ∃ s, Id.run (line.asked.settings fun path => pure (read path))
        = .ok (s.override line.asked)
      ∧ Says Settings.default s ps := by
  rw [Arguments.settings_pure, show line.asked.config = line.config from rfl]
  unfold Told at h
  cases hconfig : line.config with
  | none =>
    rw [hconfig] at h
    obtain rfl : ps = [] := h
    exact ⟨Settings.default, rfl, .nil⟩
  | some path =>
    rw [hconfig] at h
    obtain ⟨bytes, s, hread, hvalid, hs, rfl⟩ := h
    refine ⟨s, ?_, ofProperties_ok hs⟩
    have hfile := ofFile_ok.2 ⟨bytes, hread, hvalid, hs⟩
    simp only [hfile]
    rfl

theorem resolves_override (h : Says Settings.default s ps) :
    line.Resolves ps (s.override line.asked) := by
  have hcharset : (s.override line.asked).charset
      = line.charset.getD s.charset := rfl
  have hrecovery : (s.override line.asked).recovery
      = (s.recovery && !line.has .noRecovery) := rfl
  constructor
  case charset_given =>
    intro charset hgiven
    rw [hcharset, hgiven]
    rfl
  case charset_told =>
    intro hnone name hname
    have htold := h.charset
    rw [hname] at htold
    rw [hcharset, hnone]
    exact htold
  case charset_default =>
    intro hnone hsilent
    have htold := h.charset
    rw [hsilent] at htold
    rw [hcharset, hnone]
    exact (Option.some.inj htold).symm
  case recovery_off =>
    have htold := h.recovery
    rw [hrecovery, Bool.and_eq_false_iff, Bool.not_eq_false', or_comm]
    refine or_congr_right ?_
    cases hword : lastValue? recoveryKey ps with
    | none =>
      rw [hword] at htold
      obtain hon : true = s.recovery := Option.some.inj htold
      simp [← hon]
    | some word =>
      rw [hword] at htold
      have hword : boolOf? word = some s.recovery := htold
      simp [hword]

/-- A properties file of which nothing can be had ends the run. -/
theorem settings_refused (hconfig : line.config = some path)
    (h : ¬∃ ps, FileSays read path ps) :
    ∃ e, Id.run (line.asked.settings fun path => pure (read path))
      = .error e := by
  rw [Arguments.settings_pure, show line.asked.config = line.config from rfl,
    hconfig]
  cases hfile : ofFile path (read path) with
  | error e => exact ⟨e, by simp only [hfile]; rfl⟩
  | ok s =>
    obtain ⟨bytes, hread, hvalid, hs⟩ := ofFile_ok.1 hfile
    exact absurd ⟨_, bytes, s, hread, hvalid, hs, rfl⟩ h

theorem any_unread (paths : List String) :
    (paths.map fun path => (path, read path)).any (!·.2.isOk) = true
      ↔ ∃ path ∈ paths, ∃ e, read path = .error e := by
  simp only [List.any_map, List.any_eq_true, Function.comp_apply]
  refine exists_congr fun path => and_congr_right fun _ => ?_
  cases read path <;> simp [Except.isOk, Except.toBool]

theorem run_eq (line : CommandLine)
    (read : String → Except ReadFailure (List UInt8)) :
    line.run read
      = match Id.run (line.asked.settings fun path => pure (read path)) with
        | .error e => ⟨2, "", some e.message⟩
        | .ok s => line.asked.outcome false s
          (line.files.map fun path => (path, read path)) := by
  rw [run, ofArguments_line]
  exact line.asked.analyze_pure read false

/-- A run whose properties file cannot be read or is not taken ends with 2 and
prints nothing. Any other one prints the reports of its files in order, and
ends with 1 if some file could not be read and with 0 if not. -/
theorem run_ends (line : CommandLine)
    (read : String → Except ReadFailure (List UInt8)) :
    line.Ends read (line.run read) := by
  rw [run_eq]
  constructor
  case refused =>
    intro path hconfig hrefused
    obtain ⟨e, he⟩ := settings_refused hconfig hrefused
    rw [he]
    exact ⟨rfl, rfl⟩
  case reported =>
    intro ps htold
    obtain ⟨s, hsettings, hsays⟩ := htold.settings_eq
    rw [hsettings]
    refine ⟨_, resolves_override hsays, ?_, ?_, ?_⟩
    · simp only [Arguments.outcome, RunOutcome.plain, List.map_map]
      rfl
    · show (if _ then 1 else 0) = 1 ↔ _
      rw [← any_unread]
      split <;> simp_all
    · show (if _ then 1 else 0) = 0 ↔ _
      have hread : (∀ path ∈ line.files, ∃ bytes, read path = .ok bytes)
          ↔ ¬∃ path ∈ line.files, ∃ e, read path = .error e := by
        simp only [not_exists, not_and]
        refine forall₂_congr fun path _ => ?_
        cases read path <;> simp
      rw [hread, ← any_unread]
      split <;> simp_all

end CommandLine

end FrontEnd
