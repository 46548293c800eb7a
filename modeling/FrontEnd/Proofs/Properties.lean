/-
What a properties text comes to, said without reading it line by line. A
line is relevant or not, and of the relevant ones some are offending; the
first of these decides if there is one, and otherwise the last line with
each key does (`stated`). That the reader agrees is `ofProperties_eq`: a
single line is told if it is offending and taken otherwise
(`readLine_outcome`), so lines come to the first offence or to none, and what
settings are left then is known from what the lines say (`Says`).
-/
import FrontEnd.Proofs.Settings
import FrontEnd.Proofs.Token.Emission
import Mathlib.Data.List.TakeDrop
import Mathlib.Data.List.TakeWhile

namespace FrontEnd

-- =============================================================== trimming

namespace Text

theorem trim_trim (cs : List Char) : trim (trim cs) = trim cs := by
  unfold trim
  cases hstart : trimStart cs with
  | nil => rfl
  | cons c ds =>
    have hc : isSpace c = false := by
      change cs.dropWhile isSpace = c :: ds at hstart
      have hne : cs.dropWhile isSpace ≠ [] := by simp [hstart]
      have hhead := List.head_dropWhile_not isSpace hne
      simpa [hstart] using hhead
    obtain ⟨es, hes⟩ := trimEnd_cons hc ds
    rw [hes, trimStart, List.dropWhile_cons_of_neg (by simp [hc]), ← hes,
      trimEnd_trimEnd]

/-- A carriage return at the end is trimmed off. -/
theorem trim_return (cs : List Char) : trim (cs ++ ['\r']) = trim cs := by
  have hreturn : isSpace '\r' = true := by decide
  unfold trim trimStart
  rw [List.dropWhile_append]
  split
  case isTrue hempty => simp [List.isEmpty_iff.1 hempty, hreturn]
  case isFalse => simp [trimEnd, hreturn]

end Text

namespace Settings

open Text

-- ================================================================== lines

/-- A line without the carriage return at its end. -/
def dropReturn (line : List Char) : List Char :=
  if line.getLast? = some '\r' then line.dropLast else line

/-- The lines of a text, which end with a line feed or with a carriage
return and a line feed. -/
def lines (text : List Char) : List (List Char) :=
  (text.splitOn '\n').map dropReturn

theorem trim_dropReturn (line : List Char) :
    trim (dropReturn line) = trim line := by
  unfold dropReturn
  split
  case isTrue hlast =>
    obtain ⟨front, rfl⟩ := List.getLast?_eq_some_iff.1 hlast
    rw [List.dropLast_concat, trim_return]
  case isFalse => rfl

theorem linesOnto_eq (done : Array (List Char)) (line text : List Char) :
    (linesOnto done line text).toList
      = done.toList ++ (text.splitOn '\n').modifyHead (line.reverse ++ ·) := by
  induction text generalizing done line with
  | nil => simp [linesOnto]
  | cons c cs ih =>
    rw [linesOnto, List.splitOn_cons_eq_if_modifyHead]
    split
    case isTrue => cases h : cs.splitOn '\n' <;> simp [ih, h]
    case isFalse =>
      rw [ih, List.modifyHead_modifyHead]
      congr 2
      funext rest
      simp

-- ======================================================== what a line says

/-- Whether a line says something: there is more to it than whitespace, and
it is no comment. -/
def relevant (line : List Char) : Bool :=
  match trim line with
  | [] => false
  | c :: _ => c != '#' && c != '!'

/-- Whether the character can part a key from its value. -/
def parts (c : Char) : Bool :=
  c == '=' || c == ':'

/-- What stands in front of the first such character. -/
def keyOf (line : List Char) : String :=
  String.ofList (trim ((trim line).takeWhile (!parts ·)))

/-- What stands behind it. -/
def valueOf (line : List Char) : String :=
  String.ofList (trim ((trim line).dropWhile (!parts ·)).tail)

/-- What is wrong with a line of the given number, if it is offending. -/
def offence? (number : Nat) (line : List Char) : Option SettingsError :=
  if !relevant line then none
  else if !(trim line).any parts then
    some (.malformedLine number (String.ofList (trim line)))
  else if keyOf line == charsetKey
      && (Charset.ofName? (valueOf line)).isNone then
    some (.unknownCharset (valueOf line))
  else if keyOf line == recoveryKey && (boolOf? (valueOf line)).isNone then
    some (.invalidBoolean recoveryKey (valueOf line) number)
  else none

/-- The first offence in lines that are counted from a number on. -/
def firstOffence? (number : Nat) (lines : List (List Char)) :
    Option SettingsError :=
  (lines.zipIdx number).findSome? fun (line, number) =>
    offence? number line

/-- Keys and values of the relevant lines. -/
def saidBy (lines : List (List Char)) : List (String × String) :=
  (lines.filter relevant).map fun line => (keyOf line, valueOf line)

/-- What a properties text states: the error of its first offending line,
or else the settings that the last line with each key gives. -/
def stated (text : List Char) : Except SettingsError Settings :=
  match firstOffence? 1 (lines text) with
  | some e => .error e
  | none =>
    let said := saidBy (lines text)
    .ok {
      charset := ((lastValue? charsetKey said).bind
        Charset.ofName?).getD default.charset
      recovery := ((lastValue? recoveryKey said).bind
        boolOf?).getD default.recovery }

-- ============================================================ single lines

theorem keyValue?_eq (cs : List Char) :
    keyValue? cs = if cs.any parts then
      some (String.ofList (trim (cs.takeWhile (!parts ·))),
        String.ofList (trim (cs.dropWhile (!parts ·)).tail))
    else none := by
  have hany : cs.any parts = !(cs.dropWhile (!parts ·)).isEmpty := by
    rw [Bool.eq_iff_iff, List.any_eq_true, Bool.not_eq_true',
      ← Bool.not_eq_true, List.isEmpty_iff, List.dropWhile_eq_nil_iff]
    simp
  have hspan : cs.span (fun c => !(c == '=' || c == ':'))
      = (cs.takeWhile (!parts ·), cs.dropWhile (!parts ·)) :=
    List.span_eq_takeWhile_dropWhile _ _
  rw [keyValue?, hspan, hany]
  cases cs.dropWhile (!parts ·) <;> rfl

theorem relevant_eq (line : List Char) :
    relevant line = isProperty (trim line) := rfl

/-- A line that says something, in terms of its key and its value. -/
theorem property?_eq {line : List Char} (hrelevant : relevant line = true)
    (hparts : (trim line).any parts = true) :
    property? line = some (keyOf line, valueOf line) := by
  rw [relevant_eq] at hrelevant
  rw [property?, if_pos hrelevant, keyValue?_eq, if_pos hparts]
  rfl

/-- A line is read by the property on it. -/
theorem readLine_property {s : Settings} {number : Nat} {line : List Char}
    {key value : String} (h : property? line = some (key, value)) :
    s.readLine number line = s.set number key value := by
  unfold property? at h
  split at h
  case isTrue hsays => simp only [readLine, if_pos hsays, h]
  case isFalse => cases h

/-- The value of a line is trimmed, so that it is told as it is. -/
theorem trim_valueOf (line : List Char) :
    String.ofList (trim (valueOf line).toList) = valueOf line := by
  rw [valueOf, String.toList_ofList, trim_trim]

/-- An offending line is told, with its text or with the value that is not
taken. Any other is taken, and what it says is what stands on it if it is
relevant at all. -/
theorem readLine_outcome (s : Settings) (number : Nat) (line : List Char) :
    (∃ e, offence? number line = some e
        ∧ s.readLine number line = .error e)
      ∨ (offence? number line = none
        ∧ (∃ s', s.readLine number line = .ok s')
        ∧ property? line
          = if relevant line then some (keyOf line, valueOf line)
            else none) := by
  unfold offence?
  cases hrelevant : relevant line with
  | false =>
    have hsilent := hrelevant
    rw [relevant_eq] at hsilent
    exact .inr ⟨rfl, ⟨s, by simp [readLine, hsilent]⟩,
      by simp [property?, hsilent]⟩
  | true =>
    cases hparts : (trim line).any parts with
    | false =>
      have hsays := hrelevant
      rw [relevant_eq] at hsays
      exact .inl ⟨_, rfl, by simp [readLine, hsays, keyValue?_eq, hparts]⟩
    | true =>
      have hproperty := property?_eq hrelevant hparts
      rw [readLine_property hproperty, hproperty, set]
      by_cases hcharset : keyOf line = charsetKey
      · have hother : charsetKey ≠ recoveryKey := by decide
        cases hvalue : Charset.ofName? (valueOf line) with
        | none => simp [hcharset, hvalue, Charset.ofName, trim_valueOf]
        | some charset => simp [hcharset, hother, hvalue, Charset.ofName]
      · by_cases hrecovery : keyOf line = recoveryKey
        · have hother : recoveryKey ≠ charsetKey := by decide
          cases boolOf? (valueOf line) with
          | none => simp [hrecovery, hother]
          | some recovery => simp [hrecovery, hother]
        · simp [hcharset, hrecovery]

-- ============================================================== all lines

variable {s : Settings} {number : Nat} {lines : List (List Char)}

theorem firstOffence?_cons (number : Nat) (line : List Char)
    (lines : List (List Char)) :
    firstOffence? number (line :: lines)
      = (offence? number line).or (firstOffence? (number + 1) lines) := by
  unfold firstOffence?
  rw [List.zipIdx_cons, List.findSome?_cons]
  cases hoffence : offence? number line <;> simp [hoffence]

/-- Lines come to the first offence among them, whatever stands behind
it. -/
theorem readLines_error {e : SettingsError}
    (h : firstOffence? number lines = some e) :
    s.readLines number lines = .error e := by
  induction lines generalizing s number with
  | nil => cases h
  | cons line lines ih =>
    rw [firstOffence?_cons] at h
    rw [readLines]
    rcases readLine_outcome s number line with
      ⟨first, hfirst, hread⟩ | ⟨hnone, ⟨s', hread⟩, -⟩
    · rw [hfirst] at h
      obtain rfl := Option.some.inj h
      rw [hread]
    · rw [hnone] at h
      rw [hread]
      exact ih h

/-- Lines without an offence are taken, and what they say is said by the
relevant ones. -/
theorem readLines_taken (h : firstOffence? number lines = none) :
    (∃ s', s.readLines number lines = .ok s')
      ∧ lines.filterMap property? = saidBy lines := by
  induction lines generalizing s number with
  | nil => exact ⟨⟨s, rfl⟩, rfl⟩
  | cons line lines ih =>
    rw [firstOffence?_cons, Option.or_eq_none_iff] at h
    rcases readLine_outcome s number line with
      ⟨first, hfirst, -⟩ | ⟨-, ⟨s', hs'⟩, hproperty⟩
    · rw [hfirst] at h
      cases h.1
    · obtain ⟨hread, hsaid⟩ := ih (s := s') h.2
      refine ⟨by simpa [readLines, hs'] using hread, ?_⟩
      rw [List.filterMap_cons, hproperty, hsaid]
      cases hrelevant : relevant line <;> simp [saidBy, hrelevant]

/-- Only what is left of a line between the whitespace around it counts. -/
theorem readLines_map_dropReturn :
    s.readLines number (lines.map dropReturn) = s.readLines number lines := by
  induction lines generalizing s number with
  | nil => rfl
  | cons line lines ih =>
    have hline : s.readLine number (dropReturn line)
        = s.readLine number line := by
      simp only [readLine, trim_dropReturn]
    simp only [List.map_cons, readLines, hline, ih]

-- ============================================================ whole texts

/-- The settings that keys and values make are determined by them. -/
theorem Says.eq {s' : Settings} {ps : List (String × String)}
    (h : Says s s' ps) :
    s' = {
      charset := ((lastValue? charsetKey ps).bind
        Charset.ofName?).getD s.charset
      recovery := ((lastValue? recoveryKey ps).bind
        boolOf?).getD s.recovery } := by
  obtain ⟨charset, recovery⟩ := s'
  obtain ⟨hcharset, hrecovery⟩ := h
  congr 1
  · cases hlast : lastValue? charsetKey ps <;> simp_all
  · cases hlast : lastValue? recoveryKey ps <;> simp_all

/-- A properties text comes to what it states. -/
theorem ofProperties_eq (text : List Char) :
    ofProperties text = stated text := by
  have hlines : ofProperties text = readLines default 1 (lines text) := by
    rw [ofProperties, linesOnto_eq, lines, readLines_map_dropReturn]
    cases text.splitOn '\n' <;> rfl
  rw [hlines, stated]
  cases hfirst : firstOffence? 1 (lines text) with
  | some e => exact readLines_error hfirst
  | none =>
    obtain ⟨⟨s, hs⟩, hsaid⟩ := readLines_taken (s := default) hfirst
    have hsays := readLines_ok hs
    rw [hsaid] at hsays
    rw [hs, hsays.eq]

end Settings

end FrontEnd
