/-
What a properties text says. The lines that say something hold a key and a
value each (`properties`), and a text that is taken leaves for each key what
the last line with it says (`ofProperties_ok`). What a line does to the
settings and what lines do one behind the other is one relation (`Says`).
-/
import FrontEnd.Settings

namespace FrontEnd.Settings

open Text

-- ======================================================= keys and values

/-- Key and value of a line that says something. -/
def property? (line : List Char) : Option (String × String) :=
  if isProperty (trim line) then keyValue? (trim line) else none

/-- The keys and values of a text, line by line. -/
def properties (text : List Char) : List (String × String) :=
  (linesOnto #[] [] text).toList.filterMap property?

/-- What the last line with a key says. -/
def lastValue? (key : String) (ps : List (String × String)) :
    Option String :=
  ps.reverse.lookup key

theorem lastValue?_append (key : String) (ps qs : List (String × String)) :
    lastValue? key (ps ++ qs)
      = (lastValue? key qs).or (lastValue? key ps) := by
  rw [lastValue?, List.reverse_append, List.lookup_append]
  rfl

-- ============================================================ what is said

/-- What keys and values make of some settings. -/
structure Says (s s' : Settings) (ps : List (String × String)) : Prop where
  charset : (lastValue? charsetKey ps).elim (some s.charset) Charset.ofName?
    = some s'.charset
  recovery : (lastValue? recoveryKey ps).elim (some s.recovery) boolOf?
    = some s'.recovery

namespace Says

variable {s s' s'' : Settings} {ps qs : List (String × String)}

theorem nil : Says s s [] := ⟨rfl, rfl⟩

theorem append (h : Says s s' ps) (h' : Says s' s'' qs) :
    Says s s'' (ps ++ qs) := by
  constructor
  · rw [lastValue?_append]
    have hlast := h'.charset
    cases hvalue : lastValue? charsetKey qs with
    | some value => simpa [hvalue] using hlast
    | none => simpa [hvalue, h.charset] using hlast
  · rw [lastValue?_append]
    have hlast := h'.recovery
    cases hvalue : lastValue? recoveryKey qs with
    | some value => simpa [hvalue] using hlast
    | none => simpa [hvalue, h.recovery] using hlast

end Says

variable {s s' : Settings}

/-- A key that means something has its value read, any other is passed
over. -/
theorem set_ok {line : Nat} {key value : String}
    (h : s.set line key value = .ok s') : Says s s' [(key, value)] := by
  have hkeys : recoveryKey ≠ charsetKey := by decide
  have hlast (key' : String) : lastValue? key' [(key, value)]
      = if key' = key then some value else none := by
    by_cases h : key' = key <;> simp [lastValue?, h]
  unfold set at h
  split at h
  case isTrue hkey =>
    obtain rfl := beq_iff_eq.1 hkey
    unfold Charset.ofName at h
    cases hvalue : Charset.ofName? value with
    | none =>
      rw [hvalue] at h
      cases h
    | some charset =>
      rw [hvalue] at h
      obtain rfl := Except.ok.inj h
      exact ⟨by simp [hlast, hvalue], by simp [hlast, hkeys]⟩
  case isFalse hother =>
    split at h
    case isTrue hkey =>
      obtain rfl := beq_iff_eq.1 hkey
      cases hvalue : boolOf? value with
      | none =>
        rw [hvalue] at h
        cases h
      | some recovery =>
        rw [hvalue] at h
        obtain rfl := Except.ok.inj h
        exact ⟨by simp [hlast, hkeys.symm], by simp [hlast, hvalue]⟩
    case isFalse hother' =>
      obtain rfl := Except.ok.inj h
      have hcharset : charsetKey ≠ key := Ne.symm (by simpa using hother)
      have hrecovery : recoveryKey ≠ key := Ne.symm (by simpa using hother')
      exact ⟨by simp [hlast, hcharset], by simp [hlast, hrecovery]⟩

theorem readLine_ok {number : Nat} {line : List Char}
    (h : s.readLine number line = .ok s') :
    Says s s' (property? line).toList := by
  simp only [readLine] at h
  unfold property?
  split at h
  case isTrue hsays =>
    rw [if_pos hsays]
    cases hproperty : keyValue? (trim line) with
    | none =>
      rw [hproperty] at h
      cases h
    | some property =>
      rw [hproperty] at h
      exact set_ok h
  case isFalse hsilent =>
    rw [if_neg hsilent]
    obtain rfl := Except.ok.inj h
    exact .nil

theorem readLines_ok {number : Nat} {lines : List (List Char)}
    (h : s.readLines number lines = .ok s') :
    Says s s' (lines.filterMap property?) := by
  induction lines generalizing s number with
  | nil =>
    obtain rfl := Except.ok.inj h
    exact .nil
  | cons line lines ih =>
    rw [readLines] at h
    have hcons : (line :: lines).filterMap property?
        = (property? line).toList ++ lines.filterMap property? := by
      cases hproperty : property? line <;> simp [hproperty]
    cases hline : s.readLine number line with
    | error e =>
      rw [hline] at h
      cases h
    | ok read =>
      rw [hline] at h
      rw [hcons]
      exact (readLine_ok hline).append (ih h)

/-- A text that is taken gives each setting the value of the last line with
its key, and leaves it as it is by default if there is none. -/
theorem ofProperties_ok {text : List Char}
    (h : ofProperties text = .ok s) : Says default s (properties text) :=
  readLines_ok h

end FrontEnd.Settings
