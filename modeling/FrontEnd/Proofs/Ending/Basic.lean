/-
Texts whose lines end another way. A text without carriage returns ends
its lines with line feeds; `LineEnding.write` ends each of them with a
carriage return instead, alone or in front of the line feed.

A written text leads to the same location (`after_write`), goes on with
the same characters as long as there is no break (`write_eq_cons`,
`isPrefixOf_write`), and never begins with a line feed (`write_ne_feed`):
what a scanner reads as a break stays one break.
-/
import FrontEnd.Text.Reading
import FrontEnd.Text.Character

namespace FrontEnd

open Text

/-- The ways to end a line that have a carriage return in them. -/
inductive LineEnding where
  | carriage
  /-- The carriage return together with a line feed. -/
  | pair
deriving DecidableEq, Repr

namespace LineEnding

/-- What a line ending has behind its carriage return. -/
def tail : LineEnding → List Char
  | carriage => []
  | pair => ['\n']

/-- The characters of a line ending. -/
def chars (e : LineEnding) : List Char :=
  '\r' :: e.tail

/-- The text with this ending in place of every line feed. -/
def write (e : LineEnding) (cs : List Char) : List Char :=
  cs.flatMap fun c => if c = '\n' then e.chars else [c]

/-- The same of a text that is held last character first. -/
def writeBack (e : LineEnding) (cs : List Char) : List Char :=
  (e.write cs.reverse).reverse

variable (e : LineEnding) {c : Char} {cs ds : List Char}

-- ============================================================ what is written

@[simp] theorem write_nil : e.write [] = [] := rfl

@[simp] theorem write_feed (cs : List Char) :
    e.write ('\n' :: cs) = '\r' :: (e.tail ++ e.write cs) := rfl

theorem write_plain (hc : c ≠ '\n') (cs : List Char) :
    e.write (c :: cs) = c :: e.write cs := by
  simp [write, hc]

@[simp] theorem write_append (cs ds : List Char) :
    e.write (cs ++ ds) = e.write cs ++ e.write ds :=
  List.flatMap_append

@[simp] theorem writeBack_nil : e.writeBack [] = [] := rfl

theorem reverse_writeBack (cs : List Char) :
    (e.writeBack cs).reverse = e.write cs.reverse :=
  List.reverse_reverse _

@[simp] theorem writeBack_append (cs ds : List Char) :
    e.writeBack (cs ++ ds) = e.writeBack cs ++ e.writeBack ds := by
  simp [writeBack]

theorem writeBack_reverse (cs : List Char) :
    e.writeBack cs.reverse = (e.write cs).reverse := by
  simp [writeBack]

@[simp] theorem writeBack_feed (cs : List Char) :
    e.writeBack ('\n' :: cs) = e.tail ++ '\r' :: e.writeBack cs := by
  cases e <;> simp [writeBack, tail]

theorem writeBack_plain (hc : c ≠ '\n') (cs : List Char) :
    e.writeBack (c :: cs) = c :: e.writeBack cs := by
  simp [writeBack, write_plain e hc]

/-- Text without breaks is written as it is. -/
theorem write_eq_self (h : ∀ c ∈ cs, c ≠ '\n') : e.write cs = cs := by
  induction cs with
  | nil => rfl
  | cons c cs ih =>
    rw [write_plain e (h c (by simp)), ih fun d hd => h d (by simp [hd])]

theorem writeBack_eq_self (h : ∀ c ∈ cs, c ≠ '\n') :
    e.writeBack cs = cs := by
  rw [writeBack, write_eq_self e (by simpa using h), List.reverse_reverse]

-- ======================================================== how a text begins

/-- A written text does not begin with half of a break. -/
theorem write_ne_feed (cs ds : List Char) : e.write cs ≠ '\n' :: ds := by
  cases cs with
  | nil => simp
  | cons c cs =>
    by_cases hc : c = '\n'
    · subst hc
      simp
    · rw [write_plain e hc]
      exact fun h => hc (List.cons.inj h).1

/-- A written text goes on with what the text goes on with. -/
theorem write_eq_cons {d : Char} (hd : d ≠ '\r')
    (h : e.write cs = d :: ds) :
    ∃ es, cs = d :: es ∧ ds = e.write es := by
  cases cs with
  | nil => cases h
  | cons c cs =>
    by_cases hc : c = '\n'
    · subst hc
      exact absurd (List.cons.inj h).1.symm hd
    · rw [write_plain e hc] at h
      obtain ⟨rfl, rfl⟩ := List.cons.inj h
      exact ⟨cs, rfl, rfl⟩

/-- A written text ends where the text does. -/
theorem write_eq_nil : e.write cs = [] ↔ cs = [] := by
  cases cs with
  | nil => simp
  | cons c cs =>
    by_cases hc : c = '\n'
    · subst hc
      simp
    · simp [write_plain e hc]

/-- A question about the next character that no break answers. -/
theorem head?_any_write {p : Char → Bool} (hfeed : p '\n' = false)
    (hcarriage : p '\r' = false) (cs : List Char) :
    (e.write cs).head?.any p = cs.head?.any p := by
  cases cs with
  | nil => rfl
  | cons c cs =>
    by_cases hc : c = '\n'
    · subst hc
      simp [hfeed, hcarriage]
    · simp [write_plain e hc]

theorem head?_any_writeBack {p : Char → Bool} (hfeed : p '\n' = false)
    (hcarriage : p '\r' = false) (cs : List Char) :
    (e.writeBack cs).head?.any p = cs.head?.any p := by
  cases cs with
  | nil => rfl
  | cons c cs =>
    by_cases hc : c = '\n'
    · subst hc
      cases e <;> simp [hfeed, hcarriage, tail]
    · simp [writeBack_plain e hc]

theorem head?_write {d : Char} (hfeed : d ≠ '\n') (hcarriage : d ≠ '\r')
    (cs : List Char) :
    (e.write cs).head? = some d ↔ cs.head? = some d := by
  cases cs with
  | nil => exact Iff.rfl
  | cons c cs =>
    by_cases hc : c = '\n'
    · subst hc
      simp [hfeed.symm, hcarriage.symm]
    · simp [write_plain e hc]

theorem head?_beq_write {d : Char} (hfeed : d ≠ '\n')
    (hcarriage : d ≠ '\r') (cs : List Char) :
    ((e.write cs).head? == some d) = (cs.head? == some d) := by
  rw [Bool.eq_iff_iff, beq_iff_eq, beq_iff_eq, e.head?_write hfeed hcarriage]

theorem startsBreak_write (cs : List Char) :
    startsBreak (e.write cs) = startsBreak cs := by
  cases cs with
  | nil => rfl
  | cons c cs =>
    by_cases hc : c = '\n'
    · subst hc
      rfl
    · rw [write_plain e hc]
      rfl

/-- A text without breaks begins the one where it begins the other. -/
theorem isPrefixOf_write (hcs : ∀ c ∈ cs, isBreak c = false)
    (ds : List Char) :
    cs.isPrefixOf (e.write ds) = cs.isPrefixOf ds := by
  induction cs generalizing ds with
  | nil => simp
  | cons c cs ih =>
    have hc : isBreak c = false := hcs c (by simp)
    cases ds with
    | nil => rfl
    | cons d ds =>
      by_cases hd : d = '\n'
      · subst hd
        have hfeed : (c == '\n') = false := by
          simpa [isBreak] using fun h => by simp [h, isBreak] at hc
        have hcarriage : (c == '\r') = false := by
          simpa [isBreak] using fun h => by simp [h, isBreak] at hc
        rw [write_feed, List.isPrefixOf, List.isPrefixOf, hfeed, hcarriage,
          Bool.false_and, Bool.false_and]
      · rw [write_plain e hd, List.isPrefixOf, List.isPrefixOf,
          ih fun b hb => hcs b (by simp [hb])]

/-- Behind a text without breaks both go on alike. -/
theorem drop_write (hcs : ∀ c ∈ cs, isBreak c = false)
    (h : cs.isPrefixOf ds = true) :
    (e.write ds).drop cs.length = e.write (ds.drop cs.length) := by
  obtain ⟨es, rfl⟩ := List.isPrefixOf_iff_prefix.1 h
  have hself : e.write cs = cs := e.write_eq_self fun c hc hfeed => by
    simpa [hfeed, isBreak] using hcs c hc
  rw [write_append, hself, List.drop_left, List.drop_left]

/-- Whitespace at the start of a text is there however lines end. -/
theorem dropWhile_isSpace_writeBack (cs : List Char) :
    (e.writeBack cs).dropWhile isSpace
      = e.writeBack (cs.dropWhile isSpace) := by
  have hfeed : isSpace '\n' = true := by decide
  have hcarriage : isSpace '\r' = true := by decide
  induction cs with
  | nil => rfl
  | cons c cs ih =>
    by_cases hc : c = '\n'
    · subst hc
      rw [List.dropWhile_cons_of_pos hfeed, ← ih, writeBack_feed]
      cases e <;> simp [tail, hfeed, hcarriage]
    · rw [writeBack_plain e hc]
      by_cases hspace : isSpace c = true
      · rw [List.dropWhile_cons_of_pos hspace,
          List.dropWhile_cons_of_pos hspace, ih]
      · rw [List.dropWhile_cons_of_neg hspace,
          List.dropWhile_cons_of_neg hspace, writeBack_plain e hc]

-- ============================================================== places

/-- In a text without carriage returns only a line feed breaks lines. -/
theorem isBreak_eq (hc : c ≠ '\r') : isBreak c = (c == '\n') := by
  simp [isBreak, hc]

theorem eq_feed (hcs : '\r' ∉ c :: cs) (h : isBreak c = true) :
    c = '\n' := by
  have hc : c ≠ '\r' := fun hc => hcs (by simp [hc])
  simpa [isBreak_eq hc] using h

theorem ne_feed (h : isBreak c = false) : c ≠ '\n' := by
  rintro rfl
  exact absurd h (by decide)

theorem after_chars (l : Location) (cs : List Char) :
    l.after (e.chars ++ e.write cs) = Location.after ⟨l.line + 1, 1⟩
      (e.write cs) := by
  cases e with
  | carriage =>
    show l.after ('\r' :: carriage.write cs) = _
    rw [Location.after, if_pos (by decide)]
    exact fun ds _ h => carriage.write_ne_feed cs ds h
  | pair => rfl

/-- The location behind a text does not depend on how its lines end. -/
theorem after_write (l : Location) (h : '\r' ∉ cs) :
    l.after (e.write cs) = l.after cs := by
  induction cs generalizing l with
  | nil => rfl
  | cons c cs ih =>
    have hc : c ≠ '\r' := fun hc => h (by simp [hc])
    have hpair : ∀ ds, c = '\r' → cs = '\n' :: ds → False :=
      fun _ h => absurd h hc
    have hcs : '\r' ∉ cs := fun hcs => h (by simp [hcs])
    by_cases hfeed : c = '\n'
    · subst hfeed
      rw [write_feed, ← List.cons_append, ← chars, after_chars, ih _ hcs,
        Location.after, if_pos (by decide)]
      exact hpair
    · have hbreak : isBreak c = false := by simp [isBreak_eq hc, hfeed]
      rw [write_plain e hfeed, Location.after, Location.after,
        if_neg (by simp [hbreak]), if_neg (by simp [hbreak]), ih _ hcs]
      · exact hpair
      · exact fun _ h => absurd h hc

end LineEnding

-- ============================================================ readings

/-- The reading of the text with this ending. -/
def Text.Reading.write (e : LineEnding) (r : Reading) : Reading :=
  ⟨e.writeBack r.read, e.write r.rest⟩

theorem Text.Reading.taken_write (e : LineEnding) (r : Reading) :
    (r.write e).taken = e.write r.taken :=
  e.reverse_writeBack r.read

theorem Text.Reading.toEnd_write (e : LineEnding) (r : Reading) :
    (r.write e).toEnd = r.toEnd.write e := by
  simp [Reading.toEnd, Reading.write, List.reverseAux_eq,
    LineEnding.writeBack_reverse]

end FrontEnd
