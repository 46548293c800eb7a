/-
A text on its way of being read: what was read so far, last character
first, and what is still to come. Every scanner of this library moves
characters from the one to the other and does nothing else
(`Reading.From`), so that no character is lost or made up, whatever the
text is.
-/
import FrontEnd.Text.Location

namespace FrontEnd.Text

/-- A text divided where a scanner stands. -/
structure Reading where
  /-- The characters read, last first. -/
  read : List Char
  /-- The characters to come. -/
  rest : List Char
deriving DecidableEq, Repr

namespace Reading

/-- Nothing read yet. -/
def ofText (cs : List Char) : Reading := ⟨[], cs⟩

/-- The text read, in order. -/
def taken (r : Reading) : List Char := r.read.reverse

/-- Reading got from `s` to `r`: some text moved from what was to come
to what is read. -/
def From (s r : Reading) : Prop :=
  ∃ moved, r.read = moved.reverse ++ s.read ∧ s.rest = moved ++ r.rest

/-- Moves characters as long as they satisfy `p`. -/
def moveWhile (p : Char → Bool) (read : List Char) : List Char → Reading
  | [] => ⟨read, []⟩
  | c :: cs => if p c then Reading.moveWhile p (c :: read) cs else ⟨read, c :: cs⟩

/-- Moves all that is left. -/
def toEnd (r : Reading) : Reading :=
  ⟨r.rest.reverseAux r.read, []⟩

-- ===================================================== what From keeps

theorem From.refl (r : Reading) : From r r := ⟨[], rfl, rfl⟩

theorem From.trans {a b c : Reading} (h : From a b) (k : From b c) :
    From a c := by
  obtain ⟨m, hr, hs⟩ := h
  obtain ⟨n, kr, ks⟩ := k
  exact ⟨m ++ n, by simp [kr, hr], by simp [hs, ks]⟩

/-- One character moved, and then a reading on from there. -/
theorem From.step {c : Char} {read cs : List Char} {r : Reading}
    (h : From ⟨c :: read, cs⟩ r) : From ⟨read, c :: cs⟩ r :=
  From.trans ⟨[c], rfl, rfl⟩ h

/-- The whole text stays the same. -/
theorem From.text {s r : Reading} (h : From s r) :
    r.taken ++ r.rest = s.taken ++ s.rest := by
  obtain ⟨m, hr, hs⟩ := h
  simp [taken, hr, hs]

/-- What is to come only gets shorter. -/
theorem From.length_le {s r : Reading} (h : From s r) :
    r.rest.length ≤ s.rest.length := by
  obtain ⟨m, -, hs⟩ := h
  simp [hs]

theorem from_moveWhile (p : Char → Bool) (read cs : List Char) :
    From ⟨read, cs⟩ (Reading.moveWhile p read cs) := by
  induction cs generalizing read with
  | nil => exact From.refl _
  | cons c cs ih =>
    rw [Reading.moveWhile]
    split
    · exact (ih _).step
    · exact From.refl _

theorem from_toEnd (r : Reading) : From r r.toEnd :=
  ⟨r.rest, by simp [toEnd, List.reverseAux_eq], by simp [toEnd]⟩

end Reading

end FrontEnd.Text
