/-
Bytes and lines of a text. `byteSize` adds up and agrees with the size
of a string, so that the offsets reached by reading a text from its
front are boundaries of its characters. `Location.after` counts breaks
and the characters behind the last one; it may be taken in two parts
wherever the text is not cut between the CR and the LF of one break.
-/
import FrontEnd.Text.Location
import Mathlib.Data.List.TakeWhile
import Mathlib.Data.String.Basic

namespace FrontEnd

open Text

namespace Text

-- ============================================================= bytes

private theorem foldl_utf8Size (n : Nat) (cs : List Char) :
    cs.foldl (fun size c => size + c.utf8Size) n
      = n + String.utf8Len cs := by
  induction cs generalizing n with
  | nil => rfl
  | cons c cs ih =>
      rw [List.foldl_cons, ih, String.utf8Len_cons]
      omega

/-- The size of a text, as the library on strings counts it. -/
theorem byteSize_eq (cs : List Char) : byteSize cs = String.utf8Len cs := by
  rw [byteSize, foldl_utf8Size, Nat.zero_add]

@[simp] theorem byteSize_append (cs ds : List Char) :
    byteSize (cs ++ ds) = byteSize cs + byteSize ds := by
  simp only [byteSize_eq, String.utf8Len_append]

theorem byteSize_toList (s : String) :
    byteSize s.toList = s.utf8ByteSize := by
  rw [byteSize_eq, String.utf8Len_toList]

theorem byteSize_pos {cs : List Char} (h : cs ≠ []) : 0 < byteSize cs := by
  rw [byteSize_eq, Nat.pos_iff_ne_zero, Ne, String.utf8Len_eq_zero]
  exact h

/-- Reading some of a text from its front ends on a boundary of its
characters. -/
theorem isValid_byteSize (before rest : List Char) :
    String.Pos.Raw.IsValid (String.ofList (before ++ rest))
      ⟨byteSize before⟩ := by
  rw [String.Pos.Raw.isValid_iff_exists_append]
  refine ⟨String.ofList before, String.ofList rest, ?_, ?_⟩
  · rw [String.ofList_append]
  · rw [String.rawEndPos_ofList, byteSize_eq]

-- ============================================================= lines

/-- How many line breaks a text holds; CR LF is one. -/
def lineBreaks : List Char → Nat
  | [] => 0
  | '\r' :: '\n' :: cs => lineBreaks cs + 1
  | c :: cs => (if isBreak c then 1 else 0) + lineBreaks cs

/-- The characters behind the last line break of a text. -/
def lastLine (cs : List Char) : List Char :=
  (cs.reverse.takeWhile (!isBreak ·)).reverse

/-- Whether a text is cut between the CR and the LF of one break. -/
def cutsBreak (before rest : List Char) : Bool :=
  before.getLast? == some '\r' && rest.head? == some '\n'

theorem cutsBreak_nil (rest : List Char) : cutsBreak [] rest = false := rfl

/-- Only the last character read matters. -/
theorem cutsBreak_append {a b : List Char} (h : b ≠ [])
    (rest : List Char) :
    cutsBreak (a ++ b) rest = cutsBreak b rest := by
  simp only [cutsBreak, List.getLast?_append_of_ne_nil _ h]

theorem cutsBreak_left {before a b : List Char}
    (h : cutsBreak before (a ++ b) = false) :
    cutsBreak before a = false := by
  cases a with
  | nil => simp [cutsBreak]
  | cons c cs => exact h

/-- No break is cut in front of something else. -/
theorem cutsBreak_of_plain {c : Char} (hc : isBreak c = false)
    (before cs : List Char) : cutsBreak before (c :: cs) = false := by
  have hne : c ≠ '\n' := by
    rintro rfl
    exact absurd hc (by decide)
  simp [cutsBreak, hne]

theorem cutsBreak_cons {c : Char} {cs rest : List Char}
    (h : cutsBreak (c :: cs) rest = false) : cutsBreak cs rest = false := by
  cases cs with
  | nil => rfl
  | cons d ds =>
      rw [← cutsBreak_append (a := [c]) (by simp)]
      exact h

/-- A character that makes no break with its successor makes none with
what is read later. -/
theorem cutsBreak_head {c : Char} {cs rest : List Char}
    (hpair : ∀ ds, c = '\r' → cs = '\n' :: ds → False)
    (h : cutsBreak (c :: cs) rest = false) :
    cutsBreak [c] (cs ++ rest) = false := by
  cases cs with
  | nil => exact h
  | cons d ds =>
      by_contra hc
      simp only [cutsBreak, List.getLast?_singleton, List.cons_append,
        List.head?_cons, Bool.not_eq_false, Bool.and_eq_true, beq_iff_eq,
        Option.some.injEq] at hc
      exact hpair ds hc.1 (by rw [hc.2])

theorem lastLine_of_no_break {cs : List Char}
    (h : cs.any isBreak = false) : lastLine cs = cs := by
  rw [List.any_eq_false] at h
  rw [lastLine, List.reverse_eq_iff, List.takeWhile_eq_self_iff]
  intro c hc
  simpa using h c (List.mem_reverse.1 hc)

/-- The first character counts only if no break comes after it. -/
theorem lastLine_cons (c : Char) (cs : List Char) :
    lastLine (c :: cs) =
      if cs.any isBreak then lastLine cs
      else if isBreak c then cs else c :: cs := by
  unfold lastLine
  rw [List.reverse_cons, List.takeWhile_append]
  by_cases h : cs.any isBreak
  · have hlen : (cs.reverse.takeWhile (!isBreak ·)).length
        ≠ cs.reverse.length := by
      intro hlen
      have hall := (List.takeWhile_sublist _).eq_of_length hlen
      rw [List.takeWhile_eq_self_iff] at hall
      obtain ⟨d, hd, hb⟩ := List.any_eq_true.1 h
      simpa [hb] using hall d (List.mem_reverse.2 hd)
    rw [if_neg hlen, if_pos h]
  · have hall : cs.reverse.takeWhile (!isBreak ·) = cs.reverse := by
      rw [List.takeWhile_eq_self_iff]
      intro d hd
      simp only [Bool.not_eq_true, List.any_eq_false] at h
      simpa using h d (List.mem_reverse.1 hd)
    rw [hall, if_pos rfl, if_neg h]
    cases hc : isBreak c <;> simp [hc]

end Text

namespace Location

/-- One character moves a location, unless it is half of a break. -/
theorem after_cons (l : Location) {c : Char} {cs : List Char}
    (h : cutsBreak [c] cs = false) :
    l.after (c :: cs) =
      if isBreak c then after ⟨l.line + 1, 1⟩ cs
      else after ⟨l.line, l.column + 1⟩ cs := by
  rw [after]
  rintro ds rfl rfl
  simp [cutsBreak] at h

/-- A location may be moved in two parts where no break is cut. -/
theorem after_append (l : Location) {cs ds : List Char}
    (h : cutsBreak cs ds = false) :
    l.after (cs ++ ds) = (l.after cs).after ds := by
  fun_induction after l cs with
  | case1 l => rfl
  | case2 l cs ih =>
      rw [List.cons_append, List.cons_append, after]
      exact ih (cutsBreak_cons (cutsBreak_cons h))
  | case3 l c cs hpair hb ih =>
      rw [List.cons_append, after_cons l (cutsBreak_head hpair h), if_pos hb]
      exact ih (cutsBreak_cons h)
  | case4 l c cs hpair hb ih =>
      rw [List.cons_append, after_cons l (cutsBreak_head hpair h), if_neg hb]
      exact ih (cutsBreak_cons h)

/-- Breaks make lines, and the characters behind the last break make
columns. -/
theorem after_eq (l : Location) (cs : List Char) :
    l.after cs = ⟨l.line + lineBreaks cs,
      if cs.any isBreak then 1 + (lastLine cs).length
      else l.column + cs.length⟩ := by
  fun_induction after l cs with
  | case1 l => rfl
  | case2 l cs ih =>
      rw [ih]
      simp only [lineBreaks, lastLine_cons, List.any_cons, mk.injEq]
      refine ⟨by omega, ?_⟩
      by_cases h : cs.any isBreak <;> simp [h, isBreak]
  | case3 l c cs hpair hb ih =>
      rw [ih, lineBreaks, lastLine_cons, if_pos hb, List.any_cons, mk.injEq]
      · refine ⟨by simp only; omega, ?_⟩
        by_cases h : cs.any isBreak <;> simp [h, hb]
      · exact hpair
  | case4 l c cs hpair hb ih =>
      rw [ih, lineBreaks, lastLine_cons, if_neg hb, List.any_cons, mk.injEq]
      · refine ⟨by simp only; omega, ?_⟩
        by_cases h : cs.any isBreak <;> simp [h, hb]
        omega
      · exact hpair

/-- The location at the end of a text that is read from its front. -/
theorem start_after (cs : List Char) :
    start.after cs = ⟨1 + lineBreaks cs, 1 + (lastLine cs).length⟩ := by
  rw [after_eq]
  by_cases h : cs.any isBreak
  · rw [if_pos h, start]
  · rw [if_neg h, lastLine_of_no_break (by simpa using h), start]

end Location

end FrontEnd
