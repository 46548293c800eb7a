/-
No piece of a text ends between the CR and the LF of one line break.
Each scanner is followed from one place where it may stand to the next:
a break is taken in one go, or the scanner goes on behind its first half
(`Reading.Whole`). With that, the places at which pieces are laid are
those to which the text in front of them leads (`ofText_sits`).
-/
import FrontEnd.Proofs.Token.Pieces
import FrontEnd.Proofs.Token.Moves

namespace FrontEnd

open Text

namespace Text.Reading

-- ==================================================== where one may stand

/-- Whether a reading does not stand inside a line break. -/
def Whole (r : Reading) : Prop :=
  r.read.head? = some '\r' → r.rest.head? ≠ some '\n'

variable {c : Char} {read cs : List Char}

theorem whole_end : Whole ⟨read, []⟩ := by
  simp [Whole]

theorem whole_behind (h : c ≠ '\r') : Whole ⟨c :: read, cs⟩ := by
  simp [Whole, h]

theorem whole_before (h : c ≠ '\n') : Whole ⟨read, c :: cs⟩ := by
  simp [Whole, h]

/-- Behind a character that makes no pair with the next one. -/
theorem whole_of_no_pair
    (hpair : ∀ ds, c = '\r' → cs = '\n' :: ds → False) :
    Whole ⟨c :: read, cs⟩ := by
  intro hc hcs
  obtain ⟨ds, rfl⟩ := List.head?_eq_some_iff.1 hcs
  exact hpair ds (Option.some.inj hc) rfl

theorem whole_of_last {opener : List Char}
    (h : opener.getLast? ≠ some '\r') : Whole ⟨opener.reverse, cs⟩ := by
  intro hr
  rw [List.head?_reverse] at hr
  exact absurd hr h

theorem whole_plain (h : isBreak c = false) : Whole ⟨c :: read, cs⟩ := by
  apply whole_behind
  rintro rfl
  exact absurd h (by decide)

theorem Whole.cutsBreak {r : Reading} (h : r.Whole) :
    cutsBreak r.taken r.rest = false := by
  rw [Text.cutsBreak, taken, List.getLast?_reverse, Bool.and_eq_false_imp]
  intro hr
  simpa using h (by simpa using hr)

theorem whole_moveWhile {p : Char → Bool} (hp : p '\r' = false)
    (h : Whole ⟨read, cs⟩) : Whole (moveWhile p read cs) := by
  induction cs generalizing read with
  | nil => exact h
  | cons c cs ih =>
      rw [moveWhile]
      split
      · apply ih
        apply whole_behind
        rintro rfl
        simp_all
      · exact h

theorem whole_toEnd (r : Reading) : Whole r.toEnd := whole_end

end Text.Reading

namespace Trivia

variable {read cs : List Char}

-- =============================================================== trivia

/-- Blanks stop in front of something else. -/
theorem whole_blanks (fresh : Bool) (read cs : List Char) :
    (blanks fresh read cs).1.Whole := by
  fun_induction blanks fresh read cs with
  | case1 => exact Reading.whole_end
  | case2 _ _ _ ih => exact ih
  | case3 _ _ _ _ _ _ ih => exact ih
  | case4 => exact Reading.whole_before (by decide)
  | case5 _ _ _ _ _ _ _ ih => exact ih
  | case6 _ _ _ _ _ _ _ _ ih => exact ih
  | case7 fresh read c cs _ _ hbreak _ =>
      apply Reading.whole_before
      rintro rfl
      exact hbreak rfl

theorem whole_lineComment (h : Reading.Whole ⟨read, cs⟩) :
    (lineComment read cs).Whole := by
  fun_induction lineComment read cs with
  | case1 => exact h
  | case2 _ _ ih => exact ih (Reading.whole_behind (by decide))
  | case3 _ _ _ hpair _ ih => exact ih (Reading.whole_of_no_pair hpair)
  | case4 _ _ _ _ _ ih => exact ih (Reading.whole_behind (by decide))
  | case5 => exact h
  | case6 _ _ _ _ _ hbreak ih =>
      exact ih (Reading.whole_plain (by simpa using hbreak))

theorem whole_blockComment (read cs : List Char) :
    (blockComment read cs).1.Whole := by
  fun_induction blockComment read cs with
  | case1 => exact Reading.whole_end
  | case2 => exact Reading.whole_behind (by decide)
  | case3 _ _ _ _ ih => exact ih

end Trivia

namespace Extent

variable {read cs : List Char}

-- ============================================================= literals

theorem whole_word (h : Reading.Whole ⟨read, cs⟩) :
    (word read cs).Whole :=
  Reading.whole_moveWhile (by decide) h

theorem whole_number (last : Char) (h : Reading.Whole ⟨read, cs⟩) :
    (number last read cs).Whole := by
  induction cs generalizing last read with
  | nil => exact h
  | cons c cs ih =>
      have hnext : c ≠ '\r' → (number c (c :: read) cs).Whole :=
        fun hc => ih c (Reading.whole_behind hc)
      rw [number]
      split
      · apply hnext
        rintro rfl
        simp_all
      · split
        · apply hnext
          rintro rfl
          simp_all
        · split
          · apply hnext
            rintro rfl
            simp_all
          · exact h

theorem whole_body (joined : Bool) {quote : Char} (hquote : quote ≠ '\r')
    (h : Reading.Whole ⟨read, cs⟩) :
    (body joined quote read cs).1.Whole := by
  fun_induction body joined quote read cs with
  | case1 => exact h
  | case2 _ _ _ ih => exact ih (Reading.whole_behind (by decide))
  | case3 => exact Reading.whole_behind (by decide)
  | case4 => exact Reading.whole_behind (by decide)
  | case5 _ _ _ hpair _ ih => exact ih (Reading.whole_of_no_pair hpair)
  | case6 _ _ _ _ _ hc =>
      apply Reading.whole_behind
      simpa [beq_iff_eq.1 hc] using hquote
  | case7 => exact h
  | case8 _ _ _ _ _ _ hbreak ih =>
      exact ih (Reading.whole_plain (by simpa using hbreak))

theorem whole_leftOpen {quote : Char} {r : Reading} (h : r.Whole) :
    (leftOpen quote r).reading.Whole := by
  rw [leftOpen]
  split
  · exact Reading.whole_toEnd r
  · exact h

theorem whole_quoted {quote : Char} (hquote : quote ≠ '\r')
    (h : Reading.Whole ⟨read, cs⟩) :
    (quoted quote read cs).reading.Whole := by
  have hbody := whole_body true hquote h
  rw [quoted]
  split <;> rename_i r heq <;> rw [heq] at hbody
  · exact whole_word hbody
  · exact whole_leftOpen hbody

/-- What is closed ends with the last character of its closing. -/
theorem whole_through {opening : List Char} {r : Reading}
    (h : through (opening ++ ['"']) read cs = some r) : r.Whole := by
  fun_induction through (opening ++ ['"']) read cs with
  | case1 => cases h
  | case2 read c cs _ =>
      rw [← Option.some.inj h, List.reverseAux_eq, List.reverse_append]
      exact Reading.whole_behind (by decide)
  | case3 _ _ _ _ ih => exact ih h

theorem whole_rawString (h : Reading.Whole ⟨read, cs⟩) :
    (rawString read cs).reading.Whole := by
  rw [rawString]
  split
  · split
    · rename_i r heq
      exact whole_word (whole_through heq)
    · exact Reading.whole_toEnd _
  · have hbody := whole_body false (show '"' ≠ '\r' by decide) h
    split <;> rename_i r heq <;> rw [heq] at hbody
    · exact hbody
    · exact Reading.whole_toEnd r

end Extent

namespace Directive

variable {mode mode' : Mode} {inNumber after : Bool}
  {read text : List Char} {c : Char} {cs : List Char} {swallow : Nat}
  {emit : Option Char}

-- =========================================================== directives

/-- Behind a joined break. -/
private theorem whole_join (h : startsBreak cs) :
    Reading.Whole ⟨(cs.take (breakLength cs)).reverse ++ c :: read,
      cs.drop (breakLength cs)⟩ := by
  unfold breakLength
  split
  · exact Reading.whole_behind (by decide)
  · rename_i hpair
    cases cs with
    | nil => simp [startsBreak] at h
    | cons d ds =>
        apply Reading.whole_of_no_pair
        intro es hd hds
        exact hpair es (congrArg₂ List.cons hd hds)

/-- A move that does not end inside of what reaches over lines ends at
no half of a break. -/
theorem whole_move
    (h : Move inNumber read text mode c cs (.go mode' swallow emit after))
    (hjoins : mode'.joins) :
    Reading.Whole ⟨(cs.take swallow).reverse ++ c :: read,
      cs.drop swallow⟩ := by
  have swallowed {d : Char} (hd : d ≠ '\r') (hcs : cs.head? = some d) :
      Reading.Whole ⟨(cs.take 1).reverse ++ c :: read, cs.drop 1⟩ := by
    obtain ⟨ds, rfl⟩ := List.head?_eq_some_iff.1 hcs
    exact Reading.whole_behind hd
  cases h with
  | runAway | copy | skipBlock => cases hjoins
  | join hjoin =>
      simp only [joinsAt, Bool.and_eq_true] at hjoin
      exact whole_join hjoin.1.2
  | skipLine hc => exact Reading.whole_plain hc
  | closeBlock hcs => exact swallowed (by decide) hcs
  | escaped hc => exact Reading.whole_plain hc
  | escape => exact Reading.whole_behind (by decide)
  | closeLiteral hquote => exact Reading.whole_plain hquote
  | insideLiteral hc => exact Reading.whole_plain hc
  | openLine hcs => exact swallowed (by decide) hcs
  | openBlock hcs => exact swallowed (by decide) hcs
  | openLiteral hopen =>
      apply Reading.whole_behind
      rintro rfl
      simp [opensLiteral] at hopen
  | plain hc => exact Reading.whole_plain hc

/-- A directive ends at no half of a break. What is swallowed counts as
read; inside of what reaches over lines nothing is asked. -/
theorem whole_scanFrom (swallow : Nat) (mode : Mode) (inNumber : Bool)
    (read text cs : List Char)
    (h : mode.joins → Reading.Whole
      ⟨(cs.take swallow).reverse ++ read, cs.drop swallow⟩) :
    (scanFrom swallow mode inNumber read text cs).reading.Whole := by
  induction swallow, mode, inNumber, read, text, cs using run_induction with
  | done => exact Reading.whole_end
  | skip _ _ _ _ _ _ _ ih =>
      apply ih
      intro hjoins
      simpa using h hjoins
  | stop _ _ _ _ _ _ _ hst hmove =>
      rw [scanFrom_stop hst]
      cases hmove with
      | lineEnd hmode =>
          apply h
          rcases hmode with rfl | rfl <;> rfl
      | literalEnd => exact h rfl
  | go _ _ _ _ _ _ _ _ _ _ hst hmove ih =>
      rw [scanFrom_go hst]
      apply ih
      intro hjoins
      exact whole_move hmove hjoins

end Directive

namespace Piece

-- ============================================================== tokens

/-- A symbol ends behind a mark, and marks are no breaks. -/
theorem whole_symbol {c : Char} (hc : isBreak c = false) (cs : List Char) :
    (symbol c cs).2.reading.Whole := by
  unfold symbol
  split
  · rename_i op hop
    have hlast : ∀ op ∈ Word.operators,
        op.toList.getLast? ≠ some '\r' := by decide
    exact Reading.whole_of_last (hlast op (List.mem_of_find?_eq_some hop))
  · exact Reading.whole_plain hc

theorem whole_token {c : Char} (hc : isBreak c = false) (cs : List Char) :
    (token c cs).2.reading.Whole := by
  unfold token
  split
  · rename_i opener h
    have hlast : ∀ o ∈ rawOpeners, o.getLast? ≠ some '\r' := by decide
    apply Extent.whole_rawString
    exact Reading.whole_of_last (hlast _ (List.mem_of_find?_eq_some h))
  · split
    · rename_i opener kind h
      have hlast : ∀ o ∈ literalOpeners, o.1.getLast? ≠ some '\r' := by
        decide
      apply Extent.whole_quoted
      · unfold quoteOf
        split <;> decide
      · exact Reading.whole_of_last (hlast _ (List.mem_of_find?_eq_some h))
    · split
      · exact Extent.whole_number c (Reading.whole_plain hc)
      · split
        · exact Extent.whole_word (Reading.whole_plain hc)
        · exact whole_symbol hc cs

-- ========================================================== every piece

/-- A piece that is cut off leaves no half of a break behind. -/
theorem next_whole (fresh : Bool) (c : Char) (cs : List Char) :
    cutsBreak (next fresh c cs).piece.text (next fresh c cs).rest
      = false := by
  have hcuts := next_cuts fresh c cs
  generalize next fresh c cs = k at hcuts
  cases hcuts with
  | blank => exact (Trivia.whole_blanks fresh [] (c :: cs)).cutsBreak
  | lineComment =>
      exact (Trivia.whole_lineComment
        (Reading.whole_behind (by decide))).cutsBreak
  | blockComment => exact (Trivia.whole_blockComment _ _).cutsBreak
  | directive =>
      exact (Directive.whole_scanFrom 0 .code false [] [] (c :: cs)
        fun _ => by simp [Reading.Whole]).cutsBreak
  | token hblank =>
      have hc : isBreak c = false := by
        simp only [startsBlank, Bool.or_eq_false_iff] at hblank
        exact hblank.1.2
      exact (whole_token hc cs).cutsBreak

end Piece

/-- Reading two texts one after the other, where no break is cut. -/
theorem Place.after_append {p : Place} {cs ds : List Char}
    (h : cutsBreak cs ds = false) :
    p.after (cs ++ ds) = (p.after cs).after ds := by
  simp only [after, byteSize_append, Location.after_append _ h,
    Nat.add_assoc]

namespace PlacedPiece

-- ============================================== pieces within their text

/-- A piece of a text, with what stands before and behind it: it was cut
off there, and its place is the one that the text before it leads to. -/
structure Sits (cs : List Char) (p : PlacedPiece)
    (before rest : List Char) : Prop where
  text_eq : cs = before ++ (p.piece.text ++ rest)
  place_eq : p.place = Place.start.after before
  whole_start : cutsBreak before (p.piece.text ++ rest) = false
  whole_stop : cutsBreak p.piece.text rest = false
  cut_off : ∃ fresh c ds, p.piece.text ++ rest = c :: ds
    ∧ p.piece = (Piece.next fresh c ds).piece
    ∧ rest = (Piece.next fresh c ds).rest

private theorem laid_sits (fresh : Bool) (cs : List Char) :
    ∀ before : List Char, cutsBreak before cs = false →
      ∀ p ∈ laid fresh (Place.start.after before) cs,
        ∃ front rest, p.Sits (before ++ cs) (before ++ front) rest := by
  induction fresh, cs using Piece.cuts_induction with
  | nil fresh =>
      intro before _
      simp [laid_nil]
  | cons fresh c cs ih =>
      intro before hwhole
      have htext := Piece.next_append fresh c cs
      have hstop := Piece.next_whole fresh c cs
      have hne := Piece.next_ne_nil fresh c cs
      rw [laid_cons, List.forall_mem_cons]
      refine ⟨⟨[], (Piece.next fresh c cs).rest, ?_⟩, ?_⟩
      · rw [List.append_nil]
        constructor
        case text_eq => rw [← htext]
        case place_eq => rfl
        case whole_start => rwa [← htext]
        case whole_stop => exact hstop
        case cut_off => exact ⟨fresh, c, cs, htext.symm, rfl, rfl⟩
      · intro p hp
        have hcut : cutsBreak before (Piece.next fresh c cs).piece.text
            = false := by
          rw [htext] at hwhole
          exact cutsBreak_left hwhole
        rw [← Place.after_append hcut] at hp
        obtain ⟨front, rest, hsits⟩ := ih
          (before ++ (Piece.next fresh c cs).piece.text)
          (by rwa [cutsBreak_append hne]) p hp
        refine ⟨(Piece.next fresh c cs).piece.text ++ front, rest, ?_⟩
        rw [htext, ← List.append_assoc, ← List.append_assoc]
        exact hsits

/-- Every piece of a text sits somewhere in it. -/
theorem ofText_sits {cs : List Char} {p : PlacedPiece}
    (hp : p ∈ ofText cs) : ∃ before rest, p.Sits cs before rest := by
  obtain ⟨front, rest, h⟩ := laid_sits true cs [] (cutsBreak_nil _) p hp
  exact ⟨front, rest, h⟩

end PlacedPiece

end FrontEnd
