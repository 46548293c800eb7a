/-
A text that ends and one that begins in the next line, split as one.

Up to the line feed between them the pieces are those of the first text
(`next_followed`), and behind it a line begins, so that the pieces are those
of the second one. Only the blanks around the line feed are one piece where
the two texts had up to three. So what is said of pieces here is said of
those that are not blank (`laid_lines`), and these are all that tokens,
logical lines and errors come from.

Where the second text stands matters to its places only, which are further
on by the bytes and the lines of the first text (`laid_shift`).
-/
import FrontEnd.Proofs.Token.Followed
import FrontEnd.Proofs.Token.Whole
import FrontEnd.Proofs.Spelling.Layout

namespace FrontEnd

open Text

-- ================================================================= places

namespace Location

/-- The location some lines further down. -/
def shift (lines : Nat) (l : Location) : Location :=
  ⟨l.line + lines, l.column⟩

theorem after_shift (lines : Nat) (l : Location) (cs : List Char) :
    (l.shift lines).after cs = (l.after cs).shift lines := by
  rw [after_eq, after_eq]
  simp only [shift, mk.injEq, and_true]
  omega

end Location

namespace Place

/-- The place some bytes and lines further on. -/
def shift (bytes lines : Nat) (p : Place) : Place :=
  ⟨p.offset + bytes, p.location.shift lines⟩

theorem after_shift (bytes lines : Nat) (p : Place) (cs : List Char) :
    (p.shift bytes lines).after cs = (p.after cs).shift bytes lines := by
  simp only [after, shift, Location.after_shift, mk.injEq, and_true]
  omega

end Place

/-- The token some bytes and lines further on. -/
def Token.shift (bytes lines : Nat) (t : Token) : Token :=
  { t with
    span := ⟨t.span.start + bytes, t.span.stop + bytes⟩
    location := t.location.shift lines }

/-- The logical line of a directive that stands some lines further down. -/
def LogicalLine.shift (lines : Nat) (l : LogicalLine) : LogicalLine :=
  { l with startLine := l.startLine + lines, endLine := l.endLine + lines }

/-- The error some lines further down. -/
def LexicalError.shift (lines : Nat) (e : LexicalError) : LexicalError :=
  { e with location := e.location.shift lines }

namespace PlacedPiece

/-- The piece some bytes and lines further on. -/
def shift (bytes lines : Nat) (p : PlacedPiece) : PlacedPiece :=
  ⟨p.piece, p.place.shift bytes lines⟩

variable (bytes lines : Nat)

/-- Pieces that are laid further on are the same pieces. -/
theorem laid_shift (fresh : Bool) (place : Place) (cs : List Char) :
    laid fresh (place.shift bytes lines) cs
      = (laid fresh place cs).map (shift bytes lines) := by
  induction fresh, cs using Piece.cuts_induction generalizing place with
  | nil fresh => rw [laid_nil, laid_nil, List.map_nil]
  | cons fresh c cs ih =>
    rw [laid_cons, laid_cons, List.map_cons, Place.after_shift, ih]
    rfl

theorem stop_shift (p : PlacedPiece) :
    (p.shift bytes lines).stop = p.stop.shift bytes lines :=
  Place.after_shift bytes lines p.place p.piece.text

theorem token?_shift (p : PlacedPiece) :
    (p.shift bytes lines).token?
      = p.token?.map (Token.shift bytes lines) := by
  unfold token? span
  rw [stop_shift]
  obtain ⟨⟨role, text, problems⟩, place⟩ := p
  cases role <;> rfl

theorem logicalLine?_shift (p : PlacedPiece) :
    (p.shift bytes lines).logicalLine?
      = p.logicalLine?.map (LogicalLine.shift lines) := by
  unfold logicalLine?
  rw [stop_shift]
  obtain ⟨⟨role, text, problems⟩, place⟩ := p
  cases role <;> rfl

theorem errors_shift (p : PlacedPiece) :
    (p.shift bytes lines).errors
      = p.errors.map (LexicalError.shift lines) := by
  unfold errors
  rw [List.map_map]
  refine List.map_congr_left fun e _ => ?_
  show (⟨_, (p.place.location.shift lines).after e.before⟩ : LexicalError)
    = _
  rw [Location.after_shift]
  rfl

end PlacedPiece

-- ================================================================= blanks

namespace Trivia

/-- What was read before does not matter to blanks. -/
theorem blanks_front (fresh : Bool) (read front cs : List Char) :
    blanks fresh (read ++ front) cs
      = (⟨(blanks fresh read cs).1.read ++ front,
          (blanks fresh read cs).1.rest⟩, (blanks fresh read cs).2) := by
  fun_induction blanks fresh read cs with
  | case1 => rfl
  | case2 fresh read cs ih => exact ih
  | case3 fresh read c cs hpair hbreak ih =>
    rw [blanks, if_pos hbreak]
    · exact ih
    · exact hpair
  | case4 fresh read c cs hpair hbreak =>
    rw [blanks, if_neg hbreak]
    exact hpair
  | case5 fresh read c cs hpair hjoin hbreak ih =>
    rw [blanks, if_pos hbreak]
    · exact ih
    · exact hpair
    · exact hjoin
  | case6 fresh read c cs hpair hjoin hbreak hblank ih =>
    rw [blanks, if_neg hbreak, if_pos hblank]
    · exact ih
    · exact hpair
    · exact hjoin
  | case7 fresh read c cs hpair hjoin hbreak hblank =>
    rw [blanks, if_neg hbreak, if_neg hblank]
    · exact hpair
    · exact hjoin

/-- The blanks at the start of a text are some of it. -/
theorem blanks_text (fresh : Bool) (cs : List Char) :
    (blanks fresh [] cs).1.taken ++ (blanks fresh [] cs).1.rest = cs := by
  have := (from_blanks fresh [] cs).text
  simpa [Reading.taken] using this

/-- A text of blanks in front of a line feed. -/
theorem blanks_line {fresh : Bool} {cs : List Char} (more : List Char)
    (h : EndsPlain cs) (hblank : (blanks fresh [] cs).1.rest = []) :
    blanks fresh [] (cs ++ '\n' :: more)
      = (⟨((cs ++ '\n' :: (blanks true [] more).1.taken)).reverse,
          (blanks true [] more).1.rest⟩, (blanks true [] more).2) := by
  have hread : (blanks fresh [] cs).1.read = cs.reverse := by
    have htext := blanks_text fresh cs
    rw [hblank, List.append_nil, Reading.taken] at htext
    rw [← List.reverse_reverse (blanks fresh [] cs).1.read, htext]
  have hfront := blanks_front true [] ('\n' :: cs.reverse) more
  rw [List.nil_append] at hfront
  rw [blanks_followed fresh [] h, if_pos hblank, hread, hfront]
  simp [Reading.taken]

end Trivia

namespace PlacedPiece

/-- Whether the piece is anything but blank. -/
def isSeen (p : PlacedPiece) : Bool :=
  p.piece.role != .trivia .blank

/-- Where a text begins, the blanks at its start are not seen. -/
theorem laid_blanks (place : Place) (cs : List Char) :
    (laid true place cs).filter isSeen
      = (laid (Trivia.blanks true [] cs).2
          (place.after (Trivia.blanks true [] cs).1.taken)
          (Trivia.blanks true [] cs).1.rest).filter isSeen := by
  by_cases hblank : ∃ c ds, cs = c :: ds ∧ Piece.startsBlank c ds = true
  · obtain ⟨c, ds, rfl, hstarts⟩ := hblank
    rw [laid_cons]
    unfold Piece.next
    rw [if_pos hstarts]
    rfl
  · have hstop : Trivia.blanks true [] cs = _ :=
      Trivia.blanks_stop true [] fun c ds hcs => by
        by_contra hstarts
        exact hblank ⟨c, ds, hcs, by simpa using hstarts⟩
    rw [hstop]
    rfl

/-- A text of blanks and the line feed behind it are not seen. -/
theorem laid_line {fresh : Bool} (place : Place) {cs : List Char}
    (more : List Char) (h : EndsPlain cs)
    (hstarts : ∀ c ds, cs = c :: ds → Piece.startsBlank c ds = true)
    (hblank : (Trivia.blanks fresh [] cs).1.rest = []) :
    (laid fresh place (cs ++ '\n' :: more)).filter isSeen
      = (laid true (place.after (cs ++ ['\n'])) more).filter isSeen := by
  have hline := Trivia.blanks_line more h hblank
  obtain ⟨c, ds, htext, hfirst⟩ : ∃ c ds, cs ++ '\n' :: more = c :: ds
      ∧ Piece.startsBlank c ds = true := by
    cases cs with
    | nil => exact ⟨_, _, rfl, rfl⟩
    | cons c ds =>
      refine ⟨c, ds ++ '\n' :: more, rfl, ?_⟩
      have := hstarts c ds rfl
      unfold Piece.startsBlank at *
      cases ds with
      | nil =>
        simp only [startsBreak, Bool.and_false, Bool.or_false] at this
        rw [this, Bool.true_or]
      | cons d es => exact this
  have hplace : place.after (cs ++ '\n' :: (Trivia.blanks true [] more).1.taken)
      = (place.after (cs ++ ['\n'])).after
        (Trivia.blanks true [] more).1.taken := by
    rw [← Place.after_append (by simp [cutsBreak])]
    simp
  rw [htext, laid_cons]
  unfold Piece.next
  rw [if_pos hfirst, ← htext, hline]
  rw [List.filter_cons_of_neg (by simp [isSeen, Piece.cut]), laid_blanks,
    ← hplace]
  simp only [Piece.cut, Reading.taken, List.reverse_reverse]

/-- No break is cut in front of the line feed either. -/
theorem cutsBreak_line {front rest : List Char}
    (h : EndsPlain (front ++ rest)) (hwhole : cutsBreak front rest = false) :
    cutsBreak front (rest ++ ['\n']) = false := by
  cases rest with
  | cons c cs => exact hwhole
  | nil =>
    have hlast := h.carriage
    rw [List.append_nil] at hlast
    simp [cutsBreak, hlast]

/-- Up to the line feed the pieces are those of the first text, and behind
it those of the second one. -/
theorem laid_lines (fresh : Bool) (place : Place) {cs : List Char}
    (more : List Char) (h : EndsPlain cs)
    (hclosed : ∀ p ∈ laid fresh place cs, ∀ e ∈ p.piece.problems,
      e.problem.reachesOn = false) :
    (laid fresh place (cs ++ '\n' :: more)).filter isSeen
      = (laid fresh place cs).filter isSeen
        ++ (laid true (place.after (cs ++ ['\n'])) more).filter isSeen := by
  induction fresh, cs using Piece.cuts_induction generalizing place with
  | nil fresh =>
    rw [laid_nil]
    exact laid_line place more h nofun rfl
  | cons fresh c cs ih =>
    rw [laid_cons, List.forall_mem_cons] at hclosed
    by_cases hblank : Piece.IsBlankLine fresh c cs
    · have hnone : (laid fresh place (c :: cs)).filter isSeen = [] := by
        rw [laid_cons]
        unfold Piece.next
        rw [if_pos hblank.1]
        simp only [Piece.cut, hblank.2]
        rw [laid_nil]
        rfl
      rw [hnone]
      exact laid_line place more h
        (fun d ds hds => by
          obtain ⟨rfl, rfl⟩ := List.cons.inj hds
          exact hblank.1) hblank.2
    · have hnext : Piece.next fresh c (cs ++ '\n' :: more) = _ :=
        Piece.next_followed h hclosed.1 hblank
      have htext := Piece.next_append fresh c cs
      have hends : EndsPlain (Piece.next fresh c cs).rest :=
        h.suffix ⟨_, htext.symm⟩
      have hplace : place.after (c :: cs ++ ['\n'])
          = (place.after (Piece.next fresh c cs).piece.text).after
            ((Piece.next fresh c cs).rest ++ ['\n']) := by
        have hwhole := cutsBreak_line (htext ▸ h) (Piece.next_whole fresh c cs)
        rw [← Place.after_append hwhole, ← List.append_assoc, ← htext]
      have hlaid := ih (place.after (Piece.next fresh c cs).piece.text) hends
        hclosed.2
      rw [List.cons_append, laid_cons, laid_cons, hnext, List.filter_cons,
        List.filter_cons, hplace]
      dsimp only
      rw [hlaid]
      split
      · rw [List.cons_append]
      · rfl

theorem role_of_not_isSeen {p : PlacedPiece} (h : p.isSeen = false) :
    p.piece.role = .trivia .blank := by
  simpa [isSeen] using h

theorem token?_of_not_isSeen {p : PlacedPiece} (h : p.isSeen = false) :
    p.token? = none := by
  unfold token?
  rw [role_of_not_isSeen h]

theorem logicalLine?_of_not_isSeen {p : PlacedPiece}
    (h : p.isSeen = false) : p.logicalLine? = none := by
  unfold logicalLine?
  rw [role_of_not_isSeen h]

/-- There is nothing wrong with blanks. -/
theorem errors_of_not_isSeen {cs : List Char} {fresh : Bool} {place : Place}
    {p : PlacedPiece} (hp : p ∈ laid fresh place cs)
    (h : p.isSeen = false) : p.errors = [] := by
  have hrole := role_of_not_isSeen h
  have hproblems : p.piece.role = .trivia .blank → p.piece.problems = [] :=
    laid_forall (P := fun p => p.role = .trivia .blank → p.problems = [])
      (fun fresh c cs hrole => by
        have hcuts := Piece.next_cuts fresh c cs
        generalize Piece.next fresh c cs = k at hcuts hrole
        cases hcuts with
        | blank => rfl
        | lineComment | blockComment | directive | token => cases hrole)
      fresh cs place p hp
  rw [errors, hproblems hrole, List.map_nil]

/-- What is read off pieces is read off those that are not blank. -/
theorem flatMap_isSeen {α : Type} {f : PlacedPiece → List α}
    {ps : List PlacedPiece} (hf : ∀ p ∈ ps, p.isSeen = false → f p = []) :
    (ps.filter isSeen).flatMap f = ps.flatMap f := by
  induction ps with
  | nil => rfl
  | cons p ps ih =>
    rw [List.forall_mem_cons] at hf
    rw [List.filter_cons, List.flatMap_cons, ← ih hf.2]
    cases hp : p.isSeen with
    | true => rfl
    | false =>
      rw [hf.1 hp]
      rfl

end PlacedPiece

-- ================================================================ streams

theorem Place.after_line {cs : List Char} (h : EndsPlain cs) :
    Place.start.after (cs ++ ['\n'])
      = Place.start.shift (byteSize cs + 1) (1 + lineBreaks cs) := by
  have hwhole : cutsBreak cs ['\n'] = false := by
    simp [cutsBreak, h.carriage]
  have hsize : byteSize ['\n'] = 1 := rfl
  rw [Place.after_append hwhole]
  unfold after shift start Location.shift
  simp only [Location.start_after, hsize]
  simp [Location.after, isBreak, Location.start]
  omega

namespace TokenStream

open PlacedPiece

/-- Texts that are split as lines of one text are split as they are by
themselves, if the first one leaves nothing open that reaches over lines
and its last character takes no line feed with it. -/
theorem ofText_lines {cs ds : List Char}
    (hclosed : ∀ e ∈ (ofText cs).errors, e.problem.reachesOn = false)
    (hslash : cs.getLast? ≠ some '\\') (hcarriage : cs.getLast? ≠ some '\r') :
    let bytes := byteSize cs + 1
    let lines := 1 + lineBreaks cs
    let whole := ofText (cs ++ '\n' :: ds)
    whole.tokens = (ofText cs).tokens.dropLast
        ++ (ofText ds).tokens.map (Token.shift bytes lines)
      ∧ whole.errors = (ofText cs).errors
        ++ (ofText ds).errors.map (LexicalError.shift lines)
      ∧ whole.logicalLines = (ofText cs).logicalLines
        ++ (ofText ds).logicalLines.map (LogicalLine.shift lines) := by
  intro bytes lines whole
  have hends : EndsPlain cs := ⟨hslash, hcarriage⟩
  have hproblems : ∀ p ∈ laid true .start cs, ∀ e ∈ p.piece.problems,
      e.problem.reachesOn = false := fun p hp e he =>
    hclosed ⟨e.problem, _⟩
      (List.mem_flatMap.2 ⟨p, hp, List.mem_map_of_mem he⟩)
  have hlaid := laid_lines true .start ds hends hproblems
  have hplace : Place.start.after (cs ++ ['\n'])
      = Place.start.shift bytes lines := Place.after_line hends
  rw [hplace] at hlaid
  -- whatever is read off pieces, and not off blank ones
  have read {α : Type} {f : PlacedPiece → List α} {g : α → α}
      (hf : ∀ fresh place cs, ∀ p ∈ laid fresh place cs,
        p.isSeen = false → f p = [])
      (hshift : ∀ p, f (p.shift bytes lines) = (f p).map g) :
      (laid true .start (cs ++ '\n' :: ds)).flatMap f
        = (laid true .start cs).flatMap f
          ++ ((laid true .start ds).flatMap f).map g := by
    rw [← flatMap_isSeen (hf _ _ _), hlaid, List.flatMap_append,
      flatMap_isSeen (hf _ _ _), flatMap_isSeen (hf _ _ _), laid_shift,
      List.flatMap_map, List.map_flatMap]
    simp only [hshift]
  have readSome {α : Type} {f : PlacedPiece → Option α} {g : α → α}
      (hf : ∀ p, p.isSeen = false → f p = none)
      (hshift : ∀ p, f (p.shift bytes lines) = (f p).map g) :
      (laid true .start (cs ++ '\n' :: ds)).filterMap f
        = (laid true .start cs).filterMap f
          ++ ((laid true .start ds).filterMap f).map g := by
    simp only [List.filterMap_eq_flatMap_toList]
    refine read (fun _ _ _ p _ hp => ?_) fun p => ?_
    · rw [hf p hp, Option.toList_none]
    · rw [hshift]
      cases f p <;> rfl
  refine ⟨?_, ?_, ?_⟩
  · have hend : endToken (cs ++ '\n' :: ds)
        = (endToken ds).shift bytes lines := by
      have hstop : Place.start.after (cs ++ '\n' :: ds)
          = (Place.start.after ds).shift bytes lines := by
        rw [← Place.after_shift, ← hplace,
          ← Place.after_append (by simp [cutsBreak]), List.append_assoc]
        rfl
      unfold endToken
      rw [hstop]
      rfl
    show (laid true .start (cs ++ '\n' :: ds)).filterMap token? ++ [_] = _
    rw [hend, readSome (fun _ => token?_of_not_isSeen)
      (token?_shift bytes lines)]
    show _ = ((laid true .start cs).filterMap token? ++ [_]).dropLast
      ++ ((laid true .start ds).filterMap token? ++ [_]).map _
    rw [List.dropLast_concat, List.map_append, List.append_assoc]
    rfl
  · exact read (fun _ _ _ _ => errors_of_not_isSeen)
      (errors_shift bytes lines)
  · exact readSome (fun _ => logicalLine?_of_not_isSeen)
      (logicalLine?_shift bytes lines)

/-- A character literal that is left open is left open by its line, and
a string in the next line is as open as it is by itself. -/
theorem ofText_lines_open :
    let cs := ['\'', 'a']
    let ds := ['"']
    (∀ e ∈ (ofText cs).errors, e.problem.reachesOn = false)
      ∧ cs.getLast? ≠ some '\\' ∧ cs.getLast? ≠ some '\r'
      ∧ let whole := ofText (cs ++ '\n' :: ds)
        whole.tokens = (ofText cs).tokens.dropLast
            ++ (ofText ds).tokens.map (Token.shift 3 1)
          ∧ whole.errors = (ofText cs).errors
            ++ (ofText ds).errors.map (LexicalError.shift 1)
          ∧ whole.logicalLines = (ofText cs).logicalLines
            ++ (ofText ds).logicalLines.map (LogicalLine.shift 1) := by
  intro cs ds
  have hclosed : ∀ e ∈ (ofText cs).errors, e.problem.reachesOn = false := by
    decide +kernel
  exact ⟨hclosed, by decide, by decide, ofText_lines hclosed (by decide)
    (by decide)⟩

end TokenStream

end FrontEnd
