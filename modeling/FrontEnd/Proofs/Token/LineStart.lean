/-
Where lines begin. Pieces are cut off one by one with a flag along, which
says whether a line begins in front of the next one: a token takes it away,
blanks with a line break of their own bring it back, comments leave it as it
is (`Piece.freshBehind`). So behind some pieces it is up if only trivia came
so far, or if such blanks stand behind the last token (`freshAfter_iff`).

A piece of a text stands between others. What is in front of it is known by
its text and by the flag, and what is behind it are the pieces of the rest
(`ofText_split`).
-/
import FrontEnd.Proofs.Token.Tiling
import FrontEnd.Proofs.Token.Whole

namespace FrontEnd

open Text

-- ============================================================ line breaks

/-- Whether a line break stands in a text that no backslash directly in
front of it joins. `last` is the character in front of the text; the two
halves of one break count at the first of them. -/
def Text.breaksLine (last : Option Char) : List Char → Bool
  | [] => false
  | c :: cs =>
    (isBreak c && last != some '\\' && !(last == some '\r' && c == '\n'))
      || breaksLine (some c) cs

namespace Trivia

/-- Blanks that are read behind others: the flag was up, or a break that is
not joined is among them. -/
private theorem blanks_breaks (fresh : Bool) (read cs : List Char)
    (hslash : read.head? ≠ some '\\')
    (hpair : read.head? = some '\r' → cs.head? = some '\n' → fresh = true) :
    ∃ moved, (blanks fresh read cs).1.read = moved.reverse ++ read
      ∧ (blanks fresh read cs).2
        = (fresh || breaksLine read.head? moved) := by
  fun_induction blanks fresh read cs with
  | case1 fresh read => exact ⟨[], rfl, by simp [breaksLine]⟩
  | case2 fresh read cs ih =>
    obtain ⟨moved, hread, hflag⟩ := ih (by simp) (by simp)
    refine ⟨'\\' :: '\r' :: '\n' :: moved, by simp [hread], ?_⟩
    simpa [breaksLine, isBreak] using hflag
  | case3 fresh read c cs hnext hbreak ih =>
    have hc : c ≠ '\\' := by
      rintro rfl
      exact absurd hbreak (by decide)
    obtain ⟨moved, hread, hflag⟩ := ih (by simpa using hc) (by
      intro hcarriage hfeed
      obtain ⟨ds, rfl⟩ := List.head?_eq_some_iff.1 hfeed
      exact (hnext ds (Option.some.inj hcarriage) rfl).elim)
    refine ⟨'\\' :: c :: moved, by simp [hread], ?_⟩
    simpa [breaksLine, isBreak] using hflag
  | case4 fresh read => exact ⟨[], rfl, by simp [breaksLine]⟩
  | case5 fresh read c cs hnext hjoin hbreak ih =>
    have hc : c ≠ '\\' := by
      rintro rfl
      exact absurd hbreak (by decide)
    obtain ⟨moved, hread, hflag⟩ := ih (by simpa using hc) (fun _ _ => rfl)
    refine ⟨c :: moved, by simp [hread], ?_⟩
    rw [hflag, Bool.true_or, breaksLine, hbreak]
    cases hfresh : fresh with
    | true => rfl
    | false =>
      -- half of a break comes behind the other half
      have hhalf : ¬(read.head? = some '\r' ∧ c = '\n') := by
        rintro ⟨hcarriage, rfl⟩
        rw [hpair hcarriage rfl] at hfresh
        cases hfresh
      have hbegins : (read.head? == some '\r' && c == '\n') = false := by
        simpa using hhalf
      have hapart : (read.head? != some '\\') = true := by
        simpa using hslash
      rw [hbegins, hapart]
      rfl
  | case6 fresh read c cs hnext hjoin hbreak hblank ih =>
    have hc : c ≠ '\\' ∧ c ≠ '\r' := by
      constructor <;> rintro rfl <;> exact absurd hblank (by decide)
    obtain ⟨moved, hread, hflag⟩ := ih (by simpa using hc.1)
      (by simp [hc.2])
    refine ⟨c :: moved, by simp [hread], ?_⟩
    simpa [breaksLine, hbreak] using hflag
  | case7 fresh read => exact ⟨[], rfl, by simp [breaksLine]⟩

/-- Behind blanks a line begins if one did in front of them, or if a break
among them is not joined. -/
theorem blanks_fresh (fresh : Bool) (cs : List Char) :
    (blanks fresh [] cs).2
      = (fresh || breaksLine none (blanks fresh [] cs).1.taken) := by
  obtain ⟨moved, hread, hflag⟩ := blanks_breaks fresh [] cs nofun nofun
  rw [hflag, Reading.taken, hread]
  simp

end Trivia

-- =============================================================== the flag

namespace Piece

/-- Whether a line begins behind the piece, where `fresh` says whether one
begins in front of it. -/
def freshBehind (fresh : Bool) (p : Piece) : Bool :=
  match p.role with
  | .trivia .blank => fresh || breaksLine none p.text
  | .trivia _ => fresh
  | .token _ | .directive _ => false

/-- The flag behind a piece that is cut off. -/
theorem next_fresh (fresh : Bool) (c : Char) (cs : List Char) :
    (next fresh c cs).fresh
      = (next fresh c cs).piece.freshBehind fresh := by
  have hcuts := next_cuts fresh c cs
  generalize next fresh c cs = k at hcuts
  cases hcuts with
  | blank => exact Trivia.blanks_fresh fresh (c :: cs)
  | lineComment | blockComment | directive | token => rfl

end Piece

namespace PlacedPiece

/-- Whether a line begins behind some pieces. -/
def freshAfter (fresh : Bool) (ps : List PlacedPiece) : Bool :=
  ps.foldl (fun fresh p => p.piece.freshBehind fresh) fresh

/-- Whether the piece is blank and a line begins in it. -/
def startsLine (p : PlacedPiece) : Bool :=
  p.piece.role == .trivia .blank && breaksLine none p.piece.text

theorem freshBehind_eq (fresh : Bool) (p : PlacedPiece) :
    p.piece.freshBehind fresh = (p.startsLine || fresh && p.isTrivia) := by
  obtain ⟨⟨role, text, problems⟩, place⟩ := p
  cases role with
  | token | directive =>
    simp [Piece.freshBehind, startsLine, isTrivia, trivia?]
  | trivia kind =>
    cases kind <;>
      simp [Piece.freshBehind, startsLine, isTrivia, trivia?, Bool.or_comm]

/-- A line begins behind some pieces if one began in front of them and all
are trivia, or if blanks in which one begins have trivia only behind
them. -/
theorem freshAfter_iff (fresh : Bool) (ps : List PlacedPiece) :
    freshAfter fresh ps = true
      ↔ (fresh = true ∧ ∀ p ∈ ps, p.isTrivia = true)
        ∨ ∃ front p back, ps = front ++ p :: back ∧ p.startsLine = true
          ∧ ∀ q ∈ back, q.isTrivia = true := by
  induction ps generalizing fresh with
  | nil => simp [freshAfter]
  | cons p ps ih =>
    show freshAfter (p.piece.freshBehind fresh) ps = true ↔ _
    rw [ih, freshBehind_eq, Bool.or_eq_true, Bool.and_eq_true,
      List.forall_mem_cons]
    constructor
    · rintro (⟨hp | ⟨hfresh, hp⟩, hps⟩ | ⟨front, q, back, rfl, hq, hback⟩)
      · exact .inr ⟨[], p, ps, rfl, hp, hps⟩
      · exact .inl ⟨hfresh, hp, hps⟩
      · exact .inr ⟨p :: front, q, back, rfl, hq, hback⟩
    · rintro (⟨hfresh, hp, hps⟩ | ⟨front, q, back, hsplit, hq, hback⟩)
      · exact .inl ⟨.inr ⟨hfresh, hp⟩, hps⟩
      · cases front with
        | nil =>
          obtain ⟨rfl, rfl⟩ := List.cons.inj hsplit
          exact .inl ⟨.inl hq, hback⟩
        | cons r front =>
          obtain ⟨rfl, rfl⟩ := List.cons.inj hsplit
          exact .inr ⟨front, q, back, rfl, hq, hback⟩

-- ======================================================= between others

/-- A piece of a text with the pieces in front of it and behind it, and the
text behind it. -/
structure Splits (cs : List Char) (fresh : Bool) (front : List PlacedPiece)
    (p : PlacedPiece) (back : List PlacedPiece) (before rest : List Char) :
    Prop where
  sits : p.Sits cs (before ++ front.flatMap (·.piece.text)) rest
  cut_off : ∃ c ds, p.piece.text ++ rest = c :: ds
    ∧ p.piece = (Piece.next (freshAfter fresh front) c ds).piece
    ∧ rest = (Piece.next (freshAfter fresh front) c ds).rest
  back_eq : back = laid (p.piece.freshBehind (freshAfter fresh front)) p.stop
    rest

private theorem laid_split (fresh : Bool) (cs : List Char) :
    ∀ before : List Char, cutsBreak before cs = false →
      ∀ front p back,
        laid fresh (Place.start.after before) cs = front ++ p :: back →
        ∃ rest, Splits (before ++ cs) fresh front p back before rest := by
  induction fresh, cs using Piece.cuts_induction with
  | nil fresh =>
    intro before _ front p back hlaid
    rw [laid_nil] at hlaid
    cases front <;> cases hlaid
  | cons fresh c cs ih =>
    intro before hwhole front p back hlaid
    have htext := Piece.next_append fresh c cs
    have hstop := Piece.next_whole fresh c cs
    have hfresh := Piece.next_fresh fresh c cs
    rw [laid_cons] at hlaid
    cases front with
    | nil =>
      obtain ⟨rfl, rfl⟩ := List.cons.inj hlaid
      refine ⟨(Piece.next fresh c cs).rest, ⟨⟨?_, ?_, ?_, hstop, ?_⟩, ?_, ?_⟩⟩
      · simp [← htext]
      · simp
      · simpa [← htext] using hwhole
      · exact ⟨fresh, c, cs, htext.symm, rfl, rfl⟩
      · exact ⟨c, cs, htext.symm, rfl, rfl⟩
      · rw [hfresh]
        rfl
    | cons q front =>
      obtain ⟨rfl, hothers⟩ := List.cons.inj hlaid
      have hcut : cutsBreak before (Piece.next fresh c cs).piece.text
          = false := by
        rw [htext] at hwhole
        exact cutsBreak_left hwhole
      rw [← Place.after_append hcut] at hothers
      have hne := Piece.next_ne_nil fresh c cs
      obtain ⟨rest, hsits, hcut_off, hback⟩ := ih
        (before ++ (Piece.next fresh c cs).piece.text)
        (by rwa [cutsBreak_append hne]) front p back hothers
      rw [hfresh] at hcut_off hback
      refine ⟨rest, ⟨?_, hcut_off, hback⟩⟩
      rw [htext, ← List.append_assoc]
      simpa using hsits

/-- What stands in front of a piece and behind it. -/
theorem ofText_split {cs : List Char} {front back : List PlacedPiece}
    {p : PlacedPiece} (h : ofText cs = front ++ p :: back) :
    ∃ rest, Splits cs true front p back [] rest :=
  laid_split true cs [] (cutsBreak_nil _) front p back h

/-- The pieces in front of another one end where it begins, and those behind
it begin where it ends. -/
theorem ofText_around {cs : List Char} {front back : List PlacedPiece}
    {p : PlacedPiece} (h : ofText cs = front ++ p :: back) :
    (∀ q ∈ front, q.span.stop ≤ p.span.start)
      ∧ ∀ q ∈ back, p.span.stop ≤ q.span.start := by
  have htile := laid_tile true cs .start
  rw [← ofText_eq, h, List.map_append, List.map_cons] at htile
  obtain ⟨-, hback, hfront⟩ := List.pairwise_append.1 htile.ordered
  exact ⟨fun q hq => hfront _ (List.mem_map_of_mem hq) _ List.mem_cons_self,
    fun q hq => List.rel_of_pairwise_cons hback (List.mem_map_of_mem hq)⟩

theorem ofText_nonempty {cs : List Char} {p : PlacedPiece}
    (h : p ∈ ofText cs) : p.span.start < p.span.stop :=
  ((laid_tile true cs .start).bounds _ (List.mem_map_of_mem h)).2.1

/-- What begins behind a piece is among the pieces behind it. -/
theorem mem_back {cs : List Char} {front back : List PlacedPiece}
    {p q : PlacedPiece} (h : ofText cs = front ++ p :: back)
    (hq : q ∈ ofText cs) (hbehind : p.span.stop ≤ q.span.start) :
    q ∈ back := by
  have hp : p ∈ ofText cs := by simp [h]
  have hsome := ofText_nonempty hq
  have hfull := ofText_nonempty hp
  rw [h, List.mem_append, List.mem_cons] at hq
  rcases hq with hq | rfl | hq
  · have := (ofText_around h).1 q hq
    omega
  · omega
  · exact hq

/-- What ends in front of a piece is among the pieces in front of it. -/
theorem mem_front {cs : List Char} {front back : List PlacedPiece}
    {p q : PlacedPiece} (h : ofText cs = front ++ p :: back)
    (hq : q ∈ ofText cs) (hbefore : q.span.stop ≤ p.span.start) :
    q ∈ front := by
  have hp : p ∈ ofText cs := by simp [h]
  have hsome := ofText_nonempty hq
  have hfull := ofText_nonempty hp
  rw [h, List.mem_append, List.mem_cons] at hq
  rcases hq with hq | rfl | hq
  · exact hq
  · omega
  · have := (ofText_around h).2 q hq
    omega

theorem isTrivia_of_token {p : PlacedPiece} {t : Token}
    (h : p.token? = some t) : p.isTrivia = false := by
  unfold token? at h
  split at h <;> rename_i hrole <;> simp [isTrivia, trivia?, hrole] at h ⊢

end PlacedPiece

end FrontEnd
