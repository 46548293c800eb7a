/-
The pieces of a text as lists. `Piece.split` and `PlacedPiece.lay` gather
in arrays; here the same runs are lists that begin with the piece cut off
first and go on with the pieces of what is left (`listed_cons`,
`laid_cons`). Whatever one cut preserves, `cuts_induction` carries
through a whole text.
-/
import FrontEnd.Token.Stream
import FrontEnd.Proofs.Text.Position
import FrontEnd.Proofs.Token.Moves

namespace FrontEnd

open Text

namespace Piece

-- ======================================================== what is cut off

/-- What the first piece of a text can be, by the text ahead. -/
inductive Cuts (fresh : Bool) (c : Char) (cs : List Char) : Cut → Prop
  | blank (hblank : startsBlank c cs) :
      Cuts fresh c cs (cut (.trivia .blank)
        (Trivia.blanks fresh [] (c :: cs)).1 []
        (Trivia.blanks fresh [] (c :: cs)).2)
  | lineComment (hc : c = '/') (hcs : cs.head? = some '/') :
      Cuts fresh c cs (cut (.trivia .lineComment)
        (Trivia.lineComment ['/', '/'] cs.tail) [] fresh)
  | blockComment (hc : c = '/') (hcs : cs.head? = some '*') :
      Cuts fresh c cs (cut (.trivia .blockComment)
        (Trivia.blockComment ['*', '/'] cs.tail).1
        (if (Trivia.blockComment ['*', '/'] cs.tail).2 then []
          else [.openComment]) fresh)
  | directive (hfresh : fresh = true) (hc : c = '#') :
      Cuts fresh c cs ⟨ofScan (Directive.scan (c :: cs)),
        (Directive.scan (c :: cs)).reading.rest, false⟩
  | token (hblank : startsBlank c cs = false)
      (hcomment : Directive.opensComment c cs = false)
      (hdirective : (fresh && c == '#') = false) :
      Cuts fresh c cs (cut (.token (token c cs).1)
        (token c cs).2.reading (token c cs).2.problems false)

theorem next_cuts (fresh : Bool) (c : Char) (cs : List Char) :
    Cuts fresh c cs (next fresh c cs) := by
  unfold next
  split
  case isTrue hblank => exact .blank hblank
  case isFalse hblank =>
    split
    case isTrue hline =>
      simp only [Bool.and_eq_true, beq_iff_eq] at hline
      exact .lineComment hline.1 hline.2
    case isFalse hline =>
      split
      case isTrue hblock =>
        simp only [Bool.and_eq_true, beq_iff_eq] at hblock
        exact .blockComment hblock.1 hblock.2
      case isFalse hblock =>
        split
        case isTrue hdirective =>
          simp only [Bool.and_eq_true, beq_iff_eq] at hdirective
          exact .directive hdirective.1 hdirective.2
        case isFalse hdirective =>
          apply Cuts.token
          · simpa using hblank
          · cases h : c == '/' <;> simp_all [Directive.opensComment]
          · simpa using hdirective

/-- A directive is what the scan makes of the text ahead. -/
theorem Cuts.directive_eq {fresh : Bool} {c : Char} {cs : List Char}
    {k : Cut} (h : Cuts fresh c cs k) {line : List Char}
    (hrole : k.piece.role = .directive line) :
    c = '#' ∧ k.piece = ofScan (Directive.scan (c :: cs)) := by
  cases h with
  | directive hfresh hc => exact ⟨hc, rfl⟩
  | blank | lineComment | blockComment | token => cases hrole

/-- A `#` where a line begins is a directive. -/
theorem next_directive (cs : List Char) :
    next true '#' cs = ⟨ofScan (Directive.scan ('#' :: cs)),
      (Directive.scan ('#' :: cs)).reading.rest, false⟩ := by
  simp [next, startsBlank, isBlank, isBreak]

-- ============================================================ the cuts

/-- What holds at the end of a text, and in front of a piece if it holds
behind it, holds of every text. -/
theorem cuts_induction {motive : Bool → List Char → Prop}
    (nil : ∀ fresh, motive fresh [])
    (cons : ∀ fresh c cs,
      motive (next fresh c cs).fresh (next fresh c cs).rest →
      motive fresh (c :: cs)) (fresh : Bool) (cs : List Char) :
    motive fresh cs := by
  refine split.induct (fun fresh _ cs => motive fresh cs) ?_ ?_ fresh #[] cs
  · intro fresh _
    exact nil fresh
  · intro fresh _ c cs cut ih
    exact cons fresh c cs ih

/-- The pieces of a text, in order. -/
def listed (fresh : Bool) (cs : List Char) : List Piece :=
  (split fresh #[] cs).toList

private theorem split_toList (fresh : Bool) (cs : List Char) :
    ∀ done : Array Piece,
      (split fresh done cs).toList = done.toList ++ listed fresh cs := by
  induction fresh, cs using cuts_induction with
  | nil fresh =>
      intro done
      simp [listed, split]
  | cons fresh c cs ih =>
      intro done
      have hself : listed fresh (c :: cs) = (next fresh c cs).piece ::
          listed (next fresh c cs).fresh (next fresh c cs).rest := by
        rw [listed, split, ih]
        simp
      rw [split, ih, hself]
      simp

theorem listed_nil (fresh : Bool) : listed fresh [] = [] := by
  rw [listed, split]

/-- The pieces are the first one and those of what follows it. -/
theorem listed_cons (fresh : Bool) (c : Char) (cs : List Char) :
    listed fresh (c :: cs) = (next fresh c cs).piece ::
      listed (next fresh c cs).fresh (next fresh c cs).rest := by
  rw [listed, split, split_toList]
  simp

/-- The first piece is some of the text. -/
theorem next_append (fresh : Bool) (c : Char) (cs : List Char) :
    c :: cs = (next fresh c cs).piece.text ++ (next fresh c cs).rest :=
  (next_text fresh c cs).1.symm

theorem next_ne_nil (fresh : Bool) (c : Char) (cs : List Char) :
    (next fresh c cs).piece.text ≠ [] :=
  (next_text fresh c cs).2

/-- The pieces of a text hold it, all of it and nothing else. -/
theorem listed_text (fresh : Bool) (cs : List Char) :
    (listed fresh cs).flatMap Piece.text = cs := by
  induction fresh, cs using cuts_induction with
  | nil fresh => rw [listed_nil, List.flatMap_nil]
  | cons fresh c cs ih =>
      rw [listed_cons, List.flatMap_cons, ih, ← next_append]

end Piece

namespace PlacedPiece

-- ========================================================== the places

/-- The pieces of a text from a place on. -/
def laid (fresh : Bool) (place : Place) (cs : List Char) :
    List PlacedPiece :=
  (lay #[] place (Piece.listed fresh cs)).toList

private theorem lay_toList (ps : List Piece) :
    ∀ (done : Array PlacedPiece) (place : Place),
      (lay done place ps).toList
        = done.toList ++ (lay #[] place ps).toList := by
  induction ps with
  | nil =>
      intro done place
      simp [lay]
  | cons p ps ih =>
      intro done place
      rw [lay, ih, lay, ih (#[].push _)]
      simp

theorem laid_nil (fresh : Bool) (place : Place) :
    laid fresh place [] = [] := by
  rw [laid, Piece.listed_nil, lay]

/-- The first piece stands at the place, and the others from where it
leads. -/
theorem laid_cons (fresh : Bool) (place : Place) (c : Char)
    (cs : List Char) :
    laid fresh place (c :: cs) =
      ⟨(Piece.next fresh c cs).piece, place⟩ ::
      laid (Piece.next fresh c cs).fresh
        (place.after (Piece.next fresh c cs).piece.text)
        (Piece.next fresh c cs).rest := by
  rw [laid, Piece.listed_cons, lay, lay_toList]
  simp [laid]

theorem ofText_eq (cs : List Char) :
    ofText cs = laid true .start cs := rfl

/-- What holds of every piece that is cut off holds of all that are
laid. -/
theorem laid_forall {P : Piece → Prop}
    (h : ∀ fresh c cs, P (Piece.next fresh c cs).piece)
    (fresh : Bool) (cs : List Char) :
    ∀ place : Place, ∀ p ∈ laid fresh place cs, P p.piece := by
  induction fresh, cs using Piece.cuts_induction with
  | nil fresh =>
      intro place
      simp [laid_nil]
  | cons fresh c cs ih =>
      intro place
      rw [laid_cons, List.forall_mem_cons]
      exact ⟨h fresh c cs, ih _⟩

/-- Every directive of a text is one that a scan read from its mark. -/
theorem directive_eq {cs : List Char} {p : PlacedPiece}
    (hp : p ∈ ofText cs) {line : List Char}
    (hrole : p.piece.role = .directive line) :
    ∃ ds, p.piece = .ofScan (Directive.scan ('#' :: ds)) := by
  apply laid_forall (P := fun p => p.role = .directive line →
    ∃ ds, p = .ofScan (Directive.scan ('#' :: ds))) _ true cs .start p hp
  · exact hrole
  · intro fresh c cs hrole
    obtain ⟨rfl, hpiece⟩ := (Piece.next_cuts fresh c cs).directive_eq hrole
    exact ⟨cs, hpiece⟩

end PlacedPiece

end FrontEnd
