/-
Locations are those of the text. Whatever has a location, a token, a
logical line or an error, has the one that lines and characters counted
in the text lead to (`Location.IsAt`). A piece sits where the text in
front of it ends and no piece ends inside of a line break, so counting
piece by piece is counting in the text. An error is at the start of the
token or comment that it is about; in a directive it is at the opening
of what was left open there.
-/
import FrontEnd.Proofs.Token.Tiling
import FrontEnd.Proofs.Token.Whole
import FrontEnd.Proofs.Token.Opening

namespace FrontEnd

open Text

-- ======================================================= counted locations

/-- Whether a location is that of a byte of a text. The byte is not
inside of a character or of a line break; lines are counted by the
breaks before it and columns by the characters since the last one. -/
def Location.IsAt (l : Location) (cs : List Char) (offset : Nat) : Prop :=
  ∃ before rest, cs = before ++ rest ∧ byteSize before = offset
    ∧ cutsBreak before rest = false
    ∧ l.line = 1 + lineBreaks before
    ∧ l.column = 1 + (lastLine before).length

theorem Location.isAt_after {before rest : List Char}
    (hwhole : cutsBreak before rest = false) :
    (Location.start.after before).IsAt (before ++ rest)
      (byteSize before) := by
  refine ⟨before, rest, rfl, rfl, hwhole, ?_, ?_⟩ <;>
    rw [Location.start_after]

namespace Piece

-- ==================================================== problems of a piece

/-- The problems of a piece. Those of tokens and comments are at the
start; a directive has those of its scan. -/
theorem Cuts.problems {fresh : Bool} {c : Char} {cs : List Char} {k : Cut}
    (h : Cuts fresh c cs k) :
    match k.piece.role with
    | .token _ => ∀ e ∈ k.piece.problems, e.before = []
    | .trivia kind => ∀ e ∈ k.piece.problems,
        kind = .blockComment ∧ e = ⟨.openComment, []⟩
    | .directive _ => k.piece = ofScan (Directive.scan (c :: cs)) := by
  cases h with
  | blank | lineComment | blockComment => simp [cut]
  | directive => rfl
  | token => simp [cut]

end Piece

namespace PlacedPiece

variable {cs before rest : List Char} {p : PlacedPiece}

theorem Sits.start_isAt (h : p.Sits cs before rest) :
    p.place.location.IsAt cs p.span.start := by
  have hat := Location.isAt_after h.whole_start
  rw [← h.text_eq] at hat
  simpa only [span, h.place_eq, Place.after, Place.start, Nat.zero_add]
    using hat

theorem Sits.text_ne_nil (h : p.Sits cs before rest) :
    p.piece.text ≠ [] := by
  obtain ⟨fresh, c, ds, -, hpiece, -⟩ := h.cut_off
  rw [hpiece]
  exact Piece.next_ne_nil fresh c ds

/-- A piece ends where the text up to its end leads. -/
theorem Sits.stop_eq (h : p.Sits cs before rest) :
    p.stop = Place.start.after (before ++ p.piece.text) := by
  rw [stop, h.place_eq,
    Place.after_append (cutsBreak_left h.whole_start)]

theorem Sits.stop_isAt (h : p.Sits cs before rest) :
    p.stop.location.IsAt cs p.span.stop := by
  have hwhole := h.whole_stop
  rw [← cutsBreak_append (a := before) h.text_ne_nil] at hwhole
  have hat := Location.isAt_after hwhole
  rw [List.append_assoc, ← h.text_eq] at hat
  simpa only [span, h.stop_eq, Place.after, Place.start, Nat.zero_add]
    using hat

/-- Where an error of a piece is. -/
def Blames (cs : List Char) (p : PlacedPiece) (e : LexicalError) : Prop :=
  match p.piece.role with
  | .token _ => e.location.IsAt cs p.span.start
  | .trivia kind => kind = .blockComment ∧ e.problem = .openComment
      ∧ e.location.IsAt cs p.span.start
  | .directive _ => ∃ front before tail,
      cs = front ++ (before ++ (e.problem.opener ++ tail))
      ∧ byteSize front = p.span.start
      ∧ e.location.IsAt cs (p.span.start + byteSize before)
      ∧ e.problem.opener ≠ []
      ∧ before ++ e.problem.opener <+: p.piece.text
      ∧ (Directive.scan (before ++ e.problem.opener)).problem
        = some ⟨e.problem, before⟩
      ∧ (Directive.scan (e.problem.opener ++ tail)).problem
        = some ⟨e.problem, []⟩

/-- The opening of what a directive leaves open. -/
private theorem Sits.blames_directive (h : p.Sits cs before rest)
    {problem : ProblemAt} {c : Char} {ds : List Char}
    (htext : p.piece.text ++ rest = c :: ds)
    (hpiece : p.piece = .ofScan (Directive.scan (c :: ds)))
    (hproblem : problem ∈ p.piece.problems) :
    p.Blames cs ⟨problem.problem,
      p.place.location.after problem.before⟩ := by
  have hscan : (Directive.scan (c :: ds)).problem = some problem := by
    rw [hpiece] at hproblem
    exact Option.mem_toList.1 hproblem
  obtain ⟨tail, ⟨front, hds, hfront, hreached⟩, hmarked, hwithin,
    hleft⟩ := Directive.scan_opened hscan
  rw [List.reverse_nil, List.nil_append] at hfront
  subst hfront
  have hcs : cs = before ++
      (problem.before ++ (problem.problem.opener ++ tail)) := by
    rw [h.text_eq, htext, hds]
  have hstart : byteSize before = p.span.start := by
    simp only [span, h.place_eq, Place.after, Place.start, Nat.zero_add]
  have hrole : p.piece.role = .directive (Directive.scan (c :: ds)).line := by
    rw [hpiece]
    rfl
  simp only [Blames, hrole]
  refine ⟨before, problem.before, tail, hcs, hstart, ?_, hmarked, ?_,
    hreached, hleft⟩
  · obtain ⟨d, more, hd, hopener⟩ := LexicalProblem.opener_eq_cons hmarked
    have hwhole : cutsBreak before problem.before = false := by
      have hwhole := h.whole_start
      rw [htext, hds] at hwhole
      exact cutsBreak_left hwhole
    have hopening : cutsBreak (before ++ problem.before)
        (problem.problem.opener ++ tail) = false := by
      rw [hopener]
      exact cutsBreak_of_plain hd _ _
    have hat := Location.isAt_after hopening
    rw [List.append_assoc, ← hcs, byteSize_append, hstart] at hat
    rw [h.place_eq]
    simpa only [Place.after, Place.start, Location.after_append _ hwhole]
      using hat
  · rw [hpiece]
    exact hwithin

/-- The errors of a piece are where they should be. -/
theorem Sits.blames (h : p.Sits cs before rest) {e : LexicalError}
    (he : e ∈ p.errors) : p.Blames cs e := by
  obtain ⟨problem, hproblem, rfl⟩ := List.mem_map.1 he
  obtain ⟨fresh, c, ds, htext, hpiece, -⟩ := h.cut_off
  have hproblems := (Piece.next_cuts fresh c ds).problems
  rw [← hpiece] at hproblems
  have hstart := h.start_isAt
  cases hrole : p.piece.role with
  | token kind =>
      rw [hrole] at hproblems
      simpa only [Blames, hrole, hproblems problem hproblem,
        Location.after_nil] using hstart
  | trivia kind =>
      rw [hrole] at hproblems
      obtain ⟨hkind, rfl⟩ := hproblems problem hproblem
      simp only [Blames, hrole]
      exact ⟨hkind, trivial, hstart⟩
  | directive line =>
      rw [hrole] at hproblems
      exact h.blames_directive htext hproblems hproblem

-- ========================================================== logical lines

variable {t : Token} {l : LogicalLine}

theorem line_of_directive (h : p.logicalLine? = some l) :
    p.piece.role = .directive l.text.toList
      ∧ p.token? = some ⟨.directive, l.text, p.span, p.place.location⟩
      ∧ l.startLine = p.place.location.line
      ∧ l.endLine = p.stop.location.line := by
  unfold logicalLine? at h
  split at h
  · rename_i line hrole
    obtain rfl := Option.some.inj h
    refine ⟨by rw [hrole, String.toList_ofList], ?_, rfl, rfl⟩
    rw [token?, hrole]
  · cases h

/-- Directives and logical lines are read off the same pieces. -/
theorem lines_of_directives (ps : List PlacedPiece)
    (hrole : ∀ p ∈ ps, p.piece.role ≠ .token .directive) :
    List.Forall₂
      (fun t l => ∃ p ∈ ps, p.token? = some t ∧ p.logicalLine? = some l)
      ((ps.filterMap token?).filter Token.isDirective)
      (ps.filterMap logicalLine?) := by
  induction ps with
  | nil => exact .nil
  | cons p ps ih =>
    rw [List.forall_mem_cons] at hrole
    have ih := (ih hrole.2).imp fun t l ⟨q, hq, h⟩ =>
      (⟨q, List.mem_cons_of_mem p hq, h⟩ :
        ∃ q ∈ p :: ps, q.token? = some t ∧ q.logicalLine? = some l)
    cases hpiece : p.piece.role with
    | token kind =>
      have hkind : kind ≠ .directive := by
        rintro rfl
        exact hrole.1 hpiece
      simpa [List.filterMap_cons, token?, logicalLine?, hpiece,
        Token.isDirective, hkind] using ih
    | trivia kind =>
      simpa [List.filterMap_cons, token?, logicalLine?, hpiece] using ih
    | directive line =>
      have htoken : p.token? = some
          ⟨.directive, String.ofList line, p.span, p.place.location⟩ := by
        rw [token?, hpiece]
      have hline : p.logicalLine? = some ⟨String.ofList line,
          p.place.location.line, p.stop.location.line⟩ := by
        rw [logicalLine?, hpiece]
      rw [List.filterMap_cons_some htoken, List.filterMap_cons_some hline,
        List.filter_cons_of_pos rfl]
      exact .cons ⟨p, List.mem_cons_self, htoken, hline⟩ ih

end PlacedPiece

namespace TokenStream

/-- A directive and its logical line, which has the lines at which the
directive starts and stops in the text. -/
def LineOf (cs : List Char) (t : Token) (l : LogicalLine) : Prop :=
  t.value = l.text
    ∧ (∃ a : Location, a.IsAt cs t.span.start ∧ l.startLine = a.line)
    ∧ ∃ b : Location, b.IsAt cs t.span.stop ∧ l.endLine = b.line

/-- What it is for all that a stream holds to have the locations of the
text. -/
structure Located (stream : TokenStream) (cs : List Char) : Prop where
  tokens : ∀ t ∈ stream.tokens, t.location.IsAt cs t.span.start
  /-- Logical lines belong to directives, one to each. -/
  lines : List.Forall₂ (LineOf cs)
    (stream.tokens.filter Token.isDirective) stream.logicalLines
  errors : ∀ e ∈ stream.errors, ∃ p ∈ PlacedPiece.ofText cs,
    e ∈ p.errors ∧ p.Blames cs e

/-- Tokens stand at the locations of the text. -/
theorem tokens_located (cs : List Char) :
    ∀ t ∈ (ofText cs).tokens, t.location.IsAt cs t.span.start := by
  intro t ht
  rcases List.mem_append.1 ht with ht | ht
  · obtain ⟨p, hp, htoken⟩ := List.mem_filterMap.1 ht
    obtain ⟨before, rest, hsit⟩ := PlacedPiece.ofText_sits hp
    obtain ⟨hspan, hlocation⟩ := PlacedPiece.place_of_token htoken
    rw [hspan, hlocation]
    exact hsit.start_isAt
  · obtain rfl := List.mem_singleton.1 ht
    have hat : (Location.start.after cs).IsAt (cs ++ []) (byteSize cs) :=
      Location.isAt_after (by simp [cutsBreak])
    rw [List.append_nil] at hat
    simpa only [endToken, Place.after, Place.start, Nat.zero_add]
      using hat

/-- Every error is one of a piece, where it should be. -/
theorem errors_blamed (cs : List Char) :
    ∀ e ∈ (ofText cs).errors, ∃ p ∈ PlacedPiece.ofText cs,
      e ∈ p.errors ∧ p.Blames cs e := by
  intro e he
  obtain ⟨p, hp, he⟩ := List.mem_flatMap.1 he
  obtain ⟨before, rest, hsit⟩ := PlacedPiece.ofText_sits hp
  exact ⟨p, hp, he, hsit.blames he⟩

/-- Directives and logical lines of a text, with their pieces. -/
theorem lines_paired (cs : List Char) :
    List.Forall₂ (fun t l => ∃ p ∈ PlacedPiece.ofText cs,
        p.token? = some t ∧ p.logicalLine? = some l)
      ((ofText cs).tokens.filter Token.isDirective)
      (ofText cs).logicalLines := by
  have hrole : ∀ p ∈ PlacedPiece.ofText cs,
      p.piece.role ≠ .token .directive :=
    PlacedPiece.laid_forall (P := fun p => p.role ≠ .token .directive)
      (fun fresh c cs => (Piece.next_role fresh c cs).1) true cs .start
  have hend : [endToken cs].filter Token.isDirective = [] := rfl
  simp only [ofText, List.filter_append, hend, List.append_nil]
  exact PlacedPiece.lines_of_directives _ hrole

/-- All locations of a stream are those of the text. -/
theorem ofText_located (cs : List Char) : (ofText cs).Located cs where
  tokens := tokens_located cs
  lines := by
    refine (lines_paired cs).imp ?_
    rintro t l ⟨p, hp, htoken, hline⟩
    obtain ⟨before, rest, hsit⟩ := PlacedPiece.ofText_sits hp
    obtain ⟨hspan, -⟩ := PlacedPiece.place_of_token htoken
    obtain ⟨-, hvalue, hstart, hstop⟩ := PlacedPiece.line_of_directive hline
    obtain rfl := Option.some.inj (htoken.symm.trans hvalue)
    exact ⟨rfl, ⟨_, hsit.start_isAt, hstart⟩, ⟨_, hsit.stop_isAt, hstop⟩⟩
  errors := errors_blamed cs

end TokenStream

end FrontEnd
