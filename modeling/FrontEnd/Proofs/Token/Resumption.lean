/-
What is read behind an error. A string, a raw string or a comment that was
left open takes the rest of the text, so that its error is the last one. A
character literal that was left open ends where its line does, and so does
every directive; the text goes on in the next line then.

Each scanner is asked what it leaves open and what is to come behind it
(`Stops`): `quoted_stops` and `rawString_stops` for tokens, `scan_stops` for
directives. A piece in front of a line break or of the end has everything
else on later lines (`laid_beyond`).
-/
import FrontEnd.Proofs.Token.LineStart
import FrontEnd.Proofs.Token.Followed
import FrontEnd.Proofs.Token.ReadingOrder

namespace FrontEnd

open Text

-- ============================================================ where it stops

/-- The line ends here, and it may be the last one. -/
def Text.EndsLine (cs : List Char) : Prop :=
  cs = [] ∨ startsBreak cs = true

/-- What comes behind some problems. If one of them is that something
reaches over lines, it is the only such one and the last of all, and no text
is left; where a character literal is left open the line ends. -/
structure Stops (problems : List LexicalProblem) (rest : List Char) :
    Prop where
  reaching : ∀ problem ∈ problems, problem.reachesOn = true →
    rest = [] ∧ ∃ others, problems = others ++ [problem]
      ∧ ∀ other ∈ others, other.reachesOn = false
  character : .openCharacter ∈ problems → EndsLine rest

namespace Stops

variable {rest : List Char}

/-- Problems behind which reading goes on. -/
theorem of_forall {problems : List LexicalProblem}
    (h : ∀ problem ∈ problems, problem.reachesOn = false
      ∧ problem ≠ .openCharacter) : Stops problems rest where
  reaching problem hproblem hreaches := by
    rw [(h problem hproblem).1] at hreaches
    cases hreaches
  character hproblem := absurd rfl (h _ hproblem).2

theorem nil : Stops [] rest := of_forall nofun

/-- One problem more at the end of the text. -/
theorem at_end (others : List LexicalProblem) {problem : LexicalProblem}
    (h : ∀ other ∈ others, other.reachesOn = false) :
    Stops (others ++ [problem]) [] where
  reaching problem' hproblem hreaches := by
    rcases List.mem_append.1 hproblem with hother | hlast
    · rw [h problem' hother] at hreaches
      cases hreaches
    · obtain rfl := List.mem_singleton.1 hlast
      exact ⟨rfl, others, rfl, h⟩
  character _ := .inl rfl

/-- The only problem, at the end of the text. -/
theorem alone (problem : LexicalProblem) : Stops [problem] [] :=
  at_end [] (List.forall_mem_nil _)

/-- A character literal in front of the end of its line. -/
theorem open_character (h : EndsLine rest) :
    Stops [.openCharacter] rest where
  reaching problem hproblem hreaches := by
    obtain rfl := List.mem_singleton.1 hproblem
    cases hreaches
  character _ := h

end Stops

-- =============================================================== literals

namespace Extent

/-- A literal that joins lines is left open at the end of one. -/
theorem body_open {quote : Char} {read cs : List Char}
    (h : (body true quote read cs).2 = false) :
    EndsLine (body true quote read cs).1.rest := by
  fun_induction body true quote read cs with
  | case1 => exact .inl rfl
  | case2 _ _ _ ih => exact ih h
  | case3 _ _ hjoined => exact absurd rfl hjoined
  | case4 _ _ _ _ hbreak => simp at hbreak
  | case5 _ _ _ _ _ ih => exact ih h
  | case6 => cases h
  | case7 _ _ _ _ _ _ hbreak => exact .inr hbreak
  | case8 _ _ _ _ _ _ _ ih => exact ih h

theorem quoted_stops (quote : Char) (read cs : List Char) :
    Stops (quoted quote read cs).problems
      (quoted quote read cs).reading.rest := by
  have hopen := @body_open quote read cs
  rw [quoted]
  split
  case h_1 => exact .nil
  case h_2 r heq =>
    rw [heq] at hopen
    rw [leftOpen]
    split
    · exact Stops.alone _
    · exact Stops.open_character (hopen rfl)

theorem rawString_stops (read cs : List Char) :
    Stops (rawString read cs).problems
      (rawString read cs).reading.rest := by
  rw [rawString]
  split
  · split
    · exact .nil
    · exact Stops.alone _
  · split
    · exact Stops.of_forall (by simp [LexicalProblem.reachesOn])
    · exact Stops.at_end [.rawDelimiter]
        (by simp [LexicalProblem.reachesOn])

end Extent

-- ============================================================== directives

namespace Directive

/-- A directive ends with the text or in front of a line break. Only at the
end of the text can a string or a comment be open. -/
theorem scanFrom_stops (swallow : Nat) (mode : Mode) (inNumber : Bool)
    (read text cs : List Char) :
    EndsLine (scanFrom swallow mode inNumber read text cs).reading.rest
      ∧ Stops
        ((scanFrom swallow mode inNumber read text cs).problem.toList.map
          (·.problem))
        (scanFrom swallow mode inNumber read text cs).reading.rest := by
  induction swallow, mode, inNumber, read, text, cs using run_induction with
  | done swallow mode =>
    refine ⟨.inl rfl, ?_⟩
    rw [scanFrom]
    cases mode.atEnd with
    | none => exact .nil
    | some e => exact Stops.alone _
  | skip _ _ _ _ _ _ _ ih => exact ih
  | stop _ _ _ _ _ _ _ hst hmove =>
    rw [scanFrom_stop hst]
    cases hmove with
    | lineEnd _ hc => exact ⟨.inr hc, .nil⟩
    | literalEnd _ hc => exact ⟨.inr hc, Stops.open_character (.inr hc)⟩
  | go _ _ _ _ _ _ _ _ _ _ hst _ ih =>
    rw [scanFrom_go hst]
    exact ih

end Directive

-- ================================================================== pieces

namespace Piece

theorem token_stops (c : Char) (cs : List Char) :
    Stops (token c cs).2.problems (token c cs).2.reading.rest := by
  unfold token
  split
  · exact Extent.rawString_stops _ _
  · split
    · exact Extent.quoted_stops _ _ _
    · split
      · exact .nil
      · split
        · exact .nil
        · unfold symbol
          split
          · exact .nil
          · split
            · exact .nil
            · exact Stops.of_forall (by simp [LexicalProblem.reachesOn])

/-- The problems of a piece, and what comes behind it. -/
theorem next_stops (fresh : Bool) (c : Char) (cs : List Char) :
    Stops ((next fresh c cs).piece.problems.map (·.problem))
      (next fresh c cs).rest := by
  have hcuts := next_cuts fresh c cs
  generalize next fresh c cs = k at hcuts
  cases hcuts with
  | blank | lineComment => exact .nil
  | blockComment =>
    have hopen (read cs : List Char)
        (h : (Trivia.blockComment read cs).2 = false) :
        (Trivia.blockComment read cs).1.rest = [] := by
      fun_induction Trivia.blockComment read cs with
      | case1 => rfl
      | case2 => cases h
      | case3 _ _ _ _ ih => exact ih h
    cases hclosed : (Trivia.blockComment ['*', '/'] cs.tail).2 with
    | true => exact .nil
    | false =>
      rw [cut, if_neg Bool.false_ne_true, hopen _ _ hclosed]
      exact Stops.alone _
  | directive => exact (Directive.scanFrom_stops 0 .code false [] [] _).2
  | token =>
    have hstops := token_stops c cs
    rwa [cut, List.map_map, show ProblemAt.problem ∘
      (fun problem => ⟨problem, []⟩) = id from rfl, List.map_id]

/-- A directive ends where its line does. -/
theorem next_endsLine {fresh : Bool} {c : Char} {cs line : List Char}
    (h : (next fresh c cs).piece.role = .directive line) :
    EndsLine (next fresh c cs).rest := by
  have hcuts := next_cuts fresh c cs
  generalize next fresh c cs = k at hcuts h
  cases hcuts with
  | directive => exact (Directive.scanFrom_stops 0 .code false [] [] _).1
  | blank | lineComment | blockComment | token => cases h

end Piece

namespace PlacedPiece

-- =========================================================== later lines

/-- Reading on leads to no earlier line. -/
theorem laid_line_le (fresh : Bool) (cs : List Char) : ∀ place : Place,
    ∀ p ∈ laid fresh place cs,
      place.location.line ≤ p.place.location.line := by
  induction fresh, cs using Piece.cuts_induction with
  | nil fresh =>
    intro place p hp
    rw [laid_nil] at hp
    cases hp
  | cons fresh c cs ih =>
    intro place p hp
    rw [laid_cons, List.mem_cons] at hp
    rcases hp with rfl | hp
    · exact Nat.le_refl _
    · have hnext := ih _ p hp
      simp only [Place.after, Location.after_eq] at hnext
      omega

/-- Behind a line break everything but the blanks that begin with it is on
later lines. -/
theorem laid_beyond {fresh : Bool} {place : Place} {cs : List Char}
    (h : startsBreak cs = true) :
    ∀ p ∈ laid fresh place cs, p.isTrivia = false →
      place.location.line < p.place.location.line := by
  intro p hp htrivia
  cases cs with
  | nil => cases h
  | cons c cs =>
    have hbreak : isBreak c = true := h
    have hblank : Piece.startsBlank c cs = true := by
      simp [Piece.startsBlank, hbreak]
    rw [laid_cons, List.mem_cons] at hp
    have htext := Piece.next_append fresh c cs
    have hne := Piece.next_ne_nil fresh c cs
    rcases hp with rfl | hp
    · rw [isTrivia, trivia?, Piece.next, if_pos hblank] at htrivia
      cases htrivia
    · have hany : (Piece.next fresh c cs).piece.text.any isBreak = true := by
        generalize (Piece.next fresh c cs).piece.text = text at htext hne
        cases text with
        | nil => exact absurd rfl hne
        | cons d text =>
          obtain rfl := (List.cons.inj htext).1
          simp [hbreak]
      have hlines := lineBreaks_pos hany
      have hline := laid_line_le _ _ _ p hp
      simp only [Place.after, Location.after_eq] at hline
      omega

-- ================================================== the pieces of a text

variable {cs : List Char} {front back : List PlacedPiece} {p : PlacedPiece}

theorem Splits.stops {fresh : Bool} {before rest : List Char}
    (h : Splits cs fresh front p back before rest) :
    Stops (p.errors.map (·.problem)) rest := by
  obtain ⟨c, ds, -, hpiece, hrest⟩ := h.cut_off
  rw [hrest, errors, List.map_map, hpiece]
  exact Piece.next_stops (freshAfter fresh front) c ds

/-- Nothing is read behind a piece that reaches to the end of the text. -/
theorem reaching_last (hsplit : ofText cs = front ++ p :: back)
    {e : LexicalError} (he : e ∈ p.errors)
    (hreaches : e.problem.reachesOn = true) :
    back = [] ∧ p.span.stop = byteSize cs := by
  obtain ⟨rest, h⟩ := ofText_split hsplit
  obtain ⟨rfl, -⟩ := h.stops.reaching _ (List.mem_map_of_mem he) hreaches
  refine ⟨by rw [h.back_eq, laid_nil], ?_⟩
  have hstop := congrArg Place.offset h.sits.stop_eq
  have htext := congrArg byteSize h.sits.text_eq
  rw [List.append_nil] at htext
  rw [htext]
  simpa [span, Place.after, Place.start] using hstop

/-- Its error is the last one, and the only one that reaches on. -/
theorem reaching_error (hsplit : ofText cs = front ++ [p])
    {e : LexicalError} (he : e ∈ p.errors)
    (hreaches : e.problem.reachesOn = true) :
    ∃ others, (TokenStream.ofText cs).errors = others ++ [e]
      ∧ ∀ other ∈ others, other.problem.reachesOn = false := by
  obtain ⟨rest, h⟩ := ofText_split hsplit
  obtain ⟨-, problems, hproblems, hothers⟩ :=
    h.stops.reaching _ (List.mem_map_of_mem he) hreaches
  obtain ⟨own, last, herrors, rfl, hlast⟩ := List.map_eq_append_iff.1 hproblems
  obtain ⟨e', rfl, hproblem⟩ := List.map_eq_singleton_iff.1 hlast
  -- the others of the piece do not reach on, so this is the last one
  obtain rfl : e = e' := by
    rw [herrors, List.mem_append, List.mem_singleton] at he
    refine he.resolve_left fun hown => ?_
    rw [hothers _ (List.mem_map_of_mem hown)] at hreaches
    cases hreaches
  refine ⟨front.flatMap errors ++ own, ?_, fun other hother => ?_⟩
  · rw [TokenStream.ofText, hsplit]
    simp [herrors]
  · rcases List.mem_append.1 hother with hother | hother
    · obtain ⟨q, hq, hreached⟩ := List.mem_flatMap.1 hother
      obtain ⟨front', back', rfl⟩ := List.append_of_mem hq
      by_contra hopen
      have hnone := reaching_last (hsplit.trans (List.append_assoc ..))
        hreached (by simpa using hopen)
      simp at hnone
    · exact hothers _ (List.mem_map_of_mem hother)

/-- Comments are left open, and only they are in trivia. -/
theorem Sits.token_of_error {before rest : List Char}
    (h : p.Sits cs before rest) {e : LexicalError} (he : e ∈ p.errors)
    (hproblem : e.problem ≠ .openComment) : ∃ t, p.token? = some t := by
  have hblames := h.blames he
  unfold Blames at hblames
  unfold token?
  split at hblames <;> rename_i hrole <;> rw [hrole]
  · exact ⟨_, rfl⟩
  · exact absurd hblames.2.1 hproblem
  · exact ⟨_, rfl⟩

/-- Behind a piece that ends where its line does, tokens are on later
lines. -/
theorem Splits.tokens_beyond {rest : List Char}
    (h : Splits cs true front p back [] rest) (hrest : startsBreak rest = true)
    (hsplit : ofText cs = front ++ p :: back) :
    ∀ t ∈ (TokenStream.ofText cs).tokens, p.span.stop ≤ t.span.start →
      p.stop.location.line < t.location.line := by
  intro t ht hbehind
  rcases List.mem_append.1 ht with ht | ht
  · obtain ⟨q, hq, htoken⟩ := List.mem_filterMap.1 ht
    obtain ⟨hspan, hlocation⟩ := place_of_token htoken
    rw [hlocation]
    have hback := mem_back hsplit hq (hspan ▸ hbehind)
    rw [h.back_eq] at hback
    exact laid_beyond hrest q hback (isTrivia_of_token htoken)
  · obtain rfl := List.mem_singleton.1 ht
    have hbreaks : rest.any isBreak = true := by
      cases rest with
      | nil => cases hrest
      | cons c cs => simp [show isBreak c = true from hrest]
    have hlines := lineBreaks_pos hbreaks
    have hwhole := h.sits.whole_stop
    rw [← cutsBreak_append h.sits.text_ne_nil] at hwhole
    rw [h.sits.stop_eq]
    show _ < (Location.start.after cs).line
    rw [h.sits.text_eq, ← List.append_assoc, Location.after_append _ hwhole,
      Location.after_eq]
    simpa [Place.after, Place.start] using hlines

end PlacedPiece

namespace TokenStream

-- ===================================================== the whole stream

/-- How the errors of a stream lie, and what is read behind them. -/
structure Resumes (stream : TokenStream) (cs : List Char) : Prop where
  ordered : stream.errors.Pairwise
    fun e e' => e.location.le e'.location = true
  /-- An error belongs to a token, a directive or a comment. -/
  owned : ∀ e ∈ stream.errors, ∃ p ∈ PlacedPiece.ofText cs,
    e ∈ p.errors ∧ p.Blames cs e
  /-- What reaches over lines takes the rest of the text: its error is the
  last one, and only the mark of the end follows. -/
  reaching : ∀ p ∈ PlacedPiece.ofText cs, ∀ e ∈ p.errors,
    e.problem.reachesOn = true →
      (∃ others, stream.errors = others ++ [e]
        ∧ ∀ other ∈ others, other.problem.reachesOn = false)
      ∧ (∃ front, PlacedPiece.ofText cs = front ++ [p])
      ∧ p.span.stop = byteSize cs
      ∧ ∀ t ∈ stream.tokens, p.span.stop ≤ t.span.start → t = endToken cs
  /-- A token or a directive with a character literal that was left open
  ends with the text, or else in front of a line break, and what is read
  then is on later lines. -/
  character : ∀ p ∈ PlacedPiece.ofText cs, ∀ e ∈ p.errors,
    e.problem = .openCharacter →
      ∃ t front rest, p.token? = some t ∧ t ∈ stream.tokens
        ∧ cs = front ++ rest ∧ byteSize front = t.span.stop
        ∧ ((rest = [] ∧ ∀ u ∈ stream.tokens,
              t.span.stop ≤ u.span.start → u = endToken cs)
          ∨ (startsBreak rest = true ∧ ∀ u ∈ stream.tokens,
              t.span.stop ≤ u.span.start →
              p.stop.location.line < u.location.line))

/-- No token but the mark of the end begins there. -/
theorem endToken_of_start {cs : List Char} {t : Token}
    (ht : t ∈ (ofText cs).tokens) (hstart : byteSize cs ≤ t.span.start) :
    t = endToken cs := by
  rcases List.mem_append.1 ht with ht | ht
  · have htile := PlacedPiece.laid_tile true cs .start
    have hsub := PlacedPiece.token_spans_sublist (PlacedPiece.ofText cs)
    have hbounds := htile.bounds _ (hsub.subset (List.mem_map_of_mem ht))
    simp only [Place.start] at hbounds
    omega
  · exact List.mem_singleton.1 ht

/-- Errors come in reading order. Behind a string, a raw string or a comment
that was left open nothing is read; behind such a character literal reading
goes on in the next line. -/
theorem ofText_resumes (cs : List Char) : (ofText cs).Resumes cs where
  ordered := errors_ordered cs
  owned := errors_blamed cs
  reaching p hp e he hreaches := by
    obtain ⟨front, back, hsplit⟩ := List.append_of_mem hp
    obtain ⟨rfl, hstop⟩ := PlacedPiece.reaching_last hsplit he hreaches
    refine ⟨PlacedPiece.reaching_error hsplit he hreaches, ⟨front, hsplit⟩,
      hstop, fun t ht hbehind => ?_⟩
    exact endToken_of_start ht (hstop ▸ hbehind)
  character p hp e he hproblem := by
    obtain ⟨front, back, hsplit⟩ := List.append_of_mem hp
    obtain ⟨rest, h⟩ := PlacedPiece.ofText_split hsplit
    have htext := h.sits.text_eq
    have hstop : byteSize (front.flatMap (·.piece.text) ++ p.piece.text)
        = p.span.stop := by
      simp [PlacedPiece.span, h.sits.stop_eq, Place.after, Place.start]
    rw [List.nil_append, ← List.append_assoc] at htext
    obtain ⟨t, htoken⟩ := h.sits.token_of_error he (by simp [hproblem])
    obtain ⟨hspan, -⟩ := PlacedPiece.place_of_token htoken
    refine ⟨t, _, rest, htoken, ?_, htext, by rw [hstop, hspan], ?_⟩
    · exact List.mem_append_left _ (List.mem_filterMap.2 ⟨p, hp, htoken⟩)
    rw [hspan]
    rcases h.stops.character (hproblem ▸ List.mem_map_of_mem he) with
      rfl | hbreak
    · rw [List.append_nil] at htext
      refine .inl ⟨rfl, fun u hu hbehind => endToken_of_start hu ?_⟩
      rwa [htext, hstop]
    · exact .inr ⟨hbreak, h.tokens_beyond hbreak hsplit⟩

end TokenStream

end FrontEnd
