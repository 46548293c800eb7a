/-
A text whose lines end another way is split alike. The pieces of the
written text are those of the text with line feeds, each written with the
other ending (`next_write`, and `laid_write` for all of them), and every
piece stands at the same location, since a break of two characters moves a
location as one of a single character does.

So the tokens have the same kinds and the same locations, the errors are
the same ones, and only the texts of tokens and of logical lines have
another ending in place of their line feeds (`ofText_write`).
-/
import FrontEnd.Proofs.Ending.Scan
import FrontEnd.Proofs.Ending.Directive
import FrontEnd.Proofs.Token.OneLine

namespace FrontEnd

open Text LineEnding

variable (e : LineEnding)

namespace Piece

-- ================================================================= tokens

/-- A word has no breaks. -/
theorem word_plain {c : Char} (hc : isWordStart c = true) (cs : List Char) :
    e.write (Extent.word [c] cs).taken = (Extent.word [c] cs).taken := by
  refine e.write_eq_self fun d hd => ?_
  rw [Extent.word, Reading.moveWhile_eq, Reading.taken] at hd
  simp only [List.reverse_append, List.reverse_reverse, List.reverse_cons,
    List.reverse_nil, List.nil_append, List.mem_append, List.mem_singleton]
    at hd
  rcases hd with rfl | hd
  · rintro rfl
    exact absurd hc (by decide)
  · rintro rfl
    exact absurd (List.all_eq_true.1 List.all_takeWhile _ hd) (by decide)

/-- A token that begins with some text goes on behind it in both. -/
theorem opened_write {opener : List Char}
    (hopener : ∀ c ∈ opener, (isBlank c || isBreak c) = false)
    (cs : List Char) :
    opener.isPrefixOf (e.write cs) = opener.isPrefixOf cs
      ∧ (opener.isPrefixOf cs = true →
        (e.write cs).drop opener.length = e.write (cs.drop opener.length))
      ∧ e.writeBack opener.reverse = opener.reverse := by
  have hbreak : ∀ c ∈ opener, isBreak c = false := fun c hc =>
    (Bool.or_eq_false_iff.1 (hopener c hc)).2
  exact ⟨e.isPrefixOf_write hbreak cs, e.drop_write hbreak,
    e.writeBack_eq_self fun c hc => ne_feed (hbreak c (List.mem_reverse.1 hc))⟩

theorem symbol_write {c : Char} (hc : c ≠ '\n') (cs : List Char) :
    symbol c (e.write cs)
      = ((symbol c cs).1, (symbol c cs).2.write e) := by
  have hlongest : Word.longestOperator (c :: e.write cs)
      = Word.longestOperator (c :: cs) := by
    rw [← write_plain e hc]
    exact List.find?_congr fun op hop =>
      (opened_write e (operators_gap op hop) (c :: cs)).1
  unfold symbol
  rw [hlongest]
  cases hop : Word.longestOperator (c :: cs) with
  | none => simp [Extent.write, Reading.write, writeBack_plain e hc]
  | some op =>
    obtain ⟨-, hdrop, hself⟩ := opened_write e
      (operators_gap op (List.mem_of_find?_eq_some hop)) (c :: cs)
    have hopens := List.find?_some hop
    simp only [Extent.write, Reading.write, ← write_plain e hc, hself]
    rw [hdrop hopens]

theorem isBreak_quoteOf (kind : TokenKind) :
    isBreak (quoteOf kind) = false := by
  unfold quoteOf
  split <;> rfl

theorem token_write {c : Char} {cs : List Char} (hc : c ≠ '\n')
    (h : '\r' ∉ c :: cs) :
    token c (e.write cs) = ((token c cs).1, (token c cs).2.write e) := by
  have hplain (n : Nat) : '\r' ∉ (c :: cs).drop n :=
    fun hn => h (List.mem_of_mem_drop hn)
  have hraw : rawOpeners.find? (·.isPrefixOf (c :: e.write cs))
      = rawOpeners.find? (·.isPrefixOf (c :: cs)) := by
    rw [← write_plain e hc]
    exact List.find?_congr fun opener hopener =>
      (opened_write e (rawOpeners_gap opener hopener) (c :: cs)).1
  have hliteral : literalOpeners.find? (·.1.isPrefixOf (c :: e.write cs))
      = literalOpeners.find? (·.1.isPrefixOf (c :: cs)) := by
    rw [← write_plain e hc]
    exact List.find?_congr fun opener hopener =>
      (opened_write e (literalOpeners_gap opener hopener) (c :: cs)).1
  have hself : [c] = e.writeBack [c] := by
    rw [writeBack_plain e hc, writeBack_nil]
  unfold token
  rw [hraw, hliteral, e.head?_any_write (by decide) (by decide)]
  cases hfound : rawOpeners.find? (·.isPrefixOf (c :: cs)) with
  | some opener =>
    obtain ⟨-, hdrop, hself⟩ := opened_write e
      (rawOpeners_gap opener (List.mem_of_find?_eq_some hfound)) (c :: cs)
    have hopens := List.find?_some hfound
    dsimp only
    rw [← write_plain e hc, hdrop hopens, ← hself,
      Extent.rawString_write e _ (hplain _), hself]
  | none =>
    dsimp only
    cases hfound : literalOpeners.find? (·.1.isPrefixOf (c :: cs)) with
    | some p =>
      obtain ⟨opener, kind⟩ := p
      obtain ⟨-, hdrop, hself⟩ := opened_write e
        (literalOpeners_gap _ (List.mem_of_find?_eq_some hfound)) (c :: cs)
      have hopens := List.find?_some hfound
      dsimp only at hopens ⊢
      rw [← write_plain e hc, hdrop hopens, ← hself,
        Extent.quoted_write e _ (isBreak_quoteOf kind) (hplain _), hself]
    | none =>
      dsimp only
      split
      · rw [hself, Extent.number_write, ← hself]
        rfl
      · split
        case isTrue hstart =>
          rw [hself, Extent.word_write, ← hself, Reading.taken_write,
            word_plain e hstart]
          rfl
        case isFalse => exact symbol_write e hc cs

-- ================================================================= pieces

end Piece

/-- The role in the text with this ending. -/
def Role.write (e : LineEnding) : Role → Role
  | .directive line => .directive (e.write line)
  | .token kind => .token kind
  | .trivia kind => .trivia kind

/-- The piece of the text with this ending. -/
def Piece.write (e : LineEnding) (p : Piece) : Piece :=
  ⟨p.role.write e, e.write p.text, p.problems.map (ProblemAt.write e)⟩

/-- The cut in the text with this ending. -/
def Cut.write (e : LineEnding) (k : Cut) : Cut :=
  ⟨k.piece.write e, e.write k.rest, k.fresh⟩

namespace Piece

theorem cut_write {role : Role} (hrole : role.write e = role) (r : Reading)
    (problems : List LexicalProblem) (fresh : Bool) :
    cut role (r.write e) problems fresh
      = (cut role r problems fresh).write e := by
  rw [cut, Reading.taken_write]
  simp [cut, Cut.write, Piece.write, hrole, ProblemAt.write, Reading.write]

theorem ofScan_write (s : Directive.Scan) :
    ofScan (s.write e) = (ofScan s).write e := by
  rw [ofScan, Directive.line_write]
  cases hproblem : s.problem <;>
    simp [ofScan, Piece.write, Role.write, Directive.Scan.write,
      Reading.taken_write, hproblem]

/-- What stands behind a comment's opener. -/
theorem tail_write {d : Char} {cs : List Char} (hd : d ≠ '\n')
    (h : (cs.head? == some d) = true) :
    (e.write cs).tail = e.write cs.tail := by
  cases cs with
  | nil => rfl
  | cons b bs =>
    obtain rfl := Option.some.inj (beq_iff_eq.1 h)
    rw [write_plain e hd]
    rfl

/-- At a break there are blanks. -/
theorem next_break (fresh : Bool) {c d : Char} {cs ds : List Char}
    (hc : isBreak c = true) (h : '\r' ∉ c :: cs)
    (hwrite : e.write (c :: cs) = d :: ds) :
    next fresh d ds = (next fresh c cs).write e := by
  obtain rfl := eq_feed h hc
  obtain ⟨rfl, hds⟩ := List.cons.inj hwrite
  have hstarts {b : Char} (hb : isBreak b = true) (bs : List Char) :
      startsBlank b bs = true := by
    simp [startsBlank, hb]
  unfold next
  rw [if_pos (hstarts (by decide) _), if_pos (hstarts (by decide) _),
    ← hwrite, ← e.writeBack_nil, Trivia.blanks_write e fresh [] h]
  exact cut_write e rfl _ _ _

/-- The first piece of the written text. -/
theorem next_write (fresh : Bool) {c d : Char} {cs ds : List Char}
    (h : '\r' ∉ c :: cs) (hwrite : e.write (c :: cs) = d :: ds) :
    next fresh d ds = (next fresh c cs).write e := by
  by_cases hbreak : isBreak c = true
  · exact next_break e fresh hbreak h hwrite
  have hc : c ≠ '\n' := ne_feed (by simpa using hbreak)
  rw [write_plain e hc] at hwrite
  obtain ⟨rfl, rfl⟩ := List.cons.inj hwrite
  have hcs : '\r' ∉ cs := List.not_mem_of_not_mem_cons h
  have htail : '\r' ∉ cs.tail := fun ht => hcs (List.mem_of_mem_tail ht)
  unfold next startsBlank
  rw [e.startsBreak_write, e.head?_beq_write (by decide) (by decide),
    e.head?_beq_write (by decide) (by decide)]
  split
  · rw [← write_plain e hc, ← e.writeBack_nil, Trivia.blanks_write e fresh [] h]
    exact cut_write e rfl _ _ _
  · split
    case isTrue hline =>
      simp only [Bool.and_eq_true] at hline
      rw [tail_write e (by decide) hline.2]
      exact (congrArg (cut _ · [] fresh)
        (Trivia.lineComment_write e ['/', '/'] htail)).trans
        (cut_write e rfl _ _ _)
    case isFalse =>
      split
      case isTrue hblock =>
        simp only [Bool.and_eq_true] at hblock
        have hcomment := Trivia.blockComment_write e ['*', '/'] cs.tail
        rw [tail_write e (by decide) hblock.2]
        exact (congrArg (fun r => cut (.trivia .blockComment) r.1
          (if r.2 then [] else [.openComment]) fresh) hcomment).trans
          (cut_write e rfl _ _ _)
      case isFalse =>
        split
        · rw [← write_plain e hc, Directive.scan_write e h]
          dsimp only
          rw [ofScan_write]
          rfl
        · rw [token_write e hc h]
          exact cut_write e rfl _ _ _

end Piece

-- ================================================================= places

/-- What stands in front of a problem of a piece is in the piece's text
or the text behind it. -/
theorem Piece.before_plain {fresh : Bool} {c : Char} {cs : List Char}
    (h : '\r' ∉ c :: cs) {p : ProblemAt}
    (hp : p ∈ (next fresh c cs).piece.problems) : '\r' ∉ p.before := by
  have hcut := next_cuts fresh c cs
  generalize next fresh c cs = k at hcut hp
  cases hcut with
  | blank | lineComment | blockComment | token =>
    simp only [cut, List.mem_map] at hp
    obtain ⟨problem, -, rfl⟩ := hp
    exact List.not_mem_nil
  | directive =>
    obtain ⟨tail, hopened⟩ :=
      Directive.scan_opened (Option.mem_toList.1 hp)
    obtain ⟨front, hcs, hbefore, -⟩ := hopened.text_eq
    rw [hcs] at h
    rw [hbefore]
    exact fun hfront => h (List.mem_append_left _ hfront)

/-- What a listing shows of a piece in the text with this ending. -/
structure PlacedPiece.Writes (e : LineEnding) (p q : PlacedPiece) :
    Prop where
  piece : q.piece = p.piece.write e
  location : q.place.location = p.place.location
  text_plain : '\r' ∉ p.piece.text
  before_plain : ∀ x ∈ p.piece.problems, '\r' ∉ x.before

namespace PlacedPiece

/-- The pieces of the written text, one for each piece of the text. -/
theorem laid_write (fresh : Bool) (cs : List Char) (h : '\r' ∉ cs) :
    ∀ place place' : Place, place'.location = place.location →
      List.Forall₂ (PlacedPiece.Writes e) (laid fresh place cs)
        (laid fresh place' (e.write cs)) := by
  induction fresh, cs using Piece.cuts_induction with
  | nil fresh =>
    intro place place' _
    rw [write_nil, laid_nil, laid_nil]
    exact .nil
  | cons fresh c cs ih =>
    intro place place' hlocation
    have htext := Piece.next_append fresh c cs
    rw [htext, List.mem_append, not_or] at h
    obtain ⟨d, ds, hwrite⟩ : ∃ d ds, e.write (c :: cs) = d :: ds :=
      List.exists_cons_of_ne_nil fun hnil =>
        absurd (e.write_eq_nil.1 hnil) nofun
    have hplain : '\r' ∉ c :: cs := by
      rw [htext, List.mem_append, not_or]
      exact h
    have hnext := Piece.next_write e fresh hplain hwrite
    rw [hwrite, laid_cons, laid_cons, hnext]
    refine .cons ⟨rfl, hlocation, h.1, fun x => Piece.before_plain hplain⟩
      (ih h.2 _ _ ?_)
    show place'.location.after (e.write _) = place.location.after _
    rw [hlocation, e.after_write _ h.1]

variable {e} {p q : PlacedPiece}

theorem Writes.stop (h : Writes e p q) :
    q.stop.location = p.stop.location := by
  show q.place.location.after q.piece.text = p.place.location.after _
  rw [h.piece, h.location]
  exact e.after_write _ h.text_plain

theorem Writes.errors (h : Writes e p q) : q.errors = p.errors := by
  rw [PlacedPiece.errors, PlacedPiece.errors, h.piece, h.location,
    Piece.write, List.map_map]
  refine List.map_congr_left fun x hx => ?_
  simp [ProblemAt.write, e.after_write _ (h.before_plain x hx)]

end PlacedPiece

-- ================================================================= stream

/-- The text of a string with this ending. -/
def LineEnding.writeString (e : LineEnding) (s : String) : String :=
  String.ofList (e.write s.toList)

/-- The logical line in a text with this ending. -/
def LogicalLine.write (e : LineEnding) (l : LogicalLine) : LogicalLine :=
  { l with text := e.writeString l.text }

namespace PlacedPiece

variable {e} {p q : PlacedPiece}

theorem Writes.token? (h : Writes e p q) :
    q.token?.map Token.kind = p.token?.map Token.kind
      ∧ q.token?.map Token.location = p.token?.map Token.location
      ∧ q.token?.map Token.value
        = p.token?.map fun t => e.writeString t.value := by
  unfold PlacedPiece.token?
  rw [h.location, h.piece, Piece.write]
  cases p.piece.role <;> simp [Role.write, LineEnding.writeString]

theorem Writes.trivia? (h : Writes e p q) :
    q.trivia?.map Trivia.kind = p.trivia?.map Trivia.kind := by
  unfold PlacedPiece.trivia?
  rw [h.piece, Piece.write]
  cases p.piece.role <;> rfl

theorem Writes.logicalLine? (h : Writes e p q) :
    q.logicalLine? = p.logicalLine?.map (LogicalLine.write e) := by
  unfold PlacedPiece.logicalLine?
  rw [h.stop, h.location, h.piece, Piece.write]
  cases p.piece.role <;>
    simp [Role.write, LogicalLine.write, LineEnding.writeString]

/-- What is read off every piece is read off the pieces of both texts. -/
theorem flatMap_writes {α : Type} {f g : PlacedPiece → List α}
    {ps qs : List PlacedPiece} (h : List.Forall₂ (Writes e) ps qs)
    (hfg : ∀ {p q}, Writes e p q → g q = f p) :
    qs.flatMap g = ps.flatMap f := by
  induction h with
  | nil => rfl
  | cons hpq _ ih => rw [List.flatMap_cons, List.flatMap_cons, hfg hpq, ih]

theorem filterMap_writes {α : Type} {f g : PlacedPiece → Option α}
    {ps qs : List PlacedPiece} (h : List.Forall₂ (Writes e) ps qs)
    (hfg : ∀ {p q}, Writes e p q → g q = f p) :
    qs.filterMap g = ps.filterMap f := by
  rw [List.filterMap_eq_flatMap_toList, List.filterMap_eq_flatMap_toList]
  exact flatMap_writes h fun hpq => congrArg Option.toList (hfg hpq)

end PlacedPiece

namespace TokenStream

/-- What is known of a text against what is known of the same text with
this ending. -/
structure Writes (e : LineEnding) (s t : TokenStream) : Prop where
  kinds : t.tokens.map Token.kind = s.tokens.map Token.kind
  locations : t.tokens.map Token.location = s.tokens.map Token.location
  values : t.tokens.map Token.value
    = s.tokens.map fun t => e.writeString t.value
  trivia : t.trivia.map Trivia.kind = s.trivia.map Trivia.kind
  logicalLines : t.logicalLines = s.logicalLines.map (LogicalLine.write e)
  errors : t.errors = s.errors

/-- How the lines of a text end does not matter: the tokens, the logical
lines and the errors of a text without carriage returns are those of the
text that has another ending in place of each line feed, and their texts
differ by that alone. -/
theorem ofText_write (e : LineEnding) {cs : List Char} (h : '\r' ∉ cs) :
    Writes e (ofText cs) (ofText (e.write cs)) := by
  have hlaid := PlacedPiece.laid_write e true cs h .start .start rfl
  have hend : (endToken (e.write cs)).location = (endToken cs).location :=
    e.after_write .start h
  unfold ofText
  simp only [PlacedPiece.ofText_eq]
  constructor
  case trivia =>
    rw [List.map_filterMap, List.map_filterMap]
    exact PlacedPiece.filterMap_writes hlaid fun hpq => hpq.trivia?
  case logicalLines =>
    rw [List.map_filterMap]
    exact PlacedPiece.filterMap_writes hlaid fun hpq => hpq.logicalLine?
  case errors => exact PlacedPiece.flatMap_writes hlaid fun hpq => hpq.errors
  -- the tokens of the pieces, and the one at the end
  all_goals
    rw [List.map_append, List.map_append, List.map_filterMap,
      List.map_filterMap]
    congr 1
  case kinds.e_a =>
    exact PlacedPiece.filterMap_writes hlaid fun hpq => hpq.token?.1
  case locations.e_a =>
    exact PlacedPiece.filterMap_writes hlaid fun hpq => hpq.token?.2.1
  case values.e_a =>
    exact PlacedPiece.filterMap_writes hlaid fun hpq => hpq.token?.2.2
  case locations.e_a => exact congrArg ([·]) hend

/-- A directive of two lines and a string that is left open over two. -/
theorem ofText_write_pair :
    let cs := "#define A \\\n  1\nA \"b\nc".toList
    '\r' ∉ cs ∧ Writes .pair (ofText cs) (ofText
      "#define A \\\r\n  1\r\nA \"b\r\nc".toList) := by
  intro cs
  have hplain : '\r' ∉ cs := by decide
  exact ⟨hplain, ofText_write .pair hplain⟩

end TokenStream

end FrontEnd
