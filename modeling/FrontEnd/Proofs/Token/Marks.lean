/-
Which marks are directives. A `#` is one where the flag of the pieces in
front of it is up, and an operator anywhere else (`next_mark`). Read off the
stream the flag says that no token stands in front of it, or that a line
begins in blanks behind the last one (`fresh_iff`).

Directives and logical lines are read off the same pieces, so that they go
together one by one. What a directive emits has a line break only behind a
string that ran away, and none comes back from there
(`emitted_breaks`). A directive ends in front of a break, so that the next
one begins on a later line.
-/
import FrontEnd.Proofs.Token.Resumption
import FrontEnd.Proofs.Token.FixedPoint

namespace FrontEnd

open Text

namespace TokenStream

-- ================================================= what is read off a stream

/-- Whether a line begins in the blanks between two tokens: a break that no
backslash joins stands in them. What stands in comments does not count. -/
def LineBetween (stream : TokenStream) (source : String) (t u : Token) :
    Prop :=
  ∃ v ∈ stream.trivia, v.kind = .blank ∧ t.span.stop ≤ v.span.start
    ∧ v.span.stop ≤ u.span.start
    ∧ breaksLine none (v.span.slice source).toList = true

/-- A directive and its logical line. The line has a break of its own only if
a string was left open in the directive. -/
structure SpelledBy (cs : List Char) (t : Token) (l : LogicalLine) :
    Prop where
  value_eq : t.value = l.text
  line_eq : l.startLine = t.location.line
  marked : l.text.toList.head? = some '#'
  breaks : l.text.toList.any isBreak = true →
    ∃ p ∈ PlacedPiece.ofText cs, p.token? = some t
      ∧ ∃ e ∈ p.errors, e.problem = .openString

end TokenStream

namespace Directive

-- ==================================================== breaks in the text

/-- A string that ran away is never closed. -/
theorem runaway_problem (swallow : Nat) (inNumber : Bool)
    (before read text cs : List Char) :
    (scanFrom swallow (.runaway before) inNumber read text cs).problem
      = some ⟨.openString, before.reverse⟩ := by
  induction cs generalizing swallow inNumber read text with
  | nil => rfl
  | cons c cs ih =>
    cases swallow with
    | succ swallow => exact ih _ _ _ _
    | zero =>
      have hstep : step (.runaway before) inNumber read text c cs
          = .go (.runaway before) 0 (some c) false := by
        simp [step, breakStep, plainStep, Mode.joins]
      rw [scanFrom_go hstep]
      exact ih _ _ _ _

/-- Line breaks are emitted only if a string was left open. -/
theorem emitted_breaks (swallow : Nat) (mode : Mode) (inNumber : Bool)
    (read text cs : List Char)
    (h : (emitted swallow mode inNumber read text cs).any isBreak = true) :
    ∃ e, (scanFrom swallow mode inNumber read text cs).problem = some e
      ∧ e.problem = .openString := by
  induction swallow, mode, inNumber, read, text, cs using run_induction with
  | done => cases h
  | skip _ _ _ _ _ _ _ ih => exact ih h
  | stop _ _ _ _ _ _ _ hst =>
    rw [emitted_stop hst] at h
    cases h
  | go _ _ _ _ _ _ mode swallow emit inNumber hst hmove ih =>
    rw [emitted_go hst, List.any_append, Bool.or_eq_true] at h
    rw [scanFrom_go hst]
    rcases h with h | h
    · cases hmove with
      | runAway | copy => exact ⟨_, runaway_problem _ _ _ _ _ _, rfl⟩
      | join => split at h <;> cases h
      | openLiteral hopen =>
        rcases quote_of_opens hopen with rfl | rfl <;> cases h
      | plain hc | escaped hc | insideLiteral hc | closeLiteral hc =>
        simp [hc] at h
      | escape => cases h
      | skipLine | skipBlock | closeBlock | openLine | openBlock => cases h
    · exact ih h

/-- The logical line of a directive begins with its mark. -/
theorem line_mark (cs : List Char) :
    (scan ('#' :: cs)).line.head? = some '#' := by
  obtain ⟨ds, hds⟩ := emitted_mark cs
  have hmark : isSpace '#' = false := by decide
  obtain ⟨es, hes⟩ := trimEnd_cons hmark ds
  rw [scan_line, hds, hes]
  rfl

/-- Its line breaks are those of a string that was left open. -/
theorem line_breaks {cs : List Char}
    (h : (scan cs).line.any isBreak = true) :
    ∃ e, (scan cs).problem = some e ∧ e.problem = .openString := by
  rw [scan_line] at h
  have hkept := trimEnd_prefix (emitted 0 .code false [] [] cs)
  obtain ⟨c, hc, hbreak⟩ := List.any_eq_true.1 h
  exact emitted_breaks 0 .code false [] [] cs
    (List.any_eq_true.2 ⟨c, hkept.subset hc, hbreak⟩)

end Directive

namespace Piece

-- =============================================================== one mark

/-- A mark that is a token is an operator, alone or with a second one. -/
theorem token_mark (cs : List Char) : (token '#' cs).1 = .operator := by
  have hraw : rawOpeners.find? (·.isPrefixOf ('#' :: cs)) = none := rfl
  have hliteral : literalOpeners.find? (·.1.isPrefixOf ('#' :: cs)) = none :=
    rfl
  have hsymbol : (Word.longestOperator ('#' :: cs)).isSome = true :=
    List.find?_isSome.2 ⟨"#", by decide, rfl⟩
  obtain ⟨op, hop⟩ := Option.isSome_iff_exists.1 hsymbol
  rw [token, hraw, hliteral]
  simp [symbol, hop, show isWordStart '#' = false by decide]

end Piece

namespace PlacedPiece

variable {cs before rest : List Char} {front back : List PlacedPiece}
  {p : PlacedPiece} {t : Token} {l : LogicalLine} {fresh : Bool}

/-- A token that begins with a mark is a directive where the flag is up, and
an operator where it is not. -/
theorem Splits.next_mark (h : Splits cs fresh front p back before rest)
    (htoken : p.token? = some t) (hmark : t.value.toList.head? = some '#') :
    (freshAfter fresh front = true ∧ t.kind = .directive)
      ∨ (freshAfter fresh front = false ∧ t.kind = .operator) := by
  obtain ⟨c, ds, -, hpiece, -⟩ := h.cut_off
  have hcuts := Piece.next_cuts (freshAfter fresh front) c ds
  generalize Piece.next (freshAfter fresh front) c ds = k at hpiece hcuts
  obtain ⟨piece, place⟩ := p
  subst hpiece
  cases hcuts with
  | blank | lineComment | blockComment => cases htoken
  | directive hfresh =>
    obtain rfl := Option.some.inj htoken
    exact .inl ⟨hfresh, rfl⟩
  | token _ _ hdirective =>
    obtain rfl := Option.some.inj htoken
    obtain ⟨htext, hne⟩ := Piece.token_reading c ds
    obtain ⟨taken, htaken⟩ : ∃ taken,
        (Piece.token c ds).2.reading.taken = '#' :: taken :=
      List.head?_eq_some_iff.1 (by simpa [Piece.cut] using hmark)
    obtain rfl : '#' = c := by
      rw [htaken] at htext
      exact (List.cons.inj htext).1
    exact .inr ⟨by simpa using hdirective, Piece.token_mark ds⟩

-- ========================================================== between tokens

theorem Sits.slice (h : p.Sits cs before rest) :
    p.span.slice (String.ofList cs) = String.ofList p.piece.text := by
  have hspan : p.span
      = ⟨byteSize before, byteSize before + byteSize p.piece.text⟩ := by
    simp [span, stop, h.place_eq, Place.after, Place.start]
  rw [h.text_eq, ← List.append_assoc, hspan, Span.slice_append]

theorem token?_eq_none (p : PlacedPiece) :
    p.token? = none ↔ p.isTrivia = true := by
  obtain ⟨⟨role, text, problems⟩, place⟩ := p
  cases role <;> simp [token?, isTrivia, trivia?]

theorem tokens_eq_nil {ps : List PlacedPiece} :
    ps.filterMap token? = [] ↔ ∀ p ∈ ps, p.isTrivia = true := by
  rw [List.filterMap_eq_nil_iff]
  simp only [token?_eq_none]

/-- Blanks in which a line begins are trivia of the stream. -/
theorem trivia_of_startsLine {source : String} (hp : p ∈ ofText source.toList)
    (hline : p.startsLine = true) :
    ∃ v ∈ (TokenStream.ofText source.toList).trivia,
      v.kind = .blank ∧ v.span = p.span
        ∧ breaksLine none (v.span.slice source).toList = true := by
  obtain ⟨before, rest, hsits⟩ := ofText_sits hp
  have hslice := hsits.slice
  rw [String.ofList_toList] at hslice
  simp only [startsLine, Bool.and_eq_true, beq_iff_eq] at hline
  obtain ⟨hrole, hbreaks⟩ := hline
  refine ⟨⟨.blank, p.span⟩, List.mem_filterMap.2 ⟨p, hp, ?_⟩, rfl, rfl, ?_⟩
  · rw [trivia?, hrole]
  · rwa [hslice, String.toList_ofList]

theorem startsLine_of_trivia {source : String} {v : Trivia}
    (hv : v ∈ (TokenStream.ofText source.toList).trivia)
    (hblank : v.kind = .blank)
    (hbreaks : breaksLine none (v.span.slice source).toList = true) :
    ∃ p ∈ ofText source.toList, p.span = v.span ∧ p.startsLine = true := by
  obtain ⟨p, hp, htrivia⟩ := List.mem_filterMap.1 hv
  obtain ⟨before, rest, hsits⟩ := ofText_sits hp
  have hslice := hsits.slice
  rw [String.ofList_toList] at hslice
  unfold trivia? at htrivia
  split at htrivia
  · rename_i kind hrole
    obtain rfl := Option.some.inj htrivia
    obtain rfl : kind = .blank := hblank
    rw [hslice, String.toList_ofList] at hbreaks
    exact ⟨p, hp, rfl, by simp [startsLine, hrole, hbreaks]⟩
  · cases htrivia

theorem tokens_append_trivia (ps : List PlacedPiece) {qs : List PlacedPiece}
    (h : ∀ q ∈ qs, q.isTrivia = true) :
    (ps ++ qs).filterMap token? = ps.filterMap token? := by
  rw [List.filterMap_append, tokens_eq_nil.2 h, List.append_nil]

/-- What stands in front of blanks and what stands behind them has them
between. -/
theorem lineBetween_of_split {source : String} {between : List PlacedPiece}
    {q r : PlacedPiece} {u : Token}
    (hsplit : ofText source.toList = (front ++ q :: between) ++ p :: back)
    (hr : r ∈ front) (hutoken : r.token? = some u)
    (hline : q.startsLine = true) (htoken : p.token? = some t) :
    (TokenStream.ofText source.toList).LineBetween source u t := by
  have hq : q ∈ ofText source.toList := by simp [hsplit]
  obtain ⟨v, hv, hblank, hvspan, hbreaks⟩ := trivia_of_startsLine hq hline
  refine ⟨v, hv, hblank, ?_, ?_, hbreaks⟩
  · rw [hvspan, (place_of_token hutoken).1]
    exact (ofText_around (hsplit.trans (List.append_assoc ..))).1 r hr
  · rw [hvspan, (place_of_token htoken).1]
    exact (ofText_around hsplit).1 q (by simp)

/-- Behind what stands behind the last token there are no tokens. -/
theorem trivia_behind {between : List PlacedPiece} {q : PlacedPiece}
    {u : Token} (hsplit : ofText cs = (front ++ q :: between) ++ back)
    (hlast : ((front ++ q :: between).filterMap token?).getLast? = some u)
    (hstart : u.span.stop ≤ q.span.start) :
    ∀ r ∈ between, r.isTrivia = true := by
  rw [← tokens_eq_nil]
  cases hw : (between.filterMap token?).getLast? with
  | none => exact List.getLast?_eq_none_iff.1 hw
  | some w =>
    -- then the last token would stand behind it
    obtain ⟨r, hr, hwtoken⟩ := List.mem_filterMap.1 (List.mem_of_getLast? hw)
    obtain rfl : w = u := by
      rw [← List.singleton_append, List.filterMap_append,
        List.filterMap_append, List.getLast?_append, List.getLast?_append,
        hw] at hlast
      exact Option.some.inj hlast
    have hbehind := (ofText_around
      (hsplit.trans (List.append_assoc ..))).2 r (by simp [hr])
    have hq : q ∈ ofText cs := by simp [hsplit]
    have hr : r ∈ ofText cs := by simp [hsplit, hr]
    have hq := ofText_nonempty hq
    have hr := ofText_nonempty hr
    rw [(place_of_token hwtoken).1] at hstart
    omega

/-- The flag in front of a token, read off the stream. -/
theorem fresh_iff {source : String}
    (hsplit : ofText source.toList = front ++ p :: back)
    (htoken : p.token? = some t) :
    freshAfter true front = true ↔ front.filterMap token? = []
      ∨ ∃ u, (front.filterMap token?).getLast? = some u
        ∧ (TokenStream.ofText source.toList).LineBetween source u t := by
  rw [freshAfter_iff, tokens_eq_nil]
  constructor
  · rintro (⟨-, hnone⟩ | ⟨front', q, between, rfl, hline, hbetween⟩)
    · exact .inl hnone
    · -- the last token in front of the blanks is the last one of all
      have htrivia : q.isTrivia = true := by
        simp only [startsLine, Bool.and_eq_true, beq_iff_eq] at hline
        simp [isTrivia, trivia?, hline.1]
      have hlast := tokens_append_trivia front'
        (List.forall_mem_cons.2 ⟨htrivia, hbetween⟩)
      rw [← tokens_eq_nil, hlast]
      cases hu : (front'.filterMap token?).getLast? with
      | none => exact .inl (List.getLast?_eq_none_iff.1 hu)
      | some u =>
        obtain ⟨r, hr, hutoken⟩ :=
          List.mem_filterMap.1 (List.mem_of_getLast? hu)
        exact .inr ⟨u, rfl,
          lineBetween_of_split hsplit hr hutoken hline htoken⟩
  · rintro (hnone | ⟨u, hlast, v, hv, hblank, hstart, hstop, hbreaks⟩)
    · exact .inl ⟨rfl, hnone⟩
    · obtain ⟨q, hq, hvspan, hline⟩ := startsLine_of_trivia hv hblank hbreaks
      rw [← hvspan] at hstart hstop
      rw [(place_of_token htoken).1] at hstop
      obtain ⟨front', between, rfl⟩ :=
        List.append_of_mem (mem_front hsplit hq hstop)
      exact .inr ⟨front', q, between, rfl, hline,
        trivia_behind hsplit hlast hstart⟩

-- ========================================================== logical lines

/-- What a directive emits is its logical line. -/
theorem spelledBy (hp : p ∈ ofText cs) (htoken : p.token? = some t)
    (hline : p.logicalLine? = some l) : TokenStream.SpelledBy cs t l := by
  obtain ⟨hrole, hvalue, hstart, -⟩ := line_of_directive hline
  obtain rfl := Option.some.inj (htoken.symm.trans hvalue)
  obtain ⟨ds, hpiece⟩ := directive_eq hp hrole
  have htext : l.text.toList = (Directive.scan ('#' :: ds)).line := by
    rw [hpiece] at hrole
    exact (Role.directive.inj hrole).symm
  refine ⟨rfl, hstart, ?_, fun hbreaks => ?_⟩
  · rw [htext]
    exact Directive.line_mark ds
  · rw [htext] at hbreaks
    obtain ⟨e, hproblem, hopen⟩ := Directive.line_breaks hbreaks
    refine ⟨p, hp, htoken, ⟨e.problem, p.place.location.after e.before⟩,
      List.mem_map.2 ⟨e, ?_, rfl⟩, hopen⟩
    rw [hpiece]
    exact Option.mem_toList.2 hproblem

/-- A directive ends in front of a break, so the next one is on a later
line. -/
theorem lines_apart {q : PlacedPiece} {l' : LogicalLine}
    (hsplit : ofText cs = front ++ p :: back) (hq : q ∈ back)
    (hl : p.logicalLine? = some l) (hl' : q.logicalLine? = some l') :
    l.endLine < l'.startLine := by
  obtain ⟨hrole, -, -, hstop⟩ := line_of_directive hl
  obtain ⟨hrole', htoken', hstart, -⟩ := line_of_directive hl'
  obtain ⟨rest, h⟩ := ofText_split hsplit
  obtain ⟨c, ds, -, hpiece, hrest⟩ := h.cut_off
  rw [hpiece] at hrole
  rw [h.back_eq] at hq
  rw [hstop, hstart]
  rcases hrest ▸ Piece.next_endsLine hrole with rfl | hbreak
  · rw [laid_nil] at hq
    cases hq
  · exact laid_beyond hbreak q hq (isTrivia_of_token htoken')

end PlacedPiece

namespace TokenStream

-- ===================================================== the whole stream

/-- Which tokens are directives, and which lines they have. -/
structure Directed (stream : TokenStream) (source : String) : Prop where
  /-- What begins with a mark is a directive if it is the first token or if a
  line begins between the last one and it, and an operator if not. -/
  marks : ∀ before t after, stream.tokens = before ++ t :: after →
    t.value.toList.head? = some '#' →
      (t.kind = .directive ↔ before = [] ∨ ∃ u, before.getLast? = some u
        ∧ stream.LineBetween source u t)
      ∧ (t.kind ≠ .directive → t.kind = .operator)
  /-- Logical lines belong to directives, one to each and in order. -/
  lines : List.Forall₂ (SpelledBy source.toList)
    (stream.tokens.filter Token.isDirective) stream.logicalLines
  ranges : ∀ l ∈ stream.logicalLines, l.startLine ≤ l.endLine
  apart : stream.logicalLines.Pairwise fun l l' => l.endLine < l'.startLine

/-- A token but the mark of the end with the pieces around it. -/
theorem tokens_split {cs : List Char} {before after : List Token} {t : Token}
    (h : (ofText cs).tokens = before ++ t :: after) (hend : t.isEnd = false) :
    ∃ front p back, PlacedPiece.ofText cs = front ++ p :: back
      ∧ front.filterMap PlacedPiece.token? = before
      ∧ p.token? = some t := by
  rcases after.eq_nil_or_concat' with rfl | ⟨after, u, rfl⟩
  · obtain rfl := List.singleton_inj.1 (List.append_inj' h rfl).2
    cases hend
  · rw [← List.cons_append, ← List.append_assoc] at h
    obtain ⟨front, behind, hfront, hbefore, htokens⟩ :=
      List.filterMap_eq_append_iff.1 (List.append_inj' h rfl).1
    obtain ⟨between, p, back, rfl, hnone, htoken, -⟩ :=
      List.filterMap_eq_cons_iff.1 htokens
    refine ⟨front ++ between, p, back, by simpa using hfront, ?_, htoken⟩
    rw [List.filterMap_append, List.filterMap_eq_nil_iff.2 hnone, hbefore,
      List.append_nil]

/-- A `#` makes a directive where a line begins and an operator elsewhere.
Directives have one logical line each, in order and on lines of their own. -/
theorem ofText_directed (source : String) :
    (ofText source.toList).Directed source := by
  constructor
  case marks =>
    intro before t after htokens hmark
    have hend : t.isEnd = false := by
      have ht : t ∈ (ofText source.toList).tokens := by simp [htokens]
      rcases List.mem_append.1 ht with ht | ht
      · exact PlacedPiece.laid_not_end true .start _ t ht
      · obtain rfl := List.mem_singleton.1 ht
        cases hmark
    obtain ⟨front, p, back, hsplit, rfl, htoken⟩ :=
      tokens_split htokens hend
    obtain ⟨rest, h⟩ := PlacedPiece.ofText_split hsplit
    rw [← PlacedPiece.fresh_iff hsplit htoken]
    rcases h.next_mark htoken hmark with ⟨hfresh, hkind⟩ | ⟨hfresh, hkind⟩
    · simp [hfresh, hkind]
    · simp [hfresh, hkind]
  case lines =>
    refine (lines_paired source.toList).imp ?_
    rintro t l ⟨p, hp, htoken, hline⟩
    exact PlacedPiece.spelledBy hp htoken hline
  case ranges =>
    intro l hl
    obtain ⟨p, -, hline⟩ := List.mem_filterMap.1 hl
    obtain ⟨-, -, hstart, hstop⟩ := PlacedPiece.line_of_directive hline
    rw [hstart, hstop, PlacedPiece.stop, Place.after, Location.after_eq]
    exact Nat.le_add_right ..
  case apart =>
    refine List.pairwise_filterMap.2
      (List.pairwise_iff_forall_sublist.2 fun {p q} hsub l hl l' hl' => ?_)
    obtain ⟨front, behind, hsplit, hp, hq⟩ := List.cons_sublist_iff.1 hsub
    obtain ⟨front, between, rfl⟩ := List.append_of_mem hp
    rw [List.append_assoc, List.cons_append] at hsplit
    exact PlacedPiece.lines_apart hsplit
      (List.mem_append_right _ (List.singleton_sublist.1 hq)) hl hl'

end TokenStream

end FrontEnd
