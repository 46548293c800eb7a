/-
When a logical line is its own normal form: just when nothing of it is
lost as it is read again (`keeps`).

The line was written by a scan, and the second scan follows the first
one: outside of literals it is in code wherever the first one is in code
or in a comment, and inside of literals it is in the same state
(`Again`). There is one place where the two part. A line break that is
joined within a literal leaves a space, and if the character before was
a backslash that escapes what comes next, then the escape waits behind
the space in the first scan, while in the second one it is spent on the
space. The quote that follows it is text for the one and the end of the
literal for the other, and all comments and breaks behind it may be
taken for what they were not. So only a line that ends in two
backslashes can lead away from a fixed point (`normalize_fixed_iff`).
-/
import FrontEnd.Proofs.Token.Emission
import FrontEnd.Proofs.Token.Pieces

namespace FrontEnd

open Text

namespace Directive

variable {mode mode' again : Mode} {inNumber after inNumber' : Bool}
  {read text : List Char} {c : Char} {cs : List Char} {swallow : Nat}
  {emit : Option Char}

-- ================================================= what comes next in it

/-- Outside of literals no break is emitted next. -/
theorem emitted_no_break (swallow : Nat) (mode : Mode) (inNumber : Bool)
    (read text cs : List Char)
    (hmode : mode = .code ∨ mode = .lineComment
      ∨ ∃ before, mode = .blockComment before) :
    startsBreak (emitted swallow mode inNumber read text cs) = false := by
  induction swallow, mode, inNumber, read, text, cs using run_induction with
  | done => rfl
  | skip _ _ _ _ _ _ _ ih => exact ih hmode
  | stop _ _ _ _ _ _ _ hst =>
      rw [emitted_stop hst]
      rfl
  | go mode _ _ _ _ _ _ _ _ _ hst hmove ih =>
      rw [emitted_go hst]
      cases hmove with
      | join hjoin =>
          by_cases hline : mode = .lineComment
          · rw [if_pos hline] at ih ⊢
            exact ih hmode
          · rw [if_neg hline]
            rfl
      | skipLine | openLine => exact ih (.inr (.inl rfl))
      | skipBlock | openBlock => exact ih (.inr (.inr ⟨_, rfl⟩))
      | closeBlock => exact ih (.inl rfl)
      | openLiteral hopen =>
          rcases quote_of_opens hopen with rfl | rfl <;> rfl
      | plain hc => exact hc
      | runAway | copy | escaped | escape | closeLiteral
      | insideLiteral => simp at hmode

/-- What is emitted next, where it is known: nothing, the space of a
joined break, or the character that comes next. -/
def Follows (cs next : List Char) : Prop :=
  next.head? = none ∨ next.head? = some ' ' ∨ next.head? = cs.head?

theorem emitted_follows (mode : Mode) (inNumber : Bool)
    (read text cs : List Char)
    (hmode : (∃ quote escaped before, mode = .literal quote escaped before)
      ∨ mode = .code ∧ cs.head? ≠ some '/') :
    Follows cs (emitted 0 mode inNumber read text cs) := by
  cases cs with
  | nil => exact .inl rfl
  | cons c cs =>
      have hmove := step_moves mode inNumber read text c cs
      cases hst : step mode inNumber read text c cs with
      | stop problem => exact .inl (by rw [emitted_stop hst]; rfl)
      | go mode' swallow emit after =>
          rw [hst] at hmove
          rw [emitted_go hst]
          cases hmove with
          | join hjoin =>
              right
              left
              rw [if_neg]
              · rfl
              · rintro rfl
                simp at hmode
          | skipLine | skipBlock | closeBlock => simp at hmode
          | openLine | openBlock => simp at hmode
          | copy => simp at hmode
          | runAway | escaped | escape | closeLiteral | insideLiteral
          | openLiteral | plain => exact .inr (.inr rfl)

theorem Follows.startsBreak {next : List Char} (h : Follows cs next)
    (hcs : startsBreak cs = false) : startsBreak next = false := by
  cases next with
  | nil => rfl
  | cons d next =>
      rcases h with h | h | h
      · cases h
      · obtain rfl := Option.some.inj h
        rfl
      · obtain ⟨ds, rfl⟩ := List.head?_eq_some_iff.1 h.symm
        exact hcs

theorem Follows.joinsAt {next : List Char} (h : Follows cs next)
    (hcs : joinsAt mode c cs = false) : joinsAt mode c next = false := by
  simp only [Directive.joinsAt, Bool.and_eq_false_iff] at hcs ⊢
  rcases hcs with (hc | hbreak) | hjoins
  · exact .inl (.inl hc)
  · exact .inl (.inr (h.startsBreak hbreak))
  · exact .inr hjoins

theorem Follows.head_ne {next : List Char} (h : Follows cs next)
    {d : Char} (hd : d ≠ ' ') (hcs : cs.head? ≠ some d) :
    next.head? ≠ some d := by
  rcases h with h | h | h
  · simp [h]
  · simpa [h] using hd.symm
  · rwa [h]

theorem Follows.any_false {next : List Char} (h : Follows cs next)
    {p : Char → Bool} (hspace : p ' ' = false)
    (hcs : cs.head?.any p = false) : next.head?.any p = false := by
  rcases h with h | h | h
  · rw [h]
    rfl
  · rwa [h]
  · rwa [h]

/-- In code a letter or digit that comes next is emitted next. -/
theorem emitted_alphanum (inNumber : Bool) (read text : List Char)
    (h : c.isAlphanum) :
    (emitted 0 .code inNumber read text (c :: cs)).head? = some c := by
  have hne : ∀ d : Char, d.isAlphanum = false → c ≠ d := by
    rintro d hd rfl
    simp [h] at hd
  have hmove : Move inNumber read text .code c cs
      (.go .code 0 (some c) (numberAfter inNumber text c)) := by
    apply Move.plain
    · simp [isBreak, hne '\n' (by decide), hne '\r' (by decide)]
    · simp [joinsAt, hne '\\' (by decide)]
    · simp [opensComment, hne '/' (by decide)]
    · simp [opensLiteral, hne '"' (by decide), hne '\'' (by decide)]
  rw [emitted_go hmove.step_eq]
  rfl

-- ============================================================ reading again

/-- The state of a scan over text that another scan emitted, beside the
state of that one. -/
inductive Again : Mode → Bool → Mode → Bool → Prop
  | code {inNumber : Bool} : Again .code inNumber .code inNumber
  | lineComment {inNumber inNumber' : Bool} :
      Again .lineComment inNumber .code inNumber'
  | blockComment {before : List Char} {inNumber : Bool} :
      Again (.blockComment before) inNumber .code inNumber
  | literal {quote : Char} {escaped : Bool} {before before' : List Char}
      (hquote : quote = '"' ∨ quote = '\'') :
      Again (.literal quote escaped before) false
        (.literal quote escaped before') false
  | runaway {before before' : List Char} {inNumber inNumber' : Bool} :
      Again (.runaway before) inNumber (.runaway before') inNumber'

/-- A move that emits nothing goes unnoticed. -/
theorem Again.skip (hagain : Again mode inNumber again inNumber')
    (h : Move inNumber read text mode c cs (.go mode' swallow none after)) :
    Again mode' after again inNumber' := by
  generalize hst : Step.go mode' swallow none after = st at h
  cases h with
  | join hjoin =>
      obtain rfl : mode = .lineComment := by
        by_contra hmode
        simp [hmode] at hst
      obtain ⟨rfl, -, -, rfl⟩ := Step.go.inj hst
      cases hagain
      exact .lineComment
  | skipLine | skipBlock | closeBlock | openLine | openBlock =>
      obtain ⟨rfl, -, -, rfl⟩ := Step.go.inj hst
      cases hagain
      constructor
  | runAway | copy | escaped | escape | closeLiteral | insideLiteral
  | openLiteral | plain | lineEnd | literalEnd => simp at hst

/-- A character of code that is emitted is emitted again. -/
private theorem plain_again
    (hc : isBreak c = false) (hjoin : joinsAt .code c cs = false)
    (hcomment : opensComment c cs = false)
    (hliteral : opensLiteral inNumber c cs = false)
    (number : Bool) (read' text' : List Char) :
    Move inNumber text text .code c
      (emitted 0 .code number read' text' cs)
      (.go .code 0 (some c) (numberAfter inNumber text c)) := by
  have hbreak := emitted_no_break 0 .code number read' text' cs (.inl rfl)
  apply Move.plain hc
  · simp [joinsAt, hbreak]
  · by_cases hslash : c = '/'
    · simp only [opensComment, hslash, beq_self_eq_true, Bool.true_and,
        Bool.or_eq_false_iff, beq_eq_false_iff_ne] at hcomment ⊢
      have hfollows := emitted_follows .code number read' text' cs
        (.inr ⟨rfl, hcomment.1⟩)
      exact ⟨hfollows.head_ne (by decide) hcomment.1,
        hfollows.head_ne (by decide) hcomment.2⟩
    · simp [opensComment, hslash]
  · by_cases hquote : c = '\''
    · subst hquote
      simp only [opensLiteral, beq_self_eq_true, Bool.true_and,
        Bool.or_eq_false_iff, Bool.not_eq_false', Bool.and_eq_true] at hliteral
      obtain ⟨hstring, hnumber, hnext⟩ := hliteral
      cases cs with
      | nil => cases hnext
      | cons e es =>
          have hhead : (emitted 0 .code number read' text' (e :: es)).head?
              = some e := emitted_alphanum number read' text' hnext
          simp only [opensLiteral, hhead, hnumber, hstring]
          simpa using hnext
    · have hstring : c ≠ '"' := by
        rintro rfl
        simp [opensLiteral] at hliteral
      simp [opensLiteral, hquote, hstring]

/-- A quote that opens a literal opens it again. -/
private theorem opensLiteral_again
    (hopen : opensLiteral inNumber c cs) {next : List Char}
    (hfollows : Follows cs next) : opensLiteral inNumber c next := by
  simp only [opensLiteral, Bool.or_eq_true, Bool.and_eq_true,
    Bool.not_eq_true', Bool.and_eq_false_imp] at hopen ⊢
  rcases hopen with hstring | ⟨hquote, hnumber⟩
  · exact .inl hstring
  · right
    refine ⟨hquote, ?_⟩
    intro hinside
    exact hfollows.any_false (by decide) (hnumber hinside)

/-- The space of a joined line is a space in code, and text within a
literal. -/
private theorem space_again (hagain : Again mode inNumber again inNumber')
    (hjoin : joinsAt mode c cs) (hmode : mode ≠ .lineComment)
    (hpending : ∀ quote before, mode ≠ .literal quote true before)
    (next : List Char) :
    ∃ again' after', Again mode false again' after'
      ∧ Move inNumber' text text again ' ' next
          (.go again' 0 (some ' ') after') := by
  cases hagain with
  | code =>
      refine ⟨_, _, ?_, .plain rfl rfl rfl ?_⟩
      · have hnumber : numberAfter inNumber text ' ' = false := by
          simp [numberAfter, show isNumberPart ' ' = false by decide]
        rw [hnumber]
        exact .code
      · simp [opensLiteral]
  | @literal quote escaped before before' hquote =>
      cases escaped with
      | true => exact absurd rfl (hpending quote before)
      | false =>
          refine ⟨_, _, .literal hquote, .insideLiteral rfl (by decide) ?_⟩
          rcases hquote with rfl | rfl <;> decide
  | lineComment => exact absurd rfl hmode
  | blockComment | runaway => simp [joinsAt, Mode.joins] at hjoin

private theorem emits_inj {swallow' : Nat} {after' : Bool} {d e : Char}
    (h : Step.go mode swallow (some d) after
      = .go mode' swallow' (some e) after') :
    mode = mode' ∧ swallow = swallow' ∧ d = e ∧ after = after' := by
  obtain ⟨hmode, hswallow, hemit, hafter⟩ := Step.go.inj h
  exact ⟨hmode, hswallow, Option.some.inj hemit, hafter⟩

/-- A character that is emitted is emitted when it is read again, and
the scans stay beside each other. The exception is the space of a line
that is joined behind a backslash within a literal. -/
theorem Again.step (hagain : Again mode inNumber again inNumber')
    {d : Char}
    (h : Move inNumber read text mode c cs
      (.go mode' swallow (some d) after))
    (hpending : ∀ quote before, mode = .literal quote true before →
      joinsAt mode c cs = false) :
    ∃ again' after', Again mode' after again' after'
      ∧ Move inNumber' text text again d
          (emitted swallow mode' after (c :: read) (d :: text) cs)
          (.go again' 0 (some d) after') := by
  generalize hst : Step.go mode' swallow (some d) after = st at h
  cases h with
  | join hjoin =>
      obtain ⟨rfl, rfl, hemit, rfl⟩ := Step.go.inj hst
      have hmode : mode' ≠ .lineComment := by
        rintro rfl
        simp at hemit
      rw [if_neg hmode] at hemit
      obtain rfl := Option.some.inj hemit
      refine space_again hagain hjoin hmode ?_ _
      intro quote before heq
      rw [hpending quote before heq] at hjoin
      cases hjoin
  | runAway hc =>
      obtain ⟨rfl, rfl, rfl, rfl⟩ := emits_inj hst
      cases hagain with
      | literal => exact ⟨_, _, .runaway, .runAway hc⟩
  | copy =>
      obtain ⟨rfl, rfl, rfl, rfl⟩ := emits_inj hst
      cases hagain with
      | runaway => exact ⟨_, _, .runaway, .copy⟩
  | escaped hc hjoin =>
      obtain ⟨rfl, rfl, rfl, rfl⟩ := emits_inj hst
      cases hagain with
      | literal hquote =>
        exact ⟨_, _, .literal hquote, .escaped hc (Follows.joinsAt
          (emitted_follows _ _ _ _ _ (.inl ⟨_, _, _, rfl⟩)) hjoin)⟩
  | escape hjoin =>
      obtain ⟨rfl, rfl, rfl, rfl⟩ := emits_inj hst
      cases hagain with
      | literal hquote =>
        exact ⟨_, _, .literal hquote, .escape (Follows.startsBreak
          (emitted_follows _ _ _ _ _ (.inl ⟨_, _, _, rfl⟩)) hjoin)⟩
  | closeLiteral hbreak hne =>
      obtain ⟨rfl, rfl, rfl, rfl⟩ := emits_inj hst
      cases hagain with
      | literal => exact ⟨_, _, .code, .closeLiteral hbreak hne⟩
  | insideLiteral hc hne hinside =>
      obtain ⟨rfl, rfl, rfl, rfl⟩ := emits_inj hst
      cases hagain with
      | literal hquote =>
        exact ⟨_, _, .literal hquote, .insideLiteral hc hne hinside⟩
  | openLiteral hopen =>
      obtain ⟨rfl, rfl, rfl, rfl⟩ := emits_inj hst
      cases hagain with
      | code =>
        exact ⟨_, _, .literal (quote_of_opens hopen),
          .openLiteral (opensLiteral_again hopen
            (emitted_follows _ _ _ _ _ (.inl ⟨_, _, _, rfl⟩)))⟩
  | plain hc hjoin hcomment hliteral =>
      obtain ⟨rfl, rfl, rfl, rfl⟩ := emits_inj hst
      cases hagain with
      | code =>
        exact ⟨_, _, .code,
          plain_again hc hjoin hcomment hliteral _ _ _⟩
  | skipLine | skipBlock | closeBlock | openLine | openBlock | lineEnd
  | literalEnd => simp at hst

/-- Two backslashes in front of a line break. -/
def DoubledJoin (cs : List Char) : Prop :=
  ∃ front rest, cs = front ++ '\\' :: '\\' :: rest ∧ startsBreak rest

/-- A join behind a backslash is one of two backslashes. -/
private theorem doubledJoin_of_join
    (hread : read.head? = some '\\') (hjoin : joinsAt mode c cs)
    (inNumber : Bool) (text : List Char) :
    DoubledJoin (scanFrom (breakLength cs) mode inNumber (c :: read)
      text cs).reading.taken := by
  obtain ⟨read, rfl⟩ := List.head?_eq_some_iff.1 hread
  simp only [joinsAt, Bool.and_eq_true, beq_iff_eq] at hjoin
  obtain ⟨⟨rfl, hbreak⟩, -⟩ := hjoin
  cases cs with
  | nil => cases hbreak
  | cons d ds =>
      obtain ⟨more, hlength⟩ : ∃ more,
          breakLength (d :: ds) = more + 1 := by
        unfold breakLength
        split
        · exact ⟨1, rfl⟩
        · exact ⟨0, rfl⟩
      obtain ⟨moved, hmoved, -⟩ := from_scanFrom more mode inNumber
        (d :: '\\' :: '\\' :: read) text ds
      rw [hlength, scanFrom, Reading.taken, hmoved]
      exact ⟨read.reverse, d :: moved, by simp, hbreak⟩

/-- What a scan emits is kept when it is read again, unless a line that
it read ends in two backslashes. -/
theorem keeps_emitted (swallow : Nat) (mode : Mode) (inNumber : Bool)
    (read text cs : List Char)
    (hagain : Again mode inNumber again inNumber')
    (hescaped : ∀ quote before, mode = .literal quote true before →
      swallow = 0 ∧ read.head? = some '\\')
    (hsource : ¬ DoubledJoin
      (scanFrom swallow mode inNumber read text cs).reading.taken) :
    keeps again inNumber' text
      (emitted swallow mode inNumber read text cs) := by
  induction swallow, mode, inNumber, read, text, cs using run_induction
    generalizing again inNumber' with
  | done => rfl
  | skip _ _ _ _ _ _ _ ih =>
      apply ih hagain _ hsource
      intro quote before hmode
      simpa using (hescaped quote before hmode).1
  | stop _ _ _ _ _ _ _ hst =>
      rw [emitted_stop hst]
      rfl
  | go mode inNumber read text c cs mode' swallow emit after hst hmove ih =>
      rw [scanFrom_go hst] at hsource
      have hpending : ∀ quote before,
          mode = .literal quote true before → joinsAt mode c cs = false := by
        intro quote before hmode
        by_contra hjoin
        rw [Bool.not_eq_false] at hjoin
        have hgo : step mode inNumber read text c cs = _ :=
          (Move.join hjoin).step_eq
        rw [hst] at hgo
        obtain ⟨rfl, rfl, -, rfl⟩ := Step.go.inj hgo
        exact hsource (doubledJoin_of_join
          (hescaped quote before hmode).2 hjoin _ _)
      have hescaped' : ∀ quote before, mode' = .literal quote true before →
          swallow = 0 ∧ (c :: read).head? = some '\\' := by
        rintro quote before rfl
        cases hmove with
        | join hjoin => simp [hpending quote before rfl] at hjoin
        | escape => exact ⟨rfl, rfl⟩
      rw [emitted_go hst]
      cases emit with
      | none => exact ih (hagain.skip hmove) hescaped' hsource
      | some d =>
          obtain ⟨again', after', hagain', hagainMove⟩ :=
            hagain.step hmove hpending
          exact keeps_cons.2 ⟨again', after', hagainMove.step_eq,
            ih hagain' hescaped' hsource⟩

end Directive

-- ======================================================= lines as a text

/-- Whether a line is the one logical line of itself. -/
def IsFixed (line : String) : Prop :=
  (logicalLines line.toList).map LogicalLine.text = [line]

/-- The logical lines of a text that begins with a directive. -/
theorem logicalLines_directive (cs : List Char) :
    ∃ more, (logicalLines ('#' :: cs)).map LogicalLine.text
        = String.ofList (Directive.scan ('#' :: cs)).line :: more
      ∧ ((Directive.scan ('#' :: cs)).reading.rest = [] → more = []) := by
  rw [logicalLines, TokenStream.ofText, PlacedPiece.ofText_eq,
    PlacedPiece.laid_cons, Piece.next_directive]
  refine ⟨_, rfl, fun hrest => ?_⟩
  rw [hrest, PlacedPiece.laid_nil]
  rfl

theorem logicalLines_of_rest (cs : List Char)
    (hrest : (Directive.scan ('#' :: cs)).reading.rest = []) :
    (logicalLines ('#' :: cs)).map LogicalLine.text
      = [String.ofList (Directive.scan ('#' :: cs)).line] := by
  obtain ⟨more, hlines, hmore⟩ := logicalLines_directive cs
  rw [hlines, hmore hrest]

theorem isFixed_iff {cs : List Char}
    (htrim : trimEnd ('#' :: cs) = '#' :: cs) :
    IsFixed (String.ofList ('#' :: cs))
      ↔ Directive.keeps .code false [] ('#' :: cs) := by
  obtain ⟨more, hlines, hmore⟩ := logicalLines_directive cs
  rw [IsFixed, String.toList_ofList, hlines, List.cons.injEq,
    String.ofList_inj, Directive.line_eq_iff htrim]
  constructor
  · exact And.left
  · intro hkeeps
    exact ⟨hkeeps, hmore (Directive.rest_of_keeps hkeeps)⟩

namespace Directive

/-- A directive is emitted from its mark on. -/
theorem emitted_mark (cs : List Char) : ∃ ds,
    emitted 0 .code false [] [] ('#' :: cs) = '#' :: ds := by
  have hmove : Move false [] [] .code '#' cs
      (.go .code 0 (some '#') (numberAfter false [] '#')) :=
    .plain rfl rfl rfl rfl
  rw [emitted_go hmove.step_eq]
  exact ⟨_, rfl⟩

/-- A directive no line of which ends in two backslashes is kept when
its normalized text is read. -/
theorem keeps_line
    (hsource : ¬ DoubledJoin (scan cs).reading.taken) :
    keeps .code false [] (scan cs).line := by
  have hkeeps : keeps .code false [] (emitted 0 .code false [] [] cs) :=
    keeps_emitted 0 .code false [] [] cs .code (by simp) hsource
  obtain ⟨blank, hblank⟩ := trimEnd_prefix (emitted 0 .code false [] [] cs)
  rw [← hblank] at hkeeps
  rw [scan_line]
  exact keeps_prefix hkeeps

end Directive

/-- A logical line is its own normal form if and only if nothing of it
is lost when it is read again, and so it is unless a line of its source
ends in two backslashes. -/
theorem normalize_fixed_iff {cs : List Char} {p : PlacedPiece}
    {l : LogicalLine} (hp : p ∈ PlacedPiece.ofText cs)
    (hl : p.logicalLine? = some l) :
    (IsFixed l.text ↔ Directive.keeps .code false [] l.text.toList)
      ∧ (¬ Directive.DoubledJoin p.piece.text → IsFixed l.text) := by
  obtain ⟨ds, hpiece, htext⟩ : ∃ ds,
      p.piece = .ofScan (Directive.scan ('#' :: ds))
      ∧ l.text = String.ofList (Directive.scan ('#' :: ds)).line := by
    unfold PlacedPiece.logicalLine? at hl
    split at hl
    · rename_i line hrole
      obtain ⟨ds, hpiece⟩ := PlacedPiece.directive_eq hp hrole
      rw [hpiece] at hrole
      obtain rfl := Role.directive.inj hrole
      exact ⟨ds, hpiece, by rw [← Option.some.inj hl]⟩
    · cases hl
  have hmark : ∃ rest, (Directive.scan ('#' :: ds)).line = '#' :: rest := by
    obtain ⟨es, hes⟩ := Directive.emitted_mark ds
    rw [Directive.scan_line, hes]
    exact trimEnd_cons (by decide) es
  obtain ⟨rest, hrest⟩ := hmark
  have htrim : trimEnd ('#' :: rest) = '#' :: rest := by
    rw [← hrest, Directive.scan_line, trimEnd_trimEnd]
  rw [htext, hrest, String.toList_ofList]
  refine ⟨isFixed_iff htrim, fun hsource => (isFixed_iff htrim).2 ?_⟩
  rw [← hrest]
  apply Directive.keeps_line
  rw [hpiece] at hsource
  exact hsource

theorem normalize_fixed_define :
    ∃ p ∈ PlacedPiece.ofText "#define A".toList, ∃ l,
      p.logicalLine? = some l ∧ l.text = "#define A" ∧ IsFixed l.text := by
  have hp : (⟨.ofScan (Directive.scan "#define A".toList), .start⟩ :
      PlacedPiece) ∈ PlacedPiece.ofText "#define A".toList := by
    rw [PlacedPiece.ofText_eq, show "#define A".toList
      = '#' :: "define A".toList by decide, PlacedPiece.laid_cons,
      Piece.next_directive]
    exact List.mem_cons_self
  refine ⟨_, hp, _, rfl, by decide, (normalize_fixed_iff hp rfl).2 ?_⟩
  rintro ⟨front, rest, hdouble, -⟩
  have hmem : '\\' ∈ (Directive.scan "#define A".toList).reading.taken := by
    rw [show (Directive.scan "#define A".toList).reading.taken = _ from hdouble]
    simp
  exact absurd hmem (by decide)

/-- A line that is not its own normal form. In the first text the quote
behind the joined break is escaped; in its logical line it is not, and
what follows it is a comment. -/
theorem normalize_not_fixed :
    (logicalLines "#define A \"a\\\\\n\" //x\"".toList).map LogicalLine.text
        = ["#define A \"a\\ \" //x\""]
      ∧ (logicalLines "#define A \"a\\ \" //x\"".toList).map
          LogicalLine.text = ["#define A \"a\\ \""]
      ∧ ¬ IsFixed "#define A \"a\\ \" //x\"" := by
  have hsource := logicalLines_of_rest
    "define A \"a\\\\\n\" //x\"".toList (by decide)
  have hline := logicalLines_of_rest
    "define A \"a\\ \" //x\"".toList (by decide)
  refine ⟨hsource.trans (by decide), hline.trans (by decide), ?_⟩
  intro hfixed
  exact absurd (hline.symm.trans hfixed) (by decide)

end FrontEnd
