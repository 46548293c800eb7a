/-
What a scanner makes of a text does not change if another line follows.
Every scanner stops in front of a line feed or goes through it, and none
looks past it: a text that ends is read as one that a line feed comes
behind (`Reading.followed`), with two exceptions. What reaches over lines
must not be open where the text ends (`LexicalProblem.reachesOn`), and the
last character must not take the line feed with it, as a backslash or a
carriage return would (`EndsPlain`).

Blanks are the one thing that goes on in the next line
(`blanks_followed`). So a piece in front of a line feed is the same, or it
is blank and the last one (`next_followed`).
-/
import FrontEnd.Proofs.Spelling.Token
import FrontEnd.Proofs.Token.Opening
import FrontEnd.Proofs.Token.Pieces

namespace FrontEnd

open Text

-- ============================================================= the border

/-- Whether the problem is that something was left open that goes on
behind line breaks. -/
def LexicalProblem.reachesOn : LexicalProblem → Bool
  | openString | openRawString | openComment => true
  | _ => false

/-- Whether the end of a text takes no line feed behind it with it: no
backslash joins it, and no carriage return makes a pair with it. -/
structure EndsPlain (cs : List Char) : Prop where
  slash : cs.getLast? ≠ some '\\'
  carriage : cs.getLast? ≠ some '\r'

theorem EndsPlain.nil : EndsPlain [] := ⟨nofun, nofun⟩

theorem EndsPlain.suffix {cs ds : List Char} (h : EndsPlain cs)
    (hds : ds <:+ cs) : EndsPlain ds := by
  obtain ⟨es, rfl⟩ := hds
  cases ds with
  | nil => exact .nil
  | cons d ds =>
    have hlast : (es ++ d :: ds).getLast? = (d :: ds).getLast? :=
      List.getLast?_append_of_ne_nil _ nofun
    exact ⟨hlast ▸ h.slash, hlast ▸ h.carriage⟩

theorem EndsPlain.tail {c : Char} {cs : List Char}
    (h : EndsPlain (c :: cs)) : EndsPlain cs :=
  h.suffix (List.suffix_cons c cs)

/-- A backslash has a character behind it. -/
theorem EndsPlain.unjoined {c : Char} {cs : List Char}
    (h : EndsPlain (c :: cs))
    (hjoin : ∀ d ds, c = '\\' → cs = d :: ds → False) : c ≠ '\\' := by
  rintro rfl
  cases cs with
  | nil => exact h.slash rfl
  | cons d ds => exact hjoin d ds rfl rfl

/-- A carriage return makes no pair with the line feed behind the text. -/
theorem EndsPlain.unpaired {c : Char} {cs more : List Char}
    (h : EndsPlain (c :: cs))
    (hpair : ∀ ds, c = '\r' → cs = '\n' :: ds → False) (ds : List Char)
    (hc : c = '\r') (hds : cs ++ '\n' :: more = '\n' :: ds) : False := by
  cases cs with
  | nil => exact h.carriage (congrArg some hc)
  | cons d es =>
    obtain rfl := (List.cons.inj hds).1
    exact hpair es hc rfl

/-- The reading with more text to come. -/
def Text.Reading.followed (r : Reading) (more : List Char) : Reading :=
  ⟨r.read, r.rest ++ more⟩

variable {cs more : List Char}

-- =============================================================== literals

namespace Extent

/-- The extent with more text to come. -/
def followed (e : Extent) (more : List Char) : Extent :=
  ⟨e.reading.followed more, e.problems⟩

theorem word_followed (read cs more : List Char) :
    word read (cs ++ '\n' :: more)
      = (word read cs).followed ('\n' :: more) := by
  unfold word
  induction cs generalizing read with
  | nil => rfl
  | cons c cs ih =>
    rw [List.cons_append, Reading.moveWhile, Reading.moveWhile]
    split
    · exact ih _
    · rfl

theorem number_followed (last : Char) (read cs more : List Char) :
    number last read (cs ++ '\n' :: more)
      = (number last read cs).followed ('\n' :: more) := by
  induction cs generalizing last read with
  | nil =>
    show number last read ('\n' :: more) = ⟨read, '\n' :: more⟩
    rw [number, if_neg (by decide), if_neg (by simp), if_neg (by simp)]
  | cons c cs ih =>
    have hnext : (cs ++ '\n' :: more).head?.any Char.isAlphanum
        = cs.head?.any Char.isAlphanum := by
      cases cs <;> rfl
    rw [List.cons_append, number, number, hnext]
    split
    · exact ih _ _
    · split
      · exact ih _ _
      · split
        · exact ih _ _
        · rfl

theorem body_followed {quote : Char} (joined : Bool) (read : List Char)
    (hquote : quote ≠ '\n') (h : EndsPlain cs) :
    body joined quote read (cs ++ '\n' :: more)
      = ((body joined quote read cs).1.followed ('\n' :: more),
        (body joined quote read cs).2) := by
  fun_induction body joined quote read cs with
  | case1 read =>
    rw [List.nil_append, body, if_neg (by simpa using hquote.symm),
      if_pos (by decide)]
    · rfl
    · exact fun _ h => absurd h (by decide)
    · exact fun _ _ h => absurd h (by decide)
  | case2 read cs hjoined ih =>
    simp only [List.cons_append]
    rw [body, if_pos hjoined, ih h.tail.tail.tail]
  | case3 read cs hjoined =>
    simp only [List.cons_append]
    rw [body, if_neg hjoined]
    rfl
  | case4 read c cs hpair hbreak =>
    simp only [List.cons_append]
    rw [body, if_pos hbreak]
    · rfl
    · exact h.tail.unpaired hpair
  | case5 read c cs hpair hbreak ih =>
    simp only [List.cons_append]
    rw [body, if_neg hbreak, ih h.tail.tail]
    exact h.tail.unpaired hpair
  | case6 read c cs hpair hjoin hc =>
    have hslash := h.unjoined hjoin
    rw [List.cons_append, body, if_pos hc]
    · rfl
    · exact fun _ h => absurd h hslash
    · exact fun _ _ h => absurd h hslash
  | case7 read c cs hpair hjoin hc hbreak =>
    have hslash := h.unjoined hjoin
    rw [List.cons_append, body, if_neg hc, if_pos hbreak]
    · rfl
    · exact fun _ h => absurd h hslash
    · exact fun _ _ h => absurd h hslash
  | case8 read c cs hpair hjoin hc hbreak ih =>
    have hslash := h.unjoined hjoin
    rw [List.cons_append, body, if_neg hc, if_neg hbreak, ih h.tail]
    · exact fun _ h => absurd h hslash
    · exact fun _ _ h => absurd h hslash

/-- A literal that is left open was left open by its line. -/
theorem quoted_followed {quote : Char} (read : List Char)
    (hquote : quote ≠ '\n') (h : EndsPlain cs)
    (hclosed : ∀ e ∈ (quoted quote read cs).problems,
      e.reachesOn = false) :
    quoted quote read (cs ++ '\n' :: more)
      = (quoted quote read cs).followed ('\n' :: more) := by
  unfold quoted at *
  rw [body_followed true read hquote h]
  generalize body true quote read cs = r at *
  obtain ⟨r, closed⟩ := r
  cases closed with
  | true =>
    dsimp only [Reading.followed]
    rw [word_followed]
    rfl
  | false =>
    dsimp only [leftOpen] at *
    split
    case isTrue hstring =>
      rw [if_pos hstring] at hclosed
      exact absurd (hclosed .openString (by simp)) nofun
    case isFalse => rfl

-- ============================================================ raw strings

/-- A character that does not belong to a delimiter ends it, and it takes a
parenthesis to make one of it. -/
theorem span_followed {p : Char → Bool} {stop : Char} (hp : p stop = false)
    (hstop : stop ≠ '(') (cs ds : List Char) :
    (cs ++ stop :: ds).takeWhile p = cs.takeWhile p
      ∧ (((cs ++ stop :: ds).dropWhile p).head? == some '(')
        = ((cs.dropWhile p).head? == some '(') := by
  induction cs with
  | nil => simp [hp, hstop]
  | cons c cs ih =>
    rw [List.cons_append, List.takeWhile_cons, List.takeWhile_cons,
      List.dropWhile_cons, List.dropWhile_cons]
    split
    · exact ⟨congrArg (c :: ·) ih.1, ih.2⟩
    · exact ⟨rfl, rfl⟩

theorem delimiter?_followed {stop : Char}
    (hstop : (stop == '"' || isSpace stop) = true) (cs more : List Char) :
    delimiter? (cs ++ stop :: more) = delimiter? cs := by
  have hparenthesis : stop ≠ '(' := by
    rintro rfl
    exact absurd hstop (by decide)
  unfold delimiter?
  by_cases hlength : maxDelimiter + 1 ≤ cs.length
  · rw [List.take_append_of_le_length hlength]
  · obtain ⟨k, hk⟩ : ∃ k, maxDelimiter + 1 - cs.length = k + 1 :=
      ⟨maxDelimiter - cs.length, by omega⟩
    rw [List.take_append, hk, List.take_succ_cons,
      List.take_of_length_le (by omega), List.span_eq_takeWhile_dropWhile,
      List.span_eq_takeWhile_dropWhile]
    obtain ⟨htake, hdrop⟩ := span_followed (p := fun c =>
      !(c == '(' || c == ')' || c == '\\' || c == '"' || isSpace c))
      (by simp only [Bool.or_assoc _ (_ == '"'), hstop, Bool.or_true,
        Bool.not_true]) hparenthesis cs (more.take k)
    dsimp only
    rw [htake, hdrop]

theorem through_length {closing read : List Char} {r : Reading}
    (h : through closing read cs = some r) :
    closing.length ≤ cs.length := by
  fun_induction through closing read cs with
  | case1 => cases h
  | case2 read c cs hleading =>
    exact (List.isPrefixOf_iff_prefix.1 hleading).length_le
  | case3 read c cs hleading ih => exact Nat.le_succ_of_le (ih h)

theorem through_followed {closing read : List Char} {r : Reading}
    (h : through closing read cs = some r) (more : List Char) :
    through closing read (cs ++ more) = some (r.followed more) := by
  fun_induction through closing read cs with
  | case1 => cases h
  | case2 read c cs hleading =>
    have hleading := List.isPrefixOf_iff_prefix.1 hleading
    have hlonger : closing.isPrefixOf (c :: (cs ++ more)) = true :=
      List.isPrefixOf_iff_prefix.2
        (hleading.trans (List.prefix_append (c :: cs) more))
    obtain rfl := Option.some.inj h
    rw [List.cons_append, through, if_pos hlonger, ← List.cons_append,
      List.drop_append_of_le_length hleading.length_le]
    rfl
  | case3 read c cs hleading ih =>
    have hlength := through_length h
    have hnot : ¬closing.isPrefixOf (c :: (cs ++ more)) = true := by
      intro hlonger
      refine hleading (List.isPrefixOf_iff_prefix.2 ?_)
      exact List.prefix_of_prefix_length_le
        (List.isPrefixOf_iff_prefix.1 hlonger)
        (List.prefix_append (c :: cs) more) (Nat.le_succ_of_le hlength)
    rw [List.cons_append, through, if_neg hnot, ih h]

theorem rawString_followed (read : List Char) (h : EndsPlain cs)
    (hclosed : ∀ e ∈ (rawString read cs).problems, e.reachesOn = false) :
    rawString read (cs ++ '\n' :: more)
      = (rawString read cs).followed ('\n' :: more) := by
  unfold rawString at *
  rw [delimiter?_followed (by decide), body_followed false read (by decide) h]
  cases hdelimiter : delimiter? cs with
  | some delimiter =>
    rw [hdelimiter] at hclosed
    dsimp only at *
    cases hthrough : through (')' :: delimiter ++ ['"']) read cs with
    | some r =>
      rw [through_followed hthrough]
      dsimp only [Reading.followed]
      rw [word_followed]
      rfl
    | none =>
      rw [hthrough] at hclosed
      exact absurd (hclosed .openRawString (by simp)) nofun
  | none =>
    rw [hdelimiter] at hclosed
    dsimp only at *
    generalize body false '"' read cs = r at *
    obtain ⟨r, closed⟩ := r
    cases closed with
    | true => rfl
    | false => exact absurd (hclosed .openString (by simp)) nofun

end Extent

-- ================================================================= trivia

namespace Trivia

theorem lineComment_followed (read : List Char) (h : EndsPlain cs) :
    lineComment read (cs ++ '\n' :: more)
      = (lineComment read cs).followed ('\n' :: more) := by
  fun_induction lineComment read cs with
  | case1 read =>
    show lineComment read ('\n' :: more) = ⟨read, '\n' :: more⟩
    rw [lineComment, if_pos (by decide)]
    · exact fun _ h => absurd h (by decide)
    · exact fun _ _ h => absurd h (by decide)
  | case2 read cs ih =>
    simp only [List.cons_append]
    rw [lineComment, ih h.tail.tail.tail]
  | case3 read c cs hpair hbreak ih =>
    simp only [List.cons_append]
    rw [lineComment, if_pos hbreak, ih h.tail.tail]
    exact h.tail.unpaired hpair
  | case4 read c cs hpair hbreak ih =>
    simp only [List.cons_append]
    rw [lineComment, if_neg hbreak, ← List.cons_append, ih h.tail]
    exact h.tail.unpaired hpair
  | case5 read c cs hpair hjoin hbreak =>
    have hslash := h.unjoined hjoin
    rw [List.cons_append, lineComment, if_pos hbreak]
    · rfl
    · exact fun _ h => absurd h hslash
    · exact fun _ _ h => absurd h hslash
  | case6 read c cs hpair hjoin hbreak ih =>
    have hslash := h.unjoined hjoin
    rw [List.cons_append, lineComment, if_neg hbreak, ih h.tail]
    · exact fun _ h => absurd h hslash
    · exact fun _ _ h => absurd h hslash

theorem blockComment_followed (read : List Char)
    (hclosed : (blockComment read cs).2 = true) :
    blockComment read (cs ++ '\n' :: more)
      = ((blockComment read cs).1.followed ('\n' :: more), true) := by
  fun_induction blockComment read cs with
  | case1 => cases hclosed
  | case2 => rfl
  | case3 read c cs hclose ih =>
    rw [List.cons_append, blockComment, ih hclosed]
    rintro ds rfl hds
    cases cs with
    | nil => exact absurd (List.cons.inj hds).1 (by decide)
    | cons d es =>
      obtain rfl := (List.cons.inj hds).1
      exact hclose es rfl rfl

/-- Blanks that go to the end of the text go on in the next line. -/
theorem blanks_followed (fresh : Bool) (read : List Char)
    (h : EndsPlain cs) : blanks fresh read (cs ++ '\n' :: more)
      = if (blanks fresh read cs).1.rest = [] then
          blanks true ('\n' :: (blanks fresh read cs).1.read) more
        else ((blanks fresh read cs).1.followed ('\n' :: more),
          (blanks fresh read cs).2) := by
  fun_induction blanks fresh read cs with
  | case1 fresh read =>
    rw [if_pos rfl, List.nil_append, blanks, if_pos (by decide)]
    · exact fun _ h => absurd h (by decide)
    · exact fun _ _ h => absurd h (by decide)
  | case2 fresh read cs ih =>
    simp only [List.cons_append]
    rw [blanks, ih h.tail.tail.tail]
  | case3 fresh read c cs hpair hbreak ih =>
    simp only [List.cons_append]
    rw [blanks, if_pos hbreak, ih h.tail.tail]
    exact h.tail.unpaired hpair
  | case4 fresh read c cs hpair hbreak =>
    simp only [List.cons_append]
    rw [blanks, if_neg hbreak, if_neg (by simp)]
    · rfl
    · exact h.tail.unpaired hpair
  | case5 fresh read c cs hpair hjoin hbreak ih =>
    have hslash := h.unjoined hjoin
    rw [List.cons_append, blanks, if_pos hbreak, ih h.tail]
    · exact fun _ h => absurd h hslash
    · exact fun _ _ h => absurd h hslash
  | case6 fresh read c cs hpair hjoin hbreak hblank ih =>
    have hslash := h.unjoined hjoin
    rw [List.cons_append, blanks, if_neg hbreak, if_pos hblank, ih h.tail]
    · exact fun _ h => absurd h hslash
    · exact fun _ _ h => absurd h hslash
  | case7 fresh read c cs hpair hjoin hbreak hblank =>
    have hslash := h.unjoined hjoin
    rw [List.cons_append, blanks, if_neg hbreak, if_neg hblank,
      if_neg (by simp)]
    · rfl
    · exact fun _ h => absurd h hslash
    · exact fun _ _ h => absurd h hslash

end Trivia

-- ============================================================= directives

namespace Directive

variable {mode mode' : Mode} {inNumber after : Bool} {read text : List Char}
  {c : Char} {swallow : Nat} {emit : Option Char}

/-- A move does not swallow more than there is. -/
theorem Move.swallow_le
    (h : Move inNumber read text mode c cs (.go mode' swallow emit after)) :
    swallow ≤ cs.length := by
  have one {d : Char} (hcs : cs.head? = some d) : 1 ≤ cs.length := by
    cases cs with
    | nil => cases hcs
    | cons d ds => simp
  cases h with
  | join hjoin =>
    simp only [joinsAt, Bool.and_eq_true] at hjoin
    unfold breakLength
    split
    · simp
    · cases cs with
      | nil => simp [startsBreak] at hjoin
      | cons d ds => simp
  | closeBlock hcs => exact one hcs
  | openLine hcs => exact one hcs
  | openBlock hcs => exact one hcs
  | _ => exact Nat.zero_le _

/-- The line feed behind a text does not matter to a step in it. -/
theorem step_followed (h : EndsPlain (c :: cs)) :
    step mode inNumber read text c (cs ++ '\n' :: more)
      = step mode inNumber read text c cs := by
  cases cs with
  | nil =>
    have hslash : (c == '\\') = false := by
      simpa using fun hc => h.slash (congrArg some hc)
    simp [step, plainStep, codeStep, hslash]
  | cons d ds =>
    refine step_congr rfl fun _ => ?_
    rw [List.cons_append, breakLength_cons, breakLength_cons]
    cases ds with
    | nil =>
      have hcarriage : d ≠ '\r' := by
        rintro rfl
        exact h.carriage rfl
      simp [hcarriage]
    | cons e es => rfl

/-- The scan with more text to come. -/
def Scan.followed (s : Scan) (more : List Char) : Scan :=
  ⟨s.reading.followed more, s.text, s.problem⟩

/-- A directive that is left open was left open by its line. -/
theorem scanFrom_followed (swallow : Nat) (mode : Mode) (inNumber : Bool)
    (read text cs : List Char) (h : EndsPlain cs)
    (hswallow : swallow ≤ cs.length)
    (hclosed : ∀ e, (scanFrom swallow mode inNumber read text cs).problem
      = some e → e.problem.reachesOn = false) :
    scanFrom swallow mode inNumber read text (cs ++ '\n' :: more)
      = (scanFrom swallow mode inNumber read text cs).followed
        ('\n' :: more) := by
  induction swallow, mode, inNumber, read, text, cs using run_induction with
  | done swallow mode inNumber read text =>
    obtain rfl : swallow = 0 := Nat.le_zero.1 hswallow
    have hstop : step mode inNumber read text '\n' more
        = .stop mode.atEnd := by
      cases mode with
      | code | lineComment => rfl
      | blockComment before => exact absurd (hclosed _ rfl) nofun
      | runaway before => exact absurd (hclosed _ rfl) nofun
      | literal quote escaped before =>
        by_cases hquote : quote = '"'
        · subst hquote
          exact absurd (hclosed _ rfl) nofun
        · rw [step, if_pos (by decide)]
          simp [breakStep, Mode.atEnd, hquote]
    rw [List.nil_append, scanFrom_stop hstop]
    rfl
  | skip swallow mode inNumber read text c cs ih =>
    rw [List.cons_append, scanFrom, scanFrom]
    exact ih h.tail (Nat.le_of_succ_le_succ hswallow) hclosed
  | stop mode inNumber read text c cs problem hst hmove =>
    rw [scanFrom_stop hst, List.cons_append,
      scanFrom_stop ((step_followed h).trans hst)]
    rfl
  | go mode inNumber read text c cs mode' swallow emit after hst hmove ih =>
    rw [scanFrom_go hst] at hclosed ⊢
    rw [List.cons_append, scanFrom_go ((step_followed h).trans hst)]
    exact ih h.tail hmove.swallow_le hclosed

theorem scan_followed (h : EndsPlain cs)
    (hclosed : ∀ e, (scan cs).problem = some e →
      e.problem.reachesOn = false) :
    scan (cs ++ '\n' :: more) = (scan cs).followed ('\n' :: more) :=
  scanFrom_followed 0 .code false [] [] cs h (Nat.zero_le _) hclosed

end Directive

-- ================================================================= pieces

namespace Piece

variable {c : Char}

/-- What opens a literal in front of a line feed opened it before. -/
theorem isPrefixOf_followed {opener : List Char}
    (hopener : ∀ d ∈ opener, (isBlank d || isBreak d) = false)
    (cs more : List Char) :
    opener.isPrefixOf (cs ++ '\n' :: more) = opener.isPrefixOf cs := by
  rw [Bool.eq_iff_iff, List.isPrefixOf_iff_prefix, List.isPrefixOf_iff_prefix]
  exact ⟨opener_within hopener rfl, fun h => h.trans (List.prefix_append ..)⟩

theorem symbol_followed (c : Char) (cs more : List Char) :
    symbol c (cs ++ '\n' :: more)
      = ((symbol c cs).1, (symbol c cs).2.followed ('\n' :: more)) := by
  unfold symbol
  rw [← List.cons_append, longestOperator_append (c :: cs) rfl]
  cases hop : Word.longestOperator (c :: cs) with
  | none => rfl
  | some op =>
    have hleading := List.find?_some hop
    have hlength := (List.isPrefixOf_iff_prefix.1 hleading).length_le
    dsimp only
    rw [List.drop_append_of_le_length hlength]
    rfl

theorem quoteOf_ne_break (kind : TokenKind) : quoteOf kind ≠ '\n' := by
  unfold quoteOf
  split <;> decide

theorem token_followed (h : EndsPlain (c :: cs))
    (hclosed : ∀ e ∈ (token c cs).2.problems, e.reachesOn = false) :
    token c (cs ++ '\n' :: more)
      = ((token c cs).1, (token c cs).2.followed ('\n' :: more)) := by
  have hraw : rawOpeners.find? (·.isPrefixOf (c :: (cs ++ '\n' :: more)))
      = rawOpeners.find? (·.isPrefixOf (c :: cs)) :=
    List.find?_congr fun opener hopener =>
      isPrefixOf_followed (rawOpeners_gap opener hopener) (c :: cs) more
  have hliteral : literalOpeners.find?
        (·.1.isPrefixOf (c :: (cs ++ '\n' :: more)))
      = literalOpeners.find? (·.1.isPrefixOf (c :: cs)) :=
    List.find?_congr fun opener hopener =>
      isPrefixOf_followed (literalOpeners_gap opener hopener) (c :: cs) more
  -- behind what opens a literal, there is the rest of the text
  have hdrop {opener : List Char}
      (hopener : opener.isPrefixOf (c :: cs) = true) :
      (c :: (cs ++ '\n' :: more)).drop opener.length
        = (c :: cs).drop opener.length ++ '\n' :: more := by
    rw [← List.cons_append]
    exact List.drop_append_of_le_length
      (List.isPrefixOf_iff_prefix.1 hopener).length_le
  have hends (n : Nat) : EndsPlain ((c :: cs).drop n) :=
    h.suffix (List.drop_suffix n _)
  have hdigit : (cs ++ '\n' :: more).head?.any Char.isDigit
      = cs.head?.any Char.isDigit := by
    cases cs <;> rfl
  unfold token at *
  rw [hraw, hliteral, hdigit]
  cases hfound : rawOpeners.find? (·.isPrefixOf (c :: cs)) with
  | some opener =>
    have hopener := List.find?_some hfound
    rw [hfound] at hclosed
    dsimp only at *
    rw [hdrop hopener, Extent.rawString_followed _ (hends _) hclosed]
  | none =>
    rw [hfound] at hclosed
    dsimp only at *
    cases hfound : literalOpeners.find? (·.1.isPrefixOf (c :: cs)) with
    | some p =>
      obtain ⟨opener, kind⟩ := p
      have hopener := List.find?_some hfound
      rw [hfound] at hclosed
      dsimp only at *
      rw [hdrop hopener, Extent.quoted_followed _ (quoteOf_ne_break kind)
        (hends _) hclosed]
    | none =>
      dsimp only
      split
      · rw [Extent.number_followed]
        rfl
      · split
        · rw [Extent.word_followed]
          rfl
        · exact symbol_followed c cs more

theorem startsBlank_followed (h : EndsPlain (c :: cs)) :
    startsBlank c (cs ++ '\n' :: more) = startsBlank c cs := by
  unfold startsBlank
  cases cs with
  | nil =>
    have hslash : (c == '\\') = false := by
      simpa using fun hc => h.slash (congrArg some hc)
    simp [hslash]
  | cons d ds => rfl

/-- What comes behind the first character is asked of the text alone. -/
theorem head?_followed {d : Char} (hd : d ≠ '\n') :
    ((cs ++ '\n' :: more).head? == some d) = (cs.head? == some d) := by
  cases cs with
  | nil => simpa using hd.symm
  | cons e es => rfl

theorem tail_followed {d : Char} (h : EndsPlain (c :: cs))
    (hd : (cs.head? == some d) = true) :
    (cs ++ '\n' :: more).tail = cs.tail ++ '\n' :: more
      ∧ EndsPlain cs.tail := by
  cases cs with
  | nil => cases hd
  | cons e es => exact ⟨rfl, h.tail.tail⟩

/-- Whether the first piece of a text is blank and all of it. -/
def IsBlankLine (fresh : Bool) (c : Char) (cs : List Char) : Prop :=
  startsBlank c cs = true ∧ (Trivia.blanks fresh [] (c :: cs)).1.rest = []

/-- The first piece of a text is the same in front of another line, unless
it is blank and goes on there. -/
theorem next_followed {fresh : Bool} (h : EndsPlain (c :: cs))
    (hclosed : ∀ e ∈ (next fresh c cs).piece.problems,
      e.problem.reachesOn = false)
    (hblank : ¬IsBlankLine fresh c cs) :
    next fresh c (cs ++ '\n' :: more)
      = ⟨(next fresh c cs).piece, (next fresh c cs).rest ++ '\n' :: more,
        (next fresh c cs).fresh⟩ := by
  unfold next at hclosed ⊢
  rw [startsBlank_followed h, head?_followed (by decide),
    head?_followed (by decide)]
  split
  case isTrue hstarts =>
    have hrest : (Trivia.blanks fresh [] (c :: cs)).1.rest ≠ [] :=
      fun hrest => hblank ⟨hstarts, hrest⟩
    rw [← List.cons_append, Trivia.blanks_followed fresh [] h,
      if_neg hrest]
    rfl
  case isFalse hstarts =>
    rw [if_neg hstarts] at hclosed
    split
    case isTrue hline =>
      simp only [Bool.and_eq_true] at hline
      obtain ⟨hmore, hends⟩ := tail_followed h hline.2
      rw [hmore, Trivia.lineComment_followed _ hends]
      rfl
    case isFalse hline =>
      rw [if_neg hline] at hclosed
      split
      case isTrue hblock =>
        simp only [Bool.and_eq_true] at hblock
        rw [if_pos (by simpa using hblock)] at hclosed
        obtain ⟨hmore, -⟩ := tail_followed h hblock.2
        have hcomment : (Trivia.blockComment ['*', '/'] cs.tail).2 = true := by
          by_contra hopen
          rw [Bool.not_eq_true] at hopen
          have := hclosed ⟨.openComment, []⟩ (by simp [cut, hopen])
          cases this
        rw [hmore, Trivia.blockComment_followed _ hcomment]
        dsimp only
        rw [hcomment]
        rfl
      case isFalse hblock =>
        rw [if_neg hblock] at hclosed
        split
        case isTrue hmark =>
          rw [if_pos hmark] at hclosed
          have hscan : Directive.scan (c :: cs ++ '\n' :: more) = _ :=
            Directive.scan_followed h fun e he =>
              hclosed e (by simp [ofScan, he])
          rw [← List.cons_append, hscan]
          rfl
        case isFalse hmark =>
          rw [if_neg hmark] at hclosed
          have htoken : token c (cs ++ '\n' :: more) = _ :=
            token_followed h fun e he =>
              hclosed ⟨e, []⟩ (List.mem_map_of_mem he)
          rw [htoken]
          rfl

end Piece

end FrontEnd
