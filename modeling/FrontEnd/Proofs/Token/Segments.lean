/-
Directives as they are written: a `#`, segments behind it, and a line
comment at the end if there is one. A segment is a character that stands
for itself, a block comment, a joined line break or a closed literal. Each
has the characters that it is written in (`Segment.text`) and those that the
directive keeps of it (`Segment.kept`).

What a segment may be depends on the text around it, as a slash does that
stands in front of another one (`Segment.Fits`). Where all of them fit, the
scan is in code in front of every segment and behind it, whatever it was
(`scanFrom_segment`). The one thing it carries along is whether a quote would
separate digits, and it would only behind a part of a number (`Settled`).
-/
import FrontEnd.Proofs.Token.OneLine
import FrontEnd.Proofs.Token.Emission

namespace FrontEnd

open Text

namespace Directive

-- =============================================================== segments

/-- A line break, and all of it: the two characters of one are not taken
apart. -/
structure IsEnding (ending behind : List Char) : Prop where
  written : ending ∈ [['\n'], ['\r', '\n'], ['\r']]
  whole : ending = ['\r'] → behind.head? ≠ some '\n'

/-- What a directive is written in behind its mark. -/
inductive Segment where
  | char (c : Char)
  /-- A block comment around some text. -/
  | comment (body : List Char)
  /-- A backslash with a line break behind it. -/
  | join (ending : List Char)
  /-- Some text between two quotes. -/
  | literal (quote : Char) (body : List Char)
deriving DecidableEq, Repr

namespace Segment

/-- The characters of the segment. -/
def text : Segment → List Char
  | char c => [c]
  | comment body => '/' :: '*' :: (body ++ ['*', '/'])
  | join ending => '\\' :: ending
  | literal quote body => quote :: (body ++ [quote])

/-- What a directive keeps of the segment. -/
def kept : Segment → List Char
  | char c => [c]
  | comment _ => []
  | join _ => [' ']
  | literal quote body => quote :: (body ++ [quote])

/-- Whether the segment is what it says where it stands: behind `before`,
as far as that is kept, and in front of the text `behind`. -/
def Fits (before behind : List Char) : Segment → Prop
  | char c => c ≠ '"' ∧ c ≠ '\'' ∧ isBreak c = false
    ∧ (c = '/' → behind.head? ≠ some '/' ∧ behind.head? ≠ some '*')
    ∧ (c = '\\' → startsBreak behind = false)
  | comment body => ¬['*', '/'] <:+: body
  | join ending => IsEnding ending behind
  | literal quote body => OneLine body ∧ QuotedBody quote body
    ∧ (quote = '"'
      ∨ quote = '\'' ∧ before.getLast?.any isNumberPart = false)

/-- Whether all of some segments fit where they stand. -/
def AllFit (before : List Char) : List Segment → List Char → Prop
  | [], _ => True
  | s :: ss, behind => s.Fits before (ss.flatMap text ++ behind)
    ∧ AllFit (before ++ s.kept) ss behind

end Segment

/-- The rest of a line comment in front of a text. Its lines are joined. -/
inductive CommentLine (behind : List Char) : List Char → Prop
  | nil : CommentLine behind []
  | char {c : Char} {cs : List Char} (hc : isBreak c = false)
      (hjoin : c = '\\' → startsBreak (cs ++ behind) = false)
      (h : CommentLine behind cs) : CommentLine behind (c :: cs)
  | join {ending cs : List Char} (hending : IsEnding ending (cs ++ behind))
      (h : CommentLine behind cs) :
      CommentLine behind ('\\' :: (ending ++ cs))

/-- A directive as it is written. -/
structure Writing where
  segments : List Segment
  /-- What stands behind the slashes of a line comment. -/
  comment : Option (List Char)

namespace Writing

/-- The line comment with its slashes, if there is one. -/
def tail (w : Writing) : List Char :=
  w.comment.elim [] fun body => '/' :: '/' :: body

/-- The characters of the directive. -/
def text (w : Writing) : List Char :=
  '#' :: (w.segments.flatMap Segment.text ++ w.tail)

/-- What the directive keeps. -/
def kept (w : Writing) : List Char :=
  '#' :: w.segments.flatMap Segment.kept

/-- Whether the directive ends in front of the text `behind`, and all that
it is written in is what it says. -/
structure Fits (w : Writing) (behind : List Char) : Prop where
  segments : Segment.AllFit ['#'] w.segments (w.tail ++ behind)
  comment : ∀ body ∈ w.comment, CommentLine behind body
  ends : behind = [] ∨ startsBreak behind = true

end Writing

-- ======================================================= one at a time

variable {inNumber : Bool} {read text : List Char} {c : Char}
  {behind : List Char}

/-- A joined break is read as a whole. -/
theorem scanFrom_join {mode : Mode} {ending : List Char}
    (hending : IsEnding ending behind) (hmode : mode.joins = true)
    (inNumber : Bool) (read text : List Char) :
    scanFrom 0 mode inNumber read text ('\\' :: (ending ++ behind))
      = scanFrom 0 mode false (('\\' :: ending).reverse ++ read)
        ((if mode = .lineComment then [] else [' ']) ++ text) behind := by
  obtain ⟨hwritten, hwhole⟩ := hending
  have hstarts : startsBreak (ending ++ behind) = true := by
    simp only [List.mem_cons, List.not_mem_nil, or_false] at hwritten
    rcases hwritten with rfl | rfl | rfl <;> rfl
  have hlength : breakLength (ending ++ behind) = ending.length := by
    simp only [List.mem_cons, List.not_mem_nil, or_false] at hwritten
    rcases hwritten with rfl | rfl | rfl
    · rfl
    · rfl
    · rw [List.singleton_append, breakLength_cons, if_neg]
      · rfl
      · exact fun h => hwhole rfl h.2
  have hjoin : joinsAt mode '\\' (ending ++ behind) = true := by
    simp [joinsAt, hstarts, hmode]
  rw [scanFrom_go (Move.join hjoin).step_eq, hlength, scanFrom_swallow]
  by_cases hline : mode = .lineComment
  · simp [hline]
  · simp [hline]

/-- A block comment is read through the first mark that closes it. -/
theorem scanFrom_comment {body : List Char} (h : ¬['*', '/'] <:+: body)
    (before : List Char) (inNumber : Bool) (read text : List Char) :
    scanFrom 0 (.blockComment before) inNumber read text
        (body ++ '*' :: '/' :: behind)
      = scanFrom 0 .code inNumber ((body ++ ['*', '/']).reverse ++ read)
        text behind := by
  induction body generalizing read with
  | nil =>
    rw [List.nil_append, scanFrom_go (Move.closeBlock rfl).step_eq]
    rfl
  | cons c body ih =>
    have hopen : ¬(c = '*'
        ∧ (body ++ '*' :: '/' :: behind).head? = some '/') := by
      rintro ⟨rfl, hhead⟩
      cases body with
      | nil => exact absurd (Option.some.inj hhead) (by decide)
      | cons d body =>
        obtain rfl : d = '/' := Option.some.inj hhead
        exact h ⟨[], body, rfl⟩
    rw [List.cons_append, scanFrom_go (Move.skipBlock hopen).step_eq,
      Option.toList_none, List.nil_append,
      ih fun hbody => h (hbody.trans (List.suffix_cons c body).isInfix)]
    simp

/-- A literal in a line is copied through the quote that closes it. -/
theorem scanFrom_quoted {quote : Char} {body : List Char}
    (hbody : QuotedBody quote body) (hline : OneLine body)
    (hquote : isBreak quote = false) (hslash : quote ≠ '\\')
    (before : List Char) (inNumber : Bool) (read text : List Char) :
    scanFrom 0 (.literal quote false before) inNumber read text
        (body ++ quote :: behind)
      = scanFrom 0 .code inNumber ((body ++ [quote]).reverse ++ read)
        ((body ++ [quote]).reverse ++ text) behind := by
  have hnext {body : List Char} (hline : OneLine body) :
      startsBreak (body ++ quote :: behind) = false := by
    cases body with
    | nil => exact hquote
    | cons c body => exact hline.head
  induction hbody generalizing read text with
  | nil =>
    rw [List.nil_append,
      scanFrom_go (Move.closeLiteral hquote hslash).step_eq]
    rfl
  | @char c body hc hplain hbreak _ ih =>
    rw [List.cons_append,
      scanFrom_go (Move.insideLiteral hbreak hplain hc).step_eq,
      Option.toList_some, List.singleton_append, ih hline.tail]
    simp
  | @escape c body _ ih =>
    have hjoin : joinsAt (.literal quote true before) c
        (body ++ quote :: behind) = false := by
      simp [joinsAt, hnext hline.tail.tail]
    have hplain : startsBreak (c :: (body ++ quote :: behind)) = false :=
      hline.tail.head
    rw [List.cons_append, List.cons_append,
      scanFrom_go (Move.escape hplain).step_eq,
      scanFrom_go (Move.escaped hline.tail.head hjoin).step_eq,
      Option.toList_some, Option.toList_some, List.singleton_append,
      List.singleton_append, ih hline.tail.tail]
    simp
  | joinedPair => exact absurd hline.tail.head (by decide)

/-- A line comment leaves nothing, however many lines are joined to it. -/
theorem scanFrom_commentLine {body : List Char}
    (h : CommentLine behind body) (inNumber : Bool)
    (read text : List Char) : ∃ inNumber',
    scanFrom 0 .lineComment inNumber read text (body ++ behind)
      = scanFrom 0 .lineComment inNumber' (body.reverse ++ read) text
        behind := by
  induction h generalizing inNumber read with
  | nil => exact ⟨inNumber, rfl⟩
  | @char c cs hc hjoin _ ih =>
    have hplain : joinsAt .lineComment c (cs ++ behind) = false := by
      by_cases hslash : c = '\\'
      · simp [joinsAt, hjoin hslash]
      · simp [joinsAt, hslash]
    obtain ⟨inNumber', h⟩ := ih inNumber (c :: read)
    refine ⟨inNumber', ?_⟩
    rw [List.cons_append, scanFrom_go (Move.skipLine hc hplain).step_eq,
      Option.toList_none, List.nil_append, h]
    simp
  | @join ending cs hending _ ih =>
    obtain ⟨inNumber', h⟩ := ih false (('\\' :: ending).reverse ++ read)
    refine ⟨inNumber', ?_⟩
    rw [List.cons_append, List.append_assoc, scanFrom_join hending rfl,
      if_pos rfl, List.nil_append, h]
    simp

-- ================================================== the run over segments

/-- The scan in code in front of some text and, behind it, in code again. -/
structure Passes (inNumber : Bool) (read text written kept behind : List Char)
    (inNumber' : Bool) : Prop where
  scan : scanFrom 0 .code inNumber read text (written ++ behind)
    = scanFrom 0 .code inNumber' (written.reverse ++ read)
      (kept.reverse ++ text) behind
  settled : Settled inNumber' (kept.reverse ++ text)

theorem settled_false (text : List Char) : Settled false text :=
  fun h => absurd h Bool.false_ne_true

/-- A segment that fits is passed. -/
theorem scanFrom_segment {s : Segment} (hfits : s.Fits text.reverse behind)
    (hsettled : Settled inNumber text) (read : List Char) :
    ∃ inNumber', Passes inNumber read text s.text s.kept behind inNumber' := by
  cases s with
  | char c =>
    obtain ⟨hstring, hcharacter, hbreak, hslash, hback⟩ := hfits
    have hjoin : joinsAt .code c behind = false := by
      by_cases hc : c = '\\'
      · simp [joinsAt, hback hc]
      · simp [joinsAt, hc]
    have hcomment : opensComment c behind = false := by
      by_cases hc : c = '/'
      · simp [opensComment, hslash hc]
      · simp [opensComment, hc]
    have hliteral : opensLiteral inNumber c behind = false := by
      simp [opensLiteral, hstring, hcharacter]
    exact ⟨_, scanFrom_go
        (Move.plain hbreak hjoin hcomment hliteral).step_eq,
      settled_after inNumber text hcharacter⟩
  | comment body =>
    refine ⟨inNumber, ?_, hsettled⟩
    rw [Segment.text, List.cons_append, List.cons_append, List.append_assoc,
      scanFrom_go (Move.openBlock rfl).step_eq]
    have hcomment : scanFrom 0 (.blockComment read) inNumber
        ('*' :: '/' :: read) text (body ++ '*' :: '/' :: behind) = _ :=
      scanFrom_comment hfits read inNumber ('*' :: '/' :: read) text
    simpa [scanFrom, Segment.kept] using hcomment
  | join ending =>
    refine ⟨false, ?_, settled_false _⟩
    rw [Segment.text, List.cons_append, scanFrom_join hfits rfl]
    rfl
  | literal quote body =>
    obtain ⟨hline, hbody, hquote⟩ := hfits
    have hplain : isBreak quote = false ∧ quote ≠ '\\' := by
      rcases hquote with rfl | ⟨rfl, -⟩ <;> decide
    have hopens : opensLiteral inNumber quote
        (body ++ [quote] ++ behind) = true := by
      rcases hquote with rfl | ⟨rfl, hlast⟩
      · rfl
      · -- behind a part of a number the quote would separate digits
        rw [List.getLast?_reverse] at hlast
        cases inNumber with
        | false => simp [opensLiteral]
        | true => exact absurd (hsettled rfl) (by simp [hlast])
    refine ⟨false, ?_, settled_false _⟩
    rw [Segment.text, List.cons_append,
      scanFrom_go (Move.openLiteral hopens).step_eq, List.append_assoc,
      List.singleton_append, scanFrom_quoted hbody hline hplain.1 hplain.2]
    simp [Segment.kept]

/-- Segments that fit are passed one after the other. -/
theorem scanFrom_segments {ss : List Segment}
    (hfits : Segment.AllFit text.reverse ss behind)
    (hsettled : Settled inNumber text) (read : List Char) :
    ∃ inNumber', Passes inNumber read text (ss.flatMap Segment.text)
      (ss.flatMap Segment.kept) behind inNumber' := by
  induction ss generalizing inNumber read text with
  | nil => exact ⟨inNumber, rfl, hsettled⟩
  | cons s ss ih =>
    obtain ⟨hfirst, hothers⟩ := hfits
    obtain ⟨after, hscan, hsettled⟩ := scanFrom_segment hfirst hsettled read
    have hothers : Segment.AllFit (s.kept.reverse ++ text).reverse ss
        behind := by
      simpa using hothers
    obtain ⟨inNumber', hscan', hsettled'⟩ := ih hothers hsettled
      (s.text.reverse ++ read)
    refine ⟨inNumber', ?_, by simpa using hsettled'⟩
    rw [List.flatMap_cons, List.append_assoc, hscan, hscan']
    simp

-- ============================================================ directives

/-- In front of a break, or of the end of the text, a directive ends. -/
theorem scanFrom_end {mode : Mode} (hmode : mode = .code ∨ mode = .lineComment)
    (hends : behind = [] ∨ startsBreak behind = true) :
    scanFrom 0 mode inNumber read text behind
      = ⟨⟨read, behind⟩, text, none⟩ := by
  cases behind with
  | nil => rcases hmode with rfl | rfl <;> rfl
  | cons c cs =>
    have hc : isBreak c = true := hends.resolve_left nofun
    rw [scanFrom_stop (Move.lineEnd hmode hc).step_eq]

/-- A directive that is written in segments is read as that. -/
theorem scan_writing {w : Writing} (h : w.Fits behind) :
    scan (w.text ++ behind)
      = ⟨⟨w.text.reverse, behind⟩, w.kept.reverse, none⟩ := by
  have hmark : Segment.Fits [] (w.segments.flatMap Segment.text
      ++ (w.tail ++ behind)) (.char '#') :=
    ⟨by decide, by decide, by decide, nofun, nofun⟩
  have hfits : Segment.AllFit ([] : List Char).reverse
      (.char '#' :: w.segments) (w.tail ++ behind) := ⟨hmark, h.segments⟩
  obtain ⟨inNumber, hpasses⟩ := scanFrom_segments hfits (settled_false []) []
  have hscan := hpasses.scan
  rw [List.append_nil, List.append_nil] at hscan
  have htext : w.text ++ behind = (Segment.char '#' :: w.segments).flatMap
      Segment.text ++ (w.tail ++ behind) := by
    simp [Writing.text, Segment.text]
  rw [scan, htext, hscan]
  show scanFrom 0 .code inNumber _ w.kept.reverse _ = _
  cases hcomment : w.comment with
  | none =>
    have htail : w.tail = [] := by rw [Writing.tail, hcomment]; rfl
    rw [htail, List.nil_append, scanFrom_end (.inl rfl) h.ends]
    simp [Writing.text, htail, Segment.text]
  | some body =>
    have htail : w.tail = '/' :: '/' :: body := by
      rw [Writing.tail, hcomment]
      rfl
    have hbody := h.comment body hcomment
    rw [htail, List.cons_append, List.cons_append,
      scanFrom_go (Move.openLine rfl).step_eq]
    show scanFrom 0 .lineComment inNumber _ w.kept.reverse _ = _
    obtain ⟨inNumber', hline⟩ := scanFrom_commentLine hbody inNumber
      ('/' :: '/' :: ((Segment.char '#' :: w.segments).flatMap
        Segment.text).reverse) w.kept.reverse
    rw [hline, scanFrom_end (.inr rfl) h.ends]
    simp [Writing.text, htail, Segment.text]

/-- Behind a text comes what follows it. -/
theorem dropBytes_byteSize (front cs : List Char) :
    dropBytes (byteSize front) (front ++ cs) = cs := by
  induction front with
  | nil => cases cs <;> rfl
  | cons c front ih =>
    have hsize : byteSize (c :: front) = c.utf8Size + byteSize front := by
      rw [← List.singleton_append, byteSize_append]
      simp [byteSize]
    have hpos := c.utf8Size_pos
    rw [hsize, List.cons_append, dropBytes, Nat.add_sub_cancel_left, ih]
    omega

/-- A directive that is written in segments, anywhere in a text, has no
error, spans what was written, and keeps what the segments keep. -/
theorem readAt_written (front : List Char) (location : Location)
    {w : Writing} (h : w.Fits behind) :
    readAt (front ++ (w.text ++ behind)) (byteSize front) location
      = { line := ⟨String.ofList (trimEnd w.kept), location.line,
            location.line + lineBreaks w.text⟩
          span := ⟨byteSize front, byteSize front + byteSize w.text⟩
          stop := location.after w.text
          error := none } := by
  have hscan := scan_writing h
  simp only [readAt, dropBytes_byteSize, hscan, PlacedPiece.span,
    PlacedPiece.stop, Place.after, PlacedPiece.errors, Piece.ofScan,
    Reading.taken, List.reverse_reverse, Scan.line, Location.after_eq]
  rfl

/-- A quote in a comment, an opening of a comment and an escaped quote in a
string, a comment at the end that is joined to another line: the directive
in the second line of a text ends in the fifth one. -/
theorem readAt_written_mixed :
    let w : Writing := ⟨[.char 'A', .comment ['"', '\n'],
      .join ['\r', '\n'], .literal '"' ['/', '*', '\\', '"'],
      .literal '\'' ['b'], .char ' '], some ['\'', '\\', '\n', 'c']⟩
    w.Fits ['\n']
      ∧ readAt ("x\n".toList ++ (w.text ++ ['\n'])) 2 ⟨2, 1⟩
        = { line := ⟨"#A \"/*\\\"\"'b'", 2, 5⟩
            span := ⟨2, 29⟩
            stop := ⟨5, 2⟩
            error := none } := by
  intro w
  have hstring : QuotedBody '"' ['/', '*', '\\', '"'] :=
    .char (by decide) (by decide) (by decide) (.char (by decide) (by decide)
      (by decide) (.escape .nil))
  have hcharacter : QuotedBody '\'' ['b'] :=
    .char (by decide) (by decide) (by decide) .nil
  have hline {cs : List Char} (h : cs.all (!isBreak ·) = true) :
      OneLine cs := by
    simpa [OneLine] using h
  have hfits : w.Fits ['\n'] := by
    refine ⟨⟨?_, ?_, ?_, ?_, ?_, ?_, trivial⟩, ?_, .inr rfl⟩
    · exact ⟨by decide, by decide, by decide, nofun, nofun⟩
    · exact (by decide : ¬['*', '/'] <:+: ['"', '\n'])
    · exact ⟨by decide, nofun⟩
    · exact ⟨hline rfl, hstring, .inl rfl⟩
    · exact ⟨hline rfl, hcharacter, .inr ⟨rfl, rfl⟩⟩
    · exact ⟨by decide, by decide, by decide, nofun, nofun⟩
    · intro body hbody
      obtain rfl := Option.some.inj hbody
      have hending : IsEnding ['\n'] (['c'] ++ ['\n']) := ⟨by decide, nofun⟩
      exact .char (by decide) nofun
        (.join hending (.char (by decide) nofun .nil))
  have hread := readAt_written "x\n".toList ⟨2, 1⟩ hfits
  have hkept : String.ofList (trimEnd w.kept) = "#A \"/*\\\"\"'b'" := by
    decide
  have hbreaks : lineBreaks w.text = 3 := by decide
  have hsize : byteSize w.text = 27 := by decide
  have hstop : (⟨2, 1⟩ : Location).after w.text = ⟨5, 2⟩ := by decide
  rw [hkept, hbreaks, hsize, hstop] at hread
  exact ⟨hfits, hread⟩

end Directive

end FrontEnd
