/-
A line of text as it is read by itself and in a directive. Without breaks
most scanners are simple: words and blanks are what a class of characters
takes (`moveWhile_eq`), a line comment is the rest of the line, and the scan
of a directive does not end before the line does.

The rest says what the scan does in code: plain characters are emitted
(`scanFrom_run`), a number without signs is emitted with its separators
(`scanFrom_number`), and literals and comments end for the scan where they
end by themselves (`scanFrom_literal`, `scanFrom_blockComment`).
-/
import FrontEnd.Proofs.Token.Followed
import FrontEnd.Proofs.Spelling.Layout

namespace FrontEnd

open Text

-- ================================================================= a line

/-- A text without line breaks. -/
def OneLine (cs : List Char) : Prop :=
  ∀ c ∈ cs, isBreak c = false

theorem OneLine.tail {c : Char} {cs : List Char} (h : OneLine (c :: cs)) :
    OneLine cs :=
  fun d hd => h d (List.mem_cons_of_mem c hd)

theorem OneLine.head {c : Char} {cs : List Char} (h : OneLine (c :: cs)) :
    isBreak c = false :=
  h c List.mem_cons_self

theorem OneLine.suffix {cs ds : List Char} (h : OneLine cs)
    (hds : ds <:+ cs) : OneLine ds :=
  fun d hd => h d (hds.subset hd)

theorem OneLine.startsBreak {cs : List Char} (h : OneLine cs) :
    startsBreak cs = false := by
  cases cs with
  | nil => rfl
  | cons c cs => exact h.head

/-- Characters that a class tells apart. -/
theorem ne_of_class {p : Char → Bool} {c d : Char} (hc : p c = true)
    (hd : p d = false) : c ≠ d := by
  rintro rfl
  rw [hd] at hc
  cases hc

-- ======================================================= a line by itself

theorem Text.Reading.moveWhile_eq (p : Char → Bool) (read cs : List Char) :
    Reading.moveWhile p read cs
      = ⟨(cs.takeWhile p).reverse ++ read, cs.dropWhile p⟩ := by
  induction cs generalizing read with
  | nil => rfl
  | cons c cs ih =>
    rw [Reading.moveWhile, List.takeWhile_cons, List.dropWhile_cons]
    split
    · rw [ih, List.reverse_cons, List.append_assoc]
      rfl
    · rfl

/-- The blanks of a line begin no other line. -/
theorem Trivia.blanks_oneLine {cs : List Char} (fresh : Bool)
    (read : List Char) (h : OneLine cs) :
    blanks fresh read cs = (Reading.moveWhile isBlank read cs, fresh) := by
  induction cs generalizing read with
  | nil => rfl
  | cons c cs ih =>
    by_cases hslash : c = '\\'
    · subst hslash
      rw [blanks_stop]
      · rfl
      · rintro d ds hd
        obtain ⟨rfl, rfl⟩ := List.cons.inj hd
        simp [Piece.startsBlank, h.tail.startsBreak, isBlank, isBreak]
    · rw [blanks, if_neg (by simp [h.head]), Reading.moveWhile]
      · split
        · exact ih _ h.tail
        · rfl
      · exact fun _ h => absurd h hslash
      · exact fun _ _ h => absurd h hslash

/-- A line comment goes on to the end of the line. -/
theorem Trivia.lineComment_oneLine {cs : List Char} (read : List Char)
    (h : OneLine cs) : (lineComment read cs).rest = [] := by
  fun_induction lineComment read cs with
  | case1 => rfl
  | case2 => exact absurd h.tail.head (by decide)
  | case3 _ _ _ _ hbreak =>
    rw [h.tail.head] at hbreak
    cases hbreak
  | case4 _ _ _ _ _ ih => exact ih h.tail
  | case5 _ _ _ _ _ hbreak =>
    rw [h.head] at hbreak
    cases hbreak
  | case6 _ _ _ _ _ _ ih => exact ih h.tail

/-- A literal that is closed ends with its quote. -/
theorem Extent.body_closed {joined : Bool} {quote : Char}
    {read cs : List Char} (h : (body joined quote read cs).2 = true) :
    ∃ text, (body joined quote read cs).1.read
        = quote :: (text.reverse ++ read)
      ∧ cs = text ++ quote :: (body joined quote read cs).1.rest := by
  fun_induction body joined quote read cs with
  | case1 | case3 | case4 | case7 => cases h
  | case2 read cs hjoined ih =>
    obtain ⟨text, hread, hcs⟩ := ih h
    exact ⟨'\\' :: '\r' :: '\n' :: text, by simpa using hread, by
      rw [List.cons_append, List.cons_append, List.cons_append, ← hcs]⟩
  | case5 read c cs hpair hbreak ih =>
    obtain ⟨text, hread, hcs⟩ := ih h
    exact ⟨'\\' :: c :: text, by simpa using hread, by
      rw [List.cons_append, List.cons_append, ← hcs]⟩
  | case6 read c cs hpair hjoin hc =>
    obtain rfl : c = quote := by simpa using hc
    exact ⟨[], rfl, rfl⟩
  | case8 read c cs hpair hjoin hc hbreak ih =>
    obtain ⟨text, hread, hcs⟩ := ih h
    exact ⟨c :: text, by simpa using hread, by
      rw [List.cons_append, ← hcs]⟩

theorem Extent.through_closed (opening : List Char)
    {read cs : List Char} {r : Reading} (h : through (opening ++ ['"']) read cs = some r) :
    ∃ text, r.read = '"' :: (text.reverse ++ read)
      ∧ cs = text ++ '"' :: r.rest := by
  generalize hclosing : opening ++ ['"'] = closing at h
  fun_induction through closing read cs with
  | case1 => cases h
  | case2 read c cs hleading =>
    obtain ⟨rest, hcs⟩ := List.isPrefixOf_iff_prefix.1 hleading
    obtain rfl := Option.some.inj h
    refine ⟨opening, ?_, ?_⟩
    · simp [← hclosing, List.reverseAux_eq]
    · rw [← hcs, List.drop_left, ← hclosing, List.append_assoc]
      rfl
  | case3 read c cs hleading ih =>
    obtain ⟨text, hread, hcs⟩ := ih h
    exact ⟨c :: text, by simpa using hread, by
      rw [List.cons_append, ← hcs]⟩

/-- What a number goes on with is what it may go on with. -/
theorem Extent.number_tail (last : Char) (read cs : List Char) :
    ∃ tail, NumberTail last tail
      ∧ (number last read cs).read = tail.reverse ++ read
      ∧ cs = tail ++ (number last read cs).rest := by
  cases cs with
  | nil => exact ⟨[], .nil, rfl, rfl⟩
  | cons c cs =>
    rw [number]
    split
    case isTrue hc =>
      obtain ⟨tail, htail, hread, hrest⟩ := number_tail c (c :: read) cs
      refine ⟨c :: tail, .part (by simpa [or_assoc] using hc) htail, ?_, ?_⟩
      · simp [hread]
      · rw [List.cons_append, ← hrest]
    case isFalse =>
      split
      case isTrue hsign =>
        simp only [Bool.and_eq_true, Bool.or_eq_true, beq_iff_eq] at hsign
        obtain ⟨tail, htail, hread, hrest⟩ := number_tail c (c :: read) cs
        refine ⟨c :: tail, .sign hsign.1 (by simp; tauto) htail, ?_, ?_⟩
        · simp [hread]
        · rw [List.cons_append, ← hrest]
      case isFalse =>
        split
        case isTrue hseparator =>
          simp only [Bool.and_eq_true, beq_iff_eq] at hseparator
          obtain ⟨⟨rfl, hlast⟩, hd⟩ := hseparator
          cases cs with
          | nil => cases hd
          | cons d ds =>
            have hd : d.isAlphanum = true := hd
            obtain ⟨tail, htail, hread, hrest⟩ :=
              number_tail d (d :: '\'' :: read) ds
            rw [number, if_pos (by simp [hd])]
            refine ⟨'\'' :: d :: tail, .separator hlast hd htail, ?_, ?_⟩
            · simp [hread]
            · rw [List.cons_append, List.cons_append, ← hrest]
        case isFalse => exact ⟨[], .nil, rfl, rfl⟩
termination_by cs.length

/-- Characters that end and escape nothing are some of a literal. -/
theorem QuotedBody.of_forall {quote : Char} {cs : List Char}
    (h : ∀ c ∈ cs, c ≠ quote ∧ c ≠ '\\' ∧ isBreak c = false) :
    QuotedBody quote cs := by
  induction cs with
  | nil => exact .nil
  | cons c cs ih =>
    rw [List.forall_mem_cons] at h
    exact .char h.1.1 h.1.2.1 h.1.2.2 (ih h.2)

namespace Directive

variable {inNumber : Bool} {read text : List Char} {c : Char}
  {cs : List Char}

-- ================================================= a line in a directive

/-- Characters of code that neither open nor separate anything. -/
def isPlain (c : Char) : Bool :=
  !(isBreak c || c == '/' || c == '"' || c == '\'')

/-- Characters of a class that has none of these in it are plain. -/
theorem isPlain_of {p : Char → Bool}
    (hp : ['\n', '\r', '/', '"', '\''].any p = false)
    (hc : p c = true) : isPlain c = true := by
  have hne (d : Char) (hd : d ∈ ['\n', '\r', '/', '"', '\'']) : c ≠ d :=
    ne_of_class hc (by simpa using List.any_eq_false.1 hp d hd)
  simp [isPlain, isBreak, hne]

/-- A line has no lines to join. -/
theorem joinsAt_line {mode : Mode} (h : OneLine cs) :
    joinsAt mode c cs = false := by
  rw [joinsAt, h.startsBreak, Bool.and_false, Bool.false_and]

theorem scanFrom_plain (read text : List Char) (hline : OneLine (c :: cs))
    (hcomment : opensComment c cs = false)
    (hliteral : opensLiteral inNumber c cs = false) :
    scanFrom 0 .code inNumber read text (c :: cs)
      = scanFrom 0 .code (numberAfter inNumber text c) (c :: read)
        (c :: text) cs :=
  scanFrom_go (Move.plain hline.head (joinsAt_line hline.tail) hcomment
    hliteral).step_eq

/-- Whether the emitted text ends inside a number when a run of plain
characters is added to it. -/
def numberBehind (inNumber : Bool) (text : List Char) : List Char → Bool
  | [] => inNumber
  | c :: run => numberBehind (numberAfter inNumber text c) (c :: text) run

/-- A run of plain characters is emitted as it is. -/
theorem scanFrom_run (inNumber : Bool) (read text : List Char)
    {run : List Char} (hline : OneLine (run ++ cs))
    (hrun : ∀ c ∈ run, isPlain c = true) :
    scanFrom 0 .code inNumber read text (run ++ cs)
      = scanFrom 0 .code (numberBehind inNumber text run)
        (run.reverse ++ read) (run.reverse ++ text) cs := by
  induction run generalizing inNumber read text with
  | nil => rfl
  | cons c run ih =>
    rw [List.forall_mem_cons] at hrun
    have hc := hrun.1
    simp only [isPlain, Bool.not_eq_true', Bool.or_eq_false_iff] at hc
    rw [List.cons_append] at hline ⊢
    rw [scanFrom_plain _ _ hline (by simp [opensComment, hc])
      (by simp [opensLiteral, hc]), ih _ _ _ hline.tail hrun.2, numberBehind]
    simp

/-- The emitted text ends inside a number only where it ends with some of
one. -/
def Settled (inNumber : Bool) (text : List Char) : Prop :=
  inNumber = true → text.head?.any isNumberPart = true

theorem settled_after (inNumber : Bool) (text : List Char)
    (hc : c ≠ '\'') :
    Settled (numberAfter inNumber text c) (c :: text) := by
  intro hafter
  rw [numberAfter, if_neg (by simpa using hc)] at hafter
  split at hafter
  case isTrue hpart => exact hpart
  case isFalse => cases hafter

theorem settled_behind {run : List Char} (h : Settled inNumber text)
    (hrun : ∀ c ∈ run, c ≠ '\'') :
    Settled (numberBehind inNumber text run) (run.reverse ++ text) := by
  induction run generalizing inNumber text with
  | nil => exact h
  | cons c run ih =>
    rw [List.forall_mem_cons] at hrun
    have := ih (settled_after inNumber text hrun.1) hrun.2
    simpa [numberBehind] using this

theorem isNumberPart_of_isAlphanum (h : c.isAlphanum = true) :
    isNumberPart c = true := by
  have hlow : c.toNat < 0x80 := by
    by_contra hhigh
    simp only [Char.isAlphanum, isAlpha_eq, Char.isDigit, Bool.or_eq_true,
      Bool.and_eq_true, decide_eq_true_eq, ge_iff_le,
      UInt32.le_iff_toNat_le] at h
    have : c.toNat = c.val.toNat := rfl
    simp at h
    omega
  rw [isNumberPart, isAlphanumeric, if_pos hlow, h, Bool.true_or,
    Bool.true_or]

theorem isNumberPart_of_tail
    (h : c.isAlphanum = true ∨ c = '_' ∨ c = '.') : isNumberPart c = true := by
  rcases h with h | rfl | rfl
  · exact isNumberPart_of_isAlphanum h
  · rfl
  · rfl

/-- A number without separators is plain. -/
theorem plain_of_numberTail {last : Char} {tail : List Char}
    (h : NumberTail last tail) (hplain : '\'' ∉ tail) :
    ∀ d ∈ tail, isPlain d = true := by
  induction h with
  | nil => nofun
  | @part last c cs hc _ ih =>
    rw [List.mem_cons, not_or] at hplain
    refine List.forall_mem_cons.2 ⟨?_, ih hplain.2⟩
    exact isPlain_of (p := isNumberPart) (by decide)
      (isNumberPart_of_tail hc)
  | @sign last c cs hc _ _ ih =>
    rw [List.mem_cons, not_or] at hplain
    refine List.forall_mem_cons.2 ⟨?_, ih hplain.2⟩
    rcases hc with rfl | rfl <;> decide
  | separator => exact absurd List.mem_cons_self hplain

/-- Behind some of a number, or a separator of it, a part of a number goes
on with it. -/
theorem scanFrom_numberPart (hpart : isNumberPart c = true)
    (hline : OneLine (c :: cs))
    (htext : text.head?.any (fun d => isNumberPart d || d == '\'') = true) :
    scanFrom 0 .code true read text (c :: cs)
      = scanFrom 0 .code true (c :: read) (c :: text) cs := by
  have hcharacter : c ≠ '\'' := ne_of_class hpart (by decide)
  have hcomment : opensComment c cs = false := by
    simp [opensComment, ne_of_class hpart (d := '/') (by decide)]
  have hliteral : opensLiteral true c cs = false := by
    simp [opensLiteral, ne_of_class hpart (d := '"') (by decide), hcharacter]
  rw [scanFrom_plain _ _ hline hcomment hliteral, numberAfter,
    if_neg (by simpa using hcharacter), if_pos hpart, if_pos htext]

/-- A number without signs goes on as a number, separators and all. -/
theorem scanFrom_number (read text : List Char) {last : Char}
    {tail rest : List Char} (h : NumberTail last tail) (hline : OneLine (tail ++ rest))
    (hplus : '+' ∉ tail) (hminus : '-' ∉ tail)
    (htext : text.head?.any isNumberPart = true) :
    scanFrom 0 .code true read text (tail ++ rest)
        = scanFrom 0 .code true (tail.reverse ++ read)
          (tail.reverse ++ text) rest
      ∧ (tail.reverse ++ text).head?.any isNumberPart = true := by
  induction h generalizing read text with
  | nil => exact ⟨rfl, htext⟩
  | @part last c cs hc _ ih =>
    simp only [List.mem_cons, not_or] at hplus hminus
    have hpart := isNumberPart_of_tail hc
    have hinside : text.head?.any (fun d => isNumberPart d || d == '\'')
        = true := by
      cases text with
      | nil => cases htext
      | cons d ds => simp_all
    obtain ⟨hrest, hlast⟩ := ih (c :: read) (c :: text)
      hline.tail hplus.2 hminus.2 hpart
    rw [List.cons_append] at hline ⊢
    rw [scanFrom_numberPart hpart hline hinside, hrest]
    simpa using hlast
  | @sign last c cs hc =>
    rcases hc with rfl | rfl
    · exact absurd List.mem_cons_self hplus
    · exact absurd List.mem_cons_self hminus
  | @separator last d cs _ hd _ ih =>
    simp only [List.mem_cons, not_or] at hplus hminus
    have hpart := isNumberPart_of_isAlphanum hd
    obtain ⟨hrest, hlast⟩ := ih (d :: '\'' :: read)
      (d :: '\'' :: text) hline.tail.tail hplus.2.2 hminus.2.2 hpart
    have hseparates : opensLiteral true '\'' (d :: (cs ++ rest)) = false := by
      simp [opensLiteral, hd]
    rw [List.cons_append, List.cons_append] at hline ⊢
    rw [scanFrom_plain _ _ hline rfl hseparates,
      show numberAfter true text '\'' = true from rfl,
      scanFrom_numberPart hpart hline.tail rfl, hrest]
    simpa using hlast

-- =================================================== literals and comments

/-- A literal in a line ends in a directive where it ends by itself, and is
left open there if it is by itself. -/
theorem scanFrom_literal (inNumber : Bool) (read text : List Char)
    {quote : Char} (before read' : List Char)
    (hquote : quote = '"' ∨ quote = '\'') (hline : OneLine cs) :
    (Extent.body true quote read' cs).2 = true
        ∧ (∃ read'' text', scanFrom 0 (.literal quote false before) inNumber
            read text cs
          = scanFrom 0 .code inNumber read'' (quote :: text')
            (Extent.body true quote read' cs).1.rest)
      ∨ (Extent.body true quote read' cs).2 = false
        ∧ (scanFrom 0 (.literal quote false before) inNumber read text
            cs).problem.isSome = true := by
  have hplain : quote ≠ '\\' ∧ isBreak quote = false := by
    rcases hquote with rfl | rfl <;> decide
  fun_induction Extent.body true quote read' cs generalizing read text with
  | case1 => exact .inr ⟨rfl, rfl⟩
  | case2 => exact absurd hline.tail.head (by decide)
  | case3 _ _ hjoined => exact absurd rfl hjoined
  | case4 _ _ _ _ hbreak => simp at hbreak
  | case5 read' c cs hpair hbreak ih =>
    rw [scanFrom_go (Move.escape hline.tail.startsBreak).step_eq,
      scanFrom_go (Move.escaped hline.tail.head
        (joinsAt_line hline.tail.tail)).step_eq]
    exact ih _ _ hline.tail.tail
  | case6 read' c cs hpair hjoin hc =>
    obtain rfl : c = quote := by simpa using hc
    rw [scanFrom_go (Move.closeLiteral hplain.2 hplain.1).step_eq]
    exact .inl ⟨rfl, _, _, rfl⟩
  | case7 read' c cs hpair hjoin hc hbreak =>
    rw [hline.head] at hbreak
    cases hbreak
  | case8 read' c cs hpair hjoin hc hbreak ih =>
    by_cases hslash : c = '\\'
    · -- a backslash at the end of the line escapes nothing
      subst hslash
      cases cs with
      | nil =>
        rw [scanFrom_go (Move.escape rfl).step_eq]
        exact .inr ⟨rfl, rfl⟩
      | cons d ds => exact absurd rfl (hjoin d ds rfl)
    · rw [scanFrom_go (Move.insideLiteral hline.head hslash
        (by simpa using hc)).step_eq]
      exact ih _ _ hline.tail

theorem scanFrom_blockComment (inNumber : Bool)
    (read text before read' : List Char)
    (hline : OneLine cs) :
    (Trivia.blockComment read' cs).2 = true
        ∧ (∃ read'', scanFrom 0 (.blockComment before) inNumber read text cs
          = scanFrom 0 .code inNumber read'' text
            (Trivia.blockComment read' cs).1.rest)
      ∨ (Trivia.blockComment read' cs).2 = false
        ∧ (scanFrom 0 (.blockComment before) inNumber read text
            cs).problem.isSome = true := by
  fun_induction Trivia.blockComment read' cs generalizing read with
  | case1 => exact .inr ⟨rfl, rfl⟩
  | case2 read' cs =>
    rw [scanFrom_go (Move.closeBlock rfl).step_eq]
    exact .inl ⟨rfl, _, rfl⟩
  | case3 read' c cs hclose ih =>
    have hopen : ¬(c = '*' ∧ cs.head? = some '/') := by
      rintro ⟨hc, hcs⟩
      obtain ⟨ds, rfl⟩ := List.head?_eq_some_iff.1 hcs
      exact hclose ds hc rfl
    rw [scanFrom_go (Move.skipBlock hopen).step_eq]
    exact ih _ hline.tail

theorem scanFrom_lineComment (hline : OneLine cs) :
    scanFrom 0 .lineComment inNumber read text cs
      = ⟨⟨cs.reverse ++ read, []⟩, text, none⟩ := by
  induction cs generalizing read with
  | nil => rfl
  | cons c cs ih =>
    rw [scanFrom_go (Move.skipLine hline.head
      (joinsAt_line hline.tail)).step_eq, Option.toList_none,
      List.nil_append, ih hline.tail]
    simp

/-- A directive ends with its line. -/
theorem rest_oneLine (swallow : Nat) (mode : Mode) (inNumber : Bool)
    (read text : List Char) {cs : List Char} (hline : OneLine cs) :
    (scanFrom swallow mode inNumber read text cs).reading.rest = [] := by
  induction swallow, mode, inNumber, read, text, cs using run_induction with
  | done => rfl
  | skip _ _ _ _ _ _ _ ih => exact ih hline.tail
  | stop _ _ _ _ _ _ _ _ hmove =>
    have hbreak := hline.head
    cases hmove with
    | lineEnd _ hc | literalEnd _ hc =>
      rw [hbreak] at hc
      cases hc
  | go _ _ _ _ _ _ _ _ _ _ hst _ ih =>
    rw [scanFrom_go hst]
    exact ih hline.tail

end Directive

end FrontEnd
