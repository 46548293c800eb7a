/-
What is written as one token is read as that token, whatever stands behind
it, if that begins with a blank or a line break. Each scanner is run on
the text that it is for (`word_written`, `number_written`, `body_written`,
`through_written`), and `Spells.reads` puts them together, one case for
each way to write a token.

Where the first characters of two sorts of tokens are the same, the gap
decides: the letters of a word may open a literal, but then a quote would
follow them (`opener_within`), and an operator may begin a longer one, but
then the rest of that would follow.
-/
import Mathlib.Data.Bool.AllAny
import Mathlib.Data.List.Find
import Mathlib.Data.List.Infix
import FrontEnd.Proofs.Spelling.Basic

namespace FrontEnd

open Text

-- ============================================================= characters

/-- The characters with which a gap begins. -/
theorem gap_cases {c : Char} (h : (isBlank c || isBreak c) = true) :
    c ∈ [' ', '\t', '\x0b', '\x0c', '\n', '\r'] := by
  simpa [isBlank, isBreak, or_assoc] using h

/-- No token goes on with a character of which this is false. -/
theorem gap_stops {p : Char → Bool} {c : Char}
    (h : (isBlank c || isBreak c) = true)
    (hp : [' ', '\t', '\x0b', '\x0c', '\n', '\r'].any p = false) :
    p c = false := by
  simpa using List.any_eq_false.1 hp c (gap_cases h)

theorem not_wordPart_of_gap {c : Char}
    (h : (isBlank c || isBreak c) = true) : isWordPart c = false :=
  gap_stops h (by decide)

theorem isAlphanumeric_of_isLetter {c : Char} (h : isLetter c = true) :
    isAlphanumeric c = true := by
  unfold isLetter at h
  unfold isAlphanumeric
  split
  case isTrue hlow =>
    rw [if_pos hlow] at h
    rw [Char.isAlphanum, h, Bool.true_or]
  case isFalse hhigh =>
    rw [if_neg hhigh] at h
    rw [h, Bool.true_or]

theorem isWordPart_of_isWordStart {c : Char} (h : isWordStart c = true) :
    isWordPart c = true := by
  unfold isWordStart at h
  unfold isWordPart
  simp only [Bool.or_eq_true] at h ⊢
  exact h.imp_left (.imp_left isAlphanumeric_of_isLetter)

/-- The letters by their codes. -/
theorem isAlpha_eq (c : Char) : c.isAlpha
    = (decide ('A'.val ≤ c.val ∧ c.val ≤ 'Z'.val)
      || decide ('a'.val ≤ c.val) && decide (c.val ≤ 'z'.val)) := rfl

theorem not_digit_of_isWordStart {c : Char} (h : isWordStart c = true) :
    c.isDigit = false := by
  by_contra hdigit
  have hlow : 48 ≤ c.toNat ∧ c.toNat ≤ 57 := by
    simpa [Char.isDigit, UInt32.le_iff_toNat_le] using hdigit
  have hne (d : Char) (hd : d.toNat < 48 ∨ 57 < d.toNat) : c ≠ d := by
    rintro rfl
    omega
  unfold isWordStart isLetter at h
  rw [if_pos (by omega)] at h
  have halpha : c.isAlpha = false := by
    simp only [isAlpha_eq, Bool.or_eq_false_iff, Bool.and_eq_false_iff,
      decide_eq_false_iff_not, UInt32.le_iff_toNat_le]
    have : c.toNat = c.val.toNat := rfl
    have : 'A'.val.toNat = 65 := rfl
    have : 'a'.val.toNat = 97 := rfl
    omega
  rw [halpha] at h
  simp [hne '_' (.inr (by decide)), hne '$' (.inl (by decide))] at h

-- ========================================================= the next piece

namespace Piece

/-- The text is read as one token of the kind, wherever a lexeme can end
behind it. -/
def Reads (kind : TokenKind) (text : List Char) : Prop :=
  ∀ rest, endsLexeme rest = true → ∃ c cs, text ++ rest = c :: cs
    ∧ ∀ fresh, next fresh c cs = ⟨⟨.token kind, text, []⟩, rest, false⟩

/-- Which piece comes next is a matter of its first two characters, as
long as it is no blank, comment or directive. -/
theorem next_token {c : Char} {cs rest text : List Char} {kind : TokenKind}
    (hblank : (isBlank c || isBreak c) = false) (hslash : c ≠ '\\')
    (hcomment : c = '/' → cs.head?.any (['/', '*'].contains ·) = false)
    (hmark : c ≠ '#')
    (htoken : token c cs = (kind, ⟨⟨text.reverse, rest⟩, []⟩))
    (fresh : Bool) :
    next fresh c cs = ⟨⟨.token kind, text, []⟩, rest, false⟩ := by
  have hstarts : startsBlank c cs = false := by
    simp [startsBlank, hblank, hslash]
  have hopens : c = '/' → cs.head? ≠ some '/' ∧ cs.head? ≠ some '*' := by
    intro hc
    have hnot := hcomment hc
    constructor <;> intro h <;> simp [h] at hnot
  unfold next
  rw [if_neg (by simp [hstarts]), if_neg (by simp; tauto),
    if_neg (by simp; tauto), if_neg (by simp [hmark]), htoken]
  simp [cut, Reading.taken]

-- ================================================================ openers

/-- Whatever opens a literal begins with one of these and ends with a
quote. -/
theorem rawOpeners_shape : ∀ opener ∈ rawOpeners,
    opener.head? ∈ ['u', 'U', 'L', 'R'].map some ∧ '"' ∈ opener := by
  decide

theorem literalOpeners_shape : ∀ opener ∈ literalOpeners,
    opener.1.head? ∈ ['u', 'U', 'L', '"', '\''].map some
      ∧ ('"' ∈ opener.1 ∨ '\'' ∈ opener.1) := by
  decide

/-- A token that opens no literal. -/
theorem token_unopened {c : Char} {cs : List Char}
    (hraw : ∀ opener ∈ rawOpeners, ¬opener <+: c :: cs)
    (hliteral : ∀ opener ∈ literalOpeners, ¬opener.1 <+: c :: cs) :
    token c cs
      = if c.isDigit || (c == '.' && cs.head?.any Char.isDigit) then
          (.number, ⟨Extent.number c [c] cs, []⟩)
        else if isWordStart c then
          (wordKind (String.ofList (Extent.word [c] cs).taken),
            ⟨Extent.word [c] cs, []⟩)
        else symbol c cs := by
  have hraw : rawOpeners.find? (·.isPrefixOf (c :: cs)) = none :=
    List.find?_eq_none.2 fun opener h => by simpa using hraw opener h
  have hliteral : literalOpeners.find? (·.1.isPrefixOf (c :: cs)) = none :=
    List.find?_eq_none.2 fun opener h => by simpa using hliteral opener h
  unfold token
  rw [hraw, hliteral]

/-- A token that does not begin as a literal does. -/
theorem token_plain {c : Char} {cs : List Char}
    (hc : c ∉ ['u', 'U', 'L', 'R', '"', '\'']) :
    token c cs
      = if c.isDigit || (c == '.' && cs.head?.any Char.isDigit) then
          (.number, ⟨Extent.number c [c] cs, []⟩)
        else if isWordStart c then
          (wordKind (String.ofList (Extent.word [c] cs).taken),
            ⟨Extent.word [c] cs, []⟩)
        else symbol c cs := by
  have head {opener : List Char} (h : opener <+: c :: cs)
      (hopener : opener.head? ∈
        ['u', 'U', 'L', 'R', '"', '\''].map some) : False := by
    cases opener with
    | nil => simp at hopener
    | cons d ds =>
      obtain rfl : d = c := (List.cons_prefix_cons.1 h).1
      simp at hopener hc
      tauto
  refine token_unopened (fun opener hopener h => head h ?_)
    fun opener hopener h => head h ?_
  · have := (rawOpeners_shape opener hopener).1
    simp at this ⊢
    tauto
  · have := (literalOpeners_shape opener hopener).1
    simp at this ⊢
    tauto

end Piece

-- =============================================================== scanners

namespace Extent

/-- A word ends where the gap begins. -/
theorem word_written {text rest : List Char} (read : List Char)
    (htext : ∀ c ∈ text, isWordPart c = true)
    (hrest : endsLexeme rest = true) :
    word read (text ++ rest) = ⟨text.reverse ++ read, rest⟩ := by
  unfold word
  induction text generalizing read with
  | nil =>
    cases rest with
    | nil => rfl
    | cons c cs =>
      rw [List.nil_append, Reading.moveWhile,
        if_neg (by simp [not_wordPart_of_gap hrest])]
      rfl
  | cons c text ih =>
    rw [List.cons_append, Reading.moveWhile,
      if_pos (htext c (List.mem_cons_self ..)),
      ih _ fun d hd => htext d (List.mem_cons_of_mem _ hd)]
    simp

/-- A number ends where the gap begins. -/
theorem number_written {last : Char} {text rest : List Char}
    (read : List Char) (htext : NumberTail last text)
    (hrest : endsLexeme rest = true) :
    number last read (text ++ rest) = ⟨text.reverse ++ read, rest⟩ := by
  induction htext generalizing read with
  | nil =>
    cases rest with
    | nil => rfl
    | cons c cs =>
      have stops {p : Char → Bool} := gap_stops (p := p) hrest
      rw [List.nil_append, number,
        if_neg (by simp [stops (p := fun c => c.isAlphanum || c == '_'
          || c == '.') (by decide)]),
        if_neg (by simp [stops (p := fun c => c == '+' || c == '-')
          (by decide)]),
        if_neg (by simp [stops (p := fun c => c == '\'') (by decide)])]
      rfl
  | @part last c cs hc _ ih =>
    rw [List.cons_append, number, if_pos (by simpa [or_assoc] using hc), ih]
    simp
  | @sign last c cs hc hlast _ ih =>
    have hpart : (c.isAlphanum || c == '_' || c == '.') = false := by
      rcases hc with rfl | rfl <;> decide
    rw [List.cons_append, number, if_neg (by simp [hpart]), if_pos ?_, ih]
    · simp
    · simp at hlast ⊢
      tauto
  | @separator last d cs hlast hd _ ih =>
    rw [List.cons_append, List.cons_append, number, if_neg (by decide),
      if_neg (by simp), if_pos (by simp [hlast, hd]), number,
      if_pos (by simp [hd]), ih]
    simp

/-- The body of a literal ends at its quote. -/
theorem body_written {quote : Char} {text : List Char} (read rest : List Char)
    (hslash : quote ≠ '\\') (hquote : isBreak quote = false)
    (htext : QuotedBody quote text) :
    body true quote read (text ++ quote :: rest)
      = (⟨quote :: (text.reverse ++ read), rest⟩, true) := by
  induction htext generalizing read with
  | nil =>
    rw [List.nil_append, body, if_pos (by simp)]
    · rfl
    · exact fun _ h => absurd h hslash
    · exact fun _ _ h => absurd h hslash
  | @char c cs hc hcslash hbreak _ ih =>
    rw [List.cons_append, body, if_neg (by simp [hc]),
      if_neg (by simp [hbreak]), ih]
    · simp
    · exact fun _ h => absurd h hcslash
    · exact fun _ _ h => absurd h hcslash
  | @escape c cs h ih =>
    rw [List.cons_append, List.cons_append, body, if_neg (by simp), ih]
    · simp
    · -- no body begins with a line feed, so no pair is joined
      rintro cs' rfl hcs
      cases h with
      | nil =>
        obtain rfl : quote = '\n' := (List.cons.inj hcs).1
        simp [isBreak] at hquote
      | char _ _ hbreak =>
        obtain rfl := (List.cons.inj hcs).1
        simp [isBreak] at hbreak
      | escape | joinedPair => exact absurd (List.cons.inj hcs).1 (by decide)
  | @joinedPair cs _ ih =>
    rw [List.cons_append, List.cons_append, List.cons_append, body,
      if_pos rfl, ih]
    simp

/-- A literal with its suffix. -/
theorem quoted_written {quote : Char} {text suffix rest : List Char}
    (read : List Char) (hslash : quote ≠ '\\') (hquote : isBreak quote = false)
    (htext : QuotedBody quote text)
    (hsuffix : ∀ c ∈ suffix, isWordPart c = true)
    (hrest : endsLexeme rest = true) :
    quoted quote read (text ++ quote :: (suffix ++ rest))
      = ⟨⟨suffix.reverse ++ quote :: (text.reverse ++ read), rest⟩, []⟩ := by
  unfold quoted
  rw [body_written read _ hslash hquote htext]
  dsimp only
  rw [word_written _ hsuffix hrest]

/-- A delimiter is found in front of its parenthesis. -/
theorem delimiter_written {delimiter : List Char} (rest : List Char)
    (h : IsDelimiter delimiter) :
    delimiter? (delimiter ++ '(' :: rest) = some delimiter := by
  have htake : (delimiter ++ '(' :: rest).take (maxDelimiter + 1)
      = delimiter ++ '(' :: rest.take (maxDelimiter - delimiter.length) := by
    have hlength : maxDelimiter + 1 - delimiter.length
        = maxDelimiter - delimiter.length + 1 := by
      have := h.length
      unfold maxDelimiter
      omega
    have hle : delimiter.length ≤ maxDelimiter + 1 :=
      Nat.le_succ_of_le h.length
    rw [List.take_append, List.take_of_length_le hle, hlength,
      List.take_succ_cons]
  have hchars : ∀ c ∈ delimiter, (!(c == '(' || c == ')' || c == '\\'
      || c == '"' || isSpace c)) = true := by
    intro c hc
    obtain ⟨hne, hspace⟩ := h.chars c hc
    simp at hne
    simp [hne, hspace]
  unfold delimiter?
  rw [htake, List.span_eq_takeWhile_dropWhile,
    List.takeWhile_append_of_pos hchars, List.dropWhile_append_of_pos hchars]
  simp

/-- What is searched for is found where it stands, if it stands nowhere
further ahead. Since its first character is not among the others, it cannot
begin in front of that place and end behind it. -/
theorem through_written {opening : Char} {others text : List Char}
    (read rest : List Char) (hothers : opening ∉ others)
    (htext : ¬(opening :: others) <:+: text) :
    through (opening :: others) read (text ++ (opening :: others ++ rest))
      = some ⟨((opening :: others).reverse ++ text.reverse) ++ read, rest⟩ := by
  induction text generalizing read with
  | nil =>
    rw [List.nil_append, List.cons_append, through, if_pos ?_]
    · rw [List.reverseAux_eq, ← List.cons_append, List.drop_left]
      simp
    · simp
  | cons c text ih =>
    have hfirst : ¬(opening :: others).isPrefixOf
        (c :: (text ++ (opening :: others ++ rest))) = true := by
      intro h
      have h : opening :: others
          <+: (c :: text) ++ (opening :: others ++ rest) :=
        List.isPrefixOf_iff_prefix.1 h
      rcases List.prefix_or_prefix_of_prefix h (List.prefix_append ..)
        with hwithin | ⟨more, hmore⟩
      · exact htext hwithin.isInfix
      · rw [List.cons_append, List.cons.injEq] at hmore
        obtain ⟨rfl, hmore⟩ := hmore
        cases more with
        | nil =>
          rw [List.append_nil] at hmore
          exact htext (hmore ▸ List.infix_rfl)
        | cons d more =>
          rw [← hmore, ← List.cons_append,
            List.prefix_append_right_inj] at h
          obtain rfl : d = c := (List.cons_prefix_cons.1 h).1
          exact hothers (hmore ▸ by simp)
    rw [List.cons_append, through, if_neg hfirst, ih]
    · simp
    · exact fun h => htext (h.trans (List.suffix_cons c text).isInfix)

/-- What begins with a character that the front does not have stands
behind the front. -/
theorem infix_behind {opening : Char} {others front text : List Char}
    (hfront : opening ∉ front)
    (h : opening :: others <:+: front ++ text) :
    opening :: others <:+: text := by
  induction front with
  | nil => exact h
  | cons c front ih =>
    rw [List.mem_cons, not_or] at hfront
    rcases List.infix_cons_iff.1 h with hleading | h
    · exact absurd (List.cons_prefix_cons.1 hleading).1 hfront.1
    · exact ih hfront.2 h

/-- A raw string with its suffix. -/
theorem rawString_written {delimiter text suffix rest : List Char}
    (read : List Char) (hdelimiter : IsDelimiter delimiter)
    (htext : ¬rawCloser delimiter <:+: text)
    (hsuffix : ∀ c ∈ suffix, isWordPart c = true)
    (hrest : endsLexeme rest = true) :
    rawString read (delimiter ++ '(' :: (text ++ (rawCloser delimiter
        ++ (suffix ++ rest))))
      = ⟨⟨suffix.reverse ++ ((rawCloser delimiter).reverse
        ++ (delimiter ++ '(' :: text).reverse ++ read), rest⟩, []⟩ := by
  have hothers : ')' ∉ delimiter ++ ['"'] := by
    intro h
    rcases List.mem_append.1 h with h | h
    · exact (hdelimiter.chars _ h).1 (by decide)
    · simp at h
  have hbehind : ¬rawCloser delimiter <:+: delimiter ++ '(' :: text := by
    intro h
    have hfront : ')' ∉ delimiter ++ ['('] := by
      intro h
      rcases List.mem_append.1 h with h | h
      · exact (hdelimiter.chars _ h).1 (by decide)
      · simp at h
    refine htext (infix_behind hfront ?_)
    rw [List.append_assoc]
    exact h
  have hthrough := through_written read (suffix ++ rest) hothers hbehind
  unfold rawString
  rw [delimiter_written _ hdelimiter]
  dsimp only
  rw [List.append_assoc, List.cons_append] at hthrough
  rw [show ')' :: delimiter ++ ['"'] = ')' :: (delimiter ++ ['"']) from rfl]
  unfold rawCloser
  rw [show ')' :: delimiter ++ ['"'] = ')' :: (delimiter ++ ['"']) from rfl,
    hthrough]
  dsimp only
  rw [word_written _ hsuffix hrest]

end Extent

-- ============================================================= the tokens

namespace Piece

/-- A token cannot open what goes on behind its end with more than a gap
can begin with. -/
theorem opener_within {opener text rest : List Char}
    (hopener : ∀ c ∈ opener, (isBlank c || isBreak c) = false)
    (hrest : endsLexeme rest = true) (h : opener <+: text ++ rest) :
    opener <+: text := by
  rcases List.prefix_or_prefix_of_prefix h (List.prefix_append ..)
    with hwithin | ⟨more, rfl⟩
  · exact hwithin
  · cases more with
    | nil => rw [List.append_nil]
    | cons c more =>
      rw [List.prefix_append_right_inj] at h
      cases rest with
      | nil => exact absurd (List.prefix_nil.1 h) nofun
      | cons d rest =>
        obtain rfl := (List.cons_prefix_cons.1 h).1
        have hgap : (isBlank c || isBreak c) = true := hrest
        rw [hopener c (by simp)] at hgap
        cases hgap

/-- Texts without blanks and breaks, as they are found to be. -/
theorem gapless_of_all {α : Type} {xs : List α} {text : α → List Char}
    (h : xs.all (fun x => (text x).all
      fun c => !(isBlank c || isBreak c)) = true) :
    ∀ x ∈ xs, ∀ c ∈ text x, (isBlank c || isBreak c) = false := by
  simpa only [List.all_eq_true, Bool.not_eq_true'] using h

theorem rawOpeners_gap : ∀ opener ∈ rawOpeners,
    ∀ c ∈ opener, (isBlank c || isBreak c) = false :=
  gapless_of_all (by decide)

theorem literalOpeners_gap : ∀ opener ∈ literalOpeners,
    ∀ c ∈ opener.1, (isBlank c || isBreak c) = false :=
  gapless_of_all (by decide)

theorem operators_gap : ∀ op ∈ Word.operators,
    ∀ c ∈ op.toList, (isBlank c || isBreak c) = false :=
  gapless_of_all (by decide)

theorem wordKind_eq (word : String) : wordKind word = kindOfWord word := by
  have halternative : Word.isAlternative word = true
      ↔ word ∈ Word.alternatives.map (·.1) := by
    rw [Word.isAlternative, List.any_eq_true, List.mem_map]
    simp
  unfold wordKind kindOfWord
  simp only [Word.isKeyword, List.contains_iff_mem, halternative]

/-- A word opens no literal: behind the letters there would be a quote. -/
theorem word_reads {c : Char} {cs : List Char} (hc : isWordStart c = true)
    (hcs : ∀ d ∈ cs, isWordPart d = true) :
    Reads (kindOfWord (String.ofList (c :: cs))) (c :: cs) := by
  intro rest hrest
  have hall : ∀ d ∈ c :: cs, isWordPart d = true := by
    rintro d (_ | ⟨_, hd⟩)
    · exact isWordPart_of_isWordStart hc
    · exact hcs d hd
  have hunopened {opener : List Char}
      (hgap : ∀ d ∈ opener, (isBlank d || isBreak d) = false)
      (hquote : '"' ∈ opener ∨ '\'' ∈ opener) :
      ¬opener <+: c :: (cs ++ rest) := by
    intro h
    have hwithin : opener <+: c :: cs := opener_within hgap hrest h
    have hsub := hwithin.subset
    rcases hquote with h | h
    · exact absurd (hall _ (hsub h)) (by decide)
    · exact absurd (hall _ (hsub h)) (by decide)
  have hword := Extent.word_written [c] hcs hrest
  have hdigit := not_digit_of_isWordStart hc
  have hne (d : Char) (hd : isWordStart d = false) : c ≠ d := by
    rintro rfl
    rw [hd] at hc
    cases hc
  refine ⟨c, cs ++ rest, rfl, next_token ?_ (hne _ (by decide))
    (fun h => absurd h (hne _ (by decide))) (hne _ (by decide)) ?_⟩
  · cases hgap : isBlank c || isBreak c with
    | false => rfl
    | true =>
      have := gap_stops (p := isWordStart) hgap (by decide)
      rw [this] at hc
      cases hc
  · rw [token_unopened
      (fun opener h => hunopened (rawOpeners_gap opener h)
        (.inl (rawOpeners_shape opener h).2))
      (fun opener h => hunopened (literalOpeners_gap opener h)
        (literalOpeners_shape opener h).2),
      if_neg (by simp [hdigit, hne '.' (by decide)]), if_pos hc, hword,
      wordKind_eq]
    simp [Reading.taken]

theorem number_reads {c : Char} {cs : List Char}
    (hc : c.isDigit = true ∨ c = '.' ∧ cs.head?.any Char.isDigit = true)
    (hcs : NumberTail c cs) : Reads .number (c :: cs) := by
  intro rest hrest
  have hnumber := Extent.number_written [c] hcs hrest
  have hne (d : Char) (hd : d.isDigit = false) (hpoint : d ≠ '.') :
      c ≠ d := by
    rintro rfl
    rcases hc with hc | ⟨hc, -⟩
    · rw [hd] at hc
      cases hc
    · exact hpoint hc
  have hbegins : (c.isDigit
      || (c == '.' && (cs ++ rest).head?.any Char.isDigit)) = true := by
    rcases hc with hc | ⟨rfl, hdigit⟩
    · simp [hc]
    · cases cs with
      | nil => simp at hdigit
      | cons d cs => simpa using hdigit
  refine ⟨c, cs ++ rest, rfl, next_token ?_
    (hne _ (by decide) (by decide))
    (fun h => absurd h (hne _ (by decide) (by decide)))
    (hne _ (by decide) (by decide)) ?_⟩
  · simp only [isBlank, isBreak, Bool.or_eq_false_iff, beq_eq_false_iff_ne]
    simp [hne]
  · rw [token_plain (by simp [hne]), if_pos hbegins, hnumber]
    simp

theorem encoding_cases {encoding : List Char}
    (h : encoding ∈ encodings) :
    encoding ∈ [[], ['u', '8'], ['u'], ['U'], ['L']] :=
  h

/-- What stands in front of a literal tells its kind, and the scan goes on
behind the quote. -/
theorem token_quoted {kind : TokenKind} {quote : Char}
    {encoding : List Char} (more : List Char)
    (hquote : (kind, quote) ∈ quotes) (hencoding : encoding ∈ encodings) :
    ∃ c cs, encoding ++ quote :: more = c :: cs
      ∧ c ∈ ['u', 'U', 'L', '"', '\'']
      ∧ token c cs
        = (kind, Extent.quoted quote (quote :: encoding.reverse) more) := by
  have hquote : (kind, quote) ∈ [(.string, '"'), (.character, '\'')] := hquote
  have hencoding := encoding_cases hencoding
  simp only [List.mem_cons, List.not_mem_nil, or_false, Prod.mk.injEq]
    at hquote hencoding
  rcases hquote with ⟨rfl, rfl⟩ | ⟨rfl, rfl⟩ <;>
    rcases hencoding with rfl | rfl | rfl | rfl | rfl <;>
    exact ⟨_, _, rfl, by decide, rfl⟩

theorem token_raw {encoding : List Char} (more : List Char)
    (hencoding : encoding ∈ encodings) :
    ∃ c cs, encoding ++ 'R' :: '"' :: more = c :: cs
      ∧ c ∈ ['u', 'U', 'L', 'R']
      ∧ token c cs = (.string, Extent.rawString
        ('"' :: 'R' :: encoding.reverse) more) := by
  have hencoding := encoding_cases hencoding
  simp only [List.mem_cons, List.not_mem_nil, or_false] at hencoding
  rcases hencoding with rfl | rfl | rfl | rfl | rfl <;>
    exact ⟨_, _, rfl, by decide, rfl⟩

/-- A token that begins with one of these characters is no trivia. -/
theorem next_opener {c : Char} {cs rest text : List Char}
    {kind : TokenKind} (hc : c ∈ ['u', 'U', 'L', 'R', '"', '\''])
    (htoken : token c cs = (kind, ⟨⟨text.reverse, rest⟩, []⟩))
    (fresh : Bool) :
    next fresh c cs = ⟨⟨.token kind, text, []⟩, rest, false⟩ := by
  have hplain : ∀ d ∈ ['u', 'U', 'L', 'R', '"', '\''],
      (isBlank d || isBreak d) = false ∧ d ≠ '\\' ∧ d ≠ '/' ∧ d ≠ '#' :=
    List.all_iff_forall_prop.1 (by decide)
  obtain ⟨hblank, hslash, hcomment, hmark⟩ := hplain c hc
  exact next_token hblank hslash (fun h => absurd h hcomment) hmark htoken
    fresh

theorem quoted_reads {kind : TokenKind} {quote : Char}
    {encoding body suffix : List Char} (hquote : (kind, quote) ∈ quotes)
    (hencoding : encoding ∈ encodings) (hbody : QuotedBody quote body)
    (hsuffix : ∀ c ∈ suffix, isWordPart c = true) :
    Reads kind (encoding ++ quote :: (body ++ quote :: suffix)) := by
  intro rest hrest
  have hplain : ∀ p ∈ quotes, p.2 ≠ '\\' ∧ isBreak p.2 = false := by decide
  obtain ⟨hslash, hbreak⟩ := hplain _ hquote
  obtain ⟨c, cs, heq, hc, htoken⟩ :=
    token_quoted (body ++ quote :: (suffix ++ rest)) hquote hencoding
  rw [Extent.quoted_written _ hslash hbreak hbody hsuffix hrest] at htoken
  refine ⟨c, cs, by simpa using heq, next_opener ?_ ?_⟩
  · simp at hc ⊢
    tauto
  · rw [htoken]
    simp

theorem raw_reads {encoding delimiter body suffix : List Char}
    (hencoding : encoding ∈ encodings) (hdelimiter : IsDelimiter delimiter)
    (hbody : ¬rawCloser delimiter <:+: body)
    (hsuffix : ∀ c ∈ suffix, isWordPart c = true) :
    Reads .string (encoding ++ 'R' :: '"' :: (delimiter ++ '(' :: (body
      ++ (rawCloser delimiter ++ suffix)))) := by
  intro rest hrest
  obtain ⟨c, cs, heq, hc, htoken⟩ := token_raw (delimiter ++ '(' :: (body
    ++ (rawCloser delimiter ++ (suffix ++ rest)))) hencoding
  rw [Extent.rawString_written _ hdelimiter hbody hsuffix hrest] at htoken
  refine ⟨c, cs, by simpa using heq, next_opener ?_ ?_⟩
  · simp at hc ⊢
    tauto
  · rw [htoken]
    simp

/-- Where an operator is written, the longest one is no longer. -/
theorem longestOperator_append (text : List Char) {rest : List Char}
    (hrest : endsLexeme rest = true) :
    Word.longestOperator (text ++ rest) = Word.longestOperator text := by
  refine List.find?_congr fun op hop => ?_
  rw [Bool.eq_iff_iff, List.isPrefixOf_iff_prefix, List.isPrefixOf_iff_prefix]
  exact ⟨opener_within (operators_gap op hop) hrest,
    fun h => h.trans (List.prefix_append ..)⟩

/-- What the operators of the table are like. -/
theorem operators_shape : ∀ op ∈ Word.operators, op.toList ≠ []
    ∧ Word.longestOperator op.toList = some op
    ∧ (op.toList.headD ' ' = '#' → op = "#" ∨ op = "##")
    ∧ (op.toList.headD ' ' = '/'
      → op.toList.tail.head?.any (['/', '*'].contains ·) = false)
    ∧ (op.toList.headD ' ' = '.'
      → op.toList.tail.head?.any Char.isDigit = false)
    ∧ op.toList.headD ' ' ∉ ['u', 'U', 'L', 'R', '"', '\'', '\\']
    ∧ (isBlank (op.toList.headD ' ') || isBreak (op.toList.headD ' '))
      = false
    ∧ (op.toList.headD ' ').isDigit = false
    ∧ isWordStart (op.toList.headD ' ') = false := by
  decide +kernel

theorem operator_reads {op : String} (hop : op ∈ Word.operators)
    (hmark : op ≠ "#" ∧ op ≠ "##") : Reads .operator op.toList := by
  intro rest hrest
  obtain ⟨hne, hlongest, hnumber, hcomment, hpoint, hopener, hblank, hdigit,
    hword⟩ := operators_shape op hop
  have hlonger := longestOperator_append op.toList hrest
  rw [hlongest] at hlonger
  obtain ⟨c, cs, htext⟩ := List.exists_cons_of_ne_nil hne
  rw [htext] at hnumber hcomment hpoint hopener hblank hdigit hword hlonger
  dsimp only [List.headD_cons, List.tail_cons] at *
  -- behind a character that stands alone there is a gap at most
  have behind {p : Char → Bool}
      (hgap : [' ', '\t', '\x0b', '\x0c', '\n', '\r'].any p = false)
      (h : cs.head?.any p = false) : (cs ++ rest).head?.any p = false := by
    cases cs with
    | cons d cs => exact h
    | nil =>
      cases rest with
      | nil => rfl
      | cons d rest => exact gap_stops hrest hgap
  refine ⟨c, cs ++ rest, by rw [htext]; rfl, next_token hblank ?_ ?_ ?_ ?_⟩
  · rintro rfl
    simp at hopener
  · exact fun hc => behind (by decide) (hcomment hc)
  · rintro rfl
    rcases hnumber rfl with h | h
    · exact hmark.1 h
    · exact hmark.2 h
  · have hstart : (c.isDigit || (c == '.' && (cs ++ rest).head?.any
        Char.isDigit)) = false := by
      rw [hdigit, Bool.false_or, Bool.and_eq_false_iff]
      by_cases hc : c = '.'
      · exact .inr (behind (by decide) (hpoint hc))
      · simp [hc]
    have hplain : c ∉ ['u', 'U', 'L', 'R', '"', '\''] := by
      simp at hopener ⊢
      tauto
    rw [token_plain hplain, hstart, if_neg nofun, hword, if_neg nofun]
    unfold symbol
    rw [← List.cons_append, hlonger]
    dsimp only
    rw [htext, List.drop_left]

theorem punctuators_shape : ∀ c ∈ Word.punctuators,
    (∀ op ∈ Word.operators, op.toList.head? ≠ some c)
    ∧ c ∉ ['u', 'U', 'L', 'R', '"', '\'', '\\', '/', '#', '.']
    ∧ (isBlank c || isBreak c) = false ∧ c.isDigit = false
    ∧ isWordStart c = false :=
  List.all_iff_forall_prop.1 (by decide +kernel)

theorem punctuator_reads {c : Char} (hc : c ∈ Word.punctuators) :
    Reads .punctuation [c] := by
  intro rest _
  obtain ⟨hoperator, hother, hblank, hdigit, hword⟩ :=
    punctuators_shape c hc
  have hnone : Word.longestOperator (c :: rest) = none := by
    refine List.find?_eq_none.2 fun op hop h => hoperator op hop ?_
    have h := List.isPrefixOf_iff_prefix.1 h
    have hne := (operators_shape op hop).1
    cases htext : op.toList with
    | nil => exact absurd htext hne
    | cons d ds =>
      rw [htext] at h
      rw [(List.cons_prefix_cons.1 h).1]
      rfl
  simp only [List.mem_cons, List.not_mem_nil, or_false, not_or] at hother
  refine ⟨c, rest, rfl, next_token hblank (by tauto)
    (fun h => absurd h (by tauto)) (by tauto) ?_⟩
  rw [token_plain (by simp; tauto), if_neg (by simp [hdigit]; tauto),
    if_neg (by simp [hword])]
  unfold symbol
  rw [hnone]
  simp [hc]

end Piece

/-- What is written as one token is read as that token. -/
theorem Spells.reads {kind : TokenKind} {text : List Char}
    (h : Spells kind text) : Piece.Reads kind text := by
  cases h with
  | word hc hcs => exact Piece.word_reads hc hcs
  | number hc hcs => exact Piece.number_reads hc hcs
  | quoted hquote hencoding hbody hsuffix =>
    exact Piece.quoted_reads hquote hencoding hbody hsuffix
  | raw hencoding hdelimiter hbody hsuffix =>
    exact Piece.raw_reads hencoding hdelimiter hbody hsuffix
  | operator hop hmark => exact Piece.operator_reads hop hmark
  | punctuator hc => exact Piece.punctuator_reads hc

end FrontEnd
