/-
The pieces of a text: tokens, directives, blanks and comments, one after
the other. Which piece comes next depends on the text ahead and on
whether a line begins here, and on nothing else; where the piece stands
is worked out later, from the text in front of it.

A `#` begins a directive if only blanks stand between it and the line
break (or the start of the text) before it. A comment does not change
that, and a break that is joined does not count.
-/
import FrontEnd.Token.Basic
import FrontEnd.Token.Literal
import FrontEnd.Token.Trivia
import FrontEnd.Token.Directive

namespace FrontEnd

open Text

/-- What a piece of text is. -/
inductive Role where
  | token (kind : TokenKind)
  /-- A directive, with its normalized text. -/
  | directive (line : List Char)
  | trivia (kind : TriviaKind)
deriving DecidableEq, Repr

/-- A piece of a text, and what is wrong with it. -/
structure Piece where
  role : Role
  text : List Char
  problems : List ProblemAt
deriving DecidableEq, Repr

/-- A piece, what follows it, and whether a line begins there. -/
structure Cut where
  piece : Piece
  rest : List Char
  fresh : Bool

namespace Piece

-- ============================================================== tokens

/-- What a raw string can begin with. -/
def rawOpeners : List (List Char) :=
  ["u8R\"", "uR\"", "UR\"", "LR\"", "R\""].map String.toList

/-- What a string or a character literal can begin with. -/
def literalOpeners : List (List Char × TokenKind) :=
  ["", "u8", "u", "U", "L"].flatMap fun encoding =>
    [(encoding.toList ++ ['"'], .string),
      (encoding.toList ++ ['\''], .character)]

/-- The quote around a literal of this kind. -/
def quoteOf (kind : TokenKind) : Char :=
  if kind = .character then '\'' else '"'

/-- The kind of a word. -/
def wordKind (word : String) : TokenKind :=
  if Word.isKeyword word then .keyword
  else if Word.isAlternative word then .operator
  else .identifier

/-- An operator, or a character that is a token by itself. -/
def symbol (c : Char) (cs : List Char) : TokenKind × Extent :=
  match Word.longestOperator (c :: cs) with
  | some op =>
    let op := op.toList
    (.operator, ⟨⟨op.reverse, (c :: cs).drop op.length⟩, []⟩)
  | none =>
    (.punctuation, ⟨⟨[c], cs⟩,
      if Word.punctuators.contains c then [] else [.unexpected c]⟩)

/-- The token that begins with `c` and goes on in `cs`. -/
def token (c : Char) (cs : List Char) : TokenKind × Extent :=
  match rawOpeners.find? (·.isPrefixOf (c :: cs)) with
  | some opener =>
    (.string, Extent.rawString opener.reverse
      ((c :: cs).drop opener.length))
  | none =>
  match literalOpeners.find? (·.1.isPrefixOf (c :: cs)) with
  | some (opener, kind) =>
    (kind, Extent.quoted (quoteOf kind) opener.reverse
      ((c :: cs).drop opener.length))
  | none =>
  if c.isDigit || (c == '.' && cs.head?.any Char.isDigit) then
    (.number, ⟨Extent.number c [c] cs, []⟩)
  else if isWordStart c then
    let r := Extent.word [c] cs
    (wordKind (String.ofList r.taken), ⟨r, []⟩)
  else symbol c cs

-- ========================================================= any piece

/-- Whether blanks come next: a blank, a break or a joined break. -/
def startsBlank (c : Char) (cs : List Char) : Bool :=
  isBlank c || isBreak c || (c == '\\' && startsBreak cs)

/-- A cut behind what was read, with problems at the piece's start. -/
def cut (role : Role) (r : Reading) (problems : List LexicalProblem)
    (fresh : Bool) : Cut :=
  ⟨⟨role, r.taken, problems.map (⟨·, []⟩)⟩, r.rest, fresh⟩

/-- The piece of a directive. -/
def ofScan (s : Directive.Scan) : Piece :=
  ⟨.directive s.line, s.reading.taken, s.problem.toList⟩

/-- The piece at the start of a text that is not empty. -/
def next (fresh : Bool) (c : Char) (cs : List Char) : Cut :=
  if startsBlank c cs then
    let (r, fresh) := Trivia.blanks fresh [] (c :: cs)
    cut (.trivia .blank) r [] fresh
  else if c == '/' && cs.head? == some '/' then
    cut (.trivia .lineComment)
      (Trivia.lineComment ['/', '/'] cs.tail) [] fresh
  else if c == '/' && cs.head? == some '*' then
    let (r, closed) := Trivia.blockComment ['*', '/'] cs.tail
    cut (.trivia .blockComment) r
      (if closed then [] else [.openComment]) fresh
  else if fresh && c == '#' then
    let scan := Directive.scan (c :: cs)
    ⟨ofScan scan, scan.reading.rest, false⟩
  else
    let (kind, extent) := token c cs
    cut (.token kind) extent.reading extent.problems false

-- ============================== a piece is some of the text ahead

/-- Reading that begins with some text leaves it taken. -/
theorem taken_of_from {read cs : List Char} {r : Reading}
    (h : Reading.From ⟨read, cs⟩ r) :
    r.taken ++ r.rest = read.reverse ++ cs := by
  simpa [Reading.taken] using h.text

theorem taken_ne_nil {read cs : List Char} {r : Reading}
    (h : Reading.From ⟨read, cs⟩ r) (hread : read ≠ []) :
    r.taken ≠ [] := by
  obtain ⟨m, k, -⟩ := h
  simp [Reading.taken, k, hread]

/-- The reading of a token: all of the text ahead, some of it taken. -/
theorem token_reading (c : Char) (cs : List Char) :
    (token c cs).2.reading.taken ++ (token c cs).2.reading.rest = c :: cs
      ∧ (token c cs).2.reading.taken ≠ [] := by
  have opened {opener : List Char} {r : Reading}
      (hp : opener.isPrefixOf (c :: cs)) (hne : opener ≠ [])
      (h : Reading.From
        ⟨opener.reverse, (c :: cs).drop opener.length⟩ r) :
      r.taken ++ r.rest = c :: cs ∧ r.taken ≠ [] := by
    refine ⟨?_, taken_ne_nil h (by simpa using hne)⟩
    obtain ⟨after, k⟩ := List.isPrefixOf_iff_prefix.1 hp
    rw [taken_of_from h, ← k]
    simp
  have one {r : Reading} (h : Reading.From ⟨[c], cs⟩ r) :
      r.taken ++ r.rest = c :: cs ∧ r.taken ≠ [] :=
    ⟨by simpa using taken_of_from h, taken_ne_nil h (by simp)⟩
  unfold token
  split
  · rename_i opener h
    have hp := List.find?_some h
    refine opened hp ?_ (Extent.from_rawString _ _)
    have := List.mem_of_find?_eq_some h
    rintro rfl
    revert this
    decide
  · split
    · rename_i opener kind h
      have hp := List.find?_some h
      refine opened hp ?_ (Extent.from_quoted _ _ _)
      have := List.mem_of_find?_eq_some h
      rintro rfl
      revert this
      cases kind <;> decide
    · split
      · exact one (Extent.from_number _ _ _)
      · split
        · exact one (Extent.from_word _ _)
        · unfold symbol
          split
          · rename_i op h
            have hp := List.find?_some h
            refine opened hp ?_ (.refl _)
            have := List.mem_of_find?_eq_some h
            intro k
            have : op = "" := by
              rw [← @String.ofList_toList op, k]
            subst this
            revert this
            decide
          · exact one (.refl _)

/-- Where blanks come next, some are read. -/
theorem blanks_ne_nil (fresh : Bool) {c : Char} {cs : List Char}
    (h : startsBlank c cs = true) :
    (Trivia.blanks fresh [] (c :: cs)).1.taken ≠ [] := by
  have read {d : Char} {ds : List Char} {f : Bool} {rest : List Char} :
      (Trivia.blanks f (d :: ds) rest).1.taken ≠ [] :=
    taken_ne_nil (Trivia.from_blanks _ _ _) (by simp)
  simp only [startsBlank, Bool.or_eq_true, Bool.and_eq_true,
    beq_iff_eq] at h
  unfold Trivia.blanks
  split <;> rename_i heq
  · simp at heq
  · exact read
  · obtain ⟨rfl, rfl⟩ := List.cons.inj heq
    rw [if_pos (by simpa [startsBreak, isBlank, isBreak] using h)]
    exact read
  · obtain ⟨rfl, rfl⟩ := List.cons.inj heq
    rename_i hjoin
    split
    · exact read
    · split
      · exact read
      · rename_i h1 h2
        rcases h with (h | h) | ⟨rfl, h⟩
        · exact absurd h h2
        · exact absurd h h1
        · cases cs with
          | nil => simp [startsBreak] at h
          | cons d ds => exact absurd rfl (hjoin _ _ rfl)

/-- A directive holds its `#` at least. -/
theorem scan_ne_nil (cs : List Char) :
    (Directive.scan ('#' :: cs)).reading.taken ≠ [] := by
  have h : Reading.From ⟨['#'], cs⟩
      (Directive.scan ('#' :: cs)).reading := by
    simp only [Directive.scan, Directive.scanFrom]
    exact Directive.from_scanFrom _ _ _ _ _ _
  exact taken_ne_nil h (by simp)

/-- A piece and what follows it make up the text, and the piece is not
empty. -/
theorem next_text (fresh : Bool) (c : Char) (cs : List Char) :
    (next fresh c cs).piece.text ++ (next fresh c cs).rest = c :: cs
      ∧ (next fresh c cs).piece.text ≠ [] := by
  have comment {second : Char} {r : Reading}
      (hc : c = '/') (hs : cs.head? = some second)
      (h : Reading.From ⟨[second, '/'], cs.tail⟩ r) :
      r.taken ++ r.rest = c :: cs ∧ r.taken ≠ [] := by
    refine ⟨?_, taken_ne_nil h (by simp)⟩
    obtain ⟨rest, rfl⟩ : ∃ rest, cs = second :: rest := by
      cases cs <;> simp_all
    simpa [hc] using taken_of_from h
  unfold next
  split
  · rename_i h
    exact ⟨taken_of_from (Trivia.from_blanks fresh [] (c :: cs)),
      blanks_ne_nil fresh h⟩
  · split
    · rename_i h
      simp only [Bool.and_eq_true, beq_iff_eq] at h
      exact comment h.1 h.2 (Trivia.from_lineComment _ _)
    · split
      · rename_i h
        simp only [Bool.and_eq_true, beq_iff_eq] at h
        exact comment h.1 h.2 (Trivia.from_blockComment _ _)
      · split
        · rename_i h
          simp only [Bool.and_eq_true, beq_iff_eq] at h
          have hfrom := Directive.from_scanFrom 0 .code false [] [] (c :: cs)
          refine ⟨taken_of_from hfrom, ?_⟩
          rw [h.2]
          exact scan_ne_nil cs
        · exact token_reading c cs

/-- The pieces of a text, behind those that are done. -/
def split (fresh : Bool) (done : Array Piece) (cs : List Char) :
    Array Piece :=
  match cs with
  | [] => done
  | c :: cs =>
    let cut := next fresh c cs
    split cut.fresh (done.push cut.piece) cut.rest
termination_by cs.length
decreasing_by
  obtain ⟨htext, hne⟩ := next_text fresh c cs
  have hlen := congrArg List.length htext
  have hpos := List.length_pos_iff.2 hne
  rw [List.length_append] at hlen
  simp only [List.length_cons] at hlen ⊢
  omega

/-- The pieces of a text, in order. -/
def ofText (cs : List Char) : List Piece :=
  (split true #[] cs).toList

end Piece

end FrontEnd
