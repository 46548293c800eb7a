/-
What the scan of a directive reports is the literal or comment that was
left open, at its opening (`scan_opening`). A scan that ends with a
problem is inside of what the problem names, and has been since its
opening was read: whatever closes in between gives rise to problems
further on only (`problem_source`). So the opening alone, with what
follows it, leads to the same problem (`problem_alone`), and so does the
text up to and with the opening.
-/
import FrontEnd.Proofs.Token.Moves

namespace FrontEnd

/-- The characters that open what a problem says was left open. -/
def LexicalProblem.opener : LexicalProblem → List Char
  | openString => ['"']
  | openCharacter => ['\'']
  | openComment => ['/', '*']
  | _ => []

/-- An opening begins with a mark. -/
theorem LexicalProblem.opener_eq_cons {problem : LexicalProblem}
    (h : problem.opener ≠ []) :
    ∃ d ds, Text.isBreak d = false ∧ problem.opener = d :: ds := by
  cases problem <;> simp [opener, Text.isBreak] at h ⊢

namespace Directive

open Text

variable {mode mode' : Mode} {inNumber after : Bool}
  {read text : List Char} {c : Char} {cs : List Char} {swallow : Nat}
  {emit : Option Char} {e : ProblemAt}

-- =============================================== what a move leaves open

/-- A directive that ends is in the state that the end of the text would
find. -/
theorem stop_problem {problem : Option ProblemAt}
    (h : Move inNumber read text mode c cs (.stop problem)) :
    problem = mode.atEnd := by
  cases h with
  | lineEnd hmode => rcases hmode with rfl | rfl <;> rfl
  | literalEnd hquote => simp [Mode.atEnd, hquote]

/-- A character of code that opens a comment or a literal, with the
problem there is if it stays open, the mode that it leads to, and how
many characters it takes along. -/
inductive Opening (inNumber : Bool) (read : List Char) :
    Char → List Char → ProblemAt → Mode → Nat → Prop
  | comment {cs : List Char} (hcs : cs.head? = some '*') :
      Opening inNumber read '/' cs ⟨.openComment, read.reverse⟩
        (.blockComment read) 1
  | string {cs : List Char} :
      Opening inNumber read '"' cs ⟨.openString, read.reverse⟩
        (.literal '"' false read) 0
  | character {cs : List Char} (hopen : opensLiteral inNumber '\'' cs) :
      Opening inNumber read '\'' cs ⟨.openCharacter, read.reverse⟩
        (.literal '\'' false read) 0

/-- What is open after a move was open before, or the move opened it in
code. -/
theorem open_after
    (h : Move inNumber read text mode c cs (.go mode' swallow emit after))
    (hopen : mode'.atEnd = some e) :
    mode.atEnd = some e
      ∨ mode = .code ∧ Opening inNumber read c cs e mode' swallow := by
  cases h with
  | runAway | copy | join | skipBlock | escaped | escape | insideLiteral =>
      exact .inl hopen
  | skipLine | closeBlock | closeLiteral | openLine | plain => cases hopen
  | openBlock hcs =>
      obtain rfl := Option.some.inj hopen
      exact .inr ⟨rfl, .comment hcs⟩
  | openLiteral hliteral =>
      obtain rfl := Option.some.inj hopen
      rcases quote_of_opens hliteral with rfl | rfl
      · exact .inr ⟨rfl, .string⟩
      · exact .inr ⟨rfl, .character hliteral⟩

theorem Opening.open_atEnd (h : Opening inNumber read c cs e mode swallow) :
    mode.atEnd = some e := by
  cases h <;> rfl

theorem Opening.before_eq (h : Opening inNumber read c cs e mode swallow) :
    e.before = read.reverse := by
  cases h <;> rfl

/-- A scan ends with what is open now, or with something that is opened
later. -/
theorem problem_source (swallow : Nat) (mode : Mode) (inNumber : Bool)
    (read text cs : List Char)
    (h : (scanFrom swallow mode inNumber read text cs).problem = some e) :
    mode.atEnd = some e ∨ read.length ≤ e.before.length := by
  induction swallow, mode, inNumber, read, text, cs using run_induction with
  | done => exact .inl h
  | skip _ _ _ read _ c _ ih =>
      refine (ih h).imp_right fun hle => ?_
      rw [List.length_cons] at hle
      omega
  | stop _ _ _ _ _ _ _ hst hmove =>
      rw [scanFrom_stop hst] at h
      left
      rw [← stop_problem hmove]
      exact h
  | go _ _ read _ c _ _ _ _ _ hst hmove ih =>
      rw [scanFrom_go hst] at h
      rcases ih h with hopen | hle
      · rcases open_after hmove hopen with hsame | ⟨-, hopening⟩
        · exact .inl hsame
        · right
          exact Nat.le_of_eq (by simp [hopening.before_eq])
      · right
        rw [List.length_cons] at hle
        omega

-- ================================================= an opening on its own

/-- The mode as if what is open had been opened at the start of the
text. -/
def Mode.alone : Mode → Mode
  | .blockComment _ => .blockComment []
  | .literal quote escaped _ => .literal quote escaped []
  | .runaway _ => .runaway []
  | mode => mode

theorem atEnd_alone (h : mode.atEnd = some e) :
    mode.alone.atEnd = some ⟨e.problem, []⟩ := by
  cases mode <;> simp_all [Mode.atEnd, Mode.alone]
  all_goals rw [← h]

theorem joinsAt_alone : joinsAt mode.alone c cs = joinsAt mode c cs := by
  cases mode <;> rfl

/-- Inside of what is open, a move does not depend on what was read. -/
theorem move_alone (hopen : mode.atEnd ≠ none)
    (h : Move inNumber read text mode c cs (.go mode' swallow emit after))
    (inNumber' : Bool) (read' text' : List Char) :
    ∃ after', Move inNumber' read' text' mode.alone c cs
      (.go mode'.alone swallow emit after') := by
  cases h with
  | runAway hc => exact ⟨_, .runAway hc⟩
  | copy => exact ⟨_, .copy⟩
  | join hjoin =>
      have hmode : mode.alone = .lineComment ↔ mode = .lineComment := by
        cases mode <;> simp [Mode.alone]
      rw [← joinsAt_alone] at hjoin
      exact ⟨_, by simpa only [hmode] using Move.join hjoin⟩
  | skipLine => exact absurd rfl hopen
  | skipBlock hclose => exact ⟨_, .skipBlock hclose⟩
  | closeBlock hcs => exact ⟨_, .closeBlock hcs⟩
  | escaped hc hjoin => exact ⟨_, .escaped hc hjoin⟩
  | escape hjoin => exact ⟨_, .escape hjoin⟩
  | closeLiteral hquote hne => exact ⟨_, .closeLiteral hquote hne⟩
  | insideLiteral hc hne hquote => exact ⟨_, .insideLiteral hc hne hquote⟩
  | openLine | openBlock | openLiteral | plain => exact absurd rfl hopen

theorem stop_alone {problem : Option ProblemAt}
    (hopen : mode.atEnd ≠ none)
    (h : Move inNumber read text mode c cs (.stop problem))
    (inNumber' : Bool) (read' text' : List Char) :
    ∃ problem', Move inNumber' read' text' mode.alone c cs
      (.stop problem') := by
  cases h with
  | lineEnd hmode => rcases hmode with rfl | rfl <;> exact absurd rfl hopen
  | literalEnd hquote hc => exact ⟨_, .literalEnd hquote hc⟩

/-- What is left open by a scan is left open as well if it was opened at
the start of the text. -/
theorem problem_alone (swallow : Nat) (mode : Mode) (inNumber : Bool)
    (read text cs : List Char)
    (h : (scanFrom swallow mode inNumber read text cs).problem = some e)
    (hopen : mode.atEnd = some e) (hread : e.before.length < read.length)
    (inNumber' : Bool) (read' text' : List Char) :
    (scanFrom swallow mode.alone inNumber' read' text' cs).problem
      = some ⟨e.problem, []⟩ := by
  induction swallow, mode, inNumber, read, text, cs using run_induction
    generalizing inNumber' read' text' with
  | done => exact atEnd_alone hopen
  | skip _ _ _ read _ c _ ih =>
      apply ih h hopen
      rw [List.length_cons]
      omega
  | stop _ _ _ _ _ _ problem hst hmove =>
      obtain ⟨problem', halone⟩ :=
        stop_alone (by simp [hopen]) hmove inNumber' read' text'
      rw [scanFrom_stop halone.step_eq, stop_problem halone]
      exact atEnd_alone hopen
  | go _ _ read _ c _ _ _ _ _ hst hmove ih =>
      have hlonger : e.before.length < (c :: read).length := by
        rw [List.length_cons]
        omega
      obtain ⟨after', halone⟩ :=
        move_alone (by simp [hopen]) hmove inNumber' read' text'
      rw [scanFrom_go hst] at h
      rw [scanFrom_go halone.step_eq]
      -- had it been closed here, the problem would lie further on
      rcases problem_source _ _ _ _ _ _ h with hstill | hle
      · exact ih h hstill hlonger _ _ _
      · omega

-- ======================================== the opening of what is reported

namespace Opening

variable (h : Opening inNumber read c cs e mode swallow)
include h

/-- The characters of the opening, and what it takes along. -/
theorem text_eq : ∃ more tail, cs = more ++ tail
    ∧ more.length = swallow ∧ e.problem.opener = c :: more := by
  cases h with
  | comment hcs =>
      obtain ⟨tail, rfl⟩ := List.head?_eq_some_iff.1 hcs
      exact ⟨['*'], tail, rfl, rfl, rfl⟩
  | string | character => exact ⟨[], cs, rfl, rfl, rfl⟩

/-- The opening at the end of a text is left open. -/
theorem problem_at_end (text : List Char) :
    (scanFrom 0 .code inNumber read text e.problem.opener).problem
      = some e := by
  cases h with
  | comment hcs => rfl
  | string => rfl
  | character hopen =>
      have hmove : Move inNumber read text .code '\'' []
          (.go (.literal '\'' false read) 0 (some '\'') false) :=
        .openLiteral (by simp [opensLiteral])
      rw [LexicalProblem.opener, scanFrom_go hmove.step_eq]
      rfl

/-- The opening at the start of a text. -/
theorem step_alone : ∃ emit after,
    step .code false [] [] c cs = .go mode.alone swallow emit after := by
  cases h with
  | comment hcs => exact ⟨_, _, (Move.openBlock hcs).step_eq⟩
  | string => exact ⟨_, _, (Move.openLiteral rfl).step_eq⟩
  | character hopen =>
      exact ⟨_, _, (Move.openLiteral (by simp [opensLiteral])).step_eq⟩

end Opening

theorem breakLength_cons (c : Char) (cs : List Char) :
    breakLength (c :: cs)
      = if c = '\r' ∧ cs.head? = some '\n' then 2 else 1 := by
  unfold breakLength
  split
  · rename_i heq
    cases heq
    simp
  · rename_i hpair
    rw [if_neg]
    rintro ⟨rfl, hcs⟩
    obtain ⟨ds, rfl⟩ := List.head?_eq_some_iff.1 hcs
    exact hpair ds rfl

/-- What follows an opening does not matter to a step in front of it. -/
theorem step_truncate (problem : LexicalProblem)
    (hmarked : problem.opener ≠ []) (front tail : List Char) :
    step mode inNumber read text c (front ++ (problem.opener ++ tail))
      = step mode inNumber read text c (front ++ problem.opener) := by
  obtain ⟨d, ds, hd, hopener⟩ := LexicalProblem.opener_eq_cons hmarked
  rw [hopener]
  apply step_congr
  · cases front <;> rfl
  · intro _
    cases front with
    | nil =>
        have hd' : d ≠ '\r' := by
          rintro rfl
          exact absurd hd (by decide)
        simp [breakLength_cons, hd']
    | cons x front =>
        simp only [List.cons_append, breakLength_cons]
        cases front <;> rfl

/-- A problem that a scan ends with, in the text that is scanned. -/
structure Opened (swallow : Nat) (mode : Mode) (inNumber : Bool)
    (read text cs : List Char) (e : ProblemAt) (tail : List Char) :
    Prop where
  /-- The text goes on to the opening of what the problem names. -/
  text_eq : ∃ front, cs = front ++ (e.problem.opener ++ tail)
    ∧ e.before = read.reverse ++ front
    ∧ (scanFrom swallow mode inNumber read text
        (front ++ e.problem.opener)).problem = some e
  marked : e.problem.opener ≠ []
  /-- The directive holds the opening. -/
  within : e.before ++ e.problem.opener <+:
    (scanFrom swallow mode inNumber read text cs).reading.taken
  /-- The opening with what follows it is left open. -/
  left_open : (scan (e.problem.opener ++ tail)).problem
    = some ⟨e.problem, []⟩

/-- What a move of code opens and the scan leaves open. -/
private theorem opened_here
    (hst : step .code inNumber read text c cs = .go mode swallow emit after)
    (hopening : Opening inNumber read c cs e mode swallow)
    (h : (scanFrom 0 .code inNumber read text (c :: cs)).problem = some e) :
    ∃ tail, Opened 0 .code inNumber read text (c :: cs) e tail := by
  obtain ⟨more, tail, rfl, hlength, hopener⟩ := hopening.text_eq
  have hbefore := hopening.before_eq
  rw [scanFrom_go hst] at h
  refine ⟨tail, ⟨⟨[], ?_, ?_, ?_⟩, ?_, ?_, ?_⟩⟩
  · rw [hopener]
    rfl
  · rw [hbefore, List.append_nil]
  · exact hopening.problem_at_end text
  · simp [hopener]
  · rw [scanFrom_go hst, ← hlength, scanFrom_swallow, hbefore, hopener]
    obtain ⟨moved, hread, -⟩ := from_scanFrom 0 mode after
      (more.reverse ++ c :: read) (emit.toList ++ text) tail
    rw [Reading.taken, hread]
    exact ⟨moved, by simp⟩
  · obtain ⟨emit', after', halone⟩ := hopening.step_alone
    rw [hopener, List.cons_append, scan, scanFrom_go halone]
    exact problem_alone _ _ _ _ _ _ h hopening.open_atEnd
      (by simp [hbefore]) _ _ _

/-- A problem that was not there from the start has its opening in the
text. -/
theorem scanFrom_opened (swallow : Nat) (mode : Mode) (inNumber : Bool)
    (read text cs : List Char)
    (h : (scanFrom swallow mode inNumber read text cs).problem = some e)
    (hclosed : mode.atEnd ≠ some e) :
    ∃ tail, Opened swallow mode inNumber read text cs e tail := by
  induction swallow, mode, inNumber, read, text, cs using run_induction with
  | done => exact absurd h hclosed
  | skip _ _ _ _ _ c _ ih =>
      obtain ⟨tail, ⟨front, htext, hbefore, hreached⟩, hmarked, hwithin,
        hleft⟩ := ih h hclosed
      refine ⟨tail, ⟨⟨c :: front, ?_, ?_, hreached⟩, hmarked, hwithin,
        hleft⟩⟩
      · rw [htext]
        rfl
      · simp [hbefore]
  | stop _ _ _ _ _ _ _ hst hmove =>
      rw [scanFrom_stop hst] at h
      exact absurd ((stop_problem hmove).symm.trans h) hclosed
  | go mode _ _ _ c _ mode' _ _ _ hst hmove ih =>
      by_cases hopen : mode'.atEnd = some e
      · rcases open_after hmove hopen with hsame | ⟨rfl, hopening⟩
        · exact absurd hsame hclosed
        · exact opened_here hst hopening h
      · rw [scanFrom_go hst] at h
        obtain ⟨tail, ⟨front, htext, hbefore, hreached⟩, hmarked,
          hwithin, hleft⟩ := ih h hopen
        refine ⟨tail, ⟨⟨c :: front, ?_, ?_, ?_⟩, hmarked, ?_, hleft⟩⟩
        · rw [htext]
          rfl
        · simp [hbefore]
        · rw [htext, step_truncate _ hmarked] at hst
          rw [List.cons_append, scanFrom_go hst]
          exact hreached
        · rw [scanFrom_go hst]
          exact hwithin

/-- What the scan of a directive reports. -/
theorem scan_opened (h : (scan cs).problem = some e) :
    ∃ tail, Opened 0 .code false [] [] cs e tail :=
  scanFrom_opened 0 .code false [] [] cs h (by simp [Mode.atEnd])

end Directive

end FrontEnd
