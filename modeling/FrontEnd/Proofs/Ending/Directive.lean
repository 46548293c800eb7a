/-
Directives of a text whose lines end another way. The scan of the written
text goes through the same modes: in front of a character of a line it
makes the same move (`Move.write`), a break of two characters leads where
one of a single character does (`scanFrom_break`), and what a move swallows
is longer by the breaks in it (`scanFrom_write`). The normalized text is
written alike, and so is what stands in front of a problem.
-/
import FrontEnd.Proofs.Ending.Basic
import FrontEnd.Proofs.Token.Moves

namespace FrontEnd

open Text LineEnding

/-- The problem in the text with this ending. -/
def ProblemAt.write (e : LineEnding) (p : ProblemAt) : ProblemAt :=
  ⟨p.problem, e.write p.before⟩

namespace Directive

/-- The mode in the text with this ending. -/
def Mode.write (e : LineEnding) : Mode → Mode
  | .code => .code
  | .lineComment => .lineComment
  | .blockComment before => .blockComment (e.writeBack before)
  | .literal quote escaped before =>
    .literal quote escaped (e.writeBack before)
  | .runaway before => .runaway (e.writeBack before)

/-- The step in the text with this ending, in front of `cs`. -/
def Step.write (e : LineEnding) (cs : List Char) : Step → Step
  | .stop problem => .stop (problem.map (ProblemAt.write e))
  | .go mode swallow emit inNumber =>
    .go (mode.write e) (e.write (cs.take swallow)).length emit inNumber

/-- The scan of the text with this ending. -/
def Scan.write (e : LineEnding) (s : Scan) : Scan :=
  ⟨s.reading.write e, e.writeBack s.text, s.problem.map (ProblemAt.write e)⟩

variable (e : LineEnding) {mode mode' : Mode} {inNumber after : Bool}
  {read text : List Char} {c : Char} {cs : List Char} {swallow : Nat}
  {emit : Option Char}

-- ======================================================= inside of a line

theorem atEnd_write (mode : Mode) :
    (mode.write e).atEnd = mode.atEnd.map (ProblemAt.write e) := by
  cases mode <;>
    simp [Mode.write, Mode.atEnd, ProblemAt.write, reverse_writeBack]

theorem joinsAt_write (mode : Mode) (c : Char) (cs : List Char) :
    joinsAt (mode.write e) c (e.write cs) = joinsAt mode c cs := by
  rw [joinsAt, joinsAt, startsBreak_write]
  cases mode <;> rfl

theorem opensComment_write (c : Char) (cs : List Char) :
    opensComment c (e.write cs) = opensComment c cs := by
  rw [opensComment, opensComment, e.head?_beq_write (by decide) (by decide),
    e.head?_beq_write (by decide) (by decide)]

theorem opensLiteral_write (inNumber : Bool) (c : Char) (cs : List Char) :
    opensLiteral inNumber c (e.write cs) = opensLiteral inNumber c cs := by
  rw [opensLiteral, opensLiteral,
    e.head?_any_write (by decide) (by decide)]

theorem numberAfter_write (inNumber : Bool) (text : List Char) (c : Char) :
    numberAfter inNumber (e.writeBack text) c
      = numberAfter inNumber text c := by
  rw [numberAfter, numberAfter,
    e.head?_any_writeBack (by decide) (by decide)]

/-- A character of a line that is swallowed is swallowed alone. -/
theorem swallow_one {d : Char} (h : cs.head? = some d) (hd : d ≠ '\n') :
    (e.write (cs.take 1)).length = 1 := by
  cases cs with
  | nil => cases h
  | cons b bs =>
    obtain rfl := Option.some.inj h
    simp [write_plain e hd]

/-- A joined break is swallowed whole. -/
theorem swallow_break (h : startsBreak cs = true) (hcs : '\r' ∉ cs) :
    breakLength (e.write cs) = (e.write (cs.take (breakLength cs))).length := by
  cases cs with
  | nil => cases h
  | cons c cs =>
    obtain rfl := eq_feed hcs h
    cases e with
    | carriage =>
      show breakLength ('\r' :: carriage.write cs) = 1
      unfold breakLength
      split
      case h_1 heq => exact absurd (List.cons.inj heq).2 (write_ne_feed _ _ _)
      case h_2 => rfl
    | pair => rfl

/-- In front of a character of a line the moves are the same. -/
theorem Move.write {st : Step} (h : Move inNumber read text mode c cs st)
    (hc : isBreak c = false) (hcs : '\r' ∉ cs) :
    Move inNumber (e.writeBack read) (e.writeBack text) (mode.write e) c
      (e.write cs) (st.write e cs) := by
  have hjoined {mode : Mode} (hjoin : joinsAt mode c cs = false) :
      joinsAt (mode.write e) c (e.write cs) = false := by
    rwa [joinsAt_write]
  cases h with
  | lineEnd _ hbreak | literalEnd _ hbreak | runAway hbreak =>
    exact absurd hbreak (by simp [hc])
  | copy => exact .copy
  | join hjoin =>
    have hbreak : startsBreak cs = true := by
      simp only [joinsAt, Bool.and_eq_true] at hjoin
      exact hjoin.1.2
    have hsame : (if mode.write e = .lineComment then none else some ' ')
        = if mode = .lineComment then none else some ' ' := by
      cases mode <;> simp [Mode.write]
    rw [Step.write, ← swallow_break e hbreak hcs, ← hsame]
    exact .join (by rwa [joinsAt_write])
  | skipLine _ hjoin => exact .skipLine hc (hjoined hjoin)
  | skipBlock hopen =>
    refine .skipBlock ?_
    rwa [e.head?_write (by decide) (by decide)]
  | closeBlock hnext =>
    rw [Step.write, swallow_one e hnext (by decide)]
    exact .closeBlock ((e.head?_write (by decide) (by decide) cs).2 hnext)
  | escaped _ hjoin => exact .escaped hc (hjoined hjoin)
  | escape hjoin => exact .escape (by rwa [startsBreak_write])
  | closeLiteral _ hne => exact .closeLiteral hc hne
  | insideLiteral _ hne hquote => exact .insideLiteral hc hne hquote
  | openLine hnext =>
    rw [Step.write, swallow_one e hnext (by decide)]
    exact .openLine ((e.head?_write (by decide) (by decide) cs).2 hnext)
  | openBlock hnext =>
    rw [Step.write, swallow_one e hnext (by decide)]
    exact .openBlock ((e.head?_write (by decide) (by decide) cs).2 hnext)
  | openLiteral hopen =>
    exact .openLiteral (by rwa [opensLiteral_write])
  | plain _ hjoin hcomment hliteral =>
    rw [Step.write, ← numberAfter_write e]
    exact .plain hc (hjoined hjoin) (by rwa [opensComment_write])
      (by rwa [opensLiteral_write])

/-- No character of a line is emitted as a break. -/
theorem Move.emit_plain
    (h : Move inNumber read text mode c cs (.go mode' swallow emit after))
    (hc : isBreak c = false) (text : List Char) :
    e.writeBack (emit.toList ++ text) = emit.toList ++ e.writeBack text := by
  have hemit : ∀ d ∈ emit.toList, d ≠ '\n' := by
    cases h with
    | join =>
      split
      · simp
      · simp
    | skipLine | skipBlock | closeBlock | openLine | openBlock => simp
    | runAway | copy | escaped | closeLiteral | insideLiteral | openLiteral
    | plain => simpa using ne_feed hc
    | escape => simp
  rw [writeBack_append, writeBack_eq_self e hemit]

-- ============================================================= at a break

/-- What goes on behind a line feed goes on behind the other break. -/
theorem scanFrom_break
    (h : breakStep mode inNumber '\n' = .go mode' swallow emit after)
    (read text cs : List Char) :
    scanFrom 0 (mode.write e) inNumber (e.writeBack read) (e.writeBack text)
        (e.write ('\n' :: cs))
      = scanFrom (e.write (cs.take swallow)).length (mode'.write e) after
          (e.writeBack ('\n' :: read)) (e.writeBack (emit.toList ++ text))
          (e.write cs) := by
  cases mode with
  | code | lineComment => cases h
  | blockComment before =>
    obtain ⟨rfl, rfl, rfl, rfl⟩ := Step.go.inj h
    cases e <;> simp [tail] <;> rfl
  | literal quote escaped before =>
    unfold breakStep at h
    dsimp only at h
    split at h
    case isTrue hquote =>
      obtain rfl := beq_iff_eq.1 hquote
      obtain ⟨rfl, rfl, rfl, rfl⟩ := Step.go.inj h
      cases e <;> simp [tail] <;> rfl
    case isFalse => cases h
  | runaway before =>
    obtain ⟨rfl, rfl, rfl, rfl⟩ := Step.go.inj h
    cases e <;> simp [tail] <;> rfl

/-- What ends in front of a line feed ends in front of the other break. -/
theorem breakStep_stop {problem : Option ProblemAt}
    (h : breakStep mode inNumber '\n' = .stop problem) :
    breakStep (mode.write e) inNumber '\r'
      = .stop (problem.map (ProblemAt.write e)) := by
  cases mode with
  | code | lineComment =>
    obtain rfl := Step.stop.inj h
    rfl
  | blockComment before | runaway before => cases h
  | literal quote escaped before =>
    unfold breakStep at h
    dsimp only at h
    split at h
    case isTrue => cases h
    case isFalse hquote =>
      obtain rfl := Step.stop.inj h
      simp only [Mode.write, breakStep, if_neg hquote, Option.map_some,
        ProblemAt.write, reverse_writeBack]

-- ============================================================== the scan

theorem scanFrom_write (swallow : Nat) (mode : Mode) (inNumber : Bool)
    (read text cs : List Char) (h : '\r' ∉ cs) :
    scanFrom (e.write (cs.take swallow)).length (mode.write e) inNumber
        (e.writeBack read) (e.writeBack text) (e.write cs)
      = (scanFrom swallow mode inNumber read text cs).write e := by
  induction swallow, mode, inNumber, read, text, cs using run_induction with
  | done swallow mode inNumber read text =>
    simp [scanFrom, Scan.write, Reading.write, atEnd_write]
  | skip swallow mode inNumber read text c cs ih =>
    have hread : e.writeBack (c :: read)
        = (e.write [c]).reverse ++ e.writeBack read :=
      e.writeBack_append [c] read
    rw [scanFrom, ← ih (List.not_mem_of_not_mem_cons h), List.take_succ_cons,
      ← List.singleton_append, write_append, List.length_append,
      ← List.singleton_append (l := cs), write_append, hread]
    exact scanFrom_swallow_add _ _ _ _ _ _ _
  | stop mode inNumber read text c cs problem hst hmove =>
    rw [scanFrom_stop hst]
    by_cases hc : isBreak c = true
    · obtain rfl := eq_feed h hc
      exact scanFrom_stop (breakStep_stop e hst)
    · rw [Bool.not_eq_true] at hc
      have hmove := hmove.write e hc (List.not_mem_of_not_mem_cons h)
      rw [write_plain e (ne_feed hc), List.take_zero, write_nil,
        List.length_nil, scanFrom_stop hmove.step_eq, Scan.write,
        Reading.write, write_plain e (ne_feed hc)]
  | go mode inNumber read text c cs mode' swallow emit after hst hmove ih =>
    have hcs := List.not_mem_of_not_mem_cons h
    rw [scanFrom_go hst, ← ih hcs]
    by_cases hc : isBreak c = true
    · obtain rfl := eq_feed h hc
      exact scanFrom_break e hst read text cs
    · rw [Bool.not_eq_true] at hc
      have hgo := (hmove.write e hc hcs).step_eq
      rw [hmove.emit_plain e hc, writeBack_plain e (ne_feed hc),
        write_plain e (ne_feed hc)]
      exact scanFrom_go hgo

theorem scan_write (h : '\r' ∉ cs) :
    scan (e.write cs) = (scan cs).write e :=
  scanFrom_write e 0 .code false [] [] cs h

theorem line_write (s : Scan) : (s.write e).line = e.write s.line := by
  rw [Scan.line, Scan.line, Scan.write, dropWhile_isSpace_writeBack,
    reverse_writeBack]

end Directive

end FrontEnd
