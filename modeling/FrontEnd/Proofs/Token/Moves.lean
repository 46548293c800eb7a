/-
The moves of the directive scan, one rule for each thing that a step can
do. `Directive.step` decides; `Move` says under which conditions which
step is taken, and `step_moves` that there is no other. Everything that
is proved of the scan goes by these rules.
-/
import FrontEnd.Token.Directive

namespace FrontEnd.Directive

open Text

-- ============================================================ the rules

/-- Whether a backslash would join a line break to the mode's line. -/
def joinsAt (mode : Mode) (c : Char) (cs : List Char) : Bool :=
  c == '\\' && startsBreak cs && mode.joins

/-- Whether a quote opens a literal in code; between the digits of a
number it separates them. -/
def opensLiteral (inNumber : Bool) (c : Char) (cs : List Char) : Bool :=
  c == '"' ||
    (c == '\'' && !(inNumber && cs.head?.any Char.isAlphanum))

theorem quote_of_opens {inNumber : Bool} {c : Char} {cs : List Char}
    (h : opensLiteral inNumber c cs) : c = '"' ∨ c = '\'' := by
  simp only [opensLiteral, Bool.or_eq_true, beq_iff_eq,
    Bool.and_eq_true] at h
  exact h.imp_right And.left

/-- Whether two characters open a comment. -/
def opensComment (c : Char) (cs : List Char) : Bool :=
  c == '/' && (cs.head? == some '/' || cs.head? == some '*')

/-- Whether the emitted text ends inside a number when `c` is added to
it in code. -/
def numberAfter (inNumber : Bool) (text : List Char) (c : Char) : Bool :=
  if c == '\'' then inNumber
  else if isNumberPart c then
    if text.head?.any (fun last => isNumberPart last || last == '\'')
    then inNumber else c.isDigit
  else false

/-- What a step can be, by mode and by the text ahead. -/
inductive Move (inNumber : Bool) (read text : List Char) :
    Mode → Char → List Char → Step → Prop
  /-- A break ends the directive outside of what reaches over lines. -/
  | lineEnd {mode : Mode} {c : Char} {cs : List Char}
      (hmode : mode = .code ∨ mode = .lineComment) (hc : isBreak c) :
      Move inNumber read text mode c cs (.stop none)
  /-- A break ends a character literal and leaves it open. -/
  | literalEnd {quote : Char} {escaped : Bool} {before : List Char}
      {c : Char} {cs : List Char} (hquote : quote ≠ '"')
      (hc : isBreak c) :
      Move inNumber read text (.literal quote escaped before) c cs
        (.stop (some ⟨.openCharacter, before.reverse⟩))
  /-- A string that is open at a break is copied from there on. -/
  | runAway {escaped : Bool} {before : List Char} {c : Char}
      {cs : List Char} (hc : isBreak c) :
      Move inNumber read text (.literal '"' escaped before) c cs
        (.go (.runaway before) 0 (some c) false)
  | copy {before : List Char} {c : Char} {cs : List Char} :
      Move inNumber read text (.runaway before) c cs
        (.go (.runaway before) 0 (some c) false)
  /-- A joined break becomes a space, and nothing in a comment. -/
  | join {mode : Mode} {c : Char} {cs : List Char}
      (hjoin : joinsAt mode c cs) :
      Move inNumber read text mode c cs (.go mode (breakLength cs)
        (if mode = .lineComment then none else some ' ') false)
  | skipLine {c : Char} {cs : List Char} (hc : isBreak c = false)
      (hjoin : joinsAt .lineComment c cs = false) :
      Move inNumber read text .lineComment c cs
        (.go .lineComment 0 none inNumber)
  | skipBlock {before : List Char} {c : Char} {cs : List Char}
      (hopen : ¬(c = '*' ∧ cs.head? = some '/')) :
      Move inNumber read text (.blockComment before) c cs
        (.go (.blockComment before) 0 none inNumber)
  | closeBlock {before cs : List Char} (hcs : cs.head? = some '/') :
      Move inNumber read text (.blockComment before) '*' cs
        (.go .code 1 none inNumber)
  /-- After a backslash a character has no meaning. -/
  | escaped {quote : Char} {before : List Char} {c : Char}
      {cs : List Char} (hc : isBreak c = false)
      (hjoin : joinsAt (.literal quote true before) c cs = false) :
      Move inNumber read text (.literal quote true before) c cs
        (.go (.literal quote false before) 0 (some c) inNumber)
  | escape {quote : Char} {before cs : List Char}
      (hjoin : startsBreak cs = false) :
      Move inNumber read text (.literal quote false before) '\\' cs
        (.go (.literal quote true before) 0 (some '\\') inNumber)
  | closeLiteral {quote : Char} {before cs : List Char}
      (hquote : isBreak quote = false) (hne : quote ≠ '\\') :
      Move inNumber read text (.literal quote false before) quote cs
        (.go .code 0 (some quote) inNumber)
  | insideLiteral {quote : Char} {before : List Char} {c : Char}
      {cs : List Char} (hc : isBreak c = false) (hne : c ≠ '\\')
      (hquote : c ≠ quote) :
      Move inNumber read text (.literal quote false before) c cs
        (.go (.literal quote false before) 0 (some c) inNumber)
  | openLine {cs : List Char} (hcs : cs.head? = some '/') :
      Move inNumber read text .code '/' cs
        (.go .lineComment 1 none inNumber)
  | openBlock {cs : List Char} (hcs : cs.head? = some '*') :
      Move inNumber read text .code '/' cs
        (.go (.blockComment read) 1 none inNumber)
  | openLiteral {c : Char} {cs : List Char}
      (hopen : opensLiteral inNumber c cs) :
      Move inNumber read text .code c cs
        (.go (.literal c false read) 0 (some c) false)
  /-- Any other character of code is emitted. -/
  | plain {c : Char} {cs : List Char} (hc : isBreak c = false)
      (hjoin : joinsAt .code c cs = false)
      (hcomment : opensComment c cs = false)
      (hliteral : opensLiteral inNumber c cs = false) :
      Move inNumber read text .code c cs
        (.go .code 0 (some c) (numberAfter inNumber text c))

-- ======================================================= no other steps

variable {inNumber : Bool} {read text : List Char} {c : Char}
  {cs : List Char}

/-- In code, what opens no comment opens a literal or is emitted. -/
theorem codeStep_eq (hcomment : opensComment c cs = false) :
    codeStep inNumber read text c cs =
      if opensLiteral inNumber c cs then
        .go (.literal c false read) 0 (some c) false
      else .go .code 0 (some c) (numberAfter inNumber text c) := by
  have hline : (c == '/' && cs.head? == some '/') = false := by
    cases h : c == '/' <;> simp_all [opensComment]
  have hblock : (c == '/' && cs.head? == some '*') = false := by
    cases h : c == '/' <;> simp_all [opensComment]
  simp only [codeStep, hline, hblock, Bool.false_eq_true, if_false]
  by_cases hstring : c = '"'
  · simp [hstring, opensLiteral]
  · by_cases hquote : c = '\''
    · subst hquote
      cases h : inNumber && cs.head?.any Char.isAlphanum <;>
        simp [h, opensLiteral, numberAfter]
    · by_cases hpart : isNumberPart c <;>
        simp [hstring, hquote, hpart, opensLiteral, numberAfter]

private theorem code_moves (hc : isBreak c = false)
    (hjoin : joinsAt .code c cs = false) :
    Move inNumber read text .code c cs
      (codeStep inNumber read text c cs) := by
  by_cases hcomment : opensComment c cs
  · simp only [opensComment, Bool.and_eq_true, Bool.or_eq_true,
      beq_iff_eq] at hcomment
    obtain ⟨rfl, hcs | hcs⟩ := hcomment
    · simpa [codeStep, hcs] using Move.openLine hcs
    · simpa [codeStep, hcs] using Move.openBlock hcs
  rw [Bool.not_eq_true] at hcomment
  rw [codeStep_eq hcomment]
  split
  case isTrue hliteral => exact .openLiteral hliteral
  case isFalse hliteral =>
    exact .plain hc hjoin hcomment (by simpa using hliteral)

private theorem literal_moves {quote : Char} {escaped : Bool}
    {before : List Char} (hc : isBreak c = false)
    (hjoin : joinsAt (.literal quote escaped before) c cs = false) :
    Move inNumber read text (.literal quote escaped before) c cs
      (plainStep (.literal quote escaped before) inNumber read text c cs) := by
  cases escaped with
  | true => exact .escaped hc hjoin
  | false =>
      simp only [plainStep, Bool.false_eq_true, if_false]
      by_cases hescape : c = '\\'
      · subst hescape
        exact .escape (by simpa [joinsAt, Mode.joins] using hjoin)
      · by_cases hquote : c = quote
        · subst hquote
          simpa [hescape] using Move.closeLiteral hc hescape
        · simpa [hescape, hquote] using Move.insideLiteral hc hescape hquote

/-- Every step is one of the moves. -/
theorem step_moves (mode : Mode) (inNumber : Bool)
    (read text : List Char) (c : Char) (cs : List Char) :
    Move inNumber read text mode c cs
      (step mode inNumber read text c cs) := by
  by_cases hc : isBreak c
  · rw [step, if_pos hc]
    cases mode with
    | code => exact .lineEnd (.inl rfl) hc
    | lineComment => exact .lineEnd (.inr rfl) hc
    | blockComment before =>
        refine .skipBlock ?_
        rintro ⟨rfl, -⟩
        exact absurd hc (by decide)
    | literal quote escaped before =>
        by_cases hquote : quote = '"'
        · subst hquote
          exact .runAway hc
        · simpa [breakStep, hquote] using Move.literalEnd hquote hc
    | runaway before => exact .copy
  by_cases hjoin : joinsAt mode c cs
  · rw [step, if_neg hc, if_pos (by simpa [joinsAt] using hjoin)]
    exact .join hjoin
  rw [step, if_neg hc, if_neg (by simpa [joinsAt] using hjoin)]
  rw [Bool.not_eq_true] at hc hjoin
  cases mode with
  | code => exact code_moves hc hjoin
  | lineComment => exact .skipLine hc hjoin
  | blockComment before =>
      by_cases hopen : c = '*' ∧ cs.head? = some '/'
      · obtain ⟨rfl, hcs⟩ := hopen
        simpa [plainStep, hcs] using Move.closeBlock hcs
      · simpa [plainStep, hopen] using Move.skipBlock hopen
  | literal quote escaped before => exact literal_moves hc hjoin
  | runaway before => exact .copy

private theorem joinsAt_quote {mode : Mode} (hc : c ≠ '\\') :
    joinsAt mode c cs = false := by
  simp [joinsAt, hc]

private theorem step_plain {mode : Mode} (hc : isBreak c = false)
    (hjoin : joinsAt mode c cs = false) :
    step mode inNumber read text c cs
      = plainStep mode inNumber read text c cs := by
  rw [step, hc, if_neg (by simp), ← joinsAt, hjoin, if_neg (by simp)]

/-- A move that the rules allow is the step taken. -/
theorem Move.step_eq {mode : Mode} {st : Step}
    (h : Move inNumber read text mode c cs st) :
    step mode inNumber read text c cs = st := by
  cases h with
  | lineEnd hmode hc =>
      rw [step, if_pos hc]
      rcases hmode with rfl | rfl <;> rfl
  | literalEnd hquote hc =>
      rw [step, if_pos hc]
      simp [breakStep, hquote]
  | runAway hc =>
      rw [step, if_pos hc]
      rfl
  | copy =>
      unfold step
      split
      · rfl
      · rw [if_neg (by simp [Mode.joins])]
        rfl
  | join hjoin =>
      have hc : c = '\\' := by
        simp only [joinsAt, Bool.and_eq_true, beq_iff_eq] at hjoin
        exact hjoin.1.1
      subst hc
      rw [step, if_neg (by decide), ← joinsAt, if_pos hjoin]
      rfl
  | skipLine hc hjoin =>
      rw [step_plain hc hjoin]
      rfl
  | skipBlock hopen =>
      by_cases hc : isBreak c
      · rw [step, if_pos hc]
        rfl
      · rw [step_plain (by simpa using hc) (by simp [joinsAt, Mode.joins])]
        simp only [plainStep]
        rw [if_neg (by simpa using hopen)]
  | closeBlock hcs =>
      rw [step_plain (by decide) (by simp [joinsAt])]
      simp [plainStep, hcs]
  | escaped hc hjoin =>
      rw [step_plain hc hjoin]
      rfl
  | escape hjoin =>
      rw [step_plain (by decide) (by simp [joinsAt, hjoin])]
      rfl
  | closeLiteral hquote hne =>
      rw [step_plain hquote (joinsAt_quote hne)]
      simp [plainStep, hne]
  | insideLiteral hc hne hquote =>
      rw [step_plain hc (joinsAt_quote hne)]
      simp [plainStep, hne, hquote]
  | openLine hcs =>
      rw [step_plain (by decide) (joinsAt_quote (by decide))]
      simp [plainStep, codeStep, hcs]
  | openBlock hcs =>
      rw [step_plain (by decide) (joinsAt_quote (by decide))]
      simp [plainStep, codeStep, hcs]
  | openLiteral hopen =>
      have hc := quote_of_opens hopen
      have hcomment : opensComment c cs = false := by
        rcases hc with rfl | rfl <;> rfl
      rw [step_plain (by rcases hc with rfl | rfl <;> rfl)
        (joinsAt_quote (by rcases hc with rfl | rfl <;> decide)),
        plainStep, codeStep_eq hcomment, if_pos hopen]
  | plain hc hjoin hcomment hliteral =>
      rw [step_plain hc hjoin, plainStep, codeStep_eq hcomment,
        if_neg (by simp [hliteral])]

/-- A step looks no further than at the next character, and where it
joins lines at the one behind that. -/
theorem step_congr {mode : Mode} {ds : List Char}
    (hhead : cs.head? = ds.head?)
    (hlength : joinsAt mode c cs → breakLength cs = breakLength ds) :
    step mode inNumber read text c cs
      = step mode inNumber read text c ds := by
  have hbreak : startsBreak cs = startsBreak ds := by
    cases cs <;> cases ds <;> simp_all [startsBreak]
  by_cases hjoin : joinsAt mode c cs
  · simp only [step, joinStep, plainStep, codeStep, hhead, hlength hjoin,
      hbreak]
  · have hplain := hjoin
    simp only [joinsAt, hbreak] at hplain
    simp only [step, plainStep, codeStep, hhead, hbreak, if_neg hplain]

-- ======================================================= the run of a scan

variable {mode mode' : Mode} {after : Bool} {swallow : Nat}
  {emit : Option Char}

theorem scanFrom_stop {problem : Option ProblemAt}
    (h : step mode inNumber read text c cs = .stop problem) :
    scanFrom 0 mode inNumber read text (c :: cs)
      = ⟨⟨read, c :: cs⟩, text, problem⟩ := by
  simp [scanFrom, h]

theorem scanFrom_go
    (h : step mode inNumber read text c cs = .go mode' swallow emit after) :
    scanFrom 0 mode inNumber read text (c :: cs)
      = scanFrom swallow mode' after (c :: read) (emit.toList ++ text) cs := by
  simp [scanFrom, h]

/-- Induction along the run of a scan: at the end of the text, at a
character that is swallowed, at one in front of which the directive
ends, and at one behind which the scan goes on. -/
theorem run_induction
    {motive : Nat → Mode → Bool → List Char → List Char → List Char → Prop}
    (done : ∀ swallow mode inNumber read text,
      motive swallow mode inNumber read text [])
    (skip : ∀ swallow mode inNumber read text c cs,
      motive swallow mode inNumber (c :: read) text cs →
      motive (swallow + 1) mode inNumber read text (c :: cs))
    (stop : ∀ mode inNumber read text c cs problem,
      step mode inNumber read text c cs = .stop problem →
      Move inNumber read text mode c cs (.stop problem) →
      motive 0 mode inNumber read text (c :: cs))
    (go : ∀ mode inNumber read text c cs mode' swallow emit after,
      step mode inNumber read text c cs = .go mode' swallow emit after →
      Move inNumber read text mode c cs (.go mode' swallow emit after) →
      motive swallow mode' after (c :: read) (emit.toList ++ text) cs →
      motive 0 mode inNumber read text (c :: cs))
    (swallow : Nat) (mode : Mode) (inNumber : Bool)
    (read text cs : List Char) :
    motive swallow mode inNumber read text cs := by
  induction cs generalizing swallow mode inNumber read text with
  | nil => exact done swallow mode inNumber read text
  | cons c cs ih =>
      cases swallow with
      | succ swallow => exact skip _ _ _ _ _ _ _ (ih _ _ _ _ _)
      | zero =>
          have hmove := step_moves mode inNumber read text c cs
          cases hst : step mode inNumber read text c cs with
          | stop problem =>
              rw [hst] at hmove
              exact stop _ _ _ _ _ _ _ hst hmove
          | go mode' swallow emit after =>
              rw [hst] at hmove
              exact go _ _ _ _ _ _ _ _ _ _ hst hmove (ih _ _ _ _ _)

/-- What is swallowed is read and has no other effect. -/
theorem scanFrom_swallow_add (more : List Char) (swallow : Nat) (mode : Mode)
    (inNumber : Bool) (read text cs : List Char) :
    scanFrom (more.length + swallow) mode inNumber read text (more ++ cs)
      = scanFrom swallow mode inNumber (more.reverse ++ read) text cs := by
  induction more generalizing read with
  | nil => simp
  | cons c more ih =>
      rw [List.length_cons, Nat.succ_add, List.cons_append, scanFrom, ih]
      simp

theorem scanFrom_swallow (more : List Char) (mode : Mode)
    (inNumber : Bool) (read text cs : List Char) :
    scanFrom more.length mode inNumber read text (more ++ cs)
      = scanFrom 0 mode inNumber (more.reverse ++ read) text cs :=
  scanFrom_swallow_add more 0 mode inNumber read text cs

end FrontEnd.Directive
