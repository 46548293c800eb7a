/-
What a directive scan makes of a text. `emitted` is the text that a scan
writes; `keeps` says that a text loses nothing when it is read: no
comment opens in it, no line break ends it and no backslash joins lines.
A text that is kept is emitted as it is, and no other one is, since
whatever is lost makes the text shorter (`line_eq_iff`).
-/
import FrontEnd.Token.Stream
import FrontEnd.Proofs.Token.Moves
import Mathlib.Data.List.DropRight

namespace FrontEnd

open Text

namespace Text

-- ====================================================== blanks at the end

theorem trimEnd_prefix (cs : List Char) : trimEnd cs <+: cs :=
  List.rdropWhile_prefix isSpace cs

theorem trimEnd_trimEnd (cs : List Char) :
    trimEnd (trimEnd cs) = trimEnd cs :=
  List.rdropWhile_idempotent isSpace cs

theorem trimEnd_cons {c : Char} (h : isSpace c = false)
    (cs : List Char) : ∃ ds, trimEnd (c :: cs) = c :: ds := by
  rw [trimEnd, List.reverse_cons, List.dropWhile_append]
  split
  · exact ⟨[], by simp [h]⟩
  · exact ⟨(cs.reverse.dropWhile isSpace).reverse, by simp⟩

end Text

namespace Directive

variable {mode mode' : Mode} {inNumber after : Bool}
  {read text : List Char} {c : Char} {cs : List Char} {swallow : Nat}
  {emit : Option Char}

-- ================================================== text that is kept

/-- Whether a character, or what it opens, is lost from a text that is
read as a directive. -/
def loses (mode : Mode) (c : Char) (cs : List Char) : Bool :=
  match mode with
  | .code => isBreak c || joinsAt mode c cs || opensComment c cs
  | .literal quote _ _ =>
    (isBreak c && quote != '"') || joinsAt mode c cs
  | .runaway _ => false
  | .lineComment | .blockComment _ => true

/-- Whether all of a text is kept when it is read behind another one
that was. -/
def keeps (mode : Mode) (inNumber : Bool) (text : List Char) :
    List Char → Bool
  | [] => true
  | c :: cs =>
    !loses mode c cs &&
      match step mode inNumber text text c cs with
      | .stop _ => false
      | .go mode _ _ inNumber => keeps mode inNumber (c :: text) cs

/-- A character that is not lost is emitted as it is. -/
theorem go_of_kept (hloses : loses mode c cs = false) (inNumber : Bool)
    (read text : List Char) : ∃ mode' after,
      step mode inNumber read text c cs = .go mode' 0 (some c) after := by
  have hmove := step_moves mode inNumber read text c cs
  generalize step mode inNumber read text c cs = st at hmove
  cases hmove with
  | lineEnd hmode hc =>
      rcases hmode with rfl | rfl <;> simp [loses, hc] at hloses
  | literalEnd hquote hc => simp [loses, hc, hquote] at hloses
  | join hjoin => cases mode <;> simp_all [loses, joinsAt, Mode.joins]
  | skipLine | skipBlock | closeBlock => simp [loses] at hloses
  | openLine hcs | openBlock hcs =>
      simp [loses, opensComment, hcs] at hloses
  | runAway | copy | escaped | escape | closeLiteral | insideLiteral
  | openLiteral | plain => exact ⟨_, _, rfl⟩

/-- Only characters that are not lost are emitted as they are. -/
theorem kept_of_go
    (h : Move inNumber read text mode c cs (.go mode' 0 (some c) after)) :
    loses mode c cs = false := by
  generalize hst : Step.go mode' 0 (some c) after = st at h
  cases h with
  | join hjoin =>
      have hlength : breakLength cs ≠ 0 := by
        unfold breakLength
        split <;> simp
      simp only [Step.go.injEq] at hst
      exact absurd hst.2.1.symm hlength
  | runAway hc =>
      have hne : c ≠ '\\' := by
        rintro rfl
        exact absurd hc (by decide)
      simp [loses, joinsAt, hne]
  | copy => rfl
  | escaped hc hjoin => simp [loses, hc, hjoin]
  | escape hjoin => simp [loses, joinsAt, hjoin, isBreak]
  | closeLiteral hquote hne => simp [loses, joinsAt, hquote, hne]
  | insideLiteral hc hne => simp [loses, joinsAt, hc, hne]
  | openLiteral hopen =>
      rcases quote_of_opens hopen with rfl | rfl <;>
        simp [loses, joinsAt, opensComment, isBreak]
  | plain hc hjoin hcomment => simp [loses, hc, hjoin, hcomment]
  | lineEnd | literalEnd | skipLine | skipBlock | closeBlock | openLine
  | openBlock => simp at hst

theorem joinsAt_of_kept (hloses : loses mode c cs = false) :
    joinsAt mode c cs = false := by
  cases mode <;> simp_all [loses, joinsAt, Mode.joins]

/-- Text is kept if its first character is, and the rest behind it. -/
theorem keeps_cons : keeps mode inNumber text (c :: cs) ↔
    ∃ mode' after, step mode inNumber text text c cs
        = .go mode' 0 (some c) after
      ∧ keeps mode' after (c :: text) cs := by
  simp only [keeps, Bool.and_eq_true, Bool.not_eq_true']
  constructor
  · rintro ⟨hloses, h⟩
    obtain ⟨mode', after, hst⟩ := go_of_kept hloses inNumber text text
    rw [hst] at h
    exact ⟨mode', after, hst, h⟩
  · rintro ⟨mode', after, hst, h⟩
    have hmove := step_moves mode inNumber text text c cs
    rw [hst] at hmove ⊢
    exact ⟨kept_of_go hmove, h⟩

-- ========================================================= what is emitted

/-- The text that a scan emits from some state on, in order. -/
def emitted (swallow : Nat) (mode : Mode) (inNumber : Bool)
    (read text : List Char) : List Char → List Char
  | [] => []
  | c :: cs =>
    match swallow with
    | swallow + 1 => emitted swallow mode inNumber (c :: read) text cs
    | 0 =>
      match step mode inNumber read text c cs with
      | .stop _ => []
      | .go mode swallow emit inNumber => emit.toList ++
        emitted swallow mode inNumber (c :: read) (emit.toList ++ text) cs

theorem emitted_stop {problem : Option ProblemAt}
    (h : step mode inNumber read text c cs = .stop problem) :
    emitted 0 mode inNumber read text (c :: cs) = [] := by
  simp [emitted, h]

theorem emitted_go
    (h : step mode inNumber read text c cs = .go mode' swallow emit after) :
    emitted 0 mode inNumber read text (c :: cs) = emit.toList ++
      emitted swallow mode' after (c :: read) (emit.toList ++ text) cs := by
  simp [emitted, h]

theorem scanFrom_text (swallow : Nat) (mode : Mode) (inNumber : Bool)
    (read text cs : List Char) :
    (scanFrom swallow mode inNumber read text cs).text
      = (emitted swallow mode inNumber read text cs).reverse ++ text := by
  induction swallow, mode, inNumber, read, text, cs using run_induction with
  | done => rfl
  | skip _ _ _ _ _ _ _ ih => exact ih
  | stop _ _ _ _ _ _ _ hst =>
      rw [scanFrom_stop hst, emitted_stop hst]
      rfl
  | go _ _ _ _ _ _ _ _ emit _ hst _ ih =>
      rw [scanFrom_go hst, emitted_go hst, ih]
      cases emit <;> simp

/-- What is swallowed is not emitted, and at most one character is for
each that is not. -/
theorem length_emitted (swallow : Nat) (mode : Mode) (inNumber : Bool)
    (read text cs : List Char) :
    (emitted swallow mode inNumber read text cs).length
      ≤ cs.length - swallow := by
  induction swallow, mode, inNumber, read, text, cs using run_induction with
  | done => exact Nat.zero_le _
  | skip _ _ _ _ _ _ _ ih =>
      rw [emitted, List.length_cons]
      omega
  | stop _ _ _ _ _ _ _ hst => simp [emitted_stop hst]
  | go _ _ _ _ _ _ _ _ emit _ hst _ ih =>
      have hemit : emit.toList.length ≤ 1 := by
        cases emit <;> simp
      rw [emitted_go hst, List.length_append, List.length_cons]
      omega

-- ====================================================== reading kept text

/-- Text that is kept is emitted as it is. -/
theorem emitted_of_keeps (h : keeps mode inNumber text cs) :
    emitted 0 mode inNumber text text cs = cs := by
  induction cs generalizing mode inNumber text with
  | nil => rfl
  | cons c cs ih =>
      obtain ⟨mode', after, hst, h⟩ := keeps_cons.1 h
      rw [emitted_go hst]
      exact congrArg (c :: ·) (ih h)

/-- Text that is kept belongs to the directive. -/
theorem rest_of_keeps (h : keeps mode inNumber text cs) :
    (scanFrom 0 mode inNumber text text cs).reading.rest = [] := by
  induction cs generalizing mode inNumber text with
  | nil => rfl
  | cons c cs ih =>
      obtain ⟨mode', after, hst, h⟩ := keeps_cons.1 h
      rw [scanFrom_go hst]
      exact ih h

/-- Where a character is lost, less is emitted than read. -/
private theorem emits_less
    (h : Move inNumber read text mode c cs (.go mode' swallow emit after))
    (hloses : loses mode c cs = true) :
    emit.toList.length + (cs.length - swallow) ≤ cs.length := by
  have hkept : ¬(swallow = 0 ∧ emit = some c) := by
    rintro ⟨rfl, rfl⟩
    simp [kept_of_go h] at hloses
  cases h with
  | join hjoin =>
      have hemit : ∀ o : Option Char, o.toList.length ≤ 1 := by
        intro o
        cases o <;> simp
      have hlength : 1 ≤ breakLength cs := by
        unfold breakLength
        split <;> simp
      have hcs : 1 ≤ cs.length := by
        cases cs <;> simp_all [joinsAt, startsBreak]
      have := hemit (if mode = .lineComment then none else some ' ')
      omega
  | skipLine | skipBlock | closeBlock | openLine | openBlock => simp
  | runAway | copy | escaped | escape | closeLiteral | insideLiteral
  | openLiteral | plain => exact absurd ⟨rfl, rfl⟩ hkept

/-- Text of which nothing is missing was kept. -/
theorem keeps_of_length
    (h : cs.length ≤ (emitted 0 mode inNumber text text cs).length) :
    keeps mode inNumber text cs := by
  induction cs generalizing mode inNumber text with
  | nil => rfl
  | cons c cs ih =>
      by_cases hloses : loses mode c cs
      · have hmove := step_moves mode inNumber text text c cs
        cases hst : step mode inNumber text text c cs with
        | stop problem => simp [emitted_stop hst] at h
        | go mode' swallow emit after =>
            rw [hst] at hmove
            rw [emitted_go hst, List.length_append, List.length_cons] at h
            have := emits_less hmove hloses
            have := length_emitted swallow mode' after (c :: text)
              (emit.toList ++ text) cs
            omega
      · rw [Bool.not_eq_true] at hloses
        obtain ⟨mode', after, hst⟩ := go_of_kept hloses inNumber text text
        rw [emitted_go hst] at h
        exact keeps_cons.2 ⟨mode', after, hst, ih (by simpa using h)⟩

/-- What is kept does not depend on what follows. -/
theorem keeps_prefix {more : List Char}
    (h : keeps mode inNumber text (cs ++ more)) :
    keeps mode inNumber text cs := by
  induction cs generalizing mode inNumber text with
  | nil => rfl
  | cons c cs ih =>
      rw [List.cons_append] at h
      obtain ⟨mode', after, hst, h⟩ := keeps_cons.1 h
      have hmove := step_moves mode inNumber text text c (cs ++ more)
      rw [hst] at hmove
      have hloses := kept_of_go hmove
      cases cs with
      | nil =>
          have hloses : loses mode c [] = false := by
            cases mode <;>
              simp_all [loses, joinsAt, startsBreak, opensComment]
          obtain ⟨mode'', after', hst'⟩ :=
            go_of_kept hloses inNumber text text
          exact keeps_cons.2 ⟨mode'', after', hst', rfl⟩
      | cons d cs =>
          refine keeps_cons.2 ⟨mode', after, ?_, ih h⟩
          rw [← hst]
          apply step_congr
          · rfl
          · intro hjoin
            have : joinsAt mode c (d :: cs ++ more) := hjoin
            rw [joinsAt_of_kept hloses] at this
            cases this

/-- The normalized text of a directive. -/
theorem scan_line (cs : List Char) :
    (scan cs).line = trimEnd (emitted 0 .code false [] [] cs) := by
  rw [Scan.line, scan, scanFrom_text, List.append_nil, trimEnd]

/-- A line without blanks at its end is the normal form of itself if
and only if nothing of it is lost. -/
theorem line_eq_iff (htrim : trimEnd cs = cs) :
    (scan cs).line = cs ↔ keeps .code false [] cs := by
  rw [scan_line]
  constructor
  · intro h
    apply keeps_of_length
    have hle : (trimEnd (emitted 0 .code false [] [] cs)).length
        ≤ (emitted 0 .code false [] [] cs).length := by
      simp only [trimEnd, List.length_reverse]
      exact (List.dropWhile_sublist _).length_le.trans (by simp)
    rwa [h] at hle
  · intro h
    rw [emitted_of_keeps h, htrim]

end Directive

end FrontEnd
