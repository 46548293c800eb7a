/-
Literals and comments of a text whose lines end another way. Every
scanner commutes with `LineEnding.write`: what it has read and what is to
come are those of the text with line feeds, written with the other ending
(`Reading.write`). One lemma for each scanner, by induction on its run
over the text with line feeds; a break is read in one step there and in
one or two steps here, so the steps at a break come first
(`body_join`, `lineComment_join`, `blanks_join` and `blanks_break`).
-/
import Mathlib.Data.List.TakeDrop
import FrontEnd.Proofs.Ending.Basic
import FrontEnd.Token.Literal
import FrontEnd.Token.Trivia

namespace FrontEnd

open Text LineEnding

variable (e : LineEnding) {cs : List Char}

/-- A backslash that has no character behind it has none either way. -/
theorem LineEnding.unjoined {c : Char}
    (h : ∀ d ds, c = '\\' → cs = d :: ds → False) (d : Char)
    (ds : List Char) (hc : c = '\\') (hds : e.write cs = d :: ds) :
    False := by
  cases cs with
  | nil => cases hds
  | cons b bs => exact h b bs hc rfl

-- =============================================================== literals

namespace Extent

/-- The extent in the text with this ending. -/
def write (e : LineEnding) (x : Extent) : Extent :=
  ⟨x.reading.write e, x.problems⟩

theorem word_write (read cs : List Char) :
    word (e.writeBack read) (e.write cs) = (word read cs).write e := by
  unfold word
  induction cs generalizing read with
  | nil => rfl
  | cons c cs ih =>
    by_cases hc : c = '\n'
    · subst hc
      rw [write_feed, Reading.moveWhile, Reading.moveWhile,
        if_neg (by decide), if_neg (by decide)]
      rfl
    · rw [write_plain e hc, Reading.moveWhile, Reading.moveWhile,
        ← writeBack_plain e hc, ih]
      split
      · rfl
      · rw [Reading.write, write_plain e hc]

theorem number_write (last : Char) (read cs : List Char) :
    number last (e.writeBack read) (e.write cs)
      = (number last read cs).write e := by
  induction cs generalizing last read with
  | nil => rfl
  | cons c cs ih =>
    by_cases hc : c = '\n'
    · subst hc
      rw [write_feed, number, number, if_neg (by decide), if_neg (by simp),
        if_neg (by simp), if_neg (by decide), if_neg (by simp),
        if_neg (by simp)]
      rfl
    · have hnext : (e.write cs).head?.any Char.isAlphanum
          = cs.head?.any Char.isAlphanum :=
        e.head?_any_write (by decide) (by decide) cs
      rw [write_plain e hc, number, number, ← writeBack_plain e hc, ih,
        hnext]
      repeat' split
      all_goals first
        | rfl
        | rw [Reading.write, write_plain e hc]

theorem body_join (quote : Char) (read cs : List Char) :
    body true quote read ('\\' :: e.write ('\n' :: cs))
      = body true quote (e.writeBack ['\n', '\\'] ++ read) (e.write cs) := by
  cases e with
  | carriage =>
    show body true quote read ('\\' :: '\r' :: carriage.write cs) = _
    rw [body, if_neg (by simp)]
    · rfl
    · exact fun ds _ h => carriage.write_ne_feed cs ds h
  | pair => rfl

theorem body_unjoined (quote : Char) (read cs : List Char) :
    body false quote read ('\\' :: e.write ('\n' :: cs))
      = (⟨'\\' :: read, e.write ('\n' :: cs)⟩, false) := by
  cases e with
  | carriage =>
    show body false quote read ('\\' :: '\r' :: carriage.write cs) = _
    rw [body, if_pos (by decide)]
    · rfl
    · exact fun ds _ h => carriage.write_ne_feed cs ds h
  | pair => rfl

theorem body_write {quote : Char} (joined : Bool) (read : List Char)
    (hquote : isBreak quote = false) (h : '\r' ∉ cs) :
    body joined quote (e.writeBack read) (e.write cs)
      = ((body joined quote read cs).1.write e,
        (body joined quote read cs).2) := by
  fun_induction body joined quote read cs with
  | case1 read => rfl
  | case2 | case3 => simp at h
  | case4 read c cs hpair hbreak =>
    simp only [Bool.and_eq_true, Bool.not_eq_true'] at hbreak
    obtain rfl := eq_feed (List.not_mem_of_not_mem_cons h) hbreak.1
    rw [hbreak.2, write_plain e (by decide), body_unjoined, Reading.write,
      writeBack_plain e (by decide)]
  | case5 read c cs hpair hbreak ih =>
    have hcs : '\r' ∉ c :: cs := List.not_mem_of_not_mem_cons h
    have ih := ih fun hc => hcs (by simp [hc])
    rw [write_plain e (by decide)]
    by_cases hc : isBreak c = true
    · obtain rfl := eq_feed hcs hc
      obtain rfl : joined = true := by simpa [hc] using hbreak
      rw [body_join, ← writeBack_append]
      exact ih
    · have hfeed : c ≠ '\n' := ne_feed (by simpa using hc)
      rw [write_plain e hfeed, body, if_neg hbreak, ← ih,
        writeBack_plain e hfeed, writeBack_plain e (by decide)]
      exact fun ds hc _ => hcs (by simp [hc])
  | case6 read c cs hpair hjoin hc =>
    have hfeed : c ≠ '\n' := ne_feed (by rwa [beq_iff_eq.1 hc])
    rw [write_plain e hfeed, body, if_pos hc, ← writeBack_plain e hfeed]
    · rfl
    · exact fun _ => e.unjoined hjoin _ _
    · exact e.unjoined hjoin
  | case7 read c cs hpair hjoin hc hbreak =>
    obtain rfl := eq_feed h hbreak
    have hcarriage : ¬('\r' == quote) = true := by
      simpa using fun hr => by simp [← hr, isBreak] at hquote
    rw [write_feed, body, if_neg hcarriage, if_pos (by decide)]
    · rfl
    · exact fun _ h => absurd h (by decide)
    · exact fun _ _ h => absurd h (by decide)
  | case8 read c cs hpair hjoin hc hbreak ih =>
    have hfeed : c ≠ '\n' := ne_feed (by simpa using hbreak)
    rw [write_plain e hfeed, body, if_neg hc, if_neg hbreak,
      ← writeBack_plain e hfeed, ih fun hcs => h (by simp [hcs])]
    · exact fun _ => e.unjoined hjoin _ _
    · exact e.unjoined hjoin

theorem leftOpen_write (quote : Char) (r : Reading) :
    leftOpen quote (r.write e) = (leftOpen quote r).write e := by
  unfold leftOpen
  split
  · rw [Reading.toEnd_write]
    rfl
  · rfl

theorem quoted_write {quote : Char} (read : List Char)
    (hquote : isBreak quote = false) (h : '\r' ∉ cs) :
    quoted quote (e.writeBack read) (e.write cs)
      = (quoted quote read cs).write e := by
  unfold quoted
  rw [body_write e true read hquote h]
  generalize body true quote read cs = r
  obtain ⟨r, closed⟩ := r
  cases closed with
  | true =>
    dsimp only [Reading.write]
    rw [word_write]
    rfl
  | false => exact leftOpen_write e quote r

-- ============================================================ raw strings

/-- What stands before the first break of a text does not depend on how
the break is written. -/
theorem span_write {p : Char → Bool} (hfeed : p '\n' = false)
    (hcarriage : p '\r' = false) (n : Nat) (cs : List Char) :
    ((e.write cs).take n).takeWhile p = (cs.take n).takeWhile p
      ∧ ((((e.write cs).take n).dropWhile p).head? == some '(')
        = (((cs.take n).dropWhile p).head? == some '(') := by
  induction cs generalizing n with
  | nil => exact ⟨rfl, rfl⟩
  | cons c cs ih =>
    cases n with
    | zero => exact ⟨rfl, rfl⟩
    | succ n =>
      by_cases hc : c = '\n'
      · subst hc
        simp [hfeed, hcarriage]
      · rw [write_plain e hc, List.take_succ_cons, List.take_succ_cons]
        by_cases hp : p c = true
        · simp [hp, (ih n).1, (ih n).2]
        · simp [hp]

theorem delimiter?_write (cs : List Char) :
    delimiter? (e.write cs) = delimiter? cs := by
  unfold delimiter?
  rw [List.span_eq_takeWhile_dropWhile, List.span_eq_takeWhile_dropWhile]
  obtain ⟨htake, hdrop⟩ := span_write e (p := fun c =>
    !(c == '(' || c == ')' || c == '\\' || c == '"' || isSpace c))
    (by decide) (by decide) (maxDelimiter + 1) cs
  dsimp only
  rw [htake, hdrop]

/-- A delimiter holds no breaks. -/
theorem delimiter?_plain {delimiter : List Char}
    (h : delimiter? cs = some delimiter) {c : Char}
    (hc : c ∈ delimiter) : isBreak c = false := by
  unfold delimiter? at h
  rw [List.span_eq_takeWhile_dropWhile] at h
  dsimp only at h
  split at h
  · obtain rfl := Option.some.inj h
    have hp := List.all_eq_true.1 List.all_takeWhile c hc
    rw [← Bool.not_eq_true]
    intro hbreak
    simp only [isBreak, Bool.or_eq_true, beq_iff_eq] at hbreak
    rcases hbreak with rfl | rfl <;> exact absurd hp (by decide)
  · cases h

theorem through_write {closing : List Char} (hne : closing ≠ [])
    (hclosing : ∀ c ∈ closing, isBreak c = false)
    (read cs : List Char) :
    through closing (e.writeBack read) (e.write cs)
      = (through closing read cs).map (Reading.write e) := by
  -- no closing begins inside of a break
  have hpass {c : Char} (hc : isBreak c = true) (read cs : List Char) :
      through closing read (c :: cs) = through closing (c :: read) cs := by
    rw [through, if_neg]
    cases closing with
    | nil => exact absurd rfl hne
    | cons d ds =>
      have hd := hclosing d (by simp)
      have hdc : (d == c) = false := by
        simpa using fun h => by simp [h, hc] at hd
      simp [List.isPrefixOf, hdc]
  have hself : e.writeBack closing.reverse = closing.reverse :=
    writeBack_eq_self e fun c hc =>
      ne_feed (hclosing c (List.mem_reverse.1 hc))
  induction cs generalizing read with
  | nil => rfl
  | cons c cs ih =>
    by_cases hc : c = '\n'
    · subst hc
      rw [hpass (by decide), ← ih, writeBack_feed]
      cases e with
      | carriage => exact hpass (by decide) _ _
      | pair => exact (hpass (by decide) _ _).trans (hpass (by decide) _ _)
    · rw [write_plain e hc, through, through, ← write_plain e hc,
        e.isPrefixOf_write hclosing]
      split
      case isTrue hleading =>
        rw [e.drop_write hclosing hleading, Option.map_some, Reading.write,
          List.reverseAux_eq, List.reverseAux_eq, writeBack_append, hself]
      case isFalse => rw [← writeBack_plain e hc, ih]

theorem rawString_write (read : List Char) (h : '\r' ∉ cs) :
    rawString (e.writeBack read) (e.write cs)
      = (rawString read cs).write e := by
  unfold rawString
  rw [delimiter?_write, body_write e false read (by decide) h]
  cases hdelimiter : delimiter? cs with
  | some delimiter =>
    have hclosing : ∀ c ∈ ')' :: delimiter ++ ['"'], isBreak c = false := by
      intro c hc
      simp only [List.cons_append, List.mem_cons, List.mem_append,
        List.not_mem_nil, or_false] at hc
      rcases hc with rfl | hc | rfl
      · rfl
      · exact delimiter?_plain hdelimiter hc
      · rfl
    dsimp only
    rw [through_write e (by simp) hclosing]
    cases through (')' :: delimiter ++ ['"']) read cs with
    | some r =>
      dsimp only [Option.map_some, Reading.write]
      rw [word_write]
      rfl
    | none =>
      dsimp only [Option.map_none]
      rw [write, ← Reading.toEnd_write]
      rfl
  | none =>
    dsimp only
    generalize body false '"' read cs = r
    obtain ⟨r, closed⟩ := r
    cases closed with
    | true => rfl
    | false =>
      dsimp only
      rw [write, Reading.toEnd_write]

end Extent

-- ================================================================= trivia

namespace Trivia

theorem lineComment_join (read cs : List Char) :
    lineComment read ('\\' :: e.write ('\n' :: cs))
      = lineComment (e.writeBack ['\n', '\\'] ++ read) (e.write cs) := by
  cases e with
  | carriage =>
    show lineComment read ('\\' :: '\r' :: carriage.write cs) = _
    rw [lineComment, if_pos (by decide)]
    · rfl
    · exact fun ds _ h => carriage.write_ne_feed cs ds h
  | pair => rfl

theorem lineComment_write (read : List Char) (h : '\r' ∉ cs) :
    lineComment (e.writeBack read) (e.write cs)
      = (lineComment read cs).write e := by
  fun_induction lineComment read cs with
  | case1 read => rfl
  | case2 => simp at h
  | case3 read c cs hpair hbreak ih =>
    obtain rfl := eq_feed (List.not_mem_of_not_mem_cons h) hbreak
    rw [write_plain e (by decide), lineComment_join, ← writeBack_append]
    exact ih fun hc => h (by simp [hc])
  | case4 read c cs hpair hbreak ih =>
    have hcs : '\r' ∉ c :: cs := List.not_mem_of_not_mem_cons h
    have hfeed : c ≠ '\n' := ne_feed (by simpa using hbreak)
    rw [← ih hcs, write_plain e (by decide), write_plain e hfeed,
      writeBack_plain e (by decide), lineComment, if_neg hbreak]
    exact fun ds hc _ => hcs (by simp [hc])
  | case5 read c cs hpair hjoin hbreak =>
    obtain rfl := eq_feed h hbreak
    rw [write_feed, lineComment, if_pos (by decide)]
    · rfl
    · exact fun _ h => absurd h (by decide)
    · exact fun _ _ h => absurd h (by decide)
  | case6 read c cs hpair hjoin hbreak ih =>
    have hfeed : c ≠ '\n' := ne_feed (by simpa using hbreak)
    rw [write_plain e hfeed, lineComment, if_neg hbreak,
      ← writeBack_plain e hfeed, ih fun hcs => h (by simp [hcs])]
    · exact fun _ => e.unjoined hjoin _ _
    · exact e.unjoined hjoin

theorem blockComment_write (read cs : List Char) :
    blockComment (e.writeBack read) (e.write cs)
      = ((blockComment read cs).1.write e, (blockComment read cs).2) := by
  -- a break closes nothing
  have hpass {c : Char} (hc : isBreak c = true) (read cs : List Char) :
      blockComment read (c :: cs) = blockComment (c :: read) cs := by
    rw [blockComment]
    rintro ds rfl
    exact absurd hc (by decide)
  fun_induction blockComment read cs with
  | case1 => rfl
  | case2 read cs =>
    rw [write_plain e (by decide), write_plain e (by decide), blockComment,
      Reading.write, writeBack_plain e (by decide),
      writeBack_plain e (by decide)]
  | case3 read c cs hclose ih =>
    by_cases hc : c = '\n'
    · subst hc
      rw [← ih, writeBack_feed]
      cases e with
      | carriage => exact hpass (by decide) _ _
      | pair => exact (hpass (by decide) _ _).trans (hpass (by decide) _ _)
    · rw [write_plain e hc, blockComment, ← writeBack_plain e hc, ih]
      intro ds hstar hds
      obtain ⟨es, rfl, -⟩ := e.write_eq_cons (by decide) hds
      exact hclose es hstar rfl

theorem blanks_join (fresh : Bool) (read cs : List Char) :
    blanks fresh read ('\\' :: e.write ('\n' :: cs))
      = blanks fresh (e.writeBack ['\n', '\\'] ++ read) (e.write cs) := by
  cases e with
  | carriage =>
    show blanks fresh read ('\\' :: '\r' :: carriage.write cs) = _
    rw [blanks, if_pos (by decide)]
    · rfl
    · exact fun ds _ h => carriage.write_ne_feed cs ds h
  | pair => rfl

theorem blanks_break (fresh : Bool) (read cs : List Char) :
    blanks fresh read (e.write ('\n' :: cs))
      = blanks true (e.writeBack ['\n'] ++ read) (e.write cs) := by
  cases e with
  | carriage =>
    show blanks fresh read ('\r' :: carriage.write cs) = _
    rw [blanks, if_pos (by decide)]
    · rfl
    · exact fun _ h => absurd h (by decide)
    · exact fun _ _ h => absurd h (by decide)
  | pair => rfl

theorem blanks_write (fresh : Bool) (read : List Char) (h : '\r' ∉ cs) :
    blanks fresh (e.writeBack read) (e.write cs)
      = ((blanks fresh read cs).1.write e, (blanks fresh read cs).2) := by
  fun_induction blanks fresh read cs with
  | case1 => rfl
  | case2 => simp at h
  | case3 fresh read c cs hpair hbreak ih =>
    obtain rfl := eq_feed (List.not_mem_of_not_mem_cons h) hbreak
    rw [write_plain e (by decide), blanks_join, ← writeBack_append]
    exact ih fun hc => h (by simp [hc])
  | case4 fresh read c cs hpair hbreak =>
    have hcs : '\r' ∉ c :: cs := List.not_mem_of_not_mem_cons h
    have hfeed : c ≠ '\n' := ne_feed (by simpa using hbreak)
    rw [Reading.write, write_plain e (by decide), write_plain e hfeed, blanks,
      if_neg hbreak]
    exact fun ds hc _ => hcs (by simp [hc])
  | case5 fresh read c cs hpair hjoin hbreak ih =>
    obtain rfl := eq_feed h hbreak
    rw [blanks_break, ← writeBack_append]
    exact ih fun hc => h (by simp [hc])
  | case6 fresh read c cs hpair hjoin hbreak hblank ih =>
    have hfeed : c ≠ '\n' := ne_feed (by simpa using hbreak)
    rw [write_plain e hfeed, blanks, if_neg hbreak, if_pos hblank,
      ← writeBack_plain e hfeed, ih fun hcs => h (by simp [hcs])]
    · exact fun _ => e.unjoined hjoin _ _
    · exact e.unjoined hjoin
  | case7 fresh read c cs hpair hjoin hbreak hblank =>
    have hfeed : c ≠ '\n' := ne_feed (by simpa using hbreak)
    rw [Reading.write, write_plain e hfeed, blanks, if_neg hbreak,
      if_neg hblank]
    · exact fun _ => e.unjoined hjoin _ _
    · exact e.unjoined hjoin

end Trivia

end FrontEnd
