/-
A token by itself. Scanners look behind what they take: an operator could go
on, a quote could separate digits, a delimiter is searched for in the next
characters, and a directive asks at every step what comes next. None of it
shows in what they took. Each scanner takes some text `front` from the text
ahead, and it takes the same if that is all there is: nothing is left of it
and the problems are the same (`Extent.ended`). The lemmas say so of one
scanner each, and `next_alone` puts them together.

The one exception is a `#` inside of a line. In a text of its own it begins a
line, and is a directive there.
-/
import FrontEnd.Proofs.Token.Marks
import FrontEnd.Proofs.Token.OneLine

namespace FrontEnd

open Text

-- ============================================================ what is taken

/-- The reading with nothing more to come. -/
def Text.Reading.ended (r : Reading) : Reading :=
  ⟨r.read, []⟩

/-- What is asked of the next character and fails for a text fails for what
is in front of it. -/
theorem head?_any_front {p : Char → Bool} {front cs : List Char}
    (hfront : front <+: cs) (h : cs.head?.any p = false) :
    front.head?.any p = false := by
  obtain ⟨rest, rfl⟩ := hfront
  cases front with
  | nil => rfl
  | cons c front => exact h

-- ================================================================= literals

namespace Extent

/-- The extent with nothing more to come. -/
def ended (e : Extent) : Extent :=
  ⟨e.reading.ended, e.problems⟩

/-- Nothing comes behind what takes all of a text. -/
theorem ended_eq {e : Extent} (h : e.reading.rest = []) : e.ended = e := by
  obtain ⟨⟨read, rest⟩, problems⟩ := e
  obtain rfl : rest = [] := h
  rfl

theorem word_alone (read cs : List Char) :
    ∃ front, cs = front ++ (word read cs).rest
      ∧ word read front = (word read cs).ended := by
  have hpart : ∀ c ∈ cs.takeWhile isWordPart, isWordPart c = true :=
    fun _ => List.mem_takeWhile_imp
  have hends : endsLexeme [] = true := rfl
  have hword := word_written read hpart hends
  rw [List.append_nil] at hword
  refine ⟨cs.takeWhile isWordPart, ?_, ?_⟩
  · rw [word, Reading.moveWhile_eq, List.takeWhile_append_dropWhile]
  · rw [hword, word, Reading.moveWhile_eq]
    rfl

theorem number_alone (last : Char) (read cs : List Char) :
    ∃ front, cs = front ++ (number last read cs).rest
      ∧ number last read front = (number last read cs).ended := by
  obtain ⟨tail, htail, hread, hcs⟩ := number_tail last read cs
  have hends : endsLexeme [] = true := rfl
  have hnumber := number_written read htail hends
  rw [List.append_nil] at hnumber
  exact ⟨tail, hcs, by rw [hnumber, ← hread]; rfl⟩

/-- The body of a literal is the same whatever comes behind it if it is closed,
and if not, where nothing does. -/
theorem body_alone {joined : Bool} {quote : Char} (read cs : List Char)
    (hslash : quote ≠ '\\')
    (hjoined : joined = true ∨ (body joined quote read cs).2 = true) :
    ∃ front, cs = front ++ (body joined quote read cs).1.rest
      ∧ ∀ more, ((body joined quote read cs).2 = true ∨ more = []) →
        body joined quote read (front ++ more)
          = (⟨(body joined quote read cs).1.read, more⟩,
            (body joined quote read cs).2) := by
  fun_induction body joined quote read cs with
  | case1 read =>
    refine ⟨[], rfl, fun more hmore => ?_⟩
    obtain rfl : more = [] := by simpa using hmore
    rfl
  | case2 read cs hjoin ih =>
    obtain ⟨front, hcs, hbody⟩ := ih hjoined
    refine ⟨'\\' :: '\r' :: '\n' :: front, ?_, fun more hmore => ?_⟩
    · simp only [List.cons_append]
      rw [← hcs]
    · simp only [List.cons_append]
      rw [body, if_pos hjoin, hbody more hmore]
  | case3 read cs hjoin => simp [hjoin] at hjoined
  | case4 read c cs hpair hbreak =>
    simp only [Bool.and_eq_true, Bool.not_eq_true'] at hbreak
    simp [hbreak.2] at hjoined
  | case5 read c cs hpair hbreak ih =>
    obtain ⟨front, hcs, hbody⟩ := ih hjoined
    refine ⟨'\\' :: c :: front, ?_, fun more hmore => ?_⟩
    · simp only [List.cons_append]
      rw [← hcs]
    · simp only [List.cons_append]
      rw [body, if_neg hbreak, hbody more hmore]
      -- a carriage return makes no pair with what comes behind a literal
      intro ds hc hds
      cases front with
      | nil =>
        rcases hmore with hclosed | rfl
        · have hempty := hbody [] (.inr rfl)
          simp [body, hclosed] at hempty
        · cases hds
      | cons d front =>
        obtain ⟨rfl, -⟩ := List.cons.inj hds
        exact hpair _ hc hcs
  | case6 read c cs hpair hjoin hc =>
    refine ⟨[c], rfl, fun more _ => ?_⟩
    have hne : c ≠ '\\' := by simpa [(beq_iff_eq.1 hc)] using hslash
    rw [List.singleton_append, body, if_pos hc]
    · exact fun _ h => absurd h hne
    · exact fun _ _ h => absurd h hne
  | case7 read c cs hpair hjoin hc hbreak =>
    refine ⟨[], rfl, fun more hmore => ?_⟩
    obtain rfl : more = [] := by simpa using hmore
    rfl
  | case8 read c cs hpair hjoin hc hbreak ih =>
    obtain ⟨front, hcs, hbody⟩ := ih hjoined
    refine ⟨c :: front, ?_, fun more hmore => ?_⟩
    · rw [List.cons_append, ← hcs]
    · have hends : c = '\\' → front ++ more = [] := by
        intro hc
        cases cs with
        | nil =>
          obtain ⟨rfl, -⟩ := List.append_eq_nil_iff.1 hcs.symm
          simpa [body] using hmore
        | cons d ds => exact (hjoin d ds hc rfl).elim
      rw [List.cons_append, body, if_neg hc, if_neg hbreak, hbody more hmore]
      · intro ds hc hds
        simp [hends hc] at hds
      · intro d ds hc hds
        simp [hends hc] at hds

theorem quoted_alone {quote : Char} (hslash : quote ≠ '\\')
    (read cs : List Char) :
    ∃ front, cs = front ++ (quoted quote read cs).reading.rest
      ∧ quoted quote read front = (quoted quote read cs).ended := by
  obtain ⟨front, hcs, hfront⟩ := body_alone read cs hslash (.inl rfl)
  cases hbody : body true quote read cs with
  | mk r closed =>
  rw [hbody] at hcs hfront
  have hquoted : quoted quote read cs
      = if closed then ⟨word r.read r.rest, []⟩ else leftOpen quote r := by
    rw [quoted, hbody]
    cases closed <;> rfl
  rw [hquoted]
  cases closed with
  | true =>
    obtain ⟨suffix, hrest, hword⟩ := word_alone r.read r.rest
    refine ⟨front ++ suffix, ?_, ?_⟩
    · rw [List.append_assoc]
      exact hcs.trans (congrArg (front ++ ·) hrest)
    · rw [quoted, hfront suffix (.inl rfl)]
      dsimp only
      rw [hword]
      rfl
  | false =>
    have hfront := hfront [] (.inr rfl)
    rw [List.append_nil] at hfront
    by_cases hstring : (quote == '"') = true
    · -- a string that is left open takes the rest of the text
      have hopen : leftOpen quote r = ⟨r.toEnd, [.openString]⟩ := if_pos hstring
      refine ⟨cs, ?_, ?_⟩
      · rw [if_neg Bool.false_ne_true, hopen]
        exact (List.append_nil cs).symm
      · rw [hquoted, if_neg Bool.false_ne_true, hopen]
        rfl
    · have hopen (r : Reading) : leftOpen quote r = ⟨r, [.openCharacter]⟩ :=
        if_neg hstring
      refine ⟨front, ?_, ?_⟩
      · rw [if_neg Bool.false_ne_true, hopen]
        exact hcs
      · rw [quoted, hfront, if_neg Bool.false_ne_true]
        dsimp only
        rw [hopen, hopen]
        rfl

-- ============================================================ raw strings

theorem through_alone {closing read cs : List Char} {r : Reading}
    (hclosing : closing ≠ []) (h : through closing read cs = some r) :
    ∃ front, cs = front ++ r.rest
      ∧ through closing read front = some r.ended := by
  fun_induction through closing read cs with
  | case1 => cases h
  | case2 read c cs hleading =>
    obtain ⟨rest, hcs⟩ := List.isPrefixOf_iff_prefix.1 hleading
    obtain rfl := Option.some.inj h
    obtain ⟨d, ds, rfl⟩ := List.exists_cons_of_ne_nil hclosing
    refine ⟨d :: ds, ?_, ?_⟩
    · rw [← hcs, List.drop_left]
    · rw [through, if_pos (List.isPrefixOf_iff_prefix.2 List.prefix_rfl),
        List.drop_length]
      rfl
  | case3 read c cs hleading ih =>
    obtain ⟨front, hcs, hthrough⟩ := ih h
    refine ⟨c :: front, by rw [List.cons_append, ← hcs], ?_⟩
    have hnot : ¬closing.isPrefixOf (c :: front) = true := by
      intro hfront
      refine hleading (List.isPrefixOf_iff_prefix.2 ?_)
      rw [hcs]
      exact (List.isPrefixOf_iff_prefix.1 hfront).trans
        (List.prefix_append (c :: front) r.rest)
    rw [through, if_neg hnot, hthrough]

/-- A delimiter is looked for no further than to a quote. -/
theorem delimiter?_quote (text more : List Char) :
    delimiter? (text ++ '"' :: more) = delimiter? text :=
  delimiter?_followed (by decide) text more

/-- Nor is it looked for behind what is taken up to a quote. -/
theorem delimiter?_front {text front rest cs : List Char}
    (htext : cs = text ++ '"' :: rest) (hcs : cs = front ++ rest)
    (more : List Char) : delimiter? (front ++ more) = delimiter? cs := by
  have hquote : front = text ++ ['"'] := by
    rw [hcs, ← List.singleton_append, ← List.append_assoc] at htext
    exact List.append_cancel_right htext
  rw [hquote, List.append_assoc, List.singleton_append, delimiter?_quote,
    htext, delimiter?_quote]

/-- A raw string that is closed goes on through its suffix. -/
theorem rawString_closed_alone {delimiter read cs : List Char} {r : Reading}
    (hdelimiter : delimiter? cs = some delimiter)
    (hthrough : through (')' :: delimiter ++ ['"']) read cs = some r) :
    ∃ front, cs = front ++ (rawString read cs).reading.rest
      ∧ rawString read front = (rawString read cs).ended := by
  have hraw : rawString read cs = ⟨word r.read r.rest, []⟩ := by
    rw [rawString, hdelimiter]
    dsimp only
    rw [hthrough]
  obtain ⟨front, hcs, hfront⟩ := through_alone (by simp) hthrough
  obtain ⟨text, -, htext⟩ := through_closed (')' :: delimiter) hthrough
  obtain ⟨suffix, hrest, hword⟩ := word_alone r.read r.rest
  rw [hraw]
  refine ⟨front ++ suffix, ?_, ?_⟩
  · rw [List.append_assoc]
    exact hcs.trans (congrArg (front ++ ·) hrest)
  · rw [rawString, delimiter?_front htext hcs, hdelimiter]
    dsimp only
    rw [through_followed hfront]
    dsimp only [Reading.followed, Reading.ended]
    rw [List.nil_append, hword]
    rfl

/-- Without a delimiter what comes is read as a plain string, which ends
with its quote. -/
theorem rawString_plain_alone {read cs : List Char} {r : Reading}
    (hdelimiter : delimiter? cs = none)
    (hbody : body false '"' read cs = (r, true)) :
    ∃ front, cs = front ++ (rawString read cs).reading.rest
      ∧ rawString read front = (rawString read cs).ended := by
  have hraw : rawString read cs = ⟨r, [.rawDelimiter]⟩ := by
    rw [rawString, hdelimiter]
    dsimp only
    rw [hbody]
  have hclosed : (body false '"' read cs).2 = true := by rw [hbody]
  obtain ⟨front, hcs, hfront⟩ :=
    body_alone read cs (by decide) (.inr hclosed)
  obtain ⟨text, -, htext⟩ := body_closed hclosed
  rw [hbody] at hcs hfront htext
  have hsame := delimiter?_front htext hcs []
  have hfront := hfront [] (.inr rfl)
  rw [List.append_nil] at hsame hfront
  rw [hraw]
  refine ⟨front, hcs, ?_⟩
  rw [rawString, hsame, hdelimiter]
  dsimp only
  rw [hfront]
  rfl

theorem rawString_alone (read cs : List Char) :
    ∃ front, cs = front ++ (rawString read cs).reading.rest
      ∧ rawString read front = (rawString read cs).ended := by
  -- a raw string that is left open takes the rest of the text
  have takesAll (hrest : (rawString read cs).reading.rest = []) :
      ∃ front, cs = front ++ (rawString read cs).reading.rest
        ∧ rawString read front = (rawString read cs).ended :=
    ⟨cs, by rw [hrest, List.append_nil], (ended_eq hrest).symm⟩
  cases hdelimiter : delimiter? cs with
  | some delimiter =>
    cases hthrough : through (')' :: delimiter ++ ['"']) read cs with
    | some r => exact rawString_closed_alone hdelimiter hthrough
    | none =>
      refine takesAll ?_
      rw [rawString, hdelimiter]
      dsimp only
      rw [hthrough]
      rfl
  | none =>
    cases hbody : body false '"' read cs with
    | mk r closed =>
    cases closed with
    | true => exact rawString_plain_alone hdelimiter hbody
    | false =>
      refine takesAll ?_
      rw [rawString, hdelimiter]
      dsimp only
      rw [hbody]
      rfl

end Extent

-- ============================================================= directives

namespace Directive

variable {mode : Mode} {inNumber : Bool} {read text : List Char}
  {c d : Char} {cs ds front : List Char}

/-- To a step that joins nothing a break in front of it is as good as the end
of the text. -/
theorem step_before_break (hd : isBreak d = true)
    (hjoin : joinsAt mode c (d :: ds) = false) :
    step mode inNumber read text c (d :: ds)
      = step mode inNumber read text c [] := by
  have hhead : d ≠ '/' ∧ d ≠ '*' ∧ d.isAlphanum = false := by
    simp only [isBreak, Bool.or_eq_true, beq_iff_eq] at hd
    rcases hd with rfl | rfl <;> decide
  have hnil : joinsAt mode c [] = false := by simp [joinsAt, startsBreak]
  unfold joinsAt at hjoin hnil
  unfold step
  rw [hjoin, hnil]
  cases mode with
  | code => simp [plainStep, codeStep, hhead]
  | blockComment => simp [plainStep, hhead]
  | lineComment | literal | runaway => rfl

/-- A part of a text begins with as long a break, where the break is in it. -/
theorem breakLength_front (hfront : front <+: cs) (hne : front ≠ [])
    (hlength : breakLength cs ≤ front.length) :
    breakLength cs = breakLength front := by
  obtain ⟨rest, rfl⟩ := hfront
  obtain ⟨d, front, rfl⟩ := List.exists_cons_of_ne_nil hne
  rw [List.cons_append, breakLength_cons] at hlength ⊢
  rw [breakLength_cons]
  cases front with
  | nil =>
    by_cases hpair : d = '\r' ∧ rest.head? = some '\n'
    · rw [List.nil_append, if_pos hpair] at hlength
      exact absurd hlength (by simp)
    · rw [List.nil_append, if_neg hpair, if_neg (by simp)]
  | cons e front => rfl

/-- A directive ends in front of nothing but a break. -/
theorem isBreak_of_rest
    (h : (scanFrom 0 mode inNumber read text (d :: ds)).reading.rest
      = d :: ds) : isBreak d = true := by
  have hmove := step_moves mode inNumber read text d ds
  cases hst : step mode inNumber read text d ds with
  | stop problem =>
    rw [hst] at hmove
    cases hmove with
    | lineEnd _ hd | literalEnd _ hd => exact hd
  | go mode' swallow emit after =>
    rw [scanFrom_go hst] at h
    have hlength := (from_scanFrom swallow mode' after (d :: read)
      (emit.toList ++ text) ds).length_le
    rw [h] at hlength
    simp at hlength

variable {mode' : Mode} {swallow : Nat} {emit : Option Char} {after : Bool}
  {rest : List Char}

/-- A step takes no part in what the directive leaves, so that it is the same
without that. -/
theorem step_alone
    (hst : step mode inNumber read text c (front ++ rest)
      = .go mode' swallow emit after)
    (hswallow : swallow ≤ front.length)
    (hrest : (scanFrom swallow mode' after (c :: read) (emit.toList ++ text)
      (front ++ rest)).reading.rest = rest) :
    step mode inNumber read text c front = .go mode' swallow emit after := by
  have hjoins : joinsAt mode c (front ++ rest) = true →
      breakLength (front ++ rest) = swallow := by
    intro hjoin
    have hgo := hst.symm.trans (Move.join hjoin).step_eq
    simp only [Step.go.injEq] at hgo
    exact hgo.2.1.symm
  by_cases hne : front = []
  · -- the directive ends behind this step
    subst hne
    obtain rfl : swallow = 0 := Nat.le_zero.1 hswallow
    cases rest with
    | nil => exact hst
    | cons d ds =>
      rw [List.nil_append] at hst hrest hjoins
      rw [← step_before_break (isBreak_of_rest hrest), hst]
      by_contra hjoin
      have hlength := hjoins (by simpa using hjoin)
      rw [breakLength_cons] at hlength
      split at hlength <;> cases hlength
  · rw [← hst, step_congr (List.head?_append_of_ne_nil _ hne) fun hjoin =>
      breakLength_front (List.prefix_append front rest) hne
        (hjoins hjoin ▸ hswallow)]

theorem scanFrom_alone (swallow : Nat) (mode : Mode) (inNumber : Bool)
    (read text cs : List Char) (hswallow : swallow ≤ cs.length) :
    ∃ front, cs = front
        ++ (scanFrom swallow mode inNumber read text cs).reading.rest
      ∧ swallow ≤ front.length
      ∧ scanFrom swallow mode inNumber read text front
        = ⟨(scanFrom swallow mode inNumber read text cs).reading.ended,
          (scanFrom swallow mode inNumber read text cs).text,
          (scanFrom swallow mode inNumber read text cs).problem⟩ := by
  induction swallow, mode, inNumber, read, text, cs using run_induction with
  | done => exact ⟨[], rfl, hswallow, rfl⟩
  | skip swallow mode inNumber read text c cs ih =>
    obtain ⟨front, hcs, hlength, hfront⟩ :=
      ih (Nat.le_of_succ_le_succ hswallow)
    exact ⟨c :: front, congrArg (c :: ·) hcs, Nat.succ_le_succ hlength,
      hfront⟩
  | stop mode inNumber read text c cs problem hst hmove =>
    rw [scanFrom_stop hst, stop_problem hmove]
    exact ⟨[], rfl, Nat.le_refl 0, rfl⟩
  | go mode inNumber read text c cs mode' swallow emit after hst hmove ih =>
    obtain ⟨front, hcs, hlength, hfront⟩ := ih hmove.swallow_le
    rw [scanFrom_go hst]
    refine ⟨c :: front, congrArg (c :: ·) hcs, Nat.zero_le _, ?_⟩
    rw [← hfront]
    exact scanFrom_go (step_alone (hcs ▸ hst) hlength (by rw [← hcs]))

theorem scan_alone (cs : List Char) :
    ∃ front, cs = front ++ (scan cs).reading.rest
      ∧ scan front = ⟨(scan cs).reading.ended, (scan cs).text,
        (scan cs).problem⟩ := by
  obtain ⟨front, hcs, -, hfront⟩ :=
    scanFrom_alone 0 .code false [] [] cs (Nat.zero_le _)
  exact ⟨front, hcs, hfront⟩

end Directive

-- ================================================================= pieces

namespace Piece

variable {c : Char} {cs front : List Char}

/-- What is found in front of a text is found in front of a part of it that
it stands in. -/
theorem find?_alone {α : Type} {xs : List α} {x : α} (text : α → List Char)
    (hfront : front <+: cs) (hx : text x <+: front)
    (h : xs.find? (fun y => (text y).isPrefixOf cs) = some x) :
    xs.find? (fun y => (text y).isPrefixOf front) = some x := by
  obtain ⟨-, before, behind, hxs, hnone⟩ := List.find?_eq_some_iff_append.1 h
  refine List.find?_eq_some_iff_append.2
    ⟨List.isPrefixOf_iff_prefix.2 hx, before, behind, hxs, fun y hy => ?_⟩
  have hnot := hnone y hy
  rw [Bool.not_eq_true', ← Bool.not_eq_true,
    List.isPrefixOf_iff_prefix] at hnot ⊢
  exact fun hleading => hnot (hleading.trans hfront)

theorem find?_alone_none {α : Type} {xs : List α} (text : α → List Char)
    (hfront : front <+: cs)
    (h : xs.find? (fun y => (text y).isPrefixOf cs) = none) :
    xs.find? (fun y => (text y).isPrefixOf front) = none := by
  rw [List.find?_eq_none] at h ⊢
  intro y hy hleading
  rw [List.isPrefixOf_iff_prefix] at hleading
  exact h y hy (List.isPrefixOf_iff_prefix.2 (hleading.trans hfront))

theorem symbol_alone (c : Char) (cs : List Char) :
    ∃ front, cs = front ++ (symbol c cs).2.reading.rest
      ∧ symbol c front = ((symbol c cs).1, (symbol c cs).2.ended) := by
  cases hop : Word.longestOperator (c :: cs) with
  | some op =>
    obtain ⟨hne, hself, -⟩ :=
      operators_shape op (List.mem_of_find?_eq_some hop)
    have hleading := List.find?_some hop
    obtain ⟨rest, hcs⟩ := List.isPrefixOf_iff_prefix.1 hleading
    obtain ⟨d, front, hd⟩ := List.exists_cons_of_ne_nil hne
    rw [hd] at hself hcs
    rw [List.cons_append] at hcs
    obtain ⟨rfl, rfl⟩ := List.cons.inj hcs
    refine ⟨front, ?_, ?_⟩
    · simp [symbol, hop, hd]
    · simp [symbol, hop, hself, hd, Extent.ended, Reading.ended]
  | none =>
    have hself : Word.longestOperator [c] = none :=
      find?_alone_none String.toList (List.prefix_append [c] cs) hop
    refine ⟨[], ?_, ?_⟩
    · simp [symbol, hop]
    · simp [symbol, hop, hself, Extent.ended, Reading.ended]

theorem opener_cons {opener after : List Char} (hne : opener ≠ [])
    (h : opener ++ after = c :: cs) {rest : List Char}
    (hafter : after = front ++ rest) :
    ∃ front', c :: front' = opener ++ front ∧ cs = front' ++ rest := by
  obtain ⟨d, ds, rfl⟩ := List.exists_cons_of_ne_nil hne
  rw [List.cons_append] at h
  obtain ⟨rfl, rfl⟩ := List.cons.inj h
  exact ⟨ds ++ front, rfl, by rw [hafter, List.append_assoc]⟩

/-- A raw string from behind what opens it. -/
theorem token_rawString {opener after : List Char}
    (hraw : rawOpeners.find? (·.isPrefixOf (c :: cs)) = some opener)
    (h : opener ++ after = c :: cs) :
    token c cs = (.string, Extent.rawString opener.reverse after) := by
  rw [token, hraw]
  dsimp only
  rw [← h, List.drop_left]

/-- A literal from behind what opens it. -/
theorem token_literal {opener after : List Char} {kind : TokenKind}
    (hraw : rawOpeners.find? (·.isPrefixOf (c :: cs)) = none)
    (hliteral : literalOpeners.find? (·.1.isPrefixOf (c :: cs))
      = some (opener, kind))
    (h : opener ++ after = c :: cs) :
    token c cs
      = (kind, Extent.quoted (quoteOf kind) opener.reverse after) := by
  rw [token, hraw]
  dsimp only
  rw [hliteral]
  dsimp only
  rw [← h, List.drop_left]

/-- Where no literal is opened, none is in front of a part of the text. -/
theorem token_no_literal
    (hraw : rawOpeners.find? (·.isPrefixOf (c :: cs)) = none)
    (hliteral : literalOpeners.find? (·.1.isPrefixOf (c :: cs)) = none)
    (hfront : front <+: cs) :
    token c front
      = if c.isDigit || (c == '.' && front.head?.any Char.isDigit) then
          (.number, ⟨Extent.number c [c] front, []⟩)
        else if isWordStart c then
          (wordKind (String.ofList (Extent.word [c] front).taken),
            ⟨Extent.word [c] front, []⟩)
        else symbol c front := by
  have hfront : c :: front <+: c :: cs := List.cons_prefix_cons.2 ⟨rfl, hfront⟩
  have hraw : rawOpeners.find? (·.isPrefixOf (c :: front)) = none :=
    find?_alone_none id hfront hraw
  have hliteral : literalOpeners.find? (·.1.isPrefixOf (c :: front)) = none :=
    find?_alone_none Prod.fst hfront hliteral
  rw [token, hraw]
  dsimp only
  rw [hliteral]

theorem quoteOf_ne_slash (kind : TokenKind) : quoteOf kind ≠ '\\' := by
  unfold quoteOf
  split <;> decide

/-- A number begins the same way without what comes behind it. -/
theorem number_begins
    (hdigit : (c.isDigit || (c == '.' && cs.head?.any Char.isDigit)) = true) :
    ∃ front, cs = front ++ (Extent.number c [c] cs).rest
      ∧ Extent.number c [c] front = (Extent.number c [c] cs).ended
      ∧ (c.isDigit || (c == '.' && front.head?.any Char.isDigit)) = true := by
  by_cases hc : c.isDigit = true
  · obtain ⟨front, hcs, hnumber⟩ := Extent.number_alone c [c] cs
    exact ⟨front, hcs, hnumber, by rw [hc, Bool.true_or]⟩
  · -- behind a point the digit is part of the number
    simp only [hc, Bool.false_or, Bool.and_eq_true] at hdigit
    cases cs with
    | nil => exact absurd hdigit.2 nofun
    | cons d ds =>
      have hd : d.isDigit = true := hdigit.2
      have hpart : (d.isAlphanum || d == '_' || d == '.') = true := by
        simp [Char.isAlphanum, hd]
      obtain ⟨front, hcs, hnumber⟩ := Extent.number_alone d [d, c] ds
      have hnext (rest : List Char) : Extent.number c [c] (d :: rest)
          = Extent.number d [d, c] rest := by
        rw [Extent.number, if_pos hpart]
      refine ⟨d :: front, ?_, ?_, ?_⟩
      · rw [hnext, List.cons_append, ← hcs]
      · rw [hnext, hnext, hnumber]
      · simp [hdigit.1, hd]

theorem token_rawString_alone {opener : List Char}
    (hraw : rawOpeners.find? (·.isPrefixOf (c :: cs)) = some opener) :
    ∃ front, cs = front ++ (token c cs).2.reading.rest
      ∧ token c front = ((token c cs).1, (token c cs).2.ended) := by
  have hleading := List.find?_some hraw
  obtain ⟨after, h⟩ := List.isPrefixOf_iff_prefix.1 hleading
  have hne : opener ≠ [] := by
    rintro rfl
    exact absurd (List.mem_of_find?_eq_some hraw) (by decide)
  obtain ⟨front, hafter, hfront⟩ :=
    Extent.rawString_alone opener.reverse after
  obtain ⟨front', hopener, hcs⟩ := opener_cons hne h hafter
  rw [token_rawString hraw h]
  refine ⟨front', hcs, ?_⟩
  rw [token_rawString (find?_alone id ?_ ?_ hraw) hopener.symm, hfront]
  · exact List.cons_prefix_cons.2 ⟨rfl, hcs ▸ List.prefix_append ..⟩
  · exact hopener ▸ List.prefix_append ..

theorem token_literal_alone {opener : List Char} {kind : TokenKind}
    (hraw : rawOpeners.find? (·.isPrefixOf (c :: cs)) = none)
    (hliteral : literalOpeners.find? (·.1.isPrefixOf (c :: cs))
      = some (opener, kind)) :
    ∃ front, cs = front ++ (token c cs).2.reading.rest
      ∧ token c front = ((token c cs).1, (token c cs).2.ended) := by
  have hleading := List.find?_some hliteral
  obtain ⟨after, h⟩ := List.isPrefixOf_iff_prefix.1 hleading
  have hne : opener ≠ [] := by
    rintro rfl
    exact absurd (literalOpeners_shape _
      (List.mem_of_find?_eq_some hliteral)).2 (by simp)
  obtain ⟨front, hafter, hfront⟩ := Extent.quoted_alone
    (quoteOf_ne_slash kind) opener.reverse after
  obtain ⟨front', hopener, hcs⟩ := opener_cons hne h hafter
  have hpart : c :: front' <+: c :: cs :=
    List.cons_prefix_cons.2 ⟨rfl, hcs ▸ List.prefix_append ..⟩
  rw [token_literal hraw hliteral h]
  refine ⟨front', hcs, ?_⟩
  rw [token_literal (find?_alone_none id hpart hraw)
    (find?_alone Prod.fst hpart ?_ hliteral) hopener.symm, hfront]
  exact hopener ▸ List.prefix_append ..

/-- A number, a word or a symbol. -/
theorem token_plain_alone
    (hraw : rawOpeners.find? (·.isPrefixOf (c :: cs)) = none)
    (hliteral : literalOpeners.find? (·.1.isPrefixOf (c :: cs)) = none) :
    ∃ front, cs = front ++ (token c cs).2.reading.rest
      ∧ token c front = ((token c cs).1, (token c cs).2.ended) := by
  rw [token_no_literal hraw hliteral List.prefix_rfl]
  split
  case isTrue hdigit =>
    obtain ⟨front, hcs, hnumber, hfront⟩ := number_begins hdigit
    refine ⟨front, hcs, ?_⟩
    rw [token_no_literal hraw hliteral (hcs ▸ List.prefix_append ..),
      if_pos hfront, hnumber]
    rfl
  case isFalse hdigit =>
    have hstill {front : List Char} (hfront : front <+: cs) :
        ¬(c.isDigit || (c == '.' && front.head?.any Char.isDigit))
          = true := by
      simp only [Bool.or_eq_true, Bool.and_eq_true, not_or, not_and,
        Bool.not_eq_true] at hdigit ⊢
      exact ⟨hdigit.1, fun hc => head?_any_front hfront (hdigit.2 hc)⟩
    split
    case isTrue hword =>
      obtain ⟨front, hcs, hfront⟩ := Extent.word_alone [c] cs
      have hpart : front <+: cs := hcs ▸ List.prefix_append ..
      refine ⟨front, hcs, ?_⟩
      rw [token_no_literal hraw hliteral hpart, if_neg (hstill hpart),
        if_pos hword, hfront]
      rfl
    case isFalse hword =>
      obtain ⟨front, hcs, hfront⟩ := symbol_alone c cs
      have hpart : front <+: cs := hcs ▸ List.prefix_append ..
      refine ⟨front, hcs, ?_⟩
      rw [token_no_literal hraw hliteral hpart, if_neg (hstill hpart),
        if_neg hword, hfront]

theorem token_alone (c : Char) (cs : List Char) :
    ∃ front, cs = front ++ (token c cs).2.reading.rest
      ∧ token c front = ((token c cs).1, (token c cs).2.ended) := by
  cases hraw : rawOpeners.find? (·.isPrefixOf (c :: cs)) with
  | some opener => exact token_rawString_alone hraw
  | none =>
    cases hliteral : literalOpeners.find? (·.1.isPrefixOf (c :: cs)) with
    | some p => exact token_literal_alone hraw hliteral
    | none => exact token_plain_alone hraw hliteral

theorem startsBlank_front (hfront : front <+: cs)
    (h : startsBlank c cs = false) : startsBlank c front = false := by
  obtain ⟨rest, rfl⟩ := hfront
  cases front with
  | nil =>
    simp only [startsBlank, Bool.or_eq_false_iff] at h
    simp [startsBlank, startsBreak, h.1]
  | cons d front => exact h

theorem opensComment_front (hfront : front <+: cs)
    (h : Directive.opensComment c cs = false) :
    Directive.opensComment c front = false := by
  obtain ⟨rest, rfl⟩ := hfront
  cases front with
  | nil => simp [Directive.opensComment]
  | cons d front => exact h

/-- A piece by itself is the piece that it is in its text, problems and all,
if it is no trivia and no mark inside of a line. -/
theorem next_alone {fresh : Bool} {k : Cut} (h : Cuts fresh c cs k)
    (htrivia : ∀ kind, k.piece.role ≠ .trivia kind)
    (hmark : k.piece.role = .token .operator → c ≠ '#') :
    ∃ front, k.piece.text = c :: front
      ∧ next true c front = ⟨k.piece, [], false⟩ := by
  cases h with
  | blank | lineComment | blockComment => exact absurd rfl (htrivia _)
  | directive _ hc =>
    subst hc
    obtain ⟨front, hcs, hscan⟩ := Directive.scan_alone ('#' :: cs)
    have htaken : (Directive.scan ('#' :: cs)).reading.taken = front := by
      have htext := taken_of_from
        (Directive.from_scanFrom 0 .code false [] [] front)
      rw [← Directive.scan, hscan] at htext
      exact (List.append_nil _).symm.trans htext
    obtain ⟨d, front, rfl⟩ :=
      List.exists_cons_of_ne_nil (htaken ▸ scan_ne_nil cs)
    obtain ⟨rfl, -⟩ := List.cons.inj hcs
    refine ⟨front, htaken, ?_⟩
    rw [next_directive, hscan]
    rfl
  | token hblank hcomment hdirective =>
    obtain ⟨front, hcs, htoken⟩ := token_alone c cs
    have hpart : front <+: cs := hcs ▸ List.prefix_append ..
    have htaken : (token c cs).2.reading.taken = c :: front := by
      have htext := (token_reading c front).1
      rw [htoken] at htext
      exact (List.append_nil _).symm.trans htext
    refine ⟨front, htaken, ?_⟩
    have hcuts := next_cuts true c front
    generalize next true c front = k at hcuts
    cases hcuts with
    | blank hstarts =>
      rw [startsBlank_front hpart hblank] at hstarts
      cases hstarts
    | lineComment hc hsecond | blockComment hc hsecond =>
      have hopens := opensComment_front hpart hcomment
      simp [Directive.opensComment, hc, hsecond] at hopens
    | directive _ hc =>
      subst hc
      exact absurd rfl (hmark (congrArg Role.token (token_mark cs)))
    | token =>
      rw [htoken]
      rfl

/-- What is taken of a mark that is no directive. -/
theorem token_mark_taken (cs : List Char) :
    String.ofList (token '#' cs).2.reading.taken = "#"
      ∨ String.ofList (token '#' cs).2.reading.taken = "##" := by
  have hraw : rawOpeners.find? (·.isPrefixOf ('#' :: cs)) = none := rfl
  have hliteral : literalOpeners.find? (·.1.isPrefixOf ('#' :: cs)) = none :=
    rfl
  have hsymbol : (Word.longestOperator ('#' :: cs)).isSome = true :=
    List.find?_isSome.2 ⟨"#", by decide, rfl⟩
  obtain ⟨op, hop⟩ := Option.isSome_iff_exists.1 hsymbol
  have htaken : (token '#' cs).2.reading.taken = op.toList := by
    rw [token_no_literal hraw hliteral List.prefix_rfl,
      if_neg (by simp), if_neg (by decide)]
    simp [symbol, hop, Reading.taken]
  obtain ⟨hne, -, hshape, -⟩ :=
    operators_shape op (List.mem_of_find?_eq_some hop)
  have hleading := List.find?_some hop
  obtain ⟨rest, hcs⟩ := List.isPrefixOf_iff_prefix.1 hleading
  obtain ⟨d, ds, hd⟩ := List.exists_cons_of_ne_nil hne
  rw [hd, List.cons_append] at hcs
  rw [htaken, String.ofList_toList]
  exact hshape (by rw [hd]; exact (List.cons.inj hcs).1)

theorem Cuts.mark_text {fresh : Bool} {k : Cut} (h : Cuts fresh '#' cs k)
    (hrole : k.piece.role = .token .operator) :
    String.ofList k.piece.text = "#" ∨ String.ofList k.piece.text = "##" := by
  cases h with
  | token => exact token_mark_taken cs
  | blank | lineComment | blockComment | directive => cases hrole

end Piece

namespace PlacedPiece

variable {t : Token}

/-- A piece that is the only one of its text. -/
theorem ofText_singleton {c : Char} {cs : List Char} {piece : Piece}
    (h : Piece.next true c cs = ⟨piece, [], false⟩) :
    ofText (c :: cs) = [⟨piece, .start⟩] := by
  rw [ofText_eq, laid_cons, h, laid_nil]

/-- The token that a piece is does not depend on its place but for that. -/
theorem token?_at {piece : Piece} {place : Place}
    (h : (⟨piece, place⟩ : PlacedPiece).token? = some t) (place' : Place) :
    ∃ u, (⟨piece, place'⟩ : PlacedPiece).token? = some u
      ∧ u.kind = t.kind ∧ u.value = t.value := by
  obtain ⟨role, text, problems⟩ := piece
  cases role with
  | token | directive =>
    obtain rfl := Option.some.inj h
    exact ⟨_, rfl, rfl, rfl⟩
  | trivia => cases h

end PlacedPiece

namespace TokenStream

/-- A token depends on its own text only: by itself the text is one token, of
the same kind and with the same value, and there is no trivia. A `#` that is an
operator is a directive by itself. -/
theorem ofText_alone {source : String} {t : Token}
    (ht : t ∈ (ofText source.toList).tokens) (hend : t.isEnd = false)
    (hmark : t.isSpelled "#" = false ∧ t.isSpelled "##" = false) :
    ∃ u, (ofText (t.span.slice source).toList).tokens
        = [u, endToken (t.span.slice source).toList]
      ∧ u.kind = t.kind ∧ u.value = t.value
      ∧ (ofText (t.span.slice source).toList).trivia = [] := by
  obtain ⟨before, after, htokens⟩ := List.append_of_mem ht
  obtain ⟨front, p, back, hsplit, -, htoken⟩ := tokens_split htokens hend
  have hp : p ∈ PlacedPiece.ofText source.toList := by simp [hsplit]
  obtain ⟨behind, rest, h⟩ := PlacedPiece.ofText_sits hp
  obtain ⟨fresh, c, cs, htext, hpiece, hrest⟩ := h.cut_off
  have hslice : t.span.slice source = String.ofList p.piece.text := by
    rw [(PlacedPiece.place_of_token htoken).1, ← h.slice,
      String.ofList_toList]
  have hcuts := Piece.next_cuts fresh c cs
  have htrivia (kind : TriviaKind) :
      (Piece.next fresh c cs).piece.role ≠ .trivia kind := by
    intro hrole
    rw [PlacedPiece.token?, hpiece, hrole] at htoken
    cases htoken
  have hoperator : (Piece.next fresh c cs).piece.role = .token .operator →
      c ≠ '#' := by
    rintro hrole rfl
    rw [PlacedPiece.token?, hpiece, hrole] at htoken
    obtain rfl := Option.some.inj htoken
    simp only [Token.isSpelled, beq_self_eq_true, Bool.true_and,
      beq_eq_false_iff_ne] at hmark
    exact (hcuts.mark_text hrole).elim hmark.1 hmark.2
  obtain ⟨ds, hds, halone⟩ := Piece.next_alone hcuts htrivia hoperator
  rw [← hpiece] at hds halone
  have hplaced := PlacedPiece.ofText_singleton halone
  obtain ⟨u, hu, hkind, hvalue⟩ := PlacedPiece.token?_at htoken .start
  have hnone : (⟨p.piece, .start⟩ : PlacedPiece).trivia? = none := by
    simpa [PlacedPiece.isTrivia] using PlacedPiece.isTrivia_of_token hu
  rw [hslice, String.toList_ofList, hds]
  refine ⟨u, ?_, hkind, hvalue, ?_⟩
  · simp [ofText, hplaced, hu]
  · simp [ofText, hplaced, hnone]

/-- The quote behind the number is looked at, and it is not part of it. -/
theorem ofText_alone_number :
    let source := "#define A 1 // x\n  1'0'\n\"b"
    let t : Token := ⟨.number, "1'0", ⟨19, 22⟩, ⟨2, 3⟩⟩
    t ∈ (ofText source.toList).tokens ∧ t.isEnd = false
      ∧ (t.isSpelled "#" = false ∧ t.isSpelled "##" = false)
      ∧ ∃ u, (ofText (t.span.slice source).toList).tokens
          = [u, endToken (t.span.slice source).toList]
        ∧ u.kind = t.kind ∧ u.value = t.value
        ∧ (ofText (t.span.slice source).toList).trivia = [] := by
  intro source t
  have ht : t ∈ (ofText source.toList).tokens := by decide +kernel
  exact ⟨ht, rfl, ⟨rfl, rfl⟩, ofText_alone ht rfl ⟨rfl, rfl⟩⟩

end TokenStream

end FrontEnd
