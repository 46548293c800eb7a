/-
Where skipping stops.

Bad input is skipped with an eye on the groups that are open. A closing
bracket counts only where it closes a group that was opened since, so that
never fewer groups are open than when the item began: `resumeOr`, which
answers whatever it likes where fewer are open, is the same search
(`resumeOr_eq`). That is the invariant, and with it every arm of the search
either passes over a token or stops at one of the places where a sequence
goes on (`Resumes`), with as many groups open as in front of the item.
-/
import FrontEnd.Proofs.Course.Sequence
import FrontEnd.Proofs.Written.Lexemes

namespace FrontEnd

namespace Grammar

/-- `resume` with another answer where fewer than `base` groups are open in
front of a token that it comes to. -/
def resumeOr (below : Nat × Nat × List Token) (base index depth : Nat) :
    List Token → Nat × Nat × List Token
  | [] => if depth < base then below else (index, depth, [])
  | t :: ts =>
    if depth < base then below
    else if t.isEnd then (index, depth, t :: ts)
    else if t.isDirective then
      if depth ≤ base then (index, depth, t :: ts)
      else resumeOr below base (index + 1) depth ts
    else if depth ≤ base then
      if t.isPunct ";" then (index + 1, depth, ts)
      else if t.isPunct "\x7d" then (index, depth, t :: ts)
      else if t.closes then resumeOr below base (index + 1) depth ts
      else resumeOr below base (index + 1) (depthAfter t depth) ts
    else if t.isPunct "\x7d" && depth == base + 1 then
      (index + 1, depth - 1, ts)
    else resumeOr below base (index + 1) (depthAfter t depth) ts

/-- Whether a sequence goes on between these tokens: behind a semicolon or
a closing brace, or in front of a closing brace or a directive. -/
def Resumes (passed rest : List Token) : Prop :=
  passed.getLast?.any (fun t => t.isPunct ";" || t.isPunct "\x7d") = true
    ∨ rest.head?.any (fun t => t.isPunct "\x7d" || t.isDirective) = true

/-- Skipping from `index` on in the tokens `ts` passed over some of them and
stopped: at the end or, with `base` groups open, where a sequence goes
on. -/
structure Skipped (base index : Nat) (ts passed : List Token)
    (r : Nat × Nat × List Token) : Prop where
  tokens : ts = passed ++ r.2.2
  position : r.1 = index + passed.length
  unended : ∀ t ∈ passed, t.isEnd = false
  level : base ≤ r.2.1
  stops : r.2.2.head?.all Token.isEnd = true
    ∨ r.2.1 = base ∧ Resumes passed r.2.2

-- ============================================================= one token

/-- A token that closes no group leaves no fewer open. -/
theorem le_depthAfter {t : Token} (h : t.closes = false) (depth : Nat) :
    depth ≤ depthAfter t depth := by
  unfold depthAfter
  rw [h]
  split
  · exact Nat.le_succ depth
  · exact Nat.le_refl depth

/-- A token closes at most one group. -/
theorem pred_le_depthAfter (t : Token) (depth : Nat) :
    depth - 1 ≤ depthAfter t depth := by
  unfold depthAfter
  split
  · omega
  · split <;> omega

-- ============================================================ the search

/-- Skipping does not come to a token with fewer groups open than in front
of the item. -/
theorem resumeOr_eq (below : Nat × Nat × List Token) {base depth : Nat}
    (h : base ≤ depth) (index : Nat) (ts : List Token) :
    resumeOr below base index depth ts = resume base index depth ts := by
  induction ts generalizing index depth with
  | nil =>
    unfold resumeOr resume
    exact if_neg (Nat.not_lt_of_le h)
  | cons t ts ih =>
    unfold resumeOr resume
    rw [if_neg (Nat.not_lt_of_le h), ih h]
    by_cases hbase : depth ≤ base
    · -- a bracket that closes nothing of the item is not counted
      simp only [if_pos hbase]
      by_cases hcloses : t.closes = true
      · simp only [if_pos hcloses]
      · rw [ih (h.trans (le_depthAfter (by simpa using hcloses) depth))]
    · have hnext : base ≤ depthAfter t depth :=
        (Nat.le_sub_one_of_lt (Nat.lt_of_not_le hbase)).trans
          (pred_le_depthAfter t depth)
      simp only [if_neg hbase, ih hnext]

namespace Skipped

variable {base index : Nat} {t : Token} {ts passed : List Token}
  {r : Nat × Nat × List Token}

/-- Skipping stops in front of the end. -/
theorem at_end {depth : Nat} (h : base ≤ depth)
    (hend : ts.head?.all Token.isEnd = true) :
    Skipped base index ts [] (index, depth, ts) :=
  ⟨rfl, rfl, nofun, h, .inl hend⟩

/-- Skipping stops in front of a token. -/
theorem here (h : t.isPunct "\x7d" = true ∨ t.isDirective = true) :
    Skipped base index (t :: ts) [] (index, base, t :: ts) :=
  ⟨rfl, rfl, nofun, le_refl base, .inr ⟨rfl, .inr (by simpa using h)⟩⟩

/-- Skipping stops behind a token. -/
theorem behind (h : t.isPunct ";" = true ∨ t.isPunct "\x7d" = true) :
    Skipped base index (t :: ts) [t] (index + 1, base, ts) := by
  have hend : t.isEnd = false := by
    rcases h with h | h <;> grind
  exact ⟨rfl, rfl, by simpa using hend, le_refl base,
    .inr ⟨rfl, .inl (by simpa using h)⟩⟩

/-- A token is passed over. -/
theorem cons (h : Skipped base (index + 1) ts passed r)
    (hend : t.isEnd = false) :
    Skipped base index (t :: ts) (t :: passed) r := by
  refine ⟨congrArg (t :: ·) h.tokens, ?_, ?_, h.level, ?_⟩
  · rw [h.position, List.length_cons]
    omega
  · exact List.forall_mem_cons.2 ⟨hend, h.unended⟩
  · refine h.stops.imp_right fun ⟨hlevel, hresumes⟩ => ⟨hlevel, ?_⟩
    refine hresumes.imp_left fun hlast => ?_
    cases passed with
    | nil => cases hlast
    | cons u us => rwa [List.getLast?_cons_cons]

end Skipped

/-- Skipping stops where it should, if no fewer groups are open than in
front of the item. -/
theorem resume_skipped {base depth : Nat} (h : base ≤ depth) (index : Nat)
    (ts : List Token) :
    ∃ passed, Skipped base index ts passed (resume base index depth ts) := by
  induction ts generalizing index depth with
  | nil => exact ⟨[], .at_end h rfl⟩
  | cons t ts ih =>
    have goOn {depth' : Nat} (h' : base ≤ depth')
        (hend : t.isEnd = false) : ∃ passed, Skipped base index (t :: ts)
          passed (resume base (index + 1) depth' ts) := by
      obtain ⟨passed, hpassed⟩ := ih h' (index + 1)
      exact ⟨t :: passed, hpassed.cons hend⟩
    unfold resume
    by_cases hend : t.isEnd = true
    · rw [if_pos hend]
      exact ⟨[], .at_end h hend⟩
    rw [if_neg hend]
    rw [Bool.not_eq_true] at hend
    by_cases hdirective : t.isDirective = true
    · rw [if_pos hdirective]
      by_cases hbase : depth ≤ base
      · obtain rfl := Nat.le_antisymm h hbase
        rw [if_pos hbase]
        exact ⟨[], .here (.inr hdirective)⟩
      · rw [if_neg hbase]
        exact goOn h hend
    rw [if_neg hdirective]
    by_cases hbase : depth ≤ base
    · obtain rfl := Nat.le_antisymm h hbase
      rw [if_pos hbase]
      by_cases hsemicolon : t.isPunct ";" = true
      · rw [if_pos hsemicolon]
        exact ⟨[t], .behind (.inl hsemicolon)⟩
      by_cases hbrace : t.isPunct "\x7d" = true
      · rw [if_neg hsemicolon, if_pos hbrace]
        exact ⟨[], .here (.inl hbrace)⟩
      rw [if_neg hsemicolon, if_neg hbrace]
      by_cases hcloses : t.closes = true
      · rw [if_pos hcloses]
        exact goOn h hend
      · rw [if_neg hcloses]
        exact goOn (le_depthAfter (by simpa using hcloses) base) hend
    · rw [if_neg hbase]
      by_cases hlast : (t.isPunct "\x7d" && depth == base + 1) = true
      · rw [if_pos hlast]
        rw [Bool.and_eq_true, beq_iff_eq] at hlast
        obtain ⟨hbrace, rfl⟩ := hlast
        exact ⟨[t], .behind (.inr hbrace)⟩
      · rw [if_neg hlast]
        exact goOn ((Nat.le_sub_one_of_lt (Nat.lt_of_not_le hbase)).trans
          (pred_le_depthAfter t depth)) hend

end Grammar

open Grammar

/-- Skipping bad input in any tokens, with no fewer groups open than in
front of the item, stops at the first mark of the end or, with as many
groups open as there, where a sequence goes on. Nothing is skipped
backwards, and on the way no fewer groups are open than in front of the
item. -/
theorem skipping_stops (tokens : List Token) (position : Nat)
    {base depth : Nat} (h : base ≤ depth) :
    (∃ passed, Skipped base position (tokens.drop position) passed
      (resume base position depth (tokens.drop position)))
    ∧ ∀ below, resumeOr below base position depth (tokens.drop position)
      = resume base position depth (tokens.drop position) :=
  ⟨resume_skipped h position _,
    fun below => resumeOr_eq below h position _⟩

open Written Lexeme in
/-- In `) ) [ ; } x`, with one more group open than in front of the item,
the first bracket closes that group and the second one counts for nothing.
The semicolon stands in a group, and skipping stops behind the brace that
closes it by number. -/
theorem skipping_stops_brackets :
    let tokens := [punct ")", punct ")", punct "[", punct ";",
      punct "\x7d", name "x"].map (·.token (⟨0, 0⟩, .start))
    1 ≤ 2
      ∧ resume 1 0 2 (tokens.drop 0) = (5, 1, tokens.drop 5)
      ∧ ∃ passed, Skipped 1 0 (tokens.drop 0) passed
        (5, 1, tokens.drop 5) := by
  intro tokens
  have between : 1 ≤ 2 := by decide
  have value : resume 1 0 2 (tokens.drop 0) = (5, 1, tokens.drop 5) := by
    decide
  refine ⟨between, value, ?_⟩
  rw [← value]
  exact (skipping_stops tokens 0 between).1

end FrontEnd
