/-
States on the way through a token list.

`State.Along tokens s` says what is true of every state that a reading of
the tokens comes through: the tokens to come are those from the position
on, the position lies within the list, and no mark of the end was read.
`Leads` orders these states. Reading a token that is there moves the
position behind the next significant token, and everything that is said
about progress comes down to that (`State.advance_position`).
-/
import Mathlib.Data.List.Basic
import Mathlib.Data.List.TakeWhile
import FrontEnd.Grammar.Unit

namespace FrontEnd

/-! Whether a token marks the end is a matter of its kind, and so are most
of the other questions about it. -/
attribute [grind =] Token.isEnd Token.isDirective Token.isName Token.isString
  Token.isPunct Token.isKeyword Token.isOperator Token.isSpelled Token.opens

namespace Grammar

-- ======================================== the significant token that comes

/-- The index of the first token from `index` on that is no directive. -/
theorem significant_eq (index : Nat) (ts : List Token) :
    significant index ts
      = (index + (ts.takeWhile Token.isDirective).length,
        ts.dropWhile Token.isDirective) := by
  induction ts generalizing index with
  | nil => rfl
  | cons t ts ih =>
    unfold significant
    cases h : t.isDirective with
    | true =>
      rw [if_pos rfl, ih, List.takeWhile_cons, List.dropWhile_cons, if_pos h,
        if_pos h, List.length_cons]
      congr 1
      omega
    | false =>
      rw [if_neg nofun, List.takeWhile_cons, List.dropWhile_cons,
        if_neg (by simp [h]), if_neg (by simp [h])]
      rfl

theorem tokenAt_zero (ts : List Token) :
    tokenAt 0 ts = (ts.dropWhile Token.isDirective).headD .endOfInput := by
  induction ts with
  | nil => rfl
  | cons t ts ih =>
    unfold tokenAt
    rw [List.dropWhile_cons]
    split
    · exact ih
    · rfl

theorem tokenAt_succ (n : Nat) (ts : List Token) :
    tokenAt (n + 1) ts = tokenAt n (ts.dropWhile Token.isDirective).tail := by
  induction ts with
  | nil => rfl
  | cons t ts ih =>
    rw [tokenAt, List.dropWhile_cons]
    split
    · exact ih
    · rfl

/-- Directives in front make no difference. -/
theorem tokenAt_dropWhile (n : Nat) (ts : List Token) :
    tokenAt n (ts.dropWhile Token.isDirective) = tokenAt n ts := by
  induction ts with
  | nil => rfl
  | cons t ts ih =>
    rw [List.dropWhile_cons]
    split
    case isTrue h =>
      rw [ih]
      exact (if_pos h).symm
    case isFalse => rfl

namespace State

variable (s : State)

theorem mark_index :
    s.mark.index
      = s.position + (s.rest.takeWhile Token.isDirective).length := by
  unfold mark
  rw [significant_eq]

theorem peek_eq :
    s.peek = (s.rest.dropWhile Token.isDirective).headD .endOfInput := by
  unfold peek
  rw [significant_eq]

theorem peek_eq_tokenAt : s.peek = tokenAt 0 s.rest := by
  rw [peek_eq, tokenAt_zero]

theorem position_le_mark : s.position ≤ s.mark.index := by
  rw [mark_index]
  exact Nat.le_add_right _ _

theorem peek_isDirective : s.peek.isDirective = false := by
  rw [peek_eq]
  cases h : s.rest.dropWhile Token.isDirective with
  | nil => rfl
  | cons t ts =>
    have hhead := List.head?_dropWhile_not Token.isDirective s.rest
    rw [h] at hhead
    simpa using hhead

/-- At the end nothing is read. -/
theorem advance_of_end (h : s.peek.isEnd = true) : s.advance = s := by
  rw [peek_eq] at h
  unfold advance
  rw [significant_eq]
  cases hrest : s.rest.dropWhile Token.isDirective with
  | nil => rfl
  | cons t ts =>
    rw [hrest] at h
    exact if_pos h

/-- The next significant token, which is not the end, with what comes in
front of it and behind it. -/
theorem rest_eq_of_not_end (h : s.peek.isEnd = false) :
    s.rest = s.rest.takeWhile Token.isDirective
      ++ s.peek :: (s.rest.dropWhile Token.isDirective).tail := by
  rw [peek_eq] at *
  cases hrest : s.rest.dropWhile Token.isDirective with
  | nil =>
    rw [hrest] at h
    cases h
  | cons t ts =>
    rw [List.headD_cons, List.tail_cons, ← hrest,
      List.takeWhile_append_dropWhile]

/-- What reading a token that is there comes to. -/
theorem advance_of_not_end (h : s.peek.isEnd = false) :
    s.advance = { s with
      rest := (s.rest.dropWhile Token.isDirective).tail
      position := s.mark.index + 1
      depth := depthAfter s.peek s.depth } := by
  rw [mark_index]
  rw [peek_eq] at *
  unfold advance
  rw [significant_eq]
  cases hrest : s.rest.dropWhile Token.isDirective with
  | nil =>
    rw [hrest] at h
    cases h
  | cons t ts =>
    rw [hrest] at h
    exact if_neg (by simpa using h)

/-- Behind a token that is there the position follows the mark. -/
theorem advance_position (h : s.peek.isEnd = false) :
    s.advance.position = s.mark.index + 1 := by
  rw [advance_of_not_end s h]

/-- The token behind the next one comes next when that is read. -/
theorem advance_peek (h : s.peek.isEnd = false) :
    s.advance.peek = tokenAt 1 s.rest := by
  rw [peek_eq_tokenAt, advance_of_not_end s h, tokenAt_succ]

end State

-- ======================================================= states on the way

/-- A state on the way through the tokens. -/
structure State.Along (tokens : List Token) (s : State) : Prop where
  rest : s.rest = tokens.drop s.position
  size : s.size = tokens.length
  within : s.position ≤ tokens.length
  /-- No mark of the end was read. -/
  unended : ∀ t ∈ tokens.take s.position, t.isEnd = false

namespace State.Along

variable {tokens : List Token} {s s' : State}

theorem start (tokens : List Token) : (State.start tokens).Along tokens where
  rest := rfl
  size := rfl
  within := Nat.zero_le _
  unended := nofun

/-- Only position, rest and size matter. -/
theorem congr (hs : s.Along tokens) (hrest : s'.rest = s.rest)
    (hposition : s'.position = s.position) (hsize : s'.size = s.size) :
    s'.Along tokens where
  rest := by rw [hrest, hposition, hs.rest]
  size := by rw [hsize, hs.size]
  within := by rw [hposition]; exact hs.within
  unended := by rw [hposition]; exact hs.unended

variable (hs : s.Along tokens)
include hs

/-- Some tokens further on, none of them the end. -/
theorem skip (before after : List Token)
    (hrest : s.rest = before ++ after)
    (hbefore : ∀ t ∈ before, t.isEnd = false)
    (hafter : s'.rest = after)
    (hposition : s'.position = s.position + before.length)
    (hsize : s'.size = s.size) : s'.Along tokens := by
  have htokens : tokens.drop s.position = before ++ after := by
    rw [← hs.rest, hrest]
  have hlength : tokens.length - s.position
      = before.length + after.length := by
    rw [← List.length_drop, htokens, List.length_append]
  constructor
  · rw [hafter, hposition, ← List.drop_drop, htokens, List.drop_left]
  · rw [hsize, hs.size]
  · have := hs.within
    omega
  · intro t ht
    rw [hposition, List.take_add, htokens, List.take_left] at ht
    rcases List.mem_append.1 ht with ht | ht
    · exact hs.unended t ht
    · exact hbefore t ht

theorem mark_le : s.mark.index ≤ tokens.length := by
  have hleading := List.takeWhile_prefix (l := s.rest) Token.isDirective
  have hle := hleading.length_le
  have hrest : s.rest.length = tokens.length - s.position := by
    rw [hs.rest, List.length_drop]
  have := hs.within
  rw [mark_index]
  omega

/-- The next token stands at the mark, if there is one. -/
theorem getElem_mark (h : s.mark.index < tokens.length) :
    tokens[s.mark.index]? = some s.peek := by
  rw [mark_index] at *
  have hdrop : tokens[s.position
      + (s.rest.takeWhile Token.isDirective).length]?
      = s.rest[(s.rest.takeWhile Token.isDirective).length]? := by
    rw [hs.rest, List.getElem?_drop]
  rw [hdrop, peek_eq]
  have hsplit := List.takeWhile_append_dropWhile
    (p := Token.isDirective) (l := s.rest)
  have hindex : s.rest[(s.rest.takeWhile Token.isDirective).length]?
      = (s.rest.dropWhile Token.isDirective)[0]? := by
    conv_lhs => rw [← hsplit]
    rw [List.getElem?_append_right (by simp)]
    simp
  rw [hindex]
  cases hrest : s.rest.dropWhile Token.isDirective with
  | nil =>
    rw [hrest, List.append_nil] at hsplit
    have hlength : s.rest.length = tokens.length - s.position := by
      rw [hs.rest, List.length_drop]
    rw [hsplit, hlength] at h
    have := hs.within
    omega
  | cons t ts => rfl

/-- The tokens from the mark on are those to come, but for directives in
front of them. -/
theorem drop_mark :
    tokens.drop s.mark.index = s.rest.dropWhile Token.isDirective := by
  have hsplit := List.takeWhile_append_dropWhile
    (p := Token.isDirective) (l := s.rest)
  rw [mark_index, ← List.drop_drop, ← hs.rest]
  exact (congrArg _ hsplit.symm).trans List.drop_left

theorem tokenAt_drop_mark (n : Nat) :
    tokenAt n (tokens.drop s.mark.index) = tokenAt n s.rest := by
  rw [hs.drop_mark, tokenAt_dropWhile]

/-- In front of the mark there are directives only. -/
theorem isDirective_of_lt_mark {index : Nat}
    (hposition : s.position ≤ index) (hmark : index < s.mark.index) :
    ∃ t, tokens[index]? = some t ∧ t.isDirective = true := by
  rw [mark_index] at hmark
  have hsplit := List.takeWhile_append_dropWhile
    (p := Token.isDirective) (l := s.rest)
  have hlt : index - s.position
      < (s.rest.takeWhile Token.isDirective).length := by omega
  refine ⟨(s.rest.takeWhile Token.isDirective)[index - s.position], ?_, ?_⟩
  · have hindex : tokens[index]? = s.rest[index - s.position]? := by
      rw [hs.rest, List.getElem?_drop]
      congr 1
      omega
    rw [hindex]
    conv_lhs => rw [← hsplit]
    rw [List.getElem?_append_left hlt, List.getElem?_eq_getElem hlt]
  · exact List.mem_takeWhile_imp (List.getElem_mem hlt)

theorem advance : s.advance.Along tokens := by
  cases h : s.peek.isEnd with
  | true =>
    rw [advance_of_end s h]
    exact hs
  | false =>
    rw [advance_of_not_end s h, mark_index]
    refine hs.skip (s.rest.takeWhile Token.isDirective ++ [s.peek])
      (s.rest.dropWhile Token.isDirective).tail ?_ ?_ rfl ?_ rfl
    · conv_lhs => rw [rest_eq_of_not_end s h]
      rw [List.append_assoc]
      rfl
    · intro t ht
      rcases List.mem_append.1 ht with ht | ht
      · have := List.mem_takeWhile_imp ht
        grind
      · rw [List.mem_singleton.1 ht]
        exact h
    · simp only [List.length_append, List.length_singleton]
      omega

/-- A later state has its next token no earlier. -/
theorem mark_mono (hs' : s'.Along tokens) (h : s.position ≤ s'.position) :
    s.mark.index ≤ s'.mark.index := by
  by_contra hlt
  obtain ⟨t, ht, hdirective⟩ := hs.isDirective_of_lt_mark
    (Nat.le_trans h s'.position_le_mark) (Nat.lt_of_not_le hlt)
  have hmark := hs'.getElem_mark (by
    have := hs.mark_le
    omega)
  rw [hmark, Option.some.injEq] at ht
  rw [← ht, peek_isDirective] at hdirective
  cases hdirective

end State.Along

-- =================================================== the order on the way

/-- A state from which a reading of the tokens can come to another. -/
structure Leads (tokens : List Token) (s s' : State) : Prop where
  along : s'.Along tokens
  position : s.position ≤ s'.position
  mark : s.mark.index ≤ s'.mark.index

attribute [grind →] Leads.along Leads.position Leads.mark
grind_pattern State.position_le_mark => s.mark

namespace Leads

variable {tokens : List Token} {s s' s'' : State}

theorem mk' (hs : s.Along tokens) (hs' : s'.Along tokens)
    (h : s.position ≤ s'.position) : Leads tokens s s' :=
  ⟨hs', h, hs.mark_mono hs' h⟩

theorem refl (hs : s.Along tokens) : Leads tokens s s :=
  ⟨hs, Nat.le_refl _, Nat.le_refl _⟩

theorem trans (h : Leads tokens s s') (h' : Leads tokens s' s'') :
    Leads tokens s s'' :=
  ⟨h'.along, h.position.trans h'.position, h.mark.trans h'.mark⟩

end Leads

/-- The next token was read, if it was not the end. -/
abbrev Moved (s s' : State) : Prop :=
  s.peek.isEnd = false → s.mark.index < s'.position

/-- The state behind the next token, or the same one at the end. -/
structure Reads (tokens : List Token) (s s' : State) : Prop
    extends Leads tokens s s' where
  moved : Moved s s'
  /-- What comes next is what came behind the token. -/
  next : s.peek.isEnd = false → s'.peek = tokenAt 1 s.rest
  behind : s.peek.isEnd = false →
    s'.rest = (s.rest.dropWhile Token.isDirective).tail

attribute [grind →] Reads.moved Reads.next Reads.toLeads

theorem State.Along.reads {tokens : List Token} {s : State}
    (hs : s.Along tokens) : Reads tokens s s.advance := by
  have hmoved (h : s.peek.isEnd = false) :
      s.mark.index < s.advance.position := by
    rw [s.advance_position h]
    exact Nat.lt_succ_self _
  refine ⟨.mk' hs hs.advance ?_, hmoved, s.advance_peek,
    fun h => by rw [s.advance_of_not_end h]⟩
  cases h : s.peek.isEnd with
  | true => rw [s.advance_of_end h]
  | false => exact s.position_le_mark.trans (hmoved h).le

end Grammar

end FrontEnd
