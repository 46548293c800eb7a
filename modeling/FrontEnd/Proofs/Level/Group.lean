/-
Where a group ends that is passed over.

A group ends at the first token behind which as many brackets were closed
as were opened since it began (`ClosesAt`). The number of open groups in
the state leads there: it is the number of groups that are open around the
group and inside of it, and closing one of the latter never comes to zero
(`depthAfter_sub`). `groupLength` looks for that token in the tokens alone,
with the number of groups that are open inside; it is what the loop does
(`groupLoop_found`, `groupLoop_missed`), and what the counts say
(`groupLength_eq_some`).

In a nested word no group ends that is open in front of it
(`groupLength_nested`), so that a group there ends at its own closing
bracket.
-/
import FrontEnd.Proofs.Built.Brackets

namespace FrontEnd

namespace Grammar

open Lockstep (groupRound skipGroup_eq skipGroupCounting advance_depth)

-- ================================================================ counts

/-- Behind the token at this index as many brackets were closed as opened,
and behind none in front of it. -/
def ClosesAt (ts : List Token) (index : Nat) : Prop :=
  index < ts.length
    ∧ (ts.take (index + 1)).countP Token.closes
      = (ts.take (index + 1)).countP Token.opens
    ∧ ∀ i < index, (ts.take (i + 1)).countP Token.closes
      ≠ (ts.take (i + 1)).countP Token.opens

instance (ts : List Token) (index : Nat) : Decidable (ClosesAt ts index) :=
  inferInstanceAs (Decidable (_ ∧ _ ∧ _))

/-- How many tokens there are from here through the one that closes the
last of the groups that are open inside. -/
def groupLength (inside : Nat) : List Token → Option Nat
  | [] => none
  | t :: ts =>
    if t.isEnd then none
    else if depthAfter t inside = 0 then some 1
    else (groupLength (depthAfter t inside) ts).map (· + 1)

/-- A token changes the number of open groups by what it opens and
closes. -/
theorem depthAfter_count {inside : Nat} (h : inside ≠ 0) (t : Token)
    (ts : List Token) :
    inside + (t :: ts).countP Token.opens
        = (t :: ts).countP Token.closes
      ↔ depthAfter t inside + ts.countP Token.opens
        = ts.countP Token.closes := by
  rw [List.countP_cons, List.countP_cons]
  unfold depthAfter
  by_cases hopens : t.opens = true
  · have hcloses : t.closes = false := by grind
    simp only [hopens, hcloses, if_true, Bool.false_eq_true, if_false]
    omega
  · rw [Bool.not_eq_true] at hopens
    by_cases hcloses : t.closes = true
    · simp only [hopens, hcloses, if_true, Bool.false_eq_true, if_false]
      omega
    · rw [Bool.not_eq_true] at hcloses
      simp only [hopens, hcloses, Bool.false_eq_true, if_false]
      omega

/-- The length of a group by the numbers of its brackets. -/
theorem groupLength_eq_some {inside : Nat} (h : inside ≠ 0)
    (ts : List Token) (n : Nat) :
    groupLength inside ts = some n ↔ n ≤ (beforeEnd ts).length
      ∧ inside + ((beforeEnd ts).take n).countP Token.opens
        = ((beforeEnd ts).take n).countP Token.closes
      ∧ ∀ m < n, inside + ((beforeEnd ts).take m).countP Token.opens
        ≠ ((beforeEnd ts).take m).countP Token.closes := by
  induction ts generalizing inside n with
  | nil =>
    refine iff_of_false nofun fun ⟨_, hcount, _⟩ => h ?_
    simpa [beforeEnd] using hcount
  | cons t ts ih =>
    unfold groupLength
    by_cases hend : t.isEnd = true
    · rw [if_pos hend]
      refine iff_of_false nofun fun ⟨_, hcount, _⟩ => h ?_
      simpa [beforeEnd, hend] using hcount
    have hbefore : beforeEnd (t :: ts) = t :: beforeEnd ts :=
      List.takeWhile_cons_of_pos (by simpa using hend)
    rw [if_neg hend, hbefore]
    cases n with
    | zero =>
      refine iff_of_false ?_ fun ⟨_, hcount, _⟩ => h (by simpa using hcount)
      split
      · nofun
      · simp
    | succ n =>
      have hfirst : inside + ([] : List Token).countP Token.opens
          ≠ ([] : List Token).countP Token.closes := h
      rw [Nat.forall_lt_succ_left]
      simp only [List.take_succ_cons, List.take_zero, List.length_cons,
        Nat.add_le_add_iff_right, ne_eq, depthAfter_count h, hfirst,
        not_false_eq_true, true_and]
      by_cases hlast : depthAfter t inside = 0
      · rw [if_pos hlast, hlast]
        cases n with
        | zero => simp
        | succ n =>
          refine iff_of_false (by simp) fun ⟨_, _, hearlier⟩ => ?_
          exact hearlier 0 (Nat.succ_pos n) rfl
      · rw [if_neg hlast, ← ih hlast]
        simp

/-- Directives in front of the next token count for the length and for
nothing else. -/
theorem groupLength_directives {inside : Nat} (h : inside ≠ 0)
    (ts : List Token) : groupLength inside ts
      = (groupLength inside (ts.dropWhile Token.isDirective)).map
        (· + (ts.takeWhile Token.isDirective).length) := by
  induction ts with
  | nil => rfl
  | cons t ts ih =>
    by_cases ht : t.isDirective = true
    · have hend : t.isEnd = false := by grind
      have hplain : t.isBracket = false := by grind
      rw [List.dropWhile_cons_of_pos ht, List.takeWhile_cons_of_pos ht,
        groupLength, depthAfter_of_not_bracket hplain, if_neg (by simp [hend]), if_neg h, ih,
        Option.map_map]
      rfl
    · rw [List.dropWhile_cons_of_neg ht, List.takeWhile_cons_of_neg ht]
      simp

-- ================================================================ the loop

/-- The tokens to come are those behind the position, in a list of that
size. -/
def State.Sized (s : State) : Prop := s.position + s.rest.length = s.size

/-- In front of the position stands a token that is no directive, and these
are the tokens between the two states. -/
def Passed (s s' : State) : Prop :=
  ∃ passed t, s.rest = passed ++ t :: s'.rest
    ∧ s'.position = s.position + passed.length + 1
    ∧ t.isDirective = false ∧ ∀ u ∈ passed ++ [t], u.isEnd = false

section

variable {s s' s'' : State}

theorem State.Sized.passed (hs : s.Sized) (h : Passed s s')
    (hsize : s'.size = s.size) : s'.Sized := by
  obtain ⟨passed, t, hrest, hposition, -⟩ := h
  unfold Sized at *
  rw [hrest, List.length_append, List.length_cons] at hs
  omega

theorem Passed.position_lt (h : Passed s s') : s.position < s'.position := by
  obtain ⟨passed, t, -, hposition, -⟩ := h
  omega

theorem Passed.length_lt (h : Passed s s') :
    s'.rest.length < s.rest.length := by
  obtain ⟨passed, t, hrest, -⟩ := h
  rw [hrest, List.length_append, List.length_cons]
  omega

theorem Passed.trans (h : Passed s s') (h' : Passed s' s'') :
    Passed s s'' := by
  obtain ⟨ts, t, hrest, hposition, -, hts⟩ := h
  obtain ⟨us, u, hrest', hposition', hu, hus⟩ := h'
  refine ⟨ts ++ t :: us, u, ?_, ?_, hu, ?_⟩
  · rw [hrest, hrest', List.append_assoc, List.cons_append]
  · rw [hposition', hposition, List.length_append, List.length_cons]
    omega
  · intro v hv
    rw [List.append_assoc, List.cons_append, List.append_cons] at hv
    rcases List.mem_append.1 hv with hv | hv
    · exact hts v hv
    · exact hus v hv

/-- A token that is there is read. -/
theorem passed_advance (h : s.peek.isEnd = false) : Passed s s.advance := by
  rw [s.advance_of_not_end h]
  refine ⟨s.rest.takeWhile Token.isDirective, s.peek,
    s.rest_eq_of_not_end h, ?_, s.peek_isDirective, ?_⟩
  · rw [s.mark_index]
  · intro u hu
    rcases List.mem_append.1 hu with hu | hu
    · have := List.mem_takeWhile_imp hu
      grind
    · rw [List.mem_singleton.1 hu]
      exact h

theorem advance_size (h : s.peek.isEnd = false) :
    s.advance.size = s.size := by
  rw [s.advance_of_not_end h]

theorem State.Sized.advance (hs : s.Sized) (h : s.peek.isEnd = false) :
    s.advance.Sized :=
  hs.passed (passed_advance h) (advance_size h)

/-- A loop goes on behind a round that read tokens. -/
theorem loop_moved {α β : Type} {round : α → Parser (Round α β)}
    {a a' : α} (h : round a s = .ok (.again a') s')
    (hmoved : s.position < s'.position) (hs' : s'.Sized)
    (hsize : s'.size = s.size) :
    loop round a s = loop round a' s' := by
  unfold State.Sized at hs'
  have hwithin : s'.position ≤ s.size := by omega
  rw [loop_eq, h]
  dsimp only
  rw [if_pos ⟨hmoved, hwithin⟩, ← hsize]
  rfl

end

/-- Where groups are open inside, the next token of a group is read. -/
theorem groupRound_again (problem : SyntaxProblem) {inside : Nat} {s : State}
    (h : inside ≠ 0) (hend : s.peek.isEnd = false) :
    groupRound problem inside s
      = .ok (.again (depthAfter s.peek inside)) s.advance := by
  unfold groupRound
  rw [bind_eq]
  dsimp only [peek]
  rw [if_neg h, if_neg (by simp [hend]), bind_eq]
  rfl

/-- The length of a group from a state on, by what comes behind the next
token. -/
theorem groupLength_rest {inside : Nat} {s : State} (h : inside ≠ 0)
    (hend : s.peek.isEnd = false) : groupLength inside s.rest
      = (if depthAfter s.peek inside = 0 then some 1
        else (groupLength (depthAfter s.peek inside) s.advance.rest).map
          (· + 1)).map (· + (s.rest.takeWhile Token.isDirective).length) := by
  have hdrop : s.rest.dropWhile Token.isDirective
      = s.peek :: s.advance.rest := by
    rw [s.advance_of_not_end hend]
    rw [s.peek_eq] at *
    cases hrest : s.rest.dropWhile Token.isDirective with
    | nil =>
      rw [hrest] at hend
      cases hend
    | cons t ts => rfl
  rw [groupLength_directives h, hdrop, groupLength,
    if_neg (by simp [hend])]

/-- Reading a token of a group leaves as many groups open around it. -/
theorem depthAfter_sub (t : Token) {inside depth : Nat} (h : inside ≠ 0)
    (hle : inside ≤ depth) :
    depthAfter t inside ≤ depthAfter t depth
      ∧ depthAfter t depth - depthAfter t inside = depth - inside := by
  unfold depthAfter
  split
  · omega
  · split <;> omega

/-- The loop is done where no group is open inside any more. -/
theorem groupLoop_zero (problem : SyntaxProblem) (s : State) :
    loop (groupRound problem) 0 s = .ok () s := by
  rw [loop_eq]
  rfl

/-- The loop gives up at the end. -/
theorem groupLoop_end (problem : SyntaxProblem) {inside : Nat} {s : State}
    (h : inside ≠ 0) (hend : s.peek.isEnd = true) :
    loop (groupRound problem) inside s = .error ⟨problem, s.peek⟩ s := by
  rw [loop_eq]
  unfold groupRound
  rw [bind_eq]
  dsimp only [peek]
  rw [if_neg h, if_pos hend]
  rfl

/-- At the end no group is closed any more. -/
theorem groupLength_end {inside : Nat} {s : State} (h : inside ≠ 0)
    (hend : s.peek.isEnd = true) : groupLength inside s.rest = none := by
  rw [groupLength_directives h]
  rw [s.peek_eq] at hend
  cases hrest : s.rest.dropWhile Token.isDirective with
  | nil => rfl
  | cons t ts =>
    rw [hrest, List.headD_cons] at hend
    rw [groupLength, if_pos hend]
    rfl

/-- Reading a token in terms of the tokens from the position on. -/
theorem advance_eq_drop {s : State} (h : s.peek.isEnd = false) :
    s.advance = { s with
      rest := s.rest.drop ((s.rest.takeWhile Token.isDirective).length + 1)
      position := s.position
        + ((s.rest.takeWhile Token.isDirective).length + 1)
      depth := depthAfter s.peek s.depth } := by
  have hdrop := congrArg (List.drop
    ((s.rest.takeWhile Token.isDirective).length + 1))
    (s.rest_eq_of_not_end h)
  rw [List.drop_length_add_append, List.drop_succ_cons, List.drop_zero]
    at hdrop
  rw [s.advance_of_not_end h, ← hdrop, s.mark_index, Nat.add_assoc]

/-- The loop goes to the end of the group, if there is one. -/
theorem groupLoop_found (problem : SyntaxProblem) {inside n : Nat}
    {s : State} (hs : s.Sized) (hinside : inside ≠ 0)
    (hdepth : inside ≤ s.depth) (hn : groupLength inside s.rest = some n) :
    loop (groupRound problem) inside s = .ok () { s with
      rest := s.rest.drop n, position := s.position + n
      depth := s.depth - inside } := by
  induction hlength : s.rest.length using Nat.strongRecOn
    generalizing inside n s with
  | _ length ih =>
    cases hend : s.peek.isEnd with
    | true =>
      rw [groupLength_end hinside hend] at hn
      cases hn
    | false =>
      have hpassed := passed_advance hend
      have hadvance := advance_eq_drop hend
      obtain ⟨hinside', hdepth'⟩ := depthAfter_sub s.peek hinside hdepth
      rw [loop_moved (groupRound_again problem hinside hend)
        hpassed.position_lt (hs.advance hend) (advance_size hend)]
      rw [groupLength_rest hinside hend] at hn
      by_cases hlast : depthAfter s.peek inside = 0
      · rw [if_pos hlast, Option.map_some, Option.some.injEq] at hn
        rw [hlast, groupLoop_zero, hadvance, ← hn, ← hdepth', hlast,
          Nat.add_comm]
        rfl
      · rw [if_neg hlast, Option.map_map, Option.map_eq_some_iff] at hn
        obtain ⟨k, hk, rfl⟩ := hn
        have hshorter : s.advance.rest.length < length :=
          hlength ▸ hpassed.length_lt
        rw [ih _ hshorter (hs.advance hend) hlast
          (by rw [hadvance]; exact hinside') hk rfl, hadvance]
        have hlength : (s.rest.takeWhile Token.isDirective).length + 1 + k
            = k + 1 + (s.rest.takeWhile Token.isDirective).length := by
          omega
        dsimp only [Function.comp_apply]
        rw [List.drop_drop, hdepth', Nat.add_assoc s.position, hlength]

/-- Where the group has no end, the loop gives up at the end of the tokens,
in the group. -/
theorem groupLoop_missed (problem : SyntaxProblem) {inside : Nat}
    {s : State} (hs : s.Sized) (hinside : inside ≠ 0)
    (hdepth : inside ≤ s.depth) (hn : groupLength inside s.rest = none) :
    ∃ s', loop (groupRound problem) inside s
        = .error ⟨problem, s'.peek⟩ s'
      ∧ s'.peek.isEnd = true ∧ (s' = s ∨ Passed s s')
      ∧ s.depth - inside < s'.depth := by
  induction hlength : s.rest.length using Nat.strongRecOn
    generalizing inside s with
  | _ length ih =>
    cases hend : s.peek.isEnd with
    | true =>
      exact ⟨s, groupLoop_end problem hinside hend, hend, .inl rfl, by omega⟩
    | false =>
      have hpassed := passed_advance hend
      rw [loop_moved (groupRound_again problem hinside hend)
        hpassed.position_lt (hs.advance hend) (advance_size hend)]
      rw [groupLength_rest hinside hend, Option.map_eq_none_iff] at hn
      by_cases hlast : depthAfter s.peek inside = 0
      · rw [if_pos hlast] at hn
        cases hn
      · rw [if_neg hlast, Option.map_eq_none_iff] at hn
        obtain ⟨hinside', hdepth'⟩ := depthAfter_sub s.peek hinside hdepth
        have hadvance := advance_depth s
        obtain ⟨s', hloop, hend', hs', hopen⟩ := ih _
          (hlength ▸ hpassed.length_lt) (hs.advance hend) hlast
          (by omega) hn rfl
        refine ⟨s', hloop, hend', .inr ?_, by omega⟩
        rcases hs' with rfl | hs'
        · exact hpassed
        · exact hpassed.trans hs'

-- ================================================================== groups

section

variable {context : String} {s : State} (hs : s.Sized)
  (hopens : s.peek.opens = true)
include hopens

/-- A group is the loop behind its opening bracket. -/
theorem skipGroup_eq_loop : skipGroup context s
    = loop (groupRound (.expected s!"'{closerOf s.peek}' {context}")) 1
      s.advance := by
  rw [skipGroup_eq]
  unfold skipGroupCounting
  rw [bind_eq]
  dsimp only [peek]
  rw [bind_eq]
  dsimp only [advance]
  rw [depthAfter, if_pos hopens]

/-- Behind the directives comes the opening bracket. -/
theorem dropWhile_isDirective_opener :
    s.rest.dropWhile Token.isDirective = s.peek :: s.advance.rest := by
  have hend : s.peek.isEnd = false := by grind
  rw [s.advance_of_not_end hend]
  rw [s.peek_eq] at *
  cases hrest : s.rest.dropWhile Token.isDirective with
  | nil =>
    rw [hrest] at hend
    cases hend
  | cons t ts => rfl

include hs

/-- A group is passed over to its end, and as many groups are open as in
front of it. -/
theorem skipGroup_found {n : Nat}
    (hn : groupLength 1 s.advance.rest = some n) :
    skipGroup context s = .ok () { s with
      rest := (s.rest.dropWhile Token.isDirective).drop (n + 1)
      position := s.mark.index + (n + 1) } := by
  have hend : s.peek.isEnd = false := by grind
  have hadvance := s.advance_of_not_end hend
  have hdepth : s.advance.depth = s.depth + 1 :=
    (advance_depth s).trans (if_pos hopens)
  rw [skipGroup_eq_loop hopens, groupLoop_found _ (hs.advance hend)
    Nat.one_ne_zero (by omega) hn, hdepth, Nat.add_sub_cancel, hadvance]
  dsimp only
  rw [List.drop_tail, Nat.add_assoc, Nat.add_comm 1]

/-- Behind a group the reading has moved on. -/
theorem skipGroup_moved {n : Nat}
    (hn : groupLength 1 s.advance.rest = some n) :
    let s' := { s with
      rest := (s.rest.dropWhile Token.isDirective).drop (n + 1)
      position := s.mark.index + (n + 1) }
    s.position < s'.position ∧ s'.Sized := by
  have hle : n ≤ s.advance.rest.length :=
    ((groupLength_eq_some Nat.one_ne_zero _ n).1 hn).1.trans
      (List.takeWhile_prefix _).length_le
  have hlength := congrArg List.length (List.takeWhile_append_dropWhile
    (p := Token.isDirective) (l := s.rest))
  have hmark := s.mark_index
  unfold State.Sized at *
  rw [List.length_append, dropWhile_isDirective_opener hopens,
    List.length_cons] at hlength
  rw [dropWhile_isDirective_opener hopens]
  dsimp only
  rw [List.drop_succ_cons, List.length_drop]
  constructor <;> omega

/-- A group without an end is given up at the end of the tokens, where it is
still open. -/
theorem skipGroup_missed (hn : groupLength 1 s.advance.rest = none) :
    ∃ s', skipGroup context s = .error
        ⟨.expected s!"'{closerOf s.peek}' {context}", s'.peek⟩ s'
      ∧ s'.peek.isEnd = true ∧ Passed s s' ∧ s.depth < s'.depth := by
  have hend : s.peek.isEnd = false := by grind
  have hpassed := passed_advance hend
  have hdepth : s.advance.depth = s.depth + 1 :=
    (advance_depth s).trans (if_pos hopens)
  rw [skipGroup_eq_loop hopens]
  obtain ⟨s', hloop, hend', hs', hopen⟩ := groupLoop_missed _
    (hs.advance hend) Nat.one_ne_zero (by omega) hn
  refine ⟨s', hloop, hend', ?_, by omega⟩
  rcases hs' with rfl | hs'
  · exact hpassed
  · exact hpassed.trans hs'

end

/-- Where a group ends, by what comes behind its opening bracket. -/
theorem closesAt_iff {t : Token} (h : t.opens = true) (ts : List Token)
    (n : Nat) :
    ClosesAt (beforeEnd (t :: ts)) n ↔ groupLength 1 ts = some n := by
  have hcloses : t.closes = false := by grind
  have hend : t.isEnd = false := by grind
  have hbefore : beforeEnd (t :: ts) = t :: beforeEnd ts :=
    List.takeWhile_cons_of_pos (by simp [hend])
  rw [groupLength_eq_some Nat.one_ne_zero, hbefore]
  unfold ClosesAt
  simp only [List.length_cons, List.take_succ_cons, List.countP_cons, h,
    hcloses, if_true, Bool.false_eq_true, if_false, Nat.add_zero,
    Nat.lt_succ_iff, Nat.add_comm 1, ne_eq, eq_comm]

-- ============================================================ nested words

/-- In a nested word no group ends that is open in front of it. -/
theorem groupLength_nested {closedBy : Token → Token → Bool}
    {w : List Token} (h : Nested closedBy w)
    (hend : ∀ t ∈ w, t.isEnd = false) {inside : Nat} (hinside : inside ≠ 0)
    (ts : List Token) : groupLength inside (w ++ ts)
      = (groupLength inside ts).map (· + w.length) := by
  induction h generalizing inside ts with
  | nil => exact Option.map_id'.symm
  | @plain t w ht _ ih =>
    rw [List.forall_mem_cons] at hend
    have hplain : t.isBracket = false := by grind
    rw [List.cons_append, groupLength, if_neg (by simp [hend.1]),
      depthAfter_of_not_bracket hplain, if_neg hinside, ih hend.2 hinside,
      Option.map_map]
    rfl
  | @group o c inner w ho hc _ _ _ ihInner ih =>
    have hopened : depthAfter o inside = inside + 1 := if_pos ho
    have hclosed : depthAfter c (inside + 1) = inside :=
      depthAfter_of_closes hc (inside + 1)
    simp only [List.mem_append, List.mem_cons] at hend
    have hinner : ∀ t ∈ inner, t.isEnd = false :=
      fun t ht => hend t (.inl (.inr ht))
    have hw : ∀ t ∈ w, t.isEnd = false :=
      fun t ht => hend t (.inr (.inr ht))
    rw [List.append_assoc, List.cons_append, List.cons_append, groupLength,
      if_neg (by grind), hopened, if_neg (Nat.succ_ne_zero _),
      ihInner hinner (Nat.succ_ne_zero _), groupLength, if_neg (by grind),
      hclosed, if_neg hinside, ih hw hinside, Option.map_map,
      Option.map_map, Option.map_map]
    congr 1
    funext n
    simp only [Function.comp_apply, List.cons_append, List.length_cons,
      List.length_append]
    omega

/-- An opening bracket of a nested word is closed in it, by a bracket in
the relation to it. -/
theorem Nested.exists_closer {closedBy : Token → Token → Bool}
    {v w : List Token} {o : Token} (h : Nested closedBy (v ++ o :: w))
    (ho : o.opens = true) : ∃ inner c u, w = inner ++ c :: u
      ∧ Nested closedBy inner ∧ c.closes = true ∧ closedBy o c = true := by
  generalize hts : v ++ o :: w = ts at h
  induction h generalizing v w with
  | nil => simp at hts
  | @plain t ts ht _ ih =>
    cases v with
    | nil =>
      cases hts
      grind
    | cons u v =>
      cases hts
      exact ih rfl
  | @group o' c inner ts ho' hc hclosed hinner hts' ihInner ih =>
    cases v with
    | nil =>
      cases hts
      exact ⟨inner, c, ts, rfl, hinner, hc, hclosed⟩
    | cons u v =>
      rw [List.cons_append, List.cons_append, List.cons.injEq] at hts
      rcases List.append_eq_append_iff.1 hts.2 with
        ⟨as, hinner', hrest⟩ | ⟨as, hv, hrest⟩
      · cases as with
        | nil =>
          cases hrest
          grind
        | cons a as =>
          cases hrest
          obtain ⟨inner', c', u', rfl, hc'⟩ := ihInner hinner'.symm
          exact ⟨inner', c', u' ++ c :: ts, by simp, hc'⟩
      · cases as with
        | nil =>
          cases hrest
          grind
        | cons a as =>
          cases hrest
          exact ih rfl

/-- A group of a nested word ends at the closing bracket of its own. -/
theorem groupLength_enclosed {closedBy : Token → Token → Bool}
    {inner : List Token} {c : Token} (h : Nested closedBy inner)
    (hend : ∀ t ∈ inner, t.isEnd = false) (hc : c.closes = true)
    (after : List Token) :
    groupLength 1 (inner ++ c :: after) = some (inner.length + 1) := by
  have hclosed : depthAfter c 1 = 0 := depthAfter_of_closes hc 1
  rw [groupLength_nested h hend Nat.one_ne_zero, groupLength,
    if_neg (by grind), if_pos hclosed, Option.map_some, Nat.add_comm]

/-- What stands in front of the end, from an opening bracket on. -/
theorem beforeEnd_opener {s : State} (h : s.peek.opens = true) :
    beforeEnd s.rest = s.rest.takeWhile Token.isDirective
      ++ s.peek :: beforeEnd s.advance.rest := by
  have hdirectives : ∀ t ∈ s.rest.takeWhile Token.isDirective,
      (!t.isEnd) = true := by
    intro t ht
    have := List.mem_takeWhile_imp ht
    grind
  unfold beforeEnd
  conv_lhs => rw [← List.takeWhile_append_dropWhile
    (p := Token.isDirective) (l := s.rest), dropWhile_isDirective_opener h]
  rw [List.takeWhile_append_of_pos hdirectives,
    List.takeWhile_cons_of_pos (by grind)]

end Grammar

open Grammar

/-- From an opening bracket on, with groups of any number open around it,
exactly those groups are passed over in which there is a token, in front of
the end, behind which as many brackets were closed as opened for the first
time. The reading then stands right behind that token, and as many groups
are open as in front of the opening bracket; otherwise it gives up in front
of the end. Where all brackets in front of the end nest by their kinds, that
token is the closing bracket that belongs to the opening one. -/
theorem group_ends (context : String) {s : State} (hs : s.Sized)
    (hopens : s.peek.opens = true) :
    let ts := s.rest.dropWhile Token.isDirective
    (∀ n, ClosesAt (beforeEnd ts) n →
      skipGroup context s = .ok () { s with
        rest := ts.drop (n + 1), position := s.mark.index + (n + 1) })
    ∧ ((∀ n, ¬ClosesAt (beforeEnd ts) n) →
      ∃ s', skipGroup context s = .error
          ⟨.expected s!"'{closerOf s.peek}' {context}", s'.peek⟩ s'
        ∧ s'.peek.isEnd = true ∧ Passed s s')
    ∧ ∀ before, Bracketed (before ++ beforeEnd s.rest) →
      ∃ inner c after, ts = s.peek :: inner ++ c :: after
        ∧ Bracketed inner ∧ c.isPunct (closerOf s.peek) = true
        ∧ ClosesAt (beforeEnd ts) (inner.length + 1) := by
  intro ts
  have hts : ts = s.peek :: s.advance.rest :=
    dropWhile_isDirective_opener hopens
  have hcloses (n : Nat) : ClosesAt (beforeEnd ts) n
      ↔ groupLength 1 s.advance.rest = some n := by
    rw [hts]
    exact closesAt_iff hopens _ n
  refine ⟨fun n hn => ?_, fun hnone => ?_, fun before hnested => ?_⟩
  · exact skipGroup_found hs hopens ((hcloses n).1 hn)
  · have hn : groupLength 1 s.advance.rest = none :=
      Option.eq_none_iff_forall_ne_some.2
        fun n hn => hnone n ((hcloses n).2 hn)
    obtain ⟨s', hskip, hend, hpassed, -⟩ := skipGroup_missed hs hopens hn
    exact ⟨s', hskip, hend, hpassed⟩
  · rw [beforeEnd_opener hopens, ← List.append_assoc] at hnested
    obtain ⟨inner, c, u, hbefore, hinner, hc, hclosed⟩ :=
      hnested.exists_closer hopens
    obtain ⟨after, hafter⟩ : beforeEnd s.advance.rest <+: s.advance.rest :=
      List.takeWhile_prefix _
    have hend : ∀ t ∈ inner, t.isEnd = false := by
      intro t ht
      have hmem : t ∈ beforeEnd s.advance.rest := by
        rw [hbefore]
        exact List.mem_append_left _ ht
      simpa using List.mem_takeWhile_imp hmem
    have hrest : s.advance.rest = inner ++ c :: (u ++ after) := by
      rw [← hafter, hbefore, List.append_assoc, List.cons_append]
    refine ⟨inner, c, u ++ after, ?_, hinner, hclosed, (hcloses _).2 ?_⟩
    · rw [hts, hrest]
      rfl
    · rw [hrest]
      exact groupLength_enclosed hinner hend hc _

open Written Lexeme in
/-- In `f ( [ a ] ) ;`, with two groups open, the parentheses are passed
over, and the bracket that ends them is the one behind the brackets. -/
theorem group_ends_parentheses :
    let tokens := heap [name "f", punct "(", punct "[", name "a", punct "]",
      punct ")", punct ";"]
    let s := { State.start tokens with
      rest := tokens.drop 1, position := 1, depth := 2 }
    s.Sized ∧ s.peek.opens = true
      ∧ skipGroup "after operand" s = .ok () { s with
        rest := tokens.drop 6, position := 6 } := by
  intro tokens s
  have sized : s.Sized := rfl
  have opens : s.peek.opens = true := by decide
  have closes : ClosesAt
      (beforeEnd (s.rest.dropWhile Token.isDirective)) 4 := by decide
  exact ⟨sized, opens, (group_ends "after operand" sized opens).1 4 closes⟩

end FrontEnd
