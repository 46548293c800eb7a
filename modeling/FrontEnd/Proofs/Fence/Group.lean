/-
The rules that pass over tokens, and those of names, in front of a closing
brace. A group that begins there ends there (`skipGroup_keeps`); the rest
is a matter of what a rule has looked at before it reads it.
-/
import FrontEnd.Proofs.Fence.Basic
import FrontEnd.Proofs.Lockstep.Group

namespace FrontEnd.Grammar

open Lockstep (groupRound skipGroup_eq skipGroupCounting loopWithin_eq
  afterRound)

variable {F : Fence} {t u : Token}

-- ================================================================ groups

/-- As long as a group is open that began in front of the brace, the tokens
in front of it are not over. -/
theorem groupRounds_inside (problem : SyntaxProblem) (bound : Nat)
    {s : State} {W : List Token} {count inside : Nat}
    (h : Within F s W count) (hinside : inside ≤ count) :
    Inside F (stateOf (loopWithin bound (groupRound problem) inside s)) := by
  induction W generalizing s count inside with
  | nil =>
    have hcount : count = 0 := h.closed
    obtain rfl : inside = 0 := by omega
    rw [loopWithin_eq]
    exact ⟨_, _, h⟩
  | cons t V ih =>
    rw [loopWithin_eq]
    by_cases hzero : inside = 0
    · subst hzero
      exact ⟨_, _, h⟩
    · have hround : groupRound problem inside s
          = .ok (.again (depthAfter t inside)) s.advance := by
        have hend : t.isEnd = false := by
          have := h.unbraced (List.mem_cons_self ..)
          grind
        unfold groupRound
        rw [bind_eq]
        show (if inside = 0 then _ else _ : Parser _) s = _
        rw [if_neg hzero, h.peek_cons, hend, if_neg nofun]
        rfl
      rw [hround]
      unfold afterRound
      dsimp only
      split
      · exact ih h.advance (depthAfter_mono t hinside)
      · exact ⟨_, _, h.advance⟩

/-- A group, or one token that opens none. -/
theorem skipGroup_keeps (context : String) (h : t.isPunct "\x7d" = false) :
    Keeps F t u (skipGroup context) where
  inside {s} hs ht _ := by
    subst ht
    obtain ⟨V, count, hs⟩ := hs.exists_cons h
    rw [skipGroup_eq]
    exact groupRounds_inside _ _ hs.advance
      (depthAfter_mono _ (Nat.zero_le _))

/-- A group, and what comes behind it. -/
theorem Keeps.group {α : Type} {context : String} {f : Unit → Parser α}
    (h : t.isPunct "\x7d" = false) (k : Stays F (f ())) :
    Keeps F t u (skipGroup context >>= f) :=
  (skipGroup_keeps context h).bind fun _ => k

theorem skipTemplateArguments_keeps (h : t.isPunct "\x7d" = false) :
    Keeps F t u skipTemplateArguments := by
  unfold skipTemplateArguments
  refine .read h fun _ _ => .loop (fun angles t _ => .peek ?_) _
  refine .ite (fun _ => .pure _) fun _ => .ite (fun hopen => ?_) fun _ =>
    .ite (fun _ => .failExpected _) fun hnext => ?_
  · exact .group (by grind) fun _ _ => .pure _
  · exact .read (by grind [Token.closes]) fun _ _ => .pure _

theorem skipToSemicolon_stays (context : String) :
    Stays F (skipToSemicolon context) := fun _ _ => by
  unfold skipToSemicolon
  refine .loop (fun _ t _ => .peek ?_) _
  refine .ite (fun _ => ?_) fun _ => .ite (fun hopen => ?_) fun _ =>
    .ite (fun _ => .failExpected _) fun hnext => ?_
  · exact .read (by grind) fun _ _ => .pure _
  · exact .group (by grind) fun _ _ => .pure _
  · exact .read (by grind [Token.closes]) fun _ _ => .pure _

theorem skipAttributes_stays : Stays F skipAttributes := fun _ _ => by
  unfold skipAttributes
  refine .loop (fun _ t _ => .check (.peekNext ?_)) _
  refine .ite (fun h => ?_) fun _ => .pure _
  exact .group (by grind) fun _ _ => .pure _

-- ================================================================= names

theorem operatorName_keeps (h : t.isPunct "\x7d" = false) :
    Keeps F t u operatorName := by
  unfold operatorName
  refine .advance h fun v _ => .peek (.peekNext ?_)
  refine .ite (fun h => ?_) fun _ => .ite (fun _ => ?_) fun _ =>
    .ite (fun _ => ?_) fun _ => .ite (fun _ => ?_) fun _ => .failExpected _
  · exact .advance (by grind) fun w _ => .last (by grind)
  · exact .last (by grind)
  · refine .read (by grind) fun _ _ => ?_
    rw [← bind_pure expectName]
    exact .expectName fun _ _ => .pure _
  · refine .read (by grind) fun _ _ => Stays.skipWhile (by grind) _ _

theorem nameTail_stays : Stays F nameTail := fun t u => by
  have tail : Stays F (accept (·.isOperator "::")) := fun t u => by
    rw [← bind_pure (accept _)]
    exact .acceptAny (by grind) fun _ _ _ => .pure _
  unfold nameTail
  refine .check (.ahead fun _ => .ite (fun h => ?_) fun _ => tail _ _)
  exact (skipTemplateArguments_keeps (by grind)).bind fun _ => tail

theorem nameRound_stays : Stays F nameRound := fun t u => by
  unfold nameRound
  have tail : Stays F (do
      if ← nameTail then return .again () else return .done () :
      Parser (Round Unit Unit)) := fun _ _ =>
    (nameTail_stays _ _).bind fun _ _ _ =>
      .ite (fun _ => .pure _) fun _ => .pure _
  refine .peek (.ite (fun _ => ?_) fun _ => .ite (fun _ => ?_) fun _ =>
    .ite (fun _ => ?_) fun _ => .ite (fun _ => ?_) fun _ => ?_)
  · exact .read (by grind) fun _ _ => .pure _
  · exact .read (by grind) tail
  · exact (operatorName_keeps (by grind)).bind fun _ => tail
  · exact .read (by grind) fun _ _ => .expectName tail
  · exact Keeps.bind (.failExpected _) fun _ => tail

theorem idExpression_stays : Stays F idExpression := fun t u => by
  unfold idExpression
  refine .mark fun m => .acceptAny (by grind) fun _ _ _ => ?_
  exact Keeps.bind (.loop (fun _ => nameRound_stays) _) fun _ _ _ =>
    .finish _ _ _

end FrontEnd.Grammar
