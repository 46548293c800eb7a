/-
The rules that pass over tokens, and those of names, leave as many groups
open as they find. A group is passed over to the bracket that ends it by
number (`skipGroup_found`), or it is still open at the end of the tokens
(`skipGroup_missed`); the other rules look at a token before they read it,
and read a closing bracket only behind an opening one.
-/
import FrontEnd.Proofs.Level.Sequence

namespace FrontEnd.Grammar

open Lockstep (groupRound skipGroup_eq skipGroupCounting advance_depth)

variable {tokens : List Token} {groups : Nat} {t u : Token}

-- ================================================================ groups

/-- A token that is no bracket is passed over by itself. -/
theorem skipGroup_plain (context : String) {s : State}
    (h : s.peek.isBracket = false) :
    skipGroup context s = .ok () s.advance := by
  rw [skipGroup_eq]
  unfold skipGroupCounting
  rw [bind_eq]
  dsimp only [peek]
  rw [bind_eq, depthAfter_of_not_bracket h]
  exact groupLoop_zero _ _

/-- A group, or one token that is no bracket. -/
theorem skipGroup_closes (context : String) (h : t.closes = false) :
    Closes tokens 0 t u (skipGroup context) where
  leaves {s depth} hs hdepth ht _ := by
    subst ht
    by_cases hopens : s.peek.opens = true
    · have hsized : s.Sized := by
        have := hs.within
        unfold State.Sized
        rw [hs.rest, hs.size, List.length_drop]
        omega
      cases hn : groupLength 1 s.advance.rest with
      | some n =>
        obtain ⟨path, -, hcourse⟩ := (skipGroup_yields hs context).runs
        rw [skipGroup_found hsized hopens hn] at *
        exact ⟨(hcourse.leads hs).along, hdepth⟩
      | none =>
        obtain ⟨s', hskip, -, -, hopen⟩ := skipGroup_missed hsized hopens hn
        rw [hskip]
        exact (show depth ≤ s'.depth by omega)
    · have hplain : s.peek.isBracket = false := by grind
      rw [skipGroup_plain context hplain]
      refine ⟨hs.advance, ?_⟩
      rw [advance_depth, depthAfter_of_not_bracket hplain]
      exact hdepth

/-- A group, and what comes behind it. -/
theorem Closes.group {α : Type} {context : String} {f : Unit → Parser α}
    (h : t.closes = false) (k : ∀ t u, Closes tokens groups t u (f ())) :
    Closes tokens groups t u (skipGroup context >>= f) :=
  (skipGroup_closes context h).bind fun _ => k

theorem skipTemplateArguments_closes (h : t.isBracket = false) :
    Closes tokens 0 t u skipTemplateArguments := by
  unfold skipTemplateArguments
  refine .read h fun _ _ => .loop (fun angles t _ => .peek ?_) _
  refine .ite (fun _ => .pure _) fun _ => .ite (fun hopen => ?_) fun _ =>
    .ite (fun _ => .failExpected _) fun hnext => ?_
  · exact .group (by grind) fun _ _ => .pure _
  · exact .read (by grind) fun _ _ => .pure _

theorem skipToSemicolon_level (context : String) :
    Level tokens (skipToSemicolon context) := fun _ _ => by
  unfold skipToSemicolon
  refine .loop (fun _ t _ => .peek ?_) _
  refine .ite (fun _ => ?_) fun _ => .ite (fun hopen => ?_) fun _ =>
    .ite (fun _ => .failExpected _) fun hnext => ?_
  · exact .read (by grind) fun _ _ => .pure _
  · exact .group (by grind) fun _ _ => .pure _
  · exact .read (by grind) fun _ _ => .pure _

theorem skipAttributes_level : Level tokens skipAttributes :=
    fun _ _ => by
  unfold skipAttributes
  refine .loop (fun _ t _ => .check (.peekNext ?_)) _
  refine .ite (fun h => ?_) fun _ => .pure _
  exact .group (by grind) fun _ _ => .pure _

-- ================================================================= names

/-- Two brackets, of which the second ends the group of the first. -/
theorem Closes.pair (hopens : t.opens = true) (hcloses : u.closes = true) :
    Closes tokens 0 t u (do
      Grammar.advance
      Grammar.advance) := by
  refine .opening hopens fun v => ?_
  rw [← bind_pure Grammar.advance]
  exact .closing hcloses fun _ => .pure _

theorem operatorName_closes (h : t.isBracket = false) :
    Closes tokens 0 t u operatorName := by
  unfold operatorName
  refine .read h fun t u => .peek (.peekNext ?_)
  refine .ite (fun h => ?_) fun _ => .ite (fun _ => ?_) fun _ =>
    .ite (fun _ => ?_) fun _ => .ite (fun _ => ?_) fun _ => .failExpected _
  · exact .pair (by grind) (by grind)
  · exact .last (by grind)
  · refine .read (by grind) fun _ _ => ?_
    rw [← bind_pure expectName]
    exact .expectName fun _ _ => .pure _
  · refine .read (by grind) fun _ _ => Level.skipWhile (by grind) _ _

theorem nameTail_level : Level tokens nameTail := fun t u => by
  have tail : Level tokens (accept (·.isOperator "::")) := fun t u => by
    rw [← bind_pure (accept _)]
    exact .acceptAny (by grind) fun _ _ _ => .pure _
  unfold nameTail
  refine .check (.ahead fun _ => .ite (fun h => ?_) fun _ => tail _ _)
  exact (skipTemplateArguments_closes (by grind)).bind fun _ => tail

theorem nameRound_level : Level tokens nameRound := fun t u => by
  unfold nameRound
  have tail : Level tokens (do
      if ← nameTail then return .again () else return .done () :
      Parser (Round Unit Unit)) := fun _ _ =>
    (nameTail_level _ _).bind fun _ _ _ =>
      .ite (fun _ => .pure _) fun _ => .pure _
  refine .peek (.ite (fun _ => ?_) fun _ => .ite (fun _ => ?_) fun _ =>
    .ite (fun _ => ?_) fun _ => .ite (fun _ => ?_) fun _ => ?_)
  · exact .read (by grind) fun _ _ => .pure _
  · exact .read (by grind) tail
  · exact (operatorName_closes (by grind)).bind fun _ => tail
  · exact .read (by grind) fun _ _ => .expectName tail
  · exact Closes.bind (.failExpected _) fun _ => tail

theorem idExpression_level : Level tokens idExpression := fun t u => by
  unfold idExpression
  refine .mark fun m => .acceptAny (by grind) fun _ _ _ => ?_
  exact Closes.bind (.loop (fun _ => nameRound_level) _) fun _ _ _ =>
    .finish _ _ _

end FrontEnd.Grammar
