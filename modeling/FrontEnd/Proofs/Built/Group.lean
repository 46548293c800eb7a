/-
What the rules of groups and names build. A group that is passed over is
one step, whatever stands in it; apart from groups these rules read tokens
that are no brackets, and so they build nothing but the nodes of names.
-/
import FrontEnd.Proofs.Built.Basic
import FrontEnd.Proofs.Lockstep.Group

namespace FrontEnd.Grammar

variable {tokens : List Token} {policy : Policy} {s : State}

-- ================================================================= loops

theorem skipWhile_built {q : Token → Bool}
    (hq : ∀ t : Token, q t = true → t.isBracket = false) :
    Passes tokens policy (skipWhile q) s := by
  unfold skipWhile
  refine .loop (fun _ s' => Built policy s [] s') ?_ (.here s)
  intro _ s₁ h₁
  exact .accept (fun hnext => .pure (h₁.next (hq _ hnext)))
    fun _ => .pure h₁

/-- Nodes with commas between them. -/
theorem commaSeparated_built {item : Parser Node}
    (hitem : ∀ s, Makes tokens policy item s) :
    Lists tokens policy (commaSeparated item) s := by
  unfold commaSeparated
  refine .loop (fun done s' => Built policy s done.reverse s') ?_ (.here s)
  intro done s₁ h₁
  refine (hitem s₁).bind fun n s₂ h₂ => ?_
  have hpush := h₁.push h₂
  refine .accept (fun hcomma => .pure (hpush.next ?_)) fun _ => .pure hpush
  grind

-- ================================================================ groups

theorem skipGroup_built (context : String) (h : s.peek.opens = true) :
    Passes tokens policy (skipGroup context) s := by
  intro hs _ s' hs'
  have hyields := skipGroup_yields hs context
  obtain ⟨path, -, hcourse⟩ := hyields.runs
  rw [hs'] at hcourse
  exact ⟨(hcourse.leads hs).along, .group h hs'⟩

/-- A token that opens no group is passed over by itself. -/
theorem skipGroup_single (context : String) (h : s.peek.opens = false) :
    Gives tokens (skipGroup context) s fun _ s' => s' = s.advance := by
  have hdepth : s.advance.depth ≤ s.depth := by
    rw [Lockstep.advance_depth, depthAfter, h,
      if_neg Bool.false_ne_true]
    split <;> omega
  unfold skipGroup
  refine .peek (.openGroups (.advance
    (.loop (fun _ s' => s' = s.advance) ?_ rfl)))
  rintro _ _ rfl
  exact .openGroups (.ite (fun _ => .pure rfl) fun hopen =>
    absurd hdepth hopen)

theorem skipTemplateArguments_built (h : s.peek.isBracket = false) :
    Passes tokens policy skipTemplateArguments s := by
  unfold skipTemplateArguments
  refine .advance (.loop (fun _ s' => Built policy s [] s') ?_ (.read h))
  intro angles s₁ h₁
  refine .peek (.ite (fun _ => .pure h₁) fun _ => .ite (fun hopen => ?_)
    fun _ => .ite (fun _ => .failExpected) fun hnext => ?_)
  · exact (skipGroup_built _ (by grind)).after h₁ fun _ _ h => .pure h
  · exact .advance (.pure (h₁.next (by grind)))

theorem skipToSemicolon_built (context : String) :
    Passes tokens policy (skipToSemicolon context) s := by
  unfold skipToSemicolon
  refine .loop (fun _ s' => Built policy s [] s') ?_ (.here s)
  intro _ s₁ h₁
  refine .peek (.ite (fun hstop => ?_) fun _ => .ite (fun hopen => ?_)
    fun _ => .ite (fun _ => .failExpected) fun hnext => ?_)
  · exact .advance (.pure (h₁.next (by grind)))
  · exact (skipGroup_built _ (by grind)).after h₁ fun _ _ h => .pure h
  · exact .advance (.pure (h₁.next (by grind)))

theorem skipAttributes_built : Passes tokens policy skipAttributes s := by
  unfold skipAttributes
  refine .loop (fun _ s' => Built policy s [] s') ?_ (.here s)
  intro _ s₁ h₁
  refine .check (.peekAt (.ite (fun hopen => ?_) fun _ => .pure h₁))
  exact (skipGroup_built _ (by grind)).after h₁ fun _ _ h => .pure h

-- ================================================================= names

/-- Two brackets with nothing between them. -/
theorem emptyBrackets_built
    (h : (s.peek.isPunct "(" && (tokenAt 1 s.rest).isPunct ")"
      || s.peek.isPunct "[" && (tokenAt 1 s.rest).isPunct "]") = true) :
    Built policy s [] s.advance.advance := by
  have hend : s.peek.isEnd = false := by grind
  rw [← s.advance_peek hend] at h
  simp only [Bool.or_eq_true, Bool.and_eq_true] at h
  rcases h with ⟨hopen, hclose⟩ | ⟨hopen, hclose⟩
  · exact .parens hopen (.here _) hclose
  · exact .brackets hopen (.here _) hclose

theorem operatorName_built (h : s.peek.isBracket = false) :
    Passes tokens policy operatorName s := by
  unfold operatorName
  refine .advance (.peek (.peekAt (.ite (fun hempty => ?_)
    fun _ => .ite (fun ht => ?_) fun _ => .ite (fun ht => ?_)
    fun _ => .ite (fun ht => ?_) fun _ => .failExpected)))
  · exact .advance (.read (.behind h (emptyBrackets_built hempty)))
  · exact .read (.behind h (.read (by grind)))
  · refine .advance (.expected fun hname => .behind h (.behind ?_ (.read ?_)))
    · grind
    · grind
  · exact .advance ((skipWhile_built (by grind)).last
      (.behind h (.read (by grind))) fun _ _ => id)

theorem nameTail_built : Passes tokens policy nameTail s := by
  have tail {s' : State} (h : Built policy s [] s') :
      Gives tokens (accept (·.isOperator "::")) s'
        fun _ s'' => Built policy s [] s'' := by
    rw [← bind_pure (accept _)]
    exact .accept (fun hnext => .pure (h.next (by grind))) fun _ => .pure h
  unfold nameTail
  refine .check (.ahead (.ite (fun hopen => ?_) fun _ => tail (.here s)))
  exact (skipTemplateArguments_built (by grind)).after (.here s)
    fun _ _ => tail

theorem nameRound_built : Passes tokens policy nameRound s := by
  unfold nameRound
  have tail {s' : State} (h : Built policy s [] s') :
      Gives tokens (do
        if ← nameTail then return .again () else return .done ()) s'
        fun (_ : Round Unit Unit) s' => Built policy s [] s' :=
    nameTail_built.after h fun _ _ h' =>
      .ite (fun _ => .pure h') fun _ => .pure h'
  refine .peek (.ite (fun ht => ?_) fun _ => .ite (fun ht => ?_)
    fun _ => .ite (fun ht => ?_) fun _ => .ite (fun ht => ?_)
    fun _ => .gaveUp)
  · exact .advance (.pure (.read (by grind)))
  · exact .advance (tail (.read (by grind)))
  · exact (operatorName_built (by grind)).after (.here s)
      fun _ _ => tail
  · refine .advance (.expect fun hname => tail (.behind ?_ (.read ?_)))
    · grind
    · grind

theorem idExpression_built : Makes tokens policy idExpression s := by
  unfold idExpression
  have name {s' : State} (h : Built policy s [] s') :
      Gives tokens (do
        loop (fun _ => nameRound) ()
        finish .idExpression s.mark []) s'
        fun n s'' => Built policy s [n] s'' := by
    refine Gives.bind (P := fun _ s'' => Built policy s [] s'') ?_
      fun _ s₁ h₁ => .finish (h₁.node _)
    refine .loop (fun _ s'' => Built policy s [] s'') ?_ h
    intro _ s₁ h₁
    exact nameRound_built.last h₁ fun r s₂ h₂ => by cases r <;> exact h₂
  refine .mark (.accept (fun hnext => name (.read ?_)) fun _ => name (.here s))
  grind

end FrontEnd.Grammar
