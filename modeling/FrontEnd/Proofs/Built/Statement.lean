/-
What the rules of statements build, and with them those of the whole
grammar: by induction on the levels of nesting, every construct is built as
it is listed (`parse_built`), and so is a unit (`unit_built`).
-/
import FrontEnd.Proofs.Built.Declaration

namespace FrontEnd.Grammar

variable {tokens : List Token} {g : Inner} {policy : Policy} {s : State}
variable (hg : g.Builds tokens)
include hg

-- ========================================================== conditions

theorem conditionRound_built {parts : List Node} {s₀ : State}
    (h₀ : Built g.policy s₀ parts.reverse s) :
    Gives tokens (conditionRound g parts) s fun r s' =>
      r.Sat (fun parts' => Built g.policy s₀ parts'.reverse s')
        fun ns => Built g.policy s₀ ns s' := by
  unfold conditionRound
  refine .peek ?_
  cases hkind : s.peek.kind with
  | punctuation =>
    refine .ite (fun _ => .pure h₀) fun _ => .ite (fun hopen => ?_)
      fun _ => .ite (fun _ => ?_) fun _ => .ite (fun hcomma => ?_)
      fun _ => .fail
    · exact (skipGroup_built _ (by grind)).after h₀ fun _ _ h => .pure h
    · exact Gives.bind (hg.built _ s) fun list _ h => .pure (h₀.push h)
    · exact .advance (.pure (h₀.next (by grind)))
  | operator =>
    have h : s.peek.isBracket = false := by grind
    refine .ite (fun _ => .pure h₀) fun _ => .ite (fun _ => .advance ?_)
      fun _ => .ite (fun _ => ?_) fun _ =>
      .ite (fun _ => .advance (.pure (h₀.next h))) fun _ => .fail
    · exact (initializer_built hg).bind
        fun value _ hvalue => .pure ((h₀.next h).push hvalue)
    · exact (skipTemplateArguments_built h).after h₀ fun _ _ h => .pure h
  | identifier => exact .advance (.pure (h₀.next (by grind)))
  | keyword =>
    have h₁ := h₀.next (by grind)
    refine .ite (fun _ => .fail) fun _ => .peekAt (.advance ?_)
    rw [← s.advance_peek (by grind)]
    refine .ite (fun hopen => ?_) fun _ => .pure h₁
    exact (skipGroup_built _ (by grind)).after h₁ fun _ _ h => .pure h
  | _ => exact .fail

theorem condition_built : Makes tokens g.policy (condition g) s := by
  unfold condition
  refine .mark (.ahead (.ite (fun _ => ?_) fun _ => ?_))
  · refine Gives.bind (P := fun ns s' => Built g.policy s ns s') ?_
      fun _ _ h => .finish (.node _ h)
    exact .loop (fun parts s' => Built g.policy s parts.reverse s')
      (fun parts _ h => conditionRound_built hg h) (.here s)
  · exact (expression_built hg).bind fun _ _ h => .finish (.node _ h)

theorem conditionClause_built :
    Lists tokens g.policy (conditionClause g) s := by
  unfold conditionClause
  refine (condition_built hg).bind fun first s₁ h₁ =>
    .accept (fun hend => ?_) fun _ => .pure h₁
  exact (condition_built hg).after (h₁.next (by grind))
    fun _ _ h => .pure h

-- =========================================================== selection

theorem branch_built (h : s.peek.isBracket = false) :
    Lists tokens g.policy (branch g) s := by
  unfold branch
  have hread : Built g.policy s [] s.advance := .read h
  have constant {s' : State} (h : Built g.policy s [] s')
      (hkeyword : s'.peek.isBracket = false) : Gives tokens (do
        advance
        let body ← block g
        return [body]) s' fun ns s'' => Built g.policy s ns s'' :=
    .advance ((block_built hg).after (h.next hkeyword)
      fun _ _ h' => .pure h')
  have tested {s' : State} (h : Built g.policy s [] s') : Gives tokens (do
      expectPunct "(" "after 'if'"
      let conditions ← conditionClause g
      expectPunct ")" "after if condition"
      let body ← g.parse .statement
      return conditions ++ [body]) s'
      fun ns s'' => Built g.policy s ns s'' := by
    refine .expect fun hopen => (conditionClause_built hg).bind
      fun conditions s₁ h₁ => .expect fun hclose => ?_
    exact Makes.after (hg.built _ _) (h.trans (.parens hopen h₁ hclose))
      fun _ _ h' => .pure h'
  refine .advance (.check (.peekAt (.check (.ite (fun hconsteval => ?_)
    fun _ => .accept (fun hnext => tested (hread.next ?_))
      fun _ => tested hread))))
  · refine .accept (fun hnot => constant (hread.next ?_) ?_)
      fun hplain => constant hread ?_
    · grind
    · have hend : s.advance.peek.isEnd = false := by grind
      rw [← s.advance.advance_peek hend] at hconsteval
      grind
    · grind
  · grind

theorem otherBranches_built : Gives tokens (otherBranches g) s
    fun ns s' => Built g.policy s ns.reverse s' := by
  unfold otherBranches
  refine .loop (fun done s' => Built g.policy s done.reverse s') ?_ (.here s)
  intro done s₁ h₁
  refine .accept (fun helse => ?_) fun _ => .pure h₁
  have h₂ := h₁.next (by grind)
  refine .check (.ite (fun hif => .mark ?_) fun _ => ?_)
  · exact (branch_built hg (by grind)).bind
      fun parts s₃ h₃ => .node (.pure (h₂.push (.node _ h₃)))
  · exact Gives.bind (hg.built _ _) fun last s₃ h₃ => .pure (h₂.push h₃)

theorem ifStatement_built (h : s.peek.isBracket = false) :
    Makes tokens g.policy (ifStatement g) s := by
  unfold ifStatement
  exact .mark ((branch_built hg h).bind fun first s₁ h₁ =>
    (otherBranches_built hg).bind fun others s₂ h₂ =>
    .finish (.node _ (h₁.trans h₂)))

theorem switchStatement_built (h : s.peek.isBracket = false) :
    Makes tokens g.policy (switchStatement g) s := by
  unfold switchStatement
  refine .mark (.advance (.expect fun hopen => ?_))
  refine (conditionClause_built hg).bind
    fun conditions s₁ h₁ => .expect fun hclose => ?_
  exact Makes.after (hg.built _ _) (.behind h (.parens hopen h₁ hclose))
    fun body s₂ h₂ => .finish (.node _ h₂)

-- =========================================================== iteration

theorem whileStatement_built (h : s.peek.isBracket = false) :
    Makes tokens g.policy (whileStatement g) s := by
  unfold whileStatement
  refine .mark (.advance (.expect fun hopen => ?_))
  refine (condition_built hg).bind
    fun test s₁ h₁ => .expect fun hclose => ?_
  exact Makes.after (hg.built _ _) (.behind h (.parens hopen h₁ hclose))
    fun body s₂ h₂ => .finish (.node _ h₂)

theorem doStatement_built (h : s.peek.isBracket = false) :
    Makes tokens g.policy (doStatement g) s := by
  unfold doStatement
  refine .mark (.advance (Makes.after (hg.built _ _) (.read h)
    fun body s₁ h₁ => .expect fun hwhile => .expect fun hopen => ?_))
  refine (expression_built hg).bind fun test s₂ h₂ =>
    .expect fun hclose => .expect fun hend => .finish (.node _ ?_)
  exact Built.next ((h₁.next (by grind)).trans (.parens hopen h₂ hclose))
    (by grind)

section
variable {s₀ s₁ : State} {clauses : List Node}
  (hopen : s₁.peek.isPunct "(" = true) (h₀ : Built g.policy s₀ [] s₁)
include hopen h₀

/-- A loop over a range, whose parenthesis was opened. -/
theorem rangeLoop_built {s₂ : State} {declared : Node}
    (hclauses : Built g.policy s₁.advance clauses s₂)
    (hdeclared : Built g.policy s₂ [declared] s)
    (h : s.peek.isBracket = false) :
    Gives tokens (rangeLoop g s₀.mark clauses declared) s
      fun n s' => Built g.policy s₀ [n] s' := by
  unfold rangeLoop
  refine .advance ((initializer_built hg).bind fun range s₃ h₃ =>
    .expect fun hclose => ?_)
  have hhead := hclauses.trans
    ((hdeclared.retag .forRangeDeclaration |>.next h).trans h₃)
  refine Makes.after (hg.built _ _) (h₀.trans (.parens hopen hhead hclose))
    fun body s₄ h₄ => .finish (.node _ ?_)
  rw [List.nil_append, List.append_assoc] at h₄
  exact h₄

/-- A loop from behind its second semicolon. -/
theorem forTail_built
    (hclauses : Built g.policy s₁.advance clauses s) :
    Gives tokens (forTail g s₀.mark clauses) s
      fun n s' => Built g.policy s₀ [n] s' := by
  unfold forTail
  have tail {steps : List Node} {s' : State}
      (h : Built g.policy s₁.advance (clauses ++ steps) s') :
      Gives tokens (do
        expectPunct ")" "after for clauses"
        let body ← g.parse .statement
        finish .forStatement s₀.mark (clauses ++ steps ++ [body])) s'
        fun n s'' => Built g.policy s₀ [n] s'' :=
    .expect fun hclose => Makes.after (hg.built _ _)
      (h₀.trans (.parens hopen h hclose))
      fun body s₃ h₃ => .finish (.node _ h₃)
  refine .check (.ite (fun _ => tail ?_) fun _ => ?_)
  · rw [List.append_nil]
    exact hclauses
  · exact (expression_built hg).after hclauses fun _ _ => tail

theorem forCondition_built
    (hclauses : Built g.policy s₁.advance clauses s) :
    Gives tokens (forCondition g s₀.mark clauses) s
      fun n s' => Built g.policy s₀ [n] s' := by
  unfold forCondition
  refine .check (.ite (fun _ => .expect fun hend =>
    forTail_built hg hopen h₀ (hclauses.next ?_)) fun _ => ?_)
  · grind
  · refine (condition_built hg).bind fun clause s₂ h₂ => .check
      (.ite (fun hcolon => rangeLoop_built hg hopen h₀ hclauses h₂ ?_)
        fun _ => .expect fun hend =>
        forTail_built hg hopen h₀ (Built.next (hclauses.trans h₂) ?_))
    · grind
    · grind

end

theorem forStatement_built (h : s.peek.isBracket = false) :
    Makes tokens g.policy (forStatement g) s := by
  unfold forStatement
  have clauses {s₁ : State} (h₀ : Built g.policy s [] s₁) :
      Gives tokens (do
        expectPunct "(" "after 'for'"
        if ← check (·.isPunct ";") then
          expectPunct ";" "after for initializer"
          forCondition g s.mark []
        else
          let clause ← condition g
          if ← check (·.isOperator ":") then rangeLoop g s.mark [] clause
          else
            expectPunct ";" "after for initializer"
            forCondition g s.mark [clause]) s₁
        fun n s' => Built g.policy s [n] s' := by
    refine .expect fun hopen => .check (.ite (fun _ => .expect fun hend =>
      forCondition_built hg hopen h₀ (.read ?_)) fun _ => ?_)
    · grind
    · refine (condition_built hg).bind fun clause s₂ h₂ => .check
        (.ite (fun hcolon => rangeLoop_built hg hopen h₀ (.here _) h₂ ?_)
          fun _ => .expect fun hend =>
          forCondition_built hg hopen h₀ (h₂.next ?_))
      · grind
      · grind
  have hread : Built g.policy s [] s.advance := .read h
  refine .mark (.advance (.accept (fun hawait => clauses (hread.next ?_))
    fun _ => clauses hread))
  grind

-- =============================================================== jumps

omit hg in
theorem plainJump_built (kind : NodeKind) (context : String)
    (h : s.peek.isBracket = false) :
    Makes tokens policy (plainJump kind context) s := by
  unfold plainJump
  refine .mark (.advance (.expect fun hend =>
    .finish (.node _ (.behind h (.read ?_)))))
  grind

omit hg in
theorem gotoStatement_built (h : s.peek.isBracket = false) :
    Makes tokens policy gotoStatement s := by
  unfold gotoStatement
  refine .mark (.advance (.expect fun hname => .expect fun hend =>
    .finish (.node _ (.behind h (.behind ?_ (.read ?_))))))
  · grind
  · grind

theorem returnStatement_built (h : s.peek.isBracket = false) :
    Makes tokens g.policy (returnStatement g) s := by
  unfold returnStatement
  have hread : Built g.policy s [] s.advance := .read h
  have done {ns : List Node} {s' : State} (h : Built g.policy s ns s') :
      Gives tokens (do
        expectPunct ";" "after return value"
        finish .returnStatement s.mark ns) s'
        fun n s'' => Built g.policy s [n] s'' := by
    refine .expect fun hend => .finish (.node _ (h.next ?_))
    grind
  exact .mark (.advance (.check (.ite (fun _ => done hread)
    fun _ => (initializer_built hg).after hread fun _ _ => done)))

-- ============================================================== labels

theorem caseLabel_built (h : s.peek.isBracket = false) :
    Makes tokens g.policy (caseLabel g) s := by
  unfold caseLabel
  refine .mark (.advance (Makes.after (hg.built _ _) (.read h)
    fun value s₁ h₁ => .expect fun hcolon =>
    .finish (.node _ (h₁.next ?_))))
  grind

omit hg in
theorem defaultLabel_built (h : s.peek.isBracket = false) :
    Makes tokens policy defaultLabel s := by
  unfold defaultLabel
  refine .mark (.advance (.expect fun hcolon =>
    .finish (.node _ (.behind h (.read ?_)))))
  grind

theorem labeledStatement_built (h : s.peek.isBracket = false)
    (hcolon : s.advance.peek.isBracket = false) :
    Makes tokens g.policy (labeledStatement g) s := by
  unfold labeledStatement
  have hread : Built g.policy s [] s.advance.advance :=
    .behind h (.read hcolon)
  refine .mark (.advance (.advance (.check (.ite
    (fun _ => .finish (.node _ hread)) fun _ => ?_))))
  exact Makes.after (hg.built _ _) hread
    fun statement s₁ h₁ => .finish (.node _ h₁)

-- ========================================================== statements

theorem simpleStatement_built :
    Makes tokens g.policy (simpleStatement g) s := by
  unfold simpleStatement
  refine .ahead (.ite (fun _ => simpleDeclaration_built hg) fun _ => .mark
    ((expression_built hg).bind fun value s₁ h₁ => .expect fun hend =>
    .finish (.node _ (h₁.next ?_))))
  grind

theorem keywordStatement_built (word : String)
    (h : s.peek.isBracket = false) :
    Makes tokens g.policy (keywordStatement g word) s := by
  unfold keywordStatement
  exact .ite (fun _ => ifStatement_built hg h) fun _ =>
    .ite (fun _ => switchStatement_built hg h) fun _ =>
    .ite (fun _ => whileStatement_built hg h) fun _ =>
    .ite (fun _ => doStatement_built hg h) fun _ =>
    .ite (fun _ => forStatement_built hg h) fun _ =>
    .ite (fun _ => returnStatement_built hg h) fun _ =>
    .ite (fun _ => plainJump_built _ _ h) fun _ =>
    .ite (fun _ => plainJump_built _ _ h) fun _ =>
    .ite (fun _ => gotoStatement_built h) fun _ =>
    .ite (fun _ => caseLabel_built hg h) fun _ =>
    .ite (fun _ => defaultLabel_built h) fun _ =>
    .ite (fun _ => tryBlock_built hg h) fun _ =>
    .ite (fun _ => asmDeclaration_built h) fun _ =>
    .ite (fun _ => hg.built _ s) fun _ => simpleStatement_built hg

theorem statement_built : Makes tokens g.policy (statement g) s := by
  unfold statement
  refine .peek (.ite (fun _ => block_built hg) fun _ =>
    .ite (fun hend => .mark (.advance (.finish (.node _ (.read ?_)))))
    fun _ => .ite (fun hkeyword => keywordStatement_built hg _ ?_)
    fun _ => .peekAt (.ite (fun hlabel => ?_)
      fun _ => simpleStatement_built hg))
  · grind
  · grind
  · have hend : s.peek.isEnd = false := by grind
    rw [← s.advance_peek hend] at hlabel
    exact labeledStatement_built hg (by grind) (by grind)

-- =========================================================== the grammar

theorem rule_built (goal : Goal) : Makes tokens g.policy (rule g goal) s := by
  cases goal with
  | declaration => exact declaration_built hg
  | statement => exact statement_built hg
  | assignment => exact rightGrouped_built hg true
  | conditional => exact rightGrouped_built hg false
  | operand => exact castExpression_built hg
  | initializerList => exact initializerList_built hg

omit hg in
/-- Every construct is built as it is listed, whatever the number of its
levels. -/
theorem parse_built (tokens : List Token) (policy : Policy) (room : Nat)
    (goal : Goal) (s : State) :
    Makes tokens policy (parse policy room goal) s := by
  induction room generalizing goal s with
  | zero => exact .fail
  | succ room ih =>
    exact rule_built (g := ⟨policy, room, parse policy room⟩)
      ⟨fun goal s hs => parse_yields tokens policy room goal s hs, ih⟩ goal

omit hg in
/-- The children of a unit are built one after the other, up to the end of
the text or an error that ends the reading. -/
theorem unit_built (policy : Policy) (tokens : List Token) :
    let r := unitSequence policy tokens
    ∃ s, Built policy (.start tokens) r.items s ∧ s.Along tokens
      ∧ (r.error = none → s = r.state ∧ s.peek.isEnd = true) := by
  obtain ⟨s, hbuilt, halong, hend⟩ := gather_built
    (parse_yields tokens policy maxNesting .declaration)
    (parse_built tokens policy maxNesting .declaration) none []
    (.start tokens) (.start tokens) (.here _)
  refine ⟨s, hbuilt, halong, fun herror => ⟨(hend herror).1, ?_⟩⟩
  exact (Bool.or_false _).symm.trans (hend herror).2

end FrontEnd.Grammar
