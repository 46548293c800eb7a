/-
Statements, put together from single steps, and with them all the rules of
the grammar, by induction on the levels of nesting (`parse_composed`).
-/
import FrontEnd.Grammar.Unit
import FrontEnd.Proofs.Recovery.Declaration

namespace FrontEnd.Grammar

variable {g : Inner} {policy : Policy}

section

variable (hg : g.Composed)
include hg

-- ========================================================== conditions

theorem conditionRound_composed (parts : List Node) :
    Composed g.policy (conditionRound g parts) := by
  unfold conditionRound
  refine .ask fun t => ?_
  split
  · refine .ite (.pure _) (.ite ?_ (.ite ?_ (.ite (.read (.pure _))
      (.fail _))))
    · exact (skipGroup_composed _).seq (.pure _)
    · exact (hg _).bind fun _ => .pure _
  · refine .ite (.pure _) (.ite ?_ (.ite ?_ (.ite (.read (.pure _))
      (.fail _))))
    · exact .read ((initializer_composed hg).bind fun _ => .pure _)
    · exact skipTemplateArguments_composed.seq (.pure _)
  · exact .read (.pure _)
  · exact .ite (.fail _) (.ask fun next => .read
      (.ite ((skipGroup_composed _).seq (.pure _)) (.pure _)))
  · exact .fail _

theorem condition_composed : Composed g.policy (condition g) := by
  unfold condition
  refine .ask fun m => .ask fun _ => .ite ?_ ?_
  · exact (Composed.loop (conditionRound_composed hg) _).bind fun _ =>
      .finish _ _ _
  · exact (expression_composed hg).bind fun _ => .finish _ _ _

theorem conditionClause_composed :
    Composed g.policy (conditionClause g) := by
  unfold conditionClause
  refine (condition_composed hg).bind fun _ => .option fun _ =>
    .ite ?_ (.pure _)
  exact (condition_composed hg).bind fun _ => .pure _

-- =========================================================== selection

theorem branch_composed : Composed g.policy (branch g) := by
  unfold branch
  refine .read (.ask fun _ => .ask fun _ => .ask fun _ => .ite ?_ ?_)
  · exact .option fun _ => .read
      ((block_composed hg).bind fun _ => .pure _)
  · exact .option fun _ => .need ((conditionClause_composed hg).bind
      fun _ => .need ((hg _).bind fun _ => .pure _))

theorem otherBranches_composed : Composed g.policy (otherBranches g) := by
  unfold otherBranches
  refine .loop (fun done => .option fun _ => .ite (.ask fun _ =>
    .ite (.ask fun m => ?_) ?_) (.pure _)) _
  · exact (branch_composed hg).bind fun _ => .ask fun _ => .pure _
  · exact (hg _).bind fun _ => .pure _

theorem ifStatement_composed : Composed g.policy (ifStatement g) := by
  unfold ifStatement
  exact .ask fun m => (branch_composed hg).bind fun _ =>
    (otherBranches_composed hg).bind fun _ => .finish _ _ _

theorem switchStatement_composed :
    Composed g.policy (switchStatement g) := by
  unfold switchStatement
  exact .ask fun m => .read (.need ((conditionClause_composed hg).bind
    fun _ => .need ((hg _).bind fun _ => .finish _ _ _)))

-- =========================================================== iteration

theorem whileStatement_composed :
    Composed g.policy (whileStatement g) := by
  unfold whileStatement
  exact .ask fun m => .read (.need ((condition_composed hg).bind
    fun _ => .need ((hg _).bind fun _ => .finish _ _ _)))

theorem doStatement_composed : Composed g.policy (doStatement g) := by
  unfold doStatement
  exact .ask fun m => .read ((hg _).bind fun _ => .need (.need
    ((expression_composed hg).bind fun _ =>
      .need (.need (.finish _ _ _)))))

theorem rangeLoop_composed (m : Mark) (clauses : List Node)
    (declared : Node) :
    Composed g.policy (rangeLoop g m clauses declared) := by
  unfold rangeLoop
  exact .read ((initializer_composed hg).bind fun _ =>
    .need ((hg _).bind fun _ => .finish _ _ _))

theorem forTail_composed (m : Mark) (clauses : List Node) :
    Composed g.policy (forTail g m clauses) := by
  unfold forTail
  have close (steps : List Node) : Composed g.policy (do
      expectPunct ")" "after for clauses"
      let body ← g.parse .statement
      finish .forStatement m (clauses ++ steps ++ [body])) :=
    .need ((hg _).bind fun _ => .finish _ _ _)
  refine .ask fun _ => .ite (.ask close) ?_
  exact (expression_composed hg).bind fun _ => .ask close

theorem forCondition_composed (m : Mark) (clauses : List Node) :
    Composed g.policy (forCondition g m clauses) := by
  unfold forCondition
  refine .ask fun _ => .ite (.need (forTail_composed hg _ _)) ?_
  exact (condition_composed hg).bind fun _ => .ask fun _ =>
    .ite (rangeLoop_composed hg _ _ _) (.need (forTail_composed hg _ _))

theorem forStatement_composed : Composed g.policy (forStatement g) := by
  unfold forStatement
  refine .ask fun m => .read (.option fun _ => .need (.ask fun _ =>
    .ite (.need (forCondition_composed hg _ _)) ?_))
  exact (condition_composed hg).bind fun _ => .ask fun _ =>
    .ite (rangeLoop_composed hg _ _ _)
      (.need (forCondition_composed hg _ _))

-- ===================================================== jumps and labels

omit hg in
theorem plainJump_composed (kind : NodeKind) (context : String) :
    Composed policy (plainJump kind context) := by
  unfold plainJump
  exact .ask fun m => .read (.need (.finish _ _ _))

omit hg in
theorem gotoStatement_composed : Composed policy gotoStatement := by
  unfold gotoStatement
  exact .ask fun m => .read (.need (.need (.finish _ _ _)))

theorem returnStatement_composed :
    Composed g.policy (returnStatement g) := by
  unfold returnStatement
  have close (m : Mark) (values : List Node) : Composed g.policy (do
      expectPunct ";" "after return value"
      finish .returnStatement m values) :=
    .need (.finish _ _ _)
  refine .ask fun m => .read (.ask fun _ => .ite (.ask (close m)) ?_)
  exact (initializer_composed hg).bind fun _ => .ask (close m)

theorem caseLabel_composed : Composed g.policy (caseLabel g) := by
  unfold caseLabel
  exact .ask fun m => .read ((hg _).bind fun _ =>
    .need (.finish _ _ _))

omit hg in
theorem defaultLabel_composed : Composed policy defaultLabel := by
  unfold defaultLabel
  exact .ask fun m => .read (.need (.finish _ _ _))

theorem labeledStatement_composed :
    Composed g.policy (labeledStatement g) := by
  unfold labeledStatement
  refine .ask fun m => .read (.read (.ask fun _ =>
    .ite (.finish _ _ _) ?_))
  exact (hg _).bind fun _ => .finish _ _ _

-- ========================================================== statements

theorem simpleStatement_composed :
    Composed g.policy (simpleStatement g) := by
  unfold simpleStatement
  refine .ask fun _ => .ite (simpleDeclaration_composed hg) ?_
  exact .ask fun m => (expression_composed hg).bind fun _ =>
    .need (.finish _ _ _)

theorem keywordStatement_composed (word : String) :
    Composed g.policy (keywordStatement g word) := by
  unfold keywordStatement
  refine .ite (ifStatement_composed hg) (.ite (switchStatement_composed hg)
    (.ite (whileStatement_composed hg) (.ite (doStatement_composed hg)
    (.ite (forStatement_composed hg) (.ite (returnStatement_composed hg)
    ?_)))))
  refine .ite (plainJump_composed _ _) (.ite (plainJump_composed _ _)
    (.ite gotoStatement_composed (.ite (caseLabel_composed hg)
    (.ite defaultLabel_composed ?_))))
  exact .ite (tryBlock_composed hg) (.ite asmDeclaration_composed
    (.ite (hg _) (simpleStatement_composed hg)))

theorem statement_composed : Composed g.policy (statement g) := by
  unfold statement
  have hsimple := simpleStatement_composed hg
  refine .ask fun t => .ite (block_composed hg) (.ite ?_ (.ite
    (keywordStatement_composed hg _) (.ask fun _ => ?_)))
  · exact .ask fun m => .read (.finish _ _ _)
  · exact .ite (labeledStatement_composed hg) hsimple

-- ============================================================= the whole

theorem rule_composed (goal : Goal) : Composed g.policy (rule g goal) := by
  cases goal with
  | declaration => exact declaration_composed hg
  | statement => exact statement_composed hg
  | assignment => exact rightGrouped_composed hg true
  | conditional => exact rightGrouped_composed hg false
  | operand => exact castExpression_composed hg
  | initializerList => exact initializerList_composed hg

end

/-- Every rule is put together from single steps, with however many levels
of nesting to spare. -/
theorem parse_composed (policy : Policy) (room : Nat) (goal : Goal) :
    Composed policy (parse policy room goal) := by
  induction room generalizing goal with
  | zero => exact .fail _
  | succ room ih => exact rule_composed (g := ⟨policy, room, _⟩) ih goal

end FrontEnd.Grammar
