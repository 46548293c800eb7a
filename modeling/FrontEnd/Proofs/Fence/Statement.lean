/-
Statements in front of a closing brace, and with them the grammar as a
whole: no rule reads that brace (`parse_stays`). The induction is on the
levels of nesting that are left.
-/
import FrontEnd.Grammar.Unit
import FrontEnd.Proofs.Fence.Declaration

namespace FrontEnd.Grammar

variable {F : Fence} {t u : Token} {g : Inner}

section

variable (hg : g.Stays F)
include hg

-- ========================================================== conditions

theorem conditionRound_stays (parts : List Node) :
    Stays F (conditionRound g parts) := fun t u => by
  unfold conditionRound
  refine .peek ?_
  cases hkind : t.kind with
  | punctuation =>
    refine .ite (fun _ => .pure _) fun _ => .ite (fun h => ?_) fun _ =>
      .ite (fun h => ?_) fun _ => .ite (fun h => ?_) fun _ => .fail _
    · exact .group (by grind) fun _ _ => .pure _
    · exact .unopened (by grind)
    · exact .read (by grind) fun _ _ => .pure _
  | operator =>
    refine .ite (fun _ => .pure _) fun _ => .ite (fun h => ?_) fun _ =>
      .ite (fun h => ?_) fun _ => .ite (fun h => ?_) fun _ => .fail _
    · exact .read (by grind) fun _ _ => (initializer_stays hg _ _).bind
        fun _ _ _ => .pure _
    · exact (skipTemplateArguments_keeps (by grind)).bind fun _ _ _ =>
        .pure _
    · exact .read (by grind) fun _ _ => .pure _
  | identifier => exact .read (by grind) fun _ _ => .pure _
  | keyword =>
    refine .ite (fun _ => .fail _) fun _ => .peekNext ?_
    refine .advance (by grind) fun _ _ => .ite (fun h => ?_) fun _ =>
      .pure _
    exact .group (by grind) fun _ _ => .pure _
  | _ => exact .fail _

theorem condition_stays : Stays F (condition g) := fun _ _ => by
  unfold condition
  refine .mark fun m => .ahead fun _ => .ite (fun _ => ?_) fun _ => ?_
  · exact Keeps.bind (.loop (conditionRound_stays hg) _) fun _ _ _ =>
      .finish _ _ _
  · exact (expression_stays hg _ _).bind fun _ _ _ => .finish _ _ _

theorem conditionClause_stays : Stays F (conditionClause g) :=
    fun _ _ => by
  unfold conditionClause
  refine (condition_stays hg _ _).bind fun _ _ _ =>
    .acceptAny (by grind) fun _ _ _ => .ite (fun _ => ?_) fun _ => .pure _
  exact (condition_stays hg _ _).bind fun _ _ _ => .pure _

-- =========================================================== selection

theorem branch_keeps (h : t.isPunct "\x7d" = false) :
    Keeps F t u (branch g) := by
  unfold branch
  have body : Stays F (do
      let body ← block g
      return [body] : Parser (List Node)) := fun _ _ =>
    (block_stays _ _).bind fun _ _ _ => .pure _
  refine .read h fun t u => .check (.peekNext (.check
    (.ite (fun h => ?_) fun _ => ?_)))
  · exact .accept (by grind) (fun _ _ _ => .read (by grind) body)
      fun _ => .read (by grind) body
  · refine .acceptAny (by grind) fun _ _ _ => .expectPunct (by decide)
      fun _ _ => (conditionClause_stays hg _ _).bind fun _ _ _ =>
        .expectPunct (by decide) fun _ _ => ?_
    exact (hg _ _ _).bind fun _ _ _ => .pure _

theorem otherBranches_stays : Stays F (otherBranches g) := fun _ _ => by
  unfold otherBranches
  refine .loop (fun _ _ _ => .acceptAny (by grind) fun _ t _ =>
    .ite (fun _ => ?_) fun _ => .pure _) _
  refine .check (.ite (fun h => ?_) fun _ => ?_)
  · exact .mark fun m => (branch_keeps hg (by grind)).bind fun _ _ _ =>
      .node fun _ => .pure _
  · exact (hg _ _ _).bind fun _ _ _ => .pure _

theorem ifStatement_keeps (h : t.isPunct "\x7d" = false) :
    Keeps F t u (ifStatement g) := by
  unfold ifStatement
  exact .mark fun m => (branch_keeps hg h).bind fun _ _ _ =>
    (otherBranches_stays hg _ _).bind fun _ _ _ => .finish _ _ _

theorem switchStatement_keeps (h : t.isPunct "\x7d" = false) :
    Keeps F t u (switchStatement g) := by
  unfold switchStatement
  exact .mark fun m => .read h fun _ _ => .expectPunct (by decide)
    fun _ _ => (conditionClause_stays hg _ _).bind fun _ _ _ =>
      .expectPunct (by decide) fun _ _ => (hg _ _ _).bind fun _ _ _ =>
        .finish _ _ _

-- =========================================================== iteration

theorem whileStatement_keeps (h : t.isPunct "\x7d" = false) :
    Keeps F t u (whileStatement g) := by
  unfold whileStatement
  exact .mark fun m => .read h fun _ _ => .expectPunct (by decide)
    fun _ _ => (condition_stays hg _ _).bind fun _ _ _ =>
      .expectPunct (by decide) fun _ _ => (hg _ _ _).bind fun _ _ _ =>
        .finish _ _ _

theorem doStatement_keeps (h : t.isPunct "\x7d" = false) :
    Keeps F t u (doStatement g) := by
  unfold doStatement
  refine .mark fun m => .read h fun _ _ => (hg _ _ _).bind fun _ _ _ =>
    .expect (by grind) fun _ _ => .expectPunct (by decide) fun _ _ =>
      (expression_stays hg _ _).bind fun _ _ _ => ?_
  exact .expectPunct (by decide) fun _ _ => .expectPunct (by decide)
    fun _ _ => .finish _ _ _

theorem rangeLoop_keeps (m : Mark) (clauses : List Node) (declared : Node)
    (h : t.isPunct "\x7d" = false) :
    Keeps F t u (rangeLoop g m clauses declared) := by
  unfold rangeLoop
  exact .read h fun _ _ => (initializer_stays hg _ _).bind fun _ _ _ =>
    .expectPunct (by decide) fun _ _ => (hg _ _ _).bind fun _ _ _ =>
      .finish _ _ _

theorem forTail_stays (m : Mark) (clauses : List Node) :
    Stays F (forTail g m clauses) := fun _ _ => by
  unfold forTail
  have body (steps : List Node) : Stays F (do
      expectPunct ")" "after for clauses"
      let body ← g.parse .statement
      finish .forStatement m (clauses ++ steps ++ [body])) :=
    .closing (by decide) fun _ _ => (hg _ _ _).bind fun _ _ _ =>
      .finish _ _ _
  refine .check (.ite (fun _ => ?_) fun _ => ?_)
  · exact Keeps.bind (.pure _) body
  · exact (expression_stays hg _ _).bind fun _ => body _

theorem forCondition_stays (m : Mark) (clauses : List Node) :
    Stays F (forCondition g m clauses) := fun _ _ => by
  unfold forCondition
  refine .check (.ite (fun _ => ?_) fun _ => ?_)
  · exact .expectPunct (by decide) (forTail_stays hg m _)
  · refine (condition_stays hg _ _).bind fun _ t _ =>
      .check (.ite (fun h => ?_) fun _ => ?_)
    · exact rangeLoop_keeps hg _ _ _ (by grind)
    · exact .expectPunct (by decide) (forTail_stays hg m _)

theorem forStatement_keeps (h : t.isPunct "\x7d" = false) :
    Keeps F t u (forStatement g) := by
  unfold forStatement
  refine .mark fun m => .read h fun _ _ => .acceptAny (by grind)
    fun _ _ _ => .expectPunct (by decide) fun _ _ =>
      .check (.ite (fun _ => ?_) fun _ => ?_)
  · exact .expectPunct (by decide) (forCondition_stays hg m _)
  · refine (condition_stays hg _ _).bind fun _ t _ =>
      .check (.ite (fun h => ?_) fun _ => ?_)
    · exact rangeLoop_keeps hg _ _ _ (by grind)
    · exact .expectPunct (by decide) (forCondition_stays hg m _)

-- ==================================================== jumps and labels

omit hg in
theorem plainJump_keeps (kind : NodeKind) (context : String)
    (h : t.isPunct "\x7d" = false) :
    Keeps F t u (plainJump kind context) := by
  unfold plainJump
  exact .mark fun m => .read h fun _ _ => .expectPunct (by decide)
    fun _ _ => .finish _ _ _

omit hg in
theorem gotoStatement_keeps (h : t.isPunct "\x7d" = false) :
    Keeps F t u gotoStatement := by
  unfold gotoStatement
  exact .mark fun m => .read h fun _ _ => .expectName fun _ _ =>
    .expectPunct (by decide) fun _ _ => .finish _ _ _

theorem returnStatement_keeps (h : t.isPunct "\x7d" = false) :
    Keeps F t u (returnStatement g) := by
  unfold returnStatement
  have close (m : Mark) (values : List Node) : Stays F (do
      expectPunct ";" "after return value"
      finish .returnStatement m values) :=
    .closing (by decide) fun _ _ => .finish _ _ _
  refine .mark fun m => .read h fun _ _ =>
    .check (.ite (fun _ => ?_) fun _ => ?_)
  · exact Keeps.bind (.pure _) (close m)
  · exact (initializer_stays hg _ _).bind fun _ => close m _

theorem caseLabel_keeps (h : t.isPunct "\x7d" = false) :
    Keeps F t u (caseLabel g) := by
  unfold caseLabel
  exact .mark fun m => .read h fun _ _ => (hg _ _ _).bind fun _ _ _ =>
    .expectOperator fun _ _ => .finish _ _ _

omit hg in
theorem defaultLabel_keeps (h : t.isPunct "\x7d" = false) :
    Keeps F t u defaultLabel := by
  unfold defaultLabel
  exact .mark fun m => .read h fun _ _ => .expectOperator fun _ _ =>
    .finish _ _ _

theorem labeledStatement_keeps (h : t.isPunct "\x7d" = false)
    (hnext : u.isPunct "\x7d" = false) :
    Keeps F t u (labeledStatement g) := by
  unfold labeledStatement
  refine .mark fun m => .advance h fun _ _ => .read hnext fun _ _ =>
    .check (.ite (fun _ => .finish _ _ _) fun _ => ?_)
  exact (hg _ _ _).bind fun _ _ _ => .finish _ _ _

-- ========================================================== statements

theorem simpleStatement_stays : Stays F (simpleStatement g) :=
    fun _ _ => by
  unfold simpleStatement
  refine .ahead fun _ => .ite (fun _ => simpleDeclaration_stays hg _ _)
    fun _ => .mark fun m => (expression_stays hg _ _).bind fun _ _ _ => ?_
  exact .expectPunct (by decide) fun _ _ => .finish _ _ _

theorem keywordStatement_keeps (word : String)
    (h : t.isPunct "\x7d" = false) :
    Keeps F t u (keywordStatement g word) := by
  unfold keywordStatement
  exact .ite (fun _ => ifStatement_keeps hg h) fun _ =>
    .ite (fun _ => switchStatement_keeps hg h) fun _ =>
    .ite (fun _ => whileStatement_keeps hg h) fun _ =>
    .ite (fun _ => doStatement_keeps hg h) fun _ =>
    .ite (fun _ => forStatement_keeps hg h) fun _ =>
    .ite (fun _ => returnStatement_keeps hg h) fun _ =>
    .ite (fun _ => plainJump_keeps _ _ h) fun _ =>
    .ite (fun _ => plainJump_keeps _ _ h) fun _ =>
    .ite (fun _ => gotoStatement_keeps h) fun _ =>
    .ite (fun _ => caseLabel_keeps hg h) fun _ =>
    .ite (fun _ => defaultLabel_keeps h) fun _ =>
    .ite (fun _ => tryBlock_keeps h) fun _ =>
    .ite (fun _ => asmDeclaration_keeps h) fun _ =>
    .ite (fun _ => hg _ _ _) fun _ => simpleStatement_stays hg _ _

theorem statement_stays : Stays F (statement g) := fun t u => by
  unfold statement
  refine .peek (.ite (fun h => .unopened h) fun _ =>
    .ite (fun h => ?_) fun _ => .ite (fun h => ?_) fun _ => .peekNext
    (.ite (fun h => ?_) fun _ => simpleStatement_stays hg _ _))
  · exact .mark fun m => .read (by grind) fun _ _ => .finish _ _ _
  · exact keywordStatement_keeps hg _ (by grind)
  · exact labeledStatement_keeps hg (by grind) (by grind)

end

-- ============================================================= grammar

theorem rule_stays (hg : g.Stays F) (goal : Goal) :
    Stays F (rule g goal) :=
  match goal with
  | .declaration => declaration_stays hg
  | .statement => statement_stays hg
  | .assignment => rightGrouped_stays hg true
  | .conditional => rightGrouped_stays hg false
  | .operand => castExpression_stays hg
  | .initializerList => initializerList_stays

/-- No rule of the grammar reads the brace. -/
theorem parse_stays (policy : Policy) (room : Nat) (goal : Goal) :
    Stays F (parse policy room goal) := by
  induction room generalizing goal with
  | zero => exact fun _ _ => .fail _
  | succ room ih => exact rule_stays ih goal

end FrontEnd.Grammar
