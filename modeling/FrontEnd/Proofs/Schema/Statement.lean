/-
Statements conform to the schema, and with them, by induction on the levels
of nesting, all that the grammar reads. The one node that is not finished as
it stays is the declaration of a loop over a range: it is read as a
condition, and given its kind when the colon comes (`Node.FitsAs.declared`).
-/
import FrontEnd.Proofs.Schema.Declaration

namespace FrontEnd

/-- A condition that turns out to be the declaration of a range still
conforms. -/
theorem Node.FitsAs.declared {n : Node} (h : n.FitsAs .condition) :
    Node.Conforms { n with kind := .forRangeDeclaration } := by
  refine .mk ?_ fun c hc => h.conforms.child hc
  have hconforms := h.conforms.root
  unfold conforms at hconforms ⊢
  rw [h.kind_eq] at hconforms
  exact hconforms

namespace Grammar

open Node

variable {g : Inner} (hg : g.Fits)
include hg

-- ============================================================ conditions

theorem conditionRound_fits {parts : List Node}
    (hparts : ∀ n ∈ parts, n.Fits) :
    Values (·.Sat (∀ n ∈ ·, n.Fits) (∀ n ∈ ·, n.Fits))
      (conditionRound g parts) := by
  unfold conditionRound
  have done : ∀ n ∈ parts.reverse, n.Fits :=
    fun n hn => hparts n (List.mem_reverse.1 hn)
  have more {part : Node} (h : part.Fits) : ∀ n ∈ part :: parts, n.Fits :=
    List.forall_mem_cons.2 ⟨h, hparts⟩
  refine .bind fun t => ?_
  cases t.kind with
  | punctuation =>
    exact .ite (.pure done) (.ite (.bind fun _ => .pure hparts)
      (.ite ((hg _).seq fun _ h => .pure (more h))
        (.ite (.bind fun _ => .pure hparts) .fail)))
  | operator =>
    exact .ite (.pure done) (.ite
      (.bind fun _ => (initializer_fits hg).seq fun _ h => .pure (more h))
      (.ite (.bind fun _ => .pure hparts)
        (.ite (.bind fun _ => .pure hparts) .fail)))
  | identifier => exact .bind fun _ => .pure hparts
  | keyword =>
    exact .ite .fail (.bind fun _ => .bind fun _ =>
      .ite (.bind fun _ => .pure hparts) (.pure hparts))
  | _ => exact .fail

theorem condition_fits : Values (FitsAs .condition) (condition g) := by
  unfold condition
  refine .bind fun _ => .bind fun _ => .ite ?_ ?_
  · exact Values.seq (.loop (∀ n ∈ ·, n.Fits)
      (fun _ h => conditionRound_fits hg h) (by simp))
      fun _ h => .finish h rfl rfl
  · exact (expression_fits hg).seq fun value hvalue =>
      .finish (by simpa using hvalue) rfl rfl

theorem conditionClause_fit :
    Values (∀ n ∈ ·, n.Fits) (conditionClause g) := by
  unfold conditionClause
  refine (condition_fits hg).seq fun first hfirst => .bind fun _ =>
    .ite ((condition_fits hg).seq fun second hsecond => .pure ?_) (.pure ?_)
  · simpa using ⟨hfirst.toFits, hsecond.toFits⟩
  · simpa using hfirst.toFits

-- ============================================================= selection

theorem branch_fits : Values (∀ n ∈ ·, n.Fits) (branch g) := by
  unfold branch
  refine .bind fun _ => .bind fun _ => .bind fun _ => .bind fun _ =>
    .ite ?consteval ?plain
  case consteval =>
    exact .bind fun _ => .bind fun _ => (block_fits hg).seq
      fun body hbody => .pure (by simpa using hbody.toFits)
  case plain =>
    refine .bind fun _ => .bind fun _ => (conditionClause_fit hg).seq
      fun conditions hconditions => .bind fun _ => (hg _).seq
      fun body hbody => .pure (List.forall_mem_append.2 ⟨hconditions, ?_⟩)
    simpa using hbody

theorem otherBranches_fit :
    Values (∀ n ∈ ·, n.Fits) (otherBranches g) := by
  unfold otherBranches
  refine .loop (∀ n ∈ ·, n.Fits) (fun done hdone => ?_) (by simp)
  refine .bind fun _ => .ite (.bind fun _ => .ite (.bind fun _ => ?_) ?_)
    (.pure hdone)
  · exact (branch_fits hg).seq fun _ hparts =>
      (Values.node hparts rfl rfl).seq fun _ h => .pure (List.forall_mem_cons.2 ⟨h, hdone⟩)
  · exact (hg _).seq fun _ h => .pure (List.forall_mem_cons.2 ⟨h, hdone⟩)

theorem ifStatement_fits : Values Node.Fits (ifStatement g) := by
  unfold ifStatement
  exact .bind fun _ => (branch_fits hg).seq fun _ hfirst =>
    (otherBranches_fit hg).seq fun _ hothers =>
      .node (List.forall_mem_append.2
        ⟨hfirst, fun n hn => hothers n (List.mem_reverse.1 hn)⟩) rfl rfl

theorem switchStatement_fits : Values Node.Fits (switchStatement g) := by
  unfold switchStatement
  exact .bind fun _ => .bind fun _ => .bind fun _ =>
    (conditionClause_fit hg).seq fun _ hconditions => .bind fun _ =>
      (hg _).seq fun _ hbody => .node
        (List.forall_mem_append.2 ⟨hconditions, by simpa using hbody⟩) rfl rfl

-- ============================================================= iteration

theorem whileStatement_fits : Values Node.Fits (whileStatement g) := by
  unfold whileStatement
  refine .bind fun _ => .bind fun _ => .bind fun _ =>
    (condition_fits hg).seq fun test htest => .bind fun _ => (hg _).seq
      fun body hbody => .node (by simpa using ⟨htest.toFits, hbody⟩) ?_
        rfl
  simp [htest.kind_eq]

theorem doStatement_fits : Values Node.Fits (doStatement g) := by
  unfold doStatement
  exact .bind fun _ => .bind fun _ => (hg _).seq fun body hbody =>
    .bind fun _ => .bind fun _ => (expression_fits hg).seq
      fun test htest => .bind fun _ => .bind fun _ =>
        .node (by simpa using ⟨hbody, htest⟩) rfl rfl

omit hg in
/-- The clauses in front of the declaration of a range, the range and the
body: what the schema asks of the loop over it. -/
theorem rangeLoop_admits {clauses : List Node} {declared range body : Node}
    (hclauses : ∀ n ∈ clauses, n.Fits) (hrange : range.Fits)
    (hbody : body.Fits) :
    NodeKind.admits .rangeForStatement
      ((clauses ++ [{ declared with kind := .forRangeDeclaration }, range,
        body]).map (·.kind)) = true := by
  have hranges : (clauses.map (·.kind)).count .forRangeDeclaration = 0 := by
    have hnone := not_mem_kinds fun n hn => (hclauses n hn).noRange
    simpa [List.count_eq_zero] using hnone
  have hdirectives := not_mem_kinds fun n hn => (hclauses n hn).noDirective
  rw [List.map_append]
  have hshape : NodeKind.shape .rangeForStatement (clauses.map (·.kind)
      ++ [.forRangeDeclaration, range.kind, body.kind]) = true := by
    simp [hranges, hrange.noRange, hbody.noRange]
  unfold NodeKind.admits
  simp only [List.map_cons, List.map_nil, hshape, List.contains_append,
    hdirectives]
  simp [hrange.noDirective.symm, hbody.noDirective.symm]

theorem rangeLoop_fits {m : Mark} {clauses : List Node} {declared : Node}
    (hclauses : ∀ n ∈ clauses, n.Fits)
    (hdeclared : declared.FitsAs .condition) :
    Values Node.Fits (rangeLoop g m clauses declared) := by
  unfold rangeLoop
  refine .bind fun _ => (initializer_fits hg).seq fun range hrange =>
    .bind fun _ => (hg _).seq fun body hbody => ?_
  intro s n s' hn
  cases hn
  refine ⟨⟨.mk (rangeLoop_admits hclauses hrange hbody) ?_, nofun⟩, nofun⟩
  refine List.forall_mem_append.2 ⟨fun c hc => (hclauses c hc).conforms, ?_⟩
  simpa using ⟨hdeclared.declared, hrange.conforms, hbody.conforms⟩

theorem forTail_fits {m : Mark} {clauses : List Node}
    (hclauses : ∀ n ∈ clauses, n.Fits) :
    Values Node.Fits (forTail g m clauses) := by
  unfold forTail
  have tail {steps : List Node} (hsteps : ∀ n ∈ steps, n.Fits) :
      Values Node.Fits (do
        expectPunct ")" "after for clauses"
        let body ← g.parse .statement
        finish .forStatement m (clauses ++ steps ++ [body])) := by
    refine .bind fun _ => (hg _).seq fun body hbody => .node ?_ rfl rfl
    simp only [List.forall_mem_append]
    exact ⟨⟨hclauses, hsteps⟩, by simpa using hbody⟩
  refine .bind fun _ => .ite (tail (by simp)) ?_
  exact (expression_fits hg).seq fun _ h => tail (by simpa using h)

theorem forCondition_fits {m : Mark} {clauses : List Node}
    (hclauses : ∀ n ∈ clauses, n.Fits) :
    Values Node.Fits (forCondition g m clauses) := by
  unfold forCondition
  refine .bind fun _ => .ite (.bind fun _ => forTail_fits hg hclauses) ?_
  refine (condition_fits hg).seq fun clause hclause => .bind fun _ =>
    .ite (rangeLoop_fits hg hclauses hclause) (.bind fun _ =>
      forTail_fits hg (List.forall_mem_append.2 ⟨hclauses, ?_⟩))
  simpa using hclause.toFits

theorem forStatement_fits : Values Node.Fits (forStatement g) := by
  unfold forStatement
  have none : ∀ n ∈ ([] : List Node), n.Fits := by simp
  refine .bind fun _ => .bind fun _ => .bind fun _ => .bind fun _ =>
    .bind fun _ => .ite (.bind fun _ => forCondition_fits hg none) ?_
  refine (condition_fits hg).seq fun clause hclause => .bind fun _ =>
    .ite (rangeLoop_fits hg none hclause)
      (.bind fun _ => forCondition_fits hg ?_)
  simpa using hclause.toFits

-- ================================================================= jumps

omit hg in
theorem plainJump_fits {kind : NodeKind} {context : String}
    (hshape : kind.shape [] = true)
    (hkind : kind.isPlain = true) :
    Values Node.Fits (plainJump kind context) := by
  unfold plainJump
  exact .bind fun _ => .bind fun _ => .bind fun _ => .leaf hshape hkind

omit hg in
theorem gotoStatement_fits : Values Node.Fits gotoStatement := by
  unfold gotoStatement
  exact .bind fun _ => .bind fun _ => .bind fun _ => .bind fun _ =>
    .leaf rfl rfl

theorem returnStatement_fits : Values Node.Fits (returnStatement g) := by
  unfold returnStatement
  have returned (m : Mark) {values : List Node}
      (h : ∀ n ∈ values, n.Fits) : Values Node.Fits (do
        expectPunct ";" "after return value"
        finish .returnStatement m values) :=
    .bind fun _ => .node h rfl rfl
  exact .bind fun m => .bind fun _ => .bind fun _ =>
    .ite (returned m (by simp)) ((initializer_fits hg).seq fun _ h =>
      returned m (by simpa using h))

-- ================================================================ labels

theorem caseLabel_fits : Values Node.Fits (caseLabel g) := by
  unfold caseLabel
  exact .bind fun _ => .bind fun _ => (hg _).seq fun _ h =>
    .bind fun _ => .node (by simpa using h) rfl rfl

omit hg in
theorem defaultLabel_fits : Values Node.Fits defaultLabel := by
  unfold defaultLabel
  exact .bind fun _ => .bind fun _ => .bind fun _ => .leaf rfl rfl

theorem labeledStatement_fits :
    Values Node.Fits (labeledStatement g) := by
  unfold labeledStatement
  exact .bind fun _ => .bind fun _ => .bind fun _ => .bind fun _ =>
    .ite (.leaf rfl rfl) (operand_fits hg _ (fun _ => rfl) rfl)

-- ============================================================ statements

theorem simpleStatement_fits : Values Node.Fits (simpleStatement g) := by
  unfold simpleStatement
  exact .bind fun _ => .ite (simpleDeclaration_fits hg)
    (.bind fun _ => (expression_fits hg).seq fun _ h =>
      .bind fun _ => .node (by simpa using h) rfl rfl)

theorem keywordStatement_fits (word : String) :
    Values Node.Fits (keywordStatement g word) := by
  unfold keywordStatement
  exact .ite (ifStatement_fits hg) (.ite (switchStatement_fits hg)
    (.ite (whileStatement_fits hg) (.ite (doStatement_fits hg)
    (.ite (forStatement_fits hg) (.ite (returnStatement_fits hg)
    (.ite (plainJump_fits rfl rfl)
    (.ite (plainJump_fits rfl rfl) (.ite gotoStatement_fits
    (.ite (caseLabel_fits hg) (.ite defaultLabel_fits
    (.ite (tryBlock_fits hg) (.ite asmDeclaration_fits
    (.ite (hg _) (simpleStatement_fits hg))))))))))))))

theorem statement_fits : Values Node.Fits (statement g) := by
  unfold statement
  have block' := (block_fits hg).mono fun _ h => h.toFits
  have labelled (t : Token) : Values Node.Fits (do
      if t.isName && (← peekAt 1).isSpelled ":" then labeledStatement g
      else simpleStatement g) :=
    .bind fun _ => .ite (labeledStatement_fits hg) (simpleStatement_fits hg)
  exact .bind fun t => .ite block' (.ite
    (.bind fun _ => .bind fun _ => .leaf rfl rfl)
    (.ite (keywordStatement_fits hg _) (labelled t)))

-- =========================================================== the grammar

theorem rule_fits (goal : Goal) : Values Node.Fits (rule g goal) := by
  cases goal with
  | declaration => exact declaration_fits hg
  | statement => exact statement_fits hg
  | assignment => exact rightGrouped_fits hg true
  | conditional => exact rightGrouped_fits hg false
  | operand => exact castExpression_fits hg
  | initializerList => exact initializerList_fits hg

omit hg in
/-- Every construct conforms, by induction on the levels of nesting. -/
theorem parse_fits (policy : Policy) (room : Nat) (goal : Goal) :
    Values Node.Fits (parse policy room goal) := by
  induction room generalizing goal with
  | zero => exact .fail
  | succ room ih =>
    unfold parse
    exact rule_fits (g := ⟨policy, room, parse policy room⟩) ih goal

end Grammar

open Grammar

/-- By either policy, whatever the tokens are, every node of the tree holds
what the schema admits. -/
theorem tree_conforms (policy : Policy) (tokens : List Token) :
    let tree := (ParseOutcome.ofTokens policy tokens).tree
    tree.kind = .unit ∧ ∀ n ∈ tree.preorder,
      n.kind.admits (n.children.map (·.kind)) = true := by
  have hlisted := gather_listed policy
    (parse_fits policy maxNesting .declaration) none tokens.length []
    (.start tokens) (by simp)
  exact ⟨rfl, Node.Conforms.mk (Node.admits_of_listed hlisted rfl)
    fun c hc => (hlisted c hc).conforms⟩

end FrontEnd
