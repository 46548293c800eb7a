/-
The rules of statements in step with themselves wherever the rules of
the level below are, and from that, by induction on the levels of
nesting, the whole grammar (`parse_inStep`).
-/
import FrontEnd.Proofs.Lockstep.Declaration

namespace FrontEnd.Grammar.Lockstep

open List (Forall₂)

variable {L : Lockstep} (hL : L.Lawful) {g h : Inner}
  (hg : L.Inners g h)

include hL hg

-- ============================================================ conditions

omit hL hg in
/-- What is asked of the token behind the next one is put in front of
the distinction between the kinds of the next one. -/
theorem conditionRound_eq (as : List Node) : conditionRound g as = (do
    let t ← Grammar.peek
    let next ← peekAt 1
    match t.kind with
    | .punctuation =>
      if t.value == ";" || t.value == ")" then return .done as.reverse
      else if t.value == "(" || t.value == "[" then
        skipGroup "in declaration"
        return .again as
      else if t.value == "\x7b" then
        let list ← g.parse .initializerList
        return .again (list :: as)
      else if t.value == "," then
        Grammar.advance
        return .again as
      else Grammar.fail .unexpected
    | .operator =>
      if t.isOperator ":" then return .done as.reverse
      else if t.isOperator "=" then
        Grammar.advance
        let value ← initializer g
        return .again (value :: as)
      else if t.isOperator "<" then
        skipTemplateArguments
        return .again as
      else if isOneOf markerOperators t then
        Grammar.advance
        return .again as
      else Grammar.fail .unexpected
    | .identifier =>
      Grammar.advance
      return .again as
    | .keyword =>
      if Word.isStatement t.value then Grammar.fail .unexpected
      else
        Grammar.advance
        if t.value == "decltype" && next.isPunct "(" then
          skipGroup "after decltype"
        return .again as
    | _ => Grammar.fail .unexpected) := by
  funext s
  unfold conditionRound
  simp only [bind_apply, Grammar.peek, peekAt, goOn]
  cases s.peek.kind with
  | keyword => dsimp only; split <;> rfl
  | _ => rfl

theorem conditionRound_inStep {as bs : List Node}
    (hs : Forall₂ L.node as bs) :
    L.InStep (Rounds (Forall₂ L.node) (Forall₂ L.node))
      (conditionRound g as) (conditionRound h bs) := by
  rw [conditionRound_eq, conditionRound_eq]
  refine .peekNext hL fun t u next next' ht hnext => ?_
  have ha := hL.alike ht
  have done : L.InStep (Rounds (Forall₂ L.node) (Forall₂ L.node))
      (pure (.done as.reverse)) (pure (.done bs.reverse)) :=
    .pure (.done (List.rel_reverse hs))
  have again : L.InStep (Rounds (Forall₂ L.node) (Forall₂ L.node))
      (pure (.again as)) (pure (.again bs)) := .pure (.again hs)
  have next : L.InStep (Rounds (Forall₂ L.node) (Forall₂ L.node))
      (do advance; return .again as) (do advance; return .again bs) :=
    .andThen (.advance hL) again
  rw [ha.kind]
  cases hk : u.kind with
  | punctuation =>
    rw [ha.value (by rw [ha.kind, hk]; decide)]
    refine .ite rfl done (.ite rfl ?_ (.ite rfl ?_ ?_))
    · exact .andThen (skipGroup_inStep hL _) again
    · apply InStep.bind (hg.parse _)
      intro a b hab
      exact .pure (.again (.cons hab hs))
    · exact .ite rfl next (.fail hL _)
  | operator =>
    refine .ite (ha.isOperator _) done (.ite (ha.isOperator _) ?_ ?_)
    · apply InStep.andThen (.advance hL)
      apply InStep.bind (initializer_inStep hL hg)
      intro a b hab
      exact .pure (.again (.cons hab hs))
    · refine .ite (ha.isOperator _) ?_ ?_
      · exact .andThen (skipTemplateArguments_inStep hL) again
      · exact .ite (isOneOf_alike ha _) next (.fail hL _)
  | identifier => exact next
  | keyword =>
    have hkind : t.kind = .keyword := ha.kind.trans hk
    have hn := hL.alike
      (hnext (Token.not_shuts_of_kind (by rw [hkind]; decide)))
    rw [ha.value (by rw [hkind]; decide), hn.isPunct]
    refine .ite rfl (.fail hL _) (.andThen (.advance hL) ?_)
    exact .when rfl (skipGroup_inStep hL _) again
  | _ => exact .fail hL _

theorem condition_inStep : L.InStep L.node (condition g) (condition h) := by
  unfold condition
  apply InStep.bind (.mark hL)
  intro m n hm
  apply InStep.bindEq (.question hL.declaration)
  intro declares
  refine .ite rfl ?_ ?_
  · refine .bind (.loop hL
      (fun _ _ hs => conditionRound_inStep hL hg hs) .nil) ?_
    exact fun as bs hs => .finishAll hL _ rfl hm hs
  · apply InStep.bind (expression_inStep hL hg)
    intro a b hab
    exact .finishAll hL _ rfl hm (.cons hab .nil)

theorem conditionClause_inStep :
    L.InStep (Forall₂ L.node) (conditionClause g) (conditionClause h) := by
  unfold conditionClause
  apply InStep.bind (condition_inStep hL hg)
  intro a b hab
  apply InStep.bindEq (.accept hL fun h => h.isPunct _)
  intro more
  refine .ite rfl ?_ (.pure (.cons hab .nil))
  apply InStep.bind (condition_inStep hL hg)
  intro c d hcd
  exact .pure (.cons hab (.cons hcd .nil))

-- ============================================================= selection

theorem branch_inStep :
    L.InStep (Forall₂ L.node) (branch g) (branch h) := by
  unfold branch
  apply InStep.andThen (.advance hL)
  refine .checkNext hL (fun h => h.isOperator _)
    Token.not_shuts_of_isOperator ?_
  intro marked t u ht
  rw [and_eq_and fun h => (hL.alike (ht h)).isKeyword _]
  apply InStep.bindEq (.check hL fun h => h.isKeyword _)
  intro constant
  refine .ite rfl ?_ ?_
  · apply InStep.andThen (.accept hL fun h => h.isOperator _)
    apply InStep.andThen (.advance hL)
    apply InStep.bind (block_inStep hL hg)
    intro a b hab
    exact .pure (.cons hab .nil)
  · apply InStep.andThen (.accept hL fun h => h.isKeyword _)
    apply InStep.andThen (.expectPunct hL _ _)
    apply InStep.bind (conditionClause_inStep hL hg)
    intro as bs hs
    apply InStep.andThen (.expectPunct hL _ _)
    apply InStep.bind (hg.parse _)
    intro a b hab
    exact .pure (List.rel_append hs (.cons hab .nil))

theorem otherBranches_inStep :
    L.InStep (Forall₂ L.node) (otherBranches g) (otherBranches h) := by
  unfold otherBranches
  refine .loop (V := Forall₂ L.node) hL (fun as bs hs => ?_) .nil
  apply InStep.bindEq (.accept hL fun h => h.isKeyword _)
  intro more
  refine .ite rfl ?_ (.pure (.done hs))
  apply InStep.bindEq (.check hL fun h => h.isKeyword _)
  intro ladder
  refine .ite rfl ?_ ?_
  · apply InStep.bind (.mark hL)
    intro m n hm
    apply InStep.bind (branch_inStep hL hg)
    intro cs ds hcs
    apply InStep.bind (.finishAll hL _ rfl hm hcs)
    intro a b hab
    exact .pure (.again (.cons hab hs))
  · apply InStep.bind (hg.parse _)
    intro a b hab
    exact .pure (.done (.cons hab hs))

theorem ifStatement_inStep :
    L.InStep L.node (ifStatement g) (ifStatement h) := by
  unfold ifStatement
  apply InStep.bind (.mark hL)
  intro m n hm
  apply InStep.bind (branch_inStep hL hg)
  intro as bs hs
  apply InStep.bind (otherBranches_inStep hL hg)
  intro cs ds hcs
  exact .finishAll hL _ rfl hm (List.rel_append hs (List.rel_reverse hcs))

theorem switchStatement_inStep :
    L.InStep L.node (switchStatement g) (switchStatement h) := by
  unfold switchStatement
  apply InStep.bind (.mark hL)
  intro m n hm
  refine .andThen (.advance hL) (.andThen (.expectPunct hL _ _) ?_)
  apply InStep.bind (conditionClause_inStep hL hg)
  intro as bs hs
  apply InStep.andThen (.expectPunct hL _ _)
  apply InStep.bind (hg.parse _)
  intro a b hab
  exact .finishAll hL _ rfl hm (List.rel_append hs (.cons hab .nil))

-- ============================================================= iteration

theorem whileStatement_inStep :
    L.InStep L.node (whileStatement g) (whileStatement h) := by
  unfold whileStatement
  apply InStep.bind (.mark hL)
  intro m n hm
  refine .andThen (.advance hL) (.andThen (.expectPunct hL _ _) ?_)
  apply InStep.bind (condition_inStep hL hg)
  intro a b hab
  apply InStep.andThen (.expectPunct hL _ _)
  apply InStep.bind (hg.parse _)
  intro c d hcd
  exact .finishAll hL _ rfl hm (.cons hab (.cons hcd .nil))

theorem doStatement_inStep :
    L.InStep L.node (doStatement g) (doStatement h) := by
  unfold doStatement
  apply InStep.bind (.mark hL)
  intro m n hm
  apply InStep.andThen (.advance hL)
  apply InStep.bind (hg.parse _)
  intro a b hab
  apply InStep.andThen (.expect hL _ fun h => h.isKeyword _)
  apply InStep.andThen (.expectPunct hL _ _)
  apply InStep.bind (expression_inStep hL hg)
  intro c d hcd
  refine .andThen (.expectPunct hL _ _) (.andThen (.expectPunct hL _ _) ?_)
  exact .finishAll hL _ rfl hm (.cons hab (.cons hcd .nil))

section

variable {m n : Mark} (hm : L.mark m n) {as bs : List Node}
  (hs : Forall₂ L.node as bs)
include hm hs

theorem rangeLoop_inStep {a b : Node} (hab : L.node a b) :
    L.InStep L.node (rangeLoop g m as a) (rangeLoop h n bs b) := by
  unfold rangeLoop
  apply InStep.andThen (.advance hL)
  apply InStep.bind (initializer_inStep hL hg)
  intro c d hcd
  apply InStep.andThen (.expectPunct hL _ _)
  apply InStep.bind (hg.parse _)
  intro body body' hbody
  refine .finishAll hL _ rfl hm (List.rel_append hs ?_)
  exact .cons (hL.retag _ rfl hab) (.cons hcd (.cons hbody .nil))

theorem forTail_inStep :
    L.InStep L.node (forTail g m as) (forTail h n bs) := by
  unfold forTail
  have rest (cs ds : List Node) (hcs : Forall₂ L.node cs ds) :
      L.InStep L.node
        (do
          expectPunct ")" "after for clauses"
          let body ← g.parse .statement
          finish .forStatement m (as ++ cs ++ [body]))
        (do
          expectPunct ")" "after for clauses"
          let body ← h.parse .statement
          finish .forStatement n (bs ++ ds ++ [body])) := by
    apply InStep.andThen (.expectPunct hL _ _)
    refine .bind (hg.parse _) fun a b hab => .finishAll hL _ rfl hm ?_
    exact List.rel_append (List.rel_append hs hcs) (.cons hab .nil)
  apply InStep.bindEq (.check hL fun h => h.isPunct _)
  intro closed
  refine .ite rfl (.bind (.pure .nil) rest) ?_
  apply InStep.bind (expression_inStep hL hg)
  intro a b hab
  exact .bind (.pure (.cons hab .nil)) rest

theorem forCondition_inStep :
    L.InStep L.node (forCondition g m as) (forCondition h n bs) := by
  unfold forCondition
  apply InStep.bindEq (.check hL fun h => h.isPunct _)
  intro empty
  refine .ite rfl ?_ ?_
  · exact .andThen (.expectPunct hL _ _) (forTail_inStep hL hg hm hs)
  · apply InStep.bind (condition_inStep hL hg)
    intro a b hab
    apply InStep.bindEq (.check hL fun h => h.isOperator _)
    intro ranged
    refine .ite rfl (rangeLoop_inStep hL hg hm hs hab) ?_
    apply InStep.andThen (.expectPunct hL _ _)
    exact forTail_inStep hL hg hm (List.rel_append hs (.cons hab .nil))

end

theorem forStatement_inStep :
    L.InStep L.node (forStatement g) (forStatement h) := by
  unfold forStatement
  apply InStep.bind (.mark hL)
  intro m n hm
  apply InStep.andThen (.advance hL)
  apply InStep.andThen (.accept hL fun h => h.isKeyword _)
  apply InStep.andThen (.expectPunct hL _ _)
  apply InStep.bindEq (.check hL fun h => h.isPunct _)
  intro empty
  refine .ite rfl ?_ ?_
  · apply InStep.andThen (.expectPunct hL _ _)
    exact forCondition_inStep hL hg hm .nil
  · apply InStep.bind (condition_inStep hL hg)
    intro a b hab
    apply InStep.bindEq (.check hL fun h => h.isOperator _)
    intro ranged
    refine .ite rfl (rangeLoop_inStep hL hg hm .nil hab) ?_
    apply InStep.andThen (.expectPunct hL _ _)
    exact forCondition_inStep hL hg hm (.cons hab .nil)

-- ================================================================= jumps

omit hg in
theorem plainJump_inStep (kind : NodeKind) (context : String)
    (hkind : (kind == .preprocessorDirective) = false) :
    L.InStep L.node (plainJump kind context) (plainJump kind context) := by
  unfold plainJump
  apply InStep.bind (.mark hL)
  intro m n hm
  refine .andThen (.advance hL) (.andThen (.expectPunct hL _ _) ?_)
  exact .finishAll hL _ hkind hm .nil

omit hg in
theorem gotoStatement_inStep :
    L.InStep L.node gotoStatement gotoStatement := by
  unfold gotoStatement
  apply InStep.bind (.mark hL)
  intro m n hm
  refine .andThen (.advance hL) (.andThen (.expectName hL) ?_)
  exact .andThen (.expectPunct hL _ _) (.finishAll hL _ rfl hm .nil)

theorem returnStatement_inStep :
    L.InStep L.node (returnStatement g) (returnStatement h) := by
  unfold returnStatement
  apply InStep.bind (.mark hL)
  intro m n hm
  apply InStep.andThen (.advance hL)
  have rest (as bs : List Node) (hs : Forall₂ L.node as bs) :
      L.InStep L.node
        (do
          expectPunct ";" "after return value"
          finish .returnStatement m as)
        (do
          expectPunct ";" "after return value"
          finish .returnStatement n bs) :=
    .andThen (.expectPunct hL _ _) (.finishAll hL _ rfl hm hs)
  apply InStep.bindEq (.check hL fun h => h.isPunct _)
  intro empty
  refine .ite rfl (.bind (.pure .nil) rest) ?_
  apply InStep.bind (initializer_inStep hL hg)
  intro a b hab
  exact .bind (.pure (.cons hab .nil)) rest

-- ================================================================ labels

theorem caseLabel_inStep : L.InStep L.node (caseLabel g) (caseLabel h) := by
  unfold caseLabel
  apply InStep.bind (.mark hL)
  intro m n hm
  apply InStep.andThen (.advance hL)
  apply InStep.bind (hg.parse _)
  intro a b hab
  apply InStep.andThen (.expectOperator hL _ _)
  exact .finishAll hL _ rfl hm (.cons hab .nil)

omit hg in
theorem defaultLabel_inStep :
    L.InStep L.node defaultLabel defaultLabel := by
  unfold defaultLabel
  apply InStep.bind (.mark hL)
  intro m n hm
  refine .andThen (.advance hL) (.andThen (.expectOperator hL _ _) ?_)
  exact .finishAll hL _ rfl hm .nil

theorem labeledStatement_inStep :
    L.InStep L.node (labeledStatement g) (labeledStatement h) := by
  unfold labeledStatement
  apply InStep.bind (.mark hL)
  intro m n hm
  refine .andThen (.advance hL) (.andThen (.advance hL) ?_)
  apply InStep.bindEq (.check hL fun h => h.isPunct _)
  intro closed
  refine .ite rfl (.finishAll hL _ rfl hm .nil) ?_
  apply InStep.bind (hg.parse _)
  intro a b hab
  exact .finishAll hL _ rfl hm (.cons hab .nil)

-- ============================================================ statements

theorem simpleStatement_inStep :
    L.InStep L.node (simpleStatement g) (simpleStatement h) := by
  unfold simpleStatement
  apply InStep.bindEq (.question hL.declaration)
  intro declares
  refine .ite rfl (simpleDeclaration_inStep hL hg) ?_
  apply InStep.bind (.mark hL)
  intro m n hm
  apply InStep.bind (expression_inStep hL hg)
  intro a b hab
  apply InStep.andThen (.expectPunct hL _ _)
  exact .finishAll hL _ rfl hm (.cons hab .nil)

theorem keywordStatement_inStep (word : String) :
    L.InStep L.node (keywordStatement g word) (keywordStatement h word) := by
  unfold keywordStatement
  refine .ite rfl (ifStatement_inStep hL hg) ?_
  refine .ite rfl (switchStatement_inStep hL hg) ?_
  refine .ite rfl (whileStatement_inStep hL hg) ?_
  refine .ite rfl (doStatement_inStep hL hg) ?_
  refine .ite rfl (forStatement_inStep hL hg) ?_
  refine .ite rfl (returnStatement_inStep hL hg) ?_
  refine .ite rfl (plainJump_inStep hL _ _ rfl) ?_
  refine .ite rfl (plainJump_inStep hL _ _ rfl) ?_
  refine .ite rfl (gotoStatement_inStep hL) ?_
  refine .ite rfl (caseLabel_inStep hL hg) ?_
  refine .ite rfl (defaultLabel_inStep hL) ?_
  refine .ite rfl (tryBlock_inStep hL hg) ?_
  refine .ite rfl (asmDeclaration_inStep hL) ?_
  exact .ite rfl (hg.parse _) (simpleStatement_inStep hL hg)

omit hL hg in
/-- What is asked of the token behind the next one is put in front of
the distinction between the ways in which a statement begins. -/
theorem statement_eq : statement g = (do
    let t ← Grammar.peek
    let next ← peekAt 1
    if t.isPunct "\x7b" then block g
    else if t.isPunct ";" then
      let m ← Grammar.mark
      Grammar.advance
      Grammar.finish .emptyStatement m []
    else if t.kind == .keyword then keywordStatement g t.value
    else if t.isName && next.isSpelled ":" then labeledStatement g
    else simpleStatement g) := by
  funext s
  unfold statement
  simp only [bind_apply, Grammar.peek, peekAt, goOn]
  split
  · rfl
  split
  · rfl
  split <;> rfl

theorem statement_inStep :
    L.InStep L.node (statement g) (statement h) := by
  rw [statement_eq, statement_eq]
  refine .peekNext hL fun t u next next' ht hnext => ?_
  have ha := hL.alike ht
  refine .ite (ha.isPunct _) (block_inStep hL hg) ?_
  refine .ite (ha.isPunct _) ?_ ?_
  · apply InStep.bind (.mark hL)
    intro m n hm
    exact .leaf hL _ rfl hm
  rw [ha.isKind, ← ha.isName]
  cases hk : u.kind == .keyword with
  | true =>
    have hne : t.kind ≠ .operator := by
      rw [ha.kind, beq_iff_eq.1 hk]
      decide
    rw [ha.value hne]
    exact keywordStatement_inStep hL hg _
  | false =>
    rw [if_neg Bool.false_ne_true, if_neg Bool.false_ne_true]
    refine .ite (and_eq_and fun h => ?_) (labeledStatement_inStep hL hg)
      (simpleStatement_inStep hL hg)
    have hn := hL.alike (hnext (Token.not_shuts_of_isName h))
    exact hn.isSpelled (by decide)

-- ===================================================== the whole grammar

theorem rule_inStep (goal : Goal) :
    L.InStep L.node (rule g goal) (rule h goal) := by
  cases goal with
  | declaration => exact declaration_inStep hL hg
  | statement => exact statement_inStep hL hg
  | assignment => exact rightGrouped_inStep hL hg true
  | conditional => exact rightGrouped_inStep hL hg false
  | operand => exact castExpression_inStep hL hg
  | initializerList => exact initializerList_inStep hL hg

omit hg in
/-- With equally many levels of nesting to spare, every construct is
read in step. -/
theorem parse_inStep [hS : L.SpelledAlike] (room : Nat) (goal : Goal) :
    L.InStep L.node (parse L.first room goal)
      (parse L.second room goal) := by
  induction room generalizing goal with
  | zero => exact .fail hL _
  | succ room ih =>
    have below : L.Inners ⟨L.first, room, parse L.first room⟩
        ⟨L.second, room, parse L.second room⟩ := ⟨rfl, rfl, rfl, ih, hS⟩
    exact rule_inStep hL below goal

end FrontEnd.Grammar.Lockstep
