/-
Blocks and expressions, put together from single steps. Each proof goes
along the text of its rule; the rules of the level below are taken as they
come.
-/
import FrontEnd.Grammar.Expression
import FrontEnd.Proofs.Recovery.Composed

namespace FrontEnd.Grammar

variable {g : Inner}

/-- The rules of the level below are put together from single steps. -/
abbrev Inner.Composed (g : Inner) : Prop :=
  ∀ goal, Grammar.Composed g.policy (g.parse goal)

section

variable (hg : g.Composed)
include hg

-- ================================================================ blocks

theorem block_composed : Composed g.policy (block g) := by
  unfold block
  refine .ask fun m => .need ?_
  exact .enclosed (hg _) fun _ => .finish _ _ _

theorem handlers_composed : Composed g.policy (handlers g) := by
  unfold handlers
  refine .loop (fun done => .ask fun _ => .ite ?_ (.pure _)) _
  refine .ask fun m => .read (.ask fun _ => .ite ?_ (.failExpected _))
  exact (skipGroup_composed _).seq ((block_composed hg).bind fun _ =>
    .ask fun _ => .pure _)

theorem tryBlock_composed : Composed g.policy (tryBlock g) := by
  unfold tryBlock
  refine .ask fun m => .read ((block_composed hg).bind fun _ =>
    (handlers_composed hg).bind fun _ => ?_)
  exact .ite (.failExpected _) (.finish _ _ _)

-- =================================================== whole expressions

theorem expression_composed : Composed g.policy (expression g) := by
  unfold expression
  refine .ask fun m => (Composed.commaSeparated (hg _)).bind fun _ => ?_
  split
  · exact .pure _
  · exact .finish _ _ _

theorem initializer_composed : Composed g.policy (initializer g) := by
  unfold initializer
  exact .ask fun _ => .ite (hg _) (hg _)

theorem initializerOrExpression_composed :
    Composed g.policy (initializerOrExpression g) := by
  unfold initializerOrExpression
  exact .ask fun _ => .ite (hg _) (expression_composed hg)

theorem listedInitializer_composed :
    Composed g.policy (listedInitializer g) := by
  unfold listedInitializer
  refine .ask fun m => (initializer_composed hg).bind fun _ => ?_
  exact .option fun _ => .ite (.finish _ _ _) (.pure _)

theorem arguments_composed : Composed g.policy (arguments g) := by
  unfold arguments
  refine .read (.ask fun _ => .ite (.need (.pure _)) ?_)
  exact (Composed.commaSeparated (listedInitializer_composed hg)).bind
    fun _ => .need (.pure _)

omit hg in
theorem designator_composed : Composed g.policy designator := by
  unfold designator
  refine .ask fun _ => .ask fun _ => .ite ?_ (.pure _)
  exact .read (.read (.ask fun _ => .ite (.pure _) (.expect _ _)))

theorem initializerList_composed :
    Composed g.policy (initializerList g) := by
  unfold initializerList
  refine .ask fun m => .need (Composed.bind ?_ fun _ =>
    .need (.finish _ _ _))
  refine .loop (fun items => .ask fun _ => .ite (.pure _) ?_) _
  exact designator_composed.seq ((listedInitializer_composed hg).bind
    fun _ => .option fun _ => .ite (.pure _) (.pure _))

-- ============================================================ lambdas

omit hg in
theorem lambdaDeclarator_composed :
    Composed g.policy lambdaDeclarator := by
  unfold lambdaDeclarator
  refine .loop (fun _ => .ask fun t => .ite (.pure _) (.ite ?_ (.ite ?_
    (.ite ?_ ?_)))) _
  · exact (skipGroup_composed _).seq (.pure _)
  · exact skipTemplateArguments_composed.seq (.pure _)
  · exact .read (.pure _)
  · exact .seq (.failExpected _) (.pure _)

theorem lambda_composed : Composed g.policy (lambda g) := by
  unfold lambda
  have body (m : Mark) : Composed g.policy (do
      lambdaDeclarator
      let body ← block g
      finish .lambdaExpression m [body]) :=
    lambdaDeclarator_composed.seq ((block_composed hg).bind fun _ =>
      .finish _ _ _)
  have parameters (m : Mark) : Composed g.policy (do
      if ← check (·.isPunct "(") then skipGroup "after lambda parameters"
      lambdaDeclarator
      let body ← block g
      finish .lambdaExpression m [body]) :=
    .ask fun _ => .ite ((skipGroup_composed _).seq (body m)) (body m)
  refine .ask fun m => (skipGroup_composed _).seq (.ask fun _ => ?_)
  exact .ite (skipTemplateArguments_composed.seq (parameters m))
    (parameters m)

-- ================================================= primary expressions

theorem namedCast_composed : Composed g.policy (namedCast g) := by
  unfold namedCast
  refine .ask fun m => .ask fun t => .read (.ask fun _ =>
    .ite ?_ (.failExpected _))
  exact skipTemplateArguments_composed.seq (.need
    ((expression_composed hg).bind fun _ => .need (.finish _ _ _)))

omit hg in
theorem decltypeName_composed : Composed g.policy decltypeName := by
  unfold decltypeName
  refine .ask fun m => .read (.ask fun _ => .ite ?_ (.failExpected _))
  exact (skipGroup_composed _).seq (.option fun _ =>
    .ite idExpression_composed (.finish _ _ _))

omit hg in
theorem requiresExpression_composed :
    Composed g.policy requiresExpression := by
  unfold requiresExpression
  have body (m : Mark) : Composed g.policy (do
      if ← check (·.isPunct "\x7b") then
        skipGroup "after requirements"
        finish .builtinExpression m []
      else failExpected "'\x7b' after 'requires'") :=
    .ask fun _ => .ite ((skipGroup_composed _).seq (.finish _ _ _))
      (.failExpected _)
  refine .ask fun m => .read (.ask fun _ => ?_)
  exact .ite ((skipGroup_composed _).seq (body m)) (body m)

omit hg in
theorem typeKeywords_composed : Composed g.policy typeKeywords := by
  unfold typeKeywords
  refine .ask fun m => .loop (fun _ => .ask fun t => .ite ?_ ?_) _
  · refine .read (.ite ?_ (.pure _))
    exact idExpression_composed.bind fun _ => .ask fun _ => .pure _
  · exact .ask fun _ => .pure _

theorem keywordPrimary_composed :
    Composed g.policy (keywordPrimary g) := by
  unfold keywordPrimary
  refine .ask fun m => .ask fun t => ?_
  refine .ite (.read (.finish _ _ _)) (.ite (.read (.finish _ _ _)) ?_)
  refine .ite idExpression_composed (.ite (namedCast_composed hg) ?_)
  refine .ite decltypeName_composed (.ite requiresExpression_composed ?_)
  exact .ite typeKeywords_composed (.failExpected _)

theorem primary_composed : Composed g.policy (primary g) := by
  unfold primary
  refine .ask fun m => .ask fun t => ?_
  split
  · exact .read (.finish _ _ _)
  · exact .read (.finish _ _ _)
  · exact (Composed.skipWhile _).seq (.finish _ _ _)
  · exact idExpression_composed
  · refine .ite idExpression_composed (.ite ?_ (.failExpected _))
    exact .read (.finish _ _ _)
  · exact keywordPrimary_composed hg
  · refine .ite ?_ (.ite (lambda_composed hg)
      (.ite (hg _) (.failExpected _)))
    exact .read ((expression_composed hg).bind fun _ =>
      .need (.finish _ _ _))
  · exact .failExpected _
  · exact .failExpected _

-- ================================================= postfix operators

omit hg in
theorem member_composed (m : Mark) (object : Node) :
    Composed g.policy (member m object) := by
  unfold member
  refine .ask fun t => .read (.option fun _ => .ask fun _ =>
    .ite ?_ (.failExpected _))
  exact idExpression_composed.bind fun _ => .finish _ _ _

theorem postfixRound_composed (m : Mark) (object : Node) :
    Composed g.policy (postfixRound g m object) := by
  unfold postfixRound
  refine .ask fun t => .ite ?_ (.ite ?_ (.ite ?_ (.ite ?_ (.ite ?_
    (.pure _)))))
  · exact (arguments_composed hg).bind fun _ => .ask fun _ => .pure _
  · exact .read ((initializerOrExpression_composed hg).bind fun _ =>
      .need (.ask fun _ => .pure _))
  · exact (hg _).bind fun _ => .ask fun _ => .pure _
  · exact (member_composed _ _).bind fun _ => .pure _
  · exact .read (.ask fun _ => .pure _)

theorem postfixOperators_composed (m : Mark) (object : Node) :
    Composed g.policy (postfixOperators g m object) :=
  .loop (postfixRound_composed hg m) object

theorem postfixExpression_composed :
    Composed g.policy (postfixExpression g) := by
  unfold postfixExpression
  exact .ask fun m => (primary_composed hg).bind fun _ =>
    postfixOperators_composed hg _ _

-- ==================================================== unary operators

omit hg in
theorem newType_composed : Composed g.policy newType := by
  unfold newType
  refine .seq (.loop (fun _ => .ask fun t => .ite (.read (.pure _))
    (.ite (.read (.pure _)) (.ite ?_ (.pure _)))) _) ?_
  · exact skipTemplateArguments_composed.seq (.pure _)
  · refine .loop (fun _ => .ask fun _ => .ite ?_ (.pure _)) _
    exact (skipGroup_composed _).seq (.pure _)

theorem newExpression_composed : Composed g.policy (newExpression g) := by
  unfold newExpression
  have tail (m : Mark) : Composed g.policy (do
      newType
      let children ←
        if ← check (·.isPunct "(") then arguments g
        else if ← check (·.isPunct "\x7b") then
          Pure.pure [← g.parse .initializerList]
        else Pure.pure []
      finish .newExpression m children) := by
    refine newType_composed.seq (.ask fun _ => .ask fun _ =>
      .ite ?_ (.ite ?_ (.ask fun _ => .finish _ _ _)))
    · exact (arguments_composed hg).bind fun _ => .finish _ _ _
    · exact (hg _).bind fun _ => .ask fun _ => .finish _ _ _
  refine .ask fun m => .read (.ask fun _ => ?_)
  exact .ite ((skipGroup_composed _).seq (tail m)) (tail m)

theorem deleteExpression_composed :
    Composed g.policy (deleteExpression g) := by
  unfold deleteExpression
  have operand (m : Mark) : Composed g.policy (do
      let operand ← g.parse .operand
      finish .deleteExpression m [operand]) :=
    (hg _).bind fun _ => .finish _ _ _
  refine .ask fun m => .read (.ask fun _ => .ask fun _ => ?_)
  exact .ite (.read (.read (operand m))) (operand m)

theorem unary_composed : Composed g.policy (unary g) := by
  unfold unary
  exact .ask fun m => .read ((hg _).bind fun _ => .finish _ _ _)

theorem parenthesizedCast_composed :
    Composed g.policy (parenthesizedCast g) := by
  unfold parenthesizedCast
  have operand (m : Mark) (goal : Goal) : Composed g.policy (do
      let operand ← g.parse goal
      finish .castExpression m [operand]) :=
    (hg _).bind fun _ => .finish _ _ _
  refine .ask fun m => (skipGroup_composed _).seq (.ask fun _ => ?_)
  exact .ite (operand m _) (operand m _)

theorem sizeofExpression_composed :
    Composed g.policy (sizeofExpression g) := by
  unfold sizeofExpression
  have pack (m : Mark) : Composed g.policy (do
      skipGroup "after sizeof operand"
      finish .builtinExpression m []) :=
    (skipGroup_composed _).seq (.finish _ _ _)
  refine .ask fun m => .read (.option fun _ => .ask fun _ => ?_)
  exact .ite (pack m) ((hg _).bind fun _ => .finish _ _ _)

theorem keywordCall_composed : Composed g.policy (keywordCall g) := by
  unfold keywordCall
  refine .ask fun m => .ask fun t => .read (.ask fun _ =>
    .ite ?_ (.failExpected _))
  exact (skipGroup_composed _).seq (.ask fun _ =>
    postfixOperators_composed hg _ _)

theorem castExpression_composed :
    Composed g.policy (castExpression g) := by
  unfold castExpression
  have hpostfix := postfixExpression_composed hg
  have hunary := unary_composed hg
  have hnew := newExpression_composed hg
  have hdelete := deleteExpression_composed hg
  refine .ask fun t => ?_
  split
  · exact .ask fun _ => .ite (parenthesizedCast_composed hg) hpostfix
  · refine .ite hunary (.ite (.ask fun next => ?_) hpostfix)
    exact .ite (.read hnew) (.ite (.read hdelete) hpostfix)
  · refine .ite (sizeofExpression_composed hg)
      (.ite (keywordCall_composed hg) ?_)
    exact .ite hnew (.ite hdelete (.ite hunary hpostfix))
  · exact hpostfix

-- =================================================== binary operators

theorem binary_composed (levels : List (List String)) :
    Composed g.policy (binary g levels) := by
  induction levels with
  | nil => exact castExpression_composed hg
  | cons level tighter ih =>
    unfold binary
    refine .ask fun m => ih.bind fun first => Composed.bind ?_ fun _ =>
      .ite (.pure _) (.finish _ _ _)
    refine .loop (fun others => .option fun _ => .ite ?_ (.pure _)) _
    exact ih.bind fun _ => .pure _

-- ==================================== operators that group to the right

omit hg in
theorem closeAll_composed (operand : Node) (waiting : List Waiting) :
    Composed g.policy (closeAll operand waiting) := by
  induction waiting generalizing operand with
  | nil => exact .pure _
  | cons w ws ih =>
    unfold closeAll
    have hclose : Composed g.policy (w.close operand) := by
      cases w <;> exact .finish _ _ _
    exact hclose.bind fun _ => ih _

theorem rightRound_composed (assignment : Bool) (waiting : List Waiting) :
    Composed g.policy (rightRound g assignment waiting) := by
  unfold rightRound
  have close (operand : Node) : Composed g.policy (do
      return .done (← closeAll operand waiting) :
      Parser (Round (List Waiting) Node)) :=
    (closeAll_composed _ _).bind fun _ => .pure _
  refine .ite (.fail _) (.ask fun m => .ask fun t => ?_)
  dsimp only
  refine .ite (.read (.ask fun _ => ?_)) (.ite (.read (.ask fun _ => ?_)) ?_)
  · exact .ite (.ask fun _ => close _) (.pure _)
  · exact .ite ((hg _).bind fun _ => .ask fun _ => close _) (.pure _)
  · refine (binary_composed hg _).bind fun operand => .option fun _ =>
      .ite ?_ (.ask fun _ => .ite (.read (.ask fun _ => ?_)) (close _))
    · exact (expression_composed hg).bind fun _ => .need (.pure _)
    · exact .ite ((hg _).bind fun list =>
        (closeAll_composed _ _).bind fun _ => .pure _) (.pure _)

theorem rightGrouped_composed (assignment : Bool) :
    Composed g.policy (rightGrouped g assignment) :=
  .loop (rightRound_composed hg assignment) []

end

end FrontEnd.Grammar
