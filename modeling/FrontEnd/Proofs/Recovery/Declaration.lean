/-
Declarations, put together from single steps. Classes, namespaces and
linkage specifications gather what their braces enclose.
-/
import FrontEnd.Proofs.Course.Declaration
import FrontEnd.Proofs.Recovery.Expression

namespace FrontEnd.Grammar

variable {g : Inner} {policy : Policy}

-- =========================================================== functions

theorem operatorFunctionName_composed :
    Composed policy operatorFunctionName := by
  unfold operatorFunctionName
  refine .read (.ask fun t => .ask fun next => ?_)
  refine .ite (.read .advance) (.ite .advance (.ite ?_ (.ite ?_
    (.pure _))))
  · exact .read (.ask fun _ => .ask fun _ =>
      .ite (.read .advance) (.pure _))
  · exact .read (.option fun _ => .pure _)

theorem constraintName_composed : Composed policy constraintName := by
  unfold constraintName
  have tail : Composed policy (do
      if (← check (·.isOperator "::")) && (← peekAt 1).isName then
        advance
        advance
        return .again ()
      else return .done () : Parser (Round Unit Unit)) :=
    .ask fun _ => .ask fun _ => .ite (.read (.read (.pure _))) (.pure _)
  refine .option fun _ => .need (.loop (fun _ => .ask fun _ => ?_) _)
  exact .ite (skipTemplateArguments_composed.seq tail) tail

theorem constraintOperand_composed : Composed policy constraintOperand := by
  unfold constraintOperand
  refine (Composed.skipWhile _).seq (.ask fun t => ?_)
  exact .ite (skipGroup_composed _) (.ite .advance constraintName_composed)

theorem requiresClause_composed : Composed policy requiresClause := by
  unfold requiresClause
  refine .read (.loop (fun _ => constraintOperand_composed.seq ?_) _)
  exact .option fun _ => .ite (.pure _) (.pure _)

-- ================================================ classes, enumerations

theorem skip_composed (n : Nat) : Composed policy (skip n) := by
  induction n with
  | zero => exact .pure _
  | succ n ih => exact .read ih

theorem baseClause_composed : Composed policy baseClause := by
  unfold baseClause
  refine .loop (fun _ => .ask fun t => .ite (.pure _) (.ite ?_ (.ite ?_
    (.ite ?_ ?_)))) _
  · exact (skipGroup_composed _).seq (.pure _)
  · exact skipTemplateArguments_composed.seq (.pure _)
  · exact .read (.pure _)
  · exact .seq (.failExpected _) (.pure _)

theorem className_composed : Composed policy className := by
  unfold className
  refine .seq (.loop (fun _ => .ask fun t => .ite (.read (.pure _))
    (.ite ?_ (.pure _))) _) (.skipWhile _)
  exact skipTemplateArguments_composed.seq (.pure _)

theorem enumHead_composed : Composed policy enumHead := by
  unfold enumHead
  have tail : Composed policy (do
      skipAttributes
      skipWhile fun t => t.isName || t.isOperator "::"
      if ← accept (·.isOperator ":") then
        skipWhile fun t =>
          t.isName || t.kind == .keyword || t.isOperator "::") :=
    skipAttributes_composed.seq ((Composed.skipWhile _).seq
      (.option fun _ => .ite (.skipWhile _) (.pure _)))
  exact .read (.option fun _ => .ite (.option fun _ => tail) tail)

section

variable (hg : g.Composed)
include hg

theorem memberInitializer_composed :
    Composed g.policy (memberInitializer g) := by
  unfold memberInitializer
  refine .ask fun m => idExpression_composed.bind fun name =>
    .ask fun _ => .ite ?_ (.ask fun _ => .ite ?_ (.failExpected _))
  · exact (arguments_composed hg).bind fun _ => .finish _ _ _
  · exact (hg _).bind fun _ => .finish _ _ _

theorem constructorInitializer_composed :
    Composed g.policy (constructorInitializer g) := by
  unfold constructorInitializer
  refine .ask fun m => .read (Composed.bind ?_ fun _ => .finish _ _ _)
  exact .commaSeparated ((memberInitializer_composed hg).bind fun _ =>
    .option fun _ => .pure _)

/-- Which of the two a member is, the tokens ahead tell. -/
theorem memberDeclaration_composed :
    Composed g.policy (memberDeclaration g) := by
  rw [memberDeclaration_eq]
  refine .ask fun label => ?_
  cases label with
  | none => exact hg _
  | some length =>
    exact .ask fun m => (skip_composed _).seq (.finish _ _ _)

theorem classBody_composed (m : Mark) :
    Composed g.policy (classBody g m) := by
  unfold classBody
  refine .need ?_
  exact .enclosed (memberDeclaration_composed hg) fun _ => .finish _ _ _

theorem classSpecifier_composed :
    Composed g.policy (classSpecifier g) := by
  unfold classSpecifier
  have body (m : Mark) : Composed g.policy (do
      return some (← classBody g m) : Parser (Option Node)) :=
    (classBody_composed hg m).bind fun _ => .pure _
  refine .ask fun m => .read (skipAttributes_composed.seq
    (className_composed.seq (.option fun _ => .ite ?_ (.ask fun _ => ?_))))
  · exact baseClause_composed.seq (body m)
  · exact .ite (body m) (.pure _)

theorem enumerator_composed : Composed g.policy (enumerator g) := by
  unfold enumerator
  refine .ask fun m => .need (skipAttributes_composed.seq
    (.option fun _ => .ite ?_ (.finish _ _ _)))
  exact (hg _).bind fun _ => .finish _ _ _

theorem enumerators_composed : Composed g.policy (enumerators g) := by
  unfold enumerators
  refine .loop (fun done => .ask fun _ => .ite (.pure _) ?_) _
  refine (enumerator_composed hg).bind fun _ => .option fun _ =>
    .ite (.pure _) ?_
  exact .ask fun _ => .ite (.pure _) (.failExpected _)

theorem enumSpecifier_composed : Composed g.policy (enumSpecifier g) := by
  unfold enumSpecifier
  refine .ask fun m => enumHead_composed.seq (.option fun _ =>
    .ite ?_ (.pure _))
  exact (enumerators_composed hg).bind fun _ =>
    .need (.ask fun _ => .pure _)

-- ================================================= simple declarations

omit hg in
theorem declaratorEnd_composed : Composed policy declaratorEnd := by
  unfold declaratorEnd
  exact .ask fun _ => .ite (.pure _) (.failExpected _)

omit hg in
theorem Walk.function_composed (w : Walk) (m : Mark) :
    Composed policy (w.function m) := by
  unfold Walk.function
  exact .ask fun _ => .pure _

theorem punctRound_composed (m : Mark) (w : Walk) (t : Token) :
    Composed g.policy (punctRound g m w t) := by
  unfold punctRound
  refine .ite (.read (.ask fun _ => .pure _)) (.ite ?_ (.ite ?_ (.ite ?_
    (.ite (.read (.pure _)) (.fail _)))))
  · exact (skipGroup_composed _).seq (.pure _)
  · exact (skipGroup_composed _).seq (.pure _)
  · refine .ite ?_ ?_
    · exact (block_composed hg).bind fun _ => Walk.function_composed _ _
    · exact (hg _).bind fun _ => declaratorEnd_composed.seq (.pure _)

theorem operatorRound_composed (m : Mark) (w : Walk) (t : Token) :
    Composed g.policy (operatorRound g m w t) := by
  unfold operatorRound
  have value (isSpecial : Bool) : Composed g.policy (
      if isSpecial then do
        expectPunct ";" "after function declaration"
        w.function m
      else do
        let value ← initializer g
        declaratorEnd
        return w.add value) :=
    .ite (.need (Walk.function_composed _ _))
      ((initializer_composed hg).bind fun _ =>
        declaratorEnd_composed.seq (.pure _))
  refine .ite (.read (.ite ?_ ?_)) (.ite ?_ (.ite ?_ (.ite ?_ (.fail _))))
  · exact .option value
  · exact .ask value
  · exact skipTemplateArguments_composed.seq (.pure _)
  · refine .ite ?_ (.read ?_)
    · exact (constructorInitializer_composed hg).bind fun _ =>
        .ask fun _ => .ite (.pure _) (.failExpected _)
    · exact (hg _).bind fun _ => declaratorEnd_composed.seq (.pure _)
  · exact .read (.pure _)

theorem keywordRound_composed (m : Mark) (w : Walk) (t : Token) :
    Composed g.policy (keywordRound g m w t) := by
  unfold keywordRound
  refine .ite ?_ (.ite ?_ (.ite ?_ (.ite ?_ (.ite ?_ (.ite ?_
    (.ite (.fail _) (.read (.pure _))))))))
  · exact (classSpecifier_composed hg).bind fun _ => .pure _
  · exact (enumSpecifier_composed hg).bind fun _ => .pure _
  · exact operatorFunctionName_composed.seq (.pure _)
  · exact (tryBlock_composed hg).bind fun _ => Walk.function_composed _ _
  · exact requiresClause_composed.seq (.pure _)
  · exact .read (.ask fun _ =>
      .ite ((skipGroup_composed _).seq (.pure _)) (.pure _))

theorem simpleRound_composed (m : Mark) (w : Walk) :
    Composed g.policy (simpleRound g m w) := by
  unfold simpleRound
  refine .ask fun t => ?_
  split
  · exact .failExpected _
  · exact punctRound_composed hg m w t
  · exact operatorRound_composed hg m w t
  · exact keywordRound_composed hg m w t
  · exact .read (.pure _)
  · exact .fail _

theorem simpleDeclaration_composed :
    Composed g.policy (simpleDeclaration g) := by
  unfold simpleDeclaration
  exact .ask fun m => .loop (simpleRound_composed hg m) _

-- ================================================== other declarations

theorem declarationsInBraces_composed (context : String) :
    Composed g.policy (declarationsInBraces g context) := by
  unfold declarationsInBraces
  exact .enclosed (hg _) fun _ => .pure _

theorem namespaceDefinition_composed :
    Composed g.policy (namespaceDefinition g) := by
  unfold namespaceDefinition
  refine .ask fun m => .option fun _ => .read (skipAttributes_composed.seq
    ((Composed.skipWhile _).seq (.option fun _ => .ite ?_ ?_)))
  · exact (skipToSemicolon_composed _).seq (.finish _ _ _)
  · exact skipAttributes_composed.seq (.need
      ((declarationsInBraces_composed hg _).bind fun _ => .finish _ _ _))

omit hg in
theorem usingDeclaration_composed : Composed policy usingDeclaration := by
  unfold usingDeclaration
  have rest (kind : NodeKind) (context : String) (m : Mark) :
      Composed policy (do
        skipToSemicolon context
        finish kind m []) :=
    (skipToSemicolon_composed _).seq (.finish _ _ _)
  refine .ask fun m => .read (.ask fun next => .ask fun _ =>
    .ite (rest _ _ m) (.ask fun _ => .ite ?_ (rest _ _ m)))
  exact .read (skipAttributes_composed.seq (.need (.ask fun _ =>
    .ite (.failExpected _) (rest _ _ m))))

theorem templateDeclaration_composed :
    Composed g.policy (templateDeclaration g) := by
  unfold templateDeclaration
  have template (m : Mark) : Composed g.policy (do
      let declaration ← g.parse .declaration
      finish .templateDeclaration m [declaration]) :=
    (hg _).bind fun _ => .finish _ _ _
  have constrained (m : Mark) : Composed g.policy (do
      if ← check (·.isKeyword "requires") then requiresClause
      let declaration ← g.parse .declaration
      finish .templateDeclaration m [declaration]) :=
    .ask fun _ =>
      .ite (requiresClause_composed.seq (template m)) (template m)
  refine .ask fun m => .read (.ask fun _ => ?_)
  exact .ite (skipTemplateArguments_composed.seq (constrained m))
    (constrained m)

theorem linkageSpecification_composed :
    Composed g.policy (linkageSpecification g) := by
  unfold linkageSpecification
  refine .ask fun m => .read (.read (.option fun _ => .ite ?_ ?_))
  · exact (declarationsInBraces_composed hg _).bind fun _ =>
      .finish _ _ _
  · exact (hg _).bind fun _ => .finish _ _ _

theorem staticAssertion_composed :
    Composed g.policy (staticAssertion g) := by
  unfold staticAssertion
  have close (m : Mark) (children : List Node) : Composed g.policy (do
      expectPunct ")" "after static assertion"
      expectPunct ";" "after static assertion"
      finish .staticAssertDeclaration m children) :=
    .need (.need (.finish _ _ _))
  refine .ask fun m => .read (.need ((hg _).bind fun _ => .option fun _ =>
    .ite ?_ (.ask fun _ => close m _)))
  exact (hg _).bind fun _ => .ask fun _ => close m _

omit hg in
theorem asmDeclaration_composed : Composed policy asmDeclaration := by
  unfold asmDeclaration
  refine .ask fun m => .read ((Composed.skipWhile _).seq (.ask fun _ =>
    .ite ?_ (.failExpected _)))
  exact (skipGroup_composed _).seq (.need (.finish _ _ _))

theorem declaration_composed : Composed g.policy (declaration g) := by
  unfold declaration
  have htemplate := templateDeclaration_composed hg
  refine .ask fun t => .ask fun next => ?_
  refine .ite (.ask fun m => .read (.finish _ _ _))
    (.ite (namespaceDefinition_composed hg)
    (.ite usingDeclaration_composed (.ite htemplate
    (.ite (.read htemplate) ?_))))
  exact .ite (linkageSpecification_composed hg)
    (.ite (staticAssertion_composed hg)
    (.ite asmDeclaration_composed (simpleDeclaration_composed hg)))

end

end FrontEnd.Grammar
