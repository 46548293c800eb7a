/-
Declarations in front of a closing brace. A class or an enumeration that
begins there has no body, and neither has a function; what is left are
walks from token to token.
-/
import FrontEnd.Grammar.Declaration
import FrontEnd.Proofs.Fence.Expression

namespace FrontEnd.Grammar

variable {F : Fence} {t u : Token} {g : Inner}

-- ============================================== names and constraints

theorem operatorFunctionName_keeps (h : t.isPunct "\x7d" = false) :
    Keeps F t u operatorFunctionName := by
  unfold operatorFunctionName
  refine .read h fun t u => .peek (.peekNext ?_)
  refine .ite (fun h => ?_) fun _ => .ite (fun h => ?_) fun _ =>
    .ite (fun h => ?_) fun _ => .ite (fun h => ?_) fun _ => .pure _
  · exact .advance (by grind) fun _ _ => .last (by grind)
  · exact .last (by grind)
  · refine .read (by grind) fun t u => .check (.peekNext ?_)
    refine .ite (fun h => ?_) fun _ => .pure _
    exact .advance (by grind) fun _ _ => .last (by grind)
  · exact .read (by grind) fun _ _ => .acceptAny (by grind) fun _ _ _ =>
      .pure _

theorem constraintName_stays : Stays F constraintName := fun _ _ => by
  unfold constraintName
  have tail : Stays F (do
      if (← check (·.isOperator "::")) && (← peekAt 1).isName then
        advance
        advance
        return .again ()
      else return .done () : Parser (Round Unit Unit)) := fun t u =>
    .check (.peekNext (.ite (fun h => .advance (by grind) fun _ _ =>
      .read (by grind) fun _ _ => .pure _) fun _ => .pure _))
  refine .acceptAny (by grind) fun _ _ _ => .expectName fun _ _ =>
    .loop (fun _ t _ => .check (.ite (fun h => ?_) fun _ => tail _ _)) _
  exact (skipTemplateArguments_keeps (by grind)).bind fun _ => tail

theorem constraintOperand_stays : Stays F constraintOperand :=
    fun _ _ => by
  unfold constraintOperand
  refine (Stays.skipWhile (by grind) _ _).bind fun _ t _ => .peek ?_
  refine .ite (fun h => ?_) fun _ => .ite (fun h => ?_) fun _ =>
    constraintName_stays _ _
  · exact skipGroup_keeps _ (by grind)
  · exact .last (by grind)

theorem requiresClause_keeps (h : t.isPunct "\x7d" = false) :
    Keeps F t u requiresClause := by
  unfold requiresClause
  refine .read h fun _ _ => .loop (fun _ _ _ =>
    (constraintOperand_stays _ _).bind fun _ _ _ =>
      .acceptAny (by grind) fun _ _ _ => ?_) _
  exact .ite (fun _ => .pure _) fun _ => .pure _

-- =========================================== classes and enumerations

theorem className_stays : Stays F className := fun _ _ => by
  unfold className
  refine Keeps.bind (.loop (fun _ t _ => .peek ?_) _) fun _ =>
    Stays.skipWhile (by grind)
  refine .ite (fun h => ?_) fun _ => .ite (fun h => ?_) fun _ => .pure _
  · exact .read (by grind) fun _ _ => .pure _
  · exact (skipTemplateArguments_keeps (by grind)).bind fun _ _ _ =>
      .pure _

theorem baseClause_stays : Stays F baseClause := fun _ _ => by
  unfold baseClause
  refine .loop (fun _ t _ => .peek (.ite (fun _ => .pure _) fun _ => ?_)) _
  refine .ite (fun h => ?_) fun _ => .ite (fun h => ?_) fun _ =>
    .ite (fun h => ?_) fun _ => ?_
  · exact .group (by grind) fun _ _ => .pure _
  · exact (skipTemplateArguments_keeps (by grind)).bind fun _ _ _ =>
      .pure _
  · exact .read (by grind) fun _ _ => .pure _
  · exact Keeps.bind (.failExpected _) fun _ _ _ => .pure _

theorem classBody_stays (m : Mark) : Stays F (classBody g m) :=
    fun _ _ => by
  unfold classBody
  exact .expectOpen

theorem classSpecifier_keeps (h : t.isPunct "\x7d" = false) :
    Keeps F t u (classSpecifier g) := by
  unfold classSpecifier
  refine .mark fun m => .read h fun _ _ =>
    (skipAttributes_stays _ _).bind fun _ _ _ =>
      (className_stays _ _).bind fun _ _ _ =>
        .acceptAny (by grind) fun _ t _ => .ite (fun _ => ?_) fun _ => ?_
  · exact (baseClause_stays _ _).bind fun _ _ _ =>
      (classBody_stays m _ _).bind fun _ _ _ => .pure _
  · exact .check (.ite (fun h => .unopened h) fun _ => .pure _)

theorem enumHead_keeps (h : t.isPunct "\x7d" = false) :
    Keeps F t u enumHead := by
  unfold enumHead
  have name : Stays F (do
      skipAttributes
      skipWhile fun t => t.isName || t.isOperator "::"
      if ← accept (·.isOperator ":") then
        skipWhile fun t =>
          t.isName || t.kind == .keyword || t.isOperator "::") :=
    fun _ _ => (skipAttributes_stays _ _).bind fun _ _ _ =>
      (Stays.skipWhile (by grind) _ _).bind fun _ _ _ =>
        .acceptAny (by grind) fun _ _ _ =>
          .ite (fun _ => Stays.skipWhile (by grind) _ _) fun _ => .pure _
  refine .read h fun _ _ => .acceptAny (by grind) fun _ _ _ =>
    .ite (fun _ => ?_) fun _ => name _ _
  exact .acceptAny (by grind) fun _ => name

theorem enumSpecifier_keeps (h : t.isPunct "\x7d" = false) :
    Keeps F t u (enumSpecifier g) := by
  unfold enumSpecifier
  exact .mark fun m => (enumHead_keeps h).bind fun _ _ _ =>
    .acceptOpen (.pure _)

-- ================================================ simple declarations

theorem declaratorEnd_stays : Stays F declaratorEnd := fun _ _ => by
  unfold declaratorEnd
  exact .check (.ite (fun _ => .pure _) fun _ => .failExpected _)

section

variable (hg : g.Stays F)
include hg

theorem memberInitializer_stays : Stays F (memberInitializer g) :=
    fun _ _ => by
  unfold memberInitializer
  refine .mark fun m => (idExpression_stays _ _).bind fun _ t _ =>
    .check (.ite (fun h => ?_) fun _ => .check (.ite (fun h => .unopened h)
      fun _ => .failExpected _))
  exact (arguments_keeps hg (by grind)).bind fun _ _ _ => .finish _ _ _

theorem constructorInitializer_keeps (h : t.isPunct "\x7d" = false) :
    Keeps F t u (constructorInitializer g) := by
  unfold constructorInitializer
  refine .mark fun m => .read h fun _ _ =>
    (Stays.commaSeparated (fun _ _ => ?_) _ _).bind fun _ _ _ =>
      .finish _ _ _
  exact (memberInitializer_stays hg _ _).bind fun _ _ _ =>
    .acceptAny (by grind) fun _ _ _ => .pure _

omit hg in
theorem punctRound_keeps (m : Mark) (w : Walk)
    (h : t.kind = .punctuation) : Keeps F t u (punctRound g m w t) := by
  unfold punctRound
  refine .ite (fun h => ?_) fun _ => .ite (fun h => ?_) fun _ =>
    .ite (fun h => ?_) fun _ => .ite (fun h => ?_) fun _ =>
    .ite (fun h => ?_) fun _ => .fail _
  · exact .read (by grind) fun _ _ => .node fun _ => .pure _
  · exact .group (by grind) fun _ _ => .pure _
  · exact .group (by grind) fun _ _ => .pure _
  · exact .unopened (by grind)
  · exact .read (by grind) fun _ _ => .pure _

theorem operatorRound_keeps (m : Mark) (w : Walk)
    (h : t.isPunct "\x7d" = false) :
    Keeps F t u (operatorRound g m w t) := by
  unfold operatorRound
  have value : Stays F (do
      let value ← initializer g
      declaratorEnd
      return w.add value : Parser (Round Walk Node)) := fun _ _ =>
    (initializer_stays hg _ _).bind fun _ _ _ =>
      (declaratorEnd_stays _ _).bind fun _ _ _ => .pure _
  have special (isSpecial : Bool) : Stays F (do
      if isSpecial then
        expectPunct ";" "after function declaration"
        w.function m
      else
        let value ← initializer g
        declaratorEnd
        return w.add value : Parser (Round Walk Node)) := fun _ _ =>
    .ite (fun _ => .expectPunct (by decide) fun _ _ => .node fun _ =>
      .pure _) fun _ => value _ _
  refine .ite (fun _ => ?_) fun _ => .ite (fun _ => ?_) fun _ =>
    .ite (fun _ => .ite (fun _ => ?_) fun _ => ?_) fun _ =>
    .ite (fun _ => ?_) fun _ => .fail _
  · refine .read h fun _ _ => .ite (fun _ => ?_) fun _ => ?_
    · exact .acceptAny (by grind) special
    · exact Keeps.bind (.pure _) special
  · exact (skipTemplateArguments_keeps h).bind fun _ _ _ => .pure _
  · exact (constructorInitializer_keeps hg h).bind fun _ _ _ => .check
      (.ite (fun _ => .pure _) fun _ => .failExpected _)
  · exact .read h fun _ _ => (hg _ _ _).bind fun _ _ _ =>
      (declaratorEnd_stays _ _).bind fun _ _ _ => .pure _
  · exact .read h fun _ _ => .pure _

omit hg in
theorem keywordRound_keeps (m : Mark) (w : Walk)
    (h : t.isPunct "\x7d" = false) :
    Keeps F t u (keywordRound g m w t) := by
  unfold keywordRound
  refine .ite (fun _ => ?_) fun _ => .ite (fun _ => ?_) fun _ =>
    .ite (fun _ => ?_) fun _ => .ite (fun _ => ?_) fun _ =>
    .ite (fun _ => ?_) fun _ => .ite (fun _ => ?_) fun _ =>
    .ite (fun _ => .fail _) fun _ => .read h fun _ _ => .pure _
  · exact (classSpecifier_keeps h).bind fun _ _ _ => .pure _
  · exact (enumSpecifier_keeps h).bind fun _ _ _ => .pure _
  · exact (operatorFunctionName_keeps h).bind fun _ _ _ => .pure _
  · exact (tryBlock_keeps h).bind fun _ _ _ => .node fun _ => .pure _
  · exact (requiresClause_keeps h).bind fun _ _ _ => .pure _
  · refine .read h fun t _ => .check (.ite (fun h => ?_) fun _ => .pure _)
    exact .group (by grind) fun _ _ => .pure _

theorem simpleRound_stays (m : Mark) (w : Walk) :
    Stays F (simpleRound g m w) := fun t u => by
  unfold simpleRound
  refine .peek ?_
  cases hkind : t.kind with
  | endOfFile => exact .failExpected _
  | punctuation => exact punctRound_keeps m w hkind
  | operator => exact operatorRound_keeps hg m w (by grind)
  | keyword => exact keywordRound_keeps m w (by grind)
  | identifier => exact .read (by grind) fun _ _ => .pure _
  | _ => exact .fail _

theorem simpleDeclaration_stays : Stays F (simpleDeclaration g) :=
    fun _ _ => by
  unfold simpleDeclaration
  exact .mark fun m => .loop (simpleRound_stays hg m) _

-- ================================================== other declarations

omit hg in
theorem namespaceDefinition_keeps (h : t.isPunct "\x7d" = false)
    (hinline : t.isKeyword "inline" = true → u.isPunct "\x7d" = false) :
    Keeps F t u (namespaceDefinition g) := by
  unfold namespaceDefinition
  have rest (m : Mark) : Stays F (do
      skipAttributes
      skipWhile fun t =>
        t.isName || t.isOperator "::" || t.isKeyword "inline"
      if ← accept (·.isOperator "=") then
        skipToSemicolon "after namespace alias"
        finish .namespaceAlias m []
      else
        skipAttributes
        expectPunct "\x7b" "after namespace name"
        let items ← declarationsInBraces g "after namespace body"
        finish .namespaceDefinition m items) := fun _ _ => by
    refine (skipAttributes_stays _ _).bind fun _ _ _ =>
      (Stays.skipWhile (by grind) _ _).bind fun _ _ _ =>
        .acceptAny (by grind) fun _ _ _ => .ite (fun _ => ?_) fun _ => ?_
    · exact (skipToSemicolon_stays _ _ _).bind fun _ _ _ => .finish _ _ _
    · exact (skipAttributes_stays _ _).bind fun _ _ _ => .expectOpen
  exact .mark fun m => .accept (by grind)
    (fun hyes _ _ => .read (hinline hyes) (rest m))
    fun _ => .read h (rest m)

omit hg in
theorem usingDeclaration_keeps (h : t.isPunct "\x7d" = false) :
    Keeps F t u usingDeclaration := by
  unfold usingDeclaration
  refine .mark fun m => .read h fun t u => .peekNext (.check
    (.ite (fun _ => ?_) fun _ => .check (.ite (fun h => ?_) fun _ => ?_)))
  · exact (skipToSemicolon_stays _ _ _).bind fun _ _ _ => .finish _ _ _
  · refine .read (by grind) fun _ _ =>
      (skipAttributes_stays _ _).bind fun _ _ _ =>
        .expectOperator fun _ _ => .check (.ite (fun _ => .failExpected _)
          fun _ => ?_)
    exact (skipToSemicolon_stays _ _ _).bind fun _ _ _ => .finish _ _ _
  · exact (skipToSemicolon_stays _ _ _).bind fun _ _ _ => .finish _ _ _

theorem templateDeclaration_keeps (h : t.isPunct "\x7d" = false) :
    Keeps F t u (templateDeclaration g) := by
  unfold templateDeclaration
  have declared (m : Mark) : Stays F (do
      let declaration ← g.parse .declaration
      finish .templateDeclaration m [declaration]) := fun _ _ =>
    (hg _ _ _).bind fun _ _ _ => .finish _ _ _
  have constrained (m : Mark) : Stays F (do
      if ← check (·.isKeyword "requires") then requiresClause
      let declaration ← g.parse .declaration
      finish .templateDeclaration m [declaration]) := fun t _ =>
    .check (.ite (fun h => (requiresClause_keeps (by grind)).bind fun _ =>
      declared m) fun _ => declared m _ _)
  refine .mark fun m => .read h fun t _ =>
    .check (.ite (fun h => ?_) fun _ => constrained m _ _)
  exact (skipTemplateArguments_keeps (by grind)).bind fun _ => constrained m

theorem linkageSpecification_keeps (h : t.isPunct "\x7d" = false)
    (hnext : u.isPunct "\x7d" = false) :
    Keeps F t u (linkageSpecification g) := by
  unfold linkageSpecification
  exact .mark fun m => .advance h fun _ _ => .read hnext fun _ _ =>
    .acceptOpen ((hg _ _ _).bind fun _ _ _ => .finish _ _ _)

theorem staticAssertion_keeps (h : t.isPunct "\x7d" = false) :
    Keeps F t u (staticAssertion g) := by
  unfold staticAssertion
  have close (m : Mark) (children : List Node) : Stays F (do
      expectPunct ")" "after static assertion"
      expectPunct ";" "after static assertion"
      finish .staticAssertDeclaration m children) :=
    .closing (by decide) <| .closing (by decide) fun _ _ => .finish _ _ _
  refine .mark fun m => .read h fun _ _ => .expectPunct (by decide)
    fun _ _ => (hg _ _ _).bind fun _ _ _ => .acceptAny (by grind)
      fun _ _ _ => .ite (fun _ => ?_) fun _ => close m _ _ _
  exact (hg _ _ _).bind fun _ => close m _

omit hg in
theorem asmDeclaration_keeps (h : t.isPunct "\x7d" = false) :
    Keeps F t u asmDeclaration := by
  unfold asmDeclaration
  refine .mark fun m => .read h fun _ _ =>
    (Stays.skipWhile (by grind) _ _).bind fun _ t _ =>
      .check (.ite (fun h => ?_) fun _ => .failExpected _)
  exact .group (by grind) fun _ _ => .expectPunct (by decide) fun _ _ =>
    .finish _ _ _

theorem declaration_stays : Stays F (declaration g) := fun t u => by
  unfold declaration
  refine .peek (.peekNext ?_)
  refine .ite (fun h => ?_) fun _ => .ite (fun h => ?_) fun _ =>
    .ite (fun h => ?_) fun _ => .ite (fun h => ?_) fun _ =>
    .ite (fun h => ?_) fun _ => .ite (fun h => ?_) fun _ =>
    .ite (fun h => ?_) fun _ => .ite (fun h => ?_) fun _ =>
    simpleDeclaration_stays hg _ _
  · exact .mark fun m => .read (by grind) fun _ _ => .finish _ _ _
  · exact namespaceDefinition_keeps (by grind) (by grind)
  · exact usingDeclaration_keeps (by grind)
  · exact templateDeclaration_keeps hg (by grind)
  · exact .advance (by grind) fun _ _ =>
      templateDeclaration_keeps hg (by grind)
  · exact linkageSpecification_keeps hg (by grind) (by grind)
  · exact staticAssertion_keeps hg (by grind)
  · exact asmDeclaration_keeps (by grind)

end

end FrontEnd.Grammar
