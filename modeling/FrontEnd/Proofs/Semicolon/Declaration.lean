/-
Declarations in front of a semicolon. Classes, enumerations, functions and
whatever else has a body or an argument in brackets give up; what is left
are walks from token to token, each of them up to the semicolon and through
it, if they come that far.
-/
import FrontEnd.Grammar.Declaration
import FrontEnd.Proofs.Semicolon.Expression

namespace FrontEnd.Grammar

variable {S : Stretch} {t u : Token} {g : Inner}

-- ============================================== names and constraints

theorem operatorFunctionName_remains (h : t.isPunct ";" = false) :
    RemainsAt S t u operatorFunctionName := by
  unfold operatorFunctionName
  refine .read h fun t u => .peek (.peekNext ?_)
  refine .ite (fun h => .never (by grind)) fun _ => .ite (fun h => ?_)
    fun _ => .ite (fun h => ?_) fun _ => .ite (fun h => ?_) fun _ =>
    Remains.pure _ _ _
  · exact .last (by grind)
  · refine .read (by grind) fun t u => .check (.peekNext ?_)
    exact .ite (fun h => .never (by grind)) fun _ => Remains.pure _ _ _
  · exact .read (by grind) fun _ _ => .acceptAny (by grind) fun _ =>
      Remains.pure _

theorem constraintName_remains : Remains S constraintName := fun _ _ => by
  unfold constraintName
  have tail : Remains S (do
      if (← check (·.isOperator "::")) && (← peekAt 1).isName then
        advance
        advance
        return .again ()
      else return .done () : Parser (Round Unit Unit)) := fun t u =>
    .check (.peekNext (.ite (fun h => .advance (by grind) fun _ =>
      .read (by grind) (Remains.pure _)) fun _ => Remains.pure _ _ _))
  refine .acceptAny (by grind) fun _ _ _ => .expectName
    (Remains.loop (fun _ t _ => .check
      (.ite (fun h => ?_) fun _ => tail _ _)) _)
  exact (skipTemplateArguments_remains (by grind)).bind fun _ => tail

theorem constraintOperand_remains : Remains S constraintOperand :=
    fun _ _ => by
  unfold constraintOperand
  refine (Remains.skipWhile (by grind) _ _).bind fun _ t _ => .peek ?_
  exact .ite (fun h => .never (by grind)) fun _ =>
    .ite (fun h => .last (by grind)) fun _ => constraintName_remains _ _

theorem requiresClause_remains (h : t.isPunct ";" = false) :
    RemainsAt S t u requiresClause := by
  unfold requiresClause
  refine .read h (Remains.loop (fun _ _ _ =>
    (constraintOperand_remains _ _).bind fun _ _ _ =>
      .acceptAny (by grind) fun _ _ _ => ?_) _)
  exact .ite (fun _ => Remains.pure _ _ _) fun _ => Remains.pure _ _ _

-- =========================================== classes and enumerations

theorem className_remains : Remains S className := fun _ _ => by
  unfold className
  refine (Remains.loop (fun _ t _ => .peek ?_) _ _ _).bind fun _ =>
    Remains.skipWhile (by grind)
  refine .ite (fun h => ?_) fun _ => .ite (fun h => ?_) fun _ =>
    Remains.pure _ _ _
  · exact .read (by grind) (Remains.pure _)
  · exact (skipTemplateArguments_remains (by grind)).bind fun _ =>
      Remains.pure _

/-- The bases of a class go on to the brace that opens its body. -/
theorem baseClause_refuses : Refuses S baseClause := fun _ _ => by
  unfold baseClause
  refine .loop (fun _ t _ => .peek (.ite (fun h => .never (by grind))
    fun _ => ?_)) _
  refine .ite (fun h => .never (by grind)) fun _ => .ite (fun h => ?_)
    fun _ => .ite (fun h => ?_) fun _ => .refused (.failExpected _)
  · exact (skipTemplateArguments_remains (by grind)).bind fun _ _ _ =>
      .pure _ fun _ => id
  · exact .read (by grind) fun _ _ => .pure _ fun _ => id

theorem classSpecifier_remains (h : t.isPunct ";" = false) :
    RemainsAt S t u (classSpecifier g) := by
  unfold classSpecifier
  refine .mark fun m => .read h fun _ _ =>
    (skipAttributes_remains _ _).bind fun _ _ _ =>
      (className_remains _ _).bind fun _ _ _ =>
        .acceptAny (by grind) fun _ t _ => .ite (fun _ => ?_) fun _ => ?_
  · exact .refused (baseClause_refuses _ _)
  · exact .unbracketed (by grind) (Remains.pure _ _ _)

theorem enumHead_remains (h : t.isPunct ";" = false) :
    RemainsAt S t u enumHead := by
  unfold enumHead
  have name : Remains S (do
      skipAttributes
      skipWhile fun t => t.isName || t.isOperator "::"
      if ← accept (·.isOperator ":") then
        skipWhile fun t =>
          t.isName || t.kind == .keyword || t.isOperator "::") :=
    fun _ _ => (skipAttributes_remains _ _).bind fun _ _ _ =>
      (Remains.skipWhile (by grind) _ _).bind fun _ _ _ =>
        .acceptAny (by grind) fun _ _ _ =>
          .ite (fun _ => Remains.skipWhile (by grind) _ _) fun _ =>
            Remains.pure _ _ _
  refine .read h fun _ _ => .acceptAny (by grind) fun _ _ _ =>
    .ite (fun _ => ?_) fun _ => name _ _
  exact .acceptAny (by grind) fun _ => name

theorem enumSpecifier_remains (h : t.isPunct ";" = false) :
    RemainsAt S t u (enumSpecifier g) := by
  unfold enumSpecifier
  exact .mark fun m => (enumHead_remains h).bind fun _ t _ =>
    .acceptBracket (by grind) (Remains.pure _ _ _)

-- ================================================ simple declarations

theorem declaratorEnd_remains : Remains S declaratorEnd := fun _ _ => by
  unfold declaratorEnd
  exact .check (.ite (fun _ => Remains.pure _ _ _) fun _ =>
    .failExpected _)

/-- A declaration goes on in front of the semicolon, or ends behind it. -/
abbrev Walks (S : Stretch) (r : Round Walk Node) (s : State) : Prop :=
  r.Sat (fun _ => S.Holds s) (fun _ => s = S.behind)

theorem walks_again (w : Walk) :
    Halts S t u (Walks S) (pure (.again w) : Parser (Round Walk Node)) :=
  .pure _ fun _ => id

theorem memberInitializer_refuses : Refuses S (memberInitializer g) :=
    fun _ _ => by
  unfold memberInitializer
  exact .mark fun m => (idExpression_remains _ _).bind fun _ t _ =>
    .unbracketed (by grind) (.unbracketed (by grind) (.failExpected _))

theorem constructorInitializer_halts {Q : Node → State → Prop}
    (h : t.isPunct ";" = false) :
    Halts S t u Q (constructorInitializer g) := by
  unfold constructorInitializer
  refine .mark fun m => .read h fun _ _ => .refused ?_
  exact .loop (fun _ _ _ => .refused (.refused
    (memberInitializer_refuses _ _))) _

theorem punctRound_halts (m : Mark) (w : Walk)
    (h : t.kind = .punctuation) :
    Halts S t u (Walks S) (punctRound g m w t) := by
  unfold punctRound
  refine .ite (fun h => .shut (by grind) rfl) fun _ =>
    .ite (fun h => .never (by grind)) fun _ =>
    .ite (fun h => .never (by grind)) fun _ =>
    .ite (fun h => .never (by grind)) fun _ =>
    .ite (fun h => ?_) fun _ => .fail _
  exact .read (by grind) fun _ _ => walks_again _

theorem keywordRound_halts (m : Mark) (w : Walk)
    (h : t.isPunct ";" = false) :
    Halts S t u (Walks S) (keywordRound g m w t) := by
  unfold keywordRound
  have part (part : Option Node) (t u : Token) : Halts S t u (Walks S)
      (pure (w.addSome part)) := by
    cases part <;> exact walks_again _
  refine .ite (fun _ => (classSpecifier_remains h).bind part) fun _ =>
    .ite (fun _ => (enumSpecifier_remains h).bind part) fun _ =>
    .ite (fun _ => ?_) fun _ => .ite (fun _ => ?_) fun _ =>
    .ite (fun _ => ?_) fun _ => .ite (fun _ => ?_) fun _ =>
    .ite (fun _ => .fail _) fun _ => .read h fun _ _ => walks_again _
  · exact (operatorFunctionName_remains h).bind fun _ _ _ => walks_again _
  · exact .refused (tryBlock_halts h)
  · exact (requiresClause_remains h).bind fun _ _ _ => walks_again _
  · exact .read h fun t _ => .unbracketed (by grind) (walks_again _)

-- ================================================== other declarations

/-- A node is finished behind the semicolon. -/
theorem concludes_finish {α : Type} {p : Parser α}
    (h : Halts S t u (fun _ => (· = S.behind)) p) (kind : NodeKind)
    (m : Mark) (children : α → List Node) :
    Halts S t u (fun _ => (· = S.behind))
      (do finish kind m (children (← p))) :=
  h.seq fun _ _ hs => hs

theorem namespaceDefinition_halts (h : t.isPunct ";" = false)
    (hinline : t.isKeyword "inline" = true → u.isPunct ";" = false) :
    Halts S t u (fun _ => (· = S.behind)) (namespaceDefinition g) := by
  unfold namespaceDefinition
  have rest (m : Mark) : Concludes S (do
      skipAttributes
      skipWhile fun t =>
        t.isName || t.isOperator "::" || t.isKeyword "inline"
      if ← accept (·.isOperator "=") then
        skipToSemicolon "after namespace alias"
        finish .namespaceAlias m []
      else
        skipAttributes
        expectPunct "\x7b" "after namespace name"
        let items ← declarationsInBraces g "after namespace body"
        finish .namespaceDefinition m items) := fun _ _ => by
    refine (skipAttributes_remains _ _).bind fun _ _ _ =>
      (Remains.skipWhile (by grind) _ _).bind fun _ _ _ =>
        .acceptAny (by grind) fun _ _ _ => .ite (fun _ => ?_) fun _ => ?_
    · exact concludes_finish (skipToSemicolon_concludes _ _ _) _ _ _
    · exact (skipAttributes_remains _ _).bind fun _ _ _ =>
        .expectBracket (by grind)
  exact .mark fun m => .accept (by grind)
    (fun hyes _ => .read (hinline hyes) (rest m)) fun _ => .read h (rest m)

theorem usingDeclaration_halts (h : t.isPunct ";" = false) :
    Halts S t u (fun _ => (· = S.behind)) usingDeclaration := by
  unfold usingDeclaration
  have toEnd (kind : NodeKind) (m : Mark) (context : String) :
      Concludes S (do skipToSemicolon context; finish kind m []) :=
    fun _ _ => concludes_finish (skipToSemicolon_concludes _ _ _) _ _ _
  refine .mark fun m => .read h fun t u => .peekNext (.check
    (.ite (fun _ => toEnd _ m _ _ _) fun _ => .check
      (.ite (fun h => ?_) fun _ => toEnd _ m _ _ _)))
  exact .read (by grind) fun _ _ =>
    (skipAttributes_remains _ _).bind fun _ _ _ =>
      .expectOperator fun _ _ => .check (.ite (fun _ => .failExpected _)
        fun _ => toEnd _ m _ _ _)

theorem staticAssertion_halts {Q : Node → State → Prop}
    (h : t.isPunct ";" = false) : Halts S t u Q (staticAssertion g) := by
  unfold staticAssertion
  exact .mark fun m => .read h fun _ _ => .expectBracket (by grind)

theorem asmDeclaration_halts {Q : Node → State → Prop}
    (h : t.isPunct ";" = false) : Halts S t u Q asmDeclaration := by
  unfold asmDeclaration
  exact .mark fun m => .read h fun _ _ =>
    (Remains.skipWhile (by grind) _ _).bind fun _ t _ =>
      .unbracketed (by grind) (.failExpected _)

-- ============================================ rules that contain others

section

variable (hg : g.Stops S)
include hg

theorem operatorRound_halts (m : Mark) (w : Walk)
    (h : t.isPunct ";" = false) :
    Halts S t u (Walks S) (operatorRound g m w t) := by
  unfold operatorRound
  have value (t u : Token) : Halts S t u (Walks S) (do
      let value ← initializer g
      declaratorEnd
      return w.add value) :=
    (initializer_remains hg _ _).bind fun _ _ _ =>
      (declaratorEnd_remains _ _).bind fun _ _ _ => walks_again _
  have special (isSpecial : Bool) (t u : Token) : Halts S t u (Walks S) (do
      if isSpecial then
        expectPunct ";" "after function declaration"
        w.function m
      else
        let value ← initializer g
        declaratorEnd
        return w.add value) :=
    .ite (fun _ => .expect fun h => .shut h rfl) fun _ => value _ _
  refine .ite (fun _ => ?_) fun _ => .ite (fun _ => ?_) fun _ =>
    .ite (fun _ => .ite (fun _ => ?_) fun _ => ?_) fun _ =>
    .ite (fun _ => ?_) fun _ => .fail _
  · refine .read h fun _ _ => .ite (fun _ => ?_) fun _ => ?_
    · exact .acceptAny (by grind) special
    · exact (Remains.pure _ _ _).bind special
  · exact (skipTemplateArguments_remains h).bind fun _ _ _ =>
      walks_again _
  · exact .refused (constructorInitializer_halts h)
  · exact .read h fun _ _ => (hg.conditional _ _).bind fun _ _ _ =>
      (declaratorEnd_remains _ _).bind fun _ _ _ => walks_again _
  · exact .read h fun _ _ => walks_again _

theorem simpleRound_halts (m : Mark) (w : Walk) :
    Halts S t u (Walks S) (simpleRound g m w) := by
  unfold simpleRound
  refine .peek ?_
  cases hkind : t.kind with
  | endOfFile => exact .failExpected _
  | punctuation => exact punctRound_halts m w hkind
  | operator => exact operatorRound_halts hg m w (by grind)
  | keyword => exact keywordRound_halts m w (by grind)
  | identifier => exact .read (by grind) fun _ _ => walks_again _
  | _ => exact .fail _

theorem simpleDeclaration_concludes : Concludes S (simpleDeclaration g) :=
    fun _ _ => by
  unfold simpleDeclaration
  exact .mark fun m => .loop (fun w _ _ => simpleRound_halts hg m w) _

theorem templateDeclaration_halts (h : t.isPunct ";" = false) :
    Halts S t u (fun _ => (· = S.behind)) (templateDeclaration g) := by
  unfold templateDeclaration
  have declared (m : Mark) : Concludes S (do
      let declaration ← g.parse .declaration
      finish .templateDeclaration m [declaration]) := fun _ _ =>
    concludes_finish (hg.declaration _ _) _ _ fun n => [n]
  have constrained (m : Mark) : Concludes S (do
      if ← check (·.isKeyword "requires") then requiresClause
      let declaration ← g.parse .declaration
      finish .templateDeclaration m [declaration]) := fun t _ =>
    .check (.ite (fun h => (requiresClause_remains (by grind)).bind
      fun _ => declared m) fun _ => declared m _ _)
  refine .mark fun m => .read h fun t _ =>
    .check (.ite (fun h => ?_) fun _ => constrained m _ _)
  exact (skipTemplateArguments_remains (by grind)).bind fun _ =>
    constrained m

theorem linkageSpecification_halts (h : t.isPunct ";" = false)
    (hnext : u.isPunct ";" = false) :
    Halts S t u (fun _ => (· = S.behind)) (linkageSpecification g) := by
  unfold linkageSpecification
  refine .mark fun m => .advance h fun _ => .read hnext fun t _ =>
    .acceptBracket (by grind) ?_
  exact concludes_finish (hg.declaration _ _) _ _ fun n => [n]

theorem declaration_concludes : Concludes S (declaration g) :=
    fun t u => by
  unfold declaration
  refine .peek (.peekNext ?_)
  refine .ite (fun h => .mark fun m => .shut h rfl) fun _ =>
    .ite (fun h => ?_) fun _ => .ite (fun h => ?_) fun _ =>
    .ite (fun h => ?_) fun _ => .ite (fun h => ?_) fun _ =>
    .ite (fun h => ?_) fun _ => .ite (fun h => ?_) fun _ =>
    .ite (fun h => ?_) fun _ => simpleDeclaration_concludes hg _ _
  · exact namespaceDefinition_halts (by grind) (by grind)
  · exact usingDeclaration_halts (by grind)
  · exact templateDeclaration_halts hg (by grind)
  · exact .advance (by grind) fun _ =>
      templateDeclaration_halts hg (by grind)
  · exact linkageSpecification_halts hg (by grind) (by grind)
  · exact staticAssertion_halts (by grind)
  · exact asmDeclaration_halts (by grind)

end

-- ================================================================ levels

/-- The rules of every level stay in front of the semicolon, but for those
that end with it. -/
theorem parse_stops (policy : Policy) (room nesting : Nat) :
    Inner.Stops S ⟨policy, room, parse policy nesting⟩ := by
  induction nesting generalizing room with
  | zero => exact ⟨fun _ _ => .fail _, fun _ _ => .fail _, fun _ _ => .fail _,
      fun _ _ => .fail _⟩
  | succ nesting ih =>
    have hg := ih nesting
    exact ⟨declaration_concludes hg, rightGrouped_remains hg true,
      rightGrouped_remains hg false, castExpression_remains hg⟩

theorem parse_concludes (policy : Policy) (nesting : Nat) :
    Concludes S (parse policy nesting .declaration) :=
  (parse_stops policy 0 nesting).declaration

end FrontEnd.Grammar
