/-
Declarations leave as many groups open as they find. Classes, enumerations
and functions are read with what their braces enclose; the rest is a walk
from token to token, on which every bracket begins a group that is passed
over or read to its end.
-/
import FrontEnd.Proofs.Course.Declaration
import FrontEnd.Proofs.Level.Expression

namespace FrontEnd.Grammar

open Lockstep (advance_depth)

variable {tokens : List Token} {t u : Token} {g : Inner}

-- ============================================== names and constraints

theorem operatorFunctionName_closes (h : t.isBracket = false) :
    Closes tokens 0 t u operatorFunctionName := by
  unfold operatorFunctionName
  refine .read h fun t u => .peek (.peekNext ?_)
  refine .ite (fun h => ?_) fun _ => .ite (fun h => ?_) fun _ =>
    .ite (fun h => ?_) fun _ => .ite (fun h => ?_) fun _ => .pure _
  · exact .pair (by grind) (by grind)
  · exact .last (by grind)
  · refine .read (by grind) fun t u => .check (.peekNext ?_)
    refine .ite (fun h => ?_) fun _ => .pure _
    exact .pair (by grind) (by grind)
  · exact .read (by grind) fun _ _ => .acceptAny (by grind) fun _ _ _ =>
      .pure _

theorem constraintName_level : Level tokens constraintName := fun _ _ => by
  unfold constraintName
  have tail : Level tokens (do
      if (← check (·.isOperator "::")) && (← peekAt 1).isName then
        advance
        advance
        return .again ()
      else return .done () : Parser (Round Unit Unit)) := fun t u =>
    .check (.peekNext (.ite (fun h => .advance (by grind) (by grind)
      fun _ => .read (by grind) fun _ _ => .pure _) fun _ => .pure _))
  refine .acceptAny (by grind) fun _ _ _ => .expectName fun _ _ =>
    .loop (fun _ t _ => .check (.ite (fun h => ?_) fun _ => tail _ _)) _
  exact (skipTemplateArguments_closes (by grind)).bind fun _ => tail

theorem constraintOperand_level : Level tokens constraintOperand :=
    fun _ _ => by
  unfold constraintOperand
  refine (Level.skipWhile (by grind) _ _).bind fun _ t _ => .peek ?_
  refine .ite (fun h => ?_) fun _ => .ite (fun h => ?_) fun _ =>
    constraintName_level _ _
  · exact skipGroup_closes _ (by grind)
  · exact .last (by grind)

theorem requiresClause_closes (h : t.isBracket = false) :
    Closes tokens 0 t u requiresClause := by
  unfold requiresClause
  refine .read h fun _ _ => .loop (fun _ _ _ =>
    (constraintOperand_level _ _).bind fun _ _ _ =>
      .acceptAny (by grind) fun _ _ _ => ?_) _
  exact .ite (fun _ => .pure _) fun _ => .pure _

-- =========================================== classes and enumerations

theorem className_level : Level tokens className := fun _ _ => by
  unfold className
  refine Closes.bind (.loop (fun _ t _ => .peek ?_) _) fun _ =>
    Level.skipWhile (by grind)
  refine .ite (fun h => ?_) fun _ => .ite (fun h => ?_) fun _ => .pure _
  · exact .read (by grind) fun _ _ => .pure _
  · exact (skipTemplateArguments_closes (by grind)).bind fun _ _ _ =>
      .pure _

theorem baseClause_level : Level tokens baseClause := fun _ _ => by
  unfold baseClause
  refine .loop (fun _ t _ => .peek (.ite (fun _ => .pure _) fun _ => ?_)) _
  refine .ite (fun h => ?_) fun _ => .ite (fun h => ?_) fun _ =>
    .ite (fun h => ?_) fun _ => ?_
  · exact .group (by grind) fun _ _ => .pure _
  · exact (skipTemplateArguments_closes (by grind)).bind fun _ _ _ =>
      .pure _
  · exact .read (by grind) fun _ _ => .pure _
  · exact Closes.bind (.failExpected _) fun _ _ _ => .pure _

/-- Tokens that are no brackets are read. -/
theorem skip_plain (n : Nat) {s : State} (hs : s.Along tokens)
    (h : ∀ i < n, (tokenAt i s.rest).isBracket = false
      ∧ (tokenAt i s.rest).isEnd = false) :
    ∃ s', skip n s = .ok () s' ∧ s'.Along tokens ∧ s'.depth = s.depth := by
  induction n generalizing s with
  | zero => exact ⟨s, rfl, hs, rfl⟩
  | succ n ih =>
    obtain ⟨hplain, hend⟩ := h 0 (Nat.succ_pos n)
    rw [← s.peek_eq_tokenAt] at hplain hend
    have hdepth : s.advance.depth = s.depth :=
      (advance_depth s).trans (depthAfter_of_not_bracket hplain _)
    have hnext (i : Nat) :
        tokenAt i s.advance.rest = tokenAt (i + 1) s.rest := by
      rw [tokenAt_succ, s.advance_of_not_end hend]
    obtain ⟨s', hskip, hs', hsame⟩ := ih hs.advance fun i hi => by
      rw [hnext]
      exact h (i + 1) (Nat.succ_lt_succ hi)
    exact ⟨s', hskip, hs', hsame.trans hdepth⟩

section

variable (hg : g.Level tokens)
include hg

/-- A label is read without a look at its tokens, none of which is a
bracket. -/
theorem memberDeclaration_level : Level tokens (memberDeclaration g) :=
    fun t u => by
  constructor
  intro s depth hs hdepth ht hu
  unfold memberDeclaration
  cases hlabel : memberLabel s.rest with
  | some length =>
    obtain ⟨s', hskip, hs', hsame⟩ :=
      skip_plain length hs (memberLabel_plain hlabel)
    dsimp only
    rw [bind_eq]
    dsimp only [mark]
    rw [bind_eq, hskip]
    exact ⟨hs', hsame.trans hdepth⟩
  | none => exact (hg.level _ t u).leaves hs hdepth ht hu

theorem classBody_level (m : Mark) : Level tokens (classBody g m) :=
    fun _ _ => by
  unfold classBody
  refine .expectOpen (by decide) fun _ _ => ?_
  exact .enclosed (memberDeclaration_level hg)
    (fun _ => memberDeclaration_yields hg.sound) fun _ _ _ => .finish _ _ _

theorem classSpecifier_closes (h : t.isBracket = false) :
    Closes tokens 0 t u (classSpecifier g) := by
  unfold classSpecifier
  refine .mark fun m => .read h fun _ _ =>
    (skipAttributes_level _ _).bind fun _ _ _ =>
      (className_level _ _).bind fun _ _ _ =>
        .acceptAny (by grind) fun _ t _ => .ite (fun _ => ?_) fun _ => ?_
  · exact (baseClause_level _ _).bind fun _ _ _ =>
      (classBody_level hg m _ _).bind fun _ _ _ => .pure _
  · refine .check (.ite (fun _ => ?_) fun _ => .pure _)
    exact (classBody_level hg m _ _).bind fun _ _ _ => .pure _

theorem enumerator_level : Level tokens (enumerator g) := fun _ _ => by
  unfold enumerator
  refine .mark fun m => .expectName fun _ _ =>
    (skipAttributes_level _ _).bind fun _ _ _ =>
      .acceptAny (by grind) fun _ _ _ => .ite (fun _ => ?_) fun _ =>
        .finish _ _ _
  exact (hg.level _ _ _).bind fun _ _ _ => .finish _ _ _

theorem enumerators_level : Level tokens (enumerators g) := fun _ _ => by
  unfold enumerators
  refine .loop (fun done _ _ => .check (.ite (fun _ => .pure _)
    fun _ => ?_)) _
  refine (enumerator_level hg _ _).bind fun _ _ _ =>
    .acceptAny (by grind) fun _ _ _ => .ite (fun _ => .pure _) fun _ => ?_
  exact .check (.ite (fun _ => .pure _) fun _ => .failExpected _)

omit hg in
theorem enumHead_closes (h : t.isBracket = false) :
    Closes tokens 0 t u enumHead := by
  unfold enumHead
  have name : Level tokens (do
      skipAttributes
      skipWhile fun t => t.isName || t.isOperator "::"
      if ← accept (·.isOperator ":") then
        skipWhile fun t =>
          t.isName || t.kind == .keyword || t.isOperator "::") :=
    fun _ _ => (skipAttributes_level _ _).bind fun _ _ _ =>
      (Level.skipWhile (by grind) _ _).bind fun _ _ _ =>
        .acceptAny (by grind) fun _ _ _ =>
          .ite (fun _ => Level.skipWhile (by grind) _ _) fun _ => .pure _
  refine .read h fun _ _ => .acceptAny (by grind) fun _ _ _ =>
    .ite (fun _ => ?_) fun _ => name _ _
  exact .acceptAny (by grind) fun _ => name

theorem enumSpecifier_closes (h : t.isBracket = false) :
    Closes tokens 0 t u (enumSpecifier g) := by
  unfold enumSpecifier
  refine .mark fun m => (enumHead_closes h).bind fun _ _ _ =>
    .acceptOpen (by grind) (fun _ _ => ?_) (.pure _)
  exact (enumerators_level hg _ _).bind fun _ _ _ =>
    .expectClose (by decide) fun _ _ => .node fun _ => .pure _

-- ================================================ simple declarations

omit hg in
theorem declaratorEnd_level : Level tokens declaratorEnd := fun _ _ => by
  unfold declaratorEnd
  exact .check (.ite (fun _ => .pure _) fun _ => .failExpected _)

theorem memberInitializer_level : Level tokens (memberInitializer g) :=
    fun _ _ => by
  unfold memberInitializer
  refine .mark fun m => (idExpression_level _ _).bind fun _ t _ =>
    .check (.ite (fun h => ?_) fun _ => .check (.ite (fun _ => ?_)
      fun _ => .failExpected _))
  · exact (arguments_closes hg h).bind fun _ _ _ => .finish _ _ _
  · exact (hg.level _ _ _).bind fun _ _ _ => .finish _ _ _

theorem constructorInitializer_closes (h : t.isBracket = false) :
    Closes tokens 0 t u (constructorInitializer g) := by
  unfold constructorInitializer
  refine .mark fun m => .read h fun _ _ =>
    (Level.commaSeparated (fun _ _ => ?_) _ _).bind fun _ _ _ =>
      .finish _ _ _
  exact (memberInitializer_level hg _ _).bind fun _ _ _ =>
    .acceptAny (by grind) fun _ _ _ => .pure _

theorem punctRound_closes (m : Mark) (w : Walk)
    (h : t.kind = .punctuation) :
    Closes tokens 0 t u (punctRound g m w t) := by
  unfold punctRound
  refine .ite (fun h => ?_) fun _ => .ite (fun h => ?_) fun _ =>
    .ite (fun h => ?_) fun _ => .ite (fun h => .ite (fun _ => ?_)
      fun _ => ?_) fun _ => .ite (fun h => ?_) fun _ => .fail _
  · exact .read (by grind) fun _ _ => .node fun _ => .pure _
  · exact .group (by grind) fun _ _ => .pure _
  · exact .group (by grind) fun _ _ => .pure _
  · exact (block_level hg _ _).bind fun _ _ _ => .node fun _ => .pure _
  · exact (hg.level _ _ _).bind fun _ _ _ =>
      (declaratorEnd_level _ _).bind fun _ _ _ => .pure _
  · exact .read (by grind) fun _ _ => .pure _

theorem operatorRound_closes (m : Mark) (w : Walk)
    (h : t.isBracket = false) :
    Closes tokens 0 t u (operatorRound g m w t) := by
  unfold operatorRound
  have value : Level tokens (do
      let value ← initializer g
      declaratorEnd
      return w.add value : Parser (Round Walk Node)) := fun _ _ =>
    (initializer_level hg _ _).bind fun _ _ _ =>
      (declaratorEnd_level _ _).bind fun _ _ _ => .pure _
  have special (isSpecial : Bool) : Level tokens (do
      if isSpecial then
        expectPunct ";" "after function declaration"
        w.function m
      else
        let value ← initializer g
        declaratorEnd
        return w.add value : Parser (Round Walk Node)) := fun _ _ =>
    .ite (fun _ => .expectSemicolon fun _ _ => .node fun _ => .pure _)
      fun _ => value _ _
  refine .ite (fun _ => ?_) fun _ => .ite (fun _ => ?_) fun _ =>
    .ite (fun _ => .ite (fun _ => ?_) fun _ => ?_) fun _ =>
    .ite (fun _ => ?_) fun _ => .fail _
  · refine .read h fun _ _ => .ite (fun _ => ?_) fun _ => ?_
    · exact .acceptAny (by grind) special
    · exact Closes.bind (.pure _) special
  · exact (skipTemplateArguments_closes h).bind fun _ _ _ => .pure _
  · exact (constructorInitializer_closes hg h).bind fun _ _ _ => .check
      (.ite (fun _ => .pure _) fun _ => .failExpected _)
  · exact .read h fun _ _ => (hg.level _ _ _).bind fun _ _ _ =>
      (declaratorEnd_level _ _).bind fun _ _ _ => .pure _
  · exact .read h fun _ _ => .pure _

theorem keywordRound_closes (m : Mark) (w : Walk)
    (h : t.isBracket = false) :
    Closes tokens 0 t u (keywordRound g m w t) := by
  unfold keywordRound
  refine .ite (fun _ => ?_) fun _ => .ite (fun _ => ?_) fun _ =>
    .ite (fun _ => ?_) fun _ => .ite (fun _ => ?_) fun _ =>
    .ite (fun _ => ?_) fun _ => .ite (fun _ => ?_) fun _ =>
    .ite (fun _ => .fail _) fun _ => .read h fun _ _ => .pure _
  · exact (classSpecifier_closes hg h).bind fun _ _ _ => .pure _
  · exact (enumSpecifier_closes hg h).bind fun _ _ _ => .pure _
  · exact (operatorFunctionName_closes h).bind fun _ _ _ => .pure _
  · exact (tryBlock_closes hg h).bind fun _ _ _ => .node fun _ => .pure _
  · exact (requiresClause_closes h).bind fun _ _ _ => .pure _
  · refine .read h fun t _ => .check (.ite (fun h => ?_) fun _ => .pure _)
    exact .group (by grind) fun _ _ => .pure _

theorem simpleRound_level (m : Mark) (w : Walk) :
    Level tokens (simpleRound g m w) := fun t u => by
  unfold simpleRound
  refine .peek ?_
  cases hkind : t.kind with
  | endOfFile => exact .failExpected _
  | punctuation => exact punctRound_closes hg m w hkind
  | operator => exact operatorRound_closes hg m w (by grind)
  | keyword => exact keywordRound_closes hg m w (by grind)
  | identifier => exact .read (by grind) fun _ _ => .pure _
  | _ => exact .fail _

theorem simpleDeclaration_level : Level tokens (simpleDeclaration g) :=
    fun _ _ => by
  unfold simpleDeclaration
  exact .mark fun m => .loop (simpleRound_level hg m) _

-- ================================================== other declarations

theorem declarationsInBraces_closes (context : String) :
    Closes tokens 1 t u (declarationsInBraces g context) := by
  unfold declarationsInBraces
  exact .enclosed (hg.level _) (hg.sound _) fun _ _ _ => .pure _

theorem namespaceDefinition_closes (h : t.isBracket = false)
    (hinline : t.isKeyword "inline" = true → u.isBracket = false) :
    Closes tokens 0 t u (namespaceDefinition g) := by
  unfold namespaceDefinition
  have rest (m : Mark) : Level tokens (do
      skipAttributes
      skipWhile fun t =>
        t.isName || t.isOperator "::" || t.isKeyword "inline"
      if ← accept (·.isOperator "=") then
        skipToSemicolon "after namespace alias"
        finish .namespaceAlias m []
      else
        skipAttributes
        expectPunct "\x7b" "after namespace name"
        let items ← declarationsInBraces g "after namespace body"
        finish .namespaceDefinition m items) := fun _ _ => by
    refine (skipAttributes_level _ _).bind fun _ _ _ =>
      (Level.skipWhile (by grind) _ _).bind fun _ _ _ =>
        .acceptAny (by grind) fun _ _ _ => .ite (fun _ => ?_) fun _ => ?_
    · exact (skipToSemicolon_level _ _ _).bind fun _ _ _ => .finish _ _ _
    · exact (skipAttributes_level _ _).bind fun _ _ _ =>
        .expectOpen (by decide) fun _ _ =>
          (declarationsInBraces_closes hg _).follow fun _ _ _ => .finish _ _ _
  refine .mark fun m => .accept (fun hyes => ?_) fun _ => .read h (rest m)
  exact .advance h (by grind) fun _ => .read (hinline hyes) (rest m)

omit hg in
theorem usingDeclaration_closes (h : t.isBracket = false) :
    Closes tokens 0 t u usingDeclaration := by
  unfold usingDeclaration
  refine .mark fun m => .read h fun t u => .peekNext (.check
    (.ite (fun _ => ?_) fun _ => .check (.ite (fun h => ?_) fun _ => ?_)))
  · exact (skipToSemicolon_level _ _ _).bind fun _ _ _ => .finish _ _ _
  · refine .read (by grind) fun _ _ =>
      (skipAttributes_level _ _).bind fun _ _ _ =>
        .expectOperator fun _ _ => .check (.ite (fun _ => .failExpected _)
          fun _ => ?_)
    exact (skipToSemicolon_level _ _ _).bind fun _ _ _ => .finish _ _ _
  · exact (skipToSemicolon_level _ _ _).bind fun _ _ _ => .finish _ _ _

theorem templateDeclaration_closes (h : t.isBracket = false) :
    Closes tokens 0 t u (templateDeclaration g) := by
  unfold templateDeclaration
  have declared (m : Mark) : Level tokens (do
      let declaration ← g.parse .declaration
      finish .templateDeclaration m [declaration]) := fun _ _ =>
    (hg.level _ _ _).bind fun _ _ _ => .finish _ _ _
  have constrained (m : Mark) : Level tokens (do
      if ← check (·.isKeyword "requires") then requiresClause
      let declaration ← g.parse .declaration
      finish .templateDeclaration m [declaration]) := fun t _ =>
    .check (.ite (fun h => (requiresClause_closes (by grind)).bind fun _ =>
      declared m) fun _ => declared m _ _)
  refine .mark fun m => .read h fun t _ =>
    .check (.ite (fun h => ?_) fun _ => constrained m _ _)
  exact (skipTemplateArguments_closes (by grind)).bind fun _ => constrained m

theorem linkageSpecification_closes (h : t.isKeyword "extern" = true)
    (hnext : u.isString = true) :
    Closes tokens 0 t u (linkageSpecification g) := by
  unfold linkageSpecification
  refine .mark fun m => .advance (by grind) (by grind) fun _ =>
    .read (by grind) fun _ _ => .acceptOpen (by grind) (fun _ _ => ?_) ?_
  · exact (declarationsInBraces_closes hg _).follow fun _ _ _ => .finish _ _ _
  · exact (hg.level _ _ _).bind fun _ _ _ => .finish _ _ _

theorem staticAssertion_closes (h : t.isBracket = false) :
    Closes tokens 0 t u (staticAssertion g) := by
  unfold staticAssertion
  have close (m : Mark) (children : List Node) (t u : Token) :
      Closes tokens 1 t u (do
        expectPunct ")" "after static assertion"
        expectPunct ";" "after static assertion"
        finish .staticAssertDeclaration m children) :=
    .expectClose (by decide) fun _ _ => .expectSemicolon fun _ _ =>
      .finish _ _ _
  refine .mark fun m => .read h fun _ _ => .expectOpen (by decide)
    fun _ _ => (hg.level _ _ _).bind fun _ _ _ => .acceptAny (by grind)
      fun _ _ _ => .ite (fun _ => ?_) fun _ => close m _ _ _
  exact (hg.level _ _ _).bind fun _ => close m _

omit hg in
theorem asmDeclaration_closes (h : t.isBracket = false) :
    Closes tokens 0 t u asmDeclaration := by
  unfold asmDeclaration
  refine .mark fun m => .read h fun _ _ =>
    (Level.skipWhile (by grind) _ _).bind fun _ t _ =>
      .check (.ite (fun h => ?_) fun _ => .failExpected _)
  exact .group (by grind) fun _ _ => .expectSemicolon fun _ _ =>
    .finish _ _ _

theorem declaration_level : Level tokens (declaration g) := fun t u => by
  unfold declaration
  refine .peek (.peekNext ?_)
  refine .ite (fun h => ?_) fun _ => .ite (fun h => ?_) fun _ =>
    .ite (fun h => ?_) fun _ => .ite (fun h => ?_) fun _ =>
    .ite (fun h => ?_) fun _ => .ite (fun h => ?_) fun _ =>
    .ite (fun h => ?_) fun _ => .ite (fun h => ?_) fun _ =>
    simpleDeclaration_level hg _ _
  · exact .mark fun m => .read (by grind) fun _ _ => .finish _ _ _
  · exact namespaceDefinition_closes hg (by grind) (by grind)
  · exact usingDeclaration_closes (by grind)
  · exact templateDeclaration_closes hg (by grind)
  · exact .advance (by grind) (by grind) fun _ =>
      templateDeclaration_closes hg (by grind)
  · exact linkageSpecification_closes hg (by grind) (by grind)
  · exact staticAssertion_closes hg (by grind)
  · exact asmDeclaration_closes (by grind)

end

end FrontEnd.Grammar
