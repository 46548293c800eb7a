/-
The rules of declarations and their parts, in step with themselves
wherever the rules of the level below are.
-/
import FrontEnd.Proofs.Lockstep.Expression

namespace FrontEnd.Grammar.Lockstep

open List (Forall₂)

variable {L : Lockstep} (hL : L.Lawful) {g h : Inner}
  (hg : L.Inners g h)

include hL hg

-- ============================================================= functions

omit hg in
theorem operatorFunctionName_inStep :
    L.InStep Eq operatorFunctionName operatorFunctionName := by
  unfold operatorFunctionName
  refine .andThen (.advance hL) (.peekNext hL ?_)
  intro t u next next' ht hnext
  have h := hL.alike ht
  rw [empty_brackets_eq h fun h => hL.alike (hnext h), h.isPunct,
    h.isString, h.isKeyword, h.isKeyword, h.isKind]
  refine .ite rfl (.andThen (.advance hL) (.advance hL)) ?_
  refine .ite rfl (.advance hL) ?_
  refine .ite rfl ?_ ?_
  · refine .andThen (.advance hL) (.checkNext hL (fun h => h.isPunct _)
      (fun h => Token.not_shuts_of_isPunct h (by decide)) ?_)
    intro opened next next' hnext
    exact .ite (and_eq_and fun h => (hL.alike (hnext h)).isPunct _)
      (.andThen (.advance hL) (.advance hL)) (.pure rfl)
  refine .ite rfl (.andThen (.advance hL) ?_) (.pure rfl)
  exact .andThen (.accept hL Token.Alike.isName) (.pure rfl)

omit hL hg in
/-- An item that asks for a `~` where it begins can be told of it. -/
theorem commaSeparated_told {α : Type} (item : Bool → Parser α) :
    commaSeparated (seen complementNext >>= item) = (do
      let complement ← seen complementNext
      loop (fun x => do
        let items := (← item x.2) :: x.1
        if ← accept (·.isPunct ",") then
          telling complementNext (pure (.again items))
        else return .done items.reverse) ([], complement)) := by
  unfold commaSeparated
  refine loop_told (fun items s => ?_) []
  show _ = telling complementNext (item (complementNext s) >>= _) s
  simp only [telling_bind, telling_ite, telling_done]

/-- What stands behind the name of a member. -/
def memberValue (g : Inner) (m : Mark) (name : Node) : Parser Node := do
  if ← check (·.isPunct "(") then
    let items ← arguments g
    finish .callExpression m (name :: items)
  else if ← check (·.isPunct "\x7b") then
    let list ← g.parse .initializerList
    finish .callExpression m [name, list]
  else failExpected "'(' or '\x7b' after member initializer"

/-- The initializer of a member with the dots behind it, told whether the
name begins with a `~`. -/
def memberTold (g : Inner) (complement : Bool) : Parser Node := do
  let m ← Grammar.mark
  let name ← nameTold complement
  let item ← memberValue g m name
  let _ ← accept (·.isOperator "...")
  return item

omit hL hg in
theorem memberTold_eq (g : Inner) : (do
    let item ← memberInitializer g
    let _ ← accept (·.isOperator "...")
    return item) = seen complementNext >>= memberTold g := by
  unfold memberInitializer
  rw [idExpression_told]
  simp only [bind_assoc]
  rfl

theorem memberTold_inStep (complement : Bool) :
    L.InStep L.node (memberTold g complement) (memberTold h complement) := by
  unfold memberTold
  apply InStep.bind (.mark hL)
  intro m n hm
  apply InStep.bind (nameTold_inStep hL hg.spelled complement)
  intro a b hab
  have value : L.InStep L.node (memberValue g m a) (memberValue h n b) := by
    unfold memberValue
    apply InStep.bindEq (.check hL fun h => h.isPunct _)
    intro opened
    refine .ite rfl ?_ ?_
    · apply InStep.bind (arguments_inStep hL hg)
      intro as bs hs
      exact .finishAll hL _ rfl hm (.cons hab hs)
    · apply InStep.bindEq (.check hL fun h => h.isPunct _)
      intro braced
      refine .ite rfl ?_ (.failExpected hL _)
      apply InStep.bind (hg.parse _)
      intro c d hcd
      exact .finishAll hL _ rfl hm (.cons hab (.cons hcd .nil))
  apply InStep.bind value
  intro a b hab
  exact .andThen (.accept hL fun h => h.isOperator _) (.pure hab)

/-- If both come to a `~` behind the colon or neither does, the
initializers of members are in step. -/
theorem constructorInitializer_inStepIf :
    L.InStepIf
      (fun s t => L.state s.advance t.advance →
        AtComplement s.advance t.advance)
      L.node (constructorInitializer g) (constructorInitializer h) := by
  unfold constructorInitializer
  rw [memberTold_eq, memberTold_eq, commaSeparated_told,
    commaSeparated_told]
  simp only [bind_assoc]
  refine .mark hL fun m n hm => .advance hL (Q := AtComplement)
    (fun _ hs hp => hp hs) ?_
  refine .ask (V := Eq) (fun _ => rfl) (fun _ hp => hp) ?_
  rintro complement _ rfl
  refine InStep.guarded (.bind (V := Forall₂ L.node) ?_ fun as bs hs =>
    .finishAll hL _ rfl hm hs)
  refine .loop (V := Told (Forall₂ L.node)) hL (fun x y hxy => ?_)
    ⟨.nil, rfl⟩
  rw [hxy.2]
  apply InStep.bind (memberTold_inStep hL hg _)
  intro a b hab
  have hs := Forall₂.cons hab hxy.1
  refine accept_leads_inStep hL hg.spelled (fun h => h.isPunct _)
    Token.leadsName_of_comma ?_ (.pure (.done (List.rel_reverse hs)))
  exact telling_inStepIf hs

-- =========================================================== constraints

omit hg in
theorem constraintName_inStep :
    L.InStep Eq constraintName constraintName := by
  unfold constraintName
  apply InStep.andThen (.accept hL fun h => h.isOperator _)
  refine .andThen (.expectName hL) (.rounds hL ?_)
  apply InStep.bindEq (.check hL fun h => h.isOperator _)
  intro opened
  refine .when rfl (skipTemplateArguments_inStep hL) ?_
  refine .checkNext hL (fun h => h.isOperator _)
    Token.not_shuts_of_isOperator ?_
  intro qualified next next' hnext
  refine .ite (and_eq_and fun h => (hL.alike (hnext h)).isName) ?_
    (.pure (.done rfl))
  exact .andThen (.advance hL) (.andThen (.advance hL) (.pure (.again rfl)))

omit hg in
theorem constraintOperand_inStep :
    L.InStep Eq constraintOperand constraintOperand := by
  unfold constraintOperand
  apply InStep.andThen (.skipWhile hL fun h => h.isOperator _)
  apply InStep.bind (.peek hL)
  intro t u ht
  have h := hL.alike ht
  rw [h.isPunct, h.isKeyword, h.isKeyword]
  refine .ite rfl (skipGroup_inStep hL _) ?_
  exact .ite rfl (.advance hL) (constraintName_inStep hL)

omit hg in
theorem requiresClause_inStep :
    L.InStep Eq requiresClause requiresClause := by
  unfold requiresClause
  refine .andThen (.advance hL) (.rounds hL ?_)
  apply InStep.andThen (constraintOperand_inStep hL)
  refine .bindEq (.accept hL fun h => ?_) fun more =>
    .ite rfl (.pure (.again rfl)) (.pure (.done rfl))
  rw [h.isOperator, h.isOperator]

-- =============================================================== classes

omit hg in
theorem skip_inStep (n : Nat) : L.InStep Eq (skip n) (skip n) := by
  induction n with
  | zero => exact .pure rfl
  | succ n ih => exact .andThen (.advance hL) ih

theorem memberDeclaration_inStep :
    L.InStep L.node (memberDeclaration g) (memberDeclaration h) := by
  have label (length : Nat) : L.InStep L.node
      (do let m ← Grammar.mark; skip length; finish .accessSpecifier m [])
      (do let m ← Grammar.mark; skip length; finish .accessSpecifier m [])
      := by
    apply InStep.bind (.mark hL)
    intro m n hm
    exact .andThen (skip_inStep hL length) (.finishAll hL _ rfl hm .nil)
  constructor
  · intro s t hs
    unfold memberDeclaration
    rw [hL.label hs]
    cases memberLabel t.rest with
    | none => exact (hg.parse _).both hs
    | some length => exact (label length).both hs
  · intro ρ r t ht
    unfold memberDeclaration
    cases memberLabel t.rest with
    | none => exact (hg.parse _).alone ht
    | some length => exact (label length).alone ht

omit hg in
theorem baseClause_inStep : L.InStep Eq baseClause baseClause := by
  unfold baseClause
  refine .rounds hL (.bind (.peek hL) fun t u ht => ?_)
  have ha := hL.alike ht
  refine .ite (ha.isPunct _) (.pure (.done rfl)) ?_
  rw [ha.isPunct, ha.isPunct, ha.isSpelled (by decide), ha.isName,
    ha.isKind, ha.isKind]
  have again : L.InStep (Rounds Eq Eq)
      (pure (.again ()) : Parser (Round Unit Unit))
      (pure (.again ())) := .pure (.again rfl)
  refine .ite rfl (.andThen (skipGroup_inStep hL _) again) ?_
  refine .ite rfl (.andThen (skipTemplateArguments_inStep hL) again) ?_
  exact .ite rfl (.andThen (.advance hL) again)
    (.bindEq (.failExpected hL _) fun _ => again)

omit hg in
theorem className_inStep : L.InStep Eq className className := by
  unfold className
  refine .andThen (V := Eq) (.rounds hL ?_)
    (.skipWhile hL Token.Alike.isName)
  apply InStep.bind (.peek hL)
  intro t u ht
  have h := hL.alike ht
  rw [h.isName, h.isOperator, h.isOperator]
  refine .ite rfl (.andThen (.advance hL) (.pure (.again rfl))) ?_
  refine .ite rfl ?_ (.pure (.done rfl))
  exact .andThen (skipTemplateArguments_inStep hL) (.pure (.again rfl))

theorem classBody_inStep {m n : Mark} (hm : L.mark m n) :
    L.InStep L.node (classBody g m) (classBody h n) := by
  unfold classBody
  apply InStep.andThen (.expectPunct hL _ _)
  rw [enclosed_bind, enclosed_bind]
  exact .bind (hg.enclosed hL _ _ (memberDeclaration_inStep hL hg))
    fun as bs hs => .finish hL _ rfl hm hs

theorem classSpecifier_inStep :
    L.InStep (Option.Rel L.node) (classSpecifier g)
      (classSpecifier h) := by
  unfold classSpecifier
  apply InStep.bind (.mark hL)
  intro m n hm
  refine .andThen (.advance hL) (.andThen (skipAttributes_inStep hL) ?_)
  apply InStep.andThen (className_inStep hL)
  have body : L.InStep (Option.Rel L.node)
      (do return some (← classBody g m))
      (do return some (← classBody h n)) :=
    .bind (classBody_inStep hL hg hm) fun _ _ hab => .pure (.some hab)
  apply InStep.bindEq (.accept hL fun h => h.isOperator _)
  intro derived
  refine .ite rfl (.andThen (baseClause_inStep hL) body) ?_
  apply InStep.bindEq (.check hL fun h => h.isPunct _)
  intro opened
  exact .ite rfl body (.pure .none)

-- ========================================================== enumerations

theorem enumerator_inStep :
    L.InStep L.node (enumerator g) (enumerator h) := by
  unfold enumerator
  apply InStep.bind (.mark hL)
  intro m n hm
  refine .andThen (.expectName hL) (.andThen (skipAttributes_inStep hL) ?_)
  apply InStep.bindEq (.accept hL fun h => h.isOperator _)
  intro valued
  refine .ite rfl ?_ (.finishAll hL _ rfl hm .nil)
  apply InStep.bind (hg.parse _)
  intro a b hab
  exact .finishAll hL _ rfl hm (.cons hab .nil)

theorem enumerators_inStep :
    L.InStep (Forall₂ L.node) (enumerators g) (enumerators h) := by
  unfold enumerators
  refine .loop (V := Forall₂ L.node) hL (fun as bs hs => ?_) .nil
  apply InStep.bindEq (.check hL fun h => h.isPunct _)
  intro closed
  refine .ite rfl (.pure (.done (List.rel_reverse hs))) ?_
  apply InStep.bind (enumerator_inStep hL hg)
  intro a b hab
  apply InStep.bindEq (.accept hL fun h => h.isPunct _)
  intro more
  refine .ite rfl (.pure (.again (.cons hab hs))) ?_
  apply InStep.bindEq (.check hL fun h => h.isPunct _)
  intro closed
  exact .ite rfl (.pure (.again (.cons hab hs))) (.failExpected hL _)

omit hg in
theorem enumHead_inStep : L.InStep Eq enumHead enumHead := by
  unfold enumHead
  have tail : L.InStep Eq
      (do
        skipAttributes
        skipWhile fun t => t.isName || t.isOperator "::"
        if ← accept (·.isOperator ":") then
          skipWhile fun t =>
            t.isName || t.kind == .keyword || t.isOperator "::")
      (do
        skipAttributes
        skipWhile fun t => t.isName || t.isOperator "::"
        if ← accept (·.isOperator ":") then
          skipWhile fun t =>
            t.isName || t.kind == .keyword || t.isOperator "::") := by
    apply InStep.andThen (skipAttributes_inStep hL)
    refine .andThen (.skipWhile hL fun h => ?_) ?_
    · rw [h.isName, h.isOperator]
    apply InStep.bindEq (.accept hL fun h => h.isOperator _)
    intro typed
    refine .ite rfl (.skipWhile hL fun h => ?_) (.pure rfl)
    rw [h.isName, h.isKind, h.isOperator]
  apply InStep.andThen (.advance hL)
  apply InStep.bindEq (.accept hL fun h => h.isKeyword _)
  intro isClass
  refine .ite rfl ?_ tail
  exact .andThen (.accept hL fun h => h.isKeyword _) tail

theorem enumSpecifier_inStep :
    L.InStep (Option.Rel L.node) (enumSpecifier g) (enumSpecifier h) := by
  unfold enumSpecifier
  apply InStep.bind (.mark hL)
  intro m n hm
  apply InStep.andThen (enumHead_inStep hL)
  apply InStep.bindEq (.accept hL fun h => h.isPunct _)
  intro opened
  refine .ite rfl ?_ (.pure .none)
  apply InStep.bind (enumerators_inStep hL hg)
  intro as bs hs
  apply InStep.andThen (.expectPunct hL _ _)
  exact .bind (.finishAll hL _ rfl hm hs) fun _ _ hab => .pure (.some hab)

-- =================================================== simple declarations

/-- Simple declarations that have come to related parts. -/
structure Walks (L : Lockstep) (v w : Walk) : Prop where
  parts : Forall₂ L.node v.parts w.parts
  parameters : v.parameters = w.parameters

omit hg in
theorem declaratorEnd_inStep :
    L.InStep Eq declaratorEnd declaratorEnd := by
  unfold declaratorEnd
  refine .bindEq (.check hL fun h => ?_) fun ends =>
    .ite rfl (.pure rfl) (.failExpected hL _)
  rw [h.isPunct, h.isPunct]

omit hL hg in
theorem add_rounds {v w : Walk} (hw : L.Walks v w) {a b : Node}
    (hab : L.node a b) : Rounds L.Walks L.node (v.add a) (w.add b) :=
  .again ⟨.cons hab hw.parts, hw.parameters⟩

omit hL hg in
theorem addSome_rounds {v w : Walk} (hw : L.Walks v w) {a b : Option Node}
    (hab : Option.Rel L.node a b) :
    Rounds L.Walks L.node (v.addSome a) (w.addSome b) := by
  cases hab with
  | none => exact .again hw
  | some hab => exact add_rounds hw hab

section

variable {m n : Mark} (hm : L.mark m n) {v w : Walk} (hw : L.Walks v w)
include hm hw

omit hg in
theorem function_inStep :
    L.InStep (Rounds L.Walks L.node) (v.function m) (w.function n) := by
  unfold Walk.function
  refine .bind (.finishAll hL _ rfl hm (List.rel_reverse hw.parts)) ?_
  exact fun a b hab => .pure (.done hab)

omit hg in
/-- The walk with a body is a function. -/
theorem functionBody_inStep {a b : Node} (hab : L.node a b) :
    L.InStep (Rounds L.Walks L.node)
      (Walk.function { v with parts := a :: v.parts } m)
      (Walk.function { w with parts := b :: w.parts } n) :=
  function_inStep hL hm ⟨.cons hab hw.parts, hw.parameters⟩

theorem punctRound_inStep {t u : Token} (ht : t.Alike u) :
    L.InStep (Rounds L.Walks L.node) (punctRound g m v t)
      (punctRound h n w u) := by
  unfold punctRound
  refine .ite (ht.hasValue (by decide)) ?_ ?_
  · apply InStep.andThen (.advance hL)
    refine .bind (.finishAll hL _ rfl hm (List.rel_reverse hw.parts)) ?_
    exact fun a b hab => .pure (.done hab)
  refine .ite (ht.hasValue (by decide)) ?_ ?_
  · apply InStep.andThen (skipGroup_inStep hL _)
    exact .pure (.again ⟨hw.parts, rfl⟩)
  refine .ite (ht.hasValue (by decide)) ?_ ?_
  · exact .andThen (skipGroup_inStep hL _) (.pure (.again hw))
  refine .ite (ht.hasValue (by decide)) ?_ ?_
  · refine .ite hw.parameters ?_ ?_
    · apply InStep.bind (block_inStep hL hg)
      intro a b hab
      exact functionBody_inStep hL hm hw hab
    · apply InStep.bind (hg.parse _)
      intro a b hab
      apply InStep.andThen (declaratorEnd_inStep hL)
      exact .pure (add_rounds hw hab)
  refine .ite (ht.hasValue (by decide)) ?_ (.fail hL _)
  exact .andThen (.advance hL) (.pure (.again ⟨hw.parts, rfl⟩))

theorem operatorRound_inStepIf {t u : Token} (ht : t.Alike u) :
    L.InStepIf (fun s s' => s.peek = t ∧ s'.peek = u)
      (Rounds L.Walks L.node) (operatorRound g m v t)
      (operatorRound h n w u) := by
  unfold operatorRound
  refine .ite (ht.isOperator _) (fun _ => InStep.guarded ?_) fun _ => ?_
  · apply InStep.andThen (.advance hL)
    have rest (isSpecial : Bool) :
        L.InStep (Rounds L.Walks L.node)
          (if isSpecial then do
            expectPunct ";" "after function declaration"
            v.function m
          else do
            let value ← initializer g
            declaratorEnd
            return v.add value)
          (if isSpecial then do
            expectPunct ";" "after function declaration"
            w.function n
          else do
            let value ← initializer h
            declaratorEnd
            return w.add value) := by
      refine .ite rfl ?_ ?_
      · exact .andThen (.expectPunct hL _ _) (function_inStep hL hm hw)
      · apply InStep.bind (initializer_inStep hL hg)
        intro a b hab
        apply InStep.andThen (declaratorEnd_inStep hL)
        exact .pure (add_rounds hw hab)
    refine .ite hw.parameters (.bindEq (.accept hL fun h => ?_) rest)
      (.bindEq (.pure rfl) rest)
    rw [h.isKeyword, h.isKeyword]
  refine .ite (ht.isOperator _) (fun _ => InStep.guarded ?_) fun _ =>
    .ite (ht.isOperator _) (fun hcolon => ?_) fun _ => InStep.guarded ?_
  · exact .andThen (skipTemplateArguments_inStep hL) (.pure (.again hw))
  · refine .ite hw.parameters (fun _ => ?_) fun _ => InStep.guarded ?_
    · refine .bind ((constructorInitializer_inStepIf hL hg).mono ?_) ?_
      · rintro s s' hs ⟨rfl, -⟩ -
        exact hg.spelled.complement hs
          (Token.leadsName_of_isOperator hcolon (by decide))
      intro a b hab
      refine .bindEq (.check hL fun h => ?_) fun opened =>
        .ite rfl (.pure (add_rounds hw hab)) (.failExpected hL _)
      rw [h.isPunct, h.isKeyword]
    · apply InStep.andThen (.advance hL)
      apply InStep.bind (hg.parse _)
      intro a b hab
      apply InStep.andThen (declaratorEnd_inStep hL)
      exact .pure (add_rounds hw hab)
  · refine .ite (isOneOf_alike ht _) ?_ (.fail hL _)
    exact .andThen (.advance hL) (.pure (.again hw))

/-- The tokens are keywords, so that they are the same. -/
theorem keywordRound_inStep {t u : Token} (ht : t.value = u.value) :
    L.InStep (Rounds L.Walks L.node) (keywordRound g m v t)
      (keywordRound h n w u) := by
  unfold keywordRound
  rw [ht, hw.parameters]
  refine .ite rfl ?_ (.ite rfl ?_ (.ite rfl ?_ (.ite rfl ?_ ?_)))
  · apply InStep.bind (classSpecifier_inStep hL hg)
    intro a b hab
    exact .pure (addSome_rounds hw hab)
  · apply InStep.bind (enumSpecifier_inStep hL hg)
    intro a b hab
    exact .pure (addSome_rounds hw hab)
  · exact .andThen (operatorFunctionName_inStep hL) (.pure (.again hw))
  · apply InStep.bind (tryBlock_inStep hL hg)
    intro a b hab
    rw [← hw.parameters]
    exact functionBody_inStep hL hm hw hab
  refine .ite rfl ?_ (.ite rfl ?_ (.ite rfl (.fail hL _) ?_))
  · exact .andThen (requiresClause_inStep hL) (.pure (.again hw))
  · apply InStep.andThen (.advance hL)
    apply InStep.bindEq (.check hL fun h => h.isPunct _)
    intro opened
    exact .when rfl (skipGroup_inStep hL _) (.pure (.again hw))
  · exact .andThen (.advance hL) (.pure (.again hw))

theorem simpleRound_inStep :
    L.InStep (Rounds L.Walks L.node) (simpleRound g m v)
      (simpleRound h n w) := by
  unfold simpleRound
  refine InStepIf.peekFirst hL fun t u ht => ?_
  have ha := hL.alike ht
  rw [ha.kind]
  cases hk : u.kind with
  | endOfFile => exact InStep.guarded (.failExpected hL _)
  | punctuation => exact (punctRound_inStep hL hg hm hw ha).guarded
  | operator => exact operatorRound_inStepIf hL hg hm hw ha
  | keyword =>
    have hne : t.kind ≠ .operator := by
      rw [ha.kind, hk]
      decide
    exact (keywordRound_inStep hL hg hm hw (ha.value hne)).guarded
  | identifier =>
    exact InStep.guarded (.andThen (.advance hL) (.pure (.again hw)))
  | _ => exact InStep.guarded (.fail hL _)

end

theorem simpleDeclaration_inStep :
    L.InStep L.node (simpleDeclaration g) (simpleDeclaration h) := by
  unfold simpleDeclaration
  apply InStep.bind (.mark hL)
  intro m n hm
  exact .loop hL (fun _ _ hw => simpleRound_inStep hL hg hm hw)
    ⟨.nil, rfl⟩

-- ==================================================== other declarations

theorem declarationsInBraces_inStep (context : String) :
    L.InStep L.nodes (declarationsInBraces g context)
      (declarationsInBraces h context) :=
  hg.enclosed hL _ _ (hg.parse _)

theorem namespaceDefinition_inStep :
    L.InStep L.node (namespaceDefinition g) (namespaceDefinition h) := by
  unfold namespaceDefinition
  apply InStep.bind (.mark hL)
  intro m n hm
  apply InStep.andThen (.accept hL fun h => h.isKeyword _)
  refine .andThen (.advance hL) (.andThen (skipAttributes_inStep hL) ?_)
  refine .andThen (.skipWhile hL fun h => ?_) ?_
  · rw [h.isName, h.isOperator, h.isKeyword]
  apply InStep.bindEq (.accept hL fun h => h.isOperator _)
  intro isAlias
  refine .ite rfl ?_ ?_
  · exact .andThen (skipToSemicolon_inStep hL _) (.finishAll hL _ rfl hm .nil)
  · apply InStep.andThen (skipAttributes_inStep hL)
    apply InStep.andThen (.expectPunct hL _ _)
    apply InStep.bind (declarationsInBraces_inStep hL hg _)
    intro as bs hs
    exact .finish hL _ rfl hm hs

omit hL hg in
/-- All that a `using` asks about the tokens that come can be asked behind
its keyword. -/
theorem usingDeclaration_eq : usingDeclaration = (do
    let m ← Grammar.mark
    advance
    let t ← peek
    let next ← peekAt 1
    if t.isKeyword "namespace" then
      skipToSemicolon "after using directive"
      finish .usingDirective m []
    else if t.isName && (next.isSpelled "=" || next.isPunct "[") then
      advance
      skipAttributes
      expectOperator "=" "in alias declaration"
      if ← check (·.isPunct ";") then failExpected "type after '='"
      else
        skipToSemicolon "after alias declaration"
        finish .aliasDeclaration m []
    else
      skipToSemicolon "after using declaration"
      finish .usingDeclaration m []) := by
  funext s
  unfold usingDeclaration
  simp only [bind_apply, peek, peekAt, check, Grammar.mark, advance, goOn]
  split <;> rfl

omit hg in
theorem usingDeclaration_inStep :
    L.InStep L.node usingDeclaration usingDeclaration := by
  rw [usingDeclaration_eq]
  apply InStep.bind (.mark hL)
  intro m n hm
  refine .andThen (.advance hL) (.peekNext hL ?_)
  intro t u next next' ht hnext
  have ha := hL.alike ht
  have toEnd (kind : NodeKind) (context : String)
      (hkind : (kind == .preprocessorDirective) = false) : L.InStep L.node
      (do skipToSemicolon context; finish kind m [])
      (do skipToSemicolon context; finish kind n []) :=
    .andThen (skipToSemicolon_inStep hL _) (.finishAll hL _ hkind hm .nil)
  refine .ite (ha.isKeyword _) (toEnd _ _ rfl) ?_
  rw [← ha.isName]
  refine .ite (and_eq_and fun h => ?_) ?_ (toEnd _ _ rfl)
  · have hn := hL.alike (hnext (Token.not_shuts_of_isName h))
    rw [hn.isSpelled (by decide), hn.isPunct]
  refine .andThen (.advance hL) (.andThen (skipAttributes_inStep hL) ?_)
  apply InStep.andThen (.expectOperator hL _ _)
  apply InStep.bindEq (.check hL fun h => h.isPunct _)
  intro empty
  exact .ite rfl (.failExpected hL _) (toEnd _ _ rfl)

theorem templateDeclaration_inStep :
    L.InStep L.node (templateDeclaration g) (templateDeclaration h) := by
  unfold templateDeclaration
  apply InStep.bind (.mark hL)
  intro m n hm
  apply InStep.andThen (.advance hL)
  apply InStep.bindEq (.check hL fun h => h.isOperator _)
  intro parameters
  refine .when rfl (skipTemplateArguments_inStep hL) ?_
  apply InStep.bindEq (.check hL fun h => h.isKeyword _)
  intro constrained
  refine .when rfl (requiresClause_inStep hL) ?_
  apply InStep.bind (hg.parse _)
  intro a b hab
  exact .finishAll hL _ rfl hm (.cons hab .nil)

theorem linkageSpecification_inStep :
    L.InStep L.node (linkageSpecification g)
      (linkageSpecification h) := by
  unfold linkageSpecification
  apply InStep.bind (.mark hL)
  intro m n hm
  refine .andThen (.advance hL) (.andThen (.advance hL) ?_)
  apply InStep.bindEq (.accept hL fun h => h.isPunct _)
  intro opened
  refine .ite rfl ?_ ?_
  · apply InStep.bind (declarationsInBraces_inStep hL hg _)
    intro as bs hs
    exact .finish hL _ rfl hm hs
  · apply InStep.bind (hg.parse _)
    intro a b hab
    exact .finishAll hL _ rfl hm (.cons hab .nil)

theorem staticAssertion_inStep :
    L.InStep L.node (staticAssertion g) (staticAssertion h) := by
  unfold staticAssertion
  apply InStep.bind (.mark hL)
  intro m n hm
  refine .andThen (.advance hL) (.andThen (.expectPunct hL _ _) ?_)
  apply InStep.bind (hg.parse _)
  intro a b hab
  have tail (as bs : List Node) (hs : Forall₂ L.node as bs) :
      L.InStep L.node
        (do
          expectPunct ")" "after static assertion"
          expectPunct ";" "after static assertion"
          finish .staticAssertDeclaration m as)
        (do
          expectPunct ")" "after static assertion"
          expectPunct ";" "after static assertion"
          finish .staticAssertDeclaration n bs) :=
    .andThen (.expectPunct hL _ _)
      (.andThen (.expectPunct hL _ _) (.finishAll hL _ rfl hm hs))
  apply InStep.bindEq (.accept hL fun h => h.isPunct _)
  intro message
  refine .ite rfl ?_ (.bind (.pure (.cons hab .nil)) tail)
  apply InStep.bind (hg.parse _)
  intro c d hcd
  exact .bind (.pure (.cons hab (.cons hcd .nil))) tail

omit hg in
theorem asmDeclaration_inStep :
    L.InStep L.node asmDeclaration asmDeclaration := by
  unfold asmDeclaration
  apply InStep.bind (.mark hL)
  intro m n hm
  refine .andThen (.advance hL) (.andThen (.skipWhile hL fun h => ?_) ?_)
  · rw [h.isKeyword, h.isKeyword, h.isKeyword]
  apply InStep.bindEq (.check hL fun h => h.isPunct _)
  intro opened
  refine .ite rfl ?_ (.failExpected hL _)
  apply InStep.andThen (skipGroup_inStep hL _)
  exact .andThen (.expectPunct hL _ _) (.finishAll hL _ rfl hm .nil)

theorem declaration_inStep :
    L.InStep L.node (declaration g) (declaration h) := by
  unfold declaration
  refine .peekNext hL fun t u next next' ht hnext => ?_
  have ha := hL.alike ht
  refine .ite (ha.isPunct _) ?_ ?_
  · apply InStep.bind (.mark hL)
    intro m n hm
    exact .leaf hL _ rfl hm
  -- behind a keyword both see the same token
  have hn {word : String} (h : u.isKeyword word = true) :
      next.Alike next' := by
    refine hL.alike (hnext (Token.not_shuts_of_kind fun hkind => ?_))
    simp [Token.isKeyword, ← ha.kind, hkind] at h
  rw [ha.isKeyword "namespace", ha.isKeyword "inline",
    ha.isKeyword "export", ha.isKeyword "extern",
    and_eq_and fun h => (hn h).isKeyword "namespace",
    and_eq_and fun h => (hn h).isString]
  refine .ite rfl (namespaceDefinition_inStep hL hg) ?_
  refine .ite (ha.isKeyword _) (usingDeclaration_inStep hL) ?_
  refine .ite (ha.isKeyword _) (templateDeclaration_inStep hL hg) ?_
  refine .ite (and_eq_and fun h => ?_) ?_ ?_
  · rcases Bool.or_eq_true _ _ ▸ h with h | h
    · exact (hn h).isKeyword _
    · exact (hn h).isKeyword _
  · exact .andThen (.advance hL) (templateDeclaration_inStep hL hg)
  refine .ite rfl (linkageSpecification_inStep hL hg) ?_
  refine .ite (ha.isKeyword _) (staticAssertion_inStep hL hg) ?_
  exact .ite (ha.isKeyword _) (asmDeclaration_inStep hL)
    (simpleDeclaration_inStep hL hg)

end FrontEnd.Grammar.Lockstep
