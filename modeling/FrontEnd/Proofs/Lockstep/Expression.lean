/-
The rules of blocks and expressions, in step with themselves wherever
the rules of the level below are (`Inners`). The lemmas follow the rules
one by one, and each proof follows the steps of its rule.
-/
import FrontEnd.Proofs.Lockstep.Group

namespace FrontEnd.Grammar.Lockstep

open List (Forall₂)

/-- The levels below two readings, in step with each other. -/
structure Inners (L : Lockstep) (g h : Inner) : Prop where
  first : g.policy = L.first
  second : h.policy = L.second
  room : g.room = h.room
  parse (goal : Goal) : L.InStep L.node (g.parse goal) (h.parse goal)
  spelled : L.SpelledAlike

variable {L : Lockstep} (hL : L.Lawful) {g h : Inner}
  (hg : L.Inners g h)

/-- Lists that are related part by part are both empty or neither. -/
theorem isEmpty_eq {α β : Type} {V : α → β → Prop} {as : List α}
    {bs : List β} (h : Forall₂ V as bs) : as.isEmpty = bs.isEmpty := by
  cases h with
  | nil => rfl
  | cons _ _ => rfl

-- ================================================ questions about tokens

theorem isOneOf_alike {t u : Token} (ht : t.Alike u)
    (operators : List String) :
    isOneOf operators t = isOneOf operators u := by
  unfold isOneOf
  rw [ht.kind, ht.canonical]

theorem endsExpression_alike {t u : Token} (ht : t.Alike u) :
    endsExpression t = endsExpression u := by
  unfold endsExpression
  rw [← ht.hasValue (by decide)]
  cases hk : u.kind with
  | punctuation =>
    rw [ht.kind, hk, ht.value (by rw [ht.kind, hk]; decide)]
  | _ => rw [ht.kind, hk]

/-- Keywords that are alike are the same. -/
theorem keyword_alike {t u : Token} (ht : t.Alike u)
    (question : String → Bool) :
    (t.kind == .keyword && question t.value)
      = (u.kind == .keyword && question u.value) :=
  ht.ofKind (by decide) question

include hL hg

-- ================================================================ blocks

theorem Inners.enclosed {p q : Parser Node} (closer context : String)
    (hpq : L.InStep L.node p q) :
    L.InStep L.nodes (enclosed g.policy closer context p)
      (enclosed h.policy closer context q) := by
  rw [hg.first, hg.second]
  exact hL.enclosed closer context hpq

omit hL hg in
/-- Items up to a bracket and what comes behind that, in two steps. -/
theorem enclosed_bind (policy : Policy) (closer context : String)
    (item : Parser Node) (f : List Node → Parser Node) :
    (do
      let items ← sequence policy closer item
      expectPunct closer context
      f items)
      = enclosed policy closer context item >>= f := by
  unfold Grammar.enclosed
  simp only [bind_assoc, pure_bind]

theorem block_inStep : L.InStep L.node (block g) (block h) := by
  unfold block
  apply InStep.bind (.mark hL)
  intro m n hm
  apply InStep.andThen (.expectPunct hL _ _)
  rw [enclosed_bind, enclosed_bind]
  exact .bind (hg.enclosed hL _ _ (hg.parse _))
    fun as bs hs => .finish hL _ rfl hm hs

theorem handlers_inStep :
    L.InStep (Forall₂ L.node) (handlers g) (handlers h) := by
  unfold handlers
  refine .loop (V := Forall₂ L.node) hL (fun as bs hs => ?_) .nil
  apply InStep.bindEq (.check hL fun h => h.isKeyword _)
  intro found
  refine .ite rfl ?_ (.pure (.done hs))
  apply InStep.bind (.mark hL)
  intro m n hm
  apply InStep.andThen (.advance hL)
  apply InStep.bindEq (.check hL fun h => h.isPunct _)
  intro opened
  refine .ite rfl ?_ (.failExpected hL _)
  apply InStep.andThen (skipGroup_inStep hL _)
  apply InStep.bind (block_inStep hL hg)
  intro a b hab
  apply InStep.bind (.finishAll hL _ rfl hm (.cons hab .nil))
  intro a b hab
  exact .pure (.again (.cons hab hs))

theorem tryBlock_inStep : L.InStep L.node (tryBlock g) (tryBlock h) := by
  unfold tryBlock
  apply InStep.bind (.mark hL)
  intro m n hm
  apply InStep.andThen (.advance hL)
  apply InStep.bind (block_inStep hL hg)
  intro body body' hbody
  apply InStep.bind (handlers_inStep hL hg)
  intro as bs hs
  refine .ite (isEmpty_eq hs) (.failExpected hL _) ?_
  exact .finishAll hL _ rfl hm (.cons hbody (List.rel_reverse hs))

-- =================================================== whole expressions

theorem expression_inStep :
    L.InStep L.node (expression g) (expression h) := by
  unfold expression
  apply InStep.bind (.mark hL)
  intro m n hm
  apply InStep.bind (.commaSeparated hL (hg.parse _))
  intro as bs hs
  cases hs with
  | nil => exact .finishAll hL _ rfl hm .nil
  | cons hab hs =>
    cases hs with
    | nil => exact .pure hab
    | cons hab' hs => exact .finishAll hL _ rfl hm (.cons hab (.cons hab' hs))

theorem initializer_inStep :
    L.InStep L.node (initializer g) (initializer h) := by
  unfold initializer
  apply InStep.bindEq (.check hL fun h => h.isPunct _)
  intro opened
  exact .ite rfl (hg.parse _) (hg.parse _)

theorem initializerOrExpression_inStep :
    L.InStep L.node (initializerOrExpression g)
      (initializerOrExpression h) := by
  unfold initializerOrExpression
  apply InStep.bindEq (.check hL fun h => h.isPunct _)
  intro opened
  exact .ite rfl (hg.parse _) (expression_inStep hL hg)

theorem listedInitializer_inStep :
    L.InStep L.node (listedInitializer g) (listedInitializer h) := by
  unfold listedInitializer
  apply InStep.bind (.mark hL)
  intro m n hm
  apply InStep.bind (initializer_inStep hL hg)
  intro a b hab
  apply InStep.bindEq (.accept hL fun h => h.isOperator _)
  intro isPack
  exact .ite rfl (.finishAll hL _ rfl hm (.cons hab .nil)) (.pure hab)

theorem arguments_inStep :
    L.InStep (Forall₂ L.node) (arguments g) (arguments h) := by
  unfold arguments
  apply InStep.andThen (.advance hL)
  apply InStep.bindEq (.check hL fun h => h.isPunct _)
  intro closed
  have rest (as bs : List Node) (hs : Forall₂ L.node as bs) :
      L.InStep (Forall₂ L.node)
        (do expectPunct ")" "after arguments"; return as)
        (do expectPunct ")" "after arguments"; return bs) :=
    .andThen (.expectPunct hL _ _) (.pure hs)
  refine .ite rfl (.bind (.pure .nil) rest) (.bind ?_ rest)
  exact .commaSeparated hL (listedInitializer_inStep hL hg)

omit hg in
theorem designator_inStep : L.InStep Eq designator designator := by
  unfold designator
  refine .checkNext hL (fun h => h.isOperator _)
    Token.not_shuts_of_isOperator ?_
  intro dot next next' hnext
  refine .ite (and_eq_and fun h => (hL.alike (hnext h)).isName) ?_
    (.pure rfl)
  refine .andThen (.advance hL) (.andThen (.advance hL) ?_)
  apply InStep.bindEq (.check hL fun h => h.isPunct _)
  intro opened
  exact .ite rfl (.pure rfl) (.expectOperator hL _ _)

theorem initializerList_inStep :
    L.InStep L.node (initializerList g) (initializerList h) := by
  unfold initializerList
  apply InStep.bind (.mark hL)
  intro m n hm
  apply InStep.andThen (.expectPunct hL _ _)
  have items : L.InStep (Forall₂ L.node)
      (loop (fun items => do
        if ← check (·.isPunct "\x7d") then return .done items
        else
          designator
          let items := (← listedInitializer g) :: items
          if ← accept (·.isPunct ",") then return .again items
          else return .done items) [])
      (loop (fun items => do
        if ← check (·.isPunct "\x7d") then return .done items
        else
          designator
          let items := (← listedInitializer h) :: items
          if ← accept (·.isPunct ",") then return .again items
          else return .done items) []) := by
    refine .loop (V := Forall₂ L.node) hL (fun as bs hs => ?_) .nil
    apply InStep.bindEq (.check hL fun h => h.isPunct _)
    intro closed
    refine .ite rfl (.pure (.done hs)) ?_
    apply InStep.andThen (designator_inStep hL)
    apply InStep.bind (listedInitializer_inStep hL hg)
    intro a b hab
    apply InStep.bindEq (.accept hL fun h => h.isPunct _)
    intro more
    exact .ite rfl (.pure (.again (.cons hab hs)))
      (.pure (.done (.cons hab hs)))
  apply InStep.bind items
  intro as bs hs
  apply InStep.andThen (.expectPunct hL _ _)
  exact .finishAll hL _ rfl hm (List.rel_reverse hs)

-- =============================================================== lambdas

omit hg in
theorem lambdaDeclarator_inStep :
    L.InStep Eq lambdaDeclarator lambdaDeclarator := by
  unfold lambdaDeclarator
  refine .rounds hL (.bind (.peek hL) fun t u ht => ?_)
  have ha := hL.alike ht
  refine .ite (ha.isPunct _) (.pure (.done rfl)) ?_
  rw [ha.isPunct, ha.isPunct, ha.isSpelled (by decide), ha.isKind,
    ha.isName, ha.isKind]
  have again : L.InStep (Rounds Eq Eq)
      (pure (.again ()) : Parser (Round Unit Unit))
      (pure (.again ())) := .pure (.again rfl)
  refine .ite rfl (.andThen (skipGroup_inStep hL _) again) ?_
  refine .ite rfl (.andThen (skipTemplateArguments_inStep hL) again) ?_
  exact .ite rfl (.andThen (.advance hL) again)
    (.bindEq (.failExpected hL _) fun _ => again)

theorem lambda_inStep : L.InStep L.node (lambda g) (lambda h) := by
  unfold lambda
  apply InStep.bind (.mark hL)
  intro m n hm
  apply InStep.andThen (skipGroup_inStep hL _)
  apply InStep.bindEq (.check hL fun h => h.isOperator _)
  intro template
  refine .when rfl (skipTemplateArguments_inStep hL) ?_
  apply InStep.bindEq (.check hL fun h => h.isPunct _)
  intro parameters
  refine .when rfl (skipGroup_inStep hL _) ?_
  apply InStep.andThen (lambdaDeclarator_inStep hL)
  apply InStep.bind (block_inStep hL hg)
  intro a b hab
  exact .finishAll hL _ rfl hm (.cons hab .nil)

-- =================================================== primary expressions

theorem namedCast_inStep : L.InStep L.node (namedCast g) (namedCast h) := by
  unfold namedCast
  apply InStep.bind (.mark hL)
  intro m n hm
  apply InStep.bind (.peek hL)
  intro t u ht
  apply InStep.andThen (.advance hL)
  apply InStep.bindEq (.check hL fun h => h.isOperator _)
  intro opened
  refine .ite rfl ?_
    (.failWith hL (fun value => .expected s!"'<' after '{value}'") ht)
  apply InStep.andThen (skipTemplateArguments_inStep hL)
  apply InStep.andThen (.expectPunct hL _ _)
  apply InStep.bind (expression_inStep hL hg)
  intro a b hab
  apply InStep.andThen (.expectPunct hL _ _)
  exact .finishAll hL _ rfl hm (.cons hab .nil)

theorem decltypeName_inStep :
    L.InStep L.node decltypeName decltypeName := by
  unfold decltypeName
  apply InStep.bind (.mark hL)
  intro m n hm
  apply InStep.andThen (.advance hL)
  apply InStep.bindEq (.check hL fun h => h.isPunct _)
  intro opened
  refine .ite rfl ?_ (.failExpected hL _)
  apply InStep.andThen (skipGroup_inStep hL _)
  exact accept_leads_inStep hL hg.spelled (fun h => h.isOperator _)
    (fun h => Token.leadsName_of_isOperator h (by decide))
    (idExpression_inStepIf hL hg.spelled) (.finishAll hL _ rfl hm .nil)

omit hg in
theorem requiresExpression_inStep :
    L.InStep L.node requiresExpression requiresExpression := by
  unfold requiresExpression
  apply InStep.bind (.mark hL)
  intro m n hm
  apply InStep.andThen (.advance hL)
  apply InStep.bindEq (.check hL fun h => h.isPunct _)
  intro parameters
  refine .when rfl (skipGroup_inStep hL _) ?_
  apply InStep.bindEq (.check hL fun h => h.isPunct _)
  intro opened
  refine .ite rfl ?_ (.failExpected hL _)
  exact .andThen (skipGroup_inStep hL _) (.finishAll hL _ rfl hm .nil)

theorem typeKeywords_inStep :
    L.InStep L.node typeKeywords typeKeywords := by
  unfold typeKeywords
  apply InStep.bind (.mark hL)
  intro m n hm
  refine .rounds hL (InStepIf.peekFirst hL fun t u ht => ?_)
  have ha := hL.alike ht
  refine .ite (keyword_alike ha Word.isType) (fun htype => ?_) fun _ => ?_
  · have hkind := beq_iff_eq.1 (Bool.and_eq_true _ _ ▸ htype).1
    refine .advance hL
      (Q := fun s s' => t.value == "typename" → AtComplement s s') ?_ ?_
    · rintro s s' hs - ⟨rfl, -⟩ hword
      have htypename : s.peek.isKeyword "typename" = true := by
        simpa [Token.isKeyword, hkind] using hword
      exact hg.spelled.complement hs
        (Token.leadsName_of_isKeyword htypename (by decide))
    refine .ite (ha.hasValue (by decide)) (fun hword => ?_) fun _ =>
      InStep.guarded (.pure (.again rfl))
    refine .bind ((idExpression_inStepIf hL hg.spelled).mono
      fun _ hp => hp hword) ?_
    intro a b hab
    apply InStep.bind (.finishAll hL _ rfl hm (.cons hab .nil))
    intro a b hab
    exact .pure (.done hab)
  · apply InStep.guarded
    apply InStep.bind (.finishAll hL _ rfl hm .nil)
    intro a b hab
    exact .pure (.done hab)

theorem keywordPrimary_inStepIf :
    L.InStepIf AtComplement L.node (keywordPrimary g)
      (keywordPrimary h) := by
  unfold keywordPrimary
  refine .mark hL fun m n hm => .peek hL fun t u ht => ?_
  have ha := hL.alike ht
  refine .ite (ha.hasValueIn (by decide))
    (fun _ => InStep.guarded (.leaf hL _ rfl hm)) fun _ => ?_
  refine .ite (ha.hasValue (by decide))
    (fun _ => InStep.guarded (.leaf hL _ rfl hm)) fun _ => ?_
  refine .ite (ha.hasValue (by decide))
    (fun _ => (idExpression_inStepIf hL hg.spelled).mono
      fun _ hp => hp.1) fun _ => ?_
  refine InStep.guarded ?_
  refine .ite (ha.hasValueIn (by decide)) (namedCast_inStep hL hg) ?_
  refine .ite (ha.hasValue (by decide)) (decltypeName_inStep hL hg) ?_
  refine .ite (ha.hasValue (by decide)) (requiresExpression_inStep hL) ?_
  exact .ite (ha.hasValueIn (by decide)) (typeKeywords_inStep hL hg)
    (.failExpected hL _)

theorem primary_inStepIf :
    L.InStepIf AtComplement L.node (primary g) (primary h) := by
  unfold primary
  refine .mark hL fun m n hm => ?_
  refine .ask (v := State.peek)
    (V := fun t u => L.token t u ∧ t.isSpelled "~" = u.isSpelled "~")
    (fun t => ⟨hL.token_refl t, rfl⟩) (fun hs hp => ⟨hL.peek hs, hp⟩) ?_
  rintro t u ⟨ht, hcomplement⟩
  have ha := hL.alike ht
  have name {P : State → State → Prop} : L.InStepIf
      (fun s s' => AtComplement s s' ∧ P s s') L.node idExpression
      idExpression :=
    (idExpression_inStepIf hL hg.spelled).mono fun _ hp => hp.1
  rw [ha.kind]
  cases hkind : u.kind with
  | number => exact InStep.guarded (.leaf hL _ rfl hm)
  | character => exact InStep.guarded (.leaf hL _ rfl hm)
  | string =>
    exact InStep.guarded (.andThen (.skipWhile hL Token.Alike.isString)
      (.finishAll hL _ rfl hm .nil))
  | identifier => exact name
  | operator =>
    refine .ite ?_ (fun _ => name) fun _ => ?_
    · simp only [Token.isSpelled, ha.kind, hkind, beq_self_eq_true,
        Bool.true_and] at hcomplement
      rw [ha.hasValue (by decide), hcomplement]
    · exact InStep.guarded (.ite (ha.hasValue (by decide))
        (.leaf hL _ rfl hm) (.failExpected hL _))
  | keyword => exact (keywordPrimary_inStepIf hL hg).mono fun _ hp => hp.1
  | punctuation =>
    refine InStep.guarded (.ite (ha.hasValue (by decide)) ?_ ?_)
    · apply InStep.andThen (.advance hL)
      apply InStep.bind (expression_inStep hL hg)
      intro a b hab
      apply InStep.andThen (.expectPunct hL _ _)
      exact .finishAll hL _ rfl hm (.cons hab .nil)
    · refine .ite (ha.hasValue (by decide)) (lambda_inStep hL hg) ?_
      exact .ite (ha.hasValue (by decide)) (hg.parse _)
        (.failExpected hL _)
  | directive => exact InStep.guarded (.failExpected hL _)
  | endOfFile => exact InStep.guarded (.failExpected hL _)

-- ===================================================== postfix operators

theorem member_inStepIf {m n : Mark} {a b : Node} (hm : L.mark m n)
    (hab : L.node a b) :
    L.InStepIf (fun s _ => s.peek.leadsName = true) L.node (member m a)
      (member n b) := by
  unfold member
  refine .peek hL fun t u ht => .advance hL (Q := AtComplement)
    (fun hs _ hp => hg.spelled.complement hs hp.1) ?_
  have rest : L.InStepIf AtComplement L.node
      (do
        if ← check (fun t => t.isName || t.isOperator "~"
            || t.isKeyword "operator") then
          let name ← idExpression
          finish .memberAccess m [a, name]
        else failExpected s!"member name after '{t.value}'")
      (do
        if ← check (fun t => t.isName || t.isOperator "~"
            || t.isKeyword "operator") then
          let name ← idExpression
          finish .memberAccess n [b, name]
        else failExpected s!"member name after '{u.value}'") := by
    refine .check hL (fun h => ?_) fun named => .ite rfl (fun _ => ?_)
      fun _ => InStep.guarded (.failWith hL
        (fun value => .expected s!"member name after '{value}'") ht)
    · rw [h.isName, h.isOperator, h.isKeyword]
    · refine .bind (idExpression_inStepIf hL hg.spelled) fun c d hcd => ?_
      exact .finishAll hL _ rfl hm (.cons hab (.cons hcd .nil))
  exact accept_leads hL hg.spelled (fun h => h.isKeyword _)
    (fun h => Token.leadsName_of_isKeyword h (by decide)) rest rest

theorem postfixRound_inStep {m n : Mark} {a b : Node} (hm : L.mark m n)
    (hab : L.node a b) :
    L.InStep (Rounds L.node L.node) (postfixRound g m a)
      (postfixRound h n b) := by
  unfold postfixRound
  refine InStepIf.peekFirst hL fun t u ht => ?_
  have ha := hL.alike ht
  have again {kind : NodeKind} {as bs : List Node}
      (hkind : (kind == .preprocessorDirective) = false)
      (hs : Forall₂ L.node as bs) :
      L.InStep (Rounds L.node L.node)
        (do return .again (← finish kind m as))
        (do return .again (← finish kind n bs)) :=
    .bind (.finishAll hL _ hkind hm hs) fun _ _ hab => .pure (.again hab)
  refine .ite (ha.isPunct _) (fun _ => InStep.guarded ?_) fun _ => ?_
  · apply InStep.bind (arguments_inStep hL hg)
    intro as bs hs
    exact again rfl (.cons hab hs)
  refine .ite (ha.isPunct _) (fun _ => InStep.guarded ?_) fun _ => ?_
  · apply InStep.andThen (.advance hL)
    apply InStep.bind (initializerOrExpression_inStep hL hg)
    intro c d hcd
    apply InStep.andThen (.expectPunct hL _ _)
    exact again rfl (.cons hab (.cons hcd .nil))
  rw [ha.isPunct, hL.kind hab, ← ha.isSpelled (by decide),
    ← ha.isSpelled (by decide), ← ha.isSpelled (by decide),
    ← ha.isSpelled (by decide), ← ha.isSpelled (by decide)]
  refine .ite rfl (fun _ => InStep.guarded ?_) fun _ => ?_
  · apply InStep.bind (hg.parse _)
    intro c d hcd
    exact again rfl (.cons hab (.cons hcd .nil))
  refine .ite rfl (fun hdot => ?_) fun _ => InStep.guarded ?_
  · refine .bind ((member_inStepIf hL hg hm hab).mono ?_) fun c d hcd =>
      .pure (.again hcd)
    rintro s s' - ⟨rfl, -⟩
    rcases Bool.or_eq_true _ _ ▸ hdot with h | h <;>
      exact Token.leadsName_of_isSpelled h (by decide)
  refine .ite rfl ?_ (.pure (.done hab))
  exact .andThen (.advance hL) (again rfl (.cons hab .nil))

theorem postfixOperators_inStep {m n : Mark} {a b : Node}
    (hm : L.mark m n) (hab : L.node a b) :
    L.InStep L.node (postfixOperators g m a) (postfixOperators h n b) :=
  .loop hL (fun _ _ hab => postfixRound_inStep hL hg hm hab) hab

theorem postfixExpression_inStepIf :
    L.InStepIf AtComplement L.node (postfixExpression g)
      (postfixExpression h) := by
  unfold postfixExpression
  refine .mark hL fun m n hm => .bind (primary_inStepIf hL hg) ?_
  intro a b hab
  exact postfixOperators_inStep hL hg hm hab

-- ======================================================= unary operators

omit hg in
theorem arrayBounds_inStep : L.InStep Eq
    (loop (fun _ => do
      if ← check (·.isPunct "[") then
        skipGroup "after array size"
        return .again ()
      else return .done ()) ())
    (loop (fun _ => do
      if ← check (·.isPunct "[") then
        skipGroup "after array size"
        return .again ()
      else return .done ()) ()) := by
  refine .rounds hL ?_
  apply InStep.bindEq (.check hL fun h => h.isPunct _)
  intro opened
  refine .ite rfl ?_ (.pure (.done rfl))
  exact .andThen (skipGroup_inStep hL _) (.pure (.again rfl))

omit hL hg in
/-- An allocation is the type that is allocated and what comes behind. -/
theorem newExpression_eq : newExpression g = (do
    let m ← Grammar.mark
    allocated
    loop (fun _ => do
      if ← check (·.isPunct "[") then
        skipGroup "after array size"
        return .again ()
      else return .done ()) ()
    let children ←
      if ← check (·.isPunct "(") then arguments g
      else if ← check (·.isPunct "\x7b") then
        pure [← g.parse .initializerList]
      else pure []
    finish .newExpression m children) := by
  unfold newExpression newType allocated
  simp only [bind_assoc]
  congr
  funext m
  congr
  funext _
  congr
  funext placed
  cases placed with
  | true =>
    rw [if_pos rfl, if_pos rfl, bind_assoc]
    rfl
  | false => rfl

theorem newExpression_inStepIf :
    L.InStepIf (fun s _ => s.peek.isKeyword "new" = true) L.node
      (newExpression g) (newExpression h) := by
  rw [newExpression_eq, newExpression_eq]
  refine .mark hL fun m n hm => .bind hg.spelled.allocated fun _ _ _ => ?_
  apply InStep.andThen (arrayBounds_inStep hL)
  have done (as bs : List Node) (hs : Forall₂ L.node as bs) :
      L.InStep L.node (finish .newExpression m as)
        (finish .newExpression n bs) := .finishAll hL _ rfl hm hs
  apply InStep.bindEq (.check hL fun h => h.isPunct _)
  intro opened
  apply InStep.bindEq (.check hL fun h => h.isPunct _)
  intro braced
  refine .ite rfl (.bind (arguments_inStep hL hg) done) ?_
  refine .ite rfl ?_ (.bind (.pure .nil) done)
  apply InStep.bind (hg.parse _)
  intro a b hab
  exact .bind (.pure (.cons hab .nil)) done

theorem deleteExpression_inStep :
    L.InStep L.node (deleteExpression g) (deleteExpression h) := by
  unfold deleteExpression
  apply InStep.bind (.mark hL)
  intro m n hm
  apply InStep.andThen (.advance hL)
  have operand : L.InStep L.node
      (do let operand ← g.parse .operand
          finish .deleteExpression m [operand])
      (do let operand ← h.parse .operand
          finish .deleteExpression n [operand]) :=
    .bind (hg.parse _) fun _ _ hab => .finishAll hL _ rfl hm (.cons hab .nil)
  refine .checkNext hL (fun h => h.isPunct _)
    (fun h => Token.not_shuts_of_isPunct h (by decide)) ?_
  intro opened next next' hnext
  refine .ite (and_eq_and fun h => (hL.alike (hnext h)).isPunct _) ?_
    operand
  exact .andThen (.advance hL) (.bindEq (.advance hL) fun _ => operand)

theorem unary_inStep : L.InStep L.node (unary g) (unary h) := by
  unfold unary
  apply InStep.bind (.mark hL)
  intro m n hm
  apply InStep.andThen (.advance hL)
  apply InStep.bind (hg.parse _)
  intro a b hab
  exact .finishAll hL _ rfl hm (.cons hab .nil)

theorem parenthesizedCast_inStep :
    L.InStep L.node (parenthesizedCast g) (parenthesizedCast h) := by
  unfold parenthesizedCast
  apply InStep.bind (.mark hL)
  intro m n hm
  apply InStep.andThen (skipGroup_inStep hL _)
  have cast (a b : Node) (hab : L.node a b) :
      L.InStep L.node (finish .castExpression m [a])
        (finish .castExpression n [b]) :=
    .finishAll hL _ rfl hm (.cons hab .nil)
  apply InStep.bindEq (.check hL fun h => h.isPunct _)
  intro braced
  exact .ite rfl (.bind (hg.parse _) cast) (.bind (hg.parse _) cast)

theorem sizeofExpression_inStep :
    L.InStep L.node (sizeofExpression g) (sizeofExpression h) := by
  unfold sizeofExpression
  apply InStep.bind (.mark hL)
  intro m n hm
  apply InStep.andThen (.advance hL)
  apply InStep.bindEq (.accept hL fun h => h.isOperator _)
  intro isPack
  apply InStep.bindEq (.check hL fun h => h.isPunct _)
  intro opened
  refine .ite rfl ?_ ?_
  · exact .andThen (skipGroup_inStep hL _) (.finishAll hL _ rfl hm .nil)
  · apply InStep.bind (hg.parse _)
    intro a b hab
    exact .finishAll hL _ rfl hm (.cons hab .nil)

theorem keywordCall_inStep :
    L.InStep L.node (keywordCall g) (keywordCall h) := by
  unfold keywordCall
  apply InStep.bind (.mark hL)
  intro m n hm
  apply InStep.bind (.peek hL)
  intro t u ht
  apply InStep.andThen (.advance hL)
  apply InStep.bindEq (.check hL fun h => h.isPunct _)
  intro opened
  refine .ite rfl ?_
    (.failWith hL (fun value => .expected s!"'(' after '{value}'") ht)
  apply InStep.andThen (skipGroup_inStep hL _)
  apply InStep.bind (.finishAll hL _ rfl hm .nil)
  intro a b hab
  exact postfixOperators_inStep hL hg hm hab

theorem castExpression_inStep :
    L.InStep L.node (castExpression g) (castExpression h) := by
  unfold castExpression
  refine InStepIf.peekFirst hL fun t u ht => ?_
  have ha := hL.alike ht
  -- a `~` is a unary operator, and so not what comes next below
  have postfix' (hnot : isOneOf unaryOperators t = false) :
      L.InStepIf (fun s s' => s.peek = t ∧ s'.peek = u) L.node
        (postfixExpression g) (postfixExpression h) := by
    refine (postfixExpression_inStepIf hL hg).mono ?_
    rintro s s' - ⟨rfl, rfl⟩
    have hspelled {v : Token} (hv : isOneOf unaryOperators v = false) :
        v.isSpelled "~" = false := by
      rw [← Bool.not_eq_true] at hv ⊢
      intro h
      simp only [Token.isSpelled, Bool.and_eq_true, beq_iff_eq] at h
      refine hv ?_
      unfold isOneOf
      rw [h.1, h.2]
      decide
    unfold AtComplement
    rw [hspelled hnot, hspelled (by rwa [← isOneOf_alike ha])]
  have notOperator (hkind : u.kind ≠ .operator) :
      isOneOf unaryOperators t = false := by
    simp [isOneOf, ha.kind, hkind]
  rw [ha.kind]
  cases hkind : u.kind with
  | punctuation =>
    refine .ask (v := fun s => opensCast s.rest)
      (V := fun a b => t.isPunct "(" = true → a = b) (fun _ _ => rfl) ?_
      fun opened opened' hsame => ?_
    · rintro s s' hs ⟨rfl, -⟩ hopen
      exact hL.cast hs hopen
    rw [← ha.hasValue (by decide)]
    refine .ite (and_eq_and fun h => hsame ?_)
      (fun _ => InStep.guarded (parenthesizedCast_inStep hL hg)) fun _ =>
        (postfix' (notOperator (by simp [hkind]))).mono fun _ hp => hp.1
    simpa [Token.isPunct, ha.kind, hkind] using h
  | operator =>
    refine .ite (isOneOf_alike ha _)
      (fun _ => InStep.guarded (unary_inStep hL hg)) fun hnot => ?_
    refine .ite (ha.hasValue (by decide)) (fun _ => ?_) fun _ =>
      postfix' hnot
    have htoken {v : Token} (hv : v = t) :
        v.kind = .operator := by rw [hv, ha.kind, hkind]
    refine .ask (v := fun s => tokenAt 1 s.rest) (V := L.token)
      hL.token_refl ?_ fun next next' hn => ?_
    · rintro s s' hs ⟨hpeek, -⟩
      refine hL.next hs (Token.not_shuts_of_kind ?_)
      rw [htoken hpeek]
      decide
    have hn := hL.alike hn
    refine .ite (hn.isKeyword _) (fun hnew => ?_) fun _ => ?_
    · refine .advance hL ?_ (newExpression_inStepIf hL hg)
      rintro s s' - - ⟨⟨hpeek, -⟩, hnext, -⟩
      rw [s.advance_peek (by simp [Token.isEnd, htoken hpeek]), hnext, hnew]
    refine .ite (hn.isKeyword _) (fun _ => InStep.guarded ?_) fun _ =>
      (postfix' hnot).mono fun _ hp => hp.1
    exact .andThen (.advance hL) (deleteExpression_inStep hL hg)
  | keyword =>
    have word (v : String) : (t.value == v) = (u.value == v) := by
      rw [ha.value (by rw [ha.kind, hkind]; decide)]
    refine .ite (word _)
      (fun _ => InStep.guarded (sizeofExpression_inStep hL hg)) fun _ => ?_
    refine .ite (ha.hasValueIn (by decide))
      (fun _ => InStep.guarded (keywordCall_inStep hL hg)) fun _ => ?_
    refine .ite (word _) (fun hnew => ?_) fun _ => ?_
    · refine (newExpression_inStepIf hL hg).mono ?_
      rintro s s' - ⟨rfl, -⟩
      simpa [Token.isKeyword, ha.kind, hkind] using hnew
    refine .ite (word _)
      (fun _ => InStep.guarded (deleteExpression_inStep hL hg)) fun _ => ?_
    exact .ite (word _) (fun _ => InStep.guarded (unary_inStep hL hg))
      fun _ => postfix' (notOperator (by simp [hkind]))
  | _ => exact postfix' (notOperator (by simp [hkind]))

-- ====================================================== binary operators

theorem binary_inStep (levels : List (List String)) :
    L.InStep L.node (binary g levels) (binary h levels) := by
  induction levels with
  | nil =>
    unfold binary
    exact castExpression_inStep hL hg
  | cons level tighter ih =>
    unfold binary
    apply InStep.bind (.mark hL)
    intro m n hm
    apply InStep.bind ih
    intro first first' hfirst
    refine .bind (V := Forall₂ L.node)
      (.loop (V := Forall₂ L.node) hL (fun as bs hs => ?_) .nil)
      fun as bs hs => ?_
    · apply InStep.bindEq (.accept hL fun h => isOneOf_alike h _)
      intro more
      refine .ite rfl ?_ (.pure (.done hs))
      exact .bind ih fun a b hab => .pure (.again (.cons hab hs))
    · refine .ite (isEmpty_eq hs) (.pure hfirst) ?_
      exact .finishAll hL _ rfl hm (.cons hfirst (List.rel_reverse hs))

-- ======================================= operators that group to the right

/-- Related operators whose last operand is still to come. -/
inductive Waits (L : Lockstep) : Waiting → Waiting → Prop
  | throws {m n : Mark} : L.mark m n → L.Waits (.throws m) (.throws n)
  | yields {m n : Mark} : L.mark m n → L.Waits (.yields m) (.yields n)
  | assigns {m n : Mark} {as bs : List Node} : L.mark m n →
    Forall₂ L.node as bs → L.Waits (.assigns m as) (.assigns n bs)
  | chooses {m n : Mark} {as bs : List Node} : L.mark m n →
    Forall₂ L.node as bs → L.Waits (.chooses m as) (.chooses n bs)

omit hL hg in
theorem addTarget_waits {m n : Mark} {a b : Node} {vs ws : List Waiting}
    (hm : L.mark m n) (hab : L.node a b) (hw : Forall₂ L.Waits vs ws) :
    Forall₂ L.Waits (addTarget m a vs) (addTarget n b ws) := by
  cases hw with
  | nil => exact .cons (.assigns hm (.cons hab .nil)) .nil
  | cons h hw =>
    cases h with
    | assigns hm' hs => exact .cons (.assigns hm' (.cons hab hs)) hw
    | throws h => exact .cons (.assigns hm (.cons hab .nil)) (.cons (.throws h) hw)
    | yields h => exact .cons (.assigns hm (.cons hab .nil)) (.cons (.yields h) hw)
    | chooses h hs =>
      exact .cons (.assigns hm (.cons hab .nil)) (.cons (.chooses h hs) hw)

omit hL hg in
theorem addChoice_waits {m n : Mark} {a b c d : Node}
    {vs ws : List Waiting} (hm : L.mark m n) (hab : L.node a b)
    (hcd : L.node c d) (hw : Forall₂ L.Waits vs ws) :
    Forall₂ L.Waits (addChoice m a c vs) (addChoice n b d ws) := by
  have fresh : L.Waits (.chooses m [c, a]) (.chooses n [d, b]) :=
    .chooses hm (.cons hcd (.cons hab .nil))
  cases hw with
  | nil => exact .cons fresh .nil
  | cons h hw =>
    cases h with
    | chooses hm' hs =>
      exact .cons (.chooses hm' (.cons hcd (.cons hab hs))) hw
    | throws h => exact .cons fresh (.cons (.throws h) hw)
    | yields h => exact .cons fresh (.cons (.yields h) hw)
    | assigns h hs => exact .cons fresh (.cons (.assigns h hs) hw)

omit hg in
theorem close_inStep {v w : Waiting} {a b : Node} (hw : L.Waits v w)
    (hab : L.node a b) : L.InStep L.node (v.close a) (w.close b) := by
  cases hw with
  | throws hm => exact .finishAll hL _ rfl hm (.cons hab .nil)
  | yields hm => exact .finishAll hL _ rfl hm (.cons hab .nil)
  | assigns hm hs =>
    exact .finishAll hL _ rfl hm (List.rel_reverse (.cons hab hs))
  | chooses hm hs =>
    exact .finishAll hL _ rfl hm (List.rel_reverse (.cons hab hs))

omit hg in
theorem closeAll_inStep {vs ws : List Waiting}
    (hw : Forall₂ L.Waits vs ws) {a b : Node} (hab : L.node a b) :
    L.InStep L.node (closeAll a vs) (closeAll b ws) := by
  induction hw generalizing a b with
  | nil => exact .pure hab
  | cons hw _ ih =>
    unfold closeAll
    exact .bind (close_inStep hL hw hab) fun _ _ hab => ih hab

theorem rightRound_inStep (assignment : Bool) {vs ws : List Waiting}
    (hw : Forall₂ L.Waits vs ws) :
    L.InStep (Rounds (Forall₂ L.Waits) L.node)
      (rightRound g assignment vs) (rightRound h assignment ws) := by
  unfold rightRound
  have done {a b : Node} {vs ws : List Waiting}
      (hw : Forall₂ L.Waits vs ws) (hab : L.node a b) :
      L.InStep (Rounds (Forall₂ L.Waits) L.node)
        (do return .done (← closeAll a vs))
        (do return .done (← closeAll b ws)) :=
    .bind (closeAll_inStep hL hw hab) fun _ _ hab => .pure (.done hab)
  rw [hg.room, hw.length_eq, isEmpty_eq hw]
  split
  · exact .fail hL _
  apply InStep.bind (.mark hL)
  intro m n hm
  apply InStep.bind (.peek hL)
  intro t u ht
  have ha := hL.alike ht
  rw [ha.isKeyword, ha.isKeyword]
  refine .ite rfl ?_ (.ite rfl ?_ ?_)
  · apply InStep.andThen (.advance hL)
    apply InStep.bindEq (.check hL endsExpression_alike)
    intro ends
    refine .ite rfl ?_ (.pure (.again (.cons (.throws hm) hw)))
    exact .bind (.finishAll hL _ rfl hm .nil) fun _ _ hab => done hw hab
  · apply InStep.andThen (.advance hL)
    apply InStep.bindEq (.check hL fun h => h.isPunct _)
    intro braced
    refine .ite rfl ?_ (.pure (.again (.cons (.yields hm) hw)))
    apply InStep.bind (hg.parse _)
    intro a b hab
    exact .bind (.finishAll hL _ rfl hm (.cons hab .nil)) fun _ _ hab =>
      done hw hab
  · apply InStep.bind (binary_inStep hL hg _)
    intro a b hab
    apply InStep.bindEq (.accept hL fun h => h.isOperator _)
    intro choice
    refine .ite rfl ?_ ?_
    · apply InStep.bind (expression_inStep hL hg)
      intro c d hcd
      apply InStep.andThen (.expectOperator hL _ _)
      exact .pure (.again (addChoice_waits hm hab hcd hw))
    · apply InStep.bind (.peek hL)
      intro t u ht
      rw [isOneOf_alike (hL.alike ht)]
      refine .ite rfl ?_ (done hw hab)
      apply InStep.andThen (.advance hL)
      have hw' := addTarget_waits hm hab hw
      apply InStep.bindEq (.check hL fun h => h.isPunct _)
      intro braced
      refine .ite rfl ?_ (.pure (.again hw'))
      exact .bind (hg.parse _) fun _ _ hcd => done hw' hcd

theorem rightGrouped_inStep (assignment : Bool) :
    L.InStep L.node (rightGrouped g assignment)
      (rightGrouped h assignment) :=
  .loop hL (fun _ _ hw => rightRound_inStep hL hg assignment hw) .nil

end FrontEnd.Grammar.Lockstep
