/-
Blocks and expressions leave as many groups open as they find. What stands
in brackets is read between the two of them, and every other token was
looked at before it is read, but for the one behind `sizeof ...`: there a
closing bracket would be taken for an operand, and end a group that began in
front of the expression. So none may come there (`PacksOpen`).
-/
import FrontEnd.Proofs.Course.Expression
import FrontEnd.Proofs.Level.Names

namespace FrontEnd.Grammar

open Lockstep (advance_depth)

variable {tokens : List Token} {t u : Token} {g : Inner}

/-- The rules of the level below leave as many groups open as they find, and
their values are nodes. -/
structure Inner.Level (tokens : List Token) (g : Inner) : Prop where
  packs : PacksOpen tokens
  level : ∀ goal, Grammar.Level tokens (g.parse goal)
  sound : g.Sound tokens

section

variable (hg : g.Level tokens)
include hg

-- ================================================================ blocks

theorem block_level : Level tokens (block g) := fun _ _ => by
  unfold block
  exact .mark fun m => .expectOpen (by decide) fun _ _ =>
    .enclosed (hg.level _) (hg.sound _) fun _ _ _ => .finish _ _ _

theorem handlers_level : Level tokens (handlers g) := fun _ _ => by
  unfold handlers
  refine .loop (fun done t _ => .check (.ite (fun h => ?_) fun _ =>
    .pure _)) _
  refine .mark fun m => .read (by grind) fun t _ =>
    .check (.ite (fun h => ?_) fun _ => .failExpected _)
  exact .group (by grind) fun _ _ =>
    (block_level hg _ _).bind fun _ _ _ => .node fun _ => .pure _

theorem tryBlock_closes (h : t.isBracket = false) :
    Closes tokens 0 t u (tryBlock g) := by
  unfold tryBlock
  refine .mark fun m => .read h fun _ _ =>
    (block_level hg _ _).bind fun _ _ _ =>
      (handlers_level hg _ _).bind fun _ _ _ => ?_
  exact .ite (fun _ => .failExpected _) fun _ => .finish _ _ _

-- =================================================== whole expressions

theorem expression_level : Level tokens (expression g) := fun _ _ => by
  unfold expression
  refine .mark fun m =>
    (Level.commaSeparated (hg.level _) _ _).bind fun operands _ _ => ?_
  split
  · exact .pure _
  · exact .finish _ _ _

theorem initializer_level : Level tokens (initializer g) := fun _ _ => by
  unfold initializer
  exact .check (.ite (fun _ => hg.level _ _ _) fun _ => hg.level _ _ _)

theorem initializerOrExpression_level :
    Level tokens (initializerOrExpression g) := fun _ _ => by
  unfold initializerOrExpression
  exact .check (.ite (fun _ => hg.level _ _ _) fun _ =>
    expression_level hg _ _)

theorem listedInitializer_level : Level tokens (listedInitializer g) :=
    fun _ _ => by
  unfold listedInitializer
  refine .mark fun m => (initializer_level hg _ _).bind fun _ _ _ =>
    .acceptAny (by grind) fun _ _ _ => ?_
  exact .ite (fun _ => .finish _ _ _) fun _ => .pure _

theorem arguments_closes (h : t.isPunct "(" = true) :
    Closes tokens 0 t u (arguments g) := by
  unfold arguments
  have close (items : List Node) (t u : Token) : Closes tokens 1 t u (do
      expectPunct ")" "after arguments"
      return items : Parser (List Node)) :=
    .expectClose (by decide) fun _ _ => .pure _
  refine .opening (by grind) fun _ => .check (.ite (fun _ => ?_) fun _ => ?_)
  · exact close [] _ _
  · exact (Level.commaSeparated (listedInitializer_level hg) _ _).bind close

omit hg in
theorem designator_level : Level tokens designator := fun _ _ => by
  unfold designator
  refine .check (.peekNext (.ite (fun h => ?_) fun _ => .pure _))
  refine .advance (by grind) (by grind) fun _ => .read (by grind) fun _ _ =>
    .check (.ite (fun _ => .pure _) fun _ => ?_)
  rw [← bind_pure (expectOperator _ _)]
  exact .expectOperator fun _ _ => .pure _

theorem initializerList_level : Level tokens (initializerList g) :=
    fun _ _ => by
  unfold initializerList
  refine .mark fun m => .expectOpen (by decide) fun _ _ =>
    Closes.bind (.loop (fun items _ _ => ?_) _) fun _ _ _ =>
      .expectClose (by decide) fun _ _ => .finish _ _ _
  refine .check (.ite (fun _ => .pure _) fun _ => ?_)
  exact (designator_level _ _).bind fun _ _ _ =>
    (listedInitializer_level hg _ _).bind fun _ _ _ =>
      .acceptAny (by grind) fun _ _ _ =>
        .ite (fun _ => .pure _) fun _ => .pure _

-- ============================================================ lambdas

omit hg in
theorem lambdaDeclarator_level : Level tokens lambdaDeclarator :=
    fun _ _ => by
  unfold lambdaDeclarator
  refine .loop (fun _ t _ => .peek (.ite (fun _ => .pure _) fun _ =>
    .ite (fun h => ?_) fun _ => .ite (fun h => ?_) fun _ =>
    .ite (fun h => ?_) fun _ => ?_)) _
  · exact .group (by grind) fun _ _ => .pure _
  · exact (skipTemplateArguments_closes (by grind)).bind fun _ _ _ => .pure _
  · exact .read (by grind) fun _ _ => .pure _
  · exact Closes.bind (.failExpected _) fun _ _ _ => .pure _

theorem lambda_closes (h : t.isPunct "[" = true) :
    Closes tokens 0 t u (lambda g) := by
  unfold lambda
  have body (m : Mark) : Level tokens (do
      lambdaDeclarator
      let body ← block g
      finish .lambdaExpression m [body]) := fun _ _ =>
    (lambdaDeclarator_level _ _).bind fun _ _ _ =>
      (block_level hg _ _).bind fun _ _ _ => .finish _ _ _
  have parameters (m : Mark) : Level tokens (do
      if ← check (·.isPunct "(") then skipGroup "after lambda parameters"
      lambdaDeclarator
      let body ← block g
      finish .lambdaExpression m [body]) := fun t _ =>
    .check (.ite (fun h => .group (by grind) (body m)) fun _ => body m _ _)
  refine .mark fun m => .group (by grind) fun t _ =>
    .check (.ite (fun h => ?_) fun _ => parameters m _ _)
  exact (skipTemplateArguments_closes (by grind)).bind fun _ =>
    parameters m

-- ================================================= primary expressions

theorem namedCast_closes (h : t.isBracket = false) :
    Closes tokens 0 t u (namedCast g) := by
  unfold namedCast
  refine .mark fun m => .peek (.read h fun t _ =>
    .check (.ite (fun h => ?_) fun _ => .failExpected _))
  refine (skipTemplateArguments_closes (by grind)).bind fun _ _ _ =>
    .expectOpen (by decide) fun _ _ =>
      (expression_level hg _ _).bind fun _ _ _ =>
        .expectClose (by decide) fun _ _ => .finish _ _ _

omit hg in
theorem decltypeName_closes (h : t.isBracket = false) :
    Closes tokens 0 t u decltypeName := by
  unfold decltypeName
  refine .mark fun m => .read h fun t _ =>
    .check (.ite (fun h => ?_) fun _ => .failExpected _)
  refine .group (by grind) fun t _ => .acceptAny (by grind) fun _ _ _ => ?_
  exact .ite (fun _ => idExpression_level _ _) fun _ => .finish _ _ _

omit hg in
theorem requiresExpression_closes (h : t.isBracket = false) :
    Closes tokens 0 t u requiresExpression := by
  unfold requiresExpression
  have body (m : Mark) : Level tokens (do
      if ← check (·.isPunct "\x7b") then
        skipGroup "after requirements"
        finish .builtinExpression m []
      else failExpected "'\x7b' after 'requires'") := fun t _ =>
    .check (.ite (fun h => .group (by grind) fun _ _ => .finish _ _ _)
      fun _ => .failExpected _)
  refine .mark fun m => .read h fun t _ =>
    .check (.ite (fun h => ?_) fun _ => body m _ _)
  exact .group (by grind) (body m)

omit hg in
theorem typeKeywords_level : Level tokens typeKeywords := fun _ _ => by
  unfold typeKeywords
  refine .mark fun m => .loop (fun _ t _ => .peek (.ite (fun h => ?_)
    fun _ => .node fun _ => .pure _)) _
  refine .read (by grind) fun _ _ => .ite (fun _ => ?_) fun _ => .pure _
  exact (idExpression_level _ _).bind fun _ _ _ => .node fun _ => .pure _

theorem keywordPrimary_closes (h : t.isBracket = false) :
    Closes tokens 0 t u (keywordPrimary g) := by
  unfold keywordPrimary
  have leaf (kind : NodeKind) (m : Mark) : Closes tokens 0 t u
      (do advance; finish kind m []) :=
    .read h fun _ _ => .finish _ _ _
  refine .mark fun m => .peek ?_
  refine .ite (fun _ => leaf _ m) fun _ => .ite (fun _ => leaf _ m) fun _ =>
    .ite (fun _ => idExpression_level _ _) fun _ =>
    .ite (fun _ => namedCast_closes hg h) fun _ =>
    .ite (fun _ => decltypeName_closes h) fun _ =>
    .ite (fun _ => requiresExpression_closes h) fun _ =>
    .ite (fun _ => typeKeywords_level _ _) fun _ => .failExpected _

theorem primary_level : Level tokens (primary g) := fun t u => by
  unfold primary
  refine .mark fun m => .peek ?_
  have leaf (kind : NodeKind) (h : t.isBracket = false) :
      Closes tokens 0 t u (do advance; finish kind m []) :=
    .read h fun _ _ => .finish _ _ _
  cases hkind : t.kind with
  | number => exact leaf _ (by grind)
  | character => exact leaf _ (by grind)
  | string =>
    exact (Level.skipWhile (by grind) _ _).bind fun _ _ _ => .finish _ _ _
  | identifier => exact idExpression_level _ _
  | operator =>
    exact .ite (fun _ => idExpression_level _ _) fun _ =>
      .ite (fun _ => leaf _ (by grind)) fun _ => .failExpected _
  | keyword => exact keywordPrimary_closes hg (by grind)
  | punctuation =>
    refine .ite (fun h => ?_) fun _ => .ite (fun h => ?_) fun _ =>
      .ite (fun _ => hg.level _ _ _) fun _ => .failExpected _
    · exact .opening (by grind) fun _ =>
        (expression_level hg _ _).bind fun _ _ _ =>
          .expectClose (by decide) fun _ _ => .finish _ _ _
    · exact lambda_closes hg (by grind)
  | directive => exact .failExpected _
  | endOfFile => exact .failExpected _

-- ================================================= postfix operators

omit hg in
theorem member_closes (m : Mark) (object : Node)
    (h : t.isBracket = false) : Closes tokens 0 t u (member m object) := by
  unfold member
  refine .peek (.read h fun t _ => .acceptAny (by grind) fun _ t _ =>
    .check (.ite (fun _ => ?_) fun _ => .failExpected _))
  exact (idExpression_level _ _).bind fun _ _ _ => .finish _ _ _

theorem postfixRound_level (m : Mark) (object : Node) :
    Level tokens (postfixRound g m object) := fun t _ => by
  unfold postfixRound
  refine .peek (.ite (fun h => ?_) fun _ => .ite (fun h => ?_) fun _ =>
    .ite (fun _ => ?_) fun _ => .ite (fun h => ?_) fun _ =>
    .ite (fun h => ?_) fun _ => .pure _)
  · exact (arguments_closes hg (by grind)).bind fun _ _ _ =>
      .node fun _ => .pure _
  · exact .opening (by grind) fun _ =>
      (initializerOrExpression_level hg _ _).bind fun _ _ _ =>
        .expectClose (by decide) fun _ _ => .node fun _ => .pure _
  · exact (hg.level _ _ _).bind fun _ _ _ => .node fun _ => .pure _
  · exact (member_closes m object (by grind)).bind fun _ _ _ => .pure _
  · exact .read (by grind) fun _ _ => .node fun _ => .pure _

theorem postfixOperators_level (m : Mark) (object : Node) :
    Level tokens (postfixOperators g m object) := fun _ _ =>
  .loop (postfixRound_level hg m) object

theorem postfixExpression_level : Level tokens (postfixExpression g) :=
    fun _ _ => by
  unfold postfixExpression
  exact .mark fun m => (primary_level hg _ _).bind
    (postfixOperators_level hg m)

-- ==================================================== unary operators

omit hg in
theorem newType_level : Level tokens newType := fun _ _ => by
  unfold newType
  refine Closes.bind (.loop (fun _ t _ => .peek ?_) _) fun _ _ _ =>
    .loop (fun _ t _ => .check (.ite (fun h => ?_) fun _ => .pure _)) _
  · refine .ite (fun h => ?_) fun _ => .ite (fun h => ?_) fun _ =>
      .ite (fun h => ?_) fun _ => .pure _
    · exact .read (by grind) fun _ _ => .pure _
    · exact .read (by grind) fun _ _ => .pure _
    · exact (skipTemplateArguments_closes (by grind)).bind fun _ _ _ =>
        .pure _
  · exact .group (by grind) fun _ _ => .pure _

theorem newExpression_closes (h : t.isBracket = false) :
    Closes tokens 0 t u (newExpression g) := by
  unfold newExpression
  have rest (m : Mark) : Level tokens (do
      newType
      let children ←
        if ← check (·.isPunct "(") then arguments g
        else if ← check (·.isPunct "\x7b") then
          pure [← g.parse .initializerList]
        else pure []
      finish .newExpression m children) := fun _ _ => by
    refine (newType_level _ _).bind fun _ t _ => .check (.check
      (.ite (fun h => ?_) fun _ => .ite (fun _ => ?_) fun _ => ?_))
    · exact (arguments_closes hg (by grind)).bind fun _ _ _ =>
        .finish _ _ _
    · exact (hg.level _ _ _).bind fun _ _ _ => .finish _ _ _
    · exact .finish _ _ _
  refine .mark fun m => .read h fun t _ =>
    .check (.ite (fun h => ?_) fun _ => rest m _ _)
  exact .group (by grind) (rest m)

theorem deleteExpression_closes (h : t.isBracket = false) :
    Closes tokens 0 t u (deleteExpression g) := by
  unfold deleteExpression
  have operand (m : Mark) : Level tokens (do
      let operand ← g.parse .operand
      finish .deleteExpression m [operand]) := fun _ _ =>
    (hg.level _ _ _).bind fun _ _ _ => .finish _ _ _
  refine .mark fun m => .read h fun t _ => .check (.peekNext
    (.ite (fun h => ?_) fun _ => operand m _ _))
  exact .opening (by grind) fun _ => .closing (by grind) fun _ =>
    operand m _ _

theorem unary_closes (h : t.isBracket = false) :
    Closes tokens 0 t u (unary g) := by
  unfold unary
  exact .mark fun m => .read h fun _ _ => (hg.level _ _ _).bind fun _ _ _ =>
    .finish _ _ _

theorem parenthesizedCast_closes (h : t.isPunct "(" = true) :
    Closes tokens 0 t u (parenthesizedCast g) := by
  unfold parenthesizedCast
  refine .mark fun m => .group (by grind) fun _ _ =>
    .check (.ite (fun _ => ?_) fun _ => ?_)
  · exact (hg.level _ _ _).bind fun _ _ _ => .finish _ _ _
  · exact (hg.level _ _ _).bind fun _ _ _ => .finish _ _ _

omit hg in
/-- The operand of a pack is passed over whatever it is. -/
theorem sizeofExpression_pack {s : State}
    (hpack : s.advance.peek.isOperator "..." = true) :
    sizeofExpression g s = (do
      skipGroup "after sizeof operand"
      finish .builtinExpression s.mark []) s.advance.advance := by
  unfold sizeofExpression
  rw [bind_eq]
  dsimp only [mark]
  rw [bind_eq]
  dsimp only [advance]
  rw [bind_eq]
  unfold accept
  rw [if_pos hpack]
  rfl

theorem sizeofExpression_closes (h : t.isKeyword "sizeof" = true) :
    Closes tokens 0 t u (sizeofExpression g) where
  leaves {s depth} hs hdepth ht hu := by
    cases hpack : u.isOperator "..." with
    | false =>
      have hleaves : Closes tokens 0 t u (sizeofExpression g) := by
        unfold sizeofExpression
        refine .mark fun m => .advance (by grind) (by grind) fun v =>
          .accept (fun hpack' => ?_) fun _ => .check (.ite (fun hopen => ?_)
            fun _ => ?_)
        · rw [hpack] at hpack'
          cases hpack'
        · exact .group (by grind) fun _ _ => .finish _ _ _
        · exact (hg.level _ _ _).bind fun _ _ _ => .finish _ _ _
      exact hleaves.leaves hs hdepth ht hu
    | true =>
      subst ht hu
      have hend : s.peek.isEnd = false := by grind
      have hdots : s.advance.peek.isOperator "..." = true :=
        s.advance_peek hend ▸ hpack
      -- what comes behind the pack closes no group
      have hcloses := hg.packs.closes_eq_false hs h hdots
      have hplain {s : State} (h : s.peek.isBracket = false) :
          s.advance.depth = s.depth :=
        (advance_depth s).trans (depthAfter_of_not_bracket h _)
      rw [sizeofExpression_pack hdots]
      refine (Closes.group hcloses fun _ _ => .finish _ _ _).leaves
        hs.advance.advance ?_ rfl rfl
      rw [hplain (by grind), hplain (by grind)]
      exact hdepth

theorem keywordCall_closes (h : t.isBracket = false) :
    Closes tokens 0 t u (keywordCall g) := by
  unfold keywordCall
  refine .mark fun m => .peek (.read h fun t _ =>
    .check (.ite (fun h => ?_) fun _ => .failExpected _))
  exact .group (by grind) fun _ _ => .node fun _ =>
    postfixOperators_level hg _ _ _ _

theorem castExpression_level : Level tokens (castExpression g) :=
    fun t u => by
  have post := postfixExpression_level hg t u
  unfold castExpression
  refine .peek ?_
  cases hkind : t.kind with
  | punctuation =>
    refine .ahead fun isCast => .ite (fun h => ?_) fun _ => post
    exact parenthesizedCast_closes hg (by grind)
  | operator =>
    refine .ite (fun _ => unary_closes hg (by grind)) fun _ =>
      .ite (fun _ => .peekNext ?_) fun _ => post
    refine .ite (fun hnew => ?_) fun _ => .ite (fun hdelete => ?_)
      fun _ => post
    · exact .advance (by grind) (by grind) fun _ =>
        newExpression_closes hg (by grind)
    · exact .advance (by grind) (by grind) fun _ =>
        deleteExpression_closes hg (by grind)
  | keyword =>
    have h : t.isBracket = false := by grind
    exact .ite (fun hsizeof => sizeofExpression_closes hg (by grind)) fun _ =>
      .ite (fun _ => keywordCall_closes hg h) fun _ =>
      .ite (fun _ => newExpression_closes hg h) fun _ =>
      .ite (fun _ => deleteExpression_closes hg h) fun _ =>
      .ite (fun _ => unary_closes hg h) fun _ => post
  | _ => exact post

-- =================================================== binary operators

theorem binary_level (levels : List (List String)) :
    Level tokens (binary g levels) := by
  induction levels with
  | nil => exact castExpression_level hg
  | cons level tighter ih =>
    intro _ _
    unfold binary
    refine .mark fun m => (ih _ _).bind fun first _ _ =>
      Closes.bind (.loop (fun others t _ => ?_) _) fun others _ _ => ?_
    · refine .acceptAny (by grind [isOneOf]) fun _ _ _ =>
        .ite (fun _ => ?_) fun _ => .pure _
      exact (ih _ _).bind fun _ _ _ => .pure _
    · exact .ite (fun _ => .pure _) fun _ => .finish _ _ _

-- ==================================== operators that group to the right

omit hg in
theorem closeAll_level (operand : Node) (waiting : List Waiting) :
    Level tokens (closeAll operand waiting) := by
  induction waiting generalizing operand with
  | nil => exact fun _ _ => .pure _
  | cons w ws ih =>
    intro _ _
    unfold closeAll
    refine Closes.bind ?_ fun n => ih n
    cases w <;> exact .finish _ _ _

omit hg in
/-- The loop is done with a node. -/
theorem closed_level {α : Type} (operand : Node)
    (waiting : List Waiting) : Level tokens (do
      return .done (← closeAll operand waiting) : Parser (Round α Node)) :=
  fun _ _ => (closeAll_level operand waiting _ _).bind fun _ _ _ => .pure _

theorem rightRound_level (assignment : Bool) (waiting : List Waiting) :
    Level tokens (rightRound g assignment waiting) := fun t u => by
  unfold rightRound
  refine .ite (fun _ => .fail _) fun _ => .mark fun m => .peek ?_
  refine .ite (fun h => ?_) fun _ => .ite (fun h => ?_) fun _ => ?_
  · refine .read (by grind) fun _ _ => .check (.ite (fun _ => ?_)
      fun _ => .pure _)
    exact .node fun _ => closed_level _ _ _ _
  · refine .read (by grind) fun _ _ => .check (.ite (fun _ => ?_)
      fun _ => .pure _)
    exact (hg.level _ _ _).bind fun _ _ _ => .node fun _ =>
      closed_level _ _ _ _
  · refine (binary_level hg _ _ _).bind fun operand t _ =>
      .acceptAny (by grind) fun _ t _ => .ite (fun _ => ?_) fun _ =>
        .peek (.ite (fun h => ?_) fun _ => closed_level _ _ _ _)
    · exact (expression_level hg _ _).bind fun _ _ _ =>
        .expectOperator fun _ _ => .pure _
    · refine .read (by grind [isOneOf]) fun _ _ =>
        .check (.ite (fun _ => ?_) fun _ => .pure _)
      exact (hg.level _ _ _).bind fun _ => closed_level _ _

theorem rightGrouped_level (assignment : Bool) :
    Level tokens (rightGrouped g assignment) := fun _ _ =>
  .loop (rightRound_level hg assignment) _

end

end FrontEnd.Grammar
