/-
Blocks and expressions in front of a closing brace. No block begins there,
and initializers in braces do not either; the other rules read what they
have looked at.
-/
import FrontEnd.Grammar.Expression
import FrontEnd.Proofs.Fence.Group

namespace FrontEnd.Grammar

variable {F : Fence} {t u : Token} {g : Inner}

/-- No rule of the level below reads the brace. -/
abbrev Inner.Stays (F : Fence) (g : Inner) : Prop :=
  ∀ goal, Grammar.Stays F (g.parse goal)

-- ================================================================ blocks

theorem block_stays : Stays F (block g) := fun _ _ => by
  unfold block
  exact .mark fun m => .expectOpen

theorem handlers_stays : Stays F (handlers g) := fun _ _ => by
  unfold handlers
  refine .loop (fun done t _ => .check (.ite (fun h => ?_) fun _ =>
    .pure _)) _
  refine .mark fun m => .read (by grind) fun t _ =>
    .check (.ite (fun h => ?_) fun _ => .failExpected _)
  exact .group (by grind) fun _ _ =>
    (block_stays _ _).bind fun _ _ _ => .node fun _ => .pure _

theorem tryBlock_keeps (h : t.isPunct "\x7d" = false) :
    Keeps F t u (tryBlock g) := by
  unfold tryBlock
  refine .mark fun m => .read h fun _ _ => (block_stays _ _).bind fun _ _ _ =>
    (handlers_stays _ _).bind fun _ _ _ => ?_
  exact .ite (fun _ => .failExpected _) fun _ => .finish _ _ _

/-- What comes behind a bracket that is read. -/
theorem Stays.closing {value context : String} (hvalue : value ≠ "\x7d")
    {α : Type} {p : Parser α} (k : Stays F p) :
    Stays F (expectPunct value context >>= fun _ => p) :=
  fun _ _ => .expectPunct hvalue k

section

variable (hg : g.Stays F)
include hg

-- =================================================== whole expressions

theorem expression_stays : Stays F (expression g) := fun _ _ => by
  unfold expression
  refine .mark fun m =>
    (Stays.commaSeparated (hg _) _ _).bind fun operands _ _ => ?_
  split
  · exact .pure _
  · exact .finish _ _ _

theorem initializer_stays : Stays F (initializer g) := fun _ _ => by
  unfold initializer
  exact .check (.ite (fun _ => hg _ _ _) fun _ => hg _ _ _)

theorem initializerOrExpression_stays :
    Stays F (initializerOrExpression g) := fun _ _ => by
  unfold initializerOrExpression
  exact .check (.ite (fun _ => hg _ _ _) fun _ => expression_stays hg _ _)

theorem listedInitializer_stays : Stays F (listedInitializer g) :=
    fun _ _ => by
  unfold listedInitializer
  refine .mark fun m => (initializer_stays hg _ _).bind fun _ _ _ =>
    .acceptAny (by grind) fun _ _ _ => ?_
  exact .ite (fun _ => .finish _ _ _) fun _ => .pure _

theorem arguments_keeps (h : t.isPunct "\x7d" = false) :
    Keeps F t u (arguments g) := by
  unfold arguments
  have close (items : List Node) : Stays F (do
      expectPunct ")" "after arguments"
      return items : Parser (List Node)) :=
    .closing (by decide) fun _ _ => .pure _
  refine .read h fun _ _ => .check (.ite (fun _ => ?_) fun _ => ?_)
  · exact close [] _ _
  · exact (Stays.commaSeparated (listedInitializer_stays hg) _ _).bind close

omit hg in
theorem initializerList_stays : Stays F (initializerList g) :=
    fun _ _ => by
  unfold initializerList
  exact .mark fun m => .expectOpen

-- ============================================================ lambdas

omit hg in
theorem lambdaDeclarator_stays : Stays F lambdaDeclarator := fun _ _ => by
  unfold lambdaDeclarator
  refine .loop (fun _ t _ => .peek (.ite (fun _ => .pure _) fun _ =>
    .ite (fun h => ?_) fun _ => .ite (fun h => ?_) fun _ =>
    .ite (fun h => ?_) fun _ => ?_)) _
  · exact .group (by grind) fun _ _ => .pure _
  · exact (skipTemplateArguments_keeps (by grind)).bind fun _ _ _ => .pure _
  · exact .read (by grind) fun _ _ => .pure _
  · exact Keeps.bind (.failExpected _) fun _ _ _ => .pure _

omit hg in
theorem lambda_keeps (h : t.isPunct "\x7d" = false) :
    Keeps F t u (lambda g) := by
  unfold lambda
  have body (m : Mark) : Stays F (do
      lambdaDeclarator
      let body ← block g
      finish .lambdaExpression m [body]) := fun _ _ =>
    (lambdaDeclarator_stays _ _).bind fun _ _ _ =>
      (block_stays _ _).bind fun _ _ _ => .finish _ _ _
  have parameters (m : Mark) : Stays F (do
      if ← check (·.isPunct "(") then skipGroup "after lambda parameters"
      lambdaDeclarator
      let body ← block g
      finish .lambdaExpression m [body]) := fun t _ =>
    .check (.ite (fun h => .group (by grind) (body m)) fun _ => body m _ _)
  refine .mark fun m => .group h fun t _ =>
    .check (.ite (fun h => ?_) fun _ => parameters m _ _)
  exact (skipTemplateArguments_keeps (by grind)).bind fun _ =>
    parameters m

-- ================================================= primary expressions

theorem namedCast_keeps (h : t.isPunct "\x7d" = false) :
    Keeps F t u (namedCast g) := by
  unfold namedCast
  refine .mark fun m => .peek (.read h fun t _ =>
    .check (.ite (fun h => ?_) fun _ => .failExpected _))
  refine (skipTemplateArguments_keeps (by grind)).bind fun _ _ _ =>
    .expectPunct (by decide) fun _ _ =>
      (expression_stays hg _ _).bind fun _ _ _ =>
        .expectPunct (by decide) fun _ _ => .finish _ _ _

omit hg in
theorem decltypeName_keeps (h : t.isPunct "\x7d" = false) :
    Keeps F t u decltypeName := by
  unfold decltypeName
  refine .mark fun m => .read h fun t _ =>
    .check (.ite (fun h => ?_) fun _ => .failExpected _)
  refine .group (by grind) fun t _ => .acceptAny (by grind) fun _ _ _ => ?_
  exact .ite (fun _ => idExpression_stays _ _) fun _ => .finish _ _ _

omit hg in
theorem requiresExpression_keeps (h : t.isPunct "\x7d" = false) :
    Keeps F t u requiresExpression := by
  unfold requiresExpression
  have body (m : Mark) : Stays F (do
      if ← check (·.isPunct "\x7b") then
        skipGroup "after requirements"
        finish .builtinExpression m []
      else failExpected "'\x7b' after 'requires'") := fun t _ =>
    .check (.ite (fun h => .unopened h) fun _ => .failExpected _)
  refine .mark fun m => .read h fun t _ =>
    .check (.ite (fun h => ?_) fun _ => body m _ _)
  exact .group (by grind) (body m)

omit hg in
theorem typeKeywords_stays : Stays F typeKeywords := fun _ _ => by
  unfold typeKeywords
  refine .mark fun m => .loop (fun _ t _ => .peek (.ite (fun h => ?_)
    fun _ => .node fun _ => .pure _)) _
  refine .read (by grind) fun _ _ => .ite (fun _ => ?_) fun _ => .pure _
  exact (idExpression_stays _ _).bind fun _ _ _ => .node fun _ => .pure _

theorem keywordPrimary_keeps (h : t.isPunct "\x7d" = false) :
    Keeps F t u (keywordPrimary g) := by
  unfold keywordPrimary
  have leaf (kind : NodeKind) (m : Mark) : Keeps F t u
      (do advance; finish kind m []) :=
    .read h fun _ _ => .finish _ _ _
  refine .mark fun m => .peek ?_
  refine .ite (fun _ => leaf _ m) fun _ => .ite (fun _ => leaf _ m) fun _ =>
    .ite (fun _ => idExpression_stays _ _) fun _ =>
    .ite (fun _ => namedCast_keeps hg h) fun _ =>
    .ite (fun _ => decltypeName_keeps h) fun _ =>
    .ite (fun _ => requiresExpression_keeps h) fun _ =>
    .ite (fun _ => typeKeywords_stays _ _) fun _ => .failExpected _

theorem primary_stays : Stays F (primary g) := fun t u => by
  unfold primary
  refine .mark fun m => .peek ?_
  have leaf (kind : NodeKind) (h : t.isPunct "\x7d" = false) :
      Keeps F t u (do advance; finish kind m []) :=
    .read h fun _ _ => .finish _ _ _
  cases hkind : t.kind with
  | number => exact leaf _ (by grind)
  | character => exact leaf _ (by grind)
  | string =>
    exact (Stays.skipWhile (by grind) _ _).bind fun _ _ _ => .finish _ _ _
  | identifier => exact idExpression_stays _ _
  | operator =>
    exact .ite (fun _ => idExpression_stays _ _) fun _ =>
      .ite (fun _ => leaf _ (by grind)) fun _ => .failExpected _
  | keyword => exact keywordPrimary_keeps hg (by grind)
  | punctuation =>
    refine .ite (fun h => ?_) fun _ => .ite (fun h => ?_) fun _ =>
      .ite (fun _ => hg _ _ _) fun _ => .failExpected _
    · exact .read (by grind) fun _ _ =>
        (expression_stays hg _ _).bind fun _ _ _ =>
          .expectPunct (by decide) fun _ _ => .finish _ _ _
    · exact lambda_keeps (by grind)
  | directive => exact .failExpected _
  | endOfFile => exact .failExpected _

-- ================================================= postfix operators

omit hg in
theorem member_keeps (m : Mark) (object : Node)
    (h : t.isPunct "\x7d" = false) : Keeps F t u (member m object) := by
  unfold member
  refine .peek (.read h fun t _ => .acceptAny (by grind) fun _ t _ =>
    .check (.ite (fun _ => ?_) fun _ => .failExpected _))
  exact (idExpression_stays _ _).bind fun _ _ _ => .finish _ _ _

theorem postfixRound_stays (m : Mark) (object : Node) :
    Stays F (postfixRound g m object) := fun t _ => by
  unfold postfixRound
  refine .peek (.ite (fun h => ?_) fun _ => .ite (fun h => ?_) fun _ =>
    .ite (fun _ => ?_) fun _ => .ite (fun h => ?_) fun _ =>
    .ite (fun h => ?_) fun _ => .pure _)
  · exact (arguments_keeps hg (by grind)).bind fun _ _ _ =>
      .node fun _ => .pure _
  · exact .read (by grind) fun _ _ =>
      (initializerOrExpression_stays hg _ _).bind fun _ _ _ =>
        .expectPunct (by decide) fun _ _ => .node fun _ => .pure _
  · exact (hg _ _ _).bind fun _ _ _ => .node fun _ => .pure _
  · exact (member_keeps m object (by grind)).bind fun _ _ _ => .pure _
  · exact .read (by grind) fun _ _ => .node fun _ => .pure _

theorem postfixOperators_stays (m : Mark) (object : Node) :
    Stays F (postfixOperators g m object) := fun _ _ =>
  .loop (postfixRound_stays hg m) object

theorem postfixExpression_stays : Stays F (postfixExpression g) :=
    fun _ _ => by
  unfold postfixExpression
  exact .mark fun m => (primary_stays hg _ _).bind
    (postfixOperators_stays hg m)

-- ==================================================== unary operators

omit hg in
theorem newType_stays : Stays F newType := fun _ _ => by
  unfold newType
  refine Keeps.bind (.loop (fun _ t _ => .peek ?_) _) fun _ _ _ =>
    .loop (fun _ t _ => .check (.ite (fun h => ?_) fun _ => .pure _)) _
  · refine .ite (fun h => ?_) fun _ => .ite (fun h => ?_) fun _ =>
      .ite (fun h => ?_) fun _ => .pure _
    · exact .read (by grind) fun _ _ => .pure _
    · exact .read (by grind) fun _ _ => .pure _
    · exact (skipTemplateArguments_keeps (by grind)).bind fun _ _ _ =>
        .pure _
  · exact .group (by grind) fun _ _ => .pure _

theorem newExpression_keeps (h : t.isPunct "\x7d" = false) :
    Keeps F t u (newExpression g) := by
  unfold newExpression
  have rest (m : Mark) : Stays F (do
      newType
      let children ←
        if ← check (·.isPunct "(") then arguments g
        else if ← check (·.isPunct "\x7b") then
          pure [← g.parse .initializerList]
        else pure []
      finish .newExpression m children) := fun _ _ => by
    refine (newType_stays _ _).bind fun _ t _ => .check (.check
      (.ite (fun h => ?_) fun _ => .ite (fun _ => ?_) fun _ => ?_))
    · exact (arguments_keeps hg (by grind)).bind fun _ _ _ =>
        .finish _ _ _
    · exact (hg _ _ _).bind fun _ _ _ => .finish _ _ _
    · exact .finish _ _ _
  refine .mark fun m => .read h fun t _ =>
    .check (.ite (fun h => ?_) fun _ => rest m _ _)
  exact .group (by grind) (rest m)

theorem deleteExpression_keeps (h : t.isPunct "\x7d" = false) :
    Keeps F t u (deleteExpression g) := by
  unfold deleteExpression
  have operand (m : Mark) : Stays F (do
      let operand ← g.parse .operand
      finish .deleteExpression m [operand]) := fun _ _ =>
    (hg _ _ _).bind fun _ _ _ => .finish _ _ _
  refine .mark fun m => .read h fun t _ => .check (.peekNext
    (.ite (fun h => ?_) fun _ => operand m _ _))
  exact .advance (by grind) fun _ _ => .read (by grind) (operand m)

theorem unary_keeps (h : t.isPunct "\x7d" = false) :
    Keeps F t u (unary g) := by
  unfold unary
  exact .mark fun m => .read h fun _ _ => (hg _ _ _).bind fun _ _ _ =>
    .finish _ _ _

theorem parenthesizedCast_keeps (h : t.isPunct "\x7d" = false) :
    Keeps F t u (parenthesizedCast g) := by
  unfold parenthesizedCast
  refine .mark fun m => .group h fun _ _ => .check (.ite (fun _ => ?_)
    fun _ => ?_)
  · exact (hg _ _ _).bind fun _ _ _ => .finish _ _ _
  · exact (hg _ _ _).bind fun _ _ _ => .finish _ _ _

/-- The operand of a pack may be any token; it is not the brace, since
what stands in front of that is a semicolon. -/
theorem sizeofExpression_keeps (h : t.isPunct "\x7d" = false) :
    Keeps F t u (sizeofExpression g) := by
  unfold sizeofExpression
  refine .mark fun m => .advance h fun v _ => .accept (by grind)
    (fun hpack w hnext => ?_) fun _ => .check (.ite (fun hopen => ?_)
      fun _ => ?_)
  · exact .check (.group (hnext (by grind)) fun _ _ => .finish _ _ _)
  · exact .group (by grind) fun _ _ => .finish _ _ _
  · exact (hg _ _ _).bind fun _ _ _ => .finish _ _ _

theorem keywordCall_keeps (h : t.isPunct "\x7d" = false) :
    Keeps F t u (keywordCall g) := by
  unfold keywordCall
  refine .mark fun m => .peek (.read h fun t _ =>
    .check (.ite (fun h => ?_) fun _ => .failExpected _))
  exact .group (by grind) fun _ _ => .node fun _ =>
    postfixOperators_stays hg _ _ _ _

theorem castExpression_stays : Stays F (castExpression g) := fun t u => by
  have post := postfixExpression_stays hg t u
  unfold castExpression
  refine .peek ?_
  cases hkind : t.kind with
  | punctuation =>
    refine .ahead fun isCast => .ite (fun h => ?_) fun _ => post
    exact parenthesizedCast_keeps hg (by grind)
  | operator =>
    refine .ite (fun _ => unary_keeps hg (by grind)) fun _ =>
      .ite (fun _ => .peekNext ?_) fun _ => post
    refine .ite (fun hnew => ?_) fun _ => .ite (fun hdelete => ?_)
      fun _ => post
    · exact .advance (by grind) fun _ _ => newExpression_keeps hg (by grind)
    · exact .advance (by grind) fun _ _ =>
        deleteExpression_keeps hg (by grind)
  | keyword =>
    have h : t.isPunct "\x7d" = false := by grind
    exact .ite (fun _ => sizeofExpression_keeps hg h) fun _ =>
      .ite (fun _ => keywordCall_keeps hg h) fun _ =>
      .ite (fun _ => newExpression_keeps hg h) fun _ =>
      .ite (fun _ => deleteExpression_keeps hg h) fun _ =>
      .ite (fun _ => unary_keeps hg h) fun _ => post
  | _ => exact post

-- =================================================== binary operators

theorem binary_stays (levels : List (List String)) :
    Stays F (binary g levels) := by
  induction levels with
  | nil => exact castExpression_stays hg
  | cons level tighter ih =>
    intro _ _
    unfold binary
    refine .mark fun m => (ih _ _).bind fun first _ _ =>
      Keeps.bind (.loop (fun others t _ => ?_) _) fun others _ _ => ?_
    · refine .acceptAny (by grind [isOneOf]) fun _ _ _ =>
        .ite (fun _ => ?_) fun _ => .pure _
      exact (ih _ _).bind fun _ _ _ => .pure _
    · exact .ite (fun _ => .pure _) fun _ => .finish _ _ _

-- ==================================== operators that group to the right

omit hg in
theorem closeAll_stays (operand : Node) (waiting : List Waiting) :
    Stays F (closeAll operand waiting) := by
  induction waiting generalizing operand with
  | nil => exact fun _ _ => .pure _
  | cons w ws ih =>
    intro _ _
    unfold closeAll
    refine Keeps.bind ?_ fun n => ih n
    cases w <;> exact .finish _ _ _

omit hg in
/-- The loop is done with a node. -/
theorem closed_stays {α : Type} (operand : Node)
    (waiting : List Waiting) : Stays F (do
      return .done (← closeAll operand waiting) : Parser (Round α Node)) :=
  fun _ _ => (closeAll_stays operand waiting _ _).bind fun _ _ _ => .pure _

theorem rightRound_stays (assignment : Bool) (waiting : List Waiting) :
    Stays F (rightRound g assignment waiting) := fun t u => by
  unfold rightRound
  refine .ite (fun _ => .fail _) fun _ => .mark fun m => .peek ?_
  refine .ite (fun h => ?_) fun _ => .ite (fun h => ?_) fun _ => ?_
  · refine .read (by grind) fun _ _ => .check (.ite (fun _ => ?_)
      fun _ => .pure _)
    exact .node fun _ => closed_stays _ _ _ _
  · refine .read (by grind) fun _ _ => .check (.ite (fun _ => ?_)
      fun _ => .pure _)
    exact (hg _ _ _).bind fun _ _ _ => .node fun _ => closed_stays _ _ _ _
  · refine (binary_stays hg _ _ _).bind fun operand t _ =>
      .acceptAny (by grind) fun _ t _ => .ite (fun _ => ?_) fun _ =>
        .peek (.ite (fun h => ?_) fun _ => closed_stays _ _ _ _)
    · exact (expression_stays hg _ _).bind fun _ _ _ =>
        .expectOperator fun _ _ => .pure _
    · refine .read (by grind [isOneOf]) fun _ _ =>
        .check (.ite (fun _ => ?_) fun _ => .pure _)
      exact (hg _ _ _).bind fun _ => closed_stays _ _

theorem rightGrouped_stays (assignment : Bool) :
    Stays F (rightGrouped g assignment) := fun _ _ =>
  .loop (rightRound_stays hg assignment) _

end

end FrontEnd.Grammar
