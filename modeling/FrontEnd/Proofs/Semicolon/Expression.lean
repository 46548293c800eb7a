/-
Groups, names and expressions in front of a semicolon. There are no brackets
in front of it, so that no group begins, no arguments come and no lambda; the
other rules look at a token before they read it.
-/
import FrontEnd.Grammar.Expression
import FrontEnd.Proofs.Semicolon.Basic

namespace FrontEnd.Grammar

variable {S : Stretch} {t u : Token} {g : Inner}

/-- The rule stays in front of the semicolon if these tokens come next. -/
abbrev RemainsAt (S : Stretch) (t u : Token) {α : Type} (p : Parser α) :
    Prop :=
  Halts S t u (fun _ => S.Holds) p

-- ================================================================ groups

theorem skipTemplateArguments_remains (h : t.isPunct ";" = false) :
    RemainsAt S t u skipTemplateArguments := by
  unfold skipTemplateArguments
  refine .read h (Remains.loop (fun angles t _ => .peek ?_) _)
  refine .ite (fun _ => Remains.pure _ _ _) fun _ =>
    .ite (fun hopen => .never (by grind)) fun _ =>
    .ite (fun _ => .failExpected _) fun hnext => ?_
  exact .read (by grind) (Remains.pure _)

theorem skipToSemicolon_concludes (context : String) :
    Concludes S (skipToSemicolon context) := fun _ _ => by
  unfold skipToSemicolon
  refine .loop (fun _ t _ => .peek ?_) _
  refine .ite (fun h => .shut h rfl) fun _ =>
    .ite (fun hopen => .never (by grind)) fun _ =>
    .ite (fun _ => .failExpected _) fun hnext => ?_
  exact .read (by grind) fun _ _ => .pure _ fun _ => id

theorem skipAttributes_remains : Remains S skipAttributes := by
  unfold skipAttributes
  refine .loop (fun _ t _ => .check (.peekNext ?_)) _
  exact .ite (fun h => .never (by grind)) fun _ => Remains.pure _ _ _

-- ================================================================= names

theorem operatorName_remains (h : t.isPunct ";" = false) :
    RemainsAt S t u operatorName := by
  unfold operatorName
  refine .read h fun t u => .peek (.peekNext ?_)
  refine .ite (fun h => .never (by grind)) fun _ => .ite (fun _ => ?_)
    fun _ => .ite (fun _ => ?_) fun _ => .ite (fun _ => ?_) fun _ =>
    .failExpected _
  · exact .last (by grind)
  · refine .read (by grind) fun _ _ => ?_
    rw [← bind_pure expectName]
    exact .expectName (Remains.pure _)
  · exact .read (by grind) (Remains.skipWhile (by grind))

theorem nameTail_remains : Remains S nameTail := fun t u => by
  have tail : Remains S (accept (·.isOperator "::")) := fun t u => by
    rw [← bind_pure (accept _)]
    exact .acceptAny (by grind) fun _ => Remains.pure _
  unfold nameTail
  refine .check (.ahead fun _ => .ite (fun h => ?_) fun _ => tail _ _)
  exact (skipTemplateArguments_remains (by grind)).bind fun _ => tail

theorem nameRound_remains : Remains S nameRound := fun t u => by
  unfold nameRound
  have tail : Remains S (do
      if ← nameTail then return .again () else return .done () :
      Parser (Round Unit Unit)) := fun _ _ =>
    (nameTail_remains _ _).bind fun _ _ _ =>
      .ite (fun _ => Remains.pure _ _ _) fun _ => Remains.pure _ _ _
  refine .peek (.ite (fun _ => ?_) fun _ => .ite (fun _ => ?_) fun _ =>
    .ite (fun _ => ?_) fun _ => .ite (fun _ => ?_) fun _ => ?_)
  · exact .read (by grind) (Remains.pure _)
  · exact .read (by grind) tail
  · exact (operatorName_remains (by grind)).bind fun _ => tail
  · exact .read (by grind) fun _ _ => .expectName tail
  · exact .refused (.failExpected _)

theorem idExpression_remains : Remains S idExpression := fun t u => by
  unfold idExpression
  refine .mark fun m => .acceptAny (by grind) fun _ _ _ => ?_
  exact (Remains.loop (fun _ => nameRound_remains) _ _ _).bind
    fun _ _ _ => .finish _ _ _

-- ================================================================ blocks

theorem block_refuses : Refuses S (block g) := fun _ _ => by
  unfold block
  exact .mark fun m => .expectBracket (by grind)

theorem tryBlock_halts {Q : Node → State → Prop}
    (h : t.isPunct ";" = false) : Halts S t u Q (tryBlock g) := by
  unfold tryBlock
  exact .mark fun m => .read h fun _ _ => .refused (block_refuses _ _)

-- ================================================= primary expressions

theorem namedCast_remains (h : t.isPunct ";" = false) :
    RemainsAt S t u (namedCast g) := by
  unfold namedCast
  refine .mark fun m => .peek (.read h fun t _ =>
    .check (.ite (fun h => ?_) fun _ => .failExpected _))
  exact (skipTemplateArguments_remains (by grind)).bind fun _ _ _ =>
    .expectBracket (by grind)

theorem decltypeName_remains (h : t.isPunct ";" = false) :
    RemainsAt S t u decltypeName := by
  unfold decltypeName
  exact .mark fun m => .read h fun t _ =>
    .unbracketed (by grind) (.failExpected _)

theorem requiresExpression_remains (h : t.isPunct ";" = false) :
    RemainsAt S t u requiresExpression := by
  unfold requiresExpression
  exact .mark fun m => .read h fun t _ => .unbracketed (by grind)
    (.unbracketed (by grind) (.failExpected _))

theorem typeKeywords_remains : Remains S typeKeywords := fun _ _ => by
  unfold typeKeywords
  refine .mark fun m => Remains.loop (fun _ t _ => .peek
    (.ite (fun h => ?_) fun _ => .node fun _ => Remains.pure _ _ _)) _ _ _
  refine .read (by grind) fun _ _ => .ite (fun _ => ?_) fun _ =>
    Remains.pure _ _ _
  exact (idExpression_remains _ _).bind fun _ _ _ =>
    .node fun _ => Remains.pure _ _ _

theorem keywordPrimary_remains (h : t.isPunct ";" = false) :
    RemainsAt S t u (keywordPrimary g) := by
  unfold keywordPrimary
  have leaf (kind : NodeKind) (m : Mark) : RemainsAt S t u
      (do advance; finish kind m []) :=
    .read h fun _ _ => .finish _ _ _
  refine .mark fun m => .peek ?_
  refine .ite (fun _ => leaf _ m) fun _ => .ite (fun _ => leaf _ m) fun _ =>
    .ite (fun _ => idExpression_remains _ _) fun _ =>
    .ite (fun _ => namedCast_remains h) fun _ =>
    .ite (fun _ => decltypeName_remains h) fun _ =>
    .ite (fun _ => requiresExpression_remains h) fun _ =>
    .ite (fun _ => typeKeywords_remains _ _) fun _ => .failExpected _

theorem primary_remains : Remains S (primary g) := fun t u => by
  unfold primary
  refine .mark fun m => .peek ?_
  have leaf (kind : NodeKind) (h : t.isPunct ";" = false) :
      RemainsAt S t u (do advance; finish kind m []) :=
    .read h fun _ _ => .finish _ _ _
  cases hkind : t.kind with
  | number => exact leaf _ (by grind)
  | character => exact leaf _ (by grind)
  | string =>
    exact (Remains.skipWhile (by grind) _ _).bind fun _ _ _ =>
      .finish _ _ _
  | identifier => exact idExpression_remains _ _
  | operator =>
    exact .ite (fun _ => idExpression_remains _ _) fun _ =>
      .ite (fun _ => leaf _ (by grind)) fun _ => .failExpected _
  | keyword => exact keywordPrimary_remains (by grind)
  | punctuation =>
    exact .ite (fun h => .never (by grind)) fun _ =>
      .ite (fun h => .never (by grind)) fun _ =>
      .ite (fun h => .never (by grind)) fun _ => .failExpected _
  | directive => exact .failExpected _
  | endOfFile => exact .failExpected _

-- ================================================= postfix operators

theorem member_remains (m : Mark) (object : Node)
    (h : t.isPunct ";" = false) : RemainsAt S t u (member m object) := by
  unfold member
  refine .peek (.read h fun t _ => .acceptAny (by grind) fun _ t _ =>
    .check (.ite (fun _ => ?_) fun _ => .failExpected _))
  exact (idExpression_remains _ _).bind fun _ _ _ => .finish _ _ _

theorem postfixRound_remains (m : Mark) (object : Node) :
    Remains S (postfixRound g m object) := fun t _ => by
  unfold postfixRound
  refine .peek (.ite (fun h => .never (by grind)) fun _ =>
    .ite (fun h => .never (by grind)) fun _ =>
    .ite (fun h => .never (by grind)) fun _ => .ite (fun h => ?_) fun _ =>
    .ite (fun h => ?_) fun _ => Remains.pure _ _ _)
  · exact (member_remains m object (by grind)).bind fun _ =>
      Remains.pure _
  · exact .read (by grind) fun _ _ => .node fun _ => Remains.pure _ _ _

theorem postfixExpression_remains : Remains S (postfixExpression g) :=
    fun _ _ => by
  unfold postfixExpression postfixOperators
  exact .mark fun m => (primary_remains _ _).bind fun object =>
    Remains.loop (postfixRound_remains m) object

-- ============================================== keywords with operands

theorem newType_remains : Remains S newType := fun _ _ => by
  unfold newType
  refine (Remains.loop (fun _ t _ => .peek ?_) _ _ _).bind fun _ =>
    Remains.loop (fun _ t _ => .unbracketed (by grind)
      (Remains.pure _ _ _)) _
  refine .ite (fun h => ?_) fun _ => .ite (fun h => ?_) fun _ =>
    .ite (fun h => ?_) fun _ => Remains.pure _ _ _
  · exact .read (by grind) (Remains.pure _)
  · exact .read (by grind) (Remains.pure _)
  · exact (skipTemplateArguments_remains (by grind)).bind fun _ =>
      Remains.pure _

theorem newExpression_remains (h : t.isPunct ";" = false) :
    RemainsAt S t u (newExpression g) := by
  unfold newExpression
  refine .mark fun m => .read h fun t _ => .unbracketed (by grind) ?_
  refine (newType_remains _ _).bind fun _ t _ => .unbracketed (by grind)
    (.unbracketed (by grind) ?_)
  exact .finish _ _ _

theorem keywordCall_remains (h : t.isPunct ";" = false) :
    RemainsAt S t u (keywordCall g) := by
  unfold keywordCall
  exact .mark fun m => .peek (.read h fun t _ =>
    .unbracketed (by grind) (.failExpected _))

-- ================================================ waiting operators

theorem closeAll_remains (operand : Node) (waiting : List Waiting) :
    Remains S (closeAll operand waiting) := by
  induction waiting generalizing operand with
  | nil => exact Remains.pure _
  | cons w ws ih =>
    intro _ _
    unfold closeAll
    refine Halts.bind ?_ fun n => ih n
    cases w <;> exact .finish _ _ _

/-- The loop is done with a node. -/
theorem closed_remains {α : Type} (operand : Node)
    (waiting : List Waiting) : Remains S (do
      return .done (← closeAll operand waiting) : Parser (Round α Node)) :=
  fun _ _ => (closeAll_remains operand waiting _ _).bind fun _ =>
    Remains.pure _

-- ====================================================== the level below

/-- What is known of the rules of the level below. No statement and no
initializers in braces come. -/
structure Inner.Stops (S : Stretch) (g : Inner) : Prop where
  declaration : Concludes S (g.parse .declaration)
  assignment : Remains S (g.parse .assignment)
  conditional : Remains S (g.parse .conditional)
  operand : Remains S (g.parse .operand)

section

variable (hg : g.Stops S)
include hg

-- =================================================== whole expressions

theorem expression_remains : Remains S (expression g) := fun _ _ => by
  unfold expression
  refine .mark fun m =>
    (Remains.commaSeparated hg.assignment _ _).bind fun operands _ _ => ?_
  split
  · exact Remains.pure _ _ _
  · exact .finish _ _ _

theorem initializer_remains : Remains S (initializer g) := fun _ _ => by
  unfold initializer
  exact .unbracketed (by grind) (hg.assignment _ _)

-- ==================================================== unary operators

theorem deleteExpression_remains (h : t.isPunct ";" = false) :
    RemainsAt S t u (deleteExpression g) := by
  unfold deleteExpression
  refine .mark fun m => .read h fun t _ => .check (.peekNext
    (.ite (fun h => .never (by grind)) fun _ => ?_))
  exact (hg.operand _ _).bind fun _ _ _ => .finish _ _ _

theorem unary_remains (h : t.isPunct ";" = false) :
    RemainsAt S t u (unary g) := by
  unfold unary
  exact .mark fun m => .read h fun _ _ => (hg.operand _ _).bind
    fun _ _ _ => .finish _ _ _

theorem castExpression_remains : Remains S (castExpression g) :=
    fun t u => by
  have post : RemainsAt S t u (postfixExpression g) :=
    postfixExpression_remains t u
  unfold castExpression
  refine .peek ?_
  cases hkind : t.kind with
  | punctuation =>
    exact .ahead fun isCast => .ite (fun h => .never (by grind)) fun _ =>
      post
  | operator =>
    refine .ite (fun _ => unary_remains hg (by grind)) fun _ =>
      .ite (fun _ => .peekNext ?_) fun _ => post
    refine .ite (fun hnew => ?_) fun _ => .ite (fun hdelete => ?_)
      fun _ => post
    · exact .advance (by grind) fun _ => newExpression_remains (by grind)
    · exact .advance (by grind) fun _ =>
        deleteExpression_remains hg (by grind)
  | keyword =>
    have h : t.isPunct ";" = false := by grind
    exact .ite (fun hsize => .never (by grind)) fun _ =>
      .ite (fun _ => keywordCall_remains h) fun _ =>
      .ite (fun _ => newExpression_remains h) fun _ =>
      .ite (fun _ => deleteExpression_remains hg h) fun _ =>
      .ite (fun _ => unary_remains hg h) fun _ => post
  | _ => exact post

-- =================================================== binary operators

theorem binary_remains (levels : List (List String)) :
    Remains S (binary g levels) := by
  induction levels with
  | nil => exact castExpression_remains hg
  | cons level tighter ih =>
    intro _ _
    unfold binary
    refine .mark fun m => (ih _ _).bind fun first _ _ =>
      (Remains.loop (fun others t _ => ?_) _ _ _).bind fun others _ _ => ?_
    · refine .acceptAny (by grind [isOneOf]) fun _ _ _ =>
        .ite (fun _ => ?_) fun _ => Remains.pure _ _ _
      exact (ih _ _).bind fun _ => Remains.pure _
    · exact .ite (fun _ => Remains.pure _ _ _) fun _ => .finish _ _ _

-- ==================================== operators that group to the right

theorem rightRound_remains (assignment : Bool) (waiting : List Waiting) :
    Remains S (rightRound g assignment waiting) := fun t u => by
  unfold rightRound
  refine .ite (fun _ => .fail _) fun _ => .mark fun m => .peek ?_
  refine .ite (fun h => ?_) fun _ => .ite (fun h => ?_) fun _ => ?_
  · refine .read (by grind) fun _ _ => .check (.ite (fun _ => ?_)
      fun _ => Remains.pure _ _ _)
    exact .node fun _ => closed_remains _ _ _ _
  · refine .read (by grind) fun _ _ => .unbracketed (by grind)
      (Remains.pure _ _ _)
  · refine (binary_remains hg _ _ _).bind fun operand t _ =>
      .acceptAny (by grind) fun _ t _ => .ite (fun _ => ?_) fun _ =>
        .peek (.ite (fun h => ?_) fun _ => closed_remains _ _ _ _)
    · exact (expression_remains hg _ _).bind fun _ _ _ =>
        .expectOperator (Remains.pure _)
    · exact .read (by grind [isOneOf]) fun _ _ => .unbracketed (by grind)
        (Remains.pure _ _ _)

theorem rightGrouped_remains (assignment : Bool) :
    Remains S (rightGrouped g assignment) :=
  Remains.loop (rightRound_remains hg assignment) _

end

end FrontEnd.Grammar
