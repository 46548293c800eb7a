/-
What the rules of blocks and expressions build. The proofs go along the
text of the rules: each says which of the tokens that the rule reads
itself are brackets, and where these enclose what comes between them. An
operator that waits for its last operand was begun in front of everything
that its node will hold (`Awaits`), so that the nodes of right-grouping
operators are finished in their order as well.
-/
import FrontEnd.Proofs.Built.Group

namespace FrontEnd.Grammar

variable {tokens : List Token} {g : Inner} {s : State}

/-- The constructs of the level below are sound, and the nodes in them are
built as they are listed. -/
structure Inner.Builds (tokens : List Token) (g : Inner) : Prop where
  sound : g.Sound tokens
  built : ∀ goal s, Makes tokens g.policy (g.parse goal) s

variable (hg : g.Builds tokens)
include hg

-- ================================================================ blocks

theorem block_built : Makes tokens g.policy (block g) s := by
  unfold block
  refine .mark (.expect fun hopen => ?_)
  refine (sequence_built (hg.sound .statement) (hg.built .statement) _
    _).bind fun _ s₁ h₁ => .expect fun hclose => .finish ?_
  exact .node _ (.braces hopen h₁ hclose)

theorem handlers_built : Gives tokens (handlers g) s
    fun ns s' => Built g.policy s ns.reverse s' := by
  unfold handlers
  refine .loop (fun done s' => Built g.policy s done.reverse s') ?_ (.here s)
  intro done s₁ h₁
  refine .check (.ite (fun hcatch => ?_) fun _ => .pure h₁)
  refine .mark (.advance (.check (.ite (fun hopen => ?_)
    fun _ => .failExpected)))
  have hread : Built g.policy s₁ [] s₁.advance := .read (by grind)
  refine (skipGroup_built _ (by grind)).after hread fun _ s₂ h₂ => ?_
  refine (block_built hg).after h₂ fun body s₃ h₃ => .node (.pure ?_)
  exact h₁.push (.node _ h₃)

theorem tryBlock_built (h : s.peek.isBracket = false) :
    Makes tokens g.policy (tryBlock g) s := by
  unfold tryBlock
  refine .mark (.advance ((block_built hg).after (.read h)
    fun body s₁ h₁ => ?_))
  refine (handlers_built hg).bind fun done s₂ h₂ => ?_
  refine .ite (fun _ => .failExpected) fun _ => .finish ?_
  exact .node _ (h₁.trans h₂)

-- =================================================== whole expressions

theorem expression_built : Makes tokens g.policy (expression g) s := by
  unfold expression
  refine .mark ((commaSeparated_built (hg.built .assignment)).bind
    fun ns s₁ h₁ => ?_)
  split
  case h_1 n => exact .pure h₁
  case h_2 => exact .finish (.node _ h₁)

theorem initializer_built : Makes tokens g.policy (initializer g) s := by
  unfold initializer
  exact .check (.ite (fun _ => hg.built _ s) fun _ => hg.built _ s)

theorem initializerOrExpression_built :
    Makes tokens g.policy (initializerOrExpression g) s := by
  unfold initializerOrExpression
  exact .check (.ite (fun _ => hg.built _ s) fun _ => expression_built hg)

theorem listedInitializer_built :
    Makes tokens g.policy (listedInitializer g) s := by
  unfold listedInitializer
  refine .mark ((initializer_built hg).bind fun item s₁ h₁ => ?_)
  refine .accept (fun hnext => .finish ?_) fun _ => .pure h₁
  exact .node _ (h₁.next (by grind))

theorem arguments_built (hopen : s.peek.isPunct "(" = true) :
    Lists tokens g.policy (arguments g) s := by
  unfold arguments
  have rest {ns : List Node} {s' : State}
      (h : Built g.policy s.advance ns s') : Gives tokens (do
        expectPunct ")" "after arguments"
        return ns) s' fun ns s'' => Built g.policy s ns s'' :=
    .expect fun hclose => .pure (.parens hopen h hclose)
  refine .advance (.check (.ite (fun _ => rest (.here _)) fun _ => ?_))
  exact (commaSeparated_built fun _ => listedInitializer_built hg).bind
    fun _ _ => rest

omit hg in
theorem designator_built {policy : Policy} :
    Passes tokens policy designator s := by
  unfold designator
  refine .check (.peekAt (.ite (fun hnext => ?_) fun _ => .pure (.here s)))
  have hend : s.peek.isEnd = false := by grind
  rw [← s.advance_peek hend] at hnext
  have hname : Built policy s [] s.advance.advance :=
    .behind (by grind) (.read (by grind))
  refine .advance (.advance (.check (.ite (fun _ => .pure hname)
    fun _ => .expected fun hequals => ?_)))
  exact hname.next (by grind)

theorem initializerList_built :
    Makes tokens g.policy (initializerList g) s := by
  unfold initializerList
  refine .mark (.expect fun hopen => ?_)
  refine Gives.bind (P := fun done s' =>
    Built g.policy s.advance done.reverse s') ?_ fun done s₁ h₁ =>
    .expect fun hclose => .finish (.node _ (.braces hopen h₁ hclose))
  refine .loop (fun done s' => Built g.policy s.advance done.reverse s') ?_
    (.here _)
  intro done s₁ h₁
  refine .check (.ite (fun _ => .pure h₁) fun _ => ?_)
  refine designator_built.after h₁ fun _ s₂ h₂ => ?_
  refine (listedInitializer_built hg).bind fun item s₃ h₃ => ?_
  have hpush := h₂.push h₃
  exact .accept (fun hcomma => .pure (hpush.next (by grind)))
    fun _ => .pure hpush

-- =============================================================== lambdas

omit hg in
theorem lambdaDeclarator_built {policy : Policy} :
    Passes tokens policy lambdaDeclarator s := by
  unfold lambdaDeclarator
  refine .loop (fun _ s' => Built policy s [] s') ?_ (.here s)
  intro _ s₁ h₁
  refine .peek (.ite (fun _ => .pure h₁) fun _ => .ite (fun ht => ?_)
    fun _ => .ite (fun ht => ?_) fun _ => .ite (fun ht => ?_)
    fun _ => .gaveUp)
  · exact (skipGroup_built _ (by grind)).after h₁ fun _ _ h => .pure h
  · exact (skipTemplateArguments_built (by grind)).after h₁
      fun _ _ h => .pure h
  · exact .advance (.pure (h₁.next (by grind)))

theorem lambda_built (hopen : s.peek.opens = true) :
    Makes tokens g.policy (lambda g) s := by
  unfold lambda
  have body {s' : State} (h : Built g.policy s [] s') : Gives tokens (do
      lambdaDeclarator
      let body ← block g
      finish .lambdaExpression s.mark [body]) s'
      fun n s'' => Built g.policy s [n] s'' :=
    lambdaDeclarator_built.after h fun _ _ h₁ =>
      (block_built hg).after h₁ fun _ _ h₂ => .finish (.node _ h₂)
  have parameters {s' : State} (h : Built g.policy s [] s') :
      Gives tokens (do
        if ← check (·.isPunct "(") then skipGroup "after lambda parameters"
        lambdaDeclarator
        let body ← block g
        finish .lambdaExpression s.mark [body]) s'
        fun n s'' => Built g.policy s [n] s'' := by
    refine .check (.ite (fun hparen => ?_) fun _ => body h)
    exact (skipGroup_built _ (by grind)).after h fun _ _ => body
  refine .mark ((skipGroup_built _ hopen).after (.here s) fun _ s₁ h₁ =>
    .check (.ite (fun hless => ?_) fun _ => parameters h₁))
  exact (skipTemplateArguments_built (by grind)).after h₁
    fun _ _ => parameters

-- =================================================== primary expressions

theorem namedCast_built (h : s.peek.isBracket = false) :
    Makes tokens g.policy (namedCast g) s := by
  unfold namedCast
  have hread : Built g.policy s [] s.advance := .read h
  refine .mark (.peek (.advance (.check (.ite (fun hless => ?_)
    fun _ => .failExpected))))
  refine (skipTemplateArguments_built (by grind)).after hread
    fun _ s₁ h₁ => .expect fun hopen => ?_
  refine (expression_built hg).bind fun operand s₂ h₂ =>
    .expect fun hclose => .finish ?_
  exact .node _ (h₁.trans (.parens hopen h₂ hclose))

omit hg in
theorem decltypeName_built {policy : Policy}
    (h : s.peek.isBracket = false) :
    Gives tokens decltypeName s fun n s' => Built policy s [n] s' := by
  unfold decltypeName
  have hread : Built policy s [] s.advance := .read h
  refine .mark (.advance (.check (.ite (fun hopen => ?_)
    fun _ => .failExpected)))
  refine (skipGroup_built _ (by grind)).after hread fun _ s₁ h₁ => ?_
  refine .accept (fun hnext => ?_) fun _ => .finish (.node _ h₁)
  exact idExpression_built.mono fun n s₂ h₂ =>
    (h₁.next (by grind)).trans h₂

omit hg in
theorem requiresExpression_built {policy : Policy}
    (h : s.peek.isBracket = false) :
    Makes tokens policy requiresExpression s := by
  unfold requiresExpression
  have body {s' : State} (h : Built policy s [] s') : Gives tokens (do
      if ← check (·.isPunct "\x7b") then
        skipGroup "after requirements"
        finish .builtinExpression s.mark []
      else failExpected "'\x7b' after 'requires'") s'
      fun n s'' => Built policy s [n] s'' := by
    refine .check (.ite (fun hopen => ?_) fun _ => .failExpected)
    exact (skipGroup_built _ (by grind)).after h
      fun _ _ h' => .finish (.node _ h')
  refine .mark (.advance (.check (.ite (fun hopen => ?_)
    fun _ => body (.read h))))
  have hread : Built policy s [] s.advance := .read h
  exact (skipGroup_built _ (by grind)).after hread fun _ _ => body

omit hg in
theorem typeKeywords_built {policy : Policy} :
    Makes tokens policy typeKeywords s := by
  unfold typeKeywords
  refine .mark (.loop (fun _ s' => Built policy s [] s') ?_ (.here s))
  intro _ s₁ h₁
  refine .peek (.ite (fun ht => .advance ?_)
    fun _ => .node (.pure (.node _ h₁)))
  have h₂ := h₁.next (by grind)
  refine .ite (fun _ => ?_) fun _ => .pure h₂
  exact idExpression_built.after h₂
    fun name s₃ h₃ => .node (.pure (.node _ h₃))

omit hg in
/-- A node of the one token that comes next. -/
theorem leaf_built {policy : Policy} (kind : NodeKind)
    (h : s.peek.isBracket = false) :
    Makes tokens policy (do advance; finish kind s.mark []) s :=
  .advance (.finish (.node _ (.read h)))

theorem keywordPrimary_built (hkind : s.peek.kind = .keyword) :
    Makes tokens g.policy (keywordPrimary g) s := by
  have h : s.peek.isBracket = false := by grind
  unfold keywordPrimary
  exact .mark (.peek (.ite (fun _ => leaf_built _ h) fun _ =>
    .ite (fun _ => leaf_built _ h) fun _ =>
    .ite (fun _ => idExpression_built) fun _ =>
    .ite (fun _ => namedCast_built hg h) fun _ =>
    .ite (fun _ => decltypeName_built h) fun _ =>
    .ite (fun _ => requiresExpression_built h) fun _ =>
    .ite (fun _ => typeKeywords_built) fun _ => .failExpected))

theorem primary_built : Makes tokens g.policy (primary g) s := by
  unfold primary
  refine .mark (.peek ?_)
  cases hkind : s.peek.kind with
  | number => exact leaf_built _ (by grind)
  | character => exact leaf_built _ (by grind)
  | string =>
    exact (skipWhile_built (by grind)).after (.here s)
      fun _ _ h₁ => .finish (.node _ h₁)
  | identifier => exact idExpression_built
  | operator =>
    exact .ite (fun _ => idExpression_built) fun _ =>
      .ite (fun _ => leaf_built _ (by grind)) fun _ => .failExpected
  | keyword => exact keywordPrimary_built hg hkind
  | punctuation =>
    refine .ite (fun hopen => .advance ?_) fun _ =>
      .ite (fun hopen => lambda_built hg (by grind)) fun _ =>
      .ite (fun _ => hg.built _ s) fun _ => .failExpected
    refine (expression_built hg).bind fun inner s₁ h₁ =>
      .expect fun hclose => .finish (.node _ (.parens ?_ h₁ hclose))
    grind
  | directive => exact .failExpected
  | endOfFile => exact .failExpected

-- ===================================================== postfix operators

section
variable {s₀ : State} {object : Node} (h₀ : Built g.policy s₀ [object] s)
include h₀

omit hg in
theorem member_built (h : s.peek.isBracket = false) :
    Gives tokens (member s₀.mark object) s
      fun n s' => Built g.policy s₀ [n] s' := by
  unfold member
  have name {s' : State} {wanted : String}
      (h : Built g.policy s₀ [object] s') :
      Gives tokens (do
        if ← check fun t =>
            t.isName || t.isOperator "~" || t.isKeyword "operator" then
          let name ← idExpression
          finish .memberAccess s₀.mark [object, name]
        else failExpected wanted) s'
        fun n s'' => Built g.policy s₀ [n] s'' := by
    refine .check (.ite (fun _ => ?_) fun _ => .failExpected)
    exact idExpression_built.after h fun name s₁ h₁ => .finish (.node _ h₁)
  have h₁ := h₀.next h
  refine .peek (.advance (.accept (fun hnext => name (h₁.next ?_))
    fun _ => name h₁))
  grind

theorem postfixRound_built :
    Gives tokens (postfixRound g s₀.mark object) s fun r s' =>
      r.Sat (fun n => Built g.policy s₀ [n] s')
        fun n => Built g.policy s₀ [n] s' := by
  unfold postfixRound
  refine .peek (.ite (fun hopen => ?_) fun _ => .ite (fun hopen => ?_)
    fun _ => .ite (fun _ => ?_) fun _ => .ite (fun ht => ?_)
    fun _ => .ite (fun ht => ?_) fun _ => .pure h₀)
  · exact (arguments_built hg hopen).bind
      fun items s₁ h₁ => .node (.pure (.node _ (h₀.trans h₁)))
  · refine .advance ((initializerOrExpression_built hg).bind
      fun index s₁ h₁ => .expect fun hclose => .node (.pure (.node _ ?_)))
    exact h₀.trans (.brackets hopen h₁ hclose)
  · exact Makes.after (hg.built _ s) h₀
      fun list s₁ h₁ => .node (.pure (.node _ h₁))
  · exact (member_built h₀ (by grind)).bind fun n s₁ h₁ => .pure h₁
  · exact .advance (.node (.pure (.node _ (h₀.next (by grind)))))

theorem postfixOperators_built :
    Gives tokens (postfixOperators g s₀.mark object) s
      fun n s' => Built g.policy s₀ [n] s' := by
  unfold postfixOperators
  exact .loop (fun n s' => Built g.policy s₀ [n] s')
    (fun n s₁ h₁ => postfixRound_built hg h₁) h₀

end

theorem postfixExpression_built :
    Makes tokens g.policy (postfixExpression g) s := by
  unfold postfixExpression
  exact .mark ((primary_built hg).bind
    fun n s₁ h₁ => postfixOperators_built hg h₁)

-- ======================================================= unary operators

omit hg in
theorem newType_built {policy : Policy} :
    Passes tokens policy newType s := by
  unfold newType
  refine Gives.bind (P := fun _ s' => Built policy s [] s')
    (.loop (fun _ s' => Built policy s [] s') ?_ (.here s)) fun _ s₁ h₁ =>
    .loop (fun _ s' => Built policy s [] s') ?_ h₁
  · intro _ s₁ h₁
    refine .peek (.ite (fun ht => ?_) fun _ => .ite (fun ht => ?_)
      fun _ => .ite (fun ht => ?_) fun _ => .pure h₁)
    · exact .advance (.pure (h₁.next (by grind)))
    · exact .advance (.pure (h₁.next (by grind)))
    · exact (skipTemplateArguments_built (by grind)).after h₁
        fun _ _ h => .pure h
  · intro _ s₂ h₂
    refine .check (.ite (fun ht => ?_) fun _ => .pure h₂)
    exact (skipGroup_built _ (by grind)).after h₂ fun _ _ h => .pure h

theorem newExpression_built (h : s.peek.isBracket = false) :
    Makes tokens g.policy (newExpression g) s := by
  unfold newExpression
  have type {s' : State} (h : Built g.policy s [] s') : Gives tokens (do
      newType
      let children ←
        if ← check (·.isPunct "(") then arguments g
        else if ← check (·.isPunct "\x7b") then
          pure [← g.parse .initializerList]
        else pure []
      finish .newExpression s.mark children) s'
      fun n s'' => Built g.policy s [n] s'' := by
    refine newType_built.after h fun _ s₁ h₁ => .check (.check ?_)
    refine .ite (fun hopen => ?_) fun _ => .ite (fun _ => ?_)
      fun _ => .finish (.node _ h₁)
    · exact (arguments_built hg hopen).bind
        fun ns s₂ h₂ => .finish (.node _ (h₁.trans h₂))
    · exact Makes.after (hg.built _ s₁) h₁
        fun list s₂ h₂ => .finish (.node _ h₂)
  refine .mark (.advance (.check (.ite (fun hopen => ?_)
    fun _ => type (.read h))))
  have hread : Built g.policy s [] s.advance := .read h
  exact (skipGroup_built _ (by grind)).after hread fun _ _ => type

theorem deleteExpression_built (h : s.peek.isBracket = false) :
    Makes tokens g.policy (deleteExpression g) s := by
  unfold deleteExpression
  have operand {s' : State} (h : Built g.policy s [] s') :
      Gives tokens (do
        let operand ← g.parse .operand
        finish .deleteExpression s.mark [operand]) s'
        fun n s'' => Built g.policy s [n] s'' :=
    Makes.after (hg.built _ s') h fun n s₁ h₁ => .finish (.node _ h₁)
  refine .mark (.advance (.check (.peekAt (.ite (fun hempty => ?_)
    fun _ => operand (.read h)))))
  refine .advance (.advance (operand (.behind h (emptyBrackets_built ?_))))
  rw [hempty, Bool.or_true]

theorem unary_built (h : s.peek.isBracket = false) :
    Makes tokens g.policy (unary g) s := by
  unfold unary
  exact .mark (.advance (Makes.after (hg.built _ _) (.read h)
    fun operand s₁ h₁ => .finish (.node _ h₁)))

theorem parenthesizedCast_built (hopen : s.peek.opens = true) :
    Makes tokens g.policy (parenthesizedCast g) s := by
  unfold parenthesizedCast
  have hhere : Built g.policy s [] s := .here s
  refine .mark ((skipGroup_built _ hopen).after hhere fun _ s₁ h₁ => ?_)
  have cast (goal : Goal) : Gives tokens (do
      let operand ← g.parse goal
      finish .castExpression s.mark [operand]) s₁
      fun n s' => Built g.policy s [n] s' :=
    Makes.after (hg.built _ s₁) h₁ fun n s₂ h₂ => .finish (.node _ h₂)
  exact .check (.ite (fun _ => cast _) fun _ => cast _)

/-- What stands behind `sizeof ...` is a group, or a closing bracket that
counts as one, or some other token. -/
theorem sizeofExpression_built (h : s.peek.isKeyword "sizeof" = true) :
    Makes tokens g.policy (sizeofExpression g) s := by
  unfold sizeofExpression
  have hread : Built g.policy s [] s.advance := .read (by grind)
  have builtin {s' : State} (h' : Built g.policy s [] s') :
      Gives tokens (finish .builtinExpression s.mark []) s'
        fun n s'' => Built g.policy s [n] s'' := .finish (.node _ h')
  refine .mark (.advance (.accept (fun hpack => .check ?_) fun _ => .check
    (.ite (fun hopen => ?_) fun _ => ?_)))
  · have hpacked : Built g.policy s [] s.advance.advance :=
      hread.next (by grind)
    refine .ite (fun _ => ?_) (absurd rfl)
    cases hopens : s.advance.advance.peek.opens with
    | true =>
      exact (skipGroup_built _ hopens).after hpacked fun _ _ => builtin
    | false =>
      refine (skipGroup_single _ hopens).bind ?_
      rintro _ _ rfl
      refine builtin ?_
      cases hcloses : s.advance.advance.peek.closes with
      | true => exact .pack h hpack hcloses
      | false => exact hpacked.next (by grind)
  · exact (skipGroup_built _ (by grind)).after hread fun _ _ => builtin
  · exact Makes.after (hg.built _ _) hread
      fun operand s₁ h₁ => .finish (.node _ h₁)

theorem keywordCall_built (h : s.peek.isBracket = false) :
    Makes tokens g.policy (keywordCall g) s := by
  unfold keywordCall
  refine .mark (.peek (.advance (.check (.ite (fun hopen => ?_)
    fun _ => .failExpected))))
  have hread : Built g.policy s [] s.advance := .read h
  exact (skipGroup_built _ (by grind)).after hread
    fun _ s₁ h₁ => .node (postfixOperators_built hg (.node _ h₁))

theorem castExpression_built :
    Makes tokens g.policy (castExpression g) s := by
  unfold castExpression
  have postfix' := postfixExpression_built hg (s := s)
  refine .peek ?_
  cases hkind : s.peek.kind with
  | punctuation =>
    refine .ahead (.ite (fun hcast => ?_) fun _ => postfix')
    exact parenthesizedCast_built hg (by grind)
  | operator =>
    have h : s.peek.isBracket = false := by grind
    refine .ite (fun _ => unary_built hg h) fun _ =>
      .ite (fun _ => .peekAt ?_) fun _ => postfix'
    have hend : s.peek.isEnd = false := by grind
    rw [← s.advance_peek hend]
    refine .ite (fun hnew => .advance ?_) fun _ =>
      .ite (fun hdelete => .advance ?_) fun _ => postfix'
    · exact (newExpression_built hg (by grind)).mono fun _ _ => .behind h
    · exact (deleteExpression_built hg (by grind)).mono fun _ _ => .behind h
  | keyword =>
    have h : s.peek.isBracket = false := by grind
    exact .ite (fun hsizeof => sizeofExpression_built hg (by grind)) fun _ =>
      .ite (fun _ => keywordCall_built hg h) fun _ =>
      .ite (fun _ => newExpression_built hg h) fun _ =>
      .ite (fun _ => deleteExpression_built hg h) fun _ =>
      .ite (fun _ => unary_built hg h) fun _ => postfix'
  | _ => exact postfix'

-- ====================================================== binary operators

theorem binary_built (levels : List (List String)) :
    Makes tokens g.policy (binary g levels) s := by
  induction levels generalizing s with
  | nil =>
    unfold binary
    exact castExpression_built hg
  | cons level tighter ih =>
    unfold binary
    refine .mark (Gives.bind ih fun first s₁ h₁ => ?_)
    refine Gives.bind (P := fun others s' =>
      Built g.policy s₁ others.reverse s') ?_ fun others s₂ h₂ =>
      .ite (fun hempty => .pure ?_) fun _ => .finish (.node _ (h₁.trans h₂))
    · refine .loop (fun others s' => Built g.policy s₁ others.reverse s') ?_
        (.here s₁)
      intro others s₂ h₂
      refine .accept (fun hop => ?_) fun _ => .pure h₂
      have h₃ := h₂.next (by grind [isOneOf])
      exact Gives.bind ih fun n s₃ hn => .pure (h₃.push hn)
    · rw [List.isEmpty_iff.1 hempty] at h₂
      exact h₁.on h₂

-- ======================================= operators that group to the right

omit hg in
/-- The node of an operator holds the operands it has, and the last one. -/
theorem Waiting.close_eq (w : Waiting) (operand : Node) :
    ∃ kind, w.close operand
      = finish kind w.mark (operand :: w.parts).reverse := by
  cases w <;> exact ⟨_, rfl⟩

/-- The operators that wait at a state, innermost first: each began where
the one around it goes on, and its operands were built since. -/
inductive Awaits (policy : Policy) (s : State) :
    List Waiting → State → Prop
  | nil : Awaits policy s [] s
  | cons {w : Waiting} {ws : List Waiting} {s₀ s' : State} :
    Awaits policy s ws s₀ → w.mark = s₀.mark →
    Built policy s₀ w.parts.reverse s' → Awaits policy s (w :: ws) s'

section
variable {policy : Policy} {ws : List Waiting} {s₀ s₁ s₂ s' : State}

omit hg in
/-- A target joins its chain when the operator behind it is read. -/
theorem addTarget_awaits {target : Node} (h : Awaits policy s ws s₀)
    (htarget : Built policy s₀ [target] s') :
    Awaits policy s (addTarget s₀.mark target ws) s' := by
  have fresh : Awaits policy s (.assigns s₀.mark [target] :: ws) s' :=
    .cons h rfl htarget
  cases h with
  | nil => exact fresh
  | @cons w ws s₁ _ hws hmark hparts =>
    cases w with
    | assigns m targets => exact .cons hws hmark (hparts.push htarget)
    | _ => exact fresh

omit hg in
/-- A condition and its value join their chain when the colon is read. -/
theorem addChoice_awaits {condition value : Node}
    (h : Awaits policy s ws s₀) (hcondition : Built policy s₀ [condition] s₁)
    (hvalue : Built policy s₁ [value] s') :
    Awaits policy s (addChoice s₀.mark condition value ws) s' := by
  have fresh :
      Awaits policy s (.chooses s₀.mark [value, condition] :: ws) s' :=
    .cons h rfl (hcondition.trans hvalue)
  cases h with
  | nil => exact fresh
  | @cons w ws s₂ _ hws hmark hparts =>
    cases w with
    | chooses m branches =>
      exact .cons hws hmark (Built.push (hparts.push hcondition) hvalue)
    | _ => exact fresh

omit hg in
/-- The last operand closes the operators that wait for it. -/
theorem closeAll_built {operand : Node} (h : Awaits policy s ws s₀)
    (hoperand : Built policy s₀ [operand] s') :
    Gives tokens (closeAll operand ws) s'
      fun n s'' => Built policy s [n] s'' := by
  induction h generalizing operand with
  | nil => exact .pure hoperand
  | cons hws hmark hparts ih =>
    rename_i w ws s₁ s₂
    obtain ⟨kind, hclose⟩ := w.close_eq operand
    unfold closeAll
    rw [hclose, hmark]
    exact .node (ih (.node _ (hparts.push hoperand)))

end

theorem rightRound_built (assignment : Bool) {ws : List Waiting}
    {s₀ : State} (hws : Awaits g.policy s₀ ws s) :
    Gives tokens (rightRound g assignment ws) s fun r s' =>
      r.Sat (fun ws' => Awaits g.policy s₀ ws' s')
        fun n => Built g.policy s₀ [n] s' := by
  unfold rightRound
  have done {operand : Node} {ws : List Waiting} {s₁ s' : State}
      (hws : Awaits g.policy s₀ ws s₁)
      (hoperand : Built g.policy s₁ [operand] s') : Gives tokens (do
        return .done (← closeAll operand ws)) s'
        fun (r : Round (List Waiting) Node) s'' =>
          r.Sat (fun ws' => Awaits g.policy s₀ ws' s'')
            fun n => Built g.policy s₀ [n] s'' :=
    (closeAll_built hws hoperand).bind fun _ _ h => .pure h
  refine .ite (fun _ => .fail) fun _ => .mark (.peek ?_)
  refine .ite (fun ht => ?_) fun _ => .ite (fun ht => ?_) fun _ => ?_
  · have hread : Built g.policy s [] s.advance := .read (by grind)
    refine .advance (.check (.ite (fun _ => ?_)
      fun _ => .pure (.cons hws rfl hread)))
    exact .node (done hws (.node _ hread))
  · have hread : Built g.policy s [] s.advance := .read (by grind)
    refine .advance (.check (.ite (fun _ => ?_)
      fun _ => .pure (.cons hws rfl hread)))
    exact Makes.after (hg.built _ _) hread
      fun list s₁ h₁ => .node (done hws (.node _ h₁))
  · refine (binary_built hg _).bind fun operand s₁ h₁ =>
      .accept (fun hquestion => ?_) fun _ => .peek (.ite (fun hop => ?_)
      fun _ => done hws h₁)
    · refine (expression_built hg).bind fun value s₂ h₂ =>
        .expect fun hcolon => .pure ?_
      exact addChoice_awaits hws (h₁.next (by grind))
        (h₂.next (by grind))
    · have h₂ := addTarget_awaits hws (h₁.next (by grind [isOneOf]))
      refine .advance (.check (.ite (fun _ => ?_) fun _ => .pure h₂))
      exact Gives.bind (hg.built _ _) fun list s₂ => done h₂

theorem rightGrouped_built (assignment : Bool) :
    Makes tokens g.policy (rightGrouped g assignment) s := by
  unfold rightGrouped
  exact .loop (fun ws s' => Awaits g.policy s ws s')
    (fun ws s₁ hws => rightRound_built hg assignment hws) .nil

end FrontEnd.Grammar
