/-
The course of blocks and expressions, where the constructs of the level
below take theirs (`Inner.Sound`). The lemmas follow the rules one by one,
and each proof goes along the text of its rule: it runs the steps, and
says which tokens and nodes lie between them where a node is built.
-/
import FrontEnd.Proofs.Course.Group

namespace FrontEnd.Grammar

variable {tokens : List Token} {g : Inner} {s : State}

/-- The constructs of the level below are read as sound nodes. -/
def Inner.Sound (tokens : List Token) (g : Inner) : Prop :=
  ∀ goal s, s.Along tokens → Yields tokens (g.parse goal) s (Made tokens s)

variable (hg : g.Sound tokens) (hs : s.Along tokens)

include hg hs

-- ================================================================ blocks

theorem block_yields : Yields tokens (block g) s (Made tokens s) := by
  unfold block
  refine .mark hs (.expect hs fun hopen s₁ h₁ => ?_)
  refine (Yields.sequence (hg .statement) _ _ h₁.along).bind h₁.along
    fun statements s₂ h₂ hrow => ?_
  refine .expect h₂.along fun _ s₃ h₃ => .finish h₃.along ?_
  refine .node _ rfl hs h₃.along (by grind) (hrow.mono ?_ h₃.position)
  grind

theorem handlers_yields :
    Yields tokens (handlers g) s fun ns s' =>
      Row tokens s.mark.index ns.reverse s'.position := by
  unfold handlers
  refine .loop hs (fun done s' => Leads tokens s s'
    ∧ Row tokens s.mark.index done.reverse s'.position) ?_ ⟨.refl hs, .nil⟩
  rintro done s₁ hs₁ ⟨h₁, hrow⟩
  refine .check hs₁ (.ite (fun hcatch => ?_) fun _ => .pure hs₁ hrow)
  refine .mark hs₁ (.advance hs₁ fun s₂ h₂ => .check h₂.along ?_)
  refine .ite (fun hopen => ?_) fun _ => ?_
  · refine (skipGroup_yields h₂.along _).bind h₂.along fun _ s₃ h₃ _ => ?_
    refine (block_yields hg h₃.along).bind h₃.along fun body s₄ h₄ hbody => ?_
    refine .node h₄.along (.pure h₄.along ⟨?_, ?_, ?_⟩)
    · grind
    · exact ((h₁.trans h₂.toLeads).trans h₃).trans h₄
    · have hnode : Made tokens s₁ (s₄.node .handler s₁.mark [body]) s₄ :=
        .node _ rfl hs₁ h₄.along (by grind) (by grind)
      exact hrow.push hnode.sound (by grind) (by grind) (by grind)
  · exact .failExpected h₂.along

theorem tryBlock_yields (hend : s.peek.isEnd = false) :
    Yields tokens (tryBlock g) s (Made tokens s) := by
  unfold tryBlock
  refine .mark hs (.advance hs fun s₁ h₁ => ?_)
  refine (block_yields hg h₁.along).bind h₁.along fun body s₂ h₂ hbody => ?_
  refine (handlers_yields hg h₂.along).bind h₂.along
    fun done s₃ h₃ hrow => ?_
  refine .ite (fun _ => .failExpected h₃.along) fun _ => ?_
  refine .finish h₃.along (.node _ rfl hs h₃.along (by grind) ?_)
  exact .cons hbody.sound (by grind) (by grind)
    (hrow.mono (by grind) (Nat.le_refl _))

-- =================================================== whole expressions

theorem expression_yields :
    Yields tokens (expression g) s (Made tokens s) := by
  unfold expression
  refine .mark hs ?_
  refine (commaSeparated_yields hs (hg .assignment)).bind hs ?_
  rintro ns s₁ h₁ ⟨hrow, hmoved⟩
  split
  case h_1 n =>
    have hbounds := hrow.bounds n (List.mem_singleton_self n)
    exact .pure h₁.along
      ⟨hrow.sound n (List.mem_singleton_self n), hbounds.1, hbounds.2⟩
  case h_2 => exact .finish h₁.along (.node _ rfl hs h₁.along hmoved hrow)

theorem initializer_yields :
    Yields tokens (initializer g) s (Made tokens s) := by
  unfold initializer
  exact .check hs (.ite (fun _ => hg _ s hs) fun _ => hg _ s hs)

theorem initializerOrExpression_yields :
    Yields tokens (initializerOrExpression g) s (Made tokens s) := by
  unfold initializerOrExpression
  exact .check hs (.ite (fun _ => hg _ s hs)
    fun _ => expression_yields hg hs)

theorem listedInitializer_yields :
    Yields tokens (listedInitializer g) s (Made tokens s) := by
  unfold listedInitializer
  refine .mark hs ((initializer_yields hg hs).bind hs
    fun item s₁ h₁ hitem => .accept h₁.along (fun _ s₂ h₂ => ?_) fun _ => ?_)
  · exact .finish h₂.along (.node _ rfl hs h₂.along (by grind) (by grind))
  · exact .pure h₁.along hitem

theorem arguments_yields (hend : s.peek.isEnd = false) :
    Yields tokens (arguments g) s fun ns s' =>
      Row tokens (s.mark.index + 1) ns s'.position
        ∧ s.mark.index < s'.position := by
  unfold arguments
  refine .advance hs fun s₁ h₁ => .check h₁.along ?_
  have rest {ns : List Node} {s' : State} (h : Leads tokens s₁ s')
      (hrow : Row tokens s₁.mark.index ns s'.position) :
      Yields tokens (do expectPunct ")" "after arguments"; return ns) s'
        fun ns s'' => Row tokens (s.mark.index + 1) ns s''.position
          ∧ s.mark.index < s''.position := by
    refine .expect h.along fun _ s₂ h₂ => .pure h₂.along ⟨?_, by grind⟩
    exact hrow.mono (by grind) h₂.position
  refine .ite (fun _ => rest (.refl h₁.along) .nil) fun _ => ?_
  refine (commaSeparated_yields h₁.along
    fun s hs => listedInitializer_yields hg hs).bind h₁.along ?_
  exact fun ns s₂ h₂ hrow => rest h₂ hrow.1

omit hg in
theorem designator_yields :
    Yields tokens designator s fun _ _ => True := by
  unfold designator
  refine .check hs (.peekAt hs (.ite (fun _ => ?_)
    fun _ => .pure hs trivial))
  refine .advance hs fun s₁ h₁ => .advance h₁.along fun s₂ h₂ => ?_
  refine .check h₂.along (.ite (fun _ => .pure h₂.along trivial) fun _ => ?_)
  exact (Yields.expected h₂.along).mono h₂.along fun _ _ _ _ => trivial

theorem initializerList_yields :
    Yields tokens (initializerList g) s (Made tokens s) := by
  unfold initializerList
  refine .mark hs (.expect hs fun hopen s₁ h₁ => ?_)
  refine Yields.bind (P := fun done s' =>
    Row tokens s₁.mark.index done.reverse s'.position) ?_ h₁.along ?_
  · refine .loop h₁.along (fun done s' => Leads tokens s₁ s'
      ∧ Row tokens s₁.mark.index done.reverse s'.position) ?_
      ⟨.refl h₁.along, .nil⟩
    rintro done s₂ hs₂ ⟨h₂, hrow⟩
    refine .check hs₂ (.ite (fun _ => .pure hs₂ hrow) fun _ => ?_)
    refine (designator_yields hs₂).bind hs₂ fun _ s₃ h₃ _ => ?_
    refine (listedInitializer_yields hg h₃.along).bind h₃.along
      fun item s₄ h₄ hitem => ?_
    have hrow' : Row tokens s₁.mark.index (item :: done).reverse
        s₄.position :=
      hrow.push hitem.sound (by grind) (by grind) (by grind)
    refine .accept h₄.along (fun _ s₅ h₅ => ?_) fun _ => ?_
    · refine .pure h₅.along ⟨by grind, ?_, ?_⟩
      · exact ((h₂.trans h₃).trans h₄).trans h₅.toLeads
      · exact hrow'.mono (Nat.le_refl _) h₅.position
    · exact .pure h₄.along hrow'
  · intro done s₂ h₂ hrow
    refine .expect h₂.along fun _ s₃ h₃ => .finish h₃.along ?_
    exact .node _ rfl hs h₃.along (by grind) (hrow.mono h₁.mark h₃.position)

-- =============================================================== lambdas

omit hg in
theorem lambdaDeclarator_yields :
    Yields tokens lambdaDeclarator s fun _ _ => True := by
  unfold lambdaDeclarator
  refine .loop hs (fun _ _ => True) ?_ trivial
  intro _ s₁ hs₁ _
  refine .peek hs₁ (.ite (fun _ => .pure hs₁ trivial) fun _ =>
    .ite (fun ht => ?_) fun _ => .ite (fun ht => ?_) fun _ =>
    .ite (fun ht => ?_) fun _ => ?_)
  · refine (skipGroup_yields hs₁ _).bind hs₁ fun _ s₂ h₂ hmoved => ?_
    exact .pure h₂.along (by grind)
  · refine (skipTemplateArguments_yields hs₁).bind hs₁
      fun _ s₂ h₂ hmoved => ?_
    exact .pure h₂.along (by grind)
  · exact .advance hs₁ fun s₂ h₂ => .pure h₂.along (by grind)
  · exact (Yields.failExpected hs₁ (P := fun _ _ => False)).bind hs₁ nofun

theorem lambda_yields (hend : s.peek.isEnd = false) :
    Yields tokens (lambda g) s (Made tokens s) := by
  unfold lambda
  have body {s' : State} (h : Leads tokens s s')
      (hmoved : s.mark.index < s'.position) :
      Yields tokens (do
        lambdaDeclarator
        let body ← block g
        finish .lambdaExpression s.mark [body]) s' (Made tokens s) := by
    refine (lambdaDeclarator_yields h.along).bind h.along
      fun _ s₁ h₁ _ => ?_
    refine (block_yields hg h₁.along).bind h₁.along fun b s₂ h₂ hb => ?_
    exact .finish h₂.along (.node _ rfl hs h₂.along (by grind) (by grind))
  have parameters {s' : State} (h : Leads tokens s s')
      (hmoved : s.mark.index < s'.position) :
      Yields tokens (do
        if ← check (·.isPunct "(") then
          skipGroup "after lambda parameters"
        lambdaDeclarator
        let body ← block g
        finish .lambdaExpression s.mark [body]) s' (Made tokens s) := by
    refine .check h.along (.ite (fun _ => ?_) fun _ => body h hmoved)
    refine (skipGroup_yields h.along _).bind h.along fun _ s₁ h₁ _ => ?_
    exact body (h.trans h₁) (by grind)
  refine .mark hs ((skipGroup_yields hs _).bind hs
    fun _ s₁ h₁ hmoved => .check h₁.along (.ite (fun _ => ?_)
      fun _ => parameters h₁ (hmoved hend)))
  refine (skipTemplateArguments_yields h₁.along).bind h₁.along
    fun _ s₂ h₂ _ => ?_
  exact parameters (h₁.trans h₂) (by grind)

-- =================================================== primary expressions

theorem namedCast_yields (hend : s.peek.isEnd = false) :
    Yields tokens (namedCast g) s (Made tokens s) := by
  unfold namedCast
  refine .mark hs (.peek hs (.advance hs fun s₁ h₁ => ?_))
  refine .check h₁.along (.ite (fun _ => ?_)
    fun _ => .failExpected h₁.along)
  refine (skipTemplateArguments_yields h₁.along).bind h₁.along
    fun _ s₂ h₂ _ => ?_
  refine .expect h₂.along fun _ s₃ h₃ => ?_
  refine (expression_yields hg h₃.along).bind h₃.along
    fun operand s₄ h₄ hoperand => ?_
  refine .expect h₄.along fun _ s₅ h₅ => ?_
  exact .finish h₅.along (.node _ rfl hs h₅.along (by grind) (by grind))

omit hg in
theorem decltypeName_yields (hend : s.peek.isEnd = false) :
    Yields tokens decltypeName s (Made tokens s) := by
  unfold decltypeName
  refine .mark hs (.advance hs fun s₁ h₁ => .check h₁.along ?_)
  refine .ite (fun _ => ?_) fun _ => .failExpected h₁.along
  refine (skipGroup_yields h₁.along _).bind h₁.along fun _ s₂ h₂ _ => ?_
  refine .accept h₂.along (fun _ s₃ h₃ => ?_) fun _ => ?_
  · refine (idExpression_yields h₃.along).mono h₃.along
      fun n s₄ h₄ hn => ⟨hn.sound, by grind, hn.stop⟩
  · exact .finish h₂.along (.node _ rfl hs h₂.along (by grind) .nil)

omit hg in
theorem requiresExpression_yields (hend : s.peek.isEnd = false) :
    Yields tokens requiresExpression s (Made tokens s) := by
  unfold requiresExpression
  have body {s' : State} (h : Leads tokens s s')
      (hmoved : s.mark.index < s'.position) :
      Yields tokens (do
        if ← check (·.isPunct "\x7b") then
          skipGroup "after requirements"
          finish .builtinExpression s.mark []
        else failExpected "'\x7b' after 'requires'") s'
        (Made tokens s) := by
    refine .check h.along (.ite (fun _ => ?_)
      fun _ => .failExpected h.along)
    refine (skipGroup_yields h.along _).bind h.along fun _ s₁ h₁ _ => ?_
    exact .finish h₁.along (.node _ rfl hs h₁.along (by grind) .nil)
  refine .mark hs (.advance hs fun s₁ h₁ => .check h₁.along ?_)
  refine .ite (fun _ => ?_) fun _ => body h₁.toLeads (h₁.moved hend)
  refine (skipGroup_yields h₁.along _).bind h₁.along fun _ s₂ h₂ _ => ?_
  exact body (h₁.toLeads.trans h₂) (by grind)

omit hg in
theorem typeKeywords_yields
    (htype : (s.peek.kind == .keyword && Word.isType s.peek.value) = true) :
    Yields tokens typeKeywords s (Made tokens s) := by
  unfold typeKeywords
  refine .mark hs (.loop hs (fun _ s' => s' = s
    ∨ Leads tokens s s' ∧ s.mark.index < s'.position) ?_ (.inl rfl))
  intro _ s₁ hs₁ h₁
  refine .peek hs₁ (.ite (fun ht => ?_) fun ht => ?_)
  · refine .advance hs₁ fun s₂ h₂ => ?_
    have hleads : Leads tokens s s₂ := by
      rcases h₁ with rfl | ⟨h₁, -⟩
      · exact h₂.toLeads
      · exact h₁.trans h₂.toLeads
    refine .ite (fun _ => ?_) fun _ => .pure h₂.along (by grind)
    refine (idExpression_yields h₂.along).bind h₂.along
      fun name s₃ h₃ hname => ?_
    refine .node h₃.along (.pure h₃.along ?_)
    exact .node _ rfl hs h₃.along (by grind) (by grind)
  · refine .node hs₁ (.pure hs₁ ?_)
    exact .node _ rfl hs hs₁ (by grind) .nil

omit hg in
/-- A node of the one token that comes next. -/
theorem leaf_yields (kind : NodeKind)
    (hjump : (kind == .gotoStatement) = false)
    (hend : s.peek.isEnd = false) :
    Yields tokens (do advance; finish kind s.mark []) s
      (Made tokens s) :=
  .advance hs fun _ h₁ => .finish h₁.along
    (.node _ hjump hs h₁.along (h₁.moved hend) .nil)

theorem keywordPrimary_yields (hkind : s.peek.kind = .keyword) :
    Yields tokens (keywordPrimary g) s (Made tokens s) := by
  have hend : s.peek.isEnd = false := by grind
  unfold keywordPrimary
  refine .mark hs (.peek hs ?_)
  refine .ite (fun _ => leaf_yields hs _ rfl hend) fun _ =>
    .ite (fun _ => leaf_yields hs _ rfl hend) fun _ =>
    .ite (fun _ => idExpression_yields hs) fun _ =>
    .ite (fun _ => namedCast_yields hg hs hend) fun _ =>
    .ite (fun _ => decltypeName_yields hs hend) fun _ =>
    .ite (fun _ => requiresExpression_yields hs hend) fun _ =>
    .ite (fun htype => typeKeywords_yields hs ?_) fun _ =>
    .failExpected hs
  rw [hkind, htype]
  rfl

theorem primary_yields : Yields tokens (primary g) s (Made tokens s) := by
  unfold primary
  refine .mark hs (.peek hs ?_)
  cases hkind : s.peek.kind with
  | number => exact leaf_yields hs _ rfl (by grind)
  | character => exact leaf_yields hs _ rfl (by grind)
  | string =>
    refine (skipWhile_yields hs (by grind)).bind hs fun _ s₁ h₁ hmoved => ?_
    exact .finish h₁.along (.node _ rfl hs h₁.along (hmoved (by grind)) .nil)
  | identifier => exact idExpression_yields hs
  | operator =>
    refine .ite (fun _ => idExpression_yields hs) fun _ =>
      .ite (fun _ => leaf_yields hs _ rfl (by grind)) fun _ => .failExpected hs
  | keyword => exact keywordPrimary_yields hg hs hkind
  | punctuation =>
    refine .ite (fun _ => ?_) fun _ =>
      .ite (fun _ => lambda_yields hg hs (by grind)) fun _ =>
      .ite (fun _ => hg _ s hs) fun _ => .failExpected hs
    refine .advance hs fun s₁ h₁ => ?_
    refine (expression_yields hg h₁.along).bind h₁.along
      fun inner s₂ h₂ hinner => ?_
    refine .expect h₂.along fun _ s₃ h₃ => ?_
    exact .finish h₃.along (.node _ rfl hs h₃.along (by grind) (by grind))
  | directive => exact .failExpected hs
  | endOfFile => exact .failExpected hs

-- ===================================================== postfix operators

section
variable {s₀ : State} (hs₀ : s₀.Along tokens) (hleads : Leads tokens s₀ s)
  {object : Node} (hobject : Made tokens s₀ object s)
include hs₀ hleads hobject

omit hg in
theorem member_yields (hend : s.peek.isEnd = false) :
    Yields tokens (member s₀.mark object) s fun n s' =>
      Made tokens s₀ n s' ∧ s.position < s'.position := by
  unfold member
  refine .peek hs (.advance hs fun s₁ h₁ => ?_)
  have name {s' : State} (h : Leads tokens s₁ s') :
      Yields tokens (do
        if ← check fun t =>
            t.isName || t.isOperator "~" || t.isKeyword "operator" then
          let name ← idExpression
          finish .memberAccess s₀.mark [object, name]
        else failExpected s!"member name after '{s.peek.value}'") s'
        fun n s' => Made tokens s₀ n s' ∧ s.position < s'.position := by
    refine .check h.along (.ite (fun _ => ?_)
      fun _ => .failExpected h.along)
    refine (idExpression_yields h.along).bind h.along
      fun name s₂ h₂ hname => ?_
    refine .finish h₂.along ⟨.node _ rfl hs₀ h₂.along ?_ ?_, ?_⟩ <;> grind
  exact .accept h₁.along (fun _ s₂ h₂ => name h₂.toLeads)
    fun _ => name (.refl h₁.along)

theorem postfixRound_yields :
    Yields tokens (postfixRound g s₀.mark object) s fun r s' =>
      r.Sat (fun n => s.position < s'.position
        ∧ Leads tokens s₀ s' ∧ Made tokens s₀ n s')
        (Made tokens s₀ · s') := by
  unfold postfixRound
  -- another round, on a node of the object and what came behind it
  have again {kind : NodeKind} {ns : List Node} {s' : State}
      (h : Leads tokens s s') (hmoved : s.position < s'.position)
      (hrow : Row tokens s.position ns s'.position)
      (hjump : (kind == .gotoStatement) = false) :
      Yields tokens (do
        return .again (← finish kind s₀.mark (object :: ns))) s'
        fun (r : Round Node Node) s'' => r.Sat (fun n =>
          s.position < s''.position
          ∧ Leads tokens s₀ s'' ∧ Made tokens s₀ n s'')
          (Made tokens s₀ · s'') := by
    refine .node h.along (.pure h.along ⟨hmoved, hleads.trans h, ?_⟩)
    refine .node _ hjump hs₀ h.along (by grind) ?_
    exact .cons hobject.sound (by grind) (by grind)
      (hrow.mono hobject.stop (Nat.le_refl _))
  refine .peek hs (.ite (fun ht => ?_) fun _ => .ite (fun ht => ?_)
    fun _ => .ite (fun _ => ?_) fun _ => .ite (fun ht => ?_)
    fun _ => .ite (fun ht => ?_) fun _ => .pure hs hobject)
  · refine (arguments_yields hg hs (by grind)).bind hs fun ns s₁ h₁ h => ?_
    exact again h₁ (by grind) (h.1.mono (by grind) (Nat.le_refl _)) rfl
  · refine .advance hs fun s₁ h₁ => ?_
    refine (initializerOrExpression_yields hg h₁.along).bind h₁.along
      fun index s₂ h₂ hindex => ?_
    refine .expect h₂.along fun _ s₃ h₃ => ?_
    exact again ((h₁.toLeads.trans h₂).trans h₃.toLeads) (by grind)
      (by grind) rfl
  · refine (hg _ s hs).bind hs fun list s₁ h₁ hlist => ?_
    exact again h₁ (by grind) (by grind) rfl
  · refine (member_yields hs hs₀ hleads hobject (by grind)).bind hs
      fun n s₁ h₁ hn => ?_
    exact .pure h₁.along ⟨hn.2, hleads.trans h₁, hn.1⟩
  · refine .advance hs fun s₁ h₁ => ?_
    exact again h₁.toLeads (by grind) .nil rfl

theorem postfixOperators_yields :
    Yields tokens (postfixOperators g s₀.mark object) s
      (Made tokens s₀) := by
  unfold postfixOperators
  refine .loop hs (fun n s' => Leads tokens s₀ s' ∧ Made tokens s₀ n s')
    ?_ ⟨hleads, hobject⟩
  exact fun n s₁ hs₁ h => postfixRound_yields hg hs₁ hs₀ h.1 h.2

end

theorem postfixExpression_yields :
    Yields tokens (postfixExpression g) s (Made tokens s) := by
  unfold postfixExpression
  refine .mark hs ((primary_yields hg hs).bind hs fun n s₁ h₁ hn => ?_)
  exact postfixOperators_yields hg h₁.along hs h₁ hn

-- ======================================================= unary operators

omit hg in
theorem newType_yields : Yields tokens newType s fun _ _ => True := by
  unfold newType
  refine Yields.bind (P := fun _ _ => True) (.loop hs (fun _ _ => True) ?_
    trivial) hs fun _ s₁ h₁ _ => .loop h₁.along (fun _ _ => True) ?_ trivial
  · intro _ s₁ hs₁ _
    refine .peek hs₁ (.ite (fun ht => ?_) fun _ => .ite (fun ht => ?_)
      fun _ => .ite (fun ht => ?_) fun _ => .pure hs₁ trivial)
    · exact .advance hs₁ fun s₂ h₂ => .pure h₂.along (by grind)
    · exact .advance hs₁ fun s₂ h₂ => .pure h₂.along (by grind)
    · refine (skipTemplateArguments_yields hs₁).bind hs₁
        fun _ s₂ h₂ hmoved => ?_
      exact .pure h₂.along (by grind)
  · intro _ s₂ hs₂ _
    refine .check hs₂ (.ite (fun ht => ?_) fun _ => .pure hs₂ trivial)
    refine (skipGroup_yields hs₂ _).bind hs₂ fun _ s₃ h₃ hmoved => ?_
    exact .pure h₃.along (by grind)

theorem newExpression_yields (hend : s.peek.isEnd = false) :
    Yields tokens (newExpression g) s (Made tokens s) := by
  unfold newExpression
  have done {ns : List Node} {s' s'' : State} (h : Leads tokens s s')
      (h' : Leads tokens s' s'') (hmoved : s.mark.index < s'.position)
      (hrow : Row tokens s'.position ns s''.position) :
      Yields tokens (finish .newExpression s.mark ns) s'' (Made tokens s) :=
    .finish h'.along (.node _ rfl hs h'.along (by grind)
      (hrow.mono hmoved.le (Nat.le_refl _)))
  have type {s' : State} (h : Leads tokens s s')
      (hmoved : s.mark.index < s'.position) :
      Yields tokens (do
        newType
        let children ←
          if ← check (·.isPunct "(") then arguments g
          else if ← check (·.isPunct "\x7b") then
            pure [← g.parse .initializerList]
          else pure []
        finish .newExpression s.mark children) s' (Made tokens s) := by
    refine (newType_yields h.along).bind h.along fun _ s₁ h₁ _ => ?_
    have h₁' := h.trans h₁
    refine .check h₁.along (.check h₁.along ?_)
    refine .ite (fun ht => ?_) fun _ => .ite (fun _ => ?_) fun _ => ?_
    · refine (arguments_yields hg h₁.along (by grind)).bind h₁.along
        fun ns s₂ h₂ hns => ?_
      exact done h₁' h₂ (by grind) (hns.1.mono (by grind) (Nat.le_refl _))
    · refine (hg _ s₁ h₁.along).bind h₁.along fun list s₂ h₂ hlist => ?_
      exact done h₁' h₂ (by grind) (by grind)
    · exact done h₁' (.refl h₁.along) (by grind) .nil
  refine .mark hs (.advance hs fun s₁ h₁ => .check h₁.along ?_)
  refine .ite (fun _ => ?_) fun _ => type h₁.toLeads (h₁.moved hend)
  refine (skipGroup_yields h₁.along _).bind h₁.along fun _ s₂ h₂ _ => ?_
  exact type (h₁.toLeads.trans h₂) (by grind)

theorem deleteExpression_yields :
    Yields tokens (deleteExpression g) s (Made tokens s) := by
  unfold deleteExpression
  have operand {s' : State} (h : Leads tokens s s') :
      Yields tokens (do
        let operand ← g.parse .operand
        finish .deleteExpression s.mark [operand]) s' (Made tokens s) := by
    refine (hg _ s' h.along).bind h.along fun n s₁ h₁ hn => ?_
    exact .finish h₁.along (.node _ rfl hs h₁.along (by grind) (by grind))
  refine .mark hs (.advance hs fun s₁ h₁ => .check h₁.along
    (.peekAt h₁.along (.ite (fun _ => ?_) fun _ => operand h₁.toLeads)))
  refine .advance h₁.along fun s₂ h₂ => .advance h₂.along fun s₃ h₃ => ?_
  exact operand ((h₁.toLeads.trans h₂.toLeads).trans h₃.toLeads)

theorem unary_yields : Yields tokens (unary g) s (Made tokens s) := by
  unfold unary
  refine .mark hs (.advance hs fun s₁ h₁ => ?_)
  refine (hg _ s₁ h₁.along).bind h₁.along fun operand s₂ h₂ hoperand => ?_
  exact .finish h₂.along (.node _ rfl hs h₂.along (by grind) (by grind))

theorem parenthesizedCast_yields :
    Yields tokens (parenthesizedCast g) s (Made tokens s) := by
  unfold parenthesizedCast
  refine .mark hs ((skipGroup_yields hs _).bind hs fun _ s₁ h₁ _ => ?_)
  have cast (goal : Goal) : Yields tokens (do
      let operand ← g.parse goal
      finish .castExpression s.mark [operand]) s₁ (Made tokens s) := by
    refine (hg _ s₁ h₁.along).bind h₁.along fun n s₂ h₂ hn => ?_
    exact .finish h₂.along (.node _ rfl hs h₂.along (by grind) (by grind))
  exact .check h₁.along (.ite (fun _ => cast _) fun _ => cast _)

theorem sizeofExpression_yields (hend : s.peek.isEnd = false) :
    Yields tokens (sizeofExpression g) s (Made tokens s) := by
  unfold sizeofExpression
  refine .mark hs (.advance hs fun s₁ h₁ => ?_)
  have operand {isPack : Bool} {s' : State} (h : Leads tokens s₁ s') :
      Yields tokens (do
        if isPack || (← check (·.isPunct "(")) then
          skipGroup "after sizeof operand"
          finish .builtinExpression s.mark []
        else
          let operand ← g.parse .operand
          finish .unaryExpression s.mark [operand]) s' (Made tokens s) := by
    refine .check h.along (.ite (fun _ => ?_) fun _ => ?_)
    · refine (skipGroup_yields h.along _).bind h.along fun _ s₂ h₂ _ => ?_
      exact .finish h₂.along (.node _ rfl hs h₂.along (by grind) .nil)
    · refine (hg _ s' h.along).bind h.along fun n s₂ h₂ hn => ?_
      exact .finish h₂.along (.node _ rfl hs h₂.along (by grind) (by grind))
  exact .accept h₁.along (fun _ s₂ h₂ => operand h₂.toLeads)
    fun _ => operand (.refl h₁.along)

theorem keywordCall_yields (hend : s.peek.isEnd = false) :
    Yields tokens (keywordCall g) s (Made tokens s) := by
  unfold keywordCall
  refine .mark hs (.peek hs (.advance hs fun s₁ h₁ => .check h₁.along ?_))
  refine .ite (fun _ => ?_) fun _ => .failExpected h₁.along
  refine (skipGroup_yields h₁.along _).bind h₁.along fun _ s₂ h₂ _ => ?_
  refine .node h₂.along ?_
  exact postfixOperators_yields hg h₂.along hs (h₁.toLeads.trans h₂)
    (.node _ rfl hs h₂.along (by grind) .nil)

theorem castExpression_yields :
    Yields tokens (castExpression g) s (Made tokens s) := by
  unfold castExpression
  have postfix' := postfixExpression_yields hg hs
  refine .peek hs ?_
  cases hkind : s.peek.kind with
  | punctuation =>
    refine .ahead hs (.ite (fun _ => ?_) fun _ => postfix')
    exact parenthesizedCast_yields hg hs
  | operator =>
    refine .ite (fun _ => unary_yields hg hs) fun _ =>
      .ite (fun _ => .peekAt hs ?_) fun _ => postfix'
    -- behind the `::` stands the keyword that was looked at
    refine .ite (fun ht => ?_) fun _ => .ite (fun ht => ?_)
      fun _ => postfix'
    · refine .advance hs fun s₁ h₁ => ?_
      refine (newExpression_yields hg h₁.along (by grind)).mono h₁.along
        fun n s₂ h₂ hn => ⟨hn.sound, by grind, hn.stop⟩
    · refine .advance hs fun s₁ h₁ => ?_
      refine (deleteExpression_yields hg h₁.along).mono h₁.along
        fun n s₂ h₂ hn => ⟨hn.sound, by grind, hn.stop⟩
  | keyword =>
    have hend : s.peek.isEnd = false := by grind
    refine .ite (fun _ => sizeofExpression_yields hg hs hend) fun _ =>
      .ite (fun _ => keywordCall_yields hg hs hend) fun _ =>
      .ite (fun _ => newExpression_yields hg hs hend) fun _ =>
      .ite (fun _ => deleteExpression_yields hg hs) fun _ =>
      .ite (fun _ => unary_yields hg hs) fun _ => postfix'
  | _ => exact postfix'

-- ====================================================== binary operators

theorem binary_yields (levels : List (List String)) :
    Yields tokens (binary g levels) s (Made tokens s) := by
  induction levels generalizing s with
  | nil =>
    unfold binary
    exact castExpression_yields hg hs
  | cons level tighter ih =>
    unfold binary
    refine .mark hs ((ih hs).bind hs fun first s₁ h₁ hfirst => ?_)
    refine Yields.bind (P := fun others s' =>
      Row tokens s₁.mark.index others.reverse s'.position) ?_ h₁.along ?_
    · refine .loop h₁.along (fun others s' => Leads tokens s₁ s'
        ∧ Row tokens s₁.mark.index others.reverse s'.position) ?_
        ⟨.refl h₁.along, .nil⟩
      rintro others s₂ hs₂ ⟨h₂, hrow⟩
      refine .accept hs₂ (fun hop s₃ h₃ => ?_) fun _ => .pure hs₂ hrow
      refine (ih h₃.along).bind h₃.along fun n s₄ h₄ hn => ?_
      refine .pure h₄.along ⟨by grind, (h₂.trans h₃.toLeads).trans h₄, ?_⟩
      exact hrow.push hn.sound (by grind) (by grind) (by grind)
    · intro others s₂ h₂ hrow
      refine .ite (fun _ => .pure h₂.along ?_) fun _ => .finish h₂.along ?_
      · exact ⟨hfirst.sound, hfirst.first, by grind⟩
      · refine .node _ rfl hs h₂.along (by grind) ?_
        exact .cons hfirst.sound (by grind) (by grind)
          (hrow.mono (by grind) (Nat.le_refl _))

-- ======================================= operators that group to the right

/-- Where an operator began that waits for its last operand. -/
def Waiting.mark : Waiting → Mark
  | throws m | yields m | assigns m _ | chooses m _ => m

/-- The operands that a waiting operator has, last one first. -/
def Waiting.parts : Waiting → List Node
  | throws _ | yields _ => []
  | assigns _ parts | chooses _ parts => parts

/-- The operators that wait at a state, innermost first: each began where
all that those around it hold had been read. -/
inductive Waits (tokens : List Token) (s : State) :
    List Waiting → State → Prop
  | nil {s' : State} : Leads tokens s s' → Waits tokens s [] s'
  | cons {w : Waiting} {ws : List Waiting} {s₀ s' : State} :
    Waits tokens s ws s₀ → s₀.Along tokens → w.mark = s₀.mark →
    Leads tokens s₀ s' → s₀.mark.index < s'.position →
    Row tokens s₀.mark.index w.parts.reverse s'.position →
    Waits tokens s (w :: ws) s'

omit hg hs in
theorem Waits.leads {ws : List Waiting} {s' : State}
    (h : Waits tokens s ws s') : Leads tokens s s' := by
  induction h with
  | nil h => exact h
  | cons _ _ _ h _ _ ih => exact ih.trans h

omit hg hs in
/-- A target joins its chain when the operator behind it is read. -/
theorem addTarget_waits {ws : List Waiting} {s₀ s₁ s' : State}
    {target : Node} (h : Waits tokens s ws s₀) (hs₀ : s₀.Along tokens)
    (h₀ : Leads tokens s₀ s₁) (htarget : Made tokens s₀ target s₁)
    (h₁ : Leads tokens s₁ s') :
    Waits tokens s (addTarget s₀.mark target ws) s' := by
  have fresh : Waits tokens s (.assigns s₀.mark [target] :: ws) s' :=
    .cons h hs₀ rfl (h₀.trans h₁) (by grind)
      (.cons htarget.sound htarget.first (by grind) .nil)
  cases h with
  | nil _ => exact fresh
  | cons hws hs' hmark hleads hmoved hrow =>
    rename_i w ws s'
    cases w with
    | assigns m targets =>
      refine .cons hws hs' hmark ((hleads.trans h₀).trans h₁) (by grind) ?_
      exact Row.push hrow htarget.sound (by grind) (by grind) (by grind)
    | _ => exact fresh

omit hg hs in
/-- A condition and its value join their chain when the colon is read. -/
theorem addChoice_waits {ws : List Waiting} {s₀ s₁ s₂ s₃ s' : State}
    {condition value : Node} (h : Waits tokens s ws s₀)
    (hs₀ : s₀.Along tokens) (h₀ : Leads tokens s₀ s₁)
    (hcondition : Made tokens s₀ condition s₁) (h₁ : Leads tokens s₁ s₂)
    (h₂ : Leads tokens s₂ s₃) (hvalue : Made tokens s₂ value s₃)
    (h₃ : Leads tokens s₃ s') :
    Waits tokens s (addChoice s₀.mark condition value ws) s' := by
  have hleads := ((h₀.trans h₁).trans h₂).trans h₃
  have fresh :
      Waits tokens s (.chooses s₀.mark [value, condition] :: ws) s' := by
    refine .cons h hs₀ rfl hleads (by grind) ?_
    show Row tokens s₀.mark.index [condition, value] s'.position
    grind
  cases h with
  | nil _ => exact fresh
  | cons hws hs' hmark hleads' hmoved hrow =>
    rename_i w ws s'
    cases w with
    | chooses m branches =>
      refine .cons hws hs' hmark (hleads'.trans hleads) (by grind) ?_
      have hpush : Row tokens s'.mark.index
          (condition :: branches).reverse s₁.position :=
        Row.push hrow hcondition.sound (by grind) (by grind) (by grind)
      exact hpush.push hvalue.sound (by grind) (by grind) (by grind)
    | _ => exact fresh

omit hg hs in
/-- The last operand closes the operators that wait for it. -/
theorem closeAll_yields {ws : List Waiting} {s₀ s' : State}
    {operand : Node} (h : Waits tokens s ws s₀) (h₀ : Leads tokens s₀ s')
    (hoperand : Made tokens s₀ operand s') :
    Yields tokens (closeAll operand ws) s' (Made tokens s) := by
  induction ws generalizing s₀ operand with
  | nil =>
    have := h.leads
    exact .pure h₀.along ⟨hoperand.sound, by grind, hoperand.stop⟩
  | cons w ws ih =>
    cases h with
    | cons hws hs₀ hmark hleads hmoved hrow =>
      rename_i s₁
      obtain ⟨kind, hclose, hjump⟩ : ∃ kind, w.close operand
          = finish kind w.mark (operand :: w.parts).reverse
          ∧ (kind == .gotoStatement) = false := by
        cases w <;> exact ⟨_, rfl, rfl⟩
      unfold closeAll
      rw [hclose, hmark]
      refine .node h₀.along (ih hws (hleads.trans h₀) ?_)
      refine .node _ hjump hs₀ h₀.along (by grind) ?_
      exact hrow.push hoperand.sound (by grind) (by grind) hoperand.stop

theorem rightRound_yields (assignment : Bool) {ws : List Waiting}
    {s₀ : State} (hws : Waits tokens s₀ ws s) :
    Yields tokens (rightRound g assignment ws) s fun r s' =>
      r.Sat (fun ws' => s.position < s'.position ∧ Waits tokens s₀ ws' s')
        (Made tokens s₀ · s') := by
  unfold rightRound
  have done {operand : Node} {ws : List Waiting} {s₁ s' : State}
      (hws : Waits tokens s₀ ws s₁) (h : Leads tokens s₁ s')
      (hoperand : Made tokens s₁ operand s') :
      Yields tokens (do return .done (← closeAll operand ws)) s'
        fun (r : Round (List Waiting) Node) s'' =>
          r.Sat (fun ws' => s.position < s''.position
            ∧ Waits tokens s₀ ws' s'') (Made tokens s₀ · s'') :=
    (closeAll_yields hws h hoperand).bind h.along
      fun n s₂ h₂ hn => .pure h₂.along hn
  refine .ite (fun _ => .fail hs) fun _ => .mark hs (.peek hs ?_)
  refine .ite (fun ht => ?_) fun _ => .ite (fun ht => ?_) fun _ => ?_
  · refine .advance hs fun s₁ h₁ => .check h₁.along ?_
    have hmoved : s.mark.index < s₁.position := by grind
    refine .ite (fun _ => ?_) fun _ => .pure h₁.along ⟨by grind, ?_⟩
    · refine .node h₁.along (done hws h₁.toLeads ?_)
      exact .node _ rfl hs h₁.along hmoved .nil
    · exact .cons hws hs rfl h₁.toLeads hmoved .nil
  · refine .advance hs fun s₁ h₁ => .check h₁.along ?_
    have hmoved : s.mark.index < s₁.position := by grind
    refine .ite (fun _ => ?_) fun _ => .pure h₁.along ⟨by grind, ?_⟩
    · refine (hg _ s₁ h₁.along).bind h₁.along fun list s₂ h₂ hlist => ?_
      refine .node h₂.along (done hws (h₁.toLeads.trans h₂) ?_)
      exact .node _ rfl hs h₂.along (by grind) (by grind)
    · exact .cons hws hs rfl h₁.toLeads hmoved .nil
  · refine (binary_yields hg hs _).bind hs fun operand s₁ h₁ hoperand => ?_
    refine .accept h₁.along (fun _ s₂ h₂ => ?_) fun _ => ?_
    · refine (expression_yields hg h₂.along).bind h₂.along
        fun value s₃ h₃ hvalue => .expect h₃.along fun _ s₄ h₄ => ?_
      refine .pure h₄.along ⟨by grind, ?_⟩
      exact addChoice_waits hws hs h₁ hoperand h₂.toLeads h₃ hvalue
        h₄.toLeads
    · refine .peek h₁.along (.ite (fun _ => ?_) fun _ => ?_)
      · refine .advance h₁.along fun s₂ h₂ => .check h₂.along ?_
        have hws' := addTarget_waits hws hs h₁ hoperand h₂.toLeads
        refine .ite (fun _ => ?_) fun _ => .pure h₂.along ⟨by grind, hws'⟩
        refine (hg _ s₂ h₂.along).bind h₂.along fun list s₃ h₃ hlist => ?_
        exact done hws' h₃ hlist
      · exact done hws h₁ hoperand

theorem rightGrouped_yields (assignment : Bool) :
    Yields tokens (rightGrouped g assignment) s (Made tokens s) := by
  unfold rightGrouped
  refine .loop hs (fun ws s' => Waits tokens s ws s') ?_ (.nil (.refl hs))
  exact fun ws s₁ hs₁ hws => rightRound_yields hg hs₁ assignment hws

end FrontEnd.Grammar
