/-
The course of statements, and of the grammar as a whole: the constructs of
every level are read as sound nodes, since those of the level below are
(`parse_yields`).
-/
import FrontEnd.Proofs.Course.Declaration

namespace FrontEnd.Grammar

variable {tokens : List Token} {g : Inner} {s : State}
variable (hg : g.Sound tokens) (hs : s.Along tokens)

include hg hs

-- ============================================================ conditions

/-- What a declaration in a condition has come to, with something read. -/
theorem conditionRound_yields {s₀ : State} {parts : List Node}
    (h₀ : Leads tokens s₀ s)
    (hrow : Row tokens s₀.mark.index parts.reverse s.position)
    (hstart : s = s₀ ∧ opensDeclaration s.rest = true
      ∨ s₀.mark.index < s.position) :
    Yields tokens (conditionRound g parts) s fun r s' => r.Sat
      (fun parts => s.position < s'.position ∧ s₀.mark.index < s'.position
        ∧ Leads tokens s₀ s'
        ∧ Row tokens s₀.mark.index parts.reverse s'.position)
      (fun parts => s₀.mark.index < s'.position
        ∧ Row tokens s₀.mark.index parts s'.position) := by
  -- a declaration does not begin with a token that ends one
  have hmoved (h : s.peek.kind ≠ .keyword) (h' : s.peek.isName = false)
      (h'' : s.peek.isSpelled "::" = false) :
      s₀.mark.index < s.position := by
    rcases hstart with ⟨-, hopens⟩ | hmoved
    · unfold opensDeclaration at hopens
      rw [← s.peek_eq_tokenAt] at hopens
      grind
    · exact hmoved
  have goes {parts : List Node} {s₁ s₂ : State} (h₁ : Leads tokens s s₁)
      (h₂ : Leads tokens s₁ s₂) (hmoved : s.mark.index < s₂.position)
      (hrow : Row tokens s₀.mark.index parts.reverse s₂.position) :
      Yields tokens (pure (.again parts)) s₂
        fun (r : Round (List Node) (List Node)) s' => r.Sat
          (fun parts => s.position < s'.position
            ∧ s₀.mark.index < s'.position ∧ Leads tokens s₀ s'
            ∧ Row tokens s₀.mark.index parts.reverse s'.position)
          (fun parts => s₀.mark.index < s'.position
            ∧ Row tokens s₀.mark.index parts s'.position) :=
    .pure h₂.along ⟨by grind, by grind, (h₀.trans h₁).trans h₂, hrow⟩
  unfold conditionRound
  refine .peek hs ?_
  cases hkind : s.peek.kind with
  | punctuation =>
    refine .ite (fun _ => .pure hs ⟨by grind, hrow⟩) fun _ =>
      .ite (fun _ => ?_) fun _ => .ite (fun _ => ?_) fun _ =>
      .ite (fun _ => ?_) fun _ => .fail hs
    · refine (skipGroup_yields hs _).bind hs fun _ s₁ h₁ hmoved => ?_
      exact goes (.refl hs) h₁ (by grind)
        (hrow.mono (Nat.le_refl _) h₁.position)
    · refine (hg _ s hs).bind hs fun list s₁ h₁ hlist => ?_
      exact goes (.refl hs) h₁ (by grind)
        (hrow.push hlist.sound (by grind) (by grind) hlist.stop)
    · refine .advance hs fun s₁ h₁ => ?_
      exact goes (.refl hs) h₁.toLeads (by grind)
        (hrow.mono (Nat.le_refl _) h₁.position)
  | operator =>
    refine .ite (fun hcolon => .pure hs ⟨?_, hrow⟩) fun _ =>
      .ite (fun _ => ?_) fun _ => .ite (fun _ => ?_) fun _ =>
      .ite (fun _ => ?_) fun _ => .fail hs
    · have hcanonical : Word.canonical "::" ≠ ":" := by decide
      refine hmoved (by grind) (by grind) ?_
      grind
    · refine .advance hs fun s₁ h₁ => ?_
      refine (initializer_yields hg h₁.along).bind h₁.along
        fun value s₂ h₂ hvalue => ?_
      exact goes h₁.toLeads h₂ (by grind)
        (hrow.push hvalue.sound (by grind) (by grind) hvalue.stop)
    · refine (skipTemplateArguments_yields hs).bind hs
        fun _ s₁ h₁ hmoved => ?_
      exact goes (.refl hs) h₁ (by grind)
        (hrow.mono (Nat.le_refl _) h₁.position)
    · refine .advance hs fun s₁ h₁ => ?_
      exact goes (.refl hs) h₁.toLeads (by grind)
        (hrow.mono (Nat.le_refl _) h₁.position)
  | identifier =>
    refine .advance hs fun s₁ h₁ => ?_
    exact goes (.refl hs) h₁.toLeads (by grind)
      (hrow.mono (Nat.le_refl _) h₁.position)
  | keyword =>
    refine .ite (fun _ => .fail hs) fun _ => .peekAt hs
      (.advance hs fun s₁ h₁ => .ite (fun _ => ?_) fun _ => ?_)
    · refine (skipGroup_yields h₁.along _).bind h₁.along
        fun _ s₂ h₂ _ => ?_
      exact goes h₁.toLeads h₂ (by grind)
        (hrow.mono (Nat.le_refl _) (h₁.position.trans h₂.position))
    · exact goes (.refl hs) h₁.toLeads (by grind)
        (hrow.mono (Nat.le_refl _) h₁.position)
  | _ => exact .fail hs

/-- A condition can be given another kind. -/
theorem condition_yields :
    Yields tokens (condition g) s fun n s' =>
      Made tokens s n s' ∧ n.kind = .condition := by
  unfold condition
  refine .mark hs (.ahead hs (.ite (fun hopens => ?_) fun _ => ?_))
  · refine Yields.bind (P := fun parts s' => s.mark.index < s'.position
      ∧ Row tokens s.mark.index parts s'.position) ?_ hs ?_
    · refine .loop hs (fun parts s' => Leads tokens s s'
        ∧ Row tokens s.mark.index parts.reverse s'.position
        ∧ (s' = s ∧ opensDeclaration s'.rest = true
          ∨ s.mark.index < s'.position)) ?_
        ⟨.refl hs, .nil, .inl ⟨rfl, hopens⟩⟩
      rintro parts s₁ hs₁ ⟨h₁, hrow, hstart⟩
      refine (conditionRound_yields hg hs₁ h₁ hrow hstart).mono hs₁ ?_
      grind
    · rintro parts s₁ h₁ ⟨hmoved, hrow⟩
      exact .finish h₁.along ⟨.node _ rfl hs h₁.along hmoved hrow, rfl⟩
  · refine (expression_yields hg hs).bind hs fun value s₁ h₁ hvalue => ?_
    refine .finish h₁.along ⟨.node _ rfl hs h₁.along (by grind) ?_, rfl⟩
    exact .cons hvalue.sound hvalue.first hvalue.stop .nil

theorem conditionClause_yields :
    Yields tokens (conditionClause g) s fun ns s' =>
      Row tokens s.mark.index ns s'.position := by
  unfold conditionClause
  refine (condition_yields hg hs).bind hs ?_
  rintro first s₁ h₁ ⟨hfirst, -⟩
  refine .accept h₁.along (fun _ s₂ h₂ => ?_) fun _ => ?_
  · refine (condition_yields hg h₂.along).bind h₂.along ?_
    rintro second s₃ h₃ ⟨hsecond, -⟩
    exact .pure h₃.along (by grind)
  · exact .pure h₁.along (by grind)

-- ============================================================= selection

theorem branch_yields :
    Yields tokens (branch g) s fun ns s' =>
      Row tokens s.mark.index ns s'.position
        ∧ s.mark.index < s'.position := by
  unfold branch
  refine .advance hs fun s₁ h₁ => .check h₁.along (.peekAt h₁.along ?_)
  have constant {s' : State} (h : Leads tokens s s') :
      Yields tokens (do
        advance
        let body ← block g
        return [body]) s' fun ns s'' =>
          Row tokens s.mark.index ns s''.position
            ∧ s.mark.index < s''.position := by
    refine .advance h.along fun s₂ h₂ => ?_
    refine (block_yields hg h₂.along).bind h₂.along fun body s₃ h₃ hbody => ?_
    exact .pure h₃.along (by grind)
  have conditional {s' : State} (h : Leads tokens s s') :
      Yields tokens (do
        expectPunct "(" "after 'if'"
        let conditions ← conditionClause g
        expectPunct ")" "after if condition"
        let body ← g.parse .statement
        return conditions ++ [body]) s' fun ns s'' =>
          Row tokens s.mark.index ns s''.position
            ∧ s.mark.index < s''.position := by
    refine .expect h.along fun _ s₂ h₂ => ?_
    refine (conditionClause_yields hg h₂.along).bind h₂.along
      fun conditions s₃ h₃ hrow => .expect h₃.along fun _ s₄ h₄ => ?_
    refine (hg _ s₄ h₄.along).bind h₄.along fun body s₅ h₅ hbody => ?_
    refine .pure h₅.along ⟨.snoc ?_ hbody (by grind), by grind⟩
    exact hrow.mono (by grind) h₄.position
  have rest {negated : Bool} {s' : State} (h : Leads tokens s s') :
      Yields tokens (do
        if negated || (← check (·.isKeyword "consteval")) then
          let _ ← accept (·.isOperator "!")
          advance
          let body ← block g
          return [body]
        else
          let _ ← accept (·.isKeyword "constexpr")
          expectPunct "(" "after 'if'"
          let conditions ← conditionClause g
          expectPunct ")" "after if condition"
          let body ← g.parse .statement
          return conditions ++ [body]) s' fun ns s'' =>
            Row tokens s.mark.index ns s''.position
              ∧ s.mark.index < s''.position := by
    refine .check h.along (.ite (fun _ => ?_) fun _ => ?_)
    · exact .accept h.along (fun _ s₂ h₂ => constant (h.trans h₂.toLeads))
        fun _ => constant h
    · exact .accept h.along
        (fun _ s₂ h₂ => conditional (h.trans h₂.toLeads))
        fun _ => conditional h
  exact rest h₁.toLeads

theorem otherBranches_yields :
    Yields tokens (otherBranches g) s fun ns s' =>
      Row tokens s.mark.index ns.reverse s'.position := by
  unfold otherBranches
  refine .loop hs (fun done s' => Leads tokens s s'
    ∧ Row tokens s.mark.index done.reverse s'.position) ?_ ⟨.refl hs, .nil⟩
  rintro done s₁ hs₁ ⟨h₁, hrow⟩
  refine .accept hs₁ (fun _ s₂ h₂ => .check h₂.along ?_)
    fun _ => .pure hs₁ hrow
  refine .ite (fun _ => ?_) fun _ => ?_
  · refine .mark h₂.along ((branch_yields hg h₂.along).bind
      h₂.along ?_)
    rintro parts s₃ h₃ ⟨hparts, hmoved⟩
    refine .node h₃.along (.pure h₃.along ⟨by grind, ?_, ?_⟩)
    · exact (h₁.trans h₂.toLeads).trans h₃
    · have hnode : Made tokens s₂ (s₃.node .ifStatement s₂.mark parts) s₃ :=
        .node _ rfl h₂.along h₃.along hmoved hparts
      exact hrow.push hnode.sound (by grind) (by grind) (by grind)
  · refine (hg _ s₂ h₂.along).bind h₂.along fun last s₃ h₃ hlast => ?_
    refine .pure h₃.along ?_
    exact hrow.push hlast.sound (by grind) (by grind) hlast.stop

theorem ifStatement_yields :
    Yields tokens (ifStatement g) s (Made tokens s) := by
  unfold ifStatement
  refine .mark hs ((branch_yields hg hs).bind hs ?_)
  rintro first s₁ h₁ ⟨hfirst, hmoved⟩
  refine (otherBranches_yields hg h₁.along).bind h₁.along
    fun others s₂ h₂ hothers => .finish h₂.along ?_
  refine .node _ rfl hs h₂.along (by grind) ?_
  exact hfirst.append hothers (by grind) (by grind) h₂.position

theorem switchStatement_yields :
    Yields tokens (switchStatement g) s (Made tokens s) := by
  unfold switchStatement
  refine .mark hs (.advance hs fun s₁ h₁ => .expect h₁.along
    fun _ s₂ h₂ => ?_)
  refine (conditionClause_yields hg h₂.along).bind h₂.along
    fun conditions s₃ h₃ hrow => .expect h₃.along fun _ s₄ h₄ => ?_
  refine (hg _ s₄ h₄.along).bind h₄.along fun body s₅ h₅ hbody => ?_
  refine .finish h₅.along (.node _ rfl hs h₅.along (by grind) ?_)
  refine .snoc ?_ hbody (by grind)
  exact hrow.mono (by grind) h₄.position

-- ============================================================= iteration

theorem whileStatement_yields :
    Yields tokens (whileStatement g) s (Made tokens s) := by
  unfold whileStatement
  refine .mark hs (.advance hs fun s₁ h₁ => .expect h₁.along
    fun _ s₂ h₂ => ?_)
  refine (condition_yields hg h₂.along).bind h₂.along ?_
  rintro test s₃ h₃ ⟨htest, -⟩
  refine .expect h₃.along fun _ s₄ h₄ => ?_
  refine (hg _ s₄ h₄.along).bind h₄.along fun body s₅ h₅ hbody => ?_
  exact .finish h₅.along (.node _ rfl hs h₅.along (by grind) (by grind))

theorem doStatement_yields :
    Yields tokens (doStatement g) s (Made tokens s) := by
  unfold doStatement
  refine .mark hs (.advance hs fun s₁ h₁ => ?_)
  refine (hg _ s₁ h₁.along).bind h₁.along fun body s₂ h₂ hbody => ?_
  refine .expect h₂.along fun _ s₃ h₃ => .expect h₃.along
    fun _ s₄ h₄ => ?_
  refine (expression_yields hg h₄.along).bind h₄.along
    fun test s₅ h₅ htest => .expect h₅.along
      fun _ s₆ h₆ => .expect h₆.along fun _ s₇ h₇ => ?_
  exact .finish h₇.along (.node _ rfl hs h₇.along (by grind) (by grind))

section
variable {s₀ s₁ : State} (hs₀ : s₀.Along tokens) (h₁ : Leads tokens s₁ s)
  (hmoved : s₀.mark.index < s₁.position) {clauses : List Node}
include hs₀ h₁ hmoved

/-- A loop over a range, whose clause was read as a condition. -/
theorem rangeLoop_yields {declared : Node}
    (hclauses : Row tokens s₀.mark.index clauses s₁.position)
    (hdeclared : Made tokens s₁ declared s)
    (hkind : declared.kind = .condition) :
    Yields tokens (rangeLoop g s₀.mark clauses declared) s
      (Made tokens s₀) := by
  unfold rangeLoop
  refine .advance hs fun s₂ h₂ => ?_
  refine (initializer_yields hg h₂.along).bind h₂.along
    fun range s₃ h₃ hrange => .expect h₃.along fun _ s₄ h₄ => ?_
  refine (hg _ s₄ h₄.along).bind h₄.along fun body s₅ h₅ hbody => ?_
  refine .finish h₅.along (.node _ rfl hs₀ h₅.along (by grind) ?_)
  have hretag := hdeclared.retag .forRangeDeclaration (by rw [hkind]; nofun)
    (by decide)
  have hrest : Row tokens s₁.mark.index
      [{ declared with kind := .forRangeDeclaration }, range, body]
      s₅.position := by grind
  exact hclauses.append hrest (by grind) s₁.position_le_mark (by grind)

omit h₁ hmoved in
theorem forTail_yields (hmoved : s₀.mark.index < s.position)
    (hclauses : Row tokens s₀.mark.index clauses s.position) :
    Yields tokens (forTail g s₀.mark clauses) s (Made tokens s₀) := by
  unfold forTail
  have rest {steps : List Node} {s' : State} (h : Leads tokens s s')
      (hsteps : Row tokens s₀.mark.index (clauses ++ steps) s'.position) :
      Yields tokens (do
        expectPunct ")" "after for clauses"
        let body ← g.parse .statement
        finish .forStatement s₀.mark (clauses ++ steps ++ [body])) s'
        (Made tokens s₀) := by
    refine .expect h.along fun _ s₂ h₂ => ?_
    refine (hg _ s₂ h₂.along).bind h₂.along fun body s₃ h₃ hbody => ?_
    refine .finish h₃.along (.node _ rfl hs₀ h₃.along (by grind) ?_)
    refine .snoc ?_ hbody (by grind)
    exact hsteps.mono (Nat.le_refl _) h₂.position
  refine .check hs (.ite (fun _ => ?_) fun _ => ?_)
  · refine .question (fun _ => []) hs (rest (.refl hs) ?_)
    rw [List.append_nil]
    exact hclauses
  · refine (expression_yields hg hs).bind hs fun step s₁ h₁ hstep => ?_
    refine .question (fun _ => [step]) h₁.along (rest h₁ ?_)
    exact .snoc hclauses hstep hmoved.le

omit h₁ hmoved in
theorem forCondition_yields (hmoved : s₀.mark.index < s.position)
    (hclauses : Row tokens s₀.mark.index clauses s.position) :
    Yields tokens (forCondition g s₀.mark clauses) s (Made tokens s₀) := by
  unfold forCondition
  refine .check hs (.ite (fun _ => .expect hs fun _ s₁ h₁ => ?_)
    fun _ => (condition_yields hg hs).bind hs ?_)
  · exact forTail_yields hg h₁.along hs₀ (by grind)
      (hclauses.mono (Nat.le_refl _) h₁.position)
  · rintro clause s₁ h₁ ⟨hclause, hkind⟩
    refine .check h₁.along (.ite (fun _ => ?_)
      fun _ => .expect h₁.along fun _ s₂ h₂ => ?_)
    · exact rangeLoop_yields hg h₁.along hs₀ h₁ hmoved hclauses hclause
        hkind
    · refine forTail_yields hg h₂.along hs₀ (by grind) ?_
      exact (hclauses.snoc hclause hmoved.le).mono (Nat.le_refl _)
        h₂.position

end

theorem forStatement_yields :
    Yields tokens (forStatement g) s (Made tokens s) := by
  unfold forStatement
  have clauses {s' : State} (h : Leads tokens s s') :
      Yields tokens (do
        expectPunct "(" "after 'for'"
        if ← check (·.isPunct ";") then
          expectPunct ";" "after for initializer"
          forCondition g s.mark []
        else
          let clause ← condition g
          if ← check (·.isOperator ":") then rangeLoop g s.mark [] clause
          else
            expectPunct ";" "after for initializer"
            forCondition g s.mark [clause]) s' (Made tokens s) := by
    refine .expect h.along fun _ s₁ h₁ => .check h₁.along ?_
    have hmoved : s.mark.index < s₁.position := by grind
    refine .ite (fun _ => .expect h₁.along fun _ s₂ h₂ => ?_)
      fun _ => (condition_yields hg h₁.along).bind h₁.along ?_
    · exact forCondition_yields hg h₂.along hs (by grind) .nil
    · rintro clause s₂ h₂ ⟨hclause, hkind⟩
      refine .check h₂.along (.ite (fun _ => ?_)
        fun _ => .expect h₂.along fun _ s₃ h₃ => ?_)
      · exact rangeLoop_yields hg h₂.along hs h₂ hmoved .nil hclause hkind
      · refine forCondition_yields hg h₃.along hs (by grind) ?_
        exact .cons hclause.sound (by grind) (by grind) .nil
  refine .mark hs (.advance hs fun s₁ h₁ => .accept h₁.along
    (fun _ s₂ h₂ => ?_) fun _ => clauses h₁.toLeads)
  exact clauses (h₁.toLeads.trans h₂.toLeads)

-- ================================================================= jumps

omit hg in
theorem plainJump_yields (kind : NodeKind)
    (hjump : (kind == .gotoStatement) = false) (context : String) :
    Yields tokens (plainJump kind context) s (Made tokens s) := by
  unfold plainJump
  refine .mark hs (.advance hs fun s₁ h₁ => .expect h₁.along
    fun _ s₂ h₂ => .finish h₂.along ?_)
  exact .node _ hjump hs h₂.along (by grind) .nil

omit hg in
/-- The tokens of a `goto` are where its node says. -/
theorem gotoStatement_yields (hword : s.peek.isKeyword "goto" = true) :
    Yields tokens gotoStatement s (Made tokens s) := by
  unfold gotoStatement
  refine .mark hs (.advance hs fun s₁ h₁ => .expect h₁.along
    fun hlabel s₂ h₂ => .expect h₂.along
    fun hsemicolon s₃ h₃ => .finish h₃.along ?_)
  have hend : s.peek.isEnd = false := by grind
  have hend₁ : s₁.peek.isEnd = false := by grind
  have hmoved : s.mark.index < s₁.position := h₁.moved hend
  have hget := hs.getElem_mark (hmoved.trans_le h₁.along.within)
  refine .node_jump _ hs h₃.along (by grind) .nil fun _ =>
    ⟨rfl, ⟨s.peek, hget, hword⟩, ?_, ?_⟩
  · show (tokenAt 1 (tokens.drop s.mark.index)).isName = true
    rw [hs.tokenAt_drop_mark, ← h₁.next hend]
    exact hlabel
  · show (tokenAt 2 (tokens.drop s.mark.index)).isPunct ";" = true
    rw [hs.tokenAt_drop_mark, tokenAt_succ, ← h₁.behind hend,
      ← h₂.next hend₁]
    exact hsemicolon

theorem returnStatement_yields :
    Yields tokens (returnStatement g) s (Made tokens s) := by
  unfold returnStatement
  refine .mark hs (.advance hs fun s₁ h₁ => .check h₁.along ?_)
  have ending {values : List Node} {s' : State} (h : Leads tokens s₁ s')
      (hrow : Row tokens s.mark.index values s'.position) :
      Yields tokens (do
        expectPunct ";" "after return value"
        finish .returnStatement s.mark values) s' (Made tokens s) := by
    refine .expect h.along fun _ s₂ h₂ => .finish h₂.along ?_
    refine .node _ rfl hs h₂.along (by grind) ?_
    exact hrow.mono (Nat.le_refl _) h₂.position
  refine .ite (fun _ => .question (fun _ => []) h₁.along
    (ending (.refl h₁.along) .nil)) fun _ => ?_
  refine (initializer_yields hg h₁.along).bind h₁.along
    fun value s₂ h₂ hvalue => ?_
  exact .question (fun _ => [value]) h₂.along (ending h₂ (by grind))

-- ================================================================ labels

theorem caseLabel_yields :
    Yields tokens (caseLabel g) s (Made tokens s) := by
  unfold caseLabel
  refine .mark hs (.advance hs fun s₁ h₁ => ?_)
  refine (hg _ s₁ h₁.along).bind h₁.along fun value s₂ h₂ hvalue => ?_
  refine .expect h₂.along fun _ s₃ h₃ => .finish h₃.along ?_
  exact .node _ rfl hs h₃.along (by grind) (by grind)

omit hg in
theorem defaultLabel_yields :
    Yields tokens defaultLabel s (Made tokens s) := by
  unfold defaultLabel
  refine .mark hs (.advance hs fun s₁ h₁ => .expect h₁.along
    fun _ s₂ h₂ => .finish h₂.along ?_)
  exact .node _ rfl hs h₂.along (by grind) .nil

theorem labeledStatement_yields (hend : s.peek.isEnd = false) :
    Yields tokens (labeledStatement g) s (Made tokens s) := by
  unfold labeledStatement
  refine .mark hs (.advance hs fun s₁ h₁ => .advance h₁.along
    fun s₂ h₂ => .check h₂.along (.ite (fun _ => ?_) fun _ => ?_))
  · exact .finish h₂.along (.node _ rfl hs h₂.along (by grind) .nil)
  · refine (hg _ s₂ h₂.along).bind h₂.along fun n s₃ h₃ hn => ?_
    exact .finish h₃.along (.node _ rfl hs h₃.along (by grind) (by grind))

-- ============================================================ statements

theorem simpleStatement_yields :
    Yields tokens (simpleStatement g) s (Made tokens s) := by
  unfold simpleStatement
  refine .ahead hs (.ite (fun _ => simpleDeclaration_yields hg hs)
    fun _ => .mark hs ?_)
  refine (expression_yields hg hs).bind hs fun value s₁ h₁ hvalue => ?_
  refine .expect h₁.along fun _ s₂ h₂ => .finish h₂.along ?_
  exact .node _ rfl hs h₂.along (by grind) (by grind)

theorem keywordStatement_yields (hkeyword : s.peek.kind = .keyword) :
    Yields tokens (keywordStatement g s.peek.value) s (Made tokens s) := by
  have hend : s.peek.isEnd = false := by grind
  unfold keywordStatement
  exact .ite (fun _ => ifStatement_yields hg hs) fun _ =>
    .ite (fun _ => switchStatement_yields hg hs) fun _ =>
    .ite (fun _ => whileStatement_yields hg hs) fun _ =>
    .ite (fun _ => doStatement_yields hg hs) fun _ =>
    .ite (fun _ => forStatement_yields hg hs) fun _ =>
    .ite (fun _ => returnStatement_yields hg hs) fun _ =>
    .ite (fun _ => plainJump_yields hs _ rfl _) fun _ =>
    .ite (fun _ => plainJump_yields hs _ rfl _) fun _ =>
    .ite (fun hword => gotoStatement_yields hs (by grind)) fun _ =>
    .ite (fun _ => caseLabel_yields hg hs) fun _ =>
    .ite (fun _ => defaultLabel_yields hs) fun _ =>
    .ite (fun _ => tryBlock_yields hg hs hend) fun _ =>
    .ite (fun _ => asmDeclaration_yields hs) fun _ =>
    .ite (fun _ => hg _ s hs) fun _ => simpleStatement_yields hg hs

theorem statement_yields :
    Yields tokens (statement g) s (Made tokens s) := by
  unfold statement
  refine .peek hs (.ite (fun _ => block_yields hg hs) fun _ =>
    .ite (fun ht => ?_) fun _ =>
    .ite (fun ht => keywordStatement_yields hg hs (by grind)) fun _ =>
    .peekAt hs (.ite (fun ht => labeledStatement_yields hg hs (by grind))
      fun _ => simpleStatement_yields hg hs))
  exact .mark hs (leaf_yields hs _ rfl (by grind))

-- =========================================================== the grammar

theorem rule_yields (goal : Goal) :
    Yields tokens (rule g goal) s (Made tokens s) := by
  cases goal with
  | declaration => exact declaration_yields hg hs
  | statement => exact statement_yields hg hs
  | assignment => exact rightGrouped_yields hg hs true
  | conditional => exact rightGrouped_yields hg hs false
  | operand => exact castExpression_yields hg hs
  | initializerList => exact initializerList_yields hg hs

omit hg hs

/-- Whatever is to be read, and however many levels of nesting are left:
reading comes to an end on its way through the tokens, and what it yields
is a sound node. -/
theorem parse_yields (tokens : List Token) (policy : Policy)
    (room : Nat) : ∀ goal s, s.Along tokens →
      Yields tokens (parse policy room goal) s (Made tokens s) := by
  induction room with
  | zero => exact fun goal s hs => .fail hs
  | succ room ih =>
    intro goal s hs
    have hg : Inner.Sound tokens ⟨policy, room, parse policy room⟩ := ih
    exact rule_yields hg hs goal

end FrontEnd.Grammar
