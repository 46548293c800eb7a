/-
Statements that nest deeper than the levels that are left are refused, as
expressions are: a lemma for each constructor, and the induction over the
tree (`Statement.refused`). The reader is a strict one; a tolerant one
reports the error and goes on behind it.
-/
import FrontEnd.Proofs.Written.Depth
import FrontEnd.Proofs.Written.StatementReading

namespace FrontEnd.Written

open Grammar

variable {page : Page} {g : Inner}
variable {room i d : Nat} {l : Lexeme} {ls : List Lexeme}
variable {k n : Bool} {o : Ending} {r : Rank}

-- ============================================================ expressions

theorem expression_refused {e : Expression .list} (page : Page)
    (i d : Nat) (l : Lexeme) (ls : List Lexeme)
    (hroom : room < e.levels 0) (hl : l.endsList = true) :
    TooDeep (expression (nested .strict room)
      (page.state i d (e.write ++ l :: ls))) :=
  e.refused page .strict room i d l ls hroom hl

theorem condition_refused {e : Expression .list} (page : Page)
    (i d : Nat) (l : Lexeme) (ls : List Lexeme)
    (hroom : room < e.levels 0) (hl : l.endsList = true) :
    TooDeep (condition (nested .strict room)
      (page.state i d (e.write ++ l :: ls))) := by
  unfold condition
  simp
  exact (expression_refused page i d l ls hroom hl).bind _

theorem conditional_refused {e : Expression (.binary binaryLevels)}
    (page : Page) (i d : Nat) (l : Lexeme) (ls : List Lexeme)
    (hroom : room < max 1 (e.levels 0) + 1) (hl : l.endsRight = true) :
    TooDeep ((nested .strict room).parse .conditional
      (page.state i d (e.write ++ l :: ls))) := by
  refine nested_refuses (fun below hbelow => ?_) hroom
  rcases first_or_rest hbelow with hwaiting | ⟨-, hvalue⟩
  · exact waiting_refused (Nat.le_of_lt_succ hwaiting) _
  · have hends : l.ends binaryLevels = true := by
      simp_all [Lexeme.endsRight]
    exact rightRound_refused (e.refused page .strict) false hvalue hends

theorem initializer_refused {e : Expression (.right true true)}
    (page : Page) (i d : Nat) (l : Lexeme) (ls : List Lexeme)
    (hroom : room < e.levels 0 + 1) (hl : l.endsRight = true) :
    TooDeep (initializer (nested .strict room)
      (page.state i d (e.write ++ l :: ls))) := by
  rw [initializer_eq (e.peek_isPunct (by decide))]
  exact nested_refuses (fun below hbelow => e.refused page .strict below
    [] i d l ls hbelow hl (fun _ => rfl) fun _ => rfl) hroom

-- ======================================================== what is refused

/-- The items of a sequence end with the error that no level is left. -/
def EndsTooDeep (r : Gathered) : Prop :=
  ∃ items s t, r = ⟨items, s, some ⟨.nestingTooDeep, t⟩⟩

/-- A statement is refused where it nests too deep. -/
def Statement.Refused (page : Page) (s : Statement k o) : Prop :=
  ∀ room i d l ls, room < s.levels → l.follows o = true →
  TooDeep (statement (nested .strict room)
    (page.state i d (s.write ++ l :: ls)))

/-- Branches are refused where one of them nests too deep. -/
def Branches.Refused (page : Page) (b : Branches n o) : Prop :=
  ∀ room done i d l ls, room < b.levels → l.follows o = true →
  TooDeep (loop (branchRound (nested .strict room)) done
    (page.state i d (b.write ++ l :: ls)))

/-- Items are refused where one of them nests too deep. -/
def Items.Refused (page : Page) (items : Items) : Prop :=
  ∀ room bound done i d ls, room < items.levels →
  i + items.length ≤ bound →
  EndsTooDeep (gather .strict (some "\x7d")
    ((nested .strict room).parse .statement) bound done
    (page.state i d (items.write ++ .punct "\x7d" :: ls)))

/-- Handlers are refused where one of them nests too deep. -/
def Handlers.Refused (page : Page) (handlers : Handlers) : Prop :=
  ∀ room done i d l ls, room < handlers.levels →
  TooDeep (loop (handlerRound (nested .strict room)) done
    (page.state i d (handlers.write ++ l :: ls)))

/-- A statement needs one level more where it is read as a whole. -/
theorem body_refused (i d : Nat) (ls : List Lexeme) {s : Statement k o}
    (h : s.Refused page) (hroom : room < s.levels + 1)
    (hl : l.follows o = true) :
    TooDeep ((nested .strict room).parse .statement
      (page.state i d (s.write ++ l :: ls))) :=
  nested_refuses (fun below hbelow => h below i d l ls hbelow hl) hroom

-- ================================================================= blocks

/-- A strict sequence ends with the error of an item. -/
theorem gather_refused {closer : Option String} {item : Parser Node}
    {bound : Nat} (hopen : closer.any l.isPunct = false)
    (h : TooDeep (item (page.state i d (l :: ls)))) (done : List Node) :
    EndsTooDeep (gather .strict closer item bound done
      (page.state i d (l :: ls))) := by
  obtain ⟨t, s, h⟩ := h
  refine ⟨done.reverse, s, t, ?_⟩
  rw [gather_eq]
  simp only [takeDirectives_state, endsSequence_state hopen, h]
  rfl

theorem block_refused (i d : Nat) (ls : List Lexeme) {items : Items}
    (h : items.Refused page) (hroom : room < items.levels) :
    TooDeep (block (nested .strict room)
      (page.state i d (inBraces items.write ++ ls))) := by
  have hsequence : TooDeep (Grammar.sequence .strict "\x7d"
      ((nested .strict room).parse .statement)
      (page.state (i + 1) (d + 1) (items.write ++ .punct "\x7d" :: ls))) := by
    obtain ⟨nodes, s, t, hgather⟩ := h room
      (page.state (i + 1) (d + 1) (items.write ++ .punct "\x7d" :: ls)).size
      [] (i + 1) (d + 1) ls hroom (by simp [Page.state, Items.length]; omega)
    exact ⟨t, s, sequence_error hgather⟩
  unfold block
  simp [inBraces, expectPunct]
  exact hsequence.bind _

theorem noItem_refused : Items.noItem.Refused page := by
  intro room bound done i d ls hroom
  cases hroom

/-- A statement among the items of a block. -/
theorem item_statement_refused {s : Statement k o} (h : s.Refused page)
    (hroom : room < s.levels + 1) (hl : l.follows o = true) {bound : Nat}
    (done : List Node) :
    EndsTooDeep (gather .strict (some "\x7d")
      ((nested .strict room).parse .statement) bound done
      (page.state i d (s.write ++ l :: ls))) := by
  obtain ⟨l', ls', hwrite, -, hclose, -⟩ := s.opens
  have hread := body_refused i d ls h hroom hl
  rw [hwrite, List.cons_append] at hread ⊢
  exact gather_refused (by simpa using hclose) hread done

theorem lastStatement_refused {s : Statement k .label}
    (h : s.Refused page) : (Items.lastItem s).Refused page := by
  intro room bound done i d ls hroom _
  exact item_statement_refused h hroom (by simp [Lexeme.follows]) done

theorem nextStatement_refused {s : Statement k .branch} {rest : Items}
    (h : s.Refused page) (hrest : rest.Refused page) :
    (Items.item s rest).Refused page := by
  intro room bound done i d ls hroom hbound
  obtain ⟨l, ls', hnext, hfollows⟩ := rest.follows ls
  have hlength : s.length + rest.length = (Items.item s rest).length := by
    simp [Statement.length, Items.length, Items.write]
  rw [Items.write, List.append_assoc, hnext]
  rcases first_or_rest hroom with hs | ⟨hs, hroom⟩
  · exact item_statement_refused h hs hfollows done
  · rw [statement_again (s.reads page .strict) hs hfollows (by omega),
      ← hnext]
    exact hrest room bound _ _ d ls hroom (by omega)

theorem caseItem_refused {value : Expression (.binary binaryLevels)}
    {rest : Items} (hrest : rest.Refused page) :
    (Items.caseItem value rest).Refused page := by
  intro room bound done i d ls hroom hbound
  rw [Items.write, List.cons_append, List.append_assoc, List.cons_append]
  rcases first_or_rest hroom with hroom | ⟨hfits, hroom⟩
  · refine gather_refused rfl ?_ done
    -- the label takes a level, and its value another one
    refine nested_refuses (fun below hbelow => ?_) hroom
    have hvalue := conditional_refused page (i + 1) d (.operator ":")
      (rest.write ++ .punct "\x7d" :: ls) hbelow (by decide)
    show TooDeep (statement _ _)
    unfold statement keywordStatement caseLabel
    simp
    exact hvalue.bind _
  · have hlength : i + 1 + value.length + 1 + rest.length
        = i + (Items.caseItem value rest).length := by
      simp [Expression.length, Items.length, Items.write]
      omega
    rw [caseItem_again hfits (by omega)]
    exact hrest room bound _ _ d ls hroom (by omega)

theorem defaultItem_refused {rest : Items} (hrest : rest.Refused page) :
    (Items.defaultItem rest).Refused page := by
  intro room bound done i d ls hroom hbound
  rw [Items.write, List.cons_append, List.cons_append]
  rcases first_or_rest hroom with hroom | ⟨hfits, hroom⟩
  · exact gather_refused rfl (nested_refuses
      (fun _ h => absurd h (Nat.not_lt_zero _)) hroom) done
  · have hlength : i + 2 + rest.length
        = i + (Items.defaultItem rest).length := by
      simp [Items.length, Items.write]
      omega
    rw [defaultItem_again hfits (by omega)]
    exact hrest room bound _ _ d ls hroom (by omega)

-- =============================================================== handlers

/-- A handler is refused if its block is. -/
theorem handlerRound_refused {items : Items} (h : items.Refused page)
    (hroom : room < items.levels) (done : List Node) :
    TooDeep (loop (handlerRound (nested .strict room)) done
      (page.state i d (clause "catch" [.operator "..."]
        ++ (inBraces items.write ++ ls)))) := by
  have hgroup : skipGroup "after exception declaration"
      (page.state (i + 1) d (.punct "(" :: .operator "..." :: .punct ")"
        :: (inBraces items.write ++ ls)))
      = .ok () (page.state (i + 4) d (inBraces items.write ++ ls)) :=
    skipGroup_flat "after exception declaration" [.operator "..."] (by simp)
  refine TooDeep.loop ?_
  unfold handlerRound
  simp [clause, run_bind hgroup]
  exact (block_refused (i + 4) d ls h hroom).bind _

theorem lastHandler_refused {items : Items} (h : items.Refused page) :
    (Handlers.lastHandler items).Refused page := by
  intro room done i d l ls hroom
  rw [Handlers.write, List.append_assoc]
  exact handlerRound_refused h hroom done

theorem handler_refused {items : Items} {rest : Handlers}
    (h : items.Refused page) (hrest : rest.Refused page) :
    (Handlers.handler items rest).Refused page := by
  intro room done i d l ls hroom
  rw [Handlers.write, List.append_assoc, List.append_assoc]
  rcases first_or_rest hroom with hitems | ⟨hitems, hroom⟩
  · exact handlerRound_refused h hitems done
  · rw [handler_again (items.reads page .strict) hitems]
    exact hrest room _ _ d l ls hroom

-- =============================================================== branches

/-- A branch is refused if its condition or its statement is. -/
theorem branch_refused {condition : Expression .list} (i d : Nat)
    (ls : List Lexeme) {body : Statement k o} (h : body.Refused page)
    (hroom : room < max (condition.levels 0) (body.levels + 1))
    (hl : l.follows o = true) :
    TooDeep (branch (nested .strict room) (page.state i d
      (clause "if" condition.write ++ (body.write ++ l :: ls)))) := by
  unfold branch conditionClause
  rcases first_or_rest hroom with hroom | ⟨hfits, hroom⟩
  · have hcondition := condition_refused page (i + 2) (d + 1) (.punct ")")
      (body.write ++ l :: ls) hroom (by decide)
    simp [clause, expectPunct]
    exact hcondition.bind _
  · have hcondition := condition_read page .strict (i + 2) (d + 1)
      (.punct ")") (body.write ++ l :: ls) hfits (by decide)
    simp [clause, expectPunct, run_bind hcondition]
    exact (body_refused _ d ls h hroom hl).map _

theorem noElse_refused (ho : o ≠ .closed) :
    (Branches.noElse ho).Refused page := by
  intro room done i d l ls hroom
  cases hroom

theorem lastElse_refused {body : Statement false o}
    (h : body.Refused page) : (Branches.lastElse body).Refused page := by
  intro room done i d l ls hroom hl
  have hbody := body_refused (i + 1) d ls h hroom hl
  refine TooDeep.loop ?_
  unfold branchRound
  simp [Branches.write, body.peek_if]
  exact hbody.map _

theorem elseIf_refused {condition : Expression .list}
    {body : Statement k (.before n o)} {rest : Branches n o}
    (h : body.Refused page) (hrest : rest.Refused page) :
    (Branches.elseIf condition body rest).Refused page := by
  intro room done i d l ls hroom hl
  obtain ⟨l', ls', hnext, hfollows⟩ := rest.follows hl ls
  rw [Branches.write, List.cons_append, List.append_assoc,
    List.append_assoc, hnext]
  rcases Nat.lt_or_ge room (max (condition.levels 0) (body.levels + 1))
    with hbranch | hbranch
  · refine TooDeep.loop ?_
    unfold branchRound
    simp
    exact (branch_refused (i + 1) d ls' h hbranch hfollows).bind _
  · obtain ⟨hcondition, hbody⟩ := Nat.max_le.1 hbranch
    have hroom : room < rest.levels := by
      simp only [Branches.levels] at hroom
      omega
    rw [elseIf_again (body.reads page .strict) hcondition hbody hfollows,
      ← hnext]
    exact hrest room _ _ d l ls hroom hl

-- ====================================================== simple statements

theorem block_statement_refused {items : Items} (h : items.Refused page) :
    (Statement.block items : Statement false o).Refused page := by
  intro room i d l ls hroom _
  have hpeek : (page.state i d (inBraces items.write ++ l :: ls)).peek
      = (Lexeme.punct "\x7b").token (page.place i) := page.peek_state ..
  unfold statement
  rw [Statement.write, run_peek, hpeek]
  exact block_refused i d _ h hroom

theorem expression_statement_refused (e : Expression .list) :
    (Statement.expression e : Statement false o).Refused page := by
  intro room i d l ls hroom _
  have hread := expression_refused page i d (.punct ";") (l :: ls) hroom
    (by decide)
  rw [Statement.write, List.append_assoc, statement_write]
  unfold simpleStatement
  simp
  exact hread.bind _

theorem returns_refused (value : Option (Expression (.right true true))) :
    (Statement.returns value : Statement false o).Refused page := by
  intro room i d l ls hroom _
  cases value with
  | none => cases hroom
  | some e =>
    have hread := initializer_refused page (i + 1) d (.punct ";") (l :: ls)
      hroom (by decide)
    rw [Statement.write, List.cons_append, statement_keyword]
    unfold keywordStatement returnStatement
    simp
    exact hread.bind _

theorem labeled_refused {label : String} {body : Statement k o}
    (h : body.Refused page) :
    (Statement.labeled label body).Refused page := by
  intro room i d l ls hroom hl
  have hbody := body_refused (i + 2) d ls h hroom hl
  unfold statement labeledStatement
  simp [Statement.write, body.peek_close]
  exact hbody.bind _

theorem tries_refused {items : Items} {handlers : Handlers}
    (h : items.Refused page) (hhandlers : handlers.Refused page) :
    (Statement.tries items handlers : Statement false o).Refused page := by
  intro room i d l ls hroom hl
  rw [Statement.write, List.cons_append, List.append_assoc,
    statement_keyword]
  unfold keywordStatement tryBlock
  rcases first_or_rest hroom with hitems | ⟨hitems, hroom⟩
  · have hblock := block_refused (i + 1) d (handlers.write ++ l :: ls) h
      hitems
    simp
    exact hblock.bind _
  · have hblock := block_read (i + 1) d (handlers.write ++ l :: ls)
      (items.reads page .strict) hitems
    have hrest := hhandlers room [] (i + 1 + (items.length + 2)) d l ls hroom
    rw [← handlers_eq] at hrest
    simp [run_bind hblock]
    exact hrest.bind _

-- ==================================================== selection and loops

theorem ladder_refused {condition : Expression .list}
    {body : Statement k (.before n o)} {others : Branches n o}
    (h : body.Refused page) (hothers : others.Refused page) :
    (Statement.ladder condition body others).Refused page := by
  intro room i d l ls hroom hl
  obtain ⟨l', ls', hnext, hfollows⟩ := others.follows hl ls
  rw [Statement.write, List.append_assoc, List.append_assoc, hnext,
    statement_clause]
  unfold keywordStatement ifStatement
  rcases Nat.lt_or_ge room (max (condition.levels 0) (body.levels + 1))
    with hbranch | hbranch
  · have hread := branch_refused i d ls' h hbranch hfollows
    simp
    exact hread.bind _
  · obtain ⟨hcondition, hbody⟩ := Nat.max_le.1 hbranch
    have hroom : room < others.levels := by
      simp only [Statement.levels] at hroom
      omega
    have hread := branch_read condition i d ls' (body.reads page .strict)
      hcondition hbody hfollows
    have hrest := hothers room []
      (i + 2 + condition.length + 1 + body.length) d l ls hroom hl
    rw [← otherBranches_eq, hnext] at hrest
    simp [run_bind hread]
    exact hrest.bind _

theorem switch_refused {value : Expression .list} {body : Statement k o}
    (h : body.Refused page) :
    (Statement.switch value body).Refused page := by
  intro room i d l ls hroom hl
  rw [Statement.write, List.append_assoc, statement_clause]
  unfold keywordStatement switchStatement conditionClause
  rcases first_or_rest hroom with hroom | ⟨hfits, hroom⟩
  · have hvalue := condition_refused page (i + 2) (d + 1) (.punct ")")
      (body.write ++ l :: ls) hroom (by decide)
    simp [clause, expectPunct]
    exact hvalue.bind _
  · have hvalue := condition_read page .strict (i + 2) (d + 1) (.punct ")")
      (body.write ++ l :: ls) hfits (by decide)
    simp [clause, expectPunct, run_bind hvalue]
    exact (body_refused _ d ls h hroom hl).bind _

theorem whileLoop_refused {condition : Expression .list}
    {body : Statement k o} (h : body.Refused page) :
    (Statement.whileLoop condition body).Refused page := by
  intro room i d l ls hroom hl
  rw [Statement.write, List.append_assoc, statement_clause]
  unfold keywordStatement whileStatement
  rcases first_or_rest hroom with hroom | ⟨hfits, hroom⟩
  · have hcondition := condition_refused page (i + 2) (d + 1) (.punct ")")
      (body.write ++ l :: ls) hroom (by decide)
    simp [clause, expectPunct]
    exact hcondition.bind _
  · have hcondition := condition_read page .strict (i + 2) (d + 1)
      (.punct ")") (body.write ++ l :: ls) hfits (by decide)
    simp [clause, expectPunct, run_bind hcondition]
    exact (body_refused _ d ls h hroom hl).bind _

theorem doLoop_refused {body : Statement k .branch}
    {condition : Expression .list} (h : body.Refused page) :
    (Statement.doLoop body condition : Statement false o).Refused page := by
  intro room i d l ls hroom _
  rw [Statement.write, List.cons_append, statement_keyword]
  unfold keywordStatement doStatement
  rcases Nat.lt_or_ge room (body.levels + 1) with hbody | hbody
  · have hread := body_refused (i + 1) d (.punct "(" :: (condition.write
      ++ .punct ")" :: .punct ";" :: l :: ls)) (l := .keyword "while") h hbody
      (by simp [Lexeme.follows])
    simp [clause]
    exact hread.bind _
  · have hroom : room < condition.levels 0 := by
      simp only [Statement.levels] at hroom
      omega
    have hread := body_read (i + 1) d (.punct "(" :: (condition.write
      ++ .punct ")" :: .punct ";" :: l :: ls)) (l := .keyword "while")
      (body.reads page .strict) hbody (by simp [Lexeme.follows])
    have hcondition := expression_refused page (i + 1 + body.length + 2)
      (d + 1) (.punct ")") (.punct ";" :: l :: ls) hroom (by decide)
    simp [clause, expectPunct, run_bind hread]
    exact hcondition.bind _

/-- A `for` loop is refused if its first clause is. -/
theorem forStatement_refused {start : Option (Expression .list)}
    (hroom : room < levelsSome start) :
    TooDeep (forStatement (nested .strict room) (page.state i d
      (.keyword "for" :: .punct "(" ::
        (writeSome start ++ .punct ";" :: ls)))) := by
  cases start with
  | none => cases hroom
  | some e =>
    have hread := condition_refused page (i + 2) (d + 1) (.punct ";") ls
      hroom (by decide)
    unfold forStatement
    simp [expectPunct]
    exact hread.bind _

theorem forCondition_refused {condition : Option (Expression .list)}
    (hroom : room < levelsSome condition) (m : Mark)
    (clauses : List Node) :
    TooDeep (forCondition (nested .strict room) m clauses
      (page.state i d (writeSome condition ++ .punct ";" :: ls))) := by
  cases condition with
  | none => cases hroom
  | some e =>
    have hread := condition_refused page i d (.punct ";") ls hroom
      (by decide)
    unfold forCondition
    simp [expectPunct]
    exact hread.bind _

theorem forTail_refused {step : Option (Expression .list)}
    {body : Statement k o} (h : body.Refused page)
    (hroom : room < max (levelsSome step) (body.levels + 1))
    (hl : l.follows o = true) (m : Mark) (clauses : List Node) :
    TooDeep (forTail (nested .strict room) m clauses (page.state i (d + 1)
      (writeSome step ++ .punct ")" :: (body.write ++ l :: ls)))) := by
  unfold forTail
  rcases first_or_rest hroom with hstep | ⟨hstep, hbody⟩
  · cases step with
    | none => cases hstep
    | some e =>
      have hread := expression_refused page i (d + 1) (.punct ")")
        (body.write ++ l :: ls) hstep (by decide)
      simp [expectPunct]
      exact hread.bind _
  · cases step with
    | none =>
      simp [expectPunct]
      exact (body_refused _ d ls h hbody hl).bind _
    | some e =>
      have hread := expression_read page .strict i (d + 1) (.punct ")")
        (body.write ++ l :: ls) hstep (by decide)
      simp [expectPunct, run_bind hread]
      exact (body_refused _ d ls h hbody hl).bind _

theorem forLoop_refused {start condition step : Option (Expression .list)}
    {body : Statement k o} (h : body.Refused page) :
    (Statement.forLoop start condition step body).Refused page := by
  intro room i d l ls hroom hl
  rw [Statement.write, List.append_assoc, statement_clause]
  simp only [clause, List.cons_append, List.append_assoc, List.nil_append]
  show TooDeep (forStatement _ _)
  rcases first_or_rest hroom with hclauses | ⟨hclauses, hroom⟩
  · rcases first_or_rest hclauses with hstart | ⟨hstart, hcondition⟩
    · exact forStatement_refused hstart
    · rw [forStatement_read hstart]
      exact forCondition_refused hcondition _ _
  · obtain ⟨hstart, hcondition⟩ := Nat.max_le.1 hclauses
    rw [forStatement_read hstart, forCondition_read hcondition]
    exact forTail_refused h hroom hl _ _

-- ========================================================= all statements

mutual

/-- A statement is refused where it nests too deep. -/
theorem Statement.refused (page : Page) :
    {k : Bool} → {o : Ending} → (s : Statement k o) → s.Refused page
  | _, _, .empty | _, _, .breaks | _, _, .continues | _, _, .goto _
  | _, _, .endLabel _ => fun _ _ _ _ _ hroom => nomatch hroom
  | _, _, .block items => block_statement_refused (items.refused page)
  | _, _, .expression e => expression_statement_refused e
  | _, _, .ladder _ body others =>
    ladder_refused (body.refused page) (others.refused page)
  | _, _, .switch _ body => switch_refused (body.refused page)
  | _, _, .whileLoop _ body => whileLoop_refused (body.refused page)
  | _, _, .doLoop body _ => doLoop_refused (body.refused page)
  | _, _, .forLoop _ _ _ body => forLoop_refused (body.refused page)
  | _, _, .returns value => returns_refused value
  | _, _, .labeled _ body => labeled_refused (body.refused page)
  | _, _, .tries items handlers =>
    tries_refused (items.refused page) (handlers.refused page)

/-- Branches are refused where one of them nests too deep. -/
theorem Branches.refused (page : Page) :
    {n : Bool} → {o : Ending} → (b : Branches n o) → b.Refused page
  | _, _, .noElse ho => noElse_refused ho
  | _, _, .lastElse body => lastElse_refused (body.refused page)
  | _, _, .elseIf _ body rest =>
    elseIf_refused (body.refused page) (rest.refused page)

/-- Items are refused where one of them nests too deep. -/
theorem Items.refused (page : Page) : (items : Items) → items.Refused page
  | .noItem => noItem_refused
  | .lastItem s => lastStatement_refused (s.refused page)
  | .item s rest =>
    nextStatement_refused (s.refused page) (rest.refused page)
  | .caseItem _ rest => caseItem_refused (rest.refused page)
  | .defaultItem rest => defaultItem_refused (rest.refused page)

/-- Handlers are refused where one of them nests too deep. -/
theorem Handlers.refused (page : Page) :
    (handlers : Handlers) → handlers.Refused page
  | .lastHandler items => lastHandler_refused (items.refused page)
  | .handler items rest =>
    handler_refused (items.refused page) (rest.refused page)

end

end FrontEnd.Written
