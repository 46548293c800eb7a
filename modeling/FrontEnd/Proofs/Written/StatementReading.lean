/-
Statements are read as they are written: a lemma for each constructor,
and the induction over the tree (`Statement.reads`).
-/
import FrontEnd.Proofs.Written.BlockReading

namespace FrontEnd.Written

open Grammar

variable {page : Page} {policy : Policy} {g : Inner}
variable {room i d : Nat} {l : Lexeme} {ls : List Lexeme}
variable {k n : Bool} {o : Ending}

-- =============================================================== branches

/-- Behind the statement of a branch comes an `else` or what follows the
whole ladder. -/
theorem Branches.follows (b : Branches n o) (hl : l.follows o = true)
    (ls : List Lexeme) :
    ∃ l' ls', b.write ++ l :: ls = l' :: ls' ∧ l'.follows (.before n o) = true := by
  cases b with
  | noElse ho => exact ⟨l, ls, rfl, hl⟩
  | lastElse body => exact ⟨_, _, rfl, rfl⟩
  | elseIf condition body rest => exact ⟨_, _, rfl, rfl⟩

section
variable (word : String) (xs : List Lexeme)

@[simp]
theorem mark_clause : (page.state i d (clause word xs ++ ls)).mark
    = ⟨i, page.locate i⟩ := page.mark_state ..

@[simp]
theorem peek_clause : (page.state i d (clause word xs ++ ls)).peek
    = (Lexeme.keyword word).token (page.place i) := page.peek_state ..

end

/-- An `if` and its statement. -/
theorem branch_read (condition : Expression .list) (i d : Nat)
    (ls : List Lexeme) {body : Statement k o} (h : body.Reads page policy)
    (hroom : condition.levels 0 ≤ room) (hroom' : body.levels + 1 ≤ room)
    (hl : l.follows o = true) :
    branch (nested policy room) (page.state i d
        (clause "if" condition.write ++ (body.write ++ l :: ls)))
      = .ok [conditionNode page.locate condition (i + 2),
          body.node page.locate (i + 2 + condition.length + 1)]
        (page.state (i + 2 + condition.length + 1 + body.length) d
          (l :: ls)) := by
  have hcondition := condition_read page policy (i + 2) (d + 1) (.punct ")")
    (body.write ++ l :: ls) hroom (by decide)
  have hbody := body_read (i + 2 + condition.length + 1) d ls h hroom' hl
  unfold branch conditionClause
  simp [clause, expectPunct, run_bind hcondition, run_map hbody]

theorem noElse_reads (ho : o ≠ .closed) :
    (Branches.noElse ho).Reads page policy := by
  intro room done i d l ls _ hl
  refine loop_done ?_
  unfold branchRound
  simp only [Branches.write, List.nil_append, run_accept, Page.peek_state,
    Lexeme.isKeyword_token, Lexeme.not_else hl ho]
  rfl

/-- The statement of a final `else` does not begin with an `if`. -/
theorem Statement.peek_if (s : Statement false o) :
    (page.state i d (s.write ++ ls)).peek.isKeyword "if" = false := by
  obtain ⟨l, ls', hwrite, -, -, hif⟩ := s.opens
  rw [hwrite, List.cons_append, Page.peek_state, Lexeme.isKeyword_token,
    hif rfl]

theorem lastElse_reads {body : Statement false o}
    (h : body.Reads page policy) :
    (Branches.lastElse body).Reads page policy := by
  intro room done i d l ls hroom hl
  have hstop : i + 1 + body.length
      = i + (Branches.lastElse body).length := by
    simp [Statement.length, Branches.length, Branches.write]
    omega
  have hbody := body_read (i + 1) d ls h hroom hl
  refine loop_done ?_
  unfold branchRound
  simp [Branches.write, body.peek_if, run_map hbody, hstop, Branches.nodes]

/-- Another branch of a ladder. -/
theorem elseIf_again {condition : Expression .list} {body : Statement k o}
    (h : body.Reads page policy) (hroom : condition.levels 0 ≤ room)
    (hroom' : body.levels + 1 ≤ room) (hl : l.follows o = true)
    (done : List Node) :
    loop (branchRound (nested policy room)) done
        (page.state i d (.keyword "else" :: (clause "if" condition.write
          ++ (body.write ++ l :: ls))))
      = loop (branchRound (nested policy room))
        (nodeOf page.locate .ifStatement (i + 1)
          (condition.length + 3 + body.length)
          [conditionNode page.locate condition (i + 3),
            body.node page.locate (i + 3 + condition.length + 1)] :: done)
        (page.state (i + 3 + condition.length + 1 + body.length) d
          (l :: ls)) := by
  have hbranch := branch_read condition (i + 1) d ls h hroom hroom' hl
  refine loop_again ?_ (by omega)
    (by simp [clause, Expression.length, Statement.length]; omega)
  unfold branchRound
  simp [run_bind hbranch]
  exact node_state (by omega)

theorem elseIf_reads {condition : Expression .list}
    {body : Statement k (.before n o)} {rest : Branches n o}
    (h : body.Reads page policy) (hrest : rest.Reads page policy) :
    (Branches.elseIf condition body rest).Reads page policy := by
  intro room done i d l ls hroom hl
  obtain ⟨hroom, hroom'⟩ := Nat.max_le.1 hroom
  obtain ⟨hroom', hroom''⟩ := Nat.max_le.1 hroom'
  obtain ⟨l', ls', hnext, hfollows⟩ := rest.follows hl ls
  have hstop : i + 3 + condition.length + 1 + body.length + rest.length
      = i + (Branches.elseIf condition body rest).length := by
    simp [Expression.length, Statement.length, Branches.length,
      Branches.write, clause]
    omega
  rw [Branches.write, List.cons_append, List.append_assoc,
    List.append_assoc, hnext, elseIf_again h hroom hroom' hfollows, ← hnext,
    hrest room _ _ d l ls hroom'' hl, hstop]
  simp [Branches.nodes]

-- ====================================================== simple statements

theorem empty_reads :
    (Statement.empty : Statement false o).Reads page policy := by
  intro room i d l ls _ _
  unfold statement
  simp [Statement.write]
  exact ⟨rfl, rfl⟩

theorem block_reads {items : Items} (h : items.Reads page policy) :
    (Statement.block items : Statement false o).Reads page policy := by
  intro room i d l ls hroom _
  have hlength : items.length + 2
      = (Statement.block items : Statement false o).length := by
    simp [Items.length, Statement.length, Statement.write, inBraces]
  have hpeek : (page.state i d (inBraces items.write ++ l :: ls)).peek
      = (Lexeme.punct "\x7b").token (page.place i) := page.peek_state ..
  unfold statement
  rw [Statement.write, run_peek, hpeek, ← hlength]
  exact block_read i d _ h hroom

/-- Where an expression begins, a statement is simple. -/
theorem statement_write {r : Rank} (e : Expression r) :
    statement g (page.state i d (e.write ++ ls))
      = simpleStatement g (page.state i d (e.write ++ ls)) := by
  obtain ⟨l, ls', hwrite, hopens⟩ := e.opens
  unfold statement
  rw [hwrite, List.cons_append]
  cases l <;> simp_all [Lexeme.opens]

theorem expression_reads (e : Expression .list) :
    (Statement.expression e : Statement false o).Reads page policy := by
  intro room i d l ls hroom _
  have hstop : i + e.length + 1
      = i + (Statement.expression e : Statement false o).length := by
    simp [Expression.length, Statement.length, Statement.write]
    omega
  have hread := expression_read page policy i d (.punct ";") (l :: ls) hroom
    (by decide)
  rw [Statement.write, List.append_assoc, statement_write]
  unfold simpleStatement
  simp [run_bind hread, expectPunct, hstop]
  rfl

/-- A statement that begins with a keyword. -/
@[simp]
theorem statement_keyword (word : String) :
    statement g (page.state i d (.keyword word :: ls))
      = keywordStatement g word (page.state i d (.keyword word :: ls)) := by
  unfold statement
  simp

@[simp]
theorem statement_clause (word : String) (xs : List Lexeme) :
    statement g (page.state i d (clause word xs ++ ls))
      = keywordStatement g word (page.state i d (clause word xs ++ ls)) :=
  statement_keyword word

theorem plainJump_read (word : String) (kind : NodeKind) (context : String) :
    plainJump kind context
        (page.state i d (.keyword word :: .punct ";" :: ls))
      = .ok (nodeOf page.locate kind i 2 []) (page.state (i + 2) d ls) := by
  unfold plainJump
  simp [expectPunct, node_state (show i + 1 + 1 = i + 2 from rfl)]

theorem breaks_reads :
    (Statement.breaks : Statement false o).Reads page policy := by
  intro room i d l ls _ _
  rw [Statement.write, List.cons_append, statement_keyword]
  exact plainJump_read ..

theorem continues_reads :
    (Statement.continues : Statement false o).Reads page policy := by
  intro room i d l ls _ _
  rw [Statement.write, List.cons_append, statement_keyword]
  exact plainJump_read ..

theorem goto_reads (label : String) :
    (Statement.goto label : Statement false o).Reads page policy := by
  intro room i d l ls _ _
  rw [Statement.write, List.cons_append, statement_keyword]
  unfold keywordStatement gotoStatement
  have hstop : i + 1 + 1 + 1
      = i + (Statement.goto label : Statement false o).length := rfl
  simp [expectPunct, expectName, hstop]
  rfl

theorem returns_reads (value : Option (Expression (.right true true))) :
    (Statement.returns value : Statement false o).Reads page policy := by
  intro room i d l ls hroom _
  rw [Statement.write, List.cons_append, statement_keyword]
  unfold keywordStatement returnStatement
  cases value with
  | none =>
    have hstop : i + 1 + 1 = i
        + (Statement.returns none : Statement false o).length := rfl
    simp [expectPunct, hstop]
    rfl
  | some e =>
    have hread := initializer_read page policy (i + 1) d (.punct ";")
      (l :: ls) hroom (by decide)
    have hstop : i + 1 + e.length + 1 = i
        + (Statement.returns (some e) : Statement false o).length := by
      simp [Expression.length, Statement.length, Statement.write, writeSome]
      omega
    simp [expectPunct, run_bind hread, hstop]
    rfl

/-- A statement does not begin with the end of a block. -/
theorem Statement.peek_close (s : Statement k o) :
    (page.state i d (s.write ++ ls)).peek.isPunct "\x7d" = false := by
  obtain ⟨l, ls', hwrite, -, hclose, -⟩ := s.opens
  rw [hwrite, List.cons_append, Page.peek_state, Lexeme.isPunct_token,
    hclose]

theorem labeled_reads {label : String} {body : Statement k o}
    (h : body.Reads page policy) :
    (Statement.labeled label body).Reads page policy := by
  intro room i d l ls hroom hl
  have hbody := body_read (i + 2) d ls h hroom hl
  have hstop : i + 2 + body.length
      = i + (Statement.labeled label body).length := by
    simp [Statement.length, Statement.write]
    omega
  unfold statement labeledStatement
  simp [Statement.write, body.peek_close, run_bind hbody, hstop]
  rfl

theorem endLabel_reads (label : String) :
    (Statement.endLabel label).Reads page policy := by
  intro room i d l ls _ hl
  obtain rfl : l = .punct "\x7d" := by
    cases l <;> simp_all [Lexeme.follows]
  have hstop : i + 1 + 1 = i + (Statement.endLabel label).length := rfl
  unfold statement labeledStatement
  simp [Statement.write, hstop]
  rfl

/-- Handlers are at least one. -/
theorem Handlers.nodes_ne_nil (handlers : Handlers)
    (locate : Nat → Location) : handlers.nodes locate i ≠ [] := by
  cases handlers <;> simp [nodes]

theorem tries_reads {items : Items} {handlers : Handlers}
    (h : items.Reads page policy) (hhandlers : handlers.Reads page policy) :
    (Statement.tries items handlers : Statement false o).Reads page
      policy := by
  intro room i d l ls hroom hl
  obtain ⟨hroom, hroom'⟩ := Nat.max_le.1 hroom
  have hblock := block_read (i + 1) d (handlers.write ++ l :: ls) h hroom
  have hrest := hhandlers room [] (i + 1 + (items.length + 2)) d l ls hroom'
    (Lexeme.not_catch hl)
  rw [← handlers_eq] at hrest
  rw [Statement.write, List.cons_append, List.append_assoc, statement_keyword]
  unfold keywordStatement tryBlock
  have hstop : i + 1 + (items.length + 2) + handlers.length
      = i + (Statement.tries items handlers : Statement false o).length := by
    simp [Items.length, Handlers.length, Statement.length, Statement.write,
      inBraces]
    omega
  simp [run_bind hblock, run_bind hrest, handlers.nodes_ne_nil, hstop]
  rfl

-- ====================================================== selection and loops

theorem ladder_reads {condition : Expression .list}
    {body : Statement k (.before n o)} {others : Branches n o}
    (h : body.Reads page policy) (hothers : others.Reads page policy) :
    (Statement.ladder condition body others).Reads page policy := by
  intro room i d l ls hroom hl
  obtain ⟨hroom, hroom'⟩ := Nat.max_le.1 hroom
  obtain ⟨hroom', hroom''⟩ := Nat.max_le.1 hroom'
  obtain ⟨l', ls', hnext, hfollows⟩ := others.follows hl ls
  have hbranch := branch_read condition i d ls' h hroom hroom' hfollows
  have hstop : i + 2 + condition.length + 1 + body.length + others.length
      = i + (Statement.ladder condition body others).length := by
    simp [Expression.length, Statement.length, Branches.length,
      Statement.write, clause]
    omega
  have hrest := hothers room [] (i + 2 + condition.length + 1 + body.length)
    d l ls hroom'' hl
  rw [← otherBranches_eq, hstop] at hrest
  rw [Statement.write, List.append_assoc, List.append_assoc]
  rw [← hnext] at hbranch
  rw [statement_clause]
  unfold keywordStatement ifStatement
  simp [run_bind hbranch, run_bind hrest]
  rfl

theorem switch_reads {value : Expression .list} {body : Statement k o}
    (h : body.Reads page policy) :
    (Statement.switch value body).Reads page policy := by
  intro room i d l ls hroom hl
  obtain ⟨hroom, hroom'⟩ := Nat.max_le.1 hroom
  have hvalue := condition_read page policy (i + 2) (d + 1) (.punct ")")
    (body.write ++ l :: ls) hroom (by decide)
  have hbody := body_read (i + 2 + value.length + 1) d ls h hroom' hl
  have hstop : i + 2 + value.length + 1 + body.length
      = i + (Statement.switch value body).length := by
    simp [Expression.length, Statement.length, Statement.write, clause]
    omega
  rw [Statement.write, List.append_assoc]
  rw [statement_clause]
  unfold keywordStatement switchStatement conditionClause
  simp [clause, expectPunct, run_bind hvalue, run_bind hbody, hstop]
  rfl

theorem whileLoop_reads {condition : Expression .list}
    {body : Statement k o} (h : body.Reads page policy) :
    (Statement.whileLoop condition body).Reads page policy := by
  intro room i d l ls hroom hl
  obtain ⟨hroom, hroom'⟩ := Nat.max_le.1 hroom
  have hcondition := condition_read page policy (i + 2) (d + 1) (.punct ")")
    (body.write ++ l :: ls) hroom (by decide)
  have hbody := body_read (i + 2 + condition.length + 1) d ls h hroom' hl
  have hstop : i + 2 + condition.length + 1 + body.length
      = i + (Statement.whileLoop condition body).length := by
    simp [Expression.length, Statement.length, Statement.write, clause]
    omega
  rw [Statement.write, List.append_assoc]
  rw [statement_clause]
  unfold keywordStatement whileStatement
  simp [clause, expectPunct, run_bind hcondition, run_bind hbody, hstop]
  rfl

theorem doLoop_reads {body : Statement k .branch}
    {condition : Expression .list} (h : body.Reads page policy) :
    (Statement.doLoop body condition : Statement false o).Reads page
      policy := by
  intro room i d l ls hroom _
  obtain ⟨hroom, hroom'⟩ := Nat.max_le.1 hroom
  have hbody := body_read (i + 1) d (.punct "(" :: (condition.write
    ++ .punct ")" :: .punct ";" :: l :: ls)) (l := .keyword "while") h hroom'
    (by simp [Lexeme.follows])
  have hcondition := expression_read page policy (i + 1 + body.length + 2)
    (d + 1) (.punct ")") (.punct ";" :: l :: ls) hroom (by decide)
  have hstop : i + 1 + body.length + 2 + condition.length + 2
      = i + (Statement.doLoop body condition : Statement false o).length := by
    simp [Expression.length, Statement.length, Statement.write, clause]
    omega
  rw [Statement.write, List.cons_append, statement_keyword]
  unfold keywordStatement doStatement
  simp [clause, expectPunct, run_bind hbody, run_bind hcondition, hstop]
  rfl

/-- A `for` loop up to its first semicolon. -/
theorem forStatement_read {start : Option (Expression .list)}
    (hroom : levelsSome start ≤ room) :
    forStatement (nested policy room) (page.state i d (.keyword "for"
        :: .punct "(" :: (writeSome start ++ .punct ";" :: ls)))
      = forCondition (nested policy room) ⟨i, page.locate i⟩
        (conditionsSome page.locate start (i + 2))
        (page.state (i + 2 + lengthSome start + 1) (d + 1) ls) := by
  unfold forStatement
  cases start with
  | none => simp [conditionsSome, expectPunct]
  | some e =>
    have hread := condition_read page policy (i + 2) (d + 1) (.punct ";") ls
      hroom (by decide)
    simp [conditionsSome, expectPunct, run_bind hread]

/-- The rest of a `for` loop behind its first semicolon. -/
theorem forCondition_read {condition : Option (Expression .list)}
    (hroom : levelsSome condition ≤ room) (m : Mark) (clauses : List Node) :
    forCondition (nested policy room) m clauses
        (page.state i d (writeSome condition ++ .punct ";" :: ls))
      = forTail (nested policy room) m
        (clauses ++ conditionsSome page.locate condition i)
        (page.state (i + lengthSome condition + 1) d ls) := by
  unfold forCondition
  cases condition with
  | none => simp [conditionsSome, expectPunct]
  | some e =>
    have hread := condition_read page policy i d (.punct ";") ls hroom
      (by decide)
    simp [conditionsSome, expectPunct, run_bind hread]

/-- The rest of a `for` loop behind its second semicolon. -/
theorem forTail_read {step : Option (Expression .list)}
    {body : Statement k o} (h : body.Reads page policy)
    (hroom : levelsSome step ≤ room) (hroom' : body.levels + 1 ≤ room)
    (hl : l.follows o = true) (m : Mark) (clauses : List Node) :
    forTail (nested policy room) m clauses (page.state i (d + 1)
        (writeSome step ++ .punct ")" :: (body.write ++ l :: ls)))
      = finish .forStatement m (clauses ++ nodesSome page.locate step i
          ++ [body.node page.locate (i + lengthSome step + 1)])
        (page.state (i + lengthSome step + 1 + body.length) d (l :: ls)) := by
  unfold forTail
  cases step with
  | none =>
    have hbody := body_read (i + 1) d ls h hroom' hl
    simp [nodesSome, expectPunct, run_bind hbody]
  | some e =>
    have hread := expression_read page policy i (d + 1) (.punct ")")
      (body.write ++ l :: ls) hroom (by decide)
    have hbody := body_read (i + e.length + 1) d ls h hroom' hl
    simp [nodesSome, expectPunct, run_bind hread, run_bind hbody]

theorem forLoop_reads {start condition step : Option (Expression .list)}
    {body : Statement k o} (h : body.Reads page policy) :
    (Statement.forLoop start condition step body).Reads page policy := by
  intro room i d l ls hroom hl
  obtain ⟨hclauses, hroom⟩ := Nat.max_le.1 hroom
  obtain ⟨hstart, hcondition⟩ := Nat.max_le.1 hclauses
  obtain ⟨hstep, hroom⟩ := Nat.max_le.1 hroom
  have hstop : i + 2 + lengthSome start + 1 + lengthSome condition + 1
        + lengthSome step + 1 + body.length
      = i + (Statement.forLoop start condition step body).length := by
    simp [lengthSome, Statement.length, Statement.write, clause]
    omega
  rw [Statement.write, List.append_assoc, statement_clause]
  simp only [clause, List.cons_append, List.append_assoc, List.nil_append]
  show forStatement _ _ = _
  rw [forStatement_read hstart, forCondition_read hcondition,
    forTail_read h hstep hroom hl, hstop, finish_apply, node_state rfl]
  rfl

-- ========================================================= all statements

mutual

/-- A statement is read as it is written. -/
theorem Statement.reads (page : Page) (policy : Policy) :
    {k : Bool} → {o : Ending} → (s : Statement k o) → s.Reads page policy
  | _, _, .empty => empty_reads
  | _, _, .block items => block_reads (items.reads page policy)
  | _, _, .expression e => expression_reads e
  | _, _, .ladder _ body others =>
    ladder_reads (body.reads page policy) (others.reads page policy)
  | _, _, .switch _ body => switch_reads (body.reads page policy)
  | _, _, .whileLoop _ body => whileLoop_reads (body.reads page policy)
  | _, _, .doLoop body _ => doLoop_reads (body.reads page policy)
  | _, _, .forLoop _ _ _ body => forLoop_reads (body.reads page policy)
  | _, _, .returns value => returns_reads value
  | _, _, .breaks => breaks_reads
  | _, _, .continues => continues_reads
  | _, _, .goto label => goto_reads label
  | _, _, .labeled _ body => labeled_reads (body.reads page policy)
  | _, _, .endLabel label => endLabel_reads label
  | _, _, .tries items handlers =>
    tries_reads (items.reads page policy) (handlers.reads page policy)

/-- Branches are read as they are written. -/
theorem Branches.reads (page : Page) (policy : Policy) :
    {n : Bool} → {o : Ending} → (b : Branches n o) → b.Reads page policy
  | _, _, .noElse ho => noElse_reads ho
  | _, _, .lastElse body => lastElse_reads (body.reads page policy)
  | _, _, .elseIf _ body rest =>
    elseIf_reads (body.reads page policy) (rest.reads page policy)

/-- Items are read as they are written. -/
theorem Items.reads (page : Page) (policy : Policy) :
    (items : Items) → items.Reads page policy
  | .noItem => noItem_reads
  | .lastItem s => lastStatement_reads (s.reads page policy)
  | .item s rest =>
    nextStatement_reads (s.reads page policy) (rest.reads page policy)
  | .caseItem _ rest => caseItem_reads (rest.reads page policy)
  | .defaultItem rest => defaultItem_reads (rest.reads page policy)

/-- Handlers are read as they are written. -/
theorem Handlers.reads (page : Page) (policy : Policy) :
    (handlers : Handlers) → handlers.Reads page policy
  | .lastHandler items => lastHandler_reads (items.reads page policy)
  | .handler items rest =>
    handler_reads (items.reads page policy) (rest.reads page policy)

end

end FrontEnd.Written
