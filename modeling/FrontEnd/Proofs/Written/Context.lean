/-
The places of a statement where a whole expression can stand. Each of them is
left by a rule of its own, and what they share is the expression: the tree
that is read for it is the tree that it has as a statement, moved to where it
stands (`expression_anywhere`).

A tree moves with its tokens. Its nodes are laid out by the numbers of lexemes
alone, so that the tree further on is the tree at the start with every range
shifted and with the locations found there (`Expression.node_displaced`).

The value of a `return` is read as an initializer, which ends in front of a
comma; so with commas an expression can stand in all places but that one.
-/
import FrontEnd.Proofs.Lockstep.Displaced
import FrontEnd.Proofs.Written.Function

namespace FrontEnd.Written

open Grammar

-- ============================================================ a tree moved

section
variable (locate : Nat → Location) (n : Nat)

theorem nodeOf_displaced (kind : NodeKind) (i length : Nat)
    (children : List Node) :
    (nodeOf (fun k => locate (k + n)) kind i length children).displace n false
      = nodeOf locate kind (i + n) length
        (children.map (Node.displace n false)) := by
  unfold nodeOf Node.displace
  rw [Node.displaceAll_eq_map, Nat.add_right_comm]
  rfl

mutual

/-- The tree of an expression further on. -/
theorem Expression.node_displaced : {r : Rank} → (e : Expression r) →
    (i : Nat) → (e.node (fun k => locate (k + n)) i).displace n false
      = e.node locate (i + n)
  | _, .number _, i => nodeOf_displaced ..
  | _, .plain e, i | _, .tight e, i | _, .simple e, i | _, .single e, i =>
    e.node_displaced i
  | _, .parens inner, i => by
    simp only [Expression.node, nodeOf_displaced, List.map_cons, List.map_nil,
      inner.node_displaced, Nat.add_right_comm _ n]
  | _, .step e _ _, i | _, .call e, i | _, .unary _ _ e, i => by
    simp only [Expression.node, nodeOf_displaced, List.map_cons, List.map_nil,
      e.node_displaced, Nat.add_right_comm _ n]
  | _, .callWith callee arguments, i => by
    simp only [Expression.node, nodeOf_displaced, List.map_cons,
      callee.node_displaced, arguments.nodes_displaced,
      Nat.add_right_comm _ n]
  | _, .subscript object index, i => by
    simp only [Expression.node, nodeOf_displaced, List.map_cons, List.map_nil,
      object.node_displaced, index.node_displaced, Nat.add_right_comm _ n]
  | _, .joined first _ _ second others, i => by
    simp only [Expression.node, nodeOf_displaced, List.map_cons,
      first.node_displaced, second.node_displaced, others.nodes_displaced,
      Nat.add_right_comm _ n]
  | _, .assigns first _ _ others last, i => by
    simp only [Expression.node, nodeOf_displaced, List.map_cons, List.map_append,
      List.map_nil, first.node_displaced, others.nodes_displaced,
      last.node_displaced, Nat.add_right_comm _ n]
  | _, .chooses condition first others last, i => by
    simp only [Expression.node, nodeOf_displaced, List.map_cons, List.map_append,
      List.map_nil, condition.node_displaced, first.node_displaced,
      others.nodes_displaced, last.node_displaced, Nat.add_right_comm _ n]
  | _, .several first others, i => by
    simp only [Expression.node, nodeOf_displaced, List.map_cons,
      first.node_displaced, others.nodes_displaced, Nat.add_right_comm _ n]

/-- The trees of parts further on. -/
theorem Parts.nodes_displaced : {k : Series} → (p : Parts k) → (i : Nat) →
    (p.nodes (fun k => locate (k + n)) i).map (Node.displace n false)
      = p.nodes locate (i + n)
  | _, .noOperand, _ | _, .noTarget, _ | _, .noChoice, _ => rfl
  | _, .lastItem e, i => by
    simp only [Parts.nodes, List.map_cons, List.map_nil, e.node_displaced]
  | _, .item e rest, i | _, .operand _ _ e rest, i
  | _, .target e _ _ rest, i => by
    simp only [Parts.nodes, List.map_cons, e.node_displaced, rest.nodes_displaced,
      Nat.add_right_comm _ n]
  | _, .choice condition e rest, i => by
    simp only [Parts.nodes, List.map_cons, condition.node_displaced,
      e.node_displaced, rest.nodes_displaced, Nat.add_right_comm _ n]

end

end

-- ================================================================ operands

section
variable {levels : List (List String)} (e : Expression (.binary []))

theorem Expression.write_loosen : (e.loosen levels).write = e.write := by
  induction levels with
  | nil => rfl
  | cons level levels ih => exact ih

theorem Expression.levels_loosen (waiting : Nat) :
    (e.loosen levels).levels waiting = e.levels 0 := by
  induction levels generalizing waiting with
  | nil => cases e <;> rfl
  | cons level levels ih => exact ih 0

theorem Expression.node_loosen (locate : Nat → Location) (i : Nat) :
    (e.loosen levels).node locate i = e.node locate i := by
  induction levels with
  | nil => rfl
  | cons level levels ih => exact ih

end

/-- What binds tightest as a whole expression. -/
def Expression.whole (e : Expression .suffixed) : Expression .list :=
  .single (.simple (.loosen binaryLevels (.plain e)))

section
variable (e : Expression .suffixed)

theorem Expression.write_whole : e.whole.write = e.write :=
  write_loosen (.plain e)

theorem Expression.levels_whole (waiting : Nat) :
    e.whole.levels waiting = max 1 (e.levels 0) + 1 :=
  congrArg (max 1 · + 1) (levels_loosen (.plain e) 0)

theorem Expression.node_whole (locate : Nat → Location) (i : Nat) :
    e.whole.node locate i = e.node locate i :=
  node_loosen (.plain e) locate i

end

/-- A whole expression takes a level of its own. -/
theorem Expression.one_le_levels (e : Expression .list) (waiting : Nat) :
    1 ≤ e.levels waiting := by
  cases e with
  | single operand => exact Nat.le_add_left 1 _
  | several first others =>
    exact (Nat.le_add_left 1 _).trans (le_max_left _ _)

-- ================================================================== holes

/-- The places of a statement where a whole expression can stand. -/
inductive Hole where
  | statement
  | parens
  | returns
  | whileTest
  | doTest
  | switchValue
  | forStep
  | subscript
deriving DecidableEq, Repr

namespace Hole

/-- The lexemes of the statement in front of the expression. -/
def before : Hole → List Lexeme
  | statement => []
  | parens => [.punct "("]
  | returns => [.keyword "return"]
  | whileTest => [.keyword "while", .punct "("]
  | doTest => [.keyword "do", .punct ";", .keyword "while", .punct "("]
  | switchValue => [.keyword "switch", .punct "("]
  | forStep => [.keyword "for", .punct "(", .punct ";", .punct ";"]
  | subscript => [.number "1", .punct "["]

/-- The lexemes of the statement behind the expression. -/
def behind : Hole → List Lexeme
  | statement | returns => [.punct ";"]
  | subscript => [.punct "]", .punct ";"]
  | parens | whileTest | doTest | switchValue | forStep =>
    [.punct ")", .punct ";"]

/-- The statement with some lexemes at the place. -/
def write (hole : Hole) (ls : List Lexeme) : List Lexeme :=
  hole.before ++ (ls ++ hole.behind)

/-- The tree of the statement that begins at the index, by the tree of the
expression and the number of its lexemes. -/
def around (hole : Hole) (locate : Nat → Location) (i length : Nat)
    (tree : Node) : Node :=
  let node (kind : NodeKind) (children : List Node) :=
    nodeOf locate kind i (hole.before.length + length + hole.behind.length)
      children
  let empty (i : Nat) := nodeOf locate .emptyStatement i 1 []
  let condition := nodeOf locate .condition (i + 2) length [tree]
  match hole with
  | statement => node .expressionStatement [tree]
  | parens => node .expressionStatement
    [nodeOf locate .parenthesizedExpression i (length + 2) [tree]]
  | returns => node .returnStatement [tree]
  | whileTest => node .whileStatement [condition, empty (i + 2 + length + 1)]
  | doTest => node .doStatement [empty (i + 1), tree]
  | switchValue =>
    node .switchStatement [condition, empty (i + 2 + length + 1)]
  | forStep => node .forStatement [tree, empty (i + 4 + length + 1)]
  | subscript => node .expressionStatement
    [nodeOf locate .subscriptExpression i (length + 3)
      [nodeOf locate .literal i 1 [], tree]]

variable (hole : Hole) {e : Expression .list}

theorem length_write (ls : List Lexeme) : (hole.write ls).length
    = hole.before.length + ls.length + hole.behind.length := by
  rw [write, List.length_append, List.length_append, Nat.add_assoc]

/-- The statement that has the expression at the place. -/
structure Takes (e : Expression .list) (s : Statement false .branch) :
    Prop where
  write_eq : s.write = hole.write e.write
  levels_le : s.levels ≤ e.levels 0 + 1
  node_eq : ∀ locate i, s.node locate i = hole.around locate i e.length
    (e.node locate (i + hole.before.length))

variable {hole} {s : Statement false .branch}

/-- A node of the statement is as long as what is written for it. -/
theorem nodeOf_whole (hwrite : s.write = hole.write e.write)
    (locate : Nat → Location) (kind : NodeKind) (i : Nat)
    (children : List Node) :
    nodeOf locate kind i s.length children = nodeOf locate kind i
      (hole.before.length + e.length + hole.behind.length) children := by
  rw [Statement.length, hwrite, length_write]
  rfl

theorem takes_statement : statement.Takes e (.expression e) := by
  have hwrite : Statement.write (k := false) (o := .branch) (.expression e)
      = statement.write e.write := rfl
  exact ⟨hwrite, Nat.le_succ _,
    fun locate i => nodeOf_whole hwrite locate _ i _⟩

theorem takes_parens :
    parens.Takes e (.expression (Expression.parens e).whole) := by
  have hwrite : Statement.write (k := false) (o := .branch)
      (.expression (Expression.parens e).whole) = parens.write e.write := by
    show (Expression.parens e).whole.write ++ [.punct ";"] = _
    rw [Expression.write_whole]
    exact congrArg (_ :: ·) (List.append_assoc e.write _ _)
  refine ⟨hwrite, ?_, fun locate i => ?_⟩
  · show (Expression.parens e).whole.levels 0 ≤ _
    rw [Expression.levels_whole]
    exact Nat.le_of_eq (congrArg (· + 1) (max_eq_right (e.one_le_levels 0)))
  · have hlength : (Expression.parens e).length = e.length + 2 := by
      simp [Expression.length, Expression.write]
    refine (nodeOf_whole hwrite locate _ i _).trans ?_
    rw [Expression.node_whole, Expression.node, hlength]
    rfl

theorem takes_returns {a : Expression (.right true true)} :
    returns.Takes (.single a) (.returns (some a)) := by
  have hwrite : Statement.write (k := false) (o := .branch)
      (.returns (some a))
      = returns.write (Expression.single a).write := rfl
  exact ⟨hwrite, Nat.le_succ _,
    fun locate i => nodeOf_whole hwrite locate _ i _⟩

/-- A condition with an empty statement behind it. -/
theorem clause_empty (word : String) (ls : List Lexeme) :
    clause word ls ++ [.punct ";"]
      = .keyword word :: .punct "(" :: (ls ++ [.punct ")", .punct ";"]) :=
  congrArg (_ :: _ :: ·) (List.append_assoc ls _ _)

/-- A body that is empty takes no more levels than an expression. -/
theorem levels_empty_le (e : Expression .list) :
    max (e.levels 0) ((Statement.empty : Statement false .branch).levels + 1)
      ≤ e.levels 0 + 1 :=
  max_le (Nat.le_succ _) (Nat.le_add_left 1 _)

theorem takes_whileTest :
    whileTest.Takes e (.whileLoop e (k := false) .empty) := by
  have hwrite : Statement.write (k := false) (o := .branch)
      (.whileLoop e (k := false) .empty) = whileTest.write e.write :=
    clause_empty "while" e.write
  exact ⟨hwrite, levels_empty_le e,
    fun locate i => nodeOf_whole hwrite locate _ i _⟩

theorem takes_doTest : doTest.Takes e (.doLoop (k := false) .empty e) := by
  have hwrite : Statement.write (k := false) (o := .branch)
      (.doLoop (k := false) .empty e) = doTest.write e.write :=
    congrArg (_ :: _ :: ·) (clause_empty "while" e.write)
  exact ⟨hwrite, levels_empty_le e,
    fun locate i => nodeOf_whole hwrite locate _ i _⟩

theorem takes_switchValue :
    switchValue.Takes e (.switch e (k := false) .empty) := by
  have hwrite : Statement.write (k := false) (o := .branch)
      (.switch e (k := false) .empty) = switchValue.write e.write :=
    clause_empty "switch" e.write
  exact ⟨hwrite, levels_empty_le e,
    fun locate i => nodeOf_whole hwrite locate _ i _⟩

theorem takes_forStep :
    forStep.Takes e (.forLoop none none (some e) (k := false) .empty) := by
  have hwrite : Statement.write (k := false) (o := .branch)
      (.forLoop none none (some e) (k := false) .empty)
      = forStep.write e.write :=
    clause_empty "for" (.punct ";" :: .punct ";" :: e.write)
  exact ⟨hwrite, max_le (Nat.zero_le _) (levels_empty_le e),
    fun locate i => nodeOf_whole hwrite locate _ i _⟩

theorem takes_subscript :
    subscript.Takes e
      (.expression (Expression.subscript (.number "1") e).whole) := by
  have hwrite : Statement.write (k := false) (o := .branch)
      (.expression (Expression.subscript (.number "1") e).whole)
      = subscript.write e.write := by
    show (Expression.subscript (.number "1") e).whole.write
      ++ [.punct ";"] = _
    rw [Expression.write_whole]
    exact congrArg (_ :: _ :: ·) (List.append_assoc e.write _ _)
  refine ⟨hwrite, ?_, fun locate i => ?_⟩
  · show (Expression.subscript (.number "1") e).whole.levels 0 ≤ _
    rw [Expression.levels_whole, Expression.levels, Expression.levels,
      Nat.zero_max, max_eq_right (e.one_le_levels 0)]
  · have hlength : (Expression.subscript (.number "1") e).length
        = e.length + 3 := by
      simp [Expression.length, Expression.write]
    refine (nodeOf_whole hwrite locate _ i _).trans ?_
    rw [Expression.node_whole, Expression.node, hlength]
    rfl

/-- A statement has any expression at any of its places, except that a value
that is returned is no list. -/
theorem exists_takes (hole : Hole)
    (hcommas : hole = .returns → ∃ a, e = .single a) :
    ∃ s, hole.Takes e s := by
  cases hole with
  | statement => exact ⟨_, takes_statement⟩
  | parens => exact ⟨_, takes_parens⟩
  | returns =>
    obtain ⟨a, rfl⟩ := hcommas rfl
    exact ⟨_, takes_returns⟩
  | whileTest => exact ⟨_, takes_whileTest⟩
  | doTest => exact ⟨_, takes_doTest⟩
  | switchValue => exact ⟨_, takes_switchValue⟩
  | forStep => exact ⟨_, takes_forStep⟩
  | subscript => exact ⟨_, takes_subscript⟩

end Hole

-- ============================================================ main results

/-- An expression is read the same way wherever a whole expression can stand,
but for lists that are returned: there is no error, and its tree is the one
that it has as a statement, moved to where it stands. -/
theorem expression_anywhere (page : Page) (e : Expression .list)
    (hroom : e.levels 0 + 2 < maxNesting) (hole : Hole)
    (hcommas : hole = .returns → ∃ a, e = .single a) (policy : Policy) :
    ParseOutcome.ofTokens policy
        (page.lay 0 (inFunction (hole.write e.write)))
      = { tree := page.functionUnit (hole.write e.write).length
            [hole.around page.locate 5 e.length
              ((e.node (fun k => page.locate (k + hole.before.length))
                5).displace hole.before.length false)]
          errors := [], phase := .normal } := by
  obtain ⟨s, hs⟩ := hole.exists_takes hcommas
  let item : Items := .item s .noItem
  have hwrite : item.write = hole.write e.write := by
    rw [← hs.write_eq]
    exact List.append_nil _
  have hlevels : item.levels < maxNesting := by
    have hitem : item.levels = s.levels + 1 := Nat.max_zero _
    have := hs.levels_le
    omega
  have hnodes : item.nodes page.locate 5
      = [hole.around page.locate 5 e.length
        ((e.node (fun k => page.locate (k + hole.before.length))
          5).displace hole.before.length false)] := by
    rw [e.node_displaced, ← hs.node_eq]
    rfl
  have hparsed := item.parsed page hlevels policy
  rwa [hnodes, Items.length, hwrite] at hparsed

/-- The expression `1, 2`. -/
def Expression.pair : Expression .list :=
  .several (.simple (.literal "1")) (.lastItem (.simple (.literal "2")))

theorem expression_anywhere_pair :
    Expression.pair.levels 0 + 2 < maxNesting
      ∧ (Hole.forStep = .returns → ∃ a, Expression.pair = .single a)
      ∧ ParseOutcome.ofTokens .strict (Page.line.lay 0
          (inFunction (Hole.forStep.write Expression.pair.write)))
        = { tree := Page.line.functionUnit
              (Hole.forStep.write Expression.pair.write).length
              [Hole.forStep.around Page.line.locate 5 Expression.pair.length
                ((Expression.pair.node
                  (fun k => Page.line.locate (k + 4)) 5).displace 4 false)]
            errors := [], phase := .normal } :=
  ⟨by decide, nofun,
    expression_anywhere .line .pair (by decide) .forStep nofun .strict⟩

/-- A list is refused behind a `return`, where it is read in all other
places. -/
theorem list_not_returned : ¬∀ (page : Page) (e : Expression .list),
    e.levels 0 + 2 < maxNesting → ∀ hole : Hole,
      (ParseOutcome.ofTokens .strict
        (page.lay 0 (inFunction (hole.write e.write)))).errors = [] := by
  intro h
  have hreturned := h .line .pair (by decide) .returns
  revert hreturned
  decide +kernel

end FrontEnd.Written
