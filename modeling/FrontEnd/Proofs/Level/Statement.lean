/-
Statements leave as many groups open as they find, and with them all the
rules of the grammar (`parse_level`). The induction is on the levels of
nesting that are left.

So every sequence that is read has as many groups open between its items as
where it began, with errors in them or not (`IsSequence.steady` with
`Heads.level`). Where a closing bracket comes behind `sizeof ...` this
fails: the bracket is read as an operand and ends a group around the
sequence.
-/
import FrontEnd.Proofs.Course.Unit
import FrontEnd.Proofs.Level.Declaration

namespace FrontEnd

namespace Grammar

variable {tokens : List Token} {t u : Token} {g : Inner}

section

variable (hg : g.Level tokens)
include hg

-- ========================================================== conditions

theorem conditionRound_level (parts : List Node) :
    Level tokens (conditionRound g parts) := fun t u => by
  unfold conditionRound
  refine .peek ?_
  cases hkind : t.kind with
  | punctuation =>
    refine .ite (fun _ => .pure _) fun _ => .ite (fun h => ?_) fun _ =>
      .ite (fun h => ?_) fun _ => .ite (fun h => ?_) fun _ => .fail _
    · exact .group (by grind) fun _ _ => .pure _
    · exact (hg.level _ _ _).bind fun _ _ _ => .pure _
    · exact .read (by grind) fun _ _ => .pure _
  | operator =>
    refine .ite (fun _ => .pure _) fun _ => .ite (fun h => ?_) fun _ =>
      .ite (fun h => ?_) fun _ => .ite (fun h => ?_) fun _ => .fail _
    · exact .read (by grind) fun _ _ => (initializer_level hg _ _).bind
        fun _ _ _ => .pure _
    · exact (skipTemplateArguments_closes (by grind)).bind fun _ _ _ =>
        .pure _
    · exact .read (by grind) fun _ _ => .pure _
  | identifier => exact .read (by grind) fun _ _ => .pure _
  | keyword =>
    refine .ite (fun _ => .fail _) fun _ => .peekNext ?_
    refine .advance (by grind) (by grind) fun _ =>
      .ite (fun h => ?_) fun _ => .pure _
    exact .group (by grind) fun _ _ => .pure _
  | _ => exact .fail _

theorem condition_level : Level tokens (condition g) := fun _ _ => by
  unfold condition
  refine .mark fun m => .ahead fun _ => .ite (fun _ => ?_) fun _ => ?_
  · exact Closes.bind (.loop (conditionRound_level hg) _) fun _ _ _ =>
      .finish _ _ _
  · exact (expression_level hg _ _).bind fun _ _ _ => .finish _ _ _

theorem conditionClause_level : Level tokens (conditionClause g) :=
    fun _ _ => by
  unfold conditionClause
  refine (condition_level hg _ _).bind fun _ _ _ =>
    .acceptAny (by grind) fun _ _ _ => .ite (fun _ => ?_) fun _ => .pure _
  exact (condition_level hg _ _).bind fun _ _ _ => .pure _

-- =========================================================== selection

theorem branch_closes (h : t.isBracket = false) :
    Closes tokens 0 t u (branch g) := by
  unfold branch
  have body : Level tokens (do
      let body ← block g
      return [body] : Parser (List Node)) := fun _ _ =>
    (block_level hg _ _).bind fun _ _ _ => .pure _
  refine .read h fun t u => .check (.peekNext (.check
    (.ite (fun h => ?_) fun _ => ?_)))
  · exact .accept (fun _ => .advance (by grind) (by grind) fun _ =>
      .read (by grind) body) fun _ => .read (by grind) body
  · refine .acceptAny (by grind) fun _ _ _ => .expectOpen (by decide)
      fun _ _ => (conditionClause_level hg _ _).bind fun _ _ _ =>
        .expectClose (by decide) fun _ _ => ?_
    exact (hg.level _ _ _).bind fun _ _ _ => .pure _

theorem otherBranches_level : Level tokens (otherBranches g) := fun _ _ => by
  unfold otherBranches
  refine .loop (fun _ _ _ => .acceptAny (by grind) fun _ t _ =>
    .ite (fun _ => ?_) fun _ => .pure _) _
  refine .check (.ite (fun h => ?_) fun _ => ?_)
  · exact .mark fun m => (branch_closes hg (by grind)).bind fun _ _ _ =>
      .node fun _ => .pure _
  · exact (hg.level _ _ _).bind fun _ _ _ => .pure _

theorem ifStatement_closes (h : t.isBracket = false) :
    Closes tokens 0 t u (ifStatement g) := by
  unfold ifStatement
  exact .mark fun m => (branch_closes hg h).bind fun _ _ _ =>
    (otherBranches_level hg _ _).bind fun _ _ _ => .finish _ _ _

theorem switchStatement_closes (h : t.isBracket = false) :
    Closes tokens 0 t u (switchStatement g) := by
  unfold switchStatement
  exact .mark fun m => .read h fun _ _ => .expectOpen (by decide)
    fun _ _ => (conditionClause_level hg _ _).bind fun _ _ _ =>
      .expectClose (by decide) fun _ _ => (hg.level _ _ _).bind fun _ _ _ =>
        .finish _ _ _

-- =========================================================== iteration

theorem whileStatement_closes (h : t.isBracket = false) :
    Closes tokens 0 t u (whileStatement g) := by
  unfold whileStatement
  exact .mark fun m => .read h fun _ _ => .expectOpen (by decide)
    fun _ _ => (condition_level hg _ _).bind fun _ _ _ =>
      .expectClose (by decide) fun _ _ => (hg.level _ _ _).bind fun _ _ _ =>
        .finish _ _ _

theorem doStatement_closes (h : t.isBracket = false) :
    Closes tokens 0 t u (doStatement g) := by
  unfold doStatement
  refine .mark fun m => .read h fun _ _ => (hg.level _ _ _).bind fun _ _ _ =>
    .expect (by grind) fun _ _ => .expectOpen (by decide) fun _ _ =>
      (expression_level hg _ _).bind fun _ _ _ => ?_
  exact .expectClose (by decide) fun _ _ => .expectSemicolon
    fun _ _ => .finish _ _ _

/-- The parenthesis of the loop is open here. -/
theorem rangeLoop_closes (m : Mark) (clauses : List Node) (declared : Node)
    (h : t.isBracket = false) :
    Closes tokens 1 t u (rangeLoop g m clauses declared) := by
  unfold rangeLoop
  exact .read h fun _ _ => (initializer_level hg _ _).bind fun _ _ _ =>
    .expectClose (by decide) fun _ _ => (hg.level _ _ _).bind fun _ _ _ =>
      .finish _ _ _

theorem forTail_closes (m : Mark) (clauses : List Node) (t u : Token) :
    Closes tokens 1 t u (forTail g m clauses) := by
  unfold forTail
  have body (steps : List Node) (t u : Token) : Closes tokens 1 t u (do
      expectPunct ")" "after for clauses"
      let body ← g.parse .statement
      finish .forStatement m (clauses ++ steps ++ [body])) :=
    .expectClose (by decide) fun _ _ => (hg.level _ _ _).bind fun _ _ _ =>
      .finish _ _ _
  refine .check (.ite (fun _ => ?_) fun _ => ?_)
  · exact Closes.bind (.pure _) body
  · exact (expression_level hg _ _).bind fun _ => body _

theorem forCondition_closes (m : Mark) (clauses : List Node) (t u : Token) :
    Closes tokens 1 t u (forCondition g m clauses) := by
  unfold forCondition
  refine .check (.ite (fun _ => ?_) fun _ => ?_)
  · exact .expectSemicolon (forTail_closes hg m _)
  · refine (condition_level hg _ _).bind fun _ t _ =>
      .check (.ite (fun h => ?_) fun _ => ?_)
    · exact rangeLoop_closes hg _ _ _ (by grind)
    · exact .expectSemicolon (forTail_closes hg m _)

theorem forStatement_closes (h : t.isBracket = false) :
    Closes tokens 0 t u (forStatement g) := by
  unfold forStatement
  refine .mark fun m => .read h fun _ _ => .acceptAny (by grind)
    fun _ _ _ => .expectOpen (by decide) fun _ _ =>
      .check (.ite (fun _ => ?_) fun _ => ?_)
  · exact .expectSemicolon (forCondition_closes hg m _)
  · refine (condition_level hg _ _).bind fun _ t _ =>
      .check (.ite (fun h => ?_) fun _ => ?_)
    · exact rangeLoop_closes hg _ _ _ (by grind)
    · exact .expectSemicolon (forCondition_closes hg m _)

-- ==================================================== jumps and labels

omit hg in
theorem plainJump_closes (kind : NodeKind) (context : String)
    (h : t.isBracket = false) :
    Closes tokens 0 t u (plainJump kind context) := by
  unfold plainJump
  exact .mark fun m => .read h fun _ _ => .expectSemicolon
    fun _ _ => .finish _ _ _

omit hg in
theorem gotoStatement_closes (h : t.isBracket = false) :
    Closes tokens 0 t u gotoStatement := by
  unfold gotoStatement
  exact .mark fun m => .read h fun _ _ => .expectName fun _ _ =>
    .expectSemicolon fun _ _ => .finish _ _ _

theorem returnStatement_closes (h : t.isBracket = false) :
    Closes tokens 0 t u (returnStatement g) := by
  unfold returnStatement
  have close (m : Mark) (values : List Node) : Level tokens (do
      expectPunct ";" "after return value"
      finish .returnStatement m values) :=
    fun _ _ => .expectSemicolon fun _ _ => .finish _ _ _
  refine .mark fun m => .read h fun _ _ =>
    .check (.ite (fun _ => ?_) fun _ => ?_)
  · exact Closes.bind (.pure _) (close m)
  · exact (initializer_level hg _ _).bind fun _ => close m _

theorem caseLabel_closes (h : t.isBracket = false) :
    Closes tokens 0 t u (caseLabel g) := by
  unfold caseLabel
  exact .mark fun m => .read h fun _ _ => (hg.level _ _ _).bind fun _ _ _ =>
    .expectOperator fun _ _ => .finish _ _ _

omit hg in
theorem defaultLabel_closes (h : t.isBracket = false) :
    Closes tokens 0 t u defaultLabel := by
  unfold defaultLabel
  exact .mark fun m => .read h fun _ _ => .expectOperator fun _ _ =>
    .finish _ _ _

theorem labeledStatement_closes (h : t.isName = true)
    (hnext : u.isSpelled ":" = true) :
    Closes tokens 0 t u (labeledStatement g) := by
  unfold labeledStatement
  refine .mark fun m => .advance (by grind) (by grind) fun _ =>
    .read (by grind) fun _ _ => .check (.ite (fun _ => .finish _ _ _)
      fun _ => ?_)
  exact (hg.level _ _ _).bind fun _ _ _ => .finish _ _ _

-- ========================================================== statements

theorem simpleStatement_level : Level tokens (simpleStatement g) :=
    fun _ _ => by
  unfold simpleStatement
  refine .ahead fun _ => .ite (fun _ => simpleDeclaration_level hg _ _)
    fun _ => .mark fun m => (expression_level hg _ _).bind fun _ _ _ => ?_
  exact .expectSemicolon fun _ _ => .finish _ _ _

theorem keywordStatement_closes (word : String)
    (h : t.isBracket = false) :
    Closes tokens 0 t u (keywordStatement g word) := by
  unfold keywordStatement
  exact .ite (fun _ => ifStatement_closes hg h) fun _ =>
    .ite (fun _ => switchStatement_closes hg h) fun _ =>
    .ite (fun _ => whileStatement_closes hg h) fun _ =>
    .ite (fun _ => doStatement_closes hg h) fun _ =>
    .ite (fun _ => forStatement_closes hg h) fun _ =>
    .ite (fun _ => returnStatement_closes hg h) fun _ =>
    .ite (fun _ => plainJump_closes _ _ h) fun _ =>
    .ite (fun _ => plainJump_closes _ _ h) fun _ =>
    .ite (fun _ => gotoStatement_closes h) fun _ =>
    .ite (fun _ => caseLabel_closes hg h) fun _ =>
    .ite (fun _ => defaultLabel_closes h) fun _ =>
    .ite (fun _ => tryBlock_closes hg h) fun _ =>
    .ite (fun _ => asmDeclaration_closes h) fun _ =>
    .ite (fun _ => hg.level _ _ _) fun _ => simpleStatement_level hg _ _

theorem statement_level : Level tokens (statement g) := fun t u => by
  unfold statement
  refine .peek (.ite (fun _ => block_level hg _ _) fun _ =>
    .ite (fun h => ?_) fun _ => .ite (fun h => ?_) fun _ => .peekNext
    (.ite (fun h => ?_) fun _ => simpleStatement_level hg _ _))
  · exact .mark fun m => .read (by grind) fun _ _ => .finish _ _ _
  · exact keywordStatement_closes hg _ (by grind)
  · exact labeledStatement_closes hg (by grind) (by grind)

end

-- ============================================================= grammar

theorem rule_level (hg : g.Level tokens) (goal : Goal) :
    Level tokens (rule g goal) :=
  match goal with
  | .declaration => declaration_level hg
  | .statement => statement_level hg
  | .assignment => rightGrouped_level hg true
  | .conditional => rightGrouped_level hg false
  | .operand => castExpression_level hg
  | .initializerList => initializerList_level hg

/-- The rules of the grammar leave as many groups open as they find, if no
closing bracket comes behind `sizeof ...`. -/
theorem parse_level (hpacks : PacksOpen tokens) (policy : Policy)
    (room : Nat) (goal : Goal) :
    Level tokens (parse policy room goal) := by
  induction room generalizing goal with
  | zero => exact fun _ _ => .fail _
  | succ room ih =>
    exact rule_level (g := ⟨policy, room, parse policy room⟩)
      ⟨hpacks, ih, parse_yields tokens policy room⟩ goal

-- =========================================================== sequences

/-- The sequences that are read of some tokens, with the state in which
they begin: the declarations of the file, and what stands in braces,
wherever that is. -/
inductive IsSequence (policy : Policy) (tokens : List Token) :
    Option String → Parser Node → State → Prop
  | unit : IsSequence policy tokens none
    (parse policy maxNesting .declaration) (.start tokens)
  | declarations {s : State} (room : Nat) : s.Along tokens →
    IsSequence policy tokens (some "\x7d") (parse policy room .declaration) s
  | members {s : State} (room : Nat) : s.Along tokens →
    IsSequence policy tokens (some "\x7d")
      (memberDeclaration ⟨policy, room, parse policy room⟩) s
  | statements {s : State} (room : Nat) : s.Along tokens →
    IsSequence policy tokens (some "\x7d") (parse policy room .statement) s

theorem IsSequence.steady {policy : Policy} {closer : Option String}
    {item : Parser Node} {first : State} (hpacks : PacksOpen tokens)
    (h : IsSequence policy tokens closer item first) :
    first.Along tokens ∧ Steady tokens closer item first.depth := by
  cases h with
  | unit =>
    exact ⟨.start tokens, parse_level hpacks policy _ _,
      parse_yields tokens policy _ _, .inr rfl⟩
  | declarations room hs =>
    exact ⟨hs, parse_level hpacks policy room _,
      parse_yields tokens policy room _, .inl rfl⟩
  | members room hs =>
    have hg : Inner.Level tokens ⟨policy, room, parse policy room⟩ :=
      ⟨hpacks, parse_level hpacks policy room,
        parse_yields tokens policy room⟩
    exact ⟨hs, memberDeclaration_level hg,
      fun _ => memberDeclaration_yields hg.sound, .inl rfl⟩
  | statements room hs =>
    exact ⟨hs, parse_level hpacks policy room _,
      parse_yields tokens policy room _, .inl rfl⟩

end Grammar

open Grammar

/-- Whenever a sequence that is read of any tokens turns to its next item,
behind one that was read or behind the recovery from an error, the end has
come or as many groups are open as where the sequence began, if no closing
bracket comes behind `sizeof ...`. It does come there: from there on the
sequence gathers what it gathers from its beginning on. -/
theorem sequence_level (policy : Policy) (tokens : List Token)
    (hpacks : PacksOpen tokens) {closer : Option String}
    {item : Parser Node} {first h : State}
    (hsequence : IsSequence policy tokens closer item first)
    (hhead : Heads policy closer item first h) :
    (h.peek.isEnd = true ∨ h.depth = first.depth)
    ∧ ∃ done, gather policy closer item tokens.length [] first
      = gather policy closer item tokens.length done h := by
  obtain ⟨hfirst, hitem⟩ := hsequence.steady hpacks
  exact ⟨(hhead.level hitem hfirst).2.2, hhead.gathered hitem hfirst⟩

open Written Lexeme in
/-- So it is in the body of `void f ( ) { 1 1 ( ; ) ; z ; }`, behind the
error at the second number: the recovery passes over the group that comes
behind it. -/
theorem sequence_level_recovered :
    let tokens := heap [keyword "void", name "f", punct "(", punct ")",
      punct "\x7b", number "1", number "1", punct "(", punct ";",
      punct ")", punct ";", name "z", punct ";", punct "\x7d"]
    let first := { State.start tokens with
      rest := tokens.drop 5, position := 5, depth := 1 }
    PacksOpen tokens
      ∧ IsSequence .tolerant tokens (some "\x7d")
        (parse .tolerant 255 .statement) first
      ∧ ∃ h, Heads .tolerant (some "\x7d")
          (parse .tolerant 255 .statement) first h
        ∧ h.position = 11
        ∧ (h.peek.isEnd = true ∨ h.depth = first.depth) := by
  intro tokens first
  have packs : PacksOpen tokens := by decide +kernel
  have along : first.Along tokens := ⟨rfl, rfl, by decide, by decide⟩
  have begins : IsSequence .tolerant tokens (some "\x7d")
      (parse .tolerant 255 .statement) first := .statements 255 along
  have goes : (nextHead .tolerant (some "\x7d")
      (parse .tolerant 255 .statement) first).map State.position
        = some 11 := by
    decide +kernel
  obtain ⟨h, next, position⟩ := Option.map_eq_some_iff.1 goes
  have head := Heads.next .first next
  exact ⟨packs, begins, h, head, position,
    (sequence_level .tolerant tokens packs begins head).1⟩

open Written Lexeme in
/-- Behind `sizeof ...` a closing bracket ends the group around the
statement. In the body of `void f ( ) { x = sizeof ... ) ; }` no group is
open any more behind the first statement. -/
theorem sequence_not_level :
    ¬ ∀ (policy : Policy) (tokens : List Token) (closer : Option String)
      (item : Parser Node) (first h : State),
      IsSequence policy tokens closer item first →
      Heads policy closer item first h →
      h.peek.isEnd = true ∨ h.depth = first.depth := by
  intro hlevel
  let tokens := heap [keyword "void", name "f", punct "(", punct ")",
    punct "\x7b", name "x", operator "=", keyword "sizeof", operator "...",
    punct ")", punct ";", punct "\x7d"]
  let first := { State.start tokens with
    rest := tokens.drop 5, position := 5, depth := 1 }
  have along : first.Along tokens := ⟨rfl, rfl, by decide, by decide⟩
  have goes : (nextHead .strict (some "\x7d")
      (parse .strict 255 .statement) first).map
        (fun h => (h.peek.isEnd, h.depth)) = some (false, 0) := by
    decide +kernel
  obtain ⟨h, hnext, hstate⟩ := Option.map_eq_some_iff.1 goes
  obtain ⟨hend, hdepth⟩ := Prod.mk.inj hstate
  have head := hlevel .strict tokens (some "\x7d") _ first h
    (.statements 255 along) (Heads.next .first hnext)
  rcases head with head | head
  · exact Bool.noConfusion (head.symm.trans hend)
  · rw [head] at hdepth
    cases hdepth

end FrontEnd
