/-
What is written as the body of a function is read as it is written.

A function is read as a declaration if its block is read, and refused if
its block is (`function_read`, `function_refused`). So a file with nothing
but this function has no errors, or the one of the block
(`function_parsed`, `function_not_parsed`).
-/
import FrontEnd.Proofs.Written.Ranges
import FrontEnd.Proofs.Written.StatementDepth

namespace FrontEnd.Written

open Grammar

variable {page : Page} {policy : Policy} {g : Inner}
variable {room i d : Nat} {ls : List Lexeme}

/-- The lexemes of a function without parameters that has these ones in
its braces. -/
def inFunction (body : List Lexeme) : List Lexeme :=
  .keyword "void" :: .name "f" :: .punct "(" :: .punct ")" :: inBraces body

/-- The node of a function that begins at the index and has that many
lexemes in its braces. -/
def functionNode (locate : Nat → Location) (i length : Nat)
    (statements : List Node) : Node :=
  nodeOf locate .functionDefinition i (length + 6)
    [blockNode locate (i + 4) length statements]

/-- A declaration goes on behind its keyword and its name. -/
theorem head_again (m : Mark) (w : Walk) {word : String}
    (hword : word = "void" ∨ word = "int") (name : String) :
    loop (simpleRound g m) w
        (page.state i d (.keyword word :: .name name :: ls))
      = loop (simpleRound g m) w (page.state (i + 2) d ls) := by
  have hkeyword : loop (simpleRound g m) w
      (page.state i d (.keyword word :: .name name :: ls))
      = loop (simpleRound g m) w
        (page.state (i + 1) d (.name name :: ls)) := by
    have hvoid : Word.isStatement "void" = false := by decide
    have hint : Word.isStatement "int" = false := by decide
    refine loop_again ?_ (Nat.lt_succ_self i) (by simp; omega)
    unfold simpleRound keywordRound
    rcases hword with rfl | rfl <;> simp [foreignKeywords, hvoid, hint]
  have hname : loop (simpleRound g m) w
      (page.state (i + 1) d (.name name :: ls))
      = loop (simpleRound g m) w (page.state (i + 2) d ls) := by
    refine loop_again ?_ (Nat.lt_succ_self _) (by simp; omega)
    unfold simpleRound
    simp
  exact hkeyword.trans hname

/-- What a declaration does with a bracket or separator. -/
theorem simpleRound_punct (m : Mark) (w : Walk) (v : String) :
    simpleRound g m w (page.state i d (.punct v :: ls))
      = punctRound g m w ((Lexeme.punct v).token (page.place i))
        (page.state i d (.punct v :: ls)) := by
  unfold simpleRound
  rw [run_peek, Page.peek_state]
  rfl

/-- Behind an empty parameter list a declaration goes on as one that has
parameters. -/
theorem parameters_again (m : Mark) (w : Walk) :
    loop (simpleRound g m) w
        (page.state i d (.punct "(" :: .punct ")" :: ls))
      = loop (simpleRound g m) { w with parameters := true }
        (page.state (i + 2) d ls) := by
  have hgroup : skipGroup "after parameter list"
      (page.state i d (.punct "(" :: .punct ")" :: ls))
      = .ok () (page.state (i + 2) d ls) :=
    skipGroup_flat "after parameter list" [] nofun
  refine loop_again ?_ (by omega) (by simp; omega)
  rw [simpleRound_punct]
  unfold punctRound
  simp [run_map hgroup]

/-- A function is read by what reads its body. -/
theorem declaration_function (body : List Lexeme) :
    declaration g (page.state i d (inFunction body ++ ls))
      = loop (simpleRound g ⟨i, page.locate i⟩) ⟨[], true⟩
        (page.state (i + 4) d (inBraces body ++ ls)) := by
  have hdeclaration : declaration g (page.state i d (inFunction body ++ ls))
      = simpleDeclaration g (page.state i d (inFunction body ++ ls)) := by
    unfold declaration
    simp [inFunction]
  rw [hdeclaration]
  unfold simpleDeclaration
  simp only [inFunction, List.cons_append, run_mark, Page.mark_state]
  rw [head_again _ _ (.inl rfl), parameters_again]

/-- Behind parameters a brace opens the body. -/
theorem simpleRound_body (m : Mark) (body : List Lexeme) :
    simpleRound g m ⟨[], true⟩ (page.state i d (inBraces body ++ ls))
      = (do
        let body ← block g
        Walk.function ⟨[body], true⟩ m)
        (page.state i d (inBraces body ++ ls)) := by
  rw [inBraces, List.cons_append, simpleRound_punct]
  unfold punctRound
  simp

/-- A function is read if its block is. -/
theorem function_read {body : List Lexeme} {statements : List Node}
    (h : block g (page.state (i + 4) d (inBraces body ++ ls))
      = .ok (blockNode page.locate (i + 4) body.length statements)
        (page.state (i + (body.length + 6)) d ls)) :
    declaration g (page.state i d (inFunction body ++ ls))
      = .ok (functionNode page.locate i body.length statements)
        (page.state (i + (body.length + 6)) d ls) := by
  rw [declaration_function]
  refine loop_done ?_
  rw [simpleRound_body, run_bind h]
  unfold Walk.function
  simp
  rfl

/-- A function is refused if its block is. -/
theorem function_refused {body : List Lexeme}
    (h : TooDeep (block g (page.state (i + 4) d (inBraces body ++ ls)))) :
    TooDeep (declaration g (page.state i d (inFunction body ++ ls))) := by
  rw [declaration_function]
  refine TooDeep.loop ?_
  rw [simpleRound_body]
  exact h.bind _

-- ================================================================= files

theorem Page.length_lay (page : Page) (i : Nat) (ls : List Lexeme) :
    (page.lay i ls).length = ls.length + page.ending.length := by
  induction ls generalizing i with
  | nil => exact (Nat.zero_add _).symm
  | cons l ls ih => rw [lay_cons, List.length_cons, ih, List.length_cons,
      Nat.add_right_comm]

theorem Page.state_zero (page : Page) (ls : List Lexeme) :
    page.state 0 0 ls = .start (page.lay 0 ls) := by
  unfold state State.start
  rw [page.length_lay, Nat.zero_add]

/-- The tree of a file that has nothing but a function with that many
lexemes in its braces. -/
def Page.functionUnit (page : Page) (length : Nat)
    (statements : List Node) : Node :=
  { kind := .unit, first := 0, stop := length + 6 + page.ending.length
    location := .start, recovered := false
    children := [functionNode page.locate 0 length statements] }

/-- A file with nothing but a function has no errors if the block of the
function is read. -/
theorem function_parsed (body : List Lexeme) {statements : List Node}
    (h : block (nested policy (maxNesting - 1))
        (page.state 4 0 (inBraces body))
      = .ok (blockNode page.locate 4 body.length statements)
        (page.state (4 + (body.length + 2)) 0 [])) :
    ParseOutcome.ofTokens policy (page.lay 0 (inFunction body))
      = { tree := page.functionUnit body.length statements
          errors := [], phase := .normal } := by
  have hlength : (inFunction body).length = body.length + 6 := by
    simp [inFunction, inBraces]
  have hstop : 4 + (body.length + 2) = 0 + (body.length + 6) := by omega
  rw [hstop, ← List.append_nil (inBraces body)] at h
  have hparse : parse policy maxNesting .declaration
      = declaration (nested policy (maxNesting - 1)) := rfl
  have hread := function_read h
  have hgather : gather policy none
      (parse policy maxNesting .declaration)
      (page.lay 0 (inFunction body)).length []
      (.start (page.lay 0 (inFunction body)))
      = ⟨[functionNode page.locate 0 body.length statements],
        page.state (0 + (body.length + 6)) 0 [], none⟩ := by
    rw [hparse, ← page.state_zero, page.length_lay, hlength,
      ← List.append_nil (inFunction body)]
    refine (gather_again none rfl hread (by omega) (by omega)
      []).trans (gather_done ?_ _)
    simp [endsSequence, page.peek_state_nil]
  unfold ParseOutcome.ofTokens
  rw [hgather, page.length_lay, hlength]
  rfl

/-- A file with nothing but a function is refused if the block of the
function is. -/
theorem function_not_parsed (body : List Lexeme)
    (h : TooDeep (block (nested .strict (maxNesting - 1))
      (page.state 4 0 (inBraces body)))) :
    ∃ t, ⟨.nestingTooDeep, t⟩
      ∈ (ParseOutcome.ofTokens .strict (page.lay 0 (inFunction body))).errors
      := by
  have hparse : parse .strict maxNesting .declaration
      = declaration (nested .strict (maxNesting - 1)) := rfl
  rw [← List.append_nil (inBraces body)] at h
  have hgather : EndsTooDeep (gather .strict none
      (parse .strict maxNesting .declaration)
      (page.lay 0 (inFunction body)).length []
      (.start (page.lay 0 (inFunction body)))) := by
    rw [hparse, ← page.state_zero, ← List.append_nil (inFunction body)]
    exact gather_refused rfl (function_refused h) []
  obtain ⟨items, s, t, hgather⟩ := hgather
  refine ⟨t, ?_⟩
  unfold ParseOutcome.ofTokens
  rw [hgather]
  simp

-- ========================================================== main results

/-- Tokens of a byte each on one line. -/
def Page.line : Page where
  place i := (⟨i, i + 1⟩, ⟨1, i + 1⟩)
  ending := []
  ended := nofun

/-- An operand as an expression of looser levels. -/
def Expression.loosen : (levels : List (List String)) →
    Expression (.binary []) → Expression (.binary levels)
  | [], e => e
  | _ :: levels, e => .tight (e.loosen levels)

/-- A number as an operand of whatever operators. -/
def Expression.literal {levels : List (List String)} (v : String) :
    Expression (.binary levels) :=
  .loosen levels (.plain (.number v))

section

variable (page : Page) (items : Items)

/-- Statements that nest no deeper than the grammar allows are read as they
are written. -/
theorem Items.parsed (h : items.levels < maxNesting) (policy : Policy) :
    ParseOutcome.ofTokens policy (page.lay 0 (inFunction items.write))
      = { tree := page.functionUnit items.length (items.nodes page.locate 5)
          errors := [], phase := .normal } := by
  have hblock := block_read 4 0 [] (items.reads page policy)
    (Nat.le_pred_of_lt h)
  rw [List.append_nil] at hblock
  exact function_parsed _ hblock

/-- Statements that nest deeper are refused. -/
theorem Items.not_parsed (h : maxNesting ≤ items.levels) :
    ∃ t, ⟨.nestingTooDeep, t⟩ ∈ (ParseOutcome.ofTokens .strict
      (page.lay 0 (inFunction items.write))).errors := by
  have hdeep : maxNesting - 1 < items.levels :=
    Nat.lt_of_lt_of_le (by decide) h
  have hblock := block_refused 4 0 [] (items.refused page) hdeep
  rw [List.append_nil] at hblock
  exact function_not_parsed _ hblock

end

/-- An expression statement in a function is read as it is written if it
nests no deeper than the grammar allows: there is no error, and the tree is
the one that the expression was written for, with each node at the tokens
that were written for it. If it nests deeper, that is the error. -/
theorem expression_parsed (page : Page) (e : Expression .list) :
    let ls := inFunction (e.write ++ [.punct ";"])
    (e.levels 0 + 1 < maxNesting → ∀ policy,
      ParseOutcome.ofTokens policy (page.lay 0 ls)
          = { tree := page.functionUnit (e.length + 1)
                [nodeOf page.locate .expressionStatement 5 (e.length + 1)
                  [e.node page.locate 5]]
              errors := [], phase := .normal }
        ∧ ∀ n ∈ (e.node page.locate 5).descendants,
          IsWritten page.locate ls n)
    ∧ (maxNesting ≤ e.levels 0 + 1 → ∃ t, ⟨.nestingTooDeep, t⟩
      ∈ (ParseOutcome.ofTokens .strict (page.lay 0 ls)).errors) := by
  intro ls
  -- the block has the statement as its only item
  let item : Items := .item (.expression e) .noItem
  have hwrite : item.write = e.write ++ [.punct ";"] := List.append_nil _
  have hlength : item.write.length = e.length + 1 := by
    rw [hwrite]
    exact List.length_append
  have hlevels : item.levels = e.levels 0 + 1 := Nat.max_zero _
  have hnodes : item.nodes page.locate 5
      = [nodeOf page.locate .expressionStatement 5 (e.length + 1)
        [e.node page.locate 5]] := by
    rw [← hlength, hwrite]
    rfl
  have hstands : StandsAt e.write ls 5 := by
    show e.write <+: (e.write ++ [.punct ";"]) ++ [.punct "\x7d"]
    rw [List.append_assoc]
    exact List.prefix_append _ _
  refine ⟨fun h policy => ⟨?_, fun n hn => ?_⟩, fun h => ?_⟩
  · have hparsed := item.parsed page (hlevels ▸ h) policy
    rwa [hnodes, Items.length, hlength, hwrite] at hparsed
  · rw [Node.descendants_eq] at hn
    exact e.covers page.locate ls 5 hstands _ (List.mem_singleton_self _) n hn
  · have hrefused := item.not_parsed page (hlevels ▸ h)
    rwa [hwrite] at hrefused

/-- The expression `1 = 2 || 3 ? - 4 : 5`. -/
def Expression.sample : Expression .list :=
  .single (.assigns (.literal "1") "=" (by decide) .noTarget
    (.chooses (.joined (.literal "2") "||" (by decide) (.literal "3")
        .noOperand)
      (.single (.simple (.loosen _ (.unary "-" (by decide) (.literal "4")))))
      .noChoice (.simple (.literal "5"))))

theorem expression_parsed_sample :
    let e := Expression.sample
    let ls := inFunction (e.write ++ [.punct ";"])
    e.levels 0 + 1 < maxNesting
      ∧ ParseOutcome.ofTokens .strict (Page.line.lay 0 ls)
        = { tree := Page.line.functionUnit (e.length + 1)
              [nodeOf Page.line.locate .expressionStatement 5 (e.length + 1)
                [e.node Page.line.locate 5]]
            errors := [], phase := .normal }
      ∧ ∀ n ∈ (e.node Page.line.locate 5).descendants,
        IsWritten Page.line.locate ls n :=
  ⟨by decide, (expression_parsed .line .sample).1 (by decide) .strict⟩

/-- Statements in a function are read as they are written if they nest no
deeper than the grammar allows: there is no error, and the tree is the one
that the statements were written for. If they nest deeper, that is the
error. -/
theorem statements_parsed (page : Page) (items : Items) :
    (items.levels < maxNesting → ∀ policy,
      ParseOutcome.ofTokens policy (page.lay 0 (inFunction items.write))
        = { tree := page.functionUnit items.length
              (items.nodes page.locate 5)
            errors := [], phase := .normal })
    ∧ (maxNesting ≤ items.levels → ∃ t, ⟨.nestingTooDeep, t⟩
      ∈ (ParseOutcome.ofTokens .strict
        (page.lay 0 (inFunction items.write))).errors) :=
  ⟨items.parsed page, items.not_parsed page⟩

/-- The statement `if (1) ; else if (2) break; else { case 3: a: }`. -/
def Items.sample : Items :=
  .item (.ladder (.single (.simple (.literal "1"))) (k := false) .empty
    (.elseIf (.single (.simple (.literal "2"))) (k := false) .breaks
      (.lastElse (.block (.caseItem (.literal "3")
        (.lastItem (.endLabel "a"))))))) .noItem

theorem statements_parsed_sample :
    Items.sample.levels < maxNesting
      ∧ ParseOutcome.ofTokens .strict
          (Page.line.lay 0 (inFunction Items.sample.write))
        = { tree := Page.line.functionUnit Items.sample.length
              (Items.sample.nodes Page.line.locate 5)
            errors := [], phase := .normal } :=
  ⟨by decide, (statements_parsed .line .sample).1 (by decide) .strict⟩

end FrontEnd.Written
