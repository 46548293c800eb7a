/-
Expressions that nest deeper than the levels that are left are refused:
what `Expression.levels` counts is what the grammar counts.

A lemma for each constructor says which part is refused: the parts in
front of it are read as they are written, and the error of this one ends
the rule. `Expression.refused` puts the lemmas together.
-/
import FrontEnd.Proofs.Written.Reading

namespace FrontEnd.Written

open Grammar

variable {page : Page} {policy : Policy} {g : Inner}
variable {room i d : Nat} {m : Mark} {l : Lexeme} {ls : List Lexeme}

-- ================================================================ errors

/-- A rule has come to the end of the levels of nesting. -/
def TooDeep {α : Type} (r : EStateM.Result SyntaxError State α) : Prop :=
  ∃ t s, r = .error ⟨.nestingTooDeep, t⟩ s

section
variable {α β : Type} {s : State}

theorem TooDeep.bind {p : Parser α} (h : TooDeep (p s))
    (f : α → Parser β) : TooDeep ((p >>= f) s) := by
  obtain ⟨t, s', h⟩ := h
  refine ⟨t, s', ?_⟩
  rw [bind_eq, h]

theorem TooDeep.map {p : Parser α} (h : TooDeep (p s)) (f : α → β) :
    TooDeep ((f <$> p) s) := by
  rw [← bind_pure_comp]
  exact h.bind _

theorem TooDeep.loop {round : α → Parser (Round α β)} {a : α}
    (h : TooDeep (round a s)) : TooDeep (loop round a s) := by
  obtain ⟨t, s', h⟩ := h
  refine ⟨t, s', ?_⟩
  rw [loop_eq, h]

end

/-- Of two parts, the first one nests too deep or only the second one. -/
theorem first_or_rest {a b : Nat} (h : room < max a b) :
    room < a ∨ a ≤ room ∧ room < b := by
  omega

/-- A construct is refused if no level is left for it, or if its rule
refuses it with one level less. -/
theorem nested_refuses {goal : Goal} {s : State} {n : Nat}
    (h : ∀ below, below < n →
      TooDeep (rule (nested policy below) goal s))
    (hroom : room < n + 1) : TooDeep ((nested policy room).parse goal s) := by
  cases room with
  | zero => exact ⟨_, _, rfl⟩
  | succ below => exact h below (Nat.lt_of_succ_lt_succ hroom)

-- ======================================================== what is refused

/-- An expression of its rank is refused where it nests too deep. -/
def Expression.Refused (page : Page) (policy : Policy) :
    {r : Rank} → Expression r → Prop
  | .suffixed, e => ∀ room i d ls, room < e.levels 0 →
    TooDeep (postfixExpression (nested policy room)
      (page.state i d (e.write ++ ls)))
  | .binary levels, e => levels <:+ binaryLevels →
    ∀ room i d l ls, room < e.levels 0 → l.ends levels = true →
    TooDeep (binary (nested policy room) levels
      (page.state i d (e.write ++ l :: ls)))
  | .right a c, e => ∀ room waiting i d l ls,
    room < e.levels waiting.length → l.endsRight = true →
    (a = true → hasTargets waiting = false) →
    (c = true → hasChoices waiting = false) →
    TooDeep (loop (rightRound (nested policy room) true) waiting
      (page.state i d (e.write ++ l :: ls)))
  | .list, e => ∀ room i d l ls, room < e.levels 0 →
    l.endsList = true →
    TooDeep (expression (nested policy room)
      (page.state i d (e.write ++ l :: ls)))

/-- A rule that refuses an expression where that is refused, unless it
meets initializers in braces. -/
def RefusesItems (g : Inner) (item : Parser Node) : Prop :=
  ∀ s, s.peek.isPunct "\x7b" = false →
    TooDeep (g.parse .assignment s) → TooDeep (item s)

/-- Parts in a row are refused where one of them nests too deep. -/
def Parts.Refused (page : Page) (policy : Policy) :
    {k : Series} → Parts k → Prop
  | .items, p => ∀ room item done i d l ls,
    ReadsItems (nested policy room) item →
    RefusesItems (nested policy room) item → room < p.levels →
    l.endsList = true →
    TooDeep (loop (itemRound item) done
      (page.state i d (p.write ++ l :: ls)))
  | .operands level levels, p => level :: levels <:+ binaryLevels →
    ∀ room done i d l ls, room < p.levels →
    l.ends (level :: levels) = true →
    TooDeep (loop (operandRound (nested policy room) level levels) done
      (page.state i d (p.write ++ l :: ls)))
  | .targets, p => ∀ room m done waiting i d l ls, room < p.levels →
    l.opens = true →
    TooDeep (loop (rightRound (nested policy room) true)
      (.assigns m done :: waiting) (page.state i d (p.write ++ l :: ls)))
  | .choices, p => ∀ room m done waiting i d ls, room < p.levels →
    TooDeep (loop (rightRound (nested policy room) true)
      (.chooses m done :: waiting) (page.state i d (p.write ++ ls)))

variable {r : Rank} {k : Series}

-- ============================================== operands and their postfix

theorem number_refused (v : String) :
    (Expression.number v).Refused page policy := by
  intro room i d ls hroom
  cases hroom

theorem parens_refused {inner : Expression .list}
    (h : inner.Refused page policy) :
    (Expression.parens inner).Refused page policy := by
  intro room i d ls hroom
  have hinner := h room (i + 1) (d + 1) (.punct ")") ls hroom (by decide)
  have hprimary : TooDeep (primary (nested policy room)
      (page.state i d ((Expression.parens inner).write ++ ls))) := by
    unfold primary
    simp [Expression.write]
    exact hinner.bind _
  unfold postfixExpression
  rw [run_mark]
  exact hprimary.bind _

theorem step_refused {e : Expression .suffixed} {op : String}
    (hop : op = "++" ∨ op = "--") (h : e.Refused page policy) :
    (Expression.step e op hop).Refused page policy := by
  intro room i d ls hroom
  rw [Expression.write, List.append_assoc]
  exact h room i d _ hroom

theorem call_refused {callee : Expression .suffixed}
    (h : callee.Refused page policy) :
    (Expression.call callee).Refused page policy := by
  intro room i d ls hroom
  rw [Expression.write, List.append_assoc]
  exact h room i d _ hroom

theorem subscript_refused {object : Expression .suffixed}
    {index : Expression .list} (h : object.Refused page policy)
    (hindex : index.Refused page policy) :
    (Expression.subscript object index).Refused page policy := by
  intro room i d ls hroom
  rw [Expression.write, List.append_assoc]
  rcases first_or_rest hroom with hobject | ⟨hobject, hroom⟩
  · exact h room i d _ hobject
  · have hinner := hindex room (i + object.length + 1) (d + 1) (.punct "]")
      ls hroom (by decide)
    rw [object.reads page policy room i d _ hobject]
    refine TooDeep.loop ?_
    unfold postfixRound initializerOrExpression
    simp
    exact hinner.bind _

/-- Arguments are refused as items are, one level deeper. -/
theorem listedInitializer_refusesItems :
    RefusesItems g (listedInitializer g) := by
  intro s hs h
  unfold listedInitializer
  rw [run_mark]
  refine TooDeep.bind ?_ _
  rwa [initializer_eq hs]

theorem callWith_refused {callee : Expression .suffixed}
    {items : Parts .items} (h : callee.Refused page policy)
    (hitems : items.Refused page policy) :
    (Expression.callWith callee items).Refused page policy := by
  intro room i d ls hroom
  rw [Expression.write, List.append_assoc]
  rcases first_or_rest hroom with hcallee | ⟨hcallee, hroom⟩
  · exact h room i d _ hcallee
  · have hinner := hitems room _ [] (i + callee.length + 1) (d + 1)
      (.punct ")") ls listedInitializer_readsItems
      listedInitializer_refusesItems hroom (by decide)
    rw [← commaSeparated_eq] at hinner
    rw [callee.reads page policy room i d _ hcallee]
    refine TooDeep.loop ?_
    unfold postfixRound arguments
    simp [items.peek_isPunct]
    exact hinner.bind _

-- ======================================================== unary operators

theorem plain_refused {e : Expression .suffixed}
    (h : e.Refused page policy) :
    (Expression.plain e).Refused page policy := by
  intro _ room i d l ls hroom _
  unfold binary
  rw [Expression.write, castExpression_write e rfl]
  exact h room i d _ hroom

theorem unary_refused {op : String}
    (hop : Word.canonical op ∈ unaryOperators)
    {e : Expression (.binary [])} (h : e.Refused page policy) :
    (Expression.unary op hop e).Refused page policy := by
  intro hlevel room i d l ls hroom hl
  have hinner : TooDeep ((nested policy room).parse .operand
      (page.state (i + 1) d (e.write ++ l :: ls))) :=
    nested_refuses (fun below hbelow =>
      h hlevel below (i + 1) d l ls hbelow hl) hroom
  unfold binary castExpression unary
  simp [Expression.write, hop]
  exact hinner.bind _

-- ======================================================= binary operators

theorem noOperand_refused {level : List String}
    {levels : List (List String)} :
    (.noOperand : Parts (.operands level levels)).Refused page policy := by
  intro _ room done i d l ls hroom
  cases hroom

theorem operand_refused {level : List String} {levels : List (List String)}
    {op : String} (hop : Word.canonical op ∈ level)
    {e : Expression (.binary levels)} (h : e.Refused page policy)
    {rest : Parts (.operands level levels)}
    (hrest : rest.Refused page policy) :
    (Parts.operand op hop e rest).Refused page policy := by
  intro hlevels room done i d l ls hroom hl
  obtain ⟨l', ls', hnext, hends⟩ := rest.operands_ends hlevels hl ls
  rw [Parts.write, List.cons_append, List.append_assoc, hnext]
  rcases first_or_rest hroom with he | ⟨he, hroom⟩
  · have hinner := h ((List.suffix_cons level levels).trans hlevels) room
      (i + 1) d l' ls' he hends
    refine TooDeep.loop ?_
    unfold operandRound
    simp [hop]
    exact hinner.map _
  · rw [operand_again hlevels hop (e.reads page policy) he hends, ← hnext]
    exact hrest hlevels room _ _ d l ls hroom hl

theorem tight_refused {level : List String} {levels : List (List String)}
    {e : Expression (.binary levels)} (h : e.Refused page policy) :
    (.tight e : Expression (.binary (level :: levels))).Refused page
      policy := by
  intro hlevels room i d l ls hroom hl
  have hends : l.ends levels = true := by
    simp_all [Lexeme.ends]
  have hfirst := h ((List.suffix_cons level levels).trans hlevels) room i d
    l ls hroom hends
  rw [binary_cons, run_mark]
  exact hfirst.bind _

theorem joined_refused {level : List String} {levels : List (List String)}
    {first : Expression (.binary levels)} {op : String}
    (hop : Word.canonical op ∈ level)
    {second : Expression (.binary levels)}
    {others : Parts (.operands level levels)}
    (hfirst : first.Refused page policy)
    (hsecond : second.Refused page policy)
    (hothers : others.Refused page policy) :
    (Expression.joined first op hop second others).Refused page policy := by
  intro hlevels room i d l ls hroom hl
  have htail := (List.suffix_cons level levels).trans hlevels
  have hends := ends_of_level hlevels hop
  rw [binary_cons, run_mark, Expression.write, List.append_assoc,
    List.cons_append, List.append_assoc]
  rcases first_or_rest hroom with he | ⟨he, hroom⟩
  · exact (hfirst htail room i d _ _ he hends).bind _
  · have hrow := operand_refused hop hsecond hothers hlevels room []
      (i + first.length) d l ls hroom hl
    rw [Parts.write, List.cons_append, List.append_assoc] at hrow
    rw [run_bind (first.reads page policy htail room i d _ _ he hends)]
    exact hrow.bind _

-- ================================= operators that group to the right

/-- Where as many operators wait as levels are left, no other operand is
read. -/
theorem waiting_refused {assignment : Bool} {waiting : List Waiting}
    (h : room ≤ waiting.length) (s : State) :
    TooDeep (loop (rightRound (nested policy room) assignment) waiting s) := by
  refine TooDeep.loop ⟨s.peek, s, ?_⟩
  unfold rightRound
  rw [if_pos h]
  rfl

/-- An operand is refused that nests too deep. -/
theorem rightRound_refused {e : Expression (.binary binaryLevels)}
    (h : e.Refused page policy) (assignment : Bool)
    {waiting : List Waiting} (hroom : room < e.levels 0)
    (hl : l.ends binaryLevels = true) :
    TooDeep (loop (rightRound (nested policy room) assignment) waiting
      (page.state i d (e.write ++ l :: ls))) := by
  rcases Nat.lt_or_ge waiting.length room with hwaiting | hwaiting
  · have hread := h (List.suffix_refl _) room i d l ls hroom hl
    refine TooDeep.loop ?_
    unfold rightRound
    rw [if_neg (Nat.not_le_of_lt hwaiting), run_mark, run_peek,
      e.peek_isKeyword, e.peek_isKeyword, Bool.and_false,
      if_neg Bool.false_ne_true, if_neg Bool.false_ne_true]
    exact hread.bind _
  · exact waiting_refused hwaiting _

theorem simple_refused {a c : Bool} {e : Expression (.binary binaryLevels)}
    (h : e.Refused page policy) :
    (.simple e : Expression (.right a c)).Refused page policy := by
  intro room waiting i d l ls hroom hl _ _
  rcases first_or_rest hroom with hwaiting | ⟨-, hroom⟩
  · exact waiting_refused (Nat.le_of_lt_succ hwaiting) _
  · have hends : l.ends binaryLevels = true := by
      simp_all [Lexeme.endsRight]
    exact rightRound_refused h true hroom hends

theorem noTarget_refused : Parts.noTarget.Refused page policy := by
  intro room m done waiting i d l ls hroom
  cases hroom

theorem target_refused {e : Expression (.binary binaryLevels)} {op : String}
    (hop : Word.canonical op ∈ assignmentOperators)
    {rest : Parts .targets} (h : e.Refused page policy)
    (hrest : rest.Refused page policy) :
    (Parts.target e op hop rest).Refused page policy := by
  intro room m done waiting i d l ls hroom hl
  obtain ⟨l', ls', hnext, hopens⟩ := rest.targets_opens hl ls
  rw [Parts.write, List.append_assoc, List.cons_append, hnext]
  rcases first_or_rest hroom with he | ⟨he, hroom⟩
  · exact rightRound_refused h true he (ends_of_assignment hop)
  · rcases Nat.lt_or_ge (waiting.length + 1) room with hwaiting | hwaiting
    · rw [target_again hop (e.reads page policy) (by simpa using hwaiting) he
        hopens, ← hnext]
      exact hrest room m _ waiting _ d l ls hroom hl
    · exact waiting_refused (by simpa using hwaiting) _

theorem noChoice_refused : Parts.noChoice.Refused page policy := by
  intro room m done waiting i d ls hroom
  cases hroom

/-- A condition and its value are refused if one of them is. -/
theorem choice_again_refused {condition : Expression (.binary binaryLevels)}
    {e : Expression .list} (hcondition : condition.Refused page policy)
    (h : e.Refused page policy) {waiting : List Waiting}
    (hroom : room < max (condition.levels 0) (e.levels 0)) :
    TooDeep (loop (rightRound (nested policy room) true) waiting
      (page.state i d (condition.write
        ++ .operator "?" :: (e.write ++ .operator ":" :: ls)))) := by
  rcases first_or_rest hroom with hroom | ⟨hfits, hroom⟩
  · exact rightRound_refused hcondition true hroom (by decide)
  · rcases Nat.lt_or_ge waiting.length room with hwaiting | hwaiting
    · have hread := h room (i + condition.length + 1) d (.operator ":") ls
        hroom (by decide)
      have hquestion : Word.canonical "?" = "?" := by decide
      refine TooDeep.loop ?_
      rw [rightRound_operand (condition.reads page policy) true hwaiting hfits
        (by decide)]
      unfold behindOperand
      simp [hquestion]
      exact hread.bind _
    · exact waiting_refused hwaiting _

theorem choice_refused {condition : Expression (.binary binaryLevels)}
    {e : Expression .list} {rest : Parts .choices}
    (hcondition : condition.Refused page policy) (h : e.Refused page policy)
    (hrest : rest.Refused page policy) :
    (Parts.choice condition e rest).Refused page policy := by
  intro room m done waiting i d ls hroom
  rw [Parts.write, List.append_assoc, List.cons_append, List.append_assoc,
    List.cons_append]
  rcases first_or_rest hroom with hboth | ⟨hboth, hroom⟩
  · exact choice_again_refused hcondition h hboth
  · obtain ⟨hfits, hfits'⟩ := Nat.max_le.1 hboth
    rcases Nat.lt_or_ge (waiting.length + 1) room with hwaiting | hwaiting
    · rw [choice_again (condition.reads page policy) (e.reads page policy)
        (by simpa using hwaiting) hfits hfits']
      exact hrest room m _ waiting _ d ls hroom
    · exact waiting_refused (by simpa using hwaiting) _

theorem assigns_refused {c : Bool}
    {first : Expression (.binary binaryLevels)} {op : String}
    (hop : Word.canonical op ∈ assignmentOperators)
    {others : Parts .targets} {last : Expression (.right false true)}
    (hfirst : first.Refused page policy)
    (hothers : others.Refused page policy)
    (hlast : last.Refused page policy) :
    (.assigns first op hop others last : Expression (.right true c)).Refused
      page policy := by
  intro room waiting i d l ls hroom hl htargets _
  obtain ⟨l', ls', hlast', hopens⟩ := last.opens
  obtain ⟨l'', ls'', hnext, hopens'⟩ := others.targets_opens hopens
    (ls' ++ l :: ls)
  rw [Expression.write, List.append_assoc, List.cons_append,
    List.append_assoc, hlast', List.cons_append, hnext]
  rcases first_or_rest hroom with he | ⟨he, hroom⟩
  · exact rightRound_refused hfirst true he (ends_of_assignment hop)
  rcases Nat.lt_or_ge waiting.length room with hwaiting | hwaiting
  · rw [target_again hop (first.reads page policy) hwaiting he hopens',
      addTarget_begins (htargets rfl), ← hnext]
    rcases first_or_rest hroom with hrow | ⟨hrow, hroom⟩
    · exact hothers room _ _ waiting _ d _ _ hrow hopens
    · rcases Nat.lt_or_ge (waiting.length + 1) room with hmore | hmore
      · rw [others.reads page policy room _ _ waiting _ d _ _ hrow hmore
          hopens, ← List.cons_append, ← hlast']
        exact hlast room (.assigns _ _ :: waiting) _ d l ls hroom hl
          (absurd · Bool.false_ne_true) fun _ => rfl
      · exact waiting_refused (by simpa using hmore) _
  · exact waiting_refused hwaiting _

theorem chooses_refused {a : Bool}
    {condition : Expression (.binary binaryLevels)}
    {first : Expression .list} {others : Parts .choices}
    {last : Expression (.right true false)}
    (hcondition : condition.Refused page policy)
    (hfirst : first.Refused page policy)
    (hothers : others.Refused page policy)
    (hlast : last.Refused page policy) :
    (.chooses condition first others last :
      Expression (.right a true)).Refused page policy := by
  intro room waiting i d l ls hroom hl _ hchoices
  rw [Expression.write, List.append_assoc, List.cons_append,
    List.append_assoc, List.cons_append, List.append_assoc]
  rcases first_or_rest hroom with hboth | ⟨hboth, hroom⟩
  · exact choice_again_refused hcondition hfirst hboth
  obtain ⟨hfits, hfits'⟩ := Nat.max_le.1 hboth
  rcases Nat.lt_or_ge waiting.length room with hwaiting | hwaiting
  · rw [choice_again (condition.reads page policy)
      (first.reads page policy) hwaiting hfits hfits',
      addChoice_begins (hchoices rfl)]
    rcases first_or_rest hroom with hrow | ⟨hrow, hroom⟩
    · exact hothers room _ _ waiting _ d _ hrow
    · rcases Nat.lt_or_ge (waiting.length + 1) room with hmore | hmore
      · rw [others.reads page policy room _ _ waiting _ d _ hrow hmore]
        exact hlast room (.chooses _ _ :: waiting) _ d l ls hroom hl
          (fun _ => rfl) (absurd · Bool.false_ne_true)
      · exact waiting_refused (by simpa using hmore) _
  · exact waiting_refused hwaiting _

-- ================================================================ commas

/-- An expression among items. -/
theorem itemRound_refused {e : Expression (.right true true)}
    (h : e.Refused page policy) {item : Parser Node}
    (hitem : RefusesItems (nested policy room) item)
    (hroom : room < e.levels 0 + 1) (hl : l.endsRight = true)
    (done : List Node) :
    TooDeep (loop (itemRound item) done
      (page.state i d (e.write ++ l :: ls))) := by
  have hread : TooDeep ((nested policy room).parse .assignment
      (page.state i d (e.write ++ l :: ls))) :=
    nested_refuses (fun below hbelow => h below [] i d l ls hbelow hl
      (fun _ => rfl) fun _ => rfl) hroom
  refine TooDeep.loop ?_
  unfold itemRound
  exact (hitem _ (e.peek_isPunct (by decide)) hread).bind _

theorem lastItem_refused {e : Expression (.right true true)}
    (h : e.Refused page policy) :
    (Parts.lastItem e).Refused page policy := by
  intro room item done i d l ls _ hitem hroom hl
  have hends : l.endsRight = true := by
    simp_all [Lexeme.endsList]
  exact itemRound_refused h hitem hroom hends done

theorem item_refused {e : Expression (.right true true)}
    {rest : Parts .items} (h : e.Refused page policy)
    (hrest : rest.Refused page policy) :
    (Parts.item e rest).Refused page policy := by
  intro room item done i d l ls hreads hitem hroom hl
  rw [Parts.write, List.append_assoc, List.cons_append]
  rcases first_or_rest hroom with he | ⟨he, hroom⟩
  · exact itemRound_refused h hitem he (by decide) done
  · rw [item_again (e.reads page policy) hreads he]
    exact hrest room item _ _ d l ls hreads hitem hroom hl

theorem single_refused {e : Expression (.right true true)}
    (h : e.Refused page policy) :
    (Expression.single e).Refused page policy := by
  intro room i d l ls hroom hl
  have hitems := lastItem_refused h room _ [] i d l ls
    (fun _ _ _ _ _ h => h) (fun _ _ h => h) hroom hl
  unfold expression
  rw [run_mark, commaSeparated_eq]
  exact hitems.bind _

theorem several_refused {first : Expression (.right true true)}
    {others : Parts .items} (hfirst : first.Refused page policy)
    (hothers : others.Refused page policy) :
    (Expression.several first others).Refused page policy := by
  intro room i d l ls hroom hl
  have hitems := item_refused hfirst hothers room _ [] i d l ls
    (fun _ _ _ _ _ h => h) (fun _ _ h => h) hroom hl
  unfold expression
  rw [run_mark, commaSeparated_eq]
  exact hitems.bind _

-- ====================================================== all expressions

mutual

/-- An expression is refused where it nests too deep. -/
theorem Expression.refused (page : Page) (policy : Policy) :
    {r : Rank} → (e : Expression r) → e.Refused page policy
  | _, .number v => number_refused v
  | _, .parens inner => parens_refused (inner.refused page policy)
  | _, .step e _ hop => step_refused hop (e.refused page policy)
  | _, .call callee => call_refused (callee.refused page policy)
  | _, .callWith callee items =>
    callWith_refused (callee.refused page policy)
      (items.refused page policy)
  | _, .subscript object index =>
    subscript_refused (object.refused page policy)
      (index.refused page policy)
  | _, .plain e => plain_refused (e.refused page policy)
  | _, .unary _ hop e => unary_refused hop (e.refused page policy)
  | _, .tight e => tight_refused (e.refused page policy)
  | _, .joined first _ hop second others =>
    joined_refused hop (first.refused page policy)
      (second.refused page policy) (others.refused page policy)
  | _, .simple e => simple_refused (e.refused page policy)
  | _, .assigns first _ hop others last =>
    assigns_refused hop (first.refused page policy)
      (others.refused page policy) (last.refused page policy)
  | _, .chooses condition first others last =>
    chooses_refused (condition.refused page policy)
      (first.refused page policy) (others.refused page policy)
      (last.refused page policy)
  | _, .single e => single_refused (e.refused page policy)
  | _, .several first others =>
    several_refused (first.refused page policy) (others.refused page policy)

/-- Parts in a row are refused where one of them nests too deep. -/
theorem Parts.refused (page : Page) (policy : Policy) :
    {k : Series} → (p : Parts k) → p.Refused page policy
  | _, .lastItem e => lastItem_refused (e.refused page policy)
  | _, .item e rest =>
    item_refused (e.refused page policy) (rest.refused page policy)
  | _, .noOperand => noOperand_refused
  | _, .operand _ hop e rest =>
    operand_refused hop (e.refused page policy) (rest.refused page policy)
  | _, .noTarget => noTarget_refused
  | _, .target e _ hop rest =>
    target_refused hop (e.refused page policy) (rest.refused page policy)
  | _, .noChoice => noChoice_refused
  | _, .choice condition e rest =>
    choice_refused (condition.refused page policy) (e.refused page policy)
      (rest.refused page policy)

end

end FrontEnd.Written
