/-
What the rules of declarations build. A simple declaration is a walk whose
parts are finished in their order, so its invariant is one line: since the
state in which the walk began, its parts were built.
-/
import FrontEnd.Proofs.Built.Expression

namespace FrontEnd.Grammar

variable {tokens : List Token} {g : Inner} {policy : Policy} {s : State}

-- ============================================================= functions

theorem operatorFunctionName_built (h : s.peek.isBracket = false) :
    Passes tokens policy operatorFunctionName s := by
  unfold operatorFunctionName
  have hread : Built policy s [] s.advance := .read h
  refine .advance (.peek (.peekAt (.ite (fun hempty => ?_)
    fun _ => .ite (fun ht => ?_) fun _ => .ite (fun ht => ?_)
    fun _ => .ite (fun ht => ?_) fun _ => .pure hread)))
  · exact .advance (.read (hread.on (emptyBrackets_built hempty)))
  · exact .read (hread.next (by grind))
  · have hname := hread.next (by grind)
    refine .advance (.check (.peekAt (.ite (fun hempty => ?_)
      fun _ => .pure hname)))
    refine .advance (.read (hname.on (emptyBrackets_built ?_)))
    rw [hempty, Bool.or_true]
  · have hstring := hread.next (by grind)
    exact .advance (.accept (fun hname => .pure (hstring.next (by grind)))
      fun _ => .pure hstring)

section
variable (hg : g.Builds tokens)
include hg

theorem memberInitializer_built :
    Makes tokens g.policy (memberInitializer g) s := by
  unfold memberInitializer
  have hhere : Built g.policy s [] s := .here s
  refine .mark (idExpression_built.after hhere fun name s₁ h₁ => .check
    (.ite (fun hopen => ?_) fun _ => .check (.ite (fun _ => ?_)
      fun _ => .failExpected)))
  · exact (arguments_built hg hopen).bind
      fun items s₂ h₂ => .finish (.node _ (h₁.trans h₂))
  · exact Makes.after (hg.built _ _) h₁
      fun list s₂ h₂ => .finish (.node _ h₂)

theorem constructorInitializer_built (h : s.peek.isBracket = false) :
    Makes tokens g.policy (constructorInitializer g) s := by
  unfold constructorInitializer
  refine .mark (.advance ((commaSeparated_built ?_).bind
    fun items s₁ h₁ => .finish (.node _ (.behind h h₁))))
  intro s₁
  refine (memberInitializer_built hg).bind fun item s₂ h₂ => ?_
  exact .accept (fun hdots => .pure (h₂.next (by grind)))
    fun _ => .pure h₂

end

-- =========================================================== constraints

theorem constraintName_built : Passes tokens policy constraintName s := by
  unfold constraintName
  have name {s' : State} (h : Built policy s [] s') : Gives tokens (do
      expectName
      loop (fun _ => do
        if ← check (·.isOperator "<") then skipTemplateArguments
        if (← check (·.isOperator "::")) && (← peekAt 1).isName then
          advance
          advance
          return .again ()
        else return .done ()) ()) s'
      fun (_ : Unit) s'' => Built policy s [] s'' := by
    refine .expect fun hname => .loop (fun _ s'' => Built policy s [] s'') ?_
      (h.next (by grind))
    intro _ s₁ h₁
    have tail {s' : State} (h : Built policy s [] s') : Gives tokens (do
        if (← check (·.isOperator "::")) && (← peekAt 1).isName then
          advance
          advance
          return .again ()
        else return .done ()) s'
        fun (r : Round Unit Unit) s'' =>
          r.Sat (fun _ => Built policy s [] s'')
            fun _ => Built policy s [] s'' := by
      refine .check (.peekAt (.ite (fun hnext => ?_) fun _ => .pure h))
      have hend : s'.peek.isEnd = false := by grind
      rw [← s'.advance_peek hend] at hnext
      exact .advance (.advance (.pure
        (Built.next (h.next (by grind)) (by grind))))
    refine .check (.ite (fun hless => ?_) fun _ => tail h₁)
    exact (skipTemplateArguments_built (by grind)).after h₁ fun _ _ => tail
  refine .accept (fun hnext => name (.read ?_)) fun _ => name (.here s)
  grind

theorem constraintOperand_built :
    Passes tokens policy constraintOperand s := by
  unfold constraintOperand
  refine (skipWhile_built (by grind)).after (.here s)
    fun _ s₁ h₁ => .peek (.ite (fun hopen => ?_) fun _ =>
      .ite (fun ht => .read (h₁.next (by grind))) fun _ =>
      constraintName_built.last h₁ fun _ _ h => h)
  exact (skipGroup_built _ (by grind)).last h₁ fun _ _ h => h

theorem requiresClause_built (h : s.peek.isBracket = false) :
    Passes tokens policy requiresClause s := by
  unfold requiresClause
  refine .advance (.loop (fun _ s' => Built policy s [] s') ?_ (.read h))
  intro _ s₁ h₁
  refine constraintOperand_built.after h₁ fun _ s₂ h₂ => ?_
  exact .accept (fun hnext => .pure (h₂.next (by grind))) fun _ => .pure h₂

-- =============================================================== classes

/-- The tokens of a label among members are no brackets. -/
theorem memberLabel_plain {ts : List Token} {length : Nat}
    (h : memberLabel ts = some length) : ∀ i < length,
      (tokenAt i ts).isBracket = false ∧ (tokenAt i ts).isEnd = false := by
  unfold memberLabel at h
  intro i hi
  dsimp only at h
  have hcases : i = 0 ∨ i = 1 ∨ i = 2 := by
    split at h
    · grind
    · split at h
      · grind
      · split at h <;> grind
  rcases hcases with rfl | rfl | rfl <;> grind

theorem skip_built (n : Nat) (h : ∀ i < n,
    (tokenAt i s.rest).isBracket = false
      ∧ (tokenAt i s.rest).isEnd = false) :
    Passes tokens policy (skip n) s := by
  induction n generalizing s with
  | zero => exact .pure (.here s)
  | succ n ih =>
    obtain ⟨hplain, hend⟩ := h 0 (Nat.succ_pos n)
    rw [← s.peek_eq_tokenAt] at hplain hend
    unfold skip
    refine .advance ((ih fun i hi => ?_).last (.read hplain)
      fun _ _ h => h)
    have hnext := h (i + 1) (Nat.succ_lt_succ hi)
    rw [tokenAt_succ] at hnext
    rw [s.advance_of_not_end hend]
    exact hnext

theorem baseClause_built : Passes tokens policy baseClause s := by
  unfold baseClause
  refine .loop (fun _ s' => Built policy s [] s') ?_ (.here s)
  intro _ s₁ h₁
  refine .peek (.ite (fun _ => .pure h₁) fun _ => .ite (fun ht => ?_)
    fun _ => .ite (fun ht => ?_) fun _ => .ite (fun ht => ?_)
    fun _ => .gaveUp)
  · exact (skipGroup_built _ (by grind)).after h₁ fun _ _ h => .pure h
  · exact (skipTemplateArguments_built (by grind)).after h₁
      fun _ _ h => .pure h
  · exact .advance (.pure (h₁.next (by grind)))

theorem className_built : Passes tokens policy className s := by
  unfold className
  refine Gives.bind (P := fun _ s' => Built policy s [] s')
    (.loop (fun _ s' => Built policy s [] s') ?_ (.here s))
    fun _ s₁ h₁ => (skipWhile_built (by grind)).last h₁ fun _ _ h => h
  intro _ s₁ h₁
  refine .peek (.ite (fun ht => ?_) fun _ => .ite (fun ht => ?_)
    fun _ => .pure h₁)
  · exact .advance (.pure (h₁.next (by grind)))
  · exact (skipTemplateArguments_built (by grind)).after h₁
      fun _ _ h => .pure h

/-- What a rule that may build a node has built. -/
abbrev BuiltSome (policy : Policy) (s : State) (n : Option Node)
    (s' : State) : Prop :=
  Built policy s n.toList s'

section
variable (hg : g.Builds tokens)
include hg

theorem memberDeclaration_built :
    Makes tokens g.policy (memberDeclaration g) s := by
  rw [memberDeclaration_eq]
  refine .question (memberLabel ·.rest) ?_
  split
  case h_1 length hlabel =>
    exact .mark ((skip_built length (memberLabel_plain hlabel)).after
      (.here s) fun _ _ h => .finish (.node _ h))
  case h_2 => exact hg.built _ s

theorem classBody_built {s₀ : State} (h₀ : Built g.policy s₀ [] s) :
    Gives tokens (classBody g s₀.mark) s
      fun n s' => Built g.policy s₀ [n] s' := by
  unfold classBody
  refine .expect fun hopen => (sequence_built
    (fun _ hs => memberDeclaration_yields hg.sound hs)
    (fun _ => memberDeclaration_built hg) _ _).bind fun members s₁ h₁ =>
    .expect fun hclose => .finish ?_
  exact .node _ (h₀.trans (.braces hopen h₁ hclose))

theorem classSpecifier_built (h : s.peek.isBracket = false) :
    Gives tokens (classSpecifier g) s (BuiltSome g.policy s) := by
  unfold classSpecifier
  have body {s' : State} (h : Built g.policy s [] s') : Gives tokens (do
      return some (← classBody g s.mark)) s' (BuiltSome g.policy s) :=
    (classBody_built hg h).bind fun n _ hn => .pure hn
  have hread : Built g.policy s [] s.advance := .read h
  refine .mark (.advance (skipAttributes_built.after hread fun _ _ h₁ =>
    className_built.after h₁ fun _ s₂ h₂ =>
    .accept (fun hcolon => ?_) fun _ => .check (.ite (fun _ => body h₂)
      fun _ => .pure h₂)))
  exact baseClause_built.after (h₂.next (by grind)) fun _ _ => body

-- ========================================================== enumerations

theorem enumerator_built : Makes tokens g.policy (enumerator g) s := by
  unfold enumerator
  refine .mark (.expect fun hname => ?_)
  have hread : Built g.policy s [] s.advance := .read (by grind)
  refine skipAttributes_built.after hread fun _ s₁ h₁ =>
    .accept (fun hequals => ?_) fun _ => .finish (.node _ h₁)
  exact Makes.after (hg.built _ _) (h₁.next (by grind))
    fun value s₂ h₂ => .finish (.node _ h₂)

theorem enumerators_built : Lists tokens g.policy (enumerators g) s := by
  unfold enumerators
  refine .loop (fun done s' => Built g.policy s done.reverse s') ?_ (.here s)
  intro done s₁ h₁
  refine .check (.ite (fun _ => .pure h₁) fun _ => ?_)
  refine (enumerator_built hg).bind fun n s₂ hn => ?_
  have h₂ := h₁.push hn
  exact .accept (fun hcomma => .pure (h₂.next (by grind)))
    fun _ => .check (.ite (fun _ => .pure h₂) fun _ => .failExpected)

omit hg in
theorem enumHead_built (h : s.peek.isBracket = false) :
    Passes tokens policy enumHead s := by
  unfold enumHead
  have base {s' : State} (h : Built policy s [] s') : Gives tokens (do
      skipAttributes
      skipWhile fun t => t.isName || t.isOperator "::"
      if ← accept (·.isOperator ":") then
        skipWhile fun t =>
          t.isName || t.kind == .keyword || t.isOperator "::") s'
      fun _ s'' => Built policy s [] s'' := by
    refine skipAttributes_built.after h fun _ _ h₁ =>
      (skipWhile_built (by grind)).after h₁ fun _ s₂ h₂ =>
      .accept (fun hcolon => ?_) fun _ => .pure h₂
    exact (skipWhile_built (by grind)).last (h₂.next (by grind))
      fun _ _ h => h
  have hread : Built policy s [] s.advance := .read h
  refine .advance (.accept (fun hclass => base (hread.next ?_))
    fun _ => .accept (fun hstruct => base (hread.next ?_))
      fun _ => base hread)
  · grind
  · grind

theorem enumSpecifier_built (h : s.peek.isBracket = false) :
    Gives tokens (enumSpecifier g) s (BuiltSome g.policy s) := by
  unfold enumSpecifier
  refine .mark ((enumHead_built h).after (.here s) fun _ s₁ h₁ =>
    .accept (fun hopen => ?_) fun _ => .pure h₁)
  refine (enumerators_built hg).bind fun names s₂ h₂ =>
    .expect fun hclose => .node (.pure ?_)
  exact .node _ (h₁.trans (.braces hopen h₂ hclose))

end

-- =================================================== simple declarations

theorem declaratorEnd_built : Passes tokens policy declaratorEnd s := by
  unfold declaratorEnd
  exact .check (.ite (fun _ => .pure (.here s)) fun _ => .failExpected)

/-- What a round of a simple declaration comes to that began at a state:
its parts, or a node. -/
abbrev WalkBuilt (policy : Policy) (s₀ : State) (r : Round Walk Node)
    (s : State) : Prop :=
  r.Sat (fun w => Built policy s₀ w.parts.reverse s)
    fun n => Built policy s₀ [n] s

section
variable (hg : g.Builds tokens) {s₀ : State} {w : Walk}
  (hw : Built g.policy s₀ w.parts.reverse s)
include hg hw

omit hg in
theorem function_built :
    Gives tokens (w.function s₀.mark) s (WalkBuilt g.policy s₀) :=
  .node (.pure (.node _ hw))

omit hg in
/-- The body of a function ends its definition. -/
theorem body_built {p : Parser Node} (hp : Makes tokens g.policy p s) :
    Gives tokens (do
      let body ← p
      Walk.function { w with parts := body :: w.parts } s₀.mark) s
      (WalkBuilt g.policy s₀) :=
  Gives.bind hp fun _ _ h => function_built (hw.push h)

omit hg in
/-- A part behind which another declarator or the end comes. -/
theorem lastPart_built {p : Parser Node} (hp : Makes tokens g.policy p s) :
    Gives tokens (do
      let part ← p
      declaratorEnd
      return w.add part) s (WalkBuilt g.policy s₀) :=
  Gives.bind hp fun _ _ h => declaratorEnd_built.after (hw.push h)
    fun _ _ h' => .pure h'

theorem punctRound_built (hkind : s.peek.kind = .punctuation) :
    Gives tokens (punctRound g s₀.mark w s.peek) s
      (WalkBuilt g.policy s₀) := by
  unfold punctRound
  refine .ite (fun ht => ?_) fun _ => .ite (fun ht => ?_) fun _ =>
    .ite (fun ht => ?_) fun _ => .ite (fun _ => .ite (fun _ => ?_)
      fun _ => ?_) fun _ => .ite (fun ht => ?_) fun _ => .fail
  · exact .advance (.node (.pure (.node _ (hw.next (by grind)))))
  · exact (skipGroup_built _ (by grind)).after hw fun _ _ h => .pure h
  · exact (skipGroup_built _ (by grind)).after hw fun _ _ h => .pure h
  · exact body_built hw (block_built hg)
  · exact lastPart_built hw (hg.built _ s)
  · exact .advance (.pure (hw.next (by grind)))

theorem operatorRound_built (hkind : s.peek.kind = .operator) :
    Gives tokens (operatorRound g s₀.mark w s.peek) s
      (WalkBuilt g.policy s₀) := by
  have h : s.peek.isBracket = false := by grind
  have hread := hw.next h
  have value {s' : State} (h : Built g.policy s₀ w.parts.reverse s') :
      Gives tokens (do
        let value ← initializer g
        declaratorEnd
        return w.add value) s' (WalkBuilt g.policy s₀) :=
    lastPart_built h (initializer_built hg)
  unfold operatorRound
  refine .ite (fun _ => .advance (.ite (fun _ => ?_) fun _ => value hread))
    fun _ => .ite (fun _ => ?_) fun _ => .ite (fun _ => .ite (fun _ => ?_)
      fun _ => .advance (lastPart_built hread (hg.built _ _)))
      fun _ => .ite (fun _ => .advance (.pure hread)) fun _ => .fail
  · refine .accept (fun hspecial => .ite (fun _ => .expect fun hend => ?_)
      (absurd rfl)) fun _ => .ite nofun fun _ => value hread
    exact function_built (Built.next (hread.next (by grind)) (by grind))
  · exact (skipTemplateArguments_built h).after hw fun _ _ h => .pure h
  · refine (constructorInitializer_built hg h).bind fun members s₁ h₁ => ?_
    exact .check (.ite (fun _ => .pure (hw.push h₁))
      fun _ => .failExpected)

omit hg in
/-- The walk goes on with a part, if it came to one. -/
theorem addSome_built {p : Parser (Option Node)}
    (hp : Gives tokens p s (BuiltSome g.policy s)) :
    Gives tokens (do return w.addSome (← p)) s (WalkBuilt g.policy s₀) := by
  refine Gives.bind hp fun part s₁ h₁ => .pure ?_
  cases part with
  | none => exact hw.on h₁
  | some part => exact hw.push h₁

theorem keywordRound_built (hkind : s.peek.kind = .keyword) :
    Gives tokens (keywordRound g s₀.mark w s.peek) s
      (WalkBuilt g.policy s₀) := by
  have h : s.peek.isBracket = false := by grind
  have hread := hw.next h
  unfold keywordRound
  refine .ite (fun _ => addSome_built hw (classSpecifier_built hg h))
    fun _ => .ite (fun _ => addSome_built hw (enumSpecifier_built hg h))
    fun _ => .ite (fun _ => ?_)
    fun _ => .ite (fun _ => body_built hw (tryBlock_built hg h))
    fun _ => .ite (fun _ => ?_) fun _ => .ite (fun _ => ?_)
    fun _ => .ite (fun _ => .fail) fun _ => .advance (.pure hread)
  · exact (operatorFunctionName_built h).after hw fun _ _ h => .pure h
  · exact (requiresClause_built h).after hw fun _ _ h => .pure h
  · refine .advance (.check (.ite (fun hopen => ?_) fun _ => .pure hread))
    exact (skipGroup_built _ (by grind)).after hread fun _ _ h => .pure h

theorem simpleRound_built :
    Gives tokens (simpleRound g s₀.mark w) s (WalkBuilt g.policy s₀) := by
  unfold simpleRound
  refine .peek ?_
  cases hkind : s.peek.kind with
  | punctuation => exact punctRound_built hg hw hkind
  | operator => exact operatorRound_built hg hw hkind
  | keyword => exact keywordRound_built hg hw hkind
  | identifier => exact .advance (.pure (hw.next (by grind)))
  | endOfFile => exact .failExpected
  | _ => exact .fail

end

section
variable (hg : g.Builds tokens)
include hg

theorem simpleDeclaration_built :
    Makes tokens g.policy (simpleDeclaration g) s := by
  unfold simpleDeclaration
  exact .mark (.loop (fun w s' => Built g.policy s w.parts.reverse s')
    (fun w s₁ hw => simpleRound_built hg hw) (.here s))

-- ==================================================== other declarations

/-- Declarations behind the brace that opens them. -/
theorem declarationsInBraces_built (context : String)
    (hopen : s.peek.isPunct "\x7b" = true) :
    Gives tokens (declarationsInBraces g context) s.advance
      fun ns s' => Built g.policy s ns s' := by
  unfold declarationsInBraces
  exact (sequence_built (hg.sound .declaration) (hg.built .declaration) _
    _).bind fun items s₁ h₁ =>
    .expect fun hclose => .pure (.braces hopen h₁ hclose)

theorem namespaceDefinition_built
    (h : s.peek.isBracket = false)
    (hinline : s.peek.isKeyword "inline" = true →
      s.advance.peek.isBracket = false) :
    Makes tokens g.policy (namespaceDefinition g) s := by
  unfold namespaceDefinition
  have name {s' : State} (h : Built g.policy s [] s') : Gives tokens (do
      skipAttributes
      skipWhile fun t =>
        t.isName || t.isOperator "::" || t.isKeyword "inline"
      if ← accept (·.isOperator "=") then
        skipToSemicolon "after namespace alias"
        finish .namespaceAlias s.mark []
      else
        skipAttributes
        expectPunct "\x7b" "after namespace name"
        let items ← declarationsInBraces g "after namespace body"
        finish .namespaceDefinition s.mark items) s'
      fun n s'' => Built g.policy s [n] s'' := by
    refine skipAttributes_built.after h fun _ _ h₁ =>
      (skipWhile_built (by grind)).after h₁ fun _ s₂ h₂ =>
      .accept (fun hequals => ?_) fun _ => ?_
    · exact (skipToSemicolon_built _).after (h₂.next (by grind))
        fun _ _ h₃ => .finish (.node _ h₃)
    · refine skipAttributes_built.after h₂ fun _ s₃ h₃ =>
        .expect fun hopen => ?_
      exact (declarationsInBraces_built hg _ hopen).bind
        fun items s₄ h₄ => .finish (.node _ (h₃.trans h₄))
  exact .mark (.accept
    (fun hnext => .advance (name (.behind h (.read (hinline hnext)))))
    fun _ => .advance (name (.read h)))

omit hg in
theorem usingDeclaration_built (h : s.peek.isBracket = false) :
    Makes tokens policy usingDeclaration s := by
  unfold usingDeclaration
  have hread : Built policy s [] s.advance := .read h
  have rest {kind : NodeKind} {context : String} {s' : State}
      (h : Built policy s [] s') : Gives tokens (do
        skipToSemicolon context
        finish kind s.mark []) s' fun n s'' => Built policy s [n] s'' :=
    (skipToSemicolon_built _).after h fun _ _ h₁ => .finish (.node _ h₁)
  refine .mark (.advance (.peekAt (.check (.ite (fun _ => rest hread)
    fun _ => .check (.ite (fun hname => .advance ?_)
      fun _ => rest hread)))))
  refine skipAttributes_built.after (hread.next (by grind))
    fun _ s₁ h₁ => .expect fun hequals => .check (.ite
      (fun _ => .failExpected) fun _ => rest (h₁.next ?_))
  grind

theorem templateDeclaration_built (h : s.peek.isBracket = false) :
    Makes tokens g.policy (templateDeclaration g) s := by
  unfold templateDeclaration
  have declared {s' : State} (h : Built g.policy s [] s') : Gives tokens (do
      let declaration ← g.parse .declaration
      finish .templateDeclaration s.mark [declaration]) s'
      fun n s'' => Built g.policy s [n] s'' :=
    Makes.after (hg.built _ _) h fun _ _ h₁ => .finish (.node _ h₁)
  have constrained {s' : State} (h : Built g.policy s [] s') :
      Gives tokens (do
        if ← check (·.isKeyword "requires") then requiresClause
        let declaration ← g.parse .declaration
        finish .templateDeclaration s.mark [declaration]) s'
        fun n s'' => Built g.policy s [n] s'' :=
    .check (.ite (fun hrequires => (requiresClause_built (by grind)).after h
      fun _ _ => declared) fun _ => declared h)
  have hread : Built g.policy s [] s.advance := .read h
  exact .mark (.advance (.check (.ite (fun hless =>
    (skipTemplateArguments_built (by grind)).after hread
      fun _ _ => constrained) fun _ => constrained hread)))

theorem linkageSpecification_built (h : s.peek.isBracket = false)
    (hstring : s.advance.peek.isString = true) :
    Makes tokens g.policy (linkageSpecification g) s := by
  unfold linkageSpecification
  have hread : Built g.policy s [] s.advance.advance :=
    .behind h (.read (by grind))
  refine .mark (.advance (.advance (.accept (fun hopen => ?_)
    fun _ => ?_)))
  · exact (declarationsInBraces_built hg _ hopen).bind
      fun items s₁ h₁ => .finish (.node _ (hread.trans h₁))
  · exact Makes.after (hg.built _ _) hread
      fun item s₁ h₁ => .finish (.node _ h₁)

theorem staticAssertion_built (h : s.peek.isBracket = false) :
    Makes tokens g.policy (staticAssertion g) s := by
  unfold staticAssertion
  refine .mark (.advance (.expect fun hopen => ?_))
  have done {ns : List Node} {s' : State}
      (h' : Built g.policy s.advance.advance ns s') : Gives tokens (do
        expectPunct ")" "after static assertion"
        expectPunct ";" "after static assertion"
        finish .staticAssertDeclaration s.mark ns) s'
        fun n s'' => Built g.policy s [n] s'' := by
    refine .expect fun hclose => .expect fun hend => .finish (.node _ ?_)
    exact .behind h (Built.next (.parens hopen h' hclose) (by grind))
  refine Gives.bind (hg.built _ _) fun condition s₁ h₁ =>
    .accept (fun hcomma => ?_) fun _ => done h₁
  exact Makes.after (hg.built _ _) (h₁.next (by grind)) fun _ _ => done

omit hg in
theorem asmDeclaration_built (h : s.peek.isBracket = false) :
    Makes tokens policy asmDeclaration s := by
  unfold asmDeclaration
  have hread : Built policy s [] s.advance := .read h
  refine .mark (.advance ((skipWhile_built (by grind)).after hread
    fun _ s₁ h₁ => .check (.ite (fun hopen => ?_) fun _ => .failExpected)))
  refine (skipGroup_built _ (by grind)).after h₁
    fun _ s₂ h₂ => .expect fun hend => .finish (.node _ (h₂.next ?_))
  grind

theorem declaration_built : Makes tokens g.policy (declaration g) s := by
  unfold declaration
  refine .peek (.peekAt ?_)
  have hnext (h : s.peek.kind = .keyword) :
      tokenAt 1 s.rest = s.advance.peek :=
    (s.advance_peek (by grind)).symm
  refine .ite (fun ht => ?_) fun _ => .ite (fun ht => ?_)
    fun _ => .ite (fun ht => usingDeclaration_built (by grind))
    fun _ => .ite (fun ht => templateDeclaration_built hg (by grind))
    fun _ => .ite (fun ht => ?_)
    fun _ => .ite (fun ht => ?_)
    fun _ => .ite (fun ht => staticAssertion_built hg (by grind))
    fun _ => .ite (fun ht => asmDeclaration_built (by grind))
    fun _ => simpleDeclaration_built hg
  · exact .mark (.advance (.finish (.node _ (.read (by grind)))))
  · exact namespaceDefinition_built hg (by grind) (by grind)
  · exact .advance ((templateDeclaration_built hg (by grind)).mono
      fun _ _ => .behind (by grind))
  · exact linkageSpecification_built hg (by grind) (by grind)

end

end FrontEnd.Grammar
