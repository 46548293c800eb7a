/-
The course of declarations. A simple declaration is a walk whose parts lie
one behind the other (`Walked`), and each of its rounds reads a token. A
part that may be left out, as the body of a class, is a node where it is
there.
-/
import FrontEnd.Proofs.Course.Expression

namespace FrontEnd.Grammar

variable {tokens : List Token} {g : Inner} {s : State}
variable (hg : g.Sound tokens) (hs : s.Along tokens)

include hg hs

-- ============================================================= functions

omit hg in
theorem operatorFunctionName_yields :
    Yields tokens operatorFunctionName s fun _ s' => Moved s s' := by
  unfold operatorFunctionName
  refine .advance hs fun s₁ h₁ => ?_
  have hs₁ := h₁.along
  have two {s' : State} (h : Leads tokens s₁ s') :
      Yields tokens (do advance; advance) s' fun _ s'' => Moved s s'' := by
    refine .advance h.along fun s₂ h₂ => ?_
    exact (Yields.read h₂.along).mono h₂.along (by grind)
  refine .peek hs₁ (.peekAt hs₁ ?_)
  refine .ite (fun _ => two (.refl hs₁)) fun _ => .ite (fun _ => ?_)
    fun _ => .ite (fun _ => ?_) fun _ => .ite (fun _ => ?_)
      fun _ => .pure hs₁ h₁.moved
  · exact (Yields.read hs₁).mono hs₁ (by grind)
  · refine .advance hs₁ fun s₂ h₂ => .check h₂.along (.peekAt h₂.along ?_)
    refine .ite (fun _ => two h₂.toLeads) fun _ => .pure h₂.along ?_
    grind
  · refine .advance hs₁ fun s₂ h₂ => ?_
    refine .accept h₂.along (fun _ s₃ h₃ => ?_) fun _ => ?_
    · exact .pure h₃.along (by grind)
    · exact .pure h₂.along (by grind)

theorem memberInitializer_yields :
    Yields tokens (memberInitializer g) s (Made tokens s) := by
  unfold memberInitializer
  refine .mark hs ((idExpression_yields hs).bind hs
    fun name s₁ h₁ hname => .check h₁.along (.ite (fun ht => ?_)
      fun _ => .check h₁.along (.ite (fun _ => ?_)
        fun _ => .failExpected h₁.along)))
  · refine (arguments_yields hg h₁.along (by grind)).bind h₁.along ?_
    rintro items s₂ h₂ ⟨hrow, hmoved⟩
    refine .finish h₂.along (.node _ rfl hs h₂.along (by grind) ?_)
    exact .cons hname.sound hname.first (by grind)
      (hrow.mono (by grind) (Nat.le_refl _))
  · refine (hg _ s₁ h₁.along).bind h₁.along fun list s₂ h₂ hlist => ?_
    exact .finish h₂.along (.node _ rfl hs h₂.along (by grind) (by grind))

theorem constructorInitializer_yields :
    Yields tokens (constructorInitializer g) s (Made tokens s) := by
  unfold constructorInitializer
  refine .mark hs (.advance hs fun s₁ h₁ => ?_)
  have item (s : State) (hs : s.Along tokens) :
      Yields tokens (do
        let item ← memberInitializer g
        let _ ← accept (·.isOperator "...")
        return item) s (Made tokens s) := by
    refine (memberInitializer_yields hg hs).bind hs fun n s₁ h₁ hn => ?_
    refine .accept h₁.along (fun _ s₂ h₂ => ?_) fun _ => ?_
    · exact .pure h₂.along ⟨hn.sound, hn.first, hn.stop.trans h₂.position⟩
    · exact .pure h₁.along hn
  refine (commaSeparated_yields h₁.along item).bind h₁.along ?_
  rintro items s₂ h₂ ⟨hrow, hmoved⟩
  refine .finish h₂.along (.node _ rfl hs h₂.along (by grind) ?_)
  exact hrow.mono h₁.mark (Nat.le_refl _)

-- =========================================================== constraints

omit hg in
theorem constraintName_yields :
    Yields tokens constraintName s fun _ _ => True := by
  unfold constraintName
  have pieces {s' : State} (h : Leads tokens s s') :
      Yields tokens (do
        expectName
        loop (fun _ => do
          if ← check (·.isOperator "<") then skipTemplateArguments
          if (← check (·.isOperator "::")) && (← peekAt 1).isName then
            advance
            advance
            return .again ()
          else return .done ()) ()) s' fun (_ : Unit) _ => True := by
    refine .expect h.along fun _ s₁ h₁ => ?_
    refine .loop h₁.along (fun _ _ => True) ?_ trivial
    intro _ s₂ hs₂ _
    have next {s'' : State} (h' : Leads tokens s₂ s'') :
        Yields tokens (do
          if (← check (·.isOperator "::")) && (← peekAt 1).isName then
            advance
            advance
            return .again ()
          else return .done ()) s'' fun (r : Round Unit Unit) s₃ =>
            r.Sat (fun _ => s₂.position < s₃.position ∧ True)
              fun _ => True := by
      refine .check h'.along (.peekAt h'.along (.ite (fun ht => ?_)
        fun _ => .pure h'.along trivial))
      refine .advance h'.along fun s₃ h₃ => .advance h₃.along
        fun s₄ h₄ => .pure h₄.along ?_
      grind
    refine .check hs₂ (.ite (fun _ => ?_) fun _ => next (.refl hs₂))
    refine (skipTemplateArguments_yields hs₂).bind hs₂ fun _ s₃ h₃ _ => ?_
    exact next h₃
  exact .accept hs (fun _ s₁ h₁ => pieces h₁.toLeads)
    fun _ => pieces (.refl hs)

omit hg in
theorem constraintOperand_yields :
    Yields tokens constraintOperand s fun _ _ => True := by
  unfold constraintOperand
  refine (skipWhile_yields hs (by grind)).bind hs fun _ s₁ h₁ _ => ?_
  refine .peek h₁.along (.ite (fun _ => ?_) fun _ => .ite (fun _ => ?_)
    fun _ => constraintName_yields h₁.along)
  · exact (skipGroup_yields h₁.along _).mono h₁.along fun _ _ _ _ => trivial
  · exact (Yields.read h₁.along).mono h₁.along fun _ _ _ _ => trivial

omit hg in
theorem requiresClause_yields :
    Yields tokens requiresClause s fun _ s' => Moved s s' := by
  unfold requiresClause
  refine .advance hs fun s₁ h₁ => ?_
  refine .loop h₁.along (fun _ s' => Leads tokens s₁ s') ?_
    (.refl h₁.along)
  intro _ s₂ hs₂ h₂
  refine (constraintOperand_yields hs₂).bind hs₂ fun _ s₃ h₃ _ => ?_
  refine .accept h₃.along (fun _ s₄ h₄ => ?_) fun _ => ?_
  · exact .pure h₄.along ⟨by grind, (h₂.trans h₃).trans h₄.toLeads⟩
  · exact .pure h₃.along (by grind)

-- =============================================================== classes

omit hg hs in
/-- A label among members has tokens, and they are there. -/
theorem memberLabel_some {ts : List Token} {length : Nat}
    (h : memberLabel ts = some length) :
    0 < length ∧ (tokenAt 0 ts).isEnd = false := by
  unfold memberLabel at h
  dsimp only at h
  split at h
  case isTrue hlabel => grind
  case isFalse =>
    split at h
    case isTrue hlabel => grind
    case isFalse => split at h <;> grind

omit hg in
theorem skip_yields (n : Nat) :
    Yields tokens (skip n) s fun _ s' => 0 < n → Moved s s' := by
  induction n generalizing s with
  | zero => exact .pure hs nofun
  | succ n ih =>
    unfold skip
    refine .advance hs fun s₁ h₁ => ?_
    exact (ih h₁.along).mono h₁.along (by grind)

omit hg hs in
/-- A member, in single steps. -/
theorem memberDeclaration_eq : memberDeclaration g = (do
    match ← (fun s => .ok (memberLabel s.rest) s : Parser _) with
    | some length => do
      let m ← mark
      skip length
      finish .accessSpecifier m []
    | none => g.parse .declaration) := by
  funext s
  refine Eq.trans ?_ (bind_eq _ _ s).symm
  unfold memberDeclaration
  cases memberLabel s.rest <;> rfl

theorem memberDeclaration_yields :
    Yields tokens (memberDeclaration g) s (Made tokens s) := by
  rw [memberDeclaration_eq]
  refine .question (memberLabel ·.rest) hs ?_
  split
  case h_1 length hlabel =>
    obtain ⟨hlength, hend⟩ := memberLabel_some hlabel
    rw [← s.peek_eq_tokenAt] at hend
    refine .mark hs ((skip_yields hs length).bind hs
      fun _ s₁ h₁ hmoved => .finish h₁.along ?_)
    exact .node _ rfl hs h₁.along (hmoved hlength hend) .nil
  case h_2 => exact hg _ s hs

omit hg in
theorem baseClause_yields :
    Yields tokens baseClause s fun _ _ => True := by
  unfold baseClause
  refine .loop hs (fun _ _ => True) ?_ trivial
  intro _ s₁ hs₁ _
  refine .peek hs₁ (.ite (fun _ => .pure hs₁ trivial) fun _ =>
    .ite (fun ht => ?_) fun _ => .ite (fun ht => ?_) fun _ =>
    .ite (fun ht => ?_) fun _ => ?_)
  · refine (skipGroup_yields hs₁ _).bind hs₁ fun _ s₂ h₂ hmoved => ?_
    exact .pure h₂.along (by grind)
  · refine (skipTemplateArguments_yields hs₁).bind hs₁
      fun _ s₂ h₂ hmoved => ?_
    exact .pure h₂.along (by grind)
  · exact .advance hs₁ fun s₂ h₂ => .pure h₂.along (by grind)
  · exact (Yields.failExpected hs₁ (P := fun _ _ => False)).bind hs₁ nofun

omit hg in
theorem className_yields :
    Yields tokens className s fun _ _ => True := by
  unfold className
  refine Yields.bind (P := fun _ _ => True) ?_ hs fun _ s₁ h₁ _ => ?_
  · refine .loop hs (fun _ _ => True) ?_ trivial
    intro _ s₁ hs₁ _
    refine .peek hs₁ (.ite (fun ht => ?_) fun _ => .ite (fun ht => ?_)
      fun _ => .pure hs₁ trivial)
    · exact .advance hs₁ fun s₂ h₂ => .pure h₂.along (by grind)
    · refine (skipTemplateArguments_yields hs₁).bind hs₁
        fun _ s₂ h₂ hmoved => ?_
      exact .pure h₂.along (by grind)
  · exact (skipWhile_yields h₁.along (by grind)).mono h₁.along
      fun _ _ _ _ => trivial

theorem classBody_yields {s₀ : State} (hs₀ : s₀.Along tokens)
    (h₀ : Leads tokens s₀ s) :
    Yields tokens (classBody g s₀.mark) s (Made tokens s₀) := by
  unfold classBody
  refine .expect hs fun _ s₁ h₁ => ?_
  refine (Yields.sequence (fun s hs => memberDeclaration_yields hg hs) _ _
    h₁.along).bind h₁.along fun members s₂ h₂ hrow => ?_
  refine .expect h₂.along fun _ s₃ h₃ => .finish h₃.along ?_
  refine .node _ rfl hs₀ h₃.along (by grind) (hrow.mono ?_ h₃.position)
  grind

/-- A part of a declaration that may be left out. -/
def MadeSome (tokens : List Token) (s : State) (part : Option Node)
    (s' : State) : Prop :=
  (∀ n ∈ part, Made tokens s n s') ∧ s.mark.index < s'.position

omit hg hs in
theorem MadeSome.some {n : Node} {s s' : State} (h : Made tokens s n s') :
    MadeSome tokens s (some n) s' := by
  refine ⟨?_, ?_⟩
  · rintro _ ⟨⟩
    exact h
  · have := h.sound.nonempty
    have := h.first
    have := h.stop
    omega

theorem classSpecifier_yields (hend : s.peek.isEnd = false) :
    Yields tokens (classSpecifier g) s (MadeSome tokens s) := by
  unfold classSpecifier
  refine .mark hs (.advance hs fun s₁ h₁ => ?_)
  refine (skipAttributes_yields h₁.along).bind h₁.along fun _ s₂ h₂ _ => ?_
  refine (className_yields h₂.along).bind h₂.along fun _ s₃ h₃ _ => ?_
  have h₀ : Leads tokens s s₃ := (h₁.toLeads.trans h₂).trans h₃
  have body {s' : State} (h : Leads tokens s₃ s') :
      Yields tokens (do return some (← classBody g s.mark)) s'
        (MadeSome tokens s) := by
    refine (classBody_yields hg h.along hs (h₀.trans h)).bind h.along ?_
    exact fun n s₄ h₄ hn => .pure h₄.along (.some hn)
  refine .accept h₃.along (fun _ s₄ h₄ => ?_) fun _ => ?_
  · refine (baseClause_yields h₄.along).bind h₄.along fun _ s₅ h₅ _ => ?_
    exact body (h₄.toLeads.trans h₅)
  · refine .check h₃.along (.ite (fun _ => body (.refl h₃.along))
      fun _ => .pure h₃.along ⟨nofun, by grind⟩)

-- ========================================================== enumerations

theorem enumerator_yields :
    Yields tokens (enumerator g) s (Made tokens s) := by
  unfold enumerator
  refine .mark hs (.expect hs fun _ s₁ h₁ => ?_)
  refine (skipAttributes_yields h₁.along).bind h₁.along fun _ s₂ h₂ _ => ?_
  refine .accept h₂.along (fun _ s₃ h₃ => ?_) fun _ => ?_
  · refine (hg _ s₃ h₃.along).bind h₃.along fun value s₄ h₄ hvalue => ?_
    exact .finish h₄.along (.node _ rfl hs h₄.along (by grind) (by grind))
  · exact .finish h₂.along (.node _ rfl hs h₂.along (by grind) .nil)

theorem enumerators_yields :
    Yields tokens (enumerators g) s fun ns s' =>
      Row tokens s.mark.index ns s'.position := by
  unfold enumerators
  refine .loop hs (fun done s' => Leads tokens s s'
    ∧ Row tokens s.mark.index done.reverse s'.position) ?_ ⟨.refl hs, .nil⟩
  rintro done s₁ hs₁ ⟨h₁, hrow⟩
  refine .check hs₁ (.ite (fun _ => .pure hs₁ hrow) fun _ => ?_)
  refine (enumerator_yields hg hs₁).bind hs₁ fun n s₂ h₂ hn => ?_
  have h₂' := h₁.trans h₂
  have hrow' : Row tokens s.mark.index (n :: done).reverse s₂.position :=
    hrow.push hn.sound (by grind) (by grind) (by grind)
  refine .accept h₂.along (fun _ s₃ h₃ => ?_) fun _ => ?_
  · refine .pure h₃.along ⟨by grind, h₂'.trans h₃.toLeads, ?_⟩
    exact hrow'.mono (Nat.le_refl _) h₃.position
  · refine .check h₂.along (.ite (fun _ => ?_)
      fun _ => .failExpected h₂.along)
    exact .pure h₂.along ⟨by grind, h₂', hrow'⟩

omit hg in
theorem enumHead_yields :
    Yields tokens enumHead s fun _ s' => Moved s s' := by
  unfold enumHead
  refine .advance hs fun s₁ h₁ => ?_
  have name {s' : State} (h : Leads tokens s₁ s') :
      Yields tokens (do
        skipAttributes
        skipWhile fun t => t.isName || t.isOperator "::"
        if ← accept (·.isOperator ":") then
          skipWhile fun t =>
            t.isName || t.kind == .keyword || t.isOperator "::") s'
        fun _ s'' => Moved s s'' := by
    refine (skipAttributes_yields h.along).bind h.along fun _ s₂ h₂ _ => ?_
    refine (skipWhile_yields h₂.along (by grind)).bind h₂.along
      fun _ s₃ h₃ _ => ?_
    refine .accept h₃.along (fun _ s₄ h₄ => ?_) fun _ => ?_
    · refine (skipWhile_yields h₄.along (by grind)).mono h₄.along ?_
      grind
    · exact .pure h₃.along (by grind)
  have key {isClass : Bool} {s' : State} (h : Leads tokens s₁ s') :
      Yields tokens (do
        if !isClass then
          let _ ← accept (·.isKeyword "struct")
        skipAttributes
        skipWhile fun t => t.isName || t.isOperator "::"
        if ← accept (·.isOperator ":") then
          skipWhile fun t =>
            t.isName || t.kind == .keyword || t.isOperator "::") s'
        fun _ s'' => Moved s s'' := by
    refine .ite (fun _ => .accept h.along (fun _ s₂ h₂ => ?_) fun _ => ?_)
      fun _ => name h
    · exact name (h.trans h₂.toLeads)
    · exact name h
  exact .accept h₁.along (fun _ s₂ h₂ => key h₂.toLeads)
    fun _ => key (.refl h₁.along)

theorem enumSpecifier_yields (hend : s.peek.isEnd = false) :
    Yields tokens (enumSpecifier g) s (MadeSome tokens s) := by
  unfold enumSpecifier
  refine .mark hs ((enumHead_yields hs).bind hs fun _ s₁ h₁ hmoved => ?_)
  refine .accept h₁.along (fun _ s₂ h₂ => ?_) fun _ => ?_
  · refine (enumerators_yields hg h₂.along).bind h₂.along
      fun names s₃ h₃ hrow => ?_
    refine .expect h₃.along fun _ s₄ h₄ => ?_
    refine .node h₄.along (.pure h₄.along (.some ?_))
    exact .node _ rfl hs h₄.along (by grind)
      (hrow.mono (by grind) h₄.position)
  · exact .pure h₁.along ⟨nofun, hmoved hend⟩

-- =================================================== simple declarations

omit hg in
theorem declaratorEnd_yields :
    Yields tokens declaratorEnd s fun _ _ => True := by
  unfold declaratorEnd
  exact .check hs (.ite (fun _ => .pure hs trivial)
    fun _ => .failExpected hs)

/-- What a simple declaration that began at a state has come to at
another. -/
structure Walked (tokens : List Token) (s₀ : State) (w : Walk)
    (s : State) : Prop where
  leads : Leads tokens s₀ s
  row : Row tokens s₀.mark.index w.parts.reverse s.position

/-- What a round of a simple declaration comes to. -/
abbrev WalksOn (tokens : List Token) (s₀ s : State)
    (r : Round Walk Node) (s' : State) : Prop :=
  r.Sat (fun w => s.position < s'.position ∧ Walked tokens s₀ w s')
    (Made tokens s₀ · s')

omit hg hs

namespace Walked

variable {s₀ s₁ s₂ s' : State} {w : Walk} {n : Node}

theorem pass (h : Walked tokens s₀ w s) (h' : Leads tokens s s') :
    Walked tokens s₀ w s' :=
  ⟨h.leads.trans h', h.row.mono (Nat.le_refl _) h'.position⟩

/-- A part joins the walk. -/
theorem part (h : Walked tokens s₀ w s) (h₁ : Leads tokens s s₁)
    (h₂ : Leads tokens s₁ s₂) (hn : Made tokens s₁ n s₂) :
    Walked tokens s₀ { w with parts := n :: w.parts } s₂ := by
  refine ⟨(h.leads.trans h₁).trans h₂, ?_⟩
  have := h.leads
  exact h.row.push hn.sound (by grind) (by grind) hn.stop

/-- The walk ends with a node of all its parts. -/
theorem finish (h : Walked tokens s₀ w s) (hs₀ : s₀.Along tokens)
    (hmoved : s₀.mark.index < s.position) (kind : NodeKind)
    (hjump : (kind == .gotoStatement) = false) :
    Made tokens s₀ (s.node kind s₀.mark w.parts.reverse) s :=
  .node _ hjump hs₀ h.leads.along hmoved h.row

end Walked

section
variable {s₀ : State} {w : Walk} (hs₀ : s₀.Along tokens)
  (hw : Walked tokens s₀ w s)
include hg hs hs₀ hw

omit hg in
theorem function_yields (hmoved : s₀.mark.index < s.position) {s' : State} :
    Yields tokens (w.function s₀.mark) s (WalksOn tokens s₀ s') :=
  .node hs (.pure hs (hw.finish hs₀ hmoved _ rfl))

omit hg in
/-- The body of a function ends its definition. -/
theorem body_yields {p : Parser Node} {s' : State}
    (hp : Yields tokens p s (Made tokens s)) :
    Yields tokens (do
      let body ← p
      Walk.function { w with parts := body :: w.parts } s₀.mark) s
      (WalksOn tokens s₀ s') := by
  refine hp.bind hs fun body s₁ h₁ hbody => ?_
  have hw₁ := hw.part (.refl hs) h₁ hbody
  have := hw.leads
  exact function_yields h₁.along hs₀ hw₁ (by grind)

omit hg hs₀ in
/-- A part behind which another declarator or the end comes. -/
theorem lastPart_yields {p : Parser Node} {s' : State}
    (h : Leads tokens s' s)
    (hp : Yields tokens p s (Made tokens s)) :
    Yields tokens (do
      let part ← p
      declaratorEnd
      return w.add part) s (WalksOn tokens s₀ s') := by
  refine hp.bind hs fun part s₁ h₁ hpart => ?_
  refine (declaratorEnd_yields h₁.along).bind h₁.along fun _ s₂ h₂ _ => ?_
  refine .pure h₂.along ⟨by grind, ?_⟩
  exact (hw.part (.refl hs) h₁ hpart).pass h₂

theorem punctRound_yields (hkind : s.peek.kind = .punctuation) :
    Yields tokens (punctRound g s₀.mark w s.peek) s
      (WalksOn tokens s₀ s) := by
  have hend : s.peek.isEnd = false := by grind
  have hleads := hw.leads
  unfold punctRound
  refine .ite (fun _ => ?_) fun _ => .ite (fun _ => ?_) fun _ =>
    .ite (fun _ => ?_) fun _ => .ite (fun _ => .ite (fun _ => ?_)
      fun _ => ?_) fun _ => .ite (fun _ => ?_) fun _ => .fail hs
  · refine .advance hs fun s₁ h₁ => .node h₁.along (.pure h₁.along ?_)
    exact (hw.pass h₁.toLeads).finish hs₀ (by grind) _ rfl
  · refine (skipGroup_yields hs _).bind hs fun _ s₁ h₁ hmoved => ?_
    exact .pure h₁.along ⟨by grind, (hw.pass h₁).leads, (hw.pass h₁).row⟩
  · refine (skipGroup_yields hs _).bind hs fun _ s₁ h₁ hmoved => ?_
    exact .pure h₁.along ⟨by grind, hw.pass h₁⟩
  · exact body_yields hs hs₀ hw (block_yields hg hs)
  · exact lastPart_yields hs hw (.refl hs) (hg _ s hs)
  · refine .advance hs fun s₁ h₁ => .pure h₁.along ⟨by grind, ?_⟩
    exact ⟨(hw.pass h₁.toLeads).leads, (hw.pass h₁.toLeads).row⟩

theorem operatorRound_yields (hkind : s.peek.kind = .operator) :
    Yields tokens (operatorRound g s₀.mark w s.peek) s
      (WalksOn tokens s₀ s) := by
  have hend : s.peek.isEnd = false := by grind
  have hleads := hw.leads
  unfold operatorRound
  refine .ite (fun _ => ?_) fun _ => .ite (fun _ => ?_) fun _ =>
    .ite (fun _ => .ite (fun _ => ?_) fun _ => ?_) fun _ =>
    .ite (fun _ => ?_) fun _ => .fail hs
  · refine .advance hs fun s₁ h₁ => ?_
    have hw₁ := hw.pass h₁.toLeads
    have rest {isSpecial : Bool} {s' : State} (h : Leads tokens s₁ s') :
        Yields tokens (do
          if isSpecial then
            expectPunct ";" "after function declaration"
            w.function s₀.mark
          else
            let value ← initializer g
            declaratorEnd
            return w.add value) s' (WalksOn tokens s₀ s) := by
      refine .ite (fun _ => .expect h.along fun _ s₂ h₂ => ?_) fun _ => ?_
      · exact function_yields h₂.along hs₀ ((hw₁.pass h).pass h₂.toLeads)
          (by grind)
      · exact lastPart_yields h.along (hw₁.pass h) (h₁.toLeads.trans h)
          (initializer_yields hg h.along)
    refine .ite (fun _ => .accept h₁.along (fun _ s₂ h₂ => ?_) fun _ => ?_)
      fun _ => .question (fun _ => false) h₁.along (rest (.refl h₁.along))
    · exact rest h₂.toLeads
    · exact rest (.refl h₁.along)
  · refine (skipTemplateArguments_yields hs).bind hs
      fun _ s₁ h₁ hmoved => ?_
    exact .pure h₁.along ⟨by grind, hw.pass h₁⟩
  · refine (constructorInitializer_yields hg hs).bind hs
      fun members s₁ h₁ hmembers => ?_
    refine .check h₁.along (.ite (fun _ => ?_)
      fun _ => .failExpected h₁.along)
    exact .pure h₁.along ⟨by grind, hw.part (.refl hs) h₁ hmembers⟩
  · refine .advance hs fun s₁ h₁ => ?_
    exact lastPart_yields h₁.along (hw.pass h₁.toLeads) h₁.toLeads
      (hg _ s₁ h₁.along)
  · refine .advance hs fun s₁ h₁ => .pure h₁.along ⟨by grind, ?_⟩
    exact hw.pass h₁.toLeads

omit hg hs₀ in
/-- A part that may be left out joins the walk if it is there. -/
theorem addSome_yields {p : Parser (Option Node)}
    (hp : Yields tokens p s (MadeSome tokens s)) :
    Yields tokens (do return w.addSome (← p)) s (WalksOn tokens s₀ s) := by
  refine hp.bind hs fun part s₁ h₁ hpart => .pure h₁.along ?_
  have hmoved := hpart.2
  cases part with
  | none => exact ⟨by grind, hw.pass h₁⟩
  | some n => exact ⟨by grind, hw.part (.refl hs) h₁ (hpart.1 n rfl)⟩

theorem keywordRound_yields (hkind : s.peek.kind = .keyword) :
    Yields tokens (keywordRound g s₀.mark w s.peek) s
      (WalksOn tokens s₀ s) := by
  have hend : s.peek.isEnd = false := by grind
  unfold keywordRound
  have passing {p : Parser Unit}
      (hp : Yields tokens p s fun _ s' => Moved s s') :
      Yields tokens (do p; return .again w) s (WalksOn tokens s₀ s) := by
    refine hp.bind hs fun _ s₁ h₁ hmoved => ?_
    exact .pure h₁.along ⟨by grind, hw.pass h₁⟩
  refine .ite (fun _ => addSome_yields hs hw (classSpecifier_yields hg hs hend))
    fun _ => .ite
      (fun _ => addSome_yields hs hw (enumSpecifier_yields hg hs hend))
    fun _ => .ite (fun _ => passing (operatorFunctionName_yields hs))
    fun _ => .ite (fun _ => body_yields hs hs₀ hw (tryBlock_yields hg hs hend))
    fun _ => .ite (fun _ => passing (requiresClause_yields hs))
    fun _ => .ite (fun _ => ?_) fun _ => .ite (fun _ => .fail hs)
    fun _ => passing ((Yields.read hs).mono hs fun _ _ _ h => h.moved)
  refine .advance hs fun s₁ h₁ => .check h₁.along (.ite (fun _ => ?_)
    fun _ => .pure h₁.along ⟨by grind, hw.pass h₁.toLeads⟩)
  refine (skipGroup_yields h₁.along _).bind h₁.along fun _ s₂ h₂ _ => ?_
  exact .pure h₂.along ⟨by grind, (hw.pass h₁.toLeads).pass h₂⟩

theorem simpleRound_yields :
    Yields tokens (simpleRound g s₀.mark w) s (WalksOn tokens s₀ s) := by
  unfold simpleRound
  refine .peek hs ?_
  cases hkind : s.peek.kind with
  | endOfFile => exact .failExpected hs
  | punctuation => exact punctRound_yields hg hs hs₀ hw hkind
  | operator => exact operatorRound_yields hg hs hs₀ hw hkind
  | keyword => exact keywordRound_yields hg hs hs₀ hw hkind
  | identifier =>
    refine .advance hs fun s₁ h₁ => .pure h₁.along ⟨by grind, ?_⟩
    exact hw.pass h₁.toLeads
  | _ => exact .fail hs

end

include hg hs

theorem simpleDeclaration_yields :
    Yields tokens (simpleDeclaration g) s (Made tokens s) := by
  unfold simpleDeclaration
  refine .mark hs ?_
  refine .loop hs (fun w s' => Walked tokens s w s') ?_ ⟨.refl hs, .nil⟩
  exact fun w s₁ hs₁ hw => simpleRound_yields hg hs₁ hs hw

-- ==================================================== other declarations

theorem declarationsInBraces_yields (context : String) :
    Yields tokens (declarationsInBraces g context) s fun ns s' =>
      Row tokens s.position ns s'.position := by
  unfold declarationsInBraces
  refine (Yields.sequence (hg .declaration) _ _ hs).bind hs
    fun items s₁ h₁ hrow => ?_
  refine .expect h₁.along fun _ s₂ h₂ => .pure h₂.along ?_
  exact hrow.mono (Nat.le_refl _) h₂.position

theorem namespaceDefinition_yields (hend : s.peek.isEnd = false) :
    Yields tokens (namespaceDefinition g) s (Made tokens s) := by
  unfold namespaceDefinition
  have named {s' : State} (h : Leads tokens s s')
      (hmoved : s.mark.index < s'.advance.position) :
      Yields tokens (do
        advance
        skipAttributes
        skipWhile fun t =>
          t.isName || t.isOperator "::" || t.isKeyword "inline"
        if ← accept (·.isOperator "=") then
          skipToSemicolon "after namespace alias"
          finish .namespaceAlias s.mark []
        else
          skipAttributes
          expectPunct "\x7b" "after namespace name"
          let items ← declarationsInBraces g "after namespace body"
          finish .namespaceDefinition s.mark items) s' (Made tokens s) := by
    refine .advance h.along fun s₁ h₁ => ?_
    refine (skipAttributes_yields h₁.along).bind h₁.along
      fun _ s₂ h₂ _ => ?_
    refine (skipWhile_yields h₂.along (by grind)).bind h₂.along
      fun _ s₃ h₃ _ => ?_
    refine .accept h₃.along (fun _ s₄ h₄ => ?_) fun _ => ?_
    · refine (skipToSemicolon_yields h₄.along _).bind h₄.along
        fun _ s₅ h₅ _ => ?_
      exact .finish h₅.along (.node _ rfl hs h₅.along (by grind) .nil)
    · refine (skipAttributes_yields h₃.along).bind h₃.along
        fun _ s₄ h₄ _ => ?_
      refine .expect h₄.along fun _ s₅ h₅ => ?_
      refine (declarationsInBraces_yields hg h₅.along _).bind h₅.along
        fun items s₆ h₆ hrow => ?_
      refine .finish h₆.along (.node _ rfl hs h₆.along (by grind) ?_)
      exact hrow.mono (by grind) (Nat.le_refl _)
  refine .mark hs (.accept hs (fun _ s₁ h₁ => ?_) fun _ => ?_)
  · refine named h₁.toLeads ?_
    have := h₁.along.reads.position
    grind
  · refine named (.refl hs) (hs.reads.moved hend)

omit hg in
theorem usingDeclaration_yields :
    Yields tokens usingDeclaration s (Made tokens s) := by
  unfold usingDeclaration
  have toSemicolon {kind : NodeKind} {context : String} {s' : State}
      (hjump : (kind == .gotoStatement) = false)
      (h : Leads tokens s s') :
      Yields tokens (do
        skipToSemicolon context
        finish kind s.mark []) s' (Made tokens s) := by
    refine (skipToSemicolon_yields h.along _).bind h.along
      fun _ s₁ h₁ hmoved => ?_
    exact .finish h₁.along
      (.node _ hjump hs h₁.along (by grind) .nil)
  refine .mark hs (.advance hs fun s₁ h₁ => .peekAt h₁.along
    (.check h₁.along ?_))
  refine .ite (fun _ => toSemicolon rfl h₁.toLeads) fun _ =>
    .check h₁.along (.ite (fun _ => ?_) fun _ => toSemicolon rfl h₁.toLeads)
  refine .advance h₁.along fun s₂ h₂ => ?_
  refine (skipAttributes_yields h₂.along).bind h₂.along fun _ s₃ h₃ _ => ?_
  refine .expect h₃.along fun _ s₄ h₄ => .check h₄.along ?_
  refine .ite (fun _ => .failExpected h₄.along) fun _ => toSemicolon rfl ?_
  exact ((h₁.toLeads.trans h₂.toLeads).trans h₃).trans h₄.toLeads

theorem templateDeclaration_yields :
    Yields tokens (templateDeclaration g) s (Made tokens s) := by
  unfold templateDeclaration
  have declared {s' : State} (h : Leads tokens s s') :
      Yields tokens (do
        let declaration ← g.parse .declaration
        finish .templateDeclaration s.mark [declaration]) s'
        (Made tokens s) := by
    refine (hg _ s' h.along).bind h.along fun n s₁ h₁ hn => ?_
    exact .finish h₁.along (.node _ rfl hs h₁.along (by grind) (by grind))
  have constrained {s' : State} (h : Leads tokens s s') :
      Yields tokens (do
        if ← check (·.isKeyword "requires") then requiresClause
        let declaration ← g.parse .declaration
        finish .templateDeclaration s.mark [declaration]) s'
        (Made tokens s) := by
    refine .check h.along (.ite (fun _ => ?_) fun _ => declared h)
    refine (requiresClause_yields h.along).bind h.along fun _ s₁ h₁ _ => ?_
    exact declared (h.trans h₁)
  refine .mark hs (.advance hs fun s₁ h₁ => .check h₁.along
    (.ite (fun _ => ?_) fun _ => constrained h₁.toLeads))
  refine (skipTemplateArguments_yields h₁.along).bind h₁.along
    fun _ s₂ h₂ _ => ?_
  exact constrained (h₁.toLeads.trans h₂)

theorem linkageSpecification_yields :
    Yields tokens (linkageSpecification g) s (Made tokens s) := by
  unfold linkageSpecification
  refine .mark hs (.advance hs fun s₁ h₁ => .advance h₁.along
    fun s₂ h₂ => .accept h₂.along (fun _ s₃ h₃ => ?_) fun _ => ?_)
  · refine (declarationsInBraces_yields hg h₃.along _).bind h₃.along
      fun items s₄ h₄ hrow => ?_
    refine .finish h₄.along (.node _ rfl hs h₄.along (by grind) ?_)
    exact hrow.mono (by grind) (Nat.le_refl _)
  · refine (hg _ s₂ h₂.along).bind h₂.along fun n s₃ h₃ hn => ?_
    exact .finish h₃.along (.node _ rfl hs h₃.along (by grind) (by grind))

theorem staticAssertion_yields :
    Yields tokens (staticAssertion g) s (Made tokens s) := by
  unfold staticAssertion
  refine .mark hs (.advance hs fun s₁ h₁ => .expect h₁.along
    fun _ s₂ h₂ => ?_)
  refine (hg _ s₂ h₂.along).bind h₂.along fun condition s₃ h₃ hcondition => ?_
  have h₀ := (h₁.toLeads.trans h₂.toLeads).trans h₃
  have ending {children : List Node} {s' : State} (h : Leads tokens s₃ s')
      (hrow : Row tokens s.mark.index children s'.position) :
      Yields tokens (do
        expectPunct ")" "after static assertion"
        expectPunct ";" "after static assertion"
        finish .staticAssertDeclaration s.mark children) s'
        (Made tokens s) := by
    refine .expect h.along fun _ s₄ h₄ => .expect h₄.along fun _ s₅ h₅ => ?_
    refine .finish h₅.along (.node _ rfl hs h₅.along (by grind) ?_)
    exact hrow.mono (Nat.le_refl _) (h₄.position.trans h₅.position)
  refine .accept h₃.along (fun _ s₄ h₄ => ?_) fun _ => ?_
  · refine (hg _ s₄ h₄.along).bind h₄.along fun message s₅ h₅ hmessage => ?_
    exact ending (h₄.toLeads.trans h₅) (by grind)
  · exact ending (.refl h₃.along) (by grind)

omit hg in
theorem asmDeclaration_yields :
    Yields tokens asmDeclaration s (Made tokens s) := by
  unfold asmDeclaration
  refine .mark hs (.advance hs fun s₁ h₁ => ?_)
  refine (skipWhile_yields h₁.along (by grind)).bind h₁.along
    fun _ s₂ h₂ _ => .check h₂.along (.ite (fun _ => ?_)
      fun _ => .failExpected h₂.along)
  refine (skipGroup_yields h₂.along _).bind h₂.along fun _ s₃ h₃ _ => ?_
  refine .expect h₃.along fun _ s₄ h₄ => .finish h₄.along ?_
  exact .node _ rfl hs h₄.along (by grind) .nil

theorem declaration_yields :
    Yields tokens (declaration g) s (Made tokens s) := by
  unfold declaration
  refine .peek hs (.peekAt hs ?_)
  refine .ite (fun ht => ?_) fun _ =>
    .ite (fun ht => namespaceDefinition_yields hg hs (by grind)) fun _ =>
    .ite (fun _ => usingDeclaration_yields hs) fun _ =>
    .ite (fun _ => templateDeclaration_yields hg hs) fun _ =>
    .ite (fun _ => ?_) fun _ =>
    .ite (fun _ => linkageSpecification_yields hg hs) fun _ =>
    .ite (fun _ => staticAssertion_yields hg hs) fun _ =>
    .ite (fun _ => asmDeclaration_yields hs)
      fun _ => simpleDeclaration_yields hg hs
  · exact .mark hs (leaf_yields hs _ rfl (by grind))
  · refine .advance hs fun s₁ h₁ => ?_
    refine (templateDeclaration_yields hg h₁.along).mono h₁.along ?_
    exact fun n s₂ h₂ hn => ⟨hn.sound, h₁.mark.trans hn.first, hn.stop⟩

end FrontEnd.Grammar
