/-
The course of the rules that pass over tokens, and of those of names. None
of them builds a node that holds others; what matters is that they read a
token where one comes.
-/
import FrontEnd.Proofs.Course.Sequence

namespace FrontEnd.Grammar

variable {tokens : List Token} {s : State} (hs : s.Along tokens)
include hs

-- ================================================================= loops

/-- Tokens that are as asked for are read as long as they come. -/
theorem skipWhile_yields {q : Token → Bool}
    (hq : ∀ t : Token, q t = true → t.isEnd = false) :
    Yields tokens (skipWhile q) s fun _ s' =>
      q s.peek = true → s.mark.index < s'.position := by
  unfold skipWhile
  refine .loop hs (fun _ s' => s' = s ∨ s.mark.index < s'.position) ?_
    (.inl rfl)
  intro _ s₁ hs₁ h₁
  refine .accept hs₁ (fun hq₁ s₂ h₂ => ?_) fun hq₁ => ?_
  · exact .pure h₂.along (by grind)
  · exact .pure hs₁ (by grind)

/-- Items with commas between them, each of them a node. -/
theorem commaSeparated_yields {item : Parser Node}
    (hitem : ∀ s, s.Along tokens → Yields tokens item s (Made tokens s)) :
    Yields tokens (commaSeparated item) s fun ns s' =>
      Row tokens s.mark.index ns s'.position ∧ s.mark.index < s'.position := by
  unfold commaSeparated
  refine .loop hs (fun done s' => Leads tokens s s'
    ∧ Row tokens s.mark.index done.reverse s'.position) ?_ ⟨.refl hs, .nil⟩
  rintro done s₁ hs₁ ⟨h₁, hrow⟩
  refine (hitem s₁ hs₁).bind hs₁ fun n s₂ h₂ hn => ?_
  have hrow' : Row tokens s.mark.index (n :: done).reverse s₂.position :=
    hrow.push hn.sound (by grind) (by grind) (by grind)
  refine .accept h₂.along (fun hq s₃ h₃ => ?_) fun hq => ?_
  · refine .pure h₃.along ⟨by grind, (h₁.trans h₂).trans h₃.toLeads, ?_⟩
    exact hrow'.mono (Nat.le_refl _) h₃.position
  · exact .pure h₂.along ⟨hrow', by grind⟩

-- ================================================================ groups

theorem skipGroup_yields (context : String) :
    Yields tokens (skipGroup context) s fun _ s' => Moved s s' := by
  unfold skipGroup
  refine .peek hs (.openGroups hs (.advance hs fun s₁ h₁ => ?_))
  refine .loop h₁.along (fun _ s' => Leads tokens s₁ s') ?_
    (.refl h₁.along)
  intro _ s₂ hs₂ h₂
  refine .openGroups hs₂ (.ite (fun _ => ?_) fun _ => ?_)
  · exact .pure hs₂ (by grind)
  · refine .check hs₂ (.ite (fun _ => .failExpected hs₂) fun hend => ?_)
    refine .advance hs₂ fun s₃ h₃ => .pure h₃.along ⟨?_, ?_⟩
    · grind
    · exact h₂.trans h₃.toLeads

theorem skipTemplateArguments_yields :
    Yields tokens skipTemplateArguments s fun _ s' => Moved s s' := by
  unfold skipTemplateArguments
  refine .advance hs fun s₁ h₁ => ?_
  refine .loop h₁.along (fun _ s' => Leads tokens s₁ s') ?_
    (.refl h₁.along)
  intro angles s₂ hs₂ h₂
  refine .peek hs₂ (.ite (fun _ => ?_) fun _ => .ite (fun hopen => ?_)
    fun _ => .ite (fun _ => .failExpected hs₂) fun hnext => ?_)
  · exact .pure hs₂ (by grind)
  · refine (skipGroup_yields hs₂ _).bind hs₂ fun _ s₃ h₃ hmoved => ?_
    exact .pure h₃.along ⟨by grind, h₂.trans h₃⟩
  · refine .advance hs₂ fun s₃ h₃ => .pure h₃.along ⟨?_, ?_⟩
    · grind
    · exact h₂.trans h₃.toLeads

theorem skipToSemicolon_yields (context : String) :
    Yields tokens (skipToSemicolon context) s fun _ s' =>
      s.mark.index < s'.position := by
  unfold skipToSemicolon
  refine .loop hs (fun _ s' => Leads tokens s s') ?_ (.refl hs)
  intro _ s₁ hs₁ h₁
  refine .peek hs₁ (.ite (fun hstop => ?_) fun _ => .ite (fun hopen => ?_)
    fun _ => .ite (fun _ => .failExpected hs₁) fun hnext => ?_)
  · exact .advance hs₁ fun s₂ h₂ => .pure h₂.along (by grind)
  · refine (skipGroup_yields hs₁ _).bind hs₁ fun _ s₂ h₂ hmoved => ?_
    exact .pure h₂.along ⟨by grind, h₁.trans h₂⟩
  · refine .advance hs₁ fun s₂ h₂ => .pure h₂.along ⟨?_, ?_⟩
    · grind
    · exact h₁.trans h₂.toLeads

theorem skipAttributes_yields :
    Yields tokens skipAttributes s fun _ _ => True := by
  unfold skipAttributes
  refine .loop hs (fun _ _ => True) ?_ trivial
  intro _ s₁ hs₁ _
  refine .check hs₁ (.peekAt hs₁ (.ite (fun hopen => ?_) fun _ => ?_))
  · refine (skipGroup_yields hs₁ _).bind hs₁ fun _ s₂ h₂ hmoved => ?_
    exact .pure h₂.along (by grind)
  · exact .pure hs₁ trivial

-- ================================================================= names

theorem operatorName_yields :
    Yields tokens operatorName s fun _ s' => Moved s s' := by
  unfold operatorName
  refine .advance hs fun s₁ h₁ => ?_
  have hs₁ := h₁.along
  have one : Yields tokens advance s₁ fun _ s' => Moved s s' :=
    (Yields.read hs₁).mono hs₁ (by grind)
  refine .peek hs₁ (.peekAt hs₁ ?_)
  refine .ite (fun _ => ?_) fun _ => .ite (fun _ => one) fun _ =>
    .ite (fun _ => ?_) fun _ => .ite (fun _ => ?_)
      fun _ => .failExpected hs₁
  · refine .advance hs₁ fun s₂ h₂ => ?_
    exact (Yields.read h₂.along).mono h₂.along (by grind)
  · refine .advance hs₁ fun s₂ h₂ => ?_
    exact (Yields.expected h₂.along).mono h₂.along (by grind)
  · refine .advance hs₁ fun s₂ h₂ => ?_
    exact (skipWhile_yields h₂.along (by grind)).mono h₂.along (by grind)

theorem nameTail_yields : Yields tokens nameTail s fun more s' =>
    more = true → s.position < s'.position := by
  have tail {s' : State} (h : Leads tokens s s') :
      Yields tokens (accept (·.isOperator "::")) s' fun more s' =>
        more = true → s.position < s'.position := by
    rw [← bind_pure (accept _)]
    refine .accept h.along (fun hq s₂ h₂ => ?_) fun _ => ?_
    · exact .pure h₂.along (by grind)
    · exact .pure h.along nofun
  unfold nameTail
  refine .check hs (.ahead hs (.ite (fun _ => ?_) fun _ => tail (.refl hs)))
  exact (skipTemplateArguments_yields hs).bind hs fun _ s₁ h₁ _ => tail h₁

theorem nameRound_yields : Yields tokens nameRound s fun _ s' =>
    s.mark.index < s'.position := by
  unfold nameRound
  have tail {s' : State} (h : Leads tokens s s')
      (hmoved : s.mark.index < s'.position) :
      Yields tokens (do
        if ← nameTail then return .again () else return .done ()) s'
        fun (_ : Round Unit Unit) s' => s.mark.index < s'.position := by
    refine (nameTail_yields h.along).bind h.along fun more s₂ h₂ _ => ?_
    exact .ite (fun _ => .pure h₂.along (by grind))
      fun _ => .pure h₂.along (by grind)
  refine .peek hs (.ite (fun ht => ?_) fun _ => .ite (fun ht => ?_)
    fun _ => .ite (fun ht => ?_) fun _ => .ite (fun ht => ?_) fun _ => ?_)
  · exact .advance hs fun s₁ h₁ => .pure h₁.along (by grind)
  · exact .advance hs fun s₁ h₁ => tail h₁.toLeads (by grind)
  · refine (operatorName_yields hs).bind hs fun _ s₁ h₁ hmoved => ?_
    exact tail h₁ (by grind)
  · refine .advance hs fun s₁ h₁ => ?_
    refine .expect h₁.along fun _ s₂ h₂ => ?_
    exact tail (h₁.toLeads.trans h₂.toLeads) (by grind)
  · exact (Yields.failExpected hs (P := fun _ _ => False)).bind hs nofun

theorem idExpression_yields :
    Yields tokens idExpression s (Made tokens s) := by
  unfold idExpression
  refine .mark hs ?_
  have name {s' : State} (h : Leads tokens s s') :
      Yields tokens (do
        loop (fun _ => nameRound) ()
        finish .idExpression s.mark []) s' (Made tokens s) := by
    have hloop : Yields tokens (loop (fun _ => nameRound) ()) s'
        fun _ s'' => s'.mark.index < s''.position := by
      refine .loop h.along (fun _ s'' => Leads tokens s' s'') ?_
        (.refl h.along)
      intro _ s₁ hs₁ h₁
      refine (nameRound_yields hs₁).mono hs₁ fun r s₂ h₂ hmoved => ?_
      cases r with
      | again _ => exact ⟨by grind, h₁.trans h₂⟩
      | done _ => exact lt_of_le_of_lt h₁.mark hmoved
    refine hloop.bind h.along fun _ s₂ h₂ hmoved => ?_
    exact .finish h₂.along (.node _ rfl hs h₂.along (by grind) .nil)
  exact .accept hs (fun _ s₁ h₁ => name h₁.toLeads)
    fun _ => name (.refl hs)

end FrontEnd.Grammar
