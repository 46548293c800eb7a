/-
A token list that is read without an error, behind whatever was read or
skipped first.

A strict reading of the list is the same further on, displaced
(`gather_displaces`). It has no error there either, and a tolerant one from
the same state is the same as long as that is so (`gather_agrees`). So a
tolerant reading that comes to the list reads it as by itself, whether or
not it is in the middle of a recovery, and reports nothing
(`gather_onward`).
-/
import FrontEnd.Proofs.Lockstep.Concatenation

namespace FrontEnd.Grammar

open EStateM (Result)

-- ============================================================ the relations

/-- A strict reading first, and a tolerant one of the same tokens from the
same state second. Behind an error of the first one nothing is known of the
second; in front of it nothing is reported. -/
def agreeing (errors : Array SyntaxError) : Lockstep where
  first := .strict
  second := .tolerant
  token := Eq
  mark := Eq
  node := Eq
  nodes := Eq
  error := Eq
  state s t := s = t ∧ s.errors = errors
  since _ _ _ _ := True
  since_refl _ _ := trivial
  since_trans _ _ := trivial
  apart r _ := ∃ e s, r = .error e s
  apart_after f hf := by
    rintro ⟨e, s, rfl⟩
    exact ⟨e, s, hf e s⟩

variable {errors : Array SyntaxError}

-- ================================================================ sequences

section

variable {p q : Parser Node} (hitem : (agreeing errors).InStep Eq p q)
include hitem

/-- Where a strict sequence has no error, a tolerant one is the same. -/
theorem gather_agrees (closer : Option String) (bound : Nat)
    (done : List Node) {s : State} (hs : s.errors = errors)
    (hclean : (gather .strict closer p bound done s).error = none) :
    gather .tolerant closer q bound done s
        = gather .strict closer p bound done s
      ∧ (gather .strict closer p bound done s).state.errors = errors := by
  induction done, s using gather_induction bound with
  | step done s ih =>
    have htaken : (s.takeDirectives done).2.errors = errors := hs
    have hboth := hitem.both ⟨rfl, htaken⟩
    rw [gather_eq] at hclean ⊢
    rw [gather_eq]
    dsimp only at hclean ⊢
    generalize (s.takeDirectives done).2 = s₁ at *
    generalize (s.takeDirectives done).1 = done₁ at *
    split
    case isTrue => exact ⟨rfl, htaken⟩
    case isFalse hgoes =>
      rw [if_neg hgoes] at hclean
      generalize p s₁ = r at hboth hclean
      generalize q s₁ = r' at hboth
      cases hboth with
      | @ok a _ s₂ _ hnode hafter _ =>
        obtain ⟨rfl, hafter⟩ := hafter
        subst hnode
        dsimp only [proceed] at hclean ⊢
        have herrors : (s₂.settle.pass s₁.position).errors = errors := by
          rw [State.pass_errors, State.settle_errors, hafter]
        by_cases hgo : s.position < (s₂.settle.pass s₁.position).position
            ∧ (s₂.settle.pass s₁.position).position ≤ bound
        · rw [if_pos hgo] at hclean ⊢
          rw [if_pos hgo]
          exact ih (a :: done₁) _ hgo.1 hgo.2 herrors hclean
        · rw [if_neg hgo, if_neg hgo]
          exact ⟨rfl, herrors⟩
      | error he hafter => cases hclean
      | part halone =>
        cases halone with
        | ok _ happart | error happart =>
          obtain ⟨e, s₂, rfl⟩ := happart
          cases hclean

theorem sequence_agrees (closer : String) : (agreeing errors).InStep Eq
    (sequence .strict closer p) (sequence .tolerant closer q) where
  both {s t} h := by
    obtain ⟨rfl, hs⟩ := h
    have hgather := gather_agrees hitem (some closer) s.size [] hs
    unfold sequence
    dsimp only
    generalize gather .strict (some closer) p s.size [] s = r at *
    obtain ⟨items, s', error⟩ := r
    cases error with
    | none =>
      obtain ⟨heq, herrors⟩ := hgather rfl
      rw [heq]
      exact .ok rfl ⟨rfl, herrors⟩ trivial
    | some e =>
      refine .part ?_
      cases (gather .tolerant (some closer) q s.size [] s).error with
      | none => exact .ok rfl ⟨e, s', rfl⟩
      | some e' => exact .error ⟨e, s', rfl⟩
  alone {ρ r t} h := by
    unfold sequence
    dsimp only
    cases (gather .tolerant (some closer) q t.size [] t).error with
    | none => exact .ok rfl h
    | some e => exact .error h

end

theorem expectPunct_agrees (value context : String) :
    (agreeing errors).InStep Eq (expectPunct value context)
      (expectPunct value context) where
  both {s t} h := by
    obtain ⟨rfl, hs⟩ := h
    unfold expectPunct expect
    dsimp only
    split
    · exact .ok rfl ⟨rfl, s.advance_errors.trans hs⟩ trivial
    · exact .error rfl ⟨rfl, hs⟩
  alone {ρ r t} h := by
    unfold expectPunct expect
    dsimp only
    split
    · exact .ok rfl h
    · exact .error h

theorem agreeing_lawful (errors : Array SyntaxError) :
    (agreeing errors).Lawful where
  alike h := h ▸ .refl _
  token_refl _ := rfl
  kind h := congrArg Node.kind h
  retag _ _ h := h ▸ rfl
  nodes h := by
    show _ = _
    rw [← List.forall₂_eq_eq_eq]
    exact h
  peek h := h.1 ▸ rfl
  next h _ := h.1 ▸ rfl
  arguments _ h := h.1 ▸ rfl
  cast h _ := h.1 ▸ rfl
  declaration h := h.1 ▸ rfl
  label h := h.1 ▸ rfl
  moved h h' _ := h.1 ▸ h'.1 ▸ Iff.rfl
  within h h' := h.1 ▸ h'.1 ▸ Iff.rfl
  mark h := h.1 ▸ rfl
  advance {s t} h := .inl
    ⟨⟨h.1 ▸ rfl, s.advance_errors.trans h.2⟩, trivial⟩
  node _ _ h hm hs := h.1 ▸ hm ▸ hs ▸ rfl
  error _ h ht := h.1 ▸ ht ▸ rfl
  enclosed closer context h :=
    .bindEq (sequence_agrees h closer) fun _ =>
      .andThen (expectPunct_agrees closer context) (.pure rfl)
  apart_advance h := h
  apart_mark _ := ⟨_, rfl⟩
  apart_node _ _ _ _ _ := ⟨_, rfl⟩

instance agreeing_spelledAlike (errors : Array SyntaxError) :
    (agreeing errors).SpelledAlike :=
  Lockstep.spelledAlike_of_eq (agreeing_lawful errors) id

-- ============================================================== declarations

/-- Declarations that are read without an error by themselves are read the
same from any state that comes to them, and nothing is reported. -/
theorem gather_onward {X : List Token} {s : State} {offset : Nat}
    (hrest : s.rest = X) (hposition : s.position = offset)
    (hsize : s.size = X.length + offset)
    (hclean : (declarations X [] (.start X)).error = none)
    (done : List Node) :
    ∃ s', gather .tolerant none (parse .tolerant maxNesting .declaration)
        s.size done s
      = ⟨done.reverse ++ (declarations X [] (.start X)).items.map
          (Node.displace offset s.recovered), s', none⟩
      ∧ s'.errors = s.errors := by
  have hdisplaced : Displaced offset s.recovered (.start X) s :=
    ⟨hrest, hposition.trans (Nat.zero_add _).symm, hsize, rfl⟩
  have hfurther : (displacing .strict offset s.recovered).InStep
      (fun a b => b = a.displace offset s.recovered)
      (parse .strict maxNesting .declaration)
      (parse .strict maxNesting .declaration) :=
    Lockstep.parse_inStep (displacing_lawful _ _ _) maxNesting .declaration
  have hsame : (agreeing s.errors).InStep Eq
      (parse .strict maxNesting .declaration)
      (parse .tolerant maxNesting .declaration) :=
    Lockstep.parse_inStep (agreeing_lawful _) maxNesting .declaration
  have hdisplaces := gather_displaces hfurther none X.length done []
    hdisplaced
  have hbehind : behind offset s.recovered done [] = done := rfl
  rw [hbehind, ← hsize] at hdisplaces
  rcases hdisplaces with ⟨hitems, herror, -⟩ | ⟨herror, -⟩
  · replace herror := herror.trans hclean
    obtain ⟨hagrees, herrors⟩ :=
      gather_agrees hsame none s.size done rfl herror
    rw [hagrees]
    generalize gather .strict none _ s.size done s = r at *
    obtain ⟨items, s', error⟩ := r
    obtain rfl : error = none := herror
    obtain rfl : items = _ := hitems
    exact ⟨s', rfl, herrors⟩
  · exact absurd hclean herror

-- ==================================================================== units

/-- A tolerant reading of tokens in which a strict one finds no error is the
same. -/
theorem ofTokens_agrees {tokens : List Token}
    (hclean : (declarations tokens [] (.start tokens)).error = none) :
    ParseOutcome.ofTokens .tolerant tokens
      = ParseOutcome.ofTokens .strict tokens := by
  have hsame : (agreeing #[]).InStep Eq
      (parse .strict maxNesting .declaration)
      (parse .tolerant maxNesting .declaration) :=
    Lockstep.parse_inStep (agreeing_lawful _) maxNesting .declaration
  obtain ⟨hagrees, -⟩ :=
    gather_agrees hsame none tokens.length [] rfl hclean
  unfold ParseOutcome.ofTokens
  rw [hagrees]

section

variable {tokens : List Token}
  (hdirective : tokens.head?.any Token.isDirective = false)
include hdirective

theorem takeDirectives_start :
    (State.start tokens).takeDirectives [] = ([], .start tokens) := by
  unfold State.takeDirectives State.start
  cases tokens with
  | nil => rfl
  | cons t ts =>
    have ht : t.isDirective = false := hdirective
    rw [directives, if_neg (by simp [ht])]

variable (hend : (State.start tokens).peek.isEnd = false)
include hend

/-- The first pass of a unit, if neither a directive nor the end comes
first. -/
theorem gather_start (item : Parser Node) (bound : Nat) :
    gather .tolerant none item bound [] (.start tokens)
      = match item (.start tokens) with
        | .ok node after => proceed .tolerant none item bound 0 [node]
          (after.settle.pass 0)
        | .error e after => proceed .tolerant none item bound 0 []
          ((after.recover 0 e).pass 0) := by
  rw [gather_eq, takeDirectives_start hdirective]
  dsimp only
  rw [if_neg (by simp [endsSequence, hend])]
  cases item (.start tokens) <;> rfl

/-- A strict reading gives up at an error in the first declaration. -/
theorem strict_unit_error {e : SyntaxError} {after : State}
    (hparse : parse .strict maxNesting .declaration (.start tokens)
      = .error e after) :
    (ParseOutcome.ofTokens .strict tokens).errors = [e]
      ∧ (ParseOutcome.ofTokens .strict tokens).phase = .failed := by
  have hstart := takeDirectives_start hdirective
  have hread : declarations tokens [] (.start tokens)
      = ⟨[], after, some e⟩ := by
    rw [declarations_error (by rw [hstart]; exact hend)
      (by rw [hstart]; exact hparse), hstart]
    rfl
  have hsound := declarations_clean tokens
  rw [hread] at hsound
  have herrors : after.errors = #[] := hsound.errors
  unfold ParseOutcome.ofTokens
  unfold declarations at hread
  rw [hread]
  simp [herrors]

end

/-- A state in front of the tokens `X`, so many tokens into a unit. -/
structure Onto (X : List Token) (offset : Nat) (s : State) : Prop where
  rest : s.rest = X
  position : s.position = offset
  size : s.size = X.length + offset
  moved : 0 < offset

section

variable {tokens X : List Token} {offset : Nat} {s : State}
  (hlength : tokens.length = X.length + offset)
  (hclean : (declarations X [] (.start X)).error = none)
include hlength hclean

/-- What a unit comes to whose first pass leads to clean tokens. -/
theorem unit_onward (done : List Node) (hs : Onto X offset s)
    (hpass : gather .tolerant none (parse .tolerant maxNesting .declaration)
        tokens.length [] (.start tokens)
      = proceed .tolerant none (parse .tolerant maxNesting .declaration)
        tokens.length 0 done s) :
    (ParseOutcome.ofTokens .tolerant tokens).errors = s.errors.toList
      ∧ (ParseOutcome.ofTokens .tolerant tokens).tree.children
        = done.reverse ++ (declarations X [] (.start X)).items.map
          (Node.displace offset s.recovered) := by
  obtain ⟨s', hgather, herrors⟩ :=
    gather_onward hs.rest hs.position hs.size hclean done
  have hmoved := hs.moved
  have hwithin : 0 < s.position ∧ s.position ≤ tokens.length := by
    rw [hs.position, hlength]
    omega
  rw [hs.size, ← hlength] at hgather
  rw [proceed, if_pos hwithin, hgather] at hpass
  unfold ParseOutcome.ofTokens
  dsimp only
  rw [hpass]
  exact ⟨by simp [herrors], rfl⟩

variable (hdirective : tokens.head?.any Token.isDirective = false)
  (hend : (State.start tokens).peek.isEnd = false)

include hdirective hend

/-- Behind a first declaration that is read. -/
theorem unit_item {node : Node} {after : State}
    (hparse : parse .tolerant maxNesting .declaration (.start tokens)
      = .ok node after)
    (hnormal : after.phase = .normal) (hafter : Onto X offset after) :
    (ParseOutcome.ofTokens .tolerant tokens).errors = after.errors.toList
      ∧ (ParseOutcome.ofTokens .tolerant tokens).tree.children
        = node :: (declarations X [] (.start X)).items.map
          (Node.displace offset after.recovered) := by
  have hsettle : after.settle = after := by
    unfold State.settle
    rw [if_neg (by simp [hnormal])]
  have hmoved : 0 < after.position := hafter.position ▸ hafter.moved
  refine unit_onward hlength hclean [node] hafter ?_
  rw [gather_start hdirective hend, hparse]
  dsimp only
  rw [hsettle, State.pass_of_lt hmoved]

/-- Behind an error in the first declaration. -/
theorem unit_error {e : SyntaxError} {after : State}
    (hparse : parse .tolerant maxNesting .declaration (.start tokens)
      = .error e after)
    (hafter : Onto X offset (after.recover 0 e)) :
    (ParseOutcome.ofTokens .tolerant tokens).errors
        = (after.recover 0 e).errors.toList
      ∧ (ParseOutcome.ofTokens .tolerant tokens).tree.children
        = (declarations X [] (.start X)).items.map
          (Node.displace offset true) := by
  have hmoved : 0 < (after.recover 0 e).position :=
    hafter.position ▸ hafter.moved
  refine unit_onward hlength hclean [] hafter ?_
  rw [gather_start hdirective hend, hparse]
  dsimp only
  rw [State.pass_of_lt hmoved]

end

end FrontEnd.Grammar
