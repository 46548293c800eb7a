/-
A strict reading and a tolerant one of the same tokens. Up to the first
error they are the same reading; there the strict one ends, with that
error, and the tolerant one reports it and goes on.

Errors are caught by the innermost sequence of items that they come
through, so the two readings part deep inside the grammar. What is known
of the tolerant one from then on (`State.Reported`) is that the error
that ended the strict one is the first that it reported.
-/
import FrontEnd.Proofs.Lockstep.Statement
import FrontEnd.Proofs.Sequence

namespace FrontEnd

namespace Grammar

open EStateM (Result)

-- ====================================================== states on the way

/-- Nothing went wrong so far. -/
structure State.Clean (s : State) : Prop where
  phase : s.phase = .normal
  recovered : s.recovered = false
  errors : s.errors = #[]

/-- The first error of a reading that goes on. -/
structure State.Reported (d : SyntaxError) (s : State) : Prop where
  phase : s.phase ≠ .failed
  first : s.errors.toList.head? = some d

namespace State.Clean

variable {s : State} (h : s.Clean)
include h

theorem advance : s.advance.Clean :=
  ⟨s.advance_phase.trans h.phase, s.advance_recovered.trans h.recovered,
    s.advance_errors.trans h.errors⟩

theorem pass (position : Nat) : (s.pass position).Clean := by
  unfold State.pass
  split
  · exact h.advance
  · exact h

theorem settle : s.settle.Clean := by
  unfold State.settle
  rw [h.phase]
  exact h

theorem takeDirectives (done : List Node) :
    (s.takeDirectives done).2.Clean :=
  ⟨h.phase, h.recovered, h.errors⟩

end State.Clean

namespace State.Reported

variable {d : SyntaxError} {s : State}

theorem advance (h : s.Reported d) : s.advance.Reported d :=
  ⟨s.advance_phase.symm ▸ h.phase, s.advance_errors.symm ▸ h.first⟩

theorem pass (h : s.Reported d) (position : Nat) :
    (s.pass position).Reported d :=
  ⟨(s.pass_phase _).symm ▸ h.phase, (s.pass_errors _).symm ▸ h.first⟩

theorem settle (h : s.Reported d) : s.settle.Reported d := by
  unfold State.settle
  split
  · exact ⟨nofun, h.first⟩
  · exact h

theorem takeDirectives (h : s.Reported d) (done : List Node) :
    (s.takeDirectives done).2.Reported d := ⟨h.phase, h.first⟩

/-- Later errors come behind the first. -/
theorem recover (h : s.Reported d) (base : Nat) (e : SyntaxError) :
    (s.recover base e).Reported d := by
  refine ⟨nofun, ?_⟩
  show (if s.phase = .normal then s.errors.push e
    else s.errors).toList.head? = some d
  split
  · rw [Array.toList_push, List.head?_append, h.first]
    rfl
  · exact h.first

end State.Reported

/-- The first error is reported. -/
theorem State.Clean.recover {s : State} (h : s.Clean) (base : Nat)
    (e : SyntaxError) : (s.recover base e).Reported e := by
  refine ⟨nofun, ?_⟩
  show (if s.phase = .normal then s.errors.push e
    else s.errors).toList.head? = some e
  rw [if_pos h.phase, h.errors]
  rfl

-- ============================================================== sequences

section

variable {closer : Option String} {item : Parser Node} {bound : Nat}

theorem directives_suffix (recovered : Bool) (done : List Node)
    (index : Nat) (ts : List Token) :
    done <:+ (directives recovered done index ts).1 := by
  induction ts generalizing done index with
  | nil => exact List.suffix_refl done
  | cons t ts ih =>
    unfold directives
    split
    · exact (List.suffix_cons _ _).trans (ih _ _)
    · exact List.suffix_refl done

/-- What was done before a sequence stays in front of its items. -/
theorem gather_items (policy : Policy) (done : List Node)
    (start : State) :
    done.reverse <+:
      (gather policy closer item bound done start).items := by
  induction done, start using gather_induction bound with
  | step done start ih =>
    have goOn (done' : List Node) (after : State)
        (h : done <:+ done') : done.reverse <+:
          (proceed policy closer item bound start.position done'
            after).items := by
      unfold proceed
      split
      case isTrue hgo =>
        exact (List.reverse_prefix.2 h).trans (ih _ _ hgo.1 hgo.2)
      case isFalse => exact List.reverse_prefix.2 h
    have hdone : done <:+ (start.takeDirectives done).1 :=
      directives_suffix _ _ _ _
    rw [gather_eq]
    dsimp only
    split
    · exact List.reverse_prefix.2 hdone
    · split
      · exact goOn _ _ (hdone.trans (List.suffix_cons _ _))
      · exact List.reverse_prefix.2 hdone
      · exact goOn _ _ hdone

-- ========================================================= the two readings

/-- A strict reading first, a tolerant one second. -/
def policies : Lockstep where
  first := .strict
  second := .tolerant
  token := Eq
  mark := Eq
  node := Eq
  nodes := Eq
  error := Eq
  state s t := s = t ∧ s.Clean
  since _ _ _ _ := True
  since_refl _ _ := trivial
  since_trans _ _ := trivial
  apart r t := ∃ d s, r = .error d s ∧ s.Clean ∧ t.Reported d
  apart_after f hf := by
    rintro ⟨d, s, rfl, hs, ht⟩
    exact ⟨d, s, hf d s, hs, ht⟩

/-- A strict reading that ended with an error. -/
theorem policies_apart {α : Type} {d : SyntaxError} {s t : State}
    (hs : s.Clean) (ht : t.Reported d) :
    policies.apart (Result.error (α := α) d s) t :=
  ⟨d, s, rfl, hs, ht⟩

/-- The tolerant reading reported the error of the strict one. -/
theorem policies_reported {α : Type} {d : SyntaxError} {s t : State}
    (h : policies.apart (Result.error (α := α) d s) t) : t.Reported d := by
  obtain ⟨_, _, heq, _, ht⟩ := h
  cases heq
  exact ht

/-- Items keep the first error of a tolerant sequence. -/
theorem gather_reported {p : Parser Node} {d : SyntaxError} {s : State}
    (hs : s.Clean) (hitem : policies.InStep Eq p item) (done : List Node)
    (start : State) (h : start.Reported d) :
    (gather .tolerant closer item bound done start).state.Reported d := by
  induction done, start using gather_induction bound with
  | step done start ih =>
    have goOn (done' : List Node) (after : State) (h : after.Reported d) :
        (proceed .tolerant closer item bound start.position done'
          after).state.Reported d := by
      unfold proceed
      split
      case isTrue hgo => exact ih _ _ hgo.1 hgo.2 h
      case isFalse => exact h
    rw [gather_eq]
    dsimp only
    split
    · exact h.takeDirectives done
    · have halone := hitem.alone
        (policies_apart (α := Node) hs (h.takeDirectives done))
      generalize item (start.takeDirectives done).2 = r at halone
      cases halone with
      | ok _ ht => exact goOn _ _ ((policies_reported ht).settle.pass _)
      | error ht =>
        exact goOn _ _ (((policies_reported ht).recover _ _).pass _)

/-- What a strict sequence and a tolerant one come to. -/
inductive Agree : Gathered → Gathered → Prop
  /-- Nothing was wrong. -/
  | whole {items : List Node} {s : State} :
    s.Clean → Agree ⟨items, s, none⟩ ⟨items, s, none⟩
  /-- The first reading ended with an error, which is the first that
  the second one reported. -/
  | cut {items items' : List Node} {d : SyntaxError} {s t : State} :
    s.Clean → t.Reported d → items <+: items' →
    Agree ⟨items, s, some d⟩ ⟨items', t, none⟩

theorem Agree.clean {r r' : Gathered} (h : Agree r r') : r.state.Clean := by
  cases h with
  | whole hs => exact hs
  | cut hs _ _ => exact hs

/-- A strict sequence that has ended, and a tolerant one that goes on
behind it. -/
theorem Agree.ofReported {done : List Node} {d : SyntaxError} {s : State}
    {r : Gathered} (hs : s.Clean) (ht : r.state.Reported d)
    (hdone : done.reverse <+: r.items) (hr : r.error = none) :
    Agree ⟨done.reverse, s, some d⟩ r := by
  obtain ⟨items, t, error⟩ := r
  subst hr
  exact .cut hs ht hdone

theorem gather_agree {p : Parser Node}
    (hitem : policies.InStep Eq p item) (done : List Node)
    (start : State) (h : start.Clean) :
    Agree (gather .strict closer p bound done start)
      (gather .tolerant closer item bound done start) := by
  induction done, start using gather_induction bound with
  | step done start ih =>
    have goOn (done' : List Node) (after : State) (h : after.Clean) :
        Agree
          (proceed .strict closer p bound start.position done' after)
          (proceed .tolerant closer item bound start.position done'
            after) := by
      unfold proceed
      split
      case isTrue hgo => exact ih _ _ hgo.1 hgo.2 h
      case isFalse => exact .whole h
    -- the tolerant sequence alone, which goes on behind an error
    have left {done' done'' : List Node} {d : SyntaxError}
        {s after : State} (hs : s.Clean) (h : after.Reported d)
        (hdone : done'.reverse <+: done''.reverse) :
        Agree ⟨done'.reverse, s, some d⟩
          (proceed .tolerant closer item bound start.position done''
            after) := by
      unfold proceed
      split
      · exact .ofReported hs (gather_reported hs hitem _ _ h)
          (hdone.trans (gather_items _ _ _)) (gather_tolerant _ _)
      · exact .cut hs h hdone
    rw [gather_eq, gather_eq]
    dsimp only
    split
    · exact .whole (h.takeDirectives done)
    · have hboth := hitem.both
        (show policies.state (start.takeDirectives done).2 _ from
          ⟨rfl, h.takeDirectives done⟩)
      generalize p (start.takeDirectives done).2 = r at hboth
      generalize item (start.takeDirectives done).2 = r' at hboth
      cases hboth with
      | ok hv hs _ =>
        obtain ⟨rfl, hs⟩ := hs
        subst hv
        exact goOn _ _ (hs.settle.pass _)
      | error he hs =>
        obtain ⟨rfl, hs⟩ := hs
        subst he
        exact left hs ((hs.recover _ _).pass _) (List.prefix_refl _)
      | part halone =>
        cases halone with
        | ok _ ht =>
          obtain ⟨_, _, rfl, hs, ht⟩ := ht
          refine left hs (ht.settle.pass _) ?_
          exact List.reverse_prefix.2 (List.suffix_cons _ _)
        | error ht =>
          obtain ⟨_, _, rfl, hs, ht⟩ := ht
          exact left hs ((ht.recover _ _).pass _) (List.prefix_refl _)

end

/-- The readings of a sequence in braces. -/
theorem sequence_inStep {p q : Parser Node} (closer : String)
    (h : policies.InStep Eq p q) :
    policies.InStep Eq (sequence .strict closer p)
      (sequence .tolerant closer q) := by
  constructor
  · rintro s _ ⟨rfl, hs⟩
    unfold sequence
    have hagree : Agree (gather .strict (some closer) p s.size [] s)
        (gather .tolerant (some closer) q s.size [] s) :=
      gather_agree h [] s hs
    generalize gather .strict (some closer) p s.size [] s = r at hagree
    generalize gather .tolerant (some closer) q s.size [] s = r' at hagree
    cases hagree with
    | whole hs => exact .ok rfl ⟨rfl, hs⟩ trivial
    | cut hs ht _ => exact .part (.ok rfl (policies_apart hs ht))
  · rintro ρ _ t ⟨d, s, rfl, hs, ht⟩
    unfold sequence
    have herror : (gather .tolerant (some closer) q t.size [] t).error
        = none := gather_tolerant [] t
    have hreported : (gather .tolerant (some closer) q t.size [] t).state
        |>.Reported d := gather_reported hs h [] t ht
    generalize gather .tolerant (some closer) q t.size [] t = r
      at herror hreported
    obtain ⟨items, t', error⟩ := r
    subst herror
    exact .ok rfl (policies_apart hs hreported)

/-- A bracket that has to come. -/
theorem expectPunct_inStep (value context : String) :
    policies.InStep Eq (expectPunct value context)
      (expectPunct value context) := by
  unfold expectPunct expect
  constructor
  · rintro s _ ⟨rfl, hs⟩
    dsimp only
    split
    · exact .ok rfl ⟨rfl, hs.advance⟩ trivial
    · exact .error rfl ⟨rfl, hs⟩
  · rintro ρ _ t ⟨d, s, rfl, hs, ht⟩
    dsimp only
    split
    · exact .ok rfl (policies_apart hs ht.advance)
    · exact .error (policies_apart hs ht)

theorem policies_lawful : policies.Lawful where
  alike h := h ▸ .refl _
  token_refl _ := rfl
  kind h := congrArg Node.kind h
  retag _ _ h := h ▸ rfl
  nodes h := by
    show _ = _
    rw [← List.forall₂_eq_eq_eq]
    exact h
  peek h := h.1 ▸ rfl
  next h _ := h.1 ▸ rfl
  arguments _ h := h.1 ▸ rfl
  cast h _ := h.1 ▸ rfl
  declaration h := h.1 ▸ rfl
  label h := h.1 ▸ rfl
  moved h h' _ := h.1 ▸ h'.1 ▸ Iff.rfl
  within h h' := h.1 ▸ h'.1 ▸ Iff.rfl
  mark h := h.1 ▸ rfl
  advance h := .inl ⟨⟨h.1 ▸ rfl, h.2.advance⟩, trivial⟩
  node _ _ h hm hs := h.1 ▸ hm ▸ hs ▸ rfl
  error _ h ht := h.1 ▸ ht ▸ rfl
  enclosed closer context h :=
    .bindEq (sequence_inStep closer h) fun _ =>
      .andThen (expectPunct_inStep closer context) (.pure rfl)
  apart_advance := by
    rintro ρ _ t ⟨d, s, rfl, hs, ht⟩
    exact policies_apart hs ht.advance
  apart_mark _ := ⟨_, rfl⟩
  apart_node _ _ _ _ _ := ⟨_, rfl⟩

instance policies_spelledAlike : policies.SpelledAlike :=
  Lockstep.spelledAlike_of_eq policies_lawful id

end Grammar

-- ================================================================= units

open Grammar in
/-- The declarations of a unit, read strictly and tolerantly. -/
theorem unit_agree (tokens : List Token) :
    Agree
      (gather .strict none (parse .strict maxNesting .declaration)
        tokens.length [] (.start tokens))
      (gather .tolerant none (parse .tolerant maxNesting .declaration)
        tokens.length [] (.start tokens)) :=
  gather_agree
    (Lockstep.parse_inStep policies_lawful maxNesting .declaration)
    [] (.start tokens) ⟨rfl, rfl, rfl⟩

/-- A tolerant reading never gives up. A strict one gives up if and only
if it has an error, of which it has one then: the first of the tolerant
reading. Without an error the trees are the same; otherwise the strict
one holds the first children of the tolerant one. -/
theorem strict_tolerant_agree (tokens : List Token) :
    let strict := ParseOutcome.ofTokens .strict tokens
    let tolerant := ParseOutcome.ofTokens .tolerant tokens
    tolerant.phase ≠ .failed
      ∧ (strict.phase = .failed ↔ strict.errors.length = 1)
      ∧ (strict.phase ≠ .failed →
        strict.errors = [] ∧ strict.phase = .normal)
      ∧ strict.errors = tolerant.errors.take 1
      ∧ (strict.errors = [] → strict.tree = tolerant.tree)
      ∧ (strict.phase = .failed →
        strict.tree.children <+: tolerant.tree.children) := by
  intro strict tolerant
  have hagree := unit_agree tokens
  unfold strict tolerant ParseOutcome.ofTokens
  dsimp only
  revert hagree
  generalize Grammar.gather .strict none _ _ _ _ = r
  generalize Grammar.gather .tolerant none _ _ _ _ = r'
  intro hagree
  cases hagree with
  | whole hs => simp [hs.phase, hs.errors]
  | cut hs ht hitems =>
    obtain ⟨more, hmore⟩ := List.head?_eq_some_iff.1 ht.first
    simp [hs.errors, hmore, ht.phase, hitems]

end FrontEnd
