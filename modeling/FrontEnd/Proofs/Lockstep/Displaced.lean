/-
The same tokens read by themselves, and read behind others.

What was read before leaves its mark on a reading in three ways: in the
places at which tokens stand, in the number of groups that are open, and
in what nodes say of bad input in front of them. The second way does not
matter, since rules count the groups that they open (`skipGroup_eq`). So
the two readings stay in step, and the trees of the second one are those
of the first one, displaced.

The first reading is a strict one, the second one is of either policy. If
it is tolerant, they part where the first one ends with an error; then
there is still some reading that the second one is the displaced one of
(`Displaced` holds of its state and some other), but not the first.
-/
import FrontEnd.Proofs.Course.Sequence
import FrontEnd.Proofs.Lockstep.Statement

namespace FrontEnd

-- ==================================================================== trees

namespace Node

mutual

/-- The tree as it stands some tokens further on, and behind bad input if
`behindBad` says so. -/
def displace (offset : Nat) (behindBad : Bool) : Node → Node
  | ⟨kind, first, stop, location, recovered, children⟩ =>
    ⟨kind, first + offset, stop + offset, location, recovered || behindBad,
      displaceAll offset behindBad children⟩

/-- The trees of a list as they stand further on. -/
def displaceAll (offset : Nat) (behindBad : Bool) : List Node → List Node
  | [] => []
  | n :: ns =>
    n.displace offset behindBad :: displaceAll offset behindBad ns

end

theorem displaceAll_eq_map (offset : Nat) (behindBad : Bool)
    (ns : List Node) :
    displaceAll offset behindBad ns
      = ns.map (displace offset behindBad) := by
  induction ns with
  | nil => rfl
  | cons n ns ih => rw [displaceAll, ih, List.map_cons]

theorem displace_eq (offset : Nat) (behindBad : Bool) (n : Node) :
    n.displace offset behindBad = { n with
      first := n.first + offset, stop := n.stop + offset
      recovered := n.recovered || behindBad
      children := n.children.map (displace offset behindBad) } := by
  obtain ⟨kind, first, stop, location, recovered, children⟩ := n
  rw [displace, displaceAll_eq_map]

end Node

namespace Grammar

open EStateM (Result)
open List (Forall₂)

-- ========================================================== the relations

/-- Two readings with the same tokens to come, the second one further
on. -/
structure Displaced (offset : Nat) (behindBad : Bool) (s t : State) :
    Prop where
  rest : t.rest = s.rest
  position : t.position = s.position + offset
  size : t.size = s.size + offset
  recovered : t.recovered = (s.recovered || behindBad)

/-- A reading of tokens by themselves first, one behind others second. -/
def displacing (policy : Policy) (offset : Nat) (behindBad : Bool) :
    Lockstep where
  first := .strict
  second := policy
  token := Eq
  mark m n := n = ⟨m.index + offset, m.location⟩
  node a b := b = a.displace offset behindBad
  nodes as bs := bs = as.map (Node.displace offset behindBad)
  error := Eq
  state := Displaced offset behindBad
  since _ _ _ _ := True
  since_refl _ _ := trivial
  since_trans _ _ := trivial
  apart r t := (∃ e s, r = .error e s) ∧ policy = .tolerant
    ∧ ∃ s, Displaced offset behindBad s t
  apart_after f hf := by
    rintro ⟨⟨e, s, rfl⟩, ht⟩
    exact ⟨⟨e, s, hf e s⟩, ht⟩

variable {policy : Policy} {offset : Nat} {behindBad : Bool}

theorem exists_displaced {t : State} (hposition : offset ≤ t.position)
    (hsize : offset ≤ t.size) (hbad : behindBad = true → t.recovered = true) :
    ∃ s, Displaced offset behindBad s t := by
  refine ⟨{ t with position := t.position - offset
                   size := t.size - offset }, rfl, ?_, ?_, ?_⟩
  · dsimp only
    omega
  · dsimp only
    omega
  · cases behindBad with
    | true => simp [hbad rfl]
    | false => simp

namespace Displaced

variable {s t : State} (h : Displaced offset behindBad s t)
include h

theorem peek : t.peek = s.peek := by
  rw [State.peek_eq, State.peek_eq, h.rest]

theorem mark : t.mark = ⟨s.mark.index + offset, s.mark.location⟩ := by
  have hindex : t.mark.index = s.mark.index + offset := by
    rw [State.mark_index, State.mark_index, h.rest, h.position]
    omega
  have hlocation : t.mark.location = s.mark.location :=
    congrArg Token.location h.peek
  rw [← hindex, ← hlocation]

theorem advance : Displaced offset behindBad s.advance t.advance := by
  cases hend : s.peek.isEnd with
  | true =>
    rw [s.advance_of_end hend, t.advance_of_end (h.peek ▸ hend)]
    exact h
  | false =>
    rw [s.advance_of_not_end hend, t.advance_of_not_end (h.peek ▸ hend),
      h.mark, h.rest]
    exact ⟨rfl, Nat.add_right_comm .., h.size, h.recovered⟩

theorem pass (position : Nat) : Displaced offset behindBad
    (s.pass position) (t.pass (position + offset)) := by
  unfold State.pass
  rw [h.position]
  split
  · rw [if_pos (by omega)]
    exact h.advance
  · rw [if_neg (by omega)]
    exact h

theorem settle : Displaced offset behindBad s.settle t.settle := by
  have same (u : State) : u.settle.rest = u.rest
      ∧ u.settle.position = u.position ∧ u.settle.size = u.size
      ∧ u.settle.recovered = u.recovered := by
    unfold State.settle
    split <;> exact ⟨rfl, rfl, rfl, rfl⟩
  obtain ⟨hrest, hposition, hsize, hrecovered⟩ := same s
  obtain ⟨hrest', hposition', hsize', hrecovered'⟩ := same t
  constructor
  · rw [hrest, hrest', h.rest]
  · rw [hposition, hposition', h.position]
  · rw [hsize, hsize', h.size]
  · rw [hrecovered, hrecovered', h.recovered]

theorem node (kind : NodeKind) (m : Mark) (children : List Node) :
    t.node kind ⟨m.index + offset, m.location⟩
        (children.map (Node.displace offset behindBad))
      = (s.node kind m children).displace offset behindBad := by
  rw [Node.displace_eq]
  unfold State.node
  rw [h.recovered, h.position, Nat.add_max_add_right]

/-- The reading goes on behind bad input, as some other reading would
that began further back. -/
theorem recover (base : Nat) (e : SyntaxError) :
    ∃ s', Displaced offset behindBad s' (t.recover base e) := by
  obtain ⟨before, -, hindex, -⟩ :=
    resume_split base t.position t.depth t.rest
  refine exists_displaced ?_ ?_ fun _ => rfl
  · show offset ≤ (resume base t.position t.depth t.rest).1
    rw [hindex, h.position]
    omega
  · show offset ≤ t.size
    rw [h.size]
    omega

end Displaced

-- ============================================================== sequences

/-- Items that are done, displaced, behind what was done before (the last
one first). -/
def behind (offset : Nat) (behindBad : Bool) (base done : List Node) :
    List Node :=
  done.map (Node.displace offset behindBad) ++ base

theorem behind_reverse (base done : List Node) :
    (behind offset behindBad base done).reverse
      = base.reverse
        ++ done.reverse.map (Node.displace offset behindBad) := by
  unfold behind
  rw [List.reverse_append, List.map_reverse]

theorem directives_displace (offset : Nat) (behindBad recovered : Bool)
    (base done : List Node) (index : Nat) (ts : List Token) :
    directives (recovered || behindBad)
        (behind offset behindBad base done) (index + offset) ts
      = (behind offset behindBad base
          (directives recovered done index ts).1,
        (directives recovered done index ts).2.1 + offset,
        (directives recovered done index ts).2.2) := by
  induction ts generalizing done index with
  | nil => rfl
  | cons t ts ih =>
    unfold directives
    split
    · rw [Nat.add_right_comm]
      exact ih ({
        kind := .preprocessorDirective, first := index, stop := index + 1
        location := t.location, recovered := recovered, children := [] }
        :: done) (index + 1)
    · rfl

theorem Displaced.directives {s t : State}
    (h : Displaced offset behindBad s t) (base done : List Node) :
    (t.takeDirectives (behind offset behindBad base done)).1
        = behind offset behindBad base (s.takeDirectives done).1
      ∧ Displaced offset behindBad (s.takeDirectives done).2
        (t.takeDirectives (behind offset behindBad base done)).2 := by
  have heq := directives_displace offset behindBad s.recovered base done
    s.position s.rest
  unfold State.takeDirectives
  rw [h.rest, h.position, h.recovered, heq]
  generalize FrontEnd.Grammar.directives s.recovered done s.position s.rest
    = r
  obtain ⟨nodes, index, rest⟩ := r
  exact ⟨rfl, rfl, rfl, h.size, rfl⟩

/-- What came of items that were read behind others: displaced ones,
behind what was done before. -/
def IsDisplaced (offset : Nat) (behindBad : Bool) (base : List Node)
    (r : Gathered) : Prop :=
  (∃ ns : List Node, r.items
    = base.reverse ++ ns.map (Node.displace offset behindBad))
    ∧ ∃ s, Displaced offset behindBad s r.state

/-- What came of items that were read by themselves, and behind others:
the same, unless the first reading ended with an error that the second
one went on behind. -/
def Displaces (policy : Policy) (offset : Nat) (behindBad : Bool)
    (base : List Node) (r r' : Gathered) : Prop :=
  (r'.items = base.reverse ++ r.items.map (Node.displace offset behindBad)
    ∧ r'.error = r.error ∧ Displaced offset behindBad r.state r'.state)
  ∨ r.error ≠ none ∧ policy = .tolerant
    ∧ IsDisplaced offset behindBad base r'

section

variable {p q : Parser Node}
  (hitem : (displacing policy offset behindBad).InStep
    (displacing policy offset behindBad).node p q)
include hitem

theorem gather_isDisplaced (htolerant : policy = .tolerant)
    (closer : Option String) (bound : Nat) (base done : List Node)
    {t : State} (h : ∃ s, Displaced offset behindBad s t) :
    IsDisplaced offset behindBad base (gather policy closer q bound
      (behind offset behindBad base done) t) := by
  generalize hdone : behind offset behindBad base done = done'
  induction done', t using gather_induction bound generalizing done with
  | step done' t ih =>
    subst hdone
    obtain ⟨s, h⟩ := h
    obtain ⟨hdone, h⟩ := h.directives base done
    have goOn (done : List Node) {after : State}
        (h : ∃ s, Displaced offset behindBad s after) :
        IsDisplaced offset behindBad base
          (proceed policy closer q bound t.position
            (behind offset behindBad base done) after) := by
      unfold proceed
      split
      case isTrue hgo => exact ih _ _ hgo.1 hgo.2 done h rfl
      case isFalse => exact ⟨⟨_, behind_reverse base done⟩, h⟩
    rw [gather_eq]
    dsimp only
    rw [hdone]
    generalize (s.takeDirectives done).2 = s₁ at *
    generalize (s.takeDirectives done).1 = done₁ at *
    generalize (t.takeDirectives (behind offset behindBad base done)).2
      = t₁ at *
    split
    · exact ⟨⟨_, behind_reverse base done₁⟩, s₁, h⟩
    · have halone := hitem.alone (ρ := Unit)
        (r := .error ⟨.unexpected, t₁.peek⟩ t₁)
        ⟨⟨_, _, rfl⟩, htolerant, s₁, h⟩
      rw [h.position]
      generalize q t₁ = r at halone
      cases halone with
      | @ok a _ after hnode ht =>
        obtain rfl := hnode
        obtain ⟨-, -, s₂, h₂⟩ := ht
        exact goOn (a :: done₁) ⟨_, h₂.settle.pass s₁.position⟩
      | @error e after ht =>
        obtain ⟨-, -, s₂, h₂⟩ := ht
        subst htolerant
        obtain ⟨s₃, h₃⟩ := h₂.recover t₁.depth e
        exact goOn done₁ ⟨_, h₃.pass s₁.position⟩

theorem gather_displaces (closer : Option String) (bound : Nat)
    (base done : List Node) {s t : State} (h : Displaced offset behindBad s t) :
    Displaces policy offset behindBad base
      (gather .strict closer p bound done s)
      (gather policy closer q (bound + offset)
        (behind offset behindBad base done) t) := by
  induction done, s using gather_induction bound generalizing t with
  | step done s ih =>
    have hstart := h.position
    obtain ⟨hdone, h⟩ := h.directives base done
    rw [gather_eq, gather_eq]
    dsimp only
    rw [hdone]
    generalize (s.takeDirectives done).2 = s₁ at *
    generalize (s.takeDirectives done).1 = done₁ at *
    generalize (t.takeDirectives (behind offset behindBad base done)).2
      = t₁ at *
    rw [h.peek, h.position]
    split
    · exact .inl ⟨behind_reverse base done₁, rfl, h⟩
    · have hboth := hitem.both h
      -- the second reading goes on behind an error of the first
      have parted (htolerant : policy = .tolerant) (done : List Node)
          {s after : State} {e : SyntaxError} {items : List Node}
          (h : ∃ s, Displaced offset behindBad s after) :
          Displaces policy offset behindBad base ⟨items, s, some e⟩
            (proceed policy closer q (bound + offset) t.position
              (behind offset behindBad base done) after) := by
        refine .inr ⟨nofun, htolerant, ?_⟩
        unfold proceed
        split
        · exact gather_isDisplaced hitem htolerant _ _ base done h
        · exact ⟨⟨_, behind_reverse base done⟩, h⟩
      generalize p s₁ = r at hboth
      generalize q t₁ = r' at hboth
      cases hboth with
      | @ok a b s₂ t₂ hnode h₂ _ =>
        obtain rfl : b = a.displace offset behindBad := hnode
        have h₃ := h₂.settle.pass s₁.position
        have hposition := h₃.position
        dsimp only
        unfold proceed
        by_cases hgo : s.position < (s₂.settle.pass s₁.position).position
            ∧ (s₂.settle.pass s₁.position).position ≤ bound
        · rw [if_pos hgo, if_pos (by omega)]
          exact ih (a :: done₁) _ hgo.1 hgo.2 h₃
        · rw [if_neg hgo, if_neg (by omega)]
          exact .inl ⟨behind_reverse base (a :: done₁), rfl, h₃⟩
      | @error d e s₂ t₂ he h₂ =>
        obtain rfl : d = e := he
        cases policy with
        | strict => exact .inl ⟨behind_reverse base done₁, rfl, h₂⟩
        | tolerant =>
          obtain ⟨s₃, h₃⟩ := h₂.recover t₁.depth d
          exact parted rfl done₁ ⟨_, h₃.pass s₁.position⟩
      | part halone =>
        cases halone with
        | @ok a _ t₂ hnode ht =>
          obtain rfl := hnode
          obtain ⟨⟨e, s₂, rfl⟩, htolerant, s₃, h₃⟩ := ht
          exact parted htolerant (a :: done₁)
            ⟨_, h₃.settle.pass s₁.position⟩
        | @error e t₂ ht =>
          obtain ⟨⟨d, s₂, rfl⟩, rfl, s₃, h₃⟩ := ht
          obtain ⟨s₄, h₄⟩ := h₃.recover t₁.depth e
          exact parted rfl done₁ ⟨_, h₄.pass s₁.position⟩

theorem sequence_displaced (closer : String) :
    (displacing policy offset behindBad).InStep
      (displacing policy offset behindBad).nodes
      (sequence .strict closer p) (sequence policy closer q) where
  both {s t} h := by
    have hgather : Displaces policy offset behindBad []
        (gather .strict (some closer) p s.size [] s)
        (gather policy (some closer) q t.size [] t) :=
      h.size ▸ gather_displaces hitem _ s.size [] [] h
    unfold sequence
    dsimp only
    generalize gather .strict (some closer) p s.size [] s = r at hgather
    generalize gather policy (some closer) q t.size [] t = r' at hgather
    obtain ⟨items', t', error'⟩ := r'
    rcases hgather with
      ⟨hitems, herror, h⟩ | ⟨herror, htolerant, ⟨ns, hns⟩, ht⟩
    · dsimp only at *
      rw [herror]
      cases r.error with
      | none => exact .ok (L := displacing ..) hitems h trivial
      | some e => exact .error (L := displacing ..) rfl h
    · obtain ⟨e, he⟩ := Option.ne_none_iff_exists'.1 herror
      dsimp only at *
      rw [he]
      refine .part ?_
      cases error' with
      | none => exact .ok (a := ns) hns ⟨⟨_, _, rfl⟩, htolerant, ht⟩
      | some e' => exact .error ⟨⟨_, _, rfl⟩, htolerant, ht⟩
  alone {ρ r t} h := by
    obtain ⟨hr, htolerant, h⟩ := h
    obtain ⟨⟨ns, hns⟩, ht⟩ := gather_isDisplaced hitem htolerant
      (some closer) t.size [] [] h
    have hns : (gather policy (some closer) q t.size [] t).items = _ := hns
    have ht : ∃ s, Displaced offset behindBad s
      (gather policy (some closer) q t.size [] t).state := ht
    unfold sequence
    dsimp only
    generalize gather policy (some closer) q t.size [] t = r' at *
    obtain ⟨items', t', error'⟩ := r'
    cases error' with
    | none => exact .ok (a := ns) hns ⟨hr, htolerant, ht⟩
    | some e' => exact .error ⟨hr, htolerant, ht⟩

end

/-- A bracket that has to come. -/
theorem expectPunct_displaced (value context : String) :
    (displacing policy offset behindBad).InStep Eq
      (expectPunct value context) (expectPunct value context) where
  both {s t} h := by
    have h : Displaced offset behindBad s t := h
    unfold expectPunct expect
    dsimp only
    rw [h.peek]
    split
    · exact .ok (L := displacing ..) rfl h.advance trivial
    · exact .error (L := displacing ..) rfl h
  alone {ρ r t} h := by
    obtain ⟨hr, htolerant, s, h⟩ := h
    unfold expectPunct expect
    dsimp only
    split
    · exact .ok (L := displacing ..) rfl ⟨hr, htolerant, _, h.advance⟩
    · exact .error ⟨hr, htolerant, s, h⟩

theorem displacing_lawful (policy : Policy) (offset : Nat)
    (behindBad : Bool) : (displacing policy offset behindBad).Lawful where
  alike h := h ▸ .refl _
  token_refl _ := rfl
  kind h := by
    rw [h, Node.displace_eq]
  retag kind _ h := by
    show _ = _
    rw [h, Node.displace_eq, Node.displace_eq]
  nodes h := by
    show _ = _
    induction h with
    | nil => rfl
    | cons hab _ ih => rw [List.map_cons, hab, ih]
  peek h := h.peek.symm
  next h _ := by
    rw [h.rest]
    exact rfl
  arguments _ h := by rw [h.rest]
  cast h _ := by rw [h.rest]
  declaration h := by rw [h.rest]
  label h := by rw [h.rest]
  moved h h' _ := by
    rw [h.position, h'.position]
    omega
  within h h' := by
    rw [h.size, h'.position]
    omega
  mark h := h.mark
  advance h := .inl ⟨h.advance, trivial⟩
  node kind _ h hm hs := by
    show _ = _
    rw [hm, hs]
    exact h.node _ _ _
  error _ h ht := by
    show _ = _
    rw [h.peek, ht]
  enclosed closer context h :=
    .bind (sequence_displaced h closer) fun _ _ hitems =>
      .andThen (expectPunct_displaced closer context) (.pure hitems)
  apart_advance := by
    rintro ρ r t ⟨hr, htolerant, s, h⟩
    exact ⟨hr, htolerant, _, h.advance⟩
  apart_mark := by
    rintro ρ r t ⟨-, -, s, h⟩
    exact ⟨_, h.mark⟩
  apart_node := by
    rintro ρ r t m n as bs kind _ ⟨-, -, s, h⟩ hm hs
    refine ⟨s.node kind m as, ?_⟩
    show _ = _
    rw [hm, hs]
    exact h.node _ _ _

instance displacing_spelledAlike (policy : Policy) (offset : Nat)
    (behindBad : Bool) : (displacing policy offset behindBad).SpelledAlike :=
  Lockstep.spelledAlike_of_eq (displacing_lawful policy offset behindBad) id

end Grammar

end FrontEnd
