/-
A strict reading of a token list, and one of the list without its
directives. The second reading of a lockstep is the one with directives:
the states, marks and nodes of the first are what remains of its own when
the directives are erased.

Only a sequence looks at directives. It takes those in front of an item
as items of their own, so that the reading with directives moves where
the one without them stays. That is why the relations tell nothing of a
sequence alone, but of one with its closing bracket: behind that both
have read a token.
-/
import Mathlib.Order.MinMax
import FrontEnd.Proofs.Course.Sequence
import FrontEnd.Proofs.Lockstep.Erasure
import FrontEnd.Proofs.Lockstep.Statement

namespace FrontEnd

namespace Grammar

open EStateM (Result)
open List (Forall₂)

variable {tokens : List Token}

-- ========================================================== the relations

/-- Neither reading moved, or both did. -/
def Alongside (s t s' t' : State) : Prop :=
  (s'.position = s.position ∧ t'.position = t.position)
    ∨ (s.position < s'.position ∧ t.position < t'.position)

/-- A reading without the directives first, one with them second. -/
def erasing (tokens : List Token) : Lockstep where
  first := .strict
  second := .strict
  token := Eq
  mark m n := m = ⟨rank tokens n.index, n.location⟩
  node a b := a = b.erase (rank tokens)
    ∧ (b.kind == .preprocessorDirective) = false
  nodes as bs := as = Node.eraseAll (rank tokens) bs
  error := Eq
  state s t := t.Along tokens ∧ s = t.erase tokens
  since := Alongside
  since_refl _ _ := .inl ⟨rfl, rfl⟩
  since_trans h h' := by
    unfold Alongside at *
    omega
  apart _ _ := False
  apart_after _ _ := id

namespace State

theorem erase_node (s : State) (kind : NodeKind) (m : Mark)
    (children : List Node) :
    (s.erase tokens).node kind ⟨rank tokens m.index, m.location⟩
        (Node.eraseAll (rank tokens) children)
      = (s.node kind m children).erase (rank tokens) := by
  unfold node
  rw [Node.erase, Monotone.map_max (rank_mono tokens)]
  rfl

/-- A step of the reading with directives moves it by a token that is
there, or not at all; so does the step of the other. -/
theorem Along.alongside {s : State} (hs : s.Along tokens) :
    Alongside (s.erase tokens) s (s.advance.erase tokens) s.advance := by
  cases h : s.peek.isEnd with
  | true =>
    rw [advance_of_end s h]
    exact .inl ⟨rfl, rfl⟩
  | false =>
    refine .inr ⟨?_, ?_⟩
    · show rank tokens s.position < rank tokens s.advance.position
      rw [advance_position s h, hs.rank_next h]
      exact Nat.lt_succ_self _
    · rw [advance_position s h]
      exact Nat.lt_succ_of_le s.position_le_mark

-- ============================================================ directives

/-- Directives that are taken leave what remains as it is. -/
theorem Along.erase_takeDirectives {s : State} (hs : s.Along tokens)
    (done : List Node) :
    (s.takeDirectives done).2.erase tokens = s.erase tokens := by
  rw [takeDirectives_state]
  unfold erase
  dsimp only
  rw [hs.rank_mark, visible_dropWhile]

theorem erase_directives (index : Nat → Nat) (recovered : Bool)
    (done : List Node) (i : Nat) (ts : List Token) :
    Node.eraseAll index (directives recovered done i ts).1
      = Node.eraseAll index done := by
  induction ts generalizing done i with
  | nil => rfl
  | cons t ts ih =>
    unfold directives
    split
    · rw [ih, Node.eraseAll]
      rfl
    · rfl

/-- Among the visible tokens are no directives to take. -/
theorem takeDirectives_erase (s : State) (done : List Node) :
    (s.erase tokens).takeDirectives done = (done, s.erase tokens) := by
  unfold takeDirectives
  have hrest : (s.erase tokens).rest = visible s.rest := rfl
  rw [hrest]
  cases ahead_cases s.rest with
  | nothing h => rw [h, directives, ← h, ← hrest]
  | token t us ht h =>
    rw [h, directives, if_neg (by simp [ht]), ← h, ← hrest]

-- ============================================================== sequences

theorem erase_settle (s : State) :
    (s.erase tokens).settle = s.settle.erase tokens := by
  unfold settle erase
  dsimp only
  split <;> rfl

/-- Where an item read nothing, the next token is read in its place, by
both or by neither. -/
theorem Along.erase_pass {s s' : State} (hs' : s'.Along tokens)
    (h : Alongside (s.erase tokens) s (s'.erase tokens) s') :
    (s'.erase tokens).pass (s.erase tokens).position
      = (s'.pass s.position).erase tokens := by
  unfold State.pass
  unfold Alongside at h
  split
  · rw [if_pos (by omega), hs'.erase_advance]
  · rw [if_neg (by omega)]

/-- Then both have read a token. -/
theorem Along.pass_moved {s s' : State} (hs : s.Along tokens)
    (hs' : s'.Along tokens) (hend : s.peek.isEnd = false)
    (h : Alongside (s.erase tokens) s (s'.erase tokens) s') :
    (s.erase tokens).position
        < ((s'.pass s.position).erase tokens).position
      ∧ s.position < (s'.pass s.position).position := by
  unfold State.pass
  split
  case isFalse =>
    unfold Alongside at h
    omega
  case isTrue hle =>
    have hposition : s'.position = s.position := by
      unfold Alongside at h
      omega
    have hrest : s'.rest = s.rest := by rw [hs'.rest, hs.rest, hposition]
    have hpeek : s'.peek.isEnd = false := by
      rw [peek_eq, hrest, ← peek_eq, hend]
    rw [advance_position s' hpeek, ← hposition]
    refine ⟨?_, Nat.lt_succ_of_le s'.position_le_mark⟩
    show rank tokens s.position < rank tokens s'.advance.position
    rw [advance_position s' hpeek, hs'.rank_next hpeek, hposition]
    exact Nat.lt_succ_self _

end State

/-- What remains of what came of a sequence. -/
def Gathered.erase (tokens : List Token) (r : Gathered) : Gathered :=
  ⟨Node.eraseAll (rank tokens) r.items, r.state.erase tokens, r.error⟩

theorem gather_erase (closer : Option String) {p q : Parser Node}
    (hitem : (erasing tokens).InStep (erasing tokens).node p q)
    (done : List Node) (s : State) (hs : s.Along tokens) :
    let r := gather .strict closer q tokens.length done s
    gather .strict closer p (visible tokens).length
        (Node.eraseAll (rank tokens) done) (s.erase tokens)
      = r.erase tokens
      ∧ r.state.Along tokens
      ∧ (r.error = none → s.position ≤ r.state.position) := by
  induction done, s using gather_induction tokens.length with
  | step done start ih =>
    rw [gather_eq, gather_eq, State.takeDirectives_erase]
    dsimp only
    obtain ⟨hs₁, hstart, -⟩ := hs.directives done
    rw [← hs.erase_takeDirectives done, State.erase_peek]
    generalize hdone : (start.takeDirectives done).1 = done'
    have herase : Node.eraseAll (rank tokens) done
        = Node.eraseAll (rank tokens) done' := by
      rw [← hdone]
      exact (State.erase_directives _ _ _ _ _).symm
    rw [herase]
    generalize (start.takeDirectives done).2 = s at *
    split
    case isTrue =>
      refine ⟨?_, hs₁, fun _ => hstart⟩
      unfold Gathered.erase
      rw [Node.eraseAll_reverse]
    case isFalse hends =>
      have hboth := hitem.both ⟨hs₁, rfl⟩
      generalize p (s.erase tokens) = r at hboth
      generalize q s = r' at hboth
      cases hboth with
      | part h => cases h <;> contradiction
      | error he hs' =>
        obtain ⟨hs', rfl⟩ := hs'
        cases he
        refine ⟨?_, hs', nofun⟩
        unfold Gathered.erase
        rw [Node.eraseAll_reverse]
      | @ok _ node _ after hnode hs' hsince =>
        obtain ⟨hs', rfl⟩ := hs'
        obtain ⟨rfl, hkind⟩ := hnode
        dsimp only
        have hsettle : Alongside (s.erase tokens) s
            (after.settle.erase tokens) after.settle := by
          have hposition := after.settle_position
          unfold Alongside State.erase at *
          dsimp only
          rw [hposition]
          exact hsince
        have hmoved := hs₁.pass_moved hs'.settle.along
          (by rw [Bool.not_eq_true] at hends; grind [endsSequence]) hsettle
        have halong := (hs'.settle.along.pass s.position).along
        have hcons : node.erase (rank tokens)
              :: Node.eraseAll (rank tokens) done'
            = Node.eraseAll (rank tokens) (node :: done') := by
          rw [Node.eraseAll, if_neg (by simp [hkind])]
        rw [State.erase_settle, hs'.settle.along.erase_pass hsettle, hcons]
        have hbound : ((after.settle.pass s.position).erase tokens).position
            ≤ (visible tokens).length := by
          rw [← rank_length]
          exact rank_mono tokens halong.within
        unfold proceed
        rw [if_pos ⟨hmoved.1, hbound⟩, if_pos ⟨by omega, halong.within⟩]
        obtain ⟨heq, hr, hpos⟩ := ih (node :: done')
          (after.settle.pass s.position) (by omega) halong.within halong
        exact ⟨heq, hr, fun h => by have := hpos h; omega⟩

/-- The items up to a closing bracket, and the bracket. -/
theorem enclosed_erase {p q : Parser Node} (closer context : String)
    (hitem : (erasing tokens).InStep (erasing tokens).node p q) :
    (erasing tokens).InStep (erasing tokens).nodes
      (enclosed .strict closer context p)
      (enclosed .strict closer context q) where
  alone h := h.elim
  both {s t} := by
    rintro ⟨ht, rfl⟩
    obtain ⟨heq, hr, hposition⟩ := gather_erase (some closer)
      hitem [] t ht
    have hsize : (t.erase tokens).size = (visible tokens).length := by
      rw [← rank_length, ← ht.size]
      rfl
    have heq : gather .strict (some closer) p (visible tokens).length []
        (t.erase tokens) = _ := heq
    rw [Lockstep.enclosed_eq, Lockstep.enclosed_eq, hsize, ht.size, heq]
    generalize gather .strict (some closer) q tokens.length [] t = r
      at hr hposition
    obtain ⟨items, u, error⟩ := r
    dsimp only [Gathered.erase] at *
    cases error with
    | some e => exact .error (L := erasing tokens) rfl ⟨hr, rfl⟩
    | none =>
      dsimp only
      rw [State.erase_peek]
      cases hcloser : u.peek.isPunct closer with
      | false => exact .error (L := erasing tokens) rfl ⟨hr, rfl⟩
      | true =>
        have hend : u.peek.isEnd = false := by grind
        have hposition := hposition rfl
        rw [if_pos rfl, if_pos rfl, hr.erase_advance]
        refine .ok (L := erasing tokens) rfl ⟨hr.advance, rfl⟩
          (.inr ⟨?_, ?_⟩)
        · show rank tokens t.position < rank tokens u.advance.position
          rw [u.advance_position hend, hr.rank_next hend]
          exact Nat.lt_succ_of_le (rank_mono tokens hposition)
        · rw [u.advance_position hend]
          exact Nat.lt_succ_of_le (hposition.trans u.position_le_mark)

theorem erasing_lawful : (erasing tokens).Lawful where
  alike h := h ▸ .refl _
  token_refl _ := rfl
  kind h := by
    rw [h.1, Node.erase_eq]
  retag kind hkind h := by
    refine ⟨?_, hkind⟩
    rw [h.1, Node.erase_eq, Node.erase_eq]
  nodes h := by
    show _ = _
    induction h with
    | nil => rfl
    | cons hab _ ih =>
      rw [Node.eraseAll, if_neg (by simp [hab.2]), hab.1, ih]
  peek h := h.2 ▸ State.erase_peek
  next h _ := h.2 ▸ tokenAt_visible 1 _
  arguments declaration h := h.2 ▸ opensArguments_visible declaration _
  cast h _ := h.2 ▸ opensCast_visible _
  declaration h := h.2 ▸ opensDeclaration_visible _
  label h := h.2 ▸ memberLabel_visible _
  moved h h' hsince := by
    have : Alongside _ _ _ _ := hsince
    unfold Alongside at this
    omega
  within := by
    rintro _ t _ t' ⟨ht, rfl⟩ ⟨ht', rfl⟩
    show rank tokens _ ≤ rank tokens t.size ↔ _
    rw [ht.size]
    exact ⟨fun _ => ht'.within, fun _ => rank_mono tokens ht'.within⟩
  mark h := h.2 ▸ h.1.erase_mark
  advance := by
    rintro _ t ⟨ht, rfl⟩
    refine .inl ⟨⟨ht.advance, ht.erase_advance⟩, ?_⟩
    rw [ht.erase_advance]
    exact ht.alongside
  node kind hkind h hm hs := by
    refine ⟨?_, hkind⟩
    rw [h.2, hm, hs]
    exact State.erase_node _ _ _ _
  error problem h ht := by
    rw [h.2, State.erase_peek, ht]
    rfl
  enclosed closer context h := enclosed_erase closer context h
  apart_advance := id
  apart_mark := False.elim
  apart_node _ _ h := h.elim

instance erasing_spelledAlike : (erasing tokens).SpelledAlike :=
  Lockstep.spelledAlike_of_eq erasing_lawful id

end Grammar

-- ================================================================== units

open Grammar in
/-- Directives do not show in a strict reading but by their own nodes.
Without them it ends in the same phase and with the same error, and the
tree is what remains of the other when the directives are erased. -/
theorem directives_transparent (tokens : List Token) :
    let full := ParseOutcome.ofTokens .strict tokens
    let reduced := ParseOutcome.ofTokens .strict (visible tokens)
    reduced.phase = full.phase
      ∧ reduced.errors = full.errors
      ∧ reduced.tree = full.tree.erase (rank tokens) := by
  intro full reduced
  obtain ⟨heq, -, -⟩ := gather_erase none
    (Lockstep.parse_inStep erasing_lawful maxNesting .declaration) []
    (.start tokens) (.start tokens)
  have hstart : (State.start tokens).erase tokens
      = .start (visible tokens) := by
    unfold State.erase State.start
    rw [rank_length]
    rfl
  have heq : gather .strict none (parse .strict maxNesting .declaration)
      (visible tokens).length [] (.start (visible tokens)) = _ :=
    hstart ▸ heq
  unfold full reduced ParseOutcome.ofTokens
  dsimp only
  rw [heq]
  refine ⟨rfl, rfl, ?_⟩
  rw [Node.erase, rank_length]
  rfl

end FrontEnd
