/-
The order in which the nodes of a tree are listed. The walk that keeps the
trees still to be visited on a list goes through them in preorder, and in
preorder the nodes of a tree whose children lie inside their parents, one
behind the other, begin where the one before begins or later, and behind
its end if that has no children.
-/
import FrontEnd.Proofs.Course.Nodes

namespace FrontEnd.Node

-- ================================================================= listing

theorem preorderAll_eq (ns : List Node) :
    preorderAll ns = ns.flatMap preorder := by
  induction ns with
  | nil => rfl
  | cons n ns ih =>
    rw [preorderAll, ih]
    rfl

theorem preorder_eq (n : Node) :
    n.preorder = n :: n.children.flatMap preorder := by
  cases n
  rw [preorder, preorderAll_eq]

/-- What a walk has done is followed by all that waits, in preorder. -/
theorem walk_eq (done : Array Node) (waiting : List Node) :
    (walk done waiting).toList
      = done.toList ++ waiting.flatMap preorder := by
  induction done, waiting using walk.induct with
  | case1 done => simp [walk]
  | case2 done n ns ih =>
    rw [walk, ih, List.flatMap_cons, preorder_eq, List.flatMap_append]
    simp

theorem descendants_eq (n : Node) : n.descendants = n.preorder := by
  unfold descendants
  rw [walk_eq]
  simp

-- =================================================================== order

variable {tokens : List Token} {n : Node}

/-- A node begins no later than another, and ends before that if there is
nothing below it. -/
structure Ahead (a b : Node) : Prop where
  first : a.first ≤ b.first
  leaf : a.children = [] → a.stop ≤ b.first

/-- The nodes of a tree are each ahead of those listed behind it, if that
holds of the trees below it and these lie in order. -/
theorem Nests.preorder_pairwise (h : n.Nests)
    (hwithin : ∀ c ∈ n.children, ∀ m ∈ c.preorder,
      c.first ≤ m.first ∧ m.first ≤ m.stop ∧ m.stop ≤ c.stop)
    (hchildren : ∀ c ∈ n.children, c.preorder.Pairwise Ahead) :
    n.preorder.Pairwise Ahead := by
  rw [preorder_eq, List.pairwise_cons, List.pairwise_flatMap]
  refine ⟨fun m hm => ?_, hchildren, ?_⟩
  · obtain ⟨c, hc, hm⟩ := List.mem_flatMap.1 hm
    refine ⟨(h.inside c hc).1.trans (hwithin c hc m hm).1, fun hleaf => ?_⟩
    exact absurd hc (hleaf ▸ List.not_mem_nil)
  · refine h.ordered.imp_of_mem ?_
    intro c d hc hd hcd m hm m' hm'
    -- the one ends where its tree does or before, the other begins behind
    have hstop : m.stop ≤ m'.first :=
      ((hwithin c hc m hm).2.2.trans hcd).trans (hwithin d hd m' hm').1
    exact ⟨(hwithin c hc m hm).2.1.trans hstop, fun _ => hstop⟩

/-- All the nodes of a sound tree are sound and lie inside it. -/
theorem Sound.mem_preorder (h : n.Sound tokens) :
    ∀ m ∈ n.preorder, m.Sound tokens ∧ n.first ≤ m.first
      ∧ m.stop ≤ n.stop := by
  induction h with
  | mk hplaced hnests hjump hchildren ih =>
    intro m hm
    rw [preorder_eq] at hm
    rcases List.mem_cons.1 hm with rfl | hm
    · exact ⟨.mk hplaced hnests hjump hchildren, Nat.le_refl _,
        Nat.le_refl _⟩
    · obtain ⟨c, hc, hm⟩ := List.mem_flatMap.1 hm
      obtain ⟨hsound, hfirst, hstop⟩ := ih c hc m hm
      have hinside := hnests.inside c hc
      exact ⟨hsound, hinside.1.trans hfirst, hstop.trans hinside.2⟩

theorem Sound.preorder_within (h : n.Sound tokens) :
    ∀ m ∈ n.preorder, n.first ≤ m.first ∧ m.first ≤ m.stop
      ∧ m.stop ≤ n.stop := by
  intro m hm
  obtain ⟨hsound, hfirst, hstop⟩ := h.mem_preorder m hm
  exact ⟨hfirst, hsound.nonempty.le, hstop⟩

theorem Sound.preorder_pairwise (h : n.Sound tokens) :
    n.preorder.Pairwise Ahead := by
  induction h with
  | mk _ hnests _ hchildren ih =>
    exact hnests.preorder_pairwise
      (fun c hc => (hchildren c hc).preorder_within) ih

end FrontEnd.Node
