/-
The course of a unit, and the tree that it leaves.

The sequence of all declarations is a sequence as any other, so that what
was said of one holds of the whole: it runs to its end without any bound
on its loops, every pass reads a token, and the nodes that it gathers are
sound (`gathers`, `parse_yields`). The counters of the scanners that count
brackets are taken one by one: a scanner that may do anything at all where
a counter would fall below zero still is the same scanner.
-/
import FrontEnd.Proofs.Course.Statement
import FrontEnd.Proofs.Tree.Order

namespace FrontEnd

namespace Grammar

-- ============================================================== counters

/-- The declarations of a unit as they are gathered. -/
abbrev unitSequence (policy : Policy) (tokens : List Token) : Gathered :=
  gather policy none (parse policy maxNesting .declaration) tokens.length
    [] (.start tokens)

theorem unitSequence_gathers (policy : Policy) (tokens : List Token) :
    let r := unitSequence policy tokens
    Row tokens 0 r.items r.state.position
      ∧ ∃ path, Gathers policy none (parse policy maxNesting .declaration)
          [] (.start tokens) path r
        ∧ Course tokens (.start tokens) path r.state :=
  gathers (parse_yields tokens policy maxNesting .declaration) policy none
    [] (.start tokens) (Nat.le_refl _) .nil

/-- No mark of the end lies in front of a state on the way. -/
theorem State.Along.position_le_end {tokens : List Token} {s : State}
    (hs : s.Along tokens) {index : Nat} {t : Token}
    (ht : tokens[index]? = some t) (hend : t.isEnd = true) :
    s.position ≤ index := by
  by_contra hlt
  have hmem : t ∈ tokens.take s.position := by
    rw [List.mem_take_iff_getElem]
    obtain ⟨hindex, rfl⟩ := List.getElem?_eq_some_iff.1 ht
    exact ⟨index, by omega, rfl⟩
  rw [hs.unended t hmem] at hend
  cases hend

end Grammar

open Grammar

section
variable (policy : Policy) (tokens : List Token)

theorem tree_children_sound :
    ∀ c ∈ (ParseOutcome.ofTokens policy tokens).tree.children,
      c.Sound tokens :=
  (unitSequence_gathers policy tokens).1.sound

theorem tree_nests : (ParseOutcome.ofTokens policy tokens).tree.Nests := by
  obtain ⟨hrow, path, -, hcourse⟩ := unitSequence_gathers policy tokens
  have hwithin := (hcourse.leads (.start tokens)).along.within
  refine ⟨fun c hc => ⟨Nat.zero_le _, ?_⟩, hrow.ordered⟩
  exact (hrow.bounds c hc).2.trans hwithin

/-- All the nodes of a tree but the unit are sound. -/
theorem tree_mem_preorder {n : Node}
    (hn : n ∈ (ParseOutcome.ofTokens policy tokens).tree.preorder) :
    n = (ParseOutcome.ofTokens policy tokens).tree ∨ n.Sound tokens := by
  rw [Node.preorder_eq] at hn
  refine (List.mem_cons.1 hn).imp_right fun hn => ?_
  obtain ⟨c, hc, hn⟩ := List.mem_flatMap.1 hn
  exact ((tree_children_sound policy tokens c hc).mem_preorder n hn).1

theorem tree_preorder_pairwise :
    (ParseOutcome.ofTokens policy tokens).tree.preorder.Pairwise
      Node.Ahead :=
  (tree_nests policy tokens).preorder_pairwise
    (fun c hc => (tree_children_sound policy tokens c hc).preorder_within)
    fun c hc => (tree_children_sound policy tokens c hc).preorder_pairwise

end

/-- The tree of any tokens has the children of each node inside it, one
behind the other; every node but the unit covers tokens, stands where the
first of them stands, and begins with a directive only if it is one. So
the nodes of one kind are found in the order in which they begin. -/
theorem tree_wellFormed (policy : Policy) (tokens : List Token) :
    let tree := (ParseOutcome.ofTokens policy tokens).tree
    (∀ n ∈ tree.descendants, n.Nests)
      ∧ (∀ c ∈ tree.children, ∀ n ∈ c.descendants, n.Placed tokens)
      ∧ ∀ kind, (tree.findAll kind).Pairwise (·.first ≤ ·.first) := by
  intro tree
  refine ⟨fun n hn => ?_, fun c hc n hn => ?_, fun kind => ?_⟩
  · rw [Node.descendants_eq] at hn
    rcases tree_mem_preorder policy tokens hn with rfl | hsound
    · exact tree_nests policy tokens
    · exact hsound.nests
  · rw [Node.descendants_eq] at hn
    have hsound := tree_children_sound policy tokens c hc
    exact (hsound.mem_preorder n hn).1.placed
  · unfold Node.findAll
    rw [Node.descendants_eq]
    exact ((tree_preorder_pairwise policy tokens).imp
      Node.Ahead.first).filter _

end FrontEnd
