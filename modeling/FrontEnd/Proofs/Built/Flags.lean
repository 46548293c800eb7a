/-
The flag of a node says whether bad input was skipped before the node was
finished. A tree is finished in postorder, and a flag that was set is never
taken back, so along a postorder walk the flags only go up
(`Built.flagged`). They start to with the first recovery, which is also the
first time that an error is reported.
-/
import Mathlib.Data.Bool.Basic
import FrontEnd.Proofs.Built.Nesting
import FrontEnd.Proofs.Built.Statement
import FrontEnd.Proofs.Lockstep.Policy

namespace FrontEnd

namespace Node

-- ============================================================== postorder

mutual

/-- The trees below a node from the first to the last, then the node. -/
def postorder : Node → List Node
  | n@⟨_, _, _, _, _, children⟩ => postorderAll children ++ [n]

/-- Some trees, one after the other. -/
def postorderAll : List Node → List Node
  | [] => []
  | n :: ns => n.postorder ++ postorderAll ns

end

theorem postorderAll_eq (ns : List Node) :
    postorderAll ns = ns.flatMap postorder := by
  induction ns with
  | nil => rfl
  | cons n ns ih =>
    rw [postorderAll, ih]
    rfl

theorem postorder_eq (n : Node) :
    n.postorder = n.children.flatMap postorder ++ [n] := by
  cases n
  rw [postorder, postorderAll_eq]

end Node

namespace Grammar

-- =================================================================== flags

theorem State.settle_recovered (s : State) :
    s.settle.recovered = s.recovered := by
  unfold settle
  split <;> rfl

variable {policy : Policy} {s s' s'' : State} {n : Node} {ms ns : List Node}

/-- Bad input was skipped, or none was and no error was reported. -/
inductive Recovers (policy : Policy) (s s' : State) : Prop
  | skipped : policy = .tolerant → s'.recovered = true →
    Recovers policy s s'
  | clean : s'.recovered = s.recovered → s'.errors = s.errors →
    Recovers policy s s'

namespace Recovers

theorem refl (s : State) : Recovers policy s s := .clean rfl rfl

theorem trans (h : Recovers policy s s') (h' : Recovers policy s' s'') :
    Recovers policy s s'' := by
  cases h' with
  | skipped hpolicy hs => exact .skipped hpolicy hs
  | clean hrecovered herrors =>
    cases h with
    | skipped hpolicy hs => exact .skipped hpolicy (hrecovered.trans hs)
    | clean hr he => exact .clean (hrecovered.trans hr) (herrors.trans he)

theorem advance (s : State) : Recovers policy s s.advance :=
  .clean s.advance_recovered s.advance_errors

/-- Once set, the flag stays. -/
theorem le (h : Recovers policy s s') : s.recovered ≤ s'.recovered := by
  cases h with
  | skipped _ hs => exact hs ▸ Bool.le_true _
  | clean hs _ => exact hs.ge

/-- A strict reading skips no bad input. -/
theorem strict (h : Recovers .strict s s') :
    s'.recovered = s.recovered := by
  cases h with
  | skipped hpolicy _ => cases hpolicy
  | clean hs _ => exact hs

end Recovers

/-- What is known of the nodes that were finished between two states: in
postorder their flags go up, from the flag of the one state to that of the
other. -/
structure Flagged (policy : Policy) (s : State) (ns : List Node)
    (s' : State) : Prop where
  recovers : Recovers policy s s'
  ordered : (ns.flatMap Node.postorder).Pairwise (·.recovered ≤ ·.recovered)
  bounds : ∀ n ∈ ns.flatMap Node.postorder,
    s.recovered ≤ n.recovered ∧ n.recovered ≤ s'.recovered

namespace Flagged

theorem nil (h : Recovers policy s s') : Flagged policy s [] s' := ⟨h, .nil, nofun⟩

theorem append (hms : Flagged policy s ms s') (hns : Flagged policy s' ns s'') :
    Flagged policy s (ms ++ ns) s'' := by
  refine ⟨hms.recovers.trans hns.recovers, ?_, ?_⟩
  · rw [List.flatMap_append]
    refine List.pairwise_append.2 ⟨hms.ordered, hns.ordered, ?_⟩
    intro m hm n hn
    exact (hms.bounds m hm).2.trans (hns.bounds n hn).1
  · rw [List.flatMap_append]
    intro n hn
    rcases List.mem_append.1 hn with hn | hn
    · have hbounds := hms.bounds n hn
      exact ⟨hbounds.1, hbounds.2.trans hns.recovers.le⟩
    · have hbounds := hns.bounds n hn
      exact ⟨hms.recovers.le.trans hbounds.1, hbounds.2⟩

theorem on (h : Flagged policy s ns s') (h' : Recovers policy s' s'') :
    Flagged policy s ns s'' := by
  rw [← List.append_nil ns]
  exact h.append (.nil h')

/-- A node that carries the flag of the state, behind its children. -/
theorem wrap (h : Flagged policy s ns s') (hchildren : n.children = ns)
    (hflag : n.recovered = s'.recovered) : Flagged policy s [n] s' := by
  have hpostorder : [n].flatMap Node.postorder
      = ns.flatMap Node.postorder ++ [n] := by
    rw [List.flatMap_singleton, Node.postorder_eq, hchildren]
  refine ⟨h.recovers, ?_, ?_⟩
  · rw [hpostorder]
    refine List.pairwise_append.2 ⟨h.ordered, List.pairwise_singleton _ _, ?_⟩
    intro m hm _ hn
    rw [List.mem_singleton.1 hn, hflag]
    exact (h.bounds m hm).2
  · rw [hpostorder]
    intro m hm
    rcases List.mem_append.1 hm with hm | hm
    · exact h.bounds m hm
    · rw [List.mem_singleton.1 hm, hflag]
      exact ⟨h.recovers.le, le_refl _⟩

/-- The kind of a node has nothing to do with its flag. -/
theorem retag (h : Flagged policy s [n] s') (kind : NodeKind) :
    Flagged policy s [{ n with kind := kind }] s' := by
  obtain ⟨hrecovers, hordered, hbounds⟩ := h
  rw [List.flatMap_singleton, Node.postorder_eq] at hordered hbounds
  refine ⟨hrecovers, ?_, ?_⟩
  · rw [List.flatMap_singleton, Node.postorder_eq]
    rw [List.pairwise_append] at hordered ⊢
    refine ⟨hordered.1, List.pairwise_singleton _ _, ?_⟩
    intro m hm _ hn
    rw [List.mem_singleton.1 hn]
    exact hordered.2.2 m hm n (List.mem_singleton_self n)
  · rw [List.flatMap_singleton, Node.postorder_eq]
    intro m hm
    rcases List.mem_append.1 hm with hm | hm
    · exact hbounds m (List.mem_append_left _ hm)
    · rw [List.mem_singleton.1 hm]
      exact hbounds n (List.mem_append_right _ (List.mem_singleton_self n))

end Flagged

/-- Nodes are finished in postorder, and no flag is taken back. -/
theorem Built.flagged (h : Built policy s ns s') : Flagged policy s ns s' := by
  induction h with
  | here s => exact .nil (.refl s)
  | trans _ _ ihms ihns => exact ihms.append ihns
  | @read s _ => exact .nil (.advance s)
  | @directive s _ _ _ _ =>
    exact Flagged.wrap (.nil (.clean rfl rfl)) rfl rfl
  | group hopens hs' =>
    obtain ⟨g, -, hconsumes⟩ := skipGroup_consumes hopens hs'
    exact .nil (.clean hconsumes.recovered hconsumes.errors)
  | @enclosed s s' ns _ _ _ ih =>
    have hopen : Flagged policy s [] s.advance := .nil (.advance s)
    exact (hopen.append ih).on (.advance s')
  | pack _ _ _ =>
    exact .nil (((Recovers.advance _).trans (.advance _)).trans (.advance _))
  | node kind _ ih => exact ih.wrap rfl rfl
  | retag kind _ ih => exact ih.retag kind
  | settle s => exact .nil (.clean s.settle_recovered s.settle_errors)
  | recover hpolicy hs' => exact .nil (.skipped hpolicy hs')

-- =================================================================== units

/-- Without an error a unit was read to its end, by whatever policy. -/
theorem unit_strict {tokens : List Token}
    (h : (ParseOutcome.ofTokens policy tokens).errors = []) :
    (unitSequence policy tokens).error = none
      ∧ unitSequence policy tokens = unitSequence .strict tokens := by
  have hagree : Agree (unitSequence .strict tokens)
    (unitSequence .tolerant tokens) := unit_agree tokens
  change ((unitSequence policy tokens).state.errors
    ++ (unitSequence policy tokens).error.toArray).toList = [] at h
  rw [Array.toList_append, List.append_eq_nil_iff] at h
  obtain ⟨herrors, herror⟩ := h
  have hnone : (unitSequence policy tokens).error = none := by
    cases hcases : (unitSequence policy tokens).error with
    | none => rfl
    | some e =>
      rw [hcases] at herror
      cases herror
  refine ⟨hnone, ?_⟩
  cases policy with
  | strict => rfl
  | tolerant =>
    generalize unitSequence .strict tokens = r at hagree
    generalize unitSequence .tolerant tokens = r' at hagree herrors
    cases hagree with
    | whole _ => rfl
    | cut _ ht _ =>
      have hfirst := ht.first
      rw [herrors] at hfirst
      cases hfirst

/-- Without an error a unit was read to its end, and nothing was skipped. -/
theorem unit_clean {tokens : List Token}
    (h : (ParseOutcome.ofTokens policy tokens).errors = []) :
    (unitSequence policy tokens).error = none
      ∧ (unitSequence policy tokens).state.recovered = false := by
  obtain ⟨hnone, hstrict⟩ := unit_strict h
  refine ⟨hnone, ?_⟩
  rw [hstrict]
  exact (unit_agree tokens).clean.recovered

end Grammar

open Grammar

/-- In a tolerant reading of any tokens the flags go up along a postorder
walk of the tree, in which the nodes were finished: once a node is flagged,
so are all those that enclose it or were built later. The root is flagged if
and only if an error was reported. A strict reading flags no node. -/
theorem recovered_flags (tokens : List Token) :
    let strict := ParseOutcome.ofTokens .strict tokens
    let tolerant := ParseOutcome.ofTokens .tolerant tokens
    (tolerant.tree.postorder.Pairwise
        fun m n => m.recovered = true → n.recovered = true)
      ∧ (tolerant.tree.recovered = true ↔ tolerant.errors ≠ [])
      ∧ ∀ n ∈ strict.tree.postorder, n.recovered = false := by
  intro strict tolerant
  have hnone : (unitSequence .tolerant tokens).error = none :=
    gather_tolerant [] _
  obtain ⟨s, hbuilt, -, hend⟩ := unit_built .tolerant tokens
  obtain rfl := (hend hnone).1
  have hflagged := hbuilt.flagged
  refine ⟨?_, ⟨fun hroot hempty => ?_, fun hreported => ?_⟩, fun n hn => ?_⟩
  · have htree : Flagged .tolerant (.start tokens) [tolerant.tree] _ :=
      hflagged.wrap rfl rfl
    have hordered := htree.ordered
    rw [List.flatMap_singleton] at hordered
    exact hordered
  · -- without an error there was nothing to skip
    rw [show tolerant.tree.recovered = false from (unit_clean hempty).2]
      at hroot
    cases hroot
  · cases hflagged.recovers with
    | skipped _ hs => exact hs
    | clean _ hs =>
      refine absurd ?_ hreported
      show ((unitSequence .tolerant tokens).state.errors
        ++ (unitSequence .tolerant tokens).error.toArray).toList = []
      rw [hnone, hs]
      rfl
  · obtain ⟨s, hbuilt, -, -⟩ := unit_built .strict tokens
    have hflagged := hbuilt.flagged
    have hclean : s.recovered = false := hflagged.recovers.strict
    rw [Node.postorder_eq] at hn
    rcases List.mem_append.1 hn with hn | hn
    · have hle := (hflagged.bounds n hn).2
      rw [hclean] at hle
      exact Bool.eq_false_of_le_false hle
    · rw [List.mem_singleton.1 hn]
      exact (unit_agree tokens).clean.recovered

end FrontEnd
