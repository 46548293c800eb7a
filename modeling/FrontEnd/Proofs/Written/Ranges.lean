/-
The nodes of an expression cover the lexemes that were written for them:
each one is the node of an expression whose lexemes stand where the range
of the node is (`Expression.covers`).
-/
import FrontEnd.Proofs.Tree.Order
import FrontEnd.Proofs.Written.Expression

namespace FrontEnd.Written

variable {locate : Nat → Location} {a b ws : List Lexeme} {l : Lexeme}
variable {i : Nat} {n : Node}

-- ================================================================ places

/-- Some lexemes stand among others from the index on. -/
def StandsAt (part ws : List Lexeme) (i : Nat) : Prop :=
  part <+: ws.drop i

theorem StandsAt.append (h : StandsAt (a ++ b) ws i) :
    StandsAt a ws i ∧ StandsAt b ws (i + a.length) := by
  refine ⟨(List.prefix_append a b).trans h, ?_⟩
  obtain ⟨rest, hrest⟩ := h
  refine ⟨rest, ?_⟩
  rw [← List.drop_drop, ← hrest, List.append_assoc, List.drop_left]

theorem StandsAt.tail (h : StandsAt (l :: b) ws i) :
    StandsAt b ws (i + 1) :=
  (StandsAt.append (a := [l]) h).2

-- ================================================================ nodes

/-- The node is that of an expression, and its range is where that stands. -/
def IsWritten (locate : Nat → Location) (ws : List Lexeme)
    (n : Node) : Prop :=
  ∃ (r : Rank) (e : Expression r), n = e.node locate n.first
    ∧ n.stop = n.first + e.length ∧ StandsAt e.write ws n.first

/-- All nodes of some trees are those of expressions. -/
def Covered (locate : Nat → Location) (ws : List Lexeme)
    (trees : List Node) : Prop :=
  ∀ tree ∈ trees, ∀ n ∈ tree.preorder, IsWritten locate ws n

namespace Covered

variable {tree : Node} {trees trees' : List Node}

theorem nil : Covered locate ws [] := nofun

theorem cons (h : Covered locate ws [tree]) (h' : Covered locate ws trees) :
    Covered locate ws (tree :: trees) :=
  List.forall_mem_cons.2 ⟨h tree List.mem_cons_self, h'⟩

theorem append (h : Covered locate ws trees)
    (h' : Covered locate ws trees') : Covered locate ws (trees ++ trees') :=
  List.forall_mem_append.2 ⟨h, h'⟩

/-- An expression with a node of its own is covered if its parts are. -/
theorem node {r : Rank} {e : Expression r} {kind : NodeKind}
    (hnode : e.node locate i = nodeOf locate kind i e.length trees)
    (h : StandsAt e.write ws i) (hparts : Covered locate ws trees) :
    Covered locate ws [e.node locate i] := by
  rintro tree htree n hn
  rw [List.mem_singleton.1 htree, Node.preorder_eq] at hn
  rcases List.mem_cons.1 hn with rfl | hn
  · refine ⟨r, e, ?_⟩
    rw [hnode]
    exact ⟨hnode.symm, rfl, h⟩
  · rw [hnode] at hn
    obtain ⟨part, hpart, hn⟩ := List.mem_flatMap.1 hn
    exact hparts part hpart n hn

end Covered

mutual

/-- Each node of an expression covers what was written for it. -/
theorem Expression.covers (locate : Nat → Location) (ws : List Lexeme) :
    {r : Rank} → (e : Expression r) → (i : Nat) →
    StandsAt e.write ws i → Covered locate ws [e.node locate i]
  | _, .plain e, _, h | _, .tight e, _, h | _, .simple e, _, h
  | _, .single e, _, h => e.covers locate ws _ h
  | _, .number v, _, h => .node (e := .number v) rfl h .nil
  | _, .parens inner, _, h =>
    .node (e := .parens inner) rfl h
      (inner.covers locate ws _ h.tail.append.1)
  | _, .step e op hop, _, h =>
    .node (e := .step e op hop) rfl h (e.covers locate ws _ h.append.1)
  | _, .call callee, _, h =>
    .node (e := .call callee) rfl h (callee.covers locate ws _ h.append.1)
  | _, .callWith callee items, _, h =>
    have hitems := h.append.2.tail.append.1
    .node (e := .callWith callee items) rfl h
      (.cons (callee.covers locate ws _ h.append.1)
        (items.covers locate ws _ hitems))
  | _, .subscript object index, _, h =>
    have hindex := h.append.2.tail.append.1
    .node (e := .subscript object index) rfl h
      (.cons (object.covers locate ws _ h.append.1)
        (index.covers locate ws _ hindex))
  | _, .unary op hop e, _, h =>
    .node (e := .unary op hop e) rfl h (e.covers locate ws _ h.tail)
  | _, .joined first op hop second others, _, h =>
    have hrest := h.append.2.tail
    .node (e := .joined first op hop second others) rfl h
      (.cons (first.covers locate ws _ h.append.1)
        (.cons (second.covers locate ws _ hrest.append.1)
          (others.covers locate ws _ hrest.append.2)))
  | _, .assigns first op hop others last, _, h =>
    have hrest := h.append.2.tail
    .node (e := .assigns first op hop others last) rfl h
      (.append (.cons (first.covers locate ws _ h.append.1)
          (others.covers locate ws _ hrest.append.1))
        (last.covers locate ws _ hrest.append.2))
  | _, .chooses condition first others last, _, h =>
    have hfirst := h.append.2.tail
    have hrest := hfirst.append.2.tail
    .node (e := .chooses condition first others last) rfl h
      (.append (.cons (condition.covers locate ws _ h.append.1)
          (.cons (first.covers locate ws _ hfirst.append.1)
            (others.covers locate ws _ hrest.append.1)))
        (last.covers locate ws _ hrest.append.2))
  | _, .several first others, _, h =>
    .node (e := .several first others) rfl h
      (.cons (first.covers locate ws _ h.append.1)
        (others.covers locate ws _ h.append.2.tail))

/-- Each node of parts covers what was written for it. -/
theorem Parts.covers (locate : Nat → Location) (ws : List Lexeme) :
    {k : Series} → (p : Parts k) → (i : Nat) → StandsAt p.write ws i →
    Covered locate ws (p.nodes locate i)
  | _, .lastItem e, _, h => e.covers locate ws _ h
  | _, .item e rest, _, h =>
    .cons (e.covers locate ws _ h.append.1)
      (rest.covers locate ws _ h.append.2.tail)
  | _, .noOperand, _, _ | _, .noTarget, _, _ | _, .noChoice, _, _ => .nil
  | _, .operand _ _ e rest, _, h =>
    .cons (e.covers locate ws _ h.tail.append.1)
      (rest.covers locate ws _ h.tail.append.2)
  | _, .target e _ _ rest, _, h =>
    .cons (e.covers locate ws _ h.append.1)
      (rest.covers locate ws _ h.append.2.tail)
  | _, .choice condition e rest, _, h =>
    have he := h.append.2.tail
    .cons (condition.covers locate ws _ h.append.1)
      (.cons (e.covers locate ws _ he.append.1)
        (rest.covers locate ws _ he.append.2.tail))

end

end FrontEnd.Written
