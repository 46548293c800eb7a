/-
Nodes in their places. A node is sound over a token list if it covers
tokens of the list, stands where the first of them stands, holds its
children one behind the other, stands at a jump if it is one, and all of
its children are sound. `Row` says that of some nodes between two
positions, and `Made` of the one node that a rule builds between two
states.
-/
import FrontEnd.Proofs.Course.Way

namespace FrontEnd

namespace Node

/-- The children of a node lie inside it, one behind the other. -/
structure Nests (n : Node) : Prop where
  inside : ∀ c ∈ n.children, n.first ≤ c.first ∧ c.stop ≤ n.stop
  ordered : n.children.Pairwise fun c d => c.stop ≤ d.first

/-- A node covers tokens of the list, and stands where the first of them
stands; that is a directive only if the node is that directive. -/
structure Placed (tokens : List Token) (n : Node) : Prop where
  nonempty : n.first < n.stop
  within : n.stop ≤ tokens.length
  location : tokens[n.first]?.map (·.location) = some n.location
  directive : ∀ t, tokens[n.first]? = some t → t.isDirective = true →
    n.kind = .preprocessorDirective ∧ n.stop = n.first + 1

/-- A node begins with a `goto` that a name and a semicolon follow,
directives aside, and has nothing below it. -/
structure IsJump (tokens : List Token) (n : Node) : Prop where
  childless : n.children = []
  word : ∃ t, tokens[n.first]? = some t ∧ t.isKeyword "goto" = true
  label : (Grammar.tokenAt 1 (tokens.drop n.first)).isName = true
  semicolon : (Grammar.tokenAt 2 (tokens.drop n.first)).isPunct ";" = true

/-- A node is in its place, and so is everything below it. -/
inductive Sound (tokens : List Token) : Node → Prop
  | mk {n : Node} : n.Placed tokens → n.Nests →
    (n.kind = .gotoStatement → n.IsJump tokens) →
    (∀ c ∈ n.children, c.Sound tokens) → Sound tokens n

namespace Sound

variable {tokens : List Token} {n : Node}

theorem placed (h : n.Sound tokens) : n.Placed tokens := by
  cases h with | mk hplaced _ _ _ => exact hplaced

theorem nests (h : n.Sound tokens) : n.Nests := by
  cases h with | mk _ hnests _ _ => exact hnests

theorem children (h : n.Sound tokens) : ∀ c ∈ n.children, c.Sound tokens := by
  cases h with | mk _ _ _ hchildren => exact hchildren

theorem jump (h : n.Sound tokens) (hkind : n.kind = .gotoStatement) :
    n.IsJump tokens := by
  cases h with | mk _ _ hjump _ => exact hjump hkind

@[grind →]
theorem nonempty (h : n.Sound tokens) : n.first < n.stop :=
  h.placed.nonempty

/-- Only a directive begins with a directive. -/
theorem retag (h : n.Sound tokens) (kind : NodeKind)
    (hkind : n.kind ≠ .preprocessorDirective)
    (hjump : kind ≠ .gotoStatement) :
    ({ n with kind := kind } : Node).Sound tokens := by
  refine .mk ?_ ⟨h.nests.inside, h.nests.ordered⟩ (absurd · hjump)
    h.children
  refine ⟨h.placed.nonempty, h.placed.within, h.placed.location, ?_⟩
  intro t ht hdirective
  exact absurd (h.placed.directive t ht hdirective).1 hkind

end Sound

end Node

namespace Grammar

-- ================================================================== rows

/-- Sound nodes between two positions, one behind the other. -/
structure Row (tokens : List Token) (lo : Nat) (ns : List Node)
    (hi : Nat) : Prop where
  sound : ∀ n ∈ ns, n.Sound tokens
  bounds : ∀ n ∈ ns, lo ≤ n.first ∧ n.stop ≤ hi
  ordered : ns.Pairwise fun a b => a.stop ≤ b.first

namespace Row

variable {tokens : List Token} {lo mid hi : Nat} {n : Node}
  {ms ns : List Node}

theorem nil : Row tokens lo [] hi := ⟨nofun, nofun, .nil⟩

theorem mono {lo' hi' : Nat} (h : Row tokens lo ns hi) (hlo : lo' ≤ lo)
    (hhi : hi ≤ hi') : Row tokens lo' ns hi' where
  sound := h.sound
  bounds a ha := ⟨hlo.trans (h.bounds a ha).1, (h.bounds a ha).2.trans hhi⟩
  ordered := h.ordered

/-- A node in front of nodes that come behind it. -/
theorem cons (h : n.Sound tokens) (hlo : lo ≤ n.first)
    (hhi : n.stop ≤ hi) (hns : Row tokens n.stop ns hi) :
    Row tokens lo (n :: ns) hi where
  sound := List.forall_mem_cons.2 ⟨h, hns.sound⟩
  bounds := by
    refine List.forall_mem_cons.2 ⟨⟨hlo, hhi⟩, fun a ha => ?_⟩
    have hbounds := hns.bounds a ha
    have := h.nonempty
    omega
  ordered := List.pairwise_cons.2
    ⟨fun a ha => (hns.bounds a ha).1, hns.ordered⟩

/-- Nodes up to some point, and nodes behind that. -/
theorem append {m : Nat} (hms : Row tokens lo ms mid)
    (hns : Row tokens m ns hi) (hlo : lo ≤ m) (hmid : mid ≤ m)
    (hhi : mid ≤ hi) : Row tokens lo (ms ++ ns) hi where
  sound a ha := (List.mem_append.1 ha).elim (hms.sound a) (hns.sound a)
  bounds a ha := by
    rcases List.mem_append.1 ha with ha | ha
    · have := hms.bounds a ha
      omega
    · have := hns.bounds a ha
      omega
  ordered := by
    refine List.pairwise_append.2 ⟨hms.ordered, hns.ordered, ?_⟩
    intro a ha b hb
    exact (hms.bounds a ha).2.trans (hmid.trans (hns.bounds b hb).1)

/-- Another node, where the last one comes first. -/
theorem push (hns : Row tokens lo ns.reverse mid) (h : n.Sound tokens)
    (hlo : lo ≤ n.first) (hmid : mid ≤ n.first) (hhi : n.stop ≤ hi) :
    Row tokens lo (n :: ns).reverse hi := by
  rw [List.reverse_cons]
  have := h.nonempty
  refine hns.append (m := n.first) ?_ hlo hmid (by omega)
  exact .cons h (Nat.le_refl _) hhi .nil

end Row

-- ================================================================= nodes

/-- A sound node of tokens between two states. -/
structure Made (tokens : List Token) (s : State) (n : Node)
    (s' : State) : Prop where
  sound : n.Sound tokens
  first : s.mark.index ≤ n.first
  stop : n.stop ≤ s'.position

/-- A node of the tokens read since the mark is sound if its children
are, and if there are such tokens. -/
theorem Made.node_jump {tokens : List Token} {s s' : State}
    {ns : List Node} (kind : NodeKind) (hs : s.Along tokens)
    (hs' : s'.Along tokens) (hmoved : s.mark.index < s'.position)
    (hns : Row tokens s.mark.index ns s'.position)
    (hjump : kind = .gotoStatement →
      (s'.node kind s.mark ns).IsJump tokens) :
    Made tokens s (s'.node kind s.mark ns) s' := by
  have hstop : (s'.node kind s.mark ns).stop = s'.position :=
    max_eq_left hmoved.le
  have hwithin := hs'.within
  have hget := hs.getElem_mark (by omega)
  refine ⟨.mk ⟨?_, ?_, ?_, ?_⟩ ⟨?_, hns.ordered⟩ hjump hns.sound,
    Nat.le_refl _, hstop.le⟩
  · rw [hstop]
    exact hmoved
  · rw [hstop]
    exact hwithin
  · show tokens[s.mark.index]?.map _ = _
    rw [hget]
    rfl
  · intro t ht hdirective
    change tokens[s.mark.index]? = some t at ht
    rw [hget, Option.some.injEq] at ht
    rw [← ht, State.peek_isDirective] at hdirective
    cases hdirective
  · rw [hstop]
    exact hns.bounds

theorem Made.node {tokens : List Token} {s s' : State} {ns : List Node}
    (kind : NodeKind) (hjump : (kind == .gotoStatement) = false)
    (hs : s.Along tokens) (hs' : s'.Along tokens)
    (hmoved : s.mark.index < s'.position)
    (hns : Row tokens s.mark.index ns s'.position) :
    Made tokens s (s'.node kind s.mark ns) s' :=
  .node_jump kind hs hs' hmoved hns
    (absurd · (beq_eq_false_iff_ne.1 hjump))

/-- A node keeps its place where it is given another kind. -/
theorem Made.retag {tokens : List Token} {s s' : State} {n : Node}
    (h : Made tokens s n s') (kind : NodeKind)
    (hkind : n.kind ≠ .preprocessorDirective)
    (hjump : kind ≠ .gotoStatement) :
    Made tokens s { n with kind := kind } s' :=
  ⟨h.sound.retag kind hkind hjump, h.first, h.stop⟩

/-- A node behind those that end where it begins. -/
theorem Row.snoc {tokens : List Token} {lo : Nat} {ns : List Node}
    {n : Node} {s s' : State} (hns : Row tokens lo ns s.position)
    (hn : Made tokens s n s') (hlo : lo ≤ s.position) :
    Row tokens lo (ns ++ [n]) s'.position := by
  have := hn.sound.nonempty
  have := hn.first
  have := hn.stop
  have := s.position_le_mark
  refine hns.append (m := n.first) ?_ (by omega) (by omega) (by omega)
  exact .cons hn.sound (Nat.le_refl _) hn.stop .nil

attribute [grind →] Made.sound Made.first Made.stop
attribute [grind ←] Row.nil Row.cons

end Grammar

end FrontEnd
