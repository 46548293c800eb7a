/-
What a node of each kind may hold.

`NodeKind.admits` is the schema of the trees: how many children a node has
and of which kinds, where the declaration of a loop over a range may stand,
and where directives may. A tree conforms if every node of it does.

What the rules of the grammar read does not matter to the schema, so all
that is said of a rule is what holds of its value (`Values`). The property
that goes along with every rule is `Node.Fits`: the tree conforms, and its
root is neither a directive nor the declaration of a range, so that it can
stand below any node that the schema does not ask more of. Only a sequence
lists directives among its items (`gather_listed`), and the nodes that are
made of a sequence are those that may hold them.
-/
import FrontEnd.Proofs.Tree.Coverage
import FrontEnd.Proofs.Tree.Order

namespace FrontEnd

-- ================================================================ the schema

namespace NodeKind

/-- Whether a node of the kind holds a sequence, in which directives may
stand. -/
def holdsSequence : NodeKind → Bool
  | .unit | .namespaceDefinition | .linkageSpecification
  | .classSpecifier | .compoundStatement => true
  | _ => false

/-- Whether a node of the kind can stand below any node that the schema does
not ask more of. -/
def isPlain (kind : NodeKind) : Bool :=
  kind != .preprocessorDirective && kind != .forRangeDeclaration

/-- Whether a node of the kind can have children of these kinds, in this
order. -/
def shape (kind : NodeKind) (inner : List NodeKind) : Bool :=
  match kind with
  | .binaryExpression | .assignmentExpression => 2 ≤ inner.length
  | .conditionalExpression => 3 ≤ inner.length && inner.length % 2 == 1
  | .memberAccess | .subscriptExpression => inner.length == 2
  | .unaryExpression | .postfixExpression | .castExpression
  | .parenthesizedExpression | .deleteExpression
  | .templateDeclaration => inner.length == 1
  | .callExpression => 1 ≤ inner.length
  | .lambdaExpression | .handler => inner == [.compoundStatement]
  | .tryBlock =>
    inner.head? == some .compoundStatement && inner.tail != []
      && inner.tail.all (· == .handler)
  | .whileStatement => inner.head? == some .condition && inner.length == 2
  | .rangeForStatement =>
    -- the third from the end, and no other
    inner.reverse[2]? == some .forRangeDeclaration
      && inner.count .forRangeDeclaration == 1
  | .enumSpecifier => inner.all (· == .enumerator)
  | .ctorInitializer => inner != [] && inner.all (· == .callExpression)
  | _ => true

section
variable (inner : List NodeKind)

@[simp] theorem shape_binaryExpression :
    shape .binaryExpression inner = decide (2 ≤ inner.length) := rfl

@[simp] theorem shape_assignmentExpression :
    shape .assignmentExpression inner = decide (2 ≤ inner.length) := rfl

@[simp] theorem shape_conditionalExpression :
    shape .conditionalExpression inner
      = (decide (3 ≤ inner.length) && inner.length % 2 == 1) := rfl

@[simp] theorem shape_callExpression :
    shape .callExpression inner = decide (1 ≤ inner.length) := rfl

@[simp] theorem shape_tryBlock :
    shape .tryBlock inner = (inner.head? == some .compoundStatement
      && inner.tail != [] && inner.tail.all (· == .handler)) := rfl

@[simp] theorem shape_whileStatement :
    shape .whileStatement inner
      = (inner.head? == some .condition && inner.length == 2) := rfl

@[simp] theorem shape_rangeForStatement :
    shape .rangeForStatement inner
      = (inner.reverse[2]? == some .forRangeDeclaration
        && inner.count .forRangeDeclaration == 1) := rfl

@[simp] theorem shape_enumSpecifier :
    shape .enumSpecifier inner = inner.all (· == .enumerator) := rfl

@[simp] theorem shape_ctorInitializer :
    shape .ctorInitializer inner
      = (inner != [] && inner.all (· == .callExpression)) := rfl

end

/-- Whether a node of the kind may have children of these kinds. The
declaration of a range stands in the loop over it and nowhere else, and a
directive in a sequence. -/
def admits (kind : NodeKind) (inner : List NodeKind) : Bool :=
  kind.shape inner
    && (kind == .rangeForStatement || !inner.contains .forRangeDeclaration)
    && (kind.holdsSequence || !inner.contains .preprocessorDirective)

end NodeKind

namespace Node

/-- Whether the node holds what the schema admits. -/
def conforms (n : Node) : Bool :=
  n.kind.admits (n.children.map (·.kind))

/-- Every node of the tree conforms to the schema. -/
def Conforms (n : Node) : Prop :=
  ∀ m ∈ n.preorder, m.conforms = true

theorem Conforms.mk {n : Node} (h : n.conforms = true)
    (hchildren : ∀ c ∈ n.children, c.Conforms) : n.Conforms := by
  intro m hm
  rw [preorder_eq] at hm
  rcases List.mem_cons.1 hm with rfl | hm
  · exact h
  · obtain ⟨c, hc, hm⟩ := List.mem_flatMap.1 hm
    exact hchildren c hc m hm

theorem Conforms.root {n : Node} (h : n.Conforms) : n.conforms = true :=
  h n (by rw [preorder_eq]; exact List.mem_cons_self)

theorem Conforms.child {n c : Node} (h : n.Conforms)
    (hc : c ∈ n.children) : c.Conforms := by
  intro m hm
  refine h m ?_
  rw [preorder_eq]
  exact List.mem_cons_of_mem _ (List.mem_flatMap.2 ⟨c, hc, hm⟩)

/-- An item of a sequence: a tree that conforms and is no declaration of a
range. -/
structure Listed (n : Node) : Prop where
  conforms : n.Conforms
  noRange : n.kind ≠ .forRangeDeclaration

/-- A tree that conforms and can stand below any node. -/
structure Fits (n : Node) : Prop extends n.Listed where
  noDirective : n.kind ≠ .preprocessorDirective

/-- A tree of a certain kind that conforms and can stand below any node. -/
structure FitsAs (kind : NodeKind) (n : Node) : Prop extends n.Fits where
  kind_eq : n.kind = kind

variable {kind : NodeKind} {first stop : Nat} {location : Location}
  {recovered : Bool} {n : Node} {ns : List Node}

theorem not_mem_kinds (h : ∀ n ∈ ns, n.kind ≠ kind) :
    (ns.map (·.kind)).contains kind = false := by
  rw [List.contains_eq_mem, decide_eq_false_iff_not, List.mem_map]
  rintro ⟨n, hn, hkind⟩
  exact h n hn hkind

/-- Kinds of which a node can have any trees as its children that fit. -/
theorem admits_of_fits (h : ∀ n ∈ ns, n.Fits)
    (hshape : kind.shape (ns.map (·.kind)) = true) :
    kind.admits (ns.map (·.kind)) = true := by
  unfold NodeKind.admits
  rw [hshape, not_mem_kinds fun n hn => (h n hn).noRange,
    not_mem_kinds fun n hn => (h n hn).noDirective]
  simp

theorem admits_of_listed (h : ∀ n ∈ ns, n.Listed)
    (hkind : kind.holdsSequence = true) :
    kind.admits (ns.map (·.kind)) = true := by
  have hshape : kind.shape (ns.map (·.kind)) = true := by
    cases kind <;> first | rfl | cases hkind
  unfold NodeKind.admits
  rw [hshape, hkind, not_mem_kinds fun n hn => (h n hn).noRange]
  simp

end Node

namespace Grammar

open Node

-- ========================================================= values of rules

/-- Whatever value a rule has, it has the property. -/
def Values {α : Type} (P : α → Prop) (p : Parser α) : Prop :=
  Ends (fun a _ => P a) p

namespace Values

variable {α β : Type} {P : α → Prop} {Q : β → Prop}

theorem fail {problem : SyntaxProblem} : Values P (Grammar.fail problem) :=
  Ends.fail

theorem failExpected {wanted : String} :
    Values P (Grammar.failExpected wanted) :=
  Ends.fail

theorem pure {b : β} (h : Q b) : Values Q (pure b) :=
  Ends.pure fun _ => h

theorem ite {c : Prop} [Decidable c] {p q : Parser β} (yes : Values Q p)
    (no : Values Q q) : Values Q (if c then p else q) :=
  Ends.ite yes no

/-- A rule of whose value nothing has to be known. -/
theorem bind {p : Parser α} {f : α → Parser β}
    (h : ∀ a, Values Q (f a)) : Values Q (p >>= f) :=
  Ends.bind h

theorem mono {p : Parser α} {P' : α → Prop} (h : Values P p)
    (k : ∀ a, P a → P' a) : Values P' p :=
  fun s a s' ha => k a (h s a s' ha)

/-- A rule of whose value something is known, and what comes behind it. -/
theorem seq {p : Parser α} {f : α → Parser β} (h : Values P p)
    (k : ∀ a, P a → Values Q (f a)) : Values Q (p >>= f) := by
  intro s b s' hb
  rw [bind_eq] at hb
  cases hp : p s with
  | ok a s'' =>
    rw [hp] at hb
    exact k a (h s a s'' hp) s'' b s' hb
  | error e s'' =>
    rw [hp] at hb
    cases hb

/-- A loop with an invariant. -/
theorem loop {round : α → Parser (Round α β)} (I : α → Prop)
    (hround : ∀ a, I a → Values (·.Sat I Q) (round a)) {a : α}
    (h : I a) : Values Q (Grammar.loop round a) :=
  fun _ _ _ hb => loop_value (fun a _ => I a)
    (fun a s r s' ha hr => hround a ha s r s' hr) h hb

/-- Items with commas between them: there is at least one. -/
theorem commaSeparated {item : Parser α} (h : Values P item) :
    Values (fun items => items ≠ [] ∧ ∀ a ∈ items, P a)
      (commaSeparated item) := by
  refine loop (fun items => ∀ a ∈ items, P a) ?_ (by simp)
  intro items hitems
  refine h.seq fun a ha => ?_
  have hall : ∀ b ∈ a :: items, P b := List.forall_mem_cons.2 ⟨ha, hitems⟩
  refine .bind fun _ => .ite (.pure hall) (.pure ⟨by simp, fun b hb => ?_⟩)
  exact hall b (List.mem_reverse.1 hb)

variable {kind : NodeKind} {m : Mark} {ns : List Node}

/-- A node over trees that fit. -/
theorem finish (h : ∀ n ∈ ns, n.Fits)
    (hshape : kind.shape (ns.map (·.kind)) = true)
    (hkind : kind.isPlain = true) :
    Values (FitsAs kind) (Grammar.finish kind m ns) := by
  intro s n s' hn
  cases hn
  obtain ⟨hdirective, hrange⟩ : kind ≠ .preprocessorDirective
      ∧ kind ≠ .forRangeDeclaration := by
    simpa [NodeKind.isPlain] using hkind
  have hconforms : (s.node kind m ns).Conforms :=
    .mk (admits_of_fits h hshape) fun c hc => (h c hc).conforms
  exact ⟨⟨⟨hconforms, hrange⟩, hdirective⟩, rfl⟩

/-- A node that ends a rule of which only matters that its value fits. -/
theorem node (h : ∀ n ∈ ns, n.Fits)
    (hshape : kind.shape (ns.map (·.kind)) = true)
    (hkind : kind.isPlain = true) :
    Values Fits (Grammar.finish kind m ns) :=
  (finish h hshape hkind).mono fun _ hn => hn.toFits

/-- A node without children. -/
theorem leaf (hshape : kind.shape [] = true) (hkind : kind.isPlain = true) :
    Values Fits (Grammar.finish kind m []) :=
  node (by simp) hshape hkind

/-- A node over the items of a sequence. -/
theorem finishSequence (h : ∀ n ∈ ns, n.Listed)
    (hkind : kind.holdsSequence = true) :
    Values (FitsAs kind) (Grammar.finish kind m ns) := by
  intro s n s' hn
  cases hn
  have hconforms : (s.node kind m ns).Conforms :=
    .mk (admits_of_listed h hkind) fun c hc => (h c hc).conforms
  refine ⟨⟨⟨hconforms, ?_⟩, ?_⟩, rfl⟩
  all_goals
    rintro rfl
    cases hkind

end Values

-- ============================================================== sequences

/-- The directives that come next, in front of items that are done. -/
theorem takeDirectives_listed (s : State) {done : List Node}
    (h : ∀ n ∈ done, n.Listed) :
    ∀ n ∈ (s.takeDirectives done).1, n.Listed := by
  unfold State.takeDirectives
  dsimp only
  generalize s.position = index
  induction s.rest generalizing done index with
  | nil => exact h
  | cons t ts ih =>
    unfold directives
    split
    case isTrue =>
      refine ih (List.forall_mem_cons.2 ⟨⟨.mk rfl ?_, by simp⟩, h⟩) _
      exact fun c hc => absurd hc List.not_mem_nil
    case isFalse => exact h

variable {item : Parser Node}

/-- The items of a sequence conform, however it comes to its end. -/
theorem gather_listed (policy : Policy) (hitem : Values Fits item)
    (closer : Option String) (bound : Nat) (done : List Node)
    (start : State) (hdone : ∀ n ∈ done, n.Listed) :
    ∀ n ∈ (gather policy closer item bound done start).items, n.Listed := by
  induction done, start using gather_induction bound with
  | step done start ih =>
    have hitems := takeDirectives_listed start hdone
    generalize hdone' : (start.takeDirectives done).1 = done' at hitems
    -- a pass is followed by the others, or was the last
    have goOn (done'' : List Node) (after : State)
        (h : ∀ n ∈ done'', n.Listed) :
        ∀ n ∈ (proceed policy closer item bound start.position done''
          after).items, n.Listed := by
      unfold proceed
      split
      case isTrue hgo => exact ih done'' after hgo.1 hgo.2 h
      case isFalse => simpa using h
    rw [gather_eq, hdone']
    dsimp only
    split
    case isTrue => simpa using hitems
    case isFalse =>
      have hvalue := hitem (start.takeDirectives done).2
      generalize item (start.takeDirectives done).2 = r at hvalue
      cases r with
      | ok node after =>
        have hnode := (hvalue node after rfl).toListed
        exact goOn _ _ (List.forall_mem_cons.2 ⟨hnode, hitems⟩)
      | error e after =>
        cases policy with
        | strict => simpa using hitems
        | tolerant => exact goOn _ _ hitems

theorem sequence_listed {policy : Policy} (hitem : Values Fits item)
    (closer : String) :
    Values (∀ n ∈ ·, n.Listed) (sequence policy closer item) := by
  intro s ns s' hns
  have hlisted := gather_listed policy hitem (some closer)
    s.size [] s (by simp)
  unfold sequence at hns
  generalize gather policy (some closer) item s.size [] s = r at *
  obtain ⟨items, state, error⟩ := r
  cases error with
  | none =>
    cases hns
    exact hlisted
  | some e => cases hns

end Grammar

end FrontEnd
