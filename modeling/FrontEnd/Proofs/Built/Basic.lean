/-
How a reading builds a tree.

`Built policy s ns s'` says that a reading went from one state to another
and finished these nodes on its way, in this order. Each of its cases is
one thing that a rule can do: read a token that is no bracket, pass over a
group, read what stands between two brackets of one kind, finish a node of
all the nodes since its mark. So an invariant of the reading that speaks of
the nodes is proved by one induction over `Built`, and the rules are gone
through once (`parse_built`) and not once for each such invariant.

`Gives` is how that is done. It says less than `Yields`, that a rule which
has a value leaves what it should, and so nothing has to be said about
progress: only the passes of a sequence need it (`gather_built`), and it is
known of them already.
-/
import FrontEnd.Proofs.Course.Unit

namespace FrontEnd

/-- Whether the token is a bracket of any kind. -/
def Token.isBracket (t : Token) : Bool := t.opens || t.closes

attribute [grind =] Token.closes Token.isBracket

namespace Grammar

open EStateM (Result)

theorem depthAfter_of_not_bracket {t : Token} (h : t.isBracket = false)
    (depth : Nat) : depthAfter t depth = depth := by
  unfold depthAfter
  rw [if_neg (by grind), if_neg (by grind)]

theorem depthAfter_of_closes {t : Token} (h : t.closes = true)
    (depth : Nat) : depthAfter t depth = depth - 1 := by
  unfold depthAfter
  rw [if_neg (by grind), if_pos h]

-- ================================================================ building

/-- Between two states these nodes were finished, in this order. -/
inductive Built (policy : Policy) : State → List Node → State → Prop
  | here (s : State) : Built policy s [] s
  | trans {s s' s'' : State} {ms ns : List Node} :
    Built policy s ms s' → Built policy s' ns s'' →
    Built policy s (ms ++ ns) s''
  /-- A token that is no bracket is read; at the end, none is. -/
  | read {s : State} : s.peek.isBracket = false →
    Built policy s [] s.advance
  /-- A directive is read as an item of a sequence. -/
  | directive {s : State} {t : Token} {ts : List Token} :
    s.rest = t :: ts → t.isDirective = true →
    Built policy s
      [{ kind := .preprocessorDirective, first := s.position
         stop := s.position + 1, location := t.location
         recovered := s.recovered, children := [] }]
      { s with rest := ts, position := s.position + 1 }
  /-- A group is passed over by the number of its brackets. -/
  | group {s s' : State} {context : String} : s.peek.opens = true →
    skipGroup context s = .ok () s' → Built policy s [] s'
  /-- What stands in brackets is read, and the closing one has to be of the
  kind of the other. -/
  | enclosed {s s' : State} {ns : List Node} : s.peek.opens = true →
    Built policy s.advance ns s' →
    s'.peek.isPunct (closerOf s.peek) = true →
    Built policy s ns s'.advance
  /-- Behind `sizeof ...` a closing bracket counts as a group. -/
  | pack {s : State} : s.peek.isKeyword "sizeof" = true →
    s.advance.peek.isOperator "..." = true →
    s.advance.advance.peek.closes = true →
    Built policy s [] s.advance.advance.advance
  /-- A node is finished, and what was finished since its mark becomes its
  children. -/
  | node {s s' : State} {ns : List Node} (kind : NodeKind) :
    Built policy s ns s' → Built policy s [s'.node kind s.mark ns] s'
  | retag {s s' : State} {n : Node} (kind : NodeKind) :
    Built policy s [n] s' → Built policy s [{ n with kind := kind }] s'
  | settle (s : State) : Built policy s [] s.settle
  /-- Behind an error the nodes of an item are lost. -/
  | recover {s s' : State} : policy = .tolerant → s'.recovered = true →
    Built policy s [] s'

namespace Built

variable {policy : Policy} {s s' s'' : State} {n : Node} {ms ns : List Node}

/-- A token that is no bracket, and what comes behind it. -/
theorem behind (h : s.peek.isBracket = false)
    (hns : Built policy s.advance ns s') : Built policy s ns s' :=
  .trans (.read h) hns

/-- What comes behind the nodes and adds none to them. -/
theorem on (hns : Built policy s ns s') (h : Built policy s' [] s'') :
    Built policy s ns s'' := by
  rw [← List.append_nil ns]
  exact .trans hns h

/-- A token behind the nodes that is no bracket. -/
theorem next (hns : Built policy s ns s')
    (h : s'.peek.isBracket = false) : Built policy s ns s'.advance :=
  hns.on (.read h)

/-- Another node, where the last one comes first. -/
theorem push (hns : Built policy s ns.reverse s')
    (h : Built policy s' [n] s'') :
    Built policy s (n :: ns).reverse s'' := by
  rw [List.reverse_cons]
  exact .trans hns h

theorem parens (hopen : s.peek.isPunct "(" = true)
    (hns : Built policy s.advance ns s')
    (hclose : s'.peek.isPunct ")" = true) :
    Built policy s ns s'.advance :=
  .enclosed (by grind) hns (by grind [closerOf])

theorem brackets (hopen : s.peek.isPunct "[" = true)
    (hns : Built policy s.advance ns s')
    (hclose : s'.peek.isPunct "]" = true) :
    Built policy s ns s'.advance :=
  .enclosed (by grind) hns (by grind [closerOf])

theorem braces (hopen : s.peek.isPunct "\x7b" = true)
    (hns : Built policy s.advance ns s')
    (hclose : s'.peek.isPunct "\x7d" = true) :
    Built policy s ns s'.advance :=
  .enclosed (by grind) hns (by grind [closerOf])

end Built

-- ==================================================== rules that have a value

/-- Where the rule has a value, it comes to a state on the way through the
tokens, and the two have the property. -/
def Gives (tokens : List Token) {α : Type} (p : Parser α) (s : State)
    (P : α → State → Prop) : Prop :=
  s.Along tokens → ∀ a s', p s = .ok a s' → s'.Along tokens ∧ P a s'

/-- A rule that builds a node. -/
abbrev Makes (tokens : List Token) (policy : Policy) (p : Parser Node)
    (s : State) : Prop :=
  Gives tokens p s fun n s' => Built policy s [n] s'

/-- A rule that builds nodes. -/
abbrev Lists (tokens : List Token) (policy : Policy)
    (p : Parser (List Node)) (s : State) : Prop :=
  Gives tokens p s fun ns s' => Built policy s ns s'

/-- A rule that builds no node. -/
abbrev Passes (tokens : List Token) (policy : Policy) {α : Type}
    (p : Parser α) (s : State) : Prop :=
  Gives tokens p s fun _ s' => Built policy s [] s'

/-- What a loop comes to has the property if its rounds keep an
invariant. -/
theorem loop_value {α β : Type} {round : α → Parser (Round α β)}
    (I : α → State → Prop) {Q : β → State → Prop}
    (hround : ∀ a s r s', I a s → round a s = .ok r s' →
      r.Sat (I · s') (Q · s'))
    {a : α} {b : β} {s s' : State} (h : I a s)
    (hb : loop round a s = .ok b s') : Q b s' := by
  refine loop_outcome (P := fun r => ∀ b s', r = .ok b s' → Q b s') I
    (fun a s hs => ?_) a h b s' hb
  have hvalue := hround a s
  generalize round a s = r at hvalue
  rcases r with ⟨a' | b', s''⟩ | ⟨e, s''⟩
  · exact ⟨hvalue _ _ hs rfl, nofun⟩
  · intro b s' hb
    cases hb
    exact hvalue _ _ hs rfl
  · exact nofun

namespace Gives

variable {tokens : List Token} {α β γ : Type} {s : State}
  {P : α → State → Prop} {Q : β → State → Prop}

theorem mono {p : Parser α} {P' : α → State → Prop}
    (h : Gives tokens p s P) (k : ∀ a s', P a s' → P' a s') :
    Gives tokens p s P' := by
  intro hs a s' ha
  obtain ⟨hs', ha'⟩ := h hs a s' ha
  exact ⟨hs', k a s' ha'⟩

/-- One rule after the other. -/
theorem bind {p : Parser α} {f : α → Parser β} (h : Gives tokens p s P)
    (k : ∀ a s', P a s' → Gives tokens (f a) s' Q) :
    Gives tokens (p >>= f) s Q := by
  intro hs b s'' hb
  rw [bind_eq] at hb
  cases hp : p s with
  | ok a s' =>
    rw [hp] at hb
    obtain ⟨hs', ha⟩ := h hs a s' hp
    exact k a s' ha hs' b s'' hb
  | error e s' =>
    rw [hp] at hb
    cases hb

/-- An answer that leaves the state as it is. -/
theorem look (v : State → α) (h : P (v s) s) :
    Gives tokens (fun s => .ok (v s) s) s P := by
  intro hs a s' ha
  cases ha
  exact ⟨hs, h⟩

theorem pure {a : α} (h : P a s) : Gives tokens (pure a) s P :=
  look (fun _ => a) h

/-- A question, and what depends on the answer. -/
theorem question (v : State → α) {f : α → Parser β}
    (h : Gives tokens (f (v s)) s Q) :
    Gives tokens ((fun s => .ok (v s) s : Parser α) >>= f) s Q := by
  refine (look v (P := fun a s' => a = v s ∧ s' = s) ⟨rfl, rfl⟩).bind ?_
  rintro _ _ ⟨rfl, rfl⟩
  exact h

theorem mark {f : Mark → Parser β} (h : Gives tokens (f s.mark) s Q) :
    Gives tokens (Grammar.mark >>= f) s Q :=
  question State.mark h

theorem peek {f : Token → Parser β} (h : Gives tokens (f s.peek) s Q) :
    Gives tokens (Grammar.peek >>= f) s Q :=
  question State.peek h

theorem peekAt {n : Nat} {f : Token → Parser β}
    (h : Gives tokens (f (tokenAt n s.rest)) s Q) :
    Gives tokens (Grammar.peekAt n >>= f) s Q :=
  question (tokenAt n ·.rest) h

theorem ahead {q : List Token → Bool} {f : Bool → Parser β}
    (h : Gives tokens (f (q s.rest)) s Q) :
    Gives tokens (Grammar.ahead q >>= f) s Q :=
  question (q ·.rest) h

theorem openGroups {f : Nat → Parser β}
    (h : Gives tokens (f s.depth) s Q) :
    Gives tokens (Grammar.openGroups >>= f) s Q :=
  question State.depth h

theorem check {q : Token → Bool} {f : Bool → Parser β}
    (h : Gives tokens (f (q s.peek)) s Q) :
    Gives tokens (Grammar.check q >>= f) s Q :=
  question (q ·.peek) h

theorem fail {problem : SyntaxProblem} :
    Gives tokens (Grammar.fail problem) s P :=
  fun _ _ _ => nofun

theorem failExpected {wanted : String} :
    Gives tokens (Grammar.failExpected wanted) s P :=
  fail

/-- A rule that gives up, whatever were to come behind it. -/
theorem gaveUp {problem : SyntaxProblem} {f : α → Parser β} :
    Gives tokens (Grammar.fail problem >>= f) s Q :=
  (fail (P := fun _ _ => False)).bind nofun

/-- Reading a token. -/
theorem read {P : Unit → State → Prop} (h : P () s.advance) :
    Gives tokens Grammar.advance s P := by
  intro hs _ _ ha
  cases ha
  exact ⟨hs.advance, h⟩

theorem advance {f : Unit → Parser β}
    (k : Gives tokens (f ()) s.advance Q) :
    Gives tokens (Grammar.advance >>= f) s Q := by
  refine (read (P := fun _ s' => s' = s.advance) rfl).bind ?_
  rintro _ _ rfl
  exact k

/-- A choice. -/
theorem ite {c : Prop} [Decidable c] {p q : Parser α}
    (yes : c → Gives tokens p s P) (no : ¬c → Gives tokens q s P) :
    Gives tokens (if c then p else q) s P := by
  split
  case isTrue h => exact yes h
  case isFalse h => exact no h

/-- A token that is read if it is as asked for. -/
theorem accept {q : Token → Bool} {f : Bool → Parser β}
    (yes : q s.peek = true → Gives tokens (f true) s.advance Q)
    (no : q s.peek = false → Gives tokens (f false) s Q) :
    Gives tokens (Grammar.accept q >>= f) s Q := by
  have h : Gives tokens (Grammar.accept q) s fun b s' =>
      if b then q s.peek = true ∧ s' = s.advance
      else q s.peek = false ∧ s' = s := by
    rw [accept_eq]
    refine check (ite (fun h => ?_) fun h => ?_)
    · exact advance (pure ⟨h, rfl⟩)
    · exact pure ⟨by simpa using h, rfl⟩
  refine h.bind fun b s' hb => ?_
  cases b with
  | true =>
    obtain ⟨hq, rfl⟩ := hb
    exact yes hq
  | false =>
    obtain ⟨hq, rfl⟩ := hb
    exact no hq

/-- A token that has to come. -/
theorem expected {q : Token → Bool} {wanted : String}
    {P : Unit → State → Prop} (h : q s.peek = true → P () s.advance) :
    Gives tokens (Grammar.expect q wanted) s P := by
  rw [expect_eq]
  exact check (ite (fun hq => read (h hq)) fun _ => failExpected)

theorem expect {q : Token → Bool} {wanted : String} {f : Unit → Parser β}
    (k : q s.peek = true → Gives tokens (f ()) s.advance Q) :
    Gives tokens (Grammar.expect q wanted >>= f) s Q := by
  refine (expected (P := fun _ s' => q s.peek = true ∧ s' = s.advance)
    fun h => ⟨h, rfl⟩).bind ?_
  rintro _ _ ⟨h, rfl⟩
  exact k h

/-- A node that ends a rule. -/
theorem finish {kind : NodeKind} {m : Mark} {ns : List Node}
    {P : Node → State → Prop} (h : P (s.node kind m ns) s) :
    Gives tokens (Grammar.finish kind m ns) s P :=
  look (fun s => s.node kind m ns) h

/-- A node that a rule goes on with. -/
theorem node {kind : NodeKind} {m : Mark} {ns : List Node}
    {f : Node → Parser β} (h : Gives tokens (f (s.node kind m ns)) s Q) :
    Gives tokens (Grammar.finish kind m ns >>= f) s Q :=
  question (fun s => s.node kind m ns) h

/-- A loop with an invariant. -/
theorem loop {round : α → Parser (Round α β)} (I : α → State → Prop)
    (hround : ∀ a s, I a s → Gives tokens (round a) s fun r s' =>
      r.Sat (I · s') (Q · s'))
    {a : α} (h : I a s) : Gives tokens (Grammar.loop round a) s Q := by
  intro hs b s' hb
  refine loop_value (fun a s => s.Along tokens ∧ I a s)
    (Q := fun b s => s.Along tokens ∧ Q b s) ?_ ⟨hs, h⟩ hb
  intro a s r s' ⟨hs, h⟩ hr
  obtain ⟨hs', h'⟩ := hround a s h hs r s' hr
  cases r with
  | again _ => exact ⟨hs', h'⟩
  | done _ => exact ⟨hs', h'⟩

end Gives

section
variable {tokens : List Token} {policy : Policy} {s s' : State}
  {ns : List Node} {α β : Type} {Q : β → State → Prop}

/-- A rule that builds no node, behind what was built. -/
theorem Passes.after {p : Parser α} {f : α → Parser β}
    (hp : Passes tokens policy p s') (h : Built policy s ns s')
    (k : ∀ a s'', Built policy s ns s'' → Gives tokens (f a) s'' Q) :
    Gives tokens (p >>= f) s' Q :=
  Gives.bind hp fun a s'' h'' => k a s'' (h.on h'')

/-- A rule that builds no node, at the end of another. -/
theorem Passes.last {p : Parser α} {P : α → State → Prop}
    (hp : Passes tokens policy p s') (h : Built policy s ns s')
    (k : ∀ a s'', Built policy s ns s'' → P a s'') :
    Gives tokens p s' P :=
  Gives.mono hp fun a s'' h'' => k a s'' (h.on h'')

/-- A rule that builds a node, behind what was built. -/
theorem Makes.after {p : Parser Node} {f : Node → Parser β}
    (hp : Makes tokens policy p s') (h : Built policy s ns s')
    (k : ∀ n s'', Built policy s (ns ++ [n]) s'' →
      Gives tokens (f n) s'' Q) :
    Gives tokens (p >>= f) s' Q :=
  Gives.bind hp fun n s'' h'' => k n s'' (h.trans h'')

end

-- ============================================================== sequences

section

variable {tokens : List Token} {policy : Policy} {item : Parser Node}

/-- The directives that come next, behind nodes that are done. -/
theorem Built.directives {s₀ : State} (s : State) {done : List Node}
    (h : Built policy s₀ done.reverse s) :
    Built policy s₀ (s.takeDirectives done).1.reverse
      (s.takeDirectives done).2 := by
  unfold State.takeDirectives
  obtain ⟨rest, position, size, depth, phase, recovered, errors⟩ := s
  dsimp only
  induction rest generalizing done position with
  | nil => exact h
  | cons t ts ih =>
    unfold Grammar.directives
    split
    case isTrue hdirective =>
      exact ih _ (h.push (.directive rfl hdirective))
    case isFalse => exact h

/-- The items of a sequence are built one after the other. An error that
ends it leaves those in front of it. -/
theorem gather_built
    (hmade : ∀ s, s.Along tokens → Yields tokens item s (Made tokens s))
    (hitem : ∀ s, Makes tokens policy item s) (closer : Option String)
    {s₀ : State} (done : List Node) (start : State)
    (hstart : start.Along tokens)
    (hdone : Built policy s₀ done.reverse start) :
    let r := gather policy closer item tokens.length done start
    ∃ s', Built policy s₀ r.items s' ∧ s'.Along tokens
      ∧ (r.error = none →
        s' = r.state ∧ endsSequence closer s'.peek = true) := by
  refine gather_along (motive := fun done start r =>
      Built policy s₀ done.reverse start →
      ∃ s', Built policy s₀ r.items s' ∧ s'.Along tokens
        ∧ (r.error = none →
          s' = r.state ∧ endsSequence closer s'.peek = true))
    (fun s hs => (hmade s hs).leads hs) policy closer
    ?closed ?read ?failed ?skipped done start hstart hdone
  case closed =>
    intro done start s hstart hs hends hdone
    subst hs
    exact ⟨_, hdone.directives start, (hstart.directives done).along,
      fun _ => ⟨rfl, hends⟩⟩
  case read =>
    intro done start s node after r hpass hnode _ ih hdone
    have hs := hpass.leads.along
    have hbuilt := hdone.directives start
    rw [hpass.front] at hbuilt
    rw [((hmade s hs).value hnode).pass] at ih
    obtain ⟨-, hnode⟩ := hitem s hs node after hnode
    exact ih ((hbuilt.push hnode).on (.settle after))
  case failed =>
    intro done start s e after _ hpass _ _ hdone
    exact ⟨_, hdone.directives start, (hpass.along.directives done).along,
      nofun⟩
  case skipped =>
    intro done start s e after r htolerant hpass _ _ ih hdone
    subst htolerant
    refine ih ((hdone.directives start).on (.recover rfl ?_))
    unfold State.pass
    split
    · exact State.advance_recovered _
    · rfl

/-- The items in brackets, directives among them. -/
theorem sequence_built
    (hmade : ∀ s, s.Along tokens → Yields tokens item s (Made tokens s))
    (hitem : ∀ s, Makes tokens policy item s) (closer : String)
    (s : State) : Lists tokens policy (sequence policy closer item) s := by
  intro hs ns s' hns
  obtain ⟨s'', hbuilt, halong, hend⟩ :=
    gather_built hmade hitem (some closer) [] s hs (.here s)
  unfold sequence at hns
  rw [hs.size] at hns
  generalize gather policy (some closer) item tokens.length [] s = r at *
  obtain ⟨items, state, error⟩ := r
  cases error with
  | none =>
    cases hns
    obtain ⟨rfl, -⟩ := hend rfl
    exact ⟨halong, hbuilt⟩
  | some e => cases hns

end

end Grammar

end FrontEnd
