/-
The course of a reading.

`Runs` tells the run of a rule step by step, with the states that it comes
through. It knows of no bound on loops: a loop goes round until a round is
done, and a sequence reads items until its end comes. A run of a rule is a
finite thing, so whatever runs comes to an end. The passes of a sequence
are part of it, and each of them has to read a token.

`Yields` is how rules are run in proofs: the rule runs from a state, all
the states that it comes through are on the way through the tokens, none
of them behind the next, and the value has a property. It is closed under
the steps that rules are made of, so that a proof of `Yields` goes along
the text of the rule.
-/
import FrontEnd.Proofs.Course.Nodes

namespace FrontEnd.Grammar

open EStateM (Result)

-- =================================================================== runs

mutual

/-- A rule runs from a state through other states to its outcome. -/
inductive Runs : {α : Type} → Parser α → State → List State →
    Result SyntaxError State α → Prop
  /-- A question about the state. -/
  | look {α : Type} (f : State → α) (s : State) :
    Runs (fun s => .ok (f s) s) s [] (.ok (f s) s)
  | advance (s : State) : Runs advance s [s.advance] (.ok () s.advance)
  | fail {α : Type} (problem : SyntaxProblem) (s : State) :
    Runs (fail problem : Parser α) s [] (.error ⟨problem, s.peek⟩ s)
  | bind {α β : Type} {p : Parser α} {f : α → Parser β} {a : α}
    {s s' : State} {path path' : List State}
    {r : Result SyntaxError State β} :
    Runs p s path (.ok a s') → Runs (f a) s' path' r →
    Runs (p >>= f) s (path ++ path') r
  | bindError {α β : Type} {p : Parser α} {f : α → Parser β}
    {e : SyntaxError} {s s' : State} {path : List State} :
    Runs p s path (.error e s') → Runs (p >>= f) s path (.error e s')
  /-- A loop with another round. -/
  | again {α β : Type} {round : α → Parser (Round α β)} {a a' : α}
    {s s' : State} {path path' : List State}
    {r : Result SyntaxError State β} :
    Runs (round a) s path (.ok (.again a') s') →
    Runs (loop round a') s' path' r →
    Runs (loop round a) s (path ++ path') r
  | done {α β : Type} {round : α → Parser (Round α β)} {a : α} {b : β}
    {s s' : State} {path : List State} :
    Runs (round a) s path (.ok (.done b) s') →
    Runs (loop round a) s path (.ok b s')
  | roundError {α β : Type} {round : α → Parser (Round α β)} {a : α}
    {e : SyntaxError} {s s' : State} {path : List State} :
    Runs (round a) s path (.error e s') →
    Runs (loop round a) s path (.error e s')
  | sequence {policy : Policy} {closer : String} {item : Parser Node}
    {s s' : State} {path : List State} {items : List Node} :
    Gathers policy (some closer) item [] s path ⟨items, s', none⟩ →
    Runs (sequence policy closer item) s path (.ok items s')
  | sequenceError {policy : Policy} {closer : String} {item : Parser Node}
    {s s' : State} {path : List State} {items : List Node}
    {e : SyntaxError} :
    Gathers policy (some closer) item [] s path ⟨items, s', some e⟩ →
    Runs (sequence policy closer item) s path (.error e s')

/-- A sequence runs from a state, behind items that are done, to what
comes of it. Every pass reads a token. -/
inductive Gathers : Policy → Option String → Parser Node → List Node →
    State → List State → Gathered → Prop
  /-- The end of the sequence comes. -/
  | closed {policy : Policy} {closer : Option String}
    {item : Parser Node} {done : List Node} {start : State} :
    endsSequence closer (start.takeDirectives done).2.peek = true →
    Gathers policy closer item done start
      [(start.takeDirectives done).2]
      ⟨(start.takeDirectives done).1.reverse,
        (start.takeDirectives done).2, none⟩
  /-- A pass that reads an item. -/
  | item {policy : Policy} {closer : Option String} {item : Parser Node}
    {done : List Node} {start s after : State} {node : Node}
    {path path' : List State} {r : Gathered} :
    (start.takeDirectives done).2 = s →
    endsSequence closer s.peek = false →
    Runs item s path (.ok node after) →
    start.position < (after.settle.pass s.position).position →
    Gathers policy closer item (node :: (start.takeDirectives done).1)
      (after.settle.pass s.position) path' r →
    Gathers policy closer item done start
      (s :: path ++ after.settle.pass s.position :: path') r
  /-- A pass that skips bad input. -/
  | recovery {closer : Option String} {item : Parser Node}
    {done : List Node} {start s after : State} {e : SyntaxError}
    {path path' : List State} {r : Gathered} :
    (start.takeDirectives done).2 = s →
    endsSequence closer s.peek = false →
    Runs item s path (.error e after) →
    start.position
      < ((after.recover s.depth e).pass s.position).position →
    Gathers .tolerant closer item (start.takeDirectives done).1
      ((after.recover s.depth e).pass s.position) path' r →
    Gathers .tolerant closer item done start
      (s :: path ++ after.recover s.depth e ::
        (after.recover s.depth e).pass s.position :: path') r
  /-- An error that ends the sequence. -/
  | error {closer : Option String} {item : Parser Node}
    {done : List Node} {start s after : State} {e : SyntaxError}
    {path : List State} :
    (start.takeDirectives done).2 = s →
    endsSequence closer s.peek = false →
    Runs item s path (.error e after) →
    Gathers .strict closer item done start (s :: path)
      ⟨(start.takeDirectives done).1.reverse, after, some e⟩

end

-- ================================================================= courses

/-- The state in which an outcome leaves things. -/
def stateOf {α : Type} : Result SyntaxError State α → State
  | .ok _ s => s
  | .error _ s => s

/-- States that a reading of the tokens can come through from one state
to another, one after the other. -/
inductive Course (tokens : List Token) :
    State → List State → State → Prop
  | here {s : State} : s.Along tokens → Course tokens s [] s
  | step {s s' s'' : State} {path : List State} :
    Leads tokens s s' → Course tokens s' path s'' →
    Course tokens s (s' :: path) s''

namespace Course

variable {tokens : List Token} {s s' s'' : State} {path path' : List State}

theorem one (h : Leads tokens s s') : Course tokens s [s'] s' :=
  .step h (.here h.along)

theorem append (h : Course tokens s path s')
    (h' : Course tokens s' path' s'') :
    Course tokens s (path ++ path') s'' := by
  induction h with
  | here _ => exact h'
  | step hlead _ ih => exact .step hlead (ih h')

theorem leads (h : Course tokens s path s') (hs : s.Along tokens) :
    Leads tokens s s' := by
  induction h with
  | here hs => exact .refl hs
  | step hlead _ ih => exact hlead.trans (ih hlead.along)

end Course

-- ========================================================== single steps

theorem bind_eq {α β : Type} (p : Parser α) (f : α → Parser β)
    (s : State) : (p >>= f) s = match p s with
      | .ok a s' => f a s'
      | .error e s' => .error e s' := by
  show EStateM.bind p f s = _
  unfold EStateM.bind
  cases p s <;> rfl

/-- Reading a token on a condition, in single steps. -/
theorem accept_eq (q : Token → Bool) :
    accept q = do
      if ← check q then
        advance
        return true
      else return false := by
  funext s
  rw [bind_eq]
  unfold accept check
  dsimp only
  cases q s.peek <;> rfl

/-- Reading a token that has to come, in single steps. -/
theorem expect_eq (q : Token → Bool) (wanted : String) :
    expect q wanted = (do
      if ← check q then advance else failExpected wanted) := by
  funext s
  rw [bind_eq]
  unfold expect check
  dsimp only
  cases q s.peek <;> rfl

/-- A round of a loop, and what follows it. -/
theorem loop_eq {α β : Type} (round : α → Parser (Round α β)) (a : α)
    (s : State) : loop round a s = match round a s with
      | .error e s' => .error e s'
      | .ok (.done b) s' => .ok b s'
      | .ok (.again a') s' =>
        if s.position < s'.position ∧ s'.position ≤ s.size then
          loopWithin s.size round a' s'
        else .error ⟨.unexpected, s'.peek⟩ s' := by
  unfold loop
  rewrite [loopWithin]
  rcases round a s with ⟨a' | b, s'⟩ | ⟨e, s'⟩ <;> rfl

/-- What a round leaves to its loop: an outcome with the property, or
another round with the invariant. Where nothing was read the loop gives up
instead. -/
def GoesOn {α β : Type} (I : α → State → Prop)
    (P : Result SyntaxError State β → Prop) :
    Result SyntaxError State (Round α β) → Prop
  | .error e s => P (.error e s)
  | .ok (.done b) s => P (.ok b s)
  | .ok (.again a) s => I a s ∧ P (.error ⟨.unexpected, s.peek⟩ s)

/-- A loop comes to an outcome with the property if its rounds keep an
invariant. -/
theorem loop_outcome {α β : Type} {round : α → Parser (Round α β)}
    {P : Result SyntaxError State β → Prop} (I : α → State → Prop)
    (hround : ∀ a s, I a s → GoesOn I P (round a s)) (a : α) {s : State}
    (h : I a s) : P (loop round a s) := by
  have within (bound : Nat) : P (loopWithin bound round a s) := by
    fun_induction loopWithin bound round a s with
    | case1 a s e s' heq =>
      have hgoes := hround a s h
      rwa [heq] at hgoes
    | case2 a s b s' heq =>
      have hgoes := hround a s h
      rwa [heq] at hgoes
    | case3 a s a' s' heq _ ih =>
      have hgoes := hround a s h
      rw [heq] at hgoes
      exact ih hgoes.1
    | case4 a s a' s' heq =>
      have hgoes := hround a s h
      rw [heq] at hgoes
      exact hgoes.2
  exact within s.size

-- ==================================================== rules run in proofs

/-- A rule runs from a state to its outcome, on the way through the
tokens, and what it yields has the property. -/
structure Yields (tokens : List Token) {α : Type} (p : Parser α)
    (s : State) (Q : α → State → Prop) : Prop where
  runs : ∃ path, Runs p s path (p s) ∧ Course tokens s path (stateOf (p s))
  value {a : α} {s' : State} : p s = .ok a s' → Q a s'

/-- What the property of the outcome of a round is, in terms of the next
round and of what the loop comes to. -/
@[simp, grind =]
def Round.Sat {α β : Type} (A : α → Prop) (D : β → Prop) :
    Round α β → Prop
  | .again a => A a
  | .done b => D b

namespace Yields

variable {tokens : List Token} {α β γ : Type} {s : State}
  {P : α → State → Prop} {Q : β → State → Prop}

theorem mono {p : Parser α} {P' : α → State → Prop}
    (h : Yields tokens p s P) (hs : s.Along tokens)
    (k : ∀ a s', Leads tokens s s' → P a s' → P' a s') :
    Yields tokens p s P' := by
  refine ⟨h.runs, fun {a s'} ha => k a s' ?_ (h.value ha)⟩
  obtain ⟨path, -, hcourse⟩ := h.runs
  rw [ha] at hcourse
  exact hcourse.leads hs

/-- One rule after the other. -/
theorem bind {p : Parser α} {f : α → Parser β} (h : Yields tokens p s P)
    (hs : s.Along tokens)
    (k : ∀ a s', Leads tokens s s' → P a s' → Yields tokens (f a) s' Q) :
    Yields tokens (p >>= f) s Q := by
  obtain ⟨path, hrun, hcourse⟩ := h.runs
  have hvalue := @h.value
  have hbind := bind_eq p f s
  generalize p s = r at hrun hcourse hvalue hbind
  cases r with
  | ok a s' =>
    have hnext := k a s' (hcourse.leads hs) (hvalue rfl)
    obtain ⟨path', hrun', hcourse'⟩ := hnext.runs
    constructor
    · rw [hbind]
      exact ⟨path ++ path', .bind hrun hrun', hcourse.append hcourse'⟩
    · intro b s'' hb
      rw [hbind] at hb
      exact hnext.value hb
  | error e s' =>
    constructor
    · rw [hbind]
      exact ⟨path, .bindError hrun, hcourse⟩
    · intro b s'' hb
      rw [hbind] at hb
      cases hb

/-- An answer that leaves the state as it is. -/
theorem look (f : State → α) (hs : s.Along tokens) (h : P (f s) s) :
    Yields tokens (fun s => .ok (f s) s) s P where
  runs := ⟨[], .look f s, .here hs⟩
  value := by
    intro a s' ha
    cases ha
    exact h

theorem pure {a : α} (hs : s.Along tokens) (h : P a s) :
    Yields tokens (pure a) s P :=
  look (fun _ => a) hs h

/-- A question, and what depends on the answer. -/
theorem question (v : State → α) {f : α → Parser β}
    (hs : s.Along tokens) (h : Yields tokens (f (v s)) s Q) :
    Yields tokens ((fun s => .ok (v s) s : Parser α) >>= f) s Q := by
  refine (look v hs (P := fun a s' => a = v s ∧ s' = s) ⟨rfl, rfl⟩).bind
    hs ?_
  rintro _ _ - ⟨rfl, rfl⟩
  exact h

section
variable (hs : s.Along tokens)
include hs

theorem mark {f : Mark → Parser β} (h : Yields tokens (f s.mark) s Q) :
    Yields tokens (Grammar.mark >>= f) s Q :=
  question State.mark hs h

theorem peek {f : Token → Parser β} (h : Yields tokens (f s.peek) s Q) :
    Yields tokens (Grammar.peek >>= f) s Q :=
  question State.peek hs h

theorem peekAt {n : Nat} {f : Token → Parser β}
    (h : Yields tokens (f (tokenAt n s.rest)) s Q) :
    Yields tokens (Grammar.peekAt n >>= f) s Q :=
  question (tokenAt n ·.rest) hs h

theorem ahead {q : List Token → Bool} {f : Bool → Parser β}
    (h : Yields tokens (f (q s.rest)) s Q) :
    Yields tokens (Grammar.ahead q >>= f) s Q :=
  question (q ·.rest) hs h

theorem openGroups {f : Nat → Parser β}
    (h : Yields tokens (f s.depth) s Q) :
    Yields tokens (Grammar.openGroups >>= f) s Q :=
  question State.depth hs h

theorem check {q : Token → Bool} {f : Bool → Parser β}
    (h : Yields tokens (f (q s.peek)) s Q) :
    Yields tokens (Grammar.check q >>= f) s Q :=
  question (q ·.peek) hs h

theorem fail {problem : SyntaxProblem} :
    Yields tokens (Grammar.fail problem) s P where
  runs := ⟨[], .fail problem s, .here hs⟩
  value := nofun

theorem failExpected {wanted : String} :
    Yields tokens (Grammar.failExpected wanted) s P :=
  fail hs

/-- Reading a token. -/
theorem read :
    Yields tokens Grammar.advance s fun _ s' => Reads tokens s s' where
  runs := ⟨[s.advance], .advance s, .one hs.reads.toLeads⟩
  value := by
    intro _ _ ha
    cases ha
    exact hs.reads

theorem advance {f : Unit → Parser β}
    (k : ∀ s', Reads tokens s s' → Yields tokens (f ()) s' Q) :
    Yields tokens (Grammar.advance >>= f) s Q :=
  (read hs).bind hs fun _ s' _ h => k s' h

/-- A token that is read if it is as asked for. -/
theorem accept {q : Token → Bool} {f : Bool → Parser β}
    (yes : q s.peek = true → ∀ s', Reads tokens s s' →
      Yields tokens (f true) s' Q)
    (no : q s.peek = false → Yields tokens (f false) s Q) :
    Yields tokens (Grammar.accept q >>= f) s Q := by
  have h : Yields tokens (Grammar.accept q) s fun b s' =>
      if b then q s.peek = true ∧ Reads tokens s s'
      else q s.peek = false ∧ s' = s := by
    rw [accept_eq]
    refine check hs ?_
    split
    case isTrue h => exact advance hs fun s' hs' => pure hs'.along ⟨h, hs'⟩
    case isFalse h => exact pure hs ⟨by simpa using h, rfl⟩
  refine h.bind hs fun b s' _ hb => ?_
  cases b with
  | true => exact yes hb.1 s' hb.2
  | false =>
    obtain ⟨hq, rfl⟩ := hb
    exact no hq

/-- A token that has to come. -/
theorem expected {q : Token → Bool} {wanted : String} :
    Yields tokens (Grammar.expect q wanted) s fun _ s' =>
      q s.peek = true ∧ Reads tokens s s' := by
  rw [expect_eq]
  refine check hs ?_
  split
  case isTrue h => exact (read hs).mono hs fun _ _ _ hs' => ⟨h, hs'⟩
  case isFalse => exact failExpected hs

theorem expect {q : Token → Bool} {wanted : String} {f : Unit → Parser β}
    (k : q s.peek = true → ∀ s', Reads tokens s s' →
      Yields tokens (f ()) s' Q) :
    Yields tokens (Grammar.expect q wanted >>= f) s Q :=
  (expected hs).bind hs fun _ s' _ h => k h.1 s' h.2

/-- A node that ends a rule. -/
theorem finish {kind : NodeKind} {m : Mark} {ns : List Node}
    {P : Node → State → Prop} (h : P (s.node kind m ns) s) :
    Yields tokens (Grammar.finish kind m ns) s P :=
  look (fun s => s.node kind m ns) hs h

/-- A node that a rule goes on with. -/
theorem node {kind : NodeKind} {m : Mark} {ns : List Node}
    {f : Node → Parser β}
    (h : Yields tokens (f (s.node kind m ns)) s Q) :
    Yields tokens (Grammar.finish kind m ns >>= f) s Q :=
  question (fun s => s.node kind m ns) hs h

omit hs in
/-- A choice. -/
theorem ite {c : Prop} [Decidable c] {p q : Parser α}
    (yes : c → Yields tokens p s P) (no : ¬c → Yields tokens q s P) :
    Yields tokens (if c then p else q) s P := by
  split
  case isTrue h => exact yes h
  case isFalse h => exact no h

/-- A loop with an invariant of which every round reads a token. -/
theorem loop {round : α → Parser (Round α β)} (I : α → State → Prop)
    (hround : ∀ a s, s.Along tokens → I a s →
      Yields tokens (round a) s fun r s' =>
        r.Sat (fun a' => s.position < s'.position ∧ I a' s') (Q · s'))
    {a : α} (h : I a s) : Yields tokens (Grammar.loop round a) s Q := by
  induction hn : tokens.length - s.position using Nat.strongRecOn
    generalizing a s with
  | _ n ih =>
    have hyields := hround a s hs h
    obtain ⟨path, hrun, hcourse⟩ := hyields.runs
    have hvalue := @hyields.value
    have heq := loop_eq round a s
    generalize round a s = r at hrun hcourse hvalue heq
    rcases r with ⟨a' | b, s'⟩ | ⟨e, s'⟩
    · -- another round, which began further on
      obtain ⟨hmoved, hnext⟩ := hvalue rfl
      have hs' : s'.Along tokens := (hcourse.leads hs).along
      have hwithin := hs'.within
      dsimp only at heq
      rw [if_pos ⟨hmoved, hs.size ▸ hwithin⟩, hs.size, ← hs'.size] at heq
      have hrest := ih (tokens.length - s'.position) (by omega) hs' hnext rfl
      obtain ⟨path', hrun', hcourse'⟩ := hrest.runs
      constructor
      · rw [heq]
        exact ⟨path ++ path', .again hrun hrun', hcourse.append hcourse'⟩
      · intro b s'' hb
        rw [heq] at hb
        exact hrest.value hb
    · constructor
      · rw [heq]
        exact ⟨path, .done hrun, hcourse⟩
      · intro _ _ hb
        rw [heq] at hb
        cases hb
        exact hvalue rfl
    · constructor
      · rw [heq]
        exact ⟨path, .roundError hrun, hcourse⟩
      · intro _ _ hb
        rw [heq] at hb
        cases hb

end

end Yields

end FrontEnd.Grammar
