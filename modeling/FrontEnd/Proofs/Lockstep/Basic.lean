/-
Two readings in lockstep: the same rule of the grammar run on two states,
under two policies, with related tokens, marks, nodes and states all the
way.

A `Lockstep` is a choice of these relations. `InStep` says of two rules
that related states lead them to related outcomes; `Lawful` lists what
the relations have to keep for the steps that all rules are made of. That
every rule of the grammar is then in step with itself is shown once for
all lockstep relations, rule by rule, in the modules that follow.

# Progress

That two states are related need not say how far apart two pairs of such
states are. `since` is what is known of a pair of states and a later one;
loops and sequences need it where they ask whether a token was read.

# Parting

The two readings need not stay together to the end. Where the first one
ends with an error, the second one may have caught that error and gone
on alone; where the second one has nothing left to read, the first one
may go on with tokens of its own. `apart` is what is known from then on:
the outcome that the first reading came to, and the state of the second
one. It has to survive whatever the second reading does, and this is part
of `InStep`, so that the induction over the grammar is done once for both.

A rule that goes on alone is given values that nothing was compared
with. That they could have come from a comparison all the same is part
of `Alone`, and lets the same proof serve both cases.

# The end of an item

Two readings that see the same token need not see the same one behind it,
if the token ends an item. So what a rule asks of the token behind the
next one, it may ask only where the next one is no semicolon and no
closing brace (`Token.shuts`).

# Spellings

Operators may be spelled differently in the two readings, and most rules
ask for an operator in whatever spelling. Three know one by its symbol
alone: a name asks for `~` where a part of it begins, the type of a cast
and the type behind `new` go on over `&`. Where such a rule begins, the
readings have to be known to agree (`Lawful.cast`, `SpelledAlike`), and
that is a condition on the states there (`InStepIf`).
-/
import Mathlib.Data.List.Forall2
import FrontEnd.Proofs.Course.Way
import FrontEnd.Proofs.Word

namespace FrontEnd

open List (Forall₂)

-- ==================================== tokens that no rule tells apart

namespace Token

/-- Whether a name, or a part of one, can come behind the token that has
to be one. -/
def leadsName (t : Token) : Bool :=
  match t.kind with
  | .operator => ["::", ".", "->", ":"].contains t.value
  | .keyword => ["template", "typename"].contains t.value
  | .punctuation => t.value == ","
  | _ => false

theorem leadsName_of_isSpelled {t : Token} {operator : String}
    (h : t.isSpelled operator = true)
    (hleads : operator ∈ ["::", ".", "->", ":"]) : t.leadsName = true := by
  simp only [isSpelled, Bool.and_eq_true, beq_iff_eq] at h
  unfold leadsName
  rw [h.1, h.2]
  exact List.contains_iff_mem.2 hleads

theorem leadsName_of_isOperator {t : Token} {operator : String}
    (h : t.isOperator operator = true)
    (hleads : operator ∈ ["::", ".", "->", ":"]) : t.leadsName = true := by
  have hsole : ∀ op ∈ ["::", ".", "->", ":"], Word.isSole op = true := by
    decide
  refine leadsName_of_isSpelled ?_ hleads
  simp only [isOperator, isSpelled, Bool.and_eq_true, beq_iff_eq] at *
  exact ⟨h.1, (Word.canonical_eq_iff (hsole _ hleads) t.value).1 h.2⟩

theorem leadsName_of_isKeyword {t : Token} {word : String}
    (h : t.isKeyword word = true)
    (hleads : word ∈ ["template", "typename"]) : t.leadsName = true := by
  simp only [isKeyword, Bool.and_eq_true, beq_iff_eq] at h
  unfold leadsName
  rw [h.1, h.2]
  exact List.contains_iff_mem.2 hleads

theorem leadsName_of_comma {t : Token} (h : t.isPunct "," = true) :
    t.leadsName = true := by
  simp only [isPunct, Bool.and_eq_true] at h
  unfold leadsName
  rw [beq_iff_eq.1 h.1]
  exact h.2

/-- Whether the token can be the last one of an item. -/
def shuts (t : Token) : Bool := t.isPunct ";" || t.isPunct "\x7d"

theorem not_shuts_of_isPunct {t : Token} {value : String}
    (h : t.isPunct value = true)
    (hvalue : value ≠ ";" ∧ value ≠ "\x7d") : t.shuts = false := by
  unfold shuts isPunct at *
  simp_all

theorem not_shuts_of_kind {t : Token} (h : t.kind ≠ .punctuation) :
    t.shuts = false := by
  unfold shuts isPunct
  simp_all

theorem not_shuts_of_isOperator {t : Token} {operator : String}
    (h : t.isOperator operator = true) : t.shuts = false := by
  refine not_shuts_of_kind fun hkind => ?_
  simp [isOperator, hkind] at h

theorem not_shuts_of_isName {t : Token} (h : t.isName = true) :
    t.shuts = false := by
  refine not_shuts_of_kind fun hkind => ?_
  simp [isName, hkind] at h

/-- Two tokens that rules treat alike. Operators may be spelled
differently. -/
structure Alike (t u : Token) : Prop where
  kind : t.kind = u.kind
  value : t.kind ≠ .operator → t.value = u.value
  canonical : Word.canonical t.value = Word.canonical u.value

namespace Alike

variable {t u : Token}

theorem refl (t : Token) : t.Alike t :=
  ⟨rfl, fun _ => rfl, rfl⟩

theorem hasValue (h : t.Alike u) {spelling : String}
    (hs : Word.isSole spelling = true) :
    (t.value == spelling) = (u.value == spelling) := by
  rw [Bool.eq_iff_iff, beq_iff_eq, beq_iff_eq,
    ← Word.canonical_eq_iff hs t.value, ← Word.canonical_eq_iff hs u.value,
    h.canonical]

theorem hasValueIn (h : t.Alike u) {spellings : List String}
    (hs : spellings.all Word.isSole = true) :
    spellings.contains t.value = spellings.contains u.value := by
  induction spellings with
  | nil => rfl
  | cons s ss ih =>
    rw [List.all_cons, Bool.and_eq_true] at hs
    rw [List.contains_cons, List.contains_cons, h.hasValue hs.1, ih hs.2]

/-- A question about the values of tokens of one kind. -/
theorem ofKind (h : t.Alike u) {kind : TokenKind} (hk : kind ≠ .operator)
    (question : String → Bool) :
    (t.kind == kind && question t.value)
      = (u.kind == kind && question u.value) := by
  rw [← h.kind]
  cases hkind : t.kind == kind with
  | false => rfl
  | true =>
    have hne : t.kind ≠ .operator := by
      rw [beq_iff_eq.1 hkind]
      exact hk
    rw [h.value hne]

theorem isEnd (h : t.Alike u) : t.isEnd = u.isEnd := by
  simp only [Token.isEnd, h.kind]

theorem isName (h : t.Alike u) : t.isName = u.isName := by
  simp only [Token.isName, h.kind]

theorem isString (h : t.Alike u) : t.isString = u.isString := by
  simp only [Token.isString, h.kind]

theorem isPunct (h : t.Alike u) (value : String) :
    t.isPunct value = u.isPunct value :=
  h.ofKind (by decide) (· == value)

theorem isKeyword (h : t.Alike u) (value : String) :
    t.isKeyword value = u.isKeyword value :=
  h.ofKind (by decide) (· == value)

theorem isOperator (h : t.Alike u) (operator : String) :
    t.isOperator operator = u.isOperator operator := by
  simp only [Token.isOperator, h.kind, h.canonical]

theorem isSpelled (h : t.Alike u) {spelling : String}
    (hs : Word.isSole spelling = true) :
    t.isSpelled spelling = u.isSpelled spelling := by
  simp only [Token.isSpelled, h.kind, h.hasValue hs]

theorem isKind (h : t.Alike u) (kind : TokenKind) :
    (t.kind == kind) = (u.kind == kind) := by
  rw [h.kind]

theorem opens (h : t.Alike u) : t.opens = u.opens := by
  simp only [Token.opens, h.isPunct]

theorem closes (h : t.Alike u) : t.closes = u.closes := by
  simp only [Token.closes, h.isPunct]

end Alike

end Token

namespace Grammar

open EStateM (Result)

-- ========================================================= the relations

/-- The items up to a closing bracket, and the bracket. -/
def enclosed (policy : Policy) (closer context : String)
    (item : Parser Node) : Parser (List Node) := do
  let items ← sequence policy closer item
  expectPunct closer context
  return items

/-- A round of the type behind `new`, up to array bounds. -/
def allocatedRound : Parser (Round Unit Unit) := do
  let t ← peek
  if (t.isName || t.kind == .keyword)
      && !endsNewType.contains t.value then
    advance
    return .again ()
  else if t.isSpelled "::" || t.isSpelled "*" || t.isSpelled "&" then
    advance
    return .again ()
  else if t.isSpelled "<" then
    skipTemplateArguments
    return .again ()
  else return .done ()

/-- A `new` with its placement arguments and the type, up to array
bounds. -/
def allocated : Parser Unit := do
  advance
  if ← check (·.isPunct "(") then skipGroup "after placement arguments"
  loop (fun _ => allocatedRound) ()

/-- What two readings have in common on their way. -/
structure Lockstep where
  /-- What the first reading does about errors. -/
  first : Policy
  /-- What the second reading does about errors. -/
  second : Policy
  token : Token → Token → Prop
  mark : Mark → Mark → Prop
  node : Node → Node → Prop
  /-- The children of related nodes. -/
  nodes : List Node → List Node → Prop
  error : SyntaxError → SyntaxError → Prop
  state : State → State → Prop
  /-- What is known of two states and the two that the readings came to
  from there. -/
  since : State → State → State → State → Prop
  since_refl (s t : State) : since s t s t
  since_trans {s t s' t' s'' t'' : State} :
    since s t s' t' → since s' t' s'' t'' → since s t s'' t''
  /-- What is known when the first reading came to this outcome, and the
  second one, in that state, goes on. -/
  apart : {α : Type} → Result SyntaxError State α → State → Prop
  /-- The first reading may go on as well, unless it ended with an
  error. -/
  apart_after {α β : Type} {r : Result SyntaxError State α} {t : State}
    (f : Result SyntaxError State α → Result SyntaxError State β) :
    (∀ e s, f (.error e s) = .error e s) → apart r t → apart (f r) t

namespace Lockstep

variable {α β γ δ : Type} {L : Lockstep}
  {V : α → β → Prop} {W : γ → δ → Prop}

/-- The second reading alone, where the first one came to the outcome
`r`. -/
inductive Alone (L : Lockstep) {ρ : Type} (V : α → β → Prop)
    (r : Result SyntaxError State ρ) : Result SyntaxError State β → Prop
  | ok {a : α} {b : β} {t : State} :
    V a b → L.apart r t → L.Alone V r (.ok b t)
  | error {e : SyntaxError} {t : State} :
    L.apart r t → L.Alone V r (.error e t)

/-- Outcomes of two readings that began in the related states `s` and
`t`. -/
inductive Outcomes (L : Lockstep) (V : α → β → Prop) (s t : State) :
    Result SyntaxError State α → Result SyntaxError State β → Prop
  | ok {a : α} {b : β} {s' t' : State} :
    V a b → L.state s' t' → L.since s t s' t' →
    L.Outcomes V s t (.ok a s') (.ok b t')
  | error {d e : SyntaxError} {s' t' : State} :
    L.error d e → L.state s' t' →
    L.Outcomes V s t (.error d s') (.error e t')
  | part {r : Result SyntaxError State α}
    {r' : Result SyntaxError State β} :
    L.Alone V r r' → L.Outcomes V s t r r'

/-- Outcomes of two readings that began further back. -/
theorem Outcomes.since {s t s' t' : State}
    {r : Result SyntaxError State α} {r' : Result SyntaxError State β}
    (h : L.Outcomes V s' t' r r') (hsince : L.since s t s' t') :
    L.Outcomes V s t r r' := by
  cases h with
  | ok hv hs hmore => exact .ok hv hs (L.since_trans hsince hmore)
  | error he hs => exact .error he hs
  | part h => exact .part h

/-- Two rules that keep two readings together, or part them for good. -/
structure InStep (L : Lockstep) (V : α → β → Prop) (p : Parser α)
    (q : Parser β) : Prop where
  both {s t : State} : L.state s t → L.Outcomes V s t (p s) (q t)
  alone {ρ : Type} {r : Result SyntaxError State ρ} {t : State} :
    L.apart r t → L.Alone V r (q t)

/-- Two rules that keep two readings together from states on of which
more is known than that they are related. -/
structure InStepIf (L : Lockstep) (P : State → State → Prop)
    (V : α → β → Prop) (p : Parser α) (q : Parser β) : Prop where
  both {s t : State} : L.state s t → P s t → L.Outcomes V s t (p s) (q t)
  alone {ρ : Type} {r : Result SyntaxError State ρ} {t : State} :
    L.apart r t → L.Alone V r (q t)

/-- What the relations have to keep, step by step. -/
structure Lawful (L : Lockstep) : Prop where
  alike {t u : Token} : L.token t u → t.Alike u
  token_refl (t : Token) : L.token t t
  kind {a b : Node} : L.node a b → a.kind = b.kind
  retag {a b : Node} (kind : NodeKind) :
    (kind == .preprocessorDirective) = false → L.node a b →
    L.node { a with kind := kind } { b with kind := kind }
  nodes {as bs : List Node} : Forall₂ L.node as bs → L.nodes as bs
  /-- What is seen of the tokens ahead. -/
  peek {s t : State} : L.state s t → L.token s.peek t.peek
  next {s t : State} : L.state s t → s.peek.shuts = false →
    L.token (tokenAt 1 s.rest) (tokenAt 1 t.rest)
  arguments {s t : State} (declaration : Bool) : L.state s t →
    opensArguments declaration s.rest = opensArguments declaration t.rest
  cast {s t : State} : L.state s t → s.peek.isPunct "(" = true →
    opensCast s.rest = opensCast t.rest
  declaration {s t : State} :
    L.state s t → opensDeclaration s.rest = opensDeclaration t.rest
  label {s t : State} :
    L.state s t → memberLabel s.rest = memberLabel t.rest
  /-- Both go on or neither does. -/
  moved {s t s' t' : State} : L.state s t → L.state s' t' →
    L.since s t s' t' →
    (s.position < s'.position ↔ t.position < t'.position)
  within {s t s' t' : State} : L.state s t → L.state s' t' →
    (s'.position ≤ s.size ↔ t'.position ≤ t.size)
  /-- What the steps lead to. -/
  mark {s t : State} : L.state s t → L.mark s.mark t.mark
  advance {s t : State} : L.state s t →
    (L.state s.advance t.advance ∧ L.since s t s.advance t.advance)
      ∨ L.apart (advance s) t.advance
  node {s t : State} {m n : Mark} {as bs : List Node} (kind : NodeKind) :
    (kind == .preprocessorDirective) = false →
    L.state s t → L.mark m n → L.nodes as bs →
    L.node (s.node kind m as) (t.node kind n bs)
  error {s t : State} {a b : Token} (problem : String → SyntaxProblem) :
    L.state s t → L.token a b →
    L.error ⟨problem a.value, s.peek⟩ ⟨problem b.value, t.peek⟩
  enclosed {p q : Parser Node} (closer context : String) :
    L.InStep L.node p q →
    L.InStep L.nodes (enclosed L.first closer context p)
      (enclosed L.second closer context q)
  /-- What the second reading does alone. -/
  apart_advance {ρ : Type} {r : Result SyntaxError State ρ} {t : State} :
    L.apart r t → L.apart r t.advance
  apart_mark {ρ : Type} {r : Result SyntaxError State ρ} {t : State} :
    L.apart r t → ∃ m, L.mark m t.mark
  apart_node {ρ : Type} {r : Result SyntaxError State ρ} {t : State}
    {m n : Mark} {as bs : List Node} (kind : NodeKind) :
    (kind == .preprocessorDirective) = false → L.apart r t →
    L.mark m n → L.nodes as bs → ∃ a, L.node a (t.node kind n bs)

-- ================================================== steps and their order

/-- What follows an outcome: the next rule, unless it is an error. -/
def goOn (f : α → Parser γ) :
    Result SyntaxError State α → Result SyntaxError State γ
  | .ok a s => f a s
  | .error e s => .error e s

theorem bind_apply (p : Parser α) (f : α → Parser γ) (s : State) :
    (p >>= f) s = goOn f (p s) := by
  show EStateM.bind p f s = goOn f (p s)
  unfold EStateM.bind
  cases p s with
  | ok a s => rfl
  | error e s => rfl

theorem accept_apply (q : Token → Bool) (f : Bool → Parser γ) (s : State) :
    (accept q >>= f) s
      = if q s.peek then f true s.advance else f false s := by
  rw [bind_apply]
  unfold accept
  cases q s.peek <;> rfl

/-- What items up to a closing bracket, and the bracket, come to. -/
theorem enclosed_eq (policy : Policy) (closer context : String)
    (item : Parser Node) (s : State) :
    enclosed policy closer context item s =
      let r := gather policy (some closer) item s.size [] s
      match r.error with
      | some e => .error e r.state
      | none =>
        if r.state.peek.isPunct closer then .ok r.items r.state.advance
        else .error ⟨.expected s!"'{closer}' {context}", r.state.peek⟩
          r.state := by
  unfold enclosed
  rw [bind_apply]
  unfold sequence
  dsimp only
  generalize gather policy (some closer) item s.size [] s = r
  obtain ⟨items, u, error⟩ := r
  cases error with
  | some e => rfl
  | none =>
    dsimp only [goOn]
    rw [bind_apply]
    unfold expectPunct expect
    dsimp only
    by_cases h : u.peek.isPunct closer = true
    · rw [if_pos h, if_pos h]
      rfl
    · rw [if_neg h, if_neg h]
      rfl

theorem apart_goOn (f : α → Parser γ)
    {r : Result SyntaxError State α} {t : State} (h : L.apart r t) :
    L.apart (goOn f r) t :=
  L.apart_after (goOn f) (fun _ _ => rfl) h

/-- What the second reading comes to alone, and the next rule. -/
theorem Alone.goOn {ρ ρ' : Type} {r : Result SyntaxError State ρ}
    {r₁ : Result SyntaxError State ρ'} {r' : Result SyntaxError State β}
    (h : L.Alone V r r') (hr : ∀ {t}, L.apart r t → L.apart r₁ t)
    {g : β → Parser δ}
    (k : ∀ a b, V a b → ∀ {t}, L.apart r₁ t → L.Alone W r₁ (g b t)) :
    L.Alone W r₁ (goOn g r') := by
  cases h with
  | ok hv ht => exact k _ _ hv (hr ht)
  | error ht => exact .error (hr ht)

/-- Outcomes of two readings, and the next rule. -/
theorem Outcomes.goOn {s t : State} {r : Result SyntaxError State α}
    {r' : Result SyntaxError State β} (h : L.Outcomes V s t r r')
    {f : α → Parser γ} {g : β → Parser δ}
    (k : ∀ a b, V a b → L.InStep W (f a) (g b)) :
    L.Outcomes W s t (goOn f r) (goOn g r') := by
  cases h with
  | ok hv hs hsince => exact ((k _ _ hv).both hs).since hsince
  | error he hs => exact .error he hs
  | part hr =>
    exact .part (hr.goOn (apart_goOn f) fun _ _ hv => (k _ _ hv).alone)

namespace InStep

theorem pure {a : α} {b : β} (h : V a b) :
    L.InStep V (pure a) (pure b) where
  both hs := .ok h hs (L.since_refl _ _)
  alone ht := .ok h ht

theorem bind {p : Parser α} {q : Parser β} {f : α → Parser γ}
    {g : β → Parser δ} (h : L.InStep V p q)
    (k : ∀ a b, V a b → L.InStep W (f a) (g b)) :
    L.InStep W (p >>= f) (q >>= g) where
  both {s t} hs := by
    rw [bind_apply, bind_apply]
    exact (h.both hs).goOn k
  alone {ρ r t} ht := by
    rw [bind_apply]
    exact (h.alone ht).goOn id fun _ _ hv => (k _ _ hv).alone

/-- The same choice on both sides. -/
theorem ite {c d : Bool} {p p' : Parser α} {q q' : Parser β}
    (h : c = d) (hp : L.InStep V p q) (hq : L.InStep V p' q') :
    L.InStep V (if c then p else p') (if d then q else q') := by
  subst h
  cases c with
  | true => exact hp
  | false => exact hq

/-- A step with the same value on both sides. -/
theorem bindEq {p q : Parser α} {f : α → Parser γ} {g : α → Parser δ}
    (h : L.InStep Eq p q) (k : ∀ a, L.InStep W (f a) (g a)) :
    L.InStep W (p >>= f) (q >>= g) := by
  apply bind h
  rintro a _ rfl
  exact k a

/-- A step whose value is not used. -/
theorem andThen {p : Parser α} {q : Parser β} {p' : Parser γ}
    {q' : Parser δ} (h : L.InStep V p q) (k : L.InStep W p' q') :
    L.InStep W (p >>= fun _ => p') (q >>= fun _ => q') :=
  bind h fun _ _ _ => k

/-- A step that is taken on a condition, and what follows in any
case. -/
theorem when {c d : Bool} {p q : Parser Unit} {f : Unit → Parser γ}
    {g : Unit → Parser δ} (h : c = d) (hp : L.InStep Eq p q)
    (k : L.InStep W (f ()) (g ())) :
    L.InStep W (if c then p >>= f else f ())
      (if d then q >>= g else g ()) :=
  .ite h (.bindEq hp fun _ => k) k

/-- A question to both readings. That an answer is related to itself
serves the second reading alone. -/
theorem ask {V : α → α → Prop} {p q : State → α} (hrefl : ∀ a, V a a)
    (h : ∀ {s t}, L.state s t → V (p s) (q t)) :
    L.InStep V (fun s => .ok (p s) s) (fun t => .ok (q t) t) where
  both hs := .ok (h hs) hs (L.since_refl _ _)
  alone ht := .ok (hrefl _) ht

/-- A question that both readings answer in the same way. -/
theorem question {p q : State → α}
    (h : ∀ {s t}, L.state s t → p s = q t) :
    L.InStep Eq (fun s => .ok (p s) s) (fun t => .ok (q t) t) :=
  ask (fun _ => rfl) h

end InStep

-- ===================================================== on a condition

section

variable {P Q : State → State → Prop}

theorem InStep.guarded {p : Parser α} {q : Parser β}
    (h : L.InStep V p q) : L.InStepIf P V p q :=
  ⟨fun hs _ => h.both hs, h.alone⟩

namespace InStepIf

/-- Nothing more is asked than what is known of all related states. -/
theorem inStep {p : Parser α} {q : Parser β}
    (hP : ∀ {s t}, L.state s t → P s t) (h : L.InStepIf P V p q) :
    L.InStep V p q :=
  ⟨fun hs => h.both hs (hP hs), h.alone⟩

theorem mono {p : Parser α} {q : Parser β}
    (hP : ∀ {s t}, L.state s t → P s t → Q s t)
    (h : L.InStepIf Q V p q) : L.InStepIf P V p q :=
  ⟨fun hs hp => h.both hs (hP hs hp), h.alone⟩

theorem bind {p : Parser α} {q : Parser β} {f : α → Parser γ}
    {g : β → Parser δ} (h : L.InStepIf P V p q)
    (k : ∀ a b, V a b → L.InStep W (f a) (g b)) :
    L.InStepIf P W (p >>= f) (q >>= g) where
  both {s t} hs hp := by
    rw [bind_apply, bind_apply]
    exact (h.both hs hp).goOn k
  alone {ρ r t} ht := by
    rw [bind_apply]
    exact (h.alone ht).goOn id fun _ _ hv => (k _ _ hv).alone

/-- The same choice on both sides, and what was chosen. -/
theorem ite {c d : Bool} {p p' : Parser α} {q q' : Parser β}
    (h : c = d) (hp : c = true → L.InStepIf P V p q)
    (hq : c = false → L.InStepIf P V p' q') :
    L.InStepIf P V (if c then p else p') (if d then q else q') := by
  subst h
  cases c with
  | true => exact hp rfl
  | false => exact hq rfl

/-- A question to both readings, and what follows its answers. -/
theorem ask {V : α → α → Prop} {v : State → α} (hrefl : ∀ a, V a a)
    (hv : ∀ {s t}, L.state s t → P s t → V (v s) (v t))
    {f : α → Parser γ} {g : α → Parser δ}
    (k : ∀ a b, V a b →
      L.InStepIf (fun s t => P s t ∧ v s = a ∧ v t = b) W (f a) (g b)) :
    L.InStepIf P W (do let a ← (fun s => .ok (v s) s); f a)
      (do let b ← (fun s => .ok (v s) s); g b) where
  both hs hp := (k _ _ (hv hs hp)).both hs ⟨hp, rfl, rfl⟩
  alone ht := (k _ _ (hrefl _)).alone ht

/-- The first rule, if it comes to its end, does so in a state as asked
for. -/
def EndsIn (G : State → Prop) (p : Parser α) (s _t : State) : Prop :=
  ∀ a s', p s = .ok a s' → G s'

/-- A first rule, and a next one that is known to end well. -/
theorem bindEnds {G : State → Prop} {p : Parser α} {q : Parser β}
    {f : α → Parser γ} {g : β → Parser δ} (h : L.InStep V p q)
    (k : ∀ a b, V a b → L.InStepIf (EndsIn G (f a)) W (f a) (g b)) :
    L.InStepIf (EndsIn G (p >>= f)) W (p >>= f) (q >>= g) where
  both {s t} hs hends := by
    have hr := h.both hs
    unfold EndsIn at hends
    rw [bind_apply] at hends
    rw [bind_apply, bind_apply]
    generalize p s = r at hr hends
    generalize q t = r' at hr
    cases hr with
    | ok hv hs' hsince => exact ((k _ _ hv).both hs' hends).since hsince
    | error he hs' => exact .error he hs'
    | part hr =>
      exact .part (hr.goOn (apart_goOn f) fun _ _ hv => (k _ _ hv).alone)
  alone {ρ r t} ht := by
    rw [bind_apply]
    exact (h.alone ht).goOn id fun _ _ hv => (k _ _ hv).alone

end InStepIf

end

-- ================================================================== loops

/-- What related rounds come to. -/
inductive Rounds (V : α → β → Prop) (W : γ → δ → Prop) :
    Round α γ → Round β δ → Prop
  | again {a : α} {b : β} : V a b → Rounds V W (.again a) (.again b)
  | done {c : γ} {d : δ} : W c d → Rounds V W (.done c) (.done d)

/-- What follows the outcome of a round that began in the state `s`. -/
def afterRound (bound : Nat) (round : α → Parser (Round α γ)) (s : State) :
    Result SyntaxError State (Round α γ) → Result SyntaxError State γ
  | .error e s' => .error e s'
  | .ok (.done c) s' => .ok c s'
  | .ok (.again a) s' =>
    if s.position < s'.position ∧ s'.position ≤ bound then
      loopWithin bound round a s'
    else .error ⟨.unexpected, s'.peek⟩ s'

theorem loopWithin_eq (bound : Nat) (round : α → Parser (Round α γ))
    (a : α) (s : State) :
    loopWithin bound round a s
      = afterRound bound round s (round a s) := by
  rw [loopWithin]
  rcases round a s with ⟨a' | c, s'⟩ | ⟨e, s'⟩ <;> rfl

section
variable (hL : L.Lawful) {round : α → Parser (Round α γ)}
  {round' : β → Parser (Round β δ)} {G : State → Prop}
  (hround : ∀ a b, V a b →
    L.InStepIf (fun s _ => ∀ c s', round a s = .ok (.done c) s' → G s')
      (Rounds V W) (round a) (round' b))
include hround

theorem loopWithin_alone (bound : Nat) {ρ : Type}
    {r : Result SyntaxError State ρ} :
    ∀ {a : α} {b : β} {t : State}, V a b → L.apart r t →
      L.Alone W r (loopWithin bound round' b t) := by
  intro a b t
  -- along the second loop, which is the only one that still runs
  fun_induction loopWithin bound round' b t generalizing a with
  | case1 b t e t' heq =>
    intro hv ht
    have hr := (hround a b hv).alone ht
    rw [heq] at hr
    cases hr with
    | error ht => exact .error ht
  | case2 b t c t' heq =>
    intro hv ht
    have hr := (hround a b hv).alone ht
    rw [heq] at hr
    cases hr with
    | ok hc ht =>
      cases hc with
      | done hc => exact .ok hc ht
  | case3 b t b' t' heq _ ih =>
    intro hv ht
    have hr := (hround a b hv).alone ht
    rw [heq] at hr
    cases hr with
    | ok hc ht =>
      cases hc with
      | again hv => exact ih hv ht
  | case4 b t b' t' heq _ =>
    intro hv ht
    have hr := (hround a b hv).alone ht
    rw [heq] at hr
    cases hr with
    | ok _ ht => exact .error ht

/-- The readings parted in a round. -/
theorem afterRound_alone {bound bound' : Nat} {s t : State}
    {r : Result SyntaxError State (Round α γ)}
    {r' : Result SyntaxError State (Round β δ)}
    (h : L.Alone (Rounds V W) r r') :
    L.Alone W (afterRound bound round s r)
      (afterRound bound' round' t r') := by
  have after {t' : State} (ht : L.apart r t') :
      L.apart (afterRound bound round s r) t' :=
    L.apart_after (afterRound bound round s) (fun _ _ => rfl) ht
  generalize afterRound bound round s r = first at after ⊢
  cases h with
  | error ht => exact .error (after ht)
  | ok hc ht =>
    cases hc with
    | done hc => exact .ok hc (after ht)
    | again hv =>
      unfold afterRound
      dsimp only
      split
      · exact loopWithin_alone hround bound' hv (after ht)
      · exact .error (after ht)

include hL

theorem loopWithin_both {bound bound' : Nat}
    (hbound : ∀ {s t : State}, L.state s t →
      (s.position ≤ bound ↔ t.position ≤ bound'))
    {a : α} {b : β} {s t : State} (hv : V a b) (hs : L.state s t)
    (hends : ∀ c s', loopWithin bound round a s = .ok c s' → G s') :
    L.Outcomes W s t (loopWithin bound round a s)
      (loopWithin bound' round' b t) := by
  induction hn : bound - s.position using Nat.strongRecOn
    generalizing a b s t with
  | _ n ih =>
    rw [loopWithin_eq] at hends
    rw [loopWithin_eq, loopWithin_eq]
    have hr := (hround a b hv).both hs fun c s' hdone =>
      hends c s' (by rw [hdone]; rfl)
    generalize round a s = r at hr hends
    generalize round' b t = r' at hr
    cases hr with
    | error he hs => exact .error he hs
    | part hr => exact .part (afterRound_alone hround hr)
    | ok hc hs' hsince =>
      cases hc with
      | done hc => exact .ok hc hs' hsince
      | again hv =>
        have hguard := and_congr (hL.moved hs hs' hsince) (hbound hs')
        unfold afterRound at hends ⊢
        dsimp only at hends ⊢
        split
        case isTrue h =>
          rw [if_pos h] at hends
          rw [if_pos (hguard.1 h)]
          exact (ih _ (by omega) hv hs' hends rfl).since hsince
        case isFalse h =>
          rw [if_neg fun h' => h (hguard.2 h')]
          exact .error
            (hL.error (fun _ => .unexpected) hs' (hL.token_refl .endOfInput))
            hs'

/-- A loop that is known to end well, if it ends, is in step if each of
its rounds is, of which the last one is known to end well. -/
theorem InStepIf.loop {a : α} {b : β} (hv : V a b) :
    L.InStepIf (EndsIn G (loop round a)) W (loop round a) (loop round' b)
    where
  both hs := loopWithin_both hL hround (hL.within hs) hv hs
  alone ht := loopWithin_alone hround _ hv ht

end

/-- A loop is in step if each of its rounds is. -/
theorem InStep.loop (hL : L.Lawful) {round : α → Parser (Round α γ)}
    {round' : β → Parser (Round β δ)}
    (hround : ∀ a b, V a b →
      L.InStep (Rounds V W) (round a) (round' b)) {a : α} {b : β}
    (hv : V a b) : L.InStep W (loop round a) (loop round' b) :=
  InStepIf.inStep (fun _ _ _ _ => trivial)
    (InStepIf.loop (G := fun _ => True) hL
      (fun a b hv => (hround a b hv).guarded) hv)

/-- What is seen of the state. -/
def seen (v : State → δ) : Parser δ := fun s => .ok (v s) s

/-- A round that tells the next one what is seen of the state behind
it. -/
def telling (v : State → δ) (round : Parser (Round α γ)) :
    Parser (Round (α × δ) γ) := do
  match ← round with
  | .again a => return .again (a, ← seen v)
  | .done c => return .done c

theorem telling_bind (v : State → δ) (p : Parser β)
    (f : β → Parser (Round α γ)) :
    telling v (p >>= f) = p >>= fun b => telling v (f b) := by
  unfold telling
  rw [bind_assoc]

theorem telling_done (v : State → δ) (c : γ) :
    telling v (pure (.done c) : Parser (Round α γ)) = pure (.done c) := rfl

theorem telling_ite (v : State → δ) {c : Bool}
    {p q : Parser (Round α γ)} :
    telling v (if c then p else q)
      = if c then telling v p else telling v q := by
  split <;> rfl

/-- What a round sees of the state in front of it, it can be told by the
round before. -/
theorem loop_told {v : State → δ} {round : α → Parser (Round α γ)}
    {round' : α × δ → Parser (Round (α × δ) γ)}
    (h : ∀ a s, round' (a, v s) s = telling v (round a) s) (a : α) :
    loop round a = (do let d ← seen v; loop round' (a, d)) := by
  have within (bound : Nat) (s : State) :
      loopWithin bound round a s = loopWithin bound round' (a, v s) s := by
    fun_induction loopWithin bound round a s with
    | case1 a s e s' heq | case2 a s c s' heq =>
      rw [loopWithin_eq bound round', h, telling, bind_apply, heq]
      rfl
    | case3 a s a' s' heq hguard ih =>
      rw [loopWithin_eq bound round', h, telling, bind_apply, heq, ih]
      exact (if_pos hguard).symm
    | case4 a s a' s' heq hguard =>
      rw [loopWithin_eq bound round', h, telling, bind_apply, heq]
      exact (if_neg hguard).symm
  funext s
  exact within _ s

/-- A loop that carries nothing from round to round. -/
theorem InStep.rounds (hL : L.Lawful) {round : Unit → Parser (Round Unit γ)}
    {round' : Unit → Parser (Round Unit δ)}
    (h : L.InStep (Rounds Eq W) (round ()) (round' ())) :
    L.InStep W (Grammar.loop round ()) (Grammar.loop round' ()) :=
  .loop hL (fun _ _ _ => h) rfl

-- ========================================================= single tokens

namespace InStep

variable (hL : L.Lawful)
include hL

theorem peek : L.InStep L.token peek peek :=
  ask hL.token_refl hL.peek

/-- The next token, and another question about what comes. Nothing is
known of its answers if the token ends an item. -/
theorem peekAsk {V : α → α → Prop} (v : State → α)
    (hrefl : ∀ a, V a a)
    (hv : ∀ {s t}, L.state s t → s.peek.shuts = false → V (v s) (v t))
    {f : Token → α → Parser γ} {g : Token → α → Parser δ}
    (k : ∀ t u a b, L.token t u → (t.shuts = false → V a b) →
      L.InStep W (f t a) (g u b)) :
    L.InStep W
      (do let t ← Grammar.peek; let a ← (fun s => .ok (v s) s); f t a)
      (do let t ← Grammar.peek; let b ← (fun s => .ok (v s) s); g t b) where
  both hs := (k _ _ _ _ (hL.peek hs) (hv hs)).both hs
  alone ht := (k _ _ _ _ (hL.token_refl _) fun _ => hrefl _).alone ht

/-- The next token and the one behind it. -/
theorem peekNext {f : Token → Token → Parser γ}
    {g : Token → Token → Parser δ}
    (k : ∀ t u next next', L.token t u →
      (t.shuts = false → L.token next next') →
      L.InStep W (f t next) (g u next')) :
    L.InStep W
      (do let t ← Grammar.peek; let next ← peekAt 1; f t next)
      (do let t ← Grammar.peek; let next ← peekAt 1; g t next) :=
  peekAsk hL (tokenAt 1 ·.rest) hL.token_refl hL.next k

theorem mark : L.InStep L.mark Grammar.mark Grammar.mark where
  both hs := .ok (hL.mark hs) hs (L.since_refl _ _)
  alone ht := by
    obtain ⟨m, hm⟩ := hL.apart_mark ht
    exact .ok hm ht

theorem advance : L.InStep Eq advance advance where
  both hs := by
    rcases hL.advance hs with h | h
    · exact .ok rfl h.1 h.2
    · exact .part (.ok rfl h)
  alone ht := .ok rfl (hL.apart_advance ht)

theorem check {q : Token → Bool}
    (hq : ∀ {t u : Token}, t.Alike u → q t = q u) :
    L.InStep Eq (check q) (check q) :=
  question fun hs => hq (hL.alike (hL.peek hs))

/-- A question about the next token, and the token behind it. -/
theorem checkNext {q : Token → Bool} {f g : Bool → Token → Parser γ}
    {V : γ → γ → Prop}
    (hq : ∀ {t u : Token}, t.Alike u → q t = q u)
    (hshuts : ∀ {t : Token}, q t = true → t.shuts = false)
    (k : ∀ found next next', (found = true → L.token next next') →
      L.InStep V (f found next) (g found next')) :
    L.InStep V
      (do let found ← Grammar.check q; let next ← peekAt 1; f found next)
      (do let found ← Grammar.check q; let next ← peekAt 1; g found next)
    where
  both {s t} hs := by
    have hsame := hq (hL.alike (hL.peek hs))
    show L.Outcomes V s t (f (q s.peek) _ s) (g (q t.peek) _ t)
    rw [← hsame]
    exact (k _ _ _ fun h => hL.next hs (hshuts h)).both hs
  alone ht := (k _ _ _ fun _ => hL.token_refl _).alone ht

theorem accept {q : Token → Bool}
    (hq : ∀ {t u : Token}, t.Alike u → q t = q u) :
    L.InStep Eq (accept q) (accept q) := by
  have haccept : Grammar.accept q = (do
      if ← Grammar.check q then
        Grammar.advance
        return true
      else return false) := by
    funext s
    rw [bind_apply]
    unfold Grammar.accept Grammar.check goOn
    dsimp only
    split <;> rfl
  rw [haccept]
  refine bindEq (check hL hq) fun found => ite rfl ?_ (pure rfl)
  exact andThen (advance hL) (pure rfl)

/-- An error that may name a token seen before. -/
theorem failWith {a b : Token} (problem : String → SyntaxProblem)
    (h : L.token a b) :
    L.InStep V (fail (problem a.value)) (fail (problem b.value)) where
  both hs := .error (hL.error problem hs h) hs
  alone ht := .error ht

theorem fail (problem : SyntaxProblem) :
    L.InStep V (fail problem) (fail problem) :=
  failWith hL (fun _ => problem) (hL.token_refl .endOfInput)

theorem failExpected (wanted : String) :
    L.InStep V (failExpected wanted) (failExpected wanted) :=
  fail hL (.expected wanted)

theorem expect {q : Token → Bool} (wanted : String)
    (hq : ∀ {t u : Token}, t.Alike u → q t = q u) :
    L.InStep Eq (expect q wanted) (expect q wanted) := by
  have hexpect : Grammar.expect q wanted = (do
      if ← Grammar.check q then Grammar.advance
      else Grammar.failExpected wanted) := by
    funext s
    rw [bind_apply]
    unfold Grammar.expect Grammar.check goOn
    dsimp only
    split <;> rfl
  rw [hexpect]
  exact bindEq (check hL hq) fun found =>
    ite rfl (advance hL) (failExpected hL _)

theorem expectPunct (value context : String) :
    L.InStep Eq (expectPunct value context) (expectPunct value context) :=
  expect hL _ fun h => h.isPunct value

theorem expectOperator (operator context : String) :
    L.InStep Eq (expectOperator operator context)
      (expectOperator operator context) :=
  expect hL _ fun h => h.isOperator operator

theorem expectName : L.InStep Eq expectName expectName :=
  expect hL _ Token.Alike.isName

theorem finish {m n : Mark} {as bs : List Node} (kind : NodeKind)
    (hkind : (kind == .preprocessorDirective) = false)
    (hm : L.mark m n) (h : L.nodes as bs) :
    L.InStep L.node (Grammar.finish kind m as)
      (Grammar.finish kind n bs) where
  both hs := .ok (hL.node kind hkind hs hm h) hs (L.since_refl _ _)
  alone ht := by
    obtain ⟨a, ha⟩ := hL.apart_node kind hkind ht hm h
    exact .ok ha ht

/-- A node with as many children as there are parts. -/
theorem finishAll {m n : Mark} {as bs : List Node} (kind : NodeKind)
    (hkind : (kind == .preprocessorDirective) = false)
    (hm : L.mark m n) (h : Forall₂ L.node as bs) :
    L.InStep L.node (Grammar.finish kind m as) (Grammar.finish kind n bs) :=
  finish hL kind hkind hm (hL.nodes h)

/-- A node for the one token that comes next. -/
theorem leaf {m n : Mark} (kind : NodeKind)
    (hkind : (kind == .preprocessorDirective) = false) (hm : L.mark m n) :
    L.InStep L.node (do Grammar.advance; Grammar.finish kind m [])
      (do Grammar.advance; Grammar.finish kind n []) :=
  .andThen (advance hL) (finishAll hL kind hkind hm .nil)

theorem skipWhile {q : Token → Bool}
    (hq : ∀ {t u : Token}, t.Alike u → q t = q u) :
    L.InStep Eq (skipWhile q) (skipWhile q) := by
  refine rounds hL (bindEq (accept hL hq) fun more => ?_)
  exact ite rfl (pure (.again rfl)) (pure (.done rfl))

theorem commaSeparated {item : Parser α} {item' : Parser β}
    (h : L.InStep V item item') :
    L.InStep (Forall₂ V) (commaSeparated item) (commaSeparated item') := by
  refine loop (V := Forall₂ V) hL ?_ .nil
  intro as bs hs
  apply bind h
  intro a b hv
  refine bindEq (accept hL fun h => h.isPunct ",") fun more => ?_
  refine ite rfl (pure (.again (.cons hv hs))) (pure (.done ?_))
  exact List.rel_reverse (.cons hv hs)

end InStep

namespace InStepIf

variable (hL : L.Lawful) {P Q : State → State → Prop}
include hL

theorem mark {f : Mark → Parser γ} {g : Mark → Parser δ}
    (k : ∀ m n, L.mark m n → L.InStepIf P W (f m) (g n)) :
    L.InStepIf P W (do let m ← Grammar.mark; f m)
      (do let n ← Grammar.mark; g n) where
  both hs hp := (k _ _ (hL.mark hs)).both hs hp
  alone ht := by
    obtain ⟨m, hm⟩ := hL.apart_mark ht
    exact (k m _ hm).alone ht

/-- The next token, with what is known of it. -/
theorem peek {f : Token → Parser γ} {g : Token → Parser δ}
    (k : ∀ t u, L.token t u →
      L.InStepIf (fun s s' => P s s' ∧ s.peek = t ∧ s'.peek = u) W
        (f t) (g u)) :
    L.InStepIf P W (do let t ← Grammar.peek; f t)
      (do let u ← Grammar.peek; g u) :=
  ask (v := State.peek) hL.token_refl (fun hs _ => hL.peek hs) k

/-- The next token, where it matters further on that it is the next. -/
theorem peekFirst {f : Token → Parser γ} {g : Token → Parser δ}
    (k : ∀ t u, L.token t u →
      L.InStepIf (fun s s' => s.peek = t ∧ s'.peek = u) W (f t) (g u)) :
    L.InStep W (do let t ← Grammar.peek; f t)
      (do let u ← Grammar.peek; g u) :=
  inStep (P := fun _ _ => True) (fun _ => trivial)
    (peek hL fun t u ht => (k t u ht).mono fun _ hp => hp.2)

theorem check {q : Token → Bool}
    (hq : ∀ {t u : Token}, t.Alike u → q t = q u)
    {f : Bool → Parser γ} {g : Bool → Parser δ}
    (k : ∀ found, L.InStepIf P W (f found) (g found)) :
    L.InStepIf P W (do let found ← Grammar.check q; f found)
      (do let found ← Grammar.check q; g found) := by
  refine ask (V := Eq) (v := fun s => q s.peek) (fun _ => rfl)
    (fun hs _ => hq (hL.alike (hL.peek hs))) ?_
  rintro found _ rfl
  exact (k found).mono fun _ hp => hp.1

/-- A token is read, and with that other things are known. -/
theorem advance {p : Parser γ} {q : Parser δ}
    (hP : ∀ {s t}, L.state s t → L.state s.advance t.advance → P s t →
      Q s.advance t.advance)
    (h : L.InStepIf Q W p q) :
    L.InStepIf P W (do Grammar.advance; p) (do Grammar.advance; q) where
  both {s t} hs hp := by
    rw [bind_apply, bind_apply]
    rcases hL.advance hs with hadvance | hadvance
    · exact (h.both hadvance.1 (hP hs hadvance.1 hp)).since hadvance.2
    · exact .part (h.alone (apart_goOn _ hadvance))
  alone ht := h.alone (hL.apart_advance ht)

/-- Where a token is accepted other things are known than where not. -/
theorem accept {q : Token → Bool}
    (hq : ∀ {t u : Token}, t.Alike u → q t = q u)
    (hP : ∀ {s t}, L.state s t → P s t → q s.peek = true →
      Q s.advance t.advance)
    {f : Bool → Parser γ} {g : Bool → Parser δ}
    (hread : L.InStepIf Q W (f true) (g true))
    (hleft : L.InStepIf P W (f false) (g false)) :
    L.InStepIf P W (do let found ← Grammar.accept q; f found)
      (do let found ← Grammar.accept q; g found) := by
  have haccept {α : Type} (f : Bool → Parser α) :
      (do let found ← Grammar.accept q; f found) = (do
        let found ← Grammar.check q
        if found then
          Grammar.advance
          f true
        else f false) := by
    funext s
    rw [accept_apply]
    show _ = (if q s.peek then _ else _ : Parser α) s
    split <;> rfl
  rw [haccept, haccept]
  refine ask (V := Eq) (v := fun s => q s.peek) (fun _ => rfl)
    (fun hs _ => hq (hL.alike (hL.peek hs))) ?_
  rintro found _ rfl
  cases found with
  | true => exact advance hL (fun hs _ hp => hP hs hp.1 hp.2.1) hread
  | false => exact hleft.mono fun _ hp => hp.1

end InStepIf

-- ===================================================== operators by symbol

/-- Both readings are at a `~`, or neither is. -/
def AtComplement (s t : State) : Prop :=
  s.peek.isSpelled "~" = t.peek.isSpelled "~"

/-- What else the relations have to keep where a rule knows an operator by
its symbol alone. -/
class SpelledAlike (L : Lockstep) : Prop where
  complement {s t : State} : L.state s t → s.peek.leadsName = true →
    AtComplement s.advance t.advance
  allocated : L.InStepIf (fun s _ => s.peek.isKeyword "new" = true) Eq
    allocated allocated

end Lockstep

end Grammar

end FrontEnd
