/-
Readings of a token list and of the same list with every token changed in
a way that no rule notices.

The two readings stay at the same place all the way (`Relabelled`), report
errors at the same tokens, and build the same tree but for the locations
of its nodes, which are those of the changed tokens (`Node.relocate`). What
a change has to be known for besides is that casts begin at the same
places (`relabelling_lawful`) and that the three rules that know operators
by their symbol alone answer alike. A change that keeps the values of all
tokens is known for both (`relabelling_spelledAlike`).
-/
import Mathlib.Data.List.Infix
import FrontEnd.Proofs.Course.Unit
import FrontEnd.Proofs.Lockstep.RelabelledTokens
import FrontEnd.Proofs.Lockstep.Statement

namespace FrontEnd

open List (Forall₂)

/-- Two lists have one image if their elements have, one by one. -/
theorem map_eq_map_of_forall₂ {α β γ : Type} {f : α → γ} {g : β → γ}
    {as : List α} {bs : List β} (h : Forall₂ (fun a b => f a = g b) as bs) :
    as.map f = bs.map g := by
  rw [← List.forall₂_eq_eq_eq, List.forall₂_map_left_iff,
    List.forall₂_map_right_iff]
  exact h

-- =============================================================== relocation

namespace Node

mutual

/-- The tree with each of its nodes in the place of where it was. -/
def relocate (place : Location → Location) : Node → Node
  | ⟨kind, first, stop, location, recovered, children⟩ =>
    ⟨kind, first, stop, place location, recovered,
      relocateAll place children⟩

/-- The trees with all of their nodes relocated. -/
def relocateAll (place : Location → Location) : List Node → List Node
  | [] => []
  | n :: ns => n.relocate place :: relocateAll place ns

end

variable {place : Location → Location}

theorem relocateAll_eq (ns : List Node) :
    relocateAll place ns = ns.map (relocate place) := by
  induction ns with
  | nil => rfl
  | cons n ns ih => rw [relocateAll, ih, List.map_cons]

theorem relocate_eq (n : Node) :
    n.relocate place = { n with
      location := place n.location
      children := n.children.map (relocate place) } := by
  cases n
  rw [relocate, relocateAll_eq]

@[simp]
theorem relocate_kind (n : Node) : (n.relocate place).kind = n.kind := by
  rw [relocate_eq]

theorem relocate_retag (n : Node) (kind : NodeKind) :
    ({ n with kind := kind } : Node).relocate place
      = { n.relocate place with kind := kind } := by
  cases n
  rfl

mutual

/-- Where every node stays, the tree is the same. -/
theorem relocate_id (n : Node) : n.relocate id = n := by
  obtain ⟨_, _, _, _, _, children⟩ := n
  rw [relocate, relocateAll_id children]
  rfl

theorem relocateAll_id (ns : List Node) : relocateAll id ns = ns := by
  match ns with
  | [] => rfl
  | n :: ns => rw [relocateAll, relocate_id n, relocateAll_id ns]

end

end Node

namespace Grammar

-- =========================================================== the relations

/-- An error noticed at a token, and one noticed at the changed token. If
values are kept, it is the same problem. -/
structure SameError (f : Token → Token) (d e : SyntaxError) : Prop where
  found : e.found = f d.found
  problem : Token.KeepsValues f → e.problem = d.problem

/-- Two readings at the same place, the second one of changed tokens. -/
structure Relabelled (f : Token → Token) (tokens : List Token)
    (s t : State) : Prop where
  along : s.Along tokens
  rest : t.rest = s.rest.map f
  position : t.position = s.position
  size : t.size = s.size
  depth : t.depth = s.depth
  phase : t.phase = s.phase
  recovered : t.recovered = s.recovered
  errors : Forall₂ (SameError f) s.errors.toList t.errors.toList

/-- A reading of tokens first, and one of the changed tokens second. -/
def relabelling (policy : Policy) (f : Token → Token)
    (place : Location → Location) (tokens : List Token) : Lockstep where
  first := policy
  second := policy
  token t u := t.Alike u ∧ (Token.KeepsValues f → t.value = u.value)
  mark m n := n = ⟨m.index, place m.location⟩
  node a b := b = a.relocate place
  nodes as bs := bs = as.map (Node.relocate place)
  error := SameError f
  state := Relabelled f tokens
  since _ _ _ _ := True
  since_refl _ _ := trivial
  since_trans _ _ := trivial
  apart _ _ := False
  apart_after _ _ := id

variable {policy : Policy} {f : Token → Token}
  {place : Location → Location} {tokens : List Token}
  (hf : Token.Relabels f place)
include hf

theorem relabelling_token (t : Token) :
    (relabelling policy f place tokens).token t (f t) :=
  ⟨hf.alike t, fun hvalues => (hvalues t).symm⟩

theorem resume_map (base index depth : Nat) (ts : List Token) :
    resume base index depth (ts.map f)
      = ((resume base index depth ts).1, (resume base index depth ts).2.1,
        (resume base index depth ts).2.2.map f) := by
  induction ts generalizing index depth with
  | nil => rfl
  | cons t ts ih =>
    rw [List.map_cons, resume.eq_def _ _ _ (t :: ts),
      resume.eq_def _ _ _ (f t :: _)]
    simp only [hf.isEnd, hf.isDirective, hf.isPunct, hf.closes,
      depthAfter_map hf, ih]
    (repeat' split) <;> rfl

theorem directives_map (recovered : Bool) (done : List Node)
    (index : Nat) (ts : List Token) :
    directives recovered (done.map (Node.relocate place)) index (ts.map f)
      = ((directives recovered done index ts).1.map (Node.relocate place),
        (directives recovered done index ts).2.1,
        (directives recovered done index ts).2.2.map f) := by
  induction ts generalizing done index with
  | nil => rfl
  | cons t ts ih =>
    rw [List.map_cons, directives.eq_def _ _ _ (t :: ts),
      directives.eq_def _ _ _ (f t :: _)]
    dsimp only
    rw [hf.isDirective, hf.location]
    split
    · exact ih ({ kind := .preprocessorDirective, first := index
                  stop := index + 1, location := t.location
                  recovered := recovered, children := [] } :: done) _
    · rfl

namespace Relabelled

variable {s t : State} (h : Relabelled f tokens s t)
include h

omit hf in
theorem rest_mem_tails : s.rest ∈ tokens.tails := by
  rw [List.mem_tails, h.along.rest]
  exact List.drop_suffix _ _

theorem peek : t.peek = f s.peek := by
  rw [State.peek_eq_tokenAt, State.peek_eq_tokenAt, h.rest, tokenAt_map hf]

theorem mark : t.mark = ⟨s.mark.index, place s.mark.location⟩ := by
  have hindex : t.mark.index = s.mark.index := by
    rw [State.mark_index, State.mark_index, h.rest, h.position,
      takeWhile_isDirective_map hf]
  have hlocation : t.mark.location = place s.mark.location := by
    show t.peek.location = place s.peek.location
    rw [h.peek hf, hf.location]
  show (⟨t.mark.index, t.mark.location⟩ : Mark) = _
  rw [hindex, hlocation]

theorem advance : Relabelled f tokens s.advance t.advance := by
  have hend : t.peek.isEnd = s.peek.isEnd := by
    rw [h.peek hf, hf.isEnd]
  cases hs : s.peek.isEnd with
  | true =>
    rw [s.advance_of_end hs, t.advance_of_end (hend.trans hs)]
    exact h
  | false =>
    have halong := h.along.advance
    rw [s.advance_of_not_end hs] at halong ⊢
    rw [t.advance_of_not_end (hend.trans hs), h.mark hf, h.peek hf,
      h.depth, depthAfter_map hf, h.rest, dropWhile_isDirective_map hf,
      ← List.map_tail]
    exact ⟨halong, rfl, rfl, h.size, rfl, h.phase, h.recovered, h.errors⟩

theorem pass (position : Nat) :
    Relabelled f tokens (s.pass position) (t.pass position) := by
  unfold State.pass
  rw [h.position]
  split
  · exact h.advance hf
  · exact h

omit hf in
theorem settle : Relabelled f tokens s.settle t.settle := by
  have halong := h.along.settle.along
  unfold State.settle at *
  rw [h.phase]
  split
  case isTrue hrecovering =>
    rw [if_pos hrecovering] at halong
    exact ⟨halong, h.rest, h.position, h.size, h.depth, rfl, h.recovered,
      h.errors⟩
  case isFalse => exact h

omit hf in
theorem node (kind : NodeKind) (m : Mark) (children : List Node) :
    t.node kind ⟨m.index, place m.location⟩
      (children.map (Node.relocate place))
      = (s.node kind m children).relocate place := by
  rw [Node.relocate_eq]
  unfold State.node
  rw [h.position, h.recovered]

/-- Both go on at the same place behind an error. -/
theorem recover (base : Nat) {d e : SyntaxError} (he : SameError f d e) :
    Relabelled f tokens (s.recover base d) (t.recover base e) := by
  have halong := (h.along.recover base d).along
  have hresume := resume_map hf base s.position s.depth s.rest
  unfold State.recover at *
  rw [h.rest, h.position, h.depth, hresume, h.phase]
  refine ⟨halong, rfl, rfl, h.size, rfl, rfl, rfl, ?_⟩
  dsimp only
  split
  · rw [Array.toList_push, Array.toList_push]
    exact List.rel_append h.errors (.cons he .nil)
  · exact h.errors

theorem directives (done : List Node) :
    (t.takeDirectives (done.map (Node.relocate place))).1
        = (s.takeDirectives done).1.map (Node.relocate place)
      ∧ Relabelled f tokens (s.takeDirectives done).2
        (t.takeDirectives (done.map (Node.relocate place))).2 := by
  have halong := (h.along.directives done).along
  have heq := directives_map hf s.recovered done s.position s.rest
  unfold State.takeDirectives at *
  rw [h.rest, h.position, h.recovered, heq]
  exact ⟨rfl, halong, rfl, rfl, h.size, h.depth, h.phase, rfl, h.errors⟩

end Relabelled

-- ============================================================== sequences

omit hf in
/-- What came of the same items, the second time of changed tokens. -/
structure SameItems (f : Token → Token) (place : Location → Location)
    (tokens : List Token) (r r' : Gathered) : Prop where
  items : r'.items = r.items.map (Node.relocate place)
  error : Option.Rel (SameError f) r.error r'.error
  state : Relabelled f tokens r.state r'.state

section

variable {p q : Parser Node} (hitem : (relabelling policy f place
  tokens).InStep (relabelling policy f place tokens).node p q)
include hitem

theorem gather_relabelled (closer : Option String) (bound : Nat)
    (done : List Node) {s t : State} (h : Relabelled f tokens s t) :
    SameItems f place tokens (gather policy closer p bound done s)
      (gather policy closer q bound (done.map (Node.relocate place)) t) := by
  induction done, s using gather_induction bound generalizing t with
  | step done s ih =>
    have hstart := h.position
    obtain ⟨hdone, h⟩ := h.directives hf done
    have goOn (done : List Node) {after after' : State}
        (h : Relabelled f tokens after after') :
        SameItems f place tokens
          (proceed policy closer p bound s.position done after)
          (proceed policy closer q bound t.position
            (done.map (Node.relocate place)) after') := by
      unfold proceed
      rw [hstart, h.position]
      split
      case isTrue hgo => exact ih _ _ hgo.1 hgo.2 h
      case isFalse => exact ⟨List.map_reverse.symm, .none, h⟩
    rw [gather_eq, gather_eq]
    dsimp only
    rw [hdone]
    generalize (s.takeDirectives done).2 = s₁ at *
    generalize (s.takeDirectives done).1 = done₁ at *
    generalize (t.takeDirectives (done.map _)).2 = t₁ at *
    have hends : endsSequence closer t₁.peek = endsSequence closer s₁.peek
        := by
      unfold endsSequence
      rw [h.peek hf, hf.isEnd]
      cases closer with
      | none => rfl
      | some closer => simp only [Option.any_some, hf.isPunct]
    rw [hends]
    split
    · exact ⟨List.map_reverse.symm, .none, h⟩
    · have hboth := hitem.both h
      generalize p s₁ = r at hboth
      generalize q t₁ = r' at hboth
      rw [h.position, h.depth]
      cases hboth with
      | @ok a b s₂ t₂ hnode h₂ _ =>
        obtain rfl : b = a.relocate place := hnode
        have h₂ : Relabelled f tokens s₂ t₂ := h₂
        exact goOn (a :: done₁) (h₂.settle.pass hf s₁.position)
      | @error d e s₂ t₂ he h₂ =>
        have h₂ : Relabelled f tokens s₂ t₂ := h₂
        cases policy with
        | strict => exact ⟨List.map_reverse.symm, .some he, h₂⟩
        | tolerant =>
          exact goOn _ ((h₂.recover hf s₁.depth he).pass hf s₁.position)
      | part halone =>
        cases halone with
        | ok _ hapart => exact hapart.elim
        | error hapart => exact hapart.elim

theorem sequence_relabelled (closer : String) :
    (relabelling policy f place tokens).InStep
      (relabelling policy f place tokens).nodes
      (sequence policy closer p) (sequence policy closer q) where
  both {s t} h := by
    have h : Relabelled f tokens s t := h
    have hsame := gather_relabelled hf hitem (some closer) s.size [] h
    rw [List.map_nil, ← h.size] at hsame
    unfold sequence
    dsimp only
    rw [← h.size]
    generalize gather policy (some closer) p t.size [] s = r at hsame
    generalize gather policy (some closer) q t.size [] t = r' at hsame
    obtain ⟨items, s', error⟩ := r
    obtain ⟨items', t', error'⟩ := r'
    obtain ⟨hitems, herror, h⟩ := hsame
    cases herror with
    | none =>
      exact .ok (V := (relabelling policy f place tokens).nodes)
        (L := relabelling policy f place tokens) hitems h trivial
    | some he => exact .error (L := relabelling policy f place tokens) he h
  alone h := h.elim

end

/-- A bracket that has to come. -/
theorem expectPunct_relabelled (value context : String) :
    (relabelling policy f place tokens).InStep Eq
      (expectPunct value context) (expectPunct value context) where
  both {s t} h := by
    have h : Relabelled f tokens s t := h
    have hpunct : t.peek.isPunct value = s.peek.isPunct value := by
      rw [h.peek hf, hf.isPunct]
    unfold expectPunct expect
    simp only [hpunct]
    split
    · exact .ok (L := relabelling policy f place tokens) rfl
        (h.advance hf) trivial
    · exact .error (L := relabelling policy f place tokens)
        ⟨h.peek hf, fun _ => rfl⟩ h
  alone h := h.elim

-- ========================================================= the lockstep

/-- Where casts begin at the same places, every rule of the grammar is in
step. -/
theorem relabelling_lawful
    (hcast : ∀ ts ∈ tokens.tails, (tokenAt 0 ts).isPunct "(" = true →
      opensCast (ts.map f) = opensCast ts) :
    (relabelling policy f place tokens).Lawful where
  alike h := h.1
  token_refl t := ⟨.refl t, fun _ => rfl⟩
  kind {a b} h := by
    obtain rfl : b = a.relocate place := h
    exact a.relocate_kind.symm
  retag {a b} kind _ h := by
    obtain rfl : b = a.relocate place := h
    exact (a.relocate_retag kind).symm
  nodes {as bs} h := by
    show bs = as.map (Node.relocate place)
    induction h with
    | nil => rfl
    | cons hab _ ih => rw [List.map_cons, ← ih, hab]
  peek h := h.peek hf ▸ relabelling_token hf _
  next h _ := by
    rw [h.rest, tokenAt_map hf]
    exact relabelling_token hf _
  arguments declaration h := by rw [h.rest, opensArguments_map hf]
  cast {s t} h hopen := by
    rw [h.rest, hcast _ h.rest_mem_tails (s.peek_eq_tokenAt ▸ hopen)]
  declaration h := by rw [h.rest, opensDeclaration_map hf]
  label h := by rw [h.rest, memberLabel_map hf]
  moved h h' _ := by rw [h.position, h'.position]
  within h h' := by rw [h.size, h'.position]
  mark h := h.mark hf
  advance h := .inl ⟨h.advance hf, trivial⟩
  node {s t m n as bs} kind _ h hm hs := by
    obtain rfl : n = ⟨m.index, place m.location⟩ := hm
    obtain rfl : bs = as.map (Node.relocate place) := hs
    exact h.node kind m as
  error {s t a b} problem h hab :=
    ⟨h.peek hf, fun hvalues => by rw [hab.2 hvalues]⟩
  enclosed {p q} closer context h :=
    .bind (sequence_relabelled hf h closer) fun _ _ hitems =>
      .andThen (expectPunct_relabelled hf closer context) (.pure hitems)
  apart_advance := id
  apart_mark := False.elim
  apart_node _ _ h := h.elim

/-- A change that keeps the values of the tokens changes no answer about a
symbol. -/
theorem relabelling_spelledAlike (hvalues : Token.KeepsValues f) :
    (relabelling policy f place tokens).SpelledAlike :=
  Lockstep.spelledAlike_of_isSpelled
    (relabelling_lawful hf fun ts _ _ => opensCast_map hf hvalues ts)
    fun {t u} h operator => by
      unfold Token.isSpelled
      rw [h.1.kind, h.2 hvalues]

-- ================================================================== units

variable (policy tokens) in
/-- The outcome of reading changed tokens. -/
theorem ofTokens_relabelled
    (hL : (relabelling policy f place tokens).Lawful)
    (hS : (relabelling policy f place tokens).SpelledAlike) :
    let r := ParseOutcome.ofTokens policy tokens
    let r' := ParseOutcome.ofTokens policy (tokens.map f)
    r'.phase = r.phase ∧ r'.tree = r.tree.relocate place
      ∧ Forall₂ (SameError f) r.errors r'.errors := by
  intro r r'
  have hstart : Relabelled f tokens (.start tokens)
      (.start (tokens.map f)) :=
    ⟨.start tokens, rfl, rfl, List.length_map _, rfl, rfl, rfl, .nil⟩
  have hitem : (relabelling policy f place tokens).InStep
      (relabelling policy f place tokens).node
      (parse policy maxNesting .declaration)
      (parse policy maxNesting .declaration) :=
    Lockstep.parse_inStep hL maxNesting .declaration
  have hsame := gather_relabelled hf hitem none tokens.length [] hstart
  have hplace : place .start = .start := by
    have := hf.location .endOfInput
    rw [hf.ending] at this
    exact this.symm
  unfold r r' ParseOutcome.ofTokens
  rw [List.length_map]
  dsimp only
  rw [List.map_nil] at hsame
  generalize gather policy none _ _ _ (.start tokens) = g at hsame
  generalize gather policy none _ _ _ (.start (tokens.map _)) = g' at hsame
  obtain ⟨items, s, error⟩ := g
  obtain ⟨items', t, error'⟩ := g'
  obtain ⟨rfl, herror, h⟩ := hsame
  refine ⟨?_, ?_, ?_⟩
  · cases herror with
    | none => exact h.phase
    | some _ => rfl
  · rw [Node.relocate_eq]
    dsimp only
    rw [hplace, h.recovered]
  · simp only [Array.toList_append, Option.toList_toArray]
    refine List.rel_append h.errors ?_
    cases herror with
    | none => exact .nil
    | some he => exact .cons he .nil

end Grammar

end FrontEnd
