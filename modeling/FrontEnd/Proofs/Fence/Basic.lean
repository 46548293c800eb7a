/-
Readings that stay in front of a closing brace.

Some tokens stand in front of a closing brace, none of them a brace, the
last one a semicolon, and every group that is opened among them is closed
among them. Then no rule reads that brace, whatever it makes of the
tokens: it comes to an end, or gives up, in front of it.

A rule reads a closing brace behind an opening one, or as the end of a
group. There is no opening one to be read here. And in a group that began
here, brackets are still open that the tokens in front of the brace close,
so that these are not over yet (`Within.closed`).

`Keeps` says of a rule that it stays in front of the brace if it begins
there and sees the given tokens next. It is closed under the steps that
rules are made of; a proof of it goes along the text of the rule. Only the
steps that read a token without having looked at it need an argument.
-/
import FrontEnd.Proofs.Course.Basic

namespace FrontEnd

namespace Token

/-- Whether the token can stand in front of the brace. -/
def isUnbraced (t : Token) : Bool :=
  !(t.isEnd || t.isDirective || t.isPunct "\x7b" || t.isPunct "\x7d")

attribute [grind =] isUnbraced

end Token

namespace Grammar

open EStateM (Result)

-- ================================================================== groups

/-- How many groups are open behind the tokens. A closing bracket where
none is open does not count. -/
def groupsAfter (depth : Nat) (ts : List Token) : Nat :=
  ts.foldl (fun depth t => depthAfter t depth) depth

theorem depthAfter_mono (t : Token) {m n : Nat} (h : m ≤ n) :
    depthAfter t m ≤ depthAfter t n := by
  unfold depthAfter
  split
  · omega
  · split <;> omega

theorem groupsAfter_mono (ts : List Token) {m n : Nat} (h : m ≤ n) :
    groupsAfter m ts ≤ groupsAfter n ts := by
  induction ts generalizing m n with
  | nil => exact h
  | cons t ts ih => exact ih (depthAfter_mono t h)

-- ================================================================== fences

/-- Tokens in front of a closing brace. -/
structure Fence where
  inside : List Token
  brace : Token
  outside : List Token
  /-- The index of the brace. -/
  stop : Nat
  /-- How many groups were open where the tokens begin. -/
  base : Nat
  unbraced : ∀ t ∈ inside, t.isUnbraced = true
  ends : ∀ ts t, inside = ts ++ [t] → t.isPunct ";" = true
  closes : brace.isPunct "\x7d" = true

/-- A state with the tokens `W` in front of the brace, among which `count`
groups are open. -/
structure Within (F : Fence) (s : State) (W : List Token) (count : Nat) :
    Prop where
  suffix : W <:+ F.inside
  rest : s.rest = W ++ F.brace :: F.outside
  position : s.position + W.length = F.stop
  closed : groupsAfter count W = 0
  depth : s.depth ≤ F.base + count

/-- A state in front of the brace. -/
def Inside (F : Fence) (s : State) : Prop :=
  ∃ W count, Within F s W count

variable {F : Fence}

namespace Within

variable {s : State} {W : List Token} {count : Nat}

theorem peek_nil (h : Within F s [] count) : s.peek = F.brace := by
  have := F.closes
  rw [State.peek_eq_tokenAt, h.rest]
  show tokenAt 0 (F.brace :: F.outside) = _
  rw [tokenAt, if_neg (by grind)]

theorem unbraced {t : Token} (h : Within F s W count) (ht : t ∈ W) :
    t.isUnbraced = true :=
  F.unbraced t (h.suffix.subset ht)

variable {t : Token} {V : List Token}

theorem peek_cons (h : Within F s (t :: V) count) : s.peek = t := by
  have := h.unbraced (List.mem_cons_self ..)
  rw [State.peek_eq_tokenAt, h.rest, List.cons_append, tokenAt,
    if_neg (by grind)]

/-- The next token is read. -/
theorem advance (h : Within F s (t :: V) count) :
    Within F s.advance V (depthAfter t count) := by
  have hpeek := h.peek_cons
  have ht := h.unbraced (List.mem_cons_self ..)
  have hposition := h.position
  rw [s.advance_of_not_end (by grind), State.mark_index, h.rest, hpeek,
    List.cons_append, List.dropWhile_cons, List.takeWhile_cons,
    if_neg (by grind), if_neg (by grind)]
  refine ⟨(List.suffix_cons t V).trans h.suffix, rfl, ?_, h.closed, ?_⟩
  · rw [List.length_cons] at hposition
    dsimp only [List.length_nil]
    omega
  · have := h.depth
    dsimp only
    unfold depthAfter
    split
    · omega
    · split <;> omega

/-- A token that does not end the tokens has another one behind it. -/
theorem ne_nil (h : Within F s (t :: V) count)
    (ht : t.isPunct ";" = false) : V ≠ [] := by
  rintro rfl
  obtain ⟨U, hU⟩ := h.suffix
  have := F.ends U t hU.symm
  grind

end Within

namespace Inside

variable {s : State} (h : Inside F s)
include h

theorem peek_unopened : s.peek.isEnd = false ∧ s.peek.isDirective = false
    ∧ s.peek.isPunct "\x7b" = false := by
  obtain ⟨W, count, h⟩ := h
  cases W with
  | nil =>
    have := F.closes
    rw [h.peek_nil]
    grind
  | cons t V =>
    have := h.unbraced (List.mem_cons_self ..)
    rw [h.peek_cons]
    grind

/-- The tokens are not over yet. -/
theorem exists_cons (hnext : s.peek.isPunct "\x7d" = false) :
    ∃ V count, Within F s (s.peek :: V) count := by
  obtain ⟨W, count, h⟩ := h
  cases W with
  | nil =>
    have := F.closes
    rw [h.peek_nil] at hnext
    grind
  | cons t V =>
    rw [h.peek_cons]
    exact ⟨V, count, h⟩

theorem advance (hnext : s.peek.isPunct "\x7d" = false) :
    Inside F s.advance
      ∧ s.advance.peek = tokenAt 1 s.rest
      ∧ (s.peek.isPunct ";" = false →
        (tokenAt 1 s.rest).isPunct "\x7d" = false) := by
  have hpeek := s.advance_peek h.peek_unopened.1
  obtain ⟨V, count, h⟩ := h.exists_cons hnext
  refine ⟨⟨V, _, h.advance⟩, hpeek, fun hsemicolon => ?_⟩
  obtain ⟨t, V, rfl⟩ := List.exists_cons_of_ne_nil (h.ne_nil hsemicolon)
  have := h.advance.unbraced (List.mem_cons_self ..)
  rw [← hpeek, h.advance.peek_cons]
  grind

end Inside

-- =================================================== rules in front of it

/-- The rule stays in front of the brace if it begins there and the next
two tokens are these. -/
structure Keeps (F : Fence) (t u : Token) {α : Type} (p : Parser α) :
    Prop where
  inside {s : State} : Inside F s → s.peek = t → tokenAt 1 s.rest = u →
    Inside F (stateOf (p s))

/-- The rule stays in front of the brace, whatever tokens come. -/
abbrev Stays (F : Fence) {α : Type} (p : Parser α) : Prop :=
  ∀ t u, Keeps F t u p

variable {α β : Type} {t u : Token}

namespace Keeps

theorem bind {p : Parser α} {f : α → Parser β} (hp : Keeps F t u p)
    (hf : ∀ a, Stays F (f a)) : Keeps F t u (p >>= f) where
  inside {s} h ht hu := by
    have hs := hp.inside h ht hu
    rw [bind_eq]
    generalize p s = r at hs
    cases r with
    | ok a s' => exact (hf a _ _).inside hs rfl rfl
    | error e s' => exact hs

/-- An answer that leaves the state as it is. -/
theorem look (f : State → α) :
    Keeps F t u (fun s => .ok (f s) s : Parser α) where
  inside h _ _ := h

theorem pure (a : α) : Keeps F t u (pure a : Parser α) :=
  look fun _ => a

theorem finish (kind : NodeKind) (m : Mark) (children : List Node) :
    Keeps F t u (finish kind m children) :=
  look fun s => s.node kind m children

theorem fail (problem : SyntaxProblem) :
    Keeps F t u (fail problem : Parser α) where
  inside h _ _ := h

theorem failExpected (wanted : String) :
    Keeps F t u (failExpected wanted : Parser α) :=
  fail _

theorem mark {f : Mark → Parser β} (k : ∀ m, Keeps F t u (f m)) :
    Keeps F t u (mark >>= f) where
  inside h ht hu := (k _).inside h ht hu

theorem ahead {q : List Token → Bool} {f : Bool → Parser β}
    (k : ∀ b, Keeps F t u (f b)) : Keeps F t u (ahead q >>= f) where
  inside h ht hu := (k _).inside h ht hu

/-- A node that a rule goes on with. -/
theorem node {kind : NodeKind} {m : Mark} {children : List Node}
    {f : Node → Parser β} (k : ∀ n, Keeps F t u (f n)) :
    Keeps F t u (Grammar.finish kind m children >>= f) where
  inside h ht hu := (k _).inside h ht hu

theorem peek {f : Token → Parser β} (k : Keeps F t u (f t)) :
    Keeps F t u (peek >>= f) where
  inside {s} h ht hu := by
    have := k.inside h ht hu
    rwa [← ht] at this

theorem peekNext {f : Token → Parser β} (k : Keeps F t u (f u)) :
    Keeps F t u (peekAt 1 >>= f) where
  inside {s} h ht hu := by
    have := k.inside h ht hu
    rwa [← hu] at this

theorem check {q : Token → Bool} {f : Bool → Parser β}
    (k : Keeps F t u (f (q t))) : Keeps F t u (check q >>= f) where
  inside {s} h ht hu := by
    have := k.inside h ht hu
    rwa [← ht] at this

theorem ite {c : Prop} [Decidable c] {p p' : Parser α}
    (yes : c → Keeps F t u p) (no : ¬c → Keeps F t u p') :
    Keeps F t u (if c then p else p') := by
  split
  case isTrue h => exact yes h
  case isFalse h => exact no h

/-- No opening brace comes. -/
theorem unopened {p : Parser α} (h : t.isPunct "\x7b" = true) :
    Keeps F t u p where
  inside hs ht _ := by
    have := hs.peek_unopened
    grind

/-- A token is read that is not the brace. Behind one that is no semicolon
the brace does not come. -/
theorem advance {f : Unit → Parser β} (h : t.isPunct "\x7d" = false)
    (k : ∀ v, (t.isPunct ";" = false → u.isPunct "\x7d" = false) →
      Keeps F u v (f ())) : Keeps F t u (advance >>= f) where
  inside {s} hs ht hu := by
    subst ht hu
    obtain ⟨hadvance, hpeek, hnext⟩ := hs.advance h
    exact (k _ hnext).inside hadvance hpeek rfl

/-- A token is read that is not the brace. -/
theorem read {p : Parser β} (h : t.isPunct "\x7d" = false)
    (k : Stays F p) : Keeps F t u (Grammar.advance >>= fun _ => p) :=
  advance h fun v _ => k u v

theorem last (h : t.isPunct "\x7d" = false) :
    Keeps F t u Grammar.advance where
  inside {s} hs ht hu := by
    subst ht
    exact (hs.advance h).1

theorem accept {q : Token → Bool} {f : Bool → Parser β}
    (hq : q t = true → t.isPunct "\x7d" = false)
    (yes : q t = true → ∀ v,
      (t.isPunct ";" = false → u.isPunct "\x7d" = false) →
      Keeps F u v (f true))
    (no : q t = false → Keeps F t u (f false)) :
    Keeps F t u (accept q >>= f) := by
  rw [accept_eq, bind_assoc]
  refine check ?_
  split
  case isTrue h =>
    rw [bind_assoc]
    exact advance (hq h) (yes h)
  case isFalse h => exact no (by simpa using h)

/-- A token that is read if it is as asked for. -/
theorem acceptAny {q : Token → Bool} {f : Bool → Parser β}
    (hq : q t = true → t.isPunct "\x7d" = false) (k : ∀ b, Stays F (f b)) :
    Keeps F t u (Grammar.accept q >>= f) :=
  accept hq (fun _ v _ => k true u v) fun _ => k false t u

theorem expect {q : Token → Bool} {wanted : String} {f : Unit → Parser β}
    (hq : q t = true → t.isPunct "\x7d" = false) (k : Stays F (f ())) :
    Keeps F t u (expect q wanted >>= f) := by
  rw [expect_eq]
  have hcheck : Keeps F t u (do
      if ← Grammar.check q then Grammar.advance
      else Grammar.failExpected wanted) := by
    refine check ?_
    split
    case isTrue h => exact last (hq h)
    case isFalse => exact failExpected wanted
  exact hcheck.bind fun _ => k

theorem expectPunct {value context : String} {f : Unit → Parser β}
    (hvalue : value ≠ "\x7d") (k : Stays F (f ())) :
    Keeps F t u (expectPunct value context >>= f) :=
  expect (by grind) k

/-- A block does not begin. -/
theorem expectOpen {context : String} {f : Unit → Parser β} :
    Keeps F t u (Grammar.expectPunct "\x7b" context >>= f) where
  inside {s} hs _ _ := by
    have := hs.peek_unopened
    rw [bind_eq]
    unfold Grammar.expectPunct Grammar.expect
    dsimp only
    rw [if_neg (by grind)]
    exact hs

/-- No body in braces begins. -/
theorem acceptOpen {f : Bool → Parser β} (k : Keeps F t u (f false)) :
    Keeps F t u (Grammar.accept (·.isPunct "\x7b") >>= f) := by
  by_cases h : t.isPunct "\x7b" = true
  · exact unopened h
  · exact accept (by grind) (fun hopen => absurd hopen h) fun _ => k

theorem expectOperator {operator context : String} {f : Unit → Parser β}
    (k : Stays F (f ())) :
    Keeps F t u (expectOperator operator context >>= f) :=
  expect (by grind) k

theorem expectName {f : Unit → Parser β} (k : Stays F (f ())) :
    Keeps F t u (expectName >>= f) :=
  expect (by grind) k

/-- No end comes of a loop but by a round. -/
theorem loop {round : α → Parser (Round α β)}
    (hround : ∀ a, Stays F (round a)) (a : α) :
    Keeps F t u (loop round a) where
  inside {s} hs _ _ := by
    refine loop_outcome (P := fun r => Inside F (stateOf r))
      (fun _ => Inside F) (fun a s hs => ?_) a hs
    have hafter := (hround a _ _).inside hs rfl rfl
    generalize round a s = r at hafter
    rcases r with ⟨a' | b, s'⟩ | ⟨e, s'⟩
    · exact ⟨hafter, hafter⟩
    · exact hafter
    · exact hafter

end Keeps

namespace Stays

theorem skipWhile {q : Token → Bool}
    (hq : ∀ t : Token, q t = true → t.isPunct "\x7d" = false) :
    Stays F (skipWhile q) := fun _ _ =>
  .loop (fun _ t _ => .acceptAny (hq t) fun _ _ _ =>
    .ite (fun _ => .pure _) fun _ => .pure _) ()

theorem commaSeparated {item : Parser α} (h : Stays F item) :
    Stays F (commaSeparated item) := fun _ _ =>
  .loop (fun _ t u => (h t u).bind fun _ t _ =>
    .acceptAny (by grind) fun _ _ _ =>
      .ite (fun _ => .pure _) fun _ => .pure _) _

end Stays

end Grammar

end FrontEnd
