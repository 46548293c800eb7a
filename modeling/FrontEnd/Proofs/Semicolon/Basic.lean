/-
Readings that stay in front of a semicolon.

Among the tokens in front of a semicolon there are no brackets, and no
`sizeof`, which takes the token behind a pack for its operand whatever that
is. Then only a rule that ends with a semicolon reads the one that comes.
The others come to their end, or give up, in front of it; and since no
group is opened, none is left open.

`Halts` says of a rule that it gives up in front of the semicolon if it
begins there, or has a value with some property. Where it gives up, the
same is known of all rules; the property is the rule's own. Most rules have
their value in front of the semicolon as well (`Remains`), those of
declarations have it behind (`Concludes`), and what needs a bracket has
none (`Refuses`). A proof of `Halts` goes along the text of the rule.
-/
import FrontEnd.Proofs.Built.Basic
import FrontEnd.Proofs.Fence.Function

namespace FrontEnd

namespace Token

/-- Whether the token neither ends an item, opens or closes a group, nor
reads any other token as one of its own. -/
def isLoose (t : Token) : Bool :=
  !(t.isEnd || t.isDirective || t.isBracket || t.isPunct ";"
    || t.isKeyword "sizeof")

attribute [grind =] isLoose

end Token

namespace Grammar

open EStateM (Result)

-- ============================================================== stretches

/-- Tokens up to a semicolon, and the state in front of them. -/
structure Stretch where
  origin : State
  inside : List Token
  semicolon : Token
  outside : List Token
  loose : ∀ t ∈ inside, t.isLoose = true
  ends : semicolon.isPunct ";" = true

variable {S : Stretch} {s : State}

namespace Stretch

/-- The state behind the tokens `V`, with `W` in front of the semicolon. -/
def between (S : Stretch) (V W : List Token) : State :=
  { S.origin with
    rest := W ++ S.semicolon :: S.outside
    position := S.origin.position + V.length }

/-- The state behind the semicolon. -/
def behind (S : Stretch) : State :=
  { S.origin with
    rest := S.outside
    position := S.origin.position + S.inside.length + 1 }

/-- The state lies in front of the semicolon. -/
def Holds (S : Stretch) (s : State) : Prop :=
  ∃ V W, V ++ W = S.inside ∧ s = S.between V W

theorem holds_origin
    (h : S.origin.rest = S.inside ++ S.semicolon :: S.outside) :
    S.Holds S.origin := by
  refine ⟨[], S.inside, rfl, ?_⟩
  unfold between
  rw [← h]
  rfl

/-- What a single step leads to. -/
theorem Holds.step (h : S.Holds s) :
    s.peek ∈ S.inside ∧ S.Holds s.advance
      ∨ s.peek = S.semicolon ∧ s.advance = S.behind := by
  obtain ⟨V, W, hVW, rfl⟩ := h
  cases W with
  | nil =>
    have := S.ends
    have hrest : (S.between V []).rest = S.semicolon :: S.outside := rfl
    obtain rfl : V = S.inside := by simpa using hVW
    right
    refine ⟨State.peek_cons hrest (by grind), ?_⟩
    rw [State.advance_cons hrest (by grind) (by grind),
      depthAfter_of_not_bracket (by grind)]
    rfl
  | cons t W =>
    have hmem : t ∈ S.inside := by simp [← hVW]
    have ht := S.loose t hmem
    have hrest : (S.between V (t :: W)).rest
        = t :: (W ++ S.semicolon :: S.outside) := rfl
    left
    rw [State.peek_cons hrest (by grind),
      State.advance_cons hrest (by grind) (by grind),
      depthAfter_of_not_bracket (by grind)]
    refine ⟨hmem, V ++ [t], W, by rw [← hVW, List.append_assoc]; rfl, ?_⟩
    unfold between
    rw [List.length_append, ← Nat.add_assoc]
    rfl

namespace Holds

variable (h : S.Holds s)
include h

theorem peek_mem : s.peek ∈ S.inside ++ [S.semicolon] := by
  rcases h.step with ⟨hmem, -⟩ | ⟨heq, -⟩
  · exact List.mem_append_left _ hmem
  · exact List.mem_append_right _ (List.mem_singleton.2 heq)

/-- No directive comes. -/
theorem mark_index : s.mark.index = s.position := by
  obtain ⟨V, W, hVW, rfl⟩ := h
  cases W with
  | nil =>
    have := S.ends
    have hrest : (S.between V []).rest = S.semicolon :: S.outside := rfl
    rw [State.mark_cons hrest (by grind)]
  | cons t W =>
    have := S.loose t (by simp [← hVW])
    have hrest : (S.between V (t :: W)).rest
        = t :: (W ++ S.semicolon :: S.outside) := rfl
    rw [State.mark_cons hrest (by grind)]

theorem peek_loose : (s.peek.isLoose || s.peek.isPunct ";") = true := by
  rcases h.step with ⟨hmem, -⟩ | ⟨heq, -⟩
  · rw [S.loose _ hmem, Bool.true_or]
  · rw [heq, S.ends, Bool.or_true]

/-- The next token, which is not the semicolon, is read. -/
theorem advance (hnext : s.peek.isPunct ";" = false) :
    S.Holds s.advance ∧ s.advance.peek = tokenAt 1 s.rest := by
  have := h.peek_loose
  refine ⟨?_, s.advance_peek (by grind)⟩
  rcases h.step with ⟨-, hadvance⟩ | ⟨heq, -⟩
  · exact hadvance
  · rw [heq, S.ends] at hnext
    cases hnext

/-- The semicolon is read. -/
theorem advance_behind (hnext : s.peek.isPunct ";" = true) :
    s.advance = S.behind := by
  rcases h.step with ⟨hmem, -⟩ | ⟨-, hadvance⟩
  · have := S.loose _ hmem
    grind
  · exact hadvance

end Holds

end Stretch

-- ==================================================== rules in front of it

/-- What a rule comes to that begins in front of the semicolon: a value with
the property, or an error at the next token, there as well. -/
def Stretch.Allows (S : Stretch) {α : Type} (Q : α → State → Prop) :
    Result SyntaxError State α → Prop
  | .ok a s => Q a s
  | .error e s => S.Holds s ∧ e.found = s.peek

/-- Where these tokens come next in front of the semicolon, the rule gives up
there or has a value with the property. -/
structure Halts (S : Stretch) (t u : Token) {α : Type}
    (Q : α → State → Prop) (p : Parser α) : Prop where
  runs {s : State} : S.Holds s → s.peek = t → tokenAt 1 s.rest = u →
    S.Allows Q (p s)

/-- The rule stays in front of the semicolon. -/
abbrev Remains (S : Stretch) {α : Type} (p : Parser α) : Prop :=
  ∀ t u, Halts S t u (fun _ => S.Holds) p

/-- The rule goes on to behind the semicolon, unless it gives up in front of
it. -/
abbrev Concludes (S : Stretch) {α : Type} (p : Parser α) : Prop :=
  ∀ t u, Halts S t u (fun _ => (· = S.behind)) p

/-- The rule gives up in front of the semicolon. -/
abbrev Refuses (S : Stretch) {α : Type} (p : Parser α) : Prop :=
  ∀ t u, Halts S t u (fun _ _ => False) p

variable {α β : Type} {t u : Token} {P : α → State → Prop}
  {Q : β → State → Prop}

namespace Halts

/-- A rule behind one that may lead anywhere. -/
theorem seq {p : Parser α} {f : α → Parser β} (hp : Halts S t u P p)
    (hf : ∀ a s, P a s → S.Allows Q (f a s)) : Halts S t u Q (p >>= f) where
  runs {s} h ht hu := by
    have hs := hp.runs h ht hu
    rw [bind_eq]
    generalize p s = r at hs
    cases r with
    | ok a s' => exact hf a s' hs
    | error e s' => exact hs

theorem bind {p : Parser α} {f : α → Parser β}
    (hp : Halts S t u (fun _ => S.Holds) p)
    (hf : ∀ a t u, Halts S t u Q (f a)) : Halts S t u Q (p >>= f) :=
  hp.seq fun a _ hs => (hf a _ _).runs hs rfl rfl

/-- Behind a rule that gives up nothing comes. -/
theorem refused {p : Parser α} {f : α → Parser β}
    (hp : Halts S t u (fun _ _ => False) p) : Halts S t u Q (p >>= f) :=
  hp.seq fun _ _ => False.elim

/-- An answer that leaves the state as it is. -/
theorem look (f : State → β) (hQ : ∀ s, S.Holds s → Q (f s) s) :
    Halts S t u Q (fun s => .ok (f s) s : Parser β) where
  runs h _ _ := hQ _ h

theorem pure (b : β) (hQ : ∀ s, S.Holds s → Q b s) :
    Halts S t u Q (pure b : Parser β) :=
  look (fun _ => b) hQ

theorem finish (kind : NodeKind) (m : Mark) (children : List Node) :
    Halts S t u (fun _ => S.Holds) (finish kind m children) :=
  look (fun s => s.node kind m children) fun _ => id

theorem fail (problem : SyntaxProblem) :
    Halts S t u Q (fail problem : Parser β) where
  runs h _ _ := ⟨h, rfl⟩

theorem failExpected (wanted : String) :
    Halts S t u Q (failExpected wanted : Parser β) :=
  fail _

theorem mark {f : Mark → Parser β} (k : ∀ m, Halts S t u Q (f m)) :
    Halts S t u Q (mark >>= f) where
  runs h ht hu := (k _).runs h ht hu

theorem ahead {q : List Token → Bool} {f : Bool → Parser β}
    (k : ∀ b, Halts S t u Q (f b)) : Halts S t u Q (ahead q >>= f) where
  runs h ht hu := (k _).runs h ht hu

/-- A node that a rule goes on with. -/
theorem node {kind : NodeKind} {m : Mark} {children : List Node}
    {f : Node → Parser β} (k : ∀ n, Halts S t u Q (f n)) :
    Halts S t u Q (Grammar.finish kind m children >>= f) where
  runs h ht hu := (k _).runs h ht hu

theorem peek {f : Token → Parser β} (k : Halts S t u Q (f t)) :
    Halts S t u Q (peek >>= f) where
  runs {s} h ht hu := by
    have := k.runs h ht hu
    rwa [← ht] at this

theorem peekNext {f : Token → Parser β} (k : Halts S t u Q (f u)) :
    Halts S t u Q (peekAt 1 >>= f) where
  runs {s} h ht hu := by
    have := k.runs h ht hu
    rwa [← hu] at this

theorem check {q : Token → Bool} {f : Bool → Parser β}
    (k : Halts S t u Q (f (q t))) : Halts S t u Q (check q >>= f) where
  runs {s} h ht hu := by
    have := k.runs h ht hu
    rwa [← ht] at this

theorem ite {c : Prop} [Decidable c] {p p' : Parser β}
    (yes : c → Halts S t u Q p) (no : ¬c → Halts S t u Q p') :
    Halts S t u Q (if c then p else p') := by
  split
  case isTrue h => exact yes h
  case isFalse h => exact no h

/-- Such a token does not come. -/
theorem never {p : Parser β} (h : (t.isLoose || t.isPunct ";") = false) :
    Halts S t u Q p where
  runs hs ht _ := by
    subst ht
    rw [hs.peek_loose] at h
    cases h

/-- No bracket comes, so that it need not be said what would be read behind
one. -/
theorem unbracketed {q : Token → Bool} {f : Bool → Parser β}
    (hq : q t = true → t.isBracket = true) (k : Halts S t u Q (f false)) :
    Halts S t u Q (Grammar.check q >>= f) := by
  refine check ?_
  cases h : q t with
  | false => exact k
  | true => exact never (by grind)

/-- A token is read that is not the semicolon. -/
theorem advance {f : Unit → Parser β} (h : t.isPunct ";" = false)
    (k : ∀ v, Halts S u v Q (f ())) : Halts S t u Q (advance >>= f) where
  runs {s} hs ht hu := by
    subst ht hu
    obtain ⟨hadvance, hpeek⟩ := hs.advance h
    exact (k _).runs hadvance hpeek rfl

/-- A token is read that is not the semicolon, and nothing need be known of
the next one. -/
theorem read {p : Parser β} (h : t.isPunct ";" = false)
    (k : ∀ t u, Halts S t u Q p) :
    Halts S t u Q (Grammar.advance >>= fun _ => p) :=
  advance h fun v => k u v

theorem last (h : t.isPunct ";" = false) :
    Halts S t u (fun _ => S.Holds) Grammar.advance where
  runs {s} hs ht hu := by
    subst ht
    exact (hs.advance h).1

/-- The semicolon is read. -/
theorem shut {f : Unit → Parser β} (h : t.isPunct ";" = true)
    (k : S.Allows Q (f () S.behind)) :
    Halts S t u Q (Grammar.advance >>= f) where
  runs {s} hs ht hu := by
    subst ht
    rw [bind_eq]
    show S.Allows Q (f () s.advance)
    rw [hs.advance_behind h]
    exact k

theorem accept {q : Token → Bool} {f : Bool → Parser β}
    (hq : q t = true → t.isPunct ";" = false)
    (yes : q t = true → ∀ v, Halts S u v Q (f true))
    (no : q t = false → Halts S t u Q (f false)) :
    Halts S t u Q (accept q >>= f) := by
  rw [accept_eq, bind_assoc]
  refine check ?_
  split
  case isTrue h =>
    rw [bind_assoc]
    exact advance (hq h) (yes h)
  case isFalse h => exact no (by simpa using h)

/-- A token that is read if it is as asked for. -/
theorem acceptAny {q : Token → Bool} {f : Bool → Parser β}
    (hq : q t = true → t.isPunct ";" = false)
    (k : ∀ b t u, Halts S t u Q (f b)) :
    Halts S t u Q (Grammar.accept q >>= f) :=
  accept hq (fun _ v => k true u v) fun _ => k false t u

/-- No bracket comes to be read. -/
theorem acceptBracket {q : Token → Bool} {f : Bool → Parser β}
    (hq : q t = true → t.isBracket = true) (k : Halts S t u Q (f false)) :
    Halts S t u Q (Grammar.accept q >>= f) := by
  rw [accept_eq, bind_assoc]
  exact unbracketed hq k

/-- A token that has to come. -/
theorem expect {q : Token → Bool} {wanted : String} {f : Unit → Parser β}
    (k : q t = true → Halts S t u Q (Grammar.advance >>= f)) :
    Halts S t u Q (expect q wanted >>= f) := by
  rw [expect_eq, bind_assoc]
  refine check ?_
  split
  case isTrue h => exact k h
  case isFalse => exact refused (failExpected wanted)

/-- A bracket that has to come does not. -/
theorem expectBracket {value context : String} {f : Unit → Parser β}
    (h : t.isPunct value = true → t.isBracket = true) :
    Halts S t u Q (expectPunct value context >>= f) :=
  expect fun hvalue => never (by grind)

theorem expectOperator {operator context : String} {f : Unit → Parser β}
    (k : ∀ t u, Halts S t u Q (f ())) :
    Halts S t u Q (expectOperator operator context >>= f) :=
  expect fun _ => read (by grind) k

theorem expectName {f : Unit → Parser β}
    (k : ∀ t u, Halts S t u Q (f ())) :
    Halts S t u Q (expectName >>= f) :=
  expect fun _ => read (by grind) k

/-- No end comes of a loop but by a round. -/
theorem loop {round : α → Parser (Round α β)}
    (hround : ∀ a t u, Halts S t u
      (fun r s => r.Sat (fun _ => S.Holds s) (Q · s)) (round a)) (a : α) :
    Halts S t u Q (loop round a) where
  runs {s} hs _ _ := by
    refine loop_outcome (P := S.Allows Q) (fun _ => S.Holds)
      (fun a s hs => ?_) a hs
    have hafter := (hround a _ _).runs hs rfl rfl
    generalize round a s = r at hafter
    rcases r with ⟨a' | b, s'⟩ | ⟨e, s'⟩
    · exact ⟨hafter, hafter, rfl⟩
    · exact hafter
    · exact hafter

end Halts

namespace Remains

theorem pure (a : α) : Remains S (pure a : Parser α) := fun _ _ =>
  .pure a fun _ => id

/-- A loop whose rounds all stay in front of the semicolon. -/
theorem loop {round : α → Parser (Round α β)}
    (hround : ∀ a, Remains S (round a)) (a : α) :
    Remains S (loop round a) := fun _ _ =>
  .loop (fun a t u => ⟨fun hs ht hu => by
    have hr := (hround a t u).runs hs ht hu
    generalize round a _ = r at hr
    cases r with
    | ok r s' => cases r <;> exact hr
    | error e s' => exact hr⟩) a

theorem skipWhile {q : Token → Bool}
    (hq : ∀ t : Token, q t = true → t.isPunct ";" = false) :
    Remains S (skipWhile q) :=
  loop (fun _ t _ => .acceptAny (hq t) fun _ _ _ =>
    .ite (fun _ => pure _ _ _) fun _ => pure _ _ _) ()

theorem commaSeparated {item : Parser α} (h : Remains S item) :
    Remains S (commaSeparated item) :=
  loop (fun _ t u => (h t u).bind fun _ t _ =>
    .acceptAny (by grind) fun _ _ _ =>
      .ite (fun _ => pure _ _ _) fun _ => pure _ _ _) _

end Remains

end Grammar

end FrontEnd
