/-
Readings that close every group they open.

`Closes` says of a rule that it closes a number of the groups that are open
where it begins, if it sees the given tokens next, and that it leaves open
none of its own: what is open behind it are the other groups, and where it
gives up no fewer are. The number that a state keeps can only tell this as
long as no bracket closes a group that is not there, since it stays at
zero then; so a rule that reads a closing bracket has to have read an
opening one before, and the number of groups in `Closes` keeps account of
that. Most rules close no group but their own (`Level`).

It is closed under the steps that rules are made of; a proof of it goes
along the text of the rule. What an error leaves open does not depend on
the rules around it, so that the bound for it stays the same on the way.
-/
import FrontEnd.Proofs.Level.Group

namespace FrontEnd.Grammar

open EStateM (Result)
open Lockstep (advance_depth)

/-- What comes of a rule that leaves so many groups open: it has a value
with just as many, or gives up with no fewer. -/
def Leaves (tokens : List Token) (depth : Nat) {α : Type} :
    Result SyntaxError State α → Prop
  | .ok _ s => s.Along tokens ∧ s.depth = depth
  | .error _ s => depth ≤ s.depth

/-- The rule closes so many of the groups that are open where it begins, and
all that it opens itself, if the next two tokens are these. -/
structure Closes (tokens : List Token) (groups : Nat) (t u : Token) {α : Type}
    (p : Parser α) : Prop where
  leaves {s : State} {depth : Nat} : s.Along tokens →
    s.depth = depth + groups → s.peek = t → tokenAt 1 s.rest = u →
    Leaves tokens depth (p s)

/-- The rule leaves as many groups open as it finds, whatever tokens
come. -/
abbrev Level (tokens : List Token) {α : Type} (p : Parser α) : Prop :=
  ∀ t u, Closes tokens 0 t u p

variable {tokens : List Token} {groups : Nat} {t u : Token} {α β : Type}

namespace Closes

/-- A rule that closes no group, and what comes behind it. -/
theorem bind {p : Parser α} {f : α → Parser β} (hp : Closes tokens 0 t u p)
    (hf : ∀ a t u, Closes tokens groups t u (f a)) :
    Closes tokens groups t u (p >>= f) where
  leaves {s depth} hs hdepth ht hu := by
    have hleaves := hp.leaves hs hdepth ht hu
    rw [bind_eq]
    generalize p s = r at hleaves
    cases r with
    | ok a s' => exact (hf a _ _).leaves hleaves.1 hleaves.2 rfl rfl
    | error e s' => exact (Nat.le_add_right depth groups).trans hleaves

/-- A rule that closes groups, and one behind it that closes none. -/
theorem follow {p : Parser α} {f : α → Parser β}
    (hp : Closes tokens groups t u p) (hf : ∀ a, Level tokens (f a)) :
    Closes tokens groups t u (p >>= f) where
  leaves {s depth} hs hdepth ht hu := by
    have hleaves := hp.leaves hs hdepth ht hu
    rw [bind_eq]
    generalize p s = r at hleaves
    cases r with
    | ok a s' => exact (hf a _ _).leaves hleaves.1 hleaves.2 rfl rfl
    | error e s' => exact hleaves

/-- An answer that leaves the state as it is. -/
theorem look (f : State → α) :
    Closes tokens 0 t u (fun s => .ok (f s) s : Parser α) where
  leaves hs hdepth _ _ := ⟨hs, hdepth⟩

theorem pure (a : α) : Closes tokens 0 t u (pure a : Parser α) :=
  look fun _ => a

theorem finish (kind : NodeKind) (m : Mark) (children : List Node) :
    Closes tokens 0 t u (finish kind m children) :=
  look fun s => s.node kind m children

theorem fail (problem : SyntaxProblem) :
    Closes tokens groups t u (fail problem : Parser α) where
  leaves {_ depth} _ hdepth _ _ := by
    show depth ≤ _
    rw [hdepth]
    exact Nat.le_add_right depth groups

theorem failExpected (wanted : String) :
    Closes tokens groups t u (failExpected wanted : Parser α) :=
  fail _

theorem mark {f : Mark → Parser β} (k : ∀ m, Closes tokens groups t u (f m)) :
    Closes tokens groups t u (mark >>= f) where
  leaves hs hdepth ht hu := (k _).leaves hs hdepth ht hu

theorem ahead {q : List Token → Bool} {f : Bool → Parser β}
    (k : ∀ b, Closes tokens groups t u (f b)) :
    Closes tokens groups t u (ahead q >>= f) where
  leaves hs hdepth ht hu := (k _).leaves hs hdepth ht hu

/-- A node that a rule goes on with. -/
theorem node {kind : NodeKind} {m : Mark} {children : List Node}
    {f : Node → Parser β} (k : ∀ n, Closes tokens groups t u (f n)) :
    Closes tokens groups t u (Grammar.finish kind m children >>= f) where
  leaves hs hdepth ht hu := (k _).leaves hs hdepth ht hu

theorem peek {f : Token → Parser β} (k : Closes tokens groups t u (f t)) :
    Closes tokens groups t u (peek >>= f) where
  leaves {s _} hs hdepth ht hu := by
    have := k.leaves hs hdepth ht hu
    rwa [← ht] at this

theorem peekNext {f : Token → Parser β} (k : Closes tokens groups t u (f u)) :
    Closes tokens groups t u (peekAt 1 >>= f) where
  leaves {s _} hs hdepth ht hu := by
    have := k.leaves hs hdepth ht hu
    rwa [← hu] at this

theorem check {q : Token → Bool} {f : Bool → Parser β}
    (k : Closes tokens groups t u (f (q t))) :
    Closes tokens groups t u (check q >>= f) where
  leaves {s _} hs hdepth ht hu := by
    have := k.leaves hs hdepth ht hu
    rwa [← ht] at this

theorem ite {c : Prop} [Decidable c] {p p' : Parser α}
    (yes : c → Closes tokens groups t u p)
    (no : ¬c → Closes tokens groups t u p') :
    Closes tokens groups t u (if c then p else p') := by
  split
  case isTrue h => exact yes h
  case isFalse h => exact no h

-- ================================================================= reading

/-- Reading a token, by the groups that are open behind it. -/
theorem advance_to {more : Nat} {f : Unit → Parser β}
    (hdepth : ∀ depth, depthAfter t (depth + groups) = depth + more)
    (hend : t.isEnd = false) (k : ∀ v, Closes tokens more u v (f ())) :
    Closes tokens groups t u (Grammar.advance >>= f) where
  leaves {s depth} hs hs' ht hu := by
    subst ht hu
    have hnext := s.advance_peek hend
    refine (k (tokenAt 1 s.advance.rest)).leaves hs.advance ?_ hnext rfl
    rw [advance_depth, hs', hdepth]

/-- A token is read that is no bracket. -/
theorem advance {f : Unit → Parser β} (h : t.isBracket = false)
    (hend : t.isEnd = false) (k : ∀ v, Closes tokens groups u v (f ())) :
    Closes tokens groups t u (Grammar.advance >>= f) :=
  advance_to (fun _ => depthAfter_of_not_bracket h _) hend k

/-- A group is opened. -/
theorem opening {f : Unit → Parser β} (h : t.opens = true)
    (k : ∀ v, Closes tokens (groups + 1) u v (f ())) :
    Closes tokens groups t u (Grammar.advance >>= f) := by
  have hdepth (depth : Nat) :
      depthAfter t (depth + groups) = depth + (groups + 1) := if_pos h
  exact advance_to hdepth (by grind) k

/-- A group is closed. -/
theorem closing {f : Unit → Parser β} (h : t.closes = true)
    (k : ∀ v, Closes tokens groups u v (f ())) :
    Closes tokens (groups + 1) t u (Grammar.advance >>= f) :=
  advance_to (fun depth => depthAfter_of_closes h (depth + groups + 1))
    (by grind) k

/-- A token is read that is no bracket; at the end, none is. -/
theorem read {p : Parser β} (h : t.isBracket = false)
    (k : ∀ t u, Closes tokens groups t u p) :
    Closes tokens groups t u (Grammar.advance >>= fun _ => p) where
  leaves {s depth} hs hdepth ht hu := by
    by_cases hend : t.isEnd = true
    · subst ht
      show Leaves tokens depth (p s.advance)
      rw [s.advance_of_end hend]
      exact (k _ _).leaves hs hdepth rfl rfl
    · rw [Bool.not_eq_true] at hend
      exact (advance h hend fun v => k u v).leaves hs hdepth ht hu

theorem last (h : t.isBracket = false) :
    Closes tokens 0 t u Grammar.advance := by
  rw [← bind_pure Grammar.advance]
  exact read h fun _ _ => pure _

/-- The token that is read where a condition holds. -/
theorem accept {q : Token → Bool} {f : Bool → Parser β}
    (yes : q t = true → Closes tokens groups t u
      (Grammar.advance >>= fun _ => f true))
    (no : q t = false → Closes tokens groups t u (f false)) :
    Closes tokens groups t u (accept q >>= f) := by
  rw [accept_eq, bind_assoc]
  refine check ?_
  split
  case isTrue h =>
    rw [bind_assoc]
    exact yes h
  case isFalse h => exact no (by simpa using h)

/-- A token that is no bracket is read if it is as asked for. -/
theorem acceptAny {q : Token → Bool} {f : Bool → Parser β}
    (hq : q t = true → t.isBracket = false)
    (k : ∀ b t u, Closes tokens groups t u (f b)) :
    Closes tokens groups t u (Grammar.accept q >>= f) :=
  accept (fun h => read (hq h) (k true)) fun _ => k false t u

/-- An opening bracket is read if it comes. -/
theorem acceptOpen {q : Token → Bool} {f : Bool → Parser β}
    (hq : q t = true → t.opens = true)
    (yes : ∀ t u, Closes tokens (groups + 1) t u (f true))
    (no : Closes tokens groups t u (f false)) :
    Closes tokens groups t u (Grammar.accept q >>= f) :=
  accept (fun h => opening (hq h) fun v => yes u v) fun _ => no

/-- The token that has to come. -/
theorem expected {q : Token → Bool} {wanted : String} {f : Unit → Parser β}
    (yes : q t = true → Closes tokens groups t u (Grammar.advance >>= f)) :
    Closes tokens groups t u (expect q wanted >>= f) := by
  have hchoice : (expect q wanted >>= f) = (do
      if ← Grammar.check q then Grammar.advance >>= f
      else Grammar.failExpected wanted) := by
    funext s
    rw [bind_eq, bind_eq]
    unfold expect Grammar.check
    dsimp only
    cases q s.peek <;> rfl
  rw [hchoice]
  exact check (ite yes fun _ => failExpected wanted)

/-- A token that is no bracket has to come. -/
theorem expect {q : Token → Bool} {wanted : String} {f : Unit → Parser β}
    (hq : q t = true → t.isBracket = false)
    (k : ∀ t u, Closes tokens groups t u (f ())) :
    Closes tokens groups t u (Grammar.expect q wanted >>= f) :=
  expected fun h => read (hq h) k

theorem expectSemicolon {context : String} {f : Unit → Parser β}
    (k : ∀ t u, Closes tokens groups t u (f ())) :
    Closes tokens groups t u (expectPunct ";" context >>= f) :=
  expect (by grind) k

theorem expectOperator {operator context : String} {f : Unit → Parser β}
    (k : ∀ t u, Closes tokens groups t u (f ())) :
    Closes tokens groups t u (expectOperator operator context >>= f) :=
  expect (by grind) k

theorem expectName {f : Unit → Parser β}
    (k : ∀ t u, Closes tokens groups t u (f ())) :
    Closes tokens groups t u (expectName >>= f) :=
  expect (by grind) k

/-- An opening bracket has to come. -/
theorem expectOpen {value context : String} {f : Unit → Parser β}
    (hvalue : value = "(" ∨ value = "\x7b")
    (k : ∀ t u, Closes tokens (groups + 1) t u (f ())) :
    Closes tokens groups t u (expectPunct value context >>= f) :=
  expected fun _ => opening (by grind) fun v => k u v

/-- A closing bracket has to come. -/
theorem expectClose {value context : String} {f : Unit → Parser β}
    (hvalue : value = ")" ∨ value = "]" ∨ value = "\x7d")
    (k : ∀ t u, Closes tokens groups t u (f ())) :
    Closes tokens (groups + 1) t u (expectPunct value context >>= f) :=
  expected fun _ => closing (by grind) fun v => k u v

-- =================================================================== loops

/-- Rounds that close no group but their own are a loop that does not. -/
theorem loop {round : α → Parser (Round α β)}
    (hround : ∀ a, Level tokens (round a)) (a : α) :
    Closes tokens 0 t u (loop round a) where
  leaves {s depth} hs hdepth _ _ := by
    refine loop_outcome (P := Leaves tokens depth)
      (fun _ s => s.Along tokens ∧ s.depth = depth)
      (fun a s hs => ?_) a ⟨hs, hdepth⟩
    have hafter := (hround a _ _).leaves hs.1 hs.2 rfl rfl
    generalize round a s = r at hafter
    rcases r with ⟨a' | b, s'⟩ | ⟨e, s'⟩
    · exact ⟨hafter, hafter.2.ge⟩
    · exact hafter
    · exact hafter

end Closes

namespace Level

theorem skipWhile {q : Token → Bool}
    (hq : ∀ t : Token, q t = true → t.isBracket = false) :
    Level tokens (skipWhile q) := fun _ _ =>
  .loop (fun _ t _ => .acceptAny (hq t) fun _ _ _ =>
    .ite (fun _ => .pure _) fun _ => .pure _) ()

theorem commaSeparated {item : Parser α} (h : Level tokens item) :
    Level tokens (commaSeparated item) := fun _ _ =>
  .loop (fun _ t u => (h t u).bind fun _ t _ =>
    .acceptAny (by grind) fun _ _ _ =>
      .ite (fun _ => .pure _) fun _ => .pure _) _

end Level

end FrontEnd.Grammar
