/-
Where tokens stand makes no difference to how they are read. A token that
is moved to the start of the text is the same token to every rule
(`Token.unplaced_relabels`), so that two lists of the same kinds and
values, with whatever locations and spans, are read like the one list that
both of them are without their places.
-/
import FrontEnd.Proofs.Lockstep.Relabelled

namespace FrontEnd

open List (Forall₂)

namespace Token

/-- The token without its place in the text. -/
def unplaced (t : Token) : Token := ⟨t.kind, t.value, ⟨0, 0⟩, .start⟩

/-- Two tokens of one kind and one value, wherever they stand. -/
structure Same (t u : Token) : Prop where
  kind : t.kind = u.kind
  value : t.value = u.value

theorem Same.unplaced {t u : Token} (h : t.Same u) :
    t.unplaced = u.unplaced := by
  unfold Token.unplaced
  rw [h.kind, h.value]

theorem unplaced_relabels : Relabels unplaced fun _ => .start where
  alike _ := ⟨rfl, fun _ => rfl, rfl⟩
  location _ := rfl
  ending := rfl

theorem unplaced_keepsValues : KeepsValues unplaced := fun _ => rfl

theorem map_unplaced {tokens tokens' : List Token}
    (h : Forall₂ Same tokens tokens') :
    tokens.map unplaced = tokens'.map unplaced :=
  map_eq_map_of_forall₂ (h.imp fun _ _ => Same.unplaced)

end Token

/-- The tree without the places of its nodes in the text. -/
def Node.unplaced (n : Node) : Node := n.relocate fun _ => .start

/-- What an error says does not depend on where it is. -/
theorem Grammar.SameError.message {d e : SyntaxError}
    (h : Grammar.SameError Token.unplaced d e) : e.message = d.message := by
  obtain ⟨problem, found⟩ := e
  obtain rfl : problem = d.problem := h.problem Token.unplaced_keepsValues
  obtain rfl : found = d.found.unplaced := h.found
  rfl

/-- The outcome of reading tokens without their places. -/
theorem ofTokens_unplaced (policy : Policy) (tokens : List Token) :
    let r := ParseOutcome.ofTokens policy tokens
    let r' := ParseOutcome.ofTokens policy (tokens.map Token.unplaced)
    r'.phase = r.phase
      ∧ r'.errors.map SyntaxError.message = r.errors.map SyntaxError.message
      ∧ r'.tree = r.tree.unplaced := by
  intro r r'
  obtain ⟨hphase, htree, herrors⟩ := Grammar.ofTokens_relabelled
    policy tokens Token.unplaced_relabels
    (Grammar.relabelling_lawful Token.unplaced_relabels fun ts _ _ =>
      Grammar.opensCast_map Token.unplaced_relabels
        Token.unplaced_keepsValues ts)
    (Grammar.relabelling_spelledAlike Token.unplaced_relabels
      Token.unplaced_keepsValues)
  refine ⟨hphase, map_eq_map_of_forall₂ ?_, htree⟩
  exact herrors.flip.imp fun _ _ => Grammar.SameError.message

/-- Two token lists of the same kinds and values are read to the same
phase, with as many errors that say the same, and to trees that differ in
the locations of their nodes at most, wherever the tokens stand. -/
theorem layout_irrelevant (policy : Policy) (tokens tokens' : List Token)
    (h : Forall₂ Token.Same tokens tokens') :
    let r := ParseOutcome.ofTokens policy tokens
    let r' := ParseOutcome.ofTokens policy tokens'
    r'.phase = r.phase
      ∧ r'.errors.map SyntaxError.message = r.errors.map SyntaxError.message
      ∧ r'.tree.unplaced = r.tree.unplaced := by
  intro r r'
  obtain ⟨hphase, herrors, htree⟩ := ofTokens_unplaced policy tokens
  obtain ⟨hphase', herrors', htree'⟩ := ofTokens_unplaced policy tokens'
  rw [← Token.map_unplaced h] at hphase' herrors' htree'
  exact ⟨hphase'.symm.trans hphase, herrors'.symm.trans herrors,
    htree'.symm.trans htree⟩

/-- `int x = ;` on one line and over three of them. -/
theorem layout_irrelevant_lines :
    let tokens : List Token := [⟨.keyword, "int", ⟨0, 3⟩, ⟨1, 1⟩⟩,
      ⟨.identifier, "x", ⟨4, 5⟩, ⟨1, 5⟩⟩,
      ⟨.operator, "=", ⟨6, 7⟩, ⟨1, 7⟩⟩,
      ⟨.punctuation, ";", ⟨8, 9⟩, ⟨1, 9⟩⟩,
      ⟨.endOfFile, "", ⟨9, 9⟩, ⟨1, 10⟩⟩]
    let tokens' : List Token := [⟨.keyword, "int", ⟨2, 5⟩, ⟨3, 1⟩⟩,
      ⟨.identifier, "x", ⟨6, 7⟩, ⟨4, 1⟩⟩,
      ⟨.operator, "=", ⟨7, 8⟩, ⟨4, 2⟩⟩,
      ⟨.punctuation, ";", ⟨9, 10⟩, ⟨5, 1⟩⟩,
      ⟨.endOfFile, "", ⟨12, 12⟩, ⟨7, 1⟩⟩]
    let r := ParseOutcome.ofTokens .tolerant tokens
    let r' := ParseOutcome.ofTokens .tolerant tokens'
    Forall₂ Token.Same tokens tokens'
      ∧ r'.phase = r.phase
      ∧ r'.errors.map SyntaxError.message = r.errors.map SyntaxError.message
      ∧ r'.tree.unplaced = r.tree.unplaced := by
  intro tokens tokens' r r'
  have hsame : Forall₂ Token.Same tokens tokens' :=
    .cons ⟨rfl, rfl⟩ (.cons ⟨rfl, rfl⟩ (.cons ⟨rfl, rfl⟩
      (.cons ⟨rfl, rfl⟩ (.cons ⟨rfl, rfl⟩ .nil))))
  exact ⟨hsame, layout_irrelevant .tolerant tokens tokens' hsame⟩

end FrontEnd
