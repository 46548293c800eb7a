/-
Words that stand for operators, and the operators.

A token list and the same list with every operator in its canonical
spelling are read in step: the same tree, the same phase, errors at the
same places (`words_interchangeable`). That is a change which no rule
notices (`Token.canonical_relabels`), but three rules know an operator by
its symbol alone, and where one of them comes to a word the readings part:
at the `~` of a destructor's name, at `&` and `&&` in the type of a cast,
and at `&` in the type behind `new`. What has to be known of a list is
that it nowhere comes to that (`SymbolsSuffice`).

For the type behind `new` this asks where the grammar's own run over the
type ends, beginning at the keyword. How the reading came there does not
matter to such a run, since it is in step with the one that begins there
(`allocated_ends`).
-/
import FrontEnd.Proofs.Lockstep.Concatenation
import FrontEnd.Proofs.Lockstep.Relabelled

namespace FrontEnd

namespace Token

/-- The token, if it is an operator in its canonical spelling. -/
def canonical (t : Token) : Token :=
  if t.kind == .operator then { t with value := Word.canonical t.value }
  else t

/-- Whether the token is this operator, but not spelled so. -/
def isWordFor (t : Token) (operator : String) : Bool :=
  t.isOperator operator && !t.isSpelled operator

variable (t : Token)

theorem canonical_location : t.canonical.location = t.location := by
  unfold canonical
  split <;> rfl

/-- No rule tells a token from the same one in its canonical spelling. -/
theorem canonical_alike : t.Alike t.canonical := by
  unfold canonical
  split
  case isTrue h =>
    exact ⟨rfl, fun hne => absurd (beq_iff_eq.1 h) hne,
      (Word.canonical_canonical t.value).symm⟩
  case isFalse => exact .refl t

theorem canonical_relabels : Relabels canonical id where
  alike := canonical_alike
  location := canonical_location
  ending := rfl

/-- In canonical spelling, an operator is spelled as what it is. -/
theorem canonical_isSpelled_eq (operator : String) :
    t.canonical.isSpelled operator = t.isOperator operator := by
  unfold canonical isSpelled isOperator
  cases hkind : t.kind == .operator with
  | true =>
    rw [if_pos rfl]
    dsimp only
    rw [hkind]
  | false => rw [if_neg nofun, hkind, Bool.false_and, Bool.false_and]

theorem isOperator_of_isSpelled {operator : String}
    (hoperator : Word.canonical operator = operator)
    (h : t.isSpelled operator = true) : t.isOperator operator = true := by
  simp only [isSpelled, isOperator, Bool.and_eq_true, beq_iff_eq] at *
  rw [h.1, h.2]
  exact ⟨rfl, hoperator⟩

/-- Where no word stands for an operator, its spelling is canonical. -/
theorem isSpelled_canonical {operator : String}
    (hoperator : Word.canonical operator = operator)
    (h : t.isWordFor operator = false) :
    t.isSpelled operator = t.canonical.isSpelled operator := by
  rw [t.canonical_isSpelled_eq operator]
  have himp := t.isOperator_of_isSpelled hoperator
  unfold isWordFor at h
  revert h himp
  cases t.isSpelled operator <;> cases t.isOperator operator <;> simp

end Token

namespace Grammar

-- =============================================================== condition

/-- What a reader finds behind the type that a `new` at the start of the
list allocates, up to array bounds. -/
def behindAllocated (ts : List Token) : Token :=
  match allocated (.start ts) with
  | .ok _ s => s.peek
  | .error _ s => s.peek

/-- No rule that begins with the list comes to a word for an operator that
it knows by the symbol alone. -/
structure SymbolsSuffice (ts : List Token) : Prop where
  name : (tokenAt 0 ts).leadsName = true →
    (tokenAt 1 ts).isWordFor "~" = false
  cast : (tokenAt 0 ts).isPunct "(" = true →
    opensCast (ts.map Token.canonical) = opensCast ts
  allocation : (tokenAt 0 ts).isKeyword "new" = true →
    (behindAllocated ts).isWordFor "&" = false

instance (ts : List Token) : Decidable (SymbolsSuffice ts) :=
  decidable_of_iff (_ ∧ _ ∧ _)
    ⟨fun ⟨name, cast, allocation⟩ => ⟨name, cast, allocation⟩,
      fun ⟨name, cast, allocation⟩ => ⟨name, cast, allocation⟩⟩

/-- A reading of tokens first, and one of the same tokens with canonical
operators second. -/
abbrev respelling (policy : Policy) (tokens : List Token) : Lockstep :=
  relabelling policy Token.canonical id tokens

variable {policy : Policy} {tokens : List Token}

theorem respelling_lawful
    (hsymbols : ∀ ts ∈ tokens.tails, SymbolsSuffice ts) :
    (respelling policy tokens).Lawful :=
  relabelling_lawful Token.canonical_relabels
    fun ts hts => (hsymbols ts hts).cast

-- ================================================= operators by the symbol

/-- How a reading came to a `new` does not matter to where the type behind
it ends. -/
theorem allocated_ends {s s' : State} (hs : s.Along tokens)
    (hnew : s.peek.isKeyword "new" = true)
    (h : allocated s = .ok () s') : s'.peek = behindAllocated s.rest := by
  have hstart : Displaced s.position s.recovered (.start s.rest) s := by
    refine ⟨rfl, (Nat.zero_add _).symm, ?_, (Bool.false_or _).symm⟩
    show s.size = s.rest.length + s.position
    have := hs.within
    rw [hs.size, hs.rest, List.length_drop]
    omega
  have hboth := (displacing_spelledAlike .strict s.position
    s.recovered).allocated.both hstart (by rw [← hstart.peek]; exact hnew)
  unfold behindAllocated
  rw [h] at hboth
  generalize allocated (.start s.rest) = r at hboth
  cases hboth with
  | ok _ hends _ => exact hends.peek
  | part halone =>
    cases halone with
    | ok _ hapart => nomatch hapart.2.1

/-- At a word for `&` the type behind `new` has ended. -/
theorem allocatedRound_word {s : State}
    (h : s.peek.isWordFor "&" = true) :
    allocatedRound s = .ok (.done ()) s := by
  simp only [Token.isWordFor, Token.isOperator, Token.isSpelled,
    Bool.and_eq_true, Bool.not_eq_true', beq_iff_eq, Bool.and_eq_false_imp]
    at h
  obtain ⟨⟨hkind, hcanonical⟩, hspelled⟩ := h
  have hnot {operator : String}
      (hoperator : Word.canonical operator ≠ "&") :
      s.peek.isSpelled operator = false := by
    unfold Token.isSpelled
    rw [Bool.and_eq_false_imp]
    intro _
    rw [beq_eq_false_iff_ne]
    rintro rfl
    exact hoperator hcanonical
  have hreference : s.peek.isSpelled "&" = false := by
    unfold Token.isSpelled
    rw [hspelled hkind, Bool.and_false]
  unfold allocatedRound
  simp only [Lockstep.bind_apply, peek, Lockstep.goOn]
  rw [hnot (by decide), hnot (by decide), hreference, hnot (by decide)]
  simp [Token.isName, hkind]

section

variable (hsymbols : ∀ ts ∈ tokens.tails, SymbolsSuffice ts)
include hsymbols

theorem respelling_complement {s t : State}
    (h : Relabelled Token.canonical tokens s t)
    (hleads : s.peek.leadsName = true) :
    Lockstep.AtComplement s.advance t.advance := by
  have hsuffice := hsymbols _ h.rest_mem_tails
  have hword := hsuffice.name (s.peek_eq_tokenAt ▸ hleads)
  obtain ⟨-, hend⟩ := Lockstep.not_shuts_of_leadsName hleads
  rw [← s.advance_peek hend] at hword
  unfold Lockstep.AtComplement
  rw [(h.advance Token.canonical_relabels).peek Token.canonical_relabels]
  exact Token.isSpelled_canonical _ (by decide) hword

/-- Where a rule asks for a symbol, both readings answer alike. -/
theorem respelling_spelledAlike :
    (respelling policy tokens).SpelledAlike where
  complement h := respelling_complement hsymbols h
  allocated := by
    refine (Lockstep.allocated_inStepIf
      (G := fun s => s.peek.isWordFor "&" = false)
      (respelling_lawful hsymbols) ?_).mono ?_
    · refine Lockstep.allocatedRound_inStepIf
        (respelling_lawful hsymbols) fun {s t} h hends => ?_
      have h : Relabelled Token.canonical tokens s t := h
      rw [h.peek Token.canonical_relabels]
      refine Token.isSpelled_canonical _ (by decide) ?_
      rw [← Bool.not_eq_true]
      intro hword
      rw [hends () s (allocatedRound_word hword)] at hword
      cases hword
    · rintro s t h hnew _ s' hs'
      have h : Relabelled Token.canonical tokens s t := h
      have hsuffice := hsymbols _ h.rest_mem_tails
      rw [allocated_ends h.along hnew hs']
      exact hsuffice.allocation (s.peek_eq_tokenAt ▸ hnew)

end

end Grammar

-- ================================================================== units

open Grammar in
/-- A word that stands for an operator can be replaced by the operator,
wherever no rule knows it by its symbol alone. -/
theorem words_interchangeable (policy : Policy) (tokens : List Token)
    (hsymbols : ∀ ts ∈ tokens.tails, SymbolsSuffice ts) :
    let words := ParseOutcome.ofTokens policy tokens
    let symbols := ParseOutcome.ofTokens policy (tokens.map Token.canonical)
    symbols.phase = words.phase ∧ symbols.tree = words.tree
      ∧ symbols.errors.map SyntaxError.location
        = words.errors.map SyntaxError.location := by
  intro words symbols
  obtain ⟨hphase, htree, herrors⟩ := ofTokens_relabelled
    policy tokens Token.canonical_relabels
    (respelling_lawful hsymbols) (respelling_spelledAlike hsymbols)
  refine ⟨hphase, htree.trans words.tree.relocate_id,
    map_eq_map_of_forall₂ (herrors.flip.imp fun e d he => ?_)⟩
  unfold SyntaxError.location
  rw [he.found, Token.canonical_location]

open Grammar Written Lexeme in
/-- `bool b = not x and ( y bitor z ) ;` is read as
`bool b = ! x && ( y | z ) ;` is. -/
theorem words_interchangeable_initializer :
    let tokens := heap [keyword "bool", name "b", operator "=",
      operator "not", name "x", operator "and", punct "(", name "y",
      operator "bitor", name "z", punct ")", punct ";"] ++ [.endOfInput]
    let words := ParseOutcome.ofTokens .tolerant tokens
    let symbols := ParseOutcome.ofTokens .tolerant
      (tokens.map Token.canonical)
    (∀ ts ∈ tokens.tails, SymbolsSuffice ts)
      ∧ symbols.phase = words.phase ∧ symbols.tree = words.tree
      ∧ symbols.errors.map SyntaxError.location
        = words.errors.map SyntaxError.location := by
  intro tokens words symbols
  have hsymbols : ∀ ts ∈ tokens.tails, SymbolsSuffice ts := by
    decide +kernel
  exact ⟨hsymbols, words_interchangeable .tolerant tokens hsymbols⟩

open Written Lexeme in
/-- Not all words can be replaced. In `void f ( ) { p . compl T ( ) ; }` the
name behind the dot is not known for one, and with `~` it is. -/
theorem words_not_interchangeable :
    ¬ ∀ (policy : Policy) (tokens : List Token),
      let words := ParseOutcome.ofTokens policy tokens
      let symbols := ParseOutcome.ofTokens policy
        (tokens.map Token.canonical)
      symbols.phase = words.phase ∧ symbols.tree = words.tree
        ∧ symbols.errors.map SyntaxError.location
          = words.errors.map SyntaxError.location := by
  intro h
  obtain ⟨hphase, -⟩ := h .strict (heap [keyword "void", name "f",
    punct "(", punct ")", punct "\x7b", name "p", operator ".",
    operator "compl", name "T", punct "(", punct ")", punct ";",
    punct "\x7d"] ++ [.endOfInput])
  revert hphase
  decide +kernel

end FrontEnd
