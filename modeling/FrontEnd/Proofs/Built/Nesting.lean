/-
Words of brackets.

`Nested` is a word in which every opening bracket is closed, by a token
that stands in a relation to it: one of its own kind (`Bracketed`), or any
closing bracket at all (`Counted`). A scan that keeps the open brackets on
a stack decides either (`nested_iff`), and `Counted` is what the counter of
a skipped group comes to (`skipGroup_consumes`): a counter is such a stack
of which only the height is looked at.
-/
import FrontEnd.Proofs.Built.Group

namespace FrontEnd.Grammar

-- ============================================================ nested words

/-- Every opening bracket is closed by a token in the relation to it, and
every closing one closes such a bracket. -/
inductive Nested (closedBy : Token → Token → Bool) : List Token → Prop
  | nil : Nested closedBy []
  | plain {t : Token} {ts : List Token} : t.isBracket = false →
    Nested closedBy ts → Nested closedBy (t :: ts)
  | group {o c : Token} {inner ts : List Token} : o.opens = true →
    c.closes = true → closedBy o c = true → Nested closedBy inner →
    Nested closedBy ts → Nested closedBy (o :: inner ++ c :: ts)

/-- Brackets are closed by those of their own kind. -/
abbrev Bracketed : List Token → Prop :=
  Nested fun o c => c.isPunct (closerOf o)

/-- As many brackets are closed as are opened, in whatever kinds. -/
abbrev Counted : List Token → Prop :=
  Nested fun _ _ => true

/-- An opening bracket and all that comes behind it through the bracket
that closes it if one goes by their number. -/
def IsGroup (g : List Token) : Prop :=
  ∃ o inner c, g = o :: inner ++ [c] ∧ o.opens = true ∧ c.closes = true
    ∧ Counted inner

/-- What closes a bracket closes it. -/
theorem closes_of_closerOf {o c : Token}
    (h : c.isPunct (closerOf o) = true) : c.closes = true := by
  unfold closerOf at h
  grind

namespace Nested

variable {closedBy : Token → Token → Bool} {ts us : List Token}

theorem append (hts : Nested closedBy ts) (hus : Nested closedBy us) :
    Nested closedBy (ts ++ us) := by
  induction hts with
  | nil => exact hus
  | plain ht _ ih => exact .plain ht ih
  | group ho hc hclosed hinner _ _ ih =>
    rw [List.append_assoc, List.cons_append]
    exact .group ho hc hclosed hinner ih

/-- Tokens that are no brackets. -/
theorem ofPlain (h : ∀ t ∈ ts, t.isBracket = false) :
    Nested closedBy ts := by
  induction ts with
  | nil => exact .nil
  | cons t ts ih =>
    rw [List.forall_mem_cons] at h
    exact .plain h.1 (ih h.2)

theorem enclosed {o c : Token} (ho : o.opens = true) (hc : c.closes = true)
    (hclosed : closedBy o c = true) (h : Nested closedBy ts) :
    Nested closedBy (o :: ts ++ [c]) :=
  .group ho hc hclosed h .nil

end Nested

-- ================================================================= the scan

/-- What was read while some brackets are open, the innermost first. -/
inductive Pending (closedBy : Token → Token → Bool) :
    List Token → List Token → Prop
  | none {w : List Token} : Nested closedBy w → Pending closedBy [] w
  | opened {o : Token} {stack v w : List Token} :
    Pending closedBy stack v → o.opens = true → Nested closedBy w →
    Pending closedBy (o :: stack) (v ++ o :: w)

namespace Pending

variable {closedBy : Token → Token → Bool} {o t : Token}
  {stack v w : List Token}

/-- What is closed in itself changes nothing. -/
theorem append (h : Pending closedBy stack v) (hw : Nested closedBy w) :
    Pending closedBy stack (v ++ w) := by
  cases h with
  | none hv => exact .none (hv.append hw)
  | opened hv ho hw' =>
    rw [List.append_assoc, List.cons_append]
    exact .opened hv ho (hw'.append hw)

theorem plain (h : Pending closedBy stack v) (ht : t.isBracket = false) :
    Pending closedBy stack (v ++ [t]) :=
  h.append (.plain ht .nil)

theorem push (h : Pending closedBy stack v) (ht : t.opens = true) :
    Pending closedBy (t :: stack) (v ++ [t]) :=
  .opened h ht .nil

theorem pop (h : Pending closedBy (o :: stack) v) (ht : t.closes = true)
    (hclosed : closedBy o t = true) : Pending closedBy stack (v ++ [t]) := by
  cases h with
  | opened hv ho hw =>
    rw [List.append_assoc, List.cons_append]
    exact hv.append (hw.enclosed ho ht hclosed)

theorem nested (h : Pending closedBy [] v) : Nested closedBy v := by
  cases h with
  | none hv => exact hv

end Pending

/-- Whether the tokens close the open brackets, the innermost first, and
all that they open, each by a token in the relation to it. -/
def closesAll (closedBy : Token → Token → Bool) (stack : List Token) :
    List Token → Bool
  | [] => stack.isEmpty
  | t :: ts =>
    if t.opens then closesAll closedBy (t :: stack) ts
    else if t.closes then
      match stack with
      | [] => false
      | o :: stack => closedBy o t && closesAll closedBy stack ts
    else closesAll closedBy stack ts

section
variable {closedBy : Token → Token → Bool} {t o : Token}
  {stack ts : List Token}

theorem closesAll_plain (h : t.isBracket = false) :
    closesAll closedBy stack (t :: ts) = closesAll closedBy stack ts := by
  conv_lhs => unfold closesAll
  rw [if_neg (by grind), if_neg (by grind)]

theorem closesAll_opens (h : t.opens = true) :
    closesAll closedBy stack (t :: ts)
      = closesAll closedBy (t :: stack) ts := by
  conv_lhs => unfold closesAll
  rw [if_pos h]

theorem closesAll_closes (h : t.closes = true) :
    closesAll closedBy (o :: stack) (t :: ts)
      = (closedBy o t && closesAll closedBy stack ts) := by
  conv_lhs => unfold closesAll
  rw [if_neg (by grind), if_pos h]

theorem closesAll_closes_nil (h : t.closes = true) :
    closesAll closedBy [] (t :: ts) = false := by
  conv_lhs => unfold closesAll
  rw [if_neg (by grind), if_pos h]

theorem closesAll_append {w : List Token} (h : Nested closedBy w)
    (stack ts : List Token) :
    closesAll closedBy stack (w ++ ts) = closesAll closedBy stack ts := by
  induction h generalizing stack ts with
  | nil => rfl
  | plain ht _ ih =>
    rw [List.cons_append, closesAll_plain ht]
    exact ih stack ts
  | group ho hc hclosed _ _ ihInner ih =>
    rw [List.append_assoc, List.cons_append, List.cons_append,
      closesAll_opens ho, ihInner, closesAll_closes hc, hclosed,
      Bool.true_and]
    exact ih stack ts

/-- What a scan accepts behind tokens that were read nests with them. -/
theorem nested_of_closesAll {v : List Token}
    (hv : Pending closedBy stack v)
    (h : closesAll closedBy stack ts = true) :
    Nested closedBy (v ++ ts) := by
  induction ts generalizing stack v with
  | nil =>
    rw [closesAll, List.isEmpty_iff] at h
    subst h
    rw [List.append_nil]
    exact hv.nested
  | cons t ts ih =>
    rw [List.append_cons]
    by_cases hopens : t.opens = true
    · rw [closesAll_opens hopens] at h
      exact ih (hv.push hopens) h
    by_cases hcloses : t.closes = true
    · cases stack with
      | nil =>
        rw [closesAll_closes_nil hcloses] at h
        cases h
      | cons o stack =>
        rw [closesAll_closes hcloses, Bool.and_eq_true] at h
        exact ih (hv.pop hcloses h.1) h.2
    · have hplain : t.isBracket = false := by grind
      rw [closesAll_plain hplain] at h
      exact ih (hv.plain hplain) h

/-- Brackets nest if and only if a scan with a stack of the open ones says
so. -/
theorem nested_iff (closedBy : Token → Token → Bool) (ts : List Token) :
    Nested closedBy ts ↔ closesAll closedBy [] ts = true := by
  constructor
  · intro h
    rw [← List.append_nil ts, closesAll_append h]
    rfl
  · exact nested_of_closesAll (.none .nil)

end

instance (closedBy : Token → Token → Bool) (ts : List Token) :
    Decidable (Nested closedBy ts) :=
  decidable_of_iff _ (nested_iff closedBy ts).symm

/-- A group by its first token, its last one and what lies between. -/
theorem isGroup_iff (g : List Token) : IsGroup g ↔
    g.head?.any Token.opens = true ∧ g.tail.getLast?.any Token.closes = true
      ∧ Counted g.tail.dropLast := by
  constructor
  · rintro ⟨o, inner, c, rfl, ho, hc, hinner⟩
    simp [ho, hc, hinner]
  · rintro ⟨hopens, hcloses, hinner⟩
    obtain ⟨o, hhead, ho⟩ := Option.any_eq_true _ _ |>.1 hopens
    obtain ⟨c, hlast, hc⟩ := Option.any_eq_true _ _ |>.1 hcloses
    obtain ⟨tail, rfl⟩ := List.head?_eq_some_iff.1 hhead
    obtain ⟨inner, rfl⟩ := List.getLast?_eq_some_iff.1 hlast
    rw [List.tail_cons, List.dropLast_concat] at hinner
    exact ⟨o, inner, c, rfl, ho, hc, hinner⟩

instance (g : List Token) : Decidable (IsGroup g) :=
  decidable_of_iff _ (isGroup_iff g).symm

-- ============================================================== consumption

/-- Between two states these tokens were read, and no error was met. -/
structure Consumes (ts : List Token) (s s' : State) : Prop where
  rest : s.rest = ts ++ s'.rest
  position : s'.position = s.position + ts.length
  recovered : s'.recovered = s.recovered
  errors : s'.errors = s.errors

namespace Consumes

variable {s s' s'' : State} {ts us : List Token}

theorem nil (hrest : s'.rest = s.rest) (hposition : s'.position = s.position)
    (hrecovered : s'.recovered = s.recovered)
    (herrors : s'.errors = s.errors) : Consumes [] s s' :=
  ⟨hrest.symm, hposition, hrecovered, herrors⟩

theorem trans (h : Consumes ts s s') (h' : Consumes us s' s'') :
    Consumes (ts ++ us) s s'' where
  rest := by rw [h.rest, h'.rest, List.append_assoc]
  position := by
    rw [h'.position, h.position, List.length_append, Nat.add_assoc]
  recovered := h'.recovered.trans h.recovered
  errors := h'.errors.trans h.errors

/-- Reading a token, with the directives in front of it. -/
theorem advance (h : s.peek.isEnd = false) :
    Consumes (s.rest.takeWhile Token.isDirective ++ [s.peek]) s
      s.advance := by
  rw [s.advance_of_not_end h]
  refine ⟨?_, ?_, rfl, rfl⟩
  · rw [List.append_assoc]
    exact s.rest_eq_of_not_end h
  · rw [State.mark_index, List.length_append, List.length_singleton]
    rfl

end Consumes

/-- The directives in front of a token are no brackets. -/
theorem takeWhile_isDirective_plain (ts : List Token) :
    ∀ t ∈ ts.takeWhile Token.isDirective, t.isBracket = false := by
  intro t ht
  have := List.mem_takeWhile_imp ht
  grind

-- ================================================================= groups

/-- A group was read up to some token, with this number of brackets open,
or it was read to its end. -/
inductive InsideGroup (s : State) : Nat → State → Prop
  | opened {stack v : List Token} {s' : State} :
    Consumes (s.rest.takeWhile Token.isDirective ++ s.peek :: v) s s' →
    Pending (fun _ _ => true) stack v → InsideGroup s (stack.length + 1) s'
  | closed {inner : List Token} {c : Token} {s' : State} :
    Consumes (s.rest.takeWhile Token.isDirective
      ++ (s.peek :: inner ++ [c])) s s' →
    Counted inner → c.closes = true → InsideGroup s 0 s'

/-- The next token of a group is read. -/
theorem InsideGroup.advance {s s' : State} {inside : Nat}
    (h : InsideGroup s inside s') (hopen : inside ≠ 0)
    (hend : s'.peek.isEnd = false) :
    InsideGroup s (depthAfter s'.peek inside) s'.advance := by
  cases h with
  | closed => exact absurd rfl hopen
  | @opened stack v _ hconsumes hv =>
    have hread := hconsumes.trans (.advance hend)
    rw [List.append_assoc, List.cons_append, ← List.append_assoc] at hread
    have hv' := hv.append
      (.ofPlain (takeWhile_isDirective_plain s'.rest))
    generalize v ++ s'.rest.takeWhile Token.isDirective = w at hread hv'
    unfold depthAfter
    by_cases hopens : s'.peek.opens = true
    · rw [if_pos hopens]
      exact .opened hread (hv'.push hopens)
    by_cases hcloses : s'.peek.closes = true
    · rw [if_neg hopens, if_pos hcloses]
      cases stack with
      | nil => exact .closed hread hv'.nested hcloses
      | cons o stack => exact .opened hread (hv'.pop hcloses rfl)
    · rw [if_neg hopens, if_neg hcloses]
      exact .opened hread (hv'.plain (by grind))

/-- What a round of a group does. -/
theorem groupRound_ok {problem : SyntaxProblem} {inside : Nat}
    {s s' : State} {r : Round Nat Unit}
    (h : Lockstep.groupRound problem inside s = .ok r s') :
    inside = 0 ∧ r = .done () ∧ s' = s
      ∨ inside ≠ 0 ∧ s.peek.isEnd = false
        ∧ r = .again (depthAfter s.peek inside) ∧ s' = s.advance := by
  unfold Lockstep.groupRound at h
  rw [bind_eq] at h
  dsimp only [peek] at h
  split at h
  case isTrue hinside =>
    cases h
    exact .inl ⟨hinside, rfl, rfl⟩
  case isFalse hinside =>
    split at h
    case isTrue => cases h
    case isFalse hend =>
      rw [bind_eq] at h
      cases h
      exact .inr ⟨hinside, by simpa using hend, rfl, rfl⟩

/-- What is passed over as a group is one by the number of its brackets,
with the directives in front of it. -/
theorem skipGroup_consumes {context : String} {s s' : State}
    (hopens : s.peek.opens = true)
    (h : skipGroup context s = .ok () s') : ∃ g, IsGroup g
      ∧ Consumes (s.rest.takeWhile Token.isDirective ++ g) s s' := by
  have hend : s.peek.isEnd = false := by grind
  have hfirst : depthAfter s.peek 0 = 1 := if_pos hopens
  rw [Lockstep.skipGroup_eq] at h
  have hclosed : InsideGroup s 0 s' := by
    refine loop_value (InsideGroup s) (Q := fun _ s' => InsideGroup s 0 s')
      ?_ (hfirst ▸ .opened (.advance hend) (.none .nil)) h
    intro inside t r t' ht hr
    rcases groupRound_ok hr with ⟨rfl, rfl, rfl⟩ | ⟨hinside, hend, rfl, rfl⟩
    · exact ht
    · exact ht.advance hinside hend
  cases hclosed with
  | closed hconsumes hinner hcloses =>
    exact ⟨_, ⟨_, _, _, rfl, hopens, hcloses, hinner⟩, hconsumes⟩

end FrontEnd.Grammar
