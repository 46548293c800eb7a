/-
The variable `int x = ( … ( 1 ) … ) ;`, which nests as deep as it has
parentheses, and what is read behind it.

Each parenthesis takes a level. Where none is left the reading gives up,
with the parentheses so far open (`parse_parens`). The recovery then passes
over the other ones and over what closes them, all of it inside of groups,
and comes to the semicolon where no group is open any more
(`Nest.recover_stuck`). So it goes on in the state in which the variable
began, and what comes there is read as by itself (`unit_error`).

With fewer parentheses the variable is read as it is written by itself
(`Declarations.parsed`), and so it is in front of other declarations, since
no count of angle brackets begins in it (`declarations_compose`).
-/
import FrontEnd.Proofs.Lockstep.Onward
import FrontEnd.Proofs.Semicolon.File
import FrontEnd.Proofs.Written.Context
import FrontEnd.Proofs.Written.File

namespace FrontEnd

namespace Grammar

open Lockstep (loopWithin_eq)
open Written (run_mark run_peek run_ahead run_advance)

-- ================================================================== errors

section

variable {α β : Type} {s s' : State} {e : SyntaxError}

/-- The error of the first part is the error of the whole. -/
theorem run_error {p : Parser α} (h : p s = .error e s')
    (f : α → Parser β) : (p >>= f) s = .error e s' := by
  rw [bind_eq, h]

theorem loop_error {round : α → Parser (Round α β)} {a : α}
    (h : round a s = .error e s') : loop round a s = .error e s' := by
  rw [loop_eq, h]

variable {g : Inner}

theorem binary_error (levels : List (List String))
    (h : castExpression g s = .error e s') :
    binary g levels s = .error e s' := by
  induction levels with
  | nil => exact h
  | cons level levels ih =>
    rw [Written.binary_cons, run_mark]
    exact run_error ih _

theorem expression_error (h : g.parse .assignment s = .error e s') :
    expression g s = .error e s' := by
  unfold expression
  rw [run_mark]
  exact run_error (loop_error (run_error h _)) _

end

-- ============================================================= parentheses

section

variable {t u : Token} {us : List Token} (ht : t.isPunct "(" = true)
  (hu : u.isPunct "(" = true ∨ u.kind = .number)
include ht hu

/-- Behind two parentheses, or one and a number, there is no cast. -/
theorem opensCast_paren : opensCast (t :: u :: us) = false := by
  have htype (window : Nat) :
      castType window false false (u :: us) = none := by
    unfold castType
    rw [if_neg (by grind)]
    cases window <;> grind
  have hfrom : tokensFrom 1 (t :: u :: us) = u :: us := by
    rw [tokensFrom, if_neg (by grind)]
    rfl
  unfold opensCast
  rw [hfrom, htype, Bool.and_false]

variable {g : Inner} {s s' : State} {e : SyntaxError}
  (hrest : s.rest = t :: u :: us)
include hrest

/-- What is wrong in the parentheses is wrong with the operand. -/
theorem castExpression_error (h : expression g s.advance = .error e s') :
    castExpression g s = .error e s' := by
  obtain ⟨hkind, hvalue⟩ : t.kind = .punctuation ∧ t.value = "(" := by
    simpa [Token.isPunct] using ht
  have hpeek := State.peek_cons hrest (by grind)
  have hprimary : primary g s = .error e s' := by
    unfold primary
    rw [run_mark, run_peek, hpeek, hkind]
    simp only [hvalue]
    exact run_error h _
  unfold castExpression
  rw [run_peek, hpeek, hkind]
  simp only [hvalue]
  show (ahead opensCast >>= _) s = _
  rw [run_ahead, hrest, opensCast_paren ht hu]
  exact run_error hprimary _

/-- So is it with the expression, if a level is left for it. -/
theorem rightGrouped_error (hroom : 0 < g.room)
    (h : g.parse .assignment s.advance = .error e s') :
    rightGrouped g true s = .error e s' := by
  have hoperand := castExpression_error ht hu hrest (expression_error h)
  have hleft : ¬g.room ≤ ([] : List Waiting).length :=
    Nat.not_le_of_lt hroom
  refine loop_error ?_
  unfold rightRound
  rw [if_neg hleft, run_mark, run_peek, State.peek_cons hrest (by grind),
    if_neg (by grind), if_neg (by grind)]
  exact run_error (binary_error _ hoperand) _

end

/-- Every parenthesis takes a level, and behind the last one that is
left no operand is read. -/
theorem parse_parens (policy : Policy) {opens : List Token}
    (hopens : ∀ t ∈ opens, t.isPunct "(" = true) {u : Token}
    {us : List Token} (hu : u.isPunct "(" = true ∨ u.kind = .number)
    {s : State} (hrest : s.rest = opens ++ u :: us) :
    parse policy (opens.length + 1) .assignment s
      = .error ⟨.nestingTooDeep, u⟩ { s with
          rest := u :: us, position := s.position + opens.length
          depth := s.depth + opens.length } := by
  induction opens generalizing s with
  | nil =>
    have hpeek : s.peek = u := State.peek_cons hrest (by grind)
    have hround : rightRound ⟨policy, 0, parse policy 0⟩ true [] s
        = .error ⟨.nestingTooDeep, s.peek⟩ s := rfl
    have hstate : { s with
        rest := u :: us, position := s.position + 0
        depth := s.depth + 0 } = s := by
      rw [← List.nil_append (u :: us), ← hrest]
      rfl
    show rightGrouped _ true s = _
    rw [List.length_nil, hstate, ← hpeek]
    exact loop_error hround
  | cons t opens ih =>
    have ht := hopens t List.mem_cons_self
    have hrest' : s.rest = t :: (opens ++ u :: us) := hrest
    have hadvance := State.advance_cons hrest' (by grind) (by grind)
    rw [depthAfter_opening ht] at hadvance
    have hread := ih (fun v hv => hopens v (List.mem_cons_of_mem t hv))
      (s := s.advance) (by rw [hadvance])
    have hstate : { s.advance with
        rest := u :: us, position := s.advance.position + opens.length
        depth := s.advance.depth + opens.length }
        = { s with
          rest := u :: us, position := s.position + (opens.length + 1)
          depth := s.depth + (opens.length + 1) } := by
      rw [hadvance, Nat.add_comm opens.length 1, ← Nat.add_assoc,
        ← Nat.add_assoc]
    rw [hstate] at hread
    obtain ⟨v, vs, hv, hnext⟩ : ∃ v vs, opens ++ u :: us = v :: vs
        ∧ (v.isPunct "(" = true ∨ v.kind = .number) := by
      cases opens with
      | nil => exact ⟨u, us, rfl, hu⟩
      | cons v opens => exact ⟨v, _, rfl, .inl (hopens v (by simp))⟩
    exact rightGrouped_error
      (g := ⟨policy, opens.length + 1, parse policy (opens.length + 1)⟩)
      ht hnext (hv ▸ hrest') (Nat.succ_pos _) hread

/-- Inside of groups skipping passes over any token that is no brace. -/
theorem resume_inside {t : Token} (ht : t.isUnbraced = true)
    (index depth : Nat) (ts : List Token) :
    resume 0 index (depth + 1) (t :: ts)
      = resume 0 (index + 1) (depthAfter t (depth + 1)) ts := by
  rw [resume, if_neg (by grind), if_neg (by grind),
    if_neg (Nat.not_succ_le_zero depth), if_neg (by grind)]

theorem resume_opens {opens : List Token}
    (hopens : ∀ t ∈ opens, t.isPunct "(" = true) (index depth : Nat)
    (ts : List Token) :
    resume 0 index (depth + 1) (opens ++ ts)
      = resume 0 (index + opens.length) (depth + opens.length + 1) ts := by
  induction opens generalizing index depth with
  | nil => rfl
  | cons t opens ih =>
    have ht := hopens t List.mem_cons_self
    rw [List.cons_append, resume_inside (by grind), depthAfter_opening ht,
      ih fun u hu => hopens u (List.mem_cons_of_mem t hu), List.length_cons]
    congr 1 <;> omega

theorem resume_closes {closes : List Token}
    (hcloses : ∀ t ∈ closes, t.isPunct ")" = true) (index : Nat)
    (ts : List Token) :
    resume 0 index closes.length (closes ++ ts)
      = resume 0 (index + closes.length) 0 ts := by
  induction closes generalizing index with
  | nil => rfl
  | cons t closes ih =>
    have ht := hcloses t List.mem_cons_self
    rw [List.length_cons, List.cons_append, resume_inside (by grind),
      depthAfter_closing ht,
      ih fun u hu => hcloses u (List.mem_cons_of_mem t hu)]
    congr 1
    omega

-- ============================================================ declarations

section

variable {g : Inner} {s s' : State} {e : SyntaxError} {assign : Token}
  {ts : List Token} (hassign : assign.isOperator "=" = true)
include hassign

/-- What is wrong with the value is wrong with the round. -/
theorem simpleRound_error (m : Mark) {w : Walk}
    (hparameters : w.parameters = false) (hrest : s.rest = assign :: ts)
    (h : initializer g { s with rest := ts, position := s.position + 1 }
      = .error e s') : simpleRound g m w s = .error e s' := by
  have hkind : assign.kind = .operator := by grind
  have hadvance := State.advance_cons hrest (by grind) (by grind)
  rw [depthAfter_of_kind (by simp [hkind])] at hadvance
  unfold simpleRound
  rw [run_peek, State.peek_cons hrest (by grind), hkind]
  show operatorRound g m w assign s = _
  unfold operatorRound
  rw [if_pos hassign, run_advance, hadvance, hparameters]
  exact run_error h _

/-- What is wrong with the value is wrong with the variable. -/
theorem declaration_error {type name : Token}
    (htype : type.isKeyword "int" = true) (hname : name.isName = true)
    (hrest : s.rest = type :: name :: assign :: ts)
    (hsize : s.position + 2 ≤ s.size)
    (h : initializer g { s with rest := ts, position := s.position + 3 }
      = .error e s') : declaration g s = .error e s' := by
  rw [declaration_named (.inr rfl) htype hname hrest hsize,
    loopWithin_eq, simpleRound_error hassign _ rfl rfl h]
  rfl

end

-- ================================================================== nests

/-- The tokens of `int x = ( … ( 1 ) … ) ;`. -/
structure Nest where
  type : Token
  name : Token
  assign : Token
  opens : List Token
  number : Token
  closes : List Token
  semicolon : Token
  isInt : type.isKeyword "int" = true
  isName : name.isName = true
  isAssign : assign.isOperator "=" = true
  allOpen : ∀ t ∈ opens, t.isPunct "(" = true
  isNumber : number.kind = .number
  allClose : ∀ t ∈ closes, t.isPunct ")" = true
  closed : closes.length = opens.length
  ends : semicolon.isPunct ";" = true

namespace Nest

variable (N : Nest) (X : List Token)

/-- The tokens from the number on, with others behind them. -/
def inner : List Token := N.number :: (N.closes ++ N.semicolon :: X)

/-- All of the tokens, with others behind them. -/
def tokens : List Token :=
  N.type :: N.name :: N.assign :: (N.opens ++ N.inner X)

theorem length_tokens :
    (N.tokens X).length = X.length + (2 * N.opens.length + 5) := by
  have := N.closed
  simp only [tokens, inner, List.length_cons, List.length_append]
  omega

/-- Neither a directive nor the end comes first. -/
theorem starts : (N.tokens X).head?.any Token.isDirective = false
    ∧ (State.start (N.tokens X)).peek.isEnd = false := by
  have htype : N.type.kind = .keyword := by
    have := N.isInt
    grind
  rw [State.peek_cons rfl (by grind)]
  refine ⟨?_, by grind⟩
  show N.type.isDirective = false
  grind

/-- Behind the parentheses that use up the levels. -/
def stuck : State := { State.start (N.tokens X) with
  rest := N.opens.drop 254 ++ N.inner X, position := 257, depth := 254 }

variable {N} (hdeep : 253 < N.opens.length)
include hdeep

theorem length_used : (N.opens.take 254).length = 254 :=
  List.length_take_of_le hdeep

/-- What comes next there is a parenthesis or the number. -/
theorem exists_left : ∃ u us, N.opens.drop 254 ++ N.inner X = u :: us
    ∧ (u.isPunct "(" = true ∨ u.kind = .number)
    ∧ tokenAt 257 (N.tokens X) = u := by
  obtain ⟨u, us, hleft, hu⟩ : ∃ u us,
      N.opens.drop 254 ++ N.inner X = u :: us
        ∧ (u.isPunct "(" = true ∨ u.kind = .number) := by
    cases h : N.opens.drop 254 with
    | nil => exact ⟨_, _, rfl, .inr N.isNumber⟩
    | cons u us =>
      have hmem : u ∈ N.opens.drop 254 := h ▸ List.mem_cons_self
      exact ⟨u, _, rfl, .inl (N.allOpen u (List.mem_of_mem_drop hmem))⟩
  refine ⟨u, us, hleft, hu, ?_⟩
  have hused : ∀ t ∈ [N.type, N.name, N.assign] ++ N.opens.take 254,
      t.isDirective = false := by
    intro t ht
    rcases List.mem_append.1 ht with ht | ht
    · have := N.isInt
      have := N.isName
      have := N.isAssign
      grind
    · have := N.allOpen t (List.mem_of_mem_take ht)
      grind
  have htokens : N.tokens X
      = ([N.type, N.name, N.assign] ++ N.opens.take 254) ++ u :: us := by
    rw [List.append_assoc, ← hleft, ← List.append_assoc (N.opens.take 254),
      List.take_append_drop]
    rfl
  have hat := tokenAt_length hused us (c := u) (by grind)
  rw [List.length_append, length_used hdeep] at hat
  rw [htokens]
  exact hat

/-- There the reading gives up. -/
theorem parse_fails (policy : Policy) :
    parse policy maxNesting .declaration (.start (N.tokens X))
      = .error ⟨.nestingTooDeep, tokenAt 257 (N.tokens X)⟩ (N.stuck X) := by
  obtain ⟨u, us, hleft, hu, hat⟩ := exists_left X hdeep
  have hopens : N.opens ++ N.inner X = N.opens.take 254 ++ u :: us := by
    rw [← hleft, ← List.append_assoc, List.take_append_drop]
  have hused : ∀ t ∈ N.opens.take 254, t.isPunct "(" = true :=
    fun t ht => N.allOpen t (List.mem_of_mem_take ht)
  have hread := parse_parens policy hused hu
    (s := { State.start (N.tokens X) with
      rest := N.opens ++ N.inner X, position := 3 }) hopens
  rw [length_used hdeep, ← hleft, ← hat] at hread
  have hsize : 2 ≤ (N.tokens X).length := by
    rw [length_tokens]
    omega
  have hbrace : ({ State.start (N.tokens X) with
      rest := N.opens ++ N.inner X, position := 3 } : State).peek.isPunct
        "\x7b" = false := by
    obtain ⟨t, opens, hcons⟩ :=
      List.exists_cons_of_length_pos (Nat.zero_lt_of_lt hdeep)
    have ht := N.allOpen t (hcons ▸ List.mem_cons_self)
    rw [hcons, State.peek_cons rfl (by grind)]
    grind
  exact declaration_error N.isAssign N.isInt N.isName rfl
    (Nat.zero_add 2 ▸ hsize) ((Written.initializer_eq hbrace).trans hread)

/-- The recovery leads from there behind the semicolon, and closes all the
groups. -/
theorem recover_stuck (e : SyntaxError) : (N.stuck X).recover 0 e
    = { State.start (N.tokens X) with
      rest := X, position := 2 * N.opens.length + 5
      phase := .recovering, recovered := true, errors := #[e] } := by
  have hskipped : resume 0 257 254 (N.opens.drop 254 ++ N.inner X)
      = (2 * N.opens.length + 5, 0, X) := by
    have hclosed := N.closed
    have hnumber := N.isNumber
    have hleft : (N.opens.drop 254).length = N.opens.length - 254 :=
      List.length_drop
    obtain ⟨depth, hdepth⟩ : ∃ depth,
        253 + (N.opens.drop 254).length = depth := ⟨_, rfl⟩
    have hcloses : depth + 1 = N.closes.length := by omega
    rw [resume_opens
        (fun t ht => N.allOpen t (List.mem_of_mem_drop ht)) 257 253,
      hdepth, inner, resume_inside (by grind),
      depthAfter_of_kind (by simp [hnumber]), hcloses,
      resume_closes N.allClose,
      ← List.nil_append (N.semicolon :: X),
      resume_loose (Nat.le_refl 0) (List.forall_mem_nil _) N.ends,
      List.length_nil]
    congr 1
    omega
  unfold State.recover stuck
  dsimp only
  rw [hskipped]
  rfl

/-- A strict reading gives up at the declaration. -/
theorem strict_unit :
    let file := ParseOutcome.ofTokens .strict (N.tokens X)
    file.errors = [⟨.nestingTooDeep, tokenAt 257 (N.tokens X)⟩]
      ∧ file.phase = .failed :=
  strict_unit_error (N.starts X).1 (N.starts X).2 (parse_fails X hdeep .strict)

variable {X}

/-- A tolerant reading reports the declaration and leaves it out. -/
theorem tolerant_unit
    (hclean : (declarations X [] (.start X)).error = none) :
    let file := ParseOutcome.ofTokens .tolerant (N.tokens X)
    file.errors = [⟨.nestingTooDeep, tokenAt 257 (N.tokens X)⟩]
      ∧ file.tree.children = (declarations X [] (.start X)).items.map
        (Node.displace (2 * N.opens.length + 5) true) := by
  have hrecover := recover_stuck X hdeep
    ⟨.nestingTooDeep, tokenAt 257 (N.tokens X)⟩
  obtain ⟨herrors, hchildren⟩ := unit_error (N.length_tokens X) hclean
    (N.starts X).1 (N.starts X).2 (parse_fails X hdeep .tolerant) (by
      rw [hrecover]
      exact ⟨rfl, rfl, N.length_tokens X, Nat.succ_pos _⟩)
  rw [hrecover] at herrors
  exact ⟨herrors, hchildren⟩

end Nest

end Grammar

-- =========================================================== what is written

namespace Written

open Grammar

theorem Page.ended_nil : ∀ t ∈ ([] : List Token).head?, t.isEnd = true :=
  fun t h => absurd h (Option.not_mem_none t)

/-- A page with nothing behind what is written. -/
def Page.bare (place : Nat → Span × Location) : Page :=
  ⟨place, [], Page.ended_nil⟩

section

variable {place : Nat → Span × Location}

theorem Page.lay_append (page : Page) (index : Nat) (ls ls' : List Lexeme) :
    page.lay index (ls ++ ls') = (Page.bare page.place).lay index ls
      ++ page.lay (index + ls.length) ls' := by
  induction ls generalizing index with
  | nil => rfl
  | cons l ls ih =>
    rw [List.cons_append, lay_cons, ih, List.length_cons, Nat.add_assoc,
      Nat.add_comm 1]
    rfl

theorem Page.mem_lay_bare {index : Nat} {ls : List Lexeme} {t : Token}
    (h : t ∈ (Page.bare place).lay index ls) :
    ∃ l ∈ ls, ∃ spot, t = l.token spot := by
  induction ls generalizing index with
  | nil => cases h
  | cons l ls ih =>
    rcases List.mem_cons.1 h with rfl | h
    · exact ⟨l, List.mem_cons_self, _, rfl⟩
    · obtain ⟨l', hl', h⟩ := ih h
      exact ⟨l', List.mem_cons_of_mem l hl', h⟩

end

/-- A number in so many parentheses. -/
def Expression.enclosed : Nat → Expression .suffixed
  | 0 => .number "1"
  | n + 1 => .parens (enclosed n).whole

/-- `int x = ( … ( 1 ) … ) ;` -/
def Declarations.deep (n : Nat) : Declarations :=
  .declaration (.initialized "x"
    (.simple (.loosen binaryLevels (.plain (.enclosed n))))) .noDeclaration

/-- The lexemes of the same. -/
def deep (n : Nat) : List Lexeme :=
  .keyword "int" :: .name "x" :: .operator "="
    :: (List.replicate n (.punct "(") ++ .number "1"
      :: (List.replicate n (.punct ")") ++ [.punct ";"]))

theorem Expression.write_enclosed (n : Nat) : (enclosed n).write
    = List.replicate n (.punct "(") ++ .number "1"
      :: List.replicate n (.punct ")") := by
  induction n with
  | zero => rfl
  | succ n ih =>
    rw [enclosed, write, write_whole, ih, List.replicate_succ,
      List.cons_append, List.append_assoc, List.cons_append,
      ← List.replicate_succ', List.replicate_succ]

theorem Expression.levels_enclosed (n : Nat) :
    max 1 ((enclosed n).levels 0) = n + 1 := by
  induction n with
  | zero => rfl
  | succ n ih =>
    rw [enclosed, levels, levels_whole, ih]
    exact max_eq_right (Nat.le_add_left 1 _)

theorem Declarations.write_deep (n : Nat) :
    (Declarations.deep n).write = Written.deep n := by
  have hvalue : (Expression.loosen binaryLevels
      (.plain (.enclosed n))).write = (Expression.enclosed n).write :=
    Expression.write_loosen (.plain (.enclosed n))
  rw [Declarations.deep, write, Declaration.write, Expression.write, hvalue,
    Expression.write_enclosed, write, List.append_nil, List.append_assoc]
  rfl

theorem Declarations.levels_deep (n : Nat) :
    (Declarations.deep n).levels = n + 3 := by
  have hvalue : (Expression.loosen binaryLevels
      (.plain (.enclosed n))).levels 0 = (Expression.enclosed n).levels 0 :=
    Expression.levels_loosen (.plain (.enclosed n)) 0
  rw [Declarations.deep, levels, Declaration.levels, Expression.levels,
    hvalue, Expression.levels_enclosed, levels]
  rfl

section

variable (place : Nat → Span × Location) (n : Nat)

theorem length_lay_bare (index : Nat) (ls : List Lexeme) :
    ((Page.bare place).lay index ls).length = ls.length :=
  (Page.bare place).length_lay index ls

/-- A token that is written for copies of a lexeme is written for it. -/
theorem mem_lay_replicate {l : Lexeme} {index : Nat} {t : Token}
    (h : t ∈ (Page.bare place).lay index (List.replicate n l)) :
    ∃ spot, t = l.token spot := by
  obtain ⟨l', hl', h⟩ := Page.mem_lay_bare h
  rwa [List.eq_of_mem_replicate hl'] at h

/-- What is written is a nest. -/
def nest : Nest where
  type := Lexeme.token (.keyword "int") (place 0)
  name := Lexeme.token (.name "x") (place 1)
  assign := Lexeme.token (.operator "=") (place 2)
  opens := (Page.bare place).lay 3 (List.replicate n (.punct "("))
  number := Lexeme.token (.number "1") (place (3 + n))
  closes := (Page.bare place).lay (3 + n + 1) (List.replicate n (.punct ")"))
  semicolon := Lexeme.token (.punct ";") (place (3 + n + 1 + n))
  isInt := by simp
  isName := by simp
  isAssign := by simp; decide
  allOpen t ht := by
    obtain ⟨spot, rfl⟩ := mem_lay_replicate place n ht
    simp
  isNumber := rfl
  allClose t ht := by
    obtain ⟨spot, rfl⟩ := mem_lay_replicate place n ht
    simp
  closed := by simp only [length_lay_bare, List.length_replicate]
  ends := by simp

theorem length_opens_nest : (nest place n).opens.length = n :=
  (length_lay_bare place 3 _).trans List.length_replicate

theorem nest_tokens (B : List Token) :
    (nest place n).tokens B = (Page.bare place).lay 0 (deep n) ++ B := by
  unfold deep
  rw [Page.lay_cons, Page.lay_cons, Page.lay_cons, Page.lay_append,
    Page.lay_cons, Page.lay_append, Page.lay_cons, List.length_replicate,
    List.length_replicate]
  simp only [List.cons_append, List.append_assoc]
  rfl

end

-- ========================================================= what is accepted

section

variable {place : Nat → Span × Location} {n : Nat} {B : List Token}

/-- No template arguments begin among the lexemes. -/
theorem deep_not_angle {l : Lexeme} (h : l ∈ deep n) :
    l.isOperator "<" = false := by
  simp only [deep, List.mem_cons, List.mem_append, List.mem_replicate,
    List.not_mem_nil, or_false] at h
  rcases h with rfl | rfl | rfl | ⟨-, rfl⟩ | rfl | ⟨-, rfl⟩ | rfl <;> decide

theorem deep_not_arguments {us : List Token}
    (hus : us <:+ (Page.bare place).lay 0 (deep n)) (hne : us ≠ []) :
    opensArguments true (us ++ B) = false := by
  obtain ⟨t, ts, rfl⟩ := List.exists_cons_of_ne_nil hne
  obtain ⟨l, hl, spot, rfl⟩ :=
    Page.mem_lay_bare (hus.subset List.mem_cons_self)
  unfold opensArguments
  rw [List.cons_append, significant, if_neg (by simp)]
  dsimp only
  rw [Lexeme.isOperator_token, deep_not_angle hl, Bool.false_and]

/-- As many parentheses as there are levels for are read, whatever comes
behind the declaration. -/
theorem deep_accepted (hn : n ≤ 253)
    (clean : (ParseOutcome.ofTokens .strict B).errors = []) :
    (ParseOutcome.ofTokens .strict
      ((Page.bare place).lay 0 (deep n) ++ B)).errors = [] := by
  let page : Page := ⟨place, [.endOfInput], by simp; rfl⟩
  have hlay : page.lay 0 (deep n)
      = (Page.bare place).lay 0 (deep n) ++ [.endOfInput] := by
    have h := page.lay_append 0 (deep n) []
    rwa [List.append_nil] at h
  have hlevels : (Declarations.deep n).levels ≤ maxNesting := by
    rw [Declarations.levels_deep]
    exact Nat.add_le_add_right hn 3
  have hparsed := (Declarations.deep n).parsed page hlevels .strict
  rw [Declarations.write_deep, hlay] at hparsed
  have cleanA := ParseOutcome.strict_errors_iff.1
    (congrArg ParseOutcome.errors hparsed)
  have cleanB := ParseOutcome.strict_errors_iff.1 clean
  have unended : ∀ t ∈ (Page.bare place).lay 0 (deep n),
      t.isEnd = false := by
    intro t ht
    obtain ⟨l, -, spot, rfl⟩ := Page.mem_lay_bare ht
    exact l.isEnd_token spot
  have hend := tokenAt_end (e := .endOfInput) rfl
  obtain ⟨-, -, -, -, -, -, hends, -⟩ :=
    declarations_reach ⟨unended, hend, .inl rfl⟩ (by decide) cleanA
  have hparts : Grammar.Parts ((Page.bare place).lay 0 (deep n)) B
      [.endOfInput] := by
    refine ⟨unended, hend, .inr ⟨hends, fun us hus hne hopens => ?_⟩⟩
    have hne : us ≠ [] := by
      rintro rfl
      exact hne rfl
    rw [deep_not_arguments hus hne] at hopens
    cases hopens
  exact ParseOutcome.strict_errors_iff.2
    (declarations_compose rfl hparts cleanA cleanB).1

end

end Written

-- ============================================================== main results

open Grammar Written in
/-- In `int x = ( … ( 1 ) … ) ;` there may be 253 pairs of parentheses. If
there are more, that is reported once, at the parenthesis or the number for
which no level is left, and a tolerant reading goes on behind the semicolon
as if it began there. -/
theorem nesting_unwinds (place : Nat → Span × Location) (n : Nat)
    {B : List Token}
    (clean : (ParseOutcome.ofTokens .strict B).errors = []) :
    let tokens := (Page.bare place).lay 0 (deep n) ++ B
    let strict := ParseOutcome.ofTokens .strict tokens
    let tolerant := ParseOutcome.ofTokens .tolerant tokens
    let d : SyntaxError := ⟨.nestingTooDeep, tokenAt 257 tokens⟩
    (strict.errors = [] ↔ n ≤ 253)
      ∧ (tolerant.errors = [] ↔ n ≤ 253)
      ∧ (253 < n →
        strict.phase = .failed ∧ strict.errors = [d]
        ∧ tolerant.errors = [d]
        ∧ tolerant.tree.children
          = (ParseOutcome.ofTokens .strict B).tree.children.map
            (Node.displace (2 * n + 5) true)
        ∧ ∃ after,
          parse .tolerant maxNesting .declaration (.start tokens)
            = .error d after
          ∧ after.recover 0 d = { State.start tokens with
            rest := B, position := 2 * n + 5
            phase := .recovering, recovered := true, errors := #[d] }) := by
  intro tokens strict tolerant d
  rcases Nat.lt_or_ge 253 n with hn | hn
  · have hlength := length_opens_nest place n
    have htokens : (nest place n).tokens B = tokens := nest_tokens place n B
    have hdeep : 253 < (nest place n).opens.length := hlength.symm ▸ hn
    have hstrict := Nest.strict_unit B hdeep
    have htolerant :=
      Nest.tolerant_unit hdeep (ParseOutcome.strict_errors_iff.1 clean)
    have hfails := Nest.parse_fails B hdeep .tolerant
    have hrecover := Nest.recover_stuck B hdeep d
    rw [htokens] at hstrict hfails
    rw [htokens, hlength] at htolerant hrecover
    obtain ⟨hstrict, hfailed⟩ := hstrict
    obtain ⟨htolerant, hchildren⟩ := htolerant
    have hnot : ¬n ≤ 253 := Nat.not_le_of_lt hn
    exact ⟨iff_of_false (hstrict ▸ List.cons_ne_nil d []) hnot,
      iff_of_false (htolerant ▸ List.cons_ne_nil d []) hnot, fun _ =>
      ⟨hfailed, hstrict, htolerant, hchildren, _, hfails, hrecover⟩⟩
  · have hstrict : strict.errors = [] := deep_accepted hn clean
    have hagrees : tolerant = strict :=
      ofTokens_agrees (ParseOutcome.strict_errors_iff.1 hstrict)
    exact ⟨iff_of_true hstrict hn, iff_of_true (hagrees ▸ hstrict) hn,
      fun h => absurd hn (Nat.not_le_of_lt h)⟩

open Grammar Written Lexeme in
/-- One pair of parentheses too many, in front of `int y ;`. -/
theorem nesting_unwinds_once :
    let B := heap [keyword "int", name "y", punct ";"]
    let tokens := (Page.bare fun _ => (⟨0, 0⟩, .start)).lay 0 (deep 254) ++ B
    let tolerant := ParseOutcome.ofTokens .tolerant tokens
    (ParseOutcome.ofTokens .strict B).errors = []
      ∧ tolerant.errors = [⟨.nestingTooDeep, tokenAt 257 tokens⟩]
      ∧ tolerant.tree.children
        = (ParseOutcome.ofTokens .strict B).tree.children.map
          (Node.displace 513 true) := by
  intro B tokens tolerant
  have clean : (ParseOutcome.ofTokens .strict B).errors = [] := by
    decide +kernel
  obtain ⟨-, -, hbeyond⟩ :=
    nesting_unwinds (fun _ => (⟨0, 0⟩, .start)) 254 clean
  obtain ⟨-, -, herrors, hchildren, -⟩ := hbeyond (by decide)
  exact ⟨clean, herrors, hchildren⟩

end FrontEnd
