/-
Which tokens of a text its declarations cover.

A declaration that is read without an error ends where the reading goes
on, and begins at the token that came next, with one exception: the word
`export` or `extern` in front of a template is read before the place of
the template is taken, so that the node leaves it out (`Led`). Where a node
begins is settled by the last step of its rule, whatever the steps before
it do (`Ends`), and by when the rule takes its mark (`EndsFrom`); with that
it is said of each form of a declaration (`declaration_begins`). By
induction over the passes of the unit the children of the root tile the
text but for such words (`gather_tiled`), and so each token in front of
the end belongs to one of them (`Tiled.count`).
-/
import FrontEnd.Proofs.Built.Flags
import FrontEnd.Proofs.Lockstep.Concatenation

namespace FrontEnd

/-- Whether the token at an index is one of the node's. -/
def Node.covers (n : Node) (index : Nat) : Bool :=
  n.first ≤ index && index < n.stop

theorem Node.covers_iff {n : Node} {index : Nat} :
    n.covers index = true ↔ n.first ≤ index ∧ index < n.stop := by
  rw [covers, Bool.and_eq_true, decide_eq_true_iff, decide_eq_true_iff]

namespace Grammar

-- ================================================================= tilings

/-- A template with the word `export` or `extern` in front of it, and
nothing but directives between the two. -/
structure Led (tokens : List Token) (start : Nat) (n : Node) : Prop where
  kind : n.kind = .templateDeclaration
  before : start < n.first
  word : ∃ t, tokens[start]? = some t
    ∧ (t.isKeyword "export" = true ∨ t.isKeyword "extern" = true)
  template : ∃ t, tokens[n.first]? = some t
    ∧ t.isKeyword "template" = true
  directives : ∀ i, start < i → i < n.first →
    ∃ t, tokens[i]? = some t ∧ t.isDirective = true

/-- Nodes that lie one behind the other without a gap, but for words that
lead a template. -/
inductive Tiled (tokens : List Token) : Nat → List Node → Nat → Prop
  | nil (i : Nat) : Tiled tokens i [] i
  | cons {lo hi : Nat} {n : Node} {ns : List Node} :
    n.first = lo ∨ Led tokens lo n → n.first < n.stop →
    Tiled tokens n.stop ns hi → Tiled tokens lo (n :: ns) hi

namespace Tiled

variable {tokens : List Token} {lo mid hi i : Nat} {n : Node}
  {ms ns : List Node}

theorem append (hms : Tiled tokens lo ms mid) (hns : Tiled tokens mid ns hi) :
    Tiled tokens lo (ms ++ ns) hi := by
  induction hms with
  | nil i => exact hns
  | cons hfirst hlt _ ih => exact .cons hfirst hlt (ih hns)

/-- Another node, where the last one comes first. -/
theorem push (hns : Tiled tokens lo ns.reverse mid)
    (hfirst : n.first = mid ∨ Led tokens mid n) (hlt : n.first < n.stop) :
    Tiled tokens lo (n :: ns).reverse n.stop := by
  rw [List.reverse_cons]
  exact hns.append (.cons hfirst hlt (.nil _))

/-- In front of the nodes, none of them has a token. -/
theorem count_before (h : Tiled tokens lo ns hi) (hlo : i < lo) :
    ns.countP (·.covers i) = 0 := by
  induction h with
  | nil => rfl
  | @cons lo hi n ns hfirst hlt _ ih =>
    have hbefore : i < n.first := by
      rcases hfirst with hfirst | hled
      · omega
      · have := hled.before
        omega
    have hnot : ¬ n.covers i = true := by
      rw [Node.covers_iff]
      omega
    rw [List.countP_cons_of_neg (p := fun m : Node => m.covers i) hnot]
    exact ih (by omega)

/-- Each token between the ends belongs to one of the nodes, but for a word
that leads a template and the directives behind it. -/
theorem count (h : Tiled tokens lo ns hi) (hlo : lo ≤ i) (hhi : i < hi) :
    ns.countP (·.covers i) = 1
      ∨ ns.countP (·.covers i) = 0
        ∧ ∃ n ∈ ns, ∃ start, Led tokens start n ∧ start ≤ i ∧ i < n.first := by
  induction h with
  | nil => omega
  | @cons lo hi n ns hfirst hlt hns ih =>
    by_cases hstop : n.stop ≤ i
    · have hnot : ¬ n.covers i = true := by
        simp only [Node.covers, Bool.and_eq_true, decide_eq_true_eq]
        omega
      rw [List.countP_cons_of_neg (p := fun m : Node => m.covers i) hnot]
      refine (ih hstop hhi).imp_right fun ⟨hcount, m, hm, hled⟩ => ?_
      exact ⟨hcount, m, List.mem_cons_of_mem _ hm, hled⟩
    · have hrest := hns.count_before (Nat.lt_of_not_le hstop)
      by_cases hfront : n.first ≤ i
      · left
        have hcovers : n.covers i = true :=
          Node.covers_iff.2 ⟨hfront, Nat.lt_of_not_le hstop⟩
        rw [List.countP_cons_of_pos (p := fun m : Node => m.covers i) hcovers,
          hrest]
      · -- in front of the node, which therefore does not begin at `lo`
        right
        have hnot : ¬ n.covers i = true := by
          rw [Node.covers_iff]
          omega
        rw [List.countP_cons_of_neg (p := fun m : Node => m.covers i) hnot]
        refine ⟨hrest, n, List.mem_cons_self, lo, ?_, hlo, by omega⟩
        exact hfirst.resolve_left (by omega)

end Tiled

-- ====================================================== what a rule ends with

/-- Whatever value a rule has, the value and the state behind it have the
property. -/
def Ends {α : Type} (Q : α → State → Prop) (p : Parser α) : Prop :=
  ∀ s a s', p s = .ok a s' → Q a s'

namespace Ends

variable {α β : Type} {Q : β → State → Prop}

theorem bind {p : Parser α} {f : α → Parser β} (h : ∀ a, Ends Q (f a)) :
    Ends Q (p >>= f) := by
  intro s b s' hb
  rw [bind_eq] at hb
  cases hp : p s with
  | ok a s'' =>
    rw [hp] at hb
    exact h a s'' b s' hb
  | error e s'' =>
    rw [hp] at hb
    cases hb

theorem pure {b : β} (h : ∀ s, Q b s) : Ends Q (pure b) := by
  intro s a s' ha
  cases ha
  exact h s

theorem fail {problem : SyntaxProblem} : Ends Q (Grammar.fail problem) :=
  fun _ _ _ => nofun

theorem failExpected {wanted : String} :
    Ends Q (Grammar.failExpected wanted) :=
  fail

theorem ite {c : Prop} [Decidable c] {p q : Parser β} (yes : Ends Q p)
    (no : Ends Q q) : Ends Q (if c then p else q) := by
  split
  · exact yes
  · exact no

/-- A loop whose rounds end well if they are the last. -/
theorem loop {round : α → Parser (Round α β)} {a : α}
    (h : ∀ a, Ends (fun r s => r.Sat (fun _ => True) (Q · s)) (round a)) :
    Ends Q (Grammar.loop round a) := by
  intro s b s' hb
  refine loop_value (fun _ _ => True) ?_ trivial hb
  intro a s r s' _ hr
  exact h a s r s' hr

end Ends

/-- The node that is finished last began at the mark. -/
def FromMark (m : Mark) (n : Node) (s : State) : Prop :=
  ∃ kind ns, n = s.node kind m ns

/-- A rule that ends with a node of the tokens since the mark. -/
theorem Ends.finish {m : Mark} {kind : NodeKind} {ns : List Node} :
    Ends (FromMark m) (Grammar.finish kind m ns) := by
  intro s n s' hn
  cases hn
  exact ⟨kind, ns, rfl⟩

-- ======================================================== simple declarations

/-- What a round of a simple declaration ends with, if it is the last. -/
abbrev LastFrom (m : Mark) (r : Round Walk Node) (s : State) : Prop :=
  r.Sat (fun _ => True) (FromMark m · s)

theorem again_ends {m : Mark} {w : Walk} :
    Ends (LastFrom m) (pure (.again w) : Parser (Round Walk Node)) :=
  .pure fun _ => trivial

theorem done_ends {m : Mark} {kind : NodeKind} {ns : List Node} :
    Ends (LastFrom m) (do return .done (← finish kind m ns)) := by
  intro s r s' hr
  cases hr
  exact ⟨kind, ns, rfl⟩

section
variable (g : Inner) (m : Mark) (w : Walk)

theorem punctRound_ends (t : Token) :
    Ends (LastFrom m) (punctRound g m w t) := by
  unfold punctRound
  refine .ite (.bind fun _ => done_ends) (.ite (.bind fun _ => ?_)
    (.ite (.bind fun _ => ?_) (.ite (.ite (.bind fun _ => done_ends)
        (.bind fun _ => .bind fun _ => ?_))
      (.ite (.bind fun _ => ?_) .fail))))
  all_goals exact again_ends

theorem operatorRound_ends (t : Token) :
    Ends (LastFrom m) (operatorRound g m w t) := by
  have hinitializer (isSpecial : Bool) : Ends (LastFrom m) (do
      if isSpecial then
        expectPunct ";" "after function declaration"
        w.function m
      else
        let value ← initializer g
        declaratorEnd
        return w.add value) :=
    .ite (.bind fun _ => done_ends)
      (.bind fun _ => .bind fun _ => again_ends)
  unfold operatorRound
  refine .ite (.bind fun _ => ?_) (.ite (.bind fun _ => ?_)
    (.ite (.ite (.bind fun _ => .bind fun _ => .ite ?_ .failExpected)
        (.bind fun _ => .bind fun _ => .bind fun _ => ?_))
      (.ite (.bind fun _ => ?_) .fail)))
  · dsimp only
    exact .ite (.bind fun _ => hinitializer _) (.bind fun _ => hinitializer _)
  all_goals exact again_ends

theorem addSome_ends (part : Option Node) :
    Ends (LastFrom m) (pure (w.addSome part) : Parser _) := by
  cases part <;> exact again_ends

theorem keywordRound_ends (t : Token) :
    Ends (LastFrom m) (keywordRound g m w t) := by
  unfold keywordRound
  refine .ite (.bind fun _ => addSome_ends m w _)
    (.ite (.bind fun _ => addSome_ends m w _) (.ite (.bind fun _ => ?_)
      (.ite (.bind fun _ => done_ends) (.ite (.bind fun _ => ?_)
        (.ite (.bind fun _ => .bind fun _ => .ite (.bind fun _ => ?_) ?_)
          (.ite .fail (.bind fun _ => ?_)))))))
  all_goals exact again_ends

theorem simpleRound_ends : Ends (LastFrom m) (simpleRound g m w) := by
  refine .bind fun t => ?_
  cases t.kind with
  | endOfFile => exact .failExpected
  | punctuation => exact punctRound_ends g m w t
  | operator => exact operatorRound_ends g m w t
  | keyword => exact keywordRound_ends g m w t
  | identifier => exact .bind fun _ => again_ends
  | _ => exact .fail

end

-- ========================================================= other declarations

/-- A rule whose value has a property of the mark that comes next. -/
def EndsFrom (Q : Mark → Node → State → Prop) (p : Parser Node) : Prop :=
  ∀ s n s', p s = .ok n s' → Q s.mark n s'

/-- A rule that takes the mark first. -/
theorem EndsFrom.mark {Q : Mark → Node → State → Prop}
    {f : Mark → Parser Node} (h : ∀ m, Ends (Q m) (f m)) :
    EndsFrom Q (mark >>= f) :=
  fun s n s' hn => h s.mark s n s' hn

section
variable (g : Inner)

theorem simpleDeclaration_ends : EndsFrom FromMark (simpleDeclaration g) :=
  .mark fun m => .loop fun w => simpleRound_ends g m w

theorem namespaceDefinition_ends :
    EndsFrom FromMark (namespaceDefinition g) :=
  .mark fun _ => .bind fun _ => .bind fun _ => .bind fun _ =>
    .bind fun _ => .bind fun _ => .ite (.bind fun _ => .finish)
      (.bind fun _ => .bind fun _ => .bind fun _ => .finish)

theorem usingDeclaration_ends : EndsFrom FromMark usingDeclaration :=
  .mark fun _ => .bind fun _ => .bind fun _ => .bind fun _ =>
    .ite (.bind fun _ => .finish) (.bind fun _ =>
      .ite (.bind fun _ => .bind fun _ => .bind fun _ => .bind fun _ =>
          .ite .failExpected (.bind fun _ => .finish))
        (.bind fun _ => .finish))

/-- A template begins with that word. -/
theorem templateDeclaration_ends :
    EndsFrom (fun m n s => ∃ ns, n = s.node .templateDeclaration m ns)
      (templateDeclaration g) := by
  refine .mark fun m => .bind fun _ => .bind fun _ => ?_
  have declared : Ends
      (fun n s => ∃ ns, n = s.node .templateDeclaration m ns)
      (do
        let declaration ← g.parse .declaration
        finish .templateDeclaration m [declaration]) := by
    refine .bind fun declaration s n s' hn => ?_
    cases hn
    exact ⟨[declaration], rfl⟩
  have constrained : Ends
      (fun n s => ∃ ns, n = s.node .templateDeclaration m ns)
      (do
        if ← check (·.isKeyword "requires") then requiresClause
        let declaration ← g.parse .declaration
        finish .templateDeclaration m [declaration]) :=
    .bind fun _ => .ite (.bind fun _ => declared) declared
  exact .ite (.bind fun _ => constrained) constrained

theorem linkageSpecification_ends :
    EndsFrom FromMark (linkageSpecification g) :=
  .mark fun _ => .bind fun _ => .bind fun _ => .bind fun _ =>
    .ite (.bind fun _ => .finish) (.bind fun _ => .finish)

theorem staticAssertion_ends : EndsFrom FromMark (staticAssertion g) := by
  refine .mark fun m => .bind fun _ => .bind fun _ => .bind fun _ =>
    .bind fun _ => ?_
  dsimp only
  refine .ite (.bind fun _ => .bind fun _ => ?_) (.bind fun _ => ?_)
  all_goals exact .bind fun _ => .bind fun _ => .finish

theorem asmDeclaration_ends : EndsFrom FromMark asmDeclaration :=
  .mark fun _ => .bind fun _ => .bind fun _ => .bind fun _ =>
    .ite (.bind fun _ => .bind fun _ => .finish) .failExpected

end

-- =============================================== where a declaration begins

section
variable {g : Inner} {tokens : List Token} {s s' : State} {n : Node}

open Written in
/-- A declaration begins with the token that comes next, unless that is a
word in front of a template. -/
theorem declaration_begins (hn : declaration g s = .ok n s') :
    FromMark s.mark n s' ∨
      (s.peek.isKeyword "export" = true ∨ s.peek.isKeyword "extern" = true)
        ∧ (tokenAt 1 s.rest).isKeyword "template" = true
        ∧ ∃ ns, n = s'.node .templateDeclaration s.advance.mark ns := by
  rw [declaration, run_peek, run_peekAt] at hn
  repeat' split at hn
  · rw [run_mark] at hn
    exact .inl (Ends.bind (fun _ => .finish) s n s' hn)
  · exact .inl (namespaceDefinition_ends g s n s' hn)
  · exact .inl (usingDeclaration_ends s n s' hn)
  · obtain ⟨ns, rfl⟩ := templateDeclaration_ends g s n s' hn
    exact .inl ⟨_, ns, rfl⟩
  case _ hword =>
    rw [Bool.and_eq_true, Bool.or_eq_true] at hword
    exact .inr ⟨hword.1, hword.2, templateDeclaration_ends g _ n s' hn⟩
  · exact .inl (linkageSpecification_ends g s n s' hn)
  · exact .inl (staticAssertion_ends g s n s' hn)
  · exact .inl (asmDeclaration_ends s n s' hn)
  · exact .inl (simpleDeclaration_ends g s n s' hn)

theorem FromMark.place {m : Mark} (h : FromMark m n s)
    (hlt : n.first < n.stop) : n.first = m.index ∧ n.stop = s.position := by
  obtain ⟨kind, ns, rfl⟩ := h
  change m.index < max s.position m.index at hlt
  refine ⟨rfl, max_eq_left ?_⟩
  omega

/-- A declaration that is read where no directive comes next leaves no gap
but for a word that leads a template. -/
theorem declaration_tiles {policy : Policy} {room : Nat}
    (hs : s.Along tokens) (hmark : s.mark.index = s.position)
    (hmade : Made tokens s n s')
    (hn : parse policy room .declaration s = .ok n s') :
    (n.first = s.position ∨ Led tokens s.position n)
      ∧ n.stop = s'.position := by
  have hlt := hmade.sound.nonempty
  have hwithin := hmade.sound.placed.within
  have hfirst := hmade.first
  cases room with
  | zero => cases hn
  | succ room =>
    rcases declaration_begins hn with hfrom | ⟨hword, htemplate, ns, rfl⟩
    · have hplace := hfrom.place hlt
      exact ⟨.inl (hplace.1.trans hmark), hplace.2⟩
    · have hadvance := hs.reads
      have hend : s.peek.isEnd = false := by grind
      have hposition := s.advance_position hend
      have hbefore := s.advance.position_le_mark
      have hplace := FromMark.place ⟨_, ns, rfl⟩ hlt
      refine ⟨.inr ⟨rfl, ?_, ⟨s.peek, ?_, hword⟩, ⟨s.advance.peek, ?_, ?_⟩,
        fun i hlo hhi => ?_⟩, hplace.2⟩
      · omega
      · rw [← hmark]
        exact hs.getElem_mark (by omega)
      · rw [hplace.1]
        exact hadvance.along.getElem_mark (by omega)
      · rw [s.advance_peek hend]
        exact htemplate
      · exact hadvance.along.isDirective_of_lt_mark (by omega)
          (hplace.1 ▸ hhi)

end

-- ================================================================= the unit

section
variable {tokens : List Token} {lo : Nat}

/-- The directives at the front of the tokens tile what they cover. -/
theorem directives_tiled (recovered : Bool) {done : List Node} {index : Nat}
    {ts : List Token} (hdone : Tiled tokens lo done.reverse index) :
    let r := directives recovered done index ts
    Tiled tokens lo r.1.reverse r.2.1 := by
  induction ts generalizing done index with
  | nil => exact hdone
  | cons t ts ih =>
    unfold directives
    split
    · exact ih (hdone.push (.inl rfl) (Nat.lt_succ_self index))
    · exact hdone

/-- The declarations of a strict reading that comes to the end tile what is
in front of it. -/
theorem gather_tiled {room : Nat} (done : List Node) (start : State)
    (hstart : start.Along tokens)
    (hdone : Tiled tokens lo done.reverse start.position) :
    let r := gather .strict none (parse .strict room .declaration)
      tokens.length done start
    r.error = none → Tiled tokens lo r.items r.state.mark.index := by
  have hrow {done : List Node} {start s : State}
      (hs : (start.takeDirectives done).2 = s)
      (hdone : Tiled tokens lo done.reverse start.position) :
      Tiled tokens lo (start.takeDirectives done).1.reverse s.position
        ∧ s.mark.index = s.position := by
    subst hs
    exact ⟨directives_tiled start.recovered hdone,
      start.takeDirectives_mark done⟩
  refine gather_along (motive := fun done start r =>
      Tiled tokens lo done.reverse start.position →
      r.error = none → Tiled tokens lo r.items r.state.mark.index)
    (fun s hs => (parse_yields tokens .strict room .declaration s hs).leads hs)
    .strict none ?closed ?read ?failed nofun done start hstart hdone
  case closed =>
    intro done start s _ hs _ hdone _
    obtain ⟨htiled, hmark⟩ := hrow hs hdone
    exact hmark ▸ htiled
  case read =>
    intro done start s node after r hpass hnode _ ih hdone
    have hs := hpass.leads.along
    obtain ⟨htiled, hmark⟩ := hrow hpass.front hdone
    have hmade :=
      (parse_yields tokens .strict room .declaration s hs).value hnode
    obtain ⟨hfirst, hstop⟩ := declaration_tiles hs hmark hmade hnode
    rw [hmade.pass, after.settle_position, ← hstop] at ih
    exact ih (htiled.push hfirst hmade.sound.nonempty)
  case failed =>
    intro done start s e after _ _ _ _ _
    exact nofun

/-- The tokens in front of the only end lie in front of the place where a
reading comes to it. -/
theorem State.Along.length_le_mark {ts : List Token} {last : Token} {s : State}
    (hs : s.Along (ts ++ [last])) (hts : ∀ t ∈ ts, t.isEnd = false)
    (hend : s.peek.isEnd = true) : ts.length ≤ s.mark.index := by
  by_contra hlt
  have hget := hs.getElem_mark (by
    rw [List.length_append]
    omega)
  rw [List.getElem?_append_left (by omega)] at hget
  rw [hts _ (List.mem_of_getElem? hget)] at hend
  cases hend

end

end Grammar

open Grammar

/-- In a reading without an error each token in front of the only end
belongs to one child of the root and no other, except for a word `export`
or `extern` in front of a template, and directives between the two: these
belong to none. -/
theorem clean_covers (policy : Policy) (ts : List Token) (last : Token)
    (hts : ∀ t ∈ ts, t.isEnd = false)
    (hclean : (ParseOutcome.ofTokens policy (ts ++ [last])).errors = []) :
    let tokens := ts ++ [last]
    let children := (ParseOutcome.ofTokens policy tokens).tree.children
    ∀ i < ts.length, children.countP (·.covers i) = 1
      ∨ children.countP (·.covers i) = 0
        ∧ ∃ n ∈ children, ∃ start,
          Led tokens start n ∧ start ≤ i ∧ i < n.first := by
  intro tokens children i hi
  obtain ⟨hnone, hstrict⟩ := unit_strict hclean
  obtain ⟨s, -, hs, hend⟩ := unit_built policy tokens
  obtain ⟨rfl, hend⟩ := hend hnone
  have htiled : Tiled tokens 0 (unitSequence policy tokens).items
      (unitSequence policy tokens).state.mark.index := by
    rw [hstrict] at hnone ⊢
    exact gather_tiled [] (.start tokens) (.start tokens) (.nil 0) hnone
  exact htiled.count (Nat.zero_le i)
    (Nat.lt_of_lt_of_le hi (hs.length_le_mark hts hend))

open Written Lexeme in
/-- In `int x ; extern template class S < int > ;` the tokens but `extern`
belong to two declarations. -/
theorem clean_covers_template :
    let ts := heap [keyword "int", name "x", punct ";", keyword "extern",
      keyword "template", keyword "class", name "S", operator "<",
      keyword "int", operator ">", punct ";"]
    let tokens := ts ++ [.endOfInput]
    let children := (ParseOutcome.ofTokens .strict tokens).tree.children
    (∀ t ∈ ts, t.isEnd = false)
      ∧ (ParseOutcome.ofTokens .strict tokens).errors = []
      ∧ ∀ i < 11, children.countP (·.covers i) = 1
        ∨ children.countP (·.covers i) = 0
          ∧ ∃ n ∈ children, ∃ start,
            Led tokens start n ∧ start ≤ i ∧ i < n.first := by
  intro ts tokens children
  have unended : ∀ t ∈ ts, t.isEnd = false := by decide +kernel
  have clean : (ParseOutcome.ofTokens .strict tokens).errors = [] := by
    decide +kernel
  exact ⟨unended, clean, clean_covers .strict ts .endOfInput unended clean⟩

open Written Lexeme in
/-- Not each token is covered: in `extern template class S < int > ;`, which
is read without an error, the first one lies in no child of the root. -/
theorem clean_not_covers :
    ¬ ∀ (policy : Policy) (ts : List Token) (last : Token),
      last.isEnd = true → (∀ t ∈ ts, t.isEnd = false) →
      (ParseOutcome.ofTokens policy (ts ++ [last])).errors = [] →
      ∀ i < ts.length,
        (ParseOutcome.ofTokens policy (ts ++ [last])).tree.children.countP
          (·.covers i) = 1 := by
  intro h
  have hcount := h .strict (heap [keyword "extern", keyword "template",
    keyword "class", name "S", operator "<", keyword "int", operator ">",
    punct ";"]) .endOfInput rfl (by decide +kernel) (by decide +kernel) 0
    (by decide)
  revert hcount
  decide +kernel

end FrontEnd
