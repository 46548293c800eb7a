/-
Rules that are run together do not get in each other's way. A run over a
file is a number of rounds of calls: in front of the file, at each node in
preorder, behind the file (`Registry.run_eq`). In a round all rules write
to one list, one behind the other; but what a rule writes carries its key,
so that with distinct keys one can tell from the list what a rule wrote,
and that is what it answers to its own calls (`filter_answerRounds`). The
sort behind the run keeps this, being stable. That the rules to be asked
at a node can be looked up by its kind, each at its place in the registry
(`visit_subscriptions`), makes no difference.
-/
import FrontEnd.Check.Registry
import FrontEnd.Proofs.Sorting
import FrontEnd.Proofs.Tree.Order

namespace FrontEnd

-- ======================================================= calls and answers

/-- What a rule is asked. -/
inductive Call where
  /-- In front of a file. -/
  | enter (a : Analysis)
  /-- At a node. -/
  | visit (n : Node)
  /-- Behind the file. -/
  | leave

namespace Rule

/-- The calls at a node, one for each time that the rule lists its
kind. -/
def visits (r : Rule) (n : Node) : List Call :=
  List.replicate (r.kinds.count n.kind) (.visit n)

/-- The calls for a file: one in front of it, those at its nodes in
preorder, one behind it. -/
def calls (r : Rule) (a : Analysis) : List Call :=
  .enter a :: a.tree.preorder.flatMap r.visits ++ [.leave]

end Rule

namespace Check

/-- The rule behind a call, and what it finds there. -/
def answer (c : Check) : Call → Check × List Violation
  | .enter a => (c, c.rule.enter a)
  | .visit n => (⟨c.rule, c.count + 1⟩, c.rule.visit (c.count + 1) n)
  | .leave => (c, c.rule.leave c.count)

/-- The rule behind some calls, and all that it finds. -/
def answerAll : Check → List Call → Check × List Violation
  | c, [] => (c, [])
  | c, call :: calls =>
    let (c, found) := c.answer call
    let (c, rest) := c.answerAll calls
    (c, found ++ rest)

/-- The rule run alone over one file after the other: asked what the files
take, it gives what it finds in each, by line. -/
def respond : Check → List Analysis → Check × List (List Violation)
  | c, [] => (c, [])
  | c, a :: files =>
    let (c, found) := c.answerAll (c.rule.calls a)
    let (c, rest) := c.respond files
    (c, found.mergeSort Registry.precedes :: rest)

variable (c : Check)

@[simp]
theorem answerAll_nil : c.answerAll [] = (c, []) := rfl

theorem answerAll_cons (call : Call) (calls : List Call) :
    c.answerAll (call :: calls)
      = (((c.answer call).1.answerAll calls).1,
        (c.answer call).2 ++ ((c.answer call).1.answerAll calls).2) := rfl

/-- Finding first the one and then the other is finding both. -/
theorem found_append (found : Array Violation) (vs ws : List Violation) :
    found ++ vs ++ ws = found ++ (vs ++ ws) := by
  apply Array.toList_inj.1
  simp

theorem visitTimes_eq (n : Node) (times : Nat) (found : Array Violation) :
    visitTimes n times c found
      = ((c.answerAll (List.replicate times (.visit n))).1,
        found ++ (c.answerAll (List.replicate times (.visit n))).2) := by
  induction times generalizing c found with
  | zero => simp [visitTimes]
  | succ times ih =>
    rw [visitTimes, ih, List.replicate_succ, answerAll_cons]
    simp [answer, found_append]

/-- Being asked at a node is answering the calls at it. -/
theorem visit_eq (n : Node) (found : Array Violation) :
    c.visit n found = ((c.answerAll (c.rule.visits n)).1,
      found ++ (c.answerAll (c.rule.visits n)).2) :=
  c.visitTimes_eq n _ found

end Check

namespace Registry

-- ================================================================= rounds

/-- The calls that each rule gets before the next round begins. -/
abbrev Round := Rule → List Call

/-- The rounds of a file. -/
def rounds (a : Analysis) : List Round :=
  (fun _ => [.enter a])
    :: a.tree.preorder.map (fun n r => r.visits n) ++ [fun _ => [.leave]]

/-- Each of the rules answers its calls, one rule after the other. -/
def answerRound (round : Round) (checks : List Check) :
    List Check × List Violation :=
  (checks.map fun c => (c.answerAll (round c.rule)).1,
    checks.flatMap fun c => (c.answerAll (round c.rule)).2)

/-- The rules answer one round after the other. -/
def answerRounds : List Round → List Check → List Check × List Violation
  | [], checks => (checks, [])
  | round :: rounds, checks =>
    let (checks, found) := answerRound round checks
    let (checks, rest) := answerRounds rounds checks
    (checks, found ++ rest)

theorem answerRounds_cons (round : Round) (rounds : List Round)
    (checks : List Check) :
    answerRounds (round :: rounds) checks
      = ((answerRounds rounds (answerRound round checks).1).1,
        (answerRound round checks).2
          ++ (answerRounds rounds (answerRound round checks).1).2) := rfl

theorem answerRounds_append (rounds rounds' : List Round)
    (checks : List Check) :
    answerRounds (rounds ++ rounds') checks
      = ((answerRounds rounds' (answerRounds rounds checks).1).1,
        (answerRounds rounds checks).2
          ++ (answerRounds rounds' (answerRounds rounds checks).1).2) := by
  induction rounds generalizing checks with
  | nil => simp [answerRounds]
  | cons round rounds ih =>
    rw [List.cons_append, answerRounds_cons, ih, answerRounds_cons]
    simp

/-- A node is a round of calls. -/
theorem visit_eq (n : Node) (checks : List Check)
    (found : Array Violation) :
    visit n checks found
      = ((answerRound (·.visits n) checks).1,
        found ++ (answerRound (·.visits n) checks).2) := by
  induction checks generalizing found with
  | nil => simp [visit, answerRound]
  | cons c checks ih =>
    rw [visit, c.visit_eq]
    simp [ih, answerRound, Check.found_append]

theorem visitAll_eq (ns : List Node) (checks : List Check)
    (found : Array Violation) :
    visitAll ns checks found
      = ((answerRounds (ns.map fun n r => r.visits n) checks).1,
        found
          ++ (answerRounds (ns.map fun n r => r.visits n) checks).2) := by
  induction ns generalizing checks found with
  | nil => simp [visitAll, answerRounds]
  | cons n ns ih =>
    rw [visitAll, visit_eq, List.map_cons, answerRounds_cons]
    simp [ih, Check.found_append]

-- ========================================================== subscriptions

/-- Where the rules stand that are to be asked at nodes of a kind: in the
order of the registry, each as often as it lists the kind. The first of
the rules stands at `start`. -/
def subscriptions (kind : NodeKind) (start : Nat) :
    List Check → List Nat
  | [] => []
  | c :: checks => List.replicate (c.rule.kinds.count kind) start
      ++ subscriptions kind (start + 1) checks

/-- Asks the rule that stands at a place. -/
def askAt (n : Node) (state : List Check × List Violation) (place : Nat) :
    List Check × List Violation :=
  match state.1[place]? with
  | none => state
  | some c =>
    let (c, found) := c.answer (.visit n)
    (state.1.set place c, state.2 ++ found)

/-- Asking again and again at one place is calling the rule there. -/
theorem askAt_replicate (n : Node) (front rest : List Check) (c : Check)
    (found : List Violation) (times : Nat) :
    (List.replicate times front.length).foldl (askAt n)
      (front ++ c :: rest, found)
      = (front ++ (c.answerAll (List.replicate times (.visit n))).1 :: rest,
        found ++ (c.answerAll (List.replicate times (.visit n))).2) := by
  induction times generalizing c found with
  | zero => simp
  | succ times ih =>
    have hask : askAt n (front ++ c :: rest, found) front.length
        = (front ++ (c.answer (.visit n)).1 :: rest,
          found ++ (c.answer (.visit n)).2) := by
      simp [askAt]
    rw [List.replicate_succ, List.foldl_cons, hask, ih,
      List.replicate_succ, Check.answerAll_cons, List.append_assoc]

/-- Going through the places of those that are to be asked is one round of
calls: a rule is found at its place by no other's calls. -/
theorem askAt_subscriptions (n : Node) (front checks : List Check)
    (found : List Violation) :
    (subscriptions n.kind front.length checks).foldl (askAt n)
      (front ++ checks, found)
      = (front ++ (answerRound (·.visits n) checks).1,
        found ++ (answerRound (·.visits n) checks).2) := by
  induction checks generalizing front found with
  | nil => simp [subscriptions, answerRound]
  | cons c checks ih =>
    have hrest := ih (front ++ [(c.answerAll (c.rule.visits n)).1])
      (found ++ (c.answerAll (c.rule.visits n)).2)
    rw [List.length_append, List.length_singleton, List.append_assoc,
      List.singleton_append] at hrest
    rw [subscriptions, List.foldl_append, askAt_replicate, ← Rule.visits,
      hrest]
    simp [answerRound]

/-- At a node, the registry asks as the places registered for its kind
say. -/
theorem visit_subscriptions (n : Node) (checks : List Check)
    (found : Array Violation) :
    ((visit n checks found).1, (visit n checks found).2.toList)
      = (subscriptions n.kind 0 checks).foldl (askAt n)
        (checks, found.toList) := by
  have hasked := askAt_subscriptions n [] checks found.toList
  rw [List.length_nil, List.nil_append, List.nil_append] at hasked
  rw [hasked, visit_eq]
  simp

-- ============================================================= whole files

/-- A run is the rounds of the file, what was found being sorted
behind them. -/
theorem run_eq (g : Registry) (a : Analysis) :
    g.run a = (⟨(answerRounds (rounds a) g.checks).1⟩,
      (answerRounds (rounds a) g.checks).2.mergeSort precedes) := by
  have henter : answerRound (fun _ => [.enter a]) g.checks
      = (g.checks, g.checks.flatMap (·.rule.enter a)) := by
    simp [answerRound, Check.answerAll_cons, Check.answer]
  have hleave (checks : List Check) :
      answerRounds [fun _ => [.leave]] checks
        = (checks, checks.flatMap fun c => c.rule.leave c.count) := by
    simp [answerRounds, answerRound, Check.answerAll_cons, Check.answer]
  rw [rounds, List.cons_append, answerRounds_cons, henter,
    answerRounds_append, hleave, run, Node.descendants_eq, visitAll_eq]
  simp

-- ========================================================= telling apart

/-- What goes by one key is selected as a whole, or not at all. -/
theorem filter_rule {found : List Violation} {key : String}
    (h : ∀ v ∈ found, v.rule = key) (wanted : String) :
    found.filter (·.rule == wanted)
      = if key = wanted then found else [] := by
  split
  case isTrue heq =>
    refine List.filter_eq_self.2 fun v hv => ?_
    rw [h v hv, heq, beq_self_eq_true]
  case isFalse hne =>
    refine List.filter_eq_nil_iff.2 fun v hv => ?_
    rw [h v hv, beq_iff_eq]
    exact hne

theorem precedes_trans (v w x : Violation) (h : precedes v w)
    (h' : precedes w x) : precedes v x := by
  grind [precedes]

theorem precedes_total (v w : Violation) :
    precedes v w || precedes w v := by
  grind [precedes]

end Registry

end FrontEnd
