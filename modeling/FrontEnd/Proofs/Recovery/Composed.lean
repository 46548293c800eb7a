/-
How rules are put together.

A rule answers a question about the state, reads the next token, gives up,
or goes on behind another rule or round after round. Items that are
gathered are special: wherever a rule gathers items it goes on to read
their closer (`Composed.enclosed`), and of the items without the closer
less is true than of whole rules. They may end at a token that was reported
already; behind the closer all that was reported lies behind the reading.

What is kept by these steps is kept by every rule of the grammar. So an
invariant of the reading is proved by one induction over `Composed`, and
not along the text of each rule once more.
-/
import FrontEnd.Proofs.Course.Basic

namespace FrontEnd.Grammar

/-- Rules that are put together from single steps. -/
inductive Composed (policy : Policy) : {α : Type} → Parser α → Prop
  /-- A question about the state. -/
  | look {α : Type} (f : State → α) :
    Composed policy (fun s => .ok (f s) s : Parser α)
  | advance : Composed policy advance
  | fail {α : Type} (problem : SyntaxProblem) :
    Composed policy (fail problem : Parser α)
  | bind {α β : Type} {p : Parser α} {f : α → Parser β} :
    Composed policy p → (∀ a, Composed policy (f a)) →
    Composed policy (p >>= f)
  | loop {α β : Type} {round : α → Parser (Round α β)} :
    (∀ a, Composed policy (round a)) → ∀ a, Composed policy (loop round a)
  /-- Items with the bracket that closes them. -/
  | enclosed {α : Type} {closer context : String} {item : Parser Node}
    {f : List Node → Parser α} :
    Composed policy item → (∀ items, Composed policy (f items)) →
    Composed policy (sequence policy closer item >>= fun items =>
      expectPunct closer context >>= fun _ => f items)

namespace Composed

variable {policy : Policy} {α β : Type}

-- ========================================================== single steps

theorem pure (a : α) : Composed policy (pure a : Parser α) :=
  look fun _ => a

theorem finish (kind : NodeKind) (m : Mark) (children : List Node) :
    Composed policy (finish kind m children) :=
  look fun s => s.node kind m children

theorem failExpected (wanted : String) :
    Composed policy (failExpected wanted : Parser α) :=
  fail _

theorem ite {c : Prop} [Decidable c] {p p' : Parser α}
    (yes : Composed policy p) (no : Composed policy p') :
    Composed policy (if c then p else p') := by
  split
  · exact yes
  · exact no

/-- A question, and what depends on the answer. -/
theorem ask {v : State → α} {f : α → Parser β}
    (k : ∀ a, Composed policy (f a)) :
    Composed policy ((fun s => .ok (v s) s : Parser α) >>= f) :=
  (look v).bind k

/-- The next token, and what comes behind it. -/
theorem read {f : Unit → Parser β} (k : Composed policy (f ())) :
    Composed policy (Grammar.advance >>= f) :=
  advance.bind fun _ => k

theorem accept (q : Token → Bool) : Composed policy (accept q) := by
  rw [accept_eq]
  exact ask fun _ => ite (read (pure _)) (pure _)

theorem expect (q : Token → Bool) (wanted : String) :
    Composed policy (expect q wanted) := by
  rw [expect_eq]
  exact ask fun _ => ite advance (failExpected _)

/-- A rule that has no answer, and what comes behind it. -/
theorem seq {p : Parser Unit} {f : Unit → Parser β}
    (h : Composed policy p) (k : Composed policy (f ())) :
    Composed policy (p >>= f) :=
  h.bind fun _ => k

/-- A token that may come, and what comes behind it. -/
theorem option {q : Token → Bool} {f : Bool → Parser β}
    (k : ∀ b, Composed policy (f b)) :
    Composed policy (Grammar.accept q >>= f) :=
  (accept q).bind k

/-- A token that has to come, and what comes behind it. -/
theorem need {q : Token → Bool} {wanted : String} {f : Unit → Parser β}
    (k : Composed policy (f ())) :
    Composed policy (Grammar.expect q wanted >>= f) :=
  (expect q wanted).seq k

theorem skipWhile (q : Token → Bool) : Composed policy (skipWhile q) :=
  loop (fun _ => option fun _ => ite (pure _) (pure _)) ()

theorem commaSeparated {item : Parser α} (h : Composed policy item) :
    Composed policy (commaSeparated item) :=
  loop (fun _ => h.bind fun _ => option fun _ => ite (pure _) (pure _)) []

end Composed

-- ================================================================ groups

section

variable {policy : Policy}

theorem skipGroup_composed (context : String) :
    Composed policy (skipGroup context) := by
  unfold skipGroup
  refine .ask fun opener => .ask fun outer => .read (.loop (fun _ => ?_) _)
  exact .ask fun _ => .ite (.pure _)
    (.ask fun _ => .ite (.failExpected _) (.read (.pure _)))

theorem skipTemplateArguments_composed :
    Composed policy skipTemplateArguments := by
  unfold skipTemplateArguments
  refine .read (.loop (fun angles => .ask fun t => ?_) _)
  refine .ite (.pure _) (.ite ?_ (.ite (.failExpected _) ?_))
  · exact (skipGroup_composed _).seq (.pure _)
  · exact .read (.pure _)

theorem skipToSemicolon_composed (context : String) :
    Composed policy (skipToSemicolon context) := by
  unfold skipToSemicolon
  refine .loop (fun _ => .ask fun t => ?_) _
  refine .ite (.read (.pure _)) (.ite ?_ (.ite (.failExpected _) ?_))
  · exact (skipGroup_composed _).seq (.pure _)
  · exact .read (.pure _)

theorem skipAttributes_composed : Composed policy skipAttributes := by
  unfold skipAttributes
  refine .loop (fun _ => .ask fun _ => .ask fun _ => .ite ?_ (.pure _)) _
  exact (skipGroup_composed _).seq (.pure _)

-- ================================================================= names

theorem operatorName_composed : Composed policy operatorName := by
  unfold operatorName
  refine .read (.ask fun t => .ask fun next => ?_)
  refine .ite (.read .advance) (.ite .advance (.ite ?_ (.ite ?_
    (.failExpected _))))
  · exact .read (.expect _ _)
  · exact .read (.skipWhile _)

theorem nameTail_composed : Composed policy nameTail := by
  unfold nameTail
  refine .ask fun _ => .ask fun _ => .ite ?_ (.accept _)
  exact skipTemplateArguments_composed.seq (.accept _)

theorem nameRound_composed : Composed policy nameRound := by
  unfold nameRound
  have tail : Composed policy (do
      if ← nameTail then return .again () else return .done () :
      Parser (Round Unit Unit)) :=
    nameTail_composed.bind fun _ => .ite (.pure _) (.pure _)
  refine .ask fun t => .ite (.read (.pure _)) (.ite (.read tail)
    (.ite (operatorName_composed.seq tail) (.ite ?_ ?_)))
  · exact .read (.need tail)
  · exact .seq (.failExpected _) tail

theorem idExpression_composed : Composed policy idExpression := by
  unfold idExpression
  refine .ask fun m => .option fun _ => ?_
  exact .seq (.loop (fun _ => nameRound_composed) _) (.finish _ _ _)

end

end FrontEnd.Grammar
