/-
Sequences, one item at a time: what the steps between the items leave as
it is, the equation of a pass (`gather_eq`), the two ways in which a
sequence in brackets ends, and the induction over the passes, each of which
reads a token that is there. Only a strict sequence ends with an error
(`gather_tolerant`).
-/
import FrontEnd.Grammar.Sequence

namespace FrontEnd.Grammar

-- =========================================================== single steps

theorem State.advance_phase (s : State) : s.advance.phase = s.phase := by
  unfold State.advance
  split
  · rfl
  · split <;> rfl

theorem State.advance_recovered (s : State) :
    s.advance.recovered = s.recovered := by
  unfold State.advance
  split
  · rfl
  · split <;> rfl

theorem State.advance_errors (s : State) :
    s.advance.errors = s.errors := by
  unfold State.advance
  split
  · rfl
  · split <;> rfl

theorem State.settle_position (s : State) :
    s.settle.position = s.position := by
  unfold settle
  split <;> rfl

theorem State.settle_errors (s : State) : s.settle.errors = s.errors := by
  unfold settle
  split <;> rfl

theorem State.pass_phase (s : State) (position : Nat) :
    (s.pass position).phase = s.phase := by
  unfold pass
  split
  · exact s.advance_phase
  · rfl

theorem State.pass_errors (s : State) (position : Nat) :
    (s.pass position).errors = s.errors := by
  unfold pass
  split
  · exact s.advance_errors
  · rfl

/-- Where a token was read, none is read in its place. -/
theorem State.pass_of_lt {s : State} {position : Nat}
    (h : position < s.position) : s.pass position = s :=
  if_neg (Nat.not_le_of_lt h)

-- ================================================================= passes

/-- A sequence from behind an item or a recovery, if that read a
token. -/
def proceed (policy : Policy) (closer : Option String)
    (item : Parser Node) (bound position : Nat) (done : List Node)
    (after : State) : Gathered :=
  if position < after.position ∧ after.position ≤ bound then
    gather policy closer item bound done after
  else ⟨done.reverse, after, none⟩

/-- One item of a sequence, and what comes behind it. -/
theorem gather_eq (policy : Policy) (closer : Option String)
    (item : Parser Node) (bound : Nat) (done : List Node)
    (start : State) :
    gather policy closer item bound done start =
      let s := (start.takeDirectives done).2
      let done := (start.takeDirectives done).1
      if endsSequence closer s.peek then ⟨done.reverse, s, none⟩
      else match item s, policy with
        | .ok node after, _ =>
          proceed policy closer item bound start.position (node :: done)
            (after.settle.pass s.position)
        | .error e after, .strict => ⟨done.reverse, after, some e⟩
        | .error e after, .tolerant =>
          proceed policy closer item bound start.position done
            ((after.recover s.depth e).pass s.position) := by
  rw [gather]
  dsimp only
  split
  · rfl
  · cases item (start.takeDirectives done).2 with
    | ok node after => rfl
    | error e after => cases policy <;> rfl

section
variable {policy : Policy} {closer : String} {item : Parser Node}
variable {items : List Node} {s s' : State}

/-- Items that end in front of the closer. -/
theorem sequence_ok
    (h : gather policy (some closer) item s.size [] s = ⟨items, s', none⟩) :
    sequence policy closer item s = .ok items s' := by
  unfold sequence
  rw [h]

/-- Items that end with an error. -/
theorem sequence_error {e : SyntaxError}
    (h : gather policy (some closer) item s.size [] s
      = ⟨items, s', some e⟩) :
    sequence policy closer item s = .error e s' := by
  unfold sequence
  rw [h]

end

/-- What holds of a sequence if it holds of what comes behind each of
its items. -/
theorem gather_induction {motive : List Node → State → Prop} (bound : Nat)
    (step : ∀ done start, (∀ done' after, start.position < after.position →
      after.position ≤ bound → motive done' after) → motive done start)
    (done : List Node) (start : State) : motive done start := by
  induction hn : bound - start.position using Nat.strongRecOn
    generalizing done start with
  | _ n ih =>
    refine step done start fun done' after hlt hle => ?_
    exact ih (bound - after.position) (by omega) done' after rfl

/-- A tolerant sequence does not end with an error. -/
theorem gather_tolerant {closer : Option String} {item : Parser Node}
    {bound : Nat} (done : List Node) (start : State) :
    (gather .tolerant closer item bound done start).error = none := by
  induction done, start using gather_induction bound with
  | step done start ih =>
    have goOn (done' : List Node) (after : State) :
        (proceed .tolerant closer item bound start.position done'
          after).error = none := by
      unfold proceed
      split
      case isTrue hgo => exact ih _ _ hgo.1 hgo.2
      case isFalse => rfl
    rw [gather_eq]
    dsimp only
    split
    · rfl
    · cases item (start.takeDirectives done).2 with
      | ok node after => exact goOn _ _
      | error e after => exact goOn _ _

end FrontEnd.Grammar
