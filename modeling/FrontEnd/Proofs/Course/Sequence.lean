/-
The course of a sequence. Every pass that goes on reads a token: an item
is a node, which covers one, and where skipping bad input stops at once
the token that comes next is read all the same. It is neither the end nor
the closer, for then there had been no pass.

So a sequence never comes to its bound. A proof about one goes along its
passes (`gather_along`) and need not say that they go on.
-/
import Mathlib.Data.List.DropRight
import FrontEnd.Proofs.Course.Basic
import FrontEnd.Proofs.Sequence

namespace FrontEnd.Grammar

open EStateM (Result)

variable {tokens : List Token}

-- =============================================================== skipping

/-- Skipping passes over tokens that are not the end. -/
theorem resume_split (base index depth : Nat) (ts : List Token) :
    ∃ before, ts = before ++ (resume base index depth ts).2.2
      ∧ (resume base index depth ts).1 = index + before.length
      ∧ ∀ t ∈ before, t.isEnd = false := by
  have stop (i d : Nat) (ts : List Token) : ∃ before,
      ts = before ++ (i, d, ts).2.2 ∧ i = i + before.length
        ∧ ∀ t ∈ before, t.isEnd = false := ⟨[], rfl, rfl, nofun⟩
  induction ts generalizing index depth with
  | nil => exact stop index depth []
  | cons t ts ih =>
    have one (d : Nat) (h : t.isEnd = false) : ∃ before,
        t :: ts = before ++ (index + 1, d, ts).2.2
          ∧ index + 1 = index + before.length
          ∧ ∀ u ∈ before, u.isEnd = false :=
      ⟨[t], rfl, rfl, by simpa using h⟩
    have more (d : Nat) (h : t.isEnd = false) : ∃ before,
        t :: ts = before ++ (resume base (index + 1) d ts).2.2
          ∧ (resume base (index + 1) d ts).1 = index + before.length
          ∧ ∀ u ∈ before, u.isEnd = false := by
      obtain ⟨before, hts, hindex, hend⟩ := ih (index + 1) d
      refine ⟨t :: before, ?_, ?_, ?_⟩
      · rw [List.cons_append, ← hts]
      · rw [hindex, List.length_cons]
        omega
      · rintro u (_ | ⟨_, hu⟩)
        · exact h
        · exact hend u hu
    unfold resume
    split
    · exact stop index depth _
    · rename_i h
      rw [Bool.not_eq_true] at h
      repeat' split
      all_goals first
        | exact stop index depth _
        | exact one _ h
        | exact more _ h

namespace State.Along

variable {s : State} (hs : s.Along tokens)
include hs

theorem recover (base : Nat) (e : SyntaxError) :
    Leads tokens s (s.recover base e) := by
  obtain ⟨before, hrest, hindex, hend⟩ :=
    resume_split base s.position s.depth s.rest
  refine .mk' hs (hs.skip _ _ hrest hend rfl hindex rfl) ?_
  show s.position ≤ (resume base s.position s.depth s.rest).1
  omega

theorem settle : Leads tokens s s.settle := by
  unfold State.settle
  split
  · exact .mk' hs (hs.congr rfl rfl rfl) (Nat.le_refl _)
  · exact .refl hs

theorem pass (position : Nat) : Leads tokens s (s.pass position) := by
  unfold State.pass
  split
  · exact hs.reads.toLeads
  · exact .refl hs

end State.Along

-- ============================================================= directives

theorem directives_significant (recovered : Bool) (done : List Node)
    (index : Nat) (ts : List Token) :
    (directives recovered done index ts).2 = significant index ts := by
  induction ts generalizing done index with
  | nil => rfl
  | cons t ts ih =>
    unfold directives significant
    split
    · exact ih _ _
    · rfl

/-- Behind the directives, the reading stands at the next token. -/
theorem State.takeDirectives_state (s : State) (done : List Node) :
    (s.takeDirectives done).2 = { s with
      rest := s.rest.dropWhile Token.isDirective
      position := s.mark.index } := by
  have h := directives_significant s.recovered done s.position s.rest
  rw [significant_eq] at h
  unfold takeDirectives
  rw [mark_index]
  generalize FrontEnd.Grammar.directives s.recovered done s.position s.rest
    = r at h
  obtain ⟨nodes, index, rest⟩ := r
  cases h
  rfl

theorem State.takeDirectives_peek (s : State) (done : List Node) :
    (s.takeDirectives done).2.peek = s.peek := by
  rw [takeDirectives_state, peek_eq, peek_eq]
  dsimp only
  rw [List.dropWhile_idempotent]

/-- No directives come next any more. -/
theorem State.takeDirectives_mark (s : State) (done : List Node) :
    (s.takeDirectives done).2.mark.index
      = (s.takeDirectives done).2.position := by
  rw [mark_index, takeDirectives_state]
  have hsplit := congrArg List.length (List.takeWhile_append_dropWhile
    (p := Token.isDirective) (l := s.rest.dropWhile Token.isDirective))
  rw [List.dropWhile_idempotent, List.length_append] at hsplit
  dsimp only
  omega

/-- Reading the directives that come next. -/
theorem State.Along.directives {s : State} (hs : s.Along tokens)
    (done : List Node) : Leads tokens s (s.takeDirectives done).2 := by
  rw [takeDirectives_state]
  refine .mk' hs (hs.skip (s.rest.takeWhile Token.isDirective) _ ?_ ?_ rfl
    s.mark_index rfl) s.position_le_mark
  · exact List.takeWhile_append_dropWhile.symm
  · intro t ht
    have := List.mem_takeWhile_imp ht
    grind

/-- The directives at the front of the tokens become sound nodes. -/
theorem directives_row {lo : Nat} (recovered : Bool) {done : List Node}
    {index : Nat} {ts : List Token} (hts : ts = tokens.drop index)
    (hlo : lo ≤ index) (hdone : Row tokens lo done.reverse index) :
    let r := directives recovered done index ts
    Row tokens lo r.1.reverse r.2.1 := by
  induction ts generalizing done index with
  | nil => exact hdone
  | cons t ts ih =>
    unfold directives
    split
    case isFalse => exact hdone
    case isTrue h =>
      have hget : tokens[index]? = some t := by
        rw [← Nat.add_zero index, ← List.getElem?_drop, ← hts]
        rfl
      have hlt : index < tokens.length :=
        (List.getElem?_eq_some_iff.1 hget).1
      have hsound : Node.Sound tokens
          { kind := .preprocessorDirective, first := index
            stop := index + 1, location := t.location
            recovered := recovered, children := [] } := by
        refine .mk ⟨Nat.lt_succ_self _, hlt, ?_, fun _ _ _ => ⟨rfl, rfl⟩⟩
          ⟨nofun, .nil⟩ nofun nofun
        rw [hget]
        rfl
      have hrest : ts = tokens.drop (index + 1) := by
        rw [← List.drop_drop, ← hts]
        rfl
      exact ih hrest (by omega)
        (hdone.push hsound hlo (Nat.le_refl _) (Nat.le_refl _))

theorem takeDirectives_row {lo : Nat} {done : List Node} {start s : State}
    (hstart : start.Along tokens) (hs : (start.takeDirectives done).2 = s)
    (hlo : lo ≤ start.position)
    (hdone : Row tokens lo done.reverse start.position) :
    Row tokens lo (start.takeDirectives done).1.reverse s.position := by
  rw [← hs]
  exact directives_row start.recovered hstart.rest hlo hdone

-- ================================================================= passes

/-- A pass has read a token, if one was there. -/
theorem State.Along.passed {s after : State} (hs : s.Along tokens)
    (hafter : Leads tokens s after) (hend : s.peek.isEnd = false) :
    s.position < (after.pass s.position).position := by
  unfold State.pass
  split
  case isFalse h => exact Nat.lt_of_not_le h
  case isTrue h =>
    -- nothing was read, so that the same token comes next
    have hposition : after.position = s.position := by
      have := hafter.position
      omega
    have hrest : after.rest = s.rest := by
      rw [hafter.along.rest, hs.rest, hposition]
    have hpeek : after.peek = s.peek := by
      rw [State.peek_eq, State.peek_eq, hrest]
    have := hafter.along.reads.moved (hpeek ▸ hend)
    have := after.position_le_mark
    omega

theorem not_end_of_endsSequence {closer : Option String} {t : Token}
    (h : endsSequence closer t = false) : t.isEnd = false := by
  rw [endsSequence, Bool.or_eq_false_iff] at h
  exact h.1

/-- An item leads on from where it begins, whatever comes of it. -/
theorem Yields.leads {α : Type} {p : Parser α} {s : State}
    {Q : α → State → Prop} (h : Yields tokens p s Q) (hs : s.Along tokens) :
    Leads tokens s (stateOf (p s)) := by
  obtain ⟨path, -, hcourse⟩ := h.runs
  exact hcourse.leads hs

/-- An item that is a node covers a token, so that none is passed over
behind it. -/
theorem Made.pass {s s' : State} {n : Node} (h : Made tokens s n s') :
    s'.settle.pass s.position = s'.settle := by
  refine State.pass_of_lt ?_
  rw [State.settle_position]
  have := s.position_le_mark
  have := h.sound.nonempty
  have := h.first
  have := h.stop
  omega

/-- A pass of a sequence from `start`: an item begins at `s`, behind the
directives. -/
structure Pass (tokens : List Token) (closer : Option String)
    (done : List Node) (start s : State) : Prop where
  along : start.Along tokens
  front : (start.takeDirectives done).2 = s
  goes : endsSequence closer s.peek = false

namespace Pass

variable {policy : Policy} {closer : Option String} {item : Parser Node}
  {done : List Node} {start s after : State}
  (h : Pass tokens closer done start s)
include h

theorem leads : Leads tokens start s :=
  h.front ▸ h.along.directives done

/-- A pass reads a token that is there. -/
theorem moves (hafter : Leads tokens s after) :
    start.position < (after.pass s.position).position
      ∧ (after.pass s.position).position ≤ tokens.length := by
  have hmoved := h.leads.along.passed hafter (not_end_of_endsSequence h.goes)
  have hstart := h.leads.position
  exact ⟨by omega, (hafter.along.pass s.position).along.within⟩

/-- A pass that reads an item is followed by the next one. -/
theorem gather_item {node : Node} (hnode : item s = .ok node after)
    (hafter : Leads tokens s after) :
    gather policy closer item tokens.length done start
      = gather policy closer item tokens.length
        (node :: (start.takeDirectives done).1)
        (after.settle.pass s.position) := by
  rw [gather_eq]
  dsimp only
  rw [h.front, if_neg (by simp [h.goes]), hnode]
  exact if_pos (h.moves (hafter.trans hafter.along.settle))

/-- A pass that skips bad input is followed by the next one. -/
theorem gather_recovery {e : SyntaxError} (herror : item s = .error e after)
    (hafter : Leads tokens s after) :
    gather .tolerant closer item tokens.length done start
      = gather .tolerant closer item tokens.length
        (start.takeDirectives done).1
        ((after.recover s.depth e).pass s.position) := by
  rw [gather_eq]
  dsimp only
  rw [h.front, if_neg (by simp [h.goes]), herror]
  exact if_pos (h.moves (hafter.trans (hafter.along.recover s.depth e)))

theorem gather_error {e : SyntaxError} (bound : Nat)
    (herror : item s = .error e after) :
    gather .strict closer item bound done start
      = ⟨(start.takeDirectives done).1.reverse, after, some e⟩ := by
  rw [gather_eq]
  dsimp only
  rw [h.front, if_neg (by simp [h.goes]), herror]

end Pass

/-- Induction along a sequence: it is closed, its pass reads an item or
skips bad input and is followed by the others, or an error ends it. -/
theorem gather_along {item : Parser Node}
    (hitem : ∀ s, s.Along tokens → Leads tokens s (stateOf (item s)))
    (policy : Policy) (closer : Option String)
    {motive : List Node → State → Gathered → Prop}
    (closed : ∀ {done start s}, start.Along tokens →
      (start.takeDirectives done).2 = s → endsSequence closer s.peek = true →
      motive done start ⟨(start.takeDirectives done).1.reverse, s, none⟩)
    (read : ∀ {done start s node after r},
      Pass tokens closer done start s → item s = .ok node after →
      Leads tokens s after →
      motive (node :: (start.takeDirectives done).1)
        (after.settle.pass s.position) r → motive done start r)
    (failed : ∀ {done start s e after}, policy = .strict →
      Pass tokens closer done start s → item s = .error e after →
      Leads tokens s after →
      motive done start
        ⟨(start.takeDirectives done).1.reverse, after, some e⟩)
    (skipped : ∀ {done start s e after r}, policy = .tolerant →
      Pass tokens closer done start s → item s = .error e after →
      Leads tokens s after →
      motive (start.takeDirectives done).1
        ((after.recover s.depth e).pass s.position) r → motive done start r)
    (done : List Node) (start : State) (hstart : start.Along tokens) :
    motive done start
      (gather policy closer item tokens.length done start) := by
  induction done, start using gather_induction tokens.length with
  | step done start ih =>
    have hdirectives := hstart.directives done
    generalize hs : (start.takeDirectives done).2 = s at hdirectives
    cases hgoes : endsSequence closer s.peek with
    | true =>
      rw [gather_eq]
      dsimp only
      rw [hs, if_pos hgoes]
      exact closed hstart hs hgoes
    | false =>
      have hpass : Pass tokens closer done start s := ⟨hstart, hs, hgoes⟩
      have hafter := hitem s hdirectives.along
      cases hresult : item s with
      | ok node after =>
        rw [hresult] at hafter
        have hafter : Leads tokens s after := hafter
        have hsettle := hafter.trans hafter.along.settle
        have hmoves := hpass.moves hsettle
        rw [hpass.gather_item hresult hafter]
        exact read hpass hresult hafter (ih _ _ hmoves.1 hmoves.2
          (hsettle.along.pass s.position).along)
      | error e after =>
        rw [hresult] at hafter
        have hafter : Leads tokens s after := hafter
        cases policy with
        | strict =>
          rw [hpass.gather_error _ hresult]
          exact failed rfl hpass hresult hafter
        | tolerant =>
          have hrecover := hafter.trans (hafter.along.recover s.depth e)
          have hmoves := hpass.moves hrecover
          rw [hpass.gather_recovery hresult hafter]
          exact skipped rfl hpass hresult hafter (ih _ _ hmoves.1 hmoves.2
            (hrecover.along.pass s.position).along)

-- ============================================================== sequences

/-- A sequence of items that are nodes runs to its end, and what it
gathers are sound nodes in order. -/
theorem gathers {item : Parser Node}
    (hitem : ∀ s, s.Along tokens → Yields tokens item s (Made tokens s))
    (policy : Policy) (closer : Option String) {lo : Nat} (done : List Node)
    {start : State} (hstart : start.Along tokens)
    (hlo : lo ≤ start.position)
    (hdone : Row tokens lo done.reverse start.position) :
    let r := gather policy closer item tokens.length done start
    Row tokens lo r.items r.state.position
      ∧ ∃ path, Gathers policy closer item done start path r
        ∧ Course tokens start path r.state := by
  refine gather_along (motive := fun done start r =>
      lo ≤ start.position → Row tokens lo done.reverse start.position →
      Row tokens lo r.items r.state.position
        ∧ ∃ path, Gathers policy closer item done start path r
          ∧ Course tokens start path r.state)
    (fun s hs => (hitem s hs).leads hs) policy closer
    ?closed ?read ?failed ?skipped done start hstart hlo hdone
  case closed =>
    intro done start s hstart hs hends hlo hdone
    subst hs
    exact ⟨takeDirectives_row hstart rfl hlo hdone, _, .closed hends,
      .one (hstart.directives done)⟩
  case read =>
    intro done start s node after r hpass hnode hafter ih hlo hdone
    have hs := hpass.leads
    have hyields := hitem s hs.along
    obtain ⟨path, hrun, hcourse⟩ := hyields.runs
    have hmade := hyields.value hnode
    rw [hnode] at hrun hcourse
    have hsettle := hafter.along.settle
    have hmoved := hpass.moves (hafter.trans hsettle)
    have hnext := hsettle.trans (hsettle.along.pass s.position)
    have hrow := takeDirectives_row hpass.along hpass.front hlo hdone
    obtain ⟨hrows, path', hgathers, hcourse'⟩ := ih (by omega)
      (hrow.push hmade.sound (by grind) (by grind) (by grind))
    exact ⟨hrows, _, .item hpass.front hpass.goes hrun hmoved.1 hgathers,
      .step hs (hcourse.append (.step hnext hcourse'))⟩
  case failed =>
    intro done start s e after hstrict hpass herror hafter hlo hdone
    subst hstrict
    have hs := hpass.leads
    obtain ⟨path, hrun, hcourse⟩ := (hitem s hs.along).runs
    rw [herror] at hrun hcourse
    have hrow := takeDirectives_row hpass.along hpass.front hlo hdone
    exact ⟨hrow.mono (Nat.le_refl _) hafter.position, _,
      .error hpass.front hpass.goes hrun, .step hs hcourse⟩
  case skipped =>
    intro done start s e after r htolerant hpass herror hafter ih hlo hdone
    subst htolerant
    have hs := hpass.leads
    obtain ⟨path, hrun, hcourse⟩ := (hitem s hs.along).runs
    rw [herror] at hrun hcourse
    have hrecover := hafter.along.recover s.depth e
    have hskip := hrecover.along.pass s.position
    have hmoved := hpass.moves (hafter.trans hrecover)
    have hle := (hafter.trans (hrecover.trans hskip)).position
    have hrow := takeDirectives_row hpass.along hpass.front hlo hdone
    obtain ⟨hrows, path', hgathers, hcourse'⟩ := ih (by omega)
      (hrow.mono (Nat.le_refl _) hle)
    exact ⟨hrows, _, .recovery hpass.front hpass.goes hrun hmoved.1 hgathers,
      .step hs (hcourse.append (.step hrecover (.step hskip hcourse')))⟩

/-- The items in brackets are sound nodes in order, directives among
them. -/
theorem Yields.sequence {item : Parser Node}
    (hitem : ∀ s, s.Along tokens → Yields tokens item s (Made tokens s))
    (policy : Policy) (closer : String) {s : State}
    (hs : s.Along tokens) :
    Yields tokens (sequence policy closer item) s fun ns s' =>
      Row tokens s.position ns s'.position := by
  obtain ⟨hrow, path, hgathers, hcourse⟩ :=
    gathers hitem policy (some closer) [] hs (Nat.le_refl _)
      .nil
  have heq : gather policy (some closer) item s.size [] s
      = gather policy (some closer) item tokens.length [] s := by
    rw [hs.size]
  generalize gather policy (some closer) item tokens.length [] s = r at *
  obtain ⟨items, s', error⟩ := r
  cases error with
  | none =>
    refine ⟨⟨path, ?_, ?_⟩, ?_⟩
    · rw [sequence_ok heq]
      exact .sequence hgathers
    · rw [sequence_ok heq]
      exact hcourse
    · intro a s'' ha
      rw [sequence_ok heq] at ha
      cases ha
      exact hrow
  | some e =>
    refine ⟨⟨path, ?_, ?_⟩, ?_⟩
    · rw [sequence_error heq]
      exact .sequenceError hgathers
    · rw [sequence_error heq]
      exact hcourse
    · intro a s'' ha
      rw [sequence_error heq] at ha
      cases ha

end FrontEnd.Grammar
