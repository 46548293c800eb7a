/-
Where syntax errors are reported.

An error is reported at the token that comes next, if none was reported
since an item was read. So the tokens of the errors come in their order,
each of them once, as long as the last of them lies behind the reading
whenever an error may be reported again. `State.Orderly` says that they lie
no further than the next token, and in front of the reading while errors
are reported.

Skipping may stop in front of the token of the error: at a directive, at a
brace that ends the sequence or at the end of the text, and the sequences
around it may end there one after the other. None of that reports an error
again, as only an item that is read brings the reporting back. An item
reads a token, and what is reported on its way lies behind it when it ends
(`Behaves.behind`): sequences are followed by their closers, and behind a
closer that was read there is no error any more (`enclosed_behaves`). A
rule that gives up names the token that comes next (`Behaves.found`).
-/
import FrontEnd.Proofs.Course.Unit
import FrontEnd.Proofs.Recovery.Statement

namespace FrontEnd.Grammar

open EStateM (Result)

variable {tokens : List Token} {s s' : State}

-- =========================================================== single steps

/-- Among tokens that have an end some token comes next. -/
theorem State.Along.mark_lt (hs : s.Along tokens)
    (hend : ∃ t ∈ tokens, t.isEnd = true) :
    s.mark.index < tokens.length := by
  obtain ⟨t, ht, htend⟩ := hend
  obtain ⟨index, hindex⟩ := List.mem_iff_getElem?.1 ht
  by_contra hle
  obtain ⟨u, hu, hdirective⟩ := hs.isDirective_of_lt_mark
    (hs.position_le_end hindex htend) (by
      have := (List.getElem?_eq_some_iff.1 hindex).1
      omega)
  rw [hindex, Option.some.injEq] at hu
  subst hu
  grind

-- ========================================================== the invariant

/-- The errors so far were noticed at tokens in front of an index, each at
another token, in the order of the tokens. -/
def State.ErrorsBefore (tokens : List Token) (n : Nat) (s : State) : Prop :=
  (s.errors.toList.map SyntaxError.found).Sublist (tokens.take n)

theorem State.ErrorsBefore.mono {m n : Nat}
    (h : s.ErrorsBefore tokens m) (hle : m ≤ n) :
    s.ErrorsBefore tokens n :=
  h.trans (List.take_prefix_take_left hle).sublist

theorem State.ErrorsBefore.congr {n : Nat} (h : s.ErrorsBefore tokens n)
    (herrors : s'.errors = s.errors) : s'.ErrorsBefore tokens n := by
  unfold State.ErrorsBefore
  rw [herrors]
  exact h

/-- A state on the way with its errors in order. -/
structure State.Orderly (tokens : List Token) (s : State) : Prop where
  along : s.Along tokens
  /-- No error lies further on than the next token. -/
  reached : s.ErrorsBefore tokens (s.mark.index + 1)
  /-- While errors are reported, they lie behind the reading. -/
  passed : s.phase = .normal → s.ErrorsBefore tokens s.position

namespace State.Orderly

theorem start (tokens : List Token) : (State.start tokens).Orderly tokens where
  along := .start tokens
  reached := List.nil_sublist _
  passed _ := List.nil_sublist _

/-- Moving on leaves the errors in order. -/
theorem moves (h : s.Orderly tokens) (hleads : Leads tokens s s')
    (herrors : s'.errors = s.errors) (hphase : s'.phase = s.phase) :
    s'.Orderly tokens where
  along := hleads.along
  reached := (h.reached.mono (Nat.succ_le_succ hleads.mark)).congr herrors
  passed hnormal :=
    ((h.passed (hphase ▸ hnormal)).mono hleads.position).congr herrors

/-- Errors that lie behind the reading are in order in every phase. -/
theorem of_behind (hs : s.Along tokens)
    (h : s.ErrorsBefore tokens s.position) : s.Orderly tokens where
  along := hs
  reached := h.mono (s.position_le_mark.trans (Nat.le_succ _))
  passed _ := h

theorem advance (h : s.Orderly tokens) : s.advance.Orderly tokens :=
  h.moves h.along.reads.toLeads s.advance_errors s.advance_phase

theorem pass (h : s.Orderly tokens) (position : Nat) :
    (s.pass position).Orderly tokens :=
  h.moves (h.along.pass position) (s.pass_errors _) (s.pass_phase _)

theorem takeDirectives (h : s.Orderly tokens) (done : List Node) :
    (s.takeDirectives done).2.Orderly tokens :=
  h.moves (h.along.directives done) rfl rfl

/-- Behind a token that was read there are no errors. -/
theorem behind_advance (h : s.Orderly tokens)
    (hend : s.peek.isEnd = false) :
    s.advance.ErrorsBefore tokens s.advance.position := by
  rw [s.advance_position hend]
  exact h.reached.congr s.advance_errors

/-- A recovery reports the next token at most, and does so only if the
errors so far lie in front of it. -/
theorem recover (h : s.Orderly tokens)
    (hend : ∃ t ∈ tokens, t.isEnd = true) (base : Nat) {e : SyntaxError}
    (he : e.found = s.peek) : (s.recover base e).Orderly tokens where
  along := (h.along.recover base e).along
  passed := nofun
  reached := by
    have hreached : (s.recover base e).ErrorsBefore tokens
        (s.mark.index + 1) := by
      show (List.map _ (if s.phase = .normal then s.errors.push e
        else s.errors).toList).Sublist _
      split
      case isTrue hnormal =>
        have hpassed := (h.passed hnormal).mono s.position_le_mark
        rw [Array.toList_push, List.map_append, List.take_add_one,
          h.along.getElem_mark (h.along.mark_lt hend)]
        refine List.Sublist.append hpassed ?_
        rw [List.map_singleton, he]
        exact List.Sublist.refl _
      case isFalse => exact h.reached
    exact hreached.mono
      (Nat.succ_le_succ (h.along.recover base e).mark)

end State.Orderly

-- ====================================================== what rules come to

/-- What a rule comes to from a state with its errors in order. -/
structure Behaves (tokens : List Token) (s : State) {α : Type}
    (r : Result SyntaxError State α) : Prop where
  leads : Leads tokens s (stateOf r)
  orderly : (stateOf r).Orderly tokens
  /-- What is reported by a rule that comes to its end lies behind it. -/
  behind {a : α} {s' : State} : r = .ok a s' → ∀ n,
    s.ErrorsBefore tokens n → s'.ErrorsBefore tokens (max n s'.position)
  /-- A rule gives up because of the token that comes next. -/
  found {e : SyntaxError} {s' : State} :
    r = .error e s' → e.found = s'.peek

namespace Behaves

variable {α β : Type}

/-- A value, with the same errors as before. -/
theorem ok {a : α} (h : s.Orderly tokens) (hleads : Leads tokens s s')
    (herrors : s'.errors = s.errors) (hphase : s'.phase = s.phase) :
    Behaves tokens s (.ok a s') where
  leads := hleads
  orderly := h.moves hleads herrors hphase
  behind heq n hn := by
    cases heq
    exact (hn.mono (Nat.le_max_left n _)).congr herrors
  found := nofun

/-- An error at the token that comes next. -/
theorem error {e : SyntaxError} (hleads : Leads tokens s s')
    (h : s'.Orderly tokens) (he : e.found = s'.peek) :
    Behaves tokens s (.error e s' : Result SyntaxError State α) where
  leads := hleads
  orderly := h
  behind := nofun
  found heq := by
    cases heq
    exact he

/-- Giving up. -/
theorem gives {e : SyntaxError}
    (h : Behaves tokens s (.error e s' : Result SyntaxError State α)) :
    Behaves tokens s (.error e s' : Result SyntaxError State β) :=
  error h.leads h.orderly (h.found rfl)

/-- One rule behind another. -/
theorem trans {a : α} {r : Result SyntaxError State β}
    (h : Behaves tokens s (.ok a s')) (h' : Behaves tokens s' r) :
    Behaves tokens s r where
  leads := h.leads.trans h'.leads
  orderly := h'.orderly
  behind {b t} heq n hn := by
    subst heq
    refine (h'.behind rfl _ (h.behind rfl n hn)).mono ?_
    have hposition : s'.position ≤ t.position := h'.leads.position
    omega
  found := h'.found

end Behaves

-- ============================================================== sequences

section

variable {item : Parser Node}
  (hitem : ∀ s, s.Orderly tokens → Behaves tokens s (item s))
  (hend : ∃ t ∈ tokens, t.isEnd = true)
include hitem

/-- Behind an item errors are reported again, and those that were lie
behind it. -/
theorem item_orderly (hs : s.Orderly tokens)
    (hmark : s.mark.index = s.position) (hpeek : s.peek.isEnd = false)
    {node : Node} (h : item s = .ok node s') :
    Leads tokens s (s'.settle.pass s.position)
      ∧ (s'.settle.pass s.position).Orderly tokens := by
  have hbehaves := hitem s hs
  rw [h] at hbehaves
  have hsettle := hbehaves.orderly.along.settle
  have hpass := hsettle.along.pass s.position
  have hleads := hbehaves.leads.trans hsettle
  have hmoved : s.position < (s'.settle.pass s.position).position :=
    hs.along.passed hleads hpeek
  refine ⟨hleads.trans hpass, .of_behind hpass.along ?_⟩
  have herrors : (s'.settle.pass s.position).errors = s'.errors := by
    rw [State.pass_errors, State.settle_errors]
  refine ((hbehaves.behind rfl _ hs.reached).congr herrors).mono ?_
  have hposition : s'.position ≤ (s'.settle.pass s.position).position :=
    (hsettle.trans hpass).position
  omega

include hend

/-- A sequence keeps the errors in order, to its end or to the error that
it gives up at. -/
theorem gather_orderly (policy : Policy) (closer : Option String)
    (bound : Nat) (done : List Node) {start : State}
    (hstart : start.Orderly tokens) :
    let r := gather policy closer item bound done start
    Leads tokens start r.state ∧ r.state.Orderly tokens
      ∧ ∀ e, r.error = some e → e.found = r.state.peek := by
  induction done, start using gather_induction bound with
  | step done start ih =>
    have hdirectives := hstart.along.directives done
    have hs := hstart.takeDirectives done
    have hmark := start.takeDirectives_mark done
    rw [gather_eq]
    dsimp only
    generalize (start.takeDirectives done).2 = s at *
    generalize (start.takeDirectives done).1 = done at *
    have goOn (done' : List Node) {after : State}
        (hleads : Leads tokens s after) (h : after.Orderly tokens) :
        let r := proceed policy closer item bound start.position done'
          after
        Leads tokens start r.state ∧ r.state.Orderly tokens
          ∧ ∀ e, r.error = some e → e.found = r.state.peek := by
      have hleads := hdirectives.trans hleads
      unfold proceed
      split
      case isTrue hgo =>
        obtain ⟨hrest, hr⟩ := ih done' after hgo.1 hgo.2 h
        exact ⟨hleads.trans hrest, hr⟩
      case isFalse => exact ⟨hleads, h, nofun⟩
    split
    case isTrue => exact ⟨hdirectives, hs, nofun⟩
    case isFalse hends =>
      rw [Bool.not_eq_true] at hends
      cases hresult : item s with
      | ok node after =>
        obtain ⟨hleads, h⟩ := item_orderly hitem hs hmark
          (not_end_of_endsSequence hends) hresult
        exact goOn _ hleads h
      | error e after =>
        have hafter := hitem s hs
        rw [hresult] at hafter
        have hfound := hafter.found rfl
        cases policy with
        | strict =>
          refine ⟨hdirectives.trans hafter.leads, hafter.orderly, ?_⟩
          rintro _ ⟨⟩
          exact hfound
        | tolerant =>
          have hrecover := hafter.orderly.recover hend s.depth hfound
          refine goOn _ (hafter.leads.trans ?_) (hrecover.pass _)
          exact (hafter.orderly.along.recover s.depth e).trans
            (hrecover.along.pass _)

/-- A sequence with its closer. Behind the closer there are no errors. -/
theorem enclosed_behaves {α : Type} (policy : Policy)
    (closer context : String) {f : List Node → Parser α}
    (hf : ∀ items s, s.Orderly tokens → Behaves tokens s (f items s))
    (hs : s.Orderly tokens) :
    Behaves tokens s ((sequence policy closer item >>= fun items =>
      expectPunct closer context >>= fun _ => f items) s) := by
  obtain ⟨hleads, hr, hfound⟩ := gather_orderly hitem hend policy
    (some closer) s.size [] hs
  rw [bind_eq]
  unfold sequence
  dsimp only
  generalize gather policy (some closer) item s.size [] s = r at *
  obtain ⟨items, t, error⟩ := r
  cases error with
  | some e => exact .error hleads hr (hfound e rfl)
  | none =>
    dsimp only
    rw [bind_eq]
    unfold expectPunct expect
    dsimp only at *
    by_cases hcloser : t.peek.isPunct closer = true
    · rw [if_pos hcloser]
      have hpeek : t.peek.isEnd = false := by grind
      have hread : Behaves tokens s (.ok () t.advance) :=
        { leads := hleads.trans hr.along.reads.toLeads
          orderly := hr.advance
          behind := fun heq n _ => by
            cases heq
            exact (hr.behind_advance hpeek).mono (Nat.le_max_right n _)
          found := nofun }
      exact hread.trans (hf items _ hr.advance)
    · rw [if_neg hcloser]
      exact .error hleads hr rfl

end

-- ============================================================== all rules

/-- Rules that are put together from single steps keep the errors in
order. -/
theorem Composed.behaves {policy : Policy} {α : Type} {p : Parser α}
    (h : Composed policy p) (hend : ∃ t ∈ tokens, t.isEnd = true)
    (s : State) (hs : s.Orderly tokens) : Behaves tokens s (p s) := by
  induction h generalizing s with
  | look f => exact .ok hs (.refl hs.along) rfl rfl
  | advance =>
    exact .ok hs hs.along.reads.toLeads s.advance_errors s.advance_phase
  | fail problem => exact .error (.refl hs.along) hs rfl
  | @bind α β p f _ _ ihp ihf =>
    have hp := ihp s hs
    rw [bind_eq]
    generalize p s = r at hp
    cases r with
    | ok a s' => exact hp.trans (ihf a s' hp.orderly)
    | error e s' => exact hp.gives
  | @loop α β round _ a ih =>
    -- what comes of a round is what comes of all up to it
    refine loop_outcome (P := Behaves tokens s)
      (fun _ t => t.Orderly tokens
        ∧ ∀ r : Result SyntaxError State β,
          Behaves tokens t r → Behaves tokens s r)
      (fun a t ht => ?_) a ⟨hs, fun _ => id⟩
    obtain ⟨ht, hbehind⟩ := ht
    have hround := ih a t ht
    generalize round a t = r at hround
    rcases r with ⟨a' | b, t'⟩ | ⟨e, t'⟩
    · exact ⟨⟨hround.orderly, fun r h => hbehind r (hround.trans h)⟩,
        hbehind _ (.error hround.leads hround.orderly rfl)⟩
    · refine hbehind _ ⟨hround.leads, hround.orderly, fun h => ?_, nofun⟩
      cases h
      exact hround.behind rfl
    · exact hbehind _ hround.gives
  | enclosed _ _ ihitem ihf =>
    exact enclosed_behaves ihitem hend _ _ _ ihf hs

/-- The errors of a tolerant reading were noticed at tokens of the list,
each at another one, in the order of the tokens. -/
theorem errors_sublist (hend : ∃ t ∈ tokens, t.isEnd = true) :
    ((ParseOutcome.ofTokens .tolerant tokens).errors.map
      SyntaxError.found).Sublist tokens := by
  have hcomposed := parse_composed .tolerant maxNesting .declaration
  have hnone : (unitSequence .tolerant tokens).error = none :=
    gather_tolerant [] (.start tokens)
  obtain ⟨-, horderly, -⟩ := gather_orderly
    (fun s hs => hcomposed.behaves hend s hs) hend .tolerant none
    tokens.length [] (.start tokens)
  have herrors : (ParseOutcome.ofTokens .tolerant tokens).errors
      = (unitSequence .tolerant tokens).state.errors.toList := by
    show ((unitSequence .tolerant tokens).state.errors
      ++ (unitSequence .tolerant tokens).error.toArray).toList = _
    rw [hnone, Option.toArray_none, Array.append_empty]
  rw [herrors]
  exact horderly.reached.trans (List.take_sublist _ _)

end FrontEnd.Grammar
