/-
Sequences leave as many groups open as they find.

Between two items of a sequence as many groups are open as in front of the
first one, or the end of the tokens has come (`Heads.level`). Behind an
item this is what is known of its rule. Behind an error no fewer groups are
open than in front of the item, so that the recovery comes to a place with
just as many (`resume_skipped`); where it stops without a move it stands in
front of a brace, which is the closer of the sequence or, in a file, closes
nothing.

A sequence in braces ends in front of its closer, or at the end, where the
closer is missed. So with its braces it is level (`Closes.enclosed`).
-/
import FrontEnd.Proofs.Level.Basic
import FrontEnd.Proofs.Level.Skipping

namespace FrontEnd.Grammar

open Lockstep (advance_depth)

variable {tokens : List Token} {policy : Policy} {closer : Option String}
  {item : Parser Node} {s s' after first h : State}

-- ============================================================== recovery

/-- The end comes next if nothing or a mark of it does. -/
theorem peek_isEnd_of_head (h : s.rest.head?.all Token.isEnd = true) :
    s.peek.isEnd = true := by
  rw [s.peek_eq_tokenAt]
  cases hrest : s.rest with
  | nil => rfl
  | cons t ts =>
    rw [hrest] at h
    have hend : t.isEnd = true := h
    rw [tokenAt, if_neg (by grind)]
    exact hend

/-- Behind the recovery from an error as many groups are open as in front of
the item, if no fewer were where it was met, or the end has come. -/
theorem recover_level (hs : s.Along tokens) (hafter : Leads tokens s after)
    (hdepth : s.depth ≤ after.depth)
    (hfront : s.rest.head?.any Token.isDirective = false)
    (hcloser : s.peek.isPunct "\x7d" = false ∨ s.depth = 0)
    (e : SyntaxError) :
    let r := (after.recover s.depth e).pass s.position
    s.depth ≤ r.depth ∧ (r.peek.isEnd = true ∨ r.depth = s.depth) := by
  obtain ⟨passed, hskip⟩ := resume_skipped hdepth after.position after.rest
  have hrecover := hafter.trans (hafter.along.recover s.depth e)
  have hposition : (after.recover s.depth e).position
      = after.position + passed.length := hskip.position
  have hlevel : s.depth ≤ (after.recover s.depth e).depth := hskip.level
  have hstops : (after.recover s.depth e).rest.head?.all Token.isEnd = true
      ∨ (after.recover s.depth e).depth = s.depth
        ∧ Resumes passed (after.recover s.depth e).rest := hskip.stops
  generalize after.recover s.depth e = r at *
  dsimp only
  unfold State.pass
  rcases hstops with hend | ⟨hsame, hresumes⟩
  · have hpeek := peek_isEnd_of_head hend
    rw [r.advance_of_end hpeek, ite_self]
    exact ⟨hlevel, .inl hpeek⟩
  by_cases hstill : r.position ≤ s.position
  · -- nothing was read and nothing skipped: a brace stopped it
    rw [if_pos hstill]
    have hle := hafter.position
    obtain rfl : passed = [] := List.length_eq_zero_iff.1 (by omega)
    have hrest : r.rest = s.rest := by
      rw [hrecover.along.rest, hs.rest]
      congr 1
      omega
    have hbrace : r.peek.isPunct "\x7d" = true := by
      rcases hresumes with hlast | hnext
      · cases hlast
      rw [← hrest] at hfront
      rw [r.peek_eq_tokenAt]
      cases hcons : r.rest with
      | nil =>
        rw [hcons] at hnext
        cases hnext
      | cons t ts =>
        rw [hcons] at hfront hnext
        have hplain : t.isDirective = false := hfront
        rw [tokenAt, if_neg (by simp [hplain])]
        simpa [hplain] using hnext
    have hpeek : r.peek = s.peek := by rw [r.peek_eq, s.peek_eq, hrest]
    rcases hcloser with hcloser | hzero
    · rw [← hpeek, hbrace] at hcloser
      cases hcloser
    · have hdepth : r.advance.depth = 0 := by
        rw [advance_depth, hsame, hzero, depthAfter_of_closes (by grind)]
      rw [hdepth, hzero]
      exact ⟨Nat.le_refl 0, .inr rfl⟩
  · rw [if_neg hstill]
    exact ⟨hlevel, .inr hsame⟩

-- ================================================================= heads

/-- The states in which a sequence turns to its next item, or finds its end,
from the first one on. -/
inductive Heads (policy : Policy) (closer : Option String)
    (item : Parser Node) (first : State) : State → Prop
  | first : Heads policy closer item first first
  /-- Behind an item that was read. -/
  | item {h s after : State} {node : Node} :
    Heads policy closer item first h → (h.takeDirectives []).2 = s →
    endsSequence closer s.peek = false → item s = .ok node after →
    Heads policy closer item first (after.settle.pass s.position)
  /-- Behind a recovery. -/
  | recovery {h s after : State} {e : SyntaxError} :
    policy = .tolerant → Heads policy closer item first h →
    (h.takeDirectives []).2 = s → endsSequence closer s.peek = false →
    item s = .error e after →
    Heads policy closer item first
      ((after.recover s.depth e).pass s.position)

/-- The state in which a sequence turns to the item behind the one that
begins here, if it does. -/
def nextHead (policy : Policy) (closer : Option String)
    (item : Parser Node) (h : State) : Option State :=
  let s := (h.takeDirectives []).2
  if endsSequence closer s.peek then none
  else match item s with
    | .ok _ after => some (after.settle.pass s.position)
    | .error e after => match policy with
      | .strict => none
      | .tolerant => some ((after.recover s.depth e).pass s.position)

theorem Heads.next (h' : Heads policy closer item first h)
    (hnext : nextHead policy closer item h = some s) :
    Heads policy closer item first s := by
  unfold nextHead at hnext
  dsimp only at hnext
  cases hgoes : endsSequence closer (h.takeDirectives []).2.peek with
  | true =>
    rw [if_pos hgoes] at hnext
    cases hnext
  | false =>
    rw [if_neg (by simp [hgoes])] at hnext
    cases hitem : item (h.takeDirectives []).2 with
    | ok node after =>
      rw [hitem] at hnext
      cases hnext
      exact .item h' rfl hgoes hitem
    | error e after =>
      rw [hitem] at hnext
      cases policy with
      | strict => cases hnext
      | tolerant =>
        cases hnext
        exact .recovery rfl h' rfl hgoes hitem

/-- What a sequence needs to know of its items: they are level, and they are
nodes, so that a token is read of each. Where no closer stops it a brace
that closes nothing is passed over, so that no group may be open then. -/
structure Steady (tokens : List Token) (closer : Option String)
    (item : Parser Node) (base : Nat) : Prop where
  level : Level tokens item
  made : ∀ s, s.Along tokens → Yields tokens item s (Made tokens s)
  closer : closer = some "\x7d" ∨ base = 0

/-- The next token behind the directives. -/
theorem takeDirectives_front (s : State) (done : List Node) :
    (s.takeDirectives done).2.rest.head?.any Token.isDirective = false := by
  rw [s.takeDirectives_state]
  have hhead := List.head?_dropWhile_not Token.isDirective s.rest
  dsimp only
  cases hrest : (s.rest.dropWhile Token.isDirective).head? with
  | none => rfl
  | some t =>
    rw [hrest] at hhead
    simpa using hhead

theorem takeDirectives_depth (s : State) (done : List Node) :
    (s.takeDirectives done).2.depth = s.depth := by
  rw [s.takeDirectives_state]

theorem settle_depth (s : State) : s.settle.depth = s.depth := by
  unfold State.settle
  split <;> rfl

namespace Steady

variable {base : Nat} (hitem : Steady tokens closer item base)
  (hs : s.Along tokens) (hdepth : s.depth = base)
include hitem hs hdepth

/-- What an item comes to. -/
theorem leaves : Leaves tokens base (item s) :=
  (hitem.level _ _).leaves hs hdepth rfl rfl

/-- Behind an item. -/
theorem read {node : Node} (h : item s = .ok node after) :
    (after.settle.pass s.position).Along tokens
      ∧ (after.settle.pass s.position).depth = base := by
  have hleaves := hitem.leaves hs hdepth
  rw [h] at hleaves
  rw [((hitem.made s hs).value h).pass, settle_depth]
  exact ⟨hleaves.1.settle.along, hleaves.2⟩

/-- Behind a recovery. -/
theorem recovered {e : SyntaxError}
    (hfront : s.rest.head?.any Token.isDirective = false)
    (hgoes : endsSequence closer s.peek = false)
    (h : item s = .error e after) :
    let r := (after.recover s.depth e).pass s.position
    r.Along tokens ∧ base ≤ r.depth
      ∧ (r.peek.isEnd = true ∨ r.depth = base) := by
  have hleaves := hitem.leaves hs hdepth
  obtain ⟨path, -, hcourse⟩ := (hitem.made s hs).runs
  rw [h] at hleaves hcourse
  have hafter := hcourse.leads hs
  have hcloser : s.peek.isPunct "\x7d" = false ∨ s.depth = 0 := by
    refine hitem.closer.imp (fun hcloser => ?_) fun hzero => ?_
    · rw [endsSequence, hcloser, Bool.or_eq_false_iff] at hgoes
      exact hgoes.2
    · rw [hdepth, hzero]
  have halong := (hafter.along.recover s.depth e).along.pass s.position
  have hlevel := recover_level hs hafter (hdepth ▸ hleaves) hfront hcloser e
  rw [hdepth] at *
  exact ⟨halong.along, hlevel⟩

end Steady

/-- In front of an item the end has not come, so that as many groups are
open as where the sequence began. -/
theorem front_level {base : Nat} (hh : h.Along tokens)
    (hlevel : h.peek.isEnd = true ∨ h.depth = base)
    (hs : (h.takeDirectives []).2 = s)
    (hgoes : endsSequence closer s.peek = false) :
    s.Along tokens ∧ s.depth = base
      ∧ s.rest.head?.any Token.isDirective = false := by
  subst hs
  have hend := not_end_of_endsSequence hgoes
  rw [h.takeDirectives_peek] at hend
  rw [takeDirectives_depth]
  refine ⟨(hh.directives []).along, ?_, takeDirectives_front h []⟩
  exact hlevel.resolve_left (by simp [hend])

/-- Wherever a sequence turns to its next item, as many groups are open as
where it began, or the end has come. -/
theorem Heads.level (hitem : Steady tokens closer item first.depth)
    (hfirst : first.Along tokens) (h' : Heads policy closer item first h) :
    h.Along tokens ∧ first.depth ≤ h.depth
      ∧ (h.peek.isEnd = true ∨ h.depth = first.depth) := by
  induction h' with
  | first => exact ⟨hfirst, Nat.le_refl _, .inr rfl⟩
  | item _ hs hgoes hnode ih =>
    obtain ⟨halong, hdepth, -⟩ := front_level ih.1 ih.2.2 hs hgoes
    obtain ⟨hafter, hsame⟩ := hitem.read halong hdepth hnode
    exact ⟨hafter, hsame.ge, .inr hsame⟩
  | recovery _ _ hs hgoes herror ih =>
    obtain ⟨halong, hdepth, hfront⟩ := front_level ih.1 ih.2.2 hs hgoes
    exact hitem.recovered halong hdepth hfront hgoes herror

-- ============================================================ sequences

theorem takeDirectives_eq (s : State) (done : List Node) :
    (s.takeDirectives done).2 = (s.takeDirectives []).2 := by
  rw [s.takeDirectives_state, s.takeDirectives_state]

/-- The pass of a sequence that begins at one of its heads. -/
theorem Heads.pass (hitem : Steady tokens closer item first.depth)
    (hfirst : first.Along tokens) (h' : Heads policy closer item first h)
    (hs : (h.takeDirectives []).2 = s)
    (hgoes : endsSequence closer s.peek = false) (done : List Node) :
    Pass tokens closer done h s ∧ Leads tokens s (stateOf (item s)) := by
  have halong := (h'.level hitem hfirst).1
  have hpass : Pass tokens closer done h s :=
    ⟨halong, (takeDirectives_eq h done).trans hs, hgoes⟩
  exact ⟨hpass, (hitem.made s hpass.leads.along).leads hpass.leads.along⟩

/-- A sequence comes to each of its heads with some items done. -/
theorem Heads.gathered (hitem : Steady tokens closer item first.depth)
    (hfirst : first.Along tokens) (h' : Heads policy closer item first h) :
    ∃ done, gather policy closer item tokens.length [] first
      = gather policy closer item tokens.length done h := by
  induction h' with
  | first => exact ⟨[], rfl⟩
  | item h' hs hgoes hnode ih =>
    obtain ⟨done, hdone⟩ := ih
    obtain ⟨hpass, hafter⟩ := h'.pass hitem hfirst hs hgoes done
    rw [hnode] at hafter
    exact ⟨_, hdone.trans (hpass.gather_item hnode hafter)⟩
  | recovery hpolicy h' hs hgoes herror ih =>
    obtain ⟨done, hdone⟩ := ih
    subst hpolicy
    obtain ⟨hpass, hafter⟩ := h'.pass hitem hfirst hs hgoes done
    rw [herror] at hafter
    exact ⟨_, hdone.trans (hpass.gather_recovery herror hafter)⟩

/-- A sequence ends at one of its heads, or with the error of an item that
begins at one. -/
theorem gather_heads (hitem : Steady tokens closer item first.depth)
    (hfirst : first.Along tokens) (done : List Node)
    (h' : Heads policy closer item first h) :
    let r := gather policy closer item tokens.length done h
    (r.error = none → ∃ h', Heads policy closer item first h'
        ∧ (h'.takeDirectives []).2 = r.state)
      ∧ ∀ e, r.error = some e → ∃ h' s, Heads policy closer item first h'
        ∧ (h'.takeDirectives []).2 = s
        ∧ endsSequence closer s.peek = false ∧ item s = .error e r.state := by
  refine gather_along (motive := fun _ h r =>
      Heads policy closer item first h →
      (r.error = none → ∃ h', Heads policy closer item first h'
          ∧ (h'.takeDirectives []).2 = r.state)
        ∧ ∀ e, r.error = some e → ∃ h' s, Heads policy closer item first h'
          ∧ (h'.takeDirectives []).2 = s
          ∧ endsSequence closer s.peek = false
          ∧ item s = .error e r.state)
    (fun s hs => (hitem.made s hs).leads hs) policy closer
    ?closed ?read ?failed ?skipped done h (h'.level hitem hfirst).1 h'
  case closed =>
    intro done h s _ hs _ h'
    exact ⟨fun _ => ⟨h, h', (takeDirectives_eq h done).symm.trans hs⟩, nofun⟩
  case read =>
    intro done h s node after r hpass hnode _ ih h'
    have hs := (takeDirectives_eq h done).symm.trans hpass.front
    exact ih (.item h' hs hpass.goes hnode)
  case failed =>
    intro done h s e after _ hpass herror _ h'
    refine ⟨nofun, fun e' he => ?_⟩
    cases he
    exact ⟨h, s, h', (takeDirectives_eq h done).symm.trans hpass.front,
      hpass.goes, herror⟩
  case skipped =>
    intro done h s e after r hpolicy hpass herror _ ih h'
    have hs := (takeDirectives_eq h done).symm.trans hpass.front
    exact ih (.recovery hpolicy h' hs hpass.goes herror)

/-- What comes of a sequence in braces, up to its closer. -/
theorem sequence_leaves (policy : Policy)
    (hitem : Steady tokens (some "\x7d") item s.depth)
    (hs : s.Along tokens) :
    match sequence policy "\x7d" item s with
    | .ok _ s' => s'.Along tokens ∧ s.depth ≤ s'.depth
      ∧ (s'.peek.isEnd = true ∨ s'.depth = s.depth)
    | .error _ s' => s.depth ≤ s'.depth := by
  obtain ⟨hclosed, herror⟩ := gather_heads hitem hs []
    (.first : Heads policy _ item s s)
  unfold sequence
  rw [hs.size]
  generalize gather policy (some "\x7d") item tokens.length [] s = r at *
  obtain ⟨items, s', error⟩ := r
  cases error with
  | none =>
    obtain ⟨h, hhead, rfl⟩ := hclosed rfl
    obtain ⟨halong, hdepth, hlevel⟩ := hhead.level hitem hs
    dsimp only
    rw [takeDirectives_depth, h.takeDirectives_peek]
    exact ⟨(halong.directives []).along, hdepth, hlevel⟩
  | some e =>
    obtain ⟨h, s₁, hhead, hs₁, hgoes, hnode⟩ := herror e rfl
    obtain ⟨halong, -, hlevel⟩ := hhead.level hitem hs
    obtain ⟨hs₁, hdepth, -⟩ := front_level halong hlevel hs₁ hgoes
    have hleaves := hitem.leaves hs₁ hdepth
    rw [hnode] at hleaves
    exact hleaves

/-- A sequence up to the brace that closes it, and what comes behind. -/
theorem Closes.enclosed {groups : Nat} {t u : Token} {β : Type}
    {context : String} {f : List Node → Parser β}
    (hlevel : Level tokens item)
    (hmade : ∀ s, s.Along tokens → Yields tokens item s (Made tokens s))
    (k : ∀ items t u, Closes tokens groups t u (f items)) :
    Closes tokens (groups + 1) t u (do
      let items ← sequence policy "\x7d" item
      expectPunct "\x7d" context
      f items) where
  leaves {s depth} hs hdepth _ _ := by
    have hleaves := sequence_leaves policy ⟨hlevel, hmade, .inl rfl⟩ hs
    rw [bind_eq]
    generalize sequence policy "\x7d" item s = r at hleaves
    cases r with
    | error e s' => exact (show depth ≤ s.depth by omega).trans hleaves
    | ok items s' =>
      obtain ⟨hs', hle, hlevel⟩ := hleaves
      by_cases hbrace : s'.peek.isPunct "\x7d" = true
      · have hsame := hlevel.resolve_left (by grind)
        exact (expectClose (by decide) (k items)).leaves hs'
          (hsame.trans hdepth) rfl rfl
      · -- the closer is missed
        have hmissed (f : Unit → Parser β) :
            ∃ e, (expectPunct "\x7d" context >>= f) s' = .error e s' := by
          rw [bind_eq]
          unfold Grammar.expectPunct Grammar.expect
          rw [if_neg hbrace]
          exact ⟨_, rfl⟩
        obtain ⟨e, hmissed⟩ := hmissed fun _ => f items
        dsimp only
        rw [hmissed]
        exact (show depth ≤ s.depth by omega).trans hle

end FrontEnd.Grammar
