/-
Statements in front of a closing brace, with the recovery from errors in
them. Skipping ends behind a semicolon or in front of the brace, since no
more groups are counted open than the tokens that are left close
(`Within.recover`). So one item leads from a state in front of the brace
to another one (`gather_closes`), and the last of them is the brace itself.

Behind an item, groups may be counted open that the item has left so. The
items to come count from there on, which is why the fence is put up anew in
front of each of them (`Within.fence`).
-/
import FrontEnd.Proofs.Course.Sequence
import FrontEnd.Proofs.Fence.Basic

namespace FrontEnd.Grammar

variable {F : Fence} {s : State} {W : List Token} {count : Nat}

-- ============================================================== recovery

/-- Skipping ends among the tokens in front of a closing brace, or behind
them, with no more groups counted open than the rest of them closes. -/
theorem resume_closed (base index depth : Nat) {brace : Token}
    (outside : List Token) (hbrace : brace.isPunct "\x7d" = true)
    (unbraced : ∀ t ∈ W, t.isUnbraced = true)
    (closed : groupsAfter count W = 0) (hdepth : depth ≤ base + count) :
    ∃ V count' index' depth', V <:+ W
      ∧ resume base index depth (W ++ brace :: outside)
        = (index', depth', V ++ brace :: outside)
      ∧ index' + V.length = index + W.length
      ∧ groupsAfter count' V = 0 ∧ depth' ≤ base + count' := by
  induction W generalizing index depth count with
  | nil =>
    have hcount : count = 0 := closed
    refine ⟨[], count, index, depth, List.suffix_refl _, ?_, rfl, closed,
      hdepth⟩
    rw [List.nil_append, resume, if_neg (by grind), if_neg (by grind),
      if_pos (by omega), if_neg (by grind), if_pos hbrace]
  | cons t W ih =>
    have ht := unbraced t (List.mem_cons_self ..)
    -- one more token is passed over
    have again (depth : Nat) (hdepth : depth ≤ base + depthAfter t count) :
        ∃ V count' index' depth', V <:+ t :: W
          ∧ resume base (index + 1) depth (W ++ brace :: outside)
            = (index', depth', V ++ brace :: outside)
          ∧ index' + V.length = index + (t :: W).length
          ∧ groupsAfter count' V = 0 ∧ depth' ≤ base + count' := by
      obtain ⟨V, count', index', depth', hV, heq, hlength, h⟩ :=
        ih (index + 1) depth
          (fun u hu => unbraced u (List.mem_cons_of_mem _ hu)) closed hdepth
      refine ⟨V, count', index', depth', hV.trans (List.suffix_cons t W),
        heq, ?_, h⟩
      rw [List.length_cons]
      omega
    have hafter : depth ≤ base → depthAfter t depth
        ≤ base + depthAfter t count := fun h => by
      unfold depthAfter
      split
      · omega
      · split <;> omega
    rw [List.cons_append, resume, if_neg (by grind), if_neg (by grind)]
    by_cases hlow : depth ≤ base
    · rw [if_pos hlow]
      by_cases hsemicolon : t.isPunct ";" = true
      · rw [if_pos hsemicolon]
        refine ⟨W, depthAfter t count, index + 1, depth,
          List.suffix_cons t W, rfl, ?_, closed, by omega⟩
        rw [List.length_cons]
        omega
      · rw [if_neg hsemicolon, if_neg (by grind)]
        split
        · exact again depth (by omega)
        · exact again _ (hafter hlow)
    · rw [if_neg hlow, if_neg (by grind)]
      refine again _ ?_
      unfold depthAfter
      split
      · omega
      · split <;> omega

namespace Within

/-- Recovery leads to a state in front of the brace. -/
theorem recover (h : Within F s W count) (e : SyntaxError) :
    Inside F (s.recover F.base e) := by
  obtain ⟨V, count', index', depth', hV, heq, hlength, hclosed, hdepth⟩ :=
    resume_closed F.base s.position s.depth F.outside F.closes
      (fun t ht => h.unbraced ht) h.closed h.depth
  refine ⟨V, count', hV.trans h.suffix, ?_, ?_, hclosed, ?_⟩
  all_goals
    unfold State.recover
    rw [h.rest, heq]
  · have := h.position
    dsimp only
    omega
  · exact hdepth

theorem settle (h : Within F s W count) : Within F s.settle W count := by
  unfold State.settle
  split
  · exact ⟨h.suffix, h.rest, h.position, h.closed, h.depth⟩
  · exact h

/-- What is left in front of the brace, as a fence of its own. -/
def fence (h : Within F s W count) : Fence :=
  { F with
    inside := W
    base := s.depth
    unbraced := fun _ ht => h.unbraced ht
    ends := fun ts t hW => by
      obtain ⟨U, hU⟩ := h.suffix
      refine F.ends (U ++ ts) t ?_
      rw [← hU, hW, List.append_assoc] }

theorem fence_start (h : Within F s W count) : Within h.fence s W 0 where
  suffix := List.suffix_refl W
  rest := h.rest
  position := h.position
  closed := by
    have := groupsAfter_mono W (Nat.zero_le count)
    have := h.closed
    omega
  depth := Nat.le_refl _

/-- No directive comes before the next token. -/
theorem takeDirectives (h : Within F s W count) (done : List Node) :
    s.takeDirectives done = (done, s) := by
  have hrest : ∃ t us, s.rest = t :: us ∧ t.isDirective = false := by
    rw [h.rest]
    cases W with
    | nil =>
      have := F.closes
      exact ⟨_, _, rfl, by grind⟩
    | cons t V =>
      have := h.unbraced (List.mem_cons_self ..)
      exact ⟨_, _, rfl, by grind⟩
  obtain ⟨t, us, hrest, ht⟩ := hrest
  unfold State.takeDirectives
  rw [hrest, directives, if_neg (by simp [ht]), ← hrest]

/-- Where no token was read one is read in its place, if the brace does
not come yet. -/
theorem pass (h : Within F s W count) {position : Nat}
    (hmoved : position ≤ s.position) (hstop : position < F.stop) :
    Inside F (s.pass position) ∧ position < (s.pass position).position := by
  unfold State.pass
  split
  case isTrue hle =>
    cases W with
    | nil =>
      have hposition : s.position = F.stop := h.position
      omega
    | cons t V =>
      have hread := h.advance
      have := h.position
      have := hread.position
      rw [List.length_cons] at *
      exact ⟨⟨V, _, hread⟩, by omega⟩
  case isFalse hlt => exact ⟨⟨W, count, h⟩, by omega⟩

end Within

-- ================================================================= items

/-- Items have come to the brace. -/
structure Closed (F : Fence) (r : Gathered) : Prop where
  error : r.error = none
  rest : r.state.rest = F.brace :: F.outside
  position : r.state.position = F.stop

/-- Items in front of the brace, whatever errors are in them, come to the
brace. -/
theorem gather_closes {item : Parser Node}
    (hitem : ∀ F, Stays F item) {bound : Nat} (done : List Node)
    (h : Inside F s) (hbound : F.stop ≤ bound) :
    Closed F (gather .tolerant (some "\x7d") item bound done s) := by
  induction done, s using gather_induction bound generalizing F with
  | step done s ih =>
    obtain ⟨W, count, h⟩ := h
    rw [gather_eq]
    dsimp only
    rw [h.takeDirectives]
    cases W with
    | nil =>
      have hends : endsSequence (some "\x7d") s.peek = true := by
        rw [h.peek_nil]
        simp [endsSequence, F.closes]
      rw [if_pos hends]
      exact ⟨rfl, h.rest, h.position⟩
    | cons t V =>
      have hgoes : ¬endsSequence (some "\x7d") s.peek = true := by
        have := h.unbraced (List.mem_cons_self ..)
        rw [h.peek_cons]
        simp [endsSequence]
        grind
      have hlength : s.position + (V.length + 1) = F.stop := h.position
      rw [if_neg hgoes]
      -- behind the item, or behind the error in it
      have goOn (done : List Node) {after : State}
          (hafter : Inside h.fence after) : Closed F
            (proceed .tolerant (some "\x7d") item bound s.position done
              (after.pass s.position)) := by
        obtain ⟨U, count', hafter⟩ := hafter
        have hshorter : U.length ≤ V.length + 1 := hafter.suffix.length_le
        have hposition : after.position + U.length = F.stop :=
          hafter.position
        obtain ⟨⟨U', count'', hpass⟩, hmoved⟩ :=
          hafter.pass (by omega : s.position ≤ after.position)
            (show s.position < F.stop by omega)
        have hwithin : (after.pass s.position).position + U'.length
            = F.stop := hpass.position
        have hle : (after.pass s.position).position ≤ bound := by omega
        unfold proceed
        rw [if_pos ⟨hmoved, hle⟩]
        obtain ⟨herror, hrest, hstop⟩ :=
          ih done _ hmoved hle ⟨U', _, hpass⟩ hbound
        exact ⟨herror, hrest, hstop⟩
      have hread := (hitem h.fence _ _).inside ⟨_, _, h.fence_start⟩ rfl rfl
      cases hresult : item s with
      | ok node after =>
        rw [hresult] at hread
        obtain ⟨U, count', hread⟩ := hread
        exact goOn (node :: done) ⟨U, count', hread.settle⟩
      | error e after =>
        rw [hresult] at hread
        obtain ⟨U, count', hread⟩ := hread
        exact goOn done (hread.recover e)

end FrontEnd.Grammar
