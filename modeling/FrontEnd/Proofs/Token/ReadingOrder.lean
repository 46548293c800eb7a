/-
Reading order. Where a location is counted in a text, it tells how much of
the text lies in front of it: what stands at a later byte is on a later
line, or further on in the same line (`Location.IsAt.before`). So places
of a text are ordered as their bytes are, and pieces that are laid end to
end put their tokens and their errors in reading order.

No two tokens begin at the same byte. Errors may stand at the same place,
those of one piece always do, and one piece may end where the error of the
next one is.
-/
import FrontEnd.Proofs.Token.Placement

namespace FrontEnd

open Text

/-- Some break is counted where there is one. -/
theorem Text.lineBreaks_pos {cs : List Char} (h : cs.any isBreak = true) :
    0 < lineBreaks cs := by
  fun_induction lineBreaks cs with
  | case1 => cases h
  | case2 cs ih => exact Nat.succ_pos _
  | case3 c cs hpair ih =>
    rw [List.any_cons, Bool.or_eq_true] at h
    rcases h with h | h
    · rw [if_pos h]
      omega
    · have := ih h
      omega

namespace Location

-- ========================================================= reading order

/-- Earlier in reading order: by line, then by column. -/
def Before (a b : Location) : Prop :=
  a.line < b.line ∨ a.line = b.line ∧ a.column < b.column

attribute [grind =] Before

@[grind =]
theorem le_iff (a b : Location) : a.le b = true ↔
    a.line < b.line ∨ a.line = b.line ∧ a.column ≤ b.column := by
  simp [le]

theorem le_refl (a : Location) : a.le a = true := by
  grind

theorem le_trans (a b c : Location) (h : a.le b = true)
    (h' : b.le c = true) : a.le c = true := by
  grind

theorem le_total (a b : Location) : (a.le b || b.le a) = true := by
  rw [Bool.or_eq_true]
  grind

theorem Before.le {a b : Location} (h : a.Before b) : a.le b = true := by
  grind

/-- Reading on leads to a later location. -/
theorem before_after (l : Location) {cs : List Char} (h : cs ≠ []) :
    l.Before (l.after cs) := by
  have hlength := List.length_pos_iff.2 h
  rw [after_eq]
  unfold Before
  cases hbreak : cs.any isBreak with
  | true =>
    have := lineBreaks_pos hbreak
    left
    dsimp only
    omega
  | false =>
    rw [if_neg nofun]
    dsimp only
    omega

/-- One location of a text leads to a later one. -/
theorem IsAt.leads {a b : Location} {cs : List Char} {m n : Nat}
    (ha : a.IsAt cs m) (hb : b.IsAt cs n) (hle : m ≤ n) :
    ∃ ds, b = a.after ds ∧ m + byteSize ds = n := by
  obtain ⟨front, rest, rfl, rfl, hcut, hline, hcolumn⟩ := ha
  obtain ⟨front', rest', htext, rfl, -, hline', hcolumn'⟩ := hb
  have ha : a = start.after front := by
    rw [start_after, ← hline, ← hcolumn]
  have hb : b = start.after front' := by
    rw [start_after, ← hline', ← hcolumn']
  rcases List.append_eq_append_iff.1 htext with
    ⟨ds, rfl, rfl⟩ | ⟨ds, rfl, rfl⟩
  · refine ⟨ds, ?_, (byteSize_append _ _).symm⟩
    rw [hb, after_append _ (cutsBreak_left hcut), ha]
  · -- the later one stands no further on
    obtain rfl : ds = [] := by
      by_contra hne
      have := byteSize_pos hne
      rw [byteSize_append] at hle
      omega
    rw [List.append_nil] at ha hle ⊢
    exact ⟨[], by rw [hb, ha, after_nil], rfl⟩

variable {a b : Location} {cs : List Char} {m n : Nat}

theorem IsAt.before (ha : a.IsAt cs m) (hb : b.IsAt cs n) (h : m < n) :
    a.Before b := by
  obtain ⟨ds, rfl, hds⟩ := ha.leads hb h.le
  refine a.before_after ?_
  rintro rfl
  exact h.ne hds

theorem IsAt.le (ha : a.IsAt cs m) (hb : b.IsAt cs n) (h : m ≤ n) :
    a.le b = true := by
  obtain ⟨ds, rfl, -⟩ := ha.leads hb h
  by_cases hds : ds = []
  · subst hds
    exact le_refl a
  · exact (a.before_after hds).le

end Location

-- ============================================================== the errors

namespace PlacedPiece

variable {cs before rest : List Char} {p : PlacedPiece}

/-- The errors of a piece stand at a place in it, and all at the same. -/
theorem Sits.error_isAt (h : p.Sits cs before rest) {e : LexicalError}
    (he : e ∈ p.errors) : ∃ offset, e.location.IsAt cs offset
      ∧ p.span.start ≤ offset ∧ offset ≤ p.span.stop := by
  have hstop : p.span.stop = p.span.start + byteSize p.piece.text := rfl
  have hblames := h.blames he
  unfold Blames at hblames
  split at hblames
  · exact ⟨_, hblames, Nat.le_refl _, by omega⟩
  · exact ⟨_, hblames.2.2, Nat.le_refl _, by omega⟩
  · obtain ⟨front, before, tail, -, -, hat, -, ⟨more, htext⟩, -⟩ := hblames
    refine ⟨_, hat, Nat.le_add_right _ _, ?_⟩
    rw [hstop, ← htext, byteSize_append, byteSize_append]
    omega

theorem Sits.errors_eq (h : p.Sits cs before rest) {e e' : LexicalError}
    (he : e ∈ p.errors) (he' : e' ∈ p.errors) :
    e.location = e'.location := by
  obtain ⟨problem, hproblem, rfl⟩ := List.mem_map.1 he
  obtain ⟨problem', hproblem', rfl⟩ := List.mem_map.1 he'
  obtain ⟨fresh, c, ds, -, hpiece, -⟩ := h.cut_off
  have hproblems := (Piece.next_cuts fresh c ds).problems
  rw [← hpiece] at hproblems
  have hsame : problem.before = problem'.before := by
    cases hrole : p.piece.role with
    | token kind =>
      rw [hrole] at hproblems
      rw [hproblems problem hproblem, hproblems problem' hproblem']
    | trivia kind =>
      rw [hrole] at hproblems
      rw [(hproblems problem hproblem).2, (hproblems problem' hproblem').2]
    | directive line =>
      rw [hrole] at hproblems
      rw [hproblems] at hproblem hproblem'
      have hscan := Option.mem_toList.1 hproblem
      have hscan' := Option.mem_toList.1 hproblem'
      rw [hscan, Option.some.injEq] at hscan'
      rw [hscan']
  dsimp only
  rw [hsame]

end PlacedPiece

namespace TokenStream

/-- Lexical errors come in reading order. -/
theorem errors_ordered (cs : List Char) :
    (ofText cs).errors.Pairwise
      fun e e' => e.location.le e'.location = true := by
  have htile := (PlacedPiece.laid_tile true cs .start).ordered
  rw [← PlacedPiece.ofText_eq, List.pairwise_map] at htile
  refine List.pairwise_flatMap.2 ⟨fun p hp => ?_, ?_⟩
  · obtain ⟨before, rest, h⟩ := PlacedPiece.ofText_sits hp
    refine List.pairwise_of_forall_mem_list fun e he e' he' => ?_
    rw [h.errors_eq he he']
    exact e'.location.le_refl
  · refine htile.imp_of_mem fun {p q} hp hq hpq e he e' he' => ?_
    obtain ⟨before, rest, h⟩ := PlacedPiece.ofText_sits hp
    obtain ⟨before', rest', h'⟩ := PlacedPiece.ofText_sits hq
    obtain ⟨m, hm, -, hstop⟩ := h.error_isAt he
    obtain ⟨n, hn, hstart, -⟩ := h'.error_isAt he'
    exact hm.le hn (hstop.trans (hpq.trans hstart))

-- ============================================================== the tokens

/-- Tokens begin one behind the other, the mark of the end last. -/
theorem tokens_increasing (cs : List Char) :
    (ofText cs).tokens.Pairwise
      fun t u => t.span.start < u.span.start := by
  have htile := PlacedPiece.laid_tile true cs .start
  have hsub := PlacedPiece.token_spans_sublist (PlacedPiece.ofText cs)
  refine List.pairwise_append.2 ⟨?_, List.pairwise_singleton .., ?_⟩
  · have hstarts := htile.increasing.sublist hsub
    rwa [List.pairwise_map] at hstarts
  · intro t ht u hu
    obtain rfl := List.mem_singleton.1 hu
    have hbounds := htile.bounds _ (hsub.subset (List.mem_map_of_mem ht))
    exact hbounds.2.1.trans_le hbounds.2.2

/-- Tokens stand in reading order, no two of them at the same place. -/
theorem tokens_before (cs : List Char) :
    (ofText cs).tokens.Pairwise
      fun t u => t.location.Before u.location := by
  have hlocated := tokens_located cs
  refine (tokens_increasing cs).imp_of_mem fun {t u} ht hu h => ?_
  exact (hlocated t ht).before (hlocated u hu) h

/-- A token with another one behind it does not mark the end. -/
theorem tokens_unended (cs : List Char) :
    (ofText cs).tokens.Pairwise fun t _ => t.isEnd = false := by
  have hproper := PlacedPiece.laid_not_end true .start cs
  refine List.pairwise_append.2 ⟨?_, List.pairwise_singleton .., ?_⟩
  · exact List.pairwise_of_forall_mem_list fun t ht _ _ => hproper t ht
  · exact fun t ht _ _ => hproper t ht

theorem exists_end (cs : List Char) :
    ∃ t ∈ (ofText cs).tokens, t.isEnd = true :=
  ⟨endToken cs, List.mem_append_right _ (List.mem_singleton_self _), rfl⟩

end TokenStream

end FrontEnd
