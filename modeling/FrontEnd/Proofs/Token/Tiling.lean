/-
Tokens and trivia cover a text. Every piece takes up exactly the bytes
between two boundaries and the next one begins where it ends, so the
spans of all pieces tile the text (`laid_tile`). A piece is a token or
trivia and never both: putting the two lists of spans back in order of
their starts gives the spans of the pieces again (`Tile.sort_eq`), and
the slices under them are the texts of the pieces (`laid_slices`).
-/
import FrontEnd.Proofs.Token.Pieces
import Mathlib.Data.List.Nodup

namespace FrontEnd

open Text

namespace Span

-- ============================================================ tilings

/-- Spans laid end to end from one byte to another, none of them
empty. -/
def Tile : Nat → List Span → Nat → Prop
  | a, [], b => a = b
  | a, s :: ss, b => s.start = a ∧ a < s.stop ∧ Tile s.stop ss b

/-- Whether both ends of a span stand between characters of a text. -/
def Bounded (source : String) (s : Span) : Prop :=
  String.Pos.Raw.IsValid source ⟨s.start⟩
    ∧ String.Pos.Raw.IsValid source ⟨s.stop⟩

/-- Order of start, as spans are sorted by. -/
def startsBefore (s t : Span) : Bool :=
  decide (s.start ≤ t.start)

variable {a b : Nat} {ss ts : List Span}

theorem Tile.le (h : Tile a ss b) : a ≤ b := by
  induction ss generalizing a with
  | nil => exact Nat.le_of_eq h
  | cons s ss ih =>
      obtain ⟨-, hlt, hrest⟩ := h
      have := ih hrest
      omega

/-- The spans of a tiling lie within it, and none is empty. -/
theorem Tile.bounds (h : Tile a ss b) :
    ∀ s ∈ ss, a ≤ s.start ∧ s.start < s.stop ∧ s.stop ≤ b := by
  induction ss generalizing a with
  | nil => simp
  | cons s ss ih =>
      obtain ⟨hs, hlt, hrest⟩ := h
      have hle := hrest.le
      intro t ht
      rcases List.mem_cons.1 ht with rfl | ht
      · omega
      · have := ih hrest t ht
        omega

/-- The spans of a tiling follow each other. -/
theorem Tile.ordered (h : Tile a ss b) :
    ss.Pairwise fun s t => s.stop ≤ t.start := by
  induction ss generalizing a with
  | nil => exact .nil
  | cons s ss ih =>
      obtain ⟨-, -, hrest⟩ := h
      exact .cons (fun t ht => (hrest.bounds t ht).1) (ih hrest)

/-- Starts grow along a tiling. -/
theorem Tile.increasing (h : Tile a ss b) :
    ss.Pairwise fun s t => s.start < t.start := by
  apply h.ordered.imp_of_mem
  intro s t hs _ hst
  have := (h.bounds s hs).2.1
  omega

/-- Sorting by start brings the spans of a tiling back in order. -/
theorem Tile.sort_eq (h : Tile a ss b) (hp : ts.Perm ss) :
    ts.mergeSort startsBefore = ss := by
  have hsorted : (ts.mergeSort startsBefore).Pairwise
      fun s t => startsBefore s t = true := by
    apply List.pairwise_mergeSort
    · intro s t u hst htu
      simp only [startsBefore, decide_eq_true_eq] at hst htu ⊢
      omega
    · intro s t
      simp only [startsBefore, Bool.or_eq_true, decide_eq_true_eq]
      omega
  refine ((List.mergeSort_perm _ _).trans hp).eq_of_pairwise ?_ hsorted ?_
  · intro s t hs ht hst hts
    simp only [startsBefore, decide_eq_true_eq] at hst hts
    -- spans of a tiling with the same start are the same span
    have hnodup : (ss.map Span.start).Nodup := by
      rw [List.Nodup, List.pairwise_map]
      exact h.increasing.imp Nat.ne_of_lt
    exact List.inj_on_of_nodup_map hnodup
      (hp.subset (List.mem_mergeSort.1 hs)) ht (by omega)
  · exact h.increasing.imp fun hlt => by
      simp only [startsBefore, decide_eq_true_eq]
      omega

/-- The slice under a span that was worked out from the text in front of
it and the text that it covers. -/
theorem slice_append (before middle rest : List Char) :
    slice ⟨byteSize before, byteSize before + byteSize middle⟩
      (String.ofList (before ++ middle ++ rest)) = String.ofList middle := by
  simp only [slice, byteSize_eq]
  exact String.extract_of_valid before middle rest

end Span

namespace Piece

-- ====================================== no piece ends the text itself

/-- A literal or word, a number or a symbol is neither a directive nor
the mark at the end of the text. -/
theorem token_kind (c : Char) (cs : List Char) :
    (token c cs).1 ≠ .directive ∧ (token c cs).1 ≠ .endOfFile := by
  unfold token
  split
  · simp
  · split
    · rename_i opener kind h
      have hmem := List.mem_of_find?_eq_some h
      have hall : ∀ o ∈ literalOpeners,
          o.2 ≠ .directive ∧ o.2 ≠ .endOfFile := by decide
      exact hall _ hmem
    · split
      · simp
      · split
        · simp only [wordKind]
          split
          · simp
          · split <;> simp
        · unfold symbol
          split <;> simp

/-- The role of the piece that comes first. -/
theorem next_role (fresh : Bool) (c : Char) (cs : List Char) :
    (next fresh c cs).piece.role ≠ .token .directive
      ∧ (next fresh c cs).piece.role ≠ .token .endOfFile := by
  have hcuts := next_cuts fresh c cs
  generalize next fresh c cs = k at hcuts
  cases hcuts with
  | blank | lineComment | blockComment => simp [cut]
  | directive => simp [ofScan]
  | token => simpa [cut] using token_kind c cs

end Piece

namespace PlacedPiece

variable {fresh : Bool} {place : Place} {cs : List Char}

-- =================================================== spans of the pieces

/-- The pieces of a text tile it. -/
theorem laid_tile (fresh : Bool) (cs : List Char) : ∀ place : Place,
    Span.Tile place.offset ((laid fresh place cs).map span)
      (place.offset + byteSize cs) := by
  induction fresh, cs using Piece.cuts_induction with
  | nil fresh =>
      intro place
      rw [laid_nil]
      exact rfl
  | cons fresh c cs ih =>
      intro place
      have hpos := byteSize_pos (Piece.next_ne_nil fresh c cs)
      have hsize := congrArg byteSize (Piece.next_append fresh c cs)
      rw [byteSize_append] at hsize
      rw [laid_cons, hsize, ← Nat.add_assoc]
      refine ⟨rfl, ?_, ih _⟩
      simp only [span, stop, Place.after]
      omega

/-- The text under the span of each piece is the text of the piece, and
the span stands between characters. -/
theorem laid_slices (fresh : Bool) (cs : List Char) :
    ∀ (place : Place) (before : List Char),
      place.offset = byteSize before →
      (∀ s ∈ (laid fresh place cs).map span,
        s.Bounded (String.ofList (before ++ cs)))
      ∧ ((laid fresh place cs).map span).map
          (·.slice (String.ofList (before ++ cs)))
        = (Piece.listed fresh cs).map (String.ofList ·.text) := by
  induction fresh, cs using Piece.cuts_induction with
  | nil fresh =>
      intro place before _
      rw [laid_nil, Piece.listed_nil]
      simp
  | cons fresh c cs ih =>
      intro place before hplace
      rw [laid_cons, Piece.listed_cons, Piece.next_append fresh c cs]
      generalize (Piece.next fresh c cs).piece = p at ih ⊢
      generalize (Piece.next fresh c cs).rest = rest at ih ⊢
      obtain ⟨hbounded, hslices⟩ := ih (place.after p.text)
        (before ++ p.text) (by simp [Place.after, hplace])
      rw [← List.append_assoc]
      simp only [List.map_cons, List.cons.injEq, List.forall_mem_cons]
      refine ⟨⟨?_, hbounded⟩, ?_, hslices⟩
      · simp only [Span.Bounded, span, stop, Place.after, hplace,
          ← byteSize_append]
        refine ⟨?_, isValid_byteSize _ _⟩
        rw [List.append_assoc]
        exact isValid_byteSize _ _
      · simp only [span, stop, Place.after, hplace]
        exact Span.slice_append before p.text rest

-- ==================================================== tokens and trivia

/-- Whether the piece stands between tokens. -/
def isTrivia (p : PlacedPiece) : Bool :=
  p.trivia?.isSome

theorem token_spans (ps : List PlacedPiece) :
    (ps.filterMap token?).map Token.span
      = (ps.filter (!·.isTrivia)).map span := by
  induction ps with
  | nil => rfl
  | cons p ps ih =>
      obtain ⟨⟨role, text, problems⟩, place⟩ := p
      cases role <;>
        simpa [List.filterMap_cons, List.filter_cons, token?, isTrivia,
          trivia?, span, stop] using ih

/-- The spans of the tokens are among those of the pieces. -/
theorem token_spans_sublist (ps : List PlacedPiece) :
    ((ps.filterMap token?).map Token.span).Sublist (ps.map span) := by
  rw [token_spans]
  exact List.filter_sublist.map _

theorem trivia_spans (ps : List PlacedPiece) :
    (ps.filterMap trivia?).map Trivia.span
      = (ps.filter isTrivia).map span := by
  induction ps with
  | nil => rfl
  | cons p ps ih =>
      obtain ⟨⟨role, text, problems⟩, place⟩ := p
      cases role <;>
        simpa [List.filterMap_cons, List.filter_cons, isTrivia,
          trivia?, span, stop] using ih

/-- Each piece is a token or trivia, and nothing is both. -/
theorem spans_perm (ps : List PlacedPiece) :
    ((ps.filterMap token?).map Token.span
      ++ (ps.filterMap trivia?).map Trivia.span).Perm (ps.map span) := by
  rw [token_spans, trivia_spans, ← List.map_append]
  apply List.Perm.map
  exact List.perm_append_comm.trans (List.filter_append_perm _ _)

/-- A token has the kind of its piece. -/
theorem kind_of_token {p : PlacedPiece} {t : Token}
    (h : p.token? = some t) :
    p.piece.role = .token t.kind ∨ t.kind = .directive := by
  unfold token? at h
  split at h
  · rename_i kind hrole
    rw [← Option.some.inj h]
    exact .inl hrole
  · rw [← Option.some.inj h]
    exact .inr rfl
  · cases h

/-- A token stands where its piece does. -/
theorem place_of_token {p : PlacedPiece} {t : Token}
    (h : p.token? = some t) :
    t.span = p.span ∧ t.location = p.place.location := by
  unfold token? at h
  split at h
  · rw [← Option.some.inj h]
    exact ⟨rfl, rfl⟩
  · rw [← Option.some.inj h]
    exact ⟨rfl, rfl⟩
  · cases h

/-- No piece is the token that marks the end of the text. -/
theorem laid_not_end (fresh : Bool) (place : Place) (cs : List Char) :
    ∀ t ∈ (laid fresh place cs).filterMap token?, t.isEnd = false := by
  intro t ht
  obtain ⟨p, hp, htoken⟩ := List.mem_filterMap.1 ht
  have hrole : p.piece.role ≠ .token .endOfFile :=
    laid_forall (P := fun p => p.role ≠ .token .endOfFile)
      (fun fresh c cs => (Piece.next_role fresh c cs).2)
      fresh cs place p hp
  rw [Token.isEnd, beq_eq_false_iff_ne]
  intro hkind
  rcases kind_of_token htoken with h | h
  · exact hrole (by rw [h, hkind])
  · simp [h] at hkind

end PlacedPiece

namespace TokenStream

-- ===================================================== the whole stream

/-- The tokens without the one that marks the end of the text. -/
def properTokens (stream : TokenStream) : List Token :=
  stream.tokens.filter (!·.isEnd)

/-- The spans of tokens and trivia, in order of their starts. -/
def spans (stream : TokenStream) : List Span :=
  (stream.properTokens.map Token.span
    ++ stream.trivia.map Trivia.span).mergeSort Span.startsBefore

/-- Tokens and trivia account for every byte of a text. -/
structure Covers (stream : TokenStream) (source : String) : Prop where
  tile : Span.Tile 0 stream.spans source.utf8ByteSize
  bounded : ∀ s ∈ stream.spans, s.Bounded source
  tokensOrdered : (stream.tokens.map Token.span).Pairwise
    fun s t => s.stop ≤ t.start
  triviaOrdered : (stream.trivia.map Trivia.span).Pairwise
    fun s t => s.stop ≤ t.start
  /-- One token marks the end, and it is the last one. -/
  ended : ∃ location, stream.tokens = stream.properTokens ++
    [⟨.endOfFile, "", ⟨source.utf8ByteSize, source.utf8ByteSize⟩,
      location⟩]
  restored : stream.reconstruct source = source

theorem ofText_properTokens (cs : List Char) :
    (ofText cs).properTokens
      = (PlacedPiece.ofText cs).filterMap PlacedPiece.token? := by
  rw [properTokens, ofText, List.filter_append,
    List.filter_eq_self.2, List.filter_eq_nil_iff.2, List.append_nil]
  · simp [endToken, Token.isEnd]
  · intro t ht
    rw [PlacedPiece.laid_not_end _ _ _ t ht]
    rfl

/-- Sorted spans are the spans of the pieces. -/
theorem ofText_spans (cs : List Char) :
    (ofText cs).spans = (PlacedPiece.ofText cs).map PlacedPiece.span := by
  rw [spans, ofText_properTokens]
  exact (PlacedPiece.laid_tile true cs .start).sort_eq
    (PlacedPiece.spans_perm _)

/-- The stretches that are put together again are the spans of the
pieces. The end of the text is none of them, as its span is empty. -/
theorem reconstruct_ofText (cs : List Char) (source : String) :
    (ofText cs).reconstruct source = String.join
      (((PlacedPiece.ofText cs).map PlacedPiece.span).map
        (·.slice source)) := by
  have htile := PlacedPiece.laid_tile true cs .start
  have hend : ([(endToken cs).span].filter (!·.isEmpty)) = [] := by
    simp [endToken, Span.isEmpty]
  have hfilter : (((ofText cs).tokens.map Token.span
      ++ (ofText cs).trivia.map Trivia.span).filter (!·.isEmpty)).Perm
      ((PlacedPiece.ofText cs).map PlacedPiece.span) := by
    simp only [ofText, List.map_append, List.map_cons, List.map_nil,
      List.filter_append, hend, List.append_nil]
    rw [← List.filter_append]
    apply ((PlacedPiece.spans_perm _).filter _).trans
    rw [List.filter_eq_self.2]
    intro s hs
    have := htile.bounds s hs
    simp only [Span.isEmpty, Bool.not_eq_true', beq_eq_false_iff_ne]
    omega
  exact congrArg (fun spans => String.join (spans.map (·.slice source)))
    (htile.sort_eq hfilter)

/-- The tokens of a text follow each other, with the mark of its end
behind all of them. -/
theorem tokens_ordered (cs : List Char) :
    ((ofText cs).tokens.map Token.span).Pairwise
      fun s t => s.stop ≤ t.start := by
  have htile := PlacedPiece.laid_tile true cs .start
  have hsub := PlacedPiece.token_spans_sublist (PlacedPiece.ofText cs)
  simp only [ofText, List.map_append, List.map_cons, List.map_nil]
  rw [List.pairwise_append]
  refine ⟨htile.ordered.sublist hsub, List.pairwise_singleton .., ?_⟩
  intro s hs t ht
  obtain rfl := List.mem_singleton.1 ht
  have := htile.bounds s (hsub.subset hs)
  simp only [endToken, Place.after]
  omega

/-- Tokens and trivia of every text cover it: their spans tile it, on
boundaries of its characters, and put together they are the text. -/
theorem ofText_covers (source : String) :
    (ofText source.toList).Covers source := by
  have htile := PlacedPiece.laid_tile true source.toList .start
  have hordered := htile.ordered
  obtain ⟨hbounded, hslices⟩ := PlacedPiece.laid_slices true
    source.toList .start [] rfl
  rw [List.nil_append, String.ofList_toList] at hbounded hslices
  rw [← PlacedPiece.ofText_eq] at htile hordered hbounded hslices
  have hsize : Place.start.offset + byteSize source.toList
      = source.utf8ByteSize := by
    rw [byteSize_toList, Place.start, Nat.zero_add]
  constructor
  case tile =>
    rw [ofText_spans, ← hsize]
    exact htile
  case bounded =>
    rw [ofText_spans]
    exact hbounded
  case tokensOrdered =>
    exact tokens_ordered _
  case triviaOrdered =>
    simp only [ofText]
    rw [PlacedPiece.trivia_spans]
    exact hordered.sublist (List.filter_sublist.map _)
  case ended =>
    refine ⟨(endToken source.toList).location, ?_⟩
    rw [ofText_properTokens, ← hsize]
    rfl
  case restored =>
    rw [reconstruct_ofText, hslices, ← String.toList_inj,
      String.toList_join, List.flatMap_map]
    simp only [String.toList_ofList]
    exact Piece.listed_text true source.toList

end TokenStream

end FrontEnd
