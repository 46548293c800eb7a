/-
A layout is read back: no errors, and the tokens that were written.

Trivia comes in pieces that are not those it was written in, since blanks
and breaks are read at one go and the break that ends a line comment is no
part of it. But reading it leads from trivia to less of it
(`blanks_written`, `lineComment_written`, `blockComment_written`), and so,
by induction on its length, to the token behind it (`listed_trivia`). The
tokens are read one by one then (`listed_spaced`), wherever lines begin.
-/
import FrontEnd.Proofs.Spelling.Token
import FrontEnd.Proofs.Token.Pieces

namespace FrontEnd

open Text

-- ================================================================= trivia

namespace Trivia

/-- No blank, break or joined break comes next. -/
def Unblank (cs : List Char) : Prop :=
  ∀ c ds, cs = c :: ds → Piece.startsBlank c ds = false

/-- Reading blanks ends where none comes next. -/
theorem blanks_stop (fresh : Bool) (read : List Char) {cs : List Char}
    (h : Unblank cs) : blanks fresh read cs = (⟨read, cs⟩, fresh) := by
  cases cs with
  | nil => rfl
  | cons c ds =>
    have hstop := h c ds rfl
    simp only [Piece.startsBlank, Bool.or_eq_false_iff,
      Bool.and_eq_false_iff, beq_eq_false_iff_ne] at hstop
    obtain ⟨⟨hblank, hbreak⟩, hjoin⟩ := hstop
    by_cases hc : c = '\\'
    · subst hc
      have hjoin : startsBreak ds = false := hjoin.resolve_left (by simp)
      cases ds with
      | nil => simp [blanks, isBreak, isBlank]
      | cons d es =>
        have hd : isBreak d = false := hjoin
        rw [blanks, if_neg (by simp [hd])]
        rintro _ rfl
        simp [isBreak] at hd
    · rw [blanks, if_neg (by simp [hbreak]), if_neg (by simp [hblank])]
      · exact fun _ h => absurd h hc
      · exact fun _ _ h => absurd h hc

/-- Where blanks end is no matter of where lines begin. -/
theorem blanks_reading (fresh fresh' : Bool) (read cs : List Char) :
    (blanks fresh read cs).1 = (blanks fresh' read cs).1 := by
  fun_induction blanks fresh read cs generalizing fresh' with
  | case1 => rfl
  | case2 fresh read cs ih => rw [blanks, ih]
  | case3 fresh read c cs hpair hc ih =>
    rw [blanks, if_pos hc, ih]
    exact hpair
  | case4 fresh read c cs hpair hc =>
    rw [blanks, if_neg hc]
    exact hpair
  | case5 fresh read c cs hpair hjoin hc ih =>
    rw [blanks, if_pos hc]
    · exact hpair
    · exact hjoin
  | case6 fresh read c cs hpair hjoin hc hblank ih =>
    rw [blanks, if_neg hc, if_pos hblank, ih]
    · exact hpair
    · exact hjoin
  | case7 fresh read c cs hpair hjoin hc hblank =>
    rw [blanks, if_neg hc, if_neg hblank]
    · exact hpair
    · exact hjoin

/-- Behind trivia that comes first, the blanks of it are read, and less of
it is left. -/
theorem blanks_written {text rest : List Char} (htext : IsTrivia text)
    (hrest : Unblank rest) (fresh : Bool) (read : List Char) :
    ∃ moved less, text = moved ++ less ∧ IsTrivia less
      ∧ (blanks fresh read (text ++ rest)).1
        = ⟨moved.reverse ++ read, less ++ rest⟩ := by
  induction htext generalizing fresh read with
  | nil =>
    refine ⟨[], [], rfl, .nil, ?_⟩
    rw [List.nil_append, blanks_stop fresh read hrest]
    rfl
  | @blank c cs hc _ ih =>
    obtain ⟨fresh', h⟩ : ∃ fresh', blanks fresh read (c :: (cs ++ rest))
        = blanks fresh' (c :: read) (cs ++ rest) := by
      have hslash : c ≠ '\\' := by
        rintro rfl
        revert hc
        decide
      rw [blanks]
      · split
        case isTrue => exact ⟨true, rfl⟩
        case isFalse hbreak =>
          rw [if_pos (hc.resolve_right hbreak)]
          exact ⟨fresh, rfl⟩
      · exact fun _ h => absurd h hslash
      · exact fun _ _ h => absurd h hslash
    obtain ⟨moved, less, rfl, hless, heq⟩ := ih fresh' (c :: read)
    refine ⟨c :: moved, less, rfl, hless, ?_⟩
    rw [List.cons_append, h, heq]
    simp
  | @joined b cs hb hcs ih =>
    obtain ⟨moved, less, rfl, hless, heq⟩ := ih fresh (b :: '\\' :: read)
    refine ⟨'\\' :: b :: moved, less, rfl, hless, ?_⟩
    have hsame : (blanks fresh read ('\\' :: b :: (moved ++ less ++ rest))).1
        = (blanks fresh (b :: '\\' :: read) (moved ++ less ++ rest)).1 := by
      by_cases hpair : b = '\r' ∧ ∃ ds, moved ++ less ++ rest = '\n' :: ds
      · obtain ⟨rfl, ds, hds⟩ := hpair
        rw [hds, blanks, blanks, if_pos (by decide)]
        · exact blanks_reading _ _ _ _
        · exact fun _ h => absurd h (by decide)
        · exact fun _ _ h => absurd h (by decide)
      · rw [blanks, if_pos hb]
        rintro ds rfl hds
        exact hpair ⟨rfl, ds, hds⟩
    rw [List.cons_append, List.cons_append, hsame, heq]
    simp
  | lineComment hline h =>
    refine ⟨[], _, rfl, .lineComment hline h, ?_⟩
    rw [List.cons_append, List.cons_append, blanks_stop]
    · rfl
    · rintro _ _ ⟨⟩
      rfl
  | blockComment hbody h =>
    refine ⟨[], _, rfl, .blockComment hbody h, ?_⟩
    rw [List.cons_append, List.cons_append, blanks_stop]
    · rfl
    · rintro _ _ ⟨⟩
      rfl

/-- A line comment ends in front of the break that ends its line. -/
theorem lineComment_written {line : List Char} (h : LineEnd line) :
    ∃ body b, line = body ++ [b] ∧ isBreak b = true ∧ ∀ read rest,
      lineComment read (line ++ rest)
        = ⟨body.reverse ++ read, b :: rest⟩ := by
  induction h with
  | @stop b hb =>
    refine ⟨[], b, rfl, hb, fun read rest => ?_⟩
    have hslash : b ≠ '\\' := by
      rintro rfl
      revert hb
      decide
    rw [List.singleton_append, lineComment, if_pos hb]
    · rfl
    · exact fun _ h => absurd h hslash
    · exact fun _ _ h => absurd h hslash
  | @char c cs hc hjoin h ih =>
    obtain ⟨body, b, rfl, hb, heq⟩ := ih
    refine ⟨c :: body, b, rfl, hb, fun read rest => ?_⟩
    by_cases hslash : c = '\\'
    · subst hslash
      obtain ⟨d, ds, hds⟩ : ∃ d ds, body ++ [b] = d :: ds := by
        cases body <;> exact ⟨_, _, rfl⟩
      have hd : isBreak d = false := by
        have := hjoin rfl
        rwa [hds] at this
      have heq := heq ('\\' :: read) rest
      rw [hds, List.cons_append] at heq
      rw [List.cons_append, hds, List.cons_append, lineComment,
        if_neg (by simp [hd]), heq]
      · simp
      · rintro _ rfl
        simp [isBreak] at hd
    · rw [List.cons_append, lineComment, if_neg (by simp [hc]), heq]
      · simp
      · exact fun _ h => absurd h hslash
      · exact fun _ _ h => absurd h hslash
  | @joined b cs hb hpair h ih =>
    obtain ⟨body, b', rfl, hb', heq⟩ := ih
    refine ⟨'\\' :: b :: body, b', rfl, hb', fun read rest => ?_⟩
    rw [List.cons_append, List.cons_append, lineComment, if_pos hb, heq]
    · simp
    · rintro ds rfl hds
      refine hpair rfl ?_
      cases body with
      | nil =>
        rw [(List.cons.inj hds).1]
        rfl
      | cons d body =>
        rw [(List.cons.inj hds).1]
        rfl
  | @joinedPair cs h ih =>
    obtain ⟨body, b, rfl, hb, heq⟩ := ih
    refine ⟨'\\' :: '\r' :: '\n' :: body, b, rfl, hb, fun read rest => ?_⟩
    rw [List.cons_append, List.cons_append, List.cons_append, lineComment,
      heq]
    simp

/-- A block comment ends where it is closed. -/
theorem blockComment_written {body : List Char}
    (h : ¬['*', '/'] <:+: body) (read rest : List Char) :
    blockComment read (body ++ '*' :: '/' :: rest)
      = (⟨'/' :: '*' :: (body.reverse ++ read), rest⟩, true) := by
  induction body generalizing read with
  | nil => rfl
  | cons c body ih =>
    rw [List.cons_append, blockComment, ih]
    · simp
    · exact fun hbody => h (hbody.trans (List.suffix_cons c body).isInfix)
    · -- the comment is not closed in front of its end
      rintro cs rfl hcs
      cases body with
      | nil => exact absurd (List.cons.inj hcs).1 (by decide)
      | cons d body =>
        obtain rfl : d = '/' := (List.cons.inj hcs).1
        exact h ⟨[], body, rfl⟩

end Trivia

-- ================================================================= pieces

namespace Piece

/-- Trivia with nothing wrong in it. -/
def IsGood (p : Piece) : Prop :=
  (∃ kind, p.role = .trivia kind) ∧ p.problems = []

/-- One piece of trivia, and less of it behind the piece. -/
structure Leads (fresh : Bool) (c : Char) (cs rest : List Char)
    (p : Piece) (less : List Char) : Prop where
  next : ∃ fresh', next fresh c (cs ++ rest) = ⟨p, less ++ rest, fresh'⟩
  good : p.IsGood
  trivia : IsTrivia less

variable {c : Char} {cs rest : List Char}

theorem Leads.length {fresh : Bool} {p : Piece} {less : List Char}
    (h : Leads fresh c cs rest p less) :
    less.length < (c :: cs).length := by
  obtain ⟨fresh', hnext⟩ := h.next
  obtain ⟨htext, hne⟩ := next_text fresh c (cs ++ rest)
  rw [hnext] at htext hne
  have hlength := congrArg List.length htext
  have := List.length_pos_iff.2 hne
  rw [List.length_append, List.length_append, ← List.cons_append,
    List.length_append] at hlength
  omega

/-- Blanks are read as far as they go. -/
theorem blank_leads (htext : IsTrivia (c :: cs))
    (hrest : Trivia.Unblank rest)
    (hstarts : startsBlank c (cs ++ rest) = true) (fresh : Bool) :
    ∃ p less, Leads fresh c cs rest p less := by
  obtain ⟨moved, less, -, hless, hblanks⟩ :=
    Trivia.blanks_written htext hrest fresh []
  refine ⟨⟨.trivia .blank, moved, []⟩, less, ?_, ⟨⟨_, rfl⟩, rfl⟩, hless⟩
  unfold next
  rw [if_pos hstarts, ← List.cons_append]
  generalize Trivia.blanks fresh [] (c :: cs ++ rest) = r at hblanks
  obtain ⟨reading, fresh'⟩ := r
  obtain rfl : reading = ⟨moved.reverse ++ [], less ++ rest⟩ := hblanks
  exact ⟨fresh', by simp [cut, Reading.taken]⟩

theorem trivia_leads (htext : IsTrivia (c :: cs))
    (hrest : Trivia.Unblank rest) (fresh : Bool) :
    ∃ p less, Leads fresh c cs rest p less := by
  cases htext with
  | blank hc h =>
    refine blank_leads (.blank hc h) hrest ?_ fresh
    rcases hc with hc | hc <;> simp [startsBlank, hc]
  | joined hb h =>
    refine blank_leads (.joined hb h) hrest ?_ fresh
    simp [startsBlank, startsBreak, hb]
  | @lineComment line cs hline h =>
    obtain ⟨body, b, rfl, hb, hcomment⟩ := Trivia.lineComment_written hline
    refine ⟨⟨.trivia .lineComment, '/' :: '/' :: body, []⟩, b :: cs,
      ⟨fresh, ?_⟩, ⟨⟨_, rfl⟩, rfl⟩, .blank (.inr hb) h⟩
    unfold next
    rw [if_neg (by simp [startsBlank, isBlank, isBreak]),
      if_pos (by simp)]
    simp only [List.cons_append, List.tail_cons, List.append_assoc]
    have := hcomment ['/', '/'] (cs ++ rest)
    rw [List.append_assoc] at this
    simp only [List.cons_append, List.nil_append] at this ⊢
    rw [this]
    simp [cut, Reading.taken]
  | @blockComment body cs hbody h =>
    refine ⟨⟨.trivia .blockComment, '/' :: '*' :: (body ++ ['*', '/']), []⟩,
      cs, ⟨fresh, ?_⟩, ⟨⟨_, rfl⟩, rfl⟩, h⟩
    have hcomment := Trivia.blockComment_written hbody ['*', '/'] (cs ++ rest)
    unfold next
    rw [if_neg (by simp [startsBlank, isBlank, isBreak]),
      if_neg (by simp), if_pos (by simp)]
    simp only [List.cons_append, List.tail_cons, List.append_assoc]
    rw [hcomment]
    simp [cut, Reading.taken]

/-- What is listed of a text that begins with trivia. -/
theorem listed_trivia {text : List Char} (htext : IsTrivia text)
    (hrest : Trivia.Unblank rest) (fresh : Bool) :
    ∃ ps fresh', (∀ p ∈ ps, p.IsGood)
      ∧ listed fresh (text ++ rest) = ps ++ listed fresh' rest := by
  induction hn : text.length using Nat.strongRecOn
    generalizing text fresh with
  | _ n ih =>
    cases text with
    | nil => exact ⟨[], fresh, nofun, rfl⟩
    | cons c cs =>
      obtain ⟨p, less, hleads⟩ := trivia_leads htext hrest fresh
      obtain ⟨fresh', hnext⟩ := hleads.next
      obtain ⟨ps, last, hps, heq⟩ :=
        ih less.length (hn ▸ hleads.length) hleads.trivia fresh' rfl
      refine ⟨p :: ps, last, List.forall_mem_cons.2 ⟨hleads.good, hps⟩, ?_⟩
      rw [List.cons_append, listed_cons, hnext]
      dsimp only
      rw [heq]
      rfl

-- ================================================================= tokens

/-- What a token says beside where it stands: its kind and its text. -/
def shape (p : Piece) : Option (TokenKind × String) :=
  match p.role with
  | .token kind => some (kind, String.ofList p.text)
  | .directive line => some (.directive, String.ofList line)
  | .trivia _ => none

theorem IsGood.shape {p : Piece} (h : p.IsGood) : p.shape = none := by
  obtain ⟨⟨kind, hrole⟩, -⟩ := h
  unfold Piece.shape
  rw [hrole]

/-- Pieces without problems that say what the spellings say. -/
structure Agrees (ps : List Piece) (ss : List Spelling) : Prop where
  good : ∀ p ∈ ps, p.problems = []
  shapes : ps.filterMap shape
    = ss.map fun s => (s.kind, String.ofList s.text)

namespace Agrees

theorem nil : Agrees [] [] := ⟨nofun, rfl⟩

theorem trivia {ps qs : List Piece} {ss : List Spelling}
    (hps : ∀ p ∈ ps, p.IsGood) (h : Agrees qs ss) :
    Agrees (ps ++ qs) ss where
  good p hp := (List.mem_append.1 hp).elim (fun hp => (hps p hp).2) (h.good p)
  shapes := by
    have hnone : ps.filterMap shape = [] :=
      List.filterMap_eq_nil_iff.2 fun p hp => (hps p hp).shape
    rw [List.filterMap_append, hnone, h.shapes]
    rfl

theorem token {ps : List Piece} {ss : List Spelling} (s : Spelling)
    (h : Agrees ps ss) :
    Agrees (⟨.token s.kind, s.text, []⟩ :: ps) (s :: ss) where
  good := List.forall_mem_cons.2 ⟨rfl, h.good⟩
  shapes := by
    rw [List.filterMap_cons, List.map_cons, h.shapes]
    rfl

end Agrees

/-- A token as it is written comes to one piece. -/
theorem listed_spelling (s : Spelling) (hrest : endsLexeme rest = true)
    (fresh : Bool) : listed fresh (s.text ++ rest)
      = ⟨.token s.kind, s.text, []⟩ :: listed false rest := by
  obtain ⟨c, cs, htext, hnext⟩ := s.spells.reads rest hrest
  rw [htext, listed_cons, hnext]

/-- No token begins as blanks do. -/
theorem unblank_spelling (s : Spelling) (hrest : endsLexeme rest = true) :
    Trivia.Unblank (s.text ++ rest) := by
  rintro c cs htext
  obtain ⟨d, ds, htext', hnext⟩ := s.spells.reads rest hrest
  obtain ⟨rfl, rfl⟩ := List.cons.inj (htext'.symm.trans htext)
  by_contra hstarts
  have hpiece := hnext false
  unfold next at hpiece
  rw [if_pos (by simpa using hstarts)] at hpiece
  simp [cut] at hpiece

end Piece

-- ================================================================ layouts

namespace Layout

open Piece

/-- The text of tokens with the gaps behind them, and of the last one. -/
def written (spaced : List (Spelling × Gap)) (last : Option Spelling) :
    List Char :=
  spaced.flatMap (fun (s, gap) => s.text ++ gap.text)
    ++ last.toList.flatMap Spelling.text

theorem written_cons (s : Spelling) (gap : Gap)
    (spaced : List (Spelling × Gap)) (last : Option Spelling) :
    written ((s, gap) :: spaced) last
      = s.text ++ (gap.text ++ written spaced last) := by
  simp [written]

theorem endsLexeme_gap (gap : Gap) (cs : List Char) :
    endsLexeme (gap.text ++ cs) = true := by
  obtain ⟨hne, hends⟩ := gap.starts
  obtain ⟨c, ds, htext⟩ := List.exists_cons_of_ne_nil hne
  rw [htext] at hends ⊢
  exact hends

theorem written_unblank (spaced : List (Spelling × Gap))
    (last : Option Spelling) : Trivia.Unblank (written spaced last) := by
  cases spaced with
  | cons p spaced =>
    rw [written_cons]
    exact unblank_spelling p.1 (endsLexeme_gap p.2 _)
  | nil =>
    cases last with
    | none => exact nofun
    | some s =>
      have : Trivia.Unblank (s.text ++ []) := unblank_spelling s rfl
      simpa [written] using this

/-- Tokens are read one by one. -/
theorem listed_written (spaced : List (Spelling × Gap))
    (last : Option Spelling) (fresh : Bool) :
    Agrees (listed fresh (written spaced last))
      (spaced.map Prod.fst ++ last.toList) := by
  induction spaced generalizing fresh with
  | nil =>
    cases last with
    | none =>
      show Agrees (listed fresh []) []
      rw [listed_nil]
      exact .nil
    | some s =>
      have htext : written [] (some s) = s.text ++ [] := by simp [written]
      rw [htext, listed_spelling s rfl, listed_nil]
      exact .token s .nil
  | cons p spaced ih =>
    obtain ⟨s, gap⟩ := p
    rw [written_cons, listed_spelling s (endsLexeme_gap gap _)]
    obtain ⟨ps, fresh', hps, heq⟩ :=
      listed_trivia gap.trivia (written_unblank spaced last) false
    rw [heq]
    exact .token s (.trivia hps (ih fresh'))

theorem listed_layout (p : Layout) (fresh : Bool) :
    Agrees (listed fresh p.text) p.spellings := by
  obtain ⟨ps, fresh', hps, heq⟩ :=
    listed_trivia p.trivia (written_unblank p.spaced p.last) fresh
  have htext : p.text = p.lead ++ written p.spaced p.last := rfl
  rw [htext, heq]
  exact .trivia hps (listed_written p.spaced p.last fresh')

end Layout

-- ================================================================ streams

namespace PlacedPiece

/-- Laying pieces does not change them. -/
theorem laid_pieces (fresh : Bool) (place : Place) (cs : List Char) :
    (laid fresh place cs).map piece = Piece.listed fresh cs := by
  induction fresh, cs using Piece.cuts_induction generalizing place with
  | nil fresh => rw [laid_nil, Piece.listed_nil, List.map_nil]
  | cons fresh c cs ih =>
    rw [laid_cons, Piece.listed_cons, List.map_cons, ih]

theorem token?_shape (p : PlacedPiece) :
    p.token?.map (fun t => (t.kind, t.value)) = p.piece.shape := by
  unfold token? Piece.shape
  cases p.piece.role <;> rfl

end PlacedPiece

open PlacedPiece in
/-- A text that is written token by token, with gaps between them, is split
into just these tokens. -/
theorem TokenStream.ofText_layout (p : Layout) :
    let stream := TokenStream.ofText p.text
    stream.errors = []
      ∧ stream.tokens.map (fun t => (t.kind, t.value))
        = p.spellings.map (fun s => (s.kind, String.ofList s.text))
          ++ [(.endOfFile, "")] := by
  obtain ⟨hgood, hshapes⟩ := p.listed_layout true
  have hpieces := laid_pieces true .start p.text
  rw [← hpieces] at hgood hshapes
  refine ⟨?_, ?_⟩
  · show (laid true .start p.text).flatMap PlacedPiece.errors = []
    rw [List.flatMap_eq_nil_iff]
    intro q hq
    rw [PlacedPiece.errors, hgood _ (List.mem_map_of_mem hq)]
    rfl
  · show ((laid true .start p.text).filterMap token? ++ [endToken p.text]).map
      _ = _
    rw [List.map_append, List.map_filterMap, ← hshapes, List.filterMap_map]
    simp only [token?_shape]
    rfl

end FrontEnd
