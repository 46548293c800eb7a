/-
A function with anything at all in its braces, read tolerantly.

The braces of a function hold a fence: the items of its body come to the
closing brace, whatever errors are in them (`gather_closes`). So the body is
read (`block_closes`), the function with it (`function_closes`), and what
stands behind the function is read as by itself (`gather_displaces`).

What the body must not do is open a group that it does not close. Such a
group takes the closing brace of the function for one of its own
(`body_not_contained`).
-/
import FrontEnd.Proofs.Fence.Sequence
import FrontEnd.Proofs.Fence.Statement
import FrontEnd.Proofs.Lockstep.Concatenation

namespace FrontEnd

namespace Grammar

open Lockstep (skipGroup_eq loopWithin_eq afterRound groupRound)
open Written (run_mark run_peek run_peekAt run_bind run_expect)

-- ============================================================ single steps

section

variable {s : State} {t : Token} {ts : List Token}
  (hrest : s.rest = t :: ts) (ht : t.isDirective = false)
include hrest ht

theorem State.peek_cons : s.peek = t := by
  rw [s.peek_eq_tokenAt, hrest, tokenAt, if_neg (by simp [ht])]

theorem State.mark_cons : s.mark = ⟨s.position, t.location⟩ := by
  unfold mark
  rw [hrest, significant, if_neg (by simp [ht])]
  rfl

theorem State.advance_cons (hend : t.isEnd = false) : s.advance = { s with
    rest := ts, position := s.position + 1
    depth := depthAfter t s.depth } := by
  unfold advance
  rw [hrest, significant, if_neg (by simp [ht])]
  exact if_neg (by simp [hend])

end

/-- A loop goes on behind a round that read a token. -/
theorem loopWithin_again {α β : Type} {round : α → Parser (Round α β)}
    {a a' : α} {s s' : State} {bound : Nat}
    (h : round a s = .ok (.again a') s') (hmoved : s.position < s'.position)
    (hwithin : s'.position ≤ bound) :
    loopWithin bound round a s = loopWithin bound round a' s' := by
  rw [loopWithin_eq, h]
  exact if_pos ⟨hmoved, hwithin⟩

theorem depthAfter_opening {t : Token} (h : t.isPunct "(" = true)
    (depth : Nat) : depthAfter t depth = depth + 1 :=
  if_pos (by grind)

theorem depthAfter_closing {t : Token} (h : t.isPunct ")" = true)
    (depth : Nat) : depthAfter t (depth + 1) = depth := by
  unfold depthAfter
  rw [if_neg (by grind), if_pos (by grind [Token.closes])]
  rfl

/-- Parentheses with nothing in them. -/
theorem skipGroup_empty {s : State} {opening closing : Token}
    {ts : List Token} (context : String)
    (hopening : opening.isPunct "(" = true)
    (hclosing : closing.isPunct ")" = true)
    (hrest : s.rest = opening :: closing :: ts)
    (hsize : s.position + 2 ≤ s.size) :
    skipGroup context s
      = .ok () { s with rest := ts, position := s.position + 2 } := by
  have hopens := depthAfter_opening hopening
  have hcloses := depthAfter_closing hclosing
  obtain ⟨s₁, hs₁⟩ : ∃ s₁ : State, s₁ = { s with
    rest := closing :: ts, position := s.position + 1
    depth := s.depth + 1 } := ⟨_, rfl⟩
  have hfirst : s.advance = s₁ := by
    rw [State.advance_cons hrest (by grind) (by grind), hopens, hs₁]
  have hrest₁ : s₁.rest = closing :: ts := by rw [hs₁]
  have hsecond : s₁.advance
      = { s with rest := ts, position := s.position + 2 } := by
    rw [State.advance_cons hrest₁ (by grind) (by grind), hs₁, hcloses]
  have hround (problem : SyntaxProblem) : groupRound problem 1 s₁
      = .ok (.again 0) { s with
          rest := ts, position := s.position + 2 } := by
    unfold groupRound
    rw [run_peek, State.peek_cons hrest₁ (by grind), if_neg nofun,
      if_neg (by grind), ← hsecond, ← hcloses 0]
    rfl
  rw [skipGroup_eq]
  unfold Lockstep.skipGroupCounting
  rw [run_peek, State.peek_cons hrest (by grind), hopens]
  show loopWithin s.advance.size _ 1 s.advance = _
  rw [hfirst, loopWithin_again (hround _) (by simp [hs₁])
    (by simp [hs₁, hsize]), loopWithin_eq]
  rfl

-- ============================================================== functions

section

variable {g : Inner} {s : State} {t : Token} {ts : List Token} (m : Mark)
  (w : Walk)

theorem depthAfter_of_kind (h : t.kind ≠ .punctuation) (depth : Nat) :
    depthAfter t depth = depth := by
  unfold depthAfter
  rw [if_neg (by grind), if_neg (by grind [Token.closes])]

section

variable {word : String} (hword : word = "void" ∨ word = "int")
  (ht : t.isKeyword word = true)
include hword ht

/-- A declaration goes on behind its type. -/
theorem simpleRound_type (hrest : s.rest = t :: ts) : simpleRound g m w s
      = .ok (.again w) { s with rest := ts, position := s.position + 1 } := by
  obtain ⟨hkind, hvalue⟩ : t.kind = .keyword ∧ t.value = word := by
    simpa [Token.isKeyword] using ht
  have hstatement : Word.isStatement word = false := by
    rcases hword with rfl | rfl <;> decide
  have hadvance := State.advance_cons hrest (by grind) (by grind)
  rw [depthAfter_of_kind (by simp [hkind])] at hadvance
  unfold simpleRound
  rw [run_peek, State.peek_cons hrest (by grind), hkind]
  unfold keywordRound
  simp only [hvalue, foreignKeywords, hstatement]
  rw [← hadvance]
  rcases hword with rfl | rfl <;> rfl

/-- A declaration that begins with its type is a simple one. -/
theorem declaration_simple (hrest : s.rest = t :: ts) :
    declaration g s = simpleDeclaration g s := by
  obtain ⟨hkind, hvalue⟩ : t.kind = .keyword ∧ t.value = word := by
    simpa [Token.isKeyword] using ht
  unfold declaration
  rw [run_peek, run_peekAt, State.peek_cons hrest (by grind)]
  rcases hword with rfl | rfl <;>
    simp [Token.isPunct, Token.isKeyword, hkind, hvalue]

end

/-- A declaration goes on behind a name. -/
theorem simpleRound_name (ht : t.isName = true) (hrest : s.rest = t :: ts) :
    simpleRound g m w s
      = .ok (.again w) { s with rest := ts, position := s.position + 1 } := by
  have hkind : t.kind = .identifier := by simpa [Token.isName] using ht
  have hadvance := State.advance_cons hrest (by grind) (by grind)
  rw [depthAfter_of_kind (by simp [hkind])] at hadvance
  unfold simpleRound
  rw [run_peek, State.peek_cons hrest (by grind), hkind, ← hadvance]
  rfl

/-- A declaration goes on behind its type and its name. -/
theorem declaration_named {word : String} {name : Token}
    (hword : word = "void" ∨ word = "int") (ht : t.isKeyword word = true)
    (hname : name.isName = true) (hrest : s.rest = t :: name :: ts)
    (hsize : s.position + 2 ≤ s.size) : declaration g s
      = loopWithin s.size (simpleRound g s.mark) ⟨[], false⟩
        { s with rest := ts, position := s.position + 2 } := by
  rw [declaration_simple hword ht hrest]
  show loopWithin s.size (simpleRound g s.mark) ⟨[], false⟩ s = _
  rw [loopWithin_again (simpleRound_type _ _ hword ht hrest)
      (Nat.lt_succ_self _) (by dsimp only; omega),
    loopWithin_again (simpleRound_name _ _ hname rfl)
      (Nat.lt_succ_self _) (by dsimp only; omega)]

theorem simpleRound_punct (ht : t.kind = .punctuation)
    (hrest : s.rest = t :: ts) :
    simpleRound g m w s = punctRound g m w t s := by
  have hdirective : t.isDirective = false := by simp [Token.isDirective, ht]
  unfold simpleRound
  rw [run_peek, State.peek_cons hrest hdirective, ht]

/-- Behind an empty parameter list a declaration goes on as one that has
parameters. -/
theorem simpleRound_parameters {closing : Token}
    (ht : t.isPunct "(" = true) (hclosing : closing.isPunct ")" = true)
    (hrest : s.rest = t :: closing :: ts)
    (hsize : s.position + 2 ≤ s.size) : simpleRound g m w s
      = .ok (.again { w with parameters := true })
        { s with rest := ts, position := s.position + 2 } := by
  obtain ⟨hkind, hvalue⟩ : t.kind = .punctuation ∧ t.value = "(" := by
    simpa [Token.isPunct] using ht
  rw [simpleRound_punct m w hkind hrest]
  unfold punctRound
  simp only [hvalue]
  show (skipGroup "after parameter list" >>= _) s = _
  rw [run_bind (skipGroup_empty _ ht hclosing hrest hsize)]
  rfl

end

/-- Whether the tokens are `void f ( ) {`, with any name for `f`. -/
def opensFunction : List Token → Bool
  | [result, name, opening, closing, brace] =>
    result.isKeyword "void" && name.isName && opening.isPunct "("
      && closing.isPunct ")" && brace.isPunct "\x7b"
  | _ => false

/-- A function is read by what reads its body. -/
theorem declaration_head {g : Inner} {s : State} {head ts : List Token}
    (hhead : opensFunction head = true) (hrest : s.rest = head ++ ts)
    (hsize : s.position + 5 ≤ s.size) :
    ∃ brace, brace.isPunct "\x7b" = true
      ∧ declaration g s
        = loopWithin s.size (simpleRound g s.mark) ⟨[], true⟩ { s with
            rest := brace :: ts, position := s.position + 4 } := by
  unfold opensFunction at hhead
  split at hhead
  case h_2 => cases hhead
  case h_1 result name opening closing brace =>
    simp only [Bool.and_eq_true] at hhead
    obtain ⟨⟨⟨⟨hresult, hname⟩, hopening⟩, hclosing⟩, hbrace⟩ := hhead
    simp only [List.cons_append, List.nil_append] at hrest
    refine ⟨brace, hbrace, ?_⟩
    rw [declaration_named (.inl rfl) hresult hname hrest (by omega),
      loopWithin_again (simpleRound_parameters _ _ hopening hclosing rfl
        (by dsimp only; omega)) (by dsimp only; omega)
        (by dsimp only; omega)]

/-- A block whose closing brace has a fence in front of it comes to that
brace, whatever errors are in it. -/
theorem block_closes {g : Inner} (hpolicy : g.policy = .tolerant)
    (hg : ∀ F, Stays F (g.parse .statement)) {F : Fence} {s : State}
    {brace : Token} (hbrace : brace.isPunct "\x7b" = true)
    (hrest : s.rest = brace :: (F.inside ++ F.brace :: F.outside))
    (hposition : s.position + 1 + F.inside.length = F.stop)
    (hclosed : groupsAfter 0 F.inside = 0) (hdepth : s.depth < F.base)
    (hsize : F.stop ≤ s.size) :
    ∃ node s', block g s = .ok node s' ∧ s'.rest = F.outside
      ∧ s'.position = F.stop + 1 := by
  have hopens (depth : Nat) : depthAfter brace depth = depth + 1 :=
    if_pos (by grind)
  have hadvance := State.advance_cons hrest (by grind) (by grind)
  rw [hopens] at hadvance
  have hinside : Inside F s.advance := by
    rw [hadvance]
    exact ⟨F.inside, 0, List.suffix_refl _, rfl, hposition, hclosed, hdepth⟩
  have hbound : F.stop ≤ s.advance.size := by
    rw [hadvance]
    exact hsize
  have hgather := gather_closes hg [] hinside hbound
  have hcloses := F.closes
  obtain ⟨r, hr⟩ : ∃ r, r = gather .tolerant (some "\x7d")
    (g.parse .statement) s.advance.size [] s.advance := ⟨_, rfl⟩
  rw [← hr] at hgather
  have hlast := State.advance_cons hgather.rest (by grind) (by grind)
  have hsequence : sequence g.policy "\x7d" (g.parse .statement) s.advance
      = .ok r.items r.state := by
    obtain ⟨items, state, error⟩ := r
    obtain rfl : error = none := hgather.error
    rw [hpolicy]
    exact sequence_ok hr.symm
  refine ⟨r.state.advance.node .compoundStatement s.mark r.items,
    r.state.advance, ?_, by rw [hlast], by rw [hlast, ← hgather.position]⟩
  unfold block expectPunct
  rw [run_mark, run_expect, State.peek_cons hrest (by grind), if_pos hbrace,
    run_bind hsequence, run_expect,
    State.peek_cons hgather.rest (by grind), if_pos hcloses]
  rfl

/-- A function whose closing brace has a fence in front of it. -/
theorem function_closes (room : Nat) {F : Fence} {s : State}
    {head : List Token} (hhead : opensFunction head = true)
    (hrest : s.rest = head ++ (F.inside ++ F.brace :: F.outside))
    (hposition : s.position + 5 + F.inside.length = F.stop)
    (hclosed : groupsAfter 0 F.inside = 0) (hdepth : s.depth < F.base)
    (hsize : F.stop ≤ s.size) :
    ∃ node s', parse .tolerant (room + 1) .declaration s = .ok node s'
      ∧ node.kind = .functionDefinition ∧ node.first = s.mark.index
      ∧ node.stop = max (F.stop + 1) s.mark.index
      ∧ s'.rest = F.outside ∧ s'.position = F.stop + 1 := by
  obtain ⟨brace, hbrace, hdeclaration⟩ :=
    declaration_head (g := ⟨.tolerant, room, parse .tolerant room⟩) hhead
      hrest (by omega)
  obtain ⟨body, s', hblock, hrest', hposition'⟩ :=
    block_closes (g := ⟨.tolerant, room, parse .tolerant room⟩) rfl
      (fun F => parse_stays .tolerant room .statement) hbrace
      (s := { s with
        rest := brace :: (F.inside ++ F.brace :: F.outside)
        position := s.position + 4 }) rfl
      (by dsimp only; omega) hclosed hdepth hsize
  refine ⟨s'.node .functionDefinition s.mark [body], s', ?_, rfl, rfl,
    by rw [← hposition']; rfl, hrest', hposition'⟩
  show declaration _ s = _
  rw [hdeclaration, loopWithin_eq]
  obtain ⟨hkind, hvalue⟩ : brace.kind = .punctuation
      ∧ brace.value = "\x7b" := by
    simpa [Token.isPunct] using hbrace
  have hround (m : Mark) : simpleRound
      ⟨.tolerant, room, parse .tolerant room⟩ m ⟨[], true⟩ { s with
        rest := brace :: (F.inside ++ F.brace :: F.outside)
        position := s.position + 4 }
      = .ok (.done (s'.node .functionDefinition m [body])) s' := by
    rw [simpleRound_punct _ _ hkind rfl]
    unfold punctRound
    simp only [hvalue]
    show (block _ >>= _) _ = _
    rw [run_bind hblock]
    rfl
  rw [hround]
  rfl

-- ================================================================= bodies

section

variable {G : List Token} {semicolon brace : Token} (X : List Token)
  (unbraced : ∀ t ∈ G, t.isUnbraced = true)
  (hsemicolon : semicolon.isPunct ";" = true)
  (hbrace : brace.isPunct "\x7d" = true)

/-- The tokens in the braces of a function that begins at the first token,
if the last one is a semicolon. -/
def Fence.ofBody : Fence where
  inside := G ++ [semicolon]
  brace := brace
  outside := X
  stop := G.length + 6
  base := 1
  unbraced := by
    intro t ht
    rcases List.mem_append.1 ht with ht | ht
    · exact unbraced t ht
    · obtain rfl := List.mem_singleton.1 ht
      grind
  ends := by
    intro ts t h
    obtain ⟨-, h⟩ := List.append_inj' h rfl
    obtain rfl : semicolon = t := by simpa using h
    exact hsemicolon
  closes := hbrace

theorem Fence.ofBody_rest :
    let F := Fence.ofBody X unbraced hsemicolon hbrace
    G ++ semicolon :: brace :: X = F.inside ++ F.brace :: F.outside := by
  show _ = (G ++ [semicolon]) ++ brace :: X
  rw [List.append_assoc]
  rfl

theorem Fence.ofBody_stop :
    let F := Fence.ofBody X unbraced hsemicolon hbrace
    0 + 5 + F.inside.length = F.stop := by
  show 0 + 5 + (G ++ [semicolon]).length = G.length + 6
  rw [List.length_append, List.length_singleton]
  omega

theorem Fence.ofBody_closed (closed : groupsAfter 0 G = 0) :
    groupsAfter 0 (Fence.ofBody X unbraced hsemicolon hbrace).inside
      = 0 := by
  show groupsAfter 0 (G ++ [semicolon]) = 0
  unfold groupsAfter at *
  rw [List.foldl_append, closed]
  show depthAfter semicolon 0 = 0
  unfold depthAfter
  rw [if_neg (by grind), if_neg (by grind [Token.closes])]

end

-- ======================================================== an end behind

/-- Where the end comes next, no directives do. -/
theorem takeDirectives_ended {s : State}
    (h : s.rest.head?.all Token.isEnd = true) (done : List Node) :
    s.takeDirectives done = (done, s) := by
  unfold State.takeDirectives
  cases hrest : s.rest with
  | nil => rw [directives, ← hrest]
  | cons t ts =>
    rw [hrest] at h
    have ht : t.isEnd = true := h
    rw [directives, if_neg (by grind), ← hrest]

theorem tokenAt_ended {ts : List Token}
    (h : ts.head?.all Token.isEnd = true) :
    (tokenAt 0 ts).isEnd = true := by
  cases ts with
  | nil => rfl
  | cons t ts =>
    have ht : t.isEnd = true := h
    rw [tokenAt, if_neg (by grind)]
    exact ht

/-- Tokens up to the first end, and the rest. -/
theorem split_end (ts : List Token) : ∃ C Y, ts = C ++ Y
    ∧ (∀ t ∈ C, t.isEnd = false) ∧ Y.head?.all Token.isEnd = true := by
  refine ⟨ts.takeWhile (!·.isEnd), ts.dropWhile (!·.isEnd),
    List.takeWhile_append_dropWhile.symm,
    fun t ht => by simpa using List.mem_takeWhile_imp ht, ?_⟩
  have := List.head?_dropWhile_not (!·.isEnd) ts
  cases h : (ts.dropWhile (!·.isEnd)).head? with
  | none => rfl
  | some t => simpa [h] using this

/-- Another end behind the tokens does not matter. -/
theorem declarations_append_end {B : List Token} {e : Token}
    (he : e.isEnd = true)
    (hclean : (declarations B [] (.start B)).error = none) :
    (declarations (B ++ [e]) [] (.start (B ++ [e]))).error = none
      ∧ (declarations (B ++ [e]) [] (.start (B ++ [e]))).items
        = (declarations B [] (.start B)).items := by
  obtain ⟨C, Y, rfl, unended, hY⟩ := split_end B
  have hX : (Y ++ [e]).head?.all Token.isEnd = true := by
    cases Y with
    | nil => exact he
    | cons t ts => exact hY
  have hendX := tokenAt_ended hX
  have hendY := tokenAt_ended hY
  have hsame : Parts C Y Y := ⟨unended, hendY, .inl rfl⟩
  obtain ⟨-, -, -, -, -, -, hends, -⟩ :=
    declarations_reach hsame (by grind) hclean
  have hp : Parts C (Y ++ [e]) Y := by
    refine ⟨unended, hendY, .inr ⟨hends, fun us _ _ _ => ?_⟩⟩
    rw [angleLength_append_end _ _ _ hendX,
      angleLength_append_end _ _ _ hendY]
  obtain ⟨done, W, s, t, h, hW, -, hx, hy⟩ :=
    declarations_reach hp (by grind) hclean
  have hrest : s.rest = W ++ (Y ++ [e]) := by rw [h.first]
  -- both readings take the directives that are left, and nothing more
  have hsdone : s.takeDirectives done
      = ((directives t.recovered done t.position W).1,
        { s with rest := Y ++ [e], position := s.position + W.length }) := by
    rw [takeDirectives_append hW hrest, takeDirectives_ended hX, h.first]
  have htdone : t.takeDirectives done
      = ((directives t.recovered done t.position W).1,
        { t with rest := Y, position := t.position + W.length }) := by
    rw [takeDirectives_append hW h.rest, takeDirectives_ended hY]
  rw [List.append_assoc, hx, hy, declarations_end, declarations_end,
    hsdone, htdone]
  · exact ⟨rfl, rfl⟩
  · rw [htdone, State.peek_eq_tokenAt]
    exact hendY
  · rw [hsdone, State.peek_eq_tokenAt]
    exact hendX

end Grammar

-- ================================================================== units

namespace Grammar

/-- A function begins with a token that is no directive, and goes on with
four more in front of its body. -/
theorem opensFunction_cons {head : List Token}
    (h : opensFunction head = true) : ∃ t ts, head = t :: ts
      ∧ ts.length = 4 ∧ t.isDirective = false ∧ t.isEnd = false := by
  unfold opensFunction at h
  split at h
  case h_2 => cases h
  case h_1 result name opening closing brace =>
    simp only [Bool.and_eq_true] at h
    exact ⟨result, _, rfl, rfl, by grind, by grind⟩

/-- Behind a declaration that is read first, the others are read as by
themselves. -/
theorem declaration_leads {t : Token} {ts X : List Token} {after : State}
    {node : Node} {offset : Nat} (ht : t.isDirective = false)
    (hend : t.isEnd = false)
    (hlength : (t :: ts).length = X.length + offset)
    (hparse : parse .tolerant maxNesting .declaration (.start (t :: ts))
      = .ok node after)
    (hrest : after.rest = X) (hposition : after.position = offset)
    (hmoved : 0 < offset)
    (hclean : (declarations X [] (.start X)).error = none) :
    (gather .tolerant none (parse .tolerant maxNesting .declaration)
        (t :: ts).length [] (.start (t :: ts))).items
      = node :: (declarations X [] (.start X)).items.map
        (Node.displace offset after.recovered) := by
  have hnone : (State.start (t :: ts)).takeDirectives []
      = ([], .start (t :: ts)) := by
    have hdirectives : directives false [] 0 (t :: ts)
        = ([], 0, t :: ts) := by
      rw [directives, if_neg (by simp [ht])]
    simp only [State.takeDirectives, State.start, hdirectives]
  have hgoes : ¬endsSequence none (State.start (t :: ts)).peek = true := by
    rw [State.peek_cons rfl ht]
    simp [endsSequence, hend]
  have hstart := State.Along.start (t :: ts)
  obtain ⟨path, -, hcourse⟩ :=
    (parse_yields _ .tolerant maxNesting .declaration _ hstart).runs
  rw [hparse] at hcourse
  have hsize := (hcourse.leads hstart).along.size
  have hdisplaced : Displaced offset after.recovered (.start X)
      after.settle := by
    unfold State.settle
    split <;> exact ⟨hrest, by rw [hposition]; exact (Nat.zero_add _).symm,
      hsize.trans hlength, rfl⟩
  have hsettle : after.settle.position = offset :=
    after.settle_position.trans hposition
  have hitem := Lockstep.parse_inStep
    (displacing_lawful .tolerant offset after.recovered) maxNesting
    .declaration
  have hdisplaces := gather_displaces hitem none X.length [node] []
    hdisplaced
  have hbehind : behind offset after.recovered [node] [] = [node] := rfl
  rw [gather_eq, hnone]
  dsimp only
  rw [if_neg hgoes, hparse]
  dsimp only
  rw [State.pass_of_lt (by rw [hsettle]; exact hmoved)]
  unfold proceed
  rw [if_pos ⟨by rw [hsettle]; exact hmoved, by rw [hsettle]; omega⟩]
  rw [hlength]
  rw [hbehind] at hdisplaces
  rcases hdisplaces with ⟨hitems, -, -⟩ | ⟨herror, -⟩
  · exact hitems
  · exact absurd hclean herror

end Grammar

open Grammar in
/-- Whatever errors are in the body of a function, they leave alone what
comes behind it, as long as each group that is opened in the body is closed
in it. -/
theorem body_contained {head G B : List Token} {semicolon brace e : Token}
    (hhead : opensFunction head = true)
    (unbraced : ∀ t ∈ G, t.isUnbraced = true)
    (closed : groupsAfter 0 G = 0)
    (hsemicolon : semicolon.isPunct ";" = true)
    (hbrace : brace.isPunct "\x7d" = true) (he : e.isEnd = true)
    (clean : (ParseOutcome.ofTokens .strict B).errors = []) :
    ∃ function behindBad,
      (ParseOutcome.ofTokens .tolerant
          (head ++ (G ++ semicolon :: brace :: (B ++ [e])))).tree.children
        = function :: (ParseOutcome.ofTokens .strict B).tree.children.map
          (Node.displace (G.length + 7) behindBad)
      ∧ function.kind = .functionDefinition ∧ function.first = 0
      ∧ function.stop = G.length + 7 := by
  rw [ParseOutcome.strict_errors_iff] at clean
  obtain ⟨herror, hitems⟩ := declarations_append_end he clean
  obtain ⟨X, hX⟩ : ∃ X, X = B ++ [e] := ⟨_, rfl⟩
  obtain ⟨tokens, htokens⟩ : ∃ tokens,
    tokens = head ++ (G ++ semicolon :: brace :: X) := ⟨_, rfl⟩
  rw [← hX] at herror hitems ⊢
  rw [← htokens]
  obtain ⟨t, ts, htail, hfour, ht, hend⟩ := opensFunction_cons hhead
  have hlength : tokens.length = X.length + (G.length + 7) := by
    rw [htokens, htail]
    simp only [List.length_append, List.length_cons]
    omega
  obtain ⟨function, after, hparse, hkind, hfirst, hstop, hrest, hposition⟩ :=
    function_closes 255 (s := .start tokens)
      (F := .ofBody X unbraced hsemicolon hbrace) hhead
      (by rw [htokens, Fence.ofBody_rest]
          rfl)
      (Fence.ofBody_stop X unbraced hsemicolon hbrace)
      (Fence.ofBody_closed X unbraced hsemicolon hbrace closed) Nat.one_pos
      (by show G.length + 6 ≤ tokens.length
          omega)
  obtain ⟨us, hus⟩ : ∃ us, tokens = t :: us := by
    rw [htokens, htail]
    exact ⟨_, rfl⟩
  subst hus
  refine ⟨function, after.recovered, ?_, hkind, ?_, ?_⟩
  · have hleads := declaration_leads ht hend hlength hparse hrest hposition
      (Nat.succ_pos _) herror
    rw [hitems] at hleads
    exact hleads
  · rw [hfirst, State.mark_cons rfl ht]
    rfl
  · rw [hstop, State.mark_cons rfl ht]
    rfl

open Grammar Written Lexeme in
/-- `void f ( ) { 1 ) 1 ( ] ; } int y ;`: the brackets are of all sorts and
there is one too many that closes, but none that opens. -/
theorem body_contained_unbalanced :
    let head := heap [keyword "void", name "f", punct "(", punct ")",
      punct "\x7b"]
    let G := heap [number "1", punct ")", number "1", punct "(", punct "]"]
    let B := heap [keyword "int", name "y", punct ";"]
    let semicolon := (punct ";").token (⟨0, 0⟩, .start)
    let brace := (punct "\x7d").token (⟨0, 0⟩, .start)
    opensFunction head = true
      ∧ (∀ t ∈ G, t.isUnbraced = true)
      ∧ groupsAfter 0 G = 0
      ∧ semicolon.isPunct ";" = true
      ∧ brace.isPunct "\x7d" = true
      ∧ Token.endOfInput.isEnd = true
      ∧ (ParseOutcome.ofTokens .strict B).errors = []
      ∧ ∃ function behindBad,
        (ParseOutcome.ofTokens .tolerant (head ++ (G ++ semicolon :: brace
            :: (B ++ [.endOfInput])))).tree.children
          = function :: (ParseOutcome.ofTokens .strict B).tree.children.map
            (Node.displace (G.length + 7) behindBad)
        ∧ function.kind = .functionDefinition ∧ function.first = 0
        ∧ function.stop = G.length + 7 := by
  intro head G B semicolon brace
  have hhead : opensFunction head = true := by decide
  have unbraced : ∀ t ∈ G, t.isUnbraced = true := by decide
  have closed : groupsAfter 0 G = 0 := by decide
  have hsemicolon : semicolon.isPunct ";" = true := by decide
  have hbrace : brace.isPunct "\x7d" = true := by decide
  have clean : (ParseOutcome.ofTokens .strict B).errors = [] := by
    decide +kernel
  exact ⟨hhead, unbraced, closed, hsemicolon, hbrace, rfl, clean,
    body_contained hhead unbraced closed hsemicolon hbrace rfl clean⟩

open Grammar Written Lexeme in
/-- Without that it fails. In `void f ( ) { 1 1 ( ; } int y ;` the closing
brace of the function is taken for the end of the group that `(` opens, so
that the function goes on to the end of the text and is lost. -/
theorem body_not_contained :
    ¬ ∀ (head G B : List Token) (semicolon brace e : Token),
      opensFunction head = true → (∀ t ∈ G, t.isUnbraced = true) →
      semicolon.isPunct ";" = true → brace.isPunct "\x7d" = true →
      e.isEnd = true → (ParseOutcome.ofTokens .strict B).errors = [] →
      ∃ function behindBad,
        (ParseOutcome.ofTokens .tolerant (head ++ (G ++ semicolon :: brace
            :: (B ++ [e])))).tree.children
          = function :: (ParseOutcome.ofTokens .strict B).tree.children.map
            (Node.displace (G.length + 7) behindBad)
        ∧ function.kind = .functionDefinition ∧ function.first = 0
        ∧ function.stop = G.length + 7 := by
  intro h
  obtain ⟨function, behindBad, hchildren, -⟩ := h
    (heap [keyword "void", name "f", punct "(", punct ")", punct "\x7b"])
    (heap [number "1", number "1", punct "("])
    (heap [keyword "int", name "y", punct ";"])
    ((punct ";").token (⟨0, 0⟩, .start))
    ((punct "\x7d").token (⟨0, 0⟩, .start)) .endOfInput
    (by decide) (by decide) (by decide) (by decide) rfl (by decide +kernel)
  have hlength := congrArg List.length hchildren
  rw [List.length_cons, List.length_map] at hlength
  revert hlength
  decide +kernel

end FrontEnd
