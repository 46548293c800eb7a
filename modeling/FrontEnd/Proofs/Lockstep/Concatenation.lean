/-
Two token lists that are read without an error, read as one.

The first list is compared with itself twice. Once with the end behind it
on both sides (`Parts` with `X = Y`), which shows that it ends with a token
that ends an item, if it holds anything but directives. And then with the
second list behind it (`unit_parting`), where it matters how it ends. Behind
the first list the second one is read as it is by itself (`Displaces`).

What keeps lists from composing is a count of angle brackets that begins in
the first and ends in the second one (`AnglesApart`). Whether a declaration
comes is asked with such a count: where a `<` opens template arguments,
the count looks for the bracket that closes them, but by the angle brackets
alone, which may lead it elsewhere if there are comparisons in parentheses
among the arguments.
-/
import Mathlib.Data.List.Infix
import FrontEnd.Proofs.Course.Unit
import FrontEnd.Proofs.Lockstep.Closing
import FrontEnd.Proofs.Lockstep.Displaced
import FrontEnd.Proofs.Lockstep.Policy
import FrontEnd.Proofs.Written.Lexemes

namespace FrontEnd

namespace Grammar

open EStateM (Result)

variable {tokens : List Token}

-- ============================================================ angle brackets

/-- Counts of angle brackets that begin with template arguments of the
first list do not end in the second one. -/
def AnglesApart (A B : List Token) : Prop :=
  ∀ us, us <:+ A → opensArguments true us = true →
    angleLength (declarationWindow + 1) 0 (us ++ B)
      = angleLength (declarationWindow + 1) 0 us

/-- The end does not add to a count. -/
theorem angleLength_append_end (window angles : Nat) (ts : List Token)
    {Z : List Token} (hZ : (tokenAt 0 Z).isEnd = true) :
    angleLength window angles (ts ++ Z) = angleLength window angles ts := by
  induction ts generalizing window angles with
  | nil => exact angleLength_end window angles hZ
  | cons t ts ih =>
    rw [List.cons_append]
    cases ht : t.isDirective with
    | true => rw [angleLength_directive ht, angleLength_directive ht, ih]
    | false =>
      have hnot : ¬t.isDirective = true := by simp [ht]
      cases window with
      | zero => rw [angleLength, angleLength, if_neg hnot, if_neg hnot]
      | succ window =>
        rw [angleLength, angleLength, if_neg hnot, if_neg hnot]
        simp only [ih]

theorem tokenAt_end {e : Token} (he : e.isEnd = true) :
    (tokenAt 0 [e]).isEnd = true := by
  rw [tokenAt, if_neg (by grind)]
  exact he

/-- The lists part where the first one ends, if that is the end of an
item. -/
theorem Parts.ofApart {A B : List Token} {e f : Token}
    (unended : ∀ t ∈ A, t.isEnd = false) (he : e.isEnd = true)
    (hf : f.isEnd = true) (hends : visible A ≠ [] → EndsItem A)
    (hapart : AnglesApart A B) :
    Parts A (B ++ [f]) [e] where
  unended := unended
  ended := tokenAt_end he
  boundary := by
    refine .inr ⟨hends, fun us hus hne hopens => ?_⟩
    have hA : visible A ≠ [] := fun hA =>
      hne (List.suffix_nil.1 (hA ▸ visible_suffix hus))
    obtain ⟨V, c, hVc, hc⟩ := (hends hA).suffix hus hne
    have hopens : opensArguments true us = true := by
      rw [← opensArguments_visible, visible_append, hVc,
        List.append_assoc] at hopens
      rw [← opensArguments_visible, hVc]
      exact (opensArguments_boundary hc [] _ true V).trans hopens
    rw [← List.append_assoc, angleLength_append_end _ _ _ (tokenAt_end hf),
      angleLength_append_end _ _ _ (tokenAt_end he), hapart us hus hopens]

-- ========================================================== declarations

/-- The declarations of a strict reading. -/
abbrev declarations (tokens : List Token) (done : List Node) (s : State) :
    Gathered :=
  gather .strict none (parse .strict maxNesting .declaration)
    tokens.length done s

section

variable {s after : State} {done : List Node}

theorem declarations_end (h : (s.takeDirectives done).2.peek.isEnd = true) :
    declarations tokens done s
      = ⟨(s.takeDirectives done).1.reverse, (s.takeDirectives done).2, none⟩
      := by
  unfold declarations
  rw [gather_eq]
  exact if_pos (by simp [endsSequence, h])

theorem declarations_error {e : SyntaxError}
    (hend : (s.takeDirectives done).2.peek.isEnd = false)
    (h : parse .strict maxNesting .declaration (s.takeDirectives done).2
      = .error e after) :
    declarations tokens done s
      = ⟨(s.takeDirectives done).1.reverse, after, some e⟩ := by
  unfold declarations
  rw [gather_eq]
  dsimp only
  rw [if_neg (by simp [endsSequence, hend]), h]

/-- A declaration reads a token, so the next one follows. -/
theorem declarations_step {node : Node} (hs : s.Along tokens)
    (hend : (s.takeDirectives done).2.peek.isEnd = false)
    (h : parse .strict maxNesting .declaration (s.takeDirectives done).2
      = .ok node after) :
    s.position < after.settle.position
      ∧ declarations tokens done s
        = declarations tokens (node :: (s.takeDirectives done).1)
          after.settle := by
  have hstart := hs.directives done
  have hyields := parse_yields tokens .strict maxNesting .declaration _
    hstart.along
  obtain ⟨path, -, hcourse⟩ := hyields.runs
  rw [h] at hcourse
  have hafter : Leads tokens after after.settle :=
    (hcourse.leads hstart.along).along.settle
  have hmade := hyields.value h
  have hmoved : (s.takeDirectives done).2.position
      < after.settle.position := by
    have := hmade.first
    have := hmade.stop
    have := hmade.sound.nonempty
    have := hafter.position
    have := (s.takeDirectives done).2.position_le_mark
    omega
  have hposition := hstart.position
  refine ⟨by omega, ?_⟩
  unfold declarations
  rw [gather_eq]
  dsimp only
  rw [if_neg (by simp [endsSequence, hend]), h]
  dsimp only
  rw [State.pass_of_lt hmoved]
  exact if_pos ⟨by omega, hafter.along.within⟩

/-- Directives that were taken leave none behind. -/
theorem takeDirectives_again (s : State) (done : List Node) :
    (s.takeDirectives done).2.takeDirectives (s.takeDirectives done).1
      = s.takeDirectives done := by
  have hstate := s.takeDirectives_state done
  generalize s.takeDirectives done = r at *
  obtain ⟨done', s'⟩ := r
  dsimp only at *
  unfold State.takeDirectives
  have hrest : s'.rest = s.rest.dropWhile Token.isDirective := by rw [hstate]
  cases ahead_cases s.rest with
  | nothing _ hdrop =>
    rw [hdrop] at hrest
    rw [hrest, directives, ← hrest]
  | token t us ht _ hdrop =>
    rw [hdrop] at hrest
    rw [hrest, directives, if_neg (by simp [ht]), ← hrest]

/-- Directives may be taken beforehand. -/
theorem declarations_directives (hs : s.Along tokens) :
    declarations tokens (s.takeDirectives done).1 (s.takeDirectives done).2
      = declarations tokens done s := by
  have hstart := (hs.directives done).along
  have hagain := takeDirectives_again s done
  cases hend : (s.takeDirectives done).2.peek.isEnd with
  | true =>
    rw [declarations_end hend, declarations_end (hagain.symm ▸ hend), hagain]
  | false =>
    cases h : parse .strict maxNesting .declaration
      (s.takeDirectives done).2 with
    | error e after =>
      rw [declarations_error hend h, declarations_error (hagain.symm ▸ hend)
        (hagain.symm ▸ h), hagain]
    | ok node after =>
      rw [(declarations_step hs hend h).2,
        (declarations_step hstart (hagain.symm ▸ hend) (hagain.symm ▸ h)).2,
        hagain]

end

/-- No declaration begins with `catch`. -/
theorem declaration_catch (g : Inner) {s : State}
    (h : s.peek.isKeyword "catch" = true) :
    declaration g s = .error ⟨.unexpected, s.peek⟩ s := by
  obtain ⟨hkind, hvalue⟩ : s.peek.kind = .keyword
      ∧ s.peek.value = "catch" := by
    simpa [Token.isKeyword] using h
  have hround (m : Mark) : simpleRound g m ⟨[], false⟩ s
      = .error ⟨.unexpected, s.peek⟩ s := by
    unfold simpleRound
    rw [Lockstep.bind_apply]
    show (match s.peek.kind with | _ => _ : Parser _) s = _
    rw [hkind]
    show keywordRound g m _ s.peek s = _
    unfold keywordRound
    rw [hvalue]
    rfl
  -- no other declaration begins so either
  unfold declaration
  simp only [Lockstep.bind_apply, peek, peekAt, Lockstep.goOn]
  simp only [Token.isPunct, Token.isKeyword, hkind, hvalue]
  show simpleDeclaration g s = _
  unfold simpleDeclaration
  rw [Lockstep.bind_apply]
  show loopWithin s.size (simpleRound g s.mark) _ s = _
  rw [Lockstep.loopWithin_eq, hround]
  rfl

/-- No list that is read without an error begins with `catch`. -/
theorem declarations_catch
    (h : (declarations tokens [] (.start tokens)).error = none) :
    (tokenAt 0 tokens).isKeyword "catch" = false := by
  by_contra hcatch
  rw [Bool.not_eq_false] at hcatch
  have hpeek : ((State.start tokens).takeDirectives []).2.peek
      = tokenAt 0 tokens := by
    rw [State.takeDirectives_peek, State.peek_eq_tokenAt]
    rfl
  have herror := declaration_catch
    ⟨.strict, 255, parse .strict 255⟩ (hpeek ▸ hcatch)
  rw [declarations_error (by grind) herror] at h
  cases h

-- ================================================= the first list, to its end

variable {A X Y : List Token}

/-- A state with the tokens `W` of `A` in front of it is on its way. -/
theorem along_of_suffix {W Z : List Token} {s : State}
    (unended : ∀ t ∈ A, t.isEnd = false) (hsuffix : W <:+ A)
    (hread : s.position + W.length = A.length) (hrest : s.rest = W ++ Z)
    (hsize : s.size = (A ++ Z).length) : s.Along (A ++ Z) := by
  obtain ⟨U, rfl⟩ := hsuffix
  have hposition : s.position = U.length := by
    rw [List.length_append] at hread
    omega
  refine ⟨?_, hsize, ?_, fun u hu => unended u ?_⟩
  · rw [hrest, hposition, List.append_assoc, List.drop_left]
  · rw [hposition]
    simp only [List.length_append]
    omega
  · rw [hposition, List.append_assoc, List.take_left] at hu
    exact List.mem_append_left _ hu

section

variable {W : List Token} {s t : State} (hp : Parts A X Y)
  (h : Beside A X Y W s t)
include hp h

theorem Beside.along : t.Along (A ++ Y) :=
  along_of_suffix hp.unended h.suffix h.read h.rest h.size

theorem Beside.along_first : s.Along (A ++ X) := by
  rw [h.first]
  exact along_of_suffix hp.unended h.suffix h.read rfl rfl

end

theorem Near.peek_isEnd {s t : State} (hp : Parts A X Y)
    (h : Near A X Y s t) : t.peek.isEnd = false := by
  obtain ⟨D, x, us, hD, hx, -, ht, h⟩ := h.split
  rw [State.peek_split hD hx ht]
  exact hp.unended x (h.suffix.subset (by simp))

/-- Where the readings have read `A`, both have read the same, if no error
comes. -/
theorem declarations_over (hp : Parts A X Y)
    (hcatch : (tokenAt 0 X).isKeyword "catch" = false)
    (done : List Node) {s t : State} (h : Near A X Y s t)
    (hclean : (declarations (A ++ Y) done t).error = none) :
    ∃ done' s' t', Over A X Y s' t'
      ∧ declarations (A ++ X) done s = declarations (A ++ X) done' s'
      ∧ declarations (A ++ Y) done t = declarations (A ++ Y) done' t' := by
  induction done, t using gather_induction (A ++ Y).length
    generalizing s with
  | step done t ih =>
    obtain ⟨W, hbeside, hW⟩ := h
    have hs := hbeside.along_first hp
    have ht := hbeside.along hp
    obtain ⟨hdone, h⟩ := Near.directives ⟨W, hbeside, hW⟩ done
    have hend := h.peek_isEnd hp
    cases hq : parse .strict maxNesting .declaration
      (t.takeDirectives done).2 with
    | error e t₂ =>
      rw [declarations_error hend hq] at hclean
      cases hclean
    | ok node t₂ =>
      obtain ⟨hmoved, hstep⟩ := declarations_step ht hend hq
      have first {s₂ : State}
          (hp : parse .strict maxNesting .declaration
            (s.takeDirectives done).2 = .ok node s₂) :
          declarations (A ++ X) done s = declarations (A ++ X)
            (node :: (t.takeDirectives done).1) s₂.settle := by
        rw [← hdone]
        exact (declarations_step hs (h.peek ▸ hend) hp).2
      rcases (parse_closing (T := Any) hp hcatch maxNesting).both h trivial hq
        with ⟨s₂, hfirst, h₂⟩ | ⟨-, hover⟩
      · have h₃ := h₂.settle
        obtain ⟨W', hbeside', -⟩ := h₃
        obtain ⟨done', s', t', hover, hx, hy⟩ := ih
          (node :: (t.takeDirectives done).1) t₂.settle hmoved
          (hbeside'.along hp).within h₂.settle (hstep ▸ hclean)
        exact ⟨done', s', t', hover, (first hfirst).trans hx,
          hstep.trans hy⟩
      · obtain ⟨s₂, hfirst, hends, W', hbeside', hW'⟩ := hover trivial
        exact ⟨_, s₂.settle, t₂.settle, ⟨hends, W', hbeside'.settle, hW'⟩,
          first hfirst, hstep⟩

-- ============================================================ behind the list

/-- A list of directives is taken at one go. -/
theorem directives_append {W : List Token} (hW : visible W = [])
    (recovered : Bool) (done : List Node) (index : Nat) (Z : List Token) :
    directives recovered done index (W ++ Z)
      = directives recovered (directives recovered done index W).1
        (index + W.length) Z := by
  induction W generalizing done index with
  | nil => rfl
  | cons t W ih =>
    cases ht : t.isDirective with
    | false =>
      rw [visible_cons ht] at hW
      cases hW
    | true =>
      rw [visible_cons_of_directive ht] at hW
      rw [List.cons_append, directives, if_pos ht, directives, if_pos ht,
        ih hW, List.length_cons]
      congr 1
      omega

theorem takeDirectives_append {W Z : List Token} (hW : visible W = [])
    {s : State} (hrest : s.rest = W ++ Z) (done : List Node) :
    s.takeDirectives done
      = { s with rest := Z, position := s.position + W.length : State
          }.takeDirectives
        (directives s.recovered done s.position W).1 := by
  unfold State.takeDirectives
  rw [hrest, directives_append hW]

/-- The readings come to where only directives of `A` are left. -/
theorem declarations_reach (hp : Parts A X Y)
    (hcatch : (tokenAt 0 X).isKeyword "catch" = false)
    (hclean : (declarations (A ++ Y) [] (.start (A ++ Y))).error = none) :
    ∃ done W s t, Beside A X Y W s t ∧ visible W = []
      ∧ (visible A ≠ [] → EndsItem A)
      ∧ declarations (A ++ X) [] (.start (A ++ X))
        = declarations (A ++ X) done s
      ∧ declarations (A ++ Y) [] (.start (A ++ Y))
        = declarations (A ++ Y) done t := by
  have hstart : Beside A X Y A (.start (A ++ X)) (.start (A ++ Y)) :=
    ⟨List.suffix_refl _, Nat.zero_add _, rfl, rfl, rfl⟩
  by_cases hA : visible A = []
  · exact ⟨[], A, _, _, hstart, hA, fun h => absurd hA h, rfl, rfl⟩
  · obtain ⟨done, s, t, ⟨hends, W, hbeside, hW⟩, hx, hy⟩ :=
      declarations_over hp hcatch [] ⟨A, hstart, hA⟩ hclean
    exact ⟨done, W, s, t, hbeside, hW, fun _ => hends, hx, hy⟩

/-- No state of a strict reading tells of bad input. -/
theorem declarations_clean (tokens : List Token) :
    (declarations tokens [] (.start tokens)).state.Clean :=
  (unit_agree tokens).clean

/-- Behind the first list and its declarations, the second list comes. -/
theorem declarations_behind {e : Token} (he : e.isEnd = true)
    (hp : Parts A X [e])
    (hcatch : (tokenAt 0 X).isKeyword "catch" = false)
    (hclean : (declarations (A ++ [e]) [] (.start (A ++ [e]))).error
      = none) :
    ∃ s, Displaced A.length false (.start X) s
      ∧ declarations (A ++ X) [] (.start (A ++ X))
        = declarations (A ++ X)
          (declarations (A ++ [e]) [] (.start (A ++ [e]))).items.reverse s
      := by
  obtain ⟨done, W, s, t, h, hW, -, hx, hy⟩ :=
    declarations_reach hp hcatch hclean
  have hread := h.read
  have hs := h.along_first hp
  have htaken : (t.takeDirectives done).2.peek.isEnd = true := by
    rw [t.takeDirectives_peek]
    exact h.ended hp hW
  have hsound := declarations_clean (A ++ [e])
  rw [hy, declarations_end htaken] at hsound
  have hrecovered : t.recovered = false := hsound.recovered
  obtain ⟨s₂, hs₂⟩ : ∃ s₂ : State, s₂ = { s with
    rest := X, position := s.position + W.length } := ⟨_, rfl⟩
  have hposition : s₂.position = A.length := by
    rw [hs₂, h.first]
    exact hread
  have hsize : s₂.size = (A ++ X).length := by
    rw [hs₂, h.first]
  have hrest : s₂.rest = X := by rw [hs₂]
  refine ⟨s₂, ⟨hrest, ?_, ?_, ?_⟩, ?_⟩
  · rw [hposition]
    exact (Nat.zero_add _).symm
  · rw [hsize, List.length_append]
    exact Nat.add_comm _ _
  · rw [hs₂, h.first]
    exact hrecovered
  -- the directives that are left of `A` are taken by both
  have hitems : (t.takeDirectives done).1
      = (directives t.recovered done t.position W).1 := by
    rw [takeDirectives_append hW h.rest]
    unfold State.takeDirectives
    rw [directives, if_neg (by grind)]
  have htake : s.takeDirectives done
      = s₂.takeDirectives (t.takeDirectives done).1 := by
    have hrest : s.rest = W ++ X := by rw [h.first]
    have hsame : (directives s.recovered done s.position W).1
        = (directives t.recovered done t.position W).1 := by rw [h.first]
    rw [takeDirectives_append hW hrest, hitems, hs₂, hsame]
  have halong : s₂.Along (A ++ X) :=
    along_of_suffix hp.unended (List.nil_suffix) (by simp [hposition]) hrest
      hsize
  rw [hx, hy, declarations_end htaken, List.reverse_reverse,
    ← declarations_directives hs, htake, declarations_directives halong]

/-- The second list is read as by itself. -/
theorem declarations_compose {e : Token} (he : e.isEnd = true)
    (hp : Parts A X [e])
    (cleanA : (declarations (A ++ [e]) [] (.start (A ++ [e]))).error = none)
    (cleanX : (declarations X [] (.start X)).error = none) :
    (declarations (A ++ X) [] (.start (A ++ X))).error = none
      ∧ (declarations (A ++ X) [] (.start (A ++ X))).items
        = (declarations (A ++ [e]) [] (.start (A ++ [e]))).items
          ++ (declarations X [] (.start X)).items.map
            (Node.displace A.length false) := by
  obtain ⟨s, hdisplaced, heq⟩ :=
    declarations_behind he hp (declarations_catch cleanX) cleanA
  have hitem := Lockstep.parse_inStep
    (displacing_lawful .strict A.length false) maxNesting .declaration
  have hdisplaces := gather_displaces hitem none X.length
    (declarations (A ++ [e]) [] (.start (A ++ [e]))).items.reverse []
    hdisplaced
  have hlength : (A ++ X).length = X.length + A.length := by
    rw [List.length_append, Nat.add_comm]
  rw [heq]
  unfold declarations at *
  rw [hlength]
  rcases hdisplaces with ⟨hitems, herror, -⟩ | ⟨herror, -⟩
  · rw [List.reverse_reverse] at hitems
    exact ⟨herror.trans cleanX, hitems⟩
  · exact absurd cleanX herror

end Grammar

-- ================================================================== units

namespace ParseOutcome

open Grammar

variable {tokens : List Token}

theorem strict_errors_iff : (ofTokens .strict tokens).errors = []
    ↔ (declarations tokens [] (.start tokens)).error = none := by
  have hclean := declarations_clean tokens
  unfold ofTokens
  dsimp only
  unfold declarations at *
  rw [hclean.errors]
  cases (gather .strict none (parse .strict maxNesting .declaration)
    tokens.length [] (.start tokens)).error with
  | none => simp
  | some e => simp

end ParseOutcome

open Grammar in
/-- Two token lists that are read without an error each are read without
an error as one, and the declarations are those of the first and of the
second list, if no count of angle brackets leads from the one into the
other. -/
theorem clean_compose {A B : List Token} {e f : Token}
    (unended : ∀ t ∈ A, t.isEnd = false) (he : e.isEnd = true)
    (hf : f.isEnd = true)
    (cleanA : (ParseOutcome.ofTokens .strict (A ++ [e])).errors = [])
    (cleanB : (ParseOutcome.ofTokens .strict (B ++ [f])).errors = [])
    (hapart : AnglesApart A B) :
    let whole := ParseOutcome.ofTokens .strict (A ++ (B ++ [f]))
    whole.errors = []
      ∧ whole.tree.children
        = (ParseOutcome.ofTokens .strict (A ++ [e])).tree.children
          ++ (ParseOutcome.ofTokens .strict (B ++ [f])).tree.children.map
            (Node.displace A.length false) := by
  intro whole
  rw [ParseOutcome.strict_errors_iff] at cleanA cleanB
  have hsame : Parts A [e] [e] := ⟨unended, tokenAt_end he, .inl rfl⟩
  have hcatch : (tokenAt 0 [e]).isKeyword "catch" = false := by
    have := hsame.ended
    grind
  obtain ⟨-, -, -, -, -, -, hends, -⟩ :=
    declarations_reach hsame hcatch cleanA
  have hp := Parts.ofApart unended he hf hends hapart
  obtain ⟨herror, hitems⟩ := declarations_compose he hp cleanA cleanB
  exact ⟨ParseOutcome.strict_errors_iff.2 herror, hitems⟩

open Written in
/-- The tokens of lexemes that all stand at the same place. -/
def Written.heap (ls : List Lexeme) : List Token :=
  ls.map (·.token (⟨0, 0⟩, .start))

open Grammar Written Lexeme in
/-- `pair < int > x ;` and `int y = 1 > z ;`: the closing bracket of the
second list is not counted for the first. -/
theorem clean_compose_pair :
    let A := heap [name "pair", operator "<", keyword "int", operator ">",
      name "x", punct ";"]
    let B := heap [keyword "int", name "y", operator "=", number "1",
      operator ">", name "z", punct ";"]
    (∀ t ∈ A, t.isEnd = false)
      ∧ Token.endOfInput.isEnd = true
      ∧ (ParseOutcome.ofTokens .strict (A ++ [.endOfInput])).errors = []
      ∧ (ParseOutcome.ofTokens .strict (B ++ [.endOfInput])).errors = []
      ∧ AnglesApart A B
      ∧ let whole := ParseOutcome.ofTokens .strict (A ++ (B ++ [.endOfInput]))
        whole.errors = []
          ∧ whole.tree.children
            = (ParseOutcome.ofTokens .strict
                (A ++ [.endOfInput])).tree.children
              ++ (ParseOutcome.ofTokens .strict
                (B ++ [.endOfInput])).tree.children.map
                (Node.displace A.length false) := by
  intro A B
  have unended : ∀ t ∈ A, t.isEnd = false := by decide
  have cleanA : (ParseOutcome.ofTokens .strict
    (A ++ [.endOfInput])).errors = [] := by decide +kernel
  have cleanB : (ParseOutcome.ofTokens .strict
    (B ++ [.endOfInput])).errors = [] := by decide +kernel
  have hapart : AnglesApart A B := by
    intro us hus
    revert us
    simp only [← List.mem_tails]
    decide +kernel
  exact ⟨unended, rfl, cleanA, cleanB, hapart,
    clean_compose unended rfl rfl cleanA cleanB hapart⟩

open Grammar Written Lexeme in
/-- Without that it fails. In `a < ( b < c ) > x ;` the arguments of `a`
end in front of `x`, but the count goes on to the bracket of the second
list, where it finds the name of something declared. So what was an
expression by itself becomes a declaration. -/
theorem clean_not_compose :
    ¬ ∀ A B : List Token, (∀ t ∈ A, t.isEnd = false) →
      (∀ t ∈ B, t.isEnd = false) →
      (ParseOutcome.ofTokens .strict (A ++ [.endOfInput])).errors = [] →
      (ParseOutcome.ofTokens .strict (B ++ [.endOfInput])).errors = [] →
      let whole := ParseOutcome.ofTokens .strict (A ++ (B ++ [.endOfInput]))
      whole.errors = []
        ∧ whole.tree.children
          = (ParseOutcome.ofTokens .strict
              (A ++ [.endOfInput])).tree.children
            ++ (ParseOutcome.ofTokens .strict
              (B ++ [.endOfInput])).tree.children.map
              (Node.displace A.length false) := by
  intro h
  have hchildren := (h
    (heap [keyword "void", name "f", punct "(", punct ")", punct "\x7b",
      name "a", operator "<", punct "(", name "b", operator "<", name "c",
      punct ")", operator ">", name "x", punct ";", punct "\x7d"])
    (heap [keyword "int", name "y", operator "=", number "1", operator ">",
      name "z", punct ";"])
    (by decide) (by decide) (by decide +kernel) (by decide +kernel)).2
  have hkinds := congrArg (fun ns : List Node =>
    ns.flatMap fun n => n.preorder.map Node.kind) hchildren
  revert hkinds
  decide +kernel

end FrontEnd
