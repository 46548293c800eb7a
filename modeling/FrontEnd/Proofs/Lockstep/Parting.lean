/-
Readings of the same tokens with different ones behind them.

The first reading is one of `A ++ X`, the second one of `A ++ Y`, where
`Y` begins with the end. As long as there is a token of `A` to come, they
are in step: they stand at the same place, and see the same. They part
where the second one has read the last token of `A`. From then on it
reads nothing, and nothing is said of the first one.

For the rules to see the same, `A` has to end with the token that ends an
item, and the counts of template arguments that begin in `A` must not end
in `X` (`Parts`). If `X` is `Y`, that does not matter.
-/
import FrontEnd.Proofs.Course.Sequence
import FrontEnd.Proofs.Lockstep.Boundary
import FrontEnd.Proofs.Lockstep.Statement

namespace FrontEnd

-- ================================================================== items

/-- The last token of the list that is no directive ends an item. -/
def EndsItem (ts : List Token) : Prop :=
  ∃ V c, visible ts = V ++ [c] ∧ c.shuts = true

theorem visible_suffix {us ts : List Token} (h : us <:+ ts) :
    visible us <:+ visible ts :=
  h.filter _

theorem mem_visible {t : Token} {ts : List Token} (h : t ∈ visible ts) :
    t.isDirective = false := by
  simpa using (List.mem_filter.1 h).2

/-- What is visible of a list can be cut where the list is cut. -/
theorem exists_suffix_visible {vs ts : List Token}
    (h : vs <:+ visible ts) : ∃ us, us <:+ ts ∧ visible us = vs := by
  induction ts with
  | nil => exact ⟨[], List.suffix_refl _, (List.suffix_nil.1 h).symm⟩
  | cons t ts ih =>
    cases ht : t.isDirective with
    | true =>
      rw [visible_cons_of_directive ht] at h
      obtain ⟨us, hus, hvs⟩ := ih h
      exact ⟨us, hus.trans (List.suffix_cons _ _), hvs⟩
    | false =>
      rw [visible_cons ht, List.suffix_cons_iff] at h
      rcases h with rfl | h
      · exact ⟨t :: ts, List.suffix_refl _, visible_cons ht ts⟩
      · obtain ⟨us, hus, hvs⟩ := ih h
        exact ⟨us, hus.trans (List.suffix_cons _ _), hvs⟩

theorem EndsItem.suffix {us ts : List Token} (h : EndsItem ts)
    (hus : us <:+ ts) (hne : visible us ≠ []) : EndsItem us := by
  obtain ⟨V, c, hts, hc⟩ := h
  obtain ⟨U, hU⟩ := visible_suffix hus
  refine ⟨(visible us).dropLast, c, ?_, hc⟩
  have hlast : (visible us).getLast hne = c := by
    have : (visible ts).getLast? = some c := by
      rw [hts, List.getLast?_concat]
    rw [← hU, List.getLast?_append_of_ne_nil _ hne,
      List.getLast?_eq_some_getLast hne] at this
    exact Option.some.inj this
  rw [← hlast, List.dropLast_append_getLast]

/-- A list with a visible token begins with directives and one. -/
theorem visible_split {ts : List Token} (h : visible ts ≠ []) :
    ∃ D x us, ts = D ++ x :: us ∧ (∀ d ∈ D, d.isDirective = true)
      ∧ x.isDirective = false := by
  induction ts with
  | nil => exact absurd rfl h
  | cons t ts ih =>
    cases ht : t.isDirective with
    | false => exact ⟨[], t, ts, rfl, nofun, ht⟩
    | true =>
      rw [visible_cons_of_directive ht] at h
      obtain ⟨D, x, us, rfl, hD, hx⟩ := ih h
      exact ⟨t :: D, x, us, rfl, by simpa [ht] using hD, hx⟩

namespace Grammar

open EStateM (Result)

-- ===================================================== the token that comes

section

variable {D : List Token} (hD : ∀ d ∈ D, d.isDirective = true) {x : Token}
  (hx : x.isDirective = false) {ts : List Token}
include hD hx

theorem significant_split (index : Nat) :
    significant index (D ++ x :: ts) = (index + D.length, x :: ts) := by
  induction D generalizing index with
  | nil =>
    rw [List.nil_append, significant, if_neg (by simp [hx])]
    rfl
  | cons d D ih =>
    rw [List.cons_append, significant, if_pos (hD d (List.mem_cons_self ..)),
      ih fun u hu => hD u (List.mem_cons_of_mem _ hu)]
    congr 1
    rw [List.length_cons]
    omega

theorem directives_split (recovered : Bool) (done : List Node)
    (index : Nat) :
    directives recovered done index (D ++ x :: ts)
      = ((directives recovered done index D).1, index + D.length,
        x :: ts) := by
  induction D generalizing done index with
  | nil =>
    show directives recovered done index (x :: ts) = (done, index, x :: ts)
    rw [directives, if_neg (by simp [hx])]
  | cons d D ih =>
    have hd := hD d (List.mem_cons_self ..)
    rw [List.cons_append, directives, if_pos hd, directives, if_pos hd,
      ih fun u hu => hD u (List.mem_cons_of_mem _ hu)]
    congr 2
    rw [List.length_cons]
    omega

variable {s : State} (hrest : s.rest = D ++ x :: ts)
include hrest

theorem State.peek_split : s.peek = x := by
  unfold State.peek
  rw [hrest, significant_split hD hx]
  rfl

theorem State.mark_split :
    s.mark = ⟨s.position + D.length, x.location⟩ := by
  unfold State.mark
  rw [hrest, significant_split hD hx]
  rfl

theorem State.advance_split (hend : x.isEnd = false) :
    s.advance = { s with
      rest := ts, position := s.position + D.length + 1
      depth := depthAfter x s.depth } := by
  unfold State.advance
  rw [hrest, significant_split hD hx]
  exact if_neg (by simp [hend])

end

-- ========================================================== the relations

/-- Two readings with the tokens `W` of `A` in front of them. -/
structure Beside (A X Y W : List Token) (s t : State) : Prop where
  suffix : W <:+ A
  read : t.position + W.length = A.length
  rest : t.rest = W ++ Y
  size : t.size = (A ++ Y).length
  first : s = { t with rest := W ++ X, size := (A ++ X).length }

/-- What lets the readings see the same. -/
structure Parts (A X Y : List Token) : Prop where
  unended : ∀ t ∈ A, t.isEnd = false
  ended : (tokenAt 0 Y).isEnd = true
  boundary : X = Y ∨ (visible A ≠ [] → EndsItem A) ∧
    ∀ us, us <:+ A → visible us ≠ [] →
    opensArguments true (us ++ X) = true →
      angleLength (declarationWindow + 1) 0 (us ++ X)
        = angleLength (declarationWindow + 1) 0 (us ++ Y)

/-- Both readings have a token of `A` to come. -/
def Near (A X Y : List Token) (s t : State) : Prop :=
  ∃ W, Beside A X Y W s t ∧ visible W ≠ []

/-- A reading of `A ++ X` first, one of `A ++ Y` second. -/
def parting (A X Y : List Token) : Lockstep where
  first := .strict
  second := .strict
  token := Eq
  mark := Eq
  node := Eq
  nodes := Eq
  error := Eq
  state := Near A X Y
  since _ _ _ _ := True
  since_refl _ _ := trivial
  since_trans _ _ := trivial
  apart _ t := t.peek.isEnd = true
  apart_after _ _ := id

variable {A X Y : List Token}

namespace Near

variable {s t : State} (h : Near A X Y s t)
include h

theorem position : s.position = t.position := by
  obtain ⟨W, h, -⟩ := h
  rw [h.first]

theorem node (kind : NodeKind) (m : Mark) (children : List Node) :
    s.node kind m children = t.node kind m children := by
  obtain ⟨W, h, -⟩ := h
  rw [h.first]
  rfl

theorem within : t.position ≤ A.length ∧ A.length ≤ s.size
    ∧ A.length ≤ t.size := by
  obtain ⟨W, h, -⟩ := h
  have := h.read
  rw [h.size, h.first, List.length_append, List.length_append]
  dsimp only
  omega

/-- The directives that come, the token behind them, and the rest. -/
theorem split : ∃ D x us, (∀ d ∈ D, d.isDirective = true)
    ∧ x.isDirective = false
    ∧ s.rest = D ++ x :: (us ++ X) ∧ t.rest = D ++ x :: (us ++ Y)
    ∧ Beside A X Y (D ++ x :: us) s t := by
  obtain ⟨W, h, hW⟩ := h
  obtain ⟨D, x, us, rfl, hD, hx⟩ := visible_split hW
  refine ⟨D, x, us, hD, hx, ?_, ?_, h⟩
  · rw [h.first]
    exact List.append_assoc ..
  · exact h.rest.trans (List.append_assoc ..)

theorem peek : s.peek = t.peek := by
  obtain ⟨D, x, us, hD, hx, hs, ht, -⟩ := h.split
  rw [State.peek_split hD hx hs, State.peek_split hD hx ht]

theorem mark : s.mark = t.mark := by
  obtain ⟨D, x, us, hD, hx, hs, ht, -⟩ := h.split
  rw [State.mark_split hD hx hs, State.mark_split hD hx ht, h.position]

end Near

-- ================================================================ advance

/-- The second reading has read all of `A`, the last token of which ends
an item; the first one has the tokens of `X` to come. -/
def Over (A X Y : List Token) (s t : State) : Prop :=
  EndsItem A ∧ ∃ W, Beside A X Y W s t ∧ visible W = []

namespace Over

variable {s t : State} (h : Over A X Y s t)
include h

theorem position : s.position = t.position := by
  obtain ⟨-, W, h, -⟩ := h
  rw [h.first]

theorem within : t.position ≤ A.length := by
  obtain ⟨-, W, h, -⟩ := h
  exact Nat.le.intro h.read

/-- What comes next is what `X` begins with. -/
theorem peek : s.peek = tokenAt 0 X := by
  obtain ⟨-, W, h, hW⟩ := h
  rw [h.first, State.peek_eq_tokenAt]
  dsimp only
  rw [← tokenAt_visible, visible_append, hW, List.nil_append,
    tokenAt_visible]

end Over

/-- In front of the end. -/
theorem Beside.ended {W : List Token} {s t : State}
    (hp : Parts A X Y) (h : Beside A X Y W s t) (hW : visible W = []) :
    t.peek.isEnd = true := by
  rw [State.peek_eq_tokenAt, h.rest, ← tokenAt_visible, visible_append, hW,
    List.nil_append, tokenAt_visible]
  exact hp.ended

/-- The next token is read. -/
theorem Near.advance {s t : State} (hp : Parts A X Y)
    (h : Near A X Y s t) :
    Near A X Y s.advance t.advance
      ∨ t.advance.peek.isEnd = true
        ∧ (t.peek.shuts = true → Over A X Y s.advance t.advance) := by
  obtain ⟨D, x, us, hD, hx, hs, ht, h⟩ := h.split
  have hend : x.isEnd = false :=
    hp.unended x (h.suffix.subset (by simp))
  have hus : us <:+ A :=
    ((List.suffix_cons x us).trans (List.suffix_append D _)).trans h.suffix
  have hlength := h.read
  have hbeside : Beside A X Y us s.advance t.advance := by
    rw [State.advance_split hD hx hs hend,
      State.advance_split hD hx ht hend]
    refine ⟨hus, ?_, rfl, h.size, ?_⟩
    · rw [List.length_append, List.length_cons] at hlength
      dsimp only
      omega
    · rw [h.first]
  by_cases hW : visible us = []
  · refine .inr ⟨hbeside.ended hp hW, fun hshuts => ⟨?_, us, hbeside, hW⟩⟩
    rw [State.peek_split hD hx ht] at hshuts
    obtain ⟨U, hU⟩ := h.suffix
    refine ⟨visible U ++ visible D, x, ?_, hshuts⟩
    rw [← hU, visible_append, visible_append, visible_cons hx, hW,
      List.append_assoc]
  · exact .inl ⟨us, hbeside, hW⟩

-- =========================================================== the tokens ahead

/-- In front of the token that ends the item comes another one. -/
theorem ne_nil_of_not_shuts {c : Token} (hc : c.shuts = true)
    {V Z : List Token} (hV : ∀ t ∈ V, t.isDirective = false) {s : State}
    (hrest : visible s.rest = V ++ c :: Z) (hnot : s.peek.shuts = false) :
    V ≠ [] := by
  rintro rfl
  have hfirst : tokenAt 0 ([] ++ c :: Z) = c := tokenAt_shuts hc hV Z
  rw [State.peek_eq_tokenAt, ← tokenAt_visible, hrest, hfirst, hc] at hnot
  cases hnot

section

variable {s t : State} (hp : Parts A X Y) (h : Near A X Y s t)
include hp h

/-- Either the same tokens come, or tokens of `A` up to one that ends an
item, among which template arguments have the same length. -/
theorem Near.ahead : s.rest = t.rest ∨ ∃ V c,
    (∀ t ∈ V, t.isDirective = false) ∧ c.shuts = true
    ∧ visible s.rest = V ++ c :: visible X
    ∧ visible t.rest = V ++ c :: visible Y
    ∧ ∀ k ≤ V.length,
      opensArguments true (V.drop k ++ c :: visible X) = true →
        angleLength (declarationWindow + 1) 0 (V.drop k ++ c :: visible X)
          = angleLength (declarationWindow + 1) 0
            (V.drop k ++ c :: visible Y) := by
  obtain ⟨W, h, hW⟩ := h
  rcases hp.boundary with heq | ⟨hends, hcount⟩
  · left
    rw [h.first, h.rest, heq]
  · right
    have hA : visible A ≠ [] := fun hA =>
      hW (List.suffix_nil.1 (hA ▸ visible_suffix h.suffix))
    obtain ⟨V, c, hVc, hc⟩ := (hends hA).suffix h.suffix hW
    have cut (Z : List Token) (us : List Token) (k : Nat)
        (hus : visible us = V.drop k ++ [c]) :
        visible (us ++ Z) = V.drop k ++ c :: visible Z := by
      rw [visible_append, hus, List.append_assoc]
      rfl
    refine ⟨V, c, ?_, hc, ?_, ?_, ?_⟩
    · intro t ht
      exact mem_visible (hVc ▸ List.mem_append_left _ ht)
    · rw [h.first]
      exact cut X W 0 hVc
    · rw [h.rest]
      exact cut Y W 0 hVc
    · intro k hk hopens
      have hsuffix : V.drop k ++ [c] <:+ visible W := by
        rw [hVc]
        exact ⟨V.take k, by
          rw [← List.append_assoc, List.take_append_drop]⟩
      obtain ⟨us, hus, hvs⟩ := exists_suffix_visible hsuffix
      rw [← cut X us k hvs] at hopens ⊢
      rw [← cut Y us k hvs, angleLength_visible, angleLength_visible]
      rw [opensArguments_visible] at hopens
      exact hcount us (hus.trans h.suffix) (by simp [hvs]) hopens

theorem Near.next (hnot : s.peek.shuts = false) :
    tokenAt 1 s.rest = tokenAt 1 t.rest := by
  rcases h.ahead hp with heq | ⟨V, c, hV, hc, hs, ht, -⟩
  · rw [heq]
  · have hne := ne_nil_of_not_shuts hc hV hs hnot
    rw [← tokenAt_visible, hs, ← tokenAt_visible 1 t.rest, ht]
    exact tokenAt_boundary hc hV _ _ (List.length_pos_of_ne_nil hne)

theorem Near.arguments (declaration : Bool) :
    opensArguments declaration s.rest = opensArguments declaration t.rest
      := by
  rcases h.ahead hp with heq | ⟨V, c, hV, hc, hs, ht, -⟩
  · rw [heq]
  · rw [← opensArguments_visible, hs, ← opensArguments_visible _ t.rest, ht]
    exact opensArguments_boundary hc _ _ _ _

theorem Near.cast (hnot : s.peek.shuts = false) :
    opensCast s.rest = opensCast t.rest := by
  rcases h.ahead hp with heq | ⟨V, c, hV, hc, hs, ht, -⟩
  · rw [heq]
  · have hne := ne_nil_of_not_shuts hc hV hs hnot
    rw [← opensCast_visible, hs, ← opensCast_visible t.rest, ht]
    exact opensCast_boundary hc hV _ _ hne

theorem Near.declaration :
    opensDeclaration s.rest = opensDeclaration t.rest := by
  rcases h.ahead hp with heq | ⟨V, c, hV, hc, hs, ht, hcount⟩
  · rw [heq]
  · rw [← opensDeclaration_visible, hs, ← opensDeclaration_visible t.rest,
      ht]
    exact opensDeclaration_boundary hc hV _ _
      ((tokenAt_visible 0 Y).symm ▸ hp.ended) hcount

theorem Near.label : memberLabel s.rest = memberLabel t.rest := by
  rcases h.ahead hp with heq | ⟨V, c, hV, hc, hs, ht, -⟩
  · rw [heq]
  · rw [← memberLabel_visible, hs, ← memberLabel_visible t.rest, ht]
    exact memberLabel_boundary hc hV _ _

end

-- ============================================================== sequences

/-- At the end a sequence reads nothing. -/
theorem gather_ended {policy : Policy} {closer : Option String}
    {item : Parser Node} {bound : Nat} (done : List Node) {s : State}
    (h : s.peek.isEnd = true) :
    (gather policy closer item bound done s).state.peek.isEnd = true
      ∧ (gather policy closer item bound done s).error = none := by
  have hpeek := s.takeDirectives_peek done
  rw [gather_eq]
  dsimp only
  rw [hpeek, if_pos (by simp [endsSequence, h])]
  exact ⟨hpeek ▸ h, rfl⟩

section

variable {s t : State}

theorem Near.directives (h : Near A X Y s t) (done : List Node) :
    (s.takeDirectives done).1 = (t.takeDirectives done).1
      ∧ Near A X Y (s.takeDirectives done).2 (t.takeDirectives done).2
      := by
  obtain ⟨D, x, us, hD, hx, hs, ht, h⟩ := h.split
  have hlength := h.read
  have hposition : s.position = t.position := by rw [h.first]
  have hrecovered : s.recovered = t.recovered := by rw [h.first]
  unfold State.takeDirectives
  rw [hs, ht, directives_split hD hx, directives_split hD hx, hposition,
    hrecovered]
  refine ⟨rfl, x :: us, ⟨?_, ?_, rfl, h.size, ?_⟩, ?_⟩
  · exact (List.suffix_append D _).trans h.suffix
  · rw [List.length_append] at hlength
    dsimp only
    omega
  · rw [h.first]
    rfl
  · rw [visible_cons hx]
    exact List.cons_ne_nil _ _

theorem Beside.settle {W : List Token} (h : Beside A X Y W s t) :
    Beside A X Y W s.settle t.settle := by
  obtain ⟨hsuffix, hread, hrest, hsize, rfl⟩ := h
  unfold State.settle
  dsimp only
  split
  · exact ⟨hsuffix, hread, hrest, hsize, rfl⟩
  · exact ⟨hsuffix, hread, hrest, hsize, rfl⟩

theorem Near.settle (h : Near A X Y s t) :
    Near A X Y s.settle t.settle := by
  obtain ⟨W, h, hW⟩ := h
  exact ⟨W, h.settle, hW⟩

theorem Near.pass (hp : Parts A X Y) (h : Near A X Y s t)
    (position : Nat) :
    Near A X Y (s.pass position) (t.pass position)
      ∨ (t.pass position).peek.isEnd = true := by
  unfold State.pass
  rw [h.position]
  split
  · exact (h.advance hp).imp_right And.left
  · exact .inl h

theorem settle_peek (t : State) : t.settle.peek = t.peek := by
  unfold State.settle
  split <;> rfl

theorem pass_ended (h : t.peek.isEnd = true) (position : Nat) :
    (t.pass position).peek.isEnd = true := by
  unfold State.pass
  split
  · rw [t.advance_of_end h]
    exact h
  · exact h

end

/-- Behind an item that came to the end. -/
theorem proceed_ended {policy : Policy} {closer : Option String}
    {item : Parser Node} {bound position : Nat} (done : List Node)
    {t : State} (h : t.peek.isEnd = true) :
    (proceed policy closer item bound position done t).state.peek.isEnd
      = true := by
  unfold proceed
  split
  · exact (gather_ended done h).1
  · exact h

/-- What came of the items of two readings: the same, unless the second
one has come to the end. -/
def Together (A X Y : List Token) (r r' : Gathered) : Prop :=
  r'.state.peek.isEnd = true
    ∨ r.items = r'.items ∧ r.error = r'.error
      ∧ Near A X Y r.state r'.state

theorem gather_parting (hp : Parts A X Y) (closer : Option String)
    {p q : Parser Node} (hitem : (parting A X Y).InStep Eq p q)
    {bound bound' : Nat} (hbound : A.length ≤ bound)
    (hbound' : A.length ≤ bound') (done : List Node) {s t : State}
    (h : Near A X Y s t) :
    Together A X Y (gather .strict closer p bound done s)
      (gather .strict closer q bound' done t) := by
  induction done, t using gather_induction bound' generalizing s with
  | step done t ih =>
    have hstart := h.position
    obtain ⟨hdone, h⟩ := h.directives done
    rw [gather_eq, gather_eq]
    dsimp only
    rw [hdone, h.peek]
    generalize (s.takeDirectives done).2 = s₁ at *
    generalize (t.takeDirectives done).2 = t₁ at *
    generalize (t.takeDirectives done).1 = done₁
    split
    case isTrue => exact .inr ⟨rfl, rfl, h⟩
    case isFalse =>
      have hboth := hitem.both h
      have hposition := h.position
      generalize p s₁ = r at hboth
      generalize q t₁ = r' at hboth
      cases hboth with
      | error he hs => exact .inr ⟨rfl, congrArg some he, hs⟩
      | part halone =>
        cases halone with
        | error ht => exact .inl ht
        | @ok _ node t₂ hv ht =>
          have ht : t₂.settle.peek.isEnd = true := (settle_peek t₂).symm ▸ ht
          exact .inl (proceed_ended _ (pass_ended ht _))
      | @ok node node' s₂ t₂ hv hs =>
        obtain rfl : node = node' := hv
        dsimp only
        rw [hposition]
        rcases (Near.settle hs).pass hp t₁.position with hs | ht
        · have := hs.within
          have := hs.position
          unfold proceed
          by_cases hgo : t.position
              < (t₂.settle.pass t₁.position).position
          · rw [if_pos (by omega), if_pos (by omega)]
            exact ih _ _ hgo (by omega) hs
          · rw [if_neg (by omega), if_neg (by omega)]
            exact .inr ⟨rfl, rfl, hs⟩
        · exact .inl (proceed_ended _ ht)

theorem sequence_parting (hp : Parts A X Y) {p q : Parser Node}
    (closer : String) (hitem : (parting A X Y).InStep Eq p q) :
    (parting A X Y).InStep Eq (sequence .strict closer p)
      (sequence .strict closer q) where
  both {s t} h := by
    have hwithin := h.within
    have hgather := gather_parting hp (some closer) hitem
      (hwithin.2.1) (hwithin.2.2) [] h
    unfold sequence
    dsimp only
    generalize gather .strict (some closer) p s.size [] s = r at hgather
    generalize gather .strict (some closer) q t.size [] t = r' at hgather
    rcases hgather with ht | ⟨hitems, herror, hs⟩
    · refine .part ?_
      cases r'.error with
      | some e => exact .error ht
      | none => exact .ok rfl ht
    · rw [hitems, herror]
      cases r'.error with
      | some e => exact .error (L := parting A X Y) rfl hs
      | none => exact .ok (L := parting A X Y) rfl hs trivial
  alone {ρ r t} ht := by
    obtain ⟨hend, herror⟩ :
        (gather .strict (some closer) q t.size [] t).state.peek.isEnd = true
          ∧ (gather .strict (some closer) q t.size [] t).error = none :=
      gather_ended [] ht
    unfold sequence
    dsimp only
    rw [herror]
    exact .ok rfl hend

/-- A bracket that has to come. -/
theorem expectPunct_parting (hp : Parts A X Y) (value context : String) :
    (parting A X Y).InStep Eq (expectPunct value context)
      (expectPunct value context) where
  both {s t} h := by
    unfold expectPunct expect
    dsimp only
    rw [h.peek]
    split
    · rcases h.advance hp with h | ht
      · exact .ok (L := parting A X Y) rfl h trivial
      · exact .part (.ok (L := parting A X Y) rfl ht.1)
    · exact .error (L := parting A X Y) rfl h
  alone {ρ r t} ht := by
    have hend : t.peek.isEnd = true := ht
    unfold expectPunct expect
    dsimp only
    rw [if_neg (by grind)]
    exact .error ht

theorem parting_lawful (hp : Parts A X Y) : (parting A X Y).Lawful where
  alike h := h ▸ .refl _
  token_refl _ := rfl
  kind h := congrArg Node.kind h
  retag _ _ h := h ▸ rfl
  nodes h := by
    show _ = _
    rw [← List.forall₂_eq_eq_eq]
    exact h
  peek h := h.peek
  next h hnot := h.next hp hnot
  arguments declaration h := h.arguments hp declaration
  cast h hopen :=
    h.cast hp (Token.not_shuts_of_isPunct hopen (by decide))
  declaration h := h.declaration hp
  label h := h.label hp
  moved h h' _ := by rw [h.position, h'.position]
  within h h' := by
    have := h.within
    have := h'.within
    rw [h'.position]
    omega
  mark h := h.mark
  advance h := by
    rcases h.advance hp with h | h
    · exact .inl ⟨h, trivial⟩
    · exact .inr h.1
  node _ _ h hm hs := hm ▸ hs ▸ h.node _ _ _
  error _ h ht := by
    show _ = _
    rw [h.peek, ht]
  enclosed closer context h :=
    .bindEq (sequence_parting hp closer h) fun _ =>
      .andThen (expectPunct_parting hp closer context) (.pure rfl)
  apart_advance {ρ r t} h := by
    rw [t.advance_of_end h]
    exact h
  apart_mark _ := ⟨_, rfl⟩
  apart_node _ _ _ _ _ := ⟨_, rfl⟩

theorem parting_spelledAlike (hp : Parts A X Y) :
    (parting A X Y).SpelledAlike :=
  Lockstep.spelledAlike_of_eq (parting_lawful hp) id

end Grammar

end FrontEnd
