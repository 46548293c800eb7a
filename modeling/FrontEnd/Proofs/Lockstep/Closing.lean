/-
How declarations end, with different tokens behind them.

A declaration ends with the token that ends it: a semicolon, or the
closing brace of its body. Nothing is looked at behind that, but for the
`catch` behind the body of a function. So where the second of two parting
readings has read a declaration up to the end of `A`, the first one has
read the same, and stands behind `A` as well.

`Closing` says this of a rule. Most steps of a rule need not end an item;
of these it is enough that the readings are in step (`Closing.loose`),
since what follows them is refused at the end. Only the step with the last
token has to be looked at (`Closing.idle`).
-/
import FrontEnd.Proofs.Lockstep.Parting

namespace FrontEnd.Grammar

open EStateM (Result)
open List (Forall₂)
open Lockstep (goOn bind_apply)

variable {A X Y : List Token} {α β γ : Type}

/-- Two readings of a rule where the next token meets `T`. If the second
one succeeds, either so does the first one, and both have tokens of `A` to
come; or the second one is at the end. Then a value that meets `F` tells
that the first one is behind `A` as well, with that value. No such value
comes of a rule that begins at the end. -/
structure Closing (A X Y : List Token) (T : Token → Prop) (F : β → Prop)
    (p q : Parser β) : Prop where
  both {s t : State} : Near A X Y s t → T t.peek →
    ∀ {b : β} {t' : State}, q t = .ok b t' →
      (∃ s', p s = .ok b s' ∧ Near A X Y s' t')
        ∨ t'.peek.isEnd = true
          ∧ (F b → ∃ s', p s = .ok b s' ∧ Over A X Y s' t')
  alone {t : State} : t.peek.isEnd = true → T t.peek →
    ∀ {b : β} {t' : State}, q t = .ok b t' → t'.peek.isEnd = true ∧ ¬F b

/-- A step that reads nothing and comes to the same in both readings. -/
structure Idle (A X Y : List Token) (p q : Parser β) : Prop where
  both {W : List Token} {s t : State} : Beside A X Y W s t →
    ∃ b, p s = .ok b s ∧ q t = .ok b t

/-- Any token. -/
abbrev Any : Token → Prop := fun _ => True

/-- Any value. -/
abbrev Every : β → Prop := fun _ => True

theorem ok_of_bind {p : Parser α} {f : α → Parser β} {s s' : State}
    {b : β} (h : (p >>= f) s = .ok b s') :
    ∃ a s₁, p s = .ok a s₁ ∧ f a s₁ = .ok b s' := by
  rw [bind_apply] at h
  cases hp : p s with
  | ok a s₁ =>
    rw [hp] at h
    exact ⟨a, s₁, rfl, h⟩
  | error e s₁ =>
    rw [hp] at h
    cases h

theorem bind_ok {p : Parser α} {f : α → Parser β} {s s₁ : State} {a : α}
    (h : p s = .ok a s₁) : (p >>= f) s = f a s₁ := by
  rw [bind_apply, h]
  rfl

namespace Idle

theorem pure (b : β) : Idle A X Y (pure b) (pure b) where
  both _ := ⟨b, rfl, rfl⟩

theorem finish (kind : NodeKind) (m : Mark) (children : List Node) :
    Idle A X Y (finish kind m children) (finish kind m children) where
  both {W s t} h := by
    refine ⟨t.node kind m children, ?_, rfl⟩
    have : s.node kind m children = t.node kind m children := by
      rw [h.first]
      rfl
    rw [← this]
    rfl

theorem bind {p q : Parser α} {f g : α → Parser β}
    (h : Idle A X Y p q) (k : ∀ a, Idle A X Y (f a) (g a)) :
    Idle A X Y (p >>= f) (q >>= g) where
  both hb := by
    obtain ⟨a, hp, hq⟩ := h.both hb
    rw [bind_ok hp, bind_ok hq]
    exact (k a).both hb

end Idle

namespace Closing

variable {T : Token → Prop} {F : β → Prop}

theorem mono {T' : Token → Prop} {p q : Parser β}
    (h : Closing A X Y T F p q) (hT : ∀ t, T' t → T t) :
    Closing A X Y T' F p q where
  both hs ht := h.both hs (hT _ ht)
  alone ht ht' := h.alone ht (hT _ ht')

theorem ite {c d : Bool} {p p' q q' : Parser β} (h : c = d)
    (hp : d = true → Closing A X Y T F p q)
    (hq : d = false → Closing A X Y T F p' q') :
    Closing A X Y T F (if c then p else p') (if d then q else q') := by
  subst h
  cases c with
  | true => exact hp rfl
  | false => exact hq rfl

/-- A value that does not end the item. -/
theorem pure {b : β} (h : ¬F b) :
    Closing A X Y T F (pure b) (pure b) where
  both hs _ _ _ heq := by
    cases heq
    exact .inl ⟨_, rfl, hs⟩
  alone ht _ _ _ heq := by
    cases heq
    exact ⟨ht, h⟩

theorem fail (problem : SyntaxProblem) :
    Closing A X Y T F (fail problem) (fail problem) where
  both _ _ _ _ heq := nomatch heq
  alone _ _ _ _ heq := nomatch heq

/-- A step that need not end the item. -/
theorem loose {V : α → γ → Prop} {p : Parser α} {q : Parser γ}
    {f : α → Parser β} {g : γ → Parser β}
    (h : (parting A X Y).InStep V p q)
    (k : ∀ a c, V a c → Closing A X Y Any F (f a) (g c)) :
    Closing A X Y T F (p >>= f) (q >>= g) where
  both {s t} hs _ b t' heq := by
    obtain ⟨c, t₁, hq, hg⟩ := ok_of_bind heq
    have hboth := h.both hs
    rw [hq] at hboth
    generalize hp : p s = r at hboth
    cases hboth with
    | ok hv hs₁ =>
      rw [bind_ok hp]
      exact (k _ _ hv).both hs₁ trivial hg
    | part halone =>
      cases halone with
      | ok hv ht₁ =>
        obtain ⟨hend, hF⟩ := (k _ _ hv).alone ht₁ trivial hg
        exact .inr ⟨hend, fun h => absurd h hF⟩
  alone {t} ht _ b t' heq := by
    obtain ⟨c, t₁, hq, hg⟩ := ok_of_bind heq
    have halone := h.alone (ρ := Unit) (r := .ok () t) ht
    rw [hq] at halone
    cases halone with
    | ok hv ht₁ => exact (k _ _ hv).alone ht₁ trivial hg

theorem looseEq {p q : Parser α} {f g : α → Parser β}
    (h : (parting A X Y).InStep Eq p q)
    (k : ∀ a, Closing A X Y Any F (f a) (g a)) :
    Closing A X Y T F (p >>= f) (q >>= g) :=
  loose h fun a _ hac => hac ▸ k a

theorem andThen {V : α → γ → Prop} {p : Parser α} {q : Parser γ}
    {p' q' : Parser β} (h : (parting A X Y).InStep V p q)
    (k : Closing A X Y Any F p' q') :
    Closing A X Y T F (p >>= fun _ => p') (q >>= fun _ => q') :=
  loose h fun _ _ _ => k

/-- What follows the token that ends the item. -/
theorem idle {p q : Parser α} {f g : α → Parser β}
    (h : Closing A X Y T Every p q) (k : ∀ a, Idle A X Y (f a) (g a)) :
    Closing A X Y T F (p >>= f) (q >>= g) where
  both {s t} hs ht b t' heq := by
    obtain ⟨a, t₁, hq, hg⟩ := ok_of_bind heq
    rcases h.both hs ht hq with ⟨s₁, hp, W, hs₁, hW⟩ | ⟨hend, hover⟩
    · obtain ⟨b', hf, hg'⟩ := (k a).both hs₁
      cases hg.symm.trans hg'
      exact .inl ⟨s₁, (bind_ok hp).trans hf, W, hs₁, hW⟩
    · obtain ⟨s₁, hp, hends, W, hs₁, hW⟩ := hover trivial
      obtain ⟨b', hf, hg'⟩ := (k a).both hs₁
      cases hg.symm.trans hg'
      exact .inr ⟨hend, fun _ =>
        ⟨s₁, (bind_ok hp).trans hf, hends, W, hs₁, hW⟩⟩
  alone ht ht' b t' heq := by
    obtain ⟨a, t₁, hq, hg⟩ := ok_of_bind heq
    exact absurd trivial (h.alone ht ht' hq).2

theorem mark {f g : Mark → Parser β}
    (k : ∀ m, Closing A X Y T F (f m) (g m)) :
    Closing A X Y T F (mark >>= f) (mark >>= g) where
  both {s t} hs ht b t' heq := by
    have hf : (Grammar.mark >>= f) s = f t.mark s := by
      rw [← hs.mark]
      rfl
    rw [hf]
    exact (k t.mark).both hs ht heq
  alone {t} ht ht' b t' heq := (k t.mark).alone ht ht' heq

theorem peek {f g : Token → Parser β}
    (k : ∀ t, T t → Closing A X Y (· = t) F (f t) (g t)) :
    Closing A X Y T F (peek >>= f) (peek >>= g) where
  both {s t} hs ht b t' heq := by
    have hf : (Grammar.peek >>= f) s = f t.peek s := by
      rw [← hs.peek]
      rfl
    rw [hf]
    exact (k t.peek ht).both hs rfl heq
  alone {t} ht ht' b t' heq := (k t.peek ht').alone ht rfl heq

variable (hp : Parts A X Y)
include hp

/-- The next token and the one behind it, which may not be the same where
the next one ends the item. -/
theorem peekNext {f g : Token → Token → Parser β}
    (k : ∀ t next next', T t → (t.shuts = false → next = next') →
      Closing A X Y (· = t) F (f t next) (g t next')) :
    Closing A X Y T F
      (do let t ← Grammar.peek; let next ← peekAt 1; f t next)
      (do let t ← Grammar.peek; let next ← peekAt 1; g t next) where
  both {s t} hs ht b t' heq := by
    have hf : (do let t ← Grammar.peek; let next ← peekAt 1; f t next) s
        = f t.peek (tokenAt 1 s.rest) s := by
      rw [← hs.peek]
      rfl
    rw [hf]
    exact (k t.peek _ _ ht fun h => hs.next hp (hs.peek ▸ h)).both hs rfl heq
  alone {t} ht ht' b t' heq :=
    (k t.peek _ _ ht' fun _ => rfl).alone ht rfl heq

/-- The token that ends the item. -/
theorem advance : Closing A X Y (·.shuts = true) Every advance advance where
  both {s t} hs ht b t' heq := by
    cases heq
    rcases hs.advance hp with hs | ⟨hend, hover⟩
    · exact .inl ⟨_, rfl, hs⟩
    · exact .inr ⟨hend, fun _ => ⟨_, rfl, hover ht⟩⟩
  alone {t} ht ht' _ _ _ := by
    rw [Token.isEnd, t.peek.kind_of_shuts ht'] at ht
    cases ht

theorem expectPunct {value : String} (hvalue : value = ";" ∨ value = "\x7d")
    (context : String) :
    Closing A X Y T Every (expectPunct value context)
      (expectPunct value context) where
  both {s t} hs _ b t' heq := by
    have hshuts : t.peek.isPunct value = true → t.peek.shuts = true := by
      intro h
      unfold Token.shuts
      rcases hvalue with rfl | rfl <;> simp [h]
    unfold Grammar.expectPunct expect at *
    dsimp only at *
    rw [hs.peek]
    split at heq
    case isTrue h =>
      rw [if_pos h]
      exact (advance hp).both hs (hshuts h) heq
    case isFalse => cases heq
  alone {t} ht _ b t' heq := by
    unfold Grammar.expectPunct expect at heq
    dsimp only at heq
    rw [if_neg (by grind)] at heq
    cases heq

end Closing

-- ================================================================== loops

/-- A round that ends the loop. -/
def Round.Final : Round α β → Prop
  | .again _ => False
  | .done _ => True

section

variable {round round' : α → Parser (Round α β)}
  (hround : ∀ a, Closing A X Y Any Round.Final (round a) (round' a))
include hround

theorem loopWithin_ended (bound : Nat) {a : α} {t : State}
    (ht : t.peek.isEnd = true) {b : β} {t' : State} :
    loopWithin bound round' a t ≠ .ok b t' := by
  fun_induction loopWithin bound round' a t with
  | case1 =>
    intro heq
    cases heq
  | case2 a t c t' heq => exact absurd trivial ((hround a).alone ht trivial heq).2
  | case3 a t a' t' heq _ ih =>
    exact ih ((hround a).alone ht trivial heq).1
  | case4 =>
    intro heq
    cases heq

theorem loopWithin_closing {bound bound' : Nat} (hbound : A.length ≤ bound)
    {a : α} {s t : State} (h : Near A X Y s t) {b : β} {t' : State}
    (heq : loopWithin bound' round' a t = .ok b t') :
    (∃ s', loopWithin bound round a s = .ok b s' ∧ Near A X Y s' t')
      ∨ t'.peek.isEnd = true
        ∧ ∃ s', loopWithin bound round a s = .ok b s'
          ∧ Over A X Y s' t' := by
  fun_induction loopWithin bound' round' a t generalizing s with
  | case1 => cases heq
  | case2 a t c t₁ hq =>
    cases heq
    rw [Lockstep.loopWithin_eq]
    rcases (hround a).both h trivial hq with ⟨s₁, hp, hs₁⟩ | ⟨hend, hover⟩
    · exact .inl ⟨s₁, by rw [hp]; rfl, hs₁⟩
    · obtain ⟨s₁, hp, hs₁⟩ := hover trivial
      exact .inr ⟨hend, s₁, by rw [hp]; rfl, hs₁⟩
  | case3 a t a' t₁ hq hguard ih =>
    rcases (hround a).both h trivial hq with ⟨s₁, hp, hs₁⟩ | ⟨hend, -⟩
    · have := h.position
      have := hs₁.position
      have := hs₁.within
      rw [Lockstep.loopWithin_eq, hp]
      unfold Lockstep.afterRound
      dsimp only
      rw [if_pos (by omega)]
      exact ih hs₁ heq
    · exact absurd heq (loopWithin_ended hround _ hend)
  | case4 => cases heq

theorem Closing.loop {T : Token → Prop} {F : β → Prop} (a : α) :
    Closing A X Y T F (loop round a) (loop round' a) where
  both h _ _ _ heq := by
    rcases loopWithin_closing hround h.within.2.1 h heq with h | ⟨hend, h⟩
    · exact .inl h
    · exact .inr ⟨hend, fun _ => h⟩
  alone ht _ _ _ heq := absurd heq (loopWithin_ended hround _ ht)

end

-- =============================================================== handlers

/-- A handler, from its keyword on. -/
def handler (g : Inner) : Parser Node := do
  let m ← mark
  advance
  if ← check (·.isPunct "(") then
    skipGroup "after exception declaration"
    let body ← block g
    finish .handler m [body]
  else failExpected "'(' after 'catch'"

/-- A round of the loop over handlers. -/
def handlerRound (g : Inner) (done : List Node) :
    Parser (Round (List Node) (List Node)) := do
  if ← check (·.isKeyword "catch") then
    return .again ((← handler g) :: done)
  else return .done done

theorem handlers_eq (g : Inner) : handlers g = loop (handlerRound g) [] := by
  unfold handlers
  congr 1
  funext done s
  unfold handlerRound handler
  simp only [bind_apply, check, goOn]
  split
  · simp only [bind_apply, mark, advance, check, goOn]
    split
    · simp only [bind_apply, goOn]
      cases skipGroup "after exception declaration" s.advance with
      | ok a s =>
        dsimp only
        cases block g s <;> rfl
      | error => rfl
    · rfl
  · rfl

/-- Where no handler comes the loop is done. -/
theorem handlerRound_done (g : Inner) (done : List Node) {s : State}
    (h : s.peek.isKeyword "catch" = false) :
    handlerRound g done s = .ok (.done done) s := by
  unfold handlerRound
  simp only [bind_apply, check, goOn]
  rw [h, if_neg Bool.false_ne_true]
  rfl

-- ================================================================== rules

section

variable (hp : Parts A X Y) {T : Token → Prop}
include hp

theorem skipToSemicolon_closing (context : String) :
    Closing A X Y T Every (skipToSemicolon context)
      (skipToSemicolon context) := by
  have hL := parting_lawful hp
  unfold skipToSemicolon
  refine .loop (fun _ => .peek fun t _ => ?_) _
  refine .ite rfl (fun h => ?_) fun _ => .ite rfl (fun _ => ?_) fun _ =>
    .ite rfl (fun _ => .fail _) fun _ => ?_
  · refine .idle (.mono (.advance hp) ?_) fun _ => .pure _
    rintro _ rfl
    simp [Token.shuts, h]
  · exact .andThen (Lockstep.skipGroup_inStep hL _) (.pure id)
  · exact .andThen (.advance hL) (.pure id)

variable {g : Inner} (hg : (parting A X Y).Inners g g)
include hg

theorem block_closing : Closing A X Y T Every (block g) (block g) := by
  have hL := parting_lawful hp
  unfold block
  refine .mark fun m => .andThen (.expectPunct hL _ _) ?_
  rw [hg.first]
  refine .looseEq (sequence_parting hp _ (hg.parse _)) fun items => ?_
  exact .idle (.expectPunct hp (.inr rfl) _) fun _ => .finish _ _ _

theorem handler_closing :
    Closing A X Y T Every (handler g) (handler g) := by
  have hL := parting_lawful hp
  unfold handler
  refine .mark fun m => .andThen (.advance hL) ?_
  refine .looseEq (.check hL fun h => h.isPunct _) fun opened => ?_
  refine .ite rfl (fun _ => ?_) fun _ => .fail _
  refine .andThen (Lockstep.skipGroup_inStep hL _) ?_
  exact .idle (block_closing hp hg) fun body => .finish _ _ _

theorem handlerRound_near {s t t' : State} {done : List Node}
    {r : Round (List Node) (List Node)} (h : Near A X Y s t)
    (heq : handlerRound g done t = .ok r t') :
    (∃ s', handlerRound g done s = .ok r s' ∧ Near A X Y s' t')
      ∨ t'.peek.isEnd = true
        ∧ ∃ s', handlerRound g done s = .ok r s' ∧ Over A X Y s' t' := by
  cases hcatch : t.peek.isKeyword "catch" with
  | false =>
    rw [handlerRound_done g done hcatch] at heq
    cases heq
    exact .inl ⟨s, handlerRound_done g done (h.peek ▸ hcatch), h⟩
  | true =>
    have hround {u : State} (hu : u.peek.isKeyword "catch" = true) :
        handlerRound g done u
          = (do return Round.again ((← handler g) :: done)) u := by
      unfold handlerRound
      rw [bind_apply]
      simp only [check, goOn]
      rw [if_pos hu]
    have hclosing : Closing A X Y Any
        (Every : Round (List Node) (List Node) → Prop)
        (do return .again ((← handler g) :: done))
        (do return .again ((← handler g) :: done)) :=
      .idle (handler_closing hp hg) fun _ => .pure _
    rw [hround hcatch] at heq
    rw [hround (h.peek ▸ hcatch)]
    rcases hclosing.both h trivial heq with h | ⟨hend, h⟩
    · exact .inl h
    · exact .inr ⟨hend, h trivial⟩

/-- The handlers that come, of which there is none behind `A`. -/
theorem handlersWithin_closing
    (hcatch : (tokenAt 0 X).isKeyword "catch" = false)
    {bound bound' : Nat} (hbound : A.length ≤ bound) {done : List Node}
    {s t : State} (h : Near A X Y s t) {hs : List Node} {t' : State}
    (heq : loopWithin bound' (handlerRound g) done t = .ok hs t') :
    (∃ s', loopWithin bound (handlerRound g) done s = .ok hs s'
        ∧ Near A X Y s' t')
      ∨ t'.peek.isEnd = true
        ∧ ∃ s', loopWithin bound (handlerRound g) done s = .ok hs s'
          ∧ Over A X Y s' t' := by
  fun_induction loopWithin bound' (handlerRound g) done t
    generalizing s with
  | case1 => cases heq
  | case2 done t c t₁ hq =>
    cases heq
    rw [Lockstep.loopWithin_eq]
    rcases handlerRound_near hp hg h hq
      with ⟨s₁, hround, hs₁⟩ | ⟨hend, s₁, hround, hs₁⟩
    · exact .inl ⟨s₁, by rw [hround]; rfl, hs₁⟩
    · exact .inr ⟨hend, s₁, by rw [hround]; rfl, hs₁⟩
  | case3 done t done' t₁ hq hguard ih =>
    have hposition := h.position
    rw [Lockstep.loopWithin_eq]
    rcases handlerRound_near hp hg h hq
      with ⟨s₁, hround, hs₁⟩ | ⟨hend, s₁, hround, hs₁⟩
    · have := hs₁.position
      have := hs₁.within
      rw [hround]
      unfold Lockstep.afterRound
      dsimp only
      rw [if_pos (by omega)]
      exact ih hs₁ heq
    · -- the last handler ended `A`, and both are done
      have := hs₁.position
      have := hs₁.within
      have hdone := handlerRound_done g done' (hs₁.peek ▸ hcatch)
      have hdone' : handlerRound g done' t₁ = .ok (.done done') t₁ :=
        handlerRound_done g done' (by grind)
      rw [Lockstep.loopWithin_eq, hdone'] at heq
      cases heq
      refine .inr ⟨hend, s₁, ?_, hs₁⟩
      rw [hround]
      unfold Lockstep.afterRound
      dsimp only
      rw [if_pos (by omega), Lockstep.loopWithin_eq, hdone]
      rfl
  | case4 => cases heq

theorem tryBlock_closing
    (hcatch : (tokenAt 0 X).isKeyword "catch" = false) :
    Closing A X Y T Every (tryBlock g) (tryBlock g) := by
  have hL := parting_lawful hp
  unfold tryBlock
  rw [handlers_eq]
  refine .mark fun m => .andThen (.advance hL)
    (.looseEq (Lockstep.block_inStep hL hg) fun body => ?_)
  constructor
  · intro s t h _ b t' heq
    obtain ⟨hs, t₁, hq, hrest⟩ := ok_of_bind heq
    cases hempty : hs.isEmpty with
    | true =>
      rw [hempty, if_pos rfl] at hrest
      cases hrest
    | false =>
      rw [hempty, if_neg Bool.false_ne_true] at hrest
      have first {s₁ : State}
          (hround : loop (handlerRound g) [] s = .ok hs s₁)
          (hfinish : finish .tryBlock m (body :: hs.reverse) s₁
            = .ok b s₁) :
          (do
            let hs ← loop (handlerRound g) []
            if hs.isEmpty then failExpected "'catch' after try block"
            else finish .tryBlock m (body :: hs.reverse)) s
            = .ok b s₁ := by
        rw [bind_ok hround, hempty, if_neg Bool.false_ne_true, hfinish]
      rcases handlersWithin_closing hp hg hcatch h.within.2.1 h hq
        with ⟨s₁, hround, W, hW, hne⟩ | ⟨hend, s₁, hround, hends, W, hW, hne⟩
      · obtain ⟨b', hf, hf'⟩ :=
          (Idle.finish .tryBlock m (body :: hs.reverse)).both hW
        cases hrest.symm.trans hf'
        exact .inl ⟨s₁, first hround hf, W, hW, hne⟩
      · obtain ⟨b', hf, hf'⟩ :=
          (Idle.finish .tryBlock m (body :: hs.reverse)).both hW
        cases hrest.symm.trans hf'
        exact .inr ⟨hend, fun _ =>
          ⟨s₁, first hround hf, hends, W, hW, hne⟩⟩
  · intro t ht _ b t' heq
    obtain ⟨hs, t₁, hq, hrest⟩ := ok_of_bind heq
    have hdone : handlerRound g [] t = .ok (.done []) t :=
      handlerRound_done g [] (by grind)
    unfold loop at hq
    rw [Lockstep.loopWithin_eq, hdone] at hq
    cases hq
    cases hrest

-- =================================================== simple declarations

omit hp hg in
theorem function_idle (w : Walk) (m : Mark) :
    Idle A X Y (w.function m) (w.function m) := by
  unfold Walk.function
  exact .bind (.finish _ _ _) fun _ => .pure _

variable (hcatch : (tokenAt 0 X).isKeyword "catch" = false)

theorem punctRound_closing {t : Token} (hkind : t.kind = .punctuation)
    (m : Mark) (w : Walk) :
    Closing A X Y (· = t) Round.Final (punctRound g m w t)
      (punctRound g m w t) := by
  have hL := parting_lawful hp
  unfold punctRound
  refine .ite rfl (fun hvalue => ?_) fun _ => .ite rfl (fun _ => ?_)
    fun _ => .ite rfl (fun _ => ?_) fun _ => .ite rfl (fun _ => ?_)
    fun _ => .ite rfl (fun _ => ?_) fun _ => .fail _
  · refine .idle (.mono (.advance hp) ?_) fun _ =>
      .bind (.finish _ _ _) fun _ => .pure _
    rintro _ rfl
    simp [Token.shuts, Token.isPunct, hkind, beq_iff_eq.1 hvalue]
  · exact .andThen (Lockstep.skipGroup_inStep hL _) (.pure id)
  · exact .andThen (Lockstep.skipGroup_inStep hL _) (.pure id)
  · refine .ite rfl (fun _ => ?_) fun _ => ?_
    · exact .idle (block_closing hp hg) fun body => function_idle _ m
    · refine .looseEq (hg.parse _) fun list => ?_
      exact .andThen (Lockstep.declaratorEnd_inStep hL) (.pure id)
  · exact .andThen (.advance hL) (.pure id)

theorem operatorRound_closing (t : Token) (m : Mark) (w : Walk) :
    Closing A X Y T Round.Final (operatorRound g m w t)
      (operatorRound g m w t) := by
  have hL := parting_lawful hp
  -- a value goes on to the end of the declarator
  have value {p : Parser Node} (h : (parting A X Y).InStep Eq p p) :
      Closing A X Y Any Round.Final
        (do let value ← p; declaratorEnd; return w.add value)
        (do let value ← p; declaratorEnd; return w.add value) :=
    .looseEq h fun _ =>
      .andThen (Lockstep.declaratorEnd_inStep hL) (.pure id)
  unfold operatorRound
  refine .ite rfl (fun _ => .andThen (.advance hL) ?_) fun _ =>
    .ite rfl (fun _ => ?_) fun _ => .ite rfl (fun _ => ?_) fun _ =>
    .ite rfl (fun _ => ?_) fun _ => .fail _
  · have rest (isSpecial : Bool) : Closing A X Y Any Round.Final
        (if isSpecial then do
          expectPunct ";" "after function declaration"
          w.function m
        else do
          let value ← initializer g
          declaratorEnd
          return w.add value)
        (if isSpecial then do
          expectPunct ";" "after function declaration"
          w.function m
        else do
          let value ← initializer g
          declaratorEnd
          return w.add value) :=
      .ite rfl
        (fun _ => .idle (.expectPunct hp (.inl rfl) _) fun _ =>
          function_idle w m)
        fun _ => value (Lockstep.initializer_inStep hL hg)
    refine .ite rfl (fun _ => .looseEq (.accept hL fun h => ?_) rest)
      fun _ => rest false
    rw [h.isKeyword, h.isKeyword]
  · exact .andThen (Lockstep.skipTemplateArguments_inStep hL) (.pure id)
  · refine .ite rfl (fun _ => ?_) fun _ =>
      .andThen (.advance hL) (value (hg.parse _))
    have members := (Lockstep.constructorInitializer_inStepIf hL hg).inStep
      fun _ hs => congrArg (·.isSpelled "~") (hL.peek hs)
    refine .looseEq members
      fun members => .looseEq (.check hL fun h => ?_) fun opened =>
        .ite rfl (fun _ => .pure id) fun _ => .fail _
    rw [h.isPunct, h.isKeyword]
  · exact .andThen (.advance hL) (.pure id)

omit hp hg in
theorem addSome_closing (w : Walk) (part : Option Node) :
    Closing A X Y T Round.Final (pure (w.addSome part) : Parser _)
      (pure (w.addSome part)) := by
  cases part with
  | none => exact .pure id
  | some part => exact .pure id

include hcatch

theorem keywordRound_closing (t : Token) (m : Mark) (w : Walk) :
    Closing A X Y T Round.Final (keywordRound g m w t)
      (keywordRound g m w t) := by
  have hL := parting_lawful hp
  -- what a specifier comes to is the same in both
  have same {a b : Option Node} (h : Option.Rel (parting A X Y).node a b) :
      a = b := by
    cases h with
    | none => rfl
    | some h => exact congrArg some h
  unfold keywordRound
  refine .ite rfl (fun _ => ?_) fun _ => .ite rfl (fun _ => ?_) fun _ =>
    .ite rfl (fun _ => ?_) fun _ => .ite rfl (fun _ => ?_) fun _ =>
    .ite rfl (fun _ => ?_) fun _ => .ite rfl (fun _ => ?_) fun _ =>
    .ite rfl (fun _ => .fail _) fun _ => ?_
  · refine .loose (Lockstep.classSpecifier_inStep hL hg) ?_
    intro a b hab
    rw [same hab]
    exact addSome_closing w b
  · refine .loose (Lockstep.enumSpecifier_inStep hL hg) ?_
    intro a b hab
    rw [same hab]
    exact addSome_closing w b
  · exact .andThen (Lockstep.operatorFunctionName_inStep hL) (.pure id)
  · exact .idle (tryBlock_closing hp hg hcatch) fun body =>
      function_idle _ m
  · exact .andThen (Lockstep.requiresClause_inStep hL) (.pure id)
  · refine .andThen (.advance hL)
      (.looseEq (.check hL fun h => h.isPunct _) fun opened => ?_)
    exact .ite rfl
      (fun _ => .andThen (Lockstep.skipGroup_inStep hL _) (.pure id))
      fun _ => .pure id
  · exact .andThen (.advance hL) (.pure id)

theorem simpleDeclaration_closing :
    Closing A X Y T Every (simpleDeclaration g) (simpleDeclaration g) := by
  have hL := parting_lawful hp
  unfold simpleDeclaration
  refine .mark fun m => .loop (fun w => ?_) _
  unfold simpleRound
  refine .peek fun t _ => ?_
  cases hkind : t.kind with
  | endOfFile => exact .fail _
  | punctuation => exact punctRound_closing hp hg hkind m w
  | operator => exact operatorRound_closing hp hg t m w
  | keyword => exact keywordRound_closing hp hg hcatch t m w
  | identifier => exact .andThen (.advance hL) (.pure id)
  | _ => exact .fail _

-- ==================================================== other declarations

omit hcatch in
theorem declarationsInBraces_closing {m : Mark} (kind : NodeKind)
    (context : String) : Closing A X Y T Every
      (do
        let items ← declarationsInBraces g context
        finish kind m items)
      (do
        let items ← declarationsInBraces g context
        finish kind m items) := by
  refine .idle ?_ fun items => .finish _ _ _
  unfold declarationsInBraces
  rw [hg.first]
  refine .looseEq (sequence_parting hp _ (hg.parse _)) fun items => ?_
  exact .idle (.expectPunct hp (.inr rfl) _) fun _ => .pure _

omit hcatch in
theorem namespaceDefinition_closing : Closing A X Y T Every
    (namespaceDefinition g) (namespaceDefinition g) := by
  have hL := parting_lawful hp
  unfold namespaceDefinition
  refine .mark fun m => .andThen (.accept hL fun h => h.isKeyword _)
    (.andThen (.advance hL) (.andThen (Lockstep.skipAttributes_inStep hL)
      (.andThen (.skipWhile hL fun h => ?_)
        (.looseEq (.accept hL fun h => h.isOperator _) fun isAlias =>
          .ite rfl (fun _ => ?_) fun _ => ?_))))
  · rw [h.isName, h.isOperator, h.isKeyword]
  · exact .idle (skipToSemicolon_closing hp _) fun _ => .finish _ _ _
  · exact .andThen (Lockstep.skipAttributes_inStep hL)
      (.andThen (.expectPunct hL _ _)
        (declarationsInBraces_closing hp hg _ _))

omit hg hcatch in
theorem usingDeclaration_closing :
    Closing A X Y T Every usingDeclaration usingDeclaration := by
  have hL := parting_lawful hp
  rw [Lockstep.usingDeclaration_eq]
  refine .mark fun m => .andThen (.advance hL) (.peekNext hp ?_)
  intro t next next' _ hnext
  have toEnd {T : Token → Prop} (kind : NodeKind) (context : String) :
      Closing A X Y T Every
        (do skipToSemicolon context; finish kind m [])
        (do skipToSemicolon context; finish kind m []) :=
    .idle (skipToSemicolon_closing hp _) fun _ => .finish _ _ _
  refine .ite rfl (fun _ => toEnd _ _) fun _ => .ite ?_ (fun _ => ?_)
    fun _ => toEnd _ _
  · refine Lockstep.and_eq_and fun h => ?_
    rw [hnext (Token.not_shuts_of_isName h)]
  · refine .andThen (.advance hL)
      (.andThen (Lockstep.skipAttributes_inStep hL)
        (.andThen (.expectOperator hL _ _)
          (.looseEq (.check hL fun h => h.isPunct _) fun empty => ?_)))
    exact .ite rfl (fun _ => .fail _) fun _ => toEnd _ _

omit hcatch in
theorem staticAssertion_closing :
    Closing A X Y T Every (staticAssertion g) (staticAssertion g) := by
  have hL := parting_lawful hp
  unfold staticAssertion
  refine .mark fun m => .andThen (.advance hL)
    (.andThen (.expectPunct hL _ _) (.looseEq (hg.parse _) fun test => ?_))
  have tail (children : List Node) : Closing A X Y Any Every
      (do
        expectPunct ")" "after static assertion"
        expectPunct ";" "after static assertion"
        finish .staticAssertDeclaration m children)
      (do
        expectPunct ")" "after static assertion"
        expectPunct ";" "after static assertion"
        finish .staticAssertDeclaration m children) :=
    .andThen (.expectPunct hL _ _)
      (.idle (.expectPunct hp (.inl rfl) _) fun _ => .finish _ _ _)
  refine .looseEq (.accept hL fun h => h.isPunct _) fun message =>
    .ite rfl (fun _ => ?_) fun _ => tail _
  exact .looseEq (hg.parse _) fun text => tail _

omit hg hcatch in
theorem asmDeclaration_closing :
    Closing A X Y T Every asmDeclaration asmDeclaration := by
  have hL := parting_lawful hp
  unfold asmDeclaration
  refine .mark fun m => .andThen (.advance hL)
    (.andThen (.skipWhile hL fun h => ?_)
      (.looseEq (.check hL fun h => h.isPunct _) fun opened =>
        .ite rfl (fun _ => ?_) fun _ => .fail _))
  · rw [h.isKeyword, h.isKeyword, h.isKeyword]
  · exact .andThen (Lockstep.skipGroup_inStep hL _)
      (.idle (.expectPunct hp (.inl rfl) _) fun _ => .finish _ _ _)

section

variable (hinner : Closing A X Y Any Every (g.parse .declaration)
  (g.parse .declaration))
include hinner

omit hg hcatch in
theorem templateDeclaration_closing :
    Closing A X Y T Every (templateDeclaration g) (templateDeclaration g)
    := by
  have hL := parting_lawful hp
  unfold templateDeclaration
  have inner (m : Mark) : Closing A X Y Any Every
      (do
        let declaration ← g.parse .declaration
        finish .templateDeclaration m [declaration])
      (do
        let declaration ← g.parse .declaration
        finish .templateDeclaration m [declaration]) :=
    .idle hinner fun _ => .finish _ _ _
  have constrained (m : Mark) : Closing A X Y Any Every
      (do
        if ← check (·.isKeyword "requires") then requiresClause
        let declaration ← g.parse .declaration
        finish .templateDeclaration m [declaration])
      (do
        if ← check (·.isKeyword "requires") then requiresClause
        let declaration ← g.parse .declaration
        finish .templateDeclaration m [declaration]) := by
    refine .looseEq (.check hL fun h => h.isKeyword _) fun found => ?_
    exact .ite rfl
      (fun _ => .andThen (Lockstep.requiresClause_inStep hL) (inner m))
      fun _ => inner m
  refine .mark fun m => .andThen (.advance hL)
    (.looseEq (.check hL fun h => h.isOperator _) fun found => ?_)
  exact .ite rfl
    (fun _ => .andThen (Lockstep.skipTemplateArguments_inStep hL)
      (constrained m))
    fun _ => constrained m

omit hcatch in
theorem linkageSpecification_closing :
    Closing A X Y T Every (linkageSpecification g)
      (linkageSpecification g) := by
  have hL := parting_lawful hp
  unfold linkageSpecification
  refine .mark fun m => .andThen (.advance hL) (.andThen (.advance hL)
    (.looseEq (.accept hL fun h => h.isPunct _) fun opened =>
      .ite rfl (fun _ => ?_) fun _ => ?_))
  · exact declarationsInBraces_closing hp hg _ _
  · exact .idle hinner fun _ => .finish _ _ _

theorem declaration_closing :
    Closing A X Y T Every (declaration g) (declaration g) := by
  have hL := parting_lawful hp
  unfold declaration
  refine .peekNext hp fun t next next' _ hnext => ?_
  have hn {word : String} (h : t.isKeyword word = true) : next = next' :=
    hnext (Token.not_shuts_of_kind fun hkind => by
      simp [Token.isKeyword, hkind] at h)
  refine .ite rfl (fun hempty => ?_) fun _ => .ite ?_ (fun _ => ?_)
    fun _ => .ite rfl (fun _ => ?_) fun _ => .ite rfl (fun _ => ?_)
    fun _ => .ite ?_ (fun _ => ?_) fun _ => .ite ?_ (fun _ => ?_)
    fun _ => .ite rfl (fun _ => ?_) fun _ => .ite rfl (fun _ => ?_)
    fun _ => ?_
  · refine .mark fun m => .idle (.mono (.advance hp) ?_) fun _ =>
      .finish _ _ _
    rintro _ rfl
    simp [Token.shuts, hempty]
  · exact congrArg (t.isKeyword "namespace" || ·)
      (Lockstep.and_eq_and fun h => by rw [hn h])
  · exact namespaceDefinition_closing hp hg
  · exact usingDeclaration_closing hp
  · exact templateDeclaration_closing hp hinner
  · refine Lockstep.and_eq_and fun h => ?_
    rcases Bool.or_eq_true _ _ ▸ h with h | h
    · rw [hn h]
    · rw [hn h]
  · exact .andThen (.advance hL) (templateDeclaration_closing hp hinner)
  · exact Lockstep.and_eq_and fun h => by rw [hn h]
  · exact linkageSpecification_closing hp hg hinner
  · exact staticAssertion_closing hp hg
  · exact asmDeclaration_closing hp
  · exact simpleDeclaration_closing hp hg hcatch

end

end

/-- A declaration ends alike whatever comes behind it. -/
theorem parse_closing (hp : Parts A X Y)
    (hcatch : (tokenAt 0 X).isKeyword "catch" = false) (room : Nat)
    {T : Token → Prop} :
    Closing A X Y T Every (parse .strict room .declaration)
      (parse .strict room .declaration) := by
  have hL := parting_lawful hp
  induction room generalizing T with
  | zero => exact .fail _
  | succ room ih =>
    have hg : (parting A X Y).Inners ⟨.strict, room, parse .strict room⟩
        ⟨.strict, room, parse .strict room⟩ :=
      have hS := parting_spelledAlike hp
      ⟨rfl, rfl, rfl, Lockstep.parse_inStep hL room, hS⟩
    exact declaration_closing hp hg hcatch ih

end FrontEnd.Grammar
