/-
Token lists without their directives, and what remains of states and
trees.

`visible` erases the directives of a token list, and `rank` says where a
place in the list comes to lie. A question about the tokens ahead has the
same answer with the directives as without them; each of the bounded
searches passes over a directive at no cost, so this is an induction on
the tokens. A state on its way and a tree are erased by erasing the
directives in them and renumbering the rest.
-/
import Mathlib.Order.Monotone.Basic
import FrontEnd.Proofs.Course.Way

namespace FrontEnd

-- ================================================================= tokens

/-- The tokens of a list that are no directives. -/
def visible (ts : List Token) : List Token := ts.filter (!·.isDirective)

theorem visible_cons_of_directive {t : Token} (h : t.isDirective = true)
    (ts : List Token) : visible (t :: ts) = visible ts :=
  List.filter_cons_of_neg (by simp [h])

theorem visible_cons {t : Token} (h : t.isDirective = false)
    (ts : List Token) : visible (t :: ts) = t :: visible ts :=
  List.filter_cons_of_pos (by simp [h])

theorem visible_append (ts us : List Token) :
    visible (ts ++ us) = visible ts ++ visible us :=
  List.filter_append ..

/-- Where the place `index` of a list comes to lie among its visible
tokens. -/
def rank (tokens : List Token) (index : Nat) : Nat :=
  (visible (tokens.take index)).length

theorem rank_add (tokens : List Token) (i n : Nat) :
    rank tokens (i + n) = rank tokens i + rank (tokens.drop i) n := by
  unfold rank
  rw [List.take_add, visible_append, List.length_append]

theorem rank_mono (tokens : List Token) : Monotone (rank tokens) := by
  intro i j hij
  obtain ⟨n, rfl⟩ := Nat.exists_eq_add_of_le hij
  rw [rank_add]
  exact Nat.le_add_right _ _

theorem rank_length (tokens : List Token) :
    rank tokens tokens.length = (visible tokens).length := by
  unfold rank
  rw [List.take_length]

namespace Grammar

/-- The directives in front of the next visible token take no place. -/
theorem rank_directives (ts : List Token) :
    rank ts (ts.takeWhile Token.isDirective).length = 0 := by
  induction ts with
  | nil => rfl
  | cons t ts ih =>
    rw [List.takeWhile_cons]
    split
    case isTrue h =>
      unfold rank at *
      rwa [List.length_cons, List.take_succ_cons,
        visible_cons_of_directive h]
    case isFalse => rfl

theorem visible_dropWhile (ts : List Token) :
    visible (ts.dropWhile Token.isDirective) = visible ts := by
  induction ts with
  | nil => rfl
  | cons t ts ih =>
    rw [List.dropWhile_cons]
    split
    case isTrue h => rw [ih, visible_cons_of_directive h]
    case isFalse => rfl

-- ====================================================== the tokens ahead

/-- The next visible token, if there is one. -/
inductive Ahead (ts : List Token) : Prop
  | nothing : visible ts = [] → ts.dropWhile Token.isDirective = [] →
    Ahead ts
  | token (t : Token) (us : List Token) : t.isDirective = false →
    visible ts = t :: visible us →
    ts.dropWhile Token.isDirective = t :: us → Ahead ts

theorem ahead_cases (ts : List Token) : Ahead ts := by
  have hvisible := visible_dropWhile ts
  cases hdrop : ts.dropWhile Token.isDirective with
  | nil => exact .nothing (by rw [← hvisible, hdrop]; rfl) hdrop
  | cons t us =>
    have hhead := List.head?_dropWhile_not Token.isDirective ts
    rw [hdrop] at hhead hvisible
    have ht : t.isDirective = false := by simpa using hhead
    exact .token t us ht (by rw [← hvisible, visible_cons ht]) hdrop

/-- Nothing is passed over in front of a visible token. -/
theorem significant_visible (index : Nat) (ts : List Token) :
    significant index (visible ts) = (index, visible ts) := by
  cases ahead_cases ts with
  | nothing h => rw [h, significant]
  | token t us ht h =>
    rw [h, significant, if_neg (by simp [ht])]

section

variable {t : Token} (h : t.isDirective = true)
include h

theorem tokenAt_directive (n : Nat) (ts : List Token) :
    tokenAt n (t :: ts) = tokenAt n ts := by
  rw [tokenAt.eq_def n (t :: ts)]
  exact if_pos h

theorem behindAngles_directive (window angles brackets : Nat)
    (ts : List Token) :
    behindAngles window angles brackets (t :: ts)
      = behindAngles window angles brackets ts := by
  rw [behindAngles.eq_def _ _ _ (t :: ts)]
  exact if_pos h

theorem castType_directive (window : Nat) (typed marked : Bool)
    (ts : List Token) :
    castType window typed marked (t :: ts)
      = castType window typed marked ts := by
  rw [castType.eq_def _ _ _ (t :: ts)]
  exact if_pos h

theorem angleLength_directive (window angles : Nat) (ts : List Token) :
    angleLength window angles (t :: ts) = angleLength window angles ts := by
  rw [angleLength.eq_def _ _ (t :: ts)]
  exact if_pos h

end

theorem tokenAt_visible (n : Nat) (ts : List Token) :
    tokenAt n (visible ts) = tokenAt n ts := by
  induction ts generalizing n with
  | nil => rfl
  | cons t ts ih =>
    cases h : t.isDirective with
    | true => rw [visible_cons_of_directive h, ih, tokenAt_directive h]
    | false =>
      have hnot : ¬t.isDirective = true := by simp [h]
      rw [visible_cons h]
      cases n with
      | zero => rw [tokenAt, tokenAt, if_neg hnot, if_neg hnot]
      | succ n => rw [tokenAt, tokenAt, if_neg hnot, if_neg hnot, ih]

theorem tokensFrom_visible (n : Nat) (ts : List Token) :
    tokensFrom n (visible ts) = visible (tokensFrom n ts) := by
  induction ts generalizing n with
  | nil => rfl
  | cons t ts ih =>
    have zero (us : List Token) : tokensFrom 0 us = us := by
      cases us <;> rfl
    cases n with
    | zero => rw [zero, zero]
    | succ n =>
      cases h : t.isDirective with
      | true =>
        rw [visible_cons_of_directive h, ih, tokensFrom, if_pos h]
      | false =>
        have hnot : ¬t.isDirective = true := by simp [h]
        rw [visible_cons h, tokensFrom, tokensFrom, if_neg hnot, ih]

theorem behindAngles_visible (window angles brackets : Nat)
    (ts : List Token) :
    behindAngles window angles brackets (visible ts)
      = (behindAngles window angles brackets ts).map visible := by
  induction ts generalizing window angles brackets with
  | nil => rfl
  | cons t ts ih =>
    cases h : t.isDirective with
    | true =>
      rw [visible_cons_of_directive h, ih, behindAngles_directive h]
    | false =>
      have hnot : ¬t.isDirective = true := by simp [h]
      rw [visible_cons h]
      cases window with
      | zero =>
        rw [behindAngles, behindAngles, if_neg hnot, if_neg hnot]
        rfl
      | succ window =>
        rw [behindAngles, behindAngles, if_neg hnot, if_neg hnot]
        simp only [ih]
        repeat' split
        all_goals rfl

theorem opensArguments_visible (declaration : Bool) (ts : List Token) :
    opensArguments declaration (visible ts)
      = opensArguments declaration ts := by
  unfold opensArguments
  simp only [significant_visible]
  simp only [significant_eq]
  cases ahead_cases ts with
  | nothing hvisible hdrop => rw [hvisible, hdrop]
  | token t us _ hvisible hdrop =>
    rw [hvisible, hdrop]
    dsimp only
    rw [behindAngles_visible]
    cases behindAngles argumentWindow 1 0 us with
    | none => rfl
    | some us =>
      dsimp only [Option.map_some]
      cases ahead_cases us with
      | nothing hvisible hdrop =>
        rw [hvisible, hdrop]
        rfl
      | token t us ht hvisible hdrop =>
        rw [hvisible, hdrop, List.dropWhile_cons, if_neg (by simp [ht])]

theorem castType_visible (window : Nat) (typed marked : Bool)
    (ts : List Token) :
    castType window typed marked (visible ts)
      = (castType window typed marked ts).map fun (clear, us) =>
        (clear, visible us) := by
  induction ts generalizing window typed marked with
  | nil => rfl
  | cons t ts ih =>
    cases h : t.isDirective with
    | true => rw [visible_cons_of_directive h, ih, castType_directive h]
    | false =>
      have hnot : ¬t.isDirective = true := by simp [h]
      rw [visible_cons h]
      cases window with
      | zero =>
        rw [castType, castType, if_neg hnot, if_neg hnot]
        rfl
      | succ window =>
        rw [castType, castType, if_neg hnot, if_neg hnot]
        simp only [ih]
        repeat' split
        all_goals rfl

theorem opensCast_visible (ts : List Token) :
    opensCast (visible ts) = opensCast ts := by
  unfold opensCast
  rw [tokenAt_visible, tokensFrom_visible, castType_visible]
  cases castType castWindow false false (tokensFrom 1 ts) with
  | none => rfl
  | some r => simp only [Option.map_some, tokenAt_visible]

theorem angleLength_visible (window angles : Nat) (ts : List Token) :
    angleLength window angles (visible ts) = angleLength window angles ts
      := by
  induction ts generalizing window angles with
  | nil => rfl
  | cons t ts ih =>
    cases h : t.isDirective with
    | true => rw [visible_cons_of_directive h, ih, angleLength_directive h]
    | false =>
      have hnot : ¬t.isDirective = true := by simp [h]
      rw [visible_cons h]
      cases window with
      | zero => rw [angleLength, angleLength, if_neg hnot, if_neg hnot]
      | succ window =>
        rw [angleLength, angleLength, if_neg hnot, if_neg hnot]
        simp only [ih]

theorem argumentLength_visible (ts : List Token) :
    argumentLength (visible ts) = argumentLength ts := by
  unfold argumentLength
  rw [tokenAt_visible, opensArguments_visible, angleLength_visible]

theorem typeNameEnd_visible (ts : List Token) (offset : Nat) :
    typeNameEnd (visible ts) offset = typeNameEnd ts offset := by
  fun_induction typeNameEnd ts offset with
  | case1 offset hname hlength =>
    rw [typeNameEnd, tokenAt_visible, if_pos hname, tokensFrom_visible,
      argumentLength_visible, hlength]
  | case2 offset hname length hlength stop hscope hfar =>
    rw [typeNameEnd, tokenAt_visible, if_pos hname, tokensFrom_visible,
      argumentLength_visible, hlength]
    dsimp only
    rw [tokenAt_visible, if_pos hscope, if_pos hfar]
  | case3 offset hname length hlength stop hscope hnear ih =>
    rw [typeNameEnd, tokenAt_visible, if_pos hname, tokensFrom_visible,
      argumentLength_visible, hlength]
    dsimp only
    rw [tokenAt_visible, if_pos hscope, if_neg hnear]
    exact ih
  | case4 offset hname length hlength stop hscope =>
    rw [typeNameEnd, tokenAt_visible, if_pos hname, tokensFrom_visible,
      argumentLength_visible, hlength]
    dsimp only
    rw [tokenAt_visible, if_neg hscope]
  | case5 offset hname => rw [typeNameEnd, tokenAt_visible, if_neg hname]

theorem markersEnd_visible (ts : List Token) (offset : Nat) :
    markersEnd (visible ts) offset = markersEnd ts offset := by
  fun_induction markersEnd ts offset with
  | case1 offset h ih =>
    rw [markersEnd, tokenAt_visible, if_pos h, ih]
  | case2 offset h => rw [markersEnd, tokenAt_visible, if_neg h]

theorem opensDeclaration_visible (ts : List Token) :
    opensDeclaration (visible ts) = opensDeclaration ts := by
  unfold opensDeclaration opensTyped
  simp only [tokenAt_visible, typeNameEnd_visible, markersEnd_visible]

theorem memberLabel_visible (ts : List Token) :
    memberLabel (visible ts) = memberLabel ts := by
  unfold memberLabel
  simp only [tokenAt_visible]

-- ================================================================ states

/-- What remains of a state on its way through the tokens. -/
def State.erase (tokens : List Token) (s : State) : State :=
  { s with
    rest := visible s.rest, position := rank tokens s.position
    size := rank tokens s.size }

namespace State

variable {tokens : List Token} {s : State}

theorem erase_peek : (s.erase tokens).peek = s.peek := by
  rw [peek_eq_tokenAt, peek_eq_tokenAt]
  exact tokenAt_visible 0 s.rest

/-- No directive stands in front of the next token. -/
theorem erase_mark_index :
    (s.erase tokens).mark.index = rank tokens s.position := by
  have hrest : (s.erase tokens).rest = visible s.rest := rfl
  unfold mark
  rw [hrest, significant_visible]
  rfl

/-- The directives up to the next token take no place. -/
theorem Along.rank_mark (hs : s.Along tokens) :
    rank tokens s.mark.index = rank tokens s.position := by
  rw [mark_index, rank_add, ← hs.rest, rank_directives, Nat.add_zero]

theorem Along.erase_mark (hs : s.Along tokens) :
    (s.erase tokens).mark
      = ⟨rank tokens s.mark.index, s.mark.location⟩ := by
  have hpeek : (s.erase tokens).peek = s.peek := erase_peek
  rw [hs.rank_mark, ← erase_mark_index]
  show _ = (⟨_, s.peek.location⟩ : Mark)
  rw [← hpeek]
  rfl

/-- The next token takes one place. -/
theorem Along.rank_next (hs : s.Along tokens)
    (h : s.peek.isEnd = false) :
    rank tokens (s.mark.index + 1) = rank tokens s.position + 1 := by
  rw [rank_add, hs.rank_mark, mark_index, ← List.drop_drop, ← hs.rest]
  congr 1
  have hsplit := rest_eq_of_not_end s h
  generalize hpre : s.rest.takeWhile Token.isDirective = before at *
  rw [hsplit, List.drop_left]
  unfold rank
  rw [List.take_succ_cons, visible_cons s.peek_isDirective]
  rfl

theorem Along.erase_advance (hs : s.Along tokens) :
    (s.erase tokens).advance = s.advance.erase tokens := by
  cases h : s.peek.isEnd with
  | true =>
    rw [advance_of_end s h, advance_of_end _ (by rw [erase_peek, h])]
  | false =>
    rw [advance_of_not_end s h,
      advance_of_not_end _ (by rw [erase_peek, h]), erase_mark_index,
      erase_peek]
    unfold erase
    rw [hs.rank_next h]
    congr 1
    dsimp only
    cases ahead_cases s.rest with
    | nothing hvisible hdrop => rw [hvisible, hdrop]; rfl
    | token t us ht hvisible hdrop =>
      rw [hvisible, hdrop, List.dropWhile_cons, if_neg (by simp [ht])]
      rfl

end State

end Grammar

-- ================================================================= trees

namespace Node

mutual

/-- The tree without the directives in it; `index` renumbers the ranges. -/
def erase (index : Nat → Nat) : Node → Node
  | ⟨kind, first, stop, location, recovered, children⟩ =>
    ⟨kind, index first, index stop, location, recovered,
      eraseAll index children⟩

/-- The trees of a list that are no directives, each without the
directives in it. -/
def eraseAll (index : Nat → Nat) : List Node → List Node
  | [] => []
  | n :: ns =>
    if n.kind == .preprocessorDirective then eraseAll index ns
    else n.erase index :: eraseAll index ns

end

theorem erase_eq (index : Nat → Nat) (n : Node) :
    n.erase index = { n with
      first := index n.first, stop := index n.stop
      children := eraseAll index n.children } := by
  cases n
  rfl

theorem eraseAll_append (index : Nat → Nat) (ms ns : List Node) :
    eraseAll index (ms ++ ns) = eraseAll index ms ++ eraseAll index ns := by
  induction ms with
  | nil => rfl
  | cons m ms ih =>
    rw [List.cons_append, eraseAll, eraseAll, ih]
    split <;> rfl

theorem eraseAll_reverse (index : Nat → Nat) (ns : List Node) :
    eraseAll index ns.reverse = (eraseAll index ns).reverse := by
  induction ns with
  | nil => rfl
  | cons n ns ih =>
    rw [List.reverse_cons, eraseAll_append, ih, eraseAll.eq_def _ (n :: ns),
      eraseAll.eq_def _ [n]]
    dsimp only
    split
    · exact List.append_nil _
    · exact (List.reverse_cons ..).symm

end Node

end FrontEnd
