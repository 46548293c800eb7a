/-
Token lists with every token changed in a way that no rule notices, and
what the questions about the tokens ahead answer there.

A change keeps the kinds of the tokens, and their values but for the
spelling of operators (`Token.Relabels`). Each question about a single
token has the same answer for the changed one, and so has each of the
bounded searches, by induction on the tokens, all but one: the type of a
cast is looked through with an eye for the spelling of `&` and `&&`, so
that it takes a change that keeps the values (`opensCast_map`).
-/
import FrontEnd.Proofs.Lockstep.Group

namespace FrontEnd

namespace Token

/-- A change of tokens that no rule notices. A token that stands at a
location comes to stand at the place of that. -/
structure Relabels (f : Token → Token) (place : Location → Location) :
    Prop where
  alike (t : Token) : t.Alike (f t)
  location (t : Token) : (f t).location = place t.location
  ending : f .endOfInput = .endOfInput

/-- A change that keeps the spelling of operators, too. -/
def KeepsValues (f : Token → Token) : Prop := ∀ t, (f t).value = t.value

namespace Relabels

variable {f : Token → Token} {place : Location → Location}
  (hf : Relabels f place) (t : Token)
include hf

theorem kind : (f t).kind = t.kind := (hf.alike t).kind.symm

theorem isEnd : (f t).isEnd = t.isEnd := (hf.alike t).isEnd.symm

theorem isDirective : (f t).isDirective = t.isDirective := by
  unfold Token.isDirective
  rw [hf.kind]

theorem isName : (f t).isName = t.isName := (hf.alike t).isName.symm

theorem isPunct (value : String) : (f t).isPunct value = t.isPunct value :=
  ((hf.alike t).isPunct value).symm

theorem isKeyword (value : String) :
    (f t).isKeyword value = t.isKeyword value :=
  ((hf.alike t).isKeyword value).symm

theorem isOperator (operator : String) :
    (f t).isOperator operator = t.isOperator operator :=
  ((hf.alike t).isOperator operator).symm

theorem isSpelled {spelling : String} (h : Word.isSole spelling = true) :
    (f t).isSpelled spelling = t.isSpelled spelling :=
  ((hf.alike t).isSpelled h).symm

theorem closes : (f t).closes = t.closes := (hf.alike t).closes.symm

end Relabels

end Token

namespace Grammar

variable {f : Token → Token} {place : Location → Location}
  (hf : Token.Relabels f place)
include hf

-- ======================================================= the tokens ahead

theorem dropWhile_isDirective_map (ts : List Token) :
    (ts.map f).dropWhile Token.isDirective
      = (ts.dropWhile Token.isDirective).map f := by
  rw [List.dropWhile_map]
  congr 2
  funext t
  exact hf.isDirective t

theorem takeWhile_isDirective_map (ts : List Token) :
    ((ts.map f).takeWhile Token.isDirective).length
      = (ts.takeWhile Token.isDirective).length := by
  rw [List.takeWhile_map, List.length_map]
  congr 2
  funext t
  exact hf.isDirective t

theorem significant_map (index : Nat) (ts : List Token) :
    significant index (ts.map f)
      = ((significant index ts).1, (significant index ts).2.map f) := by
  rw [significant_eq, significant_eq, takeWhile_isDirective_map hf,
    dropWhile_isDirective_map hf]

theorem tokenAt_map (n : Nat) (ts : List Token) :
    tokenAt n (ts.map f) = f (tokenAt n ts) := by
  induction ts generalizing n with
  | nil => exact hf.ending.symm
  | cons t ts ih =>
    rw [List.map_cons, tokenAt.eq_def n (t :: ts),
      tokenAt.eq_def n (f t :: _)]
    dsimp only
    rw [hf.isDirective]
    split
    · exact ih n
    · cases n with
      | zero => rfl
      | succ n => exact ih n

theorem tokensFrom_map (n : Nat) (ts : List Token) :
    tokensFrom n (ts.map f) = (tokensFrom n ts).map f := by
  induction ts generalizing n with
  | nil => rfl
  | cons t ts ih =>
    cases n with
    | zero => rfl
    | succ n => rw [List.map_cons, tokensFrom, tokensFrom, hf.isDirective, ih]

theorem anglesAfter_map (t : Token) (angles : Nat) :
    anglesAfter (f t) angles = anglesAfter t angles :=
  (Lockstep.anglesAfter_alike (hf.alike t) angles).symm

theorem depthAfter_map (t : Token) (depth : Nat) :
    depthAfter (f t) depth = depthAfter t depth :=
  (Lockstep.depthAfter_alike (hf.alike t) depth).symm

theorem behindAngles_map (window angles brackets : Nat)
    (ts : List Token) :
    behindAngles window angles brackets (ts.map f)
      = (behindAngles window angles brackets ts).map (List.map f) := by
  induction ts generalizing window angles brackets with
  | nil => rfl
  | cons t ts ih =>
    rw [List.map_cons, behindAngles.eq_def _ _ _ (t :: ts),
      behindAngles.eq_def _ _ _ (f t :: _)]
    dsimp only
    simp only [hf.isDirective, hf.isEnd, hf.isPunct, hf.isOperator,
      anglesAfter_map hf, ih]
    cases window <;> (repeat' split) <;> rfl

theorem followsArguments_map (declaration : Bool) (t : Token) :
    followsArguments declaration (f t) = followsArguments declaration t := by
  have h := hf.alike t
  unfold followsArguments
  rw [← h.kind, ← h.canonical]
  cases hkind : t.kind with
  | punctuation => rw [h.value (by simp [hkind])]
  | _ => rfl

theorem opensArguments_map (declaration : Bool) (ts : List Token) :
    opensArguments declaration (ts.map f)
      = opensArguments declaration ts := by
  unfold opensArguments
  rw [significant_map hf]
  cases (significant 0 ts).2 with
  | nil => rfl
  | cons t us =>
    rw [List.map_cons]
    dsimp only
    rw [hf.isOperator, behindAngles_map hf]
    cases behindAngles argumentWindow 1 0 us with
    | none => rfl
    | some us =>
      dsimp only [Option.map_some]
      rw [significant_map hf]
      cases (significant 0 us).2 with
      | nil => rfl
      | cons next _ =>
        rw [List.map_cons]
        dsimp only
        rw [followsArguments_map hf]

theorem angleLength_map (window angles : Nat) (ts : List Token) :
    angleLength window angles (ts.map f) = angleLength window angles ts := by
  induction ts generalizing window angles with
  | nil => rfl
  | cons t ts ih =>
    rw [List.map_cons, angleLength.eq_def _ _ (t :: ts),
      angleLength.eq_def _ _ (f t :: _)]
    simp only [hf.isDirective, hf.isEnd, hf.kind, anglesAfter_map hf, ih]

theorem argumentLength_map (ts : List Token) :
    argumentLength (ts.map f) = argumentLength ts := by
  unfold argumentLength
  rw [tokenAt_map hf, hf.isSpelled _ (by decide), opensArguments_map hf,
    angleLength_map hf]

theorem typeNameEnd_map (ts : List Token) (offset : Nat) :
    typeNameEnd (ts.map f) offset = typeNameEnd ts offset := by
  fun_induction typeNameEnd ts offset with
  | case1 offset hname hlength =>
    rw [typeNameEnd, tokenAt_map hf, hf.isName, if_pos hname,
      tokensFrom_map hf, argumentLength_map hf, hlength]
  | case2 offset hname length hlength stop hscope hfar =>
    rw [typeNameEnd, tokenAt_map hf, hf.isName, if_pos hname,
      tokensFrom_map hf, argumentLength_map hf, hlength]
    dsimp only
    rw [tokenAt_map hf, hf.isSpelled _ (by decide), if_pos hscope,
      if_pos hfar]
  | case3 offset hname length hlength stop hscope hnear ih =>
    rw [typeNameEnd, tokenAt_map hf, hf.isName, if_pos hname,
      tokensFrom_map hf, argumentLength_map hf, hlength]
    dsimp only
    rw [tokenAt_map hf, hf.isSpelled _ (by decide), if_pos hscope,
      if_neg hnear]
    exact ih
  | case4 offset hname length hlength stop hscope =>
    rw [typeNameEnd, tokenAt_map hf, hf.isName, if_pos hname,
      tokensFrom_map hf, argumentLength_map hf, hlength]
    dsimp only
    rw [tokenAt_map hf, hf.isSpelled _ (by decide), if_neg hscope]
  | case5 offset hname =>
    rw [typeNameEnd, tokenAt_map hf, hf.isName, if_neg hname]

theorem isDeclaratorMarker_map (t : Token) :
    isDeclaratorMarker (f t) = isDeclaratorMarker t := by
  have h := hf.alike t
  unfold isDeclaratorMarker
  rw [← h.kind, ← h.canonical]
  cases hkind : t.kind with
  | keyword => rw [h.value (by simp [hkind])]
  | _ => rfl

theorem markersEnd_map (ts : List Token) (offset : Nat) :
    markersEnd (ts.map f) offset = markersEnd ts offset := by
  fun_induction markersEnd ts offset with
  | case1 offset h ih =>
    rw [markersEnd, tokenAt_map hf, isDeclaratorMarker_map hf, if_pos h, ih]
  | case2 offset h =>
    rw [markersEnd, tokenAt_map hf, isDeclaratorMarker_map hf, if_neg h]

theorem followsDeclared_map (t : Token) :
    followsDeclared (f t) = followsDeclared t := by
  have h := hf.alike t
  unfold followsDeclared
  rw [← h.kind, h.hasValue (by decide), h.hasValue (by decide)]
  cases hkind : t.kind with
  | punctuation => rw [h.value (by simp [hkind])]
  | _ => rfl

theorem opensDeclaration_map (ts : List Token) :
    opensDeclaration (ts.map f) = opensDeclaration ts := by
  have h := hf.alike (tokenAt 0 ts)
  unfold opensDeclaration opensTyped
  simp only [tokenAt_map hf, typeNameEnd_map hf, markersEnd_map hf,
    followsDeclared_map hf, hf.isName,
    hf.isSpelled _ (show Word.isSole "::" = true by decide)]
  rw [← h.kind]
  split
  case isTrue hkind => rw [h.value (by simp [beq_iff_eq.1 hkind])]
  case isFalse => rfl

theorem memberLabel_map (ts : List Token) :
    memberLabel (ts.map f) = memberLabel ts := by
  unfold memberLabel
  simp only [tokenAt_map hf, hf.isKeyword, hf.isName, hf.kind,
    hf.isSpelled _ (show Word.isSole ":" = true by decide)]

-- ==================================================================== casts

section
variable (hvalues : Token.KeepsValues f)
include hvalues

theorem isSpelled_map (t : Token) (spelling : String) :
    (f t).isSpelled spelling = t.isSpelled spelling := by
  unfold Token.isSpelled
  rw [hf.kind, hvalues t]

theorem castType_map (window : Nat) (typed marked : Bool)
    (ts : List Token) :
    castType window typed marked (ts.map f)
      = (castType window typed marked ts).map fun (clear, us) =>
        (clear, us.map f) := by
  induction ts generalizing window typed marked with
  | nil => rfl
  | cons t ts ih =>
    rw [List.map_cons, castType.eq_def _ _ _ (t :: ts),
      castType.eq_def _ _ _ (f t :: _)]
    dsimp only
    simp only [hf.isDirective, hf.kind, hf.isName, hf.isPunct, hvalues t,
      isSpelled_map hf hvalues, ih]
    cases window <;> (repeat' split) <;> rfl

theorem opensCast_map (ts : List Token) :
    opensCast (ts.map f) = opensCast ts := by
  unfold opensCast
  rw [tokenAt_map hf, hf.isPunct, tokensFrom_map hf,
    castType_map hf hvalues]
  cases castType castWindow false false (tokensFrom 1 ts) with
  | none => rfl
  | some r =>
    simp only [Option.map_some, tokenAt_map hf, startsOperand, hf.kind,
      hvalues (tokenAt 0 r.2)]

end

end Grammar

end FrontEnd
