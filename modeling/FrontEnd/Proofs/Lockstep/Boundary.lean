/-
Questions about the tokens ahead, and the token that ends an item.

Each of them is asked of tokens `V`, a semicolon or closing brace `c`
behind them, and whatever comes behind that. No search that is bound to
the grammar of what it looks for gets past `c`: template arguments,
casts, type names and declarators have no such token in them. One search
is not: how many tokens template arguments have (`angleLength`) is
counted without a look at anything but angle brackets, and may find the
closing one behind `c`. So the guess at a declaration depends on what
comes behind unless these counts do not (`opensDeclaration_boundary`).

Directives are erased beforehand (`visible`).
-/
import FrontEnd.Proofs.Lockstep.Basic
import FrontEnd.Proofs.Lockstep.Erasure

namespace FrontEnd

-- ==================================================== tokens that end items

namespace Token

variable {c : Token} (hc : c.shuts = true)
include hc

theorem shuts_cases : c.isPunct ";" = true ∨ c.isPunct "\x7d" = true :=
  Bool.or_eq_true _ _ ▸ hc

theorem kind_of_shuts : c.kind = .punctuation := by
  rcases shuts_cases hc with h | h <;> grind

theorem not_directive_of_shuts : c.isDirective = false := by
  simp [isDirective, kind_of_shuts hc]

/-- It is no name, no word and no operator. -/
theorem not_name_of_shuts : c.isName = false := by
  have := kind_of_shuts hc
  grind

theorem not_keyword_of_shuts (word : String) : c.isKeyword word = false := by
  have := kind_of_shuts hc
  grind

theorem not_spelled_of_shuts (spelling : String) :
    c.isSpelled spelling = false := by
  have := kind_of_shuts hc
  grind

end Token

namespace Grammar

section

variable {c : Token} (hc : c.shuts = true) {V : List Token}
  (hV : ∀ t ∈ V, t.isDirective = false) (X Y : List Token)

-- ================================================= tokens in front of it

omit hc in
include hV in
theorem tokenAt_append {k : Nat} (h : k < V.length) :
    tokenAt k (V ++ X) = V[k] := by
  induction V generalizing k with
  | nil => cases h
  | cons t V ih =>
    have ht := hV t (List.mem_cons_self ..)
    rw [List.cons_append]
    cases k with
    | zero =>
      rw [tokenAt, if_neg (by simp [ht])]
      rfl
    | succ k =>
      rw [tokenAt, if_neg (by simp [ht])]
      exact ih (fun u hu => hV u (List.mem_cons_of_mem _ hu))
        (Nat.lt_of_succ_lt_succ h)

include hc hV in
theorem tokenAt_boundary {k : Nat} (h : k ≤ V.length) :
    tokenAt k (V ++ c :: X) = tokenAt k (V ++ c :: Y) := by
  have hVc : ∀ t ∈ V ++ [c], t.isDirective = false := by
    intro t ht
    rcases List.mem_append.1 ht with ht | ht
    · exact hV t ht
    · rw [List.mem_singleton.1 ht]
      exact c.not_directive_of_shuts hc
  have hk : k < (V ++ [c]).length := by
    rw [List.length_append]
    exact Nat.lt_succ_of_le h
  rw [List.append_cons V c X, List.append_cons V c Y,
    tokenAt_append hVc X hk, tokenAt_append hVc Y hk]

omit hc in
include hV in
/-- The token behind the first ones. -/
theorem tokenAt_length (hc : c.isDirective = false) :
    tokenAt V.length (V ++ c :: X) = c := by
  induction V with
  | nil =>
    rw [List.length_nil, List.nil_append, tokenAt, if_neg (by simp [hc])]
  | cons t V ih =>
    have ht := hV t (List.mem_cons_self ..)
    rw [List.cons_append, List.length_cons, tokenAt, if_neg (by simp [ht])]
    exact ih fun u hu => hV u (List.mem_cons_of_mem _ hu)

include hc hV in
/-- The token that ends the item, where it comes. -/
theorem tokenAt_shuts : tokenAt V.length (V ++ c :: X) = c :=
  tokenAt_length hV X (c.not_directive_of_shuts hc)

include hc hV in
/-- Behind any other token there is one of the item. -/
theorem lt_of_not_shuts {k : Nat} (h : k ≤ V.length)
    (hne : tokenAt k (V ++ c :: X) ≠ c) : k + 1 ≤ V.length := by
  refine Nat.lt_of_le_of_ne h fun heq => hne ?_
  rw [heq, tokenAt_shuts hc hV X]

include hV in
theorem tokensFrom_append {k : Nat} (h : k ≤ V.length) :
    tokensFrom k (V ++ X) = V.drop k ++ X := by
  have zero (us : List Token) : tokensFrom 0 us = us := by
    cases us <;> rfl
  induction V generalizing k with
  | nil =>
    rw [Nat.le_zero.1 h, zero]
    rfl
  | cons t V ih =>
    have ht := hV t (List.mem_cons_self ..)
    cases k with
    | zero => rw [zero, List.drop_zero]
    | succ k =>
      rw [List.cons_append, tokensFrom, if_neg (by simp [ht]),
        List.drop_succ_cons]
      exact ih (fun u hu => hV u (List.mem_cons_of_mem _ hu))
        (Nat.le_of_succ_le_succ h)

-- ============================================================== searches

omit hV

include hc in
theorem behindAngles_boundary (window angles brackets : Nat)
    (V : List Token) : ∃ r : Option (List Token), ∀ X,
      behindAngles window angles brackets (V ++ c :: X)
        = r.map (· ++ c :: X) := by
  induction V generalizing window angles brackets with
  | nil =>
    refine ⟨none, fun X => ?_⟩
    have hdirective := c.not_directive_of_shuts hc
    rw [List.nil_append]
    cases window with
    | zero => rw [behindAngles, if_neg (by simp [hdirective])]; rfl
    | succ window =>
      rw [behindAngles, if_neg (by simp [hdirective]), if_pos]
      · rfl
      · rcases c.shuts_cases hc with h | h <;> simp [h]
  | cons t V ih =>
    cases hdirective : t.isDirective with
    | true =>
      obtain ⟨r, hr⟩ := ih window angles brackets
      exact ⟨r, fun X => by
        rw [List.cons_append, behindAngles_directive hdirective, hr]⟩
    | false =>
      have hnot : ¬t.isDirective = true := by simp [hdirective]
      cases window with
      | zero =>
        exact ⟨none, fun X => by
          rw [List.cons_append, behindAngles, if_neg hnot]; rfl⟩
      | succ window =>
        simp only [List.cons_append, behindAngles, if_neg hnot]
        repeat' split
        all_goals first
          | exact ⟨none, fun _ => rfl⟩
          | exact ⟨some V, fun _ => rfl⟩
          | exact ih _ _ _

include hc in
/-- The next token, whatever comes behind the item. -/
theorem dropWhile_boundary (V : List Token) :
    (∀ X, (V ++ c :: X).dropWhile Token.isDirective = c :: X)
      ∨ ∃ t V', ∀ X, (V ++ c :: X).dropWhile Token.isDirective
        = t :: (V' ++ c :: X) := by
  induction V with
  | nil =>
    have := c.not_directive_of_shuts hc
    exact .inl fun X => List.dropWhile_cons_of_neg (by simp [this])
  | cons t V ih =>
    cases ht : t.isDirective with
    | true =>
      simp only [List.cons_append, List.dropWhile_cons, if_pos ht]
      exact ih
    | false =>
      exact .inr ⟨t, V, fun X =>
        List.dropWhile_cons_of_neg (by simp [ht])⟩

include hc in
/-- Template arguments are told from the tokens of the item alone. -/
theorem opensArguments_boundary (declaration : Bool) (V : List Token) :
    opensArguments declaration (V ++ c :: X)
      = opensArguments declaration (V ++ c :: Y) := by
  unfold opensArguments
  simp only [significant_eq]
  rcases dropWhile_boundary hc V with h | ⟨t, V, h⟩
  · have hop : c.isOperator "<" = false := by
      have := c.kind_of_shuts hc
      grind
    rw [h, h]
    dsimp only
    rw [hop, Bool.false_and, Bool.false_and]
  · rw [h, h]
    dsimp only
    obtain ⟨r, hr⟩ := behindAngles_boundary hc argumentWindow 1 0 V
    rw [hr, hr]
    cases r with
    | none => rfl
    | some V =>
      dsimp only [Option.map_some]
      rcases dropWhile_boundary hc V with h | ⟨t, V, h⟩
      · rw [h, h]
      · rw [h, h]

include hc in
theorem castType_boundary (window : Nat) (typed marked : Bool)
    (V : List Token) : ∃ r : Option (Bool × List Token), ∀ X,
      castType window typed marked (V ++ c :: X)
        = r.map fun (clear, V) => (clear, V ++ c :: X) := by
  induction V generalizing window typed marked with
  | nil =>
    refine ⟨none, fun X => ?_⟩
    have hdirective := c.not_directive_of_shuts hc
    have hkind := c.kind_of_shuts hc
    rw [List.nil_append]
    cases window with
    | zero => rw [castType, if_neg (by simp [hdirective])]; rfl
    | succ window =>
      have hclose : c.isPunct ")" = false := by
        rcases c.shuts_cases hc with h | h <;> grind
      simp [castType, hdirective, hkind, Token.isName, Token.isSpelled,
        hclose]
  | cons t V ih =>
    cases hdirective : t.isDirective with
    | true =>
      obtain ⟨r, hr⟩ := ih window typed marked
      exact ⟨r, fun X => by
        rw [List.cons_append, castType_directive hdirective, hr]⟩
    | false =>
      have hnot : ¬t.isDirective = true := by simp [hdirective]
      cases window with
      | zero =>
        exact ⟨none, fun X => by
          rw [List.cons_append, castType, if_neg hnot]; rfl⟩
      | succ window =>
        simp only [List.cons_append, castType, if_neg hnot]
        repeat' split
        all_goals first
          | exact ⟨none, fun _ => rfl⟩
          | exact ⟨some (_, V), fun _ => rfl⟩
          | exact ih _ _ _

include hc hV in
/-- A cast is told from the tokens of the item alone. -/
theorem opensCast_boundary (h : V ≠ []) :
    opensCast (V ++ c :: X) = opensCast (V ++ c :: Y) := by
  have hlength : 1 ≤ V.length := List.length_pos_of_ne_nil h
  obtain ⟨r, hr⟩ :=
    castType_boundary hc castWindow false false (V.drop 1)
  unfold opensCast
  rw [tokenAt_boundary hc hV X Y hlength,
    tokensFrom_append hV (c :: X) hlength,
    tokensFrom_append hV (c :: Y) hlength, hr, hr]
  rcases r with _ | ⟨clear, V⟩
  · rfl
  · dsimp only [Option.map_some]
    rw [tokenAt_zero, tokenAt_zero]
    rcases dropWhile_boundary hc V with h | ⟨t, V, h⟩
    · rw [h, h]
      rfl
    · rw [h, h]
      rfl

include hc hV in
/-- A label among members is told from the tokens of the item alone. -/
theorem memberLabel_boundary :
    memberLabel (V ++ c :: X) = memberLabel (V ++ c :: Y) := by
  have hat {k : Nat} (h : k ≤ V.length) := tokenAt_boundary hc hV X Y h
  have hlast := tokenAt_shuts hc hV
  have hname := c.not_name_of_shuts hc
  have hword := c.not_keyword_of_shuts hc
  have hcolon := c.not_spelled_of_shuts hc
  unfold memberLabel
  rw [hat (Nat.zero_le _)]
  rcases V with _ | ⟨t, _ | ⟨u, V⟩⟩
  · have hfirst (Z : List Token) : tokenAt 0 ([] ++ c :: Z) = c := hlast Z
    simp only [hfirst, hname, hword, Bool.or_self, Bool.false_and,
      Bool.false_eq_true, if_false]
  · have hsecond (Z : List Token) : tokenAt 1 ([t] ++ c :: Z) = c :=
      hlast Z
    simp only [hsecond, hname, hcolon, Bool.and_false, Bool.false_and,
      Bool.false_eq_true, if_false]
  · rw [hat (by simp), hat (by simp)]

-- ========================================================== declarations

/-- At the end no closing angle bracket is found. -/
theorem angleLength_end (window angles : Nat) {Y : List Token}
    (hY : (tokenAt 0 Y).isEnd = true) :
    angleLength window angles Y = none := by
  induction Y with
  | nil => rw [angleLength]
  | cons t Y ih =>
    rw [tokenAt] at hY
    split at hY
    case isTrue h => rw [angleLength_directive h, ih hY]
    case isFalse h =>
      cases window with
      | zero => rw [angleLength, if_neg h]
      | succ window => rw [angleLength, if_neg h, if_pos hY]

include hc hV in
/-- If the end comes behind the item, closing angle brackets are found
in the item or not at all. -/
theorem angleLength_le (window angles : Nat) {n : Nat}
    (hY : (tokenAt 0 Y).isEnd = true)
    (h : angleLength window angles (V ++ c :: Y) = some n) :
    n ≤ V.length := by
  induction V generalizing window angles n with
  | nil =>
    have hdirective := c.not_directive_of_shuts hc
    have hkind := c.kind_of_shuts hc
    rw [List.nil_append] at h
    cases window with
    | zero =>
      rw [angleLength, if_neg (by simp [hdirective])] at h
      cases h
    | succ window =>
      rw [angleLength, if_neg (by simp [hdirective]), if_neg (by grind),
        if_neg (by simp [hkind]), angleLength_end _ _ hY] at h
      cases h
  | cons t V ih =>
    have ht := hV t (List.mem_cons_self ..)
    have hrest : ∀ u ∈ V, u.isDirective = false :=
      fun u hu => hV u (List.mem_cons_of_mem _ hu)
    rw [List.cons_append] at h
    rw [List.length_cons]
    cases window with
    | zero =>
      rw [angleLength, if_neg (by simp [ht])] at h
      cases h
    | succ window =>
      rw [angleLength, if_neg (by simp [ht])] at h
      split at h
      · cases h
      · split at h
        · cases h
          omega
        · obtain ⟨m, hm, rfl⟩ := Option.map_eq_some_iff.1 h
          exact Nat.succ_le_succ (ih hrest _ _ hm)

section

variable (hY : (tokenAt 0 Y).isEnd = true)
  (hcount : ∀ k ≤ V.length,
    opensArguments true (V.drop k ++ c :: X) = true →
      angleLength (declarationWindow + 1) 0 (V.drop k ++ c :: X)
        = angleLength (declarationWindow + 1) 0 (V.drop k ++ c :: Y))
include hc hV hY hcount

theorem argumentLength_boundary {k : Nat} (h : k ≤ V.length) :
    argumentLength (V.drop k ++ c :: X)
        = argumentLength (V.drop k ++ c :: Y)
      ∧ ∀ n, argumentLength (V.drop k ++ c :: Y) = some n →
        k + n ≤ V.length := by
  have hdrop : ∀ t ∈ V.drop k, t.isDirective = false :=
    fun t ht => hV t (List.mem_of_mem_drop ht)
  have hsame : argumentLength (V.drop k ++ c :: X)
      = argumentLength (V.drop k ++ c :: Y) := by
    unfold argumentLength
    rw [tokenAt_boundary hc hdrop X Y (Nat.zero_le _),
      opensArguments_boundary hc X Y]
    split
    · split
      case isTrue hopens =>
        exact hcount k h (opensArguments_boundary hc X Y true _ ▸ hopens)
      case isFalse => rfl
    · rfl
  refine ⟨hsame, fun n hn => ?_⟩
  unfold argumentLength at hn
  split at hn
  · split at hn
    · have := angleLength_le hc hdrop Y _ _ hY hn
      rw [List.length_drop] at this
      omega
    · cases hn
  · cases hn
    exact h

theorem typeNameEnd_boundary {offset : Nat} (h : offset ≤ V.length) :
    typeNameEnd (V ++ c :: X) offset = typeNameEnd (V ++ c :: Y) offset
      ∧ ∀ stop, typeNameEnd (V ++ c :: Y) offset = some stop →
        stop ≤ V.length := by
  induction hn : declarationWindow - offset using Nat.strongRecOn
    generalizing offset with
  | _ n ih =>
    rw [typeNameEnd.eq_def (V ++ c :: X), typeNameEnd.eq_def (V ++ c :: Y),
      tokenAt_boundary hc hV X Y h]
    split
    case isFalse => exact ⟨rfl, nofun⟩
    case isTrue hname =>
      have hlt : offset + 1 ≤ V.length :=
        lt_of_not_shuts hc hV Y h fun heq => by
          rw [heq, c.not_name_of_shuts hc] at hname
          cases hname
      obtain ⟨hsame, hle⟩ :=
        argumentLength_boundary hc hV X Y hY hcount hlt
      rw [tokensFrom_append hV (c :: X) hlt,
        tokensFrom_append hV (c :: Y) hlt, hsame]
      cases hlength : argumentLength (V.drop (offset + 1) ++ c :: Y) with
      | none => exact ⟨rfl, nofun⟩
      | some length =>
        have hstop := hle length hlength
        dsimp only
        rw [tokenAt_boundary hc hV X Y hstop]
        split
        case isFalse =>
          refine ⟨rfl, fun stop h => ?_⟩
          cases h
          exact hstop
        case isTrue hscope =>
          have hlt : offset + 1 + length + 1 ≤ V.length :=
            lt_of_not_shuts hc hV Y hstop fun heq => by
              rw [heq, c.not_spelled_of_shuts hc] at hscope
              cases hscope
          split
          · exact ⟨rfl, nofun⟩
          · exact ih _ (by omega) hlt rfl

omit hY hcount in
theorem markersEnd_boundary {offset : Nat} (h : offset ≤ V.length) :
    markersEnd (V ++ c :: X) offset = markersEnd (V ++ c :: Y) offset
      ∧ markersEnd (V ++ c :: Y) offset ≤ V.length := by
  fun_induction markersEnd (V ++ c :: Y) offset with
  | case1 offset hmarker ih =>
    have hlt : offset + 1 ≤ V.length :=
      lt_of_not_shuts hc hV Y h fun heq => by
        simp [heq, isDeclaratorMarker, c.kind_of_shuts hc] at hmarker
    rw [markersEnd, tokenAt_boundary hc hV X Y h, if_pos hmarker]
    exact ih hlt
  | case2 offset hmarker =>
    rw [markersEnd, tokenAt_boundary hc hV X Y h, if_neg hmarker]
    exact ⟨rfl, h⟩

theorem opensTyped_boundary :
    opensTyped (V ++ c :: X) = opensTyped (V ++ c :: Y) := by
  unfold opensTyped
  rw [tokenAt_boundary hc hV X Y (Nat.zero_le _)]
  generalize hoffset :
    (if (tokenAt 0 (V ++ c :: Y)).isSpelled "::" then 1 else 0) = offset
  have hle : offset ≤ V.length := by
    rw [← hoffset]
    split
    case isFalse => exact Nat.zero_le _
    case isTrue hscope =>
      refine lt_of_not_shuts hc hV Y (Nat.zero_le _) fun heq => ?_
      rw [heq, c.not_spelled_of_shuts hc] at hscope
      cases hscope
  obtain ⟨hsame, hstop⟩ :=
    typeNameEnd_boundary hc hV X Y hY hcount hle
  dsimp only
  rw [hsame]
  cases hend : typeNameEnd (V ++ c :: Y) offset with
  | none => rfl
  | some stop =>
    obtain ⟨hmarkers, hname⟩ :=
      markersEnd_boundary hc hV X Y (hstop stop hend)
    dsimp only
    rw [hmarkers, tokenAt_boundary hc hV X Y hname]
    cases hisName :
      (tokenAt (markersEnd (V ++ c :: Y) stop) (V ++ c :: Y)).isName with
    | false => rfl
    | true =>
      have hlt : markersEnd (V ++ c :: Y) stop + 1 ≤ V.length :=
        lt_of_not_shuts hc hV Y hname fun heq => by
          rw [heq, c.not_name_of_shuts hc] at hisName
          cases hisName
      rw [tokenAt_boundary hc hV X Y hlt]

theorem opensDeclaration_boundary :
    opensDeclaration (V ++ c :: X) = opensDeclaration (V ++ c :: Y) := by
  unfold opensDeclaration
  rw [tokenAt_boundary hc hV X Y (Nat.zero_le _),
    opensTyped_boundary hc hV X Y hY hcount]

end

end

end Grammar

end FrontEnd
