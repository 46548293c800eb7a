/-
The rules that pass over tokens, and those of names, in step with
themselves. They hold no other constructs, so nothing is assumed of the
levels below.

A group is passed over by the number of open groups in the state, and two
readings need not agree on that: one may have begun with groups open that
the other knows nothing of. But all that matters is how many are open
inside the group, which can be counted from its opening bracket on
(`skipGroup_eq`).
-/
import FrontEnd.Proofs.Lockstep.Basic

namespace FrontEnd.Grammar.Lockstep

variable {L : Lockstep} (hL : L.Lawful)

/-- Conditions agree if their second parts do where the first holds. -/
theorem and_eq_and {a b c : Bool} (h : a = true → b = c) :
    (a && b) = (a && c) := by
  cases a with
  | true => exact h rfl
  | false => rfl

-- ================================================================ groups

theorem closerOf_alike {t u : Token} (h : t.Alike u) :
    closerOf t = closerOf u := by
  unfold closerOf
  rw [h.hasValue (by decide), h.hasValue (by decide)]

theorem anglesAfter_alike {t u : Token} (h : t.Alike u) (angles : Nat) :
    anglesAfter t angles = anglesAfter u angles := by
  unfold anglesAfter
  rw [h.isSpelled (by decide), h.isSpelled (by decide),
    h.isSpelled (by decide)]

theorem depthAfter_alike {t u : Token} (h : t.Alike u) (depth : Nat) :
    depthAfter t depth = depthAfter u depth := by
  unfold depthAfter
  rw [h.opens, h.closes]

/-- A token of a group, which counts for the groups that are open inside. -/
def groupRound (problem : SyntaxProblem) (inside : Nat) :
    Parser (Round Nat Unit) := do
  let t ← peek
  if inside = 0 then return .done ()
  else if t.isEnd then fail problem
  else
    advance
    return .again (depthAfter t inside)

/-- `skipGroup` with a counter of its own for the groups that are open
inside. -/
def skipGroupCounting (context : String) : Parser Unit := do
  let opener ← peek
  advance
  loop (groupRound (.expected s!"'{closerOf opener}' {context}"))
    (depthAfter opener 0)

/-- Within a group the number of open groups follows the counter. -/
def InGroup (outer inside : Nat) (s : State) : Prop :=
  (inside = 0 → s.depth ≤ outer) ∧ (0 < inside → s.depth = outer + inside)

theorem depthAfter_end {t : Token} (h : t.isEnd = true) (depth : Nat) :
    depthAfter t depth = depth := by
  have hkind : t.kind = .endOfFile := by simpa [Token.isEnd] using h
  simp [depthAfter, Token.opens, Token.closes, Token.isPunct, hkind]

theorem advance_depth (s : State) :
    s.advance.depth = depthAfter s.peek s.depth := by
  unfold State.advance State.peek
  split
  case h_1 i heq => rw [heq]; rfl
  case h_2 i t ts heq =>
    rw [heq]
    dsimp only [List.headD_cons]
    split
    case isTrue h => rw [depthAfter_end h]
    case isFalse => rfl

/-- The state counts as the counter does, from a token in a group on. -/
theorem InGroup.advance {outer inside : Nat} {s : State}
    (h : InGroup outer inside s) (hopen : inside ≠ 0) :
    InGroup outer (depthAfter s.peek inside) s.advance := by
  unfold InGroup at *
  rw [advance_depth, h.2 (by omega)]
  unfold depthAfter
  split
  · omega
  · split <;> omega

/-- A group begins. -/
theorem InGroup.start (s : State) :
    InGroup s.depth (depthAfter s.peek 0) s.advance := by
  unfold InGroup
  rw [advance_depth]
  unfold depthAfter
  split
  · omega
  · split <;> omega

theorem skipGroup_loop (problem : SyntaxProblem) (outer bound : Nat)
    {inside : Nat} {s : State} (h : InGroup outer inside s) :
    loopWithin bound (fun _ => do
        if (← openGroups) ≤ outer then return .done ()
        else if ← check Token.isEnd then fail problem
        else
          advance
          return .again ()) () s
      = loopWithin bound (groupRound problem) inside s := by
  induction hn : bound - s.position using Nat.strongRecOn
    generalizing inside s with
  | _ n ih =>
    rw [loopWithin_eq, loopWithin_eq, groupRound]
    simp only [bind_apply, openGroups, peek, goOn]
    by_cases hinside : inside = 0
    · rw [if_pos (h.1 hinside), if_pos hinside]
      rfl
    · have hdepth := h.2 (by omega)
      rw [if_neg (by omega), if_neg hinside]
      simp only [bind_apply, check, goOn]
      split
      · rfl
      · show afterRound bound _ s (.ok (.again ()) s.advance)
          = afterRound bound _ s (.ok (.again _) s.advance)
        unfold afterRound
        dsimp only
        split
        · exact ih _ (by omega) (h.advance hinside) rfl
        · rfl

/-- How many groups are open in all does not matter to a group. -/
theorem skipGroup_eq (context : String) :
    skipGroup context = skipGroupCounting context := by
  funext s
  unfold skipGroup skipGroupCounting
  simp only [bind_apply, peek, openGroups, advance, goOn]
  exact skipGroup_loop _ _ _ (.start s)

include hL

theorem skipGroup_inStep (context : String) :
    L.InStep Eq (skipGroup context) (skipGroup context) := by
  rw [skipGroup_eq]
  unfold skipGroupCounting
  apply InStep.bind (.peek hL)
  intro t u ht
  rw [closerOf_alike (hL.alike ht), depthAfter_alike (hL.alike ht)]
  refine .andThen (.advance hL) (.loop (V := Eq) hL ?_ rfl)
  rintro inside _ rfl
  unfold groupRound
  apply InStep.bind (.peek hL)
  intro t u ht
  rw [(hL.alike ht).isEnd, depthAfter_alike (hL.alike ht)]
  split
  · exact .pure (.done rfl)
  · refine .ite rfl (.fail hL _) ?_
    exact .andThen (.advance hL) (.pure (.again rfl))

theorem skipTemplateArguments_inStep :
    L.InStep Eq skipTemplateArguments skipTemplateArguments := by
  unfold skipTemplateArguments
  refine .andThen (.advance hL) (.loop (V := Eq) hL ?_ rfl)
  rintro angles _ rfl
  apply InStep.bind (.peek hL)
  intro t u ht
  have h := hL.alike ht
  rw [h.isPunct, h.isPunct, h.isEnd, h.isPunct, h.opens, h.closes,
    anglesAfter_alike h]
  split
  · exact .pure (.done rfl)
  · refine .ite rfl ?_ (.ite rfl (.failExpected hL _) ?_)
    · exact .andThen (skipGroup_inStep hL _) (.pure (.again rfl))
    · exact .andThen (.advance hL) (.pure (.again rfl))

theorem skipToSemicolon_inStep (context : String) :
    L.InStep Eq (skipToSemicolon context) (skipToSemicolon context) := by
  unfold skipToSemicolon
  refine .rounds hL (.bind (.peek hL) fun t u ht => ?_)
  have h := hL.alike ht
  refine .ite (h.isPunct _) (.andThen (.advance hL) (.pure (.done rfl))) ?_
  refine .ite h.opens
    (.andThen (skipGroup_inStep hL _) (.pure (.again rfl))) ?_
  rw [h.isEnd, h.closes]
  refine .ite rfl (.failExpected hL _) ?_
  exact .andThen (.advance hL) (.pure (.again rfl))

theorem skipAttributes_inStep :
    L.InStep Eq skipAttributes skipAttributes := by
  unfold skipAttributes
  refine .rounds hL (.checkNext hL (fun h => h.isPunct _)
    (fun h => Token.not_shuts_of_isPunct h (by decide)) ?_)
  intro first next next' hnext
  refine .ite (and_eq_and fun h => (hL.alike (hnext h)).isPunct _) ?_
    (.pure (.done rfl))
  exact .andThen (skipGroup_inStep hL _) (.pure (.again rfl))

-- ================================================================= names

omit hL in
/-- Both see an empty pair of brackets, or neither does. -/
theorem empty_brackets_eq {t u next next' : Token} (h : t.Alike u)
    (hnext : t.shuts = false → next.Alike next') :
    ((t.isPunct "(" && next.isPunct ")")
      || (t.isPunct "[" && next.isPunct "]"))
      = ((u.isPunct "(" && next'.isPunct ")")
        || (u.isPunct "[" && next'.isPunct "]")) := by
  rw [← h.isPunct, ← h.isPunct]
  congr 1 <;> refine and_eq_and fun hopen => ?_
  · exact (hnext (Token.not_shuts_of_isPunct hopen (by decide))).isPunct _
  · exact (hnext (Token.not_shuts_of_isPunct hopen (by decide))).isPunct _

theorem operatorName_inStep : L.InStep Eq operatorName operatorName := by
  unfold operatorName
  refine .andThen (.advance hL) (.peekNext hL ?_)
  intro t u next next' ht hnext
  have h := hL.alike ht
  rw [empty_brackets_eq h fun h => hL.alike (hnext h), h.isPunct,
    h.isString, h.isName, h.isKind, h.isKind]
  refine .ite rfl (.andThen (.advance hL) (.advance hL)) ?_
  refine .ite rfl (.advance hL) ?_
  refine .ite rfl (.andThen (.advance hL) (.expectName hL)) ?_
  refine .ite rfl ?_ (.failExpected hL _)
  refine .andThen (.advance hL) (.skipWhile hL fun h => ?_)
  rw [h.isOperator, h.isOperator]

/-- Whether a `~` comes next, spelled so. -/
def complementNext (s : State) : Bool := s.peek.isSpelled "~"

/-- A part of a qualified name that is told whether it begins with a
`~`. -/
def namePart (complement : Bool) : Parser Unit := do
  let t ← peek
  if t.isName then advance
  else if t.isKeyword "operator" then operatorName
  else if complement then
    advance
    expectName
  else failExpected "identifier"

/-- A round of a qualified name that is told whether a `~` comes next. -/
def nameRoundTold (x : Unit × Bool) :
    Parser (Round (Unit × Bool) Unit) := do
  if ← accept (·.isKeyword "template") then
    telling complementNext (pure (.again ()))
  else
    namePart x.2
    if ← nameTail then telling complementNext (pure (.again ()))
    else return .done ()

omit hL in
/-- A round as the parts of it. -/
theorem nameRound_apply (s : State) :
    nameRound s = (do
      if ← accept (·.isKeyword "template") then return .again ()
      else
        namePart (complementNext s)
        if ← nameTail then return .again () else return .done ()
      : Parser (Round Unit Unit)) s := by
  rw [accept_apply]
  show (if s.peek.isKeyword "template" then _ else _ : Parser _) s = _
  by_cases htemplate : s.peek.isKeyword "template" = true
  · rw [if_pos htemplate, if_pos htemplate]
    rfl
  rw [if_neg htemplate, if_neg htemplate, if_neg Bool.false_ne_true,
    namePart, bind_assoc]
  show _ = ((if s.peek.isName then _ else _ : Parser Unit) >>= _) s
  by_cases hname : s.peek.isName = true
  · rw [if_pos hname, if_pos hname]
  rw [if_neg hname, if_neg hname]
  by_cases hoperator : s.peek.isKeyword "operator" = true
  · rw [if_pos hoperator, if_pos hoperator]
  rw [if_neg hoperator, if_neg hoperator]
  show (if complementNext s then _ else _ : Parser _) s = _
  cases complementNext s <;> rfl

omit hL in
theorem nameRound_told (s : State) :
    nameRoundTold ((), complementNext s) s
      = telling complementNext nameRound s := by
  rw [telling, bind_apply, nameRound_apply, ← bind_apply, ← telling]
  simp only [nameRoundTold, telling_bind, telling_ite, telling_done]

/-- A qualified name that is told whether it begins with a `~`. -/
def nameTold (complement : Bool) : Parser Node := do
  let m ← Grammar.mark
  let named : Bool → Parser Node := fun complement => do
    loop nameRoundTold ((), complement)
    finish .idExpression m []
  if ← accept (·.isOperator "::") then seen complementNext >>= named
  else named complement

omit hL in
/-- What a name asks for where it begins, it can be told. -/
theorem idExpression_told :
    idExpression = seen complementNext >>= nameTold := by
  unfold idExpression
  rw [loop_told fun _ => nameRound_told]
  funext s
  show (accept (·.isOperator "::") >>= fun _ => _) s
    = (accept (·.isOperator "::") >>= fun _ => _) s
  rw [accept_apply, accept_apply]
  split <;> rfl

omit hL in
theorem nameTail_bind {α : Type} (f : Bool → Parser α) :
    nameTail >>= f = (do
      let opened ← check (·.isOperator "<")
      let arguments ← ahead (opensArguments false)
      let rest : Parser α := do
        let more ← accept (·.isOperator "::")
        f more
      if opened && arguments then
        skipTemplateArguments
        rest
      else rest) := by
  unfold nameTail
  simp only [bind_assoc]
  congr
  funext opened
  congr
  funext arguments
  split
  · rw [bind_assoc]
  · rfl

variable (hS : L.SpelledAlike)
include hS

/-- Reading what leads to a name, both come to a `~` or neither does. -/
theorem accept_leads {q : Token → Bool}
    (hq : ∀ {t u : Token}, t.Alike u → q t = q u)
    (hlead : ∀ {t : Token}, q t = true → t.leadsName = true)
    {α β : Type} {V : α → β → Prop} {f : Bool → Parser α}
    {g : Bool → Parser β} {P : State → State → Prop}
    (hread : L.InStepIf AtComplement V (f true) (g true))
    (hleft : L.InStepIf P V (f false) (g false)) :
    L.InStepIf P V (do let found ← accept q; f found)
      (do let found ← accept q; g found) :=
  .accept hL hq
    (fun hs _ h => hS.complement hs (hlead h)) hread hleft

theorem accept_leads_inStep {q : Token → Bool}
    (hq : ∀ {t u : Token}, t.Alike u → q t = q u)
    (hlead : ∀ {t : Token}, q t = true → t.leadsName = true)
    {α β : Type} {V : α → β → Prop} {f : Bool → Parser α}
    {g : Bool → Parser β}
    (hread : L.InStepIf AtComplement V (f true) (g true))
    (hleft : L.InStep V (f false) (g false)) :
    L.InStep V (do let found ← accept q; f found)
      (do let found ← accept q; g found) :=
  InStepIf.inStep (P := fun _ _ => True) (fun _ => trivial)
    (accept_leads hL hS hq hlead hread hleft.guarded)

omit hS in
theorem namePart_inStep (complement : Bool) :
    L.InStep Eq (namePart complement) (namePart complement) := by
  unfold namePart
  apply InStep.bind (.peek hL)
  intro t u ht
  have h := hL.alike ht
  refine .ite h.isName (.advance hL) ?_
  refine .ite (h.isKeyword _) (operatorName_inStep hL) ?_
  exact .ite rfl (.andThen (.advance hL) (.expectName hL))
    (.failExpected hL _)

/-- Related values, told the same. -/
def Told {α β : Type} (V : α → β → Prop) (x : α × Bool) (y : β × Bool) :
    Prop :=
  V x.1 y.1 ∧ x.2 = y.2

omit hL hS in
/-- Where both are at a `~` or neither is, both rounds tell the next ones
the same. -/
theorem telling_inStepIf {α β γ δ : Type} {V : α → β → Prop}
    {W : γ → δ → Prop} {a : α} {b : β} (h : V a b) :
    L.InStepIf AtComplement (Rounds (Told V) W)
      (telling complementNext (pure (.again a)))
      (telling complementNext (pure (.again b))) where
  both hs hp := .ok (.again ⟨h, hp⟩) hs (L.since_refl _ _)
  alone {_ _ t} ht :=
    .ok (Rounds.again ⟨h, rfl⟩ : Rounds _ _ (.again (a, complementNext t)) _)
      ht

theorem nameRoundTold_inStep {x y : Unit × Bool} (h : Told Eq x y) :
    L.InStep (Rounds (Told Eq) Eq) (nameRoundTold x) (nameRoundTold y) := by
  unfold nameRoundTold
  rw [h.2]
  have told := telling_inStepIf (L := L) (V := Eq) (W := @Eq Unit)
    (rfl : () = ())
  refine accept_leads_inStep hL hS (fun h => h.isKeyword _)
    (fun h => Token.leadsName_of_isKeyword h (by decide)) told ?_
  rw [if_neg Bool.false_ne_true]
  refine .andThen (namePart_inStep hL _) ?_
  rw [nameTail_bind]
  apply InStep.bindEq (.check hL fun h => h.isOperator _)
  intro opened
  apply InStep.bindEq (.question (hL.arguments false))
  intro arguments
  have rest : L.InStep (Rounds (Told Eq) Eq)
      (do
        if ← accept (·.isOperator "::") then
          telling complementNext (pure (.again ()) :
            Parser (Round Unit Unit))
        else return .done ())
      (do
        if ← accept (·.isOperator "::") then
          telling complementNext (pure (.again ()))
        else return .done ()) :=
    accept_leads_inStep hL hS (fun h => h.isOperator _)
      (fun h => Token.leadsName_of_isOperator h (by decide)) told
      (.pure (.done rfl))
  exact .when rfl (skipTemplateArguments_inStep hL) rest

theorem nameTold_inStep (complement : Bool) :
    L.InStep L.node (nameTold complement) (nameTold complement) := by
  unfold nameTold
  apply InStep.bind (.mark hL)
  intro m n hm
  have named (complement : Bool) : L.InStep L.node
      (do
        loop nameRoundTold ((), complement)
        finish .idExpression m [])
      (do
        loop nameRoundTold ((), complement)
        finish .idExpression n []) :=
    .andThen (V := Eq)
      (.loop hL (fun _ _ => nameRoundTold_inStep hL hS) ⟨rfl, rfl⟩)
      (.finishAll hL _ rfl hm .nil)
  refine accept_leads_inStep hL hS (fun h => h.isOperator _)
    (fun h => Token.leadsName_of_isOperator h (by decide)) ?_
    (named complement)
  refine .ask (V := Eq) (fun _ => rfl) (fun _ h => h) ?_
  rintro complement _ rfl
  exact (named complement).guarded

/-- From where both are at a `~` or neither is, names are in step. -/
theorem idExpression_inStepIf :
    L.InStepIf AtComplement L.node idExpression idExpression := by
  rw [idExpression_told]
  refine .ask (V := Eq) (fun _ => rfl) (fun _ h => h) ?_
  rintro complement _ rfl
  exact (nameTold_inStep hL hS complement).guarded

-- ================================================ readings that spell alike

omit hL hS in
theorem not_shuts_of_leadsName {t : Token} (h : t.leadsName = true) :
    t.shuts = false ∧ t.isEnd = false := by
  unfold Token.leadsName at h
  unfold Token.shuts Token.isPunct Token.isEnd
  cases hkind : t.kind with
  | punctuation =>
    rw [hkind] at h
    rw [beq_iff_eq.1 h]
    decide
  | operator => exact ⟨rfl, rfl⟩
  | keyword => exact ⟨rfl, rfl⟩
  | _ => simp [hkind] at h

omit hS in
/-- A round of the type behind `new`, where both readings know a `&` by its
symbol or neither does. -/
theorem allocatedRound_inStepIf {P : State → State → Prop}
    (hP : ∀ {s t}, L.state s t → P s t →
      s.peek.isSpelled "&" = t.peek.isSpelled "&") :
    L.InStepIf P (Rounds Eq Eq) allocatedRound allocatedRound := by
  unfold allocatedRound
  refine .ask (v := State.peek)
    (V := fun t u => t.Alike u ∧ t.isSpelled "&" = u.isSpelled "&")
    (fun t => ⟨.refl t, rfl⟩)
    (fun hs hp => ⟨hL.alike (hL.peek hs), hP hs hp⟩) fun t u ht =>
    InStep.guarded ?_
  obtain ⟨h, hreference⟩ := ht
  rw [h.isName, h.isKind, h.hasValueIn (by decide),
    h.isSpelled (show Word.isSole "::" = true by decide),
    h.isSpelled (show Word.isSole "*" = true by decide), hreference,
    h.isSpelled (show Word.isSole "<" = true by decide)]
  refine .ite rfl (.andThen (.advance hL) (.pure (.again rfl))) ?_
  refine .ite rfl (.andThen (.advance hL) (.pure (.again rfl))) ?_
  refine .ite rfl ?_ (.pure (.done rfl))
  exact .andThen (skipTemplateArguments_inStep hL) (.pure (.again rfl))

omit hS in
/-- An allocation that is known to end well is in step if the rounds of its
type are. -/
theorem allocated_inStepIf {G : State → Prop}
    (hround : L.InStepIf
      (fun s _ => ∀ c s', allocatedRound s = .ok (.done c) s' → G s')
      (Rounds Eq Eq) allocatedRound allocatedRound) :
    L.InStepIf (InStepIf.EndsIn G allocated) Eq allocated allocated := by
  have type : L.InStepIf
      (InStepIf.EndsIn G (loop (fun _ => allocatedRound) ())) Eq
      (loop (fun _ => allocatedRound) ())
      (loop (fun _ => allocatedRound) ()) :=
    .loop (V := Eq) hL (fun _ _ _ => hround) rfl
  unfold allocated
  refine .bindEnds (V := Eq) (.advance hL) fun _ _ _ => ?_
  refine .bindEnds (V := Eq) (.check hL fun h => h.isPunct _) ?_
  rintro placed _ rfl
  cases placed with
  | true => exact .bindEnds (skipGroup_inStep hL _) fun _ _ _ => type
  | false => exact type

omit hS in
/-- Rules that know an operator by its symbol are served by readings that
see the same symbols. -/
theorem spelledAlike_of_isSpelled (hspelled : ∀ {t u : Token},
    L.token t u → ∀ operator, t.isSpelled operator = u.isSpelled operator) :
    L.SpelledAlike where
  complement {s t} hs hlead := by
    obtain ⟨hshuts, hend⟩ := not_shuts_of_leadsName hlead
    have hend' : t.peek.isEnd = false :=
      (hL.alike (hL.peek hs)).isEnd.symm.trans hend
    unfold AtComplement
    rw [s.advance_peek hend, t.advance_peek hend']
    exact hspelled (hL.next hs hshuts) "~"
  allocated := by
    have hround : L.InStepIf (fun s _ => ∀ c s',
        allocatedRound s = .ok (.done c) s' → True)
        (Rounds Eq Eq) allocatedRound allocatedRound :=
      allocatedRound_inStepIf hL fun hs _ => hspelled (hL.peek hs) "&"
    exact (allocated_inStepIf hL hround).mono fun _ _ _ _ _ => trivial

omit hS in
theorem spelledAlike_of_eq (heq : ∀ {t u : Token}, L.token t u → t = u) :
    L.SpelledAlike :=
  spelledAlike_of_isSpelled hL fun h _ => by rw [heq h]

end FrontEnd.Grammar.Lockstep
