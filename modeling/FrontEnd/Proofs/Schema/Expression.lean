/-
Blocks and expressions conform to the schema. The proofs go along the text
of the rules. Where the schema counts children, the count is an invariant of
the loop that reads them: the operands of a level are at least two if there
is an operator, and an operator that waits for its last operand has as many
as its node will be short of (`Waiting.Fits`).
-/
import FrontEnd.Proofs.Schema.Basic

namespace FrontEnd.Grammar

open Node

variable {g : Inner}

/-- The constructs of the level below conform. -/
def Inner.Fits (g : Inner) : Prop :=
  ∀ goal, Values Node.Fits (g.parse goal)

-- ================================================================= names

theorem idExpression_fits : Values Node.Fits idExpression := by
  unfold idExpression
  exact .bind fun _ => .bind fun _ => .bind fun _ => .leaf rfl rfl

variable (hg : g.Fits)
include hg

-- ================================================================ blocks

theorem block_fits : Values (FitsAs .compoundStatement) (block g) := by
  unfold block
  exact .bind fun _ => .bind fun _ =>
    (sequence_listed (hg .statement) _).seq fun _ hitems =>
      .bind fun _ => .finishSequence hitems rfl

theorem handlers_fit :
    Values (∀ n ∈ ·, n.FitsAs .handler) (handlers g) := by
  unfold handlers
  refine .loop (∀ n ∈ ·, n.FitsAs .handler) ?_ (by simp)
  intro done hdone
  refine .bind fun _ => .ite (.bind fun _ => .bind fun _ => .bind fun _ =>
    .ite (.bind fun _ => (block_fits hg).seq fun body hbody => ?_)
      .failExpected) (.pure hdone)
  have hshape : NodeKind.shape .handler ([body].map (·.kind)) = true := by
    rw [List.map_singleton, hbody.kind_eq]
    rfl
  exact (Values.finish (by simpa using hbody.toFits) hshape
    rfl).seq fun _ hhandler =>
      .pure (List.forall_mem_cons.2 ⟨hhandler, hdone⟩)

theorem tryBlock_fits : Values Node.Fits (tryBlock g) := by
  unfold tryBlock
  refine .bind fun _ => .bind fun _ => (block_fits hg).seq fun body hbody =>
    (handlers_fit hg).seq fun handlers hhandlers => ?_
  split
  case isTrue => exact .failExpected
  case isFalse hsome =>
    refine .node (List.forall_mem_cons.2 ⟨hbody.toFits, fun n hn => ?_⟩) ?_
      rfl
    · exact (hhandlers n (List.mem_reverse.1 hn)).toFits
    · have hall : ∀ n ∈ handlers, n.kind = .handler :=
        fun n hn => (hhandlers n hn).kind_eq
      simpa [hbody.kind_eq, ← List.isEmpty_iff, hsome]
        using hall

-- ===================================================== whole expressions

theorem expression_fits : Values Node.Fits (expression g) := by
  unfold expression
  refine .bind fun _ => (Values.commaSeparated (hg .assignment)).seq
    fun operands ⟨hsome, hfits⟩ => ?_
  match operands with
  | [] => exact absurd rfl hsome
  | [single] => exact .pure (hfits single List.mem_cons_self)
  | _ :: _ :: _ => exact .node hfits (by simp) rfl

theorem initializer_fits : Values Node.Fits (initializer g) := by
  unfold initializer
  exact .bind fun _ => .ite (hg _) (hg _)

theorem initializerOrExpression_fits :
    Values Node.Fits (initializerOrExpression g) := by
  unfold initializerOrExpression
  exact .bind fun _ => .ite (hg _) (expression_fits hg)

theorem listedInitializer_fits :
    Values Node.Fits (listedInitializer g) := by
  unfold listedInitializer
  exact .bind fun _ => (initializer_fits hg).seq fun item hitem =>
    .bind fun _ => .ite (.node (by simpa using hitem) rfl rfl) (.pure hitem)

theorem arguments_fit : Values (∀ n ∈ ·, n.Fits) (arguments g) := by
  unfold arguments
  have closed {items : List Node} (h : ∀ n ∈ items, n.Fits) :
      Values (∀ n ∈ ·, n.Fits) (do
        expectPunct ")" "after arguments"
        return items) :=
    .bind fun _ => .pure h
  refine .bind fun _ => .bind fun _ => .ite (closed (by simp)) ?_
  exact (Values.commaSeparated (listedInitializer_fits hg)).seq
    fun _ hitems => closed hitems.2

theorem initializerList_fits : Values Node.Fits (initializerList g) := by
  unfold initializerList
  refine .bind fun _ => .bind fun _ =>
    Values.seq (P := (∀ n ∈ ·, n.Fits)) ?_ fun items hitems =>
      .bind fun _ =>
        .node (fun n hn => hitems n (List.mem_reverse.1 hn)) rfl rfl
  refine .loop (∀ n ∈ ·, n.Fits) ?_ (by simp)
  intro items hitems
  refine .bind fun _ => .ite (.pure hitems) (.bind fun _ => ?_)
  refine (listedInitializer_fits hg).seq fun item hitem => ?_
  have hall := List.forall_mem_cons.2 ⟨hitem, hitems⟩
  exact .bind fun _ => .ite (.pure hall) (.pure hall)

theorem lambda_fits : Values Node.Fits (lambda g) := by
  unfold lambda
  have body (m : Mark) : Values Node.Fits (do
      lambdaDeclarator
      let body ← block g
      finish .lambdaExpression m [body]) := by
    refine .bind fun _ => (block_fits hg).seq fun body hbody =>
      .node (by simpa using hbody.toFits) ?_ rfl
    rw [List.map_singleton, hbody.kind_eq]
    rfl
  have parameters (m : Mark) : Values Node.Fits (do
      if ← check (·.isPunct "(") then skipGroup "after lambda parameters"
      lambdaDeclarator
      let body ← block g
      finish .lambdaExpression m [body]) :=
    .bind fun _ => .ite (.bind fun _ => body m) (body m)
  exact .bind fun m => .bind fun _ => .bind fun _ =>
    .ite (.bind fun _ => parameters m) (parameters m)

-- =================================================== primary expressions

theorem namedCast_fits : Values Node.Fits (namedCast g) := by
  unfold namedCast
  exact .bind fun _ => .bind fun _ => .bind fun _ => .bind fun _ =>
    .ite (.bind fun _ => .bind fun _ => (expression_fits hg).seq
      fun operand hoperand => .bind fun _ =>
        .node (by simpa using hoperand) rfl rfl)
      .failExpected

omit hg in
theorem decltypeName_fits : Values Node.Fits decltypeName := by
  unfold decltypeName
  exact .bind fun _ => .bind fun _ => .bind fun _ =>
    .ite (.bind fun _ => .bind fun _ => .ite idExpression_fits
      (.leaf rfl rfl)) .failExpected

omit hg in
theorem requiresExpression_fits : Values Node.Fits requiresExpression := by
  unfold requiresExpression
  have body (m : Mark) : Values Node.Fits (do
      if ← check (·.isPunct "\x7b") then
        skipGroup "after requirements"
        finish .builtinExpression m []
      else failExpected "'\x7b' after 'requires'") :=
    .bind fun _ => .ite (.bind fun _ => .leaf rfl rfl) .failExpected
  exact .bind fun m => .bind fun _ => .bind fun _ =>
    .ite (.bind fun _ => body m) (body m)

omit hg in
theorem typeKeywords_fits : Values Node.Fits typeKeywords := by
  unfold typeKeywords
  refine .bind fun _ => .loop (fun _ => True) (fun _ _ => ?_) trivial
  refine .bind fun _ => .ite (.bind fun _ => .ite ?_ (.pure trivial)) ?_
  · exact idExpression_fits.seq fun name hname =>
      (Values.node (by simpa using hname) rfl rfl).seq fun _ h => .pure h
  · exact Values.seq (.leaf rfl rfl) fun _ h => .pure h

theorem keywordPrimary_fits : Values Node.Fits (keywordPrimary g) := by
  unfold keywordPrimary
  exact .bind fun _ => .bind fun _ => .ite (.bind fun _ => .leaf rfl rfl)
    (.ite (.bind fun _ => .leaf rfl rfl) (.ite idExpression_fits
      (.ite (namedCast_fits hg) (.ite decltypeName_fits
        (.ite requiresExpression_fits
          (.ite typeKeywords_fits .failExpected))))))

theorem primary_fits : Values Node.Fits (primary g) := by
  unfold primary
  refine .bind fun _ => .bind fun t => ?_
  cases t.kind with
  | number => exact .bind fun _ => .leaf rfl rfl
  | character => exact .bind fun _ => .leaf rfl rfl
  | string => exact .bind fun _ => .leaf rfl rfl
  | identifier => exact idExpression_fits
  | operator =>
    exact .ite idExpression_fits
      (.ite (.bind fun _ => .leaf rfl rfl) .failExpected)
  | keyword => exact keywordPrimary_fits hg
  | punctuation =>
    exact .ite (.bind fun _ => (expression_fits hg).seq fun inner hinner =>
        .bind fun _ => .node (by simpa using hinner) rfl rfl)
      (.ite (lambda_fits hg) (.ite (hg _) .failExpected))
  | directive => exact .failExpected
  | endOfFile => exact .failExpected

-- ===================================================== postfix operators

section
variable {m : Mark} {object : Node} (hobject : object.Fits)
include hobject

omit hg in
theorem member_fits : Values Node.Fits (member m object) := by
  unfold member
  refine .bind fun _ => .bind fun _ => .bind fun _ => .bind fun _ => .ite
    (idExpression_fits.seq fun name hname => .node ?_ rfl rfl) .failExpected
  simpa using ⟨hobject, hname⟩

theorem postfixRound_fits :
    Values (·.Sat Node.Fits Node.Fits) (postfixRound g m object) := by
  unfold postfixRound
  have again {kind : NodeKind} {ns : List Node} (h : ∀ n ∈ ns, n.Fits)
      (hshape : kind.shape (ns.map (·.kind)) = true)
      (hkind : kind.isPlain = true) :
      Values (·.Sat Node.Fits Node.Fits) (do
        return Round.again (β := Node) (← finish kind m ns)) :=
    (Values.node h hshape hkind).seq fun _ h => .pure h
  refine .bind fun _ => .ite ?call (.ite ?subscript (.ite ?list
    (.ite ?member (.ite ?operator (.pure hobject)))))
  case call =>
    refine (arguments_fit hg).seq fun items hitems => again
      (List.forall_mem_cons.2 ⟨hobject, hitems⟩) ?_ rfl
    simp
  case subscript =>
    exact .bind fun _ => (initializerOrExpression_fits hg).seq
      fun index hindex => .bind fun _ =>
        again (by simpa using ⟨hobject, hindex⟩) rfl rfl
  case list =>
    exact (hg _).seq fun list hlist =>
      again (by simpa using ⟨hobject, hlist⟩) rfl rfl
  case member => exact (member_fits hobject).seq fun _ h => .pure h
  case operator =>
    exact .bind fun _ => again (by simpa using hobject) rfl rfl

theorem postfixOperators_fits :
    Values Node.Fits (postfixOperators g m object) :=
  .loop Node.Fits (fun _ h => postfixRound_fits hg h) hobject

end

theorem postfixExpression_fits :
    Values Node.Fits (postfixExpression g) := by
  unfold postfixExpression
  exact .bind fun _ => (primary_fits hg).seq
    fun _ hobject => postfixOperators_fits hg hobject

-- ======================================================= unary operators

/-- A node over an operand, which is a construct of the level below. -/
theorem operand_fits (goal : Goal) {kind : NodeKind} {m : Mark}
    (hshape : ∀ n : Node, kind.shape ([n].map (·.kind)) = true)
    (hkind : kind.isPlain = true) :
    Values Node.Fits (do
      let operand ← g.parse goal
      finish kind m [operand]) :=
  (hg goal).seq fun operand h =>
    .node (by simpa using h) (hshape operand) hkind

theorem newExpression_fits : Values Node.Fits (newExpression g) := by
  unfold newExpression
  have type (m : Mark) : Values Node.Fits (do
      newType
      let children ←
        if ← check (·.isPunct "(") then arguments g
        else if ← check (·.isPunct "\x7b") then
          pure [← g.parse .initializerList]
        else pure []
      finish .newExpression m children) :=
    .bind fun _ => .bind fun _ => .bind fun _ => .ite
      ((arguments_fit hg).seq fun _ h => .node h rfl rfl)
      (.ite (operand_fits hg _ (fun _ => rfl) rfl) (.leaf rfl rfl))
  exact .bind fun m => .bind fun _ => .bind fun _ =>
    .ite (.bind fun _ => type m) (type m)

theorem deleteExpression_fits : Values Node.Fits (deleteExpression g) := by
  unfold deleteExpression
  have operand (m : Mark) : Values Node.Fits (do
      let operand ← g.parse .operand
      finish .deleteExpression m [operand]) :=
    operand_fits hg _ (fun _ => rfl) rfl
  exact .bind fun m => .bind fun _ => .bind fun _ => .bind fun _ =>
    .ite (.bind fun _ => .bind fun _ => operand m) (operand m)

theorem unary_fits : Values Node.Fits (unary g) := by
  unfold unary
  exact .bind fun _ => .bind fun _ =>
    operand_fits hg _ (fun _ => rfl) rfl

theorem parenthesizedCast_fits :
    Values Node.Fits (parenthesizedCast g) := by
  unfold parenthesizedCast
  exact .bind fun _ => .bind fun _ => .bind fun _ =>
    .ite (operand_fits hg _ (fun _ => rfl) rfl)
      (operand_fits hg _ (fun _ => rfl) rfl)

theorem sizeofExpression_fits : Values Node.Fits (sizeofExpression g) := by
  unfold sizeofExpression
  refine .bind fun _ => .bind fun _ => .bind fun _ => .bind fun _ =>
    .ite (.bind fun _ => .leaf rfl rfl) ?_
  exact operand_fits hg _ (fun _ => rfl) rfl

theorem keywordCall_fits : Values Node.Fits (keywordCall g) := by
  unfold keywordCall
  exact .bind fun _ => .bind fun _ => .bind fun _ => .bind fun _ =>
    .ite (.bind fun _ => Values.seq (.leaf rfl rfl) fun _ h =>
      postfixOperators_fits hg h) .failExpected

theorem castExpression_fits : Values Node.Fits (castExpression g) := by
  unfold castExpression
  have postfix' := postfixExpression_fits hg
  refine .bind fun t => ?_
  cases t.kind with
  | punctuation =>
    exact .bind fun _ => .ite (parenthesizedCast_fits hg) postfix'
  | operator =>
    exact .ite (unary_fits hg) (.ite (.bind fun _ =>
      .ite (.bind fun _ => newExpression_fits hg)
        (.ite (.bind fun _ => deleteExpression_fits hg) postfix')) postfix')
  | keyword =>
    exact .ite (sizeofExpression_fits hg) (.ite (keywordCall_fits hg)
      (.ite (newExpression_fits hg) (.ite (deleteExpression_fits hg)
        (.ite (unary_fits hg) postfix'))))
  | _ => exact postfix'

-- ====================================================== binary operators

theorem binary_fits (levels : List (List String)) :
    Values Node.Fits (binary g levels) := by
  induction levels with
  | nil =>
    unfold binary
    exact castExpression_fits hg
  | cons level tighter ih =>
    unfold binary
    refine .bind fun _ => ih.seq fun first hfirst =>
      Values.seq (P := (∀ n ∈ ·, n.Fits)) ?_ fun others hothers => ?_
    · refine .loop (∀ n ∈ ·, n.Fits) ?_ (by simp)
      intro others hothers
      exact .bind fun _ => .ite (ih.seq fun n hn =>
        .pure (List.forall_mem_cons.2 ⟨hn, hothers⟩)) (.pure hothers)
    · split
      case isTrue => exact .pure hfirst
      case isFalse hsome =>
        refine .node (List.forall_mem_cons.2 ⟨hfirst, fun n hn => ?_⟩) ?_
          rfl
        · exact hothers n (List.mem_reverse.1 hn)
        · have hlength := List.length_pos_iff.2
            (mt List.isEmpty_iff.2 hsome)
          simpa using Nat.succ_le_of_lt hlength

-- ======================================= operators that group to the right

/-- The operands that an operator waits with conform, and one more makes
them as many as its node must have. -/
def Waiting.Fits : Waiting → Prop
  | .throws _ | .yields _ => True
  | .assigns _ targets => targets ≠ [] ∧ ∀ n ∈ targets, n.Fits
  | .chooses _ branches =>
    branches ≠ [] ∧ branches.length % 2 = 0 ∧ ∀ n ∈ branches, n.Fits

section
variable {operand target condition value : Node} {m : Mark} {w : Waiting}
  {ws : List Waiting}

omit hg in
theorem Waiting.close_fits (hoperand : operand.Fits) (hw : w.Fits) :
    Values Node.Fits (w.close operand) := by
  have all {ns : List Node} (h : ∀ n ∈ ns, n.Fits) :
      ∀ n ∈ (operand :: ns).reverse, n.Fits :=
    fun n hn => List.forall_mem_cons.2 ⟨hoperand, h⟩ n (List.mem_reverse.1 hn)
  cases w with
  | throws m => exact .node (by simpa using hoperand) rfl rfl
  | yields m => exact .node (by simpa using hoperand) rfl rfl
  | assigns m targets =>
    refine .node (all hw.2) ?_ rfl
    have hlength := List.length_pos_iff.2 hw.1
    simpa using Nat.succ_le_of_lt hlength
  | chooses m branches =>
    refine .node (all hw.2.2) ?_ rfl
    have hlength := List.length_pos_iff.2 hw.1
    have heven := hw.2.1
    simp only [NodeKind.shape_conditionalExpression, List.length_map,
      List.length_reverse, List.length_cons, Bool.and_eq_true,
      decide_eq_true_eq, beq_iff_eq]
    omega

omit hg in
theorem closeAll_fits (hoperand : operand.Fits) (hws : ∀ w ∈ ws, w.Fits) :
    Values Node.Fits (closeAll operand ws) := by
  induction ws generalizing operand with
  | nil => exact .pure hoperand
  | cons w ws ih =>
    obtain ⟨hw, hws⟩ := List.forall_mem_cons.1 hws
    exact (w.close_fits hoperand hw).seq fun _ h => ih h hws

omit hg in
theorem addTarget_fits (htarget : target.Fits) (hws : ∀ w ∈ ws, w.Fits) :
    ∀ w ∈ addTarget m target ws, w.Fits := by
  have fresh : ∀ w ∈ Waiting.assigns m [target] :: ws, w.Fits :=
    List.forall_mem_cons.2 ⟨⟨by simp, by simpa using htarget⟩, hws⟩
  unfold addTarget
  split
  case h_1 m targets ws =>
    obtain ⟨hw, hws⟩ := List.forall_mem_cons.1 hws
    exact List.forall_mem_cons.2
      ⟨⟨by simp, List.forall_mem_cons.2 ⟨htarget, hw.2⟩⟩, hws⟩
  case h_2 => exact fresh

omit hg in
theorem addChoice_fits (hcondition : condition.Fits) (hvalue : value.Fits)
    (hws : ∀ w ∈ ws, w.Fits) :
    ∀ w ∈ addChoice m condition value ws, w.Fits := by
  have fresh : ∀ w ∈ Waiting.chooses m [value, condition] :: ws, w.Fits :=
    List.forall_mem_cons.2
      ⟨⟨by simp, by simp, by simpa using ⟨hvalue, hcondition⟩⟩, hws⟩
  unfold addChoice
  split
  case h_1 m branches ws =>
    obtain ⟨hw, hws⟩ := List.forall_mem_cons.1 hws
    refine List.forall_mem_cons.2 ⟨⟨by simp, ?_, ?_⟩, hws⟩
    · have heven := hw.2.1
      simp only [List.length_cons]
      omega
    · exact List.forall_mem_cons.2
        ⟨hvalue, List.forall_mem_cons.2 ⟨hcondition, hw.2.2⟩⟩
  case h_2 => exact fresh

end

theorem rightRound_fits (assignment : Bool) {ws : List Waiting}
    (hws : ∀ w ∈ ws, w.Fits) :
    Values (·.Sat (∀ w ∈ ·, w.Fits) Node.Fits)
      (rightRound g assignment ws) := by
  unfold rightRound
  have done {operand : Node} {ws : List Waiting} (hoperand : operand.Fits)
      (hws : ∀ w ∈ ws, w.Fits) :
      Values (·.Sat (∀ w ∈ ·, w.Fits) Node.Fits) (do
        return Round.done (α := List Waiting) (← closeAll operand ws)) :=
    (closeAll_fits hoperand hws).seq fun _ h => .pure h
  have more (w : Waiting) (hw : w.Fits) : ∀ v ∈ w :: ws, v.Fits :=
    List.forall_mem_cons.2 ⟨hw, hws⟩
  refine .ite .fail (.bind fun m => .bind fun t => ?_)
  refine .ite ?throws (.ite ?yields ?operand)
  case throws =>
    exact .bind fun _ => .bind fun _ =>
      .ite (Values.seq (.leaf rfl rfl) fun _ h => done h hws)
        (.pure (more _ trivial))
  case yields =>
    exact .bind fun _ => .bind fun _ => .ite
      ((hg _).seq fun list hlist =>
        (Values.node (by simpa using hlist) rfl rfl).seq
        fun _ h => done h hws) (.pure (more _ trivial))
  case operand =>
    refine (binary_fits hg _).seq fun operand hoperand => .bind fun _ =>
      .ite ?_ (.bind fun _ => .ite ?_ (done hoperand hws))
    · exact (expression_fits hg).seq fun value hvalue => .bind fun _ =>
        .pure (addChoice_fits hoperand hvalue hws)
    · have hadded := addTarget_fits (m := m) hoperand hws
      exact .bind fun _ => .bind fun _ => .ite
        ((hg _).seq fun list hlist => done hlist hadded) (.pure hadded)

theorem rightGrouped_fits (assignment : Bool) :
    Values Node.Fits (rightGrouped g assignment) :=
  .loop (∀ w ∈ ·, w.Fits) (fun _ h => rightRound_fits hg assignment h)
    (by simp)

end FrontEnd.Grammar
