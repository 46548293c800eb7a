/-
Declarations conform to the schema. A walk over a simple declaration takes
up parts that conform, whatever they are; classes, enumerations and
constructor initializers are the parts of which the schema asks more, and
namespaces, linkage blocks and classes are made of sequences.
-/
import FrontEnd.Proofs.Schema.Expression

namespace FrontEnd.Grammar

open Node

variable {g : Inner} (hg : g.Fits)
include hg

-- ============================================================ specifiers

theorem memberInitializer_fits :
    Values (FitsAs .callExpression) (memberInitializer g) := by
  unfold memberInitializer
  refine .bind fun _ => idExpression_fits.seq fun name hname =>
    .bind fun _ => .ite ?_ (.bind fun _ => .ite ?_ .failExpected)
  · exact (arguments_fit hg).seq fun items hitems => .finish
      (List.forall_mem_cons.2 ⟨hname, hitems⟩) (by simp)
      rfl
  · exact (hg _).seq fun list hlist =>
      .finish (by simpa using ⟨hname, hlist⟩) rfl rfl

theorem constructorInitializer_fits :
    Values Node.Fits (constructorInitializer g) := by
  unfold constructorInitializer
  have item : Values (FitsAs .callExpression) (do
      let item ← memberInitializer g
      let _ ← accept (·.isOperator "...")
      return item) :=
    (memberInitializer_fits hg).seq fun _ h => .bind fun _ => .pure h
  refine .bind fun _ => .bind fun _ => (Values.commaSeparated item).seq
    fun items ⟨hsome, hitems⟩ => .node (fun n hn => (hitems n hn).toFits) ?_
      rfl
  have hall : ∀ n ∈ items, n.kind = .callExpression :=
    fun n hn => (hitems n hn).kind_eq
  simpa [hsome] using hall

theorem memberDeclaration_fits :
    Values Node.Fits (memberDeclaration g) := by
  intro s n s' hn
  unfold memberDeclaration at hn
  split at hn
  case h_1 length _ =>
    have label : Values Node.Fits (do
        let m ← mark
        skip length
        finish .accessSpecifier m []) :=
      .bind fun _ => .bind fun _ => .leaf rfl rfl
    exact label s n s' hn
  case h_2 => exact hg .declaration s n s' hn

theorem classBody_fits (m : Mark) : Values Node.Fits (classBody g m) := by
  unfold classBody
  exact .bind fun _ => (sequence_listed (memberDeclaration_fits hg) _).seq
    fun members hmembers => .bind fun _ =>
      (Values.finishSequence hmembers rfl).mono fun _ h => h.toFits

theorem classSpecifier_fits :
    Values (∀ n ∈ ·, n.Fits) (classSpecifier g) := by
  unfold classSpecifier
  have body (m : Mark) : Values (∀ n ∈ ·, n.Fits) (do
      return some (← classBody g m)) :=
    (classBody_fits hg m).seq fun n hn => .pure (by simpa using hn)
  exact .bind fun m => .bind fun _ => .bind fun _ => .bind fun _ =>
    .bind fun _ => .ite (.bind fun _ => body m)
      (.bind fun _ => .ite (body m) (.pure (by simp)))

theorem enumerator_fits : Values (FitsAs .enumerator) (enumerator g) := by
  unfold enumerator
  exact .bind fun _ => .bind fun _ => .bind fun _ => .bind fun _ =>
    .ite ((hg _).seq fun value hvalue =>
        .finish (by simpa using hvalue) rfl rfl)
      (.finish (by simp) rfl rfl)

theorem enumerators_fit :
    Values (∀ n ∈ ·, n.FitsAs .enumerator) (enumerators g) := by
  unfold enumerators
  refine .loop (∀ n ∈ ·, n.FitsAs .enumerator) ?_ (by simp)
  intro done hdone
  refine .bind fun _ => .ite (.pure fun n hn => ?_) ?_
  · exact hdone n (List.mem_reverse.1 hn)
  · refine (enumerator_fits hg).seq fun n hn => ?_
    have hall := List.forall_mem_cons.2 ⟨hn, hdone⟩
    exact .bind fun _ => .ite (.pure hall)
      (.bind fun _ => .ite (.pure hall) .failExpected)

theorem enumSpecifier_fits :
    Values (∀ n ∈ ·, n.Fits) (enumSpecifier g) := by
  unfold enumSpecifier
  refine .bind fun _ => .bind fun _ => .bind fun _ =>
    .ite ((enumerators_fit hg).seq fun names hnames => .bind fun _ => ?_)
      (.pure (by simp))
  have hall : ∀ n ∈ names, n.kind = .enumerator :=
    fun n hn => (hnames n hn).kind_eq
  have hshape :
      NodeKind.shape .enumSpecifier (names.map (·.kind)) = true := by
    simpa using hall
  exact (Values.node (fun n hn => (hnames n hn).toFits) hshape rfl).seq
    fun n hn => .pure (by simpa using hn)

-- ==================================================== simple declarations

section
variable {m : Mark} {w : Walk} (hw : ∀ n ∈ w.parts, n.Fits)
include hw

/-- What a round of a simple declaration comes to: a walk over parts that
conform, or a declaration that does. -/
abbrev RoundFits (r : Round Walk Node) : Prop :=
  r.Sat (fun w => ∀ n ∈ w.parts, n.Fits) Node.Fits

omit hg in
/-- A node over the parts ends the walk. -/
theorem Walk.done_fits {kind : NodeKind}
    (hshape : kind.shape (w.parts.reverse.map (·.kind)) = true)
    (hkind : kind.isPlain = true) :
    Values RoundFits (do
      return .done (← finish kind m w.parts.reverse)) :=
  (Values.node (fun n hn => hw n (List.mem_reverse.1 hn)) hshape hkind).seq
    fun _ h => .pure h

omit hg in
theorem Walk.function_fits : Values RoundFits (w.function m) :=
  Walk.done_fits hw rfl rfl

omit hg hw in
theorem Walk.add_fits {part : Node} (hw : ∀ n ∈ w.parts, n.Fits)
    (hpart : part.Fits) :
    Values RoundFits (pure (w.add part) : Parser _) :=
  .pure (List.forall_mem_cons.2 ⟨hpart, hw⟩)

omit hg in
theorem Walk.addSome_fits {part : Option Node} (hpart : ∀ n ∈ part, n.Fits) :
    Values RoundFits (pure (w.addSome part) : Parser _) := by
  cases part with
  | none => exact .pure hw
  | some n => exact Walk.add_fits hw (hpart n rfl)

theorem punctRound_fits (t : Token) :
    Values RoundFits (punctRound g m w t) := by
  unfold punctRound
  refine .ite (.bind fun _ => Walk.done_fits hw rfl rfl)
    (.ite (.bind fun _ => .pure hw) (.ite (.bind fun _ => .pure hw)
      (.ite (.ite ?body ?list) (.ite (.bind fun _ => .pure hw) .fail))))
  case body =>
    exact (block_fits hg).seq fun body hbody => Walk.function_fits
      (List.forall_mem_cons.2 ⟨hbody.toFits, hw⟩)
  case list =>
    exact (hg _).seq fun list hlist =>
      .bind fun _ => Walk.add_fits hw hlist

theorem operatorRound_fits (t : Token) :
    Values RoundFits (operatorRound g m w t) := by
  unfold operatorRound
  have initialized (isSpecial : Bool) : Values RoundFits (do
      if isSpecial then
        expectPunct ";" "after function declaration"
        w.function m
      else
        let value ← initializer g
        declaratorEnd
        return w.add value) :=
    .ite (.bind fun _ => Walk.function_fits hw)
      ((initializer_fits hg).seq fun value hvalue => .bind fun _ =>
        Walk.add_fits hw hvalue)
  refine .ite (.bind fun _ => ?_) (.ite (.bind fun _ => .pure hw)
    (.ite (.ite ?members ?width) (.ite (.bind fun _ => .pure hw) .fail)))
  case members =>
    exact (constructorInitializer_fits hg).seq fun members hmembers =>
      .bind fun _ => .ite (Walk.add_fits hw hmembers) .failExpected
  case width =>
    exact .bind fun _ => (hg _).seq fun width hwidth => .bind fun _ =>
      Walk.add_fits hw hwidth
  · dsimp only
    exact .ite (.bind fun _ => initialized _) (.bind fun _ => initialized _)

theorem keywordRound_fits (t : Token) :
    Values RoundFits (keywordRound g m w t) := by
  unfold keywordRound
  refine .ite ?classes (.ite ?enumerations (.ite (.bind fun _ => .pure hw)
    (.ite ?body (.ite (.bind fun _ => .pure hw)
      (.ite ?specifier (.ite .fail (.bind fun _ => .pure hw)))))))
  case classes =>
    exact (classSpecifier_fits hg).seq fun _ h => Walk.addSome_fits hw h
  case enumerations =>
    exact (enumSpecifier_fits hg).seq fun _ h => Walk.addSome_fits hw h
  case body =>
    exact (tryBlock_fits hg).seq fun body hbody =>
      Walk.function_fits (List.forall_mem_cons.2 ⟨hbody, hw⟩)
  case specifier =>
    exact .bind fun _ => .bind fun _ =>
      .ite (.bind fun _ => .pure hw) (.pure hw)

theorem simpleRound_fits : Values RoundFits (simpleRound g m w) := by
  unfold simpleRound
  refine .bind fun t => ?_
  cases t.kind with
  | endOfFile => exact .failExpected
  | punctuation => exact punctRound_fits hg hw t
  | operator => exact operatorRound_fits hg hw t
  | keyword => exact keywordRound_fits hg hw t
  | identifier => exact .bind fun _ => .pure hw
  | _ => exact .fail

end

theorem simpleDeclaration_fits :
    Values Node.Fits (simpleDeclaration g) := by
  unfold simpleDeclaration
  exact .bind fun _ => .loop (fun w => ∀ n ∈ w.parts, n.Fits)
    (fun _ hw => simpleRound_fits hg hw) (by simp)

-- ===================================================== other declarations

theorem declarationsInBraces_listed (context : String) :
    Values (∀ n ∈ ·, n.Listed) (declarationsInBraces g context) := by
  unfold declarationsInBraces
  exact (sequence_listed (hg .declaration) _).seq fun _ h =>
    .bind fun _ => .pure h

theorem namespaceDefinition_fits :
    Values Node.Fits (namespaceDefinition g) := by
  unfold namespaceDefinition
  refine .bind fun _ => .bind fun _ => .bind fun _ => .bind fun _ =>
    .bind fun _ => .bind fun _ => .ite (.bind fun _ => .leaf rfl rfl)
      (.bind fun _ => .bind fun _ => ?_)
  exact (declarationsInBraces_listed hg _).seq fun items hitems =>
    (Values.finishSequence hitems rfl).mono fun _ h => h.toFits

omit hg in
theorem usingDeclaration_fits : Values Node.Fits usingDeclaration := by
  unfold usingDeclaration
  exact .bind fun _ => .bind fun _ => .bind fun _ => .bind fun _ =>
    .ite (.bind fun _ => .leaf rfl rfl) (.bind fun _ =>
      .ite (.bind fun _ => .bind fun _ => .bind fun _ => .bind fun _ =>
          .ite .failExpected (.bind fun _ => .leaf rfl rfl))
        (.bind fun _ => .leaf rfl rfl))

theorem templateDeclaration_fits :
    Values Node.Fits (templateDeclaration g) := by
  unfold templateDeclaration
  have declared (m : Mark) : Values Node.Fits (do
      let declaration ← g.parse .declaration
      finish .templateDeclaration m [declaration]) :=
    operand_fits hg _ (fun _ => rfl) rfl
  have constrained (m : Mark) : Values Node.Fits (do
      if ← check (·.isKeyword "requires") then requiresClause
      let declaration ← g.parse .declaration
      finish .templateDeclaration m [declaration]) :=
    .bind fun _ => .ite (.bind fun _ => declared m) (declared m)
  exact .bind fun m => .bind fun _ => .bind fun _ =>
    .ite (.bind fun _ => constrained m) (constrained m)

theorem linkageSpecification_fits :
    Values Node.Fits (linkageSpecification g) := by
  unfold linkageSpecification
  refine .bind fun _ => .bind fun _ => .bind fun _ => .bind fun _ => .ite ?_
    (operand_fits hg _ (fun _ => rfl) rfl)
  exact (declarationsInBraces_listed hg _).seq fun items hitems =>
    (Values.finishSequence hitems rfl).mono fun _ h => h.toFits

theorem staticAssertion_fits : Values Node.Fits (staticAssertion g) := by
  unfold staticAssertion
  have closed (m : Mark) {children : List Node}
      (h : ∀ n ∈ children, n.Fits) : Values Node.Fits (do
        expectPunct ")" "after static assertion"
        expectPunct ";" "after static assertion"
        finish .staticAssertDeclaration m children) :=
    .bind fun _ => .bind fun _ => .node h rfl rfl
  refine .bind fun m => .bind fun _ => .bind fun _ =>
    (hg _).seq fun condition hcondition => .bind fun _ => .ite ?_ ?_
  · exact (hg _).seq fun text htext =>
      closed m (by simpa using ⟨hcondition, htext⟩)
  · exact closed m (by simpa using hcondition)

omit hg in
theorem asmDeclaration_fits : Values Node.Fits asmDeclaration := by
  unfold asmDeclaration
  exact .bind fun _ => .bind fun _ => .bind fun _ => .bind fun _ =>
    .ite (.bind fun _ => .bind fun _ => .leaf rfl rfl) .failExpected

theorem declaration_fits : Values Node.Fits (declaration g) := by
  unfold declaration
  exact .bind fun _ => .bind fun _ =>
    .ite (.bind fun _ => .bind fun _ => .leaf rfl rfl)
      (.ite (namespaceDefinition_fits hg) (.ite usingDeclaration_fits
        (.ite (templateDeclaration_fits hg)
          (.ite (.bind fun _ => templateDeclaration_fits hg)
            (.ite (linkageSpecification_fits hg)
              (.ite (staticAssertion_fits hg) (.ite asmDeclaration_fits
                (simpleDeclaration_fits hg))))))))

end FrontEnd.Grammar
