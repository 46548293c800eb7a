/-
Declarations are read as they are written: a lemma for each constructor,
and the induction over the tree (`Declaration.reads`).

What a rule does with the head of a declaration is an equation of its own
(`declaration_int`, `enumSpecifier_head`, `templateDeclaration_head`): it
holds whatever the body comes to.
-/
import FrontEnd.Proofs.Written.BodyReading

namespace FrontEnd.Written

open Grammar

variable {page : Page} {policy : Policy} {g : Inner}
variable {room i j d : Nat} {l : Lexeme} {ls ls' : List Lexeme}

-- ================================================= simple declarations

/-- A declaration of an `int` goes on behind its name. -/
theorem declaration_int (name : String) :
    declaration g
        (page.state i d (.keyword "int" :: .name name :: l :: ls))
      = loop (simpleRound g ⟨i, page.locate i⟩) ⟨[], false⟩
        (page.state (i + 2) d (l :: ls)) := by
  rw [← head_again _ _ (.inr rfl) name]
  unfold declaration simpleDeclaration
  simp

/-- A declaration ends with its semicolon. -/
theorem semicolon_done (w : Walk) {n : Nat} (hstop : j + 1 = i + n) :
    loop (simpleRound g ⟨i, page.locate i⟩) w
        (page.state j d (.punct ";" :: ls))
      = .ok (nodeOf page.locate .simpleDeclaration i n w.parts.reverse)
        (page.state (i + n) d ls) := by
  refine loop_done ?_
  rw [simpleRound_punct]
  unfold punctRound
  simp [hstop, node_state rfl]

/-- A declaration with an initializer goes on with what reads that. -/
theorem simpleRound_value (m : Mark) :
    simpleRound g m ⟨[], false⟩ (page.state i d (.operator "=" :: ls))
      = (do
        let value ← initializer g
        declaratorEnd
        return (Walk.add ⟨[], false⟩ value)) (page.state (i + 1) d ls) := by
  have hassign : Word.canonical "=" = "=" := by decide
  unfold simpleRound operatorRound
  simp [hassign, Walk.add]

/-- Behind an initializer a semicolon ends the declarator. -/
theorem declaratorEnd_done :
    declaratorEnd (page.state i d (.punct ";" :: ls))
      = .ok () (page.state i d (.punct ";" :: ls)) := by
  unfold declaratorEnd
  simp

theorem empty_declaration_reads : Declaration.empty.Reads page policy := by
  intro room i d ls _
  unfold declaration
  simp [Declaration.write]
  exact ⟨rfl, rfl⟩

theorem variable_reads (name : String) :
    (Declaration.variable name).Reads page policy := by
  intro room i d ls _
  rw [Declaration.write]
  simp only [List.cons_append, List.nil_append]
  rw [declaration_int]
  exact semicolon_done _ rfl

theorem initialized_reads (name : String)
    (value : Expression (.right true true)) :
    (Declaration.initialized name value).Reads page policy := by
  intro room i d ls hroom
  have hvalue := initializer_read page policy (i + 3) d (.punct ";") ls
    hroom (by decide)
  have hagain : loop (simpleRound (nested policy room) ⟨i, page.locate i⟩)
      ⟨[], false⟩ (page.state (i + 2) d
        (.operator "=" :: (value.write ++ .punct ";" :: ls)))
      = loop (simpleRound (nested policy room) ⟨i, page.locate i⟩)
        ⟨[value.node page.locate (i + 3)], false⟩
        (page.state (i + 3 + value.length) d (.punct ";" :: ls)) := by
    refine loop_again ?_ (by omega) (by simp [Expression.length]; omega)
    rw [simpleRound_value, run_bind hvalue, run_bind declaratorEnd_done]
    rfl
  have hstop : i + 3 + value.length + 1
      = i + (Declaration.initialized name value).length := by
    simp [Expression.length, Declaration.length, Declaration.write]
    omega
  rw [Declaration.write]
  simp only [List.cons_append, List.append_assoc, List.nil_append]
  rw [declaration_int, hagain]
  exact semicolon_done _ hstop

/-- A function is read by what reads its body. -/
theorem declaration_body (name : String) (body : List Lexeme) :
    declaration g (page.state i d (.keyword "int" :: .name name
        :: .punct "(" :: .punct ")" :: (inBraces body ++ ls)))
      = loop (simpleRound g ⟨i, page.locate i⟩) ⟨[], true⟩
        (page.state (i + 4) d (inBraces body ++ ls)) := by
  rw [declaration_int, parameters_again]

theorem function_reads (name : String) (body : Items) :
    (Declaration.function name body).Reads page policy := by
  intro room i d ls hroom
  have hblock := block_read (i + 4) d ls (body.reads page policy) hroom
  have hstop : i + 4 + (body.length + 2)
      = i + (Declaration.function name body).length := by
    simp [Items.length, Declaration.length, Declaration.write, inBraces]
    omega
  rw [Declaration.write]
  simp only [List.cons_append]
  rw [declaration_body]
  refine loop_done ?_
  rw [simpleRound_body, run_bind hblock, hstop]
  unfold Walk.function
  simp
  rfl

-- ==================================================== classes and names

/-- An enumeration is read by what reads its names. -/
theorem enumSpecifier_head (name : String) (body : List Lexeme) :
    enumSpecifier g (page.state i d
        (.keyword "enum" :: .name name :: (inBraces body ++ ls)))
      = (do
        let names ← loop (enumeratorRound g) []
        expectPunct "\x7d" "after enumerator list"
        return some (← finish .enumSpecifier ⟨i, page.locate i⟩ names))
        (page.state (i + 3) (d + 1)
          (body ++ Lexeme.punct "\x7d" :: ls)) := by
  have hname : skipAttributes (page.state (i + 1) d
      (.name name :: (inBraces body ++ ls))) = _ := skipAttributes_done rfl
  have hskip : skipWhile (fun t => t.isName || t.isOperator "::")
      (page.state (i + 1) d (.name name :: (inBraces body ++ ls)))
      = .ok () (page.state (i + 2) d (inBraces body ++ ls)) :=
    skipWhile_one (by simp) rfl (by simp [inBraces])
  have hhead : enumHead (page.state i d
      (.keyword "enum" :: .name name :: (inBraces body ++ ls)))
      = .ok () (page.state (i + 2) d (inBraces body ++ ls)) := by
    unfold enumHead
    simp [run_bind hname, run_bind hskip]
    simp [inBraces]
  unfold enumSpecifier
  rw [run_mark, Page.mark_state, run_bind hhead, ← enumerators_eq]
  simp [inBraces]

/-- A class is read by what reads its body. -/
theorem classSpecifier_head (name : String) (body : List Lexeme) :
    classSpecifier g (page.state i d
        (.keyword "struct" :: .name name :: (inBraces body ++ ls)))
      = (some <$> classBody g ⟨i, page.locate i⟩)
        (page.state (i + 2) d (inBraces body ++ ls)) := by
  have hname : skipAttributes (page.state (i + 1) d
      (.name name :: (inBraces body ++ ls))) = _ := skipAttributes_done rfl
  have hclass : className
      (page.state (i + 1) d (.name name :: (inBraces body ++ ls)))
      = .ok () (page.state (i + 2) d (inBraces body ++ ls)) := by
    have hskip : skipWhile Token.isName
        (page.state (i + 2) d (inBraces body ++ ls)) = _ :=
      skipWhile_done (by simp [inBraces])
    unfold className
    refine (run_bind (a := ()) ?_).trans hskip
    refine Eq.trans
      (b := loop _ () (page.state (i + 2) d (inBraces body ++ ls)))
      (loop_again ?_ (Nat.lt_succ_self _) (by simp; omega)) (loop_done ?_)
    · simp
    · simp [inBraces]
  unfold classSpecifier
  simp [run_bind hname, run_bind hclass]
  simp [inBraces]

/-- A declaration with the keyword of an enumeration or a class. -/
theorem declaration_specified {word : String}
    (hword : word = "enum" ∨ word = "struct") :
    declaration g (page.state i d (.keyword word :: l :: ls))
      = loop (simpleRound g ⟨i, page.locate i⟩) ⟨[], false⟩
        (page.state i d (.keyword word :: l :: ls)) := by
  unfold declaration simpleDeclaration
  rcases hword with rfl | rfl <;> simp

theorem simpleRound_enum (m : Mark) (w : Walk) :
    simpleRound g m w (page.state i d (.keyword "enum" :: ls))
      = (w.addSome <$> enumSpecifier g)
        (page.state i d (.keyword "enum" :: ls)) := by
  unfold simpleRound keywordRound
  simp

theorem simpleRound_struct (m : Mark) (w : Walk) :
    simpleRound g m w (page.state i d (.keyword "struct" :: ls))
      = (w.addSome <$> classSpecifier g)
        (page.state i d (.keyword "struct" :: ls)) := by
  unfold simpleRound keywordRound
  simp

/-- A declaration of nothing but an enumeration or a class. -/
theorem specified_read {word : String} {part : Node} {n : Nat}
    (hword : word = "enum" ∨ word = "struct")
    (h : simpleRound g ⟨i, page.locate i⟩ ⟨[], false⟩
        (page.state i d (.keyword word :: l :: ls))
      = .ok (.again ⟨[part], false⟩)
        (page.state (i + n) d (.punct ";" :: ls')))
    (hlength : i + n + (ls'.length + 1) = i + (ls.length + 2))
    (hpositive : 0 < n) :
    declaration g (page.state i d (.keyword word :: l :: ls))
      = .ok (nodeOf page.locate .simpleDeclaration i (n + 1) [part])
        (page.state (i + (n + 1)) d ls') := by
  rw [declaration_specified hword]
  refine (loop_again h (by omega) ?_).trans (semicolon_done _ rfl)
  simpa using hlength

theorem enumeration_reads (name : String) (names : Enumerators) :
    (Declaration.enumeration name names).Reads page policy := by
  intro room i d ls hroom
  have hnames := names.reads page policy hroom []
    (i + 3) (d + 1) (.punct ";" :: ls)
  have hend : i + 3 + names.length + 1 = i + (names.length + 4) := by omega
  have hlength : names.length + 4 + 1
      = (Declaration.enumeration name names).length := by
    simp [Enumerators.length, Declaration.length, Declaration.write,
      inBraces]
  rw [Declaration.node, ← hlength, Declaration.write]
  simp only [List.cons_append, List.append_assoc, List.nil_append]
  refine specified_read (.inl rfl) ?_ ?_ (Nat.succ_pos _)
  rotate_left
  · simp [Enumerators.length, inBraces]
    omega
  rw [simpleRound_enum]
  refine run_map (a := some (specifierNode page.locate .enumSpecifier i
    names.length (names.nodes page.locate (i + 3)))) ?_
  rw [enumSpecifier_head, run_bind hnames]
  simp [expectPunct, hend, node_state rfl]
  rfl

theorem structure_reads (name : String) {members : Members}
    (h : members.Reads page policy) :
    (Declaration.structure name members).Reads page policy := by
  intro room i d ls hroom
  have hmembers : Grammar.sequence policy "\x7d"
      (memberDeclaration (nested policy room))
      (page.state (i + 3) (d + 1)
        (members.write ++ .punct "\x7d" :: .punct ";" :: ls))
      = .ok (members.nodes page.locate (i + 3))
        (page.state (i + 3 + members.length) (d + 1)
          (.punct "\x7d" :: .punct ";" :: ls)) := by
    refine sequence_ok ((h room _ [] (i + 3) (d + 1) _ hroom ?_).trans rfl)
    simp [Page.state, Members.length]
    omega
  have hend : i + 3 + members.length + 1 = i + (members.length + 4) := by
    omega
  have hlength : members.length + 4 + 1
      = (Declaration.structure name members).length := by
    simp [Members.length, Declaration.length, Declaration.write, inBraces]
  rw [Declaration.node, ← hlength, Declaration.write]
  simp only [List.cons_append, List.append_assoc, List.nil_append]
  refine specified_read (.inr rfl) ?_ ?_ (Nat.succ_pos _)
  rotate_left
  · simp [Members.length, inBraces]
    omega
  rw [simpleRound_struct]
  refine run_map (a := some (specifierNode page.locate .classSpecifier i
    members.length (members.nodes page.locate (i + 3)))) ?_
  rw [classSpecifier_head]
  refine run_map ?_
  unfold classBody
  simp [inBraces, expectPunct, run_bind hmembers, hend, node_state rfl]
  rfl

-- ================================================== other declarations

/-- A round of passing over template arguments. -/
def argumentRound (angles : Nat) : Parser (Round Nat Unit) := do
  let t ← peek
  if angles = 0 then return .done ()
  else if t.isPunct "(" || t.isPunct "[" then
    skipGroup "in template arguments"
    return .again angles
  else if t.isEnd || t.isPunct ";" || t.opens || t.closes then
    failExpected "'>' after template arguments"
  else
    advance
    return .again (anglesAfter t angles)

theorem skipTemplateArguments_eq : skipTemplateArguments = (do
    advance
    loop argumentRound 1) := rfl

/-- A lexeme that is no bracket is passed over. -/
theorem argumentRound_again (page : Page) (i d : Nat) (ls : List Lexeme)
    {angles : Nat} (hopen : angles ≠ 0) (hl : l.kind ≠ .punctuation) :
    loop argumentRound angles (page.state i d (l :: ls))
      = loop argumentRound (anglesAfter (l.token (page.place i)) angles)
        (page.state (i + 1) d ls) := by
  refine loop_again ?_ (Nat.lt_succ_self i) (by simp; omega)
  have hneither : (l.token (page.place i)).opens = false
      ∧ (l.token (page.place i)).closes = false := by
    cases l <;> simp_all [Token.opens, Token.closes]
  unfold argumentRound
  cases l <;> simp_all

/-- The template arguments of a template with a type as its only
parameter. -/
theorem skipTemplateArguments_type (parameter : String) :
    skipTemplateArguments (page.state i d
      (.operator "<" :: .keyword "typename" :: .name parameter
        :: .operator ">" :: ls))
      = .ok () (page.state (i + 4) d ls) := by
  have hkeyword : (Lexeme.keyword "typename").kind ≠ .punctuation :=
    by simp
  have hname : (Lexeme.name parameter).kind ≠ .punctuation := by simp
  have hcloser : (Lexeme.operator ">").kind ≠ .punctuation := by simp
  have hfirst := argumentRound_again page (i + 1) d
    (.name parameter :: .operator ">" :: ls) Nat.one_ne_zero hkeyword
  have hsecond := argumentRound_again page (i + 2) d (.operator ">" :: ls)
    Nat.one_ne_zero hname
  have hthird := argumentRound_again page (i + 3) d ls Nat.one_ne_zero
    hcloser
  have hlast : loop argumentRound 0 (page.state (i + 4) d ls)
      = .ok () (page.state (i + 4) d ls) := loop_done rfl
  simp only [anglesAfter, Lexeme.isSpelled_token, Lexeme.isSpelled]
    at hfirst hsecond hthird
  rw [skipTemplateArguments_eq, run_advance, Page.advance_state]
  exact ((hfirst.trans hsecond).trans hthird).trans hlast

/-- A template is read by what reads the declaration in it. -/
theorem templateDeclaration_head (parameter : String)
    (hl : l.isKeyword "requires" = false) :
    declaration g (page.state i d (templateHead parameter ++ l :: ls))
      = (do
        let declaration ← g.parse .declaration
        finish .templateDeclaration ⟨i, page.locate i⟩ [declaration])
        (page.state (i + 5) d (l :: ls)) := by
  have hless : Word.canonical "<" = "<" := by decide
  have hdeclaration : declaration g
      (page.state i d (templateHead parameter ++ l :: ls))
      = templateDeclaration g
        (page.state i d (templateHead parameter ++ l :: ls)) := by
    unfold declaration
    simp [templateHead]
  rw [hdeclaration]
  unfold templateDeclaration
  simp only [templateHead, List.cons_append, List.nil_append, run_mark,
    Page.mark_state, run_advance, Page.advance_state, Lexeme.depthAfter,
    run_check, Page.peek_state, Lexeme.isOperator_token, Lexeme.isOperator,
    hless, BEq.rfl, if_true]
  rw [run_bind (skipTemplateArguments_type parameter), run_check,
    Page.peek_state, Lexeme.isKeyword_token, hl, if_neg Bool.false_ne_true]

theorem template_reads (parameter : String) {x : Declaration}
    (h : x.Reads page policy) :
    (Declaration.template parameter x).Reads page policy := by
  intro room i d ls hroom
  obtain ⟨l, ls', hwrite, hbegins⟩ := x.begins
  have hread := inner_read h hroom (i + 5) d ls
  have hstop : i + 5 + x.length
      = i + (Declaration.template parameter x).length := by
    simp [Declaration.length, Declaration.write, templateHead]
    omega
  rw [hwrite, List.cons_append] at hread
  rw [Declaration.write, List.append_assoc, hwrite, List.cons_append,
    templateDeclaration_head parameter (Lexeme.begins_requires hbegins),
    run_bind hread, hstop, finish_apply, node_state rfl]
  rfl

/-- A namespace is read by what reads the declarations in it. -/
theorem namespaceDefinition_head (name : Option String)
    (body : List Lexeme) :
    declaration g
        (page.state i d (namespaceHead name ++ (inBraces body ++ ls)))
      = (do
        let items ← declarationsInBraces g "after namespace body"
        finish .namespaceDefinition ⟨i, page.locate i⟩ items)
        (page.state (i + (namespaceHead name).length + 1) (d + 1)
          (body ++ Lexeme.punct "\x7d" :: ls)) := by
  have hbrace (i : Nat) :
      skipAttributes (page.state i d (inBraces body ++ ls))
        = .ok () (page.state i d (inBraces body ++ ls)) :=
    skipAttributes_done rfl
  unfold declaration namespaceDefinition
  cases name with
  | none =>
    have hskip : skipWhile
        (fun t => t.isName || t.isOperator "::" || t.isKeyword "inline")
        (page.state (i + 1) d (inBraces body ++ ls)) = _ :=
      skipWhile_done (by simp [inBraces])
    simp [namespaceHead, run_bind (hbrace _), run_bind hskip]
    simp [inBraces, expectPunct]
  | some name =>
    have hname : skipAttributes (page.state (i + 1) d
        (.name name :: (inBraces body ++ ls))) = _ :=
      skipAttributes_done rfl
    have hskip : skipWhile
        (fun t => t.isName || t.isOperator "::" || t.isKeyword "inline")
        (page.state (i + 1) d (.name name :: (inBraces body ++ ls)))
        = .ok () (page.state (i + 2) d (inBraces body ++ ls)) :=
      skipWhile_one (by simp) rfl (by simp [inBraces])
    simp [namespaceHead, run_bind (hbrace _), run_bind hname,
      run_bind hskip]
    simp [inBraces, expectPunct]

theorem namespace_reads (name : Option String) {body : Declarations}
    (h : body.Reads page policy) :
    (Declaration.namespace name body).Reads page policy := by
  intro room i d ls hroom
  have hread := declarationsInBraces_read h hroom
    (i + (namespaceHead name).length + 1) d "after namespace body" ls
  have hstop : i + (namespaceHead name).length + 1 + body.length + 1
      = i + (Declaration.namespace name body).length := by
    simp [Declarations.length, Declaration.length, Declaration.write,
      inBraces]
    omega
  rw [Declaration.write, List.append_assoc, namespaceDefinition_head,
    run_bind hread, hstop, finish_apply, node_state rfl]
  rfl

/-- A linkage is read by what reads the declarations in it. -/
theorem linkageSpecification_head (language : String)
    (body : List Lexeme) :
    declaration g (page.state i d
        (.keyword "extern" :: .string language :: (inBraces body ++ ls)))
      = (do
        let items ← declarationsInBraces g "after linkage specification"
        finish .linkageSpecification ⟨i, page.locate i⟩ items)
        (page.state (i + 3) (d + 1)
          (body ++ Lexeme.punct "\x7d" :: ls)) := by
  unfold declaration linkageSpecification
  simp [inBraces]

theorem linkage_reads (language : String) {body : Declarations}
    (h : body.Reads page policy) :
    (Declaration.linkage language body).Reads page policy := by
  intro room i d ls hroom
  have hread := declarationsInBraces_read h hroom (i + 3) d
    "after linkage specification" ls
  have hstop : i + 3 + body.length + 1
      = i + (Declaration.linkage language body).length := by
    simp [Declarations.length, Declaration.length, Declaration.write,
      inBraces]
    omega
  rw [Declaration.write, List.cons_append, List.cons_append,
    linkageSpecification_head, run_bind hread, hstop, finish_apply,
    node_state rfl]
  rfl

-- ====================================================== all declarations

mutual

/-- A declaration is read as it is written. -/
theorem Declaration.reads (page : Page) (policy : Policy) :
    (x : Declaration) → x.Reads page policy
  | .empty => empty_declaration_reads
  | .variable name => variable_reads name
  | .initialized name value => initialized_reads name value
  | .function name body => function_reads name body
  | .enumeration name names => enumeration_reads name names
  | .structure name members =>
    structure_reads name (members.reads page policy)
  | .template parameter x => template_reads parameter (x.reads page policy)
  | .namespace name body => namespace_reads name (body.reads page policy)
  | .linkage language body => linkage_reads language (body.reads page policy)

/-- Declarations are read as they are written. -/
theorem Declarations.reads (page : Page) (policy : Policy) :
    (body : Declarations) → body.Reads page policy
  | .noDeclaration => noDeclaration_reads
  | .declaration x rest =>
    nextDeclaration_reads (x.reads page policy) (rest.reads page policy)

/-- Members are read as they are written. -/
theorem Members.reads (page : Page) (policy : Policy) :
    (members : Members) → members.Reads page policy
  | .noMember => noMember_reads
  | .label _ rest => label_reads (rest.reads page policy)
  | .member x rest =>
    member_reads (x.reads page policy) (rest.reads page policy)

end

end FrontEnd.Written
