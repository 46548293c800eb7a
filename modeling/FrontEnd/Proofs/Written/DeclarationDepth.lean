/-
Declarations that nest deeper than the levels that are left are refused,
as statements are: a lemma for each constructor, and the induction over
the tree (`Declaration.refused`).
-/
import FrontEnd.Proofs.Written.DeclarationReading

namespace FrontEnd.Written

open Grammar

variable {page : Page} {g : Inner}
variable {room i d : Nat} {l : Lexeme} {ls : List Lexeme}

-- ======================================================== what is refused

/-- A declaration is refused where it nests too deep. -/
def Declaration.Refused (page : Page) (x : Declaration) : Prop :=
  ∀ room i d ls, room < x.levels →
  TooDeep (declaration (nested .strict room)
    (page.state i d (x.write ++ ls)))

/-- Declarations are refused where one of them nests too deep. -/
def Declarations.Refused (page : Page) (body : Declarations) : Prop :=
  ∀ room closer bound done i d ls, room < body.levels →
  closer ≠ some ";" → i + body.length ≤ bound →
  EndsTooDeep (gather .strict closer
    ((nested .strict room).parse .declaration) bound done
    (page.state i d (body.write ++ ls)))

/-- Members are refused where one of them nests too deep. -/
def Members.Refused (page : Page) (members : Members) : Prop :=
  ∀ room bound done i d ls, room < members.levels →
  i + members.length ≤ bound →
  EndsTooDeep (gather .strict (some "\x7d")
    (memberDeclaration (nested .strict room)) bound done
    (page.state i d (members.write ++ .punct "\x7d" :: ls)))

/-- A declaration needs one level more where it is read as a whole. -/
theorem inner_refused {x : Declaration} (h : x.Refused page)
    (hroom : room < x.levels + 1) (i d : Nat) (ls : List Lexeme) :
    TooDeep ((nested .strict room).parse .declaration
      (page.state i d (x.write ++ ls))) :=
  nested_refuses (fun below hbelow => h below i d ls hbelow) hroom

-- ================================================================ bodies

theorem nextDeclaration_refused {x : Declaration} {rest : Declarations}
    (h : x.Refused page) (hrest : rest.Refused page) :
    (Declarations.declaration x rest).Refused page := by
  intro room closer bound done i d ls hroom hcloser hbound
  obtain ⟨l, ls', hwrite, hbegins⟩ := x.begins
  have hopen := Lexeme.begins_close hbegins hcloser
  have hlength : x.length + rest.length
      = (Declarations.declaration x rest).length := by
    simp [Declaration.length, Declarations.length, Declarations.write]
  rw [Declarations.write, List.append_assoc]
  rcases first_or_rest hroom with hroom | ⟨hfits, hroom⟩
  · have hread := inner_refused h hroom i d (rest.write ++ ls)
    rw [hwrite, List.cons_append] at hread ⊢
    exact gather_refused hopen hread done
  · have hread := inner_read (x.reads page .strict) hfits i d
      (rest.write ++ ls)
    have hpositive := x.length_pos
    rw [hwrite, List.cons_append] at hread ⊢
    rw [gather_again closer hopen hread (by omega) (by omega)]
    exact hrest room closer bound _ _ d ls hroom hcloser (by omega)

/-- Declarations in braces are refused if one of them is. -/
theorem declarationsInBraces_refused {body : Declarations}
    (h : body.Refused page) (hroom : room < body.levels) (i d : Nat)
    (context : String) (ls : List Lexeme) :
    TooDeep (declarationsInBraces (nested .strict room) context
      (page.state i (d + 1) (body.write ++ .punct "\x7d" :: ls))) := by
  have hsequence : TooDeep (Grammar.sequence .strict "\x7d"
      ((nested .strict room).parse .declaration)
      (page.state i (d + 1) (body.write ++ .punct "\x7d" :: ls))) := by
    obtain ⟨nodes, s, t, hgather⟩ := h room (some "\x7d")
      (page.state i (d + 1) (body.write ++ .punct "\x7d" :: ls)).size
      [] i (d + 1) (.punct "\x7d" :: ls) hroom (by decide)
      (by simp [Page.state, Declarations.length]; omega)
    exact ⟨t, s, sequence_error hgather⟩
  exact hsequence.bind _

theorem label_refused {access : Access} {rest : Members}
    (hrest : rest.Refused page) :
    (Members.label access rest).Refused page := by
  intro room bound done i d ls hroom hbound
  have hlength : rest.length + 2 = (Members.label access rest).length := by
    simp [Members.length, Members.write]
  rw [Members.write, List.cons_append, List.cons_append,
    gather_again _ rfl (label_read access i d _) (by omega) (by omega) done]
  exact hrest room bound _ _ d ls hroom (by omega)

theorem member_refused {x : Declaration} {rest : Members}
    (h : x.Refused page) (hrest : rest.Refused page) :
    (Members.member x rest).Refused page := by
  intro room bound done i d ls hroom hbound
  obtain ⟨l, ls', hwrite, hbegins⟩ := x.begins
  have hopen : (some "\x7d").any l.isPunct = false :=
    Lexeme.begins_close hbegins (by decide)
  have hlength : x.length + rest.length
      = (Members.member x rest).length := by
    simp [Declaration.length, Members.length, Members.write]
  rw [Members.write, List.append_assoc]
  rcases first_or_rest hroom with hroom | ⟨hfits, hroom⟩
  · have hread : TooDeep (memberDeclaration (nested .strict room)
        (page.state i d
          (x.write ++ (rest.write ++ .punct "\x7d" :: ls)))) := by
      rw [memberDeclaration_eq x.memberLabel_write]
      exact inner_refused h hroom i d _
    rw [hwrite, List.cons_append] at hread ⊢
    exact gather_refused hopen hread done
  · have hread := member_read (x.reads page .strict) hfits i d
      (rest.write ++ .punct "\x7d" :: ls)
    have hpositive := x.length_pos
    rw [hwrite, List.cons_append] at hread ⊢
    rw [gather_again _ hopen hread (by omega) (by omega)]
    exact hrest room bound _ _ d ls hroom (by omega)

theorem enumerator_refused {e : Enumerator} (hroom : room < e.levels)
    (i d : Nat) (ls : List Lexeme) (hl : l = .punct "," ∨ l = .punct "\x7d") :
    TooDeep (enumerator (nested .strict room)
      (page.state i d (e.write ++ l :: ls))) := by
  have hassign : Word.canonical "=" = "=" := by decide
  have hends : l.endsRight = true := by rcases hl with rfl | rfl <;> decide
  obtain ⟨name, value⟩ := e
  cases value with
  | none => cases hroom
  | some value =>
    have hvalue := conditional_refused page (i + 2) d l ls hroom hends
    have hread : skipAttributes (page.state (i + 1) d
        (.operator "=" :: (value.write ++ l :: ls))) = _ :=
      skipAttributes_done rfl
    unfold enumerator
    simp [Enumerator.write, expectName, run_bind hread, hassign]
    exact hvalue.bind _

theorem Enumerators.refused (page : Page) (names : Enumerators)
    (hroom : room < names.levels) (done : List Node) (i d : Nat)
    (ls : List Lexeme) :
    TooDeep (loop (enumeratorRound (nested .strict room)) done
      (page.state i d (names.write ++ .punct "\x7d" :: ls))) := by
  induction names generalizing done i with
  | noName => cases hroom
  | lastName e =>
    refine TooDeep.loop ?_
    unfold enumeratorRound
    simp only [run_check, write, e.not_close]
    exact (enumerator_refused hroom i d ls (.inr rfl)).bind _
  | nextName e rest ih =>
    rw [write, List.append_assoc, List.cons_append]
    rcases first_or_rest hroom with hroom | ⟨hfits, hroom⟩
    · refine TooDeep.loop ?_
      unfold enumeratorRound
      simp only [run_check, e.not_close]
      exact (enumerator_refused hroom i d _ (.inl rfl)).bind _
    · rw [nextName_again hfits]
      exact ih hroom _ _

-- =========================================================== declarations

theorem initialized_refused (name : String)
    (value : Expression (.right true true)) :
    (Declaration.initialized name value).Refused page := by
  intro room i d ls hroom
  have hvalue := initializer_refused page (i + 3) d (.punct ";") ls hroom
    (by decide)
  rw [Declaration.write]
  simp only [List.cons_append, List.append_assoc, List.nil_append]
  rw [declaration_int]
  refine TooDeep.loop ?_
  rw [simpleRound_value]
  exact hvalue.bind _

theorem function_declaration_refused (name : String) (body : Items) :
    (Declaration.function name body).Refused page := by
  intro room i d ls hroom
  have hblock := block_refused (i + 4) d ls (body.refused page) hroom
  rw [Declaration.write]
  simp only [List.cons_append]
  rw [declaration_body]
  refine TooDeep.loop ?_
  rw [simpleRound_body]
  exact hblock.bind _

theorem enumeration_refused (name : String) (names : Enumerators) :
    (Declaration.enumeration name names).Refused page := by
  intro room i d ls hroom
  have hnames := names.refused page hroom [] (i + 3) (d + 1)
    (.punct ";" :: ls)
  rw [Declaration.write]
  simp only [List.cons_append, List.append_assoc, List.nil_append]
  rw [declaration_specified (.inl rfl)]
  refine TooDeep.loop ?_
  rw [simpleRound_enum]
  refine TooDeep.map ?_ _
  rw [enumSpecifier_head]
  exact hnames.bind _

theorem structure_refused (name : String) {members : Members}
    (h : members.Refused page) :
    (Declaration.structure name members).Refused page := by
  intro room i d ls hroom
  have hmembers : TooDeep (Grammar.sequence .strict "\x7d"
      (memberDeclaration (nested .strict room))
      (page.state (i + 3) (d + 1)
        (members.write ++ .punct "\x7d" :: .punct ";" :: ls))) := by
    obtain ⟨nodes, s, t, hgather⟩ := h room
      (page.state (i + 3) (d + 1)
        (members.write ++ .punct "\x7d" :: .punct ";" :: ls)).size
      [] (i + 3) (d + 1) (.punct ";" :: ls) hroom
      (by simp [Page.state, Members.length]; omega)
    exact ⟨t, s, sequence_error hgather⟩
  rw [Declaration.write]
  simp only [List.cons_append, List.append_assoc, List.nil_append]
  rw [declaration_specified (.inr rfl)]
  refine TooDeep.loop ?_
  rw [simpleRound_struct]
  refine TooDeep.map ?_ _
  rw [classSpecifier_head]
  refine TooDeep.map ?_ _
  unfold classBody
  simp [inBraces, expectPunct]
  exact hmembers.bind _

theorem template_refused (parameter : String) {x : Declaration}
    (h : x.Refused page) :
    (Declaration.template parameter x).Refused page := by
  intro room i d ls hroom
  obtain ⟨l, ls', hwrite, hbegins⟩ := x.begins
  have hread := inner_refused h hroom (i + 5) d ls
  rw [hwrite, List.cons_append] at hread
  rw [Declaration.write, List.append_assoc, hwrite, List.cons_append,
    templateDeclaration_head parameter (Lexeme.begins_requires hbegins)]
  exact hread.bind _

theorem namespace_refused (name : Option String) {body : Declarations}
    (h : body.Refused page) :
    (Declaration.namespace name body).Refused page := by
  intro room i d ls hroom
  rw [Declaration.write, List.append_assoc, namespaceDefinition_head]
  exact (declarationsInBraces_refused h hroom _ d _ ls).bind _

theorem linkage_refused (language : String) {body : Declarations}
    (h : body.Refused page) :
    (Declaration.linkage language body).Refused page := by
  intro room i d ls hroom
  rw [Declaration.write, List.cons_append, List.cons_append,
    linkageSpecification_head]
  exact (declarationsInBraces_refused h hroom _ d _ ls).bind _

-- ====================================================== all declarations

mutual

/-- A declaration is refused where it nests too deep. -/
theorem Declaration.refused (page : Page) :
    (x : Declaration) → x.Refused page
  | .empty => fun _ _ _ _ h => absurd h (Nat.not_lt_zero _)
  | .variable _ => fun _ _ _ _ h => absurd h (Nat.not_lt_zero _)
  | .initialized name value => initialized_refused name value
  | .function name body => function_declaration_refused name body
  | .enumeration name names => enumeration_refused name names
  | .structure name members => structure_refused name (members.refused page)
  | .template parameter x => template_refused parameter (x.refused page)
  | .namespace name body => namespace_refused name (body.refused page)
  | .linkage language body => linkage_refused language (body.refused page)

/-- Declarations are refused where one of them nests too deep. -/
theorem Declarations.refused (page : Page) :
    (body : Declarations) → body.Refused page
  | .noDeclaration => fun _ _ _ _ _ _ _ h => absurd h (Nat.not_lt_zero _)
  | .declaration x rest =>
    nextDeclaration_refused (x.refused page) (rest.refused page)

/-- Members are refused where one of them nests too deep. -/
theorem Members.refused (page : Page) :
    (members : Members) → members.Refused page
  | .noMember => fun _ _ _ _ _ _ h => absurd h (Nat.not_lt_zero _)
  | .label _ rest => label_refused (rest.refused page)
  | .member x rest => member_refused (x.refused page) (rest.refused page)

end

end FrontEnd.Written
