/-
What it says that declarations are read as they are written, and the
lemmas for the three kinds of body that hold declarations or names.

A declaration ends in a semicolon or a brace of its own, so whatever comes
behind it is left alone, and nothing is asked of the next lexeme. What the
bodies need of a declaration is that it begins with a lexeme that is no
closing brace and no label (`Declaration.begins`).
-/
import FrontEnd.Proofs.Written.Declaration
import FrontEnd.Proofs.Written.Function

namespace FrontEnd.Written

open Grammar

variable {page : Page} {policy : Policy} {g : Inner}
variable {room i j d : Nat} {l : Lexeme} {ls : List Lexeme}

-- ========================================================= first lexemes

/-- The keywords with which declarations are written. -/
def headWords : List String :=
  ["int", "enum", "struct", "template", "namespace", "extern"]

/-- Whether a declaration that was written begins with the lexeme. -/
def Lexeme.begins : Lexeme → Bool
  | .punct v => v == ";"
  | .keyword v => headWords.contains v
  | _ => false

/-- A declaration begins with a keyword or is a semicolon. -/
theorem Declaration.begins (x : Declaration) :
    ∃ l ls, x.write = l :: ls ∧ l.begins = true := by
  cases x <;> exact ⟨_, _, rfl, by decide⟩

theorem Declaration.length_pos (x : Declaration) : 0 < x.length := by
  obtain ⟨l, ls, hwrite, -⟩ := x.begins
  simp [Declaration.length, hwrite]

/-- No declaration is taken for a label. -/
theorem Declaration.memberLabel_write (x : Declaration) :
    memberLabel (page.state i d (x.write ++ ls)).rest = none := by
  obtain ⟨l, ls', hwrite, hbegins⟩ := x.begins
  have hpublic : "public" ∉ headWords := by decide
  have hprotected : "protected" ∉ headWords := by decide
  have hprivate : "private" ∉ headWords := by decide
  unfold memberLabel
  rw [hwrite, List.cons_append, Page.tokenAt_zero_state]
  cases l with
  | keyword v =>
    have hword (w : String) (hw : w ∉ headWords) : v ≠ w := by
      rintro rfl
      exact hw (by simpa [Lexeme.begins] using hbegins)
    simp [hword _ hpublic, hword _ hprotected, hword _ hprivate]
  | _ => simp_all [Lexeme.begins]

/-- Declarations begin with no constraint. -/
theorem Lexeme.begins_requires (h : l.begins = true) :
    l.isKeyword "requires" = false := by
  have hrequires : "requires" ∉ headWords := by decide
  cases l with
  | keyword v =>
    have hword : v ≠ "requires" := by
      rintro rfl
      exact hrequires (by simpa [Lexeme.begins] using h)
    simpa using hword
  | _ => rfl

/-- Declarations begin with no closing brace. -/
theorem Lexeme.begins_close (h : l.begins = true) {closer : Option String}
    (hcloser : closer ≠ some ";") : closer.any l.isPunct = false := by
  cases closer with
  | none => rfl
  | some w =>
    cases l <;> simp_all [Lexeme.begins]
    rintro rfl
    exact hcloser rfl

-- ========================================================= small rules

/-- Tokens of a kind are read up to the first other one. -/
theorem skipWhile_done {q : Token → Bool} {s : State}
    (h : q s.peek = false) : skipWhile q s = .ok () s := by
  refine loop_done ?_
  simp [h]

theorem skipWhile_one {q : Token → Bool}
    (h : q (l.token (page.place i)) = true)
    (hdepth : l.depthAfter d = d)
    (hnext : q (page.state (i + 1) d ls).peek = false) :
    skipWhile q (page.state i d (l :: ls))
      = .ok () (page.state (i + 1) d ls) := by
  refine Eq.trans (loop_again ?_ (Nat.lt_succ_self i) (by simp; omega))
    (skipWhile_done hnext)
  rw [run_accept, Page.peek_state, if_pos h, Page.advance_state, hdepth]
  rfl

/-- No attributes are read where no bracket opens. -/
theorem skipAttributes_done (h : l.isPunct "[" = false) :
    skipAttributes (page.state i d (l :: ls))
      = .ok () (page.state i d (l :: ls)) := by
  refine loop_done ?_
  rw [run_check, Page.peek_state, Lexeme.isPunct_token, h]
  rfl

-- =========================================================== what is read

/-- A declaration is read as it is written. -/
def Declaration.Reads (page : Page) (policy : Policy)
    (x : Declaration) : Prop := ∀ room i d ls, x.levels ≤ room →
  declaration (nested policy room) (page.state i d (x.write ++ ls))
    = .ok (x.node page.locate i) (page.state (i + x.length) d ls)

/-- Declarations are read as they are written, up to the end of the
sequence that they stand in. -/
def Declarations.Reads (page : Page) (policy : Policy)
    (body : Declarations) : Prop := ∀ room closer bound done i d ls,
  body.levels ≤ room → closer ≠ some ";" → i + body.length ≤ bound →
  endsSequence closer (page.state (i + body.length) d ls).peek = true →
  gather policy closer ((nested policy room).parse .declaration) bound done
      (page.state i d (body.write ++ ls))
    = ⟨done.reverse ++ body.nodes page.locate i,
      page.state (i + body.length) d ls, none⟩

/-- Members are read as they are written. -/
def Members.Reads (page : Page) (policy : Policy)
    (members : Members) : Prop := ∀ room bound done i d ls,
  members.levels ≤ room → i + members.length ≤ bound →
  gather policy (some "\x7d") (memberDeclaration (nested policy room)) bound
      done (page.state i d (members.write ++ .punct "\x7d" :: ls))
    = ⟨done.reverse ++ members.nodes page.locate i,
      page.state (i + members.length) d (.punct "\x7d" :: ls), none⟩

/-- One level deeper a declaration is read as a whole. -/
theorem inner_read {x : Declaration} (h : x.Reads page policy)
    (hroom : x.levels + 1 ≤ room) (i d : Nat) (ls : List Lexeme) :
    (nested policy room).parse .declaration
        (page.state i d (x.write ++ ls))
      = .ok (x.node page.locate i) (page.state (i + x.length) d ls) := by
  obtain ⟨room, rfl⟩ : ∃ below, room = below + 1 :=
    Nat.exists_eq_add_one_of_ne_zero (by omega)
  exact h room i d ls (Nat.le_of_succ_le_succ hroom)

-- ================================================================ bodies

theorem noDeclaration_reads :
    Declarations.noDeclaration.Reads page policy := by
  intro room closer bound done i d ls _ _ _ hend
  refine (gather_done hend done).trans ?_
  simp [Declarations.nodes, Declarations.length, Declarations.write]

theorem nextDeclaration_reads {x : Declaration} {rest : Declarations}
    (h : x.Reads page policy) (hrest : rest.Reads page policy) :
    (Declarations.declaration x rest).Reads page policy := by
  intro room closer bound done i d ls hroom hcloser hbound hend
  obtain ⟨hroom, hroom'⟩ := Nat.max_le.1 hroom
  obtain ⟨l, ls', hwrite, hbegins⟩ := x.begins
  have hlength : x.length + rest.length
      = (Declarations.declaration x rest).length := by
    simp [Declaration.length, Declarations.length, Declarations.write]
  have hread := inner_read h hroom i d (rest.write ++ ls)
  have hpositive := x.length_pos
  rw [Declarations.write, List.append_assoc]
  rw [hwrite, List.cons_append] at hread ⊢
  rw [gather_again closer (Lexeme.begins_close hbegins hcloser) hread (by omega)
    (by omega) done]
  rw [← hlength, ← Nat.add_assoc] at hend hbound
  rw [hrest room closer bound _ _ d ls hroom' hcloser hbound hend, ← hlength,
    Nat.add_assoc]
  simp [Declarations.nodes]

/-- Declarations in braces, up to and through the closing one. -/
theorem declarationsInBraces_read {body : Declarations}
    (h : body.Reads page policy) (hroom : body.levels ≤ room) (i d : Nat)
    (context : String) (ls : List Lexeme) :
    declarationsInBraces (nested policy room) context
        (page.state i (d + 1) (body.write ++ .punct "\x7d" :: ls))
      = .ok (body.nodes page.locate i)
        (page.state (i + body.length + 1) d ls) := by
  have hread : Grammar.sequence policy "\x7d"
      ((nested policy room).parse .declaration)
      (page.state i (d + 1) (body.write ++ .punct "\x7d" :: ls))
      = .ok (body.nodes page.locate i)
        (page.state (i + body.length) (d + 1) (.punct "\x7d" :: ls)) := by
    refine sequence_ok ((h room _ _ [] i (d + 1) _ hroom (by decide) ?_
      ?_).trans rfl)
    · simp [Page.state, Declarations.length]
      omega
    · simp [endsSequence]
  unfold declarationsInBraces
  simp [run_bind hread, expectPunct]

theorem noMember_reads : Members.noMember.Reads page policy := by
  intro room bound done i d ls _ _
  refine (gather_done ?_ done).trans ?_
  · simp [Members.write, endsSequence]
  · simp [Members.nodes, Members.length, Members.write]

/-- A label among the members of a class. -/
theorem label_read (access : Access) (i d : Nat) (ls : List Lexeme) :
    memberDeclaration g (page.state i d
        (.keyword access.word :: .operator ":" :: ls))
      = .ok (nodeOf page.locate .accessSpecifier i 2 [])
        (page.state (i + 2) d ls) := by
  have hlabel : memberLabel (page.state i d
      (.keyword access.word :: .operator ":" :: ls)).rest = some 2 := by
    unfold memberLabel
    cases access <;> simp [Access.word]
  unfold memberDeclaration
  rw [hlabel]
  simp [skip, node_state (show i + 1 + 1 = i + 2 from rfl)]

theorem label_reads {access : Access} {rest : Members}
    (hrest : rest.Reads page policy) :
    (Members.label access rest).Reads page policy := by
  intro room bound done i d ls hroom hbound
  have hlength : rest.length + 2 = (Members.label access rest).length := by
    simp [Members.length, Members.write]
  rw [Members.write, List.cons_append, List.cons_append,
    gather_again _ rfl (label_read access i d _) (by omega) (by omega) done,
    hrest room bound _ _ d ls hroom (by omega), ← hlength,
    Nat.add_right_comm i 2, Nat.add_assoc]
  simp [Members.nodes]

/-- What is no label is a declaration. -/
theorem memberDeclaration_eq {s : State} (h : memberLabel s.rest = none) :
    memberDeclaration g s = g.parse .declaration s := by
  unfold memberDeclaration
  rw [h]

/-- A declaration among the members of a class. -/
theorem member_read {x : Declaration} (h : x.Reads page policy)
    (hroom : x.levels + 1 ≤ room) (i d : Nat) (ls : List Lexeme) :
    memberDeclaration (nested policy room) (page.state i d (x.write ++ ls))
      = .ok (x.node page.locate i) (page.state (i + x.length) d ls) :=
  (memberDeclaration_eq x.memberLabel_write).trans
    (inner_read h hroom i d ls)

theorem member_reads {x : Declaration} {rest : Members}
    (h : x.Reads page policy) (hrest : rest.Reads page policy) :
    (Members.member x rest).Reads page policy := by
  intro room bound done i d ls hroom hbound
  obtain ⟨hroom, hroom'⟩ := Nat.max_le.1 hroom
  obtain ⟨l, ls', hwrite, hbegins⟩ := x.begins
  have hlength : x.length + rest.length
      = (Members.member x rest).length := by
    simp [Declaration.length, Members.length, Members.write]
  have hread := member_read h hroom i d (rest.write ++ .punct "\x7d" :: ls)
  have hpositive := x.length_pos
  rw [Members.write, List.append_assoc]
  rw [hwrite, List.cons_append] at hread ⊢
  rw [gather_again _ (Lexeme.begins_close hbegins (by decide)) hread (by omega)
    (by omega) done, hrest room bound _ _ d ls hroom' (by omega), ← hlength,
    Nat.add_assoc]
  simp [Members.nodes]

-- ========================================================== enumerators

/-- A round of the names of an enumeration. -/
def enumeratorRound (g : Inner) (done : List Node) :
    Parser (Round (List Node) (List Node)) := do
  if ← check (·.isPunct "\x7d") then return .done done.reverse
  else
    let done := (← enumerator g) :: done
    if ← accept (·.isPunct ",") then return .again done
    else if ← check (·.isPunct "\x7d") then return .again done
    else failExpected "',' or '\x7d' after enumerator"

theorem enumerators_eq : enumerators g = loop (enumeratorRound g) [] := rfl

/-- An enumerator is read up to the comma or brace behind it. -/
theorem enumerator_read (page : Page) (policy : Policy) (e : Enumerator)
    (hroom : e.levels ≤ room) (i d : Nat) (ls : List Lexeme) (hl : l = .punct "," ∨ l = .punct "\x7d") :
    enumerator (nested policy room) (page.state i d (e.write ++ l :: ls))
      = .ok (e.node page.locate i)
        (page.state (i + e.length) d (l :: ls)) := by
  have hassign : Word.canonical "=" = "=" := by decide
  have hends : l.endsRight = true ∧ l.isPunct "[" = false := by
    rcases hl with rfl | rfl <;> decide
  obtain ⟨name, value⟩ := e
  cases value with
  | none =>
    have hread : skipAttributes (page.state (i + 1) d (l :: ls))
        = .ok () (page.state (i + 1) d (l :: ls)) :=
      skipAttributes_done hends.2
    unfold enumerator
    rcases hl with rfl | rfl <;>
      simp [Enumerator.write, expectName, run_bind hread] <;>
      exact ⟨rfl, rfl⟩
  | some value =>
    have hvalue := conditional_read page policy (i + 2) d l ls hroom hends.1
    have hstop : i + 2 + value.length
        = i + (Enumerator.mk name (some value)).length := by
      simp [Expression.length, Enumerator.length, Enumerator.write]
      omega
    have hread : skipAttributes (page.state (i + 1) d
        (.operator "=" :: (value.write ++ l :: ls))) = _ :=
      skipAttributes_done rfl
    unfold enumerator
    simp [Enumerator.write, expectName, run_bind hread, hassign,
      run_bind hvalue, hstop]
    rfl

/-- No enumerator begins with a closing brace. -/
theorem Enumerator.not_close (e : Enumerator) :
    (page.state i d (e.write ++ ls)).peek.isPunct "\x7d" = false := by
  rw [write, List.cons_append, Page.peek_state]
  rfl

/-- An enumerator with a comma behind it. -/
theorem nextName_again {e : Enumerator} (hroom : e.levels ≤ room)
    (done : List Node) :
    loop (enumeratorRound (nested policy room)) done
        (page.state i d (e.write ++ .punct "," :: ls))
      = loop (enumeratorRound (nested policy room))
        (e.node page.locate i :: done)
        (page.state (i + e.length + 1) d ls) := by
  have hread := enumerator_read page policy e hroom i
    d ls (.inl rfl)
  refine loop_again ?_ (by omega) (by simp [Enumerator.length]; omega)
  unfold enumeratorRound
  simp [e.not_close, run_bind hread]

/-- Enumerators are read as they are written. -/
theorem Enumerators.reads (page : Page) (policy : Policy)
    (names : Enumerators) (hroom : names.levels ≤ room)
    (done : List Node) (i d : Nat) (ls : List Lexeme) :
    loop (enumeratorRound (nested policy room)) done
        (page.state i d (names.write ++ .punct "\x7d" :: ls))
      = .ok (done.reverse ++ names.nodes page.locate i)
        (page.state (i + names.length) d (.punct "\x7d" :: ls)) := by
  have hclosed (done : List Node) (i : Nat) :
      loop (enumeratorRound (nested policy room)) done
          (page.state i d (.punct "\x7d" :: ls))
        = .ok done.reverse (page.state i d (.punct "\x7d" :: ls)) := by
    refine loop_done ?_
    unfold enumeratorRound
    simp
  induction names generalizing done i with
  | noName => simpa [write, nodes, length] using hclosed done i
  | lastName e =>
    have hread := enumerator_read page policy e hroom i
      d ls (.inr rfl)
    have hpositive : 0 < e.length := Nat.succ_pos _
    have hagain : enumeratorRound (nested policy room) done
        (page.state i d (e.write ++ .punct "\x7d" :: ls))
        = .ok (.again (e.node page.locate i :: done))
          (page.state (i + e.length) d (.punct "\x7d" :: ls)) := by
      unfold enumeratorRound
      simp [e.not_close, run_bind hread]
    rw [write, loop_again hagain (by omega)
      (by simp [Enumerator.length]; omega), hclosed]
    simp [nodes, length, write, Enumerator.length]
  | nextName e rest ih =>
    obtain ⟨hroom, hroom'⟩ := Nat.max_le.1 hroom
    have hlength : e.length + 1 + rest.length
        = (Enumerators.nextName e rest).length := by
      simp [Enumerator.length, length, write]
      omega
    rw [write, List.append_assoc, List.cons_append, nextName_again hroom,
      ih hroom', Nat.add_assoc i, Nat.add_assoc i, hlength]
    simp [nodes, Nat.add_assoc]

end FrontEnd.Written
