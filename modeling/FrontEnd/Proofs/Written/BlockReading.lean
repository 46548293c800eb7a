/-
What it says that statements are read as they are written, and the
lemmas for those constructors whose statements stand in braces: the items
of a block, and handlers of exceptions.

`Lexeme.follows` is what the induction needs to know of the lexeme behind
a statement. It must not go on with it, as an `else` would with an `if`,
or a `catch` with a `try`; and behind a label at the end of a block it is
the brace that closes the block.
-/
import FrontEnd.Proofs.Sequence
import FrontEnd.Proofs.Written.Reading
import FrontEnd.Proofs.Written.Statement

namespace FrontEnd.Written

open Grammar

variable {page : Page} {policy : Policy} {g : Inner}
variable {room i j d : Nat} {l : Lexeme} {ls : List Lexeme}
variable {k n : Bool} {o : Ending} {r : Rank}

-- ============================================================ expressions

/-- No declaration begins where an expression was written. -/
@[simp]
theorem Expression.opensDeclaration_write (e : Expression r) :
    opensDeclaration (page.state i d (e.write ++ ls)).rest = false := by
  obtain ⟨l, ls', hwrite, hopens⟩ := e.opens
  have hname : Word.canonical "::" ∉ unaryOperators := by decide
  unfold opensDeclaration
  rw [hwrite, List.cons_append, Page.tokenAt_zero_state]
  cases l with
  | operator op =>
    have hop : op ≠ "::" := by
      rintro rfl
      simp_all [Lexeme.opens]
    simp [hop]
  | _ => simp_all [Lexeme.opens]

/-- A whole expression. -/
theorem expression_read (page : Page) (policy : Policy) (i d : Nat)
    (l : Lexeme) (ls : List Lexeme) {e : Expression .list}
    (hroom : e.levels 0 ≤ room) (hl : l.endsList = true) :
    expression (nested policy room) (page.state i d (e.write ++ l :: ls))
      = .ok (e.node page.locate i)
        (page.state (i + e.length) d (l :: ls)) :=
  e.reads page policy room i d l ls hroom hl

/-- A condition that is an expression. -/
theorem condition_read (page : Page) (policy : Policy) (i d : Nat)
    (l : Lexeme) (ls : List Lexeme) {e : Expression .list}
    (hroom : e.levels 0 ≤ room) (hl : l.endsList = true) :
    condition (nested policy room) (page.state i d (e.write ++ l :: ls))
      = .ok (conditionNode page.locate e i)
        (page.state (i + e.length) d (l :: ls)) := by
  unfold condition
  simp [run_bind (expression_read page policy i d l ls hroom hl)]
  rfl

/-- The value of a case or of an enumerator, which is read one level
deeper. -/
theorem conditional_read (page : Page) (policy : Policy) (i d : Nat)
    (l : Lexeme) (ls : List Lexeme)
    {e : Expression (.binary binaryLevels)}
    (hroom : max 1 (e.levels 0) + 1 ≤ room) (hl : l.endsRight = true) :
    (nested policy room).parse .conditional
        (page.state i d (e.write ++ l :: ls))
      = .ok (e.node page.locate i)
        (page.state (i + e.length) d (l :: ls)) := by
  obtain ⟨room, rfl⟩ : ∃ below, room = below + 1 :=
    Nat.exists_eq_add_one_of_ne_zero (by omega)
  obtain ⟨hroom, hroom'⟩ := Nat.max_le.1 (Nat.le_of_succ_le_succ hroom)
  exact operand_done (e.reads page policy) false hroom hroom' hl

/-- An initializer without braces. -/
theorem initializer_read (page : Page) (policy : Policy) (i d : Nat)
    (l : Lexeme) (ls : List Lexeme) {e : Expression (.right true true)}
    (hroom : e.levels 0 + 1 ≤ room) (hl : l.endsRight = true) :
    initializer (nested policy room) (page.state i d (e.write ++ l :: ls))
      = .ok (e.node page.locate i)
        (page.state (i + e.length) d (l :: ls)) :=
  (initializer_eq (e.peek_isPunct (by decide))).trans
    (assignment_read (e.reads page policy) hroom hl)

-- =========================================================== what follows

/-- Whether the lexeme can follow a statement. -/
def Lexeme.follows : Ending → Lexeme → Bool
  | .closed, l => !l.isKeyword "catch"
  | .branch, l => !l.isKeyword "catch" && !l.isKeyword "else"
  | .label, l => l.isPunct "\x7d"

theorem Lexeme.not_catch (h : l.follows o = true) :
    l.isKeyword "catch" = false := by
  cases o <;> cases l <;> simp_all [follows]

theorem Lexeme.not_else (h : l.follows o = true) (ho : o ≠ .closed) :
    l.isKeyword "else" = false := by
  cases o <;> cases l <;> simp_all [follows]

/-- A statement begins with a lexeme that can follow another one and does
not close a block. -/
theorem Statement.opens : {k : Bool} → {o : Ending} → (s : Statement k o) →
    ∃ l ls, s.write = l :: ls ∧ l.follows .branch = true
      ∧ l.isPunct "\x7d" = false ∧ (k = false → l.isKeyword "if" = false)
  | _, _, .expression e => by
    obtain ⟨l, ls, hwrite, hopens⟩ := e.opens
    refine ⟨l, _, by rw [write, hwrite, List.cons_append], ?_⟩
    cases l <;> simp_all [Lexeme.opens, Lexeme.follows]
  | _, _, .empty | _, _, .block _ | _, _, .ladder _ _ _
  | _, _, .switch _ _ | _, _, .whileLoop _ _ | _, _, .doLoop _ _
  | _, _, .forLoop _ _ _ _ | _, _, .returns _ | _, _, .breaks
  | _, _, .continues | _, _, .goto _ | _, _, .labeled _ _
  | _, _, .endLabel _ | _, _, .tries _ _ =>
    ⟨_, _, rfl, by simp [Lexeme.follows]⟩

-- =========================================================== what is read

/-- A round of the branches of a ladder. -/
def branchRound (g : Inner) (done : List Node) :
    Parser (Round (List Node) (List Node)) := do
  if ← accept (·.isKeyword "else") then
    if ← check (·.isKeyword "if") then
      let m ← mark
      let parts ← branch g
      return .again ((← finish .ifStatement m parts) :: done)
    else
      let last ← g.parse .statement
      return .done (last :: done)
  else return .done done

theorem otherBranches_eq : otherBranches g = loop (branchRound g) [] := rfl

/-- A round of handlers. -/
def handlerRound (g : Inner) (done : List Node) :
    Parser (Round (List Node) (List Node)) := do
  if ← check (·.isKeyword "catch") then
    let m ← mark
    advance
    if ← check (·.isPunct "(") then
      skipGroup "after exception declaration"
      let body ← block g
      return .again ((← finish .handler m [body]) :: done)
    else failExpected "'(' after 'catch'"
  else return .done done

theorem handlers_eq : handlers g = loop (handlerRound g) [] := rfl

/-- A statement is read as it is written. -/
def Statement.Reads (page : Page) (policy : Policy)
    (s : Statement k o) : Prop := ∀ room i d l ls,
  s.levels ≤ room → l.follows o = true →
  statement (nested policy room) (page.state i d (s.write ++ l :: ls))
    = .ok (s.node page.locate i) (page.state (i + s.length) d (l :: ls))

/-- Branches are read as they are written. -/
def Branches.Reads (page : Page) (policy : Policy)
    (b : Branches n o) : Prop := ∀ room done i d l ls,
  b.levels ≤ room → l.follows o = true →
  loop (branchRound (nested policy room)) done
      (page.state i d (b.write ++ l :: ls))
    = .ok ((b.nodes page.locate i).reverse ++ done)
      (page.state (i + b.length) d (l :: ls))

/-- The items of a block are read as they are written. -/
def Items.Reads (page : Page) (policy : Policy) (items : Items) : Prop :=
  ∀ room bound done i d ls, items.levels ≤ room →
  i + items.length ≤ bound →
  gather policy (some "\x7d") ((nested policy room).parse .statement) bound
      done (page.state i d (items.write ++ .punct "\x7d" :: ls))
    = ⟨done.reverse ++ items.nodes page.locate i,
      page.state (i + items.length) d (.punct "\x7d" :: ls), none⟩

/-- Handlers are read as they are written. -/
def Handlers.Reads (page : Page) (policy : Policy)
    (handlers : Handlers) : Prop := ∀ room done i d l ls,
  handlers.levels ≤ room → l.isKeyword "catch" = false →
  loop (handlerRound (nested policy room)) done
      (page.state i d (handlers.write ++ l :: ls))
    = .ok ((handlers.nodes page.locate i).reverse ++ done)
      (page.state (i + handlers.length) d (l :: ls))

/-- One level deeper a statement is read as a whole. -/
theorem body_read (i d : Nat) (ls : List Lexeme) {s : Statement k o}
    (h : s.Reads page policy)
    (hroom : s.levels + 1 ≤ room) (hl : l.follows o = true) :
    (nested policy room).parse .statement
        (page.state i d (s.write ++ l :: ls))
      = .ok (s.node page.locate i)
        (page.state (i + s.length) d (l :: ls)) := by
  obtain ⟨room, rfl⟩ : ∃ below, room = below + 1 :=
    Nat.exists_eq_add_one_of_ne_zero (by omega)
  exact h room i d l ls (Nat.le_of_succ_le_succ hroom) hl

-- ============================================================= sequences

/-- No directive comes among written tokens. -/
@[simp]
theorem takeDirectives_state (done : List Node) :
    (page.state i d ls).takeDirectives done
      = (done, page.state i d ls) := by
  have hnone (recovered : Bool) :
      directives recovered done i (page.lay i ls)
        = (done, i, page.lay i ls) := by
    cases ls with
    | nil =>
      have hended := page.ended
      unfold Page.lay
      cases h : page.ending with
      | nil => rfl
      | cons t ts =>
        rw [h] at hended
        have hend := hended t rfl
        have hdirective : t.isDirective = false := by grind
        unfold directives
        rw [hdirective]
        rfl
    | cons l ls =>
      rw [Page.lay_cons, directives, l.isDirective_token]
      rfl
  unfold State.takeDirectives Page.state
  rw [hnone]

/-- A sequence does not end in front of a lexeme that is not its closer. -/
theorem endsSequence_state {closer : Option String}
    (hopen : closer.any l.isPunct = false) :
    endsSequence closer (page.state i d (l :: ls)).peek = false := by
  rw [Page.peek_state, endsSequence, l.isEnd_token, Bool.false_or]
  cases closer with
  | none => rfl
  | some w => simpa using hopen

/-- A sequence goes on behind an item. -/
theorem gather_again (closer : Option String) {item : Parser Node}
    {node : Node} {bound d' : Nat} {ls' : List Lexeme}
    (hopen : closer.any l.isPunct = false)
    (hread : item (page.state i d (l :: ls))
      = .ok node (page.state j d' ls'))
    (hmoved : i < j) (hbound : j ≤ bound) (done : List Node) :
    gather policy closer item bound done (page.state i d (l :: ls))
      = gather policy closer item bound (node :: done)
        (page.state j d' ls') := by
  have hpass : (page.state j d' ls').settle.pass i = page.state j d' ls' :=
    if_neg (Nat.not_le_of_lt hmoved)
  rw [gather_eq]
  simp only [takeDirectives_state, endsSequence_state hopen, hread]
  exact (congrArg (proceed policy closer item bound i (node :: done))
    hpass).trans (if_pos ⟨hmoved, hbound⟩)

/-- A sequence ends in front of its closer, or where nothing is left. -/
theorem gather_done {closer : Option String} {item : Parser Node}
    {bound : Nat}
    (h : endsSequence closer (page.state i d ls).peek = true)
    (done : List Node) :
    gather policy closer item bound done (page.state i d ls)
      = ⟨done.reverse, page.state i d ls, none⟩ := by
  rw [gather_eq]
  simp only [takeDirectives_state, h, if_true]

-- ================================================================ blocks

theorem block_read (i d : Nat) (ls : List Lexeme) {items : Items}
    (h : items.Reads page policy) (hroom : items.levels ≤ room) :
    block (nested policy room)
        (page.state i d (inBraces items.write ++ ls))
      = .ok (blockNode page.locate i items.length
          (items.nodes page.locate (i + 1)))
        (page.state (i + (items.length + 2)) d ls) := by
  have hstop : i + 1 + items.length + 1 = i + (items.length + 2) := by
    omega
  have hread : Grammar.sequence policy "\x7d"
      ((nested policy room).parse .statement)
      (page.state (i + 1) (d + 1) (items.write ++ .punct "\x7d" :: ls))
      = .ok (items.nodes page.locate (i + 1))
        (page.state (i + 1 + items.length) (d + 1)
          (.punct "\x7d" :: ls)) := by
    refine sequence_ok ((h room _ [] (i + 1) (d + 1) ls hroom ?_).trans rfl)
    unfold Page.state
    simp [Items.length]
    omega
  unfold block
  simp [inBraces, expectPunct, run_bind hread, hstop]
  rfl

theorem noItem_reads : Items.noItem.Reads page policy := by
  intro room bound done i d ls _ _
  refine (gather_done ?_ done).trans ?_
  · simp [Items.write, endsSequence]
  · simp [Items.write, Items.nodes, Items.length]

/-- A statement among the items of a block. -/
theorem statement_again {s : Statement k o} (h : s.Reads page policy)
    (hroom : s.levels + 1 ≤ room) (hl : l.follows o = true) {bound : Nat}
    (hbound : i + s.length ≤ bound) (done : List Node) :
    gather policy (some "\x7d") ((nested policy room).parse .statement)
        bound done (page.state i d (s.write ++ l :: ls))
      = gather policy (some "\x7d") ((nested policy room).parse .statement)
        bound (s.node page.locate i :: done)
        (page.state (i + s.length) d (l :: ls)) := by
  obtain ⟨l', ls', hwrite, -, hclose, -⟩ := s.opens
  have hread := body_read i d ls h hroom hl
  have hpositive : 0 < s.length := by
    simp [Statement.length, hwrite]
  rw [hwrite, List.cons_append] at hread ⊢
  exact gather_again _ (by simpa using hclose) hread (by omega) hbound done

theorem lastStatement_reads {s : Statement k .label}
    (h : s.Reads page policy) : (Items.lastItem s).Reads page policy := by
  intro room bound done i d ls hroom hbound
  rw [Items.write, statement_again h hroom (by simp [Lexeme.follows]) hbound]
  refine (gather_done ?_ _).trans ?_
  · simp [endsSequence]
  · simp [Items.nodes, Items.length, Items.write, Statement.length]

/-- Behind a statement in a block comes an item or the closing brace. -/
theorem Items.follows (items : Items) (ls : List Lexeme) :
    ∃ l ls', items.write ++ .punct "\x7d" :: ls = l :: ls'
      ∧ l.follows .branch = true := by
  cases items with
  | lastItem s =>
    obtain ⟨l, ls', hwrite, hfollows, -⟩ := s.opens
    exact ⟨l, _, by rw [write, hwrite, List.cons_append], hfollows⟩
  | item s rest =>
    obtain ⟨l, ls', hwrite, hfollows, -⟩ := s.opens
    exact ⟨l, _, by rw [write, hwrite, List.cons_append, List.cons_append],
      hfollows⟩
  | _ => exact ⟨_, _, rfl, by simp [Lexeme.follows]⟩

theorem nextStatement_reads {s : Statement k .branch} {rest : Items}
    (h : s.Reads page policy) (hrest : rest.Reads page policy) :
    (Items.item s rest).Reads page policy := by
  intro room bound done i d ls hroom hbound
  obtain ⟨hroom, hroom'⟩ := Nat.max_le.1 hroom
  obtain ⟨l, ls', hnext, hfollows⟩ := rest.follows ls
  have hlength : s.length + rest.length = (Items.item s rest).length := by
    simp [Statement.length, Items.length, Items.write]
  rw [Items.write, List.append_assoc, hnext,
    statement_again h hroom hfollows (by omega), ← hnext,
    hrest room bound _ _ d ls hroom' (by omega), Nat.add_assoc, hlength]
  simp [Items.nodes]

/-- The label of a case among the items of a block. -/
theorem caseItem_again {value : Expression (.binary binaryLevels)}
    (hroom : max 1 (value.levels 0) + 2 ≤ room) {bound : Nat}
    (hbound : i + 1 + value.length + 1 ≤ bound) (done : List Node) :
    gather policy (some "\x7d") ((nested policy room).parse .statement)
        bound done (page.state i d (.keyword "case"
          :: (value.write ++ .operator ":" :: ls)))
      = gather policy (some "\x7d") ((nested policy room).parse .statement)
        bound (nodeOf page.locate .caseLabel i (value.length + 2)
          [value.node page.locate (i + 1)] :: done)
        (page.state (i + 1 + value.length + 1) d ls) := by
  obtain ⟨room, rfl⟩ : ∃ below, room = below + 1 :=
    Nat.exists_eq_add_one_of_ne_zero (by omega)
  have hcolon : Word.canonical ":" = ":" := by decide
  have hvalue := conditional_read page policy (i + 1) d (.operator ":") ls
    (Nat.le_of_succ_le_succ hroom) (by decide)
  have hread : (nested policy (room + 1)).parse .statement
      (page.state i d (.keyword "case"
        :: (value.write ++ .operator ":" :: ls)))
      = .ok (nodeOf page.locate .caseLabel i (value.length + 2)
          [value.node page.locate (i + 1)])
        (page.state (i + 1 + value.length + 1) d ls) := by
    show statement _ _ = _
    unfold statement keywordStatement caseLabel
    simp [run_bind hvalue, expectOperator, hcolon]
    exact node_state (by omega)
  exact gather_again _ rfl hread (by omega) hbound done

theorem caseItem_reads {value : Expression (.binary binaryLevels)}
    {rest : Items} (hrest : rest.Reads page policy) :
    (Items.caseItem value rest).Reads page policy := by
  intro room bound done i d ls hroom hbound
  obtain ⟨hroom, hroom'⟩ := Nat.max_le.1 hroom
  have hstop : i + 1 + value.length + 1 + rest.length
      = i + (Items.caseItem value rest).length := by
    simp [Expression.length, Items.length, Items.write]
    omega
  rw [Items.write, List.cons_append, List.append_assoc, List.cons_append,
    caseItem_again hroom (by omega),
    hrest room bound _ _ d ls hroom' (by omega), hstop]
  simp [Items.nodes]

/-- The label of the default case among the items of a block. -/
theorem defaultItem_again (hroom : 1 ≤ room) {bound : Nat}
    (hbound : i + 2 ≤ bound) (done : List Node) :
    gather policy (some "\x7d") ((nested policy room).parse .statement)
        bound done
        (page.state i d (.keyword "default" :: .operator ":" :: ls))
      = gather policy (some "\x7d") ((nested policy room).parse .statement)
        bound (nodeOf page.locate .defaultLabel i 2 [] :: done)
        (page.state (i + 2) d ls) := by
  obtain ⟨room, rfl⟩ : ∃ below, room = below + 1 :=
    Nat.exists_eq_add_one_of_ne_zero (Nat.ne_of_gt hroom)
  have hcolon : Word.canonical ":" = ":" := by decide
  have hread : (nested policy (room + 1)).parse .statement
      (page.state i d (.keyword "default" :: .operator ":" :: ls))
      = .ok (nodeOf page.locate .defaultLabel i 2 [])
        (page.state (i + 2) d ls) := by
    show statement _ _ = _
    unfold statement keywordStatement defaultLabel
    simp [expectOperator, hcolon,
      node_state (show i + 1 + 1 = i + 2 from rfl)]
  exact gather_again _ rfl hread (by omega) hbound done

theorem defaultItem_reads {rest : Items} (hrest : rest.Reads page policy) :
    (Items.defaultItem rest).Reads page policy := by
  intro room bound done i d ls hroom hbound
  obtain ⟨hroom, hroom'⟩ := Nat.max_le.1 hroom
  have hstop : i + 2 + rest.length
      = i + (Items.defaultItem rest).length := by
    simp [Items.length, Items.write]
    omega
  rw [Items.write, List.cons_append, List.cons_append,
    defaultItem_again hroom (by omega),
    hrest room bound _ _ d ls hroom' (by omega), hstop]
  simp [Items.nodes]

-- =============================================================== handlers

/-- A round of passing over a group. -/
def groupRound (opener : Token) (context : String) (outer : Nat) :
    Unit → Parser (Round Unit Unit) := fun _ => do
  if (← openGroups) ≤ outer then return .done ()
  else if ← check Token.isEnd then
    failExpected s!"'{closerOf opener}' {context}"
  else
    advance
    return .again ()

theorem skipGroup_eq (context : String) : skipGroup context = (do
    let opener ← peek
    let outer ← openGroups
    advance
    loop (groupRound opener context outer) ()) := rfl

/-- Inside a group the next lexeme is passed over. -/
theorem groupRound_again (opener : Token) (context : String) :
    loop (groupRound opener context d) () (page.state i (d + 1) (l :: ls))
      = loop (groupRound opener context d) ()
        (page.state (i + 1) (l.depthAfter (d + 1)) ls) := by
  refine loop_again ?_ (Nat.lt_succ_self i) (by simp; omega)
  have hdepth : (page.state i (d + 1) (l :: ls)).depth = d + 1 := rfl
  unfold groupRound
  rw [run_openGroups, hdepth, if_neg (by omega), run_check,
    Page.peek_state, l.isEnd_token, if_neg Bool.false_ne_true, run_advance,
    Page.advance_state]
  rfl

/-- A group without other brackets in it is passed over. -/
theorem skipGroup_flat (context : String) (xs : List Lexeme)
    (hflat : ∀ x ∈ xs, ∀ depth, x.depthAfter depth = depth) :
    skipGroup context
        (page.state i d (.punct "(" :: (xs ++ .punct ")" :: ls)))
      = .ok () (page.state (i + (xs.length + 2)) d ls) := by
  have hinner (opener : Token) (j : Nat) :
      loop (groupRound opener context d) ()
          (page.state j (d + 1) (xs ++ .punct ")" :: ls))
        = .ok () (page.state (j + (xs.length + 1)) d ls) := by
    induction xs generalizing j with
    | nil =>
      have hdepth : (page.state (j + 1) d ls).depth = d := rfl
      refine (groupRound_again opener context).trans (loop_done ?_)
      simp [groupRound, hdepth]
    | cons x xs ih =>
      obtain ⟨hx, hxs⟩ := List.forall_mem_cons.1 hflat
      rw [List.cons_append, groupRound_again, hx, ih hxs, List.length_cons,
        Nat.add_right_comm j 1, Nat.add_assoc j]
  have hdepth : (page.state i d
      (.punct "(" :: (xs ++ .punct ")" :: ls))).depth = d := rfl
  have hstop : i + 1 + (xs.length + 1) = i + (xs.length + 2) := by omega
  rw [skipGroup_eq]
  simp [hdepth, hinner, hstop]

/-- One handler. -/
theorem handler_again {items : Items} (h : items.Reads page policy)
    (hroom : items.levels ≤ room) (done : List Node) :
    loop (handlerRound (nested policy room)) done
        (page.state i d (clause "catch" [.operator "..."]
          ++ (inBraces items.write ++ ls)))
      = loop (handlerRound (nested policy room))
        (nodeOf page.locate .handler i (4 + (items.length + 2))
          [blockNode page.locate (i + 4) items.length
            (items.nodes page.locate (i + 5))] :: done)
        (page.state (i + 4 + (items.length + 2)) d ls) := by
  have hgroup : skipGroup "after exception declaration"
      (page.state (i + 1) d (.punct "(" :: .operator "..." :: .punct ")"
        :: (inBraces items.write ++ ls)))
      = .ok () (page.state (i + 4) d (inBraces items.write ++ ls)) :=
    skipGroup_flat "after exception declaration" [.operator "..."] (by simp)
  have hblock := block_read (i + 4) d ls h hroom
  refine loop_again ?_ (by omega)
    (by simp [clause, inBraces, Items.length]; omega)
  unfold handlerRound
  simp [clause, run_bind hgroup, run_bind hblock]
  exact node_state (by omega)

theorem lastHandler_reads {items : Items} (h : items.Reads page policy) :
    (Handlers.lastHandler items).Reads page policy := by
  intro room done i d l ls hroom hl
  have hstop : i + 4 + (items.length + 2)
      = i + (Handlers.lastHandler items).length := by
    simp [Items.length, Handlers.length, Handlers.write, clause, inBraces]
    omega
  rw [Handlers.write, List.append_assoc, handler_again h hroom, hstop]
  refine loop_done ?_
  unfold handlerRound
  rw [run_check, Page.peek_state, Lexeme.isKeyword_token, hl,
    if_neg Bool.false_ne_true]
  simp [Handlers.nodes]

theorem handler_reads {items : Items} {rest : Handlers}
    (h : items.Reads page policy) (hrest : rest.Reads page policy) :
    (Handlers.handler items rest).Reads page policy := by
  intro room done i d l ls hroom hl
  obtain ⟨hroom, hroom'⟩ := Nat.max_le.1 hroom
  have hstop : i + 4 + (items.length + 2) + rest.length
      = i + (Handlers.handler items rest).length := by
    simp [Items.length, Handlers.length, Handlers.write, clause, inBraces]
    omega
  rw [Handlers.write, List.append_assoc, List.append_assoc,
    handler_again h hroom, hrest room _ _ d l ls hroom' hl, hstop]
  simp [Handlers.nodes]

end FrontEnd.Written
