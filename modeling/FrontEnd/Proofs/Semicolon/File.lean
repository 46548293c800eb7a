/-
A declaration without brackets, whatever it is, at the beginning of a file
that is read tolerantly.

The declaration is read up to its semicolon, or given up in front of it
(`parse_stops`). Then the recovery passes over what is left of it, since
there is no bracket to hold it up (`resume_loose`). Either way the reading
goes on behind the semicolon, in the state in which it began but for the
error, and what comes there is read as by itself (`unit_onward`).
-/
import FrontEnd.Proofs.Lockstep.Onward
import FrontEnd.Proofs.Semicolon.Declaration
import FrontEnd.Proofs.Tree.Coverage

namespace FrontEnd

namespace Grammar

-- ================================================================ recovery

theorem Stretch.head_undirected (S : Stretch) :
    (S.inside ++ S.semicolon :: S.outside).head?.any Token.isDirective
      = false := by
  have := S.ends
  cases hinside : S.inside with
  | nil =>
    show S.semicolon.isDirective = false
    grind
  | cons t W =>
    have := S.loose t (by simp [hinside])
    show t.isDirective = false
    grind

/-- Skipping passes over tokens without brackets and ends behind their
semicolon. -/
theorem resume_loose {base depth : Nat} (hdepth : depth ≤ base)
    {W X : List Token} {semicolon : Token}
    (loose : ∀ t ∈ W, t.isLoose = true)
    (hsemicolon : semicolon.isPunct ";" = true) (index : Nat) :
    resume base index depth (W ++ semicolon :: X)
      = (index + W.length + 1, depth, X) := by
  induction W generalizing index with
  | nil =>
    rw [List.nil_append, resume, if_neg (by grind), if_neg (by grind),
      if_pos hdepth, if_pos hsemicolon]
    rfl
  | cons t W ih =>
    have ht := loose t List.mem_cons_self
    rw [List.cons_append, resume, if_neg (by grind), if_neg (by grind),
      if_pos hdepth, if_neg (by grind), if_neg (by grind),
      if_neg (by grind), depthAfter_of_not_bracket (by grind),
      ih fun u hu => loose u (List.mem_cons_of_mem _ hu), List.length_cons]
    congr 1
    omega

/-- An error in front of the semicolon is caught behind it. -/
theorem Stretch.Holds.recover {S : Stretch} {s : State} (h : S.Holds s)
    {base : Nat} (hdepth : S.origin.depth ≤ base) (e : SyntaxError) :
    s.recover base e = { S.behind with
      phase := .recovering, recovered := true
      errors := if S.origin.phase = .normal then S.origin.errors.push e
        else S.origin.errors } := by
  obtain ⟨V, W, hVW, rfl⟩ := h
  have loose : ∀ t ∈ W, t.isLoose = true := fun t ht =>
    S.loose t (hVW ▸ List.mem_append_right V ht)
  have hresume := resume_loose hdepth (X := S.outside) loose S.ends
    (S.origin.position + V.length)
  unfold State.recover Stretch.between Stretch.behind
  dsimp only
  rw [hresume, ← hVW, List.length_append, Nat.add_assoc S.origin.position]

-- =================================================================== units

section

variable {S : Stretch} {tokens : List Token}
  (hrest : tokens = S.inside ++ S.semicolon :: S.outside)
include hrest

theorem Stretch.length_unit :
    tokens.length = S.outside.length + (S.inside.length + 1) := by
  rw [hrest, List.length_append, List.length_cons]
  omega

variable (horigin : S.origin = .start tokens)
include horigin

theorem Stretch.holds_start : S.Holds (.start tokens) := by
  have h : S.origin.rest = S.inside ++ S.semicolon :: S.outside := by
    rw [horigin]
    exact hrest
  exact horigin ▸ S.holds_origin h

/-- The reading goes on behind the semicolon, whatever else becomes of the
state. -/
theorem Stretch.onto {s : State} (hs : s.rest = S.behind.rest)
    (hposition : s.position = S.behind.position)
    (hsize : s.size = S.behind.size) :
    Onto S.outside (S.inside.length + 1) s where
  rest := hs
  position := by
    rw [hposition, behind, horigin]
    show 0 + S.inside.length + 1 = _
    omega
  size := by
    rw [hsize, behind, horigin]
    exact S.length_unit hrest
  moved := Nat.succ_pos _

variable (hclean : (declarations S.outside [] (.start S.outside)).error
  = none)
include hclean

/-- The declaration in front of the semicolon is read, or reported and left
out. -/
theorem Stretch.unit :
    let file := ParseOutcome.ofTokens .tolerant tokens
    let items := (declarations S.outside [] (.start S.outside)).items
    (∃ n : Node, (n.first = 0 ∨ Led tokens 0 n)
        ∧ n.stop = S.inside.length + 1 ∧ file.errors = []
        ∧ file.tree.children
          = n :: items.map (Node.displace (S.inside.length + 1) false))
      ∨ ∃ d : SyntaxError, d.found ∈ S.inside ++ [S.semicolon]
        ∧ file.errors = [d]
        ∧ file.tree.children
          = items.map (Node.displace (S.inside.length + 1) true) := by
  intro file items
  have hstart := S.holds_start hrest horigin
  have hlength := S.length_unit hrest
  have hdirective := S.head_undirected
  rw [← hrest] at hdirective
  have hend : (State.start tokens).peek.isEnd = false := by
    have := hstart.peek_loose
    grind
  have hread :=
    (parse_concludes .tolerant maxNesting _ _).runs hstart rfl rfl
  cases hparse : parse .tolerant maxNesting .declaration (.start tokens) with
  | ok n after =>
    rw [hparse] at hread
    obtain rfl : after = S.behind := hread
    have honto : Onto S.outside (S.inside.length + 1) S.behind :=
      S.onto hrest horigin rfl rfl rfl
    have hmade := (parse_yields tokens .tolerant maxNesting .declaration _
      (.start tokens)).value hparse
    obtain ⟨hfirst, hstop⟩ := declaration_tiles (.start tokens)
      hstart.mark_index hmade hparse
    obtain ⟨herrors, hchildren⟩ := unit_item hlength hclean hdirective hend
      hparse (by rw [Stretch.behind, horigin]; rfl) honto
    left
    refine ⟨n, hfirst, hstop.trans honto.position, ?_, ?_⟩
    · rw [herrors, Stretch.behind, horigin]
      rfl
    · rw [hchildren, Stretch.behind, horigin]
      rfl
  | error d after =>
    rw [hparse] at hread
    obtain ⟨hholds, hfound⟩ := hread
    have hdepth : S.origin.depth ≤ 0 := by
      rw [horigin]
      exact Nat.le_refl 0
    have hrecover := hholds.recover hdepth d
    obtain ⟨herrors, hchildren⟩ := unit_error hlength hclean hdirective hend
      hparse (by
        rw [hrecover]
        exact S.onto hrest horigin rfl rfl rfl)
    right
    refine ⟨d, hfound ▸ hholds.peek_mem, ?_, hchildren⟩
    rw [herrors, hrecover, horigin]
    rfl

end

end Grammar

-- ==================================================================== files

open Grammar in
/-- A declaration of whatever tokens, among which there are no brackets, is
either read up to its semicolon or reported once and left out. What comes
behind it is read as by itself in both cases. -/
theorem declaration_contained {G B : List Token} {semicolon e : Token}
    (loose : ∀ t ∈ G, t.isLoose = true)
    (hsemicolon : semicolon.isPunct ";" = true) (he : e.isEnd = true)
    (clean : (ParseOutcome.ofTokens .strict B).errors = []) :
    let tokens := G ++ semicolon :: (B ++ [e])
    let file := ParseOutcome.ofTokens .tolerant tokens
    let items := (ParseOutcome.ofTokens .strict B).tree.children
    (∃ n : Node, (n.first = 0 ∨ Led tokens 0 n) ∧ n.stop = G.length + 1
        ∧ file.errors = []
        ∧ file.tree.children
          = n :: items.map (Node.displace (G.length + 1) false))
      ∨ ∃ d : SyntaxError, d.found ∈ G ++ [semicolon]
        ∧ file.errors = [d]
        ∧ file.tree.children
          = items.map (Node.displace (G.length + 1) true) := by
  intro tokens file items
  rw [ParseOutcome.strict_errors_iff] at clean
  obtain ⟨herror, hitems⟩ := declarations_append_end he clean
  have hunit := Stretch.unit (S := ⟨.start tokens, G, semicolon, B ++ [e],
    loose, hsemicolon⟩) rfl rfl herror
  dsimp only at hunit
  rwa [hitems] at hunit

open Grammar Written Lexeme in
/-- `int x = + ; int y ;`: the first declaration has an operator too many. -/
theorem declaration_contained_operator :
    let G := heap [keyword "int", name "x", operator "=", operator "+"]
    let B := heap [keyword "int", name "y", punct ";"]
    let semicolon := (punct ";").token (⟨0, 0⟩, .start)
    let tokens := G ++ semicolon :: (B ++ [.endOfInput])
    let file := ParseOutcome.ofTokens .tolerant tokens
    let items := (ParseOutcome.ofTokens .strict B).tree.children
    (∀ t ∈ G, t.isLoose = true)
      ∧ semicolon.isPunct ";" = true
      ∧ Token.endOfInput.isEnd = true
      ∧ (ParseOutcome.ofTokens .strict B).errors = []
      ∧ ((∃ n : Node, (n.first = 0 ∨ Led tokens 0 n)
          ∧ n.stop = G.length + 1 ∧ file.errors = []
          ∧ file.tree.children
            = n :: items.map (Node.displace (G.length + 1) false))
        ∨ ∃ d : SyntaxError, d.found ∈ G ++ [semicolon]
          ∧ file.errors = [d]
          ∧ file.tree.children
            = items.map (Node.displace (G.length + 1) true)) := by
  intro G B semicolon tokens file items
  have loose : ∀ t ∈ G, t.isLoose = true := by decide
  have hsemicolon : semicolon.isPunct ";" = true := by decide
  have clean : (ParseOutcome.ofTokens .strict B).errors = [] := by
    decide +kernel
  exact ⟨loose, hsemicolon, rfl, clean,
    declaration_contained loose hsemicolon rfl clean⟩

end FrontEnd
