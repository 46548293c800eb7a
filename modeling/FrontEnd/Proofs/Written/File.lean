/-
Files of declarations are read as they are written, or refused because
they nest too deep (`declarations_parsed`).
-/
import FrontEnd.Proofs.Written.DeclarationDepth

namespace FrontEnd.Written

open Grammar

/-- The tree of a file that has nothing but these declarations. -/
def Page.declarationUnit (page : Page) (body : Declarations) : Node :=
  { kind := .unit, first := 0, stop := body.length + page.ending.length
    location := .start, recovered := false
    children := body.nodes page.locate 0 }

section

variable (page : Page) (body : Declarations)

theorem Page.start_declarations :
    State.start (page.lay 0 body.write)
      = page.state 0 0 (body.write ++ []) := by
  rw [← page.state_zero, List.append_nil]

theorem Page.length_declarations :
    (page.lay 0 body.write).length = body.length + page.ending.length :=
  page.length_lay 0 body.write

/-- Declarations that nest no deeper than the grammar allows are read as
they are written. -/
theorem Declarations.parsed (h : body.levels ≤ maxNesting)
    (policy : Policy) :
    ParseOutcome.ofTokens policy (page.lay 0 body.write)
      = { tree := page.declarationUnit body
          errors := [], phase := .normal } := by
  have hparse : parse policy maxNesting .declaration
      = (nested policy maxNesting).parse .declaration := rfl
  have hlength := page.length_declarations body
  have hcloser : none ≠ some ";" := (Option.some_ne_none _).symm
  have hend : endsSequence none
      (page.state (0 + body.length) 0 []).peek = true := by
    rw [endsSequence, page.peek_state_nil, Bool.true_or]
  have hgather := body.reads page policy maxNesting none
    (page.lay 0 body.write).length [] 0 0 [] h hcloser (by omega) hend
  rw [← page.start_declarations body, ← hparse] at hgather
  unfold ParseOutcome.ofTokens
  rw [hgather, hlength]
  rfl

/-- Declarations that nest deeper are refused. -/
theorem Declarations.not_parsed (h : maxNesting < body.levels) :
    ∃ t, ⟨.nestingTooDeep, t⟩
      ∈ (ParseOutcome.ofTokens .strict (page.lay 0 body.write)).errors := by
  have hparse : parse .strict maxNesting .declaration
      = (nested .strict maxNesting).parse .declaration := rfl
  have hlength := page.length_declarations body
  have hcloser : none ≠ some ";" := (Option.some_ne_none _).symm
  have hgather := body.refused page maxNesting none
    (page.lay 0 body.write).length [] 0 0 [] h hcloser (by omega)
  rw [← page.start_declarations body, ← hparse] at hgather
  obtain ⟨items, s, t, hgather⟩ := hgather
  refine ⟨t, ?_⟩
  unfold ParseOutcome.ofTokens
  rw [hgather]
  simp

end

/-- A file of declarations is read as it is written if it nests no deeper
than the grammar allows: there is no error, and the tree is the one that
the declarations were written for, with the items of each body in order and
each node at the tokens that were written for it. If it nests deeper, that
is the error. -/
theorem declarations_parsed (page : Page) (body : Declarations) :
    (body.levels ≤ maxNesting → ∀ policy,
      ParseOutcome.ofTokens policy (page.lay 0 body.write)
        = { tree := page.declarationUnit body
            errors := [], phase := .normal })
    ∧ (maxNesting < body.levels → ∃ t, ⟨.nestingTooDeep, t⟩
      ∈ (ParseOutcome.ofTokens .strict (page.lay 0 body.write)).errors) :=
  ⟨body.parsed page, body.not_parsed page⟩

/-- The file
`namespace { extern "C" { template <typename T> struct N { public: int f() { break; } }; } }`
`enum E { A, B = 1 }; int n = 2; ;`. -/
def Declarations.sample : Declarations :=
  .declaration (.namespace none
      (.declaration (.linkage "\"C\""
        (.declaration (.template "T" (.structure "N"
          (.label .isPublic
            (.member (.function "f" (.item (k := false) .breaks .noItem))
              .noMember))))
          .noDeclaration))
        .noDeclaration))
    (.declaration (.enumeration "E"
        (.nextName ⟨"A", none⟩ (.lastName ⟨"B", some (.literal "1")⟩)))
      (.declaration (.initialized "n" (.simple (.literal "2")))
        (.declaration .empty .noDeclaration)))

theorem declarations_parsed_sample :
    Declarations.sample.levels ≤ maxNesting
      ∧ ParseOutcome.ofTokens .strict
          (Page.line.lay 0 Declarations.sample.write)
        = { tree := Page.line.declarationUnit .sample
            errors := [], phase := .normal } :=
  ⟨by decide, (declarations_parsed .line .sample).1 (by decide) .strict⟩

end FrontEnd.Written
