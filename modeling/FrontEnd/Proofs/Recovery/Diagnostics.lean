/-
The diagnostics of a file that is read on behind its errors.

Syntax errors are reported at tokens in their order, each at another token
(`errors_sublist`), so that they come in reading order, no two of them at
the same place. Lexical errors come in reading order as well
(`TokenStream.errors_ordered`), but may share a place. The two are put
together by a stable sort, which leaves alone what is in order already
(`Analysis.filter_arrange`): each of the two groups, and whatever stands at
one place.
-/
import FrontEnd.Analysis
import FrontEnd.Proofs.Recovery.Reports
import FrontEnd.Proofs.Sorting
import FrontEnd.Proofs.Token.ReadingOrder

namespace FrontEnd

namespace Analysis

variable {diagnostics : List Diagnostic}

-- =============================================================== arranging

theorem arrange_perm (diagnostics : List Diagnostic) :
    (arrange diagnostics).Perm diagnostics :=
  List.mergeSort_perm diagnostics _

theorem arrange_ordered (diagnostics : List Diagnostic) :
    (arrange diagnostics).Pairwise
      fun d d' => d.location.le d'.location = true :=
  List.pairwise_mergeSort
    (fun a b c => a.location.le_trans b.location c.location)
    (fun a b => a.location.le_total b.location) diagnostics

/-- Diagnostics that are in order keep it among others. -/
theorem filter_arrange {p : Diagnostic → Bool}
    (h : (diagnostics.filter p).Pairwise
      fun d d' => d.location.le d'.location = true) :
    (arrange diagnostics).filter p = diagnostics.filter p :=
  mergeSort_filter_of_pairwise
    (fun a b c => a.location.le_trans b.location c.location)
    (fun a b => a.location.le_total b.location) h

/-- Diagnostics at one place keep their order. -/
theorem arrange_pairwise {R : Diagnostic → Diagnostic → Prop}
    (h : diagnostics.Pairwise R) :
    (arrange diagnostics).Pairwise fun d d' =>
      d.location.le d'.location = true
        ∧ (d.location = d'.location → R d d') := by
  refine (mergeSort_pairwise
    (fun a b c => a.location.le_trans b.location c.location)
    (fun a b => a.location.le_total b.location) h).imp ?_
  rintro d d' ⟨hle, htied⟩
  exact ⟨hle, fun hplace => htied (hplace ▸ d.location.le_refl)⟩

-- ========================================================= the two groups

section

variable {lexical : List LexicalError} {syntactic : List SyntaxError}

theorem filter_lexical : (lexical.map Diagnostic.lexical
    ++ syntactic.map Diagnostic.syntactic).filter (·.isLexical)
    = lexical.map .lexical := by
  simp [List.filter_map, Function.comp_def, Diagnostic.isLexical]

theorem filter_syntactic : (lexical.map Diagnostic.lexical
    ++ syntactic.map Diagnostic.syntactic).filter (!·.isLexical)
    = syntactic.map .syntactic := by
  simp [List.filter_map, Function.comp_def, Diagnostic.isLexical]

theorem lexical_kept
    (h : lexical.Pairwise fun e e' => e.location.le e'.location = true) :
    (arrange (lexical.map .lexical ++ syntactic.map .syntactic)).filter
      (·.isLexical) = lexical.map .lexical := by
  refine (filter_arrange ?_).trans filter_lexical
  rw [filter_lexical]
  exact List.pairwise_map.2 h

theorem syntactic_kept
    (h : syntactic.Pairwise fun e e' => e.location.le e'.location = true) :
    (arrange (lexical.map .lexical ++ syntactic.map .syntactic)).filter
      (!·.isLexical) = syntactic.map .syntactic := by
  refine (filter_arrange ?_).trans filter_syntactic
  rw [filter_syntactic]
  exact List.pairwise_map.2 h

/-- Lexical errors come in front of syntax errors at the same place. -/
theorem lexical_first :
    (arrange (lexical.map .lexical ++ syntactic.map .syntactic)).Pairwise
      fun d d' => d.location = d'.location → d'.isLexical = true →
        d.isLexical = true := by
  have hfirst : (lexical.map Diagnostic.lexical
      ++ syntactic.map Diagnostic.syntactic).Pairwise
      fun d d' => d'.isLexical = true → d.isLexical = true := by
    refine List.pairwise_append.2 ⟨?_, ?_, ?_⟩
    · exact List.pairwise_map.2 (List.pairwise_of_forall fun _ _ _ => rfl)
    · exact List.pairwise_map.2 (List.pairwise_of_forall fun _ _ => nofun)
    · intro d hd _ _ _
      obtain ⟨e, -, rfl⟩ := List.mem_map.1 hd
      rfl
  exact (arrange_pairwise hfirst).imp fun h hplace => h.2 hplace

end

-- =================================================== the errors of a text

variable (cs : List Char)

/-- The syntax errors that a tolerant reading of a text reports. -/
abbrev syntaxErrors : List SyntaxError :=
  (ParseOutcome.ofTokens .tolerant (TokenStream.ofText cs).tokens).errors

/-- What is true of two tokens that come one behind the other is true of
the tokens that two errors were noticed at. -/
theorem syntaxErrors_pairwise {R : Token → Token → Prop}
    (h : (TokenStream.ofText cs).tokens.Pairwise R) :
    (syntaxErrors cs).Pairwise fun e e' => R e.found e'.found :=
  List.pairwise_map.1 (h.sublist
    (Grammar.errors_sublist (TokenStream.exists_end cs)))

/-- Behind an error at the end of the text there is no other. -/
theorem syntaxErrors_end {e : SyntaxError} (he : e ∈ syntaxErrors cs)
    (hend : e.found.isEnd = true) :
    (syntaxErrors cs).getLast? = some e := by
  have hpairwise := syntaxErrors_pairwise cs
    (TokenStream.tokens_unended cs)
  obtain ⟨front, last, heq⟩ := (List.eq_nil_or_concat
    (syntaxErrors cs)).resolve_left (List.ne_nil_of_mem he)
  rw [List.concat_eq_append] at heq
  rw [heq] at hpairwise he ⊢
  rw [List.getLast?_concat]
  rcases List.mem_append.1 he with he | he
  · have := (List.pairwise_append.1 hpairwise).2.2 e he last
      (List.mem_singleton_self _)
    rw [hend] at this
    cases this
  · rw [List.mem_singleton.1 he]

-- ================================================== the errors of a file

/-- A file that is read on behind its errors has its syntax errors at
tokens, in strictly increasing reading order, one at the end of the text
being the last. The diagnostics are all the lexical and all the syntax
errors, in reading order; each of the two groups keeps its order, and at
one place lexical errors come first. -/
theorem ofSource_diagnostics (source : SourceFile) :
    let a := ofSource .tolerant source
    let errors := (ParseOutcome.ofTokens .tolerant a.stream.tokens).errors
    (errors.map SyntaxError.found).Sublist a.stream.tokens
      ∧ errors.Pairwise (fun e e' => e.location.Before e'.location)
      ∧ (∀ e ∈ errors, e.found.isEnd = true → errors.getLast? = some e)
      ∧ a.diagnostics.Pairwise (fun d d' =>
        d.location.le d'.location = true
          ∧ (d.location = d'.location → d'.isLexical = true →
            d.isLexical = true))
      ∧ a.diagnostics.Perm
        (a.stream.errors.map .lexical ++ errors.map .syntactic)
      ∧ a.diagnostics.filter (·.isLexical) = a.stream.errors.map .lexical
      ∧ a.diagnostics.filter (!·.isLexical) = errors.map .syntactic := by
  intro a errors
  have hbefore : errors.Pairwise
      fun e e' => e.location.Before e'.location :=
    syntaxErrors_pairwise source.text (TokenStream.tokens_before _)
  refine ⟨?_, hbefore, ?_, ?_, arrange_perm _, ?_, ?_⟩
  · exact Grammar.errors_sublist (TokenStream.exists_end _)
  · exact fun e he hend => syntaxErrors_end source.text he hend
  · exact (arrange_ordered _).and lexical_first
  · exact lexical_kept (TokenStream.errors_ordered _)
  · exact syntactic_kept (hbefore.imp Location.Before.le)

end Analysis

end FrontEnd
