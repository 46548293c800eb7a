/-
What the built-in rules report on a file.

Run together they find the syntax errors, that the file could not be
decoded, and the uses of `goto`, in this order (`found_builtIn`); the sort
behind the run puts them in the order of lines and leaves them in this
order within a line. Syntax errors and `goto` statements come in the order
of the text already, so that the sort keeps each of the two as a list. That
no `goto` is reported twice is a matter of the tree: a node of a `goto` has
nothing below it, so that the next one begins behind its end.
-/
import Mathlib.Data.List.Forall2
import FrontEnd.Proofs.Check.Dispatch
import FrontEnd.Proofs.Course.Unit
import FrontEnd.Proofs.Recovery.Diagnostics

namespace FrontEnd

/-- A violation comes in the order of lines, one without a line first; on
a line syntax errors come first. -/
structure Violation.InOrder (v w : Violation) : Prop where
  line : ∀ k, v.line = some k → ∃ k', w.line = some k' ∧ k ≤ k'
  syntaxFirst : v.line = w.line → w.rule = "ParsingError" →
    v.rule = "ParsingError"

/-- A violation is about the `goto` at an index of the token list, with a
name and a semicolon behind it, directives aside. -/
structure Violation.AboutJump (tokens : List Token) (v : Violation)
    (index : Nat) : Prop where
  word : ∃ t, tokens[index]? = some t ∧ t.isKeyword "goto" = true
    ∧ v.line = some t.location.line
  label : (Grammar.tokenAt 1 (tokens.drop index)).isName = true
  semicolon :
    (Grammar.tokenAt 2 (tokens.drop index)).isPunct ";" = true

theorem Violation.line_of_precedes {v w : Violation}
    (h : Registry.precedes v w) :
    ∀ k, v.line = some k → ∃ k', w.line = some k' ∧ k ≤ k' := by
  grind [Registry.precedes]

namespace Analysis

-- ================================================================= reports

section
variable (a : Analysis)

/-- The report that the file could not be decoded, if that is so. -/
def encodingReports : List Violation :=
  if a.source.decodeError then
    [⟨none, "FileEncoding", s!"Not all characters of the file can be encoded with the predefined charset {a.source.charset.name}."⟩]
  else []

/-- A report of each of the syntax errors, at its line and in its
words. -/
def syntaxReports : List Violation :=
  (a.diagnostics.filter (!·.isLexical)).map fun d =>
    ⟨some d.location.line, "ParsingError", d.message⟩

/-- A report of each `goto` statement of the tree. -/
def jumpReports : List Violation :=
  (a.tree.findAll .gotoStatement).map fun n =>
    ⟨some n.location.line, "GotoStatement", "Remove this use of \"goto\"."⟩

/-- All that is to be reported. -/
def reports : List Violation :=
  a.syntaxReports ++ a.encodingReports ++ a.jumpReports

end

-- ================================================== what the rules find

/-- The built-in rules, of which the last was asked some times. -/
def builtInAfter (count : Nat) : List Check :=
  [⟨.parsingError, 0⟩, ⟨.fileEncoding, 0⟩, ⟨.gotoStatement, count⟩]

/-- Only the rule about `goto` is asked at nodes. -/
theorem round_builtIn (n : Node) (count : Nat) :
    Registry.answerRound (·.visits n) (builtInAfter count)
      = if n.kind == .gotoStatement then
          (builtInAfter (count + 1), Rule.gotoStatement.visit (count + 1) n)
        else (builtInAfter count, []) := by
  have hvisits : Rule.gotoStatement.visits n
      = if n.kind == .gotoStatement then [.visit n] else [] := by
    cases hkind : n.kind == .gotoStatement with
    | true => simp [Rule.visits, Rule.kinds, beq_iff_eq.1 hkind]
    | false =>
      have hcount : [NodeKind.gotoStatement].count n.kind = 0 :=
        List.count_eq_zero.2 (by simpa using beq_eq_false_iff_ne.1 hkind)
      simp [Rule.visits, Rule.kinds, hcount]
  rw [builtInAfter, Registry.answerRound]
  simp only [List.map_cons, List.map_nil, List.flatMap_cons,
    List.flatMap_nil, hvisits]
  cases n.kind == .gotoStatement <;> rfl

theorem found_nodes (ns : List Node) (count : Nat) :
    ∃ count', Registry.answerRounds (ns.map fun n r => r.visits n)
      (builtInAfter count)
      = (builtInAfter count',
        (ns.filter (·.kind == .gotoStatement)).map fun n =>
          ⟨some n.location.line, "GotoStatement",
            "Remove this use of \"goto\"."⟩) := by
  induction ns generalizing count with
  | nil => exact ⟨count, rfl⟩
  | cons n ns ih =>
    rw [List.map_cons, Registry.answerRounds_cons, round_builtIn,
      List.filter_cons]
    split
    case isTrue =>
      obtain ⟨count', heq⟩ := ih (count + 1)
      exact ⟨count', by rw [heq]; rfl⟩
    case isFalse =>
      obtain ⟨count', heq⟩ := ih count
      exact ⟨count', by rw [heq]; rfl⟩

/-- The built-in rules find the syntax errors, that the file could not be
decoded, and the uses of `goto`, in this order. -/
theorem found_builtIn (a : Analysis) :
    (Registry.answerRounds (Registry.rounds a) Registry.builtIn.checks).2
      = a.reports := by
  have henter : Registry.answerRound (fun _ => [.enter a])
      Registry.builtIn.checks
      = (builtInAfter 0, a.syntaxReports ++ a.encodingReports) := by
    simp [Registry.answerRound, Registry.builtIn, Rule.builtIn,
      builtInAfter, Check.ofRule, Check.answerAll_cons, Check.answer,
      Rule.enter, Rule.onLine, Rule.onFile, Rule.key, syntaxReports,
      encodingReports]
  obtain ⟨count, hnodes⟩ := found_nodes a.tree.preorder 0
  have hleave : Registry.answerRounds [fun _ => [.leave]]
      (builtInAfter count) = (builtInAfter count, []) := rfl
  rw [Registry.rounds, List.cons_append, Registry.answerRounds_cons,
    henter, Registry.answerRounds_append, hnodes, hleave, List.append_nil,
    ← Node.descendants_eq]
  rfl

theorem violations_eq (a : Analysis) :
    a.violations = a.reports.mergeSort Registry.precedes := by
  rw [violations, Registry.run_eq, found_builtIn]

-- ====================================================== rules told apart

section
variable (a : Analysis)

theorem encodingReports_rule :
    ∀ v ∈ a.encodingReports, v.rule = "FileEncoding" := by
  intro v hv
  unfold encodingReports at hv
  split at hv
  case isTrue => rw [List.mem_singleton.1 hv]
  case isFalse => cases hv

theorem syntaxReports_rule :
    ∀ v ∈ a.syntaxReports, v.rule = "ParsingError" := by
  intro v hv
  obtain ⟨d, -, rfl⟩ := List.mem_map.1 hv
  rfl

theorem jumpReports_rule :
    ∀ v ∈ a.jumpReports, v.rule = "GotoStatement" := by
  intro v hv
  obtain ⟨n, -, rfl⟩ := List.mem_map.1 hv
  rfl

theorem filter_reports (key : String) :
    a.reports.filter (·.rule == key)
      = (if "ParsingError" = key then a.syntaxReports else [])
        ++ (if "FileEncoding" = key then a.encodingReports else [])
        ++ (if "GotoStatement" = key then a.jumpReports else []) := by
  rw [reports, List.filter_append, List.filter_append,
    Registry.filter_rule a.syntaxReports_rule,
    Registry.filter_rule a.encodingReports_rule,
    Registry.filter_rule a.jumpReports_rule]

/-- Reports of one rule that are in order are left so. -/
theorem filter_violations {key : String} {found : List Violation}
    (hfound : a.reports.filter (·.rule == key) = found)
    (horder : found.Pairwise fun v w => Registry.precedes v w) :
    a.violations.filter (·.rule == key) = found := by
  rw [violations_eq, mergeSort_filter_of_pairwise Registry.precedes_trans
    Registry.precedes_total (hfound ▸ horder), hfound]

/-- Syntax errors are found first. -/
theorem reports_pairwise : a.reports.Pairwise fun v w =>
    w.rule = "ParsingError" → v.rule = "ParsingError" := by
  rw [reports, List.append_assoc]
  refine List.pairwise_append.2 ⟨?_, ?_, fun v hv _ _ _ =>
    a.syntaxReports_rule v hv⟩
  · refine List.pairwise_of_forall_mem_list fun v hv _ _ _ => ?_
    exact a.syntaxReports_rule v hv
  · refine List.pairwise_of_forall_mem_list fun v _ w hw h => ?_
    rcases List.mem_append.1 hw with hw | hw
    · exact absurd ((a.encodingReports_rule w hw).symm.trans h) (by decide)
    · exact absurd ((a.jumpReports_rule w hw).symm.trans h) (by decide)

theorem violations_inOrder : a.violations.Pairwise Violation.InOrder := by
  rw [violations_eq]
  refine (mergeSort_pairwise Registry.precedes_trans
    Registry.precedes_total a.reports_pairwise).imp ?_
  rintro v w ⟨hle, htied⟩
  refine ⟨Violation.line_of_precedes hle, fun hline => htied ?_⟩
  grind [Registry.precedes]

end

-- ====================================================== the uses of `goto`

section
variable (policy : Policy) (source : SourceFile)

/-- Where the `goto` statements of a file begin. -/
def jumpPlaces (a : Analysis) : List Nat :=
  (a.tree.findAll .gotoStatement).map (·.first)

/-- The nodes of `goto` statements are at jumps of the token list. -/
theorem jumps_sound : ∀ n ∈ (ofSource policy source).tree.findAll
    .gotoStatement, n.Sound (ofSource policy source).stream.tokens
      ∧ n.IsJump (ofSource policy source).stream.tokens := by
  intro n hn
  obtain ⟨hmem, hkind⟩ := List.mem_filter.1 hn
  rw [beq_iff_eq] at hkind
  rw [Node.descendants_eq] at hmem
  rcases tree_mem_preorder policy _ hmem with rfl | hsound
  · cases hkind
  · exact ⟨hsound, hsound.jump hkind⟩

/-- No two of them begin at one token. -/
theorem jumpPlaces_increasing :
    (ofSource policy source).jumpPlaces.Pairwise (· < ·) := by
  refine List.pairwise_map.2 ?_
  have hahead : ((ofSource policy source).tree.findAll
      .gotoStatement).Pairwise Node.Ahead := by
    unfold Node.findAll
    rw [Node.descendants_eq]
    exact (tree_preorder_pairwise policy _).filter _
  refine hahead.imp_of_mem fun {n m} hn _ h => ?_
  obtain ⟨hsound, hjump⟩ := jumps_sound policy source n hn
  exact hsound.nonempty.trans_le (h.leaf hjump.childless)

/-- What is reported for a `goto` statement has the line of its token. -/
theorem jumpReports_places :
    List.Forall₂
      (Violation.AboutJump (ofSource policy source).stream.tokens)
      (ofSource policy source).jumpReports
      (ofSource policy source).jumpPlaces := by
  unfold jumpReports jumpPlaces
  rw [List.forall₂_map_left_iff, List.forall₂_map_right_iff,
    List.forall₂_same]
  intro n hn
  obtain ⟨hsound, hjump⟩ := jumps_sound policy source n hn
  obtain ⟨t, ht, hword⟩ := hjump.word
  have hlocation := hsound.placed.location
  rw [ht, Option.map_some, Option.some.injEq] at hlocation
  exact ⟨⟨t, ht, hword, by rw [hlocation]⟩, hjump.label, hjump.semicolon⟩

/-- Along increasing places of a text the lines do not decrease. -/
theorem jumpReports_ordered :
    (ofSource policy source).jumpReports.Pairwise
      fun v w => Registry.precedes v w := by
  have hbefore := List.pairwise_iff_getElem.1
    (TokenStream.tokens_before source.text)
  have hplaces := List.pairwise_map.1 (jumpPlaces_increasing policy source)
  refine List.pairwise_map.2 (hplaces.imp_of_mem ?_)
  intro n m hn hm hfirst
  have hplaced := (jumps_sound policy source n hn).1.placed
  have hplaced' := (jumps_sound policy source m hm).1.placed
  obtain ⟨t, ht, hlocation⟩ := Option.map_eq_some_iff.1 hplaced.location
  obtain ⟨u, hu, hlocation'⟩ := Option.map_eq_some_iff.1 hplaced'.location
  obtain ⟨hi, rfl⟩ := List.getElem?_eq_some_iff.1 ht
  obtain ⟨hj, rfl⟩ := List.getElem?_eq_some_iff.1 hu
  have hlines : n.location.le m.location = true := by
    rw [← hlocation, ← hlocation']
    exact (hbefore n.first m.first hi hj hfirst).le
  rw [Location.le_iff] at hlines
  have hline : n.location.line ≤ m.location.line := by omega
  simpa [Registry.precedes] using hline

end

-- ============================================================== the reports

/-- The reports of syntax errors are in order. -/
theorem syntaxReports_ordered (policy : Policy) (source : SourceFile) :
    (ofSource policy source).syntaxReports.Pairwise
      fun v w => Registry.precedes v w := by
  refine List.pairwise_map.2 (((arrange_ordered _).filter _).imp ?_)
  intro d d' h
  rw [Location.le_iff] at h
  have hline : d.location.line ≤ d'.location.line := by omega
  simpa [Registry.precedes] using hline

/-- The built-in rules report on a file one violation without a line if
it could not be decoded, one for each syntax error at its line and in its
words, and one for each `goto` statement of the tree, and nothing else.
They come in the order of lines, the one without a line first, and on a
line syntax errors come in front of `goto` statements; each of the rules
has its violations in the order of the text. Those about `goto` statements
belong to as many tokens of the text, each a `goto` at the line of its
violation with a name and a semicolon behind it, directives aside. -/
theorem ofSource_violations (policy : Policy) (source : SourceFile) :
    let a := ofSource policy source
    a.violations.Perm
        (a.encodingReports ++ a.syntaxReports ++ a.jumpReports)
      ∧ a.violations.filter (·.rule == "FileEncoding") = a.encodingReports
      ∧ a.violations.filter (·.rule == "ParsingError") = a.syntaxReports
      ∧ a.violations.filter (·.rule == "GotoStatement") = a.jumpReports
      ∧ a.violations.Pairwise Violation.InOrder
      ∧ ∃ places : List Nat, places.Pairwise (· < ·)
        ∧ List.Forall₂ (Violation.AboutJump a.stream.tokens)
          a.jumpReports places := by
  intro a
  refine ⟨?_, a.filter_violations ?_ ?_, a.filter_violations ?_ ?_,
    a.filter_violations ?_ ?_, a.violations_inOrder, a.jumpPlaces,
    jumpPlaces_increasing policy source, jumpReports_places policy source⟩
  · rw [violations_eq]
    exact (List.mergeSort_perm _ _).trans
      (List.perm_append_comm.append_right _)
  · simp [filter_reports]
  · unfold encodingReports
    split
    · exact List.pairwise_singleton _ _
    · exact .nil
  · simp [filter_reports]
  · exact syntaxReports_ordered policy source
  · simp [filter_reports]
  · exact jumpReports_ordered policy source

end Analysis

end FrontEnd
