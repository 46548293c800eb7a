/-
Spellings of operators. Most operators are spelled in one way only, so that
to ask for the operator is to ask for the spelling.
-/
import Mathlib.Data.List.Basic
import FrontEnd.Word

namespace FrontEnd

/-- Whether a spelling is no word for an operator and no operator that
there is a word for. -/
def Word.isSole (spelling : String) : Bool :=
  alternatives.all fun a => a.1 != spelling && a.2 != spelling

/-- A sole spelling is the only one of its operator. -/
theorem Word.canonical_eq_iff {spelling : String}
    (h : isSole spelling = true) (word : String) :
    canonical word = spelling ↔ word = spelling := by
  unfold canonical
  cases hw : alternatives.lookup word with
  | none => simp
  | some operator =>
    obtain ⟨before, after, hmem, -⟩ := List.lookup_eq_some_iff.1 hw
    have hsole := List.all_eq_true.1 h (word, operator) (by simp [hmem])
    simp only [Bool.and_eq_true, bne_iff_ne] at hsole
    simp only [Option.getD_some]
    exact iff_of_false hsole.2 hsole.1

/-- No operator is itself a word for one. -/
theorem Word.canonical_canonical (word : String) :
    canonical (canonical word) = canonical word := by
  have htable : alternatives.all
      (fun a => (alternatives.lookup a.2).isNone) = true := by decide
  unfold canonical
  cases hw : alternatives.lookup word with
  | none => rw [Option.getD_none, hw, Option.getD_none]
  | some operator =>
    obtain ⟨before, after, hmem, -⟩ := List.lookup_eq_some_iff.1 hw
    have hnone := List.all_eq_true.1 htable (word, operator) (by simp [hmem])
    rw [Option.getD_some, Option.isNone_iff_eq_none.1 hnone, Option.getD_none]

end FrontEnd
