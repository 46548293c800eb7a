/-
Sets of characters given by closed ranges of code points, the form in
which the properties of the Unicode character database are tabled.
-/
namespace FrontEnd.Text

/-- Closed ranges of code points, each by its first and last member. -/
abbrev Ranges := List (Nat × Nat)

/-- Whether a code point lies in one of the ranges. -/
def Ranges.contains (ranges : Ranges) (code : Nat) : Bool :=
  ranges.any fun range => range.1 ≤ code && code ≤ range.2

theorem Ranges.contains_iff {ranges : Ranges} {code : Nat} :
    ranges.contains code = true
      ↔ ∃ range ∈ ranges, range.1 ≤ code ∧ code ≤ range.2 := by
  simp [contains]

end FrontEnd.Text
