/-
Registries: rules with what they remember, run together over one file
after the other. The tree of a file is walked once; at each node the
rules that list its kind are asked in the order in which they were
registered. What was found is put in the order of lines, findings about
the file first, and otherwise stays in the order in which it was found.
-/
import FrontEnd.Check.Rule

namespace FrontEnd

/-- A rule, and at how many nodes it was asked so far. -/
structure Check where
  rule : Rule
  count : Nat
deriving DecidableEq, Repr

namespace Check

/-- A rule that was never asked. -/
def ofRule (r : Rule) : Check := ⟨r, 0⟩

/-- Asks the rule at a node a number of times, behind what is found
already. -/
def visitTimes (n : Node) : Nat → Check → Array Violation →
    Check × Array Violation
  | 0, c, found => (c, found)
  | times + 1, c, found =>
    let c := { c with count := c.count + 1 }
    visitTimes n times c (found ++ c.rule.visit c.count n)

/-- Asks the rule at a node as often as it lists the node's kind. -/
def visit (n : Node) (c : Check) (found : Array Violation) :
    Check × Array Violation :=
  visitTimes n (c.rule.kinds.count n.kind) c found

end Check

/-- Rules that are run together. -/
structure Registry where
  checks : List Check
deriving DecidableEq, Repr

namespace Registry

/-- The registry without rules. -/
def empty : Registry := ⟨[]⟩

/-- Adds a rule behind the others. -/
def register (g : Registry) (r : Rule) : Registry :=
  ⟨g.checks ++ [.ofRule r]⟩

/-- The registry of the built-in rules. -/
def builtIn : Registry := ⟨Rule.builtIn.map .ofRule⟩

/-- How many rules there are, one registered twice counting twice. -/
def size (g : Registry) : Nat := g.checks.length

/-- The names of the rules, in order. -/
def keys (g : Registry) : List String :=
  g.checks.map (·.rule.key)

/-- Asks each of the rules at a node. -/
def visit (n : Node) : List Check → Array Violation →
    List Check × Array Violation
  | [], found => ([], found)
  | c :: cs, found =>
    let (c, found) := c.visit n found
    let (cs, found) := visit n cs found
    (c :: cs, found)

/-- Asks the rules at one node after the other. -/
def visitAll : List Node → List Check → Array Violation →
    List Check × Array Violation
  | [], cs, found => (cs, found)
  | n :: ns, cs, found =>
    let (cs, found) := visit n cs found
    visitAll ns cs found

/-- The order of reports: by line, what is about the file first. -/
def precedes (a b : Violation) : Bool :=
  match a.line, b.line with
  | none, _ => true
  | some _, none => false
  | some a, some b => a ≤ b

/-- Runs the rules over a file: the registry behind it, and what was
found. -/
def run (g : Registry) (a : Analysis) : Registry × List Violation :=
  let found := (g.checks.flatMap (·.rule.enter a)).toArray
  let (checks, found) := visitAll a.tree.descendants g.checks found
  let found := found ++ checks.flatMap fun c => c.rule.leave c.count
  (⟨checks⟩, found.toList.mergeSort precedes)

end Registry

/-- What the built-in rules find in a file. -/
def Analysis.violations (a : Analysis) : List Violation :=
  (Registry.builtIn.run a).2

end FrontEnd
