/-
Syntax trees. A node covers a range of the token list that it was read
from and stands where the first of these tokens stands. A node that was
built after the reader had to skip bad input is marked as recovered.

`preorder` says by recursion in which order a tree is listed; the walks
that programs run keep the subtrees still to be visited on a list, so
that the depth of a tree does not matter to them.
-/
import FrontEnd.Text.Location
import FrontEnd.Tree.Kind

namespace FrontEnd

/-- A construct with those inside it. -/
structure Node where
  kind : NodeKind
  /-- Index of the first token. -/
  first : Nat
  /-- Index behind the last token. -/
  stop : Nat
  location : Location
  recovered : Bool
  children : List Node
deriving Inhabited

namespace Node

-- ============================================== the order of the nodes

mutual

/-- The number of nodes of a tree. -/
def size : Node → Nat
  | ⟨_, _, _, _, _, children⟩ => 1 + sizeAll children

/-- The number of nodes of some trees. -/
def sizeAll : List Node → Nat
  | [] => 0
  | n :: ns => n.size + sizeAll ns

end

mutual

/-- A tree, then the trees below it from the first to the last. -/
def preorder : Node → List Node
  | n@⟨_, _, _, _, _, children⟩ => n :: preorderAll children

/-- Some trees, one after the other. -/
def preorderAll : List Node → List Node
  | [] => []
  | n :: ns => n.preorder ++ preorderAll ns

end

theorem sizeAll_append (ms ns : List Node) :
    sizeAll (ms ++ ns) = sizeAll ms + sizeAll ns := by
  induction ms with
  | nil => simp [sizeAll]
  | cons m ms ih => simp [sizeAll, ih, Nat.add_assoc]

theorem size_eq (n : Node) : n.size = 1 + sizeAll n.children := by
  cases n
  rfl

-- =============================================================== walks

/-- Visits the waiting trees one by one, a node before its children. -/
def walk (done : Array Node) (waiting : List Node) : Array Node :=
  match waiting with
  | [] => done
  | n :: ns => walk (done.push n) (n.children ++ ns)
termination_by sizeAll waiting
decreasing_by
  rw [sizeAll_append, sizeAll, size_eq]
  omega

/-- A node and all below it, in the order of the source. -/
def descendants (n : Node) : List Node :=
  (walk #[] [n]).toList

/-- The nodes of one kind, in the order of the source. -/
def findAll (n : Node) (kind : NodeKind) : List Node :=
  n.descendants.filter (·.kind == kind)

/-- The trees of the list, each at the given depth. -/
def atDepth (depth : Nat) (ns : List Node) : List (Nat × Node) :=
  ns.map (depth, ·)

/-- Visits the waiting trees, each with its depth. -/
def walkOutline (done : Array (Nat × Node))
    (waiting : List (Nat × Node)) : Array (Nat × Node) :=
  match waiting with
  | [] => done
  | (depth, n) :: ns =>
    walkOutline (done.push (depth, n))
      (atDepth (depth + 1) n.children ++ ns)
termination_by sizeAll (waiting.map (·.2))
decreasing_by
  rw [List.map_append, sizeAll_append]
  simp only [List.map_cons, sizeAll, size_eq]
  simp only [atDepth, List.map_map, Function.comp_def, List.map_id']
  omega

/-- A node and all below it with their depths, from zero on. -/
def outline (n : Node) : List (Nat × Node) :=
  (walkOutline #[] [(0, n)]).toList

-- ============================================================ printing

/-- The line of a node in a listing of the tree. -/
def line (n : Node) (depth : Nat) : String :=
  String.ofList (List.replicate (2 * depth) ' ')
    ++ n.kind.name ++ " @" ++ n.location.render
    ++ (if n.recovered then " (recovered)" else "") ++ "\n"

/-- The tree, one node a line, indented by depth. -/
def pretty (n : Node) : String :=
  String.join (n.outline.map fun (depth, n) => n.line depth)

end Node

end FrontEnd
