/-
What a listing tells of a tree. The walk that keeps depths lists a tree as
recursion does, a node before the trees one deeper (`outline_eq`), and the
listing has one line for each node (`pretty_lines`). A line can be taken
apart again: the spaces in front are twice the depth, names consist of
letters and numbers of digits, and something else stands behind each
(`Entry.text_injective`). Depths and contents of the lines give back the
tree, as the trees at one depth end where a line is less deep
(`alike_of_entries`).
-/
import FrontEnd.Proofs.Tree.Order
import Mathlib.Data.List.Forall2
import Mathlib.Data.List.Nodup

namespace FrontEnd

-- ======================================================= names and numbers

theorem NodeKind.mem_all (kind : NodeKind) : kind ∈ all := by
  cases kind <;> decide

theorem NodeKind.name_injective : Function.Injective name := by
  have hnodup : (all.map name).Nodup := by decide +kernel
  intro kind kind' h
  exact List.inj_on_of_nodup_map hnodup kind.mem_all kind'.mem_all h

/-- A name is a word, that is some letters. -/
theorem NodeKind.name_word (kind : NodeKind) :
    kind.name.toList ≠ [] ∧ ∀ c ∈ kind.name.toList, c.isAlpha = true := by
  have word {c : Char} {cs : List Char}
      (h : (c :: cs).all Char.isAlpha = true) :
      (String.ofList (c :: cs)).toList ≠ []
        ∧ ∀ d ∈ (String.ofList (c :: cs)).toList, d.isAlpha = true := by
    rw [String.toList_ofList]
    exact ⟨List.cons_ne_nil c cs, List.all_eq_true.1 h⟩
  cases kind <;> exact word (by decide)

theorem toDigits_injective : Function.Injective (Nat.toDigits 10) := by
  intro m n h
  rw [← Nat.ofDigitChars_ten_toDigits (n := m), h,
    Nat.ofDigitChars_ten_toDigits]

theorem isDigit_of_mem_toDigits {n : Nat} :
    ∀ c ∈ Nat.toDigits 10 n, c.isDigit = true := fun _ h =>
  Nat.isDigit_of_mem_toDigits (by decide) (by decide) h

/-- Characters of one sort are told apart from what begins with another. -/
theorem append_inj_of_head {p : Char → Bool} {cs cs' ds ds' : List Char}
    (hcs : ∀ c ∈ cs, p c = true) (hcs' : ∀ c ∈ cs', p c = true)
    (hds : ∀ d ∈ ds.head?, p d = false)
    (hds' : ∀ d ∈ ds'.head?, p d = false) (h : cs ++ ds = cs' ++ ds') :
    cs = cs' ∧ ds = ds' := by
  have hnone {ds : List Char} (hds : ∀ d ∈ ds.head?, p d = false) :
      ds.takeWhile p = [] := by
    cases ds with
    | nil => rfl
    | cons d ds => rw [List.takeWhile_cons_of_neg (by simp [hds d rfl])]
  have htake := congrArg (List.takeWhile p) h
  rw [List.takeWhile_append_of_pos hcs, List.takeWhile_append_of_pos hcs',
    hnone hds, hnone hds', List.append_nil, List.append_nil] at htake
  subst htake
  exact ⟨rfl, List.append_cancel_left h⟩

-- =================================================================== lines

/-- What a line of a listing tells of a node. -/
@[ext]
structure Entry where
  depth : Nat
  kind : NodeKind
  location : Location
  recovered : Bool

namespace Entry

/-- What stands at the end of the line. -/
def mark (recovered : Bool) : List Char :=
  if recovered then " (recovered)".toList else []

theorem mark_injective : Function.Injective mark := by
  unfold Function.Injective
  decide

/-- The line of an entry, without the break behind it. -/
def text (e : Entry) : List Char :=
  List.replicate (2 * e.depth) ' ' ++ (e.kind.name.toList
    ++ ' ' :: '@' :: (Nat.toDigits 10 e.location.line
    ++ ':' :: (Nat.toDigits 10 e.location.column ++ mark e.recovered)))

theorem newline_not_mem_text (e : Entry) : '\n' ∉ e.text := by
  have hname : '\n' ∉ e.kind.name.toList := fun h =>
    absurd (e.kind.name_word.2 _ h) (by decide)
  have hdigits (n : Nat) : '\n' ∉ Nat.toDigits 10 n := fun h =>
    absurd (isDigit_of_mem_toDigits _ h) (by decide)
  have hmark : ∀ recovered, '\n' ∉ mark recovered := by decide
  simp [text, hname, hdigits, hmark]

/-- A line tells its entry. -/
theorem text_injective : Function.Injective text := by
  intro e e' h
  have hname (e : Entry) (cs : List Char) :
      ∀ c ∈ (e.kind.name.toList ++ cs).head?, (c == ' ') = false := by
    obtain ⟨hnil, hletters⟩ := e.kind.name_word
    intro c hc
    rw [List.head?_append_of_ne_nil _ hnil] at hc
    have halpha := hletters c (List.mem_of_mem_head? hc)
    rw [beq_eq_false_iff_ne]
    rintro rfl
    exact absurd halpha (by decide)
  have hmark (recovered : Bool) :
      ∀ c ∈ (mark recovered).head?, c.isDigit = false := by
    cases recovered <;> simp [mark]
  have hsign {p : Char → Bool} {c : Char} (hc : p c = false)
      (cs : List Char) : ∀ d ∈ (c :: cs).head?, p d = false := by
    simp [hc]
  obtain ⟨hspaces, h⟩ := append_inj_of_head (p := (· == ' '))
    (by simp) (by simp) (hname e _) (hname e' _) h
  obtain ⟨hkind, h⟩ := append_inj_of_head e.kind.name_word.2
    e'.kind.name_word.2 (hsign (by decide) _) (hsign (by decide) _) h
  obtain ⟨hline, h⟩ := append_inj_of_head isDigit_of_mem_toDigits
    isDigit_of_mem_toDigits (hsign (by decide) _) (hsign (by decide) _)
    (List.tail_eq_of_cons_eq (List.tail_eq_of_cons_eq h))
  obtain ⟨hcolumn, h⟩ := append_inj_of_head isDigit_of_mem_toDigits
    isDigit_of_mem_toDigits (hmark _) (hmark _) (List.tail_eq_of_cons_eq h)
  have hdepth := congrArg List.length hspaces
  rw [List.length_replicate, List.length_replicate] at hdepth
  have hlocation : Location.mk e.location.line e.location.column
      = Location.mk e'.location.line e'.location.column := by
    rw [toDigits_injective hline, toDigits_injective hcolumn]
  exact Entry.ext (by omega)
    (NodeKind.name_injective (String.toList_injective hkind)) hlocation
    (mark_injective h)

/-- The lines of some entries, each with a break behind it. -/
def listing (es : List Entry) : List Char :=
  es.flatMap fun e => e.text ++ ['\n']

theorem splitOn_listing (es : List Entry) :
    (listing es).splitOn '\n' = es.map text ++ [[]] := by
  induction es with
  | nil => rfl
  | cons e es ih =>
    rw [listing, List.flatMap_cons, List.append_assoc,
      List.singleton_append,
      List.splitOn_append_cons_self_of_not_mem e.newline_not_mem_text,
      ← listing, ih]
    rfl

theorem listing_injective : Function.Injective listing := by
  intro es es' h
  have hlines := congrArg (List.splitOn '\n') h
  rw [splitOn_listing, splitOn_listing] at hlines
  exact List.map_injective_iff.2 text_injective
    (List.append_cancel_right hlines)

end Entry

namespace Node

-- ================================================================= outlines

mutual

/-- A tree at a depth, with the trees below it one deeper. -/
def outlineFrom (depth : Nat) : Node → List (Nat × Node)
  | n@⟨_, _, _, _, _, children⟩ =>
    (depth, n) :: outlineAll (depth + 1) children

/-- Some trees at a depth, one after the other. -/
def outlineAll (depth : Nat) : List Node → List (Nat × Node)
  | [] => []
  | n :: ns => n.outlineFrom depth ++ outlineAll depth ns

end

theorem outlineAll_eq (depth : Nat) (ns : List Node) :
    outlineAll depth ns = ns.flatMap (outlineFrom depth) := by
  induction ns with
  | nil => rfl
  | cons n ns ih =>
    rw [outlineAll, ih]
    rfl

theorem outlineFrom_eq (depth : Nat) (n : Node) :
    n.outlineFrom depth
      = (depth, n) :: outlineAll (depth + 1) n.children := by
  cases n
  rw [outlineFrom]

/-- What a walk has done is followed by all that waits, with depths. -/
theorem walkOutline_eq (done : Array (Nat × Node))
    (waiting : List (Nat × Node)) :
    (walkOutline done waiting).toList
      = done.toList ++ waiting.flatMap fun (depth, n) =>
        n.outlineFrom depth := by
  induction done, waiting using walkOutline.induct with
  | case1 done => simp [walkOutline]
  | case2 done depth n ns ih =>
    rw [walkOutline, ih, List.flatMap_cons, List.flatMap_append, atDepth,
      List.flatMap_map]
    simp [outlineFrom_eq depth, outlineAll_eq]

theorem outline_eq (n : Node) : n.outline = n.outlineFrom 0 := by
  unfold outline
  rw [walkOutline_eq]
  simp

/-- Two walks side by side, one of which keeps depths. -/
theorem walkOutline_map_snd (done : Array (Nat × Node))
    (waiting : List (Nat × Node)) :
    (walkOutline done waiting).map (·.2)
      = walk (done.map (·.2)) (waiting.map (·.2)) := by
  induction done, waiting using walkOutline.induct with
  | case1 done => simp [walkOutline, walk]
  | case2 done depth n ns ih =>
    rw [walkOutline, ih, List.map_cons, walk, List.map_append, atDepth,
      List.map_map]
    simp [Function.comp_def]

theorem outline_map_snd (n : Node) : n.outline.map (·.2) = n.descendants := by
  unfold outline descendants
  rw [← Array.toList_map, walkOutline_map_snd]
  simp

-- ================================================================= listings

/-- What the line of a node at a depth tells. -/
def entry (n : Node) (depth : Nat) : Entry :=
  ⟨depth, n.kind, n.location, n.recovered⟩

theorem line_eq (n : Node) (depth : Nat) :
    (n.line depth).toList = (n.entry depth).text ++ ['\n'] := by
  have hmark : (if n.recovered then " (recovered)" else "").toList
      = Entry.mark n.recovered := by
    cases n.recovered <;> rfl
  simp [line, Entry.text, entry, Location.render, hmark]
  rfl

/-- What the lines of some trees at a depth tell. -/
def entriesAll (depth : Nat) (ns : List Node) : List Entry :=
  (outlineAll depth ns).map fun (depth, n) => n.entry depth

theorem entriesAll_cons (depth : Nat) (n : Node) (ns : List Node) :
    entriesAll depth (n :: ns) = n.entry depth
      :: (entriesAll (depth + 1) n.children ++ entriesAll depth ns) := by
  simp [entriesAll, outlineAll, outlineFrom_eq]

theorem entriesAll_singleton (n : Node) :
    entriesAll 0 [n] = n.outline.map fun (depth, m) => m.entry depth := by
  rw [outline_eq]
  simp [entriesAll, outlineAll]

theorem pretty_eq (n : Node) :
    n.pretty.toList = Entry.listing (entriesAll 0 [n]) := by
  rw [pretty, String.toList_join, entriesAll_singleton, Entry.listing,
    List.flatMap_map, List.flatMap_map]
  exact congrArg (n.outline.flatMap ·)
    (funext fun (depth, m) => m.line_eq depth)

/-- A listing has one line for each node. -/
theorem pretty_lines (n : Node) :
    n.pretty.toList.splitOn '\n'
      = (n.outline.map fun (depth, m) => (m.entry depth).text) ++ [[]] := by
  rw [pretty_eq, Entry.splitOn_listing, entriesAll_singleton, List.map_map]
  rfl

-- ================================================================== decoding

/-- Two trees have the same shape, and their nodes agree one by one on all
that is listed. -/
inductive Alike : Node → Node → Prop where
  | mk {m n : Node} :
    m.kind = n.kind → m.location = n.location → m.recovered = n.recovered →
      List.Forall₂ Alike m.children n.children → Alike m n

/-- Induction over some trees: on the trees below the first, and on those
behind it. -/
theorem forest_induction {P : List Node → Prop} (nil : P [])
    (cons : ∀ n ns, P n.children → P ns → P (n :: ns)) (ns : List Node) :
    P ns := by
  induction hsize : sizeAll ns using Nat.strongRecOn generalizing ns with
  | ind size ih =>
    cases ns with
    | nil => exact nil
    | cons n ns =>
      rw [sizeAll, size_eq] at hsize
      exact cons n ns (ih _ (by omega) n.children rfl)
        (ih _ (by omega) ns rfl)

/-- The first line of some trees at a depth, or of what is less deep behind
them, is at that depth or less deep. -/
theorem head_entriesAll {depth : Nat} {ns : List Node} {es : List Entry}
    (hes : ∀ e ∈ es.head?, e.depth < depth) :
    ∀ e ∈ (entriesAll depth ns ++ es).head?, e.depth < depth + 1 := by
  intro e he
  cases ns with
  | nil => exact (hes e he).trans (Nat.lt_succ_self depth)
  | cons n ns =>
    rw [entriesAll_cons, List.cons_append, List.head?_cons,
      Option.mem_some_iff] at he
    rw [← he]
    exact Nat.lt_succ_self depth

/-- Trees at one depth are told from what is less deep behind them, and one
from the other. -/
theorem alike_of_entries (ms : List Node) :
    ∀ {depth : Nat} {ns : List Node} {es es' : List Entry},
      (∀ e ∈ es.head?, e.depth < depth) →
      (∀ e ∈ es'.head?, e.depth < depth) →
      entriesAll depth ms ++ es = entriesAll depth ns ++ es' →
        List.Forall₂ Alike ms ns ∧ es = es' := by
  induction ms using forest_induction with
  | nil =>
    intro depth ns es es' hes _ h
    cases ns with
    | nil => exact ⟨.nil, h⟩
    | cons n ns =>
      rw [entriesAll_cons] at h
      subst h
      exact absurd (hes _ rfl) (Nat.lt_irrefl depth)
  | cons m ms ihbelow ihbehind =>
    intro depth ns es es' hes hes' h
    cases ns with
    | nil =>
      rw [entriesAll_cons] at h
      change _ = es' at h
      subst h
      exact absurd (hes' _ rfl) (Nat.lt_irrefl depth)
    | cons n ns =>
      rw [entriesAll_cons, entriesAll_cons, List.cons_append,
        List.cons_append, List.append_assoc, List.append_assoc] at h
      obtain ⟨hentry, h⟩ := List.cons_eq_cons.1 h
      obtain ⟨-, hkind, hlocation, hrecovered⟩ := Entry.mk.inj hentry
      -- what stands behind the trees below is at most as deep as their root
      obtain ⟨hbelow, h⟩ :=
        ihbelow (head_entriesAll hes) (head_entriesAll hes') h
      obtain ⟨hbehind, h⟩ := ihbehind hes hes' h
      exact ⟨.cons (.mk hkind hlocation hrecovered hbelow) hbehind, h⟩

/-- Trees that are alike have the same lines. -/
theorem entries_of_alike (ms : List Node) :
    ∀ {depth : Nat} {ns : List Node}, List.Forall₂ Alike ms ns →
      entriesAll depth ms = entriesAll depth ns := by
  induction ms using forest_induction with
  | nil =>
    intro depth ns h
    cases h
    rfl
  | cons m ms ihbelow ihbehind =>
    intro depth ns h
    cases h with
    | @cons _ n _ ns hfirst hbehind =>
      obtain ⟨hkind, hlocation, hrecovered, hbelow⟩ := hfirst
      rw [entriesAll_cons, entriesAll_cons, ihbelow hbelow,
        ihbehind hbehind, entry, entry, hkind, hlocation, hrecovered]

/-- A listing is faithful. Its lines are those of the nodes in preorder, as
the walk without depths goes through them too, and two trees have the same
listing just where they are alike. -/
theorem pretty_faithful (n : Node) :
    n.descendants = n.preorder
      ∧ n.outline.map (·.2) = n.descendants
      ∧ n.pretty.toList.splitOn '\n'
        = (n.outline.map fun (depth, m) => (m.entry depth).text) ++ [[]]
      ∧ ∀ m : Node, m.pretty = n.pretty ↔ Alike m n := by
  refine ⟨n.descendants_eq, n.outline_map_snd, n.pretty_lines, fun m => ?_⟩
  rw [← String.toList_inj, pretty_eq, pretty_eq,
    Entry.listing_injective.eq_iff]
  constructor
  · intro h
    have halike := (alike_of_entries [m] (by simp) (by simp)
      (congrArg (· ++ []) h)).1
    exact (List.forall₂_cons.1 halike).1
  · intro h
    exact entries_of_alike [m] (.cons h .nil)

end Node

end FrontEnd
