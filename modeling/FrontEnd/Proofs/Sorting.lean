/-
Sorting and selecting. A stable sort leaves what is equal in its order, so
that it makes no difference whether some of the elements are selected
before the sort or behind it (`mergeSort_filter`).
-/
import Mathlib.Data.List.Basic

namespace FrontEnd

variable {α : Type} {le : α → α → Bool}

/-- A list is parted in one way only into a front that has a property and
a rest that has it nowhere. -/
theorem parted_unique {q : α → Bool} {front rest front' rest' : List α}
    (h : front ++ rest = front' ++ rest')
    (hfront : ∀ x ∈ front, q x) (hrest : ∀ x ∈ rest, ¬ q x)
    (hfront' : ∀ x ∈ front', q x) (hrest' : ∀ x ∈ rest', ¬ q x) :
    front = front' ∧ rest = rest' := by
  have hfronts : front = front' := by
    have := congrArg (List.filter q) h
    rwa [List.filter_append, List.filter_append, List.filter_eq_self.2 hfront,
      List.filter_eq_self.2 hfront', List.filter_eq_nil_iff.2 hrest,
      List.filter_eq_nil_iff.2 hrest', List.append_nil,
      List.append_nil] at this
  subst hfronts
  exact ⟨rfl, List.append_cancel_left h⟩

/-- Where an element goes that stands in front of all the others. -/
theorem mergeSort_cons_parted
    (htrans : ∀ a b c, le a b → le b c → le a c)
    (htotal : ∀ a b, le a b || le b a) (a : α) (l : List α) :
    ∃ front rest, (a :: l).mergeSort le = front ++ a :: rest
      ∧ l.mergeSort le = front ++ rest
      ∧ (∀ b ∈ front, !le a b) ∧ (∀ b ∈ rest, ¬ (!le a b)) := by
  obtain ⟨front, rest, heq, heq', hfront⟩ :=
    List.mergeSort_cons htrans htotal a l
  refine ⟨front, rest, heq, heq', hfront, fun b hb => ?_⟩
  have hsorted := List.pairwise_mergeSort htrans htotal (a :: l)
  rw [heq, List.pairwise_append, List.pairwise_cons] at hsorted
  simp [hsorted.2.1.1 b hb]

/-- What is selected from a sorted list is what was selected, sorted. -/
theorem mergeSort_filter (htrans : ∀ a b c, le a b → le b c → le a c)
    (htotal : ∀ a b, le a b || le b a) (p : α → Bool) (l : List α) :
    (l.mergeSort le).filter p = (l.filter p).mergeSort le := by
  induction l with
  | nil => simp
  | cons a l ih =>
    obtain ⟨front, rest, heq, heq', hfront, hrest⟩ :=
      mergeSort_cons_parted htrans htotal a l
    rw [heq, List.filter_append]
    rw [heq', List.filter_append] at ih
    cases hp : p a with
    | false => rw [List.filter_cons_of_neg (by simp [hp]),
        List.filter_cons_of_neg (by simp [hp]), ih]
    | true =>
      rw [List.filter_cons_of_pos hp, List.filter_cons_of_pos hp]
      obtain ⟨front', rest', hcons, hrests, hfront', hrest'⟩ :=
        mergeSort_cons_parted htrans htotal a (l.filter p)
      obtain ⟨hfronts, hrests⟩ := parted_unique (ih.trans hrests)
        (fun b hb => hfront b (List.mem_of_mem_filter hb))
        (fun b hb => hrest b (List.mem_of_mem_filter hb)) hfront' hrest'
      rw [hcons, hfronts, hrests]

/-- What is in order already is selected from a sorted list as it was. -/
theorem mergeSort_filter_of_pairwise
    (htrans : ∀ a b c, le a b → le b c → le a c)
    (htotal : ∀ a b, le a b || le b a) {p : α → Bool} {l : List α}
    (h : (l.filter p).Pairwise fun a b => le a b) :
    (l.mergeSort le).filter p = l.filter p := by
  rw [mergeSort_filter htrans htotal, List.mergeSort_of_pairwise h]

/-- Where neither of two elements has to stand in front of the other, they
keep their order. -/
theorem mergeSort_pairwise (htrans : ∀ a b c, le a b → le b c → le a c)
    (htotal : ∀ a b, le a b || le b a) {R : α → α → Prop} {l : List α}
    (h : l.Pairwise R) :
    (l.mergeSort le).Pairwise fun a b => le a b ∧ (le b a → R a b) := by
  refine (List.pairwise_mergeSort htrans htotal l).and
    (List.pairwise_iff_forall_sublist.2 fun {a b} hab hle => ?_)
  have hsorted := List.pairwise_iff_forall_sublist.1
    (List.pairwise_mergeSort htrans htotal l) hab
  have hrefl (c : α) : le c c := by simpa using htotal c c
  -- those that are tied with the first one are left in their order
  let tied : α → Bool := fun c => le a c && le c a
  have htied : (l.filter tied).Pairwise fun c d => le c d := by
    refine List.pairwise_of_forall_mem_list fun c hc d hd => ?_
    have hc := (Bool.and_eq_true_iff.1 (List.mem_filter.1 hc).2).2
    have hd := (Bool.and_eq_true_iff.1 (List.mem_filter.1 hd).2).1
    exact htrans c a d hc hd
  have hpair := hab.filter tied
  rw [mergeSort_filter_of_pairwise htrans htotal htied,
    List.filter_cons_of_pos (by simp [tied, hrefl]),
    List.filter_cons_of_pos (by simp [tied, hsorted, hle])] at hpair
  exact List.pairwise_iff_forall_sublist.1 h
    (hpair.trans List.filter_sublist)

end FrontEnd
