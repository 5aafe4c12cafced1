import Mathlib.Data.List.Basic

/-!
# Stable sorts by a yes or no

A stable sort whose order only asks whether an element has a property puts those that
have it in front, and moves nothing within the two parts.
-/

namespace CisWebui
namespace Foundation

section

variable {α : Type}

/-- `std::stable_sort` by a comparison that is a strict weak order. -/
def stableSort (less : α -> α -> Bool) (l : List α) : List α :=
  l.mergeSort fun a b => !less b a

/-- Behind an element without the property there is none that has it. -/
theorem eq_filter_append_filter {p : α -> Bool} {l : List α}
    (h : l.Pairwise fun a b => p a = false -> p b = false) :
    l = l.filter p ++ l.filter fun a => !p a := by
  induction l with
  | nil => rfl
  | cons a rest ih =>
      rw [List.pairwise_cons] at h
      cases ha : p a with
      | true =>
          rw [List.filter_cons_of_pos ha, List.filter_cons_of_neg (by simp [ha]),
            List.cons_append, ← ih h.right]
      | false =>
          have hnone : rest.filter p = [] := by
            rw [List.filter_eq_nil_iff]
            intro b hb
            simp [h.left b hb ha]
          have hall : rest.filter (fun b => !p b) = rest := by
            rw [List.filter_eq_self]
            intro b hb
            simp [h.left b hb ha]
          rw [List.filter_cons_of_neg (by simp [ha]), List.filter_cons_of_pos (by simp [ha]),
            hnone, hall, List.nil_append]

/-- What a comparison has to be for a sort. -/
structure WeakOrder (less : α -> α -> Bool) : Prop where
  trans : forall a b c, less b a = false -> less c b = false -> less c a = false
  total : forall a b, less b a = false ∨ less a b = false

theorem WeakOrder.pairwise_stableSort {less : α -> α -> Bool} (h : WeakOrder less)
    (l : List α) : (stableSort less l).Pairwise fun a b => less b a = false := by
  have hsorted : (stableSort less l).Pairwise fun a b => (!less b a) = true :=
    List.pairwise_mergeSort (by simpa using h.trans) (by simpa using h.total) l
  simpa using hsorted

/-- A stable sort keeps elements that tie in their order. -/
theorem WeakOrder.filter_stableSort {less : α -> α -> Bool} (h : WeakOrder less)
    {q : α -> Bool} (htie : forall a b, q a = true -> q b = true -> less b a = false)
    (l : List α) : (stableSort less l).filter q = l.filter q := by
  have hpairwise : (l.filter q).Pairwise fun a b => (!less b a) = true := by
    apply List.pairwise_of_forall_mem_list
    intro a ha b hb
    rw [htie a b (List.mem_filter.mp ha).right (List.mem_filter.mp hb).right]
    rfl
  have hsublist : (l.filter q).Sublist (stableSort less l) :=
    List.sublist_mergeSort (by simpa using h.trans) (by simpa using h.total) hpairwise
      List.filter_sublist
  have hfilter := hsublist.filter q
  rw [List.filter_filter] at hfilter
  have hperm : ((stableSort less l).filter q).Perm (l.filter q) :=
    (List.mergeSort_perm l _).filter q
  have hsame : (l.filter fun a => q a && q a) = l.filter q := by
    simp
  rw [hsame] at hfilter
  exact (hfilter.eq_of_length hperm.length_eq.symm).symm

theorem weakOrder_two_valued (p : α -> Bool) : WeakOrder fun a b => p a && !p b where
  trans := by
    intro a b c
    cases p a <;> cases p b <;> cases p c <;> simp
  total := by
    intro a b
    cases p a <;> cases p b <;> simp

/-- Those with the property come first, and nothing else is moved. -/
theorem stableSort_two_valued (p : α -> Bool) (l : List α) :
    stableSort (fun a b => p a && !p b) l = l.filter p ++ l.filter fun a => !p a := by
  have horder := weakOrder_two_valued p
  have hsorted := horder.pairwise_stableSort l
  have hwith := horder.filter_stableSort (q := p) (by simp +contextual) l
  have hwithout := horder.filter_stableSort (q := fun a => !p a) (by simp +contextual) l
  rw [← hwith, ← hwithout]
  apply eq_filter_append_filter
  apply hsorted.imp
  intro a b hless ha
  cases hb : p b with
  | false => rfl
  | true => simp [ha, hb] at hless

end

end Foundation
end CisWebui
