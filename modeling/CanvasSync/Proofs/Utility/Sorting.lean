import Mathlib.Data.List.Basic
import Mathlib.Tactic.Common

/-!
What a stable sort keeps.

* `filter_mergeSort`: what an order does not tell apart stays as it was;
* `pairwise_mergeSort_of_ties`: sorted elements stand in the order, and those that the order does not
  tell apart stand as they stood before.
-/

namespace CanvasSync

section MergeSort

variable {α : Type} {le : α → α → Bool} {l : List α}

/-- What an order does not tell apart stays as it was. -/
lemma filter_mergeSort (trans : ∀ a b c, le a b → le b c → le a c) (total : ∀ a b, le a b || le b a)
    {p : α → Bool} (hp : ∀ a b, p a → p b → le a b) (l : List α) :
    (l.mergeSort le).filter p = l.filter p := by
  have hsorted : (l.filter p).Pairwise fun a b => le a b := by
    refine List.pairwise_of_forall_mem_list ?_
    intro a ha b hb
    exact hp a b (List.mem_filter.mp ha).2 (List.mem_filter.mp hb).2
  have hsub : (l.filter p).Sublist ((l.mergeSort le).filter p) := by
    have hfilter := (List.sublist_mergeSort trans total hsorted List.filter_sublist).filter p
    rwa [List.filter_filter, List.filter_congr fun a _ => Bool.and_self (p a)] at hfilter
  exact (hsub.eq_of_length ((List.mergeSort_perm l le).filter p).length_eq.symm).symm

/-- Sorted elements stand in the order, and those that the order does not tell apart stand as they
stood before. -/
lemma pairwise_mergeSort_of_ties (trans : ∀ a b c, le a b → le b c → le a c)
    (total : ∀ a b, le a b || le b a) {R : α → α → Prop} (hl : l.Pairwise R) :
    (l.mergeSort le).Pairwise fun a b => le a b ∧ (le b a → R a b) := by
  rw [List.pairwise_iff_forall_sublist] at hl ⊢
  intro a b hab
  have hle : le a b := by
    have hsorted := List.pairwise_mergeSort trans total l
    exact List.pairwise_iff_forall_sublist.mp hsorted hab
  refine ⟨hle, fun hba => ?_⟩
  -- two elements that the order does not tell apart are found among all that are tied with the first
  have hrefl : le a a := by simpa using total a a
  have hties : (l.mergeSort le).filter (fun x => le a x && le x a)
      = l.filter fun x => le a x && le x a := by
    refine filter_mergeSort trans total ?_ l
    intro x y hx hy
    rw [Bool.and_eq_true] at hx hy
    exact trans x a y hx.2 hy.1
  have hpair : [a, b].Sublist (l.filter fun x => le a x && le x a) := by
    have hfilter := hab.filter fun x => le a x && le x a
    rwa [hties, List.filter_cons_of_pos (by simp [hrefl]),
      List.filter_cons_of_pos (by simp [hle, hba]), List.filter_nil] at hfilter
  exact hl (hpair.trans List.filter_sublist)

end MergeSort

end CanvasSync
