import Mathlib.Data.List.Basic

/-!
# The first element of a sorted list

Which element a stable sort puts first: one that no other precedes, and, where
the order separates the elements, the same for every order of the list.
-/
namespace Selection

variable {α : Type} {le : α → α → Bool} {l l' : List α} {a : α}

/-- The element that a stable sort puts first. -/
def first (le : α → α → Bool) (l : List α) : Option α := (l.mergeSort le).head?

theorem first_eq_none : first le l = none ↔ l = [] := by
  rw [first, List.head?_eq_none_iff]
  constructor
  · intro hsorted
    have hperm := List.mergeSort_perm l le
    rw [hsorted] at hperm
    exact hperm.symm.eq_nil
  · rintro rfl
    exact List.mergeSort_nil

theorem first_mem (h : first le l = some a) : a ∈ l :=
  List.mem_mergeSort.mp (List.mem_of_mem_head? (Option.mem_def.mpr h))

/-- Sorting by a measure of the elements is sorting the measures. -/
theorem first_map {β : Type} {f : α → β} {le' : β → β → Bool} (h : ∀ a b, le a b = le' (f a) (f b)) (l : List α) :
    first le' (l.map f) = (first le l).map f := by
  rw [first, first, ← List.map_mergeSort (fun a _ b _ => h a b), List.head?_map]

section preorder

variable (trans : ∀ a b c, le a b = true → le b c = true → le a c = true) (total : ∀ a b, (le a b || le b a) = true)
include trans total

theorem first_le (h : first le l = some a) {b : α} (hb : b ∈ l) : le a b = true := by
  have hsorted := List.pairwise_mergeSort trans total l
  have hmem : b ∈ l.mergeSort le := List.mem_mergeSort.mpr hb
  rw [first] at h
  cases hlist : l.mergeSort le with
  | nil =>
    rw [hlist] at hmem
    exact absurd hmem List.not_mem_nil
  | cons c rest =>
    rw [hlist, List.head?_cons, Option.some.injEq] at h
    subst h
    rw [hlist, List.pairwise_cons] at hsorted
    rw [hlist, List.mem_cons] at hmem
    obtain rfl | hrest := hmem
    · have hself := total b b
      rwa [Bool.or_self] at hself
    · exact hsorted.1 b hrest

/-- Where no two elements stand level, the order of the list does not matter. -/
theorem first_perm (anti : ∀ a ∈ l, ∀ b ∈ l, le a b = true → le b a = true → a = b) (h : l'.Perm l) :
    first le l' = first le l := by
  cases hfirst : first le l with
  | none =>
    have hnil := first_eq_none.mp hfirst
    subst hnil
    exact first_eq_none.mpr h.eq_nil
  | some a =>
    cases hfirst' : first le l' with
    | none =>
      have hmem := first_mem hfirst
      rw [first_eq_none.mp hfirst'] at h
      rw [h.symm.eq_nil] at hmem
      exact absurd hmem List.not_mem_nil
    | some a' =>
      have ha := first_mem hfirst
      have ha' := h.mem_iff.mp (first_mem hfirst')
      have hle := first_le trans total hfirst ha'
      have hle' := first_le trans total hfirst' (h.mem_iff.mpr ha)
      rw [anti a ha a' ha' hle hle']

end preorder

end Selection
