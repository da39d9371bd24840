import Mathlib.Data.List.Count

/-!
# Lists to which elements are added once

Adding what is not there yet, and taking out one occurrence.
-/

namespace Nyc.Data

variable {α : Type} [DecidableEq α]

def addOnce (a : α) (xs : List α) : List α := if a ∈ xs then xs else xs ++ [a]

theorem addOnce_of_mem {a : α} {xs : List α} (there : a ∈ xs) : addOnce a xs = xs := if_pos there

theorem addOnce_of_not_mem {a : α} {xs : List α} (new : a ∉ xs) : addOnce a xs = xs ++ [a] :=
  if_neg new

theorem count_addOnce_self {a : α} {xs : List α} (once : xs.count a ≤ 1) :
    (addOnce a xs).count a = 1 := by
  by_cases there : a ∈ xs
  · rw [addOnce_of_mem there]
    have := List.count_pos_iff.mpr there
    omega
  · rw [addOnce_of_not_mem there, List.count_append, List.count_eq_zero_of_not_mem there,
      List.count_singleton_self]

theorem count_addOnce_ne {a b : α} (other : b ≠ a) (xs : List α) :
    (addOnce a xs).count b = xs.count b := by
  by_cases there : a ∈ xs
  · rw [addOnce_of_mem there]
  · have single : [a].count b = 0 := List.count_eq_zero_of_not_mem (by simpa using other)
    rw [addOnce_of_not_mem there, List.count_append, single, Nat.add_zero]

theorem filter_addOnce {p : α → Bool} {a : α} (out : p a = false) (xs : List α) :
    (addOnce a xs).filter p = xs.filter p := by
  by_cases there : a ∈ xs
  · rw [addOnce_of_mem there]
  · rw [addOnce_of_not_mem there, List.filter_append, List.filter_cons_of_neg (by simp [out]),
      List.filter_nil,
      List.append_nil]

/-- Several elements, one after the other. -/
def addAll (as xs : List α) : List α := as.foldl (fun ys a => addOnce a ys) xs

theorem count_addAll {as xs : List α} (once : ∀ a ∈ as, xs.count a ≤ 1) (b : α) :
    (addAll as xs).count b = if b ∈ as then 1 else xs.count b := by
  induction as generalizing xs with
  | nil => rfl
  | cons a as ih =>
    have first := count_addOnce_self (once a List.mem_cons_self)
    have step : ∀ c ∈ as, (addOnce a xs).count c ≤ 1 := by
      intro c there
      by_cases same : c = a
      · subst same
        omega
      · rw [count_addOnce_ne same]
        exact once c (List.mem_cons_of_mem _ there)
    rw [addAll, List.foldl_cons, ← addAll, ih step]
    by_cases same : b = a
    · subst same
      rw [first, ite_self, if_pos List.mem_cons_self]
    · rw [count_addOnce_ne same]
      exact if_congr (by simp [same]) rfl rfl

theorem filter_addAll {p : α → Bool} {as : List α} (out : ∀ a ∈ as, p a = false) (xs : List α) :
    (addAll as xs).filter p = xs.filter p := by
  induction as generalizing xs with
  | nil => rfl
  | cons a as ih =>
    rw [addAll, List.foldl_cons, ← addAll, ih fun b there => out b (List.mem_cons_of_mem _ there)]
    exact filter_addOnce (out a List.mem_cons_self) xs

/-! ## Taking out -/

section

variable {β : Type} [BEq β] [LawfulBEq β]

theorem filter_erase {p : β → Bool} {a : β} (out : p a = false) (xs : List β) :
    (xs.erase a).filter p = xs.filter p := by
  induction xs with
  | nil => rfl
  | cons b xs ih =>
    by_cases same : b = a
    · subst same
      rw [List.erase_cons_head, List.filter_cons_of_neg (by simp [out])]
    · rw [List.erase_cons_tail (by simpa using same), List.filter_cons, List.filter_cons, ih]

theorem filter_diff {p : β → Bool} {as : List β} (out : ∀ a ∈ as, p a = false) (xs : List β) :
    (xs.diff as).filter p = xs.filter p := by
  induction as generalizing xs with
  | nil => rw [List.diff_nil]
  | cons a as ih =>
    rw [List.diff_cons, ih fun b there => out b (List.mem_cons_of_mem _ there)]
    exact filter_erase (out a List.mem_cons_self) xs

end

end Nyc.Data
