import Mathlib.Data.List.Basic

/-!
# A waiting line

A system in which some steps serve whoever is first in line, and those who come join at the end.
Nobody is overtaken: with `j` before it, an entry is served by the step that serves for the
`j + 1`st time, whatever the other steps are.
-/

namespace Nyc.Data

variable {σ A κ : Type} {step : σ → A → σ} {line : σ → List κ} {serves : A → Bool}

/-- A step that serves takes the first of the line, another step nobody; new entries are last. -/
def Orderly (step : σ → A → σ) (line : σ → List κ) (serves : A → Bool) : Prop :=
  ∀ s a, ∃ new, line (step s a) = (if serves a then (line s).tail else line s) ++ new

namespace Orderly

/-- What is in line after a run, of those who were. -/
theorem foldl (orderly : Orderly step line serves) (actions : List A) (s : σ) :
    ∃ new, line (actions.foldl step s) = (line s).drop (actions.countP serves) ++ new := by
  induction actions generalizing s with
  | nil => exact ⟨[], (List.append_nil _).symm⟩
  | cons a rest ih =>
    obtain ⟨new, first⟩ := orderly s a
    obtain ⟨new', later⟩ := ih (step s a)
    rw [List.foldl_cons, later, first, List.drop_append, List.append_assoc]
    refine ⟨_, congrArg (· ++ _) ?_⟩
    cases served : serves a with
    | true => rw [if_pos rfl, List.countP_cons_of_pos served, List.drop_tail]
    | false =>
      have not_ : ¬ serves a = true := ne_true_of_eq_false served
      rw [if_neg Bool.false_ne_true, List.countP_cons_of_neg not_]

/-- An entry moves up by one whenever the system serves. -/
theorem moves_up (orderly : Orderly step line serves) (actions : List A) {s : σ} {j : Nat} {x : κ}
    (there : (line s)[j]? = some x) (waits : actions.countP serves ≤ j) :
    (line (actions.foldl step s))[j - actions.countP serves]? = some x := by
  obtain ⟨new, after⟩ := orderly.foldl actions s
  have below : j - actions.countP serves < ((line s).drop (actions.countP serves)).length := by
    have short := (List.getElem?_eq_some_iff.mp there).1
    rw [List.length_drop]
    omega
  rw [after, List.getElem?_append_left below, List.getElem?_drop, Nat.add_sub_cancel' waits]
  exact there

/-- An entry with `j` before it is served by the time the system has served more than `j` times. -/
theorem served (orderly : Orderly step line serves) (done : κ → σ → Prop)
    (first : ∀ s a x, serves a = true → (line s).head? = some x → done x (step s a))
    (stays : ∀ s a x, done x s → done x (step s a)) (actions : List A) {s : σ} {j : Nat} {x : κ}
    (there : (line s)[j]? = some x) (enough : j < actions.countP serves) :
    done x (actions.foldl step s) := by
  have lasts (rest : List A) (s : σ) (is : done x s) : done x (rest.foldl step s) := by
    induction rest generalizing s with
    | nil => exact is
    | cons a rest ih => exact ih (step s a) (stays s a x is)
  induction actions generalizing s j with
  | nil => exact absurd enough (Nat.not_lt_zero j)
  | cons a rest ih =>
    cases served : serves a with
    | false =>
      have not_ : ¬ serves a = true := ne_true_of_eq_false served
      rw [List.countP_cons_of_neg not_] at enough
      have up := orderly.moves_up [a] there (by simp [served])
      have same : [a].countP serves = 0 := by simp [served]
      rw [same] at up
      exact ih up enough
    | true =>
      rw [List.countP_cons_of_pos served] at enough
      -- either the entry is first, or it moves up and the rest of the run serves it
      cases j with
      | zero =>
        rw [← List.head?_eq_getElem?] at there
        exact lasts rest _ (first s a x served there)
      | succ j =>
        have same : [a].countP serves = 1 := by simp [served]
        have up := orderly.moves_up [a] there (by omega)
        rw [same] at up
        exact ih up (by omega)

end Orderly

end Nyc.Data
