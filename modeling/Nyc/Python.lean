import Mathlib.Algebra.Group.Nat.Defs
import Mathlib.Data.Char
import Mathlib.Data.List.Lex

/-! The Python values the model uses: text, truthiness and the exceptions raised. -/

namespace Nyc

/-- Python `str`, as the list of its characters. -/
abbrev Str : Type := List Char

instance : Coe String Str := ⟨String.toList⟩

/-- A UUID in text form. -/
abbrev Id : Type := Str

/-- `bool(x)` for an optional string: `None` and `""` are false. -/
def truthy : Option Str → Bool
  | none => false
  | some x => !x.isEmpty

/-- `x or y` for an optional string `x`. -/
def orElse (x : Option Str) (y : Str) : Str :=
  match x with
  | some (c :: cs) => c :: cs
  | _ => y

theorem orElse_of_truthy {x : Option Str} (h : truthy x = true) (y : Str) :
    orElse x y = x.getD [] := by
  match x, h with
  | some (_ :: _), _ => rfl

theorem orElse_of_falsy {x : Option Str} (h : truthy x = false) (y : Str) : orElse x y = y := by
  match x, h with
  | none, _ | some [], _ => rfl

/-- What a request or a pass may raise. `privops` is `PrivopsError`, a subclass of
`RuntimeError`; `os` is `OSError` with its subclasses; `requestError` is `httpx.RequestError`. -/
inductive Exn where
  | http (code : Nat) (detail : Str)
  | privops
  | runtime (message : Str)
  | rqlite
  | value (message : Str)
  | indexError
  | typeError
  | attributeError
  | os
  | requestError
  deriving DecidableEq, Repr

/-- `str(exc)` as the task runner records it. -/
def Exn.text : Exn → Str
  | http _ detail => detail
  | privops => "privileged command failed"
  | runtime message => message
  | rqlite => "constraint failed"
  | value message => message
  | indexError => "list index out of range"
  | typeError => "'list' object is not an iterator"
  | attributeError => "'NoneType' object has no attribute '__dict__'"
  | os => "os error"
  | requestError => "request failed"

/-- Where a computation in two parts raises. -/
theorem error_bind {α β : Type} {x : Except Exn α} {f : α → Except Exn β} {e : Exn}
    (raised : x >>= f = .error e) : x = .error e ∨ ∃ a, x = .ok a ∧ f a = .error e := by
  cases x with
  | error e' =>
    cases raised
    exact .inl rfl
  | ok a => exact .inr ⟨a, rfl, raised⟩

/-- Where a computation in two parts ends with a value. -/
theorem ok_bind {α β : Type} {x : Except Exn α} {f : α → Except Exn β} {b : β}
    (ended : x >>= f = .ok b) : ∃ a, x = .ok a ∧ f a = .ok b := by
  cases x with
  | error e => cases ended
  | ok a => exact ⟨a, rfl, ended⟩

/-- A list comprehension raises what one of its elements raises. -/
theorem error_mapM {α β : Type} {f : α → Except Exn β} {xs : List α} {e : Exn}
    (raised : xs.mapM f = .error e) :
    ∃ x ∈ xs, f x = .error e := by
  induction xs with
  | nil => cases raised
  | cons x xs ih =>
    rw [List.mapM_cons] at raised
    rcases error_bind raised with first | ⟨b, -, later⟩
    · exact ⟨x, List.mem_cons_self, first⟩
    · rcases error_bind later with rest | ⟨bs, -, last⟩
      · obtain ⟨y, there, raised⟩ := ih rest
        exact ⟨y, List.mem_cons_of_mem _ there, raised⟩
      · cases last

theorem ok_mapM {α β : Type} {f : α → Except Exn β} {g : α → β} {xs : List α}
    (each : ∀ x ∈ xs, f x = .ok (g x)) :
    xs.mapM f = .ok (xs.map g) := by
  induction xs with
  | nil => rfl
  | cons x xs ih =>
    rw [List.mapM_cons, each x List.mem_cons_self,
      ih fun y there => each y (List.mem_cons_of_mem _ there)]
    rfl

end Nyc
