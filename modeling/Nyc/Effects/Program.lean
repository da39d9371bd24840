import Mathlib.Logic.Basic

/-!
# Programs over an interface of atomic operations

A program is a tree: it ends, raises, or issues one operation and continues with
the answer. The interface says only which operations there are and what each one
returns, so one program text has a sequential meaning (`run`), a meaning among other
programs (`Effects.Interleaving`) and a logic (`Effects.Transformer`).
-/

namespace Nyc.Effects

/-- A program over operations `Op`, whose operation `o` answers with a `Res o` or
raises an `ε`. -/
inductive Program (Op : Type) (Res : Op → Type) (ε α : Type) where
  | ret (a : α)
  | raise (e : ε)
  | op (o : Op) (k : Except ε (Res o) → Program Op Res ε α)

namespace Program

variable {Op : Type} {Res : Op → Type} {ε α β γ σ : Type}

def bind : Program Op Res ε α → (α → Program Op Res ε β) → Program Op Res ε β
  | ret a, f => f a
  | raise e, _ => raise e
  | op o k, f => op o fun r => (k r).bind f

/-- `try p except e: h e`. -/
def handle : Program Op Res ε α → (ε → Program Op Res ε α) → Program Op Res ε α
  | ret a, _ => ret a
  | raise e, h => h e
  | op o k, h => op o fun r => (k r).handle h

/-- Raise what a pure computation raises. -/
def fromExcept : Except ε α → Program Op Res ε α
  | .ok a => ret a
  | .error e => raise e

/-- Issue one operation and return its answer, or raise what it raises. -/
def perform (o : Op) : Program Op Res ε (Res o) := op o fromExcept

instance : Monad (Program Op Res ε) where
  pure := ret
  bind := bind

instance : MonadExceptOf ε (Program Op Res ε) where
  throw := raise
  tryCatch := handle

theorem bind_ret (p : Program Op Res ε α) : p.bind ret = p := by
  induction p with
  | ret a => rfl
  | raise e => rfl
  | op o k ih => simp only [bind, ih]

theorem bind_assoc (p : Program Op Res ε α) (f : α → Program Op Res ε β)
    (g : β → Program Op Res ε γ) : (p.bind f).bind g = p.bind fun a => (f a).bind g := by
  induction p with
  | ret a => rfl
  | raise e => rfl
  | op o k ih => simp only [bind, ih]

instance : LawfulMonad (Program Op Res ε) :=
  LawfulMonad.mk' _ bind_ret (fun _ _ => rfl) bind_assoc

/-- A `for` loop over a list, without an early exit. -/
def forEach (f : β → Program Op Res ε Unit) : List β → Program Op Res ε Unit
  | [] => ret ()
  | x :: xs => (f x).bind fun _ => forEach f xs

/-- A list comprehension `[x for x in xs if f x]` whose condition is a program. -/
def filterEach (f : β → Program Op Res ε Bool) : List β → Program Op Res ε (List β)
  | [] => ret []
  | x :: xs => (f x).bind fun b => (filterEach f xs).bind fun ys => ret (if b then x :: ys else ys)

/-- `if c: p` where more follows. -/
def whenTrue (c : Bool) (p : Program Op Res ε Unit) : Program Op Res ε Unit :=
  if c then p else ret ()

/-- `if x is not None: f(x)`. -/
def whenSome (x : Option α) (f : α → Program Op Res ε Unit) : Program Op Res ε Unit :=
  match x with
  | some a => f a
  | none => ret ()

/-- The sequential meaning: `exec` answers every operation and moves the state. -/
def run (exec : (o : Op) → σ → Except ε (Res o) × σ) : Program Op Res ε α → σ → Except ε α × σ
  | ret a, s => (.ok a, s)
  | raise e, s => (.error e, s)
  | op o k, s => run exec (k (exec o s).1) (exec o s).2

theorem run_perform (exec : (o : Op) → σ → Except ε (Res o) × σ) (o : Op) (s : σ) :
    run exec (perform o) s = exec o s := by
  change run exec (fromExcept (exec o s).1) (exec o s).2 = exec o s
  rcases exec o s with ⟨_ | _, _⟩ <;> rfl

/-- The operations that a run issues, each with the state that it finds. -/
def trail (exec : (o : Op) → σ → Except ε (Res o) × σ) : Program Op Res ε α → σ → List (Op × σ)
  | op o k, s => (o, s) :: trail exec (k (exec o s).1) (exec o s).2
  | _, _ => []

/-- One operation issues itself. -/
theorem trail_perform (exec : (o : Op) → σ → Except ε (Res o) × σ) (o : Op) (s : σ) :
    trail exec (perform o) s = [(o, s)] := by
  change (o, s) :: trail exec (fromExcept (exec o s).1) (exec o s).2 = _
  cases (exec o s).1 <;> rfl

section

variable (exec : (o : Op) → σ → Except ε (Res o) × σ) (p : Program Op Res ε α) (f : α →
  Program Op Res ε β)

theorem run_bind (s : σ) : run exec (p >>= f) s = match run exec p s with
    | (.ok a, s') => run exec (f a) s'
    | (.error e, s') => (.error e, s') := by
  change run exec (p.bind f) s = _
  induction p generalizing s with
  | ret a => rfl
  | raise e => rfl
  | op o k ih => exact ih (exec o s).1 (exec o s).2

/-- The operations of the first part come first. -/
theorem trail_bind (s : σ) : trail exec (p >>= f) s = trail exec p s ++ match run exec p s with
    | (.ok a, s') => trail exec (f a) s'
    | (.error _, _) => [] := by
  change trail exec (p.bind f) s = _
  induction p generalizing s with
  | ret a => rfl
  | raise e => rfl
  | op o k ih => exact congrArg (List.cons (o, s)) (ih (exec o s).1 (exec o s).2)

variable {exec p f} {s : σ}

theorem run_bind_ok {a : α} {s' : σ} (first : run exec p s = (.ok a, s')) :
    run exec (p >>= f) s = run exec (f a) s' := by
  rw [run_bind, first]

theorem run_bind_error {e : ε} {s' : σ} (first : run exec p s = (.error e, s')) :
    run exec (p >>= f) s = (.error e, s') := by
  rw [run_bind, first]

theorem trail_bind_ok {a : α} {s' : σ} (first : run exec p s = (.ok a, s')) :
    trail exec (p >>= f) s = trail exec p s ++ trail exec (f a) s' := by
  rw [trail_bind, first]

theorem mem_trail_first {a : Op × σ} (there : a ∈ trail exec p s) : a ∈ trail exec (p >>= f) s := by
  rw [trail_bind]
  exact List.mem_append_left _ there

theorem mem_trail_next {b : α} {s' : σ} (first : run exec p s = (.ok b, s')) {a : Op × σ}
    (there : a ∈ trail exec (f b) s') : a ∈ trail exec (p >>= f) s := by
  rw [trail_bind_ok first]
  exact List.mem_append_right _ there

variable (exec p s) (h : ε → Program Op Res ε α)

theorem run_tryCatch : run exec (tryCatch p h) s = match run exec p s with
    | (.ok a, s') => (.ok a, s')
    | (.error e, s') => run exec (h e) s' := by
  change run exec (p.handle h) s = _
  induction p generalizing s with
  | ret a => rfl
  | raise e => rfl
  | op o k ih => exact ih (exec o s).1 (exec o s).2

/-- The operations of the handler come after those of what it guards. -/
theorem trail_tryCatch : trail exec (tryCatch p h) s = trail exec p s ++ match run exec p s with
    | (.ok _, _) => []
    | (.error e, s') => trail exec (h e) s' := by
  change trail exec (p.handle h) s = _
  induction p generalizing s with
  | ret a => rfl
  | raise e => rfl
  | op o k ih => exact congrArg (List.cons (o, s)) (ih (exec o s).1 (exec o s).2)

theorem mem_trail_try {a : Op × σ} (there : a ∈ trail exec p s) :
    a ∈ trail exec (tryCatch p h) s := by
  rw [trail_tryCatch]
  exact List.mem_append_left _ there

end

end Program

end Nyc.Effects
