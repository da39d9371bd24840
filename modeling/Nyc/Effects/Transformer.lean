import Nyc.Effects.Program

/-!
# Predicate transformers over programs

`wp Φ p Q` folds a specification of the single operations through the program. The
carrier `l` is free: with `l = Prop` a specification speaks about the operations a
program may issue (`issues`), with `l = σ → Prop` about the states it moves through
(`sequential`), and `Effects.Interleaving` adds the one for programs that run among
others. The rules of this module hold for all of them.
-/

namespace Nyc.Effects

variable {Op : Type} {Res : Op → Type} {ε α β σ : Type} {l : Type}

/-- What each operation guarantees: the postcondition of its answer becomes a
precondition. -/
abbrev OpSpec (Op : Type) (Res : Op → Type) (ε l : Type) : Type :=
  (o : Op) → (Except ε (Res o) → l) → l

/-- Continue a postcondition through the rest of a program: a value goes on, an
exception ends it. -/
def onValue (f : α → l) (Q : Except ε β → l) : Except ε α → l
  | .ok a => f a
  | .error e => Q (.error e)

/-- Continue a postcondition through an exception handler. -/
def onError (Q : Except ε α → l) (h : ε → l) : Except ε α → l
  | .ok a => Q (.ok a)
  | .error e => h e

@[simp] theorem onValue_ok (f : α → l) (Q : Except ε β → l) (a : α) :
    onValue f Q (.ok a) = f a := rfl

@[simp] theorem onValue_error (f : α → l) (Q : Except ε β → l) (e : ε) :
    onValue f Q (.error e : Except ε α) = Q (.error e) := rfl

@[simp] theorem onError_ok (Q : Except ε α → l) (h : ε → l) (a : α) :
    onError Q h (.ok a) = Q (.ok a) := rfl

@[simp] theorem onError_error (Q : Except ε α → l) (h : ε → l) (e : ε) :
    onError Q h (.error e) = h e := rfl

namespace Program

/-- The weakest precondition of `p` for the postcondition `Q` on its outcome. -/
def wp (Φ : OpSpec Op Res ε l) : Program Op Res ε α → (Except ε α → l) → l
  | ret a, Q => Q (.ok a)
  | raise e, Q => Q (.error e)
  | op o k, Q => Φ o fun r => (k r).wp Φ Q

section Rules

variable (Φ : OpSpec Op Res ε l) (Q : Except ε α → l)

@[simp] theorem wp_pure (a : α) : wp Φ (pure a : Program Op Res ε α) Q = Q (.ok a) := rfl

@[simp] theorem wp_ret (a : α) : wp Φ (ret a : Program Op Res ε α) Q = Q (.ok a) := rfl

@[simp] theorem wp_throw (e : ε) : wp Φ (throw e : Program Op Res ε α) Q = Q (.error e) := rfl

@[simp] theorem wp_raise (e : ε) : wp Φ (raise e : Program Op Res ε α) Q = Q (.error e) := rfl

@[simp] theorem wp_perform (o : Op) (Q : Except ε (Res o) → l) :
    wp Φ (perform o) Q = Φ o Q :=
  congrArg (Φ o) (funext fun r => by cases r <;> rfl)

@[simp] theorem wp_bind (p : Program Op Res ε β) (f : β → Program Op Res ε α) :
    wp Φ (p >>= f) Q = wp Φ p (onValue (fun b => wp Φ (f b) Q) Q) := by
  change wp Φ (p.bind f) Q = _
  induction p with
  | ret b => rfl
  | raise e => rfl
  | op o k ih => exact congrArg (Φ o) (funext ih)

@[simp] theorem wp_dot_bind (p : Program Op Res ε β) (f : β → Program Op Res ε α) :
    wp Φ (p.bind f) Q = wp Φ p (onValue (fun b => wp Φ (f b) Q) Q) := wp_bind Φ Q p f

@[simp] theorem wp_map (f : β → α) (p : Program Op Res ε β) :
    wp Φ (f <$> p) Q = wp Φ p (onValue (fun b => Q (.ok (f b))) Q) := by
  rw [← bind_pure_comp, wp_bind]
  rfl

@[simp] theorem wp_tryCatch (p : Program Op Res ε α) (h : ε → Program Op Res ε α) :
    wp Φ (tryCatch p h) Q = wp Φ p (onError Q fun e => wp Φ (h e) Q) := by
  change wp Φ (p.handle h) Q = _
  induction p with
  | ret a => rfl
  | raise e => rfl
  | op o k ih => exact congrArg (Φ o) (funext ih)

@[simp] theorem wp_ite (c : Prop) [Decidable c] (p q : Program Op Res ε α) :
    wp Φ (if c then p else q) Q = if c then wp Φ p Q else wp Φ q Q := by
  split <;> rfl

@[simp] theorem wp_fromExcept (x : Except ε α) :
    wp Φ (fromExcept x : Program Op Res ε α) Q = Q x := by
  cases x <;> rfl

@[simp] theorem wp_whenTrue (c : Bool) (p : Program Op Res ε Unit) (Q : Except ε Unit → l) :
    wp Φ (whenTrue c p) Q = if c then wp Φ p Q else Q (.ok ()) := by
  cases c <;> rfl

@[simp] theorem wp_whenSome (x : Option β) (f : β → Program Op Res ε Unit) (Q : Except ε Unit → l) :
    wp Φ (whenSome x f) Q = match x with
      | some b => wp Φ (f b) Q
      | none => Q (.ok ()) := by
  cases x <;> rfl

end Rules

/-- Weaker postconditions at every outcome, for a carrier ordered by `le`. -/
theorem wp_mono (le : l → l → Prop) (Φ : OpSpec Op Res ε l)
    (mono : ∀ o Q Q', (∀ r, le (Q r) (Q' r)) → le (Φ o Q) (Φ o Q'))
    (p : Program Op Res ε α) (Q Q' : Except ε α → l) (weaker : ∀ r, le (Q r) (Q' r)) :
    le (wp Φ p Q) (wp Φ p Q') := by
  induction p with
  | ret a => exact weaker _
  | raise e => exact weaker _
  | op o k ih => exact mono o _ _ ih

/-! ## The operations a program may issue -/

/-- Every operation is allowed, whatever the earlier ones answered; `answers` limits
the answers that are considered. -/
def issues (allowed : Op → Prop) (answers : (o : Op) → Res o → Prop) : OpSpec Op Res ε Prop :=
  fun o Q => allowed o ∧ (∀ r, answers o r → Q (.ok r)) ∧ ∀ e, Q (.error e)

theorem issues_mono (allowed : Op → Prop) (answers : (o : Op) → Res o → Prop)
    (p : Program Op Res ε α) (Q Q' : Except ε α → Prop) (weaker : ∀ r, Q r → Q' r)
    (h : wp (issues allowed answers) p Q) : wp (issues allowed answers) p Q' := by
  refine wp_mono (fun a b => a → b) _ ?_ p Q Q' weaker h
  intro o Q Q' weaker h
  exact ⟨h.1, fun r hr => weaker _ (h.2.1 r hr), fun e => weaker _ (h.2.2 e)⟩

/-- Fewer operations allowed and more answers considered say more. -/
theorem issues_weaken {allowed allowed' : Op → Prop} {answers answers' : (o : Op) → Res o → Prop}
    (more : ∀ o, allowed o → allowed' o) (fewer : ∀ o r, answers' o r → answers o r)
    (p : Program Op Res ε α) (Q : Except ε α → Prop) (h : wp (issues allowed answers) p Q) :
    wp (issues allowed' answers') p Q := by
  induction p with
  | ret a => exact h
  | raise e => exact h
  | op o k ih =>
    exact ⟨more o h.1, fun r hr => ih _ (h.2.1 r (fewer o r hr)), fun e => ih _ (h.2.2 e)⟩

/-- What the first part answers is known where it ends. -/
theorem issues_bind {allowed : Op → Prop} {answers : (o : Op) → Res o → Prop} (J : β → Prop)
    {p : Program Op Res ε β} {f : β → Program Op Res ε α}
    (first : wp (issues allowed answers) p fun r => ∀ b, r = .ok b → J b)
    (rest : ∀ b, J b → wp (issues allowed answers) (f b) fun _ => True) :
    wp (issues allowed answers) (p >>= f) fun _ => True := by
  rw [wp_bind]
  refine issues_mono _ _ p _ _ ?_ first
  rintro (e | b) known
  · trivial
  · exact rest b (known b rfl)

theorem issues_forEach (allowed : Op → Prop) (answers : (o : Op) → Res o → Prop)
    (f : β → Program Op Res ε Unit) (xs : List β)
    (each : ∀ x ∈ xs, wp (issues allowed answers) (f x) fun _ => True) :
    wp (issues allowed answers) (forEach f xs) fun _ => True := by
  induction xs with
  | nil => trivial
  | cons x xs ih =>
    rw [forEach, wp_dot_bind]
    refine issues_mono _ _ _ _ _ ?_ (each x List.mem_cons_self)
    rintro (e | _) _
    · trivial
    · exact ih fun y hy => each y (List.mem_cons_of_mem x hy)

/-- A program that issues only operations that keep `J` keeps `J`, under any reading
`Φ` of the operations. -/
theorem wp_of_issues (Φ : OpSpec Op Res ε (σ → Prop))
    (mono : ∀ o Q Q', (∀ r s, Q r s → Q' r s) → ∀ s, Φ o Q s → Φ o Q' s)
    {allowed : Op → Prop} {answers : (o : Op) → Res o → Prop} (J : σ → Prop)
    (keeps : ∀ o s, allowed o → J s → Φ o (fun r s' => J s' ∧ ∀ a, r = .ok a → answers o a) s)
    (p : Program Op Res ε α) (Q : Except ε α → Prop) (h : wp (issues allowed answers) p Q)
    (s : σ) (holds : J s) : wp Φ p (fun r s' => J s' ∧ Q r) s := by
  induction p generalizing s with
  | ret a => exact ⟨holds, h⟩
  | raise e => exact ⟨holds, h⟩
  | op o k ih =>
    refine mono o _ _ ?_ s (keeps o s h.1 holds)
    rintro (e | a) s' ⟨holds', answer⟩
    · exact ih _ (h.2.2 e) s' holds'
    · exact ih _ (h.2.1 a (answer a rfl)) s' holds'

/-- Every operation the program may issue is allowed. -/
def Only (allowed : Op → Prop) (p : Program Op Res ε α) : Prop :=
  wp (issues allowed fun _ _ => True) p fun _ => True

namespace Only

variable {allowed allowed' : Op → Prop} {p : Program Op Res ε α}

theorem ret (a : α) : Only allowed (.ret a : Program Op Res ε α) := trivial

theorem pure (a : α) : Only allowed (Pure.pure a : Program Op Res ε α) := trivial

theorem throw (e : ε) : Only allowed (MonadExcept.throw e : Program Op Res ε α) := trivial

theorem perform {o : Op} (ok : allowed o) :
    Only allowed (perform o : Program Op Res ε (Res o)) := by
  rw [Only, wp_perform]
  exact ⟨ok, fun _ _ => trivial, fun _ => trivial⟩

theorem bind (h : Only allowed p) {f : α → Program Op Res ε β} (rest : ∀ a, Only allowed (f a)) :
    Only allowed (p >>= f) := by
  rw [Only, wp_bind]
  refine issues_mono _ _ p _ _ ?_ h
  rintro (e | a) _
  · trivial
  · exact rest a

theorem tryCatch (h : Only allowed p) {f : ε → Program Op Res ε α}
    (rest : ∀ e, Only allowed (f e)) :
    Only allowed (MonadExcept.tryCatch p f) := by
  rw [Only, wp_tryCatch]
  refine issues_mono _ _ p _ _ ?_ h
  rintro (e | a) _
  · exact rest e
  · trivial

theorem ite {c : Prop} [Decidable c] {q : Program Op Res ε α} (yes : c → Only allowed p)
    (no : ¬ c → Only allowed q) : Only allowed (if c then p else q) := by
  split
  next h => exact yes h
  next h => exact no h

theorem whenTrue {c : Bool} {p : Program Op Res ε Unit} (yes : c = true → Only allowed p) :
    Only allowed (whenTrue c p) := ite yes fun _ => ret ()

theorem whenSome {x : Option β} {f : β → Program Op Res ε Unit}
    (some : ∀ b, x = some b → Only allowed (f b)) : Only allowed (whenSome x f) := by
  cases x with
  | none => exact ret ()
  | some b => exact some b rfl

theorem fromExcept (x : Except ε α) : Only allowed (fromExcept x : Program Op Res ε α) := by
  cases x <;> exact trivial

theorem forEach {f : β → Program Op Res ε Unit} (xs : List β)
    (each : ∀ x ∈ xs, Only allowed (f x)) : Only allowed (forEach f xs) :=
  issues_forEach _ _ f xs each

theorem filterEach {f : β → Program Op Res ε Bool} (xs : List β)
    (each : ∀ x ∈ xs, Only allowed (f x)) : Only allowed (filterEach f xs) := by
  induction xs with
  | nil => exact ret []
  | cons x xs ih =>
    refine bind (each x List.mem_cons_self) fun b => bind (ih ?_) fun ys => ret _
    exact fun y there => each y (List.mem_cons_of_mem x there)

theorem mono (more : ∀ o, allowed o → allowed' o) (h : Only allowed p) : Only allowed' p :=
  issues_weaken more (fun _ _ _ => trivial) p _ h

/-- Two footprints of one program. -/
theorem and (h : Only allowed p) (h' : Only allowed' p) :
    Only (fun o => allowed o ∧ allowed' o) p := by
  unfold Only at h h' ⊢
  induction p with
  | ret a => trivial
  | raise e => trivial
  | op o k ih =>
    exact ⟨⟨h.1, h'.1⟩, fun r _ => ih _ (h.2.1 r trivial) (h'.2.1 r trivial),
      fun e => ih _ (h.2.2 e) (h'.2.2 e)⟩

/-- With no limit on the answers considered, any limit is met. -/
theorem issues (h : Only allowed p) (answers : (o : Op) → Res o → Prop) :
    wp (issues allowed answers) p fun _ => True :=
  issues_weaken (fun _ ok => ok) (fun _ _ _ => trivial) p _ h

end Only

/-! ## What a program may raise -/

/-- Operations answer with anything, and raise what `ok` allows. -/
def raising (ok : ε → Prop) : OpSpec Op Res ε Prop :=
  fun _ Q => (∀ r, Q (.ok r)) ∧ ∀ e, ok e → Q (.error e)

/-- Whatever the operations answer, the program raises only what `ok` allows, as they do. -/
def Raises (ok : ε → Prop) (p : Program Op Res ε α) : Prop :=
  wp (raising ok) p fun r => ∀ e, r = .error e → ok e

namespace Raises

variable {ok : ε → Prop} {p : Program Op Res ε α}

theorem mono_post {Q Q' : Except ε α → Prop} (weaker : ∀ r, Q r → Q' r) (h : wp (raising ok) p Q) :
    wp (raising ok) p Q' := by
  refine wp_mono (fun a b => a → b) _ ?_ p Q Q' weaker h
  intro o Q Q' weaker h
  exact ⟨fun r => weaker _ (h.1 r), fun e allowed => weaker _ (h.2 e allowed)⟩

theorem not_raised (a : α) : ∀ e, (Except.ok a : Except ε α) = .error e → ok e := by
  rintro e ⟨⟩

theorem ret (a : α) : Raises ok (.ret a : Program Op Res ε α) := not_raised a

theorem pure (a : α) : Raises ok (Pure.pure a : Program Op Res ε α) := ret a

theorem throw {e : ε} (allowed : ok e) :
    Raises ok (MonadExcept.throw e : Program Op Res ε α) := by
  rintro _ ⟨⟩
  exact allowed

theorem fromExcept {x : Except ε α} (allowed : ∀ e, x = .error e → ok e) :
    Raises ok (fromExcept x : Program Op Res ε α) := by
  cases x with
  | ok a => exact ret a
  | error e => exact throw (allowed e rfl)

theorem perform (o : Op) : Raises ok (perform o : Program Op Res ε (Res o)) := by
  rw [Raises, wp_perform]
  refine ⟨fun r => not_raised r, ?_⟩
  rintro e allowed _ ⟨⟩
  exact allowed

theorem bind (h : Raises ok p) {f : α → Program Op Res ε β} (rest : ∀ a, Raises ok (f a)) :
    Raises ok (p >>= f) := by
  rw [Raises, wp_bind]
  refine mono_post ?_ h
  rintro (e | a) allowed
  · rintro _ ⟨⟩
    exact allowed e rfl
  · exact rest a

theorem tryCatch (h : Raises ok p) {f : ε → Program Op Res ε α}
    (rest : ∀ e, ok e → Raises ok (f e)) :
    Raises ok (MonadExcept.tryCatch p f) := by
  rw [Raises, wp_tryCatch]
  refine mono_post ?_ h
  rintro (e | a) allowed
  · exact rest e (allowed e rfl)
  · exact not_raised a

theorem ite {c : Prop} [Decidable c] {q : Program Op Res ε α} (yes : Raises ok p)
    (no : Raises ok q) : Raises ok (if c then p else q) := by
  split
  · exact yes
  · exact no

theorem whenTrue {c : Bool} {p : Program Op Res ε Unit} (yes : Raises ok p) :
    Raises ok (whenTrue c p) := ite yes (ret ())

theorem whenSome {x : Option β} {f : β → Program Op Res ε Unit} (some : ∀ b, Raises ok (f b)) :
    Raises ok (whenSome x f) := by
  cases x with
  | none => exact ret ()
  | some b => exact some b

theorem forEach {f : β → Program Op Res ε Unit} (xs : List β) (each : ∀ x, Raises ok (f x)) :
    Raises ok (forEach f xs) := by
  induction xs with
  | nil => exact ret ()
  | cons x xs ih => exact bind (each x) fun _ => ih

/-- What a run raises. -/
theorem of_run (exec : (o : Op) → σ → Except ε (Res o) × σ)
    (answers : ∀ o s e, (exec o s).1 = .error e → ok e) (h : Raises ok p) (s : σ) :
    ∀ e, (run exec p s).1 = .error e → ok e := by
  unfold Raises at h
  induction p generalizing s with
  | ret a => exact h
  | raise e => exact h
  | op o k ih =>
    cases answer : (exec o s).1 with
    | ok a =>
      rw [run, answer]
      exact ih _ (h.1 a) _
    | error e =>
      rw [run, answer]
      exact ih _ (h.2 e (answers o s e answer)) _

end Raises

/-! ## The states a program moves through -/

/-- One operation after the other, on a state that `exec` moves. -/
def sequential (exec : (o : Op) → σ → Except ε (Res o) × σ) : OpSpec Op Res ε (σ → Prop) :=
  fun o Q s => Q (exec o s).1 (exec o s).2

theorem wp_sequential (exec : (o : Op) → σ → Except ε (Res o) × σ) (p : Program Op Res ε α)
    (Q : Except ε α → σ → Prop) (s : σ) :
    wp (sequential exec) p Q s ↔ Q (run exec p s).1 (run exec p s).2 := by
  induction p generalizing s with
  | ret a => rfl
  | raise e => rfl
  | op o k ih => exact ih (exec o s).1 (exec o s).2

theorem sequential_mono (exec : (o : Op) → σ → Except ε (Res o) × σ) (p : Program Op Res ε α)
    (Q Q' : Except ε α → σ → Prop) (weaker : ∀ r s, Q r s → Q' r s) (s : σ)
    (h : wp (sequential exec) p Q s) : wp (sequential exec) p Q' s := by
  rw [wp_sequential] at h ⊢
  exact weaker _ _ h

/-- Programs with the same preconditions run alike. -/
theorem run_eq_of_wp (exec : (o : Op) → σ → Except ε (Res o) × σ) {p q : Program Op Res ε α}
    {s s' : σ} (same : ∀ Q, wp (sequential exec) p Q s ↔ wp (sequential exec) q Q s') :
    run exec p s = run exec q s' := by
  have there := (wp_sequential exec q (fun r t => (r, t) = run exec q s') s').mpr rfl
  exact (wp_sequential exec p _ s).mp ((same _).mpr there)

theorem sequential_and (exec : (o : Op) → σ → Except ε (Res o) × σ) {p : Program Op Res ε α}
    {Q Q' : Except ε α → σ → Prop} {s : σ} (h : wp (sequential exec) p Q s)
    (h' : wp (sequential exec) p Q' s) : wp (sequential exec) p (fun r s => Q r s ∧ Q' r s) s := by
  rw [wp_sequential] at h h' ⊢
  exact ⟨h, h'⟩

/-- One operation first. -/
theorem sequential_then (exec : (o : Op) → σ → Except ε (Res o) × σ) {o : Op}
    {f : Res o → Program Op Res ε α} {Q : Except ε α → σ → Prop} {s : σ}
    (fails : ∀ e, (exec o s).1 = .error e → Q (.error e) (exec o s).2)
    (rest : ∀ a, (exec o s).1 = .ok a → wp (sequential exec) (f a) Q (exec o s).2) :
    wp (sequential exec) (perform o >>= f) Q s := by
  rw [wp_bind, wp_perform]
  change (onValue (fun a => wp (sequential exec) (f a) Q) Q (exec o s).1) (exec o s).2
  cases answer : (exec o s).1 with
  | error e => exact fails e answer
  | ok a => exact rest a answer

/-- One program after the other. -/
theorem sequential_bind (exec : (o : Op) → σ → Except ε (Res o) × σ) (J : α → σ → Prop)
    {p : Program Op Res ε α} {f : α → Program Op Res ε β} {Q : Except ε β → σ → Prop} {s : σ}
    (first : wp (sequential exec) p (onValue J fun r => Q r) s)
    (rest : ∀ a s', J a s' → wp (sequential exec) (f a) Q s') :
    wp (sequential exec) (p >>= f) Q s := by
  rw [wp_bind]
  refine sequential_mono exec p _ _ ?_ s first
  rintro (e | a) s' post
  · exact post
  · exact rest a s' post

/-- As `sequential`, for the runs whose operations all meet `ok` where they are issued. -/
def gated (exec : (o : Op) → σ → Except ε (Res o) × σ) (ok : Op → σ → Prop) :
    OpSpec Op Res ε (σ → Prop) :=
  fun o Q s => ok o s → Q (exec o s).1 (exec o s).2

theorem gated_mono (exec : (o : Op) → σ → Except ε (Res o) × σ) (ok : Op → σ → Prop)
    (p : Program Op Res ε α) (Q Q' : Except ε α → σ → Prop) (weaker : ∀ r s, Q r s → Q' r s)
    (s : σ) (h : wp (gated exec ok) p Q s) : wp (gated exec ok) p Q' s := by
  refine wp_mono (fun A B => ∀ s, A s → B s) _ ?_ p Q Q' weaker s h
  intro o Q Q' weaker s h passes
  exact weaker _ _ (h passes)

theorem wp_gated (exec : (o : Op) → σ → Except ε (Res o) × σ) (ok : Op → σ → Prop)
    (p : Program Op Res ε α) (Q : Except ε α → σ → Prop) (s : σ)
    (h : wp (gated exec ok) p Q s) (passes : ∀ a ∈ trail exec p s, ok a.1 a.2) :
    Q (run exec p s).1 (run exec p s).2 := by
  induction p generalizing s with
  | ret a => exact h
  | raise e => exact h
  | op o k ih =>
    have first : ok o s := passes (o, s) List.mem_cons_self
    exact ih (exec o s).1 (exec o s).2 (h first) fun a there =>
      passes a (List.mem_cons_of_mem _ there)

theorem gated_bind (exec : (o : Op) → σ → Except ε (Res o) × σ) (ok : Op → σ → Prop)
    (J : α → σ → Prop) {p : Program Op Res ε α} {f : α → Program Op Res ε β}
    {Q : Except ε β → σ → Prop} {s : σ} (first : wp (gated exec ok) p (onValue J fun r => Q r) s)
    (rest : ∀ a s', J a s' → wp (gated exec ok) (f a) Q s') :
    wp (gated exec ok) (p >>= f) Q s := by
  rw [wp_bind]
  refine gated_mono exec ok p _ _ ?_ s first
  rintro (e | a) s' post
  · exact post
  · exact rest a s' post

/-- A program whose operations all keep `J`. -/
theorem gated_keeps (exec : (o : Op) → σ → Except ε (Res o) × σ) (ok : Op → σ → Prop)
    {allowed : Op → Prop} (J : σ → Prop) (keeps : ∀ o s, allowed o → J s → J (exec o s).2)
    {p : Program Op Res ε α} (h : Only allowed p) (s : σ) (holds : J s) :
    wp (gated exec ok) p (fun _ s' => J s') s := by
  refine gated_mono exec ok p _ _ (fun _ _ post => post.1) s
    (wp_of_issues (gated exec ok) ?_ J ?_ p (fun _ => True) h s holds)
  · exact fun o Q Q' weaker s h passes => weaker _ _ (h passes)
  · exact fun o s fine holds _ => ⟨keeps o s fine holds, fun _ _ => trivial⟩

theorem gated_and (exec : (o : Op) → σ → Except ε (Res o) × σ) (ok : Op → σ → Prop)
    {p : Program Op Res ε α} {Q Q' : Except ε α → σ → Prop} {s : σ} (h : wp (gated exec ok) p Q s)
    (h' : wp (gated exec ok) p Q' s) : wp (gated exec ok) p (fun r s => Q r s ∧ Q' r s) s := by
  induction p generalizing s with
  | ret a => exact ⟨h, h'⟩
  | raise e => exact ⟨h, h'⟩
  | op o k ih => exact fun passes => ih _ (h passes) (h' passes)

/-- A program that reaches `J`, however it ends, comes first. -/
theorem gated_then (exec : (o : Op) → σ → Except ε (Res o) × σ) (ok : Op → σ → Prop) (J : σ → Prop)
    {p : Program Op Res ε α} {f : α → Program Op Res ε β} {Q : Except ε β → σ → Prop} {s : σ}
    (first : wp (gated exec ok) p (fun _ s' => J s') s) (fails : ∀ e s', J s' → Q (.error e) s')
    (rest : ∀ a s', J s' → wp (gated exec ok) (f a) Q s') : wp (gated exec ok) (p >>= f) Q s := by
  refine gated_bind exec ok (fun _ => J) ?_ rest
  refine gated_mono exec ok p _ _ ?_ s first
  rintro (e | a) s' post
  · exact fails e s' post
  · exact post

/-- A program whose operations all keep `J` comes first. -/
theorem gated_keeps_then (exec : (o : Op) → σ → Except ε (Res o) × σ) (ok : Op → σ → Prop)
    {allowed : Op → Prop} (J : σ → Prop) (keeps : ∀ o s, allowed o → J s → J (exec o s).2)
    {p : Program Op Res ε α} {f : α → Program Op Res ε β} {Q : Except ε β → σ → Prop} {s : σ}
    (h : Only allowed p) (holds : J s) (fails : ∀ e s', J s' → Q (.error e) s')
    (rest : ∀ a s', J s' → wp (gated exec ok) (f a) Q s') : wp (gated exec ok) (p >>= f) Q s :=
  gated_then exec ok J (gated_keeps exec ok J keeps h s holds) fails rest

theorem gated_of_sequential (exec : (o : Op) → σ → Except ε (Res o) × σ) (ok : Op → σ → Prop)
    {p : Program Op Res ε α} {Q : Except ε α → σ → Prop} {s : σ} (h : wp (sequential exec) p Q s) :
    wp (gated exec ok) p Q s := by
  induction p generalizing s with
  | ret a => exact h
  | raise e => exact h
  | op o k ih => exact fun _ => ih _ h

/-- A loop whose body returns, with an invariant of the elements that are done. -/
theorem gated_forEach (exec : (o : Op) → σ → Except ε (Res o) × σ) (ok : Op → σ → Prop)
    (J : List β → σ → Prop) {f : β → Program Op Res ε Unit} (xs : List β)
    (each : ∀ done x s, x ∈ xs → J done s → wp (gated exec ok) (f x)
      (fun r s' => r = .ok () ∧ J (x :: done) s') s)
    {done : List β} {s : σ} (holds : J done s) :
    wp (gated exec ok) (forEach f xs) (fun r s' => r = .ok () ∧ J (xs.reverse ++ done) s') s := by
  induction xs generalizing done s with
  | nil => exact ⟨rfl, holds⟩
  | cons x xs ih =>
    rw [forEach, wp_dot_bind]
    apply gated_mono exec ok (f x) _ _ _ s (each done x s List.mem_cons_self holds)
    rintro _ s' ⟨rfl, next⟩
    rw [onValue_ok, List.reverse_cons, List.append_assoc]
    exact ih (fun done y s there => each done y s (List.mem_cons_of_mem x there)) next

/-- A filtering loop whose body returns. -/
theorem sequential_filterEach (exec : (o : Op) → σ → Except ε (Res o) × σ) (J : List β → σ → Prop)
    {f : β → Program Op Res ε Bool} (xs : List β)
    (each : ∀ done x s, x ∈ xs → J done s →
      wp (sequential exec) (f x) (fun r s' => (∃ b, r = .ok b) ∧ J (x :: done) s') s)
    {d : List β} {s : σ} (holds : J d s) :
    wp (sequential exec) (filterEach f xs) (fun r s' => (∃ ys, r = .ok ys) ∧
      J (xs.reverse ++ d) s') s := by
  induction xs generalizing d s with
  | nil => exact ⟨⟨[], rfl⟩, holds⟩
  | cons x xs ih =>
    rw [filterEach, wp_dot_bind]
    apply sequential_mono exec (f x) _ _ _ s (each d x s List.mem_cons_self holds)
    rintro _ s' ⟨⟨b, rfl⟩, next⟩
    rw [onValue_ok, wp_dot_bind, List.reverse_cons, List.append_assoc]
    apply sequential_mono exec (filterEach f xs) _ _ _ s'
      (ih (fun done y s there => each done y s (List.mem_cons_of_mem x there)) next)
    rintro _ s'' ⟨⟨ys, rfl⟩, all⟩
    exact ⟨⟨_, rfl⟩, all⟩

/-- As `sequential`, and every operation meets `ok` where it is issued. -/
def checked (exec : (o : Op) → σ → Except ε (Res o) × σ) (ok : Op → σ → Prop) :
    OpSpec Op Res ε (σ → Prop) :=
  fun o Q s => ok o s ∧ Q (exec o s).1 (exec o s).2

theorem wp_checked (exec : (o : Op) → σ → Except ε (Res o) × σ) (ok : Op → σ → Prop)
    (p : Program Op Res ε α) (Q : Except ε α → σ → Prop) (s : σ) :
    wp (checked exec ok) p Q s ↔
      (∀ a ∈ trail exec p s, ok a.1 a.2) ∧ Q (run exec p s).1 (run exec p s).2 := by
  induction p generalizing s with
  | ret a => exact ⟨fun post => ⟨fun _ there => absurd there List.not_mem_nil, post⟩, fun h => h.2⟩
  | raise e =>
    exact ⟨fun post => ⟨fun _ there => absurd there List.not_mem_nil, post⟩, fun h => h.2⟩
  | op o k ih =>
    change (ok o s ∧ wp _ (k (exec o s).1) Q (exec o s).2) ↔ _
    rw [ih]
    constructor
    · rintro ⟨first, rest, post⟩
      refine ⟨fun a there => ?_, post⟩
      rcases List.mem_cons.mp there with rfl | later
      · exact first
      · exact rest a later
    · rintro ⟨all, post⟩
      exact ⟨all (o, s) List.mem_cons_self,
        fun a there => all a (List.mem_cons_of_mem _ there), post⟩

/-- What a checked run says, without what its operations meet. -/
theorem sequential_of_checked {exec : (o : Op) → σ → Except ε (Res o) × σ} {ok : Op → σ → Prop}
    {p : Program Op Res ε α} {Q : Except ε α → σ → Prop} {s : σ} (h : wp (checked exec ok) p Q s) :
    wp (sequential exec) p Q s :=
  (wp_sequential exec p Q s).mpr ((wp_checked exec ok p Q s).mp h).2

/-- Nothing need be met. -/
theorem wp_unchecked (exec : (o : Op) → σ → Except ε (Res o) × σ) (p : Program Op Res ε α)
    (Q : Except ε α → σ → Prop) (s : σ) :
    wp (checked exec fun _ _ => True) p Q s ↔ wp (sequential exec) p Q s := by
  rw [wp_checked, wp_sequential]
  exact and_iff_right fun _ _ => trivial

theorem sequential_of_unchecked {exec : (o : Op) → σ → Except ε (Res o) × σ}
    {p : Program Op Res ε α} {Q : Except ε α → σ → Prop} {s : σ}
    (h : wp (checked exec fun _ _ => True) p Q s) : wp (sequential exec) p Q s :=
  (wp_unchecked exec p Q s).mp h

theorem checked_mono (exec : (o : Op) → σ → Except ε (Res o) × σ) (ok : Op → σ → Prop)
    (p : Program Op Res ε α) (Q Q' : Except ε α → σ → Prop) (weaker : ∀ r s, Q r s → Q' r s)
    (s : σ) (h : wp (checked exec ok) p Q s) : wp (checked exec ok) p Q' s := by
  rw [wp_checked] at h ⊢
  exact ⟨h.1, weaker _ _ h.2⟩

theorem checked_bind (exec : (o : Op) → σ → Except ε (Res o) × σ) (ok : Op → σ → Prop)
    (J : α → σ → Prop) {p : Program Op Res ε α} {f : α → Program Op Res ε β}
    {Q : Except ε β → σ → Prop} {s : σ} (first : wp (checked exec ok) p (onValue J fun r => Q r) s)
    (rest : ∀ a s', J a s' → wp (checked exec ok) (f a) Q s') :
    wp (checked exec ok) (p >>= f) Q s := by
  rw [wp_bind]
  refine checked_mono exec ok p _ _ ?_ s first
  rintro (e | a) s' post
  · exact post
  · exact rest a s' post

/-- A program whose operations all keep `J`, and meet `ok` where `J` holds. -/
theorem checked_of_issues (exec : (o : Op) → σ → Except ε (Res o) × σ) (ok : Op → σ → Prop)
    {allowed : Op → Prop} {answers : (o : Op) → Res o → Prop} (J : σ → Prop)
    (meets : ∀ o s, allowed o → J s → ok o s) (keeps : ∀ o s, allowed o → J s → J (exec o s).2)
    (gives : ∀ o s a, J s → (exec o s).1 = .ok a → answers o a)
    (p : Program Op Res ε α) (Q : Except ε α → Prop) (h : wp (issues allowed answers) p Q)
    (s : σ) (holds : J s) : wp (checked exec ok) p (fun r s' => J s' ∧ Q r) s := by
  refine wp_of_issues (checked exec ok) ?_ J ?_ p Q h s holds
  · intro o Q Q' weaker s h
    exact ⟨h.1, weaker _ _ h.2⟩
  · intro o s fine holds
    exact ⟨meets o s fine holds, keeps o s fine holds, fun a same => gives o s a holds same⟩

/-- Operations that all keep `J`, and meet `ok` where `J` holds. -/
theorem checked_keeps (exec : (o : Op) → σ → Except ε (Res o) × σ) (ok : Op → σ → Prop)
    {allowed : Op → Prop} (J : σ → Prop) (meets : ∀ o s, allowed o → J s → ok o s)
    (keeps : ∀ o s, allowed o → J s → J (exec o s).2) {p : Program Op Res ε α} {s : σ}
    (h : Only allowed p) (holds : J s) : wp (checked exec ok) p (fun _ s' => J s') s := by
  have kept := checked_of_issues exec ok J meets keeps (fun _ _ _ _ _ => trivial) p (fun _ => True)
    h s holds
  refine checked_mono exec ok _ _ _ ?_ s kept
  intro _ s' post
  exact post.1

/-- Such operations come first. -/
theorem checked_keeps_then (exec : (o : Op) → σ → Except ε (Res o) × σ) (ok : Op → σ → Prop)
    {allowed : Op → Prop} (J : σ → Prop) (meets : ∀ o s, allowed o → J s → ok o s)
    (keeps : ∀ o s, allowed o → J s → J (exec o s).2) {p : Program Op Res ε α}
    {f : α → Program Op Res ε β} {Q : Except ε β → σ → Prop} {s : σ} (h : Only allowed p)
    (holds : J s) (fails : ∀ e s', J s' → Q (.error e) s')
    (rest : ∀ a s', J s' → wp (checked exec ok) (f a) Q s') :
    wp (checked exec ok) (p >>= f) Q s := by
  refine checked_bind exec ok (fun _ => J) ?_ rest
  refine checked_mono exec ok _ _ _ ?_ s (checked_keeps exec ok J meets keeps h holds)
  rintro (e | a) s' kept
  · exact fails e s' kept
  · exact kept

/-- A sequential run of a program that issues only operations that keep `J`. -/
theorem sequential_of_issues (exec : (o : Op) → σ → Except ε (Res o) × σ)
    {allowed : Op → Prop} {answers : (o : Op) → Res o → Prop} (J : σ → Prop)
    (keeps : ∀ o s, allowed o → J s → J (exec o s).2)
    (gives : ∀ o s a, J s → (exec o s).1 = .ok a → answers o a)
    (p : Program Op Res ε α) (Q : Except ε α → Prop) (h : wp (issues allowed answers) p Q)
    (s : σ) (holds : J s) : wp (sequential exec) p (fun r s' => J s' ∧ Q r) s := by
  refine wp_of_issues (sequential exec) (fun o Q Q' weaker s h => weaker _ _ h) J ?_ p Q h s holds
  intro o s ok holds
  exact ⟨keeps o s ok holds, fun a same => gives o s a holds same⟩

/-- A sequential run of a program whose operations all keep `J`. -/
theorem sequential_keeps (exec : (o : Op) → σ → Except ε (Res o) × σ) {allowed : Op → Prop}
    (J : σ → Prop) (keeps : ∀ o s, allowed o → J s → J (exec o s).2) {p : Program Op Res ε α}
    (h : Only allowed p) (s : σ) (holds : J s) : wp (sequential exec) p (fun _ s' => J s') s :=
  sequential_mono exec p _ _ (fun _ _ post => post.1) s
    (sequential_of_issues exec J keeps (fun _ _ _ _ _ => trivial) p (fun _ => True) h s holds)

/-- A program whose operations all keep `J` comes first. -/
theorem sequential_keeps_then (exec : (o : Op) → σ → Except ε (Res o) × σ) {allowed : Op → Prop}
    (J : σ → Prop) (keeps : ∀ o s, allowed o → J s → J (exec o s).2) {p : Program Op Res ε α}
    {f : α → Program Op Res ε β} {Q : Except ε β → σ → Prop} {s : σ} (h : Only allowed p)
    (holds : J s) (fails : ∀ e s', J s' → Q (.error e) s')
    (rest : ∀ a s', J s' → wp (sequential exec) (f a) Q s') :
    wp (sequential exec) (p >>= f) Q s := by
  refine sequential_bind exec (fun _ => J) ?_ rest
  refine sequential_mono exec p _ _ ?_ s (sequential_keeps exec J keeps h s holds)
  rintro (e | a) s' post
  · exact fails e s' post
  · exact post

end Program

end Nyc.Effects
