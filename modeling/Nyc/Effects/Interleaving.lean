import Nyc.Effects.Transformer

/-!
# Programs that run among others

A configuration is a list of programs over one shared state; a step lets one of them
issue its next operation. The history of the answered operations is kept beside the
state, so that a property of a run can speak about the order of its operations.

`among` reads a program under interference, in the manner of rely and guarantee:
between two operations of a program the shared state moves as its `rely` allows, and
every operation moves it as the `guar` promises the others. `Reachable.holds` puts the
programs together: every reachable configuration keeps the shared invariant, and each
program stands where its own weakest precondition says.
-/

namespace Nyc.Effects

variable {Op : Type} {Res : Op → Type} {ε α σ : Type}

/-- An operation that thread `thread` issued, with its answer. -/
structure Event (Op : Type) (Res : Op → Type) (ε : Type) where
  thread : Nat
  op : Op
  answer : Except ε (Res op)

/-- The state the programs share and the events so far, the newest first. -/
structure Shared (Op : Type) (Res : Op → Type) (ε σ : Type) where
  world : σ
  trace : List (Event Op Res ε)

/-- Thread `i` issues `o`. -/
def Shared.after (exec : (o : Op) → σ → Except ε (Res o) × σ) (s : Shared Op Res ε σ)
    (i : Nat) (o : Op) : Shared Op Res ε σ :=
  ⟨(exec o s.world).2, ⟨i, o, (exec o s.world).1⟩ :: s.trace⟩

namespace Shared

/-- The newest event that meets the condition. -/
def latest (p : Event Op Res ε → Bool) (s : Shared Op Res ε σ) : Option (Event Op Res ε) :=
  s.trace.find? p

/-- Between `s` and `s'` only threads other than `i` issued operations. -/
def Others (i : Nat) (s s' : Shared Op Res ε σ) : Prop :=
  ∃ new, s'.trace = new ++ s.trace ∧ ∀ e ∈ new, e.thread ≠ i

theorem Others.refl (i : Nat) (s : Shared Op Res ε σ) : Others i s s := ⟨[], rfl, nofun⟩

theorem Others.trans {i : Nat} {s s' s'' : Shared Op Res ε σ} (h : Others i s s')
    (h' : Others i s' s'') : Others i s s'' := by
  obtain ⟨new, same, other⟩ := h
  obtain ⟨new', same', other'⟩ := h'
  refine ⟨new' ++ new, by rw [same', same, List.append_assoc], fun e there => ?_⟩
  exact (List.mem_append.mp there).elim (other' e) (other e)

theorem Others.of_after {i j : Nat} (exec : (o : Op) → σ → Except ε (Res o) × σ)
    (s : Shared Op Res ε σ) (o : Op) (differ : j ≠ i) : Others i s (s.after exec j o) :=
  ⟨[⟨j, o, (exec o s.world).1⟩], rfl, fun e there => by
    rw [List.mem_singleton.mp there]
    exact differ⟩

theorem Others.mem {i : Nat} {s s' : Shared Op Res ε σ} (h : Others i s s')
    {e : Event Op Res ε} (own : e.thread = i) : e ∈ s'.trace ↔ e ∈ s.trace := by
  obtain ⟨new, same, other⟩ := h
  rw [same, List.mem_append]
  exact ⟨fun there => there.elim (fun h => absurd own (other e h)) id, .inr⟩

/-- What thread `i` did last is not changed by the others. -/
theorem Others.latest {i : Nat} {s s' : Shared Op Res ε σ} (h : Others i s s')
    (p : Event Op Res ε → Bool) (own : ∀ e, p e = true → e.thread = i) :
    s'.latest p = s.latest p := by
  obtain ⟨new, same, other⟩ := h
  have none : new.find? p = none := List.find?_eq_none.mpr fun e there found =>
    other e there (own e found)
  rw [Shared.latest, same, List.find?_append, none, Option.none_or]
  rfl

end Shared

structure Config (Op : Type) (Res : Op → Type) (ε α σ : Type) where
  shared : Shared Op Res ε σ
  threads : List (Program Op Res ε α)

/-- When a thread may issue an operation: a condition on the state before the step. -/
abbrev Gate (Op : Type) (Res : Op → Type) (ε σ : Type) : Type :=
  Nat → Op → Shared Op Res ε σ → Prop

/-- The configurations that the threads reach, in any order of their steps, when every
step passes the gate. -/
inductive Reachable (exec : (o : Op) → σ → Except ε (Res o) × σ) (may : Gate Op Res ε σ)
    (start : Config Op Res ε α σ) : Config Op Res ε α σ → Prop where
  | refl : Reachable exec may start start
  | step {c : Config Op Res ε α σ} {i : Nat} {o : Op}
      {k : Except ε (Res o) → Program Op Res ε α} : Reachable exec may start c →
      c.threads[i]? = some (.op o k) → may i o c.shared →
      Reachable exec may start
        ⟨c.shared.after exec i o, c.threads.set i (k (exec o c.shared.world).1)⟩

/-- Every step may happen. -/
def anyStep : Gate Op Res ε σ := fun _ _ _ => True

namespace Config

/-- Follow a schedule; `none` where a thread has no step or the gate is closed. -/
def follow (exec : (o : Op) → σ → Except ε (Res o) × σ) (may : Gate Op Res ε σ)
    [∀ i o s, Decidable (may i o s)] : List Nat → Config Op Res ε α σ → Option (Config Op Res ε α σ)
  | [], c => some c
  | i :: rest, c =>
    match c.threads[i]? with
    | some (.op o k) =>
      if may i o c.shared then
        follow exec may rest
          ⟨c.shared.after exec i o, c.threads.set i (k (exec o c.shared.world).1)⟩
      else none
    | _ => none

theorem reachable_of_follow (exec : (o : Op) → σ → Except ε (Res o) × σ) (may : Gate Op Res ε σ)
    [∀ i o s, Decidable (may i o s)] (start : Config Op Res ε α σ) (schedule : List Nat)
    (c c' : Config Op Res ε α σ) (sofar : Reachable exec may start c)
    (followed : c.follow exec may schedule = some c') : Reachable exec may start c' := by
  induction schedule generalizing c with
  | nil =>
    cases followed
    exact sofar
  | cons i rest ih =>
    simp only [follow] at followed
    split at followed
    next o k there =>
      split at followed
      next passes => exact ih _ (sofar.step there passes) followed
      · cases followed
    · cases followed

/-- A schedule that leads where `P` holds is a reachable configuration. -/
theorem exists_of_follow (exec : (o : Op) → σ → Except ε (Res o) × σ) (may : Gate Op Res ε σ)
    [∀ i o s, Decidable (may i o s)] (start : Config Op Res ε α σ) (schedule : List Nat)
    (P : Config Op Res ε α σ → Prop) [DecidablePred P]
    (there : (start.follow exec may schedule).any (fun c => decide (P c)) = true) :
    ∃ c, Reachable exec may start c ∧ P c := by
  obtain ⟨c, followed, holds⟩ := (Option.any_eq_true _ _).mp there
  exact ⟨c, reachable_of_follow exec may start schedule start c .refl followed,
    of_decide_eq_true holds⟩

end Config

instance (i : Nat) (o : Op) (s : Shared Op Res ε σ) : Decidable (anyStep i o s) := .isTrue trivial

namespace Program

/-- Thread `i` among others: it may find the state anywhere that `rely` leads to, and
answers for the invariant and for `guar` at each of its own operations. -/
def among (exec : (o : Op) → σ → Except ε (Res o) × σ) (i : Nat)
    (inv : Shared Op Res ε σ → Prop) (rely guar : Shared Op Res ε σ → Shared Op Res ε σ → Prop)
    (may : Op → Shared Op Res ε σ → Prop) : OpSpec Op Res ε (Shared Op Res ε σ → Prop) :=
  fun o Q s => ∀ s', rely s s' → inv s' → may o s' →
    inv (s'.after exec i o) ∧ guar s' (s'.after exec i o) ∧
      Q (exec o s'.world).1 (s'.after exec i o)

section

variable {exec : (o : Op) → σ → Except ε (Res o) × σ} {i : Nat}
  {inv : Shared Op Res ε σ → Prop} {rely guar : Shared Op Res ε σ → Shared Op Res ε σ → Prop}
  {may : Op → Shared Op Res ε σ → Prop}

theorem among_mono (p : Program Op Res ε α) (Q Q' : Except ε α → Shared Op Res ε σ → Prop)
    (weaker : ∀ r s, Q r s → Q' r s) (s : Shared Op Res ε σ)
    (h : wp (among exec i inv rely guar may) p Q s) :
    wp (among exec i inv rely guar may) p Q' s := by
  refine wp_mono (fun A B => ∀ s, A s → B s) _ ?_ p Q Q' weaker s h
  intro o Q Q' weaker s h s' moved holds passes
  have now := h s' moved holds passes
  exact ⟨now.1, now.2.1, weaker _ _ now.2.2⟩

/-- One program after the other, where only the values of the first count. -/
theorem among_seq {β : Type} {p : Program Op Res ε α} {f : α → Program Op Res ε β}
    {J : α → Shared Op Res ε σ → Prop} {s : Shared Op Res ε σ}
    (h : wp (among exec i inv rely guar may) p (fun r s' => ∀ a, r = .ok a → J a s') s)
    (rest : ∀ a s', J a s' → wp (among exec i inv rely guar may) (f a) (fun _ _ => True) s') :
    wp (among exec i inv rely guar may) (p >>= f) (fun _ _ => True) s := by
  rw [wp_bind]
  refine among_mono p _ _ ?_ s h
  rintro (e | a) s' post
  · trivial
  · exact rest a s' (post a rfl)

/-- One program after the other, where nothing is kept of the first. -/
theorem among_then {β : Type} {p : Program Op Res ε α} {f : α → Program Op Res ε β}
    {s : Shared Op Res ε σ} (h : wp (among exec i inv rely guar may) p (fun _ _ => True) s)
    (rest : ∀ a s', wp (among exec i inv rely guar may) (f a) (fun _ _ => True) s') :
    wp (among exec i inv rely guar may) (p >>= f) (fun _ _ => True) s :=
  among_seq (J := fun _ _ => True) (among_mono p _ _ (fun _ _ _ _ _ => trivial) s h)
    fun a s' _ => rest a s'

/-- A program that issues only operations that keep a stable `J` keeps it among others. -/
theorem among_of_issues {allowed : Op → Prop} {answers : (o : Op) → Res o → Prop}
    (J : Shared Op Res ε σ → Prop) (stable : ∀ s s', J s → rely s s' → inv s' → J s')
    (keeps : ∀ o s, allowed o → J s → inv s → may o s →
      inv (s.after exec i o) ∧ guar s (s.after exec i o) ∧ J (s.after exec i o) ∧
        ∀ a, (exec o s.world).1 = .ok a → answers o a)
    (p : Program Op Res ε α) (Q : Except ε α → Prop) (h : wp (issues allowed answers) p Q)
    (s : Shared Op Res ε σ) (holds : J s) :
    wp (among exec i inv rely guar may) p (fun r s' => J s' ∧ Q r) s := by
  refine wp_of_issues _ ?_ J ?_ p Q h s holds
  · intro o Q Q' weaker s h s' moved holds passes
    have now := h s' moved holds passes
    exact ⟨now.1, now.2.1, weaker _ _ now.2.2⟩
  · intro o s ok holds s' moved inv' passes
    have now := keeps o s' ok (stable s s' holds moved inv') inv' passes
    exact ⟨now.1, now.2.1, now.2.2.1, now.2.2.2⟩

/-- Two readings of one program at once: the second may take the first one's invariant for
granted. -/
theorem among_and {inv' : Shared Op Res ε σ → Prop}
    {rely' guar' : Shared Op Res ε σ → Shared Op Res ε σ → Prop}
    {p : Program Op Res ε α} {Q Q' : Except ε α → Shared Op Res ε σ → Prop} {s : Shared Op Res ε σ}
    (h : wp (among exec i inv rely guar may) p Q s)
    (h' : wp (among exec i inv' rely' guar' fun _ s => inv s) p Q' s) :
    wp (among exec i (fun s => inv s ∧ inv' s) (fun s s' => rely s s' ∧ rely' s s')
      (fun s s' => guar s s' ∧ guar' s s') may) p (fun r s => Q r s ∧ Q' r s) s := by
  induction p generalizing s with
  | ret a => exact ⟨h, h'⟩
  | raise e => exact ⟨h, h'⟩
  | op o k ih =>
    intro s' moved holds passes
    obtain ⟨inv₁, guar₁, rest₁⟩ := h s' moved.1 holds.1 passes
    obtain ⟨inv₂, guar₂, rest₂⟩ := h' s' moved.2 holds.2 holds.1
    exact ⟨⟨inv₁, inv₂⟩, ⟨guar₁, guar₂⟩, ih _ rest₁ rest₂⟩

end

end Program

open Program in
/-- Parallel composition. If every thread meets its own reading among the others, and
what one thread guarantees is what the others rely on, then in every reachable
configuration the invariant holds and each thread stands in its own reading. -/
theorem Reachable.holds {exec : (o : Op) → σ → Except ε (Res o) × σ} {may : Gate Op Res ε σ}
    {start c : Config Op Res ε α σ} (inv : Shared Op Res ε σ → Prop)
    (rely guar : Nat → Shared Op Res ε σ → Shared Op Res ε σ → Prop)
    (Q : Nat → Except ε α → Shared Op Res ε σ → Prop)
    (refl : ∀ i s, rely i s s) (trans : ∀ i s s' s'', rely i s s' → rely i s' s'' → rely i s s'')
    (compatible : ∀ i j s s', i ≠ j → inv s → inv s' → guar j s s' → rely i s s')
    (initially : inv start.shared)
    (each : ∀ i p, start.threads[i]? = some p →
      wp (among exec i inv (rely i) (guar i) (may i)) p (Q i) start.shared)
    (reached : Reachable exec may start c) :
    inv c.shared ∧ ∀ i p, c.threads[i]? = some p →
      ∃ s, rely i s c.shared ∧ wp (among exec i inv (rely i) (guar i) (may i)) p (Q i) s := by
  induction reached with
  | refl => exact ⟨initially, fun i p there => ⟨_, refl i _, each i p there⟩⟩
  | @step c j o k _ there passes ih =>
    obtain ⟨s, moved, reading⟩ := ih.2 j _ there
    have now := reading c.shared moved ih.1 passes
    refine ⟨now.1, fun i p now_there => ?_⟩
    by_cases same : j = i
    · subst same
      have inside : j < c.threads.length := (List.getElem?_eq_some_iff.mp there).1
      rw [List.getElem?_set_self inside] at now_there
      cases now_there
      exact ⟨_, refl j _, now.2.2⟩
    · rw [List.getElem?_set_ne same] at now_there
      obtain ⟨s', moved', reading'⟩ := ih.2 i p now_there
      have step := compatible i j _ _ (Ne.symm same) ih.1 now.1 now.2.1
      exact ⟨s', trans i _ _ _ moved' step, reading'⟩

/-- The events are those of the threads. -/
theorem Reachable.thread_lt {exec : (o : Op) → σ → Except ε (Res o) × σ} {may : Gate Op Res ε σ}
    {start c : Config Op Res ε α σ} (fresh : start.shared.trace = [])
    (reached : Reachable exec may start c) :
    c.threads.length = start.threads.length ∧ ∀ e ∈ c.shared.trace,
      e.thread < start.threads.length := by
  induction reached with
  | refl =>
    refine ⟨rfl, fun e there => ?_⟩
    rw [fresh] at there
    cases there
  | @step c j o k _ there _ ih =>
    obtain ⟨same, below⟩ := ih
    refine ⟨by rw [List.length_set, same], fun e now => ?_⟩
    rcases List.mem_cons.mp now with rfl | before
    · rw [← same]
      exact (List.getElem?_eq_some_iff.mp there).1
    · exact below e before

/-! ## How long a program runs -/

/-- However its operations are answered, the program issues at most `n` of them. -/
def IssuesAtMost : Nat → Program Op Res ε α → Prop
  | _, .ret _ | _, .raise _ => True
  | 0, .op _ _ => False
  | n + 1, .op _ k => ∀ r, IssuesAtMost n (k r)

namespace IssuesAtMost

theorem ret (n : Nat) (a : α) : IssuesAtMost n (.ret a : Program Op Res ε α) := by
  cases n <;> exact trivial

theorem raise (n : Nat) (e : ε) : IssuesAtMost n (.raise e : Program Op Res ε α) := by
  cases n <;> exact trivial

end IssuesAtMost

/-- The operations that thread `i` has issued. -/
def Shared.issuedBy (i : Nat) (s : Shared Op Res ε σ) : Nat := s.trace.countP fun e => e.thread = i

/-- A thread has as many operations left as it has not issued yet. -/
theorem Reachable.within {exec : (o : Op) → σ → Except ε (Res o) × σ} {may : Gate Op Res ε σ}
    {start c : Config Op Res ε α σ} {n : Nat} (fresh : start.shared.trace = [])
    (each : ∀ (i : Nat) (p : Program Op Res ε α), start.threads[i]? = some p → IssuesAtMost n p)
    (reached : Reachable exec may start c) :
    ∀ (i : Nat) (p : Program Op Res ε α), c.threads[i]? = some p → ∃ left, IssuesAtMost left p ∧
      c.shared.issuedBy i + left ≤ n := by
  induction reached with
  | refl =>
    intro i p there
    refine ⟨n, each i p there, ?_⟩
    rw [Shared.issuedBy, fresh, List.countP_nil]
    omega
  | @step c j o k _ there passes ih =>
    intro i p now
    -- the thread that has issued has one less to issue, and the others what they had
    by_cases same : j = i
    · subst same
      have inside : j < c.threads.length := (List.getElem?_eq_some_iff.mp there).1
      rw [List.getElem?_set_self inside] at now
      cases now
      obtain ⟨left, within, issued⟩ := ih j _ there
      cases left with
      | zero => exact absurd within id
      | succ left =>
        refine ⟨left, within _, ?_⟩
        have one : (c.shared.after exec j o).issuedBy j = c.shared.issuedBy j + 1 :=
          List.countP_cons_of_pos (decide_eq_true rfl)
        change (c.shared.after exec j o).issuedBy j + left ≤ n
        omega
    · rw [List.getElem?_set_ne same] at now
      obtain ⟨left, within, issued⟩ := ih i p now
      have still : (c.shared.after exec j o).issuedBy i = c.shared.issuedBy i :=
        List.countP_cons_of_neg (by simpa using same)
      refine ⟨left, within, ?_⟩
      change (c.shared.after exec j o).issuedBy i + left ≤ n
      omega

end Nyc.Effects
