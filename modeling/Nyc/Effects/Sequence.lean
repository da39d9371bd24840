import Nyc.Effects.Transformer

/-!
# Actions one after the other

The states that a system reaches when its actions run to completion, each before the next
one starts. An action may be taken where `may` says, and counts where it ended as
`completed` says; an invariant is kept by a run if each action keeps it.
-/

namespace Nyc.Effects

open Program

variable {Op : Type} {Res : Op → Type} {ε α σ A : Type}

inductive Reached (exec : (o : Op) → σ → Except ε (Res o) × σ) (program : A → Program Op Res ε α)
    (may : A → σ → Prop) (completed : Except ε α → Prop) (start : σ) : σ → Prop where
  | refl : Reached exec program may completed start start
  | step {s : σ} {a : A} : Reached exec program may completed start s → may a s →
      completed (run exec (program a) s).1 →
      Reached exec program may completed start (run exec (program a) s).2

namespace Reached

variable {exec : (o : Op) → σ → Except ε (Res o) × σ} {program : A → Program Op Res ε α}
  {may : A → σ → Prop} {completed : Except ε α → Prop} {start : σ}

theorem holds (inv : σ → Prop) (initially : inv start)
    (keeps : ∀ a s, inv s → may a s →
      wp (sequential exec) (program a) (fun r s' => completed r → inv s') s)
    {s : σ} (reached : Reached exec program may completed start s) : inv s := by
  induction reached with
  | refl => exact initially
  | step _ allowed ends ih => exact (wp_sequential exec _ _ _).mp (keeps _ _ ih allowed) ends

/-- Where more may be done, at least as much is reached. -/
theorem mono {may' : A → σ → Prop} (more : ∀ a s, may a s → may' a s) {s : σ}
    (reached : Reached exec program may completed start s) :
    Reached exec program may' completed start s := by
  induction reached with
  | refl => exact .refl
  | step _ allowed ends ih => exact ih.step (more _ _ allowed) ends

/-- Take the actions of a list; `none` where one may not be taken or does not complete. -/
def follow (exec : (o : Op) → σ → Except ε (Res o) × σ) (program : A → Program Op Res ε α)
    (may : A → σ → Prop) (completed : Except ε α → Prop) [∀ a s, Decidable (may a s)]
    [DecidablePred completed] : List A → σ → Option σ
  | [], s => some s
  | a :: rest, s =>
    if may a s ∧ completed (run exec (program a) s).1 then
      follow exec program may completed rest (run exec (program a) s).2
    else none

theorem of_follow [∀ a s, Decidable (may a s)] [DecidablePred completed] (actions : List A)
    {s s' : σ} (sofar : Reached exec program may completed start s)
    (followed : follow exec program may completed actions s = some s') :
    Reached exec program may completed start s' := by
  induction actions generalizing s with
  | nil =>
    cases followed
    exact sofar
  | cons a rest ih =>
    rw [follow] at followed
    split at followed
    next ok => exact ih (sofar.step ok.1 ok.2) followed
    · cases followed

/-- Actions that lead where `P` holds reach such a state. -/
theorem exists_of_follow [∀ a s, Decidable (may a s)] [DecidablePred completed] (actions : List A)
    (P : σ → Prop) [DecidablePred P]
    (there : (follow exec program may completed actions start).any (fun s => decide (P s)) = true) :
    ∃ s, Reached exec program may completed start s ∧ P s := by
  obtain ⟨s, followed, holds⟩ := (Option.any_eq_true _ _).mp there
  exact ⟨s, of_follow actions .refl followed, of_decide_eq_true holds⟩

end Reached

/-! ## Actions with an account of their operations -/

section Recording

variable {γ : Type}

/-- As `exec`, with an account kept beside the state, which no operation reads. -/
def recording (exec : (o : Op) → σ → Except ε (Res o) × σ)
    (note : (o : Op) → Except ε (Res o) → γ → γ)
    (o : Op) (s : σ × γ) : Except ε (Res o) × (σ × γ) :=
  ((exec o s.1).1, ((exec o s.1).2, note o (exec o s.1).1 s.2))

theorem run_recording (exec : (o : Op) → σ → Except ε (Res o) × σ)
    (note : (o : Op) → Except ε (Res o) → γ → γ) (p : Program Op Res ε α) (s : σ × γ) :
    (run (recording exec note) p s).1 = (run exec p s.1).1 ∧
      (run (recording exec note) p s).2.1 = (run exec p s.1).2 := by
  induction p generalizing s with
  | ret a => exact ⟨rfl, rfl⟩
  | raise e => exact ⟨rfl, rfl⟩
  | op o k ih => exact ih (exec o s.1).1 (recording exec note o s).2

/-- Every run of the actions has its account. -/
theorem Reached.recorded {exec : (o : Op) → σ → Except ε (Res o) × σ}
    (note : (o : Op) → Except ε (Res o) → γ → γ) {program : A → Program Op Res ε α}
    {may : A → σ → Prop} {completed : Except ε α → Prop} {start : σ} (g : γ) {s : σ}
    (reached : Reached exec program may completed start s) :
    ∃ g', Reached (recording exec note) program (fun a s => may a s.1) completed (start,
      g) (s, g') := by
  induction reached with
  | refl => exact ⟨g, .refl⟩
  | @step s a _ allowed ends ih =>
    obtain ⟨g', sofar⟩ := ih
    obtain ⟨answer, state⟩ := run_recording exec note (program a) (s, g')
    have next := sofar.step allowed (answer.symm ▸ ends)
    exact ⟨(run (recording exec note) (program a) (s, g')).2.2, state ▸ next⟩

end Recording

end Nyc.Effects
