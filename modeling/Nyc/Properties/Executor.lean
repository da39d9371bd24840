import Nyc.Steps

/-!
# Executor ticks of one node

Two ticks may both find a task running after one of them claimed it, and then both run it.
Where a tick's re-read finds the row running only after its own update affected it, every
task is handed over once and its status moves forward only. The invariant names the owner
of a task by the history: the thread whose claiming update affected a row.
-/

namespace Nyc

open Data Effects Effects.Program

namespace Executor

/-- The re-read found the task `x`, so `run_task` is next. -/
def handed (x : Id) : Event Op Op.Res Exn → Bool
  | ⟨_, .get .tasks _, .ok (some row)⟩ => row.id = x
  | _ => false

def HandedOnce (s : Run) : Prop := ∀ x, s.trace.countP (handed x) ≤ 1

/-- How a task's status may move in one step. -/
inductive Move : TaskStatus → TaskStatus → Prop where
  | stay (status : TaskStatus) : Move status status
  | claim : Move .pending .running
  | succeed : Move .running .succeeded
  | fail : Move .running .failed

def Moves (w w' : World) : Prop :=
  ∀ r ∈ w.db .tasks, ∃ r' ∈ w'.db .tasks, r'.id = r.id ∧ Move r.status r'.status

/-- The latest operation of thread `i` is an update that affected one row. -/
def updatedOne (i : Nat) (s : Run) : Bool :=
  match s.latest fun e => e.thread = i with
  | some ⟨_, .update .tasks _ _, .ok n⟩ => n = 1
  | _ => false

/-- A re-read finds the row running only after the tick's own update affected one row. -/
def winnerRereads : Gate Op Op.Res Exn World := fun i o s =>
  match o with
  | .get .tasks where_ => ((s.world.db .tasks).get where_).isNone ∨ updatedOne i s = true
  | _ => True

instance (i : Nat) (o : Op) (s : Run) : Decidable (winnerRereads i o s) :=
  match o with
  | .get .tasks where_ =>
    inferInstanceAs (Decidable (((s.world.db .tasks).get where_).isNone ∨ updatedOne i s = true))
  | .get .vpcs _ | .get .volumes _ | .get .vms _ | .get .snapshots _ | .get .publicIps _
  | .get .domains _ | .get .proxies _ | .get .nodes _ => .isTrue trivial
  | .getAll _ _ | .insert _ _ | .update _ _ _ | .delete _ _ | .uuid4 | .now | .choice
  | .host _ _ => .isTrue trivial

/-- Ticks of any number of processes, of one node or of several. -/
def ticks (nodes : List Node) (w : World) : Config Op Op.Res Exn Unit World :=
  ⟨⟨w, []⟩, nodes.map tick⟩

/-! ## The owner of a task -/

/-- The claiming update of the task `x`. -/
def claimOp (x : Id) (time : Timestamp) : Op :=
  .update .tasks (fun r => r.id = x && r.status = .pending) fun r =>
    { r with status := .running, updatedAt := time }

def rereadOp (x : Id) : Op := .get .tasks fun r => r.id = x && r.status = .running

/-- A claiming update of thread `i` that affected a row. -/
def claimEvent (i : Nat) (x : Id) (time : Timestamp) : Event Op Op.Res Exn :=
  ⟨i, claimOp x time, .ok (1 : Nat)⟩

/-- Thread `i` claimed the task `x`. -/
def Owns (i : Nat) (x : Id) (s : Run) : Prop := ∃ time, claimEvent i x time ∈ s.trace

structure Owned (s : Run) : Prop where
  claimed : ∀ i x, Owns i x s → ∀ r ∈ s.world.db .tasks, r.id = x → r.status ≠ .pending
  unique : ∀ i j x, Owns i x s → Owns j x s → i = j
  byOwner : ∀ e ∈ s.trace, ∀ x, handed x e = true → Owns e.thread x s
  once : HandedOnce s

/-- The tasks that thread `i` owns are left alone. -/
def Rely (i : Nat) (s s' : Run) : Prop :=
  Shared.Others i s s' ∧
    ∀ r : TaskRow, Owns i r.id s → (r ∈ s.world.db .tasks ↔ r ∈ s'.world.db .tasks)

/-- One operation of thread `i`: every row it does not own, and that is not pending, stays. -/
def Guar (i : Nat) (s s' : Run) : Prop :=
  Moves s.world s'.world ∧ (∀ j, j ≠ i → Shared.Others j s s') ∧
    ∀ r : TaskRow, (r ∈ s.world.db .tasks ↔ r ∈ s'.world.db .tasks) ∨ Owns i r.id s ∨
      ∃ p ∈ s.world.db .tasks, p.id = r.id ∧ p.status = .pending

theorem Owned.start (w : World) : Owned ⟨w, []⟩ where
  claimed := fun _ _ ⟨_, there⟩ => absurd there List.not_mem_nil
  unique := fun _ _ _ ⟨_, there⟩ => absurd there List.not_mem_nil
  byOwner := fun _ there => absurd there List.not_mem_nil
  once := fun _ => Nat.zero_le 1

theorem Rely.refl (i : Nat) (s : Run) : Rely i s s := ⟨.refl i s, fun _ _ => .rfl⟩

theorem Owns.of_others {i : Nat} {x : Id} {s s' : Run} (h : Shared.Others i s s') :
    Owns i x s' ↔ Owns i x s := by
  constructor
  · rintro ⟨time, there⟩
    exact ⟨time, (h.mem rfl).mp there⟩
  · rintro ⟨time, there⟩
    exact ⟨time, (h.mem rfl).mpr there⟩

theorem Rely.trans (i : Nat) (s s' s'' : Run) (h : Rely i s s') (h' : Rely i s' s'') :
    Rely i s s'' :=
  ⟨h.1.trans h'.1, fun r own => (h.2 r own).trans (h'.2 r ((Owns.of_others h.1).mpr own))⟩

/-- What one thread promises is what the others rely on. -/
theorem Guar.rely (i j : Nat) (s s' : Run) (differ : i ≠ j) (inv : Owned s) (h : Guar j s s') :
    Rely i s s' := by
  refine ⟨h.2.1 i differ, fun r own => ?_⟩
  rcases h.2.2 r with same | other | ⟨p, there, same, pending⟩
  · exact same
  · exact absurd (inv.unique i j r.id own other) differ
  · exact absurd pending (inv.claimed i r.id own p there same)

/-! ## Single operations -/

section Steps

variable {env : Env} {i : Nat} {s : Run}

/-- Thread `i` was handed no task yet. -/
def Unhanded (i : Nat) (s : Run) : Prop :=
  ∀ e ∈ s.trace, e.thread = i → ∀ x, handed x e = false

/-- Thread `i` owns the task `x`, which is running. -/
def Holds (i : Nat) (x : Id) (s : Run) : Prop :=
  Owns i x s ∧ ∀ r ∈ s.world.db .tasks, r.id = x → r.status = .running

theorem Unhanded.stable {s' : Run} (h : Unhanded i s) (moved : Rely i s s') : Unhanded i s' :=
  fun e there own => h e ((moved.1.mem own).mp there) own

theorem Holds.stable {x : Id} {s' : Run} (h : Holds i x s) (moved : Rely i s s') :
    Holds i x s' := by
  refine ⟨(Owns.of_others moved.1).mpr h.1, fun r there same => ?_⟩
  exact h.2 r ((moved.2 r (same ▸ h.1)).mpr there) same

/-- An operation that neither writes the tasks nor reads one of them. -/
def neutral : Op → Prop
  | .get t _ => t ≠ .tasks
  | .insert t _ => t ≠ .tasks
  | .update t _ _ => t ≠ .tasks
  | .delete t _ => t ≠ .tasks
  | _ => True

theorem neutral.frame {o : Op} (h : neutral o) (w : World) :
    (exec env o w).2.db .tasks = w.db .tasks := by
  refine exec_frame env w .tasks o ?_
  cases o <;> simp_all [neutral, Op.writes]

theorem neutral.not_handed {o : Op} (h : neutral o) (x : Id) (i : Nat) (a : Except Exn o.Res) :
    handed x ⟨i, o, a⟩ = false := by
  cases o with
  | get t p =>
    cases t <;> first | rfl | exact absurd rfl h
  | _ => rfl

theorem neutral.not_claim {o : Op} (h : neutral o) (x : Id) (time : Timestamp) :
    o ≠ claimOp x time := by
  rintro rfl
  exact h rfl

/-- The history grows by an event that hands nothing over and claims nothing. -/
theorem Owns.of_quiet {j : Nat} {o : Op} {x : Id} (quiet : ∀ x time, o ≠ claimOp x time) :
    Owns j x (s.after (exec env) i o) ↔ Owns j x s := by
  constructor
  · rintro ⟨time, there⟩
    rcases List.mem_cons.mp there with same | there
    · exact absurd (congrArg Event.op same).symm (quiet x time)
    · exact ⟨time, there⟩
  · rintro ⟨time, there⟩
    exact ⟨time, List.mem_cons_of_mem _ there⟩

/-- A neutral operation keeps everything. -/
theorem neutral.step (env : Env) (i : Nat) {s : Run} {o : Op} (h : neutral o) (inv : Owned s) :
    Owned (s.after (exec env) i o) ∧ Guar i s (s.after (exec env) i o) ∧
      (Unhanded i s → Unhanded i (s.after (exec env) i o)) ∧
      ∀ x, Holds i x s → Holds i x (s.after (exec env) i o) := by
  have rows : (s.after (exec env) i o).world.db .tasks = s.world.db .tasks := h.frame s.world
  -- who owns which task is in the history, and this operation claims and hands nothing
  have owns : ∀ j x, Owns j x (s.after (exec env) i o) ↔ Owns j x s := fun j x =>
    Owns.of_quiet h.not_claim
  refine ⟨⟨?_, ?_, ?_, ?_⟩, ⟨?_, ?_, ?_⟩, ?_, ?_⟩
  · intro j x own r there same
    exact inv.claimed j x ((owns j x).mp own) r (rows ▸ there) same
  · intro j k x own own'
    exact inv.unique j k x ((owns j x).mp own) ((owns k x).mp own')
  · intro e there x found
    rcases List.mem_cons.mp there with rfl | there
    · rw [h.not_handed] at found
      cases found
    · exact (owns _ _).mpr (inv.byOwner e there x found)
  · intro x
    simp only [Shared.after, List.countP_cons, h.not_handed]
    exact inv.once x
  · intro r there
    exact ⟨r, rows ▸ there, rfl, .stay _⟩
  · exact fun j differ => .of_after (exec env) s o (Ne.symm differ)
  · exact fun r => .inl (by rw [rows])
  · intro unhanded e there own x
    rcases List.mem_cons.mp there with rfl | there
    · exact h.not_handed x i _
    · exact unhanded e there own x
  · rintro x ⟨own, running⟩
    exact ⟨(owns i x).mpr own, fun r there same => running r (rows ▸ there) same⟩

/-! The claim: the update, then the re-read. -/

/-- Thread `i` tried to claim the task `x`, and holds it if the update affected a row. -/
def Tried (i : Nat) (x : Id) (s : Run) : Prop :=
  ∃ time, ∃ n : Nat, s.latest (fun e => e.thread = i) = some ⟨i, claimOp x time, .ok n⟩ ∧
    (n = 1 → Holds i x s)

theorem Tried.stable {x : Id} {s' : Run} (h : Tried i x s) (moved : Rely i s s') :
    Tried i x s' := by
  obtain ⟨time, n, latest, holds⟩ := h
  refine ⟨time, n, ?_, fun one => (holds one).stable moved⟩
  rw [moved.1.latest _ fun e own => of_decide_eq_true own]
  exact latest

theorem claimOp_inj {x x' : Id} {time time' : Timestamp} (h : claimOp x time = claimOp x' time') :
    x = x' := by
  injection h with _ where_ _
  have at_row := congrFun where_ ⟨x, [], [], .proxyReload, none, .pending, none, 0, 0⟩
  simpa using at_row

/-- What the claiming update does to a row. -/
def claimRow (x : Id) (time : Timestamp) (r : TaskRow) : TaskRow :=
  if r.id = x ∧ r.status = .pending then { r with status := .running, updatedAt := time } else r

@[simp] theorem claimRow_id (x : Id) (time : Timestamp) (r : TaskRow) :
    (claimRow x time r).id = r.id := by
  unfold claimRow
  split <;> rfl

theorem claimRow_hit {x : Id} {r : TaskRow} (time : Timestamp) (named : r.id = x)
    (waits : r.status = .pending) : (claimRow x time r).status = .running := by
  rw [claimRow, if_pos ⟨named, waits⟩]

theorem claimRow_miss {x : Id} {r : TaskRow} (time : Timestamp)
    (miss : r.id = x → r.status ≠ .pending) : claimRow x time r = r :=
  if_neg fun hit => miss hit.1 hit.2

theorem claimRow_move (x : Id) (time : Timestamp) (r : TaskRow) :
    Move r.status (claimRow x time r).status := by
  unfold claimRow
  split
  next hit =>
    rw [hit.2]
    exact .claim
  next => exact .stay _

theorem claimRow_not_pending {x : Id} {r : TaskRow} (time : Timestamp)
    (was : r.id ≠ x → r.status ≠ .pending) : (claimRow x time r).status ≠ .pending := by
  unfold claimRow
  split
  next => exact nofun
  next miss =>
    by_cases named : r.id = x
    · exact fun waits => miss ⟨named, waits⟩
    · exact was named

theorem claim_exec (env : Env) (x : Id) (time : Timestamp) (w : World) :
    ∃ n : Nat, ∃ rows : Table Tbl.tasks.unique,
      (∀ a : TaskRow, a ∈ rows ↔ ∃ r ∈ w.db .tasks, claimRow x time r = a) ∧
      (n = 1 → ∃ r ∈ w.db .tasks, r.id = x ∧ r.status = .pending) ∧
      exec env (claimOp x time) w = (.ok n, (w.setTable .tasks rows).tick) := by
  obtain ⟨rows, updated, same⟩ := exec_update env w .tasks
    (fun r => r.id = x && r.status = .pending)
    (fun r => { r with status := .running, updatedAt := time })
    (fun col there r => by
      obtain rfl := List.mem_singleton.mp there
      rfl)
  refine ⟨_, rows, fun a => ?_, fun one => ?_, same⟩
  · rw [Table.mem_update updated]
    simp only [Bool.and_eq_true, decide_eq_true_eq, claimRow]
  · obtain ⟨r, only⟩ := List.length_eq_one_iff.mp one
    have there : r ∈ (w.db .tasks).getAll fun r => r.id = x && r.status = .pending := by
      rw [only]
      exact List.mem_singleton_self r
    rw [Table.mem_getAll] at there
    exact ⟨r, there.1, by simpa using there.2⟩

/-- The state after a claiming update that affected `n` rows. -/
def afterClaim (i : Nat) (x : Id) (time : Timestamp) (n : Nat) (rows : Table Tbl.tasks.unique)
    (s : Run) : Run :=
  ⟨(s.world.setTable .tasks rows).tick, ⟨i, claimOp x time, .ok n⟩ :: s.trace⟩

@[simp] theorem afterClaim_tasks (i : Nat) (x : Id) (time : Timestamp) (n : Nat)
    (rows : Table Tbl.tasks.unique) : (afterClaim i x time n rows s).world.db .tasks = rows :=
  setTable_self s.world .tasks rows

section Claim

variable {x : Id} {time : Timestamp} {n : Nat} {rows : Table Tbl.tasks.unique}

/-- The owners after a claim: those before it, and thread `i` of `x` where a row was affected. -/
theorem owns_afterClaim {j : Nat} {x' : Id} (own : Owns j x' (afterClaim i x time n rows s)) :
    Owns j x' s ∨ (j = i ∧ x' = x ∧ n = 1) := by
  obtain ⟨time', there⟩ := own
  rcases List.mem_cons.mp there with new | old
  · refine .inr ⟨congrArg Event.thread new, claimOp_inj (congrArg Event.op new), ?_⟩
    simp only [claimEvent, Event.mk.injEq] at new
    have : (Except.ok 1 : Except Exn Nat) = .ok n := by simpa [claimOp] using new.2.2
    cases this
    rfl
  · exact .inl ⟨time', old⟩

variable (mem : ∀ a : TaskRow, a ∈ rows ↔ ∃ r ∈ s.world.db .tasks, claimRow x time r = a)
  (pending : n = 1 → ∃ r ∈ s.world.db .tasks, r.id = x ∧ r.status = .pending)

include mem

/-- A row whose task is not pending is left alone. -/
theorem kept_afterClaim (r : TaskRow)
    (quiet : ∀ q ∈ s.world.db .tasks, q.id = r.id → q.status ≠ .pending) :
    r ∈ s.world.db .tasks ↔ r ∈ rows := by
  rw [mem]
  constructor
  · intro there
    exact ⟨r, there, claimRow_miss time fun _ => quiet r there rfl⟩
  · rintro ⟨q, there, rfl⟩
    rwa [claimRow_miss time fun _ => quiet q there (claimRow_id x time q).symm]

include pending

theorem owned_afterClaim (inv : Owned s) : Owned (afterClaim i x time n rows s) := by
  refine ⟨?_, ?_, ?_, fun x' => inv.once x'⟩
  · intro j x' own r there named
    rw [afterClaim_tasks, mem] at there
    obtain ⟨q, was, rfl⟩ := there
    rw [claimRow_id] at named
    refine claimRow_not_pending time fun other => ?_
    rcases owns_afterClaim own with old | ⟨-, same, -⟩
    · exact inv.claimed j x' old q was named
    · exact absurd (named.trans same) other
  · intro j k x' own own'
    rcases owns_afterClaim own with old | ⟨rfl, same, one⟩ <;>
      rcases owns_afterClaim own' with old' | ⟨rfl, same', one'⟩
    · exact inv.unique j k x' old old'
    · obtain ⟨r, there, named, waits⟩ := pending one'
      exact absurd waits (inv.claimed j x' old r there (named.trans same'.symm))
    · obtain ⟨r, there, named, waits⟩ := pending one
      exact absurd waits (inv.claimed k x' old' r there (named.trans same.symm))
    · rfl
  · intro e there x' found
    rcases List.mem_cons.mp there with rfl | there
    · cases found
    · obtain ⟨time', was⟩ := inv.byOwner e there x' found
      exact ⟨time', List.mem_cons_of_mem _ was⟩

theorem holds_afterClaim (one : n = 1) : Holds i x (afterClaim i x time n rows s) := by
  refine ⟨⟨time, one ▸ List.mem_cons_self⟩, fun r there named => ?_⟩
  rw [afterClaim_tasks, mem] at there
  obtain ⟨q, was, rfl⟩ := there
  rw [claimRow_id] at named
  obtain ⟨p, inside, named', waits⟩ := pending one
  have : q = p := (s.world.db .tasks).eq_of_key TaskRow.id (List.mem_singleton_self _) was inside
    (named.trans named'.symm)
  exact claimRow_hit time named (this ▸ waits)

omit pending in
theorem guar_afterClaim : Guar i s (afterClaim i x time n rows s) := by
  refine ⟨?_, ?_, ?_⟩
  · intro r there
    refine ⟨claimRow x time r, ?_, claimRow_id x time r, claimRow_move x time r⟩
    rw [afterClaim_tasks]
    exact (mem _).mpr ⟨r, there, rfl⟩
  · exact fun j differ => ⟨[_], rfl, fun e there => by
      rw [List.mem_singleton.mp there]
      exact Ne.symm differ⟩
  · intro r
    by_cases hit : ∃ q ∈ s.world.db .tasks, q.id = r.id ∧ q.status = .pending
    · exact .inr (.inr hit)
    · refine .inl ?_
      rw [afterClaim_tasks]
      exact kept_afterClaim mem r fun q there named waits => hit ⟨q, there, named, waits⟩

end Claim

theorem claim_step (env : Env) (x : Id) (time : Timestamp) (inv : Owned s)
    (unhanded : Unhanded i s) :
    Owned (s.after (exec env) i (claimOp x time)) ∧
      Guar i s (s.after (exec env) i (claimOp x time)) ∧
      Unhanded i (s.after (exec env) i (claimOp x time)) ∧
      Tried i x (s.after (exec env) i (claimOp x time)) := by
  obtain ⟨n, rows, mem, pending, same⟩ := claim_exec env x time s.world
  have after : s.after (exec env) i (claimOp x time) = afterClaim i x time n rows s := by
    rw [Shared.after, same]
    rfl
  rw [after]
  refine ⟨owned_afterClaim mem pending inv, guar_afterClaim mem, ?_, time, n, ?_,
    holds_afterClaim mem pending⟩
  · intro e there own x'
    rcases List.mem_cons.mp there with rfl | there
    · rfl
    · exact unhanded e there own x'
  · exact List.find?_cons_of_pos (decide_eq_true rfl)

/-- The gate at a re-read that finds the row: the thread holds the task. -/
theorem holds_of_gate {x : Id} (tried : Tried i x s) (gate : winnerRereads i (rereadOp x) s)
    (found : ((s.world.db .tasks).get fun r => r.id = x && r.status = .running) ≠ none) :
    Holds i x s := by
  obtain ⟨time, n, latest, holds⟩ := tried
  rcases gate with missing | won
  · exact absurd (Option.isNone_iff_eq_none.mp missing) found
  · rw [updatedOne, latest] at won
    exact holds (of_decide_eq_true won)

theorem handed_reread {x x' : Id} {row : Option TaskRow} (got : handed x'
    ⟨i, rereadOp x, .ok row⟩ = true) : ∃ r, row = some r ∧ r.id = x' := by
  cases row with
  | none => cases got
  | some r => exact ⟨r, rfl, of_decide_eq_true got⟩

theorem reread_step (env : Env) (x : Id) (inv : Owned s) (unhanded : Unhanded i s)
    (tried : Tried i x s) (gate : winnerRereads i (rereadOp x) s) :
    Owned (s.after (exec env) i (rereadOp x)) ∧ Guar i s (s.after (exec env) i (rereadOp x)) ∧
      (((s.world.db .tasks).get fun r => r.id = x && r.status = .running) = none →
        Unhanded i (s.after (exec env) i (rereadOp x))) ∧
      (((s.world.db .tasks).get fun r => r.id = x && r.status = .running) ≠ none →
        Holds i x (s.after (exec env) i (rereadOp x))) := by
  have owns : ∀ j x', Owns j x' (s.after (exec env) i (rereadOp x)) ↔ Owns j x' s := fun j x' =>
    Owns.of_quiet nofun
  -- A hand-over of this step is the first one of the task: the others' owners are others.
  have first : ∀ x', handed x' ⟨i, rereadOp x, (exec env (rereadOp x) s.world).1⟩ = true →
      x' = x ∧ Holds i x s ∧ s.trace.countP (handed x) = 0 := by
    intro x' got
    obtain ⟨r, found, named⟩ := handed_reread got
    have named' := (Table.get_some found).2
    simp only [Bool.and_eq_true, decide_eq_true_eq] at named'
    have holds := holds_of_gate tried gate (by rw [found]; nofun)
    refine ⟨named.symm.trans named'.1, holds, List.countP_eq_zero.mpr fun e there got' => ?_⟩
    have own := inv.unique _ _ x (inv.byOwner e there x got') holds.1
    rw [unhanded e there own x] at got'
    cases got'
  refine ⟨⟨?_, ?_, ?_, ?_⟩, ⟨?_, ?_, ?_⟩, ?_, ?_⟩
  · exact fun j x' own => inv.claimed j x' ((owns j x').mp own)
  · exact fun j k x' own own' => inv.unique j k x' ((owns j x').mp own) ((owns k x').mp own')
  · intro e there x' got
    rw [owns]
    rcases List.mem_cons.mp there with rfl | there
    · obtain ⟨rfl, holds, -⟩ := first x' got
      exact holds.1
    · exact inv.byOwner e there x' got
  · intro x'
    rw [Shared.after, List.countP_cons]
    split
    next got =>
      obtain ⟨rfl, -, none⟩ := first x' got
      rw [none]
    next => exact inv.once x'
  · exact fun r there => ⟨r, there, rfl, .stay _⟩
  · exact fun j differ => .of_after (exec env) s _ (Ne.symm differ)
  · exact fun r => .inl .rfl
  · intro missing e there own x'
    rcases List.mem_cons.mp there with rfl | there
    · simp only [rereadOp, exec_get, missing]
      rfl
    · exact unhanded e there own x'
  · intro found
    have holds := holds_of_gate tried gate found
    exact ⟨(owns i x).mpr holds.1, holds.2⟩

/-! The finish. -/

def finishOp (x : Id) (status : TaskStatus) (result : Str) (time : Timestamp) : Op :=
  .update .tasks (fun r => r.id = x) fun r =>
    { r with status := status, result := some result, updatedAt := time }

theorem finishOp_ne_claimOp (x x' : Id) (status : TaskStatus) (result : Str)
    (time time' : Timestamp) : finishOp x status result time ≠ claimOp x' time' := by
  intro same
  injection same with _ where_ _
  have at_row := congrFun where_ ⟨x, [], [], .proxyReload, none, .running, none, 0, 0⟩
  simp at at_row

/-- The owner of a running task finishes it. -/
theorem finish_step (env : Env) (x : Id) (status : TaskStatus) (result : Str) (time : Timestamp)
    (ends : Move .running status) (final : status ≠ .pending) (inv : Owned s)
    (holds : Holds i x s) :
    (∃ n : Nat, (exec env (finishOp x status result time) s.world).1 = .ok n) ∧
      Owned (s.after (exec env) i (finishOp x status result time)) ∧
      Guar i s (s.after (exec env) i (finishOp x status result time)) := by
  obtain ⟨rows, updated, same⟩ := exec_update env s.world .tasks (fun r => r.id = x)
    (fun r => { r with status := status, result := some result, updatedAt := time })
    (fun col there r => by
      obtain rfl := List.mem_singleton.mp there
      rfl)
  -- the rows after the update: the task that ends, and the others as they are
  have mem : ∀ a : TaskRow, a ∈ rows ↔ ∃ r ∈ s.world.db .tasks, (if r.id = x then
      { r with status := status, result := some result, updatedAt := time } else r) = a := by
    intro a
    rw [Table.mem_update updated]
    simp only [decide_eq_true_eq]
  have tasks : (s.after (exec env) i (finishOp x status result time)).world.db .tasks = rows := by
    rw [Shared.after, finishOp, same]
    exact setTable_self s.world .tasks rows
  have owns : ∀ j x', Owns j x' (s.after (exec env) i (finishOp x status result time)) ↔
      Owns j x' s := fun j x' => Owns.of_quiet (finishOp_ne_claimOp x · status result time ·)
  refine ⟨⟨_, congrArg Prod.fst same⟩, ⟨?_, ?_, ?_, ?_⟩, ?_, ?_, ?_⟩
  · intro j x' own r there named
    rw [tasks, mem] at there
    obtain ⟨q, was, rfl⟩ := there
    by_cases hit : q.id = x
    · simp only [if_pos hit]
      exact final
    · simp only [if_neg hit] at named ⊢
      exact inv.claimed j x' ((owns j x').mp own) q was named
  · exact fun j k x' own own' => inv.unique j k x' ((owns j x').mp own) ((owns k x').mp own')
  · intro e there x' got
    rw [owns]
    rcases List.mem_cons.mp there with rfl | there
    · cases got
    · exact inv.byOwner e there x' got
  · exact fun x' => inv.once x'
  · intro r there
    rw [tasks]
    refine ⟨_, (mem _).mpr ⟨r, there, rfl⟩, ?_, ?_⟩
    · split <;> rfl
    · by_cases hit : r.id = x
      · simp only [if_pos hit, holds.2 r there hit]
        exact ends
      · simp only [if_neg hit]
        exact .stay _
  · exact fun j differ => .of_after (exec env) s _ (Ne.symm differ)
  · intro r
    by_cases hit : r.id = x
    · exact .inr (.inl (hit ▸ holds.1))
    · refine .inl ?_
      rw [tasks, mem]
      constructor
      · exact fun there => ⟨r, there, if_neg hit⟩
      · rintro ⟨q, there, rfl⟩
        by_cases hit' : q.id = x
        · simp only [if_pos hit'] at hit
          exact absurd hit' hit
        · rwa [if_neg hit']

end Steps

/-! ## A whole tick -/

theorem vmOrFail_neutral (vmId : Id) : Only neutral (TaskRunner.vmOrFail vmId) :=
  .bind (.get nofun) fun vm => by cases vm <;> exact trivial

theorem routesOf_neutral (domains : List DomainRow) :
    Only neutral (TaskRunner.routesOf domains) := by
  induction domains with
  | nil => exact .pure []
  | cons d rest ih =>
    exact .bind (.bind (.get nofun) fun _ => .pure _) fun _ => .bind ih fun _ => .pure _

/-- Running a task neither reads nor writes the tasks. -/
theorem dispatch_neutral (self : Node) (task : TaskRow) (nodeId : Id) :
    Only neutral (TaskRunner.dispatch self task nodeId) := by
  unfold TaskRunner.dispatch
  split
  · apply Only.bind (vmOrFail_neutral _)
    intro _
    apply Only.bind (.shAny self _ fun _ => trivial)
    intro _
    exact .bind (.update nofun) fun _ => .pure _
  · refine .bind (.get nofun) fun proxy => ?_
    cases proxy with
    | none => exact .pure _
    | some proxy =>
      apply Only.bind (vmOrFail_neutral _)
      intro _
      apply Only.bind (.bind (.getAll trivial) fun _ => routesOf_neutral _)
      intro _
      exact .bind (.shAny self _ fun _ => trivial) fun _ => .pure _
  · exact .throw _

section Tick

variable (env : Env) (i : Nat)

/-- Thread `i` among the other ticks. -/
abbrev amongTicks : OpSpec Op Op.Res Exn (Run → Prop) :=
  among (exec env) i Owned (Rely i) (Guar i) (winnerRereads i)

theorem unhanded_of_neutral {α : Type} {p : Py α} (h : Only neutral p) (s : Run)
    (unhanded : Unhanded i s) : wp (amongTicks env i) p (fun _ s' => Unhanded i s') s := by
  refine among_mono p _ _ (fun _ _ post => post.1) s
    (among_of_issues (Unhanded i) (fun s s' h moved _ => h.stable moved) ?_ p (fun _ => True) h s
      unhanded)
  intro o s allowed holds inv _
  have step := allowed.step env i inv
  exact ⟨step.1, step.2.1, step.2.2.1 holds, fun _ _ => trivial⟩

theorem holds_of_neutral {α : Type} (x : Id) {p : Py α} (h : Only neutral p) (s : Run)
    (holds : Holds i x s) : wp (amongTicks env i) p (fun _ s' => Holds i x s') s := by
  refine among_mono p _ _ (fun _ _ post => post.1) s
    (among_of_issues (Holds i x) (fun s s' h moved _ => h.stable moved) ?_ p (fun _ => True) h s
      holds)
  intro o s allowed holds inv _
  have step := allowed.step env i inv
  exact ⟨step.1, step.2.1, step.2.2.2 x holds, fun _ _ => trivial⟩

theorem finish_among (x : Id) (status : TaskStatus) (result : Str) (ends : Move .running status)
    (final : status ≠ .pending) (s : Run) (holds : Holds i x s) :
    wp (amongTicks env i) (TaskRunner.finish x status result) (fun r _ => r = .ok ()) s := by
  rw [TaskRunner.finish, wp_bind, now, wp_perform]
  intro s' moved inv _
  have step := (show neutral .now from trivial).step env i inv
  refine ⟨step.1, step.2.1, ?_⟩
  simp only [exec_now, onValue_ok, wp_bind, update, wp_perform]
  intro s'' moved' inv' _
  have now := (step.2.2.2 x (holds.stable moved)).stable moved'
  have last := finish_step env x status result (env.now s'.world.clock) ends final inv' now
  obtain ⟨⟨n, answer⟩, owned, guar⟩ := last
  refine ⟨owned, guar, ?_⟩
  unfold finishOp at answer
  rw [answer]
  rfl

theorem runTask_among (self : Node) (task : TaskRow) (s : Run) (holds : Holds i task.id s) :
    wp (amongTicks env i) (TaskRunner.runTask self task self.id) (fun _ _ => True) s := by
  rw [TaskRunner.runTask, wp_tryCatch, wp_bind]
  refine among_mono _ _ _ ?_ s (holds_of_neutral env i task.id
    (dispatch_neutral self task _) s holds)
  rintro (exc | result) s' holds'
  · exact among_mono _ _ _ (fun _ _ _ => trivial) s'
      (finish_among env i task.id .failed _ .fail nofun s' holds')
  · refine among_mono _ _ _ ?_ s'
      (finish_among env i task.id .succeeded result .succeed nofun s' holds')
    rintro r s'' rfl
    trivial

/-- Where a tick stands after a claim: it goes on where it lost, and holds the task where it won. -/
def Claimed (i : Nat) (d : TaskRow) : Except Exn (Option TaskRow) → Run → Prop
  | .ok none, s => Unhanded i s
  | .ok (some _), s => Holds i d.id s
  | .error _, _ => True

theorem claim_among (d : TaskRow) (s : Run) (unhanded : Unhanded i s) :
    wp (amongTicks env i) (claim d) (Claimed i d) s := by
  rw [claim, wp_bind, now, wp_perform]
  intro s' moved inv _
  have step := (show neutral .now from trivial).step env i inv
  refine ⟨step.1, step.2.1, ?_⟩
  simp only [exec_now, onValue_ok, wp_bind, update, wp_perform]
  intro s'' moved' inv' _
  obtain ⟨owned, guar, unhanded', tried⟩ := claim_step env d.id (env.now s'.world.clock)
    inv' ((step.2.2.1 (unhanded.stable moved)).stable moved')
  refine ⟨owned, guar, ?_⟩
  obtain ⟨n, rows, -, -, same⟩ := claim_exec env d.id (env.now s'.world.clock) s''.world
  have answer := congrArg Prod.fst same
  unfold claimOp at answer
  rw [answer]
  simp only [onValue_ok, get, wp_perform]
  intro t moved'' inv'' gate
  obtain ⟨owned', guar', missing, found⟩ := reread_step env d.id inv''
    (unhanded'.stable moved'') (tried.stable moved'') gate
  refine ⟨owned', guar', ?_⟩
  cases read : (t.world.db .tasks).get fun r => r.id = d.id && r.status = .running with
  | none =>
    simp only [exec_get, read]
    exact missing read
  | some row =>
    simp only [exec_get, read]
    exact found (read ▸ Option.some_ne_none row)

theorem tryTasks_among (self : Node) (tasks : List TaskRow) (s : Run) (unhanded : Unhanded i s) :
    wp (amongTicks env i) (tryTasks self tasks) (fun _ _ => True) s := by
  induction tasks generalizing s with
  | nil => trivial
  | cons d rest ih =>
    rw [tryTasks, wp_bind]
    refine among_mono _ _ _ ?_ s (claim_among env i d s unhanded)
    rintro (exc | _ | row) s' post
    · trivial
    · exact ih s' post
    · exact runTask_among env i self d s' post

theorem tick_among (self : Node) (s : Run) (unhanded : Unhanded i s) :
    wp (amongTicks env i) (tick self) (fun _ _ => True) s := by
  rw [tick, wp_bind]
  refine among_mono _ _ _ ?_ s (unhanded_of_neutral env i (.getAll trivial) s unhanded)
  rintro (exc | pending) s' unhanded'
  · trivial
  · exact tryTasks_among env i self pending s' unhanded'

end Tick

/-- Whenever a re-read finds the row running only after the tick's own update affected it,
every task is handed over at most once, and each step moves statuses forward only. -/
theorem ticks_hand_over_once (env : Env) (nodes : List Node) (w : World)
    (c : Config Op Op.Res Exn Unit World)
    (reached : Reachable (exec env) winnerRereads (ticks nodes w) c) :
    HandedOnce c.shared ∧ ∀ i o k, c.threads[i]? = some (.op o k) → winnerRereads i o c.shared →
      Moves c.shared.world (exec env o c.shared.world).2 := by
  obtain ⟨inv, each⟩ := reached.holds Owned Rely Guar (fun _ _ _ => True) Rely.refl Rely.trans
    (fun i j s s' differ inv _ guar => Guar.rely i j s s' differ inv guar)
    (.start w)
    (fun i p there => by
      obtain ⟨self, -, rfl⟩ := List.mem_map.mp (List.mem_of_getElem? there)
      exact tick_among env i self _ fun _ there => absurd there List.not_mem_nil)
  refine ⟨inv.once, fun i o k there gate => ?_⟩
  obtain ⟨s, moved, reading⟩ := each i _ there
  exact (reading c.shared moved inv gate).2.1.1

/-! ## Two ticks hand over one task -/

/-- One pending task of node `n1`. -/
def onePending : World where
  db := Function.update Db.empty .tasks
    ⟨[⟨"t1", "n1", "v1", .proxyReload, none, .pending, none, 0, 0⟩], by decide⟩
  hosts := fun _ => Client.Host.empty
  clock := 0

theorem race_reached : ∃ c, Reachable (exec Sample.env) anyStep
    (ticks [Sample.n1, Sample.n1] onePending) c ∧ c.shared.trace.countP (handed "t1") = 2 :=
  Config.exists_of_follow (exec Sample.env) anyStep _ [0, 1, 0, 0, 0, 1, 1, 1] _ (by decide +kernel)

/-- Both ticks list the task; the second one's re-read finds what the first one claimed. -/
theorem two_ticks_hand_over_twice :
    ¬ ∀ c, Reachable (exec Sample.env) anyStep (ticks [Sample.n1, Sample.n1] onePending) c →
      HandedOnce c.shared := by
  intro once
  obtain ⟨c, reached, twice⟩ := race_reached
  have := once c reached "t1"
  omega

theorem turn_reached : ∃ c, Reachable (exec Sample.env) winnerRereads
    (ticks [Sample.n1, Sample.n1] onePending) c ∧ c.shared.trace.length = 10 :=
  Config.exists_of_follow (exec Sample.env) winnerRereads _ [0, 1, 0, 0, 0, 0, 0, 0, 1, 1] _
    (by decide +kernel)

/-- The second tick tries once the first has finished. -/
theorem ticks_hand_over_once_in_turn :
    ∃ c, Reachable (exec Sample.env) winnerRereads (ticks [Sample.n1, Sample.n1] onePending) c ∧
      c.shared.trace.length = 10 ∧ HandedOnce c.shared := by
  obtain ⟨c, reached, long⟩ := turn_reached
  exact ⟨c, reached, long,
    (ticks_hand_over_once Sample.env [Sample.n1, Sample.n1] onePending c reached).1⟩

end Executor

end Nyc
