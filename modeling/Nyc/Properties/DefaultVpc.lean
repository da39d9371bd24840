import Nyc.Steps

/-!
# The default VPC

Any number of calls look for the default VPC and make it where there is none. The name is unique,
so that the call whose insert fails finds the row of the one that was first.
-/

namespace Nyc.DefaultVpc

open Data Effects Effects.Program Defaults

def isDefault (r : VpcRow) : Bool := r.name = DEFAULT_VPC_NAME

/-- Calls at any nodes, each its own thread. -/
def racers (calls : Nat) (w : World) : Config Op Op.Res Exn VpcRow World :=
  ⟨⟨w, []⟩, List.replicate calls ensureDefaultVpc⟩

/-- No new id is that of another VPC. -/
def Fresh (env : Env) (w : World) : Prop :=
  ∀ r ∈ w.db .vpcs, isDefault r = false → ∀ n, env.uuid n ≠ r.id

/-- A default VPC that is there stays. -/
def Stays (s s' : Run) : Prop := ∀ r ∈ s.world.db .vpcs, isDefault r = true → r ∈ s'.world.db .vpcs

def HasDefault (s : Run) : Prop := ∃ r ∈ s.world.db .vpcs, isDefault r = true

theorem HasDefault.stays {s s' : Run} (there : HasDefault s) (stays : Stays s s') :
    HasDefault s' := by
  obtain ⟨r, here, default_⟩ := there
  exact ⟨r, stays r here default_, default_⟩

/-- The call returned a row of the table. -/
def Returns (r : Except Exn VpcRow) (s : Run) : Prop :=
  ∃ row, r = .ok row ∧ row ∈ s.world.db .vpcs ∧ isDefault row = true

section

variable {env : Env} (i : Nat)

/-- Thread `i` among the other calls. -/
abbrev racing (env : Env) : OpSpec Op Op.Res Exn (Run → Prop) :=
  among (exec env) i (fun s => Fresh env s.world) Stays Stays fun _ _ => True

/-- An operation that leaves the VPCs. -/
theorem quiet_step {o : Op} {Q : Except Exn o.Res → Run → Prop} {s : Run} (quiet : ¬ o.writes .vpcs)
    (rest : ∀ s', Stays s s' → Q (exec env o s'.world).1 (s'.after (exec env) i o)) :
    wp (racing i env) (@perform Op Op.Res Exn o) Q s := by
  rw [wp_perform]
  intro s' moved fresh _
  have same : (s'.after (exec env) i o).world.db .vpcs = s'.world.db .vpcs :=
    exec_frame env s'.world .vpcs o quiet
  refine ⟨?_, ?_, rest s' moved⟩
  · intro r there
    rw [same] at there
    exact fresh r there
  · intro r there _
    rw [same]
    exact there

/-- Looking for the default VPC finds it where there is one. -/
theorem default_step {Q : Except Exn (Option VpcRow) → Run → Prop} {s : Run}
    (rest : ∀ s', Stays s s' → Q (.ok ((s'.world.db .vpcs).get isDefault))
      (s'.after (exec env) i (.get .vpcs isDefault))) :
    wp (racing i env) defaultVpc Q s := by
  rw [defaultVpc, get]
  exact quiet_step i id rest

theorem get_default {s : Run} (there : HasDefault s) :
    ∃ r, (s.world.db .vpcs).get isDefault = some r ∧ r ∈ s.world.db .vpcs ∧ isDefault r = true := by
  obtain ⟨r, here, default_⟩ := there
  cases found : (s.world.db .vpcs).get isDefault with
  | none =>
    rw [Table.get_none.mp found r here] at default_
    cases default_
  | some r => exact ⟨r, rfl, Table.get_some found⟩

/-- The insert makes the row, or fails for the row that is there. -/
theorem insert_step (n : Nat) (time : Timestamp) {s : Run} {Q : Except Exn Unit → Run → Prop}
    (made : ∀ s', (⟨env.uuid n, DEFAULT_VPC_NAME, DEFAULT_VPC_CIDR, time⟩ : VpcRow) ∈
      s'.world.db .vpcs → Q (.ok ()) s')
    (lost : ∀ s', HasDefault s' → Q (.error .rqlite) s') :
    wp (racing i env) (insert .vpcs ⟨env.uuid n, DEFAULT_VPC_NAME, DEFAULT_VPC_CIDR,
      time⟩) Q s := by
  rw [insert, wp_perform]
  intro s' _ fresh _
  simp only [Shared.after]
  cases inserted : (s'.world.db .vpcs).insert ⟨env.uuid n, DEFAULT_VPC_NAME,
    DEFAULT_VPC_CIDR, time⟩ with
  | some rows =>
    rw [exec_insert_some env s'.world .vpcs _ inserted]
    have rows_ : ∀ r, r ∈ rows ↔ r ∈ s'.world.db .vpcs ∨
        r = ⟨env.uuid n, DEFAULT_VPC_NAME, DEFAULT_VPC_CIDR, time⟩ :=
      fun r => Table.mem_insert inserted
    refine ⟨?_, ?_, made _ ?_⟩
    · intro r there other
      rw [tick_db, setTable_self, rows_] at there
      rcases there with before | rfl
      · exact fresh r before other
      · cases other
    · intro r there _
      rw [tick_db, setTable_self, rows_]
      exact .inl there
    · rw [tick_db, setTable_self, rows_]
      exact .inr rfl
  | none =>
    rw [exec_insert_none env s'.world .vpcs _ inserted]
    refine ⟨fresh, fun r there _ => there, lost _ ?_⟩
    obtain ⟨r, there, clash⟩ := Table.insert_none.mp inserted
    refine ⟨r, there, ?_⟩
    -- the id is new, so that it is the name that is taken
    by_contra other
    obtain ⟨col, column, -, same⟩ := clash
    rcases List.mem_cons.mp column with rfl | column
    · exact fresh r there (by simpa using other) n (Option.some.inj same).symm
    · obtain rfl := List.mem_singleton.mp column
      exact other (decide_eq_true (Option.some.inj same))

theorem ensure_returns (s : Run) : wp (racing i env) ensureDefaultVpc Returns s := by
  rw [ensureDefaultVpc, wp_bind]
  apply default_step
  intro s₁ _
  rw [onValue_ok]
  cases found : (s₁.world.db .vpcs).get isDefault with
  | some existing => exact ⟨existing, rfl, Table.get_some found⟩
  | none =>
    simp only [wp_bind]
    apply quiet_step i id
    intro s₂ _
    rw [exec_uuid4, onValue_ok]
    apply quiet_step i id
    intro s₃ _
    rw [exec_now, onValue_ok, wp_tryCatch, wp_bind]
    apply insert_step
    · exact fun s₄ made => ⟨_, rfl, made, rfl⟩
    · intro s₄ there
      rw [onValue_error, onError_error, if_pos rfl, wp_bind]
      apply default_step
      intro s₅ moved
      -- the row of the winner
      obtain ⟨r, found, here, default_⟩ := get_default (there.stays moved)
      rw [found, onValue_ok]
      exact ⟨r, rfl, here, default_⟩

end

/-- Two lookups, an id, the time and an insert. -/
theorem ensure_issuesAtMost : IssuesAtMost 5 ensureDefaultVpc := by
  rintro (e | _ | existing)
  · exact .raise _ e
  · rintro (e | id)
    · exact .raise _ e
    rintro (e | time)
    · exact .raise _ e
    rintro (e | _)
    · cases e with
      | rqlite =>
        rintro (e | _ | winner)
        · exact .raise _ e
        · exact .raise _ _
        · exact .ret _ winner
      | _ => exact .raise _ _
    · exact .ret _ _
  · exact .ret _ existing

/-- A call that has not returned has operations left: it has issued fewer than five. -/
def Unfinished (calls : Config Op Op.Res Exn VpcRow World) (i : Nat) (p : Py VpcRow) : Prop :=
  (∃ o k, p = .op o k) ∧ calls.shared.issuedBy i < 5

/-- However the calls interleave, each returns within five operations of its own, and what it
returns is the one row named default. -/
theorem calls_agree (env : Env) (calls : Nat) (w : World) (fresh : Fresh env w)
    (c : Config Op Op.Res Exn VpcRow World)
    (reached : Reachable (exec env) anyStep (racers calls w) c)
    (i : Nat) (p : Py VpcRow) (there : c.threads[i]? = some p) :
    Unfinished c i p ∨ ∃ row, p = .ret row ∧
      (c.shared.world.db .vpcs).getAll isDefault = [row] := by
  have start (j : Nat) (q : Py VpcRow) (here : (racers calls w).threads[j]? = some q) :
      q = ensureDefaultVpc :=
    List.eq_of_mem_replicate (List.mem_of_getElem? here)
  -- what a call returns is the default row when it reads it, and the row stays
  have reading := (Reachable.holds (fun s => Fresh env s.world) (fun _ => Stays) (fun _ => Stays)
    (fun _ => Returns)
    (fun _ _ _ there _ => there)
    (fun _ _ _ _ first second r there default_ => second r (first r there default_) default_)
    (fun _ _ _ _ _ _ _ stays => stays) fresh
    (fun j q here => by
      rw [start j q here]
      exact ensure_returns j _)
    reached).2 i p there
  obtain ⟨s, stays, holds⟩ := reading
  cases p with
  | op o k =>
    -- a call that is still running has issued fewer than five operations
    obtain ⟨left, within, issued⟩ := reached.within rfl (n := 5)
      (fun j q here => by
        rw [start j q here]
        exact ensure_issuesAtMost) i _ there
    cases left with
    | zero => exact absurd within id
    | succ left => exact .inl ⟨⟨o, k, rfl⟩, by omega⟩
  | raise e =>
    obtain ⟨row, same, -⟩ := holds
    cases same
  | ret row =>
    obtain ⟨_, same, here, default_⟩ := holds
    cases same
    refine .inr ⟨row, rfl, ?_⟩
    have named : row.name = DEFAULT_VPC_NAME := of_decide_eq_true default_
    refine Table.getAll_of_key _ VpcRow.name ?_ (stays row here default_) default_
      fun b _ other => ?_
    · exact List.mem_cons_of_mem _ List.mem_cons_self
    · exact (of_decide_eq_true other : b.name = DEFAULT_VPC_NAME).trans named.symm

/-- What a call has returned. -/
def returned : Py VpcRow → Option VpcRow
  | .ret row => some row
  | _ => none

/-- Two calls that both find no default VPC: the first inserts one, and the second reads it. -/
theorem race_reached : ∃ c, Reachable (exec Sample.env) anyStep (racers 2 Sample.fresh) c ∧
    ∃ p, c.threads[1]? = some p ∧ (returned p).isSome = true := by
  obtain ⟨c, reached, done⟩ :=
    Config.exists_of_follow (exec Sample.env) anyStep (racers 2 Sample.fresh)
    [0, 1, 0, 1, 1, 0, 0, 1, 1] (fun c => (c.threads[1]?.bind returned).isSome = true)
      (by decide +kernel)
  refine ⟨c, reached, ?_⟩
  cases there : c.threads[1]? with
  | none =>
    rw [there] at done
    cases done
  | some p =>
    rw [there] at done
    exact ⟨p, rfl, done⟩

theorem loser_agrees : ∃ c, Reachable (exec Sample.env) anyStep (racers 2 Sample.fresh) c ∧
    ∃ row, c.threads[1]? = some (.ret row) ∧
      (c.shared.world.db .vpcs).getAll isDefault = [row] := by
  obtain ⟨c, reached, p, there, done⟩ := race_reached
  have fresh : Fresh Sample.env Sample.fresh := fun _ there => absurd there List.not_mem_nil
  refine ⟨c, reached, ?_⟩
  rcases calls_agree Sample.env 2 Sample.fresh fresh c reached 1 p there with ⟨⟨o, k, rfl⟩,
    -⟩ | ⟨row, rfl, one⟩
  · cases done
  · exact ⟨row, there, one⟩

end Nyc.DefaultVpc
