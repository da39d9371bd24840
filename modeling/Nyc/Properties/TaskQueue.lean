import Nyc.Cluster
import Nyc.Data.Line

/-!
# Tasks wait in line

Between ticks, tasks are only added. A tick finishes the first pending task of its node, however
the commands of the task end, and leaves every other task alone. So a node's tasks are done in
the order of their rows: none is overtaken, none is run again, and one with `j` pending tasks of its
node before it is finished by that node's `j + 1`st tick.
-/

namespace Nyc

open Data Effects Effects.Program Client

namespace TaskQueue

/-! ## Everything but a tick -/

/-- A write to the tasks adds one that is pending. -/
def Adds : Op → Prop
  | .insert .tasks row => TaskRow.status row = .pending
  | .update t _ _ => t ≠ .tasks
  | .delete t _ => t ≠ .tasks
  | _ => True

theorem adds_of_spares {o : Op} (spares : ¬ o.writes .tasks) : Adds o := by
  cases o with
  | insert t row =>
    cases t with
    | tasks => exact absurd rfl spares
    | _ => trivial
  | update t p f => exact spares
  | delete t p => exact spares
  | _ => trivial

/-- Only a tick updates a task. -/
theorem spares_of_touch {ts ds : List Tbl} (new : .tasks ∉ ts) (old : .tasks ∉ ds) {o : Op}
    (h : Touch ts ds o) : ¬ o.writes .tasks := by
  cases h with
  | insert t row known => exact fun (same : t = .tasks) => new (same ▸ known)
  | delete t p known => exact fun (same : t = .tasks) => old (same ▸ known)
  | task p f known => exact absurd known new
  | status p st | ready p | size p sizeMb => exact fun (same : _ = Tbl.tasks) => by cases same
  | _ => exact not_false

theorem adds_of_touch {ts ds : List Tbl} (new : .tasks ∉ ts) (old : .tasks ∉ ds) {o : Op}
    (h : Touch ts ds o) : Adds o := adds_of_spares (spares_of_touch new old h)

/-- The tables that `POST /proxy` writes besides the tasks. -/
def others : List Tbl := [.vpcs, .volumes, .vms, .publicIps, .proxies]

theorem adds {α : Type} {p : Py α} (h : Only (Touch others []) p) : Only Adds p :=
  h.mono fun _ => adds_of_touch (by decide) (by decide)

theorem insert_adds (row : TaskRow) (waits : row.status = .pending) :
    Only Adds (insert .tasks row) :=
  .insert waits

theorem enqueueReload_adds (vmId : Id) : Only Adds (Domains.enqueueReload vmId) := by
  apply Only.bind (.get trivial)
  intro vm
  apply Only.whenSome
  intro vm _
  apply Only.bind (.get trivial)
  intro proxy
  apply Only.whenSome
  intro proxy _
  exact .bind (.now trivial) fun _ => .bind (.uuid4 trivial) fun _ => insert_adds _ rfl

theorem record_adds (vpc : VpcRow) (nodeId pipId : Id) (time : Timestamp) (vm : VmRow)
    (pip : PublicIpRow) :
    Only Adds (Proxy.record vpc nodeId pipId time vm pip) := by
  apply Only.bind (.uuid4 trivial)
  intro proxyId
  apply Only.bind (.insert trivial)
  intro _
  apply Only.bind (.uuid4 trivial)
  intro first
  apply Only.bind (.uuid4 trivial)
  intro second
  exact .bind (insert_adds _ rfl) fun _ => .bind (insert_adds _ rfl) fun _ => .pure _

theorem createProxyLocal_adds (self : Node) (body : ProxyIn) (vpc : VpcRow) (nodeId : Id) :
    Only Adds (Proxy.createProxyLocal self body vpc nodeId) := by
  apply Only.bind (adds (PublicIps.usedAddresses_touch _ (by decide)))
  intro used
  apply Only.bind (.fromExcept _)
  intro entry
  apply Only.bind (.now trivial)
  intro time
  apply Only.bind (.uuid4 trivial)
  intro pipId
  apply Only.bind (adds ?_)
  · intro vm
    exact record_adds ..
  · apply Vms.spawnLocal_touch self _ _ _ (by decide) (by decide) (by decide)
    intro _
    exact .insert (.insert .publicIps _ (by decide))

theorem serveHere_adds (self : Node) (req : Request) (found : Api.Found req) :
    Only Adds (Api.serveHere self req found) := by
  -- an endpoint that neither writes nor deletes tasks
  have spares (new : .tasks ∉ req.writes) (old : .tasks ∉ req.deletes) :
      Only Adds (Api.serveHere self req found) :=
    (Api.serveHere_touch self req found .refl).mono fun _ => adds_of_touch new old
  cases req with
  | createDomain body =>
    apply Only.bind (adds (Domains.resolveFqdn_touch _ body))
    intro fqdn
    apply Only.bind (adds (vmOr404_touch _))
    intro vm
    apply Only.bind (.uuid4 trivial)
    intro domainId
    apply Only.bind (.now trivial)
    intro time
    apply Only.bind (.insert trivial)
    intro _
    exact .bind (enqueueReload_adds _) fun _ => .pure _
  | deleteDomain domainId =>
    apply Only.bind (.get trivial)
    intro row
    apply Only.bind (adds (orHttp_touch ..))
    intro row
    apply Only.bind (.delete (show Tbl.domains ≠ .tasks by decide))
    intro _
    exact .bind (enqueueReload_adds _) fun _ => .pure _
  | createTask vmId body =>
    apply Only.bind (adds (vmOr404_touch _))
    intro vm
    apply Only.bind (.now trivial)
    intro time
    apply Only.bind (.uuid4 trivial)
    intro taskId
    exact .bind (insert_adds _ rfl) fun _ => .pure _
  | createProxy body => exact createProxyLocal_adds self body _ _
  | _ => exact spares (by simp [Request.writes]) (by simp [Request.deletes])

theorem serve_adds (cfg : Id → NodeConfig) (hops : Nat) (nodeId : Id) (req : Request) :
    Only Adds (Api.serve cfg hops nodeId req) := by
  apply Api.serve_composed (.only _) cfg (fun _ => True) (fun _ _ _ => trivial) _ _ _ hops nodeId
    req trivial
  · intro p
    exact .get trivial
  · intro nodeId req _
    have known : ∀ t ∈ [Tbl.vpcs, .publicIps], t ∈ others := by decide
    exact adds (Api.lookUp_touch _ req fun t there _ => known t there)
  · intro nodeId req found _
    exact serveHere_adds _ req found

/-! ## A tick -/

/-- What a tick of the node reads. -/
def waiting (n : Id) (w : World) : List TaskRow :=
  (w.db .tasks).getAll fun r => r.nodeId = n && r.status = .pending

theorem mem_waiting {n : Id} {w : World} {r : TaskRow} :
    r ∈ waiting n w ↔ r ∈ w.db .tasks ∧ r.nodeId = n ∧ r.status = .pending := by
  rw [waiting, Table.mem_getAll, Bool.and_eq_true, decide_eq_true_eq, decide_eq_true_eq]

theorem eq_of_id {w : World} {a b : TaskRow} (ha : a ∈ w.db .tasks) (hb : b ∈ w.db .tasks)
    (same : a.id = b.id) : a = b :=
  (w.db .tasks).eq_of_key TaskRow.id (List.mem_singleton_self _) ha hb same

/-- The row `e` of a task that has ended, which was `d` when it was pending. -/
structure Ended (d e : TaskRow) : Prop where
  status : e.status = .succeeded ∨ e.status = .failed
  result : e.result.isSome = true
  task : { e with status := d.status, result := d.result, updatedAt := d.updatedAt } = d

theorem Ended.not_pending {d e : TaskRow} (h : Ended d e) : e.status ≠ .pending := by
  rcases h.status with is | is <;> rw [is] <;> decide

/-- What a tick of the node `n` makes of the tasks. -/
inductive Ticked (n : Id) (w w' : World) : Prop where
  | idle (none_ : waiting n w = []) (same :
    (w'.db .tasks).rows = (w.db .tasks).rows) : Ticked n w w'
  | took (d : TaskRow) (rest : List TaskRow) (e : TaskRow) (first : waiting n w = d :: rest)
    (ended : Ended d e)
    (rows : (w'.db .tasks).rows = (w.db .tasks).rows.map fun r =>
      if r.id = d.id then e else r) : Ticked n w
      w'

section Tick

variable {env : Env} {w : World}

/-- An update of tasks first. -/
theorem update_then {β : Type} {p : TaskRow → Bool} {f : TaskRow → TaskRow}
    (keeps : ∀ r, (f r).id = r.id) {g : Nat → Py β} {Q : Except Exn β → World → Prop}
    (rest : ∀ n rows, rows.rows = (w.db .tasks).rows.map (fun r => if p r then f r else r) →
      wp (sequential (exec env)) (g n) Q (w.setTable .tasks rows).tick) :
    wp (sequential (exec env)) (update .tasks p f >>= g) Q w := by
  obtain ⟨rows, updated, answer⟩ := exec_update env w .tasks p f fun col there r => by
    obtain rfl := List.mem_singleton.mp there
    exact congrArg some (keeps r)
  rw [wp_bind, update, wp_perform]
  change onValue _ Q (exec env (.update .tasks p f) w).1 (exec env (.update .tasks p f) w).2
  rw [answer]
  exact rest _ rows (Table.update_some updated)

theorem finish_spec {d : TaskRow} {time : Timestamp} {status : TaskStatus} {result : Str}
    {rows : List TaskRow} (ends : status = .succeeded ∨ status = .failed)
    (claimed : (w.db .tasks).rows = rows.map fun r =>
      if r.id = d.id then { d with status := .running, updatedAt := time } else r) :
    wp (sequential (exec env)) (TaskRunner.finish d.id status result) (fun r w' => r = .ok () ∧
      ∃ e, Ended d e ∧ (w'.db .tasks).rows = rows.map fun r => if r.id = d.id then e else r) w := by
  rw [TaskRunner.finish, wp_bind, wp_now, onValue_ok]
  apply update_then
  · intro r
    rfl
  intro n rows' updated
  rw [wp_pure]
  refine ⟨rfl, { d with status := status, result := some result, updatedAt := env.now w.clock },
    ⟨ends, rfl, rfl⟩, ?_⟩
  rw [tick_db, setTable_self, updated, tick_db, claimed, List.map_map]
  refine List.map_congr_left fun r _ => ?_
  by_cases same : r.id = d.id
  · simp [same]
  · simp [same]

/-- A task that was claimed ends, whatever its commands do. -/
theorem runTask_spec (self : Node) {d : TaskRow} {time : Timestamp} {rows : List TaskRow}
    (claimed : (w.db .tasks).rows = rows.map fun r =>
      if r.id = d.id then { d with status := .running, updatedAt := time } else r) :
    wp (sequential (exec env)) (TaskRunner.runTask self d self.id) (fun r w' => r = .ok () ∧
      ∃ e, Ended d e ∧ (w'.db .tasks).rows = rows.map fun r => if r.id = d.id then e else r) w := by
  -- what the task does spares the tasks, so the row is found as it was claimed, however it ended
  have keeps (o : Op) (w' : World) (touch : Touch [] [] o) (same : w'.db .tasks = w.db .tasks) :
      (exec env o w').2.db .tasks = w.db .tasks := by
    rw [exec_frame env w' .tasks o (spares_of_touch (by decide) (by decide) touch), same]
  rw [TaskRunner.runTask, wp_tryCatch]
  refine sequential_keeps_then _ _ keeps (dispatch_touch self d self.id) rfl ?_ ?_
  · intro e w' same
    exact finish_spec (.inr rfl) (same ▸ claimed)
  · intro result w' same
    refine sequential_mono _ _ _ _ ?_ _ (finish_spec (.inl rfl) (same ▸ claimed))
    rintro _ w'' ⟨rfl, ended⟩
    exact ⟨rfl, ended⟩

/-- A tick takes the first pending task of its node. -/
theorem tick_spec (self : Node) :
    wp (sequential (exec env)) (Executor.tick self) (fun r w' => r = .ok () ∧
      Ticked self.id w w') w := by
  rw [Executor.tick, wp_bind, wp_getAll, onValue_ok]
  change wp (sequential (exec env)) (Executor.tryTasks self (waiting self.id w)) _ w.tick
  cases read : waiting self.id w with
  | nil => exact ⟨rfl, .idle read rfl⟩
  | cons d rest =>
    have first : d ∈ waiting self.id w := read ▸ List.mem_cons_self
    obtain ⟨there, own, pending⟩ := mem_waiting.mp first
    have unique : ∀ r ∈ (w.db .tasks).rows, r.id = d.id → r = d :=
      fun r there' => eq_of_id there' there
    rw [Executor.tryTasks, Executor.claim, wp_bind, wp_bind, wp_now, onValue_ok]
    apply update_then
    · intro r
      rfl
    intro n rows updated
    have claimed : rows.rows = (w.db .tasks).rows.map fun r =>
        if r.id = d.id then { d with
          status := .running, updatedAt := env.now w.tick.clock } else r := by
      rw [updated]
      refine List.map_congr_left fun r there' => ?_
      by_cases same : r.id = d.id
      · obtain rfl := unique r there' same
        simp [pending]
      · simp [same]
    -- the claim always succeeds: the row was pending when it was read, and nobody came between
    have won : ∃ r, rows.get (fun r => r.id = d.id && r.status = .running) = some r := by
      cases found : rows.get fun r => r.id = d.id && r.status = .running with
      | some r => exact ⟨r, rfl⟩
      | none =>
        have none_ := Table.get_none.mp found { d with
          status := .running, updatedAt := env.now w.tick.clock }
        rw [← Table.mem_rows, claimed] at none_
        have is := none_ (List.mem_map.mpr ⟨d, there, by rw [if_pos rfl]⟩)
        simp at is
    obtain ⟨r, won⟩ := won
    rw [wp_get, tick_db, setTable_self, won]
    have written : ((w.tick.tick.setTable .tasks rows).tick.tick.db .tasks).rows = rows.rows := by
      rw [tick_db, tick_db, setTable_self]
    refine sequential_mono _ _ _ _ ?_ _ (runTask_spec self (written.trans claimed))
    rintro _ w' ⟨rfl, e, ended, after⟩
    exact ⟨rfl, .took d rest e read ended after⟩

end Tick

/-! ## Runs -/

/-- What an action makes of the cluster, however it ends. -/
def after (env : Env) (cfg : Id → NodeConfig) (hops : Nat) (w : World) (a : Action) : World :=
  (run (exec env) (a.program cfg hops) w).2

/-- The action is a tick of the node `n`. -/
def ticks (n : Id) : Action → Bool
  | .tick m => m = n
  | _ => false

/-- The rows of the tasks, before and after something that adds pending ones only. -/
def Joined (rows rows' : List TaskRow) : Prop :=
  ∃ new, rows' = rows ++ new ∧ ∀ r ∈ new, r.status = .pending

section Runs

variable {env : Env} {cfg : Id → NodeConfig} {hops : Nat} {w : World}

theorem Joined.exec {rows : List TaskRow} {o : Op} (ok : Adds o)
    (h : Joined rows (w.db .tasks).rows) :
    Joined rows ((exec env o w).2.db .tasks).rows := by
  by_cases writes : o.writes .tasks
  · cases o with
    -- a new row goes to the end of the table
    | insert t row =>
      obtain rfl : t = .tasks := writes
      cases made : (w.db .tasks).insert row with
      | none => exact exec_insert_none env w .tasks row made ▸ h
      | some table =>
        obtain ⟨new, is, pending⟩ := h
        rw [exec_insert_some env w .tasks row made, tick_db, setTable_self,
          Table.insert_some made, is]
        refine ⟨new ++ [row], List.append_assoc .., fun r there => ?_⟩
        rcases List.mem_append.mp there with there | there
        · exact pending r there
        · rw [List.mem_singleton.mp there]
          exact ok
    | update t p f => exact absurd writes ok
    | delete t p => exact absurd writes ok
    | _ => exact writes.elim
  · rwa [exec_frame env w .tasks o writes]

/-- What an action makes of the tasks. -/
theorem after_cases (env : Env) (cfg : Id → NodeConfig) (hops : Nat) (w : World) (a : Action) :
    (∃ m, a = .tick m ∧ Ticked m w (after env cfg hops w a)) ∨
      (∀ n, ticks n a = false) ∧
        Joined (w.db .tasks).rows ((after env cfg hops w a).db .tasks).rows := by
  have joins (only : Only Adds (a.program cfg hops)) :
      Joined (w.db .tasks).rows ((after env cfg hops w a).db .tasks).rows := by
    have start : Joined (w.db .tasks).rows (w.db .tasks).rows :=
      ⟨[], (List.append_nil _).symm, by simp⟩
    have kept := sequential_keeps (exec env)
      (fun w' => Joined (w.db .tasks).rows (w'.db .tasks).rows)
      (fun o w' ok h => h.exec ok) only w start
    exact (wp_sequential _ _ _ _).mp kept
  cases a with
  | tick m =>
    -- the only action that updates a task
    have ticked : wp (sequential (exec env)) ((Action.tick m).program cfg hops)
      (fun _ w' => Ticked m w w') w := by
      rw [Action.program, wp_bind]
      refine sequential_mono _ _ _ _ ?_ _ (tick_spec ⟨m, cfg m⟩)
      rintro _ w' ⟨rfl, ticked⟩
      exact ticked
    exact .inl ⟨m, rfl, (wp_sequential _ _ _ _).mp ticked⟩
  | request nodeId req => exact .inr ⟨fun _ => rfl, joins (serve_adds cfg hops nodeId req)⟩
  | reconcile nodeId =>
    have only : Only (Touch [] [.publicIps, .domains, .proxies, .vms])
        (PassOnce.run ⟨nodeId, cfg nodeId⟩) :=
      passOnce_touch _ (by decide) (by decide) (by decide) (by decide)
    exact .inr ⟨fun _ => rfl, joins
      (.bind (only.mono fun _ => adds_of_touch (by decide) (by decide)) fun _ => .pure _)⟩
  | join row => exact .inr ⟨fun _ => rfl, joins (.bind (.insert trivial) fun _ => .pure _)⟩
  | leave nodeId =>
    exact .inr ⟨fun _ => rfl, joins (.bind (.delete (show Tbl.nodes ≠ .tasks by decide))
      fun _ => .pure _)⟩

/-- Who waits, once the task `d` is no longer pending. -/
theorem filter_ended {rows : List TaskRow} {d e : TaskRow} {p : TaskRow → Bool}
    (not_ : p e = false) :
    (rows.map fun r => if r.id = d.id then e else r).filter p = (rows.filter p).filter
      fun r => r.id ≠ d.id := by
  induction rows with
  | nil => rfl
  | cons r rows ih =>
    -- the row itself drops out on both sides, any other row is tested as it was
    by_cases same : r.id = d.id
    · cases meets : p r <;> simp [same, not_, meets, ih]
    · cases meets : p r <;> simp [same, meets, ih]

theorem waiting_ticked {m n : Id} {w' : World} (h : Ticked m w w') :
    waiting n w' = if m = n then (waiting n w).tail else waiting n w := by
  cases h with
  | idle none_ same =>
    have read : waiting n w' = waiting n w := congrArg (List.filter _) same
    rw [read]
    split
    next is =>
      rw [← is, none_]
      rfl
    next => rfl
  | took d rest e first ended rows =>
    have is : d ∈ waiting m w := first ▸ List.mem_cons_self
    obtain ⟨there, own, pending⟩ := mem_waiting.mp is
    have read : waiting n w' = (waiting n w).filter fun r => r.id ≠ d.id := by
      rw [waiting, Table.getAll, rows]
      exact filter_ended (by simp [ended.not_pending])
    rw [read]
    split
    next same =>
      rw [← same, first, List.filter_cons_of_neg (by simp), List.tail_cons]
      -- the ids of the others differ from that of the first
      have apart : (waiting m w).Pairwise fun a b => ¬ Clash Tbl.tasks.unique a b :=
        (w.db .tasks).distinct.filter _
      rw [first] at apart
      refine List.filter_eq_self.mpr fun r later => ?_
      refine decide_eq_true fun same => (List.pairwise_cons.mp apart).1 r later ?_
      exact ⟨_, List.mem_singleton_self _, by simp, congrArg some same.symm⟩
    next differ =>
      -- the task is another node's, so it was not in this line
      refine List.filter_eq_self.mpr fun r later => decide_eq_true fun same => differ ?_
      obtain ⟨there', own', _⟩ := mem_waiting.mp later
      rw [← own, ← own', eq_of_id there' there same]

/-- Each tick of a node serves the first in its line, and those who come are last. -/
theorem orderly (n : Id) : Orderly (after env cfg hops) (waiting n) (ticks n) := by
  intro w a
  rcases after_cases env cfg hops w a with ⟨m, rfl, ticked⟩ | ⟨quiet, joined⟩
  · refine ⟨[], ?_⟩
    rw [List.append_nil, waiting_ticked ticked]
    simp [ticks]
  · obtain ⟨new, is, _⟩ := joined
    rw [quiet n, if_neg Bool.false_ne_true]
    refine ⟨new.filter fun r => r.nodeId = n && r.status = .pending, ?_⟩
    rw [waiting, Table.getAll, is, List.filter_append]
    rfl

/-- A task that is not pending stays as it is. -/
theorem settled_stays (a : Action) {r : TaskRow} (there : r ∈ w.db .tasks)
    (settled : r.status ≠ .pending) :
    r ∈ (after env cfg hops w a).db .tasks := by
  rcases after_cases env cfg hops w a with ⟨m, rfl, ticked⟩ | ⟨_, joined⟩
  · cases ticked with
    | idle none_ same =>
      rw [← Table.mem_rows, same]
      exact there
    | took d rest e first ended rows =>
      -- the row that the tick took was pending, so it is another one
      obtain ⟨there', _, pending⟩ := mem_waiting.mp (first ▸ List.mem_cons_self : d ∈ waiting m w)
      rw [← Table.mem_rows, rows]
      refine List.mem_map.mpr ⟨r, there, if_neg fun same => settled ?_⟩
      rw [eq_of_id there there' same, pending]
  · obtain ⟨new, is, _⟩ := joined
    rw [← Table.mem_rows, is]
    exact List.mem_append_left new there

theorem first_ends {n : Id} {a : Action} {r : TaskRow} (serves : ticks n a = true)
    (first : (waiting n w).head? = some r) :
    ∃ e ∈ (after env cfg hops w a).db .tasks, Ended r e := by
  rcases after_cases env cfg hops w a with ⟨m, rfl, ticked⟩ | ⟨quiet, _⟩
  · obtain rfl : m = n := of_decide_eq_true serves
    cases ticked with
    | idle none_ same =>
      rw [none_] at first
      cases first
    | took d rest e read ended rows =>
      rw [read] at first
      cases first
      obtain ⟨there, _⟩ := mem_waiting.mp (read ▸ List.mem_cons_self : r ∈ waiting m w)
      refine ⟨e, ?_, ended⟩
      rw [← Table.mem_rows, rows]
      exact List.mem_map.mpr ⟨r, there, if_pos rfl⟩
  · rw [quiet n] at serves
    cases serves

/-- What a run with `k` ticks of the node `n` has done with the tasks. -/
structure Progress (n : Id) (k : Nat) (w w' : World) : Prop where
  line : ∃ new, waiting n w' = (waiting n w).drop k ++ new
  ended : ∀ r ∈ (waiting n w).take k, ∃ e ∈ w'.db .tasks, Ended r e
  settled : ∀ r ∈ w.db .tasks, r.status ≠ .pending → r ∈ w'.db .tasks

/-- Whatever the cluster does one action after the other, and however its commands and requests end:
`k` ticks of a node end the first `k` of the tasks that were pending there, and only those. -/
theorem progress (env : Env) (cfg : Id → NodeConfig) (hops : Nat) (n : Id) (actions : List Action)
    (w : World) :
    Progress n (actions.countP (ticks n)) w (actions.foldl (after env cfg hops) w) := by
  have stays (actions : List Action) {r : TaskRow} (settled : r.status ≠ .pending) (w : World)
      (there : r ∈ w.db .tasks) : r ∈ (actions.foldl (after env cfg hops) w).db .tasks := by
    induction actions generalizing w with
    | nil => exact there
    | cons a rest ih => exact ih _ (settled_stays a there settled)
  constructor
  · exact (orderly n).foldl actions w
  · intro r served
    obtain ⟨j, below, is⟩ := List.mem_take_iff_getElem.mp served
    have waits : (waiting n w)[j]? = some r := List.getElem?_eq_some_iff.mpr ⟨by omega, is⟩
    refine (orderly n).served (fun r w => ∃ e ∈ w.db .tasks, Ended r e)
      (fun w a r => first_ends) ?_ actions waits
      (by omega)
    rintro w a r ⟨e, there, ended⟩
    exact ⟨e, settled_stays a there ended.not_pending, ended⟩
  · exact fun r there settled => stays actions settled w there

end Runs

end TaskQueue

end Nyc
