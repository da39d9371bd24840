import Nyc.Client.Steps
import Nyc.Steps

/-!
# The list of all VMs

`GET /vms` on any node: its own VMs with a check of their processes, the others with the entries of
their owners' own lists, and `unknown` where an owner does not answer.
-/

namespace Nyc

open Data Effects Effects.Program Client

namespace Listing

open Api

section

variable (env : Env)

/-- The check of the VM's process gives this status, at some moment of the run. -/
def Checked {α : Type} (p : Py α) (w : World) (n : Id) (e : VmEntry) : Prop :=
  ∃ a ∈ trail (exec env) p w, ∃ live,
    (run (exec env) (onHost n (Status.run e.row.id)) a.2).1 = .ok live ∧ e.liveStatus = .live live

/-- The owner's own list at some moment of the run. -/
def Viewed {α : Type} (cfg : Id → NodeConfig) (p : Py α) (w : World) (x : Id)
    (view : List VmEntry) : Prop :=
  ∃ a ∈ trail (exec env) p w, (run (exec env) (listLocal cfg x) a.2).1 = .ok view

/-! ## The check of a process -/

theorem dir_answers (n vmId : Id) {c : DirCmd} {a : c.Res} {d : Option VmDir} (w : World)
    (step : c.step ((w.hosts n).dirs.lookup vmId) = some (a, d)) :
      (exec env (.host n (.dir vmId c)) w).1 = .ok a ∧
      ((exec env (.host n (.dir vmId c)) w).2.hosts n).dirs.lookup vmId = d := by
  have answer : exec env (.host n (.dir vmId c)) w = _ := exec_host env w n (.dir vmId c)
  rw [answer, exec_dir _ vmId c _ step]
  constructor
  · rfl
  · rw [tick_hosts, setHost_hosts, if_pos rfl, lookup_putDir, if_pos rfl]

theorem wp_command (n : Id) (c : Cmd) (Q : Except Exn c.Res → World → Prop) (w : World) :
    wp (onHostSpec (sequential (exec env)) n) (@perform Cmd Cmd.Res Exn c) Q w =
      Q (exec env (.host n c) w).1 (exec env (.host n c) w).2 := by
  rw [wp_perform]
  rfl

/-- The check always has an answer, and reads no row. -/
theorem status_answers (n vmId : Id) (w : World) :
    wp (sequential (exec env)) (onHost n (Status.run vmId))
    (fun r s => (∃ live, r = .ok live) ∧ s.db = w.db) w := by
  rw [wp_onHost, Status.run, wp_bind, dir, wp_command]
  obtain ⟨answer, kept⟩ := dir_answers env n vmId (c := .hasPid) w rfl
  have db : (exec env (.host n (.dir vmId .hasPid)) w).2.db = w.db := rfl
  generalize exec env (.host n (.dir vmId .hasPid)) w = t at answer kept db
  rw [answer, onValue_ok, wp_ite]
  cases file : ((w.hosts n).dirs.lookup vmId).bind VmDir.pid with
  | none => exact ⟨⟨.stopped, rfl⟩, db⟩
  | some pid =>
    -- the pid file is still there
    rw [Option.isSome_some, if_pos rfl, wp_bind, dir, wp_command]
    have step : DirCmd.step .readPid ((t.2.hosts n).dirs.lookup vmId) = some
      (pid, (w.hosts n).dirs.lookup vmId) := by
      rw [kept, DirCmd.step, file, Option.map_some]
    have read := (dir_answers env n vmId t.2 step).1
    have db' : (exec env (.host n (.dir vmId .readPid)) t.2).2.db = w.db := db
    generalize exec env (.host n (.dir vmId .readPid)) t.2 = u at read db'
    rw [read, onValue_ok, wp_ite]
    split
    · exact ⟨⟨.stopped, rfl⟩, db'⟩
    · rw [wp_bind, Kill.stillThere, wp_tryCatch, wp_bind, wp_command]
      have poll := exec_poll (env.chance u.2.clock) pid.toNat (u.2.hosts n)
      have answers : exec env (.host n (.poll pid.toNat)) u.2 = _ :=
        exec_host env u.2 n (.poll pid.toNat)
      rcases poll with there | gone
      · rw [answers, there]
        exact ⟨⟨.running, rfl⟩, db'⟩
      · rw [answers, gone]
        exact ⟨⟨.stopped, rfl⟩, db'⟩

theorem status_runs (n vmId : Id) (w : World) : ∃ live s,
    run (exec env) (onHost n (Status.run vmId)) w = (.ok live, s) ∧ s.db = w.db := by
  obtain ⟨⟨live, answer⟩, db⟩ := (wp_sequential ..).mp (status_answers env n vmId w)
  exact ⟨live, _, Prod.ext answer rfl, db⟩

theorem status_starts (n vmId : Id) (w : World) :
    (.host n (.dir vmId .hasPid), w) ∈ trail (exec env) (onHost n (Status.run vmId)) w :=
  List.mem_cons_self

/-- The entries of the given rows, each checked at its moment. -/
theorem withStatuses_runs (self : Node) (rows : List VmRow) (w : World) : ∃ entries s,
    run (exec env) (Vms.withStatuses self rows) w = (.ok entries, s) ∧ s.db = w.db ∧
      entries.map VmEntry.row = rows ∧ ∀ e ∈ entries, Checked env
        (Vms.withStatuses self rows) w self.id e := by
  induction rows generalizing w with
  | nil => exact ⟨[], w, rfl, rfl, rfl, fun e there => absurd there List.not_mem_nil⟩
  | cons r rest ih =>
    obtain ⟨live, s, first, db⟩ := status_runs env self.id r.id w
    obtain ⟨entries, s', next, db', rows, checked⟩ := ih s
    have first' : run (exec env) (self.sh (Status.run r.id)) w = (.ok live, s) := first
    refine ⟨⟨r, .live live⟩ :: entries, s', ?_, db'.trans db, ?_, ?_⟩
    · rw [Vms.withStatuses, run_bind_ok first', run_bind_ok next]
      rfl
    · rw [List.map_cons, rows]
    · intro e there
      rcases List.mem_cons.mp there with rfl | later
      · exact ⟨_, mem_trail_first (status_starts env self.id r.id w), live,
          congrArg Prod.fst first, rfl⟩
      · obtain ⟨a, passed, holds⟩ := checked e later
        exact ⟨a, mem_trail_next first' (mem_trail_first passed), holds⟩

/-! ## Entering a list -/

/-- The entry that is found under an id: of the list, if it has one. -/
theorem enter_other (entries : List VmEntry) (byId : Store Id VmEntry) (id : Id)
    (other : ∀ e ∈ entries, e.row.id ≠ id) :
    (Vms.enter byId entries).lookup id = byId.lookup id := by
  induction entries generalizing byId with
  | nil => rfl
  | cons e rest ih =>
    have first := other e List.mem_cons_self
    have later := ih (byId.insert e.row.id e) fun e' there =>
      other e' (List.mem_cons_of_mem _ there)
    rw [Vms.enter, List.foldl_cons]
    exact later.trans ((Store.lookup_insert ..).trans (if_neg (Ne.symm first)))

theorem enter_found (entries : List VmEntry) (byId : Store Id VmEntry) {e : VmEntry}
    (there : e ∈ entries) (distinct : (entries.map fun e => e.row.id).Nodup) :
      (Vms.enter byId entries).lookup e.row.id = some e := by
  induction entries generalizing byId with
  | nil => cases there
  | cons e' rest ih =>
    rw [List.map_cons, List.nodup_cons] at distinct
    rw [Vms.enter, List.foldl_cons]
    rcases List.mem_cons.mp there with rfl | later
    · refine (enter_other rest _ e.row.id fun e' there' same => ?_).trans ?_
      · exact distinct.1 (List.mem_map.mpr ⟨e', there', same⟩)
      · exact AList.lookup_insert _
    · exact ih _ later distinct.2

/-! ## The owners -/

/-- The owner is known, and its node serves the request. -/
def Serves (network : Id → Reply) (db : Db) (x : Id) : Prop :=
  (∃ row ∈ db .nodes, row.nodeId = x) ∧ network x = .served

/-- The owner is known, and the request to it raises `RequestError`. -/
def Unreachable (network : Id → Reply) (db : Db) (x : Id) : Prop :=
  (∃ row ∈ db .nodes, row.nodeId = x) ∧ network x = .unreachable

/-- A node's own list has an entry for each of its rows. -/
theorem listLocal_runs (cfg : Id → NodeConfig) (x : Id) (w : World) : ∃ view s,
    run (exec env) (listLocal cfg x) w = (.ok view, s) ∧ s.db = w.db ∧
      view.map VmEntry.row = (w.db .vms).rows.filter fun r => r.nodeId = x := by
  obtain ⟨view, s, runs, db, rows, -⟩ := withStatuses_runs env ⟨x, cfg x⟩
    (((w.db .vms).getAll fun _ => true).filter fun r => r.nodeId = x) w.tick
  refine ⟨view, s, ?_, db, ?_⟩
  · exact runs
  · rw [rows, Table.getAll, List.filter_true]

section

variable (network : Id → Reply) (cfg : Id → NodeConfig) (x : Id) (w : World)

theorem forward_found {row : NodeRow}
    (found : (w.db .nodes).get (fun r => r.nodeId = x) = some row) :
    run (exec env) (forwardLocal network (listLocal cfg) x) w =
      run (exec env) (request network x (listLocal cfg x)) w.tick := by
  have looked : run (exec env) (get .nodes fun r => r.nodeId = x) w = (.ok (some row), w.tick) := by
    rw [get, run_perform, exec_get, found]
  have named : row.nodeId = x := of_decide_eq_true (Table.get_some found).2
  rw [forwardLocal, run_bind_ok looked, ← named]
  rfl

theorem forward_unknown (found : (w.db .nodes).get (fun r => r.nodeId = x) = none) :
    run (exec env) (forwardLocal network (listLocal cfg) x) w =
      (.error (.http 404 ("unknown node " ++ x)), w.tick) := by
  have looked : run (exec env) (get .nodes fun r => r.nodeId = x) w = (.ok none, w.tick) := by
    rw [get, run_perform, exec_get, found]
  rw [forwardLocal, run_bind_ok looked]
  rfl

/-- The lookup, for a node that is known. -/
theorem known_iff : (∃ row ∈ w.db .nodes, row.nodeId = x) ↔
    ∃ row, (w.db .nodes).get (fun r => r.nodeId = x) = some row := by
  constructor
  · rintro ⟨row, there, named⟩
    cases found : (w.db .nodes).get fun r => r.nodeId = x with
    | some row => exact ⟨row, rfl⟩
    | none => exact absurd named (of_decide_eq_false (Table.get_none.mp found row there))
  · rintro ⟨row, found⟩
    exact ⟨row, (Table.get_some found).1, of_decide_eq_true (Table.get_some found).2⟩

/-- An owner that serves the request answers with its own list. -/
theorem ask_served (serves : Serves network w.db x) : ∃ view s,
    run (exec env) (Vms.orNobody (forwardLocal network (listLocal cfg) x)) w =
      (.ok view, s) ∧ s.db = w.db ∧
      view.map VmEntry.row = (w.db .vms).rows.filter (fun r => r.nodeId = x) ∧
      Viewed env cfg (Vms.orNobody (forwardLocal network (listLocal cfg) x)) w x view := by
  obtain ⟨row, found⟩ := (known_iff x w).mp serves.1
  obtain ⟨view, s, runs, db, rows⟩ := listLocal_runs env cfg x w.tick
  have answers : run (exec env) (forwardLocal network (listLocal cfg) x) w = (.ok view, s) := by
    rw [forward_found env network cfg x w found, request, serves.2, remote, run_tryCatch, runs]
  refine ⟨view, s, ?_, db, rows, (.getAll .vms fun _ => true, w.tick), ?_, congrArg Prod.fst runs⟩
  · rw [Vms.orNobody, run_tryCatch, answers]
  · apply mem_trail_try
    have looked : run (exec env) (get .nodes fun r => r.nodeId = x) w =
        (.ok (some row), w.tick) := by
      rw [get, run_perform, exec_get, found]
    have named : row.nodeId = x := of_decide_eq_true (Table.get_some found).2
    apply mem_trail_next looked
    change _ ∈ trail (exec env) (request network row.nodeId (listLocal cfg row.nodeId)) w.tick
    rw [named, request, serves.2]
    exact mem_trail_try _ _ _ _ List.mem_cons_self

/-- An owner that is unknown, or answers with an error status, counts as one without VMs. -/
theorem ask_lost (lost : ¬ Serves network w.db x) (reached : ¬ Unreachable network w.db x) : ∃ s,
    run (exec env) (Vms.orNobody (forwardLocal network (listLocal cfg) x)) w = (.ok [], s) ∧
      s.db = w.db := by
  refine ⟨w.tick, ?_, rfl⟩
  rw [Vms.orNobody, run_tryCatch]
  cases found : (w.db .nodes).get fun r => r.nodeId = x with
  | none =>
    rw [forward_unknown env network cfg x w found]
    rfl
  | some row =>
    have known := (known_iff x w).mpr ⟨row, found⟩
    rw [forward_found env network cfg x w found, request]
    cases replies : network x with
    | served => exact absurd ⟨known, replies⟩ lost
    | unreachable => exact absurd ⟨known, replies⟩ reached
    | status code text => rfl

/-- A request that gets no reply ends the list. -/
theorem ask_unreachable (away : Unreachable network w.db x) : ∃ s,
    run (exec env) (Vms.orNobody (forwardLocal network (listLocal cfg) x)) w =
      (.error .requestError, s) := by
  obtain ⟨row, found⟩ := (known_iff x w).mp away.1
  refine ⟨w.tick, ?_⟩
  rw [Vms.orNobody, run_tryCatch, forward_found env network cfg x w found, request, away.2]
  rfl

/-! ## The loop over the owners -/

variable {env cfg} in
theorem Viewed.first {α β : Type} {p : Py α} {f : α → Py β} {w : World} {y : Id}
    {view : List VmEntry}
    (viewed : Viewed env cfg p w y view) : Viewed env cfg (p >>= f) w y view := by
  obtain ⟨a, passed, holds⟩ := viewed
  exact ⟨a, mem_trail_first passed, holds⟩

variable {env cfg} in
theorem Viewed.next {α β : Type} {p : Py α} {f : α → Py β} {w s : World} {y : Id}
    {view : List VmEntry} {b : α} (first : run (exec env) p w = (.ok b, s))
    (viewed : Viewed env cfg (f b) s y view) :
    Viewed env cfg (p >>= f) w y view := by
  obtain ⟨a, passed, holds⟩ := viewed
  exact ⟨a, mem_trail_next first passed, holds⟩

theorem ids_distinct (t : Table Tbl.vms.unique) (p : VmRow → Bool) :
    ((t.rows.filter p).map VmRow.id).Nodup := by
  have all : (t.rows.map VmRow.id).Nodup := by
    apply List.pairwise_map.mpr
    refine t.distinct.imp fun differ same => differ ⟨fun r => some r.id,
      List.mem_cons_self, nofun, ?_⟩
    exact congrArg some same
  exact all.sublist (List.filter_sublist.map _)

/-- Where no request to one of the owners is lost, each that answers has its entries in the
result. -/
theorem askOwners_runs (owners : List Id) (byId : Store Id VmEntry) (distinct : owners.Nodup)
    (reached : ∀ x ∈ owners, ¬ Unreachable network w.db x) : ∃ byId' s,
    run (exec env) (Vms.askOwners (forwardLocal network (listLocal cfg)) owners byId) w =
      (.ok byId', s) ∧
      (∀ r ∈ w.db .vms, ¬ (r.nodeId ∈ owners ∧ Serves network w.db r.nodeId) →
        byId'.lookup r.id = byId.lookup r.id) ∧
      ∀ x ∈ owners, Serves network w.db x → ∃ view,
        Viewed env cfg (Vms.askOwners (forwardLocal network (listLocal cfg)) owners byId) w x view ∧
          ∀ r ∈ w.db .vms, r.nodeId = x → ∃ e ∈ view, e.row = r ∧ byId'.lookup r.id = some e := by
  induction owners generalizing byId w with
  | nil => exact ⟨byId, w, rfl, fun _ _ _ => rfl, fun x there => absurd there List.not_mem_nil⟩
  | cons x rest ih =>
    rw [List.nodup_cons] at distinct
    have reached' : ∀ y ∈ rest, ¬ Unreachable network w.db y := fun y there => reached y
      (List.mem_cons_of_mem _ there)
    by_cases serves : Serves network w.db x
    · obtain ⟨view, s, first, db, rows, viewed⟩ := ask_served env network cfg x w serves
      obtain ⟨byId', s', runs, others, theirs⟩ :=
        ih s (Vms.enter byId view) distinct.2 (db ▸ reached')
      rw [db] at others theirs
      have mine {e : VmEntry} (there : e ∈ view) : e.row ∈ w.db .vms ∧ e.row.nodeId = x := by
        have row := rows ▸ List.mem_map_of_mem there
        exact ⟨(List.mem_filter.mp row).1, of_decide_eq_true (List.mem_filter.mp row).2⟩
      refine ⟨byId', s', ?_, fun r there other => ?_, fun y there serves' => ?_⟩
      · rw [Vms.askOwners, run_bind_ok first, runs]
      · -- no entry of this view has the id of a row elsewhere
        rw [others r there fun later => other ⟨List.mem_cons_of_mem _ later.1, later.2⟩]
        apply enter_other
        intro e entered same
        obtain ⟨known, here⟩ := mine entered
        have alike : e.row = r := (w.db .vms).eq_of_key VmRow.id List.mem_cons_self known there same
        rw [alike] at here
        exact other ⟨here ▸ List.mem_cons_self, here ▸ serves⟩
      · rcases List.mem_cons.mp there with rfl | later
        · refine ⟨view, viewed.first, fun r known here => ?_⟩
          have listed : r ∈ view.map VmEntry.row :=
            rows ▸ List.mem_filter.mpr ⟨known, decide_eq_true here⟩
          obtain ⟨e, entered, rfl⟩ := List.mem_map.mp listed
          refine ⟨e, entered, rfl, ?_⟩
          rw [others _ known fun later => distinct.1 (here ▸ later.1)]
          apply enter_found view byId entered
          have ids := ids_distinct (w.db .vms) fun r => r.nodeId = y
          rw [← rows, List.map_map] at ids
          exact ids
        · obtain ⟨view', viewed', found⟩ := theirs y later serves'
          exact ⟨view', viewed'.next first, found⟩
    · obtain ⟨s, first, db⟩ := ask_lost env network cfg x w serves (reached x List.mem_cons_self)
      obtain ⟨byId', s', runs, others, theirs⟩ := ih s byId distinct.2 (db ▸ reached')
      rw [db] at others theirs
      refine ⟨byId', s', ?_, fun r there other => ?_, fun y there serves' => ?_⟩
      · rw [Vms.askOwners, run_bind_ok first]
        exact runs
      · exact others r there fun later => other ⟨List.mem_cons_of_mem _ later.1, later.2⟩
      · rcases List.mem_cons.mp there with rfl | later
        · exact absurd serves' serves
        · obtain ⟨view', viewed', found⟩ := theirs y later serves'
          exact ⟨view', viewed'.next first, found⟩

/-- A request to one of the owners that gets no reply ends the loop. -/
theorem askOwners_fails (owners : List Id) (byId : Store Id VmEntry) {x : Id} (there : x ∈ owners)
    (away : Unreachable network w.db x) : ∃ s,
    run (exec env) (Vms.askOwners (forwardLocal network (listLocal cfg)) owners byId) w =
      (.error .requestError, s) := by
  induction owners generalizing byId w with
  | nil => cases there
  | cons y rest ih =>
    by_cases here : Unreachable network w.db y
    · obtain ⟨s, ends⟩ := ask_unreachable env network cfg y w here
      exact ⟨s, run_bind_error ends⟩
    · have later : x ∈ rest := by
        rcases List.mem_cons.mp there with rfl | later
        · exact absurd away here
        · exact later
      -- this one answers, or is passed over: the loop goes on
      have goes : ∃ view s,
          run (exec env) (Vms.orNobody (forwardLocal network (listLocal cfg) y)) w =
        (.ok view, s) ∧
          s.db = w.db := by
        by_cases serves : Serves network w.db y
        · obtain ⟨view, s, first, db, -⟩ := ask_served env network cfg y w serves
          exact ⟨view, s, first, db⟩
        · obtain ⟨s, first, db⟩ := ask_lost env network cfg y w serves here
          exact ⟨[], s, first, db⟩
      obtain ⟨view, s, first, db⟩ := goes
      obtain ⟨s', ends⟩ := ih s (Vms.enter byId view) later (db ▸ away)
      exact ⟨s', (run_bind_ok first).trans ends⟩

variable {env} in
theorem Checked.first {α β : Type} {p : Py α} {f : α → Py β} {w : World} {n : Id} {e : VmEntry}
    (checked : Checked env p w n e) : Checked env (p >>= f) w n e := by
  obtain ⟨a, passed, holds⟩ := checked
  exact ⟨a, mem_trail_first passed, holds⟩

variable {env} in
theorem Checked.next {α β : Type} {p : Py α} {f : α → Py β} {w s : World} {n : Id} {e : VmEntry}
    {b : α}
    (first : run (exec env) p w = (.ok b, s)) (checked : Checked env (f b) s n e) : Checked env
      (p >>= f) w n e := by
  obtain ⟨a, passed, holds⟩ := checked
  exact ⟨a, mem_trail_next first passed, holds⟩

end

/-! ## The whole list -/

section

variable (network : Id → Reply) (cfg : Id → NodeConfig) (nodeId : Id) (w : World)

/-- One entry for each row, in their order: checked here, as its owner has it, or unknown. -/
structure Merged (entries : List VmEntry) : Prop where
  rows : entries.map VmEntry.row = (w.db .vms).rows
  here : ∀ e ∈ entries, e.row.nodeId = nodeId → Checked env (listVms network cfg nodeId) w nodeId e
  theirs : ∀ x ≠ nodeId, (∃ r ∈ w.db .vms, r.nodeId = x) → Serves network w.db x → ∃ view,
    Viewed env cfg (listVms network cfg nodeId) w x view ∧ ∀ e ∈ entries,
      e.row.nodeId = x → e ∈ view
  lost : ∀ e ∈ entries, e.row.nodeId ≠ nodeId → ¬ Serves network w.db e.row.nodeId →
    e.liveStatus = .unknown

/-- The other owners, in the order in which they are asked. -/
def owners (db : Db) : List Id :=
  (cfg nodeId).sets.order (((db .vms).rows.filter fun r =>
    r.nodeId ≠ nodeId).map VmRow.nodeId).dedup

theorem mem_owners (db : Db) (x : Id) :
    x ∈ owners cfg nodeId db ↔ x ≠ nodeId ∧ ∃ r ∈ db .vms, r.nodeId =
    x := by
  rw [owners, ((cfg nodeId).sets.perm _).mem_iff, List.mem_dedup, List.mem_map]
  constructor
  · rintro ⟨r, there, rfl⟩
    obtain ⟨known, other⟩ := List.mem_filter.mp there
    exact ⟨of_decide_eq_true other, r, known, rfl⟩
  · rintro ⟨other, r, known, rfl⟩
    exact ⟨r, List.mem_filter.mpr ⟨known, decide_eq_true other⟩, rfl⟩

theorem owners_distinct (db : Db) : (owners cfg nodeId db).Nodup :=
  ((cfg nodeId).sets.perm _).nodup_iff.mpr (List.nodup_dedup _)

/-- The list is merged whatever owners fail to answer, if and only if no request to one of them is
lost. -/
theorem merged_iff : (∃ entries, (run (exec env) (listVms network cfg nodeId) w).1 = .ok entries ∧
      Merged env network cfg nodeId w entries) ↔
    ∀ r ∈ w.db .vms, r.nodeId ≠ nodeId → ¬ Unreachable network w.db r.nodeId := by
  have looked : run (exec env) (getAll .vms fun _ => true) w = (.ok (w.db .vms).rows, w.tick) := by
    rw [getAll, run_perform, exec_getAll, Table.getAll, List.filter_true]
  obtain ⟨mine, s, first, db, rows, checked⟩ := withStatuses_runs env ⟨nodeId, cfg nodeId⟩
    ((w.db .vms).rows.filter fun r => r.nodeId = nodeId) w.tick
  have db' : s.db = w.db := db
  -- after the own VMs the other owners are asked, one after the other
  have started (loop : Except Exn (Store Id VmEntry) × World) (asked : run (exec env) (Vms.askOwners
      (forwardLocal network (listLocal cfg)) (owners cfg nodeId w.db)
        (Vms.enter ∅ mine)) s = loop) :
      run (exec env) (listVms network cfg nodeId) w = (loop.1.map fun byId =>
        (w.db .vms).rows.map fun r => (byId.lookup r.id).getD ⟨r, .unknown⟩, loop.2) := by
    obtain ⟨byId | e, s'⟩ := loop
    · exact (run_bind_ok looked).trans ((run_bind_ok first).trans (run_bind_error asked))
    · exact (run_bind_ok looked).trans ((run_bind_ok first).trans (run_bind_ok asked))
  constructor
  · rintro ⟨entries, ends, -⟩ r there other away
    obtain ⟨s', fails⟩ :=
      askOwners_fails env network cfg s (owners cfg nodeId w.db) (Vms.enter ∅ mine)
      ((mem_owners cfg nodeId w.db _).mpr ⟨other, r, there, rfl⟩) (db'.symm ▸ away)
    rw [started _ fails] at ends
    cases ends
  · intro reached
    have reached' : ∀ x ∈ owners cfg nodeId w.db, ¬ Unreachable network s.db x := by
      intro x asked
      obtain ⟨other, r, there, rfl⟩ := (mem_owners cfg nodeId w.db x).mp asked
      exact db'.symm ▸ reached r there other
    obtain ⟨byId, s', runs, others, theirs⟩ :=
      askOwners_runs env network cfg s (owners cfg nodeId w.db)
      (Vms.enter ∅ mine) (owners_distinct cfg nodeId w.db) reached'
    rw [db'] at others theirs
    -- what is found under the id of a row
    have own : ∀ r ∈ w.db .vms, r.nodeId = nodeId → ∃ e ∈ mine, e.row = r ∧
        byId.lookup r.id = some e := by
      intro r there here
      have listed : r ∈ mine.map VmEntry.row :=
        rows ▸ List.mem_filter.mpr ⟨there, decide_eq_true here⟩
      obtain ⟨e, entered, rfl⟩ := List.mem_map.mp listed
      refine ⟨e, entered, rfl, ?_⟩
      rw [others _ there fun asked => ((mem_owners cfg nodeId w.db _).mp asked.1).1 here]
      apply enter_found mine ∅ entered
      have ids := ids_distinct (w.db .vms) fun r => r.nodeId = nodeId
      rw [← rows, List.map_map] at ids
      exact ids
    have lost : ∀ r ∈ w.db .vms, r.nodeId ≠ nodeId → ¬ Serves network w.db r.nodeId →
        byId.lookup r.id =
      none := by
      intro r there other silent
      rw [others r there fun asked => silent asked.2]
      refine enter_other mine ∅ r.id fun e entered same => other ?_
      have row := rows ▸ List.mem_map_of_mem entered
      obtain ⟨known, here⟩ := List.mem_filter.mp row
      have alike : e.row = r := (w.db .vms).eq_of_key VmRow.id List.mem_cons_self known there same
      exact alike ▸ of_decide_eq_true here
    have answered : ∀ r ∈ w.db .vms, r.nodeId ≠ nodeId →
        Serves network w.db r.nodeId → ∃ e : VmEntry,
        e.row = r ∧ byId.lookup r.id = some e := by
      intro r there other serves
      obtain ⟨view, -, found⟩ :=
        theirs _ ((mem_owners cfg nodeId w.db _).mpr ⟨other, r, there, rfl⟩) serves
      obtain ⟨e, -, same, held⟩ := found r there rfl
      exact ⟨e, same, held⟩
    have row : ∀ r ∈ w.db .vms, ((byId.lookup r.id).getD ⟨r, .unknown⟩).row = r := by
      intro r there
      by_cases here : r.nodeId = nodeId
      · obtain ⟨e, -, same, held⟩ := own r there here
        rw [held, Option.getD_some, same]
      · by_cases serves : Serves network w.db r.nodeId
        · obtain ⟨e, same, held⟩ := answered r there here serves
          rw [held, Option.getD_some, same]
        · rw [lost r there here serves, Option.getD_none]
    refine ⟨_, congrArg Prod.fst (started _ runs), ?_, ?_, ?_, ?_⟩
    · rw [List.map_map]
      exact (List.map_congr_left row).trans (List.map_id _)
    · intro e listed here
      obtain ⟨r, there, rfl⟩ := List.mem_map.mp listed
      rw [row r there] at here
      obtain ⟨e, entered, -, held⟩ := own r there here
      rw [held, Option.getD_some]
      exact Checked.next looked (Checked.first (checked e entered))
    · intro x other there serves
      obtain ⟨view, viewed, found⟩ :=
        theirs x ((mem_owners cfg nodeId w.db x).mpr ⟨other, there⟩) serves
      refine ⟨view, .next looked (.next first (.first viewed)), fun e listed here => ?_⟩
      obtain ⟨r, known, rfl⟩ := List.mem_map.mp listed
      rw [row r known] at here
      obtain ⟨e, entered, -, held⟩ := found r known here
      rw [held, Option.getD_some]
      exact entered
    · intro e listed other silent
      obtain ⟨r, there, rfl⟩ := List.mem_map.mp listed
      rw [row r there] at other silent
      rw [lost r there other silent, Option.getD_none]

end

end

/-! ## A node that is down -/

/-- A VM on each of two nodes. -/
def twoNodes : World where
  db := Function.update (Function.update Db.empty .nodes
      ⟨[⟨"n1", "10.1.0.1", 8000⟩, ⟨"n2", "10.1.0.2", 8000⟩], by decide⟩)
    .vms ⟨[Sample.vm "v1" "172.16.0.2", { Sample.vm "v2" "172.16.0.3" with
      nodeId := "n2" }], by decide⟩
  hosts := fun _ => Client.Host.empty
  clock := 0

/-- The list of all VMs fails because one node is down. -/
theorem list_fails :
    ¬ ∀ (env : Env) (network : Id → Reply) (cfg : Id → NodeConfig) (nodeId : Id) (w : World),
    ∃ entries, (run (exec env) (listVms network cfg nodeId) w).1 = .ok entries ∧
      Merged env network cfg nodeId w entries := by
  intro merged
  obtain ⟨entries, ends, -⟩ :=
    merged Sample.env (fun _ => .unreachable) Sample.cluster "n1" twoNodes
  have fails : (run (exec Sample.env) (listVms (fun _ => .unreachable) Sample.cluster "n1")
      twoNodes).1.isOk =
      false := by decide +kernel
  rw [ends] at fails
  cases fails

end Listing

end Nyc
