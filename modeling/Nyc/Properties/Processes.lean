import Nyc.Client.Processes
import Nyc.Cluster

/-!
# One process for each VM

A VM's process is known by its pid file only. A bring-up finds no process, since the VM is new
or was taken down before; a stop kills the one that the pid file names. A start asks nothing, so
it is told here when it may be made: where no process of the VM is alive, every VM has one
process at most, the one that its pid file names.
-/

namespace Nyc

open Data Effects Effects.Program Client

namespace Processes

/-! ## The processes of the cluster -/

/-- At most one process for each VM, on whichever host. -/
structure Single (w : World) : Prop where
  one : ∀ n n' p p', p ∈ (w.hosts n).procs → p' ∈ (w.hosts n').procs →
    p.vmId = p'.vmId → n = n' ∧ p = p'
  once : ∀ n, (w.hosts n).procs.Nodup

/-- The pid file of its VM names the process. -/
def Recorded (n : Id) (p : Proc) (w : World) : Prop := (w.hosts n).pidFile p.vmId = some p.pid

/-- No process of the VM is alive. -/
def Ended (vmId : Id) (w : World) : Prop := ∀ n, ∀ p ∈ (w.hosts n).procs, p.vmId ≠ vmId

/-- A running VM has a row, on the node of its process, and one process. -/
structure Owned (w : World) : Prop extends Single w where
  row : ∀ n, ∀ p ∈ (w.hosts n).procs, ∃ r ∈ w.db .vms, r.id = p.vmId ∧ r.nodeId = n
  fresh : ∀ n, ∀ p ∈ (w.hosts n).procs, 0 < p.pid ∧ p.pid < (w.hosts n).nextPid
  counted : ∀ n, 0 < (w.hosts n).nextPid

/-- Every process is the one that the pid file of its VM names. -/
structure Tracked (w : World) : Prop extends Owned w where
  recorded : ∀ n, ∀ p ∈ (w.hosts n).procs, Recorded n p w

/-- No process of the VM is alive on the node. -/
def Off (n vmId : Id) (w : World) : Prop := ∀ p ∈ (w.hosts n).procs, p.vmId ≠ vmId

/-- The VM with this id, if there is one, is a row of the node. -/
def RowOn (n vmId : Id) (w : World) : Prop := ∃ r ∈ w.db .vms, r.id = vmId ∧ r.nodeId = n

theorem ended_of_off {w : World} (owned : Owned w) {n vmId : Id} (row : RowOn n vmId w)
    (off : Off n vmId w) :
    Ended vmId w := by
  intro n' p there same
  obtain ⟨r, rowThere, named, here⟩ := row
  obtain ⟨r', rowThere', named', here'⟩ := owned.row n' p there
  have one : r' = r := Table.eq_of_key _ VmRow.id List.mem_cons_self rowThere' rowThere
    (by rw [named', same, named])
  have there' : n' = n := by rw [← here', one, here]
  exact off p (there' ▸ there) same

/-! ## Single operations -/

/-- Every process stays alive until it is killed. -/
def Lasting (env : Env) : Prop := ∀ k pid, (env.chance k).gone pid = false

section Steps

variable {env : Env} {w : World}

/-- The rows of the VMs that stay, with their nodes. -/
theorem rows_touch (env : Env) {ts ds : List Tbl} {o : Op} (h : Touch ts ds o) (vms : .vms ∉ ds)
    {n vmId : Id} (row : RowOn n vmId w) : RowOn n vmId (exec env o w).2 := by
  obtain ⟨r, there, named, here⟩ := row
  by_cases writes : o.writes .vms
  · cases h with
    -- a status is written into the row, which keeps its id and its node
    | status p st =>
      obtain ⟨rows, updated, same⟩ := exec_update env w .vms p (fun r => { r with status := st })
        (by simp [Tbl.unique])
      rw [same, RowOn, tick_db, setTable_self]
      refine ⟨_, (Table.mem_update updated).mpr ⟨r, there, rfl⟩, ?_⟩
      split <;> exact ⟨named, here⟩
    | insert t row known =>
      obtain rfl : t = .vms := writes
      cases inserted : (w.db .vms).insert row with
      | none =>
        rw [exec_insert_none env w .vms row inserted]
        exact ⟨r, there, named, here⟩
      | some rows =>
        rw [exec_insert_some env w .vms row inserted, RowOn, tick_db, setTable_self]
        exact ⟨r, (Table.mem_insert inserted).mpr (.inl there), named, here⟩
    -- the code between the two rows deletes no VM
    | delete t p known =>
      obtain rfl : t = .vms := writes
      exact absurd known vms
    | ready p | size p n | task p f known => exact absurd writes nofun
    | _ => exact absurd writes not_false
  · rw [RowOn, exec_frame env w .vms o writes]
    exact ⟨r, there, named, here⟩

theorem Owned.of_rows {w' : World} (h : Owned w) (hosts : w'.hosts = w.hosts)
    (rows : ∀ n vmId, (∃ p ∈ (w.hosts n).procs, p.vmId = vmId) → RowOn n vmId w → RowOn n vmId w') :
    Owned w' where
  one := hosts ▸ h.one
  once := hosts ▸ h.once
  row n p there := by
    rw [hosts] at there
    exact rows n p.vmId ⟨p, there, rfl⟩ (h.row n p there)
  fresh := hosts ▸ h.fresh
  counted := hosts ▸ h.counted

theorem Tracked.of_rows {w' : World} (h : Tracked w) (hosts : w'.hosts = w.hosts)
    (rows : ∀ n vmId, (∃ p ∈ (w.hosts n).procs, p.vmId = vmId) → RowOn n vmId w → RowOn n vmId w') :
    Tracked w' where
  toOwned := h.toOwned.of_rows hosts rows
  recorded n p there := by
    rw [hosts] at there
    rw [Recorded, hosts]
    exact h.recorded n p there

/-- An operation on the database that deletes no VM. -/
theorem Tracked.touch (h : Tracked w) {ts ds : List Tbl} {o : Op} (touch : Touch ts ds o)
    (off : o.OffHost) (vms : .vms ∉ ds) : Tracked (exec env o w).2 :=
  h.of_rows (hosts_offHost env w off) fun _ _ _ row => rows_touch env touch vms row

theorem calm_host (n : Id) (c : Cmd) (quiet : c.Quiet) (n' : Id) :
    Calm (w.hosts n') ((exec env (.host n c) w).2.hosts n') := by
  rw [hosts_exec]
  split
  next same =>
    rw [same]
    exact calm_exec _ c quiet _
  next => exact .refl _

theorem Off.fewer {w' : World} {n vmId : Id} (off : Off n vmId w)
    (fewer : Fewer (w.hosts n) (w'.hosts n)) :
    Off n vmId w' := fun p there => off p (fewer.procs.subset there)

theorem Owned.fewer {w' : World} (h : Owned w) (fewer : ∀ n, Fewer (w.hosts n) (w'.hosts n))
    (db : w'.db .vms = w.db .vms) : Owned w' where
  one n n' p p' there there' := h.one n n' p p' ((fewer n).procs.subset there)
    ((fewer n').procs.subset there')
  once n := (fewer n).procs.nodup (h.once n)
  row n p there := by
    rw [db]
    exact h.row n p ((fewer n).procs.subset there)
  fresh n p there := by
    rw [(fewer n).nextPid]
    exact h.fresh n p ((fewer n).procs.subset there)
  counted n := by
    rw [(fewer n).nextPid]
    exact h.counted n

theorem Tracked.calm {w' : World} (h : Tracked w) (calm : ∀ n, Calm (w.hosts n) (w'.hosts n))
    (db : w'.db .vms = w.db .vms) : Tracked w' where
  toOwned := h.toOwned.fewer (fun n => (calm n).toFewer) db
  recorded n p there := by
    rw [Recorded, (calm n).pidFile]
    exact h.recorded n p ((calm n).procs.subset there)

/-- A command in the directory of one VM starts no process, and leaves the other pid files. -/
theorem dir_host (lasting : Lasting env) (n vmId : Id) (c : DirCmd) (w : World) (n' : Id) :
    Fewer (w.hosts n') ((exec env (.host n (.dir vmId c)) w).2.hosts n') ∧
      ∀ vmId', (n' = n → vmId' ≠ vmId) →
        ((exec env (.host n (.dir vmId c)) w).2.hosts n').pidFile vmId' =
          (w.hosts n').pidFile vmId' := by
  rw [hosts_exec]
  split
  next here =>
    subst here
    rcases exec_still (env.chance w.clock) (lasting w.clock) (.dir vmId c)
      (w.hosts n') with ⟨e, -, same⟩ | ⟨a, h', step, same⟩
    · rw [same]
      exact ⟨.refl _, fun _ _ => rfl⟩
    · obtain ⟨⟨a', d⟩, -, put⟩ := Option.map_eq_some_iff.mp step
      cases put
      rw [same]
      refine ⟨⟨.refl _, rfl⟩, fun vmId' other => ?_⟩
      rw [Host.pidFile, lookup_putDir, if_neg (other rfl)]
      rfl
  next => exact ⟨.refl _, fun _ _ => rfl⟩

/-- A command in the directory of a VM without a process. -/
theorem Tracked.dir (h : Tracked w) (lasting : Lasting env) {n vmId : Id} (off : Off n vmId w)
    (c : DirCmd) :
    Tracked (exec env (.host n (.dir vmId c)) w).2 where
  toOwned := h.toOwned.fewer (fun n' => (dir_host lasting n vmId c w n').1) rfl
  recorded n' p there := by
    have before := (dir_host lasting n vmId c w n').1.procs.subset there
    rw [Recorded, (dir_host lasting n vmId c w n').2 p.vmId]
    · exact h.recorded n' p before
    · rintro rfl
      exact off p before

/-- A VM of the node. -/
structure Present (n vmId : Id) (w : World) : Prop extends Tracked w where
  rowOn : RowOn n vmId w

/-- A VM of the node without a process. -/
structure Ready (n vmId : Id) (w : World) : Prop extends Present n vmId w where
  off : Off n vmId w

theorem Present.calm {w' : World} {n vmId : Id} (h : Present n vmId w)
    (calm : ∀ n, Calm (w.hosts n) (w'.hosts n)) (db : w'.db .vms = w.db .vms) :
    Present n vmId w' where
  toTracked := h.toTracked.calm calm db
  rowOn := by
    rw [RowOn, db]
    exact h.rowOn

theorem Ready.calm {w' : World} {n vmId : Id} (h : Ready n vmId w)
    (calm : ∀ n, Calm (w.hosts n) (w'.hosts n))
    (db : w'.db .vms = w.db .vms) : Ready n vmId w' where
  toPresent := h.toPresent.calm calm db
  off := h.off.fewer (calm n).toFewer

theorem Ready.dir {n vmId : Id} (h : Ready n vmId w) (lasting : Lasting env) (c : DirCmd) :
    Ready n vmId (exec env (.host n (.dir vmId c)) w).2 where
  toTracked := h.toTracked.dir lasting h.off c
  rowOn := h.rowOn
  off := h.off.fewer (dir_host lasting n vmId c w n).1

/-! ### The start of a process -/

/-- The process has started, and its pid file is not written yet. -/
structure Starting (n : Id) (p : Proc) (w : World) : Prop extends Owned w where
  there : p ∈ (w.hosts n).procs
  others : ∀ n' p', p' ∈ (w.hosts n').procs → (n' = n → p'.vmId ≠ p.vmId) → Recorded n' p' w
  dir : ∃ d, (w.hosts n).dirs.lookup p.vmId = some d

/-- The host with one process more. -/
def started (h : Host) (vmId : Id) : Host :=
  { h with procs := ⟨h.nextPid, vmId⟩ :: h.procs, nextPid := h.nextPid + 1 }

theorem popen_host (lasting : Lasting env) (n vmId ns : Id) (w : World) :
    exec env (.host n (.popen vmId ns)) w =
      (.ok (w.hosts n).nextPid, (w.setHost n (started (w.hosts n) vmId)).tick) := by
  have step : (w.hosts n).exec (env.chance w.clock) (.popen vmId ns) =
      (.ok (w.hosts n).nextPid, started (w.hosts n) vmId) := by
    refine exec_of_step _ _ _ _ _ (.inr rfl) ?_
    rw [reap_still _ _ (lasting w.clock)]
    rfl
  rw [exec_host, step]

/-- A process is an old one, or the new one on its node. -/
theorem mem_started {n vmId n' : Id} {p : Proc}
    (there : p ∈ ((w.setHost n (started (w.hosts n) vmId)).tick.hosts n').procs) :
    p ∈ (w.hosts n').procs ∨ (n' = n ∧ p = ⟨(w.hosts n).nextPid, vmId⟩) := by
  rw [tick_hosts, setHost_hosts] at there
  split at there
  next here =>
    rcases List.mem_cons.mp there with rfl | old
    · exact .inr ⟨here, rfl⟩
    · exact .inl (here ▸ old)
  next => exact .inl there

theorem Ready.popen {n vmId : Id} (h : Ready n vmId w) (lasting : Lasting env) (ns : Str)
    (dir : ∃ d, (w.hosts n).dirs.lookup vmId = some d) :
    Starting n ⟨(w.hosts n).nextPid, vmId⟩ (exec env (.host n (.popen vmId ns)) w).2 := by
  -- nothing of the VM runs, so the new process is its only one
  have ended := ended_of_off h.toOwned h.rowOn h.off
  rw [popen_host lasting]
  constructor
  · constructor
    · constructor
      · intro n₁ n₂ p₁ p₂ there₁ there₂ same
        rcases mem_started there₁ with old₁ | ⟨here₁, rfl⟩ <;> rcases mem_started there₂ with old₂ |
          ⟨here₂, rfl⟩
        · exact h.one n₁ n₂ p₁ p₂ old₁ old₂ same
        · exact absurd same (ended n₁ p₁ old₁)
        · exact absurd same.symm (ended n₂ p₂ old₂)
        · exact ⟨here₁.trans here₂.symm, rfl⟩
      · intro n'
        rw [tick_hosts, setHost_hosts]
        split
        -- the new pid is above every pid of the host
        · refine List.nodup_cons.mpr ⟨fun there => ?_, h.once n⟩
          exact Nat.lt_irrefl _ (h.fresh n _ there).2
        · exact h.once n'
    · intro n' p there
      rcases mem_started there with old | ⟨rfl, rfl⟩
      · exact h.row n' p old
      · exact h.rowOn
    · intro n' p there
      rw [tick_hosts, setHost_hosts]
      rcases mem_started there with old | ⟨rfl, rfl⟩
      · have before := h.fresh n' p old
        split
        next here =>
          subst here
          exact ⟨before.1, Nat.lt_succ_of_lt before.2⟩
        next => exact before
      · rw [if_pos rfl]
        exact ⟨h.counted _, Nat.lt_succ_self _⟩
    · intro n'
      rw [tick_hosts, setHost_hosts]
      split
      · exact Nat.succ_pos _
      · exact h.counted n'
  · rw [tick_hosts, setHost_hosts, if_pos rfl]
    exact List.mem_cons_self
  · intro n' p' there other
    rcases mem_started there with old | ⟨here, rfl⟩
    · have before := h.recorded n' p' old
      rw [Recorded, tick_hosts, setHost_hosts]
      split
      next here =>
        subst here
        exact before
      next => exact before
    · exact absurd rfl (other here)
  · rw [tick_hosts, setHost_hosts, if_pos rfl]
    exact dir

/-- The pid file is written, and the process is tracked. -/
theorem Starting.writePid {n : Id} {p : Proc} (h : Starting n p w) (lasting : Lasting env) :
    Tracked (exec env (.host n (.dir p.vmId (.writePid p.pid))) w).2 where
  toOwned := h.toOwned.fewer (fun n' => (dir_host lasting n p.vmId _ w n').1) rfl
  recorded n' p' there := by
    obtain ⟨fewer, files⟩ := dir_host lasting n p.vmId (.writePid p.pid) w n'
    have before := fewer.procs.subset there
    by_cases own : n' = n ∧ p'.vmId = p.vmId
    · obtain ⟨rfl, same⟩ := own
      obtain ⟨-, rfl⟩ := h.one n' n' p' p before h.there same
      obtain ⟨d, dir⟩ := h.dir
      have written : (w.hosts n').exec (env.chance w.clock) (.dir p'.vmId (.writePid p'.pid)) = _ :=
        exec_dir _ _ _ _ (by rw [dir]; rfl)
      rw [Recorded, hosts_exec, if_pos rfl, written, Host.pidFile, lookup_putDir, if_pos rfl]
      rfl
    · have apart : n' = n → p'.vmId ≠ p.vmId := fun here same => own ⟨here, same⟩
      rw [Recorded, files p'.vmId apart]
      exact h.others n' p' before apart

end Steps

/-! ## Client programs -/

section Programs

variable {env : Env}

/-- Every operation finds one process at most for each VM. -/
abbrev watching (env : Env) : OpSpec Op Op.Res Exn (World → Prop) :=
  checked (exec env) fun _ w => Single w

theorem create_tracked (lasting : Lasting env) {n vmId : Id} (ns : Str) {w : World}
    (ready : Ready n vmId w) :
    wp (onHostSpec (watching env) n) (CreateVm.run vmId ns) (fun _ w' => Present n vmId w') w := by
  rw [CreateVm.run, wp_bind, dir, wp_perform]
  refine ⟨ready.toSingle, ?_⟩
  have opened := ready.dir lasting .openLog
  cases there : (w.hosts n).dirs.lookup vmId with
  | none =>
    -- no directory: the log cannot be opened and nothing is started
    have refused : (exec env (.host n (.dir vmId .openLog)) w).1 = .error .os := by
      simp [exec_host, Host.exec, Host.attempt, Cmd.privileged, Cmd.step, there,
        DirCmd.step, Cmd.exn]
    rw [refused]
    exact opened.toPresent
  | some d =>
    -- the directory is there: the log, the process and its pid file
    have done : (w.hosts n).exec (env.chance w.clock) (.dir vmId .openLog) = _ :=
      exec_dir _ _ _ _ (by rw [there]; rfl)
    have answer : (exec env (.host n (.dir vmId .openLog)) w).1 = .ok () := by rw [exec_host, done]
    have dir : ∃ d, ((exec env (.host n (.dir vmId .openLog)) w).2.hosts n).dirs.lookup
        vmId = some d := by
      rw [hosts_exec, if_pos rfl, done, lookup_putDir, if_pos rfl]
      exact ⟨_, rfl⟩
    have starting := opened.popen lasting ns dir
    rw [answer, onValue_ok, wp_bind, wp_perform]
    refine ⟨opened.toSingle, ?_⟩
    rw [popen_host lasting] at starting ⊢
    rw [onValue_ok, Client.dir, wp_perform]
    exact ⟨starting.toSingle, starting.writePid lasting, opened.rowOn⟩

/-- What quiet commands keep. -/
structure Kept (J : World → Prop) : Prop where
  single : ∀ w, J w → Single w
  calm : ∀ w w', J w → (∀ n, Calm (w.hosts n) (w'.hosts n)) → w'.db .vms = w.db .vms → J w'

theorem present_kept (n vmId : Id) : Kept (Present n vmId) :=
  ⟨fun _ h => h.toSingle, fun _ _ h => h.calm⟩

theorem ready_kept (n vmId : Id) : Kept (Ready n vmId) :=
  ⟨fun _ h => h.toSingle, fun _ _ h => h.calm⟩

theorem quiet_then {α β : Type} {n : Id} {J : World → Prop} (kept : Kept J) {p : Sh α}
    (quiet : Only Cmd.Quiet p) {f : α → Sh β} {Q : Except Exn β → World → Prop} {w : World}
    (holds : J w) (fails : ∀ e w', J w' → Q (.error e) w')
    (rest : ∀ a w', J w' → wp (onHostSpec (watching env) n) (f a) Q w') :
    wp (onHostSpec (watching env) n) (p >>= f) Q w :=
  checked_keeps_then (execOn env n) _ J (fun _ w _ holds => kept.single w holds)
    (fun c _ quiet holds => kept.calm _ _ holds (calm_host n c quiet) rfl) quiet holds fails rest

theorem quiet_keeps {α : Type} {n : Id} {J : World → Prop} (kept : Kept J) {p : Sh α}
    (quiet : Only Cmd.Quiet p) {w : World} (holds : J w) :
    wp (onHostSpec (watching env) n) p (fun _ w' => J w') w :=
  checked_keeps (execOn env n) _ J (fun _ w _ holds => kept.single w holds)
    (fun c _ quiet holds => kept.calm _ _ holds (calm_host n c quiet) rfl) quiet holds

/-- The VM is as before, and where the program returns, its process is gone. -/
def Stops (n vmId : Id) (r : Except Exn Unit) (w : World) : Prop :=
  Present n vmId w ∧ (r = .ok () → Off n vmId w)

theorem stops_of_ready {n vmId : Id} (r : Except Exn Unit) {w : World}
    (h : Ready n vmId w) : Stops n vmId r w :=
  ⟨h.toPresent, fun _ => h.off⟩

theorem waitGone_quiet (pid polls : Nat) : Only Cmd.Quiet (Kill.waitGone pid polls) := by
  induction polls with
  | zero => exact .pure _
  | succ polls ih =>
    refine .bind (.tryCatch (.bind (.perform trivial) fun _ => .pure _) fun e => ?_) fun _ => ?_
    · exact .ite (c := e = .os) (fun _ => .pure _) fun _ => .throw _
    · exact .ite (fun _ => ih) fun _ => .pure _

/-- A kill by the pid in the pid file. -/
theorem terminate_stops (lasting : Lasting env) {n vmId : Id} {pid : Int} {w : World}
    (present : Present n vmId w) (file : (w.hosts n).pidFile vmId = some pid) :
    wp (onHostSpec (watching env) n) (Kill.terminate pid.toNat) (Stops n vmId) w := by
  have calm (n' : Id) : Calm (w.hosts n') ((exec env (.host n (.kill pid.toNat)) w).2.hosts n') :=
    calm_host n (.kill pid.toNat) (by exact trivial) n'
  have present' := present.calm calm rfl
  rw [Kill.terminate, wp_tryCatch, wp_bind, wp_perform]
  refine ⟨present.toSingle, ?_⟩
  rcases exec_still (env.chance w.clock) (lasting w.clock) (.kill pid.toNat) (w.hosts n) with
    ⟨e, raised, same⟩ | ⟨a, h', step, same⟩
  · -- `PrivopsError` passes the handler
    obtain rfl : e = .privops := raised.elim id id
    have answer : (exec env (.host n (.kill pid.toNat)) w).1 = .error .privops := by
      rw [exec_host, same]
    rw [answer]
    refine ⟨present', ?_⟩
    rintro ⟨⟩
  · have answer : (exec env (.host n (.kill pid.toNat)) w).1 = .ok a := by rw [exec_host, same]
    have ready : Ready n vmId (exec env (.host n (.kill pid.toNat)) w).2 := by
      refine ⟨present', fun p there own => ?_⟩
      have before : p ∈ (w.hosts n).procs := (calm n).procs.subset there
      have named := present.recorded n p before
      -- the process of the VM is the one that is killed
      rw [Recorded, own, file] at named
      rw [hosts_exec, if_pos rfl, same] at there
      simp only [Cmd.step] at step
      split at step <;> cases step
      have apart := (List.mem_filter.mp there).2
      simp [Option.some.inj named] at apart
    rw [answer]
    refine checked_mono (execOn env n) _ _ _ _ ?_ _ (quiet_keeps (ready_kept n vmId)
      (waitGone_quiet pid.toNat 30) ready)
    rintro (e | _) w' ready'
    · rw [onError_error, wp_ite]
      split
      · exact stops_of_ready _ ready'
      · exact stops_of_ready _ ready'
    · exact stops_of_ready _ ready'

/-- A question about the VM's directory. -/
theorem ask_then {α : Type} {n vmId : Id} (c : DirCmd) (quiet : (Cmd.dir vmId c).Quiet) {a : c.Res}
    {w : World} (present : Present n vmId w)
    (step : c.step ((w.hosts n).dirs.lookup vmId) = some (a, (w.hosts n).dirs.lookup vmId))
    {f : c.Res → Sh α} {Q : Except Exn α → World → Prop}
    (rest : ∀ w', Present n vmId w' → (∀ vmId',
      (w'.hosts n).pidFile vmId' = (w.hosts n).pidFile vmId') →
      wp (onHostSpec (watching env) n) (f a) Q w') :
    wp (onHostSpec (watching env) n) (dir vmId c >>= f) Q w := by
  have calm (n' : Id) : Calm (w.hosts n') ((exec env (.host n (.dir vmId c)) w).2.hosts n') :=
    calm_host n _ quiet n'
  have done : (w.hosts n).exec (env.chance w.clock) (.dir vmId c) = _ := exec_dir _ _ _ _ step
  have answer : (exec env (.host n (.dir vmId c)) w).1 = .ok a := by rw [exec_host, done]
  rw [wp_bind, dir, wp_perform]
  refine ⟨present.toSingle, ?_⟩
  rw [answer]
  exact rest _ (present.calm calm rfl) (calm n).pidFile

/-- Without a pid file there is no process. -/
theorem off_of_no_file {n vmId : Id} {w : World} (tracked : Tracked w)
    (file : (w.hosts n).pidFile vmId = none) :
    Off n vmId w := by
  rintro p there rfl
  have named := tracked.recorded n p there
  rw [Recorded, file] at named
  cases named

theorem kill_stops (lasting : Lasting env) {n vmId : Id} {w : World} (present : Present n vmId w) :
    wp (onHostSpec (watching env) n) (Kill.run vmId) (Stops n vmId) w := by
  refine ask_then .hasPid trivial present rfl fun w' present' files => ?_
  rw [wp_ite]
  cases file : (w.hosts n).pidFile vmId with
  | none =>
    have none_ : ((w.hosts n).dirs.lookup vmId).bind VmDir.pid = none := file
    rw [none_, if_neg (by simp)]
    exact ⟨present', fun _ => off_of_no_file present'.toTracked ((files vmId).trans file)⟩
  | some pid =>
    have some_ : ((w.hosts n).dirs.lookup vmId).bind VmDir.pid = some pid := file
    have file' : (w'.hosts n).pidFile vmId = some pid := (files vmId).trans file
    rw [some_, if_pos (by simp)]
    refine ask_then (a := pid) .readPid trivial present' ?_ fun w'' present'' files' => ?_
    · have there : ((w'.hosts n).dirs.lookup vmId).bind VmDir.pid = some pid := file'
      simp only [DirCmd.step, there, Option.map_some]
    · have stopped : wp (onHostSpec (watching env) n)
          (whenTrue (0 < pid) (Kill.terminate pid.toNat))
          (Stops n vmId) w'' := by
        rw [wp_whenTrue]
        split
        · exact terminate_stops lasting present'' ((files' vmId).trans file')
        next low =>
          -- processes have positive pids
          refine ⟨present'', fun _ p there own => low ?_⟩
          have named := present''.recorded n p there
          rw [Recorded, own, files' vmId, file'] at named
          rw [Option.some.inj named]
          exact decide_eq_true (Int.natCast_pos.mpr (present''.fresh n p there).1)
      refine checked_bind (execOn env n) _ (fun _ => Ready n vmId) ?_ fun _ t ready => ?_
      · refine checked_mono (execOn env n) _ _ _ _ ?_ _ stopped
        rintro (e | _) t ⟨present, off⟩
        · refine ⟨present, ?_⟩
          rintro ⟨⟩
        · exact ⟨present, off rfl⟩
      · rw [dir, wp_perform]
        exact ⟨ready.toSingle, stops_of_ready _ (ready.dir lasting .unlinkPid)⟩

theorem networkDown_quiet (vmId : Id) : Only Cmd.Quiet (VmDown.networkDown vmId) := by
  apply Only.bind (.tryCatch (.net trivial) fun _ => .pure _)
  intro _
  apply Only.bind (.tryCatch (.net trivial) fun _ => .pure _)
  intro _
  exact .tryCatch (.net trivial) fun _ => .pure _

theorem remove_quiet (vg name : Str) : Only Cmd.Quiet (Lv.remove vg name) :=
  (Lv.remove_only vg name).mono fun c h => by cases h <;> trivial

theorem down_stops (lasting : Lasting env) {n vmId : Id} (vg : Str) {w : World}
    (present : Present n vmId w) :
    wp (onHostSpec (watching env) n) (VmDown.run vmId vg) (Stops n vmId) w := by
  refine ask_then .exists_ trivial present rfl fun w' present' files => ?_
  -- after the kill the pid file is gone or the directory was not there
  have stopped : wp (onHostSpec (watching env) n)
      (whenTrue ((w.hosts n).dirs.lookup vmId).isSome (Kill.run vmId)) (Stops n vmId) w' := by
    rw [wp_whenTrue]
    split
    · exact kill_stops lasting present'
    next missing =>
      refine ⟨present', fun _ => off_of_no_file present'.toTracked ((files vmId).trans ?_)⟩
      rw [Host.pidFile, Option.not_isSome_iff_eq_none.mp missing]
      rfl
  refine checked_bind (execOn env n) _ (fun _ => Ready n vmId) ?_ fun _ t ready => ?_
  · refine checked_mono (execOn env n) _ _ _ _ ?_ _ stopped
    rintro (e | _) t ⟨present, off⟩
    · refine ⟨present, ?_⟩
      rintro ⟨⟩
    · exact ⟨present, off rfl⟩
  · refine quiet_then (ready_kept n vmId) (networkDown_quiet vmId) ready
      (fun e _ ready => stops_of_ready _ ready) fun _ t ready => ?_
    refine quiet_then (ready_kept n vmId) (.dir (c := .exists_) trivial) ready
      (fun e _ ready => stops_of_ready _ ready)
      fun there t ready => ?_
    -- from here on the VM is off, and no command starts a process
    have emptied : wp (onHostSpec (watching env) n) (whenTrue there (dir vmId .rmtree))
        (fun _ w' => Ready n vmId w') t := by
      rw [wp_whenTrue]
      split
      · rw [dir, wp_perform]
        exact ⟨ready.toSingle, ready.dir lasting .rmtree⟩
      · exact ready
    refine checked_bind (execOn env n) _ (fun _ => Ready n vmId) ?_ fun _ t ready => ?_
    · refine checked_mono (execOn env n) _ _ _ _ ?_ _ emptied
      rintro (e | _) t ready
      · exact stops_of_ready _ ready
      · exact ready
    · exact checked_mono (execOn env n) _ _ _ _ (fun r _ ready => stops_of_ready r ready) _
        (quiet_keeps (ready_kept n vmId) (remove_quiet vg _) ready)

theorem up_tracked (lasting : Lasting env) {n : Id} (spec : VmSpec) {w : World}
    (ready : Ready n spec.vmId w) :
    wp (onHostSpec (watching env) n) (VmUp.run spec) (fun _ w' => Present n spec.vmId w') w := by
  rw [VmUp.run_eq]
  refine quiet_then (ready_kept n spec.vmId) ((VmUp.prepare_only spec).mono fun _ h => h.quiet)
    ready
    (fun _ _ ready => ready.toPresent) fun _ w' ready => ?_
  exact create_tracked lasting _ ready

end Programs

/-! ## Requests on the node of a VM -/

section Requests

variable {env : Env}

/-- A command of the operation, if it runs one, is quiet. -/
def Calms : Op → Prop
  | .host _ c => c.Quiet
  | _ => True

theorem calms_of_aside {o : Op} (aside : o.Aside) : Calms o := by
  cases o with
  | host n c => cases aside
  | _ => trivial

/-- What operations keep that start no process and delete no VM. -/
structure KeptRows (env : Env) (J : World → Prop) : Prop where
  single : ∀ w, J w → Single w
  touch : ∀ w ts ds o, J w → Touch ts ds o → Calms o → .vms ∉ ds → J (exec env o w).2

theorem kept_rows {J : World → Prop} (kept : Kept J)
    (rows : ∀ w ts ds o, J w → Touch ts ds o → o.OffHost → .vms ∉ ds → J (exec env o w).2) :
    KeptRows env
      J where
  single := kept.single
  touch w ts ds o h touch calms vms := by
    cases o with
    | host n c => exact kept.calm _ _ h (calm_host n c calms) rfl
    | _ => exact rows w ts ds _ h touch trivial vms

theorem tracked_rows : KeptRows env Tracked :=
  kept_rows ⟨fun _ h => h.toSingle, fun _ _ h => h.calm⟩ fun _ _ _ _ h => h.touch

theorem present_touch {n vmId : Id} {w : World} {ts ds : List Tbl} {o : Op} (h : Present n vmId w)
    (touch : Touch ts ds o) (off : o.OffHost) (vms : .vms ∉ ds) : Present n vmId (exec env o w).2 :=
  ⟨h.toTracked.touch touch off vms, rows_touch env touch vms h.rowOn⟩

theorem present_rows (n vmId : Id) : KeptRows env (Present n vmId) :=
  kept_rows (present_kept n vmId) fun _ _ _ _ => present_touch

theorem ready_rows (n vmId : Id) : KeptRows env (Ready n vmId) := by
  refine kept_rows (ready_kept n vmId) fun w _ _ o h touch off vms => ?_
  refine ⟨present_touch h.toPresent touch off vms, ?_⟩
  rw [Off, hosts_offHost env w off]
  exact h.off

theorem calm_then {α β : Type} {J : World → Prop} (kept : KeptRows env J) {p : Py α}
    (calm : Only Calms p) (ts ds : List Tbl) (vms : .vms ∉ ds) (h : Only (Touch ts ds) p)
    {f : α → Py β} {Q : Except Exn β → World → Prop} {w : World} (holds : J w)
    (fails : ∀ e w', J w' → Q (.error e) w')
    (rest : ∀ a w', J w' → wp (watching env) (f a) Q w') : wp (watching env) (p >>= f) Q w :=
  checked_keeps_then (exec env) _ J (fun _ w _ holds => kept.single w holds)
    (fun o w ok holds => kept.touch w ts ds o holds ok.1 ok.2 vms) (h.and calm) holds fails rest

theorem db_then {α β : Type} {J : World → Prop} (kept : KeptRows env J) {p : Py α} (off : Aside p)
    (ts ds : List Tbl) (vms : .vms ∉ ds) (h : Only (Touch ts ds) p) {f : α → Py β}
    {Q : Except Exn β → World → Prop} {w : World} (holds : J w)
    (fails : ∀ e w', J w' → Q (.error e) w')
    (rest : ∀ a w', J w' → wp (watching env) (f a) Q w') : wp (watching env) (p >>= f) Q w :=
  calm_then kept (off.mono fun _ => calms_of_aside) ts ds vms h holds fails rest

theorem db_keeps {α : Type} {J : World → Prop} (kept : KeptRows env J) {p : Py α} (off : Aside p)
    (ts ds : List Tbl) (vms : .vms ∉ ds) (h : Only (Touch ts ds) p) {w : World} (holds : J w) :
    wp (watching env) p (fun _ w' => J w') w :=
  checked_keeps (exec env) _ J (fun _ w _ holds => kept.single w holds)
    (fun o w ok holds => kept.touch w ts ds o holds ok.1 (calms_of_aside ok.2) vms) (h.and off)
    holds

/-- The rest of a program, where it is told from how the first part ended. -/
theorem after {α β : Type} {p : Py α} {P : Except Exn α → World → Prop} {f : α → Py β}
    {Q : Except Exn β → World → Prop} {w : World} (first : wp (watching env) p P w)
    (fails : ∀ e w', P (.error e) w' → Q (.error e) w')
    (rest : ∀ a w', P (.ok a) w' → wp (watching env) (f a) Q w') :
    wp (watching env) (p >>= f) Q w := by
  rw [wp_bind]
  refine checked_mono (exec env) _ p _ _ ?_ w first
  rintro (e | a) w' post
  · exact fails e w' post
  · exact rest a w' post

theorem bringUp_tracked (lasting : Lasting env) (self : Node) (row : VmRow) (cidr : Str)
    (volPath : Option Path)
    (key : Option Str) (origin : Str) {w : World} (ready : Ready self.id row.id w) :
    wp (watching env) (Vms.bringUp self row cidr volPath key origin)
      (fun _ w' => Present self.id row.id w') w := by
  have kept : KeptRows env _ := ready_rows self.id row.id
  have none_ : Tbl.vms ∉ ([] : List Tbl) := List.not_mem_nil
  simp only [Vms.bringUp, Vms.spec, LawfulMonad.bind_assoc, pure_bind]
  refine db_then kept (.get trivial) [] [] none_ (.get (.get ..)) ready
    (fun _ _ ready => ready.toPresent)
    fun pip w' ready => ?_
  refine db_then kept (.nodeHost _) [] [] none_ (nodeHost_touch _) ready
    (fun _ _ ready => ready.toPresent)
    fun host w' ready => ?_
  refine db_then kept (.peerHosts _) [] [] none_ (peerHosts_touch _) ready
    (fun _ _ ready => ready.toPresent) fun peers w' ready => ?_
  -- the bring-up starts the process, the last update only sets the status
  refine after (P := fun _ w' => Present self.id row.id w') ?_ (fun _ _ present => present)
    fun _ w' present => ?_
  · rw [wp_sh]
    exact up_tracked lasting _ ready
  · exact db_keeps (present_rows self.id row.id)
      (.bind (.update trivial) fun _ => .pure _) [] [] none_
      (.bind (.update (.status _ .running)) fun _ => .pure _) present

/-- A lookup, whose answer is a row of the state that it leaves. -/
theorem get_then {β : Type} {J : World → Prop} (kept : KeptRows env J) {t : Tbl} {p : t.Row → Bool}
    {f : Option t.Row → Py β} {Q : Except Exn β → World → Prop} {w : World} (holds : J w)
    (rest : J w.tick → wp (watching env) (f ((w.db t).get p)) Q w.tick) :
    wp (watching env) (get t p >>= f) Q w := by
  rw [wp_bind, get, wp_perform]
  exact ⟨kept.single w holds, rest (kept.touch w [] [] _ holds (.get t p) trivial List.not_mem_nil)⟩

theorem recreateVm_tracked (lasting : Lasting env) (self : Node) (vmId : Id) {w : World}
    (present : Present self.id vmId w) :
    wp (watching env) (Vms.recreateVm self vmId) (fun _ w' => Present self.id vmId w') w := by
  have none_ : Tbl.vms ∉ ([] : List Tbl) := List.not_mem_nil
  refine get_then (present_rows self.id vmId) present fun present => ?_
  cases found : (w.db .vms).get fun r => r.id = vmId with
  -- the VM was deleted meanwhile
  | none => exact present
  | some row =>
    obtain rfl : row.id = vmId := of_decide_eq_true (Table.get_some found).2
    have kept : KeptRows env _ := ready_rows self.id row.id
    refine after (P := Stops self.id row.id) ?_ (fun _ _ stops => stops.1) fun _ w' stops => ?_
    · rw [wp_sh]
      exact down_stops lasting _ present
    -- the take-down returned, so the VM is off for the bring-up
    · have ready : Ready self.id row.id w' := ⟨stops.1, stops.2 rfl⟩
      refine get_then kept ready fun ready => ?_
      cases (w'.db .vpcs).get fun r => r.id = row.vpcId with
      | none => exact ready.toPresent
      | some vpc =>
        refine db_then kept (.rebuildVolumePath row) [] [] none_
          (Vms.rebuildVolumePath_touch row) ready
          (fun _ _ ready => ready.toPresent) fun path w' ready => ?_
        exact bringUp_tracked lasting self row _ path none _ ready

theorem attachLocal_tracked (lasting : Lasting env) (self : Node) (vm : VmRow) (nodeId : Id)
    {w : World} (present : Present self.id vm.id w) :
    wp (watching env) (PublicIps.attachLocal self vm nodeId)
      (fun _ w' => Present self.id vm.id w') w := by
  have kept : KeptRows env _ := present_rows self.id vm.id
  have none_ : Tbl.vms ∉ ([] : List Tbl) := List.not_mem_nil
  refine db_then kept (.usedAddresses _) [.publicIps] [] none_
    (PublicIps.usedAddresses_touch _ List.mem_cons_self)
    present (fun _ _ h => h) fun used w' present => ?_
  refine db_then kept (.fromExcept _) [] [] none_ (.fromExcept _) present
    (fun _ _ h => h) fun entry w' present => ?_
  refine db_then kept (.uuid4 trivial) [] [] none_ (.uuid4 .uuid4) present
    (fun _ _ h => h) fun id w' present => ?_
  refine db_then kept (.now trivial) [] [] none_ (.now .now) present (fun _ _ h => h)
    fun time w' present => ?_
  refine db_then kept (.insert trivial) [.publicIps] [] none_
    (.insert (.insert .publicIps _ List.mem_cons_self))
    present (fun _ _ h => h) fun _ w' present => ?_
  exact after (recreateVm_tracked lasting self vm.id present) (fun _ _ h => h) fun _ _ h => h

theorem detachLocal_tracked (lasting : Lasting env) (self : Node) (vmId : Id) {w : World}
    (present : Present self.id vmId w) :
    wp (watching env) (PublicIps.detachLocal self vmId)
      (fun _ w' => Present self.id vmId w') w := by
  have kept : KeptRows env _ := present_rows self.id vmId
  refine get_then kept present fun present => ?_
  refine after (P := fun _ w' => Present self.id vmId w') ?_ (fun _ _ h => h) fun _ _ h => h
  rw [wp_whenSome]
  cases (w.db .publicIps).get (VmDeps.attachedTo vmId)
  case some pip =>
    refine db_then kept (.delete trivial) [] [.publicIps] (by decide)
      (.delete (.delete .publicIps _ List.mem_cons_self))
      present (fun _ _ h => h) fun _ w' present => ?_
    exact recreateVm_tracked lasting self vmId present
  case none => exact present

/-- How a request ends: the processes are tracked, and one that stops or deletes a VM and succeeds
leaves no process of it. -/
def Tidy (ends : Option Id) {α : Type} (r : Except Exn α) (w : World) : Prop :=
  Tracked w ∧ ((∃ a, r = .ok a) → ∀ vmId, ends = some vmId → Ended vmId w)

theorem tidy_error (ends : Option Id) {α : Type} (e : Exn) {w : World} (tracked : Tracked w) :
    Tidy ends (.error e : Except Exn α) w := by
  refine ⟨tracked, ?_⟩
  rintro ⟨_, ⟨⟩⟩

theorem tidy_none {α : Type} (r : Except Exn α) {w : World} (tracked : Tracked w) :
    Tidy none r w := by
  refine ⟨tracked, ?_⟩
  rintro _ _ ⟨⟩

theorem deleteLocal_tidy (lasting : Lasting env) (self : Node) (vmId : Id) {w : World}
    (present : Present self.id vmId w) :
    wp (watching env) (Vms.deleteLocal self vmId self.id) (Tidy (some vmId)) w := by
  refine db_then (present_rows self.id vmId) (.teardown vmId) [] [.publicIps, .domains, .proxies]
    (by decide)
    (teardown_touch vmId (by decide) (by decide) (by decide)) present
    (fun _ _ present => tidy_error _ _ present.toTracked) fun _ w' present => ?_
  refine after (P := Stops self.id vmId) ?_ (fun _ _ stops => tidy_error _ _ stops.1.toTracked)
    fun _ w' stops => ?_
  · rw [wp_sh]
    exact down_stops lasting _ present
  · have ready : Ready self.id vmId w' := ⟨stops.1, stops.2 rfl⟩
    have ended := ended_of_off ready.toOwned ready.rowOn ready.off
    rw [wp_bind, delete, wp_perform]
    refine ⟨ready.toSingle, ?_⟩
    rw [exec_delete]
    refine ⟨?_, fun _ v same => ?_⟩
    · -- no process of the VM is left that would need the row
      refine ready.toTracked.of_rows rfl fun n v alive row => ?_
      obtain ⟨p, there, rfl⟩ := alive
      obtain ⟨r, rowThere, named, here⟩ := row
      refine ⟨r, ?_, named, here⟩
      rw [tick_db, setTable_self, Table.mem_delete]
      exact ⟨rowThere, decide_eq_false fun own => ended n p there (named.symm.trans own)⟩
    · cases same
      exact ended

theorem stopLocal_ready (lasting : Lasting env) (self : Node) (vmId : Id) {w : World}
    (present : Present self.id vmId w) :
    wp (watching env) (Vms.stopLocal self vmId)
      (fun r w' => Present self.id vmId w' ∧ ((∃ a, r = .ok a) → Off self.id vmId w')) w := by
  refine after (P := Stops self.id vmId) ?_ (fun _ _ stops => ⟨stops.1, ?_⟩) fun _ w' stops => ?_
  · rw [wp_sh]
    exact kill_stops lasting present
  · rintro ⟨_, ⟨⟩⟩
  · have ready : Ready self.id vmId w' := ⟨stops.1, stops.2 rfl⟩
    refine checked_mono (exec env) _ _ _ _ (fun _ _ ready => ⟨ready.toPresent,
      fun _ => ready.off⟩) w'
      (db_keeps (ready_rows self.id vmId) (.setStatus vmId .stopped) [] [] List.not_mem_nil
        (Vms.setStatus_touch vmId .stopped) ready)

theorem startLocal_tracked (lasting : Lasting env) (self : Node) (vmId : Id) {w : World}
    (ready : Ready self.id vmId w) :
    wp (watching env) (Vms.startLocal self vmId) (fun _ w' => Present self.id vmId w') w := by
  refine after (P := fun _ w' => Present self.id vmId w') ?_ (fun _ _ h => h) fun _ w' present => ?_
  · rw [wp_sh]
    exact create_tracked lasting _ ready
  · exact db_keeps (present_rows self.id vmId) (.setStatus vmId .running) [] [] List.not_mem_nil
      (Vms.setStatus_touch vmId .running) present

/-! ### New VMs -/

/-- The insert of a VM succeeds for a new id only, which no process has. -/
theorem insertVm_then {β : Type} (row : VmRow) {f : Unit → Py β} {Q : Except Exn β → World → Prop}
    {w : World} (tracked : Tracked w) (fails : ∀ e w', Tracked w' → Q (.error e) w')
    (rest : ∀ w', Ready row.nodeId row.id w' → wp (watching env) (f ()) Q w') :
    wp (watching env) (insert .vms row >>= f) Q w := by
  have after : Tracked (exec env (.insert .vms row) w).2 :=
    tracked.touch (.insert .vms row List.mem_cons_self : Touch [.vms] [] _) trivial List.not_mem_nil
  rw [wp_bind, insert, wp_perform]
  refine ⟨tracked.toSingle, ?_⟩
  cases inserted : (w.db .vms).insert row with
  | none =>
    rw [exec_insert_none env w .vms row inserted] at after ⊢
    exact fails _ _ after
  | some rows =>
    rw [exec_insert_some env w .vms row inserted] at after ⊢
    refine rest _ ⟨⟨after, ?_⟩, fun p there own => ?_⟩
    · rw [RowOn, tick_db, setTable_self]
      exact ⟨row, (Table.mem_insert inserted).mpr (.inr rfl), rfl, rfl⟩
    · obtain ⟨r, rowThere, named, -⟩ := tracked.row row.nodeId p there
      have clash : ∃ a ∈ w.db .vms, Clash Tbl.vms.unique a row :=
        ⟨r, rowThere, _, List.mem_cons_self, Option.some_ne_none _, congrArg some (named.trans own)⟩
      exact absurd (Table.insert_none.mpr clash) (inserted ▸ Option.some_ne_none _)

theorem createLocal_tracked (lasting : Lasting env) (self : Node) (body : VmIn) {w : World}
    (tracked : Tracked w) :
    wp (watching env) (Vms.createLocal self body self.id) (fun _ w' => Tracked w') w := by
  have kept : KeptRows env Tracked := tracked_rows
  have none_ : Tbl.vms ∉ ([] : List Tbl) := List.not_mem_nil
  refine db_then kept (.lookup ..) [] [] none_ (Vms.vpcOr404_touch _) tracked
    (fun _ _ h => h) fun vpc w' tracked => ?_
  refine db_then kept (.bodyVolumePath body) [] [] none_ (Vms.bodyVolumePath_touch body) tracked
    (fun _ _ h => h) fun path w' tracked => ?_
  refine db_then kept (.usedIps _) [] [] none_ (Vms.usedIps_touch _) tracked
    (fun _ _ h => h) fun used w' tracked => ?_
  refine db_then kept (.fromExcept _) [] [] none_ (.fromExcept _) tracked (fun _ _ h => h)
    fun ip w' tracked => ?_
  refine db_then kept (.uuid4 trivial) [] [] none_ (.uuid4 .uuid4) tracked
    (fun _ _ h => h) fun id w' tracked => ?_
  refine db_then kept (.now trivial) [] [] none_ (.now .now) tracked (fun _ _ h => h)
    fun time w' tracked => ?_
  refine insertVm_then _ tracked (fun _ _ h => h) fun w' ready => ?_
  exact after (bringUp_tracked lasting self _ _ _ _ _ ready) (fun _ _ h => h.toTracked)
    fun _ _ h => h.toTracked

theorem autoVolume_calms (self : Node) (body : SpawnIn) (nodeId : Id) : Only Calms
    (Vms.autoVolume self body nodeId) := by
  have lvm {c : LvmCmd} : Only Calms (self.sh (Client.lvm c)) := .sh self (.lvm trivial)
  have off {α : Type} {p : Py α} (h : Aside p) : Only Calms p := h.mono fun _ => calms_of_aside
  refine .bind (.uuid4 trivial) fun _ => .bind (.ite (fun _ => ?_) fun _ => ?_) fun _ =>
    .bind (.now trivial) fun _ => .bind (.insert trivial) fun _ => .pure _
  · apply Only.bind (off (.imageOr400 _))
    intro row
    apply Only.bind (off (.refuseIf ..))
    intro _
    exact .bind (.sh self (.bind (.lvm trivial) fun _ => .pure _)) fun _ => .pure _
  · exact .bind (.sh self (.bind (.bind (.lvm trivial) fun _ => .pure _) fun _ =>
      .bind (.lvm trivial) fun _ => .pure _)) fun _ => .pure _

theorem spawnLocal_tracked (lasting : Lasting env) (self : Node) (body : SpawnIn) {w : World}
    (tracked : Tracked w) :
    wp (watching env) (Vms.spawnLocal self body self.id fun _ => pure ())
      (fun _ w' => Tracked w') w := by
  have kept : KeptRows env Tracked := tracked_rows
  have none_ : Tbl.vms ∉ ([] : List Tbl) := List.not_mem_nil
  -- up to the insert no VM row changes and no process starts
  refine db_then kept .ensureDefaultVpc [.vpcs] [] none_
    (ensureDefaultVpc_touch List.mem_cons_self) tracked
    (fun _ _ h => h) fun vpc w' tracked => ?_
  refine db_then kept (.resolveRootImage body _) [] [] none_ (Vms.resolveRootImage_touch ..) tracked
    (fun _ _ h => h) fun origin w' tracked => ?_
  refine calm_then kept (autoVolume_calms self body _) [.volumes] [] none_
    (Vms.autoVolume_touch self _ _ List.mem_cons_self) tracked (fun _ _ h => h)
      fun vol w' tracked => ?_
  refine db_then kept (.usedIps _) [] [] none_ (Vms.usedIps_touch _) tracked
    (fun _ _ h => h) fun used w' tracked => ?_
  refine db_then kept (.fromExcept _) [] [] none_ (.fromExcept _) tracked (fun _ _ h => h)
    fun ip w' tracked => ?_
  refine db_then kept (.uuid4 trivial) [] [] none_ (.uuid4 .uuid4) tracked
    (fun _ _ h => h) fun id w' tracked => ?_
  refine db_then kept (.now trivial) [] [] none_ (.now .now) tracked (fun _ _ h => h)
    fun time w' tracked => ?_
  -- the row is new, so nothing of its id runs yet
  refine insertVm_then _ tracked (fun _ _ h => h) fun w' ready => ?_
  simp only [pure_bind]
  exact after (bringUp_tracked lasting self _ _ _ _ _ ready) (fun _ _ h => h.toTracked)
    fun _ _ h => h.toTracked

/-! ### Every request -/

end Requests

/-- The requests about a VM's life. -/
def Lifecycle : Request → Prop
  | .createVm _ | .spawnVm _ _ | .stopVm _ | .startVm _ | .rebootVm _ | .attachPublicIp _
  | .detachPublicIp _
  | .deleteVm _ => True
  | _ => False

instance : DecidablePred Lifecycle
  | .createVm _ | .spawnVm _ _ | .stopVm _ | .startVm _ | .rebootVm _ | .attachPublicIp _
  | .detachPublicIp _
  | .deleteVm _ => .isTrue trivial
  | .createVpc _ | .deleteVpc _ | .createVolume _ | .resizeVolume _ _ | .deleteVolume _
  | .createSnapshot _ | .deleteSnapshot _ | .createImage _ | .deleteImage _ | .getVm _
  | .createDomain _ | .deleteDomain _ | .createProxy _ | .createTask _ _
  | .reconcileNow => .isFalse id

/-- The VM that a request starts. -/
def starts : Request → Option Id
  | .startVm vmId => some vmId
  | _ => none

/-- The VM that a request stops or deletes. -/
def ends : Request → Option Id
  | .stopVm vmId | .deleteVm vmId => some vmId
  | _ => none

/-- No process of the VM is alive on a node that the request can come to. -/
def NoneThere (hops : Nat) (nodeId vmId : Id) (w : World) : Prop :=
  Off nodeId vmId w ∧ (hops ≠ 0 → ∀ r ∈ w.db .nodes, Off r.nodeId vmId w)

/-- What a request may assume where it arrives: a start finds no process of its VM. -/
structure Fit (of : Option Id) (hops : Nat) (nodeId : Id) (req : Request) (w : World) : Prop where
  tracked : Tracked w
  lifecycle : Lifecycle req
  ends : ends req = of
  start : ∀ vmId ∈ starts req, NoneThere hops nodeId vmId w

section Requests

variable {env : Env}

theorem Fit.looks {of : Option Id} {hops : Nat} {nodeId : Id} {req : Request} {w : World} {o : Op}
    (fit : Fit of hops nodeId req w) (looks : o.Looks) :
    Fit of hops nodeId req (exec env o w).2 := by
  have kept : KeptRows env Tracked := tracked_rows
  obtain ⟨tracked, lifecycle, ends, start⟩ := fit
  cases looks with
  | get t p =>
    exact ⟨kept.touch w [] [] _ tracked (.get t p) trivial List.not_mem_nil, lifecycle, ends, start⟩
  | getAll t p =>
    exact ⟨kept.touch w [.publicIps] [] _ tracked (.getAll t p List.mem_singleton.mpr) trivial
      List.not_mem_nil, lifecycle, ends, start⟩
  | choice =>
    exact ⟨kept.touch w [] [] _ tracked .choice trivial List.not_mem_nil, lifecycle, ends, start⟩

theorem Fit.handedTo {of : Option Id} {hops : Nat} {nodeId : Id} {req : Request} {w : World}
    (fit : Fit of hops nodeId req w) (target : Id) :
    Fit of hops nodeId (Api.handedTo target req) w := by
  obtain ⟨tracked, lifecycle, ends, start⟩ := fit
  cases req <;> exact ⟨tracked, lifecycle, ends, start⟩

/-- A request on the node of its VM. -/
theorem serveHere_tidy (lasting : Lasting env) {of : Option Id} {hops : Nat} (self : Node)
    (req : Request) (found : Api.Found req) {w : World} (fit : Fit of hops self.id req w)
    (known : Api.Known w.db req found) (here : Api.ownerOf self req found = self.id) :
    wp (watching env) (Api.serveHere self req found) (Tidy of) w := by
  obtain ⟨tracked, lifecycle, rfl, start⟩ := fit
  have present {vmId owner : Id} (known : ∃ vm ∈ w.db .vms, vm.id = vmId ∧ vm.nodeId = owner)
      (here : owner = self.id) : Present self.id vmId w := by
    obtain ⟨vm, there, same, rfl⟩ := known
    exact ⟨tracked, vm, there, same, here⟩
  have plain {p : Py Response} {n vmId : Id}
      (keeps : wp (watching env) p (fun _ w' => Present n vmId w') w) :
      wp (watching env) p (Tidy none) w :=
    checked_mono (exec env) _ _ _ _ (fun r _ present => tidy_none r present.toTracked) _ keeps
  cases req with
  | stopVm vmId =>
    apply checked_mono (exec env) _ _ _ _ _ _
      (stopLocal_ready lasting self vmId (present known here))
    rintro r w' ⟨present', off⟩
    refine ⟨present'.toTracked, ?_⟩
    rintro ended _ ⟨⟩
    exact ended_of_off present'.toOwned present'.rowOn (off ended)
  | deleteVm vmId => exact deleteLocal_tidy lasting self vmId (present known here)
  | startVm vmId =>
    have ready : Ready self.id vmId w := ⟨present known here, (start vmId rfl).1⟩
    exact plain (startLocal_tracked lasting self vmId ready)
  | rebootVm vmId =>
    -- the stop leaves no process for the start to find
    apply after (stopLocal_ready lasting self vmId (present known here))
    · intro e _ h
      exact tidy_error _ e h.1.toTracked
    · intro a w' h
      exact checked_mono (exec env) _ _ _ _ (fun r _ present => tidy_none r present.toTracked) _
        (startLocal_tracked lasting self vmId ⟨h.1, h.2 ⟨a, rfl⟩⟩)
  | attachPublicIp vmId =>
    exact plain (attachLocal_tracked lasting self found self.id
      (present ⟨found, known.1, rfl, rfl⟩ here))
  | detachPublicIp vmId =>
    exact plain (detachLocal_tracked lasting self vmId
      (present ⟨found, known.1, known.2, rfl⟩ here))
  | createVm body =>
    exact checked_mono (exec env) _ _ _ _ (fun r _ tracked => tidy_none r tracked) _
      (createLocal_tracked lasting self body tracked)
  | spawnVm body pin =>
    apply after (spawnLocal_tracked lasting self body tracked)
    · intro e _ tracked
      exact tidy_error _ e tracked
    · intro _ _ tracked
      exact tidy_none _ tracked
  | _ => cases lifecycle

end Requests

/-! ## Runs -/

/-- The requests about a VM's life, and a start only where no process of its VM is alive. -/
def notRunning (hops : Nat) : Action → World → Prop
  | .request nodeId req, w => Lifecycle req ∧ ∀ vmId ∈ starts req, NoneThere hops nodeId vmId w
  | _, _ => False

/-- Any request about a VM's life. -/
def anyLifecycle : Action → World → Prop
  | .request _ req, _ => Lifecycle req
  | _, _ => False

/-- Each process is in its pid file, no VM has two, and what a request does keeps it so: whatever
operation it is at, no VM has two, and where it stops or deletes a VM, none is left. -/
structure Watched (env : Env) (cfg : Id → NodeConfig) (hops : Nat) (w : World) : Prop where
  single : Single w
  recorded : ∀ n, ∀ p ∈ (w.hosts n).procs, Recorded n p w
  during : ∀ a, notRunning hops a w → ∀ x ∈ trail (exec env) (a.program cfg hops) w, Single x.2
  ended : ∀ nodeId req vmId, notRunning hops (.request nodeId req) w → ends req = some vmId →
    (∃ r, (run (exec env) (Api.serve cfg hops nodeId req) w).1 = .ok r) →
    Ended vmId (run (exec env) (Api.serve cfg hops nodeId req) w).2

section Runs

variable {env : Env} (cfg : Id → NodeConfig) (hops : Nat)

theorem serve_tidy (lasting : Lasting env) {nodeId : Id} {req : Request} {w : World}
    (tracked : Tracked w) (may : notRunning hops (.request nodeId req) w) :
    wp (watching env) (Api.serve cfg hops nodeId req) (Tidy (ends req)) w := by
  have kept : KeptRows env Tracked := tracked_rows
  refine Api.serve_checked (exec env) (fun w => w.db .nodes)
    (fun _ _ => rfl) _ cfg (Fit (ends req)) _
    ?_ ?_ ?_ ?_ ?_ hops nodeId req w ?_
  -- reading the table of nodes before the request is handed on
  · rintro hops nodeId req w p ⟨tracked, lifecycle, same, start⟩
    exact ⟨tracked.toSingle, kept.touch w [] [] _ tracked (.get .nodes p) trivial List.not_mem_nil,
      lifecycle,
      same, start⟩
  · rintro hops nodeId req w p row ⟨tracked, lifecycle, same, start⟩ there
    refine ⟨kept.touch w [] [] _ tracked (.get .nodes p) trivial List.not_mem_nil, lifecycle, same,
      fun vmId this => ?_⟩
    have further := (start vmId this).2 (Nat.succ_ne_zero hops)
    exact ⟨further row there, fun _ => further⟩
  · exact fun _ _ _ e _ fit => tidy_error _ e fit.tracked
  · exact fun e w tidy => tidy_error _ _ tidy.1
  · intro hops nodeId forward req w fit on
    -- the lookups of the router run on no host
    have looks : Looks (Api.lookUp ⟨nodeId, cfg nodeId⟩ req) := by
      apply Api.lookUp_looks
      rintro body rfl
      exact fit.lifecycle
    apply Api.endpoint_checked (J := Fit _ hops nodeId req) (fun _ _ _ => rfl) (fun _ _ _ => rfl)
      (fun _ _ _ fit => fit.tracked.toSingle) (fun _ _ looks fit => fit.looks looks) looks fit
    · intro e w' fit
      exact tidy_error _ e fit.tracked
    · intro found w' fit
      exact on _ _ w' (fit.handedTo _)
    · intro found w' fit known here
      exact serveHere_tidy lasting ⟨nodeId, cfg nodeId⟩ req found fit known here
  · exact ⟨tracked, may.1, rfl, may.2⟩

/-- Where no start is made while a process of its VM is alive, every process is watched over. -/
theorem one_tracked_process (env : Env) (lasting : Lasting env) (start : World)
    (tracked : Tracked start) (w : World)
    (reached : Reached (exec env) (Action.program cfg hops) (notRunning hops) anyEnd start w) :
    Watched env cfg hops w := by
  have now : Tracked w := by
    refine reached.holds Tracked tracked fun a w tracked may => ?_
    cases a with
    | request nodeId req =>
      rw [wp_sequential]
      exact fun _ => ((wp_checked _ _ _ _ _).mp (serve_tidy cfg hops lasting tracked may)).2.1
    | _ => cases may
  refine ⟨now.toSingle, now.recorded, fun a may => ?_, fun nodeId req vmId may of ok => ?_⟩
  · cases a with
    | request nodeId req =>
      exact ((wp_checked _ _ _ _ _).mp (serve_tidy cfg hops lasting now may)).1
    | _ => cases may
  · exact ((wp_checked _ _ _ _ _).mp (serve_tidy cfg hops lasting now may)).2.2 ok vmId of

end Runs

/-! ## A start of a running VM -/

theorem lasting_sample : Lasting Sample.env := fun _ _ => rfl

theorem tracked_fresh : Tracked Sample.fresh := by
  have empty (n : Id) : (Sample.fresh.hosts n).procs = [] := by
    change (if n = "n1" then Sample.host else Host.empty).procs = []
    split <;> rfl
  have none_ {n : Id} {p : Proc} {P : Prop} (there : p ∈ (Sample.fresh.hosts n).procs) : P := by
    rw [empty] at there
    exact absurd there List.not_mem_nil
  refine ⟨⟨⟨fun _ _ _ _ there => none_ there, fun n => ?_⟩, fun _ _ there => none_ there,
    fun _ _ there => none_ there,
    fun n => ?_⟩, fun _ _ there => none_ there⟩
  · rw [empty]
    exact .nil
  · change 0 < (if n = "n1" then Sample.host else Host.empty).nextPid
    split <;> decide

/-- Two processes of one VM. -/
def twice (w : World) : Prop :=
  ∃ p ∈ (w.hosts "n1").procs, ∃ p' ∈ (w.hosts "n1").procs, p.vmId = p'.vmId ∧ p ≠ p'

instance (w : World) : Decidable (twice w) :=
  inferInstanceAs (Decidable (∃ p ∈ (w.hosts "n1").procs, ∃ p' ∈
    (w.hosts "n1").procs, p.vmId = p'.vmId ∧ p ≠ p'))

instance : (a : Action) → (w : World) → Decidable (anyLifecycle a w)
  | .request _ req, _ => inferInstanceAs (Decidable (Lifecycle req))
  | .reconcile _, _ | .tick _, _ | .join _, _ | .leave _, _ => .isFalse id

theorem twice_reached :
    ∃ w, Reached (exec Sample.env) (Action.program Sample.cluster 1) anyLifecycle anyEnd
    Sample.fresh w ∧ twice w :=
  Reached.exists_of_follow [.request "n1" (.spawnVm Sample.spawn none),
    .request "n1" (.startVm Sample.v1)]
    _
    (by decide +kernel)

/-- A start of a running VM starts a second process, and forgets the first. -/
theorem start_of_running_vm : ¬ ∀ w, Reached (exec Sample.env)
    (Action.program Sample.cluster 1) anyLifecycle anyEnd
    Sample.fresh w → Single w := by
  intro single
  obtain ⟨w, reached, p, there, p', there', same, differ⟩ := twice_reached
  exact differ ((single w reached).one _ _ p p' there there' same).2

instance (n vmId : Id) (w : World) : Decidable (Off n vmId w) :=
  inferInstanceAs (Decidable (∀ p ∈ (w.hosts n).procs, p.vmId ≠ vmId))

instance (hops : Nat) (nodeId vmId : Id) (w : World) : Decidable (NoneThere hops nodeId vmId w) :=
  inferInstanceAs (Decidable (Off nodeId vmId w ∧
    (hops ≠ 0 → ∀ r ∈ (w.db .nodes).rows, Off r.nodeId vmId w)))

instance (hops : Nat) : (a : Action) → (w : World) → Decidable (notRunning hops a w)
  | .request nodeId req, w =>
    inferInstanceAs (Decidable (Lifecycle req ∧ ∀ vmId ∈ starts req, NoneThere hops nodeId vmId w))
  | .reconcile _, _ | .tick _, _ | .join _, _ | .leave _, _ => .isFalse id

/-- Stopped, started, rebooted and rebuilt. -/
def oneLife : List Action :=
  [.request "n1" (.spawnVm Sample.spawn none), .request "n1" (.stopVm Sample.v1), .request "n1"
    (.startVm Sample.v1),
    .request "n1" (.rebootVm Sample.v1), .request "n1" (.attachPublicIp Sample.v1)]

theorem life_reached : ∃ w, Reached (exec Sample.env) (Action.program Sample.cluster 1)
    (notRunning 1) anyEnd
    Sample.fresh w ∧ (w.hosts "n1").procs = [⟨4, Sample.v1⟩] :=
  Reached.exists_of_follow oneLife _ (by decide +kernel)

/-- The fourth process of the VM is its only one. -/
theorem watched_life :
    ∃ w, (w.hosts "n1").procs = [⟨4, Sample.v1⟩] ∧ Watched Sample.env Sample.cluster 1
    w := by
  obtain ⟨w, reached, one⟩ := life_reached
  exact ⟨w, one, one_tracked_process Sample.cluster 1 Sample.env lasting_sample Sample.fresh
    tracked_fresh w reached⟩

end Processes

end Nyc
