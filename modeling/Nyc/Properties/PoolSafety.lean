import Nyc.Client.Pool
import Nyc.Properties.RootDisks

/-!
# What no removal may hit

Four prefixes decide which volumes of a node's group a removal may destroy. The thin pool and
the two volumes that `pool.ensure` makes lie in the same name space, and the name of the pool
is the operator's. Where this name has none of the prefixes, no request and no pass ever
removes one of the three.
-/

namespace Nyc.PoolSafety

open Data Effects Effects.Program Client RootDisks

/-! ## The reserved volumes -/

def reserved (c : Config.LvmConfig) : List Str := [c.thinpool, Pool.BASE_ROOTFS, GOLD_DEFAULT]

/-- The name of the pool has none of the prefixes, or is the one that the passes leave out. -/
def Apart (pool : Str) : Prop := RoleName pool → pool = GOLD_DEFAULT

instance (pool : Str) : Decidable (Apart pool) := inferInstanceAs (Decidable (_ → _))

/-- The command removes no reserved volume of its node, whatever the group. -/
def SparesCmd (cfg : Id → NodeConfig) (n : Id) : Cmd → Prop
  | .lvm (.remove _ name) => name ∉ reserved (cfg n).lvm
  | _ => True

/-- A row of the snapshots as the requests write them: named after its id, which is one of its
own. -/
structure Custom (r : SnapshotRow) : Prop where
  named : r.lvName = lvOf r.role r.id
  own : r.id ≠ "default".toList

/-- The snapshots that the operation writes are such rows. -/
def Records : Op → Prop
  | .insert .snapshots row => Custom row
  | .update .snapshots _ _ => False
  | _ => True

structure Careful (cfg : Id → NodeConfig) (o : Op) : Prop where
  host : o.OnHosts (SparesCmd cfg)
  rows : Records o

/-- What the operations answer in a cluster whose snapshots are such rows. -/
def Known : (o : Op) → o.Res → Prop
  | .getAll .snapshots _, rows => ∀ r : SnapshotRow, r ∈ rows → Custom r
  | .get .snapshots _, row => ∀ r : SnapshotRow, row = some r → Custom r
  | .uuid4, id => id ≠ "default".toList
  | _, _ => True

section Names

variable {c : Config.LvmConfig} {name : Str}

/-- Names with a prefix are not reserved, but for the default image. -/
theorem not_reserved (apart : Apart c.thinpool) (role : RoleName name)
    (custom : name ≠ GOLD_DEFAULT) :
    name ∉ reserved c := by
  intro there
  simp only [reserved, List.mem_cons, List.not_mem_nil, or_false] at there
  rcases there with rfl | rfl | rfl
  · exact custom (apart role)
  · revert role
    decide
  · exact custom rfl

theorem data_not_reserved (apart : Apart c.thinpool) (data : DataName name) :
    name ∉ reserved c := by
  obtain ⟨id, rfl⟩ := data
  exact not_reserved apart (role_data id) (data_ne_default id)

theorem rootfs_not_reserved (apart : Apart c.thinpool) (rootfs : Names.ROOTFS <+: name) :
    name ∉ reserved c := by
  obtain ⟨id, rfl⟩ := rootfs
  exact not_reserved apart (role_rootfs id) (rootfs_ne_default id)

theorem Custom.not_reserved {r : SnapshotRow} (custom : Custom r) (apart : Apart c.thinpool) :
    r.lvName ∉ reserved c := by
  rw [custom.named]
  exact PoolSafety.not_reserved apart (role_lvOf r.role r.id) (lvOf_ne_default custom.own)

end Names

/-! ## Programs -/

section Programs

variable {cfg : Id → NodeConfig} {origins : Id → Str → Prop}

/-- In a cluster whose snapshots are such rows, every operation of the program is careful. -/
abbrev Walks (cfg : Id → NodeConfig) {α : Type} (p : Py α) : Prop :=
  wp (issues (Careful cfg) Known) p fun _ => True

/-- The programs that make no image remove data volumes and root disks. -/
theorem careful_of_tame (apart : ∀ n, Apart (cfg n).lvm.thinpool) {o : Op} (tame : Tame origins o) :
    Careful cfg o := by
  constructor
  · have host := tame.host
    cases o with
    | host n c =>
      cases c with
      | lvm c =>
        cases c with
        -- the only removals of tame code are of a VM's data volume and root disk
        | remove vg name =>
          exact host.elim (data_not_reserved (apart n)) (rootfs_not_reserved (apart n))
        | _ => trivial
      | _ => trivial
    | _ => trivial
  -- tame code writes no snapshot row
  · have rows := tame.rows
    cases o with
    | insert t row =>
      cases t with
      | snapshots => exact absurd rfl rows
      | _ => trivial
    | update t p f =>
      cases t with
      | snapshots => exact absurd rfl rows
      | _ => trivial
    | _ => trivial

theorem careful (apart : ∀ n, Apart (cfg n).lvm.thinpool) {α : Type} {p : Py α} (ts ds : List Tbl)
    (touch : Only (Touch ts ds) p) (new : .snapshots ∉ ts) (old : .snapshots ∉ ds)
    (hosts : TameHosts origins p) : Only (Careful cfg) p :=
  (tame_of ts ds touch new old hosts).mono fun _ tame => careful_of_tame apart tame

/-- A command that removes nothing. -/
theorem careful_host {n : Id} {c : Cmd} (keeps : ∀ vg name, c ≠ .lvm (.remove vg name)) :
    Careful cfg (.host n c) := by
  refine ⟨?_, trivial⟩
  cases c with
  | lvm c =>
    cases c with
    | remove vg name => exact absurd rfl (keeps vg name)
    | _ => trivial
  | _ => trivial

theorem remove_careful (self : Node) {vg name : Str} (free : name ∉ reserved (cfg self.id).lvm) :
    Only (Careful cfg) (self.sh (Lv.remove vg name)) := by
  refine .sh self ((Lv.remove_only vg name).mono ?_)
  intro c issued
  cases issued with
  | lvs lister =>
    apply careful_host
    intro vg name same
    cases same
  | remove => exact ⟨free, trivial⟩

/-! ### Images -/

theorem lookup_walks (p : SnapshotRow → Bool) (code : Nat) (detail : Str) :
    wp (issues (Careful cfg) Known) (do orHttp (← get .snapshots p) code detail)
      (fun r => ∀ row, r = .ok row → Custom row) := by
  rw [wp_bind, get, wp_perform]
  refine ⟨⟨trivial, trivial⟩, ?_, ?_⟩
  · intro row known
    rw [onValue_ok, wp_orHttp]
    cases row with
    | none =>
      intro _ same
      cases same
    | some r =>
      rintro _ ⟨⟩
      exact known r rfl
  · intro e _ same
    cases same

/-- A new image gets an id of its own. -/
theorem uuid4_walks {β : Type} {f : Id → Py β}
    (rest : ∀ id, id ≠ "default".toList → Walks cfg (f id)) :
    Walks cfg (uuid4 >>= f) := by
  apply issues_bind (fun id : Id => id ≠ "default".toList) _ rest
  rw [uuid4, wp_perform]
  refine ⟨⟨trivial, trivial⟩, ?_, ?_⟩
  · rintro id known _ ⟨⟩
    exact known
  · rintro e _ ⟨⟩

theorem only_then {α β : Type} {p : Py α} {f : α → Py β} (first : Only (Careful cfg) p)
    (rest : ∀ a, Walks cfg (f a)) : Walks cfg (p >>= f) := by
  apply issues_bind (fun _ => True) _ fun a _ => rest a
  exact issues_mono _ _ p _ _ (fun _ _ _ _ => trivial) (first.issues Known)

theorem snapshot_careful (self : Node) (vg origin name : Str) :
    Only (Careful cfg) (self.sh (Lv.snapshot vg origin name)) := by
  refine .sh self (.bind (.lvm (careful_host ?_)) fun _ => .pure _)
  intro vg name same
  cases same

/-- The row of an image that has been made. -/
theorem record_walks (row : Timestamp → SnapshotRow) (custom : ∀ time, Custom (row time)) :
    Walks cfg (do
      let time ← now
      insert .snapshots (row time)
      return Response.snapshot (row time)) := by
  refine Only.issues (.bind (.now ⟨trivial, trivial⟩) fun time => ?_) Known
  exact .bind (.insert ⟨trivial, custom time⟩) fun _ => .pure _

theorem createSnapshotLocal_walks (self : Node) (body : SnapshotIn) (src : Snapshots.Source) :
    Walks cfg (Snapshots.createSnapshotLocal self body src) := by
  refine uuid4_walks fun snapId own => ?_
  refine only_then (snapshot_careful self ..) fun _ => ?_
  exact record_walks (fun time => ⟨snapId, src.nodeId, body.name, .snapshot, src.disk,
    some src.parent,
    Names.snap snapId, src.sizeMb, time⟩) fun _ => ⟨rfl, own⟩

theorem createImageLocal_walks (self : Node) (body : ImageIn) (snap : SnapshotRow) (nodeId : Id) :
    Walks cfg (Snapshots.createImageLocal self body snap nodeId) := by
  refine uuid4_walks fun goldId own => ?_
  refine only_then (snapshot_careful self ..) fun _ => ?_
  exact record_walks (fun time => ⟨goldId, nodeId, body.name, .golden, snap.disk, some snap.id,
    Names.gold goldId, snap.sizeMb, time⟩) fun _ => ⟨rfl, own⟩

variable (apart : ∀ n, Apart (cfg n).lvm.thinpool)
include apart

/-- The pass leaves out the default image, and sees no name without its two prefixes. -/
theorem snapshotsPass_careful (self : Node) :
    Only (Careful cfg) (SnapshotsPass.reconcile self) := by
  refine .bind (.getAll ⟨trivial, trivial⟩) fun rows =>
    .bind (.sh self (Lv.listLvs_only _ _ ?_)) fun names =>
    .bind (.forEach _ fun name there => remove_careful self ?_) fun _ => .pure _
  · apply careful_host
    intro vg name same
    cases same
  · obtain ⟨kept, orphan⟩ := (self.cfg.sets.mem_diff _ _ name).mp there
    have image := (List.mem_filter.mp kept).2
    simp only [Bool.or_eq_true, List.isPrefixOf_iff_prefix] at image
    apply not_reserved (apart _) (.inr (.inr image))
    rintro rfl
    exact orphan List.mem_cons_self

theorem passOnce_careful (self : Node) : Only (Careful cfg) (PassOnce.run self) := by
  have none_ : Tbl.snapshots ∉ ([] : List Tbl) := List.not_mem_nil
  have rest {α : Type} {p : Py α} := @careful cfg byDefault apart α p
  refine .bind (rest [] [.vms] (ttlPass_touch self (by decide)) none_ (by decide)
    (tameHosts (tame_grants.ttlPass self)))
    fun _ => ?_
  refine .bind (rest [] [.publicIps, .domains, .proxies] (vmsPass_touch self (by decide) (by decide)
    (by decide)) none_ (by decide) (tameHosts (tame_grants.vmsPass self))) fun _ => ?_
  refine .bind (rest [] [] (volumesPass_touch self) none_ none_ (volumesPass_hosts self)) fun _ =>
    ?_
  refine .bind (snapshotsPass_careful apart self) fun _ => ?_
  exact .bind (rest [] [] (overlayPass_touch self) none_ none_
    (tameHosts (tame_grants.overlayPass self)))
    fun _ => .pure _

/-- A spawn removes what is left of a root disk, whatever the new one is cloned from. -/
theorem spawnLocal_careful (self : Node) (body : SpawnIn) (nodeId : Id) (preBringUp : Id → Py Unit)
    (touch : ∀ id, Only (Touch [.vpcs, .volumes, .vms, .publicIps] []) (preBringUp id))
    (offHost : ∀ id, Aside (preBringUp id)) :
    Only (Careful cfg) (Vms.spawnLocal self body nodeId preBringUp) := by
  refine @careful cfg (fun _ _ => True) apart _ _ [.vpcs, .volumes, .vms, .publicIps] []
    (Vms.spawnLocal_touch self body nodeId preBringUp (by decide) (by decide) (by decide) touch)
    (by decide) List.not_mem_nil ?_
  -- the reads and the rows come first: no command but the one of the data volume
  apply Only.bind (off .ensureDefaultVpc)
  intro vpc
  apply Only.bind (off (.resolveRootImage ..))
  intro origin
  apply Only.bind (autoVolume_hosts self _ _)
  intro vol
  apply Only.bind (off (.usedIps _))
  intro used
  apply Only.bind (.fromExcept _)
  intro ip
  apply Only.bind (.uuid4 trivial)
  intro id
  apply Only.bind (.now trivial)
  intro time
  apply Only.bind (.insert trivial)
  intro _
  apply Only.bind (off (offHost _))
  intro _
  exact .bind (tameHosts (tame_grants.bringUp self _ _ _ _ trivial)) fun _ => .pure _

theorem createProxyLocal_careful (self : Node) (body : ProxyIn) (vpc : VpcRow) (nodeId : Id) :
    Only (Careful cfg) (Proxy.createProxyLocal self body vpc nodeId) := by
  have none_ : Tbl.snapshots ∉ ([] : List Tbl) := List.not_mem_nil
  have rest {α : Type} {p : Py α} := @careful cfg byDefault apart α p
  refine .bind (rest [.publicIps] [] (PublicIps.usedAddresses_touch _ (by decide)) (by decide) none_
    (off (.usedAddresses _))) fun _ => ?_
  apply Only.bind (.fromExcept _)
  intro ip
  apply Only.bind (.now ⟨trivial, trivial⟩)
  intro time
  apply Only.bind (.uuid4 ⟨trivial, trivial⟩)
  intro id
  refine .bind (spawnLocal_careful apart self _ _ _
    (fun _ => .insert (.insert .publicIps _ (by decide)))
    fun _ => .insert trivial) fun _ => ?_
  exact rest [.proxies, .tasks] [] (Proxy.record_touch _ _ _ _ _ _ (by decide) (by decide))
    (by decide) none_
    (off (.record ..))

/-! ### Requests -/

omit apart in
/-- What the lookups of an endpoint find of the images. -/
def Looked : (req : Request) → Api.Found req → Prop
  | .deleteSnapshot _, row => Custom row
  | .deleteImage _, row => Custom row
  | _, _ => True

theorem lookUp_walks (self : Node) (req : Request) :
    wp (issues (Careful cfg) Known) (Api.lookUp self req)
      (fun r => ∀ found, r = .ok found → Looked req found) := by
  have image {p : SnapshotRow → Bool} {code : Nat} {detail : Str} :
      wp (issues (Careful cfg) Known) (do orHttp (← get .snapshots p) code detail)
        (fun r => ∀ row, r = .ok row → Custom row) :=
    lookup_walks _ _ _
  have plain (any : ∀ found, Looked req found) :
      wp (issues (Careful cfg) Known) (Api.lookUp self req)
        (fun r => ∀ found, r = .ok found → Looked req found) := by
    have tame : Only (Tame byDefault) (Api.lookUp self req) := lookUp_tame self req
    have only : Only (Careful cfg) (Api.lookUp self req) :=
      tame.mono fun _ tame => careful_of_tame apart tame
    exact issues_mono _ _ _ _ _ (fun _ _ found _ => any found) (only.issues Known)
  cases req with
  | deleteSnapshot | deleteImage => exact image
  | _ => exact plain fun _ => trivial

theorem serveHere_walks (self : Node) (req : Request) (found : Api.Found req)
    (looked : Looked req found) : Walks cfg (Api.serveHere self req found) := by
  by_cases usual : Usual req
  · have only := (serveHere_tame self req found usual).mono fun _ => careful_of_tame apart
    exact only.issues Known
  have remove (rid : Id) (row : SnapshotRow) (custom : Custom row) : Walks cfg (do
      self.sh (SnapAction.remove (self.volumeVg row.nodeId) row.lvName)
      let _ ← delete .snapshots fun r => r.id = rid
      return Response.empty) := by
    apply only_then (remove_careful self (custom.not_reserved (apart _)))
    intro _
    exact Only.issues (.bind (.delete ⟨trivial, trivial⟩) fun _ => .pure _) Known
  cases req with
  | createSnapshot body => exact createSnapshotLocal_walks _ body found
  | deleteSnapshot snapshotId => exact remove snapshotId found looked
  | createImage body => exact createImageLocal_walks _ body found _
  | deleteImage imageId => exact remove imageId found looked
  | spawnVm body pin =>
    refine Only.issues (.bind (spawnLocal_careful apart _ body _ _ ?_ ?_) fun _ => .pure _) Known
    · exact fun _ => .pure _
    · exact fun _ => .pure _
  | createProxy body => exact (createProxyLocal_careful apart _ body _ _).issues Known
  | reconcileNow => exact Only.issues (.bind (passOnce_careful apart _) fun _ => .pure _) Known
  | _ => exact absurd trivial usual

theorem serve_walks (hops : Nat) (nodeId : Id) (req : Request) :
    Walks cfg (Api.serve cfg hops nodeId req) := by
  apply Api.serve_induct cfg (Walks cfg) (fun _ => True) _ _ _ hops nodeId req trivial
  · exact (Only.throw Exn.requestError).issues Known
  · intro serve on target req _
    apply only_then (.get ⟨trivial, trivial⟩)
    intro row
    rw [Walks, wp_bind, wp_orHttp]
    cases row with
    | none => trivial
    | some row =>
      change wp _ (Api.remote _) _
      rw [Api.remote, wp_tryCatch]
      refine issues_mono _ _ _ _ _ ?_ (on row.nodeId req trivial)
      rintro (e | a) _ <;> trivial
  · intro nodeId forward req _ on
    rw [Api.endpoint_eq]
    apply issues_bind (Looked req) (lookUp_walks apart _ req)
    intro found looked
    rw [wp_ite]
    split
    · exact on _ _ trivial
    · exact serveHere_walks apart _ req found looked

theorem action_walks (hops : Nat) (a : Action) : Walks cfg (a.program cfg hops) := by
  have of_careful (p : Py Response) (only : Only (Careful cfg) p) : Walks cfg p := only.issues Known
  apply Action.rule (C := Walks cfg) cfg hops a of_careful
  · intro nodeId
    have hosts : TameHosts byDefault (Executor.tick ⟨nodeId, cfg nodeId⟩) :=
      tameHosts (tame_grants.tick _)
    exact careful apart [.tasks] [] (tick_touch _ (by decide)) (by decide) List.not_mem_nil hosts
  · intro row
    exact ⟨trivial, trivial⟩
  · intro p
    exact ⟨trivial, trivial⟩
  · intro nodeId req _
    exact serve_walks apart hops nodeId req
  · intro nodeId _
    exact Only.issues (.bind (passOnce_careful apart _) fun _ => .pure _) Known

end Programs

/-! ## States -/

/-- All snapshots are as the requests write them. -/
def Recorded (w : World) : Prop := ∀ r ∈ w.db .snapshots, Custom r

section States

variable {env : Env} {cfg : Id → NodeConfig}

/-- A careful operation writes such snapshots only. -/
theorem Recorded.exec {o : Op} {w : World} (careful : Careful cfg o) (recorded : Recorded w) :
    Recorded (Nyc.exec env o w).2 := by
  have rows := careful.rows
  by_cases writes : o.writes .snapshots
  · cases o with
    -- a new row is named after its role by the step itself
    | insert t row =>
      cases (show t = .snapshots from writes)
      intro r there
      cases inserted : (w.db .snapshots).insert row with
      | none =>
        rw [exec_insert_none env w .snapshots row inserted] at there
        exact recorded r there
      | some rows' =>
        rw [exec_insert_some env w .snapshots row inserted, tick_db, setTable_self] at there
        rcases (Table.mem_insert inserted).mp there with old | rfl
        · exact recorded r old
        · exact rows
    | update t p f =>
      cases (show t = .snapshots from writes)
      exact rows.elim
    | delete t p =>
      cases (show t = .snapshots from writes)
      intro r there
      rw [exec_delete, tick_db, setTable_self, Table.mem_delete] at there
      exact recorded r there.1
    | _ => cases writes
  · rw [Recorded, exec_frame env w .snapshots o writes]
    exact recorded

/-- Where all snapshots are such rows, so are those that are read. -/
theorem Recorded.known (ids : ∀ k, env.uuid k ≠ "default".toList) {o : Op} {w : World} {a : o.Res}
    (recorded : Recorded w) (done : (Nyc.exec env o w).1 = .ok a) : Known o a := by
  cases o with
  | getAll t p =>
    cases t with
    | snapshots =>
      cases done
      exact fun r there => recorded r (Table.mem_getAll.mp there).1
    | _ => trivial
  | get t p =>
    cases t with
    | snapshots =>
      cases done
      exact fun r found => recorded r (Table.get_some found).1
    | _ => trivial
  | uuid4 =>
    cases done
    exact ids _
  | _ => trivial

/-- A removed volume is none of the reserved ones, and these stay where they are. -/
structure Spared (env : Env) (cfg : Id → NodeConfig) {α : Type} (p : Py α) (w : World) : Prop where
  issued : ∀ a ∈ trail (Nyc.exec env) p w, a.1.OnHosts (SparesCmd cfg)
  stay : ∀ n vg, ∀ name ∈ reserved (cfg n).lvm, (w.hosts n).HasLv (vg, name) →
    ((run (Nyc.exec env) p w).2.hosts n).HasLv (vg, name)

/-- The reserved volumes of `w` are still there. -/
def Still (cfg : Id → NodeConfig) (w w' : World) : Prop :=
  ∀ n vg, ∀ name ∈ reserved (cfg n).lvm, (w.hosts n).HasLv (vg, name) →
    (w'.hosts n).HasLv (vg, name)

theorem Still.exec {w w' : World} {o : Op} (spares : o.OnHosts (SparesCmd cfg))
    (still : Still cfg w w') :
    Still cfg w (Nyc.exec env o w').2 := by
  intro n vg name known before
  have there := still n vg name known before
  cases o with
  | host n' c =>
    rw [hosts_exec]
    split
    -- another node's command does not touch the host
    next same =>
      subst same
      apply exec_keeps _ _ _ _ there
      rintro rfl
      exact spares known
    next => exact there
  | insert t row =>
    rw [hosts_offHost env w' (o := .insert t row) trivial]
    exact there
  | update t p f =>
    rw [hosts_offHost env w' (o := .update t p f) trivial]
    exact there
  | _ => exact there

theorem spared_of_walks (ids : ∀ k, env.uuid k ≠ "default".toList) {α : Type} {p : Py α}
    (walks : Walks cfg p) {w : World} (recorded : Recorded w) :
    Spared env cfg p w ∧ Recorded (run (Nyc.exec env) p w).2 := by
  have checked := checked_of_issues (Nyc.exec env) (fun o _ => o.OnHosts (SparesCmd cfg))
    (fun w' => Recorded w' ∧ Still cfg w w') (fun o w' careful _ => careful.host)
    (fun o w' careful h => ⟨h.1.exec careful, h.2.exec careful.host⟩)
    (fun o w' a h done => h.1.known ids done) p (fun _ => True) walks w ⟨recorded,
      fun _ _ _ _ there => there⟩
  rw [wp_checked] at checked
  obtain ⟨issued, ⟨recorded', still⟩, -⟩ := checked
  exact ⟨⟨issued, still⟩, recorded'⟩

end States

/-! ## Runs -/

/-- How the nodes are configured: their processes and their starts read one file. -/
structure Settings where
  node : Id → NodeConfig
  pool : Id → PoolConfig
  same : ∀ n, (pool n).toLvmConfig = (node n).lvm

/-- The cluster, and what is under the volumes of its nodes. -/
structure Site where
  world : World
  machines : Id → Machine

namespace Site

/-- The machine of a node, with the node's host as it is now. -/
def machine (s : Site) (n : Id) : Machine := { s.machines n with host := s.world.hosts n }

def put (s : Site) (n : Id) (m : Machine) : Site :=
  ⟨s.world.setHost n m.host, Function.update s.machines n m⟩

/-- `pool.ensure` at the start of a node; some of its commands may fail. -/
def ensure (s : Site) (cfg : Settings) (fails : Nat → Bool) (rootfsSrc : Str) (n : Id) : Site :=
  s.put n (run (execPool fails) (Pool.ensure n (cfg.pool n) rootfsSrc) (0, s.machine n)).2.2

def act (s : Site) (env : Env) (cfg : Settings) (hops : Nat) (a : Action) : Site :=
  { s with world := (run (exec env) (a.program cfg.node hops) s.world).2 }

end Site

/-- Nodes start, requests are answered and passes are made, in any order. -/
inductive Run (env : Env) (cfg : Settings) (hops : Nat) (start : Site) : Site → Prop where
  | refl : Run env cfg hops start start
  | ensure {s : Site} (fails : Nat → Bool) (rootfsSrc : Str) (n : Id) :
    Run env cfg hops start s → Run env cfg hops start (s.ensure cfg fails rootfsSrc n)
  | act {s : Site} (a : Action) : Run env cfg hops start s →
    Run env cfg hops start (s.act env cfg hops a)

section Runs

variable {env : Env} {cfg : Settings} {hops : Nat} {start s : Site}

theorem Run.recorded (ids : ∀ k, env.uuid k ≠ "default".toList)
    (apart : ∀ n, Apart (cfg.node n).lvm.thinpool) (recorded : Recorded start.world)
    (reached : Run env cfg hops start s) : Recorded s.world := by
  induction reached with
  | refl => exact recorded
  | ensure fails rootfsSrc n _ ih => exact ih
  | act a _ ih => exact (spared_of_walks ids (action_walks apart hops a) ih).2

end Runs

/-- In every run, no request and no pass removes the thin pool, the base image or the default image
of a node. -/
theorem reserved_stay (env : Env) (ids : ∀ k, env.uuid k ≠ "default".toList) (cfg : Settings)
    (apart : ∀ n, Apart (cfg.node n).lvm.thinpool) (hops : Nat) (start : Site)
    (recorded : Recorded start.world) (s : Site) (reached : Run env cfg hops start s) (a : Action) :
    Spared env cfg.node (a.program cfg.node hops) s.world :=
  (spared_of_walks ids (action_walks apart hops a) (reached.recorded ids apart recorded)).1

/-! ## One node -/

/-- The sample node, with a thin pool of this name. -/
def named (pool : Str) : Settings where
  node _ := { Sample.config with lvm := { Sample.config.lvm with thinpool := pool } }
  pool _ := ⟨{ Sample.config.lvm with thinpool := pool }, "/node", 20, 4096, false⟩
  same _ := rfl

/-- A node before its first start. -/
def bare : Site where
  world := { Sample.fresh with hosts := fun _ => Host.empty }
  machines _ := Machine.empty

def started (pool : Str) : Site := bare.ensure (named pool) (fun _ => false) "rootfs.ext4" "n1"

theorem started_reached (pool : Str) (env : Env) : Run env (named pool) 0 bare (started pool) :=
  .ensure _ _ _ .refl

theorem bare_recorded : Recorded bare.world := by
  intro r there
  cases there

theorem apart_pool (n : Id) : Apart ((named "pool").node n).lvm.thinpool := by
  change Apart "pool"
  decide

theorem pool_stays : Spared Sample.env (named "pool").node
    (Action.program (named "pool").node 0 (.reconcile "n1"))
    (started "pool").world :=
  reserved_stay Sample.env Sample.custom_ids (named "pool") apart_pool 0 bare bare_recorded _
    (started_reached "pool" Sample.env) (.reconcile "n1")

/-- A pool with a data volume's prefix goes in the first pass. -/
theorem data_pool_removed : Run Sample.env (named "data-pool") 0 bare (started "data-pool") ∧
    ¬ Spared Sample.env (named "data-pool").node
      (Action.program (named "data-pool").node 0 (.reconcile "n1"))
        (started "data-pool").world := by
  refine ⟨started_reached _ _, fun spared => ?_⟩
  have stays := spared.stay "n1" "nyc-n1" "data-pool" (by decide) (by decide +kernel)
  revert stays
  decide +kernel

end Nyc.PoolSafety
