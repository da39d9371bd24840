import Nyc.Client.Footprint
import Nyc.Cluster
import Nyc.Properties.Forwarding

/-!
# Where a request is served

A node-bound request is handed on at most once, and its local handler runs on one node: the
owner of what the request names, else the node that it asks for, else the one that is drawn,
else the one where it arrives. All that it writes lies on that node. `POST /vms` is the
exception: it asks no one for the owner of the data volume that it names.
-/

namespace Nyc

open Data Effects Effects.Program Client

/-- The volume group that a command works in. -/
def Client.LvmCmd.vg : LvmCmd → Str
  | .lvs _ vg | .createThin vg _ _ _ | .snapshot vg _ _ _ | .remove vg _ | .extend vg _ _
  | .resize2fs vg _ | .mkfs vg _ => vg

/-- A command on volumes stays in the group. -/
def Client.Cmd.OnGroup (vg : Str) : Cmd → Prop
  | .lvm c => c.vg = vg
  | _ => True

namespace Placement

/-- The operation writes rows of node `x`, runs commands on `x`, and works in the group of `x`. -/
def OnNode (cfg : Id → NodeConfig) (x : Id) : Op → World → Prop
  | .insert .volumes row, _ => row.nodeId = x
  | .insert .snapshots row, _ => row.nodeId = x
  | .insert .vms row, _ => row.nodeId = x
  | .insert .publicIps row, _ => row.nodeId = x
  | .insert .proxies row, _ => row.nodeId = x
  | .update .volumes p _, w => ∀ r ∈ w.db .volumes, p r = true → r.nodeId = x
  | .update .vms p _, w => ∀ r ∈ w.db .vms, p r = true → r.nodeId = x
  | .update .snapshots p _, w => ∀ r ∈ w.db .snapshots, p r = true → r.nodeId = x
  | .update .publicIps p _, w => ∀ r ∈ w.db .publicIps, p r = true → r.nodeId = x
  | .update .proxies p _, w => ∀ r ∈ w.db .proxies, p r = true → r.nodeId = x
  | .host nodeId c, _ => nodeId = x ∧ c.OnGroup ((cfg x).lvm.vgFor x)
  | _, _ => True

theorem OnNode.quiet (cfg : Id → NodeConfig) (x : Id) : Quiet (OnNode cfg x) where
  get t p w := by cases t <;> trivial
  getAll t p w := by cases t <;> trivial
  choice _ := trivial

/-- Operations of a handler on node `x` that update no row. -/
inductive Local (cfg : Id → NodeConfig) (x : Id) : Op → Prop where
  | get (t : Tbl) (p : t.Row → Bool) : Local cfg x (.get t p)
  | getAll (t : Tbl) (p : t.Row → Bool) : Local cfg x (.getAll t p)
  | uuid4 : Local cfg x .uuid4
  | now : Local cfg x .now
  | choice : Local cfg x .choice
  | host (c : Cmd) (within : c.OnGroup ((cfg x).lvm.vgFor x)) : Local cfg x (.host x c)
  | vpc (row : VpcRow) : Local cfg x (.insert .vpcs row)
  | volume (row : VolumeRow) (here : row.nodeId = x) : Local cfg x (.insert .volumes row)
  | snapshot (row : SnapshotRow) (here : row.nodeId = x) : Local cfg x (.insert .snapshots row)
  | publicIp (row : PublicIpRow) (here : row.nodeId = x) : Local cfg x (.insert .publicIps row)
  | proxy (row : ProxyRow) (here : row.nodeId = x) : Local cfg x (.insert .proxies row)
  | task (row : TaskRow) : Local cfg x (.insert .tasks row)
  | delete (t : Tbl) (p : t.Row → Bool) : Local cfg x (.delete t p)

/-- The VM with this id, if there is one, belongs to node `x`. -/
def VmOn (x vmId : Id) (w : World) : Prop := ∀ r ∈ w.db .vms, r.id = vmId → r.nodeId = x

/-- The volume with this id, if there is one, belongs to node `x`. -/
def VolumeOn (x volumeId : Id) (w : World) : Prop :=
  ∀ r ∈ w.db .volumes, r.id = volumeId → r.nodeId = x

section

variable {env : Env} {cfg : Id → NodeConfig} {x : Id} {w : World}

namespace Local

theorem onNode {o : Op} (h : Local cfg x o) : OnNode cfg x o w := by
  cases h with
  | get t p => exact (OnNode.quiet cfg x).get t p w
  | getAll t p => exact (OnNode.quiet cfg x).getAll t p w
  | host c within => exact ⟨rfl, within⟩
  | volume row here => exact here
  | snapshot row here => exact here
  | publicIp row here => exact here
  | proxy row here => exact here
  | delete t p => cases t <;> trivial
  | uuid4 | now | choice | vpc | task => trivial

theorem vmOn {o : Op} (h : Local cfg x o) {vmId : Id} (on : VmOn x vmId w) :
    VmOn x vmId (exec env o w).2 := by
  cases h with
  | delete t p =>
    intro r there
    by_cases vms : t = .vms
    · subst vms
      rw [exec_delete, tick_db, setTable_self, Table.mem_delete] at there
      exact on r there.1
    · rw [exec_frame env w .vms (.delete t p) vms] at there
      exact on r there
  | _ =>
    intro r there
    rw [exec_frame env w .vms _ (by simp [Op.writes])] at there
    exact on r there

theorem volumeOn {o : Op} (h : Local cfg x o) {volumeId : Id} (on : VolumeOn x volumeId w) :
    VolumeOn x volumeId (exec env o w).2 := by
  cases h with
  | delete t p =>
    intro r there
    by_cases volumes : t = .volumes
    · subst volumes
      rw [exec_delete, tick_db, setTable_self, Table.mem_delete] at there
      exact on r there.1
    · rw [exec_frame env w .volumes (.delete t p) volumes] at there
      exact on r there
  | volume row here =>
    intro r there same
    cases inserted : (w.db .volumes).insert row with
    | none =>
      rw [exec_insert_none env w .volumes row inserted] at there
      exact on r there same
    | some rows =>
      rw [exec_insert_some env w .volumes row inserted, tick_db, setTable_self] at there
      rcases (Table.mem_insert inserted).mp there with old | rfl
      · exact on r old same
      · exact here
  | _ =>
    intro r there
    rw [exec_frame env w .volumes _ (by simp [Op.writes])] at there
    exact on r there

end Local

/-- All that the program does lies on node `x`. -/
abbrev Stays (env : Env) (cfg : Id → NodeConfig) (x : Id) {α : Type} (p : Py α) (w : World) :
    Prop :=
  wp (checked (exec env) (OnNode cfg x)) p (fun _ _ => True) w

theorem stays_then {α β : Type} {p : Py α} {f : α → Py β} (J : World → Prop)
    (keeps : ∀ o w, Local cfg x o → J w → J (exec env o w).2) (h : Only (Local cfg x) p)
    (holds : J w)
    (rest : ∀ a w', J w' → Stays env cfg x (f a) w') : Stays env cfg x (p >>= f) w := by
  apply checked_keeps_then (exec env) (OnNode cfg x) J _ keeps h holds _ rest
  · intro o w ok _
    exact ok.onNode
  · intro _ _ _
    trivial

theorem stays_of_local {α : Type} {p : Py α} (h : Only (Local cfg x) p) (w : World) :
    Stays env cfg x p w :=
  checked_keeps (exec env) (OnNode cfg x) (fun _ => True) (fun _ _ ok _ => ok.onNode)
    (fun _ _ _ _ => trivial) h trivial

theorem stays_first {α β : Type} {p : Py α} {f : α → Py β} (h : Only (Local cfg x) p)
    (rest : ∀ a w', Stays env cfg x (f a) w') : Stays env cfg x (p >>= f) w :=
  stays_then (fun _ => True) (fun _ _ _ _ => trivial) h trivial fun a w' _ => rest a w'

/-- A program that ends in a value does as much. -/
theorem stays_andReturn {α β : Type} {p : Py α} {f : α → β} (h : Stays env cfg x p w) :
    Stays env cfg x (p >>= fun a => pure (f a)) w := by
  refine checked_bind _ _ (fun _ _ => True) ?_ fun _ _ _ => trivial
  refine checked_mono _ _ _ _ _ ?_ w h
  rintro (e | _) w' _ <;> trivial

/-- The status of a VM of node `x`. -/
theorem stays_status {β : Type} {f : Nat → Py β} {vmId : Id} (st : VmStatus) (on : VmOn x vmId w)
    (rest : ∀ n w', VmOn x vmId w' → Stays env cfg x (f n) w') :
    Stays env cfg x (update .vms (fun r => r.id = vmId) (fun r => { r with
      status := st }) >>= f) w := by
  rw [Stays, wp_bind, update, wp_perform]
  refine ⟨fun r there named => on r there (of_decide_eq_true named), ?_⟩
  obtain ⟨rows, updated, same⟩ := exec_update env w .vms (fun r => r.id = vmId)
    (fun r => { r with status := st }) (by
      intro col there r
      obtain rfl := List.mem_singleton.mp there
      rfl)
  rw [same]
  refine rest _ _ fun r there named => ?_
  rw [tick_db, setTable_self] at there
  obtain ⟨r', there', rfl⟩ := (Table.mem_update updated).mp there
  split at named
  next hit =>
    rw [if_pos hit]
    exact on r' there' named
  next miss =>
    rw [if_neg miss]
    exact on r' there' named

end

/-! ## Client programs -/

section

variable {vg : Str}

theorem onGroup_lvm {c : LvmCmd} (same : c.vg = vg) : Only (Cmd.OnGroup vg) (lvm c) := .lvm same

theorem onGroup_create (pool name : Str) (sizeMb : Int) :
    Only (Cmd.OnGroup vg) (Create.run vg pool name sizeMb) := by
  apply Only.bind (.bind (onGroup_lvm rfl) fun _ => .pure _)
  intro _
  exact .bind (onGroup_lvm rfl) fun _ => .pure _

theorem onGroup_snapshot (origin name : Str) : Only (Cmd.OnGroup vg) (Lv.snapshot vg origin name) :=
  .bind (onGroup_lvm rfl) fun _ => .pure _

theorem onGroup_clone (origin name : Str) : Only (Cmd.OnGroup vg) (Lv.clone vg origin name) :=
  .bind (onGroup_lvm rfl) fun _ => .pure _

theorem onGroup_extend (name : Str) (sizeMb : Int) :
    Only (Cmd.OnGroup vg) (Lv.extend vg name sizeMb) :=
  .bind (onGroup_lvm rfl) fun _ => onGroup_lvm rfl

theorem onGroup_remove (name : Str) : Only (Cmd.OnGroup vg) (Lv.remove vg name) :=
  (Lv.remove_only vg name).mono fun c h => by cases h <;> exact rfl

theorem onGroup_down (vmId : Id) : Only (Cmd.OnGroup vg) (VmDown.run vmId vg) :=
  (VmDown.run_only vmId vg).mono fun c h => by cases h <;> first | exact rfl | trivial

theorem onGroup_up (spec : VmSpec) : Only (Cmd.OnGroup spec.vg) (VmUp.run spec) :=
  (VmUp.run_only spec).mono fun c h => by cases h <;> first | exact rfl | trivial

theorem onGroup_kill (vmId : Id) : Only (Cmd.OnGroup vg) (VmStop.run vmId) :=
  (Kill.run_only vmId vg).mono fun c h => by cases h <;> first | exact rfl | trivial

theorem onGroup_start (vmId ns : Str) : Only (Cmd.OnGroup vg) (VmStart.run vmId ns) := by
  apply Only.bind (.dir trivial)
  intro _
  exact .bind (.perform trivial) fun _ => .dir trivial

theorem onGroup_status (vmId : Id) : Only (Cmd.OnGroup vg) (Status.run vmId) :=
  Status.run_only vmId trivial trivial fun _ => trivial

end

/-! ## Local handlers -/

section

variable {env : Env} {cfg : Id → NodeConfig} {x : Id} {w : World}

/-- The node `x`. -/
abbrev at_ (cfg : Id → NodeConfig) (x : Id) : Node := ⟨x, cfg x⟩

/-- A client program that works in the group of `x` is run on `x`. -/
theorem local_sh {α : Type} {p : Sh α} (h : Only (Cmd.OnGroup ((cfg x).lvm.vgFor x)) p) :
    Only (Local cfg x) ((at_ cfg x).sh p) :=
  .sh (at_ cfg x) (h.mono fun c within => .host c within)

theorem local_orHttp {α : Type} (r : Option α) (code : Nat) (detail : Str) :
    Only (Local cfg x) (orHttp r code detail) := by
  cases r <;> exact trivial

theorem local_refuseIf (c : Bool) (code : Nat) (detail : Str) :
    Only (Local cfg x) (refuseIf c code detail) := .whenTrue fun _ => .throw _

theorem local_lookup {t : Tbl} (p : t.Row → Bool) (code : Nat) (detail : Str) :
    Only (Local cfg x) (do orHttp (← get t p) code detail) :=
  .bind (.get (.get t p)) fun _ => local_orHttp ..

theorem local_usedIps (vpcId : Id) : Only (Local cfg x) (Vms.usedIps vpcId) :=
  .bind (.getAll (.getAll ..)) fun _ => .pure _

theorem local_usedAddresses (nodeId : Id) : Only (Local cfg x) (PublicIps.usedAddresses nodeId) :=
  .bind (.getAll (.getAll ..)) fun _ => .pure _

theorem local_nodeHost (nodeId : Id) : Only (Local cfg x) (Peers.nodeHost nodeId) :=
  .bind (.get (.get ..)) fun row => by cases row <;> exact trivial

theorem local_peerHosts (nodeId : Id) : Only (Local cfg x) (Peers.peerHosts nodeId) :=
  .bind (.getAll (.getAll ..)) fun _ => .pure _

theorem local_ensureDefaultVpc : Only (Local cfg x) Defaults.ensureDefaultVpc := by
  refine .bind (.get (.get ..)) fun vpc => ?_
  cases vpc with
  | some vpc => exact .pure _
  | none =>
    refine .bind (.uuid4 .uuid4) fun _ => .bind (.now .now) fun _ => .tryCatch
      (.bind (.insert (.vpc _)) fun _ => .pure _) fun _ => .ite (fun _ => ?_) fun _ => .throw _
    exact .bind (.get (.get ..)) fun vpc => by cases vpc <;> exact trivial

/-- The VM of an id, once a row with the id was found on the node. -/
theorem vmOn_of_found {vmId : Id} {row : VmRow} (found : Api.vmOf w.db vmId = some row)
    (here : row.nodeId = x) : VmOn x vmId w := by
  obtain ⟨there, named⟩ := Table.get_some found
  intro r there' named'
  have same : r = row := Table.eq_of_key _ VmRow.id List.mem_cons_self there' there
    (by rw [named', of_decide_eq_true named])
  exact same ▸ here

theorem volumeOn_of_found {volumeId : Id} {row : VolumeRow}
    (found : Api.volumeOf w.db volumeId = some row)
    (here : row.nodeId = x) : VolumeOn x volumeId w := by
  obtain ⟨there, named⟩ := Table.get_some found
  intro r there' named'
  have same : r = row := Table.eq_of_key _ VolumeRow.id List.mem_cons_self there' there
    (by rw [named', of_decide_eq_true named])
  exact same ▸ here

theorem vmOn_of_bound {vmId : Id}
    (bound : ∀ o, (Api.vmOf w.db vmId).map VmRow.nodeId = some o → o = x) :
    VmOn x vmId w := by
  cases found : Api.vmOf w.db vmId with
  | some row => exact vmOn_of_found found (bound _ (by rw [found, Option.map_some]))
  | none =>
    intro r there named
    have differs := Table.get_none.mp found r there
    exact absurd named (of_decide_eq_false differs)

/-- A new VM of the node: its id names no VM of another node. -/
theorem stays_insertVm {β : Type} {f : Unit → Py β} (row : VmRow) (here : row.nodeId = x)
    (rest : ∀ w', VmOn x row.id w' → Stays env cfg x (f ()) w') :
    Stays env cfg x (insert .vms row >>= f) w := by
  rw [Stays, wp_bind, insert, wp_perform]
  refine ⟨here, ?_⟩
  cases inserted : (w.db .vms).insert row with
  | none =>
    rw [exec_insert_none env w .vms row inserted]
    trivial
  | some rows =>
    rw [exec_insert_some env w .vms row inserted]
    refine rest _ fun r there named => ?_
    rw [tick_db, setTable_self, Table.mem_insert inserted] at there
    rcases there with old | rfl
    · have clash : ∃ a ∈ w.db .vms, Clash Tbl.vms.unique a row :=
        ⟨r, old, _, List.mem_cons_self, Option.some_ne_none _, congrArg some named⟩
      exact absurd (Table.insert_none.mpr clash) (inserted ▸ Option.some_ne_none _)
    · exact here

theorem stays_bringUp (row : VmRow) (cidr : Str) (volPath : Option Path) (key : Option Str)
    (origin : Str) (here : row.nodeId = x) (on : VmOn x row.id w) :
    Stays env cfg x (Vms.bringUp (at_ cfg x) row cidr volPath key origin) w := by
  have keeps : ∀ o w, Local cfg x o → VmOn x row.id w → VmOn x row.id (exec env o w).2 :=
    fun o w h on => h.vmOn on
  simp only [Vms.bringUp, Vms.spec, LawfulMonad.bind_assoc, pure_bind]
  refine stays_then (VmOn x row.id) keeps (.get (.get ..)) on fun pip w on => ?_
  refine stays_then (VmOn x row.id) keeps (local_nodeHost _) on fun host w on => ?_
  refine stays_then (VmOn x row.id) keeps (local_peerHosts _) on fun peers w on => ?_
  refine stays_then (VmOn x row.id) keeps (local_sh ?_) on fun _ w on => ?_
  · -- The spec's group is that of the row's node, which is this one.
    subst here
    exact onGroup_up _
  · exact stays_status .running on fun _ _ _ => trivial

theorem stays_setStatus (vmId : Id) (st : VmStatus) (on : VmOn x vmId w) :
    Stays env cfg x (Vms.setStatus vmId st) w :=
  stays_status st on fun _ w' _ => stays_of_local (.bind (.get (.get ..)) fun row =>
    .bind (by cases row <;> exact trivial) fun _ => .pure _) w'

theorem stays_recreateVm (vmId : Id) (on : VmOn x vmId w) :
    Stays env cfg x (Vms.recreateVm (at_ cfg x) vmId) w := by
  have keeps : ∀ o w, Local cfg x o → VmOn x vmId w → VmOn x vmId (exec env o w).2 :=
    fun o w h on => h.vmOn on
  rw [Vms.recreateVm, Stays, wp_bind, wp_quietGet env (OnNode.quiet cfg x), onValue_ok, wp_whenSome]
  cases found : Api.vmOf w.db vmId with
  | none =>
    rw [Api.vmOf] at found
    rw [found]
    trivial
  | some d =>
    obtain ⟨there, named⟩ := Table.get_some found
    have same : d.id = vmId := of_decide_eq_true named
    have here : d.nodeId = x := on d there same
    rw [Api.vmOf] at found
    rw [found]
    refine stays_then (w := w.tick) (VmOn x vmId) keeps (local_sh (here ▸ onGroup_down vmId)) on
      fun _ w on => ?_
    refine stays_then (VmOn x vmId) keeps (.get (.get ..)) on fun vpc w on => ?_
    cases vpc with
    | none => trivial
    | some vpc =>
      refine stays_then (VmOn x vmId) keeps ?_ on fun path w on => ?_
      · exact .ite (fun _ => .bind (.get (.get ..)) fun _ => .pure _) fun _ => .pure _
      · exact stays_bringUp d _ _ _ _ here (same ▸ on)

theorem stays_createLocal (body : VmIn) (w : World) :
    Stays env cfg x (Vms.createLocal (at_ cfg x) body x) w := by
  refine stays_first (local_lookup _ _ _) fun vpc w => ?_
  refine stays_first ?_ fun path w => ?_
  · exact .ite (fun _ => .bind (.bind (local_lookup _ _ _) fun _ => .pure _) fun _ => .pure _)
      fun _ => .pure _
  refine stays_first (local_usedIps _) fun used w => ?_
  refine stays_first (.fromExcept _) fun ip w => ?_
  refine stays_first (.uuid4 .uuid4) fun vmId w => ?_
  refine stays_first (.now .now) fun time w => ?_
  refine stays_insertVm (Vms.newRow (at_ cfg x) body x ip vmId time) rfl fun w on => ?_
  exact stays_andReturn (stays_bringUp _ _ _ _ _ rfl on)

/-- Whatever `preBringUp` does on the node, a spawn stays there. -/
theorem stays_spawnLocal (body : SpawnIn) (preBringUp : Id → Py Unit)
    (pre : ∀ vmId, Only (Local cfg x) (preBringUp vmId)) (w : World) :
    Stays env cfg x (Vms.spawnLocal (at_ cfg x) body x preBringUp) w := by
  refine stays_first local_ensureDefaultVpc fun vpc w => ?_
  refine stays_first ?_ fun origin w => ?_
  · exact .ite (fun _ => .bind (local_lookup _ _ _) fun _ => .bind (local_refuseIf ..) fun _ =>
      .bind (local_refuseIf ..) fun _ => .pure _) fun _ => .pure _
  refine stays_first ?_ fun vol w => ?_
  · refine .bind (.uuid4 .uuid4) fun _ => .bind ?_ fun _ => .bind (.now .now) fun _ =>
      .bind (.insert (.volume _ rfl)) fun _ => .pure _
    exact .ite (fun _ => .bind (local_lookup _ _ _) fun _ => .bind (local_refuseIf ..) fun _ =>
      .bind (local_sh (onGroup_clone _ _)) fun _ => .pure _) fun _ =>
      .bind (local_sh (onGroup_create _ _ _)) fun _ => .pure _
  refine stays_first (local_usedIps _) fun used w => ?_
  refine stays_first (.fromExcept _) fun ip w => ?_
  refine stays_first (.uuid4 .uuid4) fun vmId w => ?_
  refine stays_first (.now .now) fun time w => ?_
  refine stays_insertVm (Vms.spawnRow body x vpc.id ip vol.id vmId time) rfl fun w on => ?_
  refine stays_then (VmOn x vmId) (fun o w h on => h.vmOn on) (pre vmId) on fun _ w on => ?_
  exact stays_andReturn (stays_bringUp _ _ _ _ _ rfl on)

/-- The handler of a request that is bound to `x`, or to no node, stays on `x`. -/
theorem handler_stays (req : Request) (bound : ∀ o, Api.boundTo w.db req = some o → o = x) :
    Stays env cfg x (Api.handler (at_ cfg x) w.db req) w := by
  have missing {ρ : Type} (row : Option ρ) (f : ρ → Py Response)
      (some : ∀ r, row = some r → Stays env cfg x (f r) w) :
      Stays env cfg x (Api.handler.onRow row f) w := by
    cases row with
    | none => exact trivial
    | some r => exact some r rfl
  have on {ρ : Type} {row : Option ρ} {node : ρ → Id}
      (bound : ∀ o, row.map node = some o → o = x) : ∀ r, row = some r → node r = x :=
    fun r found => bound _ (by rw [found, Option.map_some])
  have deleteLv (rid : Id) (row : SnapshotRow) (here : row.nodeId = x) :
      Stays env cfg x (Api.handler.deleteLv (at_ cfg x) rid row) w :=
    stays_of_local (.bind (local_sh (here ▸ onGroup_remove _)) fun _ =>
      .bind (.delete (.delete ..)) fun _ => .pure _) w
  have start (vmId : Id) (w : World) (on : VmOn x vmId w) :
      Stays env cfg x (Vms.startLocal (at_ cfg x) vmId) w :=
    stays_then (VmOn x vmId) (fun _ _ h on => h.vmOn on) (local_sh (onGroup_start _ _)) on
      fun _ _ on => stays_setStatus vmId .running on
  cases req with
  | createVolume body =>
    refine stays_of_local (.bind (.uuid4 .uuid4) fun _ => .bind ?_ fun _ =>
      .bind (.now .now) fun _ =>
      .bind (.insert (.volume _ rfl)) fun _ => .pure _) w
    exact .ite (fun _ => .bind (.get (.get ..)) fun _ => .bind (local_orHttp ..) fun _ =>
      .bind (local_sh (onGroup_clone _ _)) fun _ => .pure _) fun _ =>
      .bind (local_sh (onGroup_create _ _ _)) fun _ => .pure _
  | resizeVolume volumeId body =>
    refine missing _ _ fun row found => ?_
    have here := on bound row found
    have named : row.id = volumeId := of_decide_eq_true (Table.get_some found).2
    refine stays_then (VolumeOn x volumeId) (fun _ _ h on => h.volumeOn on)
      (local_sh (here ▸ onGroup_extend _ _)) (volumeOn_of_found found here) fun _ w on => ?_
    rw [Stays, wp_bind, update, wp_perform]
    exact ⟨fun r there same => on r there ((of_decide_eq_true same).trans named), by
      cases (exec env _ w).1 <;> trivial⟩
  | deleteVolume volumeId =>
    refine missing _ _ fun row found => stays_of_local ?_ w
    apply Only.bind (.get (.get ..))
    intro vm
    apply Only.bind (local_refuseIf ..)
    intro _
    apply Only.bind (local_sh (on bound row found ▸ onGroup_remove _))
    intro _
    exact .bind (.delete (.delete ..)) fun _ => .pure _
  | createSnapshot body =>
    refine missing _ _ fun src found => stays_of_local ?_ w
    have here := on bound src found
    apply Only.bind (.uuid4 .uuid4)
    intro id
    apply Only.bind (local_sh (here ▸ onGroup_snapshot _ _))
    intro _
    apply Only.bind (.now .now)
    intro time
    exact .bind (.insert (.snapshot _ here)) fun _ => .pure _
  | createImage body =>
    refine missing _ _ fun snap found => stays_of_local ?_ w
    have here := on bound snap found
    apply Only.bind (.uuid4 .uuid4)
    intro id
    apply Only.bind (local_sh (here ▸ onGroup_snapshot _ _))
    intro _
    apply Only.bind (.now .now)
    intro time
    exact .bind (.insert (.snapshot _ here)) fun _ => .pure _
  | deleteSnapshot snapshotId =>
    exact missing _ _ fun row found => deleteLv _ row (on bound row found)
  | deleteImage imageId => exact missing _ _ fun row found => deleteLv _ row (on bound row found)
  | createVm body => exact stays_createLocal body w
  | spawnVm body pin =>
    exact stays_andReturn (stays_spawnLocal body _ (fun _ => .pure _) w)
  | getVm vmId =>
    exact missing _ _ fun row _ => stays_of_local (.bind (local_sh (onGroup_status _))
      fun _ => .pure _) w
  | deleteVm vmId =>
    refine stays_of_local (.bind ?_ fun _ => .bind (local_sh (onGroup_down _)) fun _ =>
      .bind (.delete (.delete ..)) fun _ => .pure _) w
    apply Only.bind (.bind (.get (.get ..)) fun _ => .whenSome fun _ _ =>
      .bind (.delete (.delete ..)) fun _ => .pure _)
    intro _
    apply Only.bind (.delete (.delete ..))
    intro _
    apply Only.bind (.get (.get ..))
    intro row
    exact .whenSome fun _ _ => .bind (.delete (.delete ..)) fun _ => .pure _
  | stopVm vmId =>
    exact stays_then (VmOn x vmId) (fun _ _ h on => h.vmOn on) (local_sh (onGroup_kill _))
      (vmOn_of_bound bound) fun _ _ on => stays_setStatus vmId .stopped on
  | startVm vmId => exact start vmId w (vmOn_of_bound bound)
  | rebootVm vmId =>
    -- A stop first: its status update and its re-read leave the VM on the node.
    have stop : Stays env cfg x (Vms.stopLocal (at_ cfg x) vmId >>= fun _ =>
        Vms.startLocal (at_ cfg x) vmId) w := by
      rw [Vms.stopLocal, LawfulMonad.bind_assoc]
      refine stays_then (VmOn x vmId) (fun _ _ h on => h.vmOn on) (local_sh (onGroup_kill _))
        (vmOn_of_bound bound) fun _ w on => ?_
      rw [Vms.setStatus, LawfulMonad.bind_assoc]
      refine stays_status .stopped on fun _ w on => ?_
      rw [LawfulMonad.bind_assoc]
      refine stays_then (VmOn x vmId) (fun _ _ h on => h.vmOn on) (.get (.get ..)) on
        fun row w on => ?_
      rw [LawfulMonad.bind_assoc]
      refine stays_then (VmOn x vmId) (fun _ _ h on => h.vmOn on) ?_ on
        fun _ w on => start vmId w on
      cases row <;> exact trivial
    exact stop
  | attachPublicIp vmId =>
    refine missing _ _ fun vm found => ?_
    have named : vm.id = vmId := of_decide_eq_true (Table.get_some found).2
    have on' : VmOn x vm.id w := named ▸ vmOn_of_bound bound
    have keeps : ∀ o w, Local cfg x o → VmOn x vm.id w → VmOn x vm.id (exec env o w).2 :=
      fun _ _ h on => h.vmOn on
    refine stays_then (VmOn x vm.id) keeps (local_usedAddresses _) on' fun used w on => ?_
    refine stays_then (VmOn x vm.id) keeps (.fromExcept _) on fun entry w on => ?_
    refine stays_then (VmOn x vm.id) keeps (.uuid4 .uuid4) on fun pipId w on => ?_
    refine stays_then (VmOn x vm.id) keeps (.now .now) on fun time w on => ?_
    refine stays_then (VmOn x vm.id) keeps (.insert (.publicIp _ rfl)) on fun _ w on => ?_
    exact stays_andReturn (stays_recreateVm vm.id on)
  | detachPublicIp vmId =>
    have keeps : ∀ o w, Local cfg x o → VmOn x vmId w → VmOn x vmId (exec env o w).2 :=
      fun _ _ h on => h.vmOn on
    refine stays_then (VmOn x vmId) keeps (.get (.get ..)) (vmOn_of_bound bound) fun pip w on => ?_
    refine stays_andReturn ?_
    cases pip with
    | none => trivial
    | some pip =>
      exact stays_then (VmOn x vmId) keeps (.delete (.delete ..)) on fun _ _ on =>
        stays_recreateVm vmId on
  | createVpc | deleteVpc | createDomain | deleteDomain | createProxy | createTask | reconcileNow =>
    trivial

end

/-! ## The way of a request -/

section

open Api

/-- The endpoint answers by itself: it makes no difference what other nodes would answer. -/
def ServedHere (env : Env) (self : Node) (req : Request) (w : World) : Prop :=
  ∀ serve serve' : Id → Request → Py Response,
    run (exec env) (endpoint self (forward serve) req) w =
      run (exec env) (endpoint self (forward serve') req) w

/-- The endpoint's answer is what node `target` answers to `req'`, whatever that is. -/
def HandedOn (env : Env) (self : Node) (req : Request) (w : World) (target : Id) (req' : Request)
    (w' : World) : Prop :=
  ∀ serve : Id → Request → Py Response,
    run (exec env) (endpoint self (forward serve) req) w = run (exec env)
      (remote (serve target req')) w'

/-- The nodes that a request comes to, one after the other. -/
inductive Goes (env : Env) (cfg : Id → NodeConfig) : Id → Request → World → List Id → Prop where
  | here {nodeId : Id} {req : Request} {w : World} :
    ServedHere env ⟨nodeId, cfg nodeId⟩ req w → Goes env cfg nodeId req w [nodeId]
  | on {nodeId target : Id} {req req' : Request} {w w' : World} {path : List Id} :
    HandedOn env ⟨nodeId, cfg nodeId⟩ req w target req' w' → Goes env cfg target req' w' path →
    Goes env cfg nodeId req w (nodeId :: path)

variable {env : Env} {cfg : Id → NodeConfig} {w : World}

theorem run_remote_pure (response : Response) (w : World) :
    run (exec env) (remote (pure response)) w = (.ok response, w) := rfl

/-- What tells apart the nodes, and the requests, that a request could be handed to. -/
def mark (nodeId : Id) : Response := .report nodeId ⟨[], ⟨0, 0, []⟩, ⟨0, 0, []⟩, ⟨0, 0, []⟩, []⟩

theorem mark_injective {a b : Id} (same : mark a = mark b) : a = b := by
  simp only [mark, Response.report.injEq, and_true] at same
  exact same

theorem not_both {self : Node} {req req' : Request} {target : Id} {w' : World}
    (here : ServedHere env self req w) (on : HandedOn env self req w target req' w') : False := by
  have same := here (fun _ _ => pure (mark "a")) (fun _ _ => pure (mark "b"))
  rw [on, on, run_remote_pure, run_remote_pure] at same
  have marks := mark_injective (Except.ok.inj (congrArg Prod.fst same))
  exact absurd marks (by decide)

theorem handedOn_unique {self : Node} {req req₁ req₂ : Request} {target₁ target₂ : Id}
    {w₁ w₂ : World} (first : HandedOn env self req w target₁ req₁ w₁)
    (second : HandedOn env self req w target₂ req₂ w₂) :
    target₁ = target₂ ∧ req₁ = req₂ ∧ w₁ = w₂ := by
  classical
  have nodes := (first fun n _ => pure (mark n)).symm.trans (second fun n _ => pure (mark n))
  have requests := (first fun _ r => pure (mark (if r = req₁ then "a" else "b"))).symm.trans
    (second fun _ r => pure (mark (if r = req₁ then "a" else "b")))
  rw [run_remote_pure, run_remote_pure] at nodes requests
  refine ⟨mark_injective (Except.ok.inj (congrArg Prod.fst nodes)), ?_, congrArg Prod.snd nodes⟩
  have marks := mark_injective (Except.ok.inj (congrArg Prod.fst requests))
  rw [if_pos rfl] at marks
  by_contra differ
  rw [if_neg (Ne.symm differ)] at marks
  exact absurd marks (by decide)

/-- A request has one way only. -/
theorem goes_unique {nodeId : Id} {req : Request} {path path' : List Id}
    (first : Goes env cfg nodeId req w path) (second : Goes env cfg nodeId req w path') :
    path = path' := by
  induction first generalizing path' with
  | here served =>
    cases second with
    | here _ => rfl
    | on handed _ => exact (not_both served handed).elim
  | on handed _ ih =>
    cases second with
    | here served => exact (not_both served handed).elim
    | on handed' rest =>
      obtain ⟨rfl, rfl, rfl⟩ := handedOn_unique handed handed'
      rw [ih rest]

/-! ## The three ends of an endpoint -/

variable {nodeId : Id} {req : Request}

/-- Refused with a status of its own; a crash has the status 500. -/
def Refused : Except Exn Response → Prop
  | .error (.http code _) => code ≠ 500
  | _ => False

/-- The request comes to at most two nodes; unless it is refused, the last is `x`, and all that is
done lies there. -/
structure Lands (env : Env) (cfg : Id → NodeConfig) (hops : Nat) (nodeId : Id) (req : Request)
    (w : World) (x : Id) : Prop where
  way : Goes env cfg nodeId req w (if nodeId = x then [nodeId] else [nodeId, x])
  stays : ∀ a ∈ trail (exec env) (serve cfg (hops + 1) nodeId req) w, OnNode cfg x a.1 a.2

theorem trail_of_stays {x : Id} {α : Type} {p : Py α} (stays : Stays env cfg x p w) :
    ∀ a ∈ trail (exec env) p w, OnNode cfg x a.1 a.2 := ((wp_checked _ _ _ _ _).mp stays).1

/-- Lookups come first, and lie on every node. -/
theorem Stays.of_runsAs {x : Id} {α : Type} {p q : Py α} {w' : World} (runs : RunsAs env p w q w')
    (stays : Stays env cfg x q w') : Stays env cfg x p w := by
  rw [Stays, runs _ (OnNode.quiet cfg x)]
  exact stays

/-- The endpoint calls its local handler. -/
theorem lands_here (hops k : Nat) (bound : ∀ o, boundTo w.db req = some o → o = nodeId)
    (runs : ∀ forward, RunsAs env (endpoint ⟨nodeId, cfg nodeId⟩ forward req) w
      (handler ⟨nodeId, cfg nodeId⟩ w.db req) (w.ticks k)) :
    Lands env cfg hops nodeId req w nodeId where
  way := by
    rw [if_pos rfl]
    exact .here fun serve serve' => (runs _).run_eq.trans (runs _).run_eq.symm
  stays := trail_of_stays (.of_runsAs (runs _) (handler_stays (w := w.ticks k) req bound))

theorem found_of_registered {x : Id} (registered : ∃ row ∈ w.db .nodes, row.nodeId = x) :
    ∃ row, (w.db .nodes).get (fun r => r.nodeId = x) = some row ∧ row.nodeId = x := by
  cases found : (w.db .nodes).get fun r => r.nodeId = x with
  | none =>
    obtain ⟨row, member, same⟩ := registered
    exact absurd same (of_decide_eq_false (Table.get_none.mp found row member))
  | some row => exact ⟨row, rfl, of_decide_eq_true (Table.get_some found).2⟩

/-- The endpoint hands the request on to a node that is registered, and bound to it. -/
theorem lands_there (hops k : Nat) {x : Id} {req' : Request} (other : nodeId ≠ x)
    (registered : ∃ row ∈ w.db .nodes, row.nodeId = x) (bound : boundTo w.db req' = some x)
    (runs : ∀ forward, RunsAs env (endpoint ⟨nodeId, cfg nodeId⟩ forward req) w
      (forward x req') (w.ticks k)) :
    Lands env cfg hops nodeId req w x ∧
      run (exec env) (serve cfg (hops + 1) nodeId req) w =
        (relayed (run (exec env) (handler ⟨x, cfg x⟩ w.db req')
            ((w.ticks (k + 1)).ticks (lookups req'))).1,
          (run (exec env) (handler ⟨x, cfg x⟩ w.db req')
            ((w.ticks (k + 1)).ticks (lookups req'))).2) := by
  obtain ⟨row, found, same⟩ := found_of_registered registered
  have sent (serve : Id → Request → Py Response) :
      RunsAs env (endpoint ⟨nodeId, cfg nodeId⟩ (forward serve) req) w
        (remote (serve x req')) (w.ticks (k + 1)) := by
    have look := runsAs_lookup env (w := w.ticks k) _ 404 ("unknown node " ++ x) found
      fun row => remote (serve row.nodeId req')
    rw [same] at look
    exact (runs (forward serve)).trans look
  have there : Lands env cfg hops x req' (w.ticks (k + 1)) x := by
    refine lands_here hops (lookups req') (fun o named => ?_) fun forward => ?_
    · exact Option.some.inj (named.symm.trans bound)
    · have runs := endpoint_runs env (w := w.ticks (k + 1)) ⟨x, cfg x⟩ req' bound forward
      rwa [if_neg (not_not.mpr rfl)] at runs
  have served := Forwarding.serve_here env cfg (w := w.ticks (k + 1)) hops bound
  refine ⟨⟨?_, trail_of_stays (.of_runsAs (sent (serve cfg hops)) ?_)⟩, ?_⟩
  · rw [if_neg other]
    have last := there.way
    rw [if_pos rfl] at last
    exact .on (fun serve => (sent serve).run_eq) last
  · -- `remote` only renames what its program raises.
    rw [remote, Stays, wp_tryCatch]
    have inner : Stays env cfg x (serve cfg hops x req') (w.ticks (k + 1)) :=
      .of_runsAs served (handler_stays (w := (w.ticks (k + 1)).ticks (lookups req'))
        req' fun o named =>
        Option.some.inj (named.symm.trans bound))
    refine checked_mono _ _ _ _ _ ?_ _ inner
    rintro (e | _) w' _ <;> trivial
  · have whole := (sent (serve cfg hops)).run_eq
    rw [Forwarding.run_remote env, served.run_eq] at whole
    exact whole

/-- The endpoint refuses, after lookups only. -/
theorem refused_here (hops k : Nat) {code : Nat} {detail : Str} (own : code ≠ 500)
    (runs : ∀ serve, RunsAs env (endpoint ⟨nodeId, cfg nodeId⟩ (forward serve) req) w
      (throw (.http code detail)) (w.ticks k)) :
    Goes env cfg nodeId req w [nodeId] ∧
      Refused (run (exec env) (serve cfg (hops + 1) nodeId req) w).1 ∧
      (run (exec env) (serve cfg (hops + 1) nodeId req) w).2 = w.ticks k := by
  refine ⟨.here fun serve serve' => (runs serve).run_eq.trans (runs serve').run_eq.symm, ?_⟩
  have whole := (runs (serve cfg hops)).run_eq
  rw [Api.serve, whole]
  exact ⟨own, rfl⟩

/-- Where the request comes to, and how it is answered there. -/
structure Arrives (env : Env) (cfg : Id → NodeConfig) (hops : Nat) (nodeId : Id) (req : Request)
    (w : World) (x : Id) : Prop where
  lands : Lands env cfg hops nodeId req w x
  node : x = nodeId ∨ ∃ row ∈ w.db .nodes, row.nodeId = x
  outcome : ∃ k, (run (exec env) (serve cfg (hops + 1) nodeId req) w).1 =
      (run (exec env) (handler ⟨x, cfg x⟩ w.db req) (w.ticks k)).1 ∨
    (run (exec env) (serve cfg (hops + 1) nodeId req) w).1 =
      relayed (run (exec env) (handler ⟨x, cfg x⟩ w.db req) (w.ticks k)).1

/-- Refused where it arrived, with no effect. -/
structure Refuses (env : Env) (cfg : Id → NodeConfig) (hops : Nat) (nodeId : Id) (req : Request)
    (w : World) : Prop where
  way : Goes env cfg nodeId req w [nodeId]
  refused : Refused (run (exec env) (serve cfg (hops + 1) nodeId req) w).1
  effect : ∃ k, (run (exec env) (serve cfg (hops + 1) nodeId req) w).2 = w.ticks k

theorem refuses (hops k : Nat) {code : Nat} (detail : Str) (own : code ≠ 500)
    (runs : ∀ serve, RunsAs env (endpoint ⟨nodeId, cfg nodeId⟩ (forward serve) req) w
      (throw (.http code detail)) (w.ticks k)) : Refuses env cfg hops nodeId req w := by
  obtain ⟨way, refused, effect⟩ := refused_here hops k own runs
  exact ⟨way, refused, k, effect⟩

/-- An endpoint that hands the request on to `t`, or serves it where `t` is its own node. -/
theorem arrives_or_refuses (hops k : Nat) {t : Id} (req' : Request)
    (runs : ∀ forward, RunsAs env (endpoint ⟨nodeId, cfg nodeId⟩ forward req) w
      (if t ≠ nodeId then forward t req' else handler ⟨nodeId, cfg nodeId⟩ w.db req) (w.ticks k))
    (here : t = nodeId → ∀ o, boundTo w.db req = some o → o = nodeId)
    (there : (∃ row ∈ w.db .nodes, row.nodeId = t) → t ≠ nodeId → boundTo w.db req' = some t)
    (same : handler ⟨t, cfg t⟩ w.db req' = handler ⟨t, cfg t⟩ w.db req) :
    Arrives env cfg hops nodeId req w t ∨
      Refuses env cfg hops nodeId req w ∧ t ≠ nodeId ∧ ¬ ∃ row ∈ w.db .nodes, row.nodeId = t := by
  by_cases own : t = nodeId
  · subst own
    simp only [ne_eq, not_true_eq_false, if_false] at runs
    refine .inl ⟨lands_here hops k (here rfl) runs, .inl rfl, k, .inl ?_⟩
    rw [Api.serve, (runs _).run_eq]
  · simp only [if_pos own] at runs
    by_cases registered : ∃ row ∈ w.db .nodes, row.nodeId = t
    · obtain ⟨lands, outcome⟩ := lands_there hops k (Ne.symm own) registered
        (there registered own) runs
      rw [same, ticks_ticks] at outcome
      exact .inl ⟨lands, .inr registered, _, .inr (congrArg Prod.fst outcome)⟩
    · refine .inr ⟨refuses hops (k + 1) ("unknown node " ++ t) (by decide : 404 ≠ 500)
        fun serve => (runs (forward serve)).trans ?_, own, registered⟩
      have unknown : (w.db .nodes).get (fun r => r.nodeId = t) = none := by
        refine Table.get_none.mpr fun row there => decide_eq_false fun same => ?_
        exact registered ⟨row, there, same⟩
      exact runsAs_missing env (w := w.ticks k) _ _ _ unknown _

/-- A request that its rows, its `node_id` or its images bind to a node. -/
theorem arrives_of_bound (hops : Nat) {o : Id} (bound : boundTo w.db req = some o) :
    Arrives env cfg hops nodeId req w o ∨
      Refuses env cfg hops nodeId req w ∧ o ≠ nodeId ∧ ¬ ∃ row ∈ w.db .nodes, row.nodeId = o := by
  refine arrives_or_refuses hops (lookups req) (handedTo o req) (fun forward => ?_) ?_ ?_ ?_
  · exact endpoint_runs env ⟨nodeId, cfg nodeId⟩ req bound forward
  · intro own o' bound'
    exact (Option.some.inj (bound'.symm.trans bound)).trans own
  · exact fun _ _ => Forwarding.boundTo_handedTo bound
  · exact Forwarding.handler_handedTo _ _ _ _

/-- A lookup that finds nothing refuses the request. -/
theorem refuses_missing (hops : Nat) {t : Tbl} {p : t.Row → Bool} {code : Nat} {detail : Str}
    {f : Forward → t.Row → Py Response} (own : code ≠ 500) (missing : (w.db t).get p = none)
    (same : ∀ forward, endpoint ⟨nodeId, cfg nodeId⟩ forward req =
      get t p >>= fun x => orHttp x code detail >>= f forward) :
    Refuses env cfg hops nodeId req w := by
  refine refuses hops 1 detail own fun serve => ?_
  rw [same]
  exact runsAs_missing env _ _ _ missing _

/-! ## Spawns without a pin -/

/-- The node drawn at random, from the nodes that are registered. -/
def drawn (env : Env) (w : World) : Option Id :=
  match (w.db .nodes).getAll fun _ => true with
  | [] => none
  | first :: rest => some ((first :: rest).getD
    (env.choice w.tick.clock % (rest.length + 1)) first).nodeId

theorem drawn_registered {d : Id} (found : drawn env w = some d) :
    ∃ row ∈ w.db .nodes, row.nodeId = d := by
  cases rows : (w.db .nodes).getAll fun _ => true with
  | nil =>
    rw [drawn, rows] at found
    cases found
  | cons first rest =>
    rw [drawn, rows] at found
    cases found
    set i := env.choice w.tick.clock % (rest.length + 1)
    have within : i < (first :: rest).length := Nat.mod_lt _ (Nat.succ_pos _)
    have member : (first :: rest).getD i first ∈ (w.db .nodes).getAll fun _ => true := by
      rw [rows, List.getD_eq_getElem?_getD, List.getElem?_eq_getElem within, Option.getD_some]
      exact List.getElem_mem within
    exact ⟨_, (Table.mem_getAll.mp member).1, rfl⟩

theorem targetNode_drawn (body : SpawnIn) (none_ : imagesOf body = []) {d : Id}
    (found : drawn env w = some d) (f : Id → Py Response) :
    RunsAs env (Vms.pinOrTarget body none >>= f) w (f d) (w.ticks 2) := by
  intro ok quiet Q
  have images : [body.rootImage, body.dataImage].filterMap
      (fun i => if truthy i then i else none) = [] :=
    none_
  rw [Vms.pinOrTarget, if_neg (by decide : ¬ truthy (none : Option Id) = true),
    Vms.targetNode, images]
  simp only [Vms.imageNodes, pure_bind, List.dedup_nil, Vms.randomNode, LawfulMonad.bind_assoc]
  rw [wp_bind, wp_quietGetAll env quiet, onValue_ok]
  cases rows : (w.db .nodes).getAll fun _ => true with
  | nil =>
    rw [drawn, rows] at found
    cases found
  | cons first rest =>
    rw [drawn, rows] at found
    cases found
    simp only [LawfulMonad.bind_assoc, pure_bind]
    rw [wp_bind, wp_quietChoice env quiet, onValue_ok]
    rfl

theorem targetNode_undrawn (body : SpawnIn) (none_ : imagesOf body = [])
    (missing : drawn env w = none) (f : Id → Py Response) :
    RunsAs env (Vms.pinOrTarget body none >>= f) w (throw (.http 503 "no nodes registered"))
      (w.ticks 1) := by
  intro ok quiet Q
  have images : [body.rootImage, body.dataImage].filterMap
      (fun i => if truthy i then i else none) = [] :=
    none_
  rw [Vms.pinOrTarget, if_neg (by decide : ¬ truthy (none : Option Id) = true),
    Vms.targetNode, images]
  simp only [Vms.imageNodes, pure_bind, List.dedup_nil, Vms.randomNode, LawfulMonad.bind_assoc]
  rw [wp_bind, wp_quietGetAll env quiet, onValue_ok]
  cases rows : (w.db .nodes).getAll fun _ => true with
  | nil => rfl
  | cons first rest =>
    rw [drawn, rows] at missing
    cases missing

theorem imageNodes_missing (images : List Id) (w : World)
    (missing : imageNodes w.db images = none) :
    ∃ k, ∀ f : List Id → Py Response, RunsAs env (Vms.imageNodes images >>= f) w
      (throw (.http 400 "unknown image")) (w.ticks k) := by
  induction images generalizing w with
  | nil => cases missing
  | cons i rest ih =>
    simp only [Vms.imageNodes, Vms.imageOr400, LawfulMonad.bind_assoc, pure_bind]
    cases found : snapshotOf w.db i .golden with
    | none => exact ⟨1, fun _ => runsAs_missing env _ _ _ found _⟩
    | some img =>
      have later : imageNodes w.tick.db rest = none := by
        cases more : imageNodes w.db rest with
        | none => exact more
        | some nodes =>
          simp only [imageNodes] at more missing
          rw [List.mapM_cons, found] at missing
          simp only [Option.map_some, Option.bind_eq_bind, Option.bind_some, more] at missing
          cases missing
      obtain ⟨k, runs⟩ := ih w.tick later
      have clock : w.tick.ticks k = w.ticks (1 + k) := by rw [← ticks_ticks]; rfl
      exact ⟨1 + k, fun f => clock ▸ (runsAs_lookup env _ _ _ found _).trans
        (runs fun ns => f (img.nodeId :: ns))⟩

theorem targetNode_missing (body : SpawnIn) (missing : imageNodes w.db (imagesOf body) = none) :
    ∃ k, ∀ f : Id → Py Response, RunsAs env (Vms.pinOrTarget body none >>= f) w
      (throw (.http 400 "unknown image")) (w.ticks k) := by
  obtain ⟨k, runs⟩ := imageNodes_missing _ w missing
  refine ⟨k, fun f => ?_⟩
  rw [Vms.pinOrTarget, if_neg (by decide : ¬ truthy (none : Option Id) = true), Vms.targetNode,
    LawfulMonad.bind_assoc]
  exact runs _

theorem imageNodes_length {db : Db} {images nodes : List Id}
    (all : imageNodes db images = some nodes) :
    nodes.length = images.length := by
  induction images generalizing nodes with
  | nil =>
    cases all
    rfl
  | cons i rest ih =>
    simp only [imageNodes, List.mapM_cons, Option.bind_eq_bind, Option.bind_eq_some_iff] at all
    obtain ⟨n, -, ns, more, same⟩ := all
    cases same
    rw [List.length_cons, List.length_cons, ih more]

theorem apart_runs (body : SpawnIn) {nodes : List Id}
    (all : imageNodes w.db (imagesOf body) = some nodes)
    (apart : 2 ≤ nodes.dedup.length) (f : Id → Py Response) :
    RunsAs env (Vms.pinOrTarget body none >>= f) w
      (throw (.http 409 "root_image and data_image are on different nodes"))
      (w.ticks (imagesOf body).length) := by
  rw [Vms.pinOrTarget, if_neg (by decide : ¬ truthy (none : Option Id) = true), Vms.targetNode,
    LawfulMonad.bind_assoc]
  refine (imageNodes_runs env _ w all _).trans ?_
  cases several : nodes.dedup with
  | nil =>
    rw [several] at apart
    exact absurd apart (by decide)
  | cons a rest =>
    cases rest with
    | nil =>
      rw [several, List.length_singleton] at apart
      exact absurd apart (by decide)
    | cons b rest => exact fun _ _ _ => rfl

/-- A spawn that arrives without a pin. -/
theorem spawn_arrives (hops : Nat) (body : SpawnIn)
    (filled : ∀ row ∈ w.db .nodes, row.nodeId ≠ []) :
    (∃ x, (if imagesOf body = [] then drawn env w else imagesNode w.db body) = some x ∧
        Arrives env cfg hops nodeId (.spawnVm body none) w x) ∨
      Refuses env cfg hops nodeId (.spawnVm body none) w := by
  by_cases images : imagesOf body = []
  · rw [if_pos images]
    cases found : drawn env w with
    | none =>
      exact .inr (refuses hops 1 _ (by decide : 503 ≠ 500) fun serve =>
        targetNode_undrawn body images found _)
    | some d =>
      have registered := drawn_registered found
      have value : truthy (some d) = true := by
        obtain ⟨row, there, rfl⟩ := registered
        cases named : row.nodeId with
        | nil => exact absurd named (filled row there)
        | cons c cs => rfl
      have bound : boundTo w.db (.spawnVm body (some d)) = some d := if_pos value
      have ends : Arrives env cfg hops nodeId (.spawnVm body none) w d ∨
          Refuses env cfg hops nodeId (.spawnVm body none) w ∧ d ≠ nodeId ∧
            ¬ ∃ row ∈ w.db .nodes, row.nodeId = d := by
        refine arrives_or_refuses hops 2 _ (fun forward => targetNode_drawn body images found _) ?_
          (fun _ _ => bound) rfl
        -- Without a pin and without images no node is bound.
        intro _ o bound'
        rw [boundTo, if_neg (by decide : ¬ truthy (none : Option Id) = true), imagesNode,
          images] at bound'
        cases bound'
      exact ends.imp (fun arrives => ⟨d, rfl, arrives⟩) And.left
  · rw [if_neg images]
    cases all : imageNodes w.db (imagesOf body) with
    | none =>
      obtain ⟨k, runs⟩ := targetNode_missing body all
      exact .inr (refuses hops k _ (by decide : 400 ≠ 500) fun _ => runs _)
    | some nodes =>
      have named : nodes.dedup ≠ [] := by
        intro empty
        have length := imageNodes_length all
        rw [(List.dedup_eq_nil nodes).mp empty] at length
        exact images (List.eq_nil_of_length_eq_zero length.symm)
      cases distinct : nodes.dedup with
      | nil => exact absurd distinct named
      | cons a rest =>
        cases rest with
        | nil =>
          have node : imagesNode w.db body = some a := by
            rw [imagesNode, all, Option.map_some, distinct]
          have bound : boundTo w.db (.spawnVm body none) = some a := node
          exact (arrives_of_bound hops bound).imp (fun arrives => ⟨a, node, arrives⟩) And.left
        | cons b rest =>
          have several : 2 ≤ nodes.dedup.length := by
            rw [distinct]
            exact Nat.le_add_left 2 rest.length
          exact .inr (refuses hops _ _ (by decide : 409 ≠ 500) fun _ =>
            apart_runs body all several _)

/-! ## The other requests -/

/-- The data volume that `POST /vms` names. -/
def dataVolumeOf (db : Db) (body : VmIn) : Option VolumeRow :=
  if truthy body.dataVolumeId then volumeOf db (body.dataVolumeId.getD []) else none

/-- The snapshot that `POST /volumes` names. -/
def originOf (db : Db) (body : VolumeIn) : Option SnapshotRow :=
  if truthy body.fromSnapshot then (db .snapshots).get fun r =>
    some r.id = body.fromSnapshot else none

/-- An endpoint that goes by the `node_id` of the body. -/
theorem arrives_by_nodeId (hops : Nat) {field : Option Id} {l : Py Response}
    (bound : boundTo w.db req = if truthy field then field else none)
    (served : handler ⟨nodeId, cfg nodeId⟩ w.db req = l)
    (ends : ∀ forward, endpoint ⟨nodeId, cfg nodeId⟩ forward req =
      if orElse field nodeId ≠ nodeId then forward (orElse field nodeId) req else l) :
    Arrives env cfg hops nodeId req w (orElse field nodeId) ∨
      Refuses env cfg hops nodeId req w ∧ orElse field nodeId ≠ nodeId ∧
        ¬ ∃ row ∈ w.db .nodes, row.nodeId = orElse field nodeId := by
  by_cases value : truthy field = true
  · refine arrives_of_bound hops ?_
    rw [bound, if_pos value, orElse_of_truthy value]
    cases field with
    | none => exact absurd value (by decide)
    | some x => rfl
  · have here : orElse field nodeId = nodeId := orElse_of_falsy (Bool.eq_false_iff.mpr value) nodeId
    refine arrives_or_refuses hops 0 req (fun forward => ?_) ?_ ?_ rfl
    · rw [ends, served]
      exact .refl _ _
    · intro _ o bound'
      rw [bound, if_neg value] at bound'
      cases bound'
    · exact fun _ other => absurd here other

theorem createVm_arrives (hops : Nat) (body : VmIn) :
    Arrives env cfg hops nodeId (.createVm body) w (orElse body.nodeId nodeId) ∨
      Refuses env cfg hops nodeId (.createVm body) w ∧ orElse body.nodeId nodeId ≠ nodeId ∧
        ¬ ∃ row ∈ w.db .nodes, row.nodeId = orElse body.nodeId nodeId := by
  refine arrives_by_nodeId hops rfl rfl fun forward => ?_
  by_cases own : orElse body.nodeId nodeId = nodeId
  · simp only [endpoint, Vms.createVm, handler, own]
  · simp only [endpoint, Vms.createVm, if_pos own]

theorem createVolume_arrives (hops : Nat) (body : VolumeIn) :
    Arrives env cfg hops nodeId (.createVolume body) w (orElse body.nodeId nodeId) ∨
      Refuses env cfg hops nodeId (.createVolume body) w ∧ orElse body.nodeId nodeId ≠ nodeId ∧
        ¬ ∃ row ∈ w.db .nodes, row.nodeId = orElse body.nodeId nodeId := by
  refine arrives_by_nodeId hops rfl rfl fun forward => ?_
  by_cases own : orElse body.nodeId nodeId = nodeId
  · simp only [endpoint, Volumes.createVolume, handler, own]
  · simp only [endpoint, Volumes.createVolume, if_pos own]

/-- A proxy is made where the request arrives: there is a free address, or it is refused. -/
theorem createProxy_ends (self : Node) (body : ProxyIn) (forward : Forward) :
    endpoint self forward (.createProxy body) = endpoint self
      (fun _ _ => throw .requestError) (.createProxy body) := by
  simp only [endpoint, Proxy.createProxy, Proxy.nodeWithFreeIp, LawfulMonad.bind_assoc]
  congr 1
  funext vpc
  congr 1
  funext proxy
  congr 1
  funext _
  congr 1
  funext rows
  split
  · simp only [pure_bind, ne_eq, not_true_eq_false, if_false]
  · simp only [LawfulMonad.bind_assoc]
    congr 1
    funext nodes
    split <;> rfl

theorem createProxy_lands (hops : Nat) (body : ProxyIn) :
    Lands env cfg hops nodeId (.createProxy body) w nodeId where
  way := by
    rw [if_pos rfl]
    refine .here fun serve serve' => ?_
    rw [createProxy_ends _ _ (forward serve), createProxy_ends _ _ (forward serve')]
  stays := by
    rw [Api.serve, createProxy_ends]
    refine trail_of_stays (stays_first local_ensureDefaultVpc fun vpc w => ?_)
    refine stays_first (.get (.get ..)) fun proxy w => ?_
    refine stays_first (local_refuseIf ..) fun _ w => ?_
    refine stays_first ?_ fun target w => ?_
    · exact .bind (.getAll (.getAll ..)) fun _ => .ite (fun _ => .pure _) fun _ =>
        .bind (.getAll (.getAll ..)) fun _ => .ite (fun _ => .throw _) fun _ => .throw _
    split
    · trivial
    refine stays_first (local_usedAddresses _) fun used w => ?_
    refine stays_first (.fromExcept _) fun entry w => ?_
    refine stays_first (.now .now) fun time w => ?_
    refine stays_first (.uuid4 .uuid4) fun pipId w => ?_
    refine checked_bind _ _ (fun _ _ => True) ?_ fun vm w _ => ?_
    · refine checked_mono _ _ _ _ _ ?_ w (stays_spawnLocal _ _
        (fun _ => .insert (.publicIp _ rfl)) w)
      rintro (e | _) w' _ <;> trivial
    · exact stays_of_local (.bind (.uuid4 .uuid4) fun _ => .bind (.insert (.proxy _ rfl)) fun _ =>
        .bind (.uuid4 .uuid4) fun _ => .bind (.uuid4 .uuid4) fun _ =>
          .bind (.insert (.task _)) fun _ =>
        .bind (.insert (.task _)) fun _ => .pure _) w

/-! ## Refusals and crashes of the local handlers -/

theorem exec_crash (o : Op) (w : World) (e : Exn) (raised : (exec env o w).1 = .error e) :
    Crash e := by
  cases o with
  | insert t row =>
    cases inserted : (w.db t).insert row with
    | none =>
      rw [exec_insert_none env w t row inserted] at raised
      cases raised
      trivial
    | some rows =>
      rw [exec_insert_some env w t row inserted] at raised
      cases raised
  | update t p f =>
    simp only [exec] at raised
    split at raised <;> cases raised
    trivial
  | host n c => exact crash_of_exec _ _ _ e raised
  | getAll | get | delete | uuid4 | now | choice => cases raised

/-- A client program that crashes only is run on a node. -/
theorem raises_sh (self : Node) {α : Type} {p : Sh α} (h : Raises Crash p) :
    Raises Crash (self.sh p) := by
  rw [Raises, wp_sh]
  exact h

theorem not_refused {r : Except Exn Response} (crashes : ∀ e, r = .error e → Crash e) :
    ¬ Refused r ∧ ¬ Refused (relayed r) := by
  cases r with
  | ok response => exact ⟨id, id⟩
  | error e =>
    have crash := crashes e rfl
    cases e with
    | http code detail => exact crash.elim
    | _ => exact ⟨id, fun refused => refused rfl⟩

theorem refused_relayed {r : Except Exn Response} (refused : Refused r) : Refused (relayed r) := by
  cases r with
  | ok response => exact refused
  | error e =>
    cases e with
    | http code detail => exact refused
    | _ => exact refused.elim

/-- The answer of the handler decides on a refusal. -/
theorem Arrives.accepted {hops : Nat} {x : Id} (arrives : Arrives env cfg hops nodeId req w x)
    (crashes : ∀ k e, (run (exec env) (handler ⟨x, cfg x⟩ w.db req) (w.ticks k)).1 =
      .error e → Crash e) :
    ¬ Refused (run (exec env) (serve cfg (hops + 1) nodeId req) w).1 := by
  obtain ⟨k, same | same⟩ := arrives.outcome <;> rw [same]
  · exact (not_refused (crashes k)).1
  · exact (not_refused (crashes k)).2

theorem Arrives.refused {hops : Nat} {x : Id} (arrives : Arrives env cfg hops nodeId req w x)
    (refused : ∀ k, Refused (run (exec env) (handler ⟨x, cfg x⟩ w.db req) (w.ticks k)).1) :
    Refused (run (exec env) (serve cfg (hops + 1) nodeId req) w).1 := by
  obtain ⟨k, same | same⟩ := arrives.outcome <;> rw [same]
  · exact refused k
  · exact refused_relayed (refused k)

/-- A volume is not made from another node's snapshot. -/
theorem remote_snapshot_refused (self : Node) (body : VolumeIn) {snap : SnapshotRow}
    (found : originOf w.db body = some snap) (other : snap.nodeId ≠ self.id) :
    Refused (run (exec env) (Volumes.createLocal self body self.id) w).1 := by
  refine (wp_sequential (exec env) _ (fun r _ => Refused r) w).mp ?_
  unfold originOf at found
  split at found
  next value =>
    rw [Volumes.createLocal, wp_bind, wp_uuid4, onValue_ok, wp_bind, Volumes.provision,
      if_pos value, wp_bind,
      wp_get, onValue_ok, wp_bind, wp_orHttp, tick_db, found, Option.filter_some,
      if_neg (fun same => other (of_decide_eq_true same))]
    exact (by decide : 400 ≠ 500)
  · cases found

theorem unknown_vpc_refused (self : Node) (body : VmIn)
    (unknown : ¬ ∃ vpc ∈ w.db .vpcs, vpc.id = body.vpcId) :
    Refused (run (exec env) (Vms.createLocal self body self.id) w).1 := by
  refine (wp_sequential (exec env) _ (fun r _ => Refused r) w).mp ?_
  have missing : (w.db .vpcs).get (fun r => r.id = body.vpcId) = none :=
    Table.get_none.mpr fun vpc there => decide_eq_false fun same => unknown ⟨vpc, there, same⟩
  rw [Vms.createLocal, wp_bind, Vms.vpcOr404, wp_bind, wp_get, onValue_ok, wp_orHttp, missing]
  exact (by decide : 400 ≠ 500)

theorem raises_bringUp (self : Node) (row : VmRow) (cidr : Str) (volPath : Option Path)
    (key : Option Str)
    (origin : Str) : Raises Crash (Vms.bringUp self row cidr volPath key origin) := by
  have nodeHost : Raises Crash (Peers.nodeHost row.nodeId) :=
    .bind (.perform _) fun found => by cases found <;> exact .pure _
  apply Raises.bind (.bind (.perform _) fun _ => .bind nodeHost fun _ =>
    .bind (.bind (.perform _) fun _ => .pure _) fun _ => .pure _)
  intro _
  apply Raises.bind (raises_sh self (VmUp.run_raises _))
  intro _
  exact .bind (.perform _) fun _ => .pure _

/-- With its VPC and its volume there, nothing refuses a new VM any more. -/
theorem createLocal_crashes (self : Node) (body : VmIn)
    (known : ∃ vpc ∈ w.db .vpcs, vpc.id = body.vpcId)
    {vol : VolumeRow} (found : dataVolumeOf w.db body = some vol) (e : Exn)
    (raised : (run (exec env) (Vms.createLocal self body self.id) w).1 = .error e) : Crash e := by
  have vpcFound : ∃ vpc, (w.db .vpcs).get (fun r => r.id = body.vpcId) = some vpc := by
    cases looked : (w.db .vpcs).get fun r => r.id = body.vpcId with
    | some vpc => exact ⟨vpc, rfl⟩
    | none =>
      obtain ⟨vpc, there, same⟩ := known
      exact absurd same (of_decide_eq_false (Table.get_none.mp looked vpc there))
  obtain ⟨vpc, vpcThere⟩ := vpcFound
  unfold dataVolumeOf at found
  split at found
  next value =>
    rw [volumeOf] at found
    refine (wp_sequential (exec env) _ (fun r _ => ∀ e, r = .error e → Crash e) w).mp ?_ e raised
    rw [Vms.createLocal, wp_bind, Vms.vpcOr404, wp_bind, wp_get, onValue_ok, wp_orHttp, vpcThere]
    dsimp only [onValue_ok]
    rw [wp_bind, Vms.bodyVolumePath, if_pos value, wp_bind, Vms.volumePath, wp_bind,
      wp_get, onValue_ok,
      wp_bind, wp_orHttp, tick_db, found]
    simp only [onValue_ok, wp_pure]
    -- Both lookups are behind; what is left raises no `HTTPException`.
    refine (wp_sequential (exec env) _ _ _).mpr (Raises.of_run _ exec_crash ?_ _)
    apply Raises.bind (.bind (.perform _) fun _ => .pure _)
    intro used
    apply Raises.bind (.fromExcept fun _ => Allocate.pickIp_crash)
    intro ip
    apply Raises.bind (.perform _)
    intro id
    apply Raises.bind (.perform _)
    intro time
    apply Raises.bind (.perform _)
    intro _
    exact .bind (raises_bringUp ..) fun _ => .pure _
  · cases found

theorem ownerOr404_missing (vmId : Id) (missing : vmOf w.db vmId = none) (f : Id → Py Response) :
    RunsAs env (Vms.ownerOr404 vmId >>= f) w (throw (.http 404 "vm not found")) w.tick := by
  simp only [Vms.ownerOr404, LawfulMonad.bind_assoc, pure_bind]
  exact runsAs_missing env _ _ _ missing _

theorem vmOr404_missing (vmId : Id) (missing : vmOf w.db vmId = none) (f : VmRow → Py Response) :
    RunsAs env (vmOr404 vmId >>= f) w (throw (.http 404 "vm not found")) w.tick := by
  rw [vmOr404, LawfulMonad.bind_assoc]
  exact runsAs_missing env _ _ _ missing _

theorem resolveSource_missing (body : SnapshotIn) (missing : sourceOf w.db body = none) :
    ∃ k detail, ∀ f : Snapshots.Source → Py Response,
      RunsAs env (Snapshots.resolveSource body >>= f) w (throw (.http 400 detail)) (w.ticks k) := by
  unfold sourceOf at missing
  split at missing
  next both =>
    refine ⟨0, "give exactly one of volume_id or vm_id", fun f ok quiet Q => ?_⟩
    simp only [Snapshots.resolveSource, refuseIf, both, wp_bind, wp_whenTrue, if_true]
    rfl
  next one =>
    have single : (truthy body.volumeId == truthy body.vmId) = false := Bool.eq_false_iff.mpr one
    split at missing
    next volume =>
      have unknown := Option.map_eq_none_iff.mp missing
      refine ⟨1, "unknown volume_id", fun f ok quiet Q => ?_⟩
      simp only [Snapshots.resolveSource, refuseIf, single, wp_bind, wp_whenTrue,
        Bool.false_eq_true,
        if_false, onValue_ok]
      simp only [volume, if_true, wp_bind, wp_orHttp, wp_pure]
      rw [wp_quietGet env quiet, onValue_ok, unknown]
      rfl
    next vm =>
      have unknown := Option.map_eq_none_iff.mp missing
      refine ⟨1, "unknown vm_id", fun f ok quiet Q => ?_⟩
      simp only [Snapshots.resolveSource, refuseIf, single, wp_bind, wp_whenTrue,
        Bool.false_eq_true,
        if_false, onValue_ok]
      simp only [vm, Bool.false_eq_true, if_false, wp_bind, wp_orHttp, wp_pure]
      rw [wp_quietGet env quiet, onValue_ok, unknown]
      rfl

/-- The requests about something that has a row. -/
def Owned : Request → Prop
  | .resizeVolume _ _ | .deleteVolume _ | .createSnapshot _ | .deleteSnapshot _ | .createImage _
  | .deleteImage _ | .getVm _ | .deleteVm _ | .stopVm _ | .startVm _ | .rebootVm _
  | .attachPublicIp _ | .detachPublicIp _ => True
  | .createVpc _ | .deleteVpc _ | .createVolume _ | .createVm _ | .spawnVm _ _ | .createDomain _
  | .deleteDomain _ | .createProxy _ | .createTask _ _ | .reconcileNow => False

/-- Where the row is missing, the request is refused. -/
theorem owned_refuses (hops : Nat) (owned : Owned req) (unbound : boundTo w.db req = none) :
    Refuses env cfg hops nodeId req w := by
  -- the router looks the named row up first, and answers with its own status when there is none
  cases req with
  | resizeVolume volumeId body =>
    have missing : volumeOf w.db volumeId = none := Option.map_eq_none_iff.mp unbound
    exact refuses_missing hops (by decide : 404 ≠ 500) missing fun _ => rfl
  | deleteVolume volumeId =>
    have missing : volumeOf w.db volumeId = none := Option.map_eq_none_iff.mp unbound
    exact refuses_missing hops (by decide : 404 ≠ 500) missing fun _ => rfl
  | createSnapshot body =>
    obtain ⟨k, detail, runs⟩ := resolveSource_missing body (Option.map_eq_none_iff.mp unbound)
    exact refuses hops k _ (by decide : 400 ≠ 500) fun _ => runs _
  | deleteSnapshot snapshotId =>
    have missing : snapshotOf w.db snapshotId .snapshot = none := Option.map_eq_none_iff.mp unbound
    exact refuses_missing hops (by decide : 404 ≠ 500) missing fun _ => rfl
  | createImage body =>
    have missing : snapshotOf w.db body.fromSnapshot .snapshot = none :=
      Option.map_eq_none_iff.mp unbound
    exact refuses_missing hops (by decide : 400 ≠ 500) missing fun _ => rfl
  | deleteImage imageId =>
    have missing : snapshotOf w.db imageId .golden = none := Option.map_eq_none_iff.mp unbound
    exact refuses_missing hops (by decide : 404 ≠ 500) missing fun _ => rfl
  | getVm vmId =>
    have missing : vmOf w.db vmId = none := Option.map_eq_none_iff.mp unbound
    exact refuses_missing hops (by decide : 404 ≠ 500) missing fun _ => rfl
  | deleteVm vmId | stopVm vmId | startVm vmId | rebootVm vmId =>
    have missing := Option.map_eq_none_iff.mp unbound
    exact refuses hops 1 _ (by decide : 404 ≠ 500) fun _ => ownerOr404_missing vmId missing _
  | attachPublicIp vmId | detachPublicIp vmId =>
    have missing := Option.map_eq_none_iff.mp unbound
    exact refuses hops 1 _ (by decide : 404 ≠ 500) fun _ => vmOr404_missing vmId missing _
  | createVpc | deleteVpc | createVolume | createVm | spawnVm | createDomain | deleteDomain
  | createProxy | createTask | reconcileNow => exact owned.elim

/-! ## The node that a request belongs to -/

/-- The node-bound requests, and a spawn without a pin. -/
def Covered : Request → Prop
  | .spawnVm _ pin => pin = none
  | .createVm _ | .createVolume _ | .createProxy _ => True
  | req => Owned req

/-- The owner of what the request names, else the node of its `node_id`, else that of its images or
the one that is drawn, else the one where it arrives. -/
def belongsTo (env : Env) (nodeId : Id) (w : World) : Request → Option Id
  | .createVm body =>
    ((dataVolumeOf w.db body).map VolumeRow.nodeId).or (some (orElse body.nodeId nodeId))
  | .createVolume body =>
    ((originOf w.db body).map SnapshotRow.nodeId).or (some (orElse body.nodeId nodeId))
  | .spawnVm body _ => if imagesOf body = [] then drawn env w else imagesNode w.db body
  | .createProxy _ => some nodeId
  | req => boundTo w.db req

/-- A request is handed on at most once, and served on the node that it belongs to; a spawn with
images of two nodes is refused. -/
structure Placed (env : Env) (cfg : Id → NodeConfig) (hops : Nat) (nodeId : Id) (req : Request)
    (w : World) : Prop where
  once : ∃ path, Goes env cfg nodeId req w path ∧ path.length ≤ 2
  there : ¬ Refused (run (exec env) (serve cfg (hops + 1) nodeId req) w).1 →
    ∃ x, belongsTo env nodeId w req = some x ∧ Lands env cfg hops nodeId req w x
  apart : ∀ body nodes, req = .spawnVm body none → imageNodes w.db (imagesOf body) = some nodes →
    2 ≤ nodes.dedup.length →
    Refused (run (exec env) (serve cfg (hops + 1) nodeId req) w).1 ∧
      (run (exec env) (serve cfg (hops + 1) nodeId req) w).2.db = w.db ∧
      (run (exec env) (serve cfg (hops + 1) nodeId req) w).2.hosts = w.hosts

/-- The data volume of a `POST /vms` that finds its VPC and its node is on that node. -/
def DataVolumeOn (nodeId : Id) (w : World) : Request → Prop
  | .createVm body =>
    (∃ vpc ∈ w.db .vpcs, vpc.id = body.vpcId) →
    (orElse body.nodeId nodeId = nodeId ∨ ∃ row ∈ w.db .nodes,
      row.nodeId = orElse body.nodeId nodeId) →
    ∀ vol, dataVolumeOf w.db body = some vol → vol.nodeId = orElse body.nodeId nodeId
  | _ => True

theorem Lands.once {hops : Nat} {x : Id} (lands : Lands env cfg hops nodeId req w x) :
    ∃ path, Goes env cfg nodeId req w path ∧ path.length ≤ 2 := by
  refine ⟨_, lands.way, ?_⟩
  split
  · exact Nat.le_succ 1
  · exact Nat.le_refl 2

theorem Refuses.once {hops : Nat} (refuses : Refuses env cfg hops nodeId req w) :
    ∃ path, Goes env cfg nodeId req w path ∧ path.length ≤ 2 := ⟨_, refuses.way, Nat.le_succ 1⟩

/-- Two landings are one. -/
theorem Lands.unique {hops : Nat} {x y : Id} (first : Lands env cfg hops nodeId req w x)
    (second : Lands env cfg hops nodeId req w y) : x = y := by
  have same := goes_unique first.way second.way
  split at same <;> split at same
  next here here' => exact here.symm.trans here'
  · cases same
  · cases same
  · cases same
    rfl

/-- Requests other than a spawn have no images. -/
theorem placed_of (hops : Nat) (noSpawn : ∀ body, req ≠ .spawnVm body none)
    (ends : (∃ x, belongsTo env nodeId w req = some x ∧ Lands env cfg hops nodeId req w x) ∨
      Refused (run (exec env) (serve cfg (hops + 1) nodeId req) w).1 ∧
        ∃ path, Goes env cfg nodeId req w path ∧ path.length ≤ 2) :
    Placed env cfg hops nodeId req w where
  once := by
    rcases ends with ⟨x, -, lands⟩ | ⟨-, once⟩
    · exact lands.once
    · exact once
  there accepted := by
    rcases ends with lands | ⟨refused, -⟩
    · exact lands
    · exact absurd refused accepted
  apart body _ same := absurd same (noSpawn body)

theorem owned_placed (hops : Nat) (owned : Owned req)
    (belongs : belongsTo env nodeId w req = boundTo w.db req) :
    Placed env cfg hops nodeId req w := by
  refine placed_of hops (fun body same => by subst same; exact owned) ?_
  cases bound : boundTo w.db req with
  | none =>
    have refuses : Refuses env cfg hops nodeId req w := owned_refuses hops owned bound
    exact .inr ⟨refuses.refused, refuses.once⟩
  | some x =>
    rcases arrives_of_bound hops bound with arrives | ⟨refuses, -⟩
    · exact .inl ⟨x, belongs.trans bound, arrives.lands⟩
    · exact .inr ⟨refuses.refused, refuses.once⟩

theorem spawn_placed (hops : Nat) (body : SpawnIn) (filled : ∀ row ∈ w.db .nodes, row.nodeId ≠ []) :
    Placed env cfg hops nodeId (.spawnVm body none) w where
  once := by
    rcases spawn_arrives hops body filled with ⟨x, -, arrives⟩ | refuses
    · exact arrives.lands.once
    · exact refuses.once
  there accepted := by
    rcases spawn_arrives hops body filled with ⟨x, belongs, arrives⟩ | refuses
    · exact ⟨x, belongs, arrives.lands⟩
    · exact absurd refuses.refused accepted
  apart := by
    rintro _ nodes ⟨⟩ all several
    have refuses : Refuses env cfg hops nodeId (.spawnVm body none) w :=
      refuses hops _ _ (by decide : 409 ≠ 500) fun _ => apart_runs body all several _
    obtain ⟨k, same⟩ := refuses.effect
    exact ⟨refuses.refused, by rw [same]; rfl, by rw [same]; rfl⟩

theorem createVolume_placed (hops : Nat) (body : VolumeIn) :
    Placed env cfg hops nodeId (.createVolume body) w := by
  refine placed_of hops (fun _ same => by cases same) ?_
  have ends : Arrives env cfg hops nodeId (.createVolume body) w (orElse body.nodeId nodeId) ∨ _ :=
    createVolume_arrives hops body
  rcases ends with arrives | ⟨refuses, -⟩
  · cases origin : originOf w.db body with
    | none => exact .inl ⟨_, by rw [belongsTo, origin]; rfl, arrives.lands⟩
    | some snap =>
      by_cases same : snap.nodeId = orElse body.nodeId nodeId
      · exact .inl ⟨_, by rw [belongsTo, origin, ← same]; rfl, arrives.lands⟩
      · -- Another node's snapshot: the handler refuses.
        exact .inr ⟨arrives.refused fun k =>
          remote_snapshot_refused (w := w.ticks k) _ body origin same,
          arrives.lands.once⟩
  · exact .inr ⟨refuses.refused, refuses.once⟩

theorem createVm_placed (hops : Nat) (body : VmIn) (on : DataVolumeOn nodeId w (.createVm body)) :
    Placed env cfg hops nodeId (.createVm body) w := by
  refine placed_of hops (fun _ same => by cases same) ?_
  have ends : Arrives env cfg hops nodeId (.createVm body) w (orElse body.nodeId nodeId) ∨ _ :=
    createVm_arrives hops body
  rcases ends with arrives | ⟨refuses, -⟩
  · cases volume : dataVolumeOf w.db body with
    | none => exact .inl ⟨_, by rw [belongsTo, volume]; rfl, arrives.lands⟩
    | some vol =>
      by_cases known : ∃ vpc ∈ w.db .vpcs, vpc.id = body.vpcId
      · have same := on known arrives.node vol volume
        exact .inl ⟨_, by rw [belongsTo, volume, ← same]; rfl, arrives.lands⟩
      · exact .inr ⟨arrives.refused fun k => unknown_vpc_refused (w := w.ticks k) _ body known,
          arrives.lands.once⟩
  · exact .inr ⟨refuses.refused, refuses.once⟩

/-- A new VM whose data volume is on another node is made all the same, on the wrong one. -/
theorem misplaced (hops : Nat) (body : VmIn)
    (placed : Placed env cfg hops nodeId (.createVm body) w) :
    DataVolumeOn nodeId w (.createVm body) := by
  intro known there vol volume
  have ends : Arrives env cfg hops nodeId (.createVm body) w (orElse body.nodeId nodeId) ∨ _ :=
    createVm_arrives hops body
  rcases ends with arrives | ⟨-, other, unregistered⟩
  · have accepted := arrives.accepted fun k e raised =>
      createLocal_crashes (w := w.ticks k) _ body known volume e raised
    obtain ⟨x, belongs, lands⟩ := placed.there accepted
    rw [belongsTo, volume] at belongs
    exact (Option.some.inj belongs).trans (lands.unique arrives.lands)
  · exact absurd there (not_or.mpr ⟨other, unregistered⟩)

/-- A node-bound request that comes without a pin is placed if and only if, where it makes a VM, the
data volume that it names is on the node of that VM. -/
theorem placed_iff (env : Env) (cfg : Id → NodeConfig) (hops : Nat) (nodeId : Id) (req : Request)
    (w : World) (covered : Covered req) (filled : ∀ row ∈ w.db .nodes, row.nodeId ≠ []) :
    Placed env cfg hops nodeId req w ↔ DataVolumeOn nodeId w req := by
  cases req with
  | createVm body => exact ⟨misplaced hops body, createVm_placed hops body⟩
  | createVolume body => exact iff_of_true (createVolume_placed hops body) trivial
  | spawnVm body pin =>
    obtain rfl : pin = none := covered
    exact iff_of_true (spawn_placed hops body filled) trivial
  | createProxy body =>
    refine iff_of_true (placed_of hops (fun _ same => by cases same) (.inl ⟨nodeId,
      rfl, ?_⟩)) trivial
    exact createProxy_lands hops body
  | resizeVolume | deleteVolume | createSnapshot | deleteSnapshot | createImage | deleteImage
  | getVm | deleteVm | stopVm | startVm | rebootVm | attachPublicIp | detachPublicIp =>
    exact iff_of_true (owned_placed hops covered rfl) trivial
  | createVpc | deleteVpc | createDomain | deleteDomain | createTask
  | reconcileNow => exact covered.elim

/-! ## A volume of another node -/

/-- A volume of node `n2`. -/
def vol2 : VolumeRow := ⟨"vol2", "n2", "data", 1024, "/dev/nyc-n2/data-vol2", "ready", 0⟩

/-- Two nodes, the host of `n1`, and the volume of `n2`. -/
def apartVolume : World :=
  { Forwarding.twoNodes with
    db := Function.update Forwarding.twoNodes.db .volumes ⟨[vol2], by decide⟩
    hosts := Sample.fresh.hosts }

/-- `POST /vms` at node `n1`, with the volume of `n2`. -/
def withVolume : Request := .createVm ⟨"vm", "vpc1", some "vol2".toList, none⟩

/-- Node `n1` makes the VM, though the volume that the request names is on `n2`. -/
theorem volume_elsewhere :
    succeeded (run (exec Sample.env) (serve Sample.cluster 1 "n1" withVolume) apartVolume).1 ∧
      ¬ ∀ (env : Env) (cfg : Id → NodeConfig) (hops : Nat) (nodeId : Id) (req :
        Request) (w : World),
        Covered req → (∀ row ∈ w.db .nodes, row.nodeId ≠ []) →
          Placed env cfg hops nodeId req w := by
  refine ⟨by decide +kernel, fun placed => ?_⟩
  have filled : ∀ row ∈ (apartVolume.db .nodes).rows, row.nodeId ≠ [] := by decide
  have on := misplaced 0 _ (placed Sample.env Sample.cluster 0 "n1" withVolume
    apartVolume trivial filled)
  have vpc : Sample.vpc ∈ apartVolume.db .vpcs := List.mem_cons_self
  have same := on ⟨Sample.vpc, vpc, by decide⟩ (.inl rfl) vol2 (by decide +kernel)
  exact absurd same (by decide)

/-- Node `n2` hands the stop of a VM on to its owner. -/
theorem stop_is_placed :
    Placed Sample.env Sample.cluster 0 "n2" (.stopVm "v1") Forwarding.twoNodes :=
  (placed_iff Sample.env Sample.cluster 0 "n2" (.stopVm "v1") Forwarding.twoNodes trivial
    (by change ∀ row ∈ (Forwarding.twoNodes.db .nodes).rows, row.nodeId ≠ []; decide)).mpr trivial

end

end Placement

end Nyc
