import Nyc.Properties.Placement

/-!
# A refusal changes nothing

An endpoint looks things up, refuses, and only then acts: what it does after its first write can
crash, which answers with status 500, but raises no `HTTPException` any more. So a request that is
answered with a status of its own, by whichever node, has run no command and written no row. The one
exception is by design: `POST /vms/spawn` and `POST /proxy` make the default VPC before they look at
anything.
-/

namespace Nyc

open Data Effects Effects.Program Client

namespace Refusals

open Placement

/-! ## Client programs raise no `HTTPException` -/

section Clients

theorem raises_stillThere (pid : Nat) : Raises Crash (Kill.stillThere pid) :=
  .tryCatch (.bind (.perform _) fun _ => .pure _) fun _ crash => .ite (.pure _) (.throw crash)

theorem raises_waitGone (pid polls : Nat) : Raises Crash (Kill.waitGone pid polls) := by
  induction polls with
  | zero => exact .pure _
  | succ polls ih => exact .bind (raises_stillThere pid) fun _ => .ite ih (.pure _)

theorem raises_kill (vmId : Id) : Raises Crash (Kill.run vmId) := by
  have terminate (pid : Nat) : Raises Crash (Kill.terminate pid) :=
    .tryCatch (.bind (.perform _) fun _ => raises_waitGone ..) fun _ crash =>
      .ite (.pure _) (.throw crash)
  exact .bind (.perform _) fun _ => .ite (.bind (.perform _) fun _ =>
    .bind (.whenTrue (terminate _)) fun _ =>
    .perform _) (.pure _)

theorem raises_down (vmId : Id) (vg : Str) : Raises Crash (VmDown.run vmId vg) := by
  have network : Raises Crash (VmDown.networkDown vmId) :=
    .bind (.tryCatch (.perform _) fun _ _ => .pure _) fun _ =>
      .bind (.tryCatch (.perform _) fun _ _ => .pure _) fun _ => .tryCatch (.perform _)
        fun _ _ => .pure _
  apply Raises.bind (.perform _)
  intro _
  apply Raises.bind (.whenTrue (raises_kill _))
  intro _
  apply Raises.bind network
  intro _
  apply Raises.bind (.perform _)
  intro _
  exact .bind (.whenTrue (.perform _)) fun _ => raises_remove ..

theorem raises_start (vmId ns : Str) : Raises Crash (VmStart.run vmId ns) := by
  apply Raises.bind (.perform _)
  intro _
  exact .bind (.perform _) fun _ => .perform _

theorem raises_lvs (lister : Lister) (vg : Str) : Raises Crash (Lv.listLvs lister vg) :=
  raises_exceptPrivops _ (.perform _)

theorem raises_snapshot (vg origin name : Str) : Raises Crash (Lv.snapshot vg origin name) :=
  .bind (.perform _) fun _ => .pure _

theorem raises_fromSnapshot (vg origin name : Str) :
    Raises Crash (Create.fromSnapshot vg origin name) :=
  .bind (.perform _) fun _ => .pure _

theorem raises_create (vg pool name : Str) (sizeMb : Int) :
    Raises Crash (Create.run vg pool name sizeMb) := by
  apply Raises.bind (.bind (.perform _) fun _ => .pure _)
  intro _
  exact .bind (.perform _) fun _ => .pure _

theorem raises_setFdb (sets : SetOrder) (name : Str) (peers : List Str) : Raises Crash
    (Vxlan.setFdb sets name peers) := by
  apply Raises.bind (.bind (.perform _) fun _ => .fromExcept fun _ => VmUp.peers_crash)
  intro _
  exact .bind (.forEach _ fun _ => .perform _) fun _ => .forEach _ fun _ => .perform _

theorem raises_status (vmId : Id) : Raises Crash (Status.run vmId) :=
  .bind (.perform _) fun _ => .ite (.bind (.perform _) fun _ => .ite (.pure _)
    (.bind (raises_stillThere _) fun _ => .ite (.pure _) (.pure _))) (.pure _)

end Clients

/-! ## So do the acting parts of the endpoints -/

section Handlers

variable (self : Node)

theorem raises_nodeHost (nodeId : Id) : Raises Crash (Peers.nodeHost nodeId) :=
  .bind (.perform _) fun found => by cases found <;> exact .pure _

theorem raises_setStatus (vmId : Id) (status : VmStatus) :
    Raises Crash (Vms.setStatus vmId status) := by
  refine .bind (.perform _) fun _ => .bind (.perform _) fun row => ?_
  cases row with
  | some row => exact .bind (.pure _) fun _ => .pure _
  | none => exact .bind (.throw trivial) fun _ => .pure _

theorem raises_stop (vmId : Id) : Raises Crash (Vms.stopLocal self vmId) :=
  .bind (raises_sh self (raises_kill vmId)) fun _ => raises_setStatus ..

theorem raises_startLocal (vmId : Id) : Raises Crash (Vms.startLocal self vmId) :=
  .bind (raises_sh self (raises_start ..)) fun _ => raises_setStatus ..

theorem raises_teardown (vmId : Id) : Raises Crash (VmDeps.teardown vmId) := by
  apply Raises.bind (.bind (.perform _) fun _ => .whenSome fun _ => .bind (.perform _)
    fun _ => .pure _)
  intro _
  apply Raises.bind (.perform _)
  intro _
  exact .bind (.perform _) fun _ => .whenSome fun _ => .bind (.perform _) fun _ => .pure _

theorem raises_deleteVm (vmId nodeId : Id) : Raises Crash (Vms.deleteLocal self vmId nodeId) := by
  apply Raises.bind (raises_teardown vmId)
  intro _
  apply Raises.bind (raises_sh self (raises_down ..))
  intro _
  exact .bind (.perform _) fun _ => .pure _

theorem raises_recreate (vmId : Id) : Raises Crash (Vms.recreateVm self vmId) := by
  have path (row : VmRow) : Raises Crash (Vms.rebuildVolumePath row) :=
    .ite (.bind (.perform _) fun _ => .pure _) (.pure _)
  exact .bind (.perform _) fun _ => .whenSome fun _ =>
    .bind (raises_sh self (raises_down ..)) fun _ =>
    .bind (.perform _) fun _ => .whenSome fun _ => .bind (path _) fun _ => raises_bringUp ..

theorem raises_enqueue (vmId : Id) : Raises Crash (Domains.enqueueReload vmId) :=
  .bind (.perform _) fun _ => .whenSome fun _ => .bind (.perform _) fun _ => .whenSome fun _ =>
    .bind (.perform _) fun _ => .bind (.perform _) fun _ => .perform _

theorem raises_record (vpc : VpcRow) (nodeId pipId : Id) (time : Timestamp) (vm : VmRow)
    (pip : PublicIpRow) :
    Raises Crash (Proxy.record vpc nodeId pipId time vm pip) := by
  apply Raises.bind (.perform _)
  intro _
  apply Raises.bind (.perform _)
  intro _
  apply Raises.bind (.perform _)
  intro _
  apply Raises.bind (.perform _)
  intro _
  apply Raises.bind (.perform _)
  intro _
  exact .bind (.perform _) fun _ => .pure _

theorem raises_lists (f : Str → Sh Unit) (xs : List Str) (each : ∀ x, Raises Crash (f x)) :
    Raises Crash (self.forEach f xs) := .forEach xs fun x => raises_sh self (each x)

/-- A pass crashes, or ends. -/
theorem raises_pass : Raises Crash (PassOnce.run self) := by
  have ttl : Raises Crash (TtlPass.reconcile self) :=
    .ite (.pure _) (.bind (.perform _) fun _ => .bind (.perform _) fun _ =>
      .bind (.forEach _ fun _ =>
      .bind (raises_sh self (raises_down ..)) fun _ => .bind (.perform _) fun _ => .pure _)
        fun _ => .pure _)
  have vms : Raises Crash (VmsPass.reconcile self) :=
    .bind (.perform _) fun _ => .bind (raises_sh self (.perform _)) fun _ =>
      .bind (.forEach _ fun _ => .bind (raises_teardown _) fun _ =>
        raises_sh self (raises_down ..)) fun _ =>
      .bind (.bind (raises_sh self (raises_lvs ..)) fun _ => raises_lists self _ _ fun _ =>
        raises_remove ..)
        fun _ => .pure _
  have volumes : Raises Crash (VolumesPass.reconcile self) :=
    .bind (.perform _) fun _ => .bind (raises_sh self (raises_lvs ..)) fun _ =>
      .bind (raises_lists self _ _ fun _ => raises_remove ..) fun _ => .pure _
  have snapshots : Raises Crash (SnapshotsPass.reconcile self) :=
    .bind (.perform _) fun _ => .bind (raises_sh self (raises_lvs ..)) fun _ =>
      .bind (raises_lists self _ _ fun _ => raises_remove ..) fun _ => .pure _
  -- the pass over the overlay runs a filter, so its loop has an induction of its own
  have sync (peers : List Str) (vpcId : Id) :
      Raises Crash (self.sh (OverlayPass.sync self peers vpcId)) :=
    raises_sh self (.bind (raises_linkExists _) fun _ =>
      .ite (.bind (raises_setFdb ..) fun _ => .pure _) (.pure _))
  have filters (peers : List Str) (vpcs : List Id) :
      Raises Crash (filterEach (fun v => self.sh (OverlayPass.sync self peers v)) vpcs) := by
    induction vpcs with
    | nil => exact .pure _
    | cons v vpcs ih => exact .bind (sync peers v) fun _ => .bind ih fun _ => .pure _
  have overlay : Raises Crash (OverlayPass.reconcile self) :=
    .bind (raises_nodeHost _) fun _ => .ite (.pure _)
      (.bind (.bind (.perform _) fun _ => .pure _) fun _ =>
      .bind (.bind (.perform _) fun _ => .pure _) fun _ => .bind (filters ..) fun _ => .pure _)
  -- the five passes, in the order of `pass_once`
  apply Raises.bind ttl
  intro _
  apply Raises.bind vms
  intro _
  apply Raises.bind volumes
  intro _
  apply Raises.bind snapshots
  intro _
  exact .bind overlay fun _ => .pure _

end Handlers

/-! ## What a refusal leaves -/

/-- What is left of the cluster `w` in `w'`: all of it, and a default VPC that may have been
made. -/
structure Left (mayMake : Bool) (w w' : World) : Prop where
  hosts : w'.hosts = w.hosts
  tables : ∀ t, t ≠ .vpcs → w'.db t = w.db t
  vpcs : w'.db .vpcs = w.db .vpcs ∨ mayMake = true ∧
    (∀ r ∈ w.db .vpcs, r.name ≠ Defaults.DEFAULT_VPC_NAME) ∧
    ∃ made : VpcRow, made.name = Defaults.DEFAULT_VPC_NAME ∧ made.cidr = Defaults.DEFAULT_VPC_CIDR ∧
      (w'.db .vpcs).rows = (w.db .vpcs).rows ++ [made]

theorem Left.refl (mayMake : Bool) (w : World) : Left mayMake w w := ⟨rfl, fun _ _ => rfl, .inl rfl⟩

theorem Left.tick {mayMake : Bool} {w w' : World} (h : Left mayMake w w') :
    Left mayMake w w'.tick :=
  ⟨h.hosts, h.tables, h.vpcs⟩

/-- An `HTTPException` with a status of its own. -/
def Declined {α : Type} : Except Exn α → Prop
  | .error (.http code _) => code ≠ 500
  | _ => False

instance {α : Type} : DecidablePred (Declined : Except Exn α → Prop)
  | .ok _ => .isFalse id
  | .error (.http code _) => inferInstanceAs (Decidable (code ≠ 500))
  | .error .privops | .error (.runtime _) | .error .rqlite | .error (.value _) | .error .indexError
  | .error .typeError | .error .attributeError | .error .os | .error .requestError => .isFalse id

/-- Operations that write nothing. -/
def WritesNothing : Op → Prop
  | .insert _ _ | .update _ _ _ | .delete _ _ | .host _ _ => False
  | _ => True

theorem looks_exec (env : Env) {o : Op} (looks : WritesNothing o) (w : World) :
    (exec env o w).2 = w.tick := by
  cases o with
  | get | getAll | uuid4 | now | choice => rfl
  | _ => exact looks.elim

section Clean

variable {env : Env} {mayMake : Bool} {start : World} {α β : Type}

/-- Where the program raises an `HTTPException` with a status of its own, nothing is changed. -/
def Clean (env : Env) (mayMake : Bool) (start : World) (p : Py α) : Prop :=
  ∀ w, Left mayMake start w →
    wp (sequential (exec env)) p (fun r w' => Declined r → Left mayMake start w') w

namespace Clean

theorem ite {c : Prop} [Decidable c] {p q : Py α} (yes : Clean env mayMake start p)
    (no : Clean env mayMake start q) : Clean env mayMake start (if c then p else q) := by
  split
  · exact yes
  · exact no

theorem runs_on {p : Py α} (crashes : Raises Crash p) (w : World) :
    wp (sequential (exec env)) p (fun r w' => Declined r → Left mayMake start w') w := by
  refine (wp_sequential _ _ _ _).mpr fun declined => ?_
  have only := Raises.of_run (exec env) exec_crash crashes w
  cases ended : (run (exec env) p w).1 with
  | ok a =>
    rw [ended] at declined
    exact declined.elim
  | error e =>
    have crash := only e ended
    rw [ended] at declined
    cases e with
    | http code detail => exact crash.elim
    | _ => exact declined.elim

/-- A program that raises no `HTTPException`. -/
theorem of_raises {p : Py α} (crashes : Raises Crash p) : Clean env mayMake start p :=
    fun w _ => runs_on crashes w

/-- First a program that writes nothing. -/
theorem after {p : Py α} {f : α → Py β} (looks : Only WritesNothing p)
    (rest : ∀ a, Clean env mayMake start (f a)) :
    Clean env mayMake start (p >>= f) := by
  intro w left
  refine sequential_keeps_then (exec env) (Left mayMake start) ?_ looks left
    (fun _ _ left _ => left)
    fun a => rest a
  intro o w' looks left
  rw [looks_exec env looks]
  exact left.tick

/-- Then a program that raises no `HTTPException`. -/
theorem before {p : Py α} {f : α → Py β} (first : Clean env mayMake start p)
    (rest : ∀ a, Raises Crash (f a)) :
    Clean env mayMake start (p >>= f) := by
  intro w left
  rw [wp_bind]
  refine sequential_mono _ _ _ _ ?_ _ (first w left)
  rintro (e | a) w' post
  · cases e with
    | http code detail => exact fun declined => post declined
    | _ => exact fun declined => declined.elim
  · exact runs_on (rest a) w'

end Clean

/-- The default VPC is looked up, and made where it is missing. -/
theorem ensureDefaultVpc_left {w : World} (left : Left true start w) :
    wp (sequential (exec env)) Defaults.ensureDefaultVpc (fun _ w' => Left true start w') w := by
  rw [Defaults.ensureDefaultVpc, wp_bind, Defaults.defaultVpc, wp_get, onValue_ok]
  cases found : (w.db .vpcs).get fun r => r.name = Defaults.DEFAULT_VPC_NAME with
  | some existing => exact left.tick
  | none =>
    have missing : ∀ r ∈ w.db .vpcs, r.name ≠ Defaults.DEFAULT_VPC_NAME := fun r there =>
      of_decide_eq_false (Table.get_none.mp found r there)
    -- it cannot have been made before, since it would have been found
    have same : w.db .vpcs = start.db .vpcs := by
      rcases left.vpcs with same | ⟨-, -, made, named, -, rows⟩
      · exact same
      · have there : made ∈ w.db .vpcs := by
          rw [← Table.mem_rows, rows]
          exact List.mem_append_right _ (List.mem_singleton_self _)
        exact absurd named (missing made there)
    dsimp only
    rw [wp_bind, wp_uuid4, onValue_ok, wp_bind, wp_now, onValue_ok, wp_tryCatch, wp_bind, wp_insert]
    set row : VpcRow := ⟨env.uuid w.tick.clock, Defaults.DEFAULT_VPC_NAME,
      Defaults.DEFAULT_VPC_CIDR,
      env.now w.tick.tick.clock⟩ with is
    cases made : (w.tick.tick.tick.db .vpcs).insert row with
    | some rows =>
      rw [exec_insert_some env _ .vpcs row made]
      refine ⟨left.hosts, fun t other => ?_, .inr ⟨rfl, same ▸ missing, row, rfl, rfl, ?_⟩⟩
      · rw [tick_db, setTable_ne _ _ _ _ other]
        exact left.tables t other
      · rw [tick_db, setTable_self, Table.insert_some made, tick_db, tick_db, tick_db, same]
    | none =>
      rw [exec_insert_none env _ .vpcs row made]
      simp only [onValue_error, onError_error, if_true, wp_bind]
      rw [wp_get, onValue_ok]
      cases (w.tick.tick.tick.tick.db .vpcs).get fun r => r.name = Defaults.DEFAULT_VPC_NAME <;>
        exact left.tick.tick.tick.tick.tick

/-- First the default VPC. -/
theorem Clean.ensure {f : VpcRow → Py α} (rest : ∀ vpc, Clean env true start (f vpc)) :
    Clean env true start (Defaults.ensureDefaultVpc >>= f) := by
  intro w left
  rw [wp_bind]
  refine sequential_mono _ _ _ _ ?_ _ (ensureDefaultVpc_left left)
  rintro (e | vpc) w' left
  · exact fun _ => left
  · exact rest vpc w' left

end Clean

/-! ## Lookups -/

section Lookups

theorem of_looks {α : Type} {p : Py α} (looks : Looks p) : Only WritesNothing p := by
  apply looks.mono
  intro o reads
  cases reads <;> exact trivial

/-- First a row that must be there. -/
theorem Clean.find {env : Env} {mayMake : Bool} {start : World} {α : Type} {t : Tbl}
    {p : t.Row → Bool} {code : Nat} {detail : Str} {f : t.Row → Py α}
    (rest : ∀ row, Clean env mayMake start (f row)) :
    Clean env mayMake start (get t p >>= fun x => orHttp x code detail >>= f) :=
  .after (.get trivial) fun _ => .after (of_looks (.orHttp ..)) rest

end Lookups

/-! ## The endpoints -/

/-- The requests that make the default VPC. -/
def makes : Request → Bool
  | .spawnVm _ _ | .createProxy _ => true
  | _ => false

section Endpoints

variable {env : Env} {start : World}

/-- A name that is taken: the insert has failed. -/
theorem createVpc_clean (body : VpcIn) : Clean env false start (Vpcs.createVpc body) := by
  have validate : Only WritesNothing (Vpcs.validateCidr body.cidr) := by
    unfold Vpcs.validateCidr
    split
    · exact .pure _
    · exact .throw _
  refine .after validate fun _ => .after (.uuid4 trivial) fun id =>
    .after (.now trivial) fun time => ?_
  refine .before (fun w left => ?_) fun _ => .pure _
  rw [wp_tryCatch, wp_insert]
  cases made : (w.db .vpcs).insert ⟨id, body.name, body.cidr, time⟩ with
  | some rows =>
    rw [exec_insert_some env w .vpcs _ made]
    exact False.elim
  | none =>
    rw [exec_insert_none env w .vpcs _ made]
    exact fun _ => left.tick

/-- An unknown VPC: the delete has deleted nothing. -/
theorem deleteVpc_clean (vpcId : Id) : Clean env false start (Vpcs.deleteVpc vpcId) := by
  refine .after (.get trivial) fun _ => .after (of_looks (.refuseIf ..)) fun _ => fun w left => ?_
  rw [wp_bind, wp_delete, onValue_ok, refuseIf, wp_bind, wp_whenTrue]
  split
  next none_ =>
    -- no row was affected, so the table is what it was
    have empty : (w.db .vpcs).getAll (fun r => r.id = vpcId) = [] :=
      List.eq_nil_of_length_eq_zero (of_decide_eq_true none_)
    have rows : (w.db .vpcs).delete (fun r => r.id = vpcId) = w.db .vpcs := by
      have kept : ∀ r ∈ (w.db .vpcs).rows, (!decide (r.id = vpcId)) = true := by
        intro r there
        have out : r ∉ (w.db .vpcs).getAll fun r => r.id = vpcId := empty ▸ List.not_mem_nil
        rw [Table.mem_getAll] at out
        simpa using fun same => out ⟨there, decide_eq_true same⟩
      cases table : w.db .vpcs with
      | mk all distinct =>
        rw [table] at kept
        simp only [Table.delete, Table.mk.injEq]
        exact List.filter_eq_self.mpr kept
    have same : w.setTable .vpcs (w.db .vpcs) = w := by
      rw [World.setTable, Function.update_eq_self]
    rw [rows, same]
    exact fun _ => left.tick
  · exact False.elim

variable (self : Node) {forward : Forward} {mayMake : Bool}

theorem createVm_clean (body : VmIn) (nodeId : Id) : Clean env mayMake start
    (Vms.createLocal self body nodeId) :=
  .after (of_looks (.lookup ..)) fun _ => .after (of_looks (.bodyVolumePath body)) fun _ =>
    .after (.bind (.getAll trivial) fun _ => .pure _) fun _ => .after (.fromExcept _) fun _ =>
    .after (.uuid4 trivial) fun _ => .after (.now trivial) fun _ =>
    .of_raises (.bind (.perform _) fun _ => .bind (raises_bringUp ..) fun _ => .pure _)

theorem provision_clean (body : VolumeIn) (vg name : Str) (nodeId : Id) :
    Clean env mayMake start (Volumes.provision self body vg name nodeId) :=
  .ite (.after (.get trivial) fun _ => .after (of_looks (.orHttp ..)) fun _ =>
      .of_raises (.bind (raises_sh self (raises_fromSnapshot ..)) fun _ => .pure _))
    (.of_raises (.bind (raises_sh self (raises_create ..)) fun _ => .pure _))

theorem provisionData_clean (body : SpawnIn) (vg name : Str) (nodeId : Id) :
    Clean env mayMake start (Vms.provisionData self body vg name nodeId) :=
  .ite (.after (of_looks (.lookup ..)) fun _ => .after (of_looks (.refuseIf ..)) fun _ =>
      .of_raises (.bind (raises_sh self (raises_fromSnapshot ..)) fun _ => .pure _))
    (.of_raises (.bind (raises_sh self (raises_create ..)) fun _ => .pure _))

/-- The image is refused before the data volume is made; what comes after that only crashes. -/
theorem spawnLocal_clean (body : SpawnIn) (nodeId : Id) (preBringUp : Id → Py Unit)
    (crashes : ∀ vmId, Raises Crash (preBringUp vmId)) :
    Clean env true start (Vms.spawnLocal self body nodeId preBringUp) := by
  refine .ensure fun vpc => .after (of_looks (.resolveRootImage body nodeId)) fun _ =>
    .before ?_ fun vol => ?_
  · -- the image of the data volume is looked up before anything is made
    exact .after (.uuid4 trivial) fun _ => .before (provisionData_clean self _ _ _ _) fun _ =>
      .bind (.perform _) fun _ => .bind (.perform _) fun _ => .pure _
  · apply Raises.bind (.bind (.perform _) fun _ => .pure _)
    intro _
    apply Raises.bind (.fromExcept fun _ => Allocate.pickIp_crash)
    intro ip
    apply Raises.bind (.perform _)
    intro _
    apply Raises.bind (.perform _)
    intro _
    apply Raises.bind (.perform _)
    intro _
    apply Raises.bind (crashes _)
    intro _
    exact .bind (raises_bringUp ..) fun _ => .pure _

/-- What a node does with a request of its own. -/
theorem serveHere_clean (req : Request) (found : Api.Found req) :
    Clean env (makes req) start (Api.serveHere self req found) := by
  -- snapshots and images are removed alike
  have delete_ (mayMake : Bool) (rid : Id) (row : SnapshotRow) : Clean env mayMake start (do
      self.sh (SnapAction.remove (self.volumeVg row.nodeId) row.lvName)
      let _ ← delete .snapshots fun r => r.id = rid
      return Response.empty) :=
    .of_raises (.bind (raises_sh self (raises_remove ..)) fun _ => .bind (.perform _)
      fun _ => .pure _)
  -- each endpoint refuses before it changes anything, or changes and can only crash
  cases req with
  | createVpc body => exact createVpc_clean body
  | deleteVpc vpcId => exact deleteVpc_clean vpcId
  | createVolume body =>
    refine .after (.uuid4 trivial) fun _ => .before (provision_clean self _ _ _ _) fun _ => ?_
    exact .bind (.perform _) fun _ => .bind (.perform _) fun _ => .pure _
  | resizeVolume volumeId body =>
    apply Clean.of_raises
    refine .bind (raises_sh self (.bind (.perform _) fun _ => .perform _)) fun _ => ?_
    exact .bind (.perform _) fun _ => .pure _
  | deleteVolume volumeId =>
    refine .after (.get trivial) fun _ => .after (of_looks (.refuseIf ..)) fun _ => .of_raises ?_
    exact .bind (raises_sh self (raises_remove ..)) fun _ => .bind (.perform _) fun _ => .pure _
  | createSnapshot body =>
    apply Clean.of_raises
    refine .bind (.perform _) fun _ => .bind (raises_sh self (raises_snapshot ..)) fun _ => ?_
    exact .bind (.perform _) fun _ => .bind (.perform _) fun _ => .pure _
  | deleteSnapshot snapshotId => exact delete_ false snapshotId found
  | createImage body =>
    apply Clean.of_raises
    refine .bind (.perform _) fun _ => .bind (raises_sh self (raises_snapshot ..)) fun _ => ?_
    exact .bind (.perform _) fun _ => .bind (.perform _) fun _ => .pure _
  | deleteImage imageId => exact delete_ false imageId found
  | createVm body => exact createVm_clean self _ _
  | spawnVm body pin =>
    exact .before (spawnLocal_clean self body _ _ fun _ => .pure _) fun _ => .pure _
  | getVm vmId => exact .of_raises (.bind (raises_sh self (raises_status _)) fun _ => .pure _)
  | deleteVm vmId => exact .of_raises (raises_deleteVm self ..)
  | stopVm vmId => exact .of_raises (raises_stop self _)
  | startVm vmId => exact .of_raises (raises_startLocal self _)
  | rebootVm vmId => exact .of_raises (.bind (raises_stop self _) fun _ => raises_startLocal self _)
  | attachPublicIp vmId =>
    refine .after (of_looks (.usedAddresses _)) fun _ => .after (.fromExcept _)
      fun _ => .of_raises ?_
    apply Raises.bind (.perform _)
    intro _
    apply Raises.bind (.perform _)
    intro _
    apply Raises.bind (.perform _)
    intro _
    exact .bind (raises_recreate self _) fun _ => .pure _
  | detachPublicIp vmId =>
    apply Clean.of_raises
    refine .bind (.perform _) fun _ => .bind (.whenSome fun _ => ?_) fun _ => .pure _
    exact .bind (.perform _) fun _ => raises_recreate self _
  | createDomain body =>
    refine .after (of_looks (.resolveFqdn self body)) fun _ => .after (of_looks (.lookup ..))
      fun _ => .of_raises ?_
    apply Raises.bind (.perform _)
    intro _
    apply Raises.bind (.perform _)
    intro _
    apply Raises.bind (.perform _)
    intro _
    exact .bind (raises_enqueue _) fun _ => .pure _
  | deleteDomain domainId =>
    refine .find fun _ => .of_raises ?_
    exact .bind (.perform _) fun _ => .bind (raises_enqueue _) fun _ => .pure _
  | createProxy body =>
    refine .after (of_looks (.usedAddresses _)) fun _ => .after (.fromExcept _) fun _ => ?_
    refine .after (.now trivial) fun _ => .after (.uuid4 trivial) fun _ => ?_
    exact .before (spawnLocal_clean self _ _ _ fun _ => .perform _) fun _ => raises_record ..
  | createTask vmId body =>
    refine .after (of_looks (.lookup ..)) fun _ => .of_raises ?_
    apply Raises.bind (.perform _)
    intro _
    apply Raises.bind (.perform _)
    intro _
    exact .bind (.perform _) fun _ => .pure _
  | reconcileNow => exact .of_raises (.bind (raises_pass self) fun _ => .pure _)

theorem makes_handedTo (target : Id) (req : Request) :
    makes (Api.handedTo target req) = makes req := by
  cases req <;> rfl

theorem endpoint_clean (req : Request)
    (on : ∀ target req', makes req' = makes req →
      Clean env (makes req) start (forward target req')) :
    Clean env (makes req) start (Api.endpoint self forward req) := by
  rw [Api.endpoint_eq]
  have either (found : Api.Found req) : Clean env (makes req) start
      (if Api.ownerOf self req found ≠ self.id then
        forward (Api.ownerOf self req found) (Api.handedTo (Api.ownerOf self req found) req)
      else Api.serveHere self req found) :=
    .ite (on _ _ (makes_handedTo _ req)) (serveHere_clean self req found)
  by_cases proxy : ∃ body, req = .createProxy body
  · -- the default VPC comes before the lookups
    obtain ⟨body, rfl⟩ := proxy
    simp only [Api.lookUp, LawfulMonad.bind_assoc, pure_bind]
    refine .ensure fun vpc => .after (.get trivial) fun _ =>
      .after (of_looks (.refuseIf ..)) fun _ => ?_
    exact .after (of_looks (.nodeWithFreeIp self _)) fun target => either (vpc, target)
  · exact .after (of_looks (Api.lookUp_looks self req fun body same => proxy ⟨body, same⟩)) either

end Endpoints

/-- A request that is answered with a status of its own, by whichever node, leaves every host and
every table as they were, but for the default VPC that a spawn or a proxy may have made. -/
theorem refused_leaves (env : Env) (cfg : Id → NodeConfig) (hops : Nat) (nodeId : Id)
    (req : Request) (w : World)
    (refused : Declined (run (exec env) (Api.serve cfg hops nodeId req) w).1) :
    Left (makes req) w (run (exec env) (Api.serve cfg hops nodeId req) w).2 := by
  have all := Api.serve_rule env cfg (fun req' w' => makes req' = makes req ∧ Left (makes req) w w')
    (fun r w' => Declined r → Left (makes req) w w') ?_ ?_ ?_ ?_ hops nodeId req w ⟨rfl, .refl _ _⟩
  · exact (wp_sequential _ _ _ _).mp all refused
  · rintro req' w' ⟨same, left⟩
    exact ⟨same, left.tick⟩
  · rintro req' e w' ⟨_, left⟩ _
    exact left
  · -- a crash of the other node is relayed with status 500
    intro e w' kept declined
    cases e with
    | http code detail => exact kept declined
    | _ => exact absurd rfl declined
  · rintro n forward req' w' ⟨same, left⟩ on
    have clean (hands : ∀ target req'', makes req'' = makes req' → Clean env (makes req') w
      (forward target req'')) :
        Clean env (makes req') w (Api.endpoint ⟨n,
          cfg n⟩ forward req') := endpoint_clean ⟨n, cfg n⟩ req'
          hands
    rw [same] at clean
    exact clean (fun target req'' same' w'' left' => on target req'' w'' ⟨same', left'⟩) w' left

/-- A proxy on a node without public addresses: refused after the default VPC was made. -/
theorem no_address_left : Left true Sample.fresh
    (run (exec Sample.env) (Api.serve Sample.cluster 1 "n2" (.createProxy ⟨none, 1, 512⟩))
      Sample.fresh).2 :=
  refused_leaves Sample.env Sample.cluster 1 "n2" (.createProxy ⟨none, 1, 512⟩) Sample.fresh
    (by decide +kernel)

end Refusals

end Nyc
