import Nyc.Dispatch

/-!
# What a request may write

Coarse footprints: the tables that each endpoint, each pass and each tick may write. Setting
the `status` of a VM or of a proxy, or the size of a volume, is told apart from the other
writes, since it changes no relation between the rows.
-/

namespace Nyc

open Data Effects Effects.Program Client

/-- Operations that insert into no table outside `ts`, and delete from none outside `ds`. Rows are
updated in the four ways named here only; a task's, where `ts` has the tasks. Reading all addresses,
as only an allocation does, counts as touching them. -/
inductive Touch (ts ds : List Tbl) : Op → Prop where
  | get (t : Tbl) (p : t.Row → Bool) : Touch ts ds (.get t p)
  | getAll (t : Tbl) (p : t.Row → Bool) (known : t = .publicIps → t ∈ ts) :
    Touch ts ds (.getAll t p)
  | uuid4 : Touch ts ds .uuid4
  | now : Touch ts ds .now
  | choice : Touch ts ds .choice
  | host (nodeId : Id) (c : Cmd) : Touch ts ds (.host nodeId c)
  | status (p : VmRow → Bool) (st : VmStatus) :
    Touch ts ds (.update .vms p fun r => { r with status := st })
  | ready (p : ProxyRow → Bool) : Touch ts ds (.update .proxies p fun r => { r with
    status := .ready })
  | insert (t : Tbl) (row : t.Row) (known : t ∈ ts) : Touch ts ds (.insert t row)
  | size (p : VolumeRow → Bool) (sizeMb : Int) :
    Touch ts ds (.update .volumes p fun r => { r with sizeMb := sizeMb })
  | task (p : TaskRow → Bool) (f : TaskRow → TaskRow) (known : .tasks ∈ ts) :
    Touch ts ds (.update .tasks p f)
  | delete (t : Tbl) (p : t.Row → Bool) (known : t ∈ ds) : Touch ts ds (.delete t p)

namespace Touch

variable {ts ts' ds ds' : List Tbl}

/-- A table of which no row is updated is left alone by what neither inserts nor deletes there. -/
theorem spares {o : Op} {t : Tbl} (h : Touch ts ds o)
    (fixed : t ∉ [Tbl.vms, .proxies, .volumes, .tasks]) (new : t ∉ ts) (old : t ∉ ds) :
    ¬ o.writes t := by
  simp only [List.mem_cons, List.not_mem_nil, or_false, not_or] at fixed
  cases h with
  | insert t' row known => exact fun (same : t' = t) => new (same ▸ known)
  | delete t' p known => exact fun (same : t' = t) => old (same ▸ known)
  | status p st => exact fun same => fixed.1 same.symm
  | ready p => exact fun same => fixed.2.1 same.symm
  | size p sizeMb => exact fun same => fixed.2.2.1 same.symm
  | task p f known => exact fun same => fixed.2.2.2 same.symm
  | _ => exact not_false

theorem mono {o : Op} (more : ∀ t ∈ ts, t ∈ ts') (more' : ∀ t ∈ ds, t ∈ ds') (h : Touch ts ds o) :
    Touch ts' ds' o := by
  cases h with
  | get t p => exact .get t p
  | getAll t p known => exact .getAll t p fun same => more t (known same)
  | uuid4 => exact .uuid4
  | now => exact .now
  | choice => exact .choice
  | host nodeId c => exact .host nodeId c
  | status p st => exact .status p st
  | ready p => exact .ready p
  | insert t row known => exact .insert t row (more t known)
  | size p sizeMb => exact .size p sizeMb
  | task p f known => exact .task p f (more .tasks known)
  | delete t p known => exact .delete t p (more' t known)

end Touch

/-! ## What a footprint leaves of the rows -/

/-- The row before and after: what the updates of a footprint set is left open. -/
def Tbl.Like : (t : Tbl) → t.Row → t.Row → Prop
  | .vms, r, r' => ∃ status, r' = { r with status := status }
  | .volumes, r, r' => ∃ sizeMb, r' = { r with sizeMb := sizeMb }
  | .proxies, r, r' => ∃ status, r' = { r with status := status }
  | .vpcs, r, r' | .snapshots, r, r' | .publicIps, r, r' | .domains, r, r' | .tasks, r, r'
  | .nodes, r, r' =>
    r' = r

theorem Tbl.Like.refl (t : Tbl) (r : t.Row) : t.Like r r := by
  cases t with
  | vms => exact ⟨r.status, rfl⟩
  | volumes => exact ⟨r.sizeMb, rfl⟩
  | proxies => exact ⟨r.status, rfl⟩
  | vpcs | snapshots | publicIps | domains | tasks | nodes => rfl

section Rows

variable {ts ds : List Tbl} (env : Env) (w : World)

/-- The rows of the table after the operation are those before. -/
structure SameRows (t : Tbl) (o : Op) : Prop where
  came : ∀ r' ∈ (exec env o w).2.db t, ∃ r ∈ w.db t, t.Like r r'
  stay : ∀ r ∈ w.db t, ∃ r' ∈ (exec env o w).2.db t, t.Like r r'

variable {env w}

theorem SameRows.frame {t : Tbl} {o : Op} (spares : ¬ o.writes t) : SameRows env w t o := by
  constructor
  · intro r there
    rw [exec_frame env w t o spares] at there
    exact ⟨r, there, .refl t r⟩
  · intro r there
    refine ⟨r, ?_, .refl t r⟩
    rw [exec_frame env w t o spares]
    exact there

theorem SameRows.update (t' : Tbl) {t : Tbl} {p : t.Row → Bool} {f : t.Row → t.Row}
    (keeps : ∀ col ∈ t.unique, ∀ r, col (f r) = col r) (alike : ∀ r, t.Like r (f r)) :
    SameRows env w t' (.update t p f) := by
  by_cases other : t = t'
  · subst other
    obtain ⟨rows, updated, same⟩ := exec_update env w t p f keeps
    have set_ (r : t.Row) : t.Like r (if p r then f r else r) := by
      split
      · exact alike r
      · exact .refl t r
    constructor
    · intro r' there'
      rw [same, tick_db, setTable_self] at there'
      obtain ⟨r, there, rfl⟩ := (Table.mem_update updated).mp there'
      exact ⟨r, there, set_ r⟩
    · intro r there
      refine ⟨_, ?_, set_ r⟩
      rw [same, tick_db, setTable_self]
      exact (Table.mem_update updated).mpr ⟨r, there, rfl⟩
  · exact .frame other

theorem SameRows.status (t : Tbl) (p : VmRow → Bool) (status : VmStatus) :
    SameRows env w t (.update .vms p fun r => { r with status := status }) := by
  apply SameRows.update
  · intro col there r
    obtain rfl := List.mem_singleton.mp there
    rfl
  · intro r
    exact ⟨status, rfl⟩

theorem SameRows.size (t : Tbl) (p : VolumeRow → Bool) (sizeMb : Int) :
    SameRows env w t (.update .volumes p fun r => { r with sizeMb := sizeMb }) := by
  apply SameRows.update
  · intro col there r
    obtain rfl := List.mem_singleton.mp there
    rfl
  · intro r
    exact ⟨sizeMb, rfl⟩

theorem SameRows.ready (t : Tbl) (p : ProxyRow → Bool) :
    SameRows env w t (.update .proxies p fun r => { r with status := .ready }) := by
  apply SameRows.update
  · intro col there r
    rcases List.mem_pair.mp there with rfl | rfl <;> rfl
  · intro r
    exact ⟨.ready, rfl⟩

/-- A row comes in by an insert only. -/
theorem Touch.rows_came {o : Op} (touch : Touch ts ds o) {t : Tbl} (new : t ∉ ts) :
    ∀ r' ∈ (exec env o w).2.db t, ∃ r ∈ w.db t, t.Like r r' := by
  cases touch with
  | status p status => exact (SameRows.status t p status).came
  | size p sizeMb => exact (SameRows.size t p sizeMb).came
  | ready p => exact (SameRows.ready t p).came
  | insert t' row known =>
    have other : t' ≠ t := fun same => new (same ▸ known)
    exact (SameRows.frame (o := .insert t' row) other).came
  | task p f known =>
    have other : Tbl.tasks ≠ t := fun same => new (same ▸ known)
    exact (SameRows.frame (o := .update .tasks p f) other).came
  | delete t' p known =>
    by_cases other : t' = t
    · subst other
      intro r there
      rw [exec_delete, tick_db, setTable_self, Table.mem_delete] at there
      exact ⟨r, there.1, .refl t' r⟩
    · exact (SameRows.frame (o := .delete t' p) other).came
  | get | getAll | uuid4 | now | choice | host =>
    apply (SameRows.frame _).came
    exact id

/-- A row goes by a delete only. -/
theorem Touch.rows_stay {o : Op} (touch : Touch ts ds o) {t : Tbl} (old : t ∉ ds)
    (still : t ≠ .tasks) :
    ∀ r ∈ w.db t, ∃ r' ∈ (exec env o w).2.db t, t.Like r r' := by
  cases touch with
  | status p status => exact (SameRows.status t p status).stay
  | size p sizeMb => exact (SameRows.size t p sizeMb).stay
  | ready p => exact (SameRows.ready t p).stay
  | insert t' row known =>
    by_cases other : t' = t
    · subst other
      intro r there
      refine ⟨r, ?_, .refl t' r⟩
      cases inserted : (w.db t').insert row with
      | none =>
        rw [exec_insert_none env w t' row inserted]
        exact there
      | some rows =>
        rw [exec_insert_some env w t' row inserted, tick_db, setTable_self]
        exact (Table.mem_insert inserted).mpr (.inl there)
    · exact (SameRows.frame (o := .insert t' row) other).stay
  | task p f known => exact (SameRows.frame (o := .update .tasks p f) still.symm).stay
  | delete t' p known =>
    have other : t' ≠ t := fun same => old (same ▸ known)
    exact (SameRows.frame (o := .delete t' p) other).stay
  | get | getAll | uuid4 | now | choice | host =>
    apply (SameRows.frame _).stay
    exact id

end Rows

/-! ## Invariants -/

/-- Every allowed operation keeps `J`. -/
def Keeps (env : Env) (allowed : Op → Prop) (J : World → Prop) : Prop :=
  ∀ o w, allowed o → J w → J (exec env o w).2

namespace Keeps

variable {env : Env} {allowed : Op → Prop} {J : World → Prop} {w : World}

/-- A program of allowed operations, at the end. -/
theorem only (keeps : Keeps env allowed J) {α : Type} {p : Py α} (h : Only allowed p)
    (holds : J w) :
    wp (sequential (exec env)) p (fun _ w' => J w') w :=
  sequential_keeps (exec env) J keeps h w holds

/-- A program of allowed operations, before another one. -/
theorem first (keeps : Keeps env allowed J) {α β : Type} {p : Py α} {f : α → Py β}
    {Q : Except Exn β → World → Prop} (h : Only allowed p) (holds : J w)
    (fails : ∀ e w', J w' → Q (.error e) w')
    (rest : ∀ a w', J w' → wp (sequential (exec env)) (f a) Q w') :
    wp (sequential (exec env)) (p >>= f) Q w :=
  sequential_keeps_then (exec env) J keeps h holds fails rest

end Keeps

/-! ## Programs over the database alone -/

/-- The operation runs no command on a host. -/
def Op.OffHost : Op → Prop
  | .host _ _ => False
  | _ => True

/-- Nor does it give a volume's row a size, which goes with the size of the LV. -/
def Op.Aside : Op → Prop
  | .host _ _ => False
  | .update .volumes _ _ => False
  | _ => True

theorem Op.Aside.offHost {o : Op} (aside : o.Aside) : o.OffHost := by
  cases o with
  | host n c => exact aside
  | _ => trivial

/-- A command of the operation, if it runs one, is allowed on its node. -/
def Op.OnHosts (P : Id → Cmd → Prop) : Op → Prop
  | .host n c => P n c
  | _ => True

/-- The same of an operation that gives no volume's row a size. -/
def Op.Within (P : Id → Cmd → Prop) : Op → Prop
  | .host n c => P n c
  | .update .volumes _ _ => False
  | _ => True

theorem Op.Aside.within {o : Op} (aside : o.Aside) (P : Id → Cmd → Prop) : o.Within P := by
  cases o with
  | host n c => cases aside
  | update t p f =>
    cases t with
    | volumes => cases aside
    | _ => trivial
  | _ => trivial

theorem Op.Within.onHosts {o : Op} {P : Id → Cmd → Prop} (within : o.Within P) : o.OnHosts P := by
  cases o with
  | host n c => exact within
  | _ => trivial

theorem Op.Aside.onHosts {o : Op} (aside : o.Aside) (P : Id → Cmd → Prop) : o.OnHosts P :=
  (aside.within P).onHosts

/-- A program on the tables only, that resizes no volume. -/
abbrev Aside {α : Type} (p : Py α) : Prop := Only Op.Aside p

theorem hosts_offHost (env : Env) (w : World) {o : Op} (off : o.OffHost) :
    (exec env o w).2.hosts = w.hosts := by
  cases o <;> simp only [exec]
  case insert t row => split <;> rfl
  case update t p f => split <;> rfl
  case host n c => cases off
  all_goals rfl

namespace Aside

theorem hosts {P : Id → Cmd → Prop} {α : Type} {p : Py α} (off : Aside p) :
    Only (Op.OnHosts P) p :=
  off.mono fun _ aside => aside.onHosts P

theorem of_looks {α : Type} {p : Py α} (looks : Looks p) : Aside p := by
  apply looks.mono
  intro o reads
  cases reads <;> exact trivial

theorem orHttp {α : Type} (x : Option α) (code : Nat) (detail : Str) :
    Aside (orHttp x code detail) :=
  .of_looks (.orHttp ..)

theorem refuseIf (c : Bool) (code : Nat) (detail : Str) : Aside (refuseIf c code detail) :=
  .of_looks (.refuseIf ..)

theorem lookup {t : Tbl} (p : t.Row → Bool) (code : Nat) (detail : Str) :
    Aside (do Nyc.orHttp (← get t p) code detail) :=
  .of_looks (.lookup ..)

theorem usedIps (vpcId : Id) : Aside (Vms.usedIps vpcId) :=
  .of_looks (.usedIps vpcId)

theorem bodyVolumePath (body : VmIn) : Aside (Vms.bodyVolumePath body) :=
  .of_looks (.bodyVolumePath body)

theorem rebuildVolumePath (row : VmRow) : Aside (Vms.rebuildVolumePath row) :=
  .ite (fun _ => .bind (.get trivial) fun _ => .pure _) fun _ => .pure _

theorem ensureDefaultVpc : Aside Defaults.ensureDefaultVpc := by
  refine .bind (.get trivial) fun vpc => ?_
  cases vpc with
  | some vpc => exact .pure _
  | none =>
    refine .bind (.uuid4 trivial) fun _ => .bind (.now trivial) fun _ => .tryCatch
      (.bind (.insert trivial) fun _ => .pure _) fun _ => .ite (fun _ => ?_) fun _ => .throw _
    exact .bind (.get trivial) fun vpc => by cases vpc <;> exact trivial

theorem imageOr400 (imageId : Id) : Aside (Vms.imageOr400 imageId) :=
  .of_looks (.imageOr400 imageId)

theorem resolveRootImage (body : SpawnIn) (nodeId : Id) :
    Aside (Vms.resolveRootImage body nodeId) :=
  .of_looks (.resolveRootImage body nodeId)

theorem nodeHost (nodeId : Id) : Aside (Peers.nodeHost nodeId) :=
  .bind (.get trivial) fun row => by cases row <;> exact trivial

theorem peerHosts (nodeId : Id) : Aside (Peers.peerHosts nodeId) :=
  .bind (.getAll trivial) fun _ => .pure _

theorem setStatus (vmId : Id) (status : VmStatus) : Aside (Vms.setStatus vmId status) := by
  apply Only.bind (.update trivial)
  intro _
  apply Only.bind (.get trivial)
  intro row
  exact .bind (by cases row <;> exact trivial) fun _ => .pure _

theorem teardown (vmId : Id) : Aside (VmDeps.teardown vmId) := by
  apply Only.bind (.bind (.get trivial) fun _ => .whenSome fun _ _ => .bind (.delete trivial)
    fun _ => .pure _)
  intro _
  apply Only.bind (.delete trivial)
  intro _
  exact .bind (.get trivial) fun _ => .whenSome fun _ _ => .bind (.delete trivial) fun _ => .pure _

theorem usedAddresses (nodeId : Id) : Aside (PublicIps.usedAddresses nodeId) :=
  .of_looks (.usedAddresses nodeId)

theorem nodeWithFreeIp (self : Node) (default : Id) : Aside (Proxy.nodeWithFreeIp self default) :=
  .of_looks (.nodeWithFreeIp self default)

theorem record (vpc : VpcRow) (nodeId pipId : Id) (time : Timestamp) (vm : VmRow)
    (pip : PublicIpRow) :
    Aside (Proxy.record vpc nodeId pipId time vm pip) := by
  apply Only.bind (.uuid4 trivial)
  intro id
  apply Only.bind (.insert trivial)
  intro _
  apply Only.bind (.uuid4 trivial)
  intro id
  apply Only.bind (.uuid4 trivial)
  intro id
  apply Only.bind (.insert trivial)
  intro _
  exact .bind (.insert trivial) fun _ => .pure _

theorem createVpc (body : VpcIn) : Aside (Vpcs.createVpc body) := by
  refine .bind ?_ fun _ => .bind (.uuid4 trivial) fun _ => .bind (.now trivial) fun _ =>
    .bind (.tryCatch (.insert trivial) fun _ => .ite (fun _ => .throw _) fun _ => .throw _)
      fun _ => .pure _
  unfold Vpcs.validateCidr
  split <;> exact trivial

theorem deleteVpc (vpcId : Id) : Aside (Vpcs.deleteVpc vpcId) := by
  apply Only.bind (.get trivial)
  intro row
  apply Only.bind (refuseIf ..)
  intro _
  apply Only.bind (.delete trivial)
  intro _
  exact .bind (refuseIf ..) fun _ => .pure _

theorem enqueueReload (vmId : Id) : Aside (Domains.enqueueReload vmId) :=
  .bind (.get trivial) fun _ => .whenSome fun _ _ => .bind (.get trivial) fun _ =>
    .whenSome fun _ _ =>
    .bind (.now trivial) fun _ => .bind (.uuid4 trivial) fun _ => .insert trivial

theorem createDomain (self : Node) (body : DomainIn) :
    Aside (Domains.createDomain self body) := by
  apply Only.bind (.ite (fun _ => .pure _) fun _ =>
    .ite (fun _ => .ite (fun _ => .pure _) fun _ => .throw _) fun _ => .throw _)
  intro _
  apply Only.bind (lookup ..)
  intro row
  apply Only.bind (.uuid4 trivial)
  intro id
  apply Only.bind (.now trivial)
  intro time
  apply Only.bind (.insert trivial)
  intro _
  exact .bind (enqueueReload _) fun _ => .pure _

theorem deleteDomain (domainId : Id) : Aside (Domains.deleteDomain domainId) := by
  apply Only.bind (.get trivial)
  intro row
  apply Only.bind (orHttp ..)
  intro row
  apply Only.bind (.delete trivial)
  intro _
  exact .bind (enqueueReload _) fun _ => .pure _

theorem createTask (vmId : Id) (body : TaskIn) : Aside (Tasks.createTask vmId body) := by
  apply Only.bind (lookup ..)
  intro row
  apply Only.bind (.now trivial)
  intro time
  apply Only.bind (.uuid4 trivial)
  intro id
  exact .bind (.insert trivial) fun _ => .pure _

theorem lookUp (self : Node) (req : Request) : Aside (Api.lookUp self req) := by
  by_cases proxy : ∃ body, req = .createProxy body
  · obtain ⟨body, rfl⟩ := proxy
    apply Only.bind ensureDefaultVpc
    intro vpc
    apply Only.bind (.get trivial)
    intro proxy
    apply Only.bind (refuseIf ..)
    intro _
    exact .bind (nodeWithFreeIp self _) fun _ => .pure _
  · exact .of_looks (Api.lookUp_looks self req fun body same => proxy ⟨body, same⟩)

end Aside

section

variable {ts ds : List Tbl} (self : Node)

theorem sh_touch {α : Type} (p : Sh α) : Only (Touch ts ds) (self.sh p) :=
  .shAny self p (.host self.id)

theorem shEach_touch (f : Str → Sh Unit) (xs : List Str) : Only (Touch ts ds) (self.forEach f xs) :=
  .forEach xs fun _ _ => sh_touch self _

theorem orHttp_touch {α : Type} (x : Option α) (code : Nat) (detail : Str) :
    Only (Touch ts ds) (orHttp x code detail) := by
  cases x <;> exact trivial

theorem refuseIf_touch (c : Bool) (code : Nat) (detail : Str) :
    Only (Touch ts ds) (refuseIf c code detail) := .whenTrue fun _ => .throw _

/-! ## Networks, volumes and snapshots -/

namespace Vpcs

theorem createVpc_touch (body : VpcIn) (known : .vpcs ∈ ts) :
    Only (Touch ts ds) (createVpc body) := by
  refine .bind ?_ fun _ => .bind (.uuid4 .uuid4) fun _ => .bind (.now .now) fun _ =>
    .bind (.tryCatch (.insert (.insert .vpcs _ known)) fun _ => ?_) fun _ => .pure _
  · unfold validateCidr
    split <;> exact trivial
  · exact .ite (fun _ => .throw _) fun _ => .throw _

theorem deleteVpc_touch (vpcId : Id) (known : .vpcs ∈ ds) :
    Only (Touch ts ds) (deleteVpc vpcId) := by
  apply Only.bind (.get (.get ..))
  intro row
  apply Only.bind (refuseIf_touch ..)
  intro _
  apply Only.bind (.delete (.delete .vpcs _ known))
  intro _
  exact .bind (refuseIf_touch ..) fun _ => .pure _

end Vpcs

namespace Volumes

theorem provision_touch (body : VolumeIn) (vg name : Str) (nodeId : Id) :
    Only (Touch ts ds) (provision self body vg name nodeId) :=
  .ite (fun _ => .bind (.get (.get ..)) fun _ => .bind (orHttp_touch ..) fun _ =>
      .bind (sh_touch self _) fun _ => .pure _)
    fun _ => .bind (sh_touch self _) fun _ => .pure _

theorem createLocal_touch (body : VolumeIn) (nodeId : Id) (known : .volumes ∈ ts) :
    Only (Touch ts ds) (createLocal self body nodeId) := by
  apply Only.bind (.uuid4 .uuid4)
  intro id
  apply Only.bind (provision_touch self ..)
  intro _
  apply Only.bind (.now .now)
  intro time
  exact .bind (.insert (.insert .volumes _ known)) fun _ => .pure _

theorem resizeLocal_touch (row : VolumeRow) (sizeMb : Int) :
    Only (Touch ts ds) (resizeLocal self row sizeMb) := by
  apply Only.bind (sh_touch self _)
  intro _
  exact .bind (.update (.size _ sizeMb)) fun _ => .pure _

theorem deleteLocal_touch (row : VolumeRow) (known : .volumes ∈ ds) :
    Only (Touch ts ds) (deleteLocal self row) := by
  apply Only.bind (.get (.get ..))
  intro row
  apply Only.bind (refuseIf_touch ..)
  intro _
  apply Only.bind (sh_touch self _)
  intro _
  exact .bind (.delete (.delete .volumes _ known)) fun _ => .pure _

end Volumes

namespace Snapshots

theorem resolveSource_touch (body : SnapshotIn) : Only (Touch ts ds) (resolveSource body) :=
  .bind (refuseIf_touch ..) fun _ => .ite
    (fun _ => .bind (.get (.get ..)) fun _ => .bind (orHttp_touch ..) fun _ => .pure _)
    fun _ => .bind (.get (.get ..)) fun _ => .bind (orHttp_touch ..) fun _ => .pure _

theorem createSnapshotLocal_touch (body : SnapshotIn) (src : Source) (known : .snapshots ∈ ts) :
    Only (Touch ts ds) (createSnapshotLocal self body src) := by
  apply Only.bind (.uuid4 .uuid4)
  intro id
  apply Only.bind (sh_touch self _)
  intro _
  apply Only.bind (.now .now)
  intro time
  exact .bind (.insert (.insert .snapshots _ known)) fun _ => .pure _

theorem createImageLocal_touch (body : ImageIn) (snap : SnapshotRow) (nodeId : Id)
    (known : .snapshots ∈ ts) : Only (Touch ts ds) (createImageLocal self body snap nodeId) := by
  apply Only.bind (.uuid4 .uuid4)
  intro id
  apply Only.bind (sh_touch self _)
  intro _
  apply Only.bind (.now .now)
  intro time
  exact .bind (.insert (.insert .snapshots _ known)) fun _ => .pure _

end Snapshots

/-! ## VMs -/

theorem ensureDefaultVpc_touch (known : .vpcs ∈ ts) :
    Only (Touch ts ds) Defaults.ensureDefaultVpc := by
  refine .bind (.get (.get ..)) fun vpc => ?_
  cases vpc with
  | some vpc => exact .pure _
  | none =>
    refine .bind (.uuid4 .uuid4) fun _ => .bind (.now .now) fun _ => .tryCatch
      (.bind (.insert (.insert .vpcs _ known)) fun _ => .pure _) fun _ => .ite (fun _ => ?_)
        fun _ => .throw _
    refine .bind (.get (.get ..)) fun vpc => ?_
    cases vpc <;> exact trivial

theorem nodeHost_touch (nodeId : Id) : Only (Touch ts ds) (Peers.nodeHost nodeId) :=
  .bind (.get (.get ..)) fun row => by cases row <;> exact trivial

theorem peerHosts_touch (nodeId : Id) : Only (Touch ts ds) (Peers.peerHosts nodeId) :=
  .bind (.getAll (.getAll _ _ nofun)) fun _ => .pure _

theorem teardown_touch (vmId : Id) (ips : .publicIps ∈ ds) (domains : .domains ∈ ds)
    (proxies : .proxies ∈ ds) : Only (Touch ts ds) (VmDeps.teardown vmId) := by
  apply Only.bind (.bind (.get (.get ..)) fun _ => .whenSome fun _ _ =>
    .bind (.delete (.delete .publicIps _ ips)) fun _ => .pure _)
  intro _
  apply Only.bind (.delete (.delete .domains _ domains))
  intro _
  apply Only.bind (.get (.get ..))
  intro row
  exact .whenSome fun _ _ => .bind (.delete (.delete .proxies _ proxies)) fun _ => .pure _

namespace Vms

theorem usedIps_touch (vpcId : Id) : Only (Touch ts ds) (usedIps vpcId) :=
  .bind (.getAll (.getAll _ _ nofun)) fun _ => .pure _

theorem spec_touch (row : VmRow) (cidr : Str) (volPath : Option Path) (sshPubkey : Option Str)
    (rootfsOrigin : Str) :
    Only (Touch ts ds) (spec self row cidr volPath sshPubkey rootfsOrigin) := by
  apply Only.bind (.get (.get ..))
  intro row
  apply Only.bind (nodeHost_touch _)
  intro host
  exact .bind (peerHosts_touch _) fun _ => .pure _

theorem bringUp_touch (row : VmRow) (cidr : Str) (volPath : Option Path) (sshPubkey : Option Str)
    (rootfsOrigin : Str) :
    Only (Touch ts ds) (bringUp self row cidr volPath sshPubkey rootfsOrigin) := by
  apply Only.bind (spec_touch self ..)
  intro _
  apply Only.bind (sh_touch self _)
  intro _
  exact .bind (.update (.status _ .running)) fun _ => .pure _

theorem vpcOr404_touch (vpcId : Id) : Only (Touch ts ds) (vpcOr404 vpcId) :=
  .bind (.get (.get ..)) fun _ => orHttp_touch ..

theorem bodyVolumePath_touch (body : VmIn) : Only (Touch ts ds) (bodyVolumePath body) :=
  .ite (fun _ => .bind (.bind (.get (.get ..)) fun _ => .bind (orHttp_touch ..) fun _ => .pure _)
    fun _ => .pure _)
    fun _ => .pure _

theorem rebuildVolumePath_touch (row : VmRow) : Only (Touch ts ds) (rebuildVolumePath row) :=
  .ite (fun _ => .bind (.get (.get ..)) fun _ => .pure _) fun _ => .pure _

theorem recreateVm_touch (vmId : Id) : Only (Touch ts ds) (recreateVm self vmId) :=
  .bind (.get (.get ..)) fun _ => .whenSome fun _ _ => .bind (sh_touch self _) fun _ =>
    .bind (.get (.get ..)) fun _ => .whenSome fun _ _ =>
      .bind (rebuildVolumePath_touch _) fun _ => bringUp_touch self ..

theorem createLocal_touch (body : VmIn) (nodeId : Id) (known : .vms ∈ ts) :
    Only (Touch ts ds) (createLocal self body nodeId) := by
  apply Only.bind (vpcOr404_touch _)
  intro row
  apply Only.bind (bodyVolumePath_touch body)
  intro path
  apply Only.bind (usedIps_touch _)
  intro used
  apply Only.bind (.fromExcept _)
  intro ip
  apply Only.bind (.uuid4 .uuid4)
  intro id
  apply Only.bind (.now .now)
  intro time
  apply Only.bind (.insert (.insert .vms _ known))
  intro _
  exact .bind (bringUp_touch self ..) fun _ => .pure _

theorem imageOr400_touch (imageId : Id) : Only (Touch ts ds) (imageOr400 imageId) :=
  .bind (.get (.get ..)) fun _ => orHttp_touch ..

theorem imageNodes_touch (ids : List Id) : Only (Touch ts ds) (imageNodes ids) := by
  induction ids with
  | nil => exact .pure _
  | cons i rest ih => exact .bind (imageOr400_touch i) fun _ => .bind ih fun _ => .pure _

theorem pinOrTarget_touch (body : SpawnIn) (pin : Option Id) :
    Only (Touch ts ds) (pinOrTarget body pin) := by
  refine .ite (fun _ => .pure _) fun _ => .bind (imageNodes_touch _) fun nodes => ?_
  split
  · refine .bind (.getAll (.getAll _ _ nofun)) fun rows => ?_
    cases rows with
    | nil => exact .throw _
    | cons first rest => exact .bind (.choice .choice) fun _ => .pure _
  · exact .pure _
  · exact .throw _

theorem provisionData_touch (body : SpawnIn) (vg name : Str) (nodeId : Id) :
    Only (Touch ts ds) (provisionData self body vg name nodeId) :=
  .ite (fun _ => .bind (imageOr400_touch _) fun _ => .bind (refuseIf_touch ..) fun _ =>
      .bind (sh_touch self _) fun _ => .pure _)
    fun _ => .bind (sh_touch self _) fun _ => .pure _

theorem autoVolume_touch (body : SpawnIn) (nodeId : Id) (known : .volumes ∈ ts) :
    Only (Touch ts ds) (autoVolume self body nodeId) := by
  apply Only.bind (.uuid4 .uuid4)
  intro id
  apply Only.bind (provisionData_touch self ..)
  intro _
  apply Only.bind (.now .now)
  intro time
  exact .bind (.insert (.insert .volumes _ known)) fun _ => .pure _

theorem resolveRootImage_touch (body : SpawnIn) (nodeId : Id) :
    Only (Touch ts ds) (resolveRootImage body nodeId) :=
  .ite (fun _ => .bind (imageOr400_touch _) fun _ => .bind (refuseIf_touch ..) fun _ =>
    .bind (refuseIf_touch ..) fun _ => .pure _) fun _ => .pure _

theorem spawnLocal_touch (body : SpawnIn) (nodeId : Id) (preBringUp : Id → Py Unit)
    (vpcs : .vpcs ∈ ts) (volumes : .volumes ∈ ts) (vms : .vms ∈ ts)
    (pre : ∀ id, Only (Touch ts ds) (preBringUp id)) :
    Only (Touch ts ds) (spawnLocal self body nodeId preBringUp) := by
  apply Only.bind (ensureDefaultVpc_touch vpcs)
  intro vpc
  apply Only.bind (resolveRootImage_touch ..)
  intro origin
  apply Only.bind (autoVolume_touch self _ _ volumes)
  intro vol
  apply Only.bind (usedIps_touch _)
  intro used
  apply Only.bind (.fromExcept _)
  intro ip
  apply Only.bind (.uuid4 .uuid4)
  intro id
  apply Only.bind (.now .now)
  intro time
  apply Only.bind (.insert (.insert .vms _ vms))
  intro _
  apply Only.bind (pre _)
  intro _
  exact .bind (bringUp_touch self ..) fun _ => .pure _

theorem ownerOr404_touch (vmId : Id) : Only (Touch ts ds) (ownerOr404 vmId) := by
  apply Only.bind (.get (.get ..))
  intro row
  exact .bind (orHttp_touch ..) fun _ => .pure _

theorem deleteLocal_touch (vmId nodeId : Id) (ips : .publicIps ∈ ds) (domains : .domains ∈ ds)
    (proxies : .proxies ∈ ds) (vms : .vms ∈ ds) :
    Only (Touch ts ds) (deleteLocal self vmId nodeId) := by
  apply Only.bind (teardown_touch vmId ips domains proxies)
  intro _
  apply Only.bind (sh_touch self _)
  intro _
  exact .bind (.delete (.delete .vms _ vms)) fun _ => .pure _

theorem setStatus_touch (vmId : Id) (status : VmStatus) :
    Only (Touch ts ds) (setStatus vmId status) := by
  apply Only.bind (.update (.status _ status))
  intro _
  apply Only.bind (.get (.get ..))
  intro row
  exact .bind (by cases row <;> exact trivial) fun _ => .pure _

theorem stopLocal_touch (vmId : Id) : Only (Touch ts ds) (stopLocal self vmId) :=
  .bind (sh_touch self _) fun _ => setStatus_touch ..

theorem startLocal_touch (vmId : Id) : Only (Touch ts ds) (startLocal self vmId) :=
  .bind (sh_touch self _) fun _ => setStatus_touch ..

end Vms

theorem vmOr404_touch (vmId : Id) : Only (Touch ts ds) (vmOr404 vmId) :=
  .bind (.get (.get ..)) fun _ => orHttp_touch ..

/-! ## Public addresses, domains, proxies and tasks -/

namespace PublicIps

theorem usedAddresses_touch (nodeId : Id) (ips : .publicIps ∈ ts) :
    Only (Touch ts ds) (usedAddresses nodeId) :=
  .bind (.getAll (.getAll _ _ fun _ => ips)) fun _ => .pure _

theorem attachLocal_touch (vm : VmRow) (nodeId : Id) (ips : .publicIps ∈ ts) :
    Only (Touch ts ds) (attachLocal self vm nodeId) := by
  apply Only.bind (usedAddresses_touch _ ips)
  intro used
  apply Only.bind (.fromExcept _)
  intro ip
  apply Only.bind (.uuid4 .uuid4)
  intro id
  apply Only.bind (.now .now)
  intro time
  apply Only.bind (.insert (.insert .publicIps _ ips))
  intro _
  exact .bind (Vms.recreateVm_touch self _) fun _ => .pure _

theorem detachLocal_touch (vmId : Id) (ips : .publicIps ∈ ds) :
    Only (Touch ts ds) (detachLocal self vmId) := by
  apply Only.bind (.get (.get ..))
  intro row
  apply Only.bind (.whenSome fun _ _ => .bind (.delete (.delete .publicIps _ ips)) fun _ =>
    Vms.recreateVm_touch self _)
  intro _
  exact .pure _

end PublicIps

namespace Domains

theorem enqueueReload_touch (vmId : Id) (tasks : .tasks ∈ ts) :
    Only (Touch ts ds) (enqueueReload vmId) :=
  .bind (.get (.get ..)) fun _ => .whenSome fun _ _ => .bind (.get (.get ..)) fun _ =>
    .whenSome fun _ _ => .bind (.now .now) fun _ => .bind (.uuid4 .uuid4) fun _ =>
      .insert (.insert .tasks _ tasks)

theorem resolveFqdn_touch (body : DomainIn) : Only (Touch ts ds) (resolveFqdn self body) :=
  .ite (fun _ => .pure _) fun _ => .ite (fun _ => .ite (fun _ => .pure _) fun _ => .throw _)
    fun _ => .throw _

theorem createDomain_touch (body : DomainIn) (domains : .domains ∈ ts) (tasks : .tasks ∈ ts) :
    Only (Touch ts ds) (createDomain self body) := by
  apply Only.bind (resolveFqdn_touch self body)
  intro fqdn
  apply Only.bind (vmOr404_touch _)
  intro row
  apply Only.bind (.uuid4 .uuid4)
  intro id
  apply Only.bind (.now .now)
  intro time
  apply Only.bind (.insert (.insert .domains _ domains))
  intro _
  exact .bind (enqueueReload_touch _ tasks) fun _ => .pure _

theorem deleteDomain_touch (domainId : Id) (domains : .domains ∈ ds) (tasks : .tasks ∈ ts) :
    Only (Touch ts ds) (deleteDomain domainId) := by
  apply Only.bind (.get (.get ..))
  intro row
  apply Only.bind (orHttp_touch ..)
  intro row
  apply Only.bind (.delete (.delete .domains _ domains))
  intro _
  exact .bind (enqueueReload_touch _ tasks) fun _ => .pure _

end Domains

namespace Proxy

theorem record_touch (vpc : VpcRow) (nodeId pipId : Id) (time : Timestamp) (vm : VmRow)
    (pip : PublicIpRow) (proxies : .proxies ∈ ts) (tasks : .tasks ∈ ts) :
    Only (Touch ts ds) (record vpc nodeId pipId time vm pip) := by
  apply Only.bind (.uuid4 .uuid4)
  intro id
  apply Only.bind (.insert (.insert .proxies _ proxies))
  intro _
  apply Only.bind (.uuid4 .uuid4)
  intro id
  apply Only.bind (.uuid4 .uuid4)
  intro id
  apply Only.bind (.insert (.insert .tasks _ tasks))
  intro _
  exact .bind (.insert (.insert .tasks _ tasks)) fun _ => .pure _

theorem nodeWithFreeIp_touch (default : Id) (ips : .publicIps ∈ ts) :
    Only (Touch ts ds) (nodeWithFreeIp self default) :=
  .bind (.getAll (.getAll _ _ fun _ => ips)) fun _ => .ite (fun _ => .pure _) fun _ =>
    .bind (.getAll (.getAll _ _ nofun)) fun _ => .ite (fun _ => .throw _) fun _ => .throw _

end Proxy

/-! ## Passes and ticks -/

theorem reapVm_touch (vmId : Id) (vms : .vms ∈ ds) :
    Only (Touch ts ds) (TtlPass.reap self vmId) := by
  apply Only.bind (sh_touch self _)
  intro _
  exact .bind (.delete (.delete .vms _ vms)) fun _ => .pure _

theorem ttlPass_touch (vms : .vms ∈ ds) : Only (Touch ts ds) (TtlPass.reconcile self) :=
  .ite (fun _ => .pure _) fun _ => .bind (.now .now) fun _ => .bind (.getAll (.getAll _ _ nofun))
    fun _ => .bind (.forEach _ fun _ _ => reapVm_touch self _ vms) fun _ => .pure _

theorem vmsPass_touch (ips : .publicIps ∈ ds) (domains : .domains ∈ ds) (proxies : .proxies ∈ ds) :
    Only (Touch ts ds) (VmsPass.reconcile self) := by
  apply Only.bind (.getAll (.getAll _ _ nofun))
  intro rows
  apply Only.bind (sh_touch self _)
  intro _
  apply Only.bind (.forEach _ fun _ _ => .bind (teardown_touch _ ips domains proxies) fun _ =>
    sh_touch self _)
  intro _
  exact .bind (.bind (sh_touch self _) fun _ => shEach_touch self ..) fun _ => .pure _

theorem volumesPass_touch : Only (Touch ts ds) (VolumesPass.reconcile self) := by
  apply Only.bind (.getAll (.getAll _ _ nofun))
  intro rows
  apply Only.bind (sh_touch self _)
  intro _
  exact .bind (shEach_touch self ..) fun _ => .pure _

theorem snapshotsPass_touch : Only (Touch ts ds) (SnapshotsPass.reconcile self) := by
  apply Only.bind (.getAll (.getAll _ _ nofun))
  intro rows
  apply Only.bind (sh_touch self _)
  intro _
  exact .bind (shEach_touch self ..) fun _ => .pure _

theorem overlayPass_touch : Only (Touch ts ds) (OverlayPass.reconcile self) :=
  .bind (nodeHost_touch _) fun _ => .ite (fun _ => .pure _) fun _ =>
    .bind (peerHosts_touch _) fun _ => .bind (.bind (.getAll (.getAll _ _ nofun)) fun _ =>
      .pure _) fun _ => .bind (.filterEach _ fun _ _ => sh_touch self _) fun _ => .pure _

theorem passOnce_touch (ips : .publicIps ∈ ds) (domains : .domains ∈ ds) (proxies : .proxies ∈ ds)
    (vms : .vms ∈ ds) : Only (Touch ts ds) (PassOnce.run self) := by
  apply Only.bind (ttlPass_touch self vms)
  intro _
  apply Only.bind (vmsPass_touch self ips domains proxies)
  intro _
  apply Only.bind (volumesPass_touch self)
  intro _
  apply Only.bind (snapshotsPass_touch self)
  intro _
  exact .bind (overlayPass_touch self) fun _ => .pure _

theorem vmOrFail_touch (vmId : Id) : Only (Touch ts ds) (TaskRunner.vmOrFail vmId) :=
  .bind (.get (.get ..)) fun row => by cases row <;> exact trivial

theorem routesOf_touch (rows : List DomainRow) : Only (Touch ts ds) (TaskRunner.routesOf rows) := by
  induction rows with
  | nil => exact .pure _
  | cons d rest ih =>
    exact .bind (.bind (.get (.get ..)) fun _ => .pure _) fun _ => .bind ih fun _ => .pure _

theorem dispatch_touch (task : TaskRow) (nodeId : Id) :
    Only (Touch ts ds) (TaskRunner.dispatch self task nodeId) := by
  unfold TaskRunner.dispatch
  split
  · apply Only.bind (vmOrFail_touch _)
    intro _
    apply Only.bind (sh_touch self _)
    intro _
    exact .bind (.update (.ready _)) fun _ => .pure _
  · refine .bind (.get (.get ..)) fun proxy => ?_
    cases proxy with
    | none => exact .pure _
    | some proxy =>
      apply Only.bind (vmOrFail_touch _)
      intro _
      refine .bind (.bind (.getAll (.getAll _ _ nofun)) fun _ => routesOf_touch _) ?_
      intro _
      exact .bind (sh_touch self _) fun _ => .pure _
  · exact .throw _

theorem tick_touch (tasks : .tasks ∈ ts) : Only (Touch ts ds) (Executor.tick self) := by
  have finish (id : Id) (status : TaskStatus) (result : Str) :
      Only (Touch ts ds) (TaskRunner.finish id status result) :=
    .bind (.now .now) fun _ => .bind (.update (.task _ _ tasks)) fun _ => .pure _
  refine .bind (.getAll (.getAll _ _ nofun)) fun pending => ?_
  induction pending with
  | nil => exact .pure _
  | cons d rest ih =>
    refine .bind (.bind (.now .now) fun _ => .bind (.update (.task _ _ tasks))
      fun _ => .get (.get ..))
      fun won => ?_
    cases won with
    | none => exact ih
    | some _ =>
      exact .tryCatch (.bind (dispatch_touch self d self.id) fun _ => finish ..) fun _ => finish ..

/-! ## Requests -/

/-- The tables that a request may insert into. -/
def Request.writes : Request → List Tbl
  | .createVpc _ => [.vpcs]
  | .createVolume _ => [.volumes]
  | .createSnapshot _ | .createImage _ => [.snapshots]
  | .createVm _ => [.vms]
  | .spawnVm _ _ => [.vpcs, .volumes, .vms]
  | .attachPublicIp _ => [.publicIps]
  | .createDomain _ => [.domains, .tasks]
  | .createProxy _ => [.vpcs, .volumes, .vms, .publicIps, .proxies, .tasks]
  | .deleteDomain _ | .createTask _ _ => [.tasks]
  | .deleteVpc _ | .resizeVolume _ _ | .deleteVolume _ | .deleteSnapshot _ | .deleteImage _
  | .getVm _ | .deleteVm _ | .stopVm _ | .startVm _ | .rebootVm _ | .detachPublicIp _
  | .reconcileNow => []

/-- The tables that a request may delete from. -/
def Request.deletes : Request → List Tbl
  | .deleteVpc _ => [.vpcs]
  | .deleteVolume _ => [.volumes]
  | .deleteSnapshot _ | .deleteImage _ => [.snapshots]
  | .deleteVm _ | .reconcileNow => [.publicIps, .domains, .proxies, .vms]
  | .detachPublicIp _ => [.publicIps]
  | .deleteDomain _ => [.domains]
  | _ => []

/-- A request that writes no more than `ts` and deletes from no more than `ds`. -/
structure Request.Confined (req : Request) (ts ds : List Tbl) : Prop where
  writes : ∀ t ∈ req.writes, t ∈ ts
  deletes : ∀ t ∈ req.deletes, t ∈ ds

theorem Request.Confined.refl {req : Request} : req.Confined req.writes req.deletes :=
  ⟨fun _ there => there, fun _ there => there⟩

namespace Api

/-- The lookups write nothing, but for a default VPC that is made. -/
theorem lookUp_touch (req : Request)
    (known : ∀ t ∈ [Tbl.vpcs, .publicIps], t ∈ req.writes → t ∈ ts) :
    Only (Touch ts ds) (lookUp self req) := by
  cases req with
  | resizeVolume | deleteVolume | deleteSnapshot | createImage | deleteImage | getVm =>
    exact .bind (.get (.get ..)) fun _ => orHttp_touch ..
  | createSnapshot body => exact Snapshots.resolveSource_touch body
  | spawnVm body pin => exact Vms.pinOrTarget_touch body pin
  | deleteVm | stopVm | startVm | rebootVm => exact Vms.ownerOr404_touch _
  | attachPublicIp | detachPublicIp => exact vmOr404_touch _
  | createProxy body =>
    have vpcs : .vpcs ∈ ts := known _ (by decide) (by simp [Request.writes])
    have ips : .publicIps ∈ ts := known _ (by decide) (by simp [Request.writes])
    apply Only.bind (ensureDefaultVpc_touch vpcs)
    intro vpc
    apply Only.bind (.get (.get ..))
    intro proxy
    apply Only.bind (refuseIf_touch ..)
    intro _
    exact .bind (Proxy.nodeWithFreeIp_touch self _ ips) fun _ => .pure _
  | createVpc | deleteVpc | createVolume | createVm | createDomain | deleteDomain | createTask
  | reconcileNow =>
    exact .pure _

theorem serveHere_touch (req : Request) (found : Found req) (within : req.Confined ts ds) :
    Only (Touch ts ds) (serveHere self req found) := by
  have writes : ∀ t ∈ req.writes, t ∈ ts := within.writes
  have deletes : ∀ t ∈ req.deletes, t ∈ ds := within.deletes
  have remove (rid : Id) (row : SnapshotRow) (known : .snapshots ∈ ds) : Only (Touch ts ds) (do
      self.sh (SnapAction.remove (self.volumeVg row.nodeId) row.lvName)
      let _ ← delete .snapshots fun r => r.id = rid
      return Response.empty) :=
    .bind (sh_touch self _) fun _ => .bind (.delete (.delete .snapshots _ known)) fun _ => .pure _
  -- a handler writes what the footprint of its request lists, and no more
  cases req <;> simp only [Request.writes, Request.deletes, List.forall_mem_cons] at writes deletes
  case createVpc body => exact Vpcs.createVpc_touch body writes.1
  case deleteVpc vpcId => exact Vpcs.deleteVpc_touch vpcId deletes.1
  case createVolume body => exact Volumes.createLocal_touch self _ _ writes.1
  case resizeVolume volumeId body => exact Volumes.resizeLocal_touch self _ _
  case deleteVolume volumeId => exact Volumes.deleteLocal_touch self _ deletes.1
  case createSnapshot body => exact Snapshots.createSnapshotLocal_touch self _ _ writes.1
  case deleteSnapshot snapshotId => exact remove _ _ deletes.1
  case createImage body => exact Snapshots.createImageLocal_touch self _ _ _ writes.1
  case deleteImage imageId => exact remove _ _ deletes.1
  case createVm body => exact Vms.createLocal_touch self _ _ writes.1
  case spawnVm body pin =>
    exact .bind (Vms.spawnLocal_touch self _ _ _ writes.1 writes.2.1 writes.2.2.1 fun _ =>
      .pure _) fun _ =>
      .pure _
  case getVm vmId => exact .bind (sh_touch self _) fun _ => .pure _
  case deleteVm vmId =>
    exact Vms.deleteLocal_touch self _ _ deletes.1 deletes.2.1 deletes.2.2.1 deletes.2.2.2.1
  case stopVm vmId => exact Vms.stopLocal_touch self _
  case startVm vmId => exact Vms.startLocal_touch self _
  case rebootVm vmId =>
    exact .bind (Vms.stopLocal_touch self _) fun _ => Vms.startLocal_touch self _
  case attachPublicIp vmId => exact PublicIps.attachLocal_touch self _ _ writes.1
  case detachPublicIp vmId => exact PublicIps.detachLocal_touch self _ deletes.1
  case createDomain body => exact Domains.createDomain_touch self body writes.1 writes.2.1
  case deleteDomain domainId => exact Domains.deleteDomain_touch domainId deletes.1 writes.1
  case createProxy body =>
    obtain ⟨vpcs, volumes, vms, ips, proxies, tasks, -⟩ := writes
    apply Only.bind (PublicIps.usedAddresses_touch _ ips)
    intro used
    apply Only.bind (.fromExcept _)
    intro entry
    apply Only.bind (.now .now)
    intro time
    apply Only.bind (.uuid4 .uuid4)
    intro pipId
    apply Only.bind (Vms.spawnLocal_touch self _ _ _ vpcs volumes vms fun _ =>
      .insert (.insert .publicIps _ ips))
    intro vm
    exact Proxy.record_touch _ _ _ _ _ _ proxies tasks
  case createTask vmId body =>
    apply Only.bind (vmOr404_touch _)
    intro row
    apply Only.bind (.now .now)
    intro time
    apply Only.bind (.uuid4 .uuid4)
    intro id
    exact .bind (.insert (.insert .tasks _ writes.1)) fun _ => .pure _
  case reconcileNow =>
    exact .bind (passOnce_touch self deletes.1 deletes.2.1 deletes.2.2.1 deletes.2.2.2.1)
      fun _ => .pure _

end Api

end

end Nyc
