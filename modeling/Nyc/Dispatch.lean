import Nyc.Steps

/-!
# What the endpoints have in common

An endpoint looks up where its request belongs, hands it on if that is another node, and serves it
otherwise. `Api.endpoint_eq` takes every endpoint apart in this way. What holds of all requests is
then shown of the lookups and of what is served here; the forwards are dealt with once.
-/

namespace Nyc

open Data Effects Effects.Program Client

/-! ## Programs that only look -/

/-- Reads of the tables, and the draw of a candidate. -/
inductive Op.Looks : Op → Prop where
  | get (t : Tbl) (p : t.Row → Bool) : Looks (.get t p)
  | getAll (t : Tbl) (p : t.Row → Bool) : Looks (.getAll t p)
  | choice : Looks .choice

abbrev Looks {α : Type} (p : Py α) : Prop := Only Op.Looks p

namespace Looks

theorem orHttp {α : Type} (x : Option α) (code : Nat) (detail : Str) :
    Looks (orHttp x code detail) := by
  cases x with
  | none => exact .throw _
  | some a => exact .pure a

theorem refuseIf (c : Bool) (code : Nat) (detail : Str) : Looks (refuseIf c code detail) :=
  .whenTrue fun _ => .throw _

theorem lookup {t : Tbl} (p : t.Row → Bool) (code : Nat) (detail : Str) :
    Looks (do Nyc.orHttp (← get t p) code detail) :=
  .bind (.get (.get ..)) fun _ => orHttp ..

theorem ownerOr404 (vmId : Id) : Looks (Vms.ownerOr404 vmId) := by
  apply Only.bind (.get (.get ..))
  intro row
  exact .bind (orHttp ..) fun _ => .pure _

theorem usedIps (vpcId : Id) : Looks (Vms.usedIps vpcId) :=
  .bind (.getAll (.getAll ..)) fun _ => .pure _

theorem bodyVolumePath (body : VmIn) : Looks (Vms.bodyVolumePath body) := by
  apply Only.ite
  · intro _
    exact .bind (.bind (.get (.get ..)) fun _ => .bind (orHttp ..) fun _ => .pure _)
      fun _ => .pure _
  · intro _
    exact .pure _

theorem imageOr400 (imageId : Id) : Looks (Vms.imageOr400 imageId) := lookup ..

theorem imageNodes (images : List Id) : Looks (Vms.imageNodes images) := by
  induction images with
  | nil => exact .pure _
  | cons i rest ih => exact .bind (imageOr400 i) fun _ => .bind ih fun _ => .pure _

theorem randomNode : Looks Vms.randomNode := by
  apply Only.bind (.getAll (.getAll ..))
  intro rows
  cases rows with
  | nil => exact .throw _
  | cons first rest => exact .bind (.choice .choice) fun _ => .pure _

theorem pinOrTarget (body : SpawnIn) (pin : Option Id) : Looks (Vms.pinOrTarget body pin) := by
  apply Only.ite
  · intro _
    exact .pure _
  · intro _
    apply Only.bind (imageNodes _)
    intro nodes
    rcases nodes.dedup with _ | ⟨n, _ | ⟨m, rest⟩⟩
    · exact randomNode
    · exact .pure _
    · exact .throw _

theorem resolveRootImage (body : SpawnIn) (nodeId : Id) :
    Looks (Vms.resolveRootImage body nodeId) := by
  apply Only.ite
  · intro _
    apply Only.bind (imageOr400 _)
    intro row
    apply Only.bind (refuseIf ..)
    intro _
    exact .bind (refuseIf ..) fun _ => .pure _
  · intro _
    exact .pure _

theorem resolveSource (body : SnapshotIn) : Looks (Snapshots.resolveSource body) := by
  apply Only.bind (refuseIf ..)
  intro _
  apply Only.ite
  · intro _
    exact .bind (.get (.get ..)) fun _ => .bind (orHttp ..) fun _ => .pure _
  · intro _
    exact .bind (.get (.get ..)) fun _ => .bind (orHttp ..) fun _ => .pure _

theorem usedAddresses (nodeId : Id) : Looks (PublicIps.usedAddresses nodeId) :=
  .bind (.getAll (.getAll ..)) fun _ => .pure _

theorem nodeWithFreeIp (self : Node) (default : Id) :
    Looks (Proxy.nodeWithFreeIp self default) := by
  apply Only.bind (.getAll (.getAll ..))
  intro rows
  apply Only.ite
  · intro _
    exact .pure _
  · intro _
    exact .bind (.getAll (.getAll ..)) fun _ => .ite (fun _ => .throw _) fun _ => .throw _

theorem resolveFqdn (self : Node) (body : DomainIn) : Looks (Domains.resolveFqdn self body) := by
  apply Only.ite
  · intro _
    exact .pure _
  · intro _
    exact .ite (fun _ => .ite (fun _ => .pure _) fun _ => .throw _) fun _ => .throw _

end Looks

/-! ## Endpoints taken apart -/

namespace Api

/-- What the lookups of an endpoint find. -/
abbrev Found : Request → Type
  | .resizeVolume _ _ | .deleteVolume _ => VolumeRow
  | .createSnapshot _ => Snapshots.Source
  | .deleteSnapshot _ | .createImage _ | .deleteImage _ => SnapshotRow
  | .spawnVm _ _ | .deleteVm _ | .stopVm _ | .startVm _ | .rebootVm _ => Id
  | .getVm _ | .attachPublicIp _ | .detachPublicIp _ => VmRow
  | .createProxy _ => VpcRow × Id
  | .createVpc _ | .deleteVpc _ | .createVolume _ | .createVm _ | .createDomain _ | .deleteDomain _
  | .createTask _ _ | .reconcileNow => Unit

/-- What an endpoint does before it knows whether the request is its own. -/
def lookUp (self : Node) : (req : Request) → Py (Found req)
  | .resizeVolume volumeId _ | .deleteVolume volumeId => do
    orHttp (← get .volumes fun r => r.id = volumeId) 404 "volume not found"
  | .createSnapshot body => Snapshots.resolveSource body
  | .deleteSnapshot snapshotId => do
    orHttp (← get .snapshots fun r => r.id = snapshotId && r.role = .snapshot)
      404 (Snapshots.roleText .snapshot ++ " not found")
  | .deleteImage imageId => do
    orHttp (← get .snapshots fun r => r.id = imageId && r.role = .golden)
      404 (Snapshots.roleText .golden ++ " not found")
  | .createImage body => do
    orHttp (← get .snapshots fun r => r.id = body.fromSnapshot && r.role = .snapshot)
      400 "unknown from_snapshot"
  | .spawnVm body pin => Vms.pinOrTarget body pin
  | .getVm vmId => do
    orHttp (← get .vms fun r => r.id = vmId) 404 "vm not found"
  | .deleteVm vmId | .stopVm vmId | .startVm vmId | .rebootVm vmId => Vms.ownerOr404 vmId
  | .attachPublicIp vmId | .detachPublicIp vmId => vmOr404 vmId
  | .createProxy _ => do
    let vpc ← Defaults.ensureDefaultVpc
    let proxy ← get .proxies fun r => r.vpcId = vpc.id
    refuseIf proxy.isSome 409 "proxy already exists for this VPC"
    return (vpc, ← Proxy.nodeWithFreeIp self self.id)
  | .createVpc _ | .deleteVpc _ | .createVolume _ | .createVm _ | .createDomain _ | .deleteDomain _
  | .createTask _ _ | .reconcileNow => return ()

/-- The node that the request belongs to; a request about no node's resources is served where it
arrives. -/
def ownerOf (self : Node) : (req : Request) → Found req → Id
  | .createVolume body, _ => orElse body.nodeId self.id
  | .createVm body, _ => orElse body.nodeId self.id
  | .resizeVolume _ _, row | .deleteVolume _, row => row.nodeId
  | .createSnapshot _, src => src.nodeId
  | .deleteSnapshot _, row | .createImage _, row | .deleteImage _, row => row.nodeId
  | .spawnVm _ _, owner | .deleteVm _, owner | .stopVm _, owner | .startVm _, owner
  | .rebootVm _, owner => owner
  | .getVm _, row | .attachPublicIp _, row | .detachPublicIp _, row => row.nodeId
  | .createProxy _, found => found.2
  | .createVpc _, _ | .deleteVpc _, _ | .createDomain _, _ | .deleteDomain _, _ | .createTask _ _, _
  | .reconcileNow, _ => self.id

/-- The request as it is handed on to the node. -/
def handedTo (nodeId : Id) : Request → Request
  | .spawnVm body _ => .spawnVm body (some nodeId)
  | req => req

/-- What an endpoint does with a request of its own node. -/
def serveHere (self : Node) : (req : Request) → Found req → Py Response
  | .createVpc body, _ => Vpcs.createVpc body
  | .deleteVpc vpcId, _ => Vpcs.deleteVpc vpcId
  | .createVolume body, _ => Volumes.createLocal self body self.id
  | .resizeVolume _ body, row => Volumes.resizeLocal self row body.sizeMb
  | .deleteVolume _, row => Volumes.deleteLocal self row
  | .createSnapshot body, src => Snapshots.createSnapshotLocal self body src
  | .deleteSnapshot rid, row | .deleteImage rid, row => do
    self.sh (SnapAction.remove (self.volumeVg row.nodeId) row.lvName)
    let _ ← delete .snapshots fun r => r.id = rid
    return .empty
  | .createImage body, snap => Snapshots.createImageLocal self body snap self.id
  | .createVm body, _ => Vms.createLocal self body self.id
  | .spawnVm body _, _ => do
    let row ← Vms.spawnLocal self body self.id fun _ => pure ()
    return .vm row
  | .getVm _, row => Vms.withStatus self row
  | .deleteVm vmId, _ => Vms.deleteLocal self vmId self.id
  | .stopVm vmId, _ => Vms.stopLocal self vmId
  | .startVm vmId, _ => Vms.startLocal self vmId
  | .rebootVm vmId, _ => do
    let _ ← Vms.stopLocal self vmId
    Vms.startLocal self vmId
  | .attachPublicIp _, vm => PublicIps.attachLocal self vm self.id
  | .detachPublicIp vmId, _ => PublicIps.detachLocal self vmId
  | .createDomain body, _ => Domains.createDomain self body
  | .deleteDomain domainId, _ => Domains.deleteDomain domainId
  | .createProxy body, found => Proxy.createProxyLocal self body found.1 self.id
  | .createTask vmId body, _ => Tasks.createTask vmId body
  | .reconcileNow, _ => do
    return .report self.id (← PassOnce.run self)

/-- An endpoint that serves what is its own. -/
theorem own_eq (self : Node) (target : Id) (onward : Py Response) (local_ : Id → Py Response) :
    (if target ≠ self.id then onward else local_ target) =
      if target ≠ self.id then onward else local_ self.id := by
  by_cases here : target = self.id
  · rw [here]
  · rw [if_pos here, if_pos here]

theorem endpoint_eq (self : Node) (forward : Forward) (req : Request) :
    endpoint self forward req = (do
      let found ← lookUp self req
      if ownerOf self req found ≠ self.id then
        forward (ownerOf self req found) (handedTo (ownerOf self req found) req)
      else serveHere self req found) := by
  have anywhere (p : Py Response) (onward : Py Response) :
      p = if self.id ≠ self.id then onward else p :=
    (if_neg (not_not.mpr rfl)).symm
  cases req with
  | createVpc | deleteVpc | createDomain | deleteDomain | createTask
  | reconcileNow => exact anywhere ..
  | createVolume body => exact own_eq self _ _ (Volumes.createLocal self body)
  | createVm body => exact own_eq self _ _ (Vms.createLocal self body)
  | createImage body =>
    simp only [endpoint, Snapshots.createImage, lookUp, LawfulMonad.bind_assoc]
    apply congrArg
    funext found
    apply congrArg
    funext snap
    exact own_eq self _ _ (Snapshots.createImageLocal self body snap)
  | resizeVolume | deleteVolume | createSnapshot | deleteSnapshot | deleteImage | spawnVm | getVm
  | deleteVm | stopVm | startVm | rebootVm | attachPublicIp | detachPublicIp | createProxy =>
    simp only [endpoint, lookUp, LawfulMonad.bind_assoc, pure_bind]
    rfl

/-- Only the endpoint of the proxies makes something before it knows the node: the default VPC. -/
theorem lookUp_looks (self : Node) (req : Request) (other : ∀ body, req ≠ .createProxy body) :
    Looks (lookUp self req) := by
  cases req with
  | resizeVolume | deleteVolume | deleteSnapshot | createImage | deleteImage | getVm
  | attachPublicIp | detachPublicIp => exact .lookup ..
  | createSnapshot body => exact .resolveSource body
  | spawnVm body pin => exact .pinOrTarget body pin
  | deleteVm | stopVm | startVm | rebootVm => exact .ownerOr404 _
  | createProxy body => exact absurd rfl (other body)
  | createVpc | deleteVpc | createVolume | createVm | createDomain | deleteDomain | createTask
  | reconcileNow =>
    exact .pure _

/-! ## Rules -/

/-- What every endpoint keeps if its forwards do, `serve` has, on whichever node the request
arrives. -/
theorem serve_induct (cfg : Id → NodeConfig) (C : Py Response → Prop) (P : Request → Prop)
    (timeout : C (throw .requestError))
    (forwards : ∀ serve : Id → Request → Py Response, (∀ n req, P req → C (serve n req)) →
      ∀ target req, P req → C (forward serve target req))
    (endpoints : ∀ nodeId forward req, P req → (∀ target req', P req' → C (forward target req')) →
      C (endpoint ⟨nodeId, cfg nodeId⟩ forward req))
    (hops : Nat) (nodeId : Id) (req : Request) (holds : P req) : C (serve cfg hops nodeId req) := by
  induction hops generalizing nodeId req with
  | zero =>
    apply endpoints nodeId _ req holds
    intro _ _ _
    exact timeout
  | succ hops ih => exact endpoints nodeId _ req holds (forwards _ ih)

/-- A property of programs that a program has if its parts have it, whatever these answer. -/
structure Composes (D : (α : Type) → Py α → Prop) : Prop where
  bind : ∀ {α β : Type} (p : Py α) (f : α → Py β), D α p → (∀ a, D β (f a)) → D β (p >>= f)
  throw : ∀ (α : Type) (e : Exn), D α (throw e)
  remote : ∀ p, D Response p → D Response (remote p)

/-- A request has such a property if the lookups of the endpoints have it, that of the node which
the request is handed on to, and what the nodes do with their own requests. -/
theorem serve_composed {D : (α : Type) → Py α → Prop} (composes : Composes D)
    (cfg : Id → NodeConfig) (P : Request → Prop)
    (again : ∀ target req, P req → P (handedTo target req)) (nodes : ∀ p, D _ (get .nodes p))
    (looks : ∀ nodeId req, P req → D _ (lookUp ⟨nodeId, cfg nodeId⟩ req))
    (here : ∀ nodeId req found, P req → D _ (serveHere ⟨nodeId, cfg nodeId⟩ req found))
    (hops : Nat) (nodeId : Id) (req : Request) (holds : P req) :
    D _ (serve cfg hops nodeId req) := by
  apply serve_induct cfg (D Response) P (composes.throw _ _) _ _ hops nodeId req holds
  · intro serve on target req holds
    apply composes.bind _ _ (nodes _)
    intro row
    cases row with
    | none => exact composes.throw _ _
    | some row => exact composes.remote _ (on row.nodeId req holds)
  · intro nodeId forward req holds on
    rw [endpoint_eq]
    apply composes.bind _ _ (looks nodeId req holds)
    intro found
    split
    · exact on _ _ (again _ req holds)
    · exact here nodeId req found holds

theorem Composes.only (allowed : Op → Prop) : Composes fun _ p => Only allowed p where
  bind _ _ first rest := first.bind rest
  throw _ _ := .throw _
  remote _ h := .tryCatch h fun _ => .throw _

/-- What the lookups say of the rows. -/
def Known (db : Db) : (req : Request) → Found req → Prop
  | .resizeVolume volumeId _, row
  | .deleteVolume volumeId, row => row ∈ db .volumes ∧ row.id = volumeId
  | .createSnapshot _, src =>
    (∃ vol ∈ db .volumes, src = ⟨vol.nodeId, vol.id, Names.data vol.id, vol.sizeMb, .data⟩) ∨
      ∃ vm ∈ db .vms, src = ⟨vm.nodeId, vm.id, Names.rootfs vm.id, 0, .root⟩
  | .deleteSnapshot snapshotId, row => row ∈ db .snapshots ∧ row.id = snapshotId ∧
    row.role = .snapshot
  | .createImage body, row => row ∈ db .snapshots ∧ row.id = body.fromSnapshot ∧
    row.role = .snapshot
  | .deleteImage imageId, row => row ∈ db .snapshots ∧ row.id = imageId ∧ row.role = .golden
  | .deleteVm vmId, owner | .stopVm vmId, owner | .startVm vmId, owner | .rebootVm vmId, owner =>
    ∃ vm ∈ db .vms, vm.id = vmId ∧ vm.nodeId = owner
  | .getVm vmId, vm | .attachPublicIp vmId, vm
  | .detachPublicIp vmId, vm => vm ∈ db .vms ∧ vm.id = vmId
  | .createVpc _, _ | .deleteVpc _, _ | .createVolume _, _ | .createVm _, _ | .spawnVm _ _, _
  | .createDomain _, _ | .deleteDomain _, _ | .createProxy _, _ | .createTask _ _, _
  | .reconcileNow, _ => True

section Lookups

/-! A lookup answers from the tables, and leaves them. The state may tell more than the cluster. -/

variable {σ : Type} (exec : (o : Op) → σ → Except Exn o.Res × σ) (db : σ → Db)

/-- What the program returns, it has found in the tables. -/
def Finds {α : Type} (p : Py α) (K : Db → α → Prop) : Prop :=
  ∀ s, wp (sequential exec) p (fun r s' => ∀ a, r = .ok a → K (db s') a) s

variable {exec db}

theorem Finds.any {α : Type} (p : Py α) {K : Db → α → Prop} (all : ∀ db a, K db a) :
    Finds exec db p K := by
  intro s
  rw [wp_sequential]
  intro a _
  exact all _ a

variable (gets : ∀ t p s, (exec (.get t p) s).1 = .ok ((db s t).get p))
  (leaves : ∀ t p s, db (exec (.get t p) s).2 = db s)

include gets leaves

theorem finds_row {t : Tbl} (p : t.Row → Bool) (code : Nat) (detail : Str) :
    Finds exec db (do orHttp (← get t p) code detail) fun db row => row ∈ db t ∧ p row = true := by
  intro s
  rw [wp_bind, get, wp_perform, sequential, gets, onValue_ok, wp_orHttp]
  cases found : (db s t).get p with
  | none =>
    intro a same
    cases same
  | some row =>
    rintro _ ⟨⟩
    rw [leaves]
    exact Table.get_some found

/-- What is made of the row. -/
theorem finds_map {t : Tbl} {α : Type} (p : t.Row → Bool) (code : Nat) (detail : Str)
    (f : t.Row → α)
    {K : Db → α → Prop} (made : ∀ db row, row ∈ db t → p row = true → K db (f row)) :
    Finds exec db (do return f (← orHttp (← get t p) code detail)) K := by
  intro s
  rw [← LawfulMonad.bind_assoc, wp_bind]
  refine sequential_mono exec _ _ _ ?_ s (finds_row gets leaves p code detail s)
  rintro (e | row) s' known
  · intro a same
    cases same
  · rintro _ ⟨⟩
    exact made _ row (known row rfl).1 (known row rfl).2

/-- The endpoints find what they know. -/
theorem lookUp_known (self : Node) (req : Request) :
    Finds exec db (lookUp self req) (fun db => Known db req) := by
  have byId {t : Tbl} {p : t.Row → Bool} {code : Nat} {detail : Str} {K : Db → t.Row → Prop}
      (means : ∀ db row, row ∈ db t → p row = true → K db row) :
      Finds exec db (do orHttp (← get t p) code detail) K := by
    intro s
    refine sequential_mono exec _ _ _ ?_ s (finds_row gets leaves p code detail s)
    intro r s' known row same
    exact means _ row (known row same).1 (known row same).2
  have owner (vmId : Id) : Finds exec db (Vms.ownerOr404 vmId)
      fun db owner => ∃ vm ∈ db .vms, vm.id = vmId ∧ vm.nodeId = owner :=
    finds_map gets leaves (t := .vms) _ _ _ VmRow.nodeId fun db vm there same =>
      ⟨vm, there, of_decide_eq_true same, rfl⟩
  have role {rid : Id} {role : Role} (row : SnapshotRow) (meets :
      (decide (row.id = rid) && decide (row.role = role)) = true) :
      row.id = rid ∧ row.role = role := by simpa using meets
  -- nearly every request looks up one row by its id
  cases req with
  | resizeVolume volumeId body =>
    exact byId fun db row there meets => ⟨there, of_decide_eq_true meets⟩
  | deleteVolume volumeId => exact byId fun db row there meets => ⟨there, of_decide_eq_true meets⟩
  | createSnapshot body =>
    intro s
    rw [lookUp, Snapshots.resolveSource, wp_bind, refuseIf, wp_whenTrue]
    split
    · intro a same
      cases same
    · rw [onValue_ok, wp_ite]
      split
      · exact finds_map gets leaves (t := .volumes) _ _ _
          (fun v => Snapshots.Source.mk v.nodeId v.id (Names.data v.id) v.sizeMb .data)
          (K := fun db => Known db (.createSnapshot body))
            (fun db vol there _ => .inl ⟨vol, there, rfl⟩) s
      · exact finds_map gets leaves (t := .vms) _ _ _
          (fun v => Snapshots.Source.mk v.nodeId v.id (Names.rootfs v.id) 0 .root)
          (K := fun db => Known db (.createSnapshot body))
            (fun db vm there _ => .inr ⟨vm, there, rfl⟩) s
  | deleteSnapshot snapshotId => exact byId fun db row there meets => ⟨there, role row meets⟩
  | createImage body => exact byId fun db row there meets => ⟨there, role row meets⟩
  | deleteImage imageId => exact byId fun db row there meets => ⟨there, role row meets⟩
  | getVm vmId => exact byId fun db row there meets => ⟨there, of_decide_eq_true meets⟩
  | attachPublicIp vmId => exact byId fun db row there meets => ⟨there, of_decide_eq_true meets⟩
  | detachPublicIp vmId => exact byId fun db row there meets => ⟨there, of_decide_eq_true meets⟩
  | deleteVm vmId => exact owner vmId
  | stopVm vmId => exact owner vmId
  | startVm vmId => exact owner vmId
  | rebootVm vmId => exact owner vmId
  | createVpc | deleteVpc | createVolume | createVm | spawnVm | createDomain | deleteDomain
  | createProxy | createTask | reconcileNow => exact .any _ fun _ _ => trivial

/-- An endpoint whose lookups keep `J`, and meet `ok` where `J` holds. -/
theorem endpoint_checked {ok : Op → σ → Prop} {allowed : Op → Prop} {J : σ → Prop}
    (meets : ∀ o s, allowed o → J s → ok o s) (keeps : ∀ o s, allowed o → J s → J (exec o s).2)
    {self : Node} {forward : Forward} {req : Request} {Q : Except Exn Response → σ → Prop} {s : σ}
    (looks : Only allowed (lookUp self req)) (holds : J s) (fails : ∀ e s', J s' → Q (.error e) s')
    (on : ∀ found s', J s' → wp (checked exec ok)
      (forward (ownerOf self req found) (handedTo (ownerOf self req found) req)) Q s')
    (here : ∀ found s', J s' → Known (db s') req found → ownerOf self req found = self.id →
      wp (checked exec ok) (serveHere self req found) Q s') :
    wp (checked exec ok) (endpoint self forward req) Q s := by
  rw [endpoint_eq]
  have kept := checked_keeps exec ok J meets keeps looks holds
  have known := (wp_sequential exec _ _ _).mp (lookUp_known gets leaves self req s)
  refine checked_bind exec ok (fun found s' => J s' ∧ Known (db s') req found) ?_
    fun found s' post => ?_
  · rw [wp_checked] at kept ⊢
    refine ⟨kept.1, ?_⟩
    cases outcome : (run exec (lookUp self req) s).1 with
    | error e => exact fails e _ kept.2
    | ok found => exact ⟨kept.2, known found outcome⟩
  · rw [wp_ite]
    split
    · exact on found s' post.1
    next own => exact here found s' post.1 post.2 (not_not.mp own)

end Lookups

/-- The same for one operation after the other. -/
theorem endpoint_sequential {env : Env} {allowed : Op → Prop} {J : World → Prop}
    (keeps : ∀ o w, allowed o → J w → J (exec env o w).2) {self : Node} {forward : Forward}
    {req : Request} {Q : Except Exn Response → World → Prop} {w : World}
    (looks : Only allowed (lookUp self req)) (holds : J w) (fails : ∀ e w', J w' → Q (.error e) w')
    (on : ∀ found w', J w' → wp (sequential (exec env))
      (forward (ownerOf self req found) (handedTo (ownerOf self req found) req)) Q w')
    (here : ∀ found w', J w' → Known w'.db req found → ownerOf self req found = self.id →
      wp (sequential (exec env)) (serveHere self req found) Q w') :
    wp (sequential (exec env)) (endpoint self forward req) Q w := by
  apply sequential_of_unchecked
  apply endpoint_checked (fun _ _ _ => rfl) (fun _ _ _ => rfl)
    (fun _ _ _ _ => trivial) keeps looks holds fails
  · intro found w' holds
    exact (wp_unchecked _ _ _ _).mpr (on found w' holds)
  · intro found w' holds known own
    exact (wp_unchecked _ _ _ _).mpr (here found w' holds known own)

/-! ## Requests at once -/

/-- Requests at any nodes, each its own thread. -/
def requests (cfg : Id → NodeConfig) (hops : Nat) (arriving : List (Id × Request)) (w : World) :
    Config Op Op.Res Exn Response World :=
  ⟨⟨w, []⟩, arriving.map fun a => serve cfg hops a.1 a.2⟩

end Api

end Nyc
