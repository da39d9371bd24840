import Nyc.Routers.Proxy

/-! `reconciler`: the passes over a node's own resources, and the task executor. -/

namespace Nyc

open Client
open Effects.Program (whenTrue whenSome fromExcept forEach filterEach)

/-- `for x in xs: ...` over client programs of one node. -/
def Node.forEach (self : Node) (f : Str → Sh Unit) (xs : List Str) : Py Unit :=
  Effects.Program.forEach (fun x => self.sh (f x)) xs

/-- `sorted(xs)`. -/
def sorted (xs : List Str) : List Str := xs.mergeSort fun a b => decide (a ≤ b)

namespace TtlPass

def expired (cutoff : Timestamp) (row : VmRow) : Bool := row.createdAt < cutoff

def reap (self : Node) (vmId : Id) : Py Unit := do
  self.sh (VmDown.run vmId (self.volumeVg self.id))
  let _ ← delete .vms fun r => r.id = vmId

/-- The ids reaped. -/
def reconcile (self : Node) : Py (List Id) :=
  if self.cfg.ttl ≤ 0 then pure []
  else do
    let cutoff := (← now) - self.cfg.ttl
    let rows ← getAll .vms fun r => r.nodeId = self.id
    let ids := (rows.filter (expired cutoff)).map VmRow.id
    forEach (reap self) ids
    return sorted ids

end TtlPass

namespace VmsPass

def pruneRootfsLvs (self : Node) (vg : Str) (expected : List Id) : Py Unit := do
  let names ← self.sh (Lv.listLvs .pruneRootfs vg)
  self.forEach (Lv.remove vg) (names.filter fun name =>
    Names.ROOTFS.isPrefixOf name && !expected.contains (name.drop Names.ROOTFS.length))

def reapOrphan (self : Node) (vg : Str) (vmId : Id) : Py Unit := do
  VmDeps.teardown vmId
  self.sh (VmDown.run vmId vg)

def reconcile (self : Node) : Py Report := do
  let vg := self.volumeVg self.id
  let rows ← getAll .vms fun r => r.nodeId = self.id
  let expected := rows.map VmRow.id
  let onDisk ← self.sh listVmDirs
  let orphans := self.cfg.sets.diff onDisk expected
  forEach (reapOrphan self vg) orphans
  pruneRootfsLvs self vg expected
  return ⟨expected.dedup.length, onDisk.dedup.length, sorted orphans⟩

end VmsPass

namespace VolumesPass

def reconcile (self : Node) : Py Report := do
  let vg := self.volumeVg self.id
  let rows ← getAll .volumes fun r => r.nodeId = self.id
  let expected := rows.map fun r => Names.data r.id
  let names ← self.sh (Lv.listLvs .volumesPass vg)
  let onDisk := names.filter fun name => Names.DATA.isPrefixOf name
  let orphans := self.cfg.sets.diff onDisk expected
  self.forEach (Lv.remove vg) orphans
  return ⟨expected.dedup.length, onDisk.dedup.length, sorted orphans⟩

end VolumesPass

namespace SnapshotsPass

def reconcile (self : Node) : Py Report := do
  let vg := self.volumeVg self.id
  let rows ← getAll .snapshots fun r => r.nodeId = self.id
  let expected := GOLD_DEFAULT :: rows.map SnapshotRow.lvName
  let names ← self.sh (Lv.listLvs .snapshotsPass vg)
  let onDisk := names.filter fun name =>
    Names.SNAP.isPrefixOf name || Names.GOLD.isPrefixOf name
  let orphans := self.cfg.sets.diff onDisk expected
  self.forEach (SnapAction.remove vg) orphans
  return ⟨expected.dedup.length, onDisk.dedup.length, sorted orphans⟩

end SnapshotsPass

namespace OverlayPass

def localVpcs (self : Node) : Py (List Id) := do
  let rows ← getAll .vms fun r => r.nodeId = self.id
  return self.cfg.sets.order (rows.map VmRow.vpcId).dedup

def sync (self : Node) (plist : List Str) (vpcId : Id) : Sh Bool := do
  let name := Vxlan.nameFor self.id vpcId
  if ← linkExists name then
    Vxlan.setFdb self.cfg.sets name plist
    return true
  else return false

/-- The VPCs synced. -/
def reconcile (self : Node) : Py (List Id) := do
  let host ← Peers.nodeHost self.id
  if LOOPBACK.contains host then pure []
  else do
    let plist ← Peers.peerHosts self.id
    let synced ← filterEach (fun v => self.sh (sync self plist v)) (← localVpcs self)
    return sorted synced

end OverlayPass

namespace PassOnce

def run (self : Node) : Py Reports := do
  let ttl ← TtlPass.reconcile self
  let vms ← VmsPass.reconcile self
  let volumes ← VolumesPass.reconcile self
  let snapshots ← SnapshotsPass.reconcile self
  let overlay ← OverlayPass.reconcile self
  return ⟨ttl, vms, volumes, snapshots, overlay⟩

end PassOnce

/-! ## The executor -/

namespace TaskRunner

def vmOrFail (vmId : Id) : Py VmRow := do
  match ← get .vms fun r => r.id = vmId with
  | some vm => return vm
  | none => throw (.runtime ("vm " ++ vmId ++ " not found"))

def setup (self : Node) (task : TaskRow) : Py Str := do
  let vm ← vmOrFail task.vmId
  let out ← self.sh (Push.setup vm.ip self.cfg.paths.sshKey)
  let _ ← update .proxies (fun r => r.vmId = task.vmId) fun r => { r with status := .ready }
  return orElse (some out) "ok"

/-- One domain's route; none where its VM is gone. -/
def route (d : DomainRow) : Py (Option Caddyfile.Route) := do
  let vm ← get .vms fun r => r.id = d.vmId
  return vm.map fun vm => (d.fqdn, vm.ip, d.port)

def routesOf : List DomainRow → Py (List Caddyfile.Route)
  | [] => return []
  | d :: rest => do
    let r ← route d
    return r.toList ++ (← routesOf rest)

def buildRoutes : Py (List Caddyfile.Route) := do
  let domains ← getAll .domains fun _ => true
  routesOf domains

def push (self : Node) (proxy : ProxyRow) : Py Str := do
  let proxyVm ← vmOrFail proxy.vmId
  let routes ← buildRoutes
  let out ← self.sh (Push.reload proxyVm.ip self.cfg.paths.sshKey (Caddyfile.render routes))
  return orElse (some out) "ok"

def reload (self : Node) (nodeId : Id) : Py Str := do
  match ← get .proxies fun r => r.nodeId = nodeId with
  | some proxy => push self proxy
  | none => return "no proxy on this node"

def dispatch (self : Node) (task : TaskRow) (nodeId : Id) : Py Str :=
  match task.type with
  | .reverseProxySetup => setup self task
  | .proxyReload => reload self nodeId
  | .other name => throw (.value ("unknown task type: " ++ name))

def finish (taskId : Id) (status : TaskStatus) (result : Str) : Py Unit := do
  let time ← now
  let _ ← update .tasks (fun r => r.id = taskId) fun r =>
    { r with status := status, result := some result, updatedAt := time }

def runTask (self : Node) (task : TaskRow) (nodeId : Id) : Py Unit :=
  tryCatch (do
    let result ← dispatch self task nodeId
    finish task.id .succeeded result) fun exc => finish task.id .failed exc.text

end TaskRunner

namespace Executor

/-- The source's claim: the guarded update, then the re-read. -/
def claim (d : TaskRow) : Py (Option TaskRow) := do
  let time ← now
  let _ ← update .tasks (fun r => r.id = d.id && r.status = .pending) fun r =>
    { r with status := .running, updatedAt := time }
  get .tasks fun r => r.id = d.id && r.status = .running

def tryTasks (self : Node) : List TaskRow → Py Unit
  | [] => pure ()
  | d :: rest => do
    match ← claim d with
    | none => tryTasks self rest
    | some _ => TaskRunner.runTask self d self.id

/-- `_tick`. -/
def tick (self : Node) : Py Unit := do
  let pending ← getAll .tasks fun r => r.nodeId = self.id && r.status = .pending
  tryTasks self pending

end Executor

end Nyc
