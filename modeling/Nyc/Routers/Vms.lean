import Nyc.Defaults
import Nyc.Routers.Volumes

/-! `routers/vms.py`. -/

namespace Nyc

open Client Data
open Effects.Program (whenTrue whenSome fromExcept)

namespace Vms

def ownerOr404 (vmId : Id) : Py Id := do
  let row ← orHttp (← get .vms fun r => r.id = vmId) 404 "vm not found"
  return row.nodeId

def vpcOr404 (vpcId : Id) : Py VpcRow := do
  orHttp (← get .vpcs fun r => r.id = vpcId) 400 "unknown vpc_id"

def volumePath (volumeId : Id) : Py Path := do
  let vol ← orHttp (← get .volumes fun r => r.id = volumeId) 400 "unknown data_volume_id"
  return .file vol.path

def usedIps (vpcId : Id) : Py (List Str) := do
  let rows ← getAll .vms fun r => r.vpcId = vpcId
  return rows.map VmRow.ip

/-! ## Bring-up -/

def publicIpSpec (pip : PublicIpRow) : PublicIpSpec where
  address := pip.address
  prefix_ := orElse (some pip.prefix_) "32"
  gateway := orElse pip.gateway []
  mac := pip.mac

def spec (self : Node) (row : VmRow) (cidr : Str) (volPath : Option Path) (sshPubkey : Option Str)
    (rootfsOrigin : Str) : Py VmSpec := do
  let pip ← get .publicIps (VmDeps.attachedTo row.id)
  let nodeHost ← Peers.nodeHost row.nodeId
  let peerHosts ← Peers.peerHosts row.nodeId
  return {
    vmId := row.id
    nodeId := row.nodeId
    vpcId := row.vpcId
    ip := row.ip
    cidr := cidr
    dataVolumePath := volPath
    kernel := self.cfg.paths.kernel
    sshKey := self.cfg.paths.sshKey
    vmsDir := self.cfg.paths.vmsDir
    vg := self.volumeVg row.nodeId
    nodeHost := nodeHost
    peerHosts := peerHosts
    dns := self.cfg.dns
    sshPubkey := sshPubkey
    vcpuCount := row.vcpuCount
    memMib := row.memMib
    rootfsOrigin := rootfsOrigin
    publicIp := pip.map publicIpSpec
    publicBridge := self.cfg.pubip.bridge
    sets := self.cfg.sets }

/-- The row as `_bring_up` leaves it, in the database and in the answer. -/
def running (row : VmRow) : VmRow := { row with status := .running }

def bringUp (self : Node) (row : VmRow) (cidr : Str) (volPath : Option Path)
    (sshPubkey : Option Str) (rootfsOrigin : Str) : Py Unit := do
  let s ← spec self row cidr volPath sshPubkey rootfsOrigin
  self.sh (VmUp.run s)
  let _ ← update .vms (fun r => r.id = row.id) running

/-- The data volume's path in a rebuild: none where the row is gone. -/
def rebuildVolumePath (row : VmRow) : Py (Option Path) :=
  if truthy row.dataVolumeId then do
    let vol ← get .volumes fun r => some r.id = row.dataVolumeId
    return vol.map fun r => .file r.path
  else return none

def rebuild (self : Node) (row : VmRow) (vpc : VpcRow) : Py Unit := do
  let volPath ← rebuildVolumePath row
  bringUp self row vpc.cidr volPath none GOLD_DEFAULT

def recreateVm (self : Node) (vmId : Id) : Py Unit := do
  let row ← get .vms fun r => r.id = vmId
  whenSome row fun d => do
    self.sh (VmDown.run vmId (self.volumeVg d.nodeId))
    let vpc ← get .vpcs fun r => r.id = d.vpcId
    whenSome vpc fun vpc => rebuild self d vpc

/-! ## Explicit creation -/

def newRow (self : Node) (body : VmIn) (nodeId : Id) (ip : Str) (id : Id) (createdAt : Timestamp) :
    VmRow where
  id := id
  nodeId := nodeId
  name := body.name
  vpcId := body.vpcId
  dataVolumeId := body.dataVolumeId
  ip := ip
  sshPubkeyPath := some (self.cfg.paths.sshKey ++ ".pub")
  vcpuCount := 1
  memMib := 512
  status := .pending
  createdAt := createdAt

def bodyVolumePath (body : VmIn) : Py (Option Path) :=
  if truthy body.dataVolumeId then do
    return some (← volumePath (body.dataVolumeId.getD []))
  else return none

def createLocal (self : Node) (body : VmIn) (nodeId : Id) : Py Response := do
  let vpc ← vpcOr404 body.vpcId
  let volPath ← bodyVolumePath body
  let ip ← fromExcept (Allocate.pickIp vpc.cidr (← usedIps body.vpcId))
  let row := newRow self body nodeId ip (← uuid4) (← now)
  insert .vms row
  bringUp self row vpc.cidr volPath none GOLD_DEFAULT
  return .vm (running row)

def createVm (self : Node) (forward : Forward) (body : VmIn) : Py Response :=
  let target := orElse body.nodeId self.id
  if target ≠ self.id then forward target (.createVm body)
  else createLocal self body target

/-! ## Turnkey creation -/

def imageOr400 (imageId : Id) : Py SnapshotRow := do
  orHttp (← get .snapshots fun r => r.id = imageId && r.role = .golden) 400 "unknown image"

def sameNodeOr409 (img : SnapshotRow) (nodeId : Id) : Py Unit :=
  refuseIf (img.nodeId ≠ nodeId) 409
    "image is on another node (cross-node clone not yet supported)"

def randomNode : Py Id := do
  let rows ← getAll .nodes fun _ => true
  match rows with
  | [] => throw (.http 503 "no nodes registered")
  | first :: rest => do
    let i ← choice
    return ((first :: rest).getD (i % (rest.length + 1)) first).nodeId

def imageNodes : List Id → Py (List Id)
  | [] => return []
  | i :: rest => do
    let img ← imageOr400 i
    return img.nodeId :: (← imageNodes rest)

def targetNode (body : SpawnIn) : Py Id := do
  let ids := [body.rootImage, body.dataImage].filterMap fun i => if truthy i then i else none
  let nodes ← imageNodes ids
  match nodes.dedup with
  | [] => randomNode
  | [n] => return n
  | _ => throw (.http 409 "root_image and data_image are on different nodes")

def resolveRootImage (body : SpawnIn) (nodeId : Id) : Py Str :=
  if truthy body.rootImage then do
    let img ← imageOr400 (body.rootImage.getD [])
    refuseIf (img.disk ≠ .root) 400
      "root_image must be a root-disk image (it boots as the VM's root)"
    sameNodeOr409 img nodeId
    return img.lvName
  else return GOLD_DEFAULT

def provisionData (self : Node) (body : SpawnIn) (vg name : Str) (nodeId : Id) :
    Py (Path × Int) :=
  if truthy body.dataImage then do
    let img ← imageOr400 (body.dataImage.getD [])
    sameNodeOr409 img nodeId
    return (← self.sh (Create.fromSnapshot vg img.lvName name), img.sizeMb)
  else do
    return (← self.sh (Create.run vg self.cfg.lvm.thinpool name body.sizeMb), body.sizeMb)

def autoVolume (self : Node) (body : SpawnIn) (nodeId : Id) : Py VolumeRow := do
  let volId ← uuid4
  let vg := self.volumeVg nodeId
  let (dev, sizeMb) ← provisionData self body vg (Names.data volId) nodeId
  let row : VolumeRow :=
    ⟨volId, nodeId, body.vmName ++ "-data", sizeMb, dev.text, "ready", ← now⟩
  insert .volumes row
  return row

def spawnRow (body : SpawnIn) (nodeId vpcId : Id) (ip : Str) (volId id : Id)
    (createdAt : Timestamp) : VmRow where
  id := id
  nodeId := nodeId
  name := body.vmName
  vpcId := vpcId
  dataVolumeId := some volId
  ip := ip
  sshPubkeyPath := none
  vcpuCount := body.vcpuCount
  memMib := body.memMib
  status := .pending
  createdAt := createdAt

def spawnLocal (self : Node) (body : SpawnIn) (nodeId : Id) (preBringUp : Id → Py Unit) :
    Py VmRow := do
  let vpc ← Defaults.ensureDefaultVpc
  let rootfsOrigin ← resolveRootImage body nodeId
  let vol ← autoVolume self body nodeId
  let ip ← fromExcept (Allocate.pickIp vpc.cidr (← usedIps vpc.id))
  let row := spawnRow body nodeId vpc.id ip vol.id (← uuid4) (← now)
  insert .vms row
  preBringUp row.id
  bringUp self row vpc.cidr (some (.file vol.path)) (some body.sshKey) rootfsOrigin
  return running row

def pinOrTarget (body : SpawnIn) (pin : Option Id) : Py Id :=
  if truthy pin then return pin.getD [] else targetNode body

def spawnVm (self : Node) (forward : Forward) (body : SpawnIn) (pin : Option Id) :
    Py Response := do
  let target ← pinOrTarget body pin
  if target ≠ self.id then forward target (.spawnVm body (some target))
  else do
    let row ← spawnLocal self body self.id fun _ => pure ()
    return .vm row

/-! ## The life of a VM -/

def withStatus (self : Node) (row : VmRow) : Py Response := do
  let live ← self.sh (Status.run row.id)
  return .vmView row live

/-- `_with_status` of each row. -/
def withStatuses (self : Node) : List VmRow → Py (List VmEntry)
  | [] => return []
  | row :: rest => do
    let live ← self.sh (Status.run row.id)
    let more ← withStatuses self rest
    return ⟨row, .live live⟩ :: more

/-- `except HTTPException: remote = []`. -/
def orNobody (p : Py (List VmEntry)) : Py (List VmEntry) :=
  tryCatch p fun exc =>
    match exc with
    | .http _ _ => return []
    | _ => throw exc

/-- `by_id[rv["id"]] = rv` for each entry. -/
def enter (byId : Store Id VmEntry) (entries : List VmEntry) : Store Id VmEntry :=
  entries.foldl (fun byId rv => byId.insert rv.row.id rv) byId

/-- The loop over the other owners. -/
def askOwners (forward : ForwardLocal) : List Id → Store Id VmEntry → Py (Store Id VmEntry)
  | [], byId => return byId
  | owner :: rest, byId => do
    let remote ← orNobody (forward owner)
    askOwners forward rest (enter byId remote)

def mergeRemoteStatus (self : Node) (forward : ForwardLocal) (rows : List VmRow) :
    Py (List VmEntry) := do
  let mine ← withStatuses self (rows.filter fun r => r.nodeId = self.id)
  let others := ((rows.filter fun r => r.nodeId ≠ self.id).map VmRow.nodeId).dedup
  let byId ← askOwners forward (self.cfg.sets.order others) (enter ∅ mine)
  return rows.map fun r => (byId.lookup r.id).getD ⟨r, .unknown⟩

/-- `localOnly` is the header `X-Nyc-Local`. -/
def listVms (self : Node) (forward : ForwardLocal) (localOnly : Bool) : Py (List VmEntry) := do
  let rows ← getAll .vms fun _ => true
  if localOnly then withStatuses self (rows.filter fun r => r.nodeId = self.id)
  else mergeRemoteStatus self forward rows

def getVm (self : Node) (forward : Forward) (vmId : Id) : Py Response := do
  let row ← orHttp (← get .vms fun r => r.id = vmId) 404 "vm not found"
  if row.nodeId ≠ self.id then forward row.nodeId (.getVm vmId)
  else withStatus self row

def deleteLocal (self : Node) (vmId nodeId : Id) : Py Response := do
  VmDeps.teardown vmId
  self.sh (VmDown.run vmId (self.volumeVg nodeId))
  let _ ← delete .vms fun r => r.id = vmId
  return .empty

def deleteVm (self : Node) (forward : Forward) (vmId : Id) : Py Response := do
  let owner ← ownerOr404 vmId
  if owner ≠ self.id then forward owner (.deleteVm vmId)
  else deleteLocal self vmId self.id

def setStatus (vmId : Id) (status : VmStatus) : Py Response := do
  let _ ← update .vms (fun r => r.id = vmId) fun r => { r with status := status }
  let row ← orAttributeError (← get .vms fun r => r.id = vmId)
  return .vm row

def stopLocal (self : Node) (vmId : Id) : Py Response := do
  self.sh (VmStop.run vmId)
  setStatus vmId .stopped

def startLocal (self : Node) (vmId : Id) : Py Response := do
  self.sh (VmStart.run vmId (VmUp.nsName vmId))
  setStatus vmId .running

def stopVm (self : Node) (forward : Forward) (vmId : Id) : Py Response := do
  let owner ← ownerOr404 vmId
  if owner ≠ self.id then forward owner (.stopVm vmId)
  else stopLocal self vmId

def startVm (self : Node) (forward : Forward) (vmId : Id) : Py Response := do
  let owner ← ownerOr404 vmId
  if owner ≠ self.id then forward owner (.startVm vmId)
  else startLocal self vmId

def rebootVm (self : Node) (forward : Forward) (vmId : Id) : Py Response := do
  let owner ← ownerOr404 vmId
  if owner ≠ self.id then forward owner (.rebootVm vmId)
  else do
    let _ ← stopLocal self vmId
    startLocal self vmId

end Vms

end Nyc
