import Nyc.Routers.Request

/-! `routers/vpcs.py`, `routers/volumes.py` and `routers/snapshots.py`. -/

namespace Nyc

open Client
open Effects.Program (whenTrue whenSome fromExcept)

/-- `x is None` answers with an HTTP error. -/
def orHttp {α : Type} (x : Option α) (code : Nat) (detail : Str) : Py α :=
  match x with
  | some a => pure a
  | none => throw (.http code detail)

/-- `if c: raise HTTPException(code, detail)`. -/
def refuseIf (c : Bool) (code : Nat) (detail : Str) : Py Unit :=
  whenTrue c (throw (.http code detail))

namespace Vpcs

def validateCidr (cidr : Str) : Py Unit :=
  match IpAddress.ipNetwork cidr with
  | .ok _ => pure ()
  | .error exc => throw (.http 400 ("invalid cidr: " ++ exc))

def createVpc (body : VpcIn) : Py Response := do
  validateCidr body.cidr
  let row : VpcRow := ⟨← uuid4, body.name, body.cidr, ← now⟩
  tryCatch (insert .vpcs row) fun exc =>
    if exc = .rqlite then throw (.http 409 exc.text) else throw exc
  return .vpc row

def deleteVpc (vpcId : Id) : Py Response := do
  let vm ← get .vms fun r => r.vpcId = vpcId
  refuseIf vm.isSome 409 "vpc still has vms"
  let affected ← delete .vpcs fun r => r.id = vpcId
  refuseIf (affected = 0) 404 "vpc not found"
  return .empty

end Vpcs

namespace Volumes

def provision (self : Node) (body : VolumeIn) (vg name : Str) (nodeId : Id) : Py (Path × Int) :=
  if truthy body.fromSnapshot then do
    let snap ← get .snapshots fun r => some r.id = body.fromSnapshot
    let snap ← orHttp (snap.filter fun r => r.nodeId = nodeId) 400 "unknown or remote from_snapshot"
    return (← self.sh (Create.fromSnapshot vg snap.lvName name), snap.sizeMb)
  else do
    return (← self.sh (Create.run vg self.cfg.lvm.thinpool name body.sizeMb), body.sizeMb)

def createLocal (self : Node) (body : VolumeIn) (nodeId : Id) : Py Response := do
  let volId ← uuid4
  let vg := self.volumeVg nodeId
  let (dev, sizeMb) ← provision self body vg (Names.data volId) nodeId
  let row : VolumeRow := ⟨volId, nodeId, body.name, sizeMb, dev.text, "ready", ← now⟩
  insert .volumes row
  return .volume row

def createVolume (self : Node) (forward : Forward) (body : VolumeIn) : Py Response :=
  let target := orElse body.nodeId self.id
  if target ≠ self.id then forward target (.createVolume body)
  else createLocal self body target

def resizeLocal (self : Node) (row : VolumeRow) (sizeMb : Int) : Py Response := do
  self.sh (Lv.extend (self.volumeVg row.nodeId) (Names.data row.id) sizeMb)
  let _ ← update .volumes (fun r => r.id = row.id) fun r => { r with sizeMb := sizeMb }
  return .volume { row with sizeMb := sizeMb }

def resizeVolume (self : Node) (forward : Forward) (volumeId : Id) (body : ResizeIn) :
    Py Response := do
  let row ← orHttp (← get .volumes fun r => r.id = volumeId) 404 "volume not found"
  if row.nodeId ≠ self.id then forward row.nodeId (.resizeVolume volumeId body)
  else resizeLocal self row body.sizeMb

def deleteLocal (self : Node) (row : VolumeRow) : Py Response := do
  let vm ← get .vms fun r => r.dataVolumeId = some row.id
  refuseIf vm.isSome 409 "volume attached to a vm"
  self.sh (Lv.remove (self.volumeVg row.nodeId) (Names.data row.id))
  let _ ← delete .volumes fun r => r.id = row.id
  return .empty

def deleteVolume (self : Node) (forward : Forward) (volumeId : Id) : Py Response := do
  let row ← orHttp (← get .volumes fun r => r.id = volumeId) 404 "volume not found"
  if row.nodeId ≠ self.id then forward row.nodeId (.deleteVolume volumeId)
  else deleteLocal self row

end Volumes

namespace Snapshots

/-- What is snapshotted: a data volume's LV, or a VM's root LV. -/
structure Source where
  nodeId : Id
  parent : Id
  sourceLv : Str
  sizeMb : Int
  disk : Disk

def resolveSource (body : SnapshotIn) : Py Source := do
  refuseIf (truthy body.volumeId == truthy body.vmId) 400 "give exactly one of volume_id or vm_id"
  if truthy body.volumeId then do
    let v ← orHttp (← get .volumes fun r => some r.id = body.volumeId) 400 "unknown volume_id"
    return ⟨v.nodeId, v.id, Names.data v.id, v.sizeMb, .data⟩
  else do
    let v ← orHttp (← get .vms fun r => some r.id = body.vmId) 400 "unknown vm_id"
    return ⟨v.nodeId, v.id, Names.rootfs v.id, 0, .root⟩

def createSnapshotLocal (self : Node) (body : SnapshotIn) (src : Source) : Py Response := do
  let snapId ← uuid4
  let _ ← self.sh (SnapAction.create (self.volumeVg src.nodeId) src.sourceLv snapId)
  let row : SnapshotRow := ⟨snapId, src.nodeId, body.name, .snapshot, src.disk, some src.parent,
    Names.snap snapId, src.sizeMb, ← now⟩
  insert .snapshots row
  return .snapshot row

def createSnapshot (self : Node) (forward : Forward) (body : SnapshotIn) : Py Response := do
  let src ← resolveSource body
  if src.nodeId ≠ self.id then forward src.nodeId (.createSnapshot body)
  else createSnapshotLocal self body src

def createImageLocal (self : Node) (body : ImageIn) (snap : SnapshotRow) (nodeId : Id) :
    Py Response := do
  let goldId ← uuid4
  let _ ← self.sh (SnapAction.golden (self.volumeVg nodeId) snap.id goldId)
  let row : SnapshotRow := ⟨goldId, nodeId, body.name, .golden, snap.disk, some snap.id,
    Names.gold goldId, snap.sizeMb, ← now⟩
  insert .snapshots row
  return .snapshot row

def createImage (self : Node) (forward : Forward) (body : ImageIn) : Py Response := do
  let snap ← orHttp (← get .snapshots fun r => r.id = body.fromSnapshot && r.role = .snapshot)
    400 "unknown from_snapshot"
  if snap.nodeId ≠ self.id then forward snap.nodeId (.createImage body)
  else createImageLocal self body snap snap.nodeId

def roleText : Role → Str
  | .snapshot => "snapshot"
  | .golden => "golden"

/-- `_delete`; `again` is the request that its `prefix` and id name. -/
def delete_ (self : Node) (forward : Forward) (rid : Id) (role : Role) (again : Request) :
    Py Response := do
  let row ← orHttp (← get .snapshots fun r => r.id = rid && r.role = role)
    404 (roleText role ++ " not found")
  if row.nodeId ≠ self.id then forward row.nodeId again
  else do
    self.sh (SnapAction.remove (self.volumeVg row.nodeId) row.lvName)
    let _ ← delete .snapshots fun r => r.id = rid
    return .empty

def deleteSnapshot (self : Node) (forward : Forward) (snapshotId : Id) : Py Response :=
  delete_ self forward snapshotId .snapshot (.deleteSnapshot snapshotId)

def deleteImage (self : Node) (forward : Forward) (imageId : Id) : Py Response :=
  delete_ self forward imageId .golden (.deleteImage imageId)

end Snapshots

end Nyc
