import Nyc.World

/-! The bodies of the requests that write, and what they answer. -/

namespace Nyc

structure VpcIn where
  name : Str
  cidr : Str

structure VolumeIn where
  name : Str
  sizeMb : Int
  nodeId : Option Id
  fromSnapshot : Option Id

structure ResizeIn where
  sizeMb : Int

structure SnapshotIn where
  name : Str
  volumeId : Option Id
  vmId : Option Id

structure ImageIn where
  name : Str
  fromSnapshot : Id

structure VmIn where
  name : Str
  vpcId : Id
  dataVolumeId : Option Id
  nodeId : Option Id

structure SpawnIn where
  vmName : Str
  sshKey : Str
  sizeMb : Int
  vcpuCount : Int
  memMib : Int
  rootImage : Option Id
  dataImage : Option Id

structure DomainIn where
  vmId : Id
  port : Int
  subdomain : Option Str
  fqdn : Option Str

structure ProxyIn where
  name : Option Str
  vcpuCount : Int
  memMib : Int

/-- `params` is the JSON text of a non-empty object. -/
structure TaskIn where
  type : TaskType
  params : Option Str

inductive Request where
  | createVpc (body : VpcIn)
  | deleteVpc (vpcId : Id)
  | createVolume (body : VolumeIn)
  | resizeVolume (volumeId : Id) (body : ResizeIn)
  | deleteVolume (volumeId : Id)
  | createSnapshot (body : SnapshotIn)
  | deleteSnapshot (snapshotId : Id)
  | createImage (body : ImageIn)
  | deleteImage (imageId : Id)
  | createVm (body : VmIn)
  | spawnVm (body : SpawnIn) (pin : Option Id)
  | getVm (vmId : Id)
  | deleteVm (vmId : Id)
  | stopVm (vmId : Id)
  | startVm (vmId : Id)
  | rebootVm (vmId : Id)
  | attachPublicIp (vmId : Id)
  | detachPublicIp (vmId : Id)
  | createDomain (body : DomainIn)
  | deleteDomain (domainId : Id)
  | createProxy (body : ProxyIn)
  | createTask (vmId : Id) (body : TaskIn)
  | reconcileNow

/-- What a pass over rows and resources reports; `removed` is `killed` or `deleted`. -/
structure Report where
  expected : Nat
  onDisk : Nat
  removed : List Str

structure Reports where
  ttl : List Id
  vms : Report
  volumes : Report
  snapshots : Report
  overlay : List Id

inductive Response where
  | empty
  | vpc (row : VpcRow)
  | volume (row : VolumeRow)
  | snapshot (row : SnapshotRow)
  | vm (row : VmRow)
  | vmView (row : VmRow) (liveStatus : Client.LiveStatus)
  | publicIp (row : PublicIpRow)
  | domain (row : DomainRow)
  | task (row : TaskRow)
  | report (nodeId : Id) (reports : Reports)
  | proxy (vm : VmRow) (publicIp : PublicIpRow) (proxy : ProxyRow) (setupTaskId : Id)

/-- `live_status` in the list of all VMs. -/
inductive LiveView where
  | live (status : Client.LiveStatus)
  | unknown

/-- `{**row, "live_status": live}`. -/
structure VmEntry where
  row : VmRow
  liveStatus : LiveView

/-- `routers/_proxy.py`: how a node hands a request on. -/
abbrev Forward : Type := Id → Request → Py Response

/-- The same for the list of a node's own VMs. -/
abbrev ForwardLocal : Type := Id → Py (List VmEntry)

end Nyc
