import Nyc.Data.Table
import Nyc.Python

/-! The nine tables: nyc's eight and dadar's `nodes` registry. -/

namespace Nyc

open Data

/-- Seconds since the epoch; the source stores ISO text and parses it back. -/
abbrev Timestamp : Type := Int

structure VpcRow where
  id : Id
  name : Str
  cidr : Str
  createdAt : Timestamp
  deriving DecidableEq, Repr

structure VolumeRow where
  id : Id
  nodeId : Id
  name : Str
  sizeMb : Int
  path : Str
  status : Str
  createdAt : Timestamp
  deriving DecidableEq, Repr

inductive VmStatus where
  | pending | running | stopped | failed
  deriving DecidableEq, Repr

structure VmRow where
  id : Id
  nodeId : Id
  name : Str
  vpcId : Id
  dataVolumeId : Option Id
  ip : Str
  sshPubkeyPath : Option Str
  vcpuCount : Int
  memMib : Int
  status : VmStatus
  createdAt : Timestamp
  deriving DecidableEq, Repr

inductive Role where
  | snapshot | golden
  deriving DecidableEq, Repr

inductive Disk where
  | root | data
  deriving DecidableEq, Repr

structure SnapshotRow where
  id : Id
  nodeId : Id
  name : Str
  role : Role
  disk : Disk
  parent : Option Id
  lvName : Str
  sizeMb : Int
  createdAt : Timestamp
  deriving DecidableEq, Repr

inductive PipStatus where
  | attached | released | failed
  deriving DecidableEq, Repr

structure PublicIpRow where
  id : Id
  nodeId : Id
  vmId : Option Id
  address : Str
  gateway : Option Str
  mac : Str
  prefix_ : Str
  status : PipStatus
  createdAt : Timestamp
  deriving DecidableEq, Repr

structure DomainRow where
  id : Id
  fqdn : Str
  vmId : Id
  port : Int
  createdAt : Timestamp
  deriving DecidableEq, Repr

inductive TaskType where
  | reverseProxySetup | proxyReload | other (name : Str)
  deriving DecidableEq, Repr

inductive TaskStatus where
  | pending | running | succeeded | failed
  deriving DecidableEq, Repr

structure TaskRow where
  id : Id
  nodeId : Id
  vmId : Id
  type : TaskType
  params : Option Str
  status : TaskStatus
  result : Option Str
  createdAt : Timestamp
  updatedAt : Timestamp
  deriving DecidableEq, Repr

inductive ProxyStatus where
  | pending | ready
  deriving DecidableEq, Repr

structure ProxyRow where
  id : Id
  vpcId : Id
  vmId : Id
  nodeId : Id
  publicIpId : Option Id
  status : ProxyStatus
  createdAt : Timestamp
  deriving DecidableEq, Repr

structure NodeRow where
  nodeId : Id
  host : Str
  httpPort : Nat
  deriving DecidableEq, Repr

/-- `nyc.tables.ALL` and dadar's `Nodes`. -/
inductive Tbl where
  | vpcs | volumes | vms | snapshots | publicIps | domains | tasks | proxies | nodes
  deriving DecidableEq, Repr

abbrev Tbl.Row : Tbl → Type
  | vpcs => VpcRow
  | volumes => VolumeRow
  | vms => VmRow
  | snapshots => SnapshotRow
  | publicIps => PublicIpRow
  | domains => DomainRow
  | tasks => TaskRow
  | proxies => ProxyRow
  | nodes => NodeRow

/-- The `PRIMARY KEY` and `UNIQUE` columns of each table. -/
def Tbl.unique : (t : Tbl) → List (t.Row → Option Str)
  | vpcs => [fun r => some r.id, fun r => some r.name]
  | volumes => [fun r => some r.id]
  | vms => [fun r => some r.id]
  | snapshots => [fun r => some r.id]
  | publicIps => [fun r => some r.id]
  | domains => [fun r => some r.id, fun r => some r.fqdn]
  | tasks => [fun r => some r.id]
  | proxies => [fun r => some r.id, fun r => some r.vpcId]
  | nodes => [fun r => some r.nodeId]

/-- The replicated database. -/
abbrev Db : Type := (t : Tbl) → Table t.unique

def Db.empty : Db := fun _ => Table.empty

end Nyc
