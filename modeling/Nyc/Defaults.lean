import Nyc.Routers.Request

/-! `defaults.py`, `peers.py` and `client/vm_deps.py`. -/

namespace Nyc

open Client
open Effects.Program (whenTrue whenSome fromExcept)

/-- `x.__dict__` of a row that may be missing. -/
def orAttributeError {α : Type} (x : Option α) : Py α :=
  match x with
  | some a => pure a
  | none => throw .attributeError

namespace Defaults

def DEFAULT_VPC_NAME : Str := "default"
def DEFAULT_VPC_CIDR : Str := "172.16.0.0/16"

def defaultVpc : Py (Option VpcRow) := get .vpcs fun r => r.name = DEFAULT_VPC_NAME

def ensureDefaultVpc : Py VpcRow := do
  match ← defaultVpc with
  | some existing => return existing
  | none => do
    let row : VpcRow := ⟨← uuid4, DEFAULT_VPC_NAME, DEFAULT_VPC_CIDR, ← now⟩
    tryCatch (do insert .vpcs row; return row) fun exc =>
      if exc = .rqlite then do orAttributeError (← defaultVpc)
      else throw exc

end Defaults

namespace Peers

def nodeHost (nodeId : Id) : Py Str := do
  match ← get .nodes fun r => r.nodeId = nodeId with
  | some row => return row.host
  | none => return "127.0.0.1"

def peerHosts (nodeId : Id) : Py (List Str) := do
  let rows ← getAll .nodes fun _ => true
  return (rows.filter fun n => n.nodeId ≠ nodeId && !LOOPBACK.contains n.host).map NodeRow.host

end Peers

namespace VmDeps

def attachedTo (vmId : Id) (r : PublicIpRow) : Bool := r.vmId = some vmId && r.status = .attached

def teardownPublicIp (vmId : Id) : Py Unit := do
  let pip ← get .publicIps (attachedTo vmId)
  whenSome pip fun pip => do let _ ← delete .publicIps fun r => r.id = pip.id

def teardown (vmId : Id) : Py Unit := do
  teardownPublicIp vmId
  let _ ← delete .domains fun r => r.vmId = vmId
  let proxy ← get .proxies fun r => r.vmId = vmId
  whenSome proxy fun _ => do let _ ← delete .proxies fun r => r.vmId = vmId

end VmDeps

end Nyc
