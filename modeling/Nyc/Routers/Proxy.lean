import Nyc.Routers.Vms

/-! `routers/public_ips.py`, `routers/domains.py`, `routers/proxy.py` and `routers/tasks.py`. -/

namespace Nyc

open Client
open Effects.Program (whenTrue whenSome fromExcept)

def vmOr404 (vmId : Id) : Py VmRow := do
  orHttp (← get .vms fun r => r.id = vmId) 404 "vm not found"

namespace PublicIps

/-- The addresses that the node's rows hold. -/
def usedAddresses (nodeId : Id) : Py (List Str) := do
  let rows ← getAll .publicIps fun r => r.nodeId = nodeId
  return rows.map PublicIpRow.address

def attachLocal (self : Node) (vm : VmRow) (nodeId : Id) : Py Response := do
  let used ← usedAddresses nodeId
  let (address, gateway, mac, prefix_) ← fromExcept (PubipPool.acquire self.cfg.pubip used)
  let row : PublicIpRow := ⟨← uuid4, nodeId, some vm.id, address, some gateway, mac, prefix_,
    .attached, ← now⟩
  insert .publicIps row
  Vms.recreateVm self vm.id
  return .publicIp row

def attachPublicIp (self : Node) (forward : Forward) (vmId : Id) : Py Response := do
  let vm ← vmOr404 vmId
  if vm.nodeId ≠ self.id then forward vm.nodeId (.attachPublicIp vmId)
  else attachLocal self vm self.id

def detachLocal (self : Node) (vmId : Id) : Py Response := do
  let pip ← get .publicIps (VmDeps.attachedTo vmId)
  whenSome pip fun pip => do
    let _ ← delete .publicIps fun r => r.id = pip.id
    Vms.recreateVm self vmId
  return .empty

def detachPublicIp (self : Node) (forward : Forward) (vmId : Id) : Py Response := do
  let vm ← vmOr404 vmId
  if vm.nodeId ≠ self.id then forward vm.nodeId (.detachPublicIp vmId)
  else detachLocal self vmId

end PublicIps

namespace Tasks

def taskRow (vmId nodeId : Id) (type : TaskType) (params : Option Str) (now : Timestamp) (id : Id) :
    TaskRow :=
  ⟨id, nodeId, vmId, type, params, .pending, none, now, now⟩

def createTask (vmId : Id) (body : TaskIn) : Py Response := do
  let vm ← vmOr404 vmId
  let time ← now
  let row := taskRow vmId vm.nodeId body.type body.params time (← uuid4)
  insert .tasks row
  return .task row

end Tasks

namespace Domains

def resolveFqdn (self : Node) (body : DomainIn) : Py Str :=
  if truthy body.fqdn then pure (body.fqdn.getD [])
  else if truthy body.subdomain then
    if truthy self.cfg.domain then pure (body.subdomain.getD [] ++ "." ++ self.cfg.domain.getD [])
    else throw (.http 400 "cluster domain not configured; supply fqdn directly")
  else throw (.http 400 "supply subdomain or fqdn")

def insertTask (vmId nodeId : Id) (type : TaskType) (params : Option Str) : Py Unit := do
  let time ← now
  insert .tasks (Tasks.taskRow vmId nodeId type params time (← uuid4))

/-- A `proxy_reload` on the node of the VPC's proxy, if there is one. -/
def enqueueReload (vmId : Id) : Py Unit := do
  let vm ← get .vms fun r => r.id = vmId
  whenSome vm fun vm => do
    let proxy ← get .proxies fun r => r.vpcId = vm.vpcId
    whenSome proxy fun proxy => insertTask proxy.vmId proxy.nodeId .proxyReload none

def createDomain (self : Node) (body : DomainIn) : Py Response := do
  let fqdn ← resolveFqdn self body
  let _ ← vmOr404 body.vmId
  let row : DomainRow := ⟨← uuid4, fqdn, body.vmId, body.port, ← now⟩
  insert .domains row
  enqueueReload body.vmId
  return .domain row

def deleteDomain (domainId : Id) : Py Response := do
  let row ← orHttp (← get .domains fun r => r.id = domainId) 404 "domain not found"
  let _ ← delete .domains fun r => r.id = domainId
  enqueueReload row.vmId
  return .empty

end Domains

namespace Proxy

/-- `json.dumps` of the addresses, which hold no character that JSON escapes. -/
def setupParams (vmIp publicIp : Str) : Str :=
  "\x7b\"vm_ip\": \"" ++ vmIp ++ "\", \"public_ip\": \"" ++ publicIp ++ "\"\x7d"

def spawnBody (body : ProxyIn) : SpawnIn where
  vmName := orElse body.name "proxy"
  sshKey := ""
  sizeMb := 1024
  vcpuCount := body.vcpuCount
  memMib := body.memMib
  rootImage := none
  dataImage := none

/-- The rows written once the proxy VM is up. -/
def record (vpc : VpcRow) (nodeId pipId : Id) (time : Timestamp) (vm : VmRow) (pip : PublicIpRow) :
    Py Response := do
  let proxyRow : ProxyRow := ⟨← uuid4, vpc.id, vm.id, nodeId, some pipId, .pending, time⟩
  insert .proxies proxyRow
  let setupTask := Tasks.taskRow vm.id nodeId .reverseProxySetup
    (some (setupParams vm.ip pip.address)) time (← uuid4)
  let reloadTask := Tasks.taskRow vm.id nodeId .proxyReload none time (← uuid4)
  insert .tasks setupTask
  insert .tasks reloadTask
  return .proxy vm pip proxyRow setupTask.id

def createProxyLocal (self : Node) (body : ProxyIn) (vpc : VpcRow) (nodeId : Id) :
    Py Response := do
  let used ← PublicIps.usedAddresses nodeId
  let (address, gateway, mac, prefix_) ← fromExcept (PubipPool.acquire self.cfg.pubip used)
  let time ← now
  let pipId ← uuid4
  let pipRow (vmId : Id) : PublicIpRow :=
    ⟨pipId, nodeId, some vmId, address, some gateway, mac, prefix_, .attached, time⟩
  let vm ← Vms.spawnLocal self (spawnBody body) nodeId fun vmId => insert .publicIps (pipRow vmId)
  record vpc nodeId pipId time vm (pipRow vm.id)

def nodeWithFreeIp (self : Node) (default : Id) : Py Id := do
  let rows ← getAll .publicIps fun _ => true
  let free := self.cfg.pubip.ips.filter fun e => !(rows.map PublicIpRow.address).contains e.address
  if free ≠ [] then pure default
  else do
    let nodes ← getAll .nodes fun _ => true
    if nodes = [] then throw (.http 503 "no nodes registered")
    else throw (.http 503 "no nodes have free public IPs")

def createProxy (self : Node) (forward : Forward) (body : ProxyIn) : Py Response := do
  let vpc ← Defaults.ensureDefaultVpc
  let proxy ← get .proxies fun r => r.vpcId = vpc.id
  refuseIf proxy.isSome 409 "proxy already exists for this VPC"
  let target ← nodeWithFreeIp self self.id
  if target ≠ self.id then forward target (.createProxy body)
  else createProxyLocal self body vpc self.id

end Proxy

end Nyc
