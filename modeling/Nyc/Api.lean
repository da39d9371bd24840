import Nyc.Reconciler

/-!
# The nodes of the cluster

`serve` is what a node does with a request: the endpoints of all routers, which hand a
request on to the node that owns the resource. A forwarded request runs the remote node's
endpoint, one forward less deep.
-/

namespace Nyc

open Effects

namespace Api

/-- The characters of a JSON string. -/
def jsonEscape (text : Str) : Str :=
  text.flatMap fun c =>
    match c.toNat with
    | 34 => "\\\""
    | 92 => "\\\\"
    | 8 => "\\b"
    | 9 => "\\t"
    | 10 => "\\n"
    | 12 => "\\f"
    | 13 => "\\r"
    | n => if n < 32 then "\\u00" ++ Client.Overlay.hexByte n else [c]

/-- FastAPI's body for an exception: `{"detail": ...}`, or the text of a crash. -/
def errorBody : Exn → Nat × Str
  | .http code detail => (code, "\x7b\"detail\":\"" ++ jsonEscape detail ++ "\"\x7d")
  | _ => (500, "Internal Server Error")

/-- `httpx.request` to another node: its endpoint runs, and a status of 400 or more is raised
again as an `HTTPException` with the body as its text. -/
def remote {α : Type} (endpoint : Py α) : Py α :=
  tryCatch endpoint fun exc => throw (.http (errorBody exc).1 (errorBody exc).2)

/-- `_base_url`, then the request. -/
def forward (serve : Id → Request → Py Response) : Forward := fun nodeId req => do
  let row ← orHttp (← get .nodes fun r => r.nodeId = nodeId) 404 ("unknown node " ++ nodeId)
  remote (serve row.nodeId req)

def endpoint (self : Node) (forward : Forward) : Request → Py Response
  | .createVpc body => Vpcs.createVpc body
  | .deleteVpc vpcId => Vpcs.deleteVpc vpcId
  | .createVolume body => Volumes.createVolume self forward body
  | .resizeVolume volumeId body => Volumes.resizeVolume self forward volumeId body
  | .deleteVolume volumeId => Volumes.deleteVolume self forward volumeId
  | .createSnapshot body => Snapshots.createSnapshot self forward body
  | .deleteSnapshot snapshotId => Snapshots.deleteSnapshot self forward snapshotId
  | .createImage body => Snapshots.createImage self forward body
  | .deleteImage imageId => Snapshots.deleteImage self forward imageId
  | .createVm body => Vms.createVm self forward body
  | .spawnVm body pin => Vms.spawnVm self forward body pin
  | .getVm vmId => Vms.getVm self forward vmId
  | .deleteVm vmId => Vms.deleteVm self forward vmId
  | .stopVm vmId => Vms.stopVm self forward vmId
  | .startVm vmId => Vms.startVm self forward vmId
  | .rebootVm vmId => Vms.rebootVm self forward vmId
  | .attachPublicIp vmId => PublicIps.attachPublicIp self forward vmId
  | .detachPublicIp vmId => PublicIps.detachPublicIp self forward vmId
  | .createDomain body => Domains.createDomain self body
  | .deleteDomain domainId => Domains.deleteDomain domainId
  | .createProxy body => Proxy.createProxy self forward body
  | .createTask vmId body => Tasks.createTask vmId body
  | .reconcileNow => do
    return .report self.id (← PassOnce.run self)

/-- A node answers a request, with at most `hops` forwards; beyond, the calls time out. -/
def serve (cfg : Id → NodeConfig) : Nat → Id → Request → Py Response
  | 0, nodeId, req => endpoint ⟨nodeId, cfg nodeId⟩ (fun _ _ => throw .requestError) req
  | hops + 1, nodeId, req => endpoint ⟨nodeId, cfg nodeId⟩ (forward (serve cfg hops)) req

/-! ## The list of all VMs -/

/-- What becomes of a request that is sent to another node. -/
inductive Reply where
  | served
  | status (code : Nat) (text : Str)
  | unreachable

/-- `httpx.request` over the network. -/
def request (network : Id → Reply) (nodeId : Id) (view : Py (List VmEntry)) : Py (List VmEntry) :=
  match network nodeId with
  | .served => remote view
  | .status code text => throw (.http code text)
  | .unreachable => throw .requestError

/-- `forward(client, owner, "GET", "/vms", headers={"X-Nyc-Local": "1"})`. -/
def forwardLocal (network : Id → Reply) (view : Id → Py (List VmEntry)) : ForwardLocal :=
  fun nodeId => do
  let row ← orHttp (← get .nodes fun r => r.nodeId = nodeId) 404 ("unknown node " ++ nodeId)
  request network row.nodeId (view row.nodeId)

/-- `GET /vms` with the header, which is not handed on. -/
def listLocal (cfg : Id → NodeConfig) (nodeId : Id) : Py (List VmEntry) :=
  Vms.listVms ⟨nodeId, cfg nodeId⟩ (fun _ => throw .requestError) true

/-- `GET /vms`. -/
def listVms (network : Id → Reply) (cfg : Id → NodeConfig) (nodeId : Id) : Py (List VmEntry) :=
  Vms.listVms ⟨nodeId, cfg nodeId⟩ (forwardLocal network (listLocal cfg)) false

end Api

/-! ## A small cluster, for runs on fixed inputs -/

namespace Sample

def config : NodeConfig where
  paths := ⟨"/node", "/repo"⟩
  lvm := ⟨"nyc", "pool", none⟩
  pubip := ⟨[⟨"203.0.113.10", "02:00:00:00:00:0a", "32"⟩,
    ⟨"203.0.113.11", "02:00:00:00:00:0b", "32"⟩],
    some "203.0.113.1", "pub0"⟩
  domain := none
  dns := "1.1.1.1"
  ttl := 0
  sets := ⟨id, fun xs => .refl xs⟩

/-- Every command succeeds, no process exits, and the clock counts the operations. -/
def env : Env where
  uuid := fun n => Nat.toDigits 10 (10000000 + n)
  now := fun n => n
  choice := fun _ => 0
  chance := fun _ => ⟨false, "", fun _ => false⟩

def n1 : Node := ⟨"n1", config⟩

/-- The other nodes have no public addresses. -/
def cluster (nodeId : Id) : NodeConfig :=
  if nodeId = "n1" then config else { config with pubip := ⟨[], none, "pub0"⟩ }

/-- As `cluster`, with VMs that live for `ttl`. -/
def mortal (ttl : Int) (nodeId : Id) : NodeConfig := { cluster nodeId with ttl := ttl }

/-- A host with the thin pool, the golden root image and the public bridge. -/
def host : Client.Host :=
  { Client.Host.empty with
    lvs := AList.insert ("nyc-n1", Client.GOLD_DEFAULT) ⟨1024, none, true, .image⟩
      (AList.insert ("nyc-n1", "pool") ⟨1024, none, true, .zeros⟩ ∅)
    net := { Client.Net.empty with links := AList.insert (none, "pub0") (.ofKind .bridge) ∅ } }

/-- Node `n1` alone, before the first request. -/
def fresh : World where
  db := Function.update Db.empty .nodes ⟨[⟨"n1", "10.0.0.1", 8000⟩], by decide⟩
  hosts := fun nodeId => if nodeId = "n1" then host else Client.Host.empty
  clock := 0

def spawn : SpawnIn := ⟨"vm", "ssh-ed25519 AAAA", 1024, 1, 512, none, none⟩

/-- The VM that a spawn of the fresh node makes. -/
def v1 : Id := "10000012"

def vpc : VpcRow := ⟨"vpc1", "default", "172.16.0.0/16", 0⟩

/-- A VM of node `n1`. -/
def vm (id ip : Str) : VmRow := ⟨id, "n1", "vm", "vpc1", none, ip, none, 1, 512, .running, 0⟩

/-- Two VMs of node `n1`. -/
def twoVms : World where
  db := Function.update (Function.update Db.empty .vpcs ⟨[vpc], by decide⟩) .vms
    ⟨[vm "v1" "172.16.0.2", vm "v2" "172.16.0.3"], by decide⟩
  hosts := fun _ => Client.Host.empty
  clock := 0

end Sample

end Nyc
