import Nyc.Client.Vm

/-! `client/lifecycle`: a VM brought up, taken down, stopped and started. -/

namespace Nyc.Client

open Effects (Program)
open Effects.Program (perform forEach filterEach whenTrue whenSome fromExcept)

def LOOPBACK : List Str := ["127.0.0.1", "localhost"]

structure VmSpec where
  vmId : Id
  nodeId : Id
  vpcId : Id
  ip : Str
  cidr : Str
  dataVolumePath : Option Path
  kernel : Str
  sshKey : Str
  vmsDir : Str
  vg : Str
  nodeHost : Str
  peerHosts : List Str
  dns : Str
  sshPubkey : Option Str
  vcpuCount : Int
  memMib : Int
  rootfsOrigin : Str
  publicIp : Option PublicIpSpec
  /-- `pubip_cfg().bridge`. -/
  publicBridge : Str
  sets : SetOrder

namespace VmUp

def nsName (vmId : Id) : Str := "vm-" ++ vmId.take 8
def hostVeth (vmId : Id) : Str := "vmh-" ++ vmId.take 8
def nsVeth (vmId : Id) : Str := "vmn-" ++ vmId.take 8
def pubHostVeth (vmId : Id) : Str := "pvh-" ++ vmId.take 8
def pubNsVeth (vmId : Id) : Str := "pvn-" ++ vmId.take 8

/-- The pairs of characters of a text. -/
def pairs : Str → List Str
  | a :: b :: rest => [a, b] :: pairs rest
  | [a] => [[a]]
  | [] => []

def mac (vmId : Id) : Str :=
  let h := (vmId.filter (· ≠ '-')).take 10
  "02:" ++ List.intercalate [':'] ((pairs h ++ List.replicate 5 []).take 5)

def overlay (spec : VmSpec) (br : Str) : Sh Unit :=
  if spec.peerHosts = [] ∨ LOOPBACK.contains spec.nodeHost then pure ()
  else do
    let name := Vxlan.nameFor spec.nodeId spec.vpcId
    Vxlan.ensure name (Overlay.vniFor spec.vpcId) spec.nodeHost br
    Vxlan.setFdb spec.sets name spec.peerHosts

def wireVeth (spec : VmSpec) (ns host inner : Str) : Sh Unit := do
  Veth.createPair host inner
  Veth.placeInNs inner ns
  Bridge.attach (Bridge.nameFor spec.nodeId spec.vpcId) host
  Veth.up host

def wireTap (ns inner : Str) : Sh Unit := do
  NsBridge.create ns "nbr0"
  NsBridge.attach ns inner "nbr0"
  Tap.create ns "tap0"
  NsBridge.attach ns "tap0" "nbr0"

def wirePublic (spec : VmSpec) (ns : Str) : Sh Unit := do
  Veth.createPair (pubHostVeth spec.vmId) (pubNsVeth spec.vmId)
  Veth.placeInNs (pubNsVeth spec.vmId) ns
  Bridge.attach spec.publicBridge (pubHostVeth spec.vmId)
  Veth.up (pubHostVeth spec.vmId)
  NsBridge.create ns "pbr1"
  NsBridge.attach ns (pubNsVeth spec.vmId) "pbr1"
  Tap.create ns "tap1"
  NsBridge.attach ns "tap1" "pbr1"

def network (spec : VmSpec) : Sh Unit := do
  let br := Bridge.nameFor spec.nodeId spec.vpcId
  let gw ← fromExcept (Allocate.gatewayCidr spec.cidr)
  Bridge.ensure br gw (Overlay.anycastMac spec.vpcId)
  overlay spec br
  Nat_.ensure spec.cidr
  let ns := nsName spec.vmId
  Namespace.create ns
  wireVeth spec ns (hostVeth spec.vmId) (nsVeth spec.vmId)
  wireTap ns (nsVeth spec.vmId)
  whenSome spec.publicIp fun _ => wirePublic spec ns

def vmConfig (spec : VmSpec) : VmConfig where
  tapName := "tap0"
  mac := mac spec.vmId
  guestIp := spec.ip
  cidr := spec.cidr
  hasDataVolume := spec.dataVolumePath.isSome
  vcpuCount := spec.vcpuCount
  memMib := spec.memMib
  dns := spec.dns
  publicTap := spec.publicIp.map fun _ => "tap1"
  publicMac := spec.publicIp.map PublicIpSpec.mac

/-- `_spawn`; `boot.run` does nothing on the real backend. -/
def spawn (spec : VmSpec) : Sh Unit := do
  VmConfig.build spec.vmId (VmPaths.forVm spec.vmsDir spec.vmId) (vmConfig spec)
  CreateVm.run spec.vmId (nsName spec.vmId)

def run (spec : VmSpec) : Sh Unit := do
  EnvSetup.run spec.vmId spec.kernel spec.sshKey spec.vg spec.rootfsOrigin
  Inject.run spec.vmId spec.sshPubkey spec.dns spec.dataVolumePath.isSome spec.publicIp
  whenSome spec.dataVolumePath fun path => Attach.run spec.vmId path
  network spec
  spawn spec

end VmUp

namespace VmDown

/-- `except Exception: pass`. -/
def safe (p : Sh Unit) : Sh Unit := tryCatch p fun _ => pure ()

def networkDown (vmId : Id) : Sh Unit := do
  safe (Namespace.delete (VmUp.nsName vmId))
  safe (Veth.delete (VmUp.hostVeth vmId))
  safe (Veth.delete (VmUp.pubHostVeth vmId))

def run (vmId : Id) (vg : Str) : Sh Unit := do
  whenTrue (← dir vmId .exists_) (Kill.run vmId)
  networkDown vmId
  EnvTeardown.run vmId vg

end VmDown

namespace VmStop

def run (vmId : Id) : Sh Unit := Kill.run vmId

end VmStop

namespace VmStart

def run (vmId ns : Str) : Sh Unit := CreateVm.run vmId ns

end VmStart

end Nyc.Client
