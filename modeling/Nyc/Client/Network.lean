import Nyc.Client.Volume
import Nyc.Config
import Nyc.Python.IpAddress
import Nyc.Python.Sha256
import Nyc.Python.Text

/-! `client/network`: addresses, bridges, the VXLAN overlay, NAT and the namespaces. -/

namespace Nyc.Client

open Effects (Program)
open Effects.Program (perform forEach filterEach whenSome fromExcept)

def net (c : NetCmd) : Sh c.Res := @perform Cmd Cmd.Res Exn (.net c)

/-! ## Addresses and identifiers -/

namespace Allocate

/-- `ipaddress.ip_network(cidr, strict=True)`. -/
def network (cidr : Str) : Except Exn IpAddress.Network :=
  match IpAddress.ipNetwork cidr with
  | .ok n => .ok n
  | .error message => .error (.value message)

/-- `next(net.hosts())`: the hosts of a single address are a list, which is no iterator. -/
def gateway (cidr : Str) : Except Exn Str := do
  let n ← network cidr
  if n.prefixlen = n.version.bits then throw .typeError
  return n.hostText n.hosts.1

/-- The first of `count` hosts from `host` on that is free. -/
def firstFree (n : IpAddress.Network) (gw : Str) (used : List Str) : Nat → Nat → Option Str
  | 0, _ => none
  | count + 1, host =>
    let ip := n.hostText host
    if ip ≠ gw ∧ ip ∉ used then some ip else firstFree n gw used count (host + 1)

def pickIp (cidr : Str) (used : List Str) : Except Exn Str := do
  let n ← network cidr
  let gw ← gateway cidr
  match firstFree n gw used n.hosts.2 n.hosts.1 with
  | some ip => return ip
  | none => throw (.runtime ("VPC " ++ cidr ++ " is full"))

def netmask (cidr : Str) : Except Exn Str := do
  let n ← network cidr
  return n.netmask

def gatewayCidr (cidr : Str) : Except Exn Str := do
  let gw ← gateway cidr
  match cidr.splitOn '/' with
  | _ :: len :: _ => return gw ++ "/" ++ len
  | _ => throw .indexError

end Allocate

namespace Overlay

def sha256 (text : Str) : List Nat :=
  Sha256.digest ((text.flatMap String.utf8EncodeChar).map UInt8.toNat)

def vniFor (vpcId : Id) : Nat :=
  Sha256.ofBytes ((sha256 vpcId).take 4) % (2 ^ 24 - 1) + 1

def hexByte (b : Nat) : Str := [Nat.digitChar (b / 16), Nat.digitChar (b % 16)]

def anycastMac (vpcId : Id) : Str :=
  "02:" ++ List.intercalate [':'] (((sha256 vpcId).take 5).map hexByte)

end Overlay

/-! ## Devices in the root namespace -/

/-- `ip link show`, as a test. -/
def linkExists (name : Str) : Sh Bool :=
  exceptPrivops (do net (.show name); return true) false

namespace Bridge

def nameFor (nodeId vpcId : Id) : Str := "br-" ++ nodeId.take 4 ++ "-" ++ vpcId.take 4

def ensure (bridge hostIpCidr mac : Str) : Sh Unit := do
  if ← linkExists bridge then pure ()
  else
    net (.add (none, bridge) .bridge)
    net (.setAddress bridge mac)
    net (.addAddr bridge hostIpCidr)
    net (.setUp (none, bridge))

def attach (bridge hostVeth : Str) : Sh Unit := net (.setMaster (none, hostVeth) bridge)

end Bridge

namespace Vxlan

def ALL_ZEROS : Str := "00:00:00:00:00:00"

def nameFor (nodeId vpcId : Id) : Str := "vx-" ++ nodeId.take 4 ++ "-" ++ vpcId.take 4

def ensure (name : Str) (vni : Nat) (localIp bridge : Str) : Sh Unit := do
  if ← linkExists name then pure ()
  else
    net (.add (none, name) (.vxlan vni localIp))
    net (.setMaster (none, name) bridge)
    net (.setUp (none, name))

/-- `line.split("dst")[1].split()[0]`. -/
def peerOf (line : Str) : Except Exn Str :=
  match ((Text.split "dst" line)[1]?).bind Text.firstWord with
  | some peer => .ok peer
  | none => .error .indexError

/-- The peers in what `bridge fdb show` prints. -/
def parsePeers (out : Str) : Except Exn (List Str) :=
  ((Text.splitlines out).filter fun line =>
    Text.has ALL_ZEROS line && Text.has "dst" line).mapM peerOf

def fdbPeers (name : Str) : Sh (List Str) := do
  let out ← net (.fdbShow name)
  fromExcept (parsePeers out)

def setFdb (sets : SetOrder) (name : Str) (peers : List Str) : Sh Unit := do
  let current ← fdbPeers name
  forEach (fun dst => net (.fdbAppend name ALL_ZEROS dst)) (sets.diff peers current)
  forEach (fun dst => net (.fdbDel name ALL_ZEROS dst)) (sets.diff current peers)

end Vxlan

namespace Nat_

def NAT : Str := "nat"
def FILTER : Str := "filter"
def POST : Str := "NYC-POSTROUTING"
def FWD : Str := "NYC-FORWARD"

def ensureChain (table chain : Str) : Sh Unit := do
  if ← exceptPrivops (do net (.listChain table chain); return true) false then pure ()
  else net (.newChain table chain)

def ensureRule (table chain : Str) (args : List Str) : Sh Unit := do
  if ← exceptPrivops (do net (.checkRule ⟨table, chain, args⟩); return true) false then pure ()
  else net (.appendRule ⟨table, chain, args⟩)

def ensure (cidr : Str) : Sh Unit := do
  net .sysctlForward
  ensureChain NAT POST
  ensureChain FILTER FWD
  ensureRule NAT "POSTROUTING" ["-j", POST]
  ensureRule FILTER "FORWARD" ["-j", FWD]
  ensureRule NAT POST ["-s", cidr, "!", "-d", cidr, "-j", "MASQUERADE"]
  ensureRule FILTER FWD ["-s", cidr, "-j", "ACCEPT"]
  ensureRule FILTER FWD ["-d", cidr, "-j", "ACCEPT"]

def delRule (table chain : Str) (args : List Str) : Sh Unit := do
  if ← exceptPrivops (do net (.checkRule ⟨table, chain, args⟩); return true) false then
    net (.deleteRule ⟨table, chain, args⟩)

def delete (cidr : Str) : Sh Unit := do
  delRule NAT POST ["-s", cidr, "!", "-d", cidr, "-j", "MASQUERADE"]
  delRule FILTER FWD ["-s", cidr, "-j", "ACCEPT"]
  delRule FILTER FWD ["-d", cidr, "-j", "ACCEPT"]

end Nat_

/-! ## Namespaces and what is inside -/

namespace Namespace

def create (name : Str) : Sh Unit := net (.netnsAdd name)

def delete (name : Str) : Sh Unit := net (.netnsDel name)

end Namespace

namespace Veth

def createPair (hostName nsName : Str) : Sh Unit := net (.addVeth hostName nsName)

def placeInNs (name ns : Str) : Sh Unit := net (.setNetns name ns)

def up (name : Str) : Sh Unit := net (.setUp (none, name))

def delete (name : Str) : Sh Unit := net (.del name)

end Veth

namespace NsBridge

def create (ns name : Str) : Sh Unit := do
  net (.add (some ns, name) .bridge)
  net (.setUp (some ns, name))

def attach (ns link name : Str) : Sh Unit := do
  net (.setMaster (some ns, link) name)
  net (.setUp (some ns, link))

end NsBridge

namespace Tap

def create (ns name : Str) : Sh Unit := net (.add (some ns, name) .tap)

end Tap

end Nyc.Client
