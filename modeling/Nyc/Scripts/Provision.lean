import Nyc.Client.Proxy
import Nyc.Data.Echo
import Nyc.Data.Toml

/-!
# `scripts`: the public addresses of a node

What `inventory.py` flattens of the entry of a node, the lines that `provision.py` writes to
`config.toml`, and what `config.pubip` reads back on the node.
-/

namespace Nyc

open Data

/-- The lines of `config.toml`: each has its key at its start, and the text of a value. -/
abbrev ConfigFile : Type := List (Str × Str)

namespace Config

/-- `PubIpEntry(address=e["address"], mac=e["mac"], prefix=e.get("prefix", "32"))`. -/
def entry (e : Toml.Table) : Option PubIpEntry := do
  let address ← e.lookup "address".toList
  let mac ← e.lookup "mac".toList
  pure ⟨address, mac, (e.lookup "prefix".toList).getD "32"⟩

/-- A setting of one string. -/
def text (file : ConfigFile) (key : Str) : Option (Option Str) :=
  match file.lookup key with
  | none => some none
  | some written => (Toml.string written).map fun p => some p.1

/-- `pubip`, where the unit sets no variables: none where the file cannot be read or a key is
missing. -/
def pubip (file : ConfigFile) : Option PubipConfig := do
  let ips ← match file.lookup "public_ips".toList with
    | none => some []
    | some written => (Toml.tables written).bind fun es => es.mapM entry
  let gateway ← text file "pubip_gateway"
  let bridge ← text file "public_bridge"
  pure { ips, gateway := if truthy gateway then gateway else none, bridge := orElse bridge "pub0" }

end Config

namespace Scripts

/-- A text that neither the shell nor TOML reads as anything but itself, between double quotes. -/
def Inert (s : Str) : Prop := ∀ c ∈ s, (Toml.plain c && c != '$' && c != '\x60') = true

/-! ## The inventory -/

namespace Inventory

/-- One of the `public_ips` of a node. -/
structure DeclaredIp where
  address : Str
  mac : Str
  prefix_ : Option Str

/-- The keys of `[cluster]` that these settings come from. -/
structure PublicCluster where
  vmDomain : Option Str
  publicBridge : Option Str

/-- Those of one of the `[[nodes]]`. -/
structure PublicNode where
  publicIface : Option Str
  publicIps : Option (List DeclaredIp)
  pubipGateway : Option Str
  publicBridge : Option Str

/-- `host.data`. -/
structure PublicData where
  clusterDomain : Str
  publicIface : Str
  publicIps : List DeclaredIp
  pubipGateway : Str
  publicBridge : Str

/-- `_host`. -/
def publicHost (cluster : PublicCluster) (node : PublicNode) : PublicData where
  clusterDomain := cluster.vmDomain.getD []
  publicIface := node.publicIface.getD []
  publicIps := node.publicIps.getD []
  pubipGateway := node.pubipGateway.getD []
  publicBridge := node.publicBridge.getD (cluster.publicBridge.getD "pub0")

/-- No setting but the addresses means anything to the shell or to TOML. What provisioning writes
for the others is not the value itself, and may keep the whole file from being read. -/
structure PublicData.InertSettings (d : PublicData) : Prop where
  clusterDomain : Inert d.clusterDomain
  publicIface : Inert d.publicIface
  pubipGateway : Inert d.pubipGateway
  publicBridge : Inert d.publicBridge

end Inventory

open Inventory (DeclaredIp PublicData)

/-! ## Provisioning -/

namespace Provision

/-- `{address = "...", mac = "..."}`. -/
def item (e : DeclaredIp) : Str :=
  "\x7baddress = \"".toList ++ e.address ++ "\", mac = \"" ++ e.mac ++ "\"\x7d"

/-- `ips_toml`. -/
def ipsToml (ips : List DeclaredIp) : Str :=
  "[".toList ++ List.intercalate ", " (ips.map item) ++ "]"

/-- `sed -i "/^domain\b/d;/^public_iface/d;/^public_ips/d;/^pubip_gateway/d;/^public_bridge/d"`. -/
def stripped (key : Str) : Bool :=
  ("domain".toList.isPrefixOf key &&
    !((key.drop "domain".length).head?.any fun c => c.isAlphanum || c == '_')) ||
  ["public_iface".toList, "public_ips", "pubip_gateway", "public_bridge"].any fun p =>
    p.isPrefixOf key

/-- `echo "key = \"value\"" >> config`, for a value that is inert, where it is not empty. -/
def setting (key : Str) (value : Str) : ConfigFile :=
  if value ≠ [] then [(key, "\"".toList ++ value ++ "\"")] else []

/-- `_nyc_config_cmds`. The line of the addresses stands between single quotes, so that the shell
hands it to `echo` as it is. -/
def nycConfig (sh : Echo) (d : PublicData) (file : ConfigFile) : ConfigFile :=
  file.filter (fun l => !stripped l.1) ++ setting "domain" d.clusterDomain ++
    setting "public_iface" d.publicIface ++
    (if d.publicIps ≠ [] then [("public_ips".toList, sh.write (ipsToml d.publicIps))] else []) ++
    setting "pubip_gateway" d.pubipGateway ++ setting "public_bridge" d.publicBridge

end Provision

end Scripts

end Nyc
