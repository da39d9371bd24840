import Nyc.Client.Pool
import Nyc.Data.Pattern

/-!
# `scripts`: a node provisioned and taken apart

What `inventory.py` and `provision.py` make of the entry of a node, as far as its storage goes, and
what `teardown.py` removes: the volume group, the links and namespaces that its expressions match,
and the two chains.
-/

namespace Nyc

/-- The storage keys of `config.toml`. -/
structure ConfigToml where
  lvmVg : Option Str
  lvmThinpool : Option Str
  lvmDevice : Option Str

/-- `config.lvm`, where the unit sets no variables. -/
def Config.lvm (data : ConfigToml) : LvmConfig where
  vg := orElse data.lvmVg "nyc"
  thinpool := orElse data.lvmThinpool "pool"
  device := if truthy data.lvmDevice then data.lvmDevice else none

namespace Scripts

open Data Client

/-! ## The inventory -/

namespace Inventory

/-- The storage keys of `[cluster]`. -/
structure ClusterTable where
  lvmDevice : Option Str
  lvmVg : Option Str
  lvmThinpool : Option Str

/-- Those of one of the `[[nodes]]`. -/
structure NodeTable where
  lvmDevice : Option Str

/-- `host.data`. -/
structure HostData where
  lvmDevice : Str
  lvmVg : Str
  lvmThinpool : Str

/-- `_host`. -/
def host (cluster : ClusterTable) (node : NodeTable) : HostData where
  lvmDevice := node.lvmDevice.getD (cluster.lvmDevice.getD [])
  lvmVg := cluster.lvmVg.getD "nyc"
  lvmThinpool := cluster.lvmThinpool.getD "pool"

end Inventory

open Inventory (HostData)

/-! ## Provisioning -/

/-- `_lvm_config_cmds`: the keys that are there afterwards. No character of a name that LVM accepts
means anything to the shell or to TOML. -/
def Provision.lvmConfig (d : HostData) : ConfigToml where
  lvmVg := some d.lvmVg
  lvmThinpool := some d.lvmThinpool
  lvmDevice := if d.lvmDevice ≠ [] then some d.lvmDevice else none

/-! ## `teardown.py` -/

namespace Teardown

def hex : Str := "0123456789abcdef"

/-- `^vm-[0-9a-f]{8}$`. -/
def namespacePattern : List Piece := [.text "vm-".toList, .of hex 8]

/--
`^(br-[0-9a-f]{4}-[0-9a-f]{4}|vx-[0-9a-f]{4}-[0-9a-f]{4}|vm[hn]-[0-9a-f]{8}|pv[hn]-[0-9a-f]{8})$`. -/
def linkPatterns : List (List Piece) :=
  [[.text "br-".toList, .of hex 4, .text "-".toList, .of hex 4],
   [.text "vx-".toList, .of hex 4, .text "-".toList, .of hex 4],
   [.text "vm".toList, .of "hn".toList 1, .text "-".toList, .of hex 8],
   [.text "pv".toList, .of "hn".toList 1, .text "-".toList, .of hex 8]]

def isNamespace (name : Str) : Bool := matches_ namespacePattern name

def isLink (name : Str) : Bool := linkPatterns.any fun p => matches_ p name

/-- How `ip -o link show` names a link: one of a pair is followed by where its other end is. -/
def shown (name : Str) (l : Link) : Str :=
  match l.kind.pair with
  | some other => name ++ "@if" ++ Nat.toDigits 10 other
  | none => name

/-- `cut -d'@' -f1`. -/
def cut (field : Str) : Str := field.takeWhile (· ≠ '@')

/-- The names of the links in the root namespace, as they are listed. -/
def listed (n : Net) : List Str :=
  n.links.entries.filterMap fun e => if e.1.1 = none then some (shown e.1.2 e.2) else none

inductive TearCmd where
  | vgchange (vg : Str)
  | vgremove (vg : Str)
  | pvremove (dev : Dev)
  | netnsDel (ns : Str)
  | linkDel (dev : Str)
  /-- `iptables -D chain -j target`. -/
  | unjump (table chain target : Str)
  | flush (table chain : Str)
  | deleteChain (table chain : Str)

/-- The rule jumps to the chain, which is in its table. -/
def jumpsTo (table chain : Str) (r : Rule) : Prop :=
  r.table = table ∧ ["-j".toList, chain] <:+: r.args

instance (table chain : Str) (r : Rule) : Decidable (jumpsTo table chain r) :=
  inferInstanceAs (Decidable (_ ∧ _))

def onNet (f : Net → Option Net) (m : Machine) : Option Machine :=
  (f m.host.net).map fun n => { m with host := { m.host with net := n } }

namespace TearCmd

def step : TearCmd → Machine → Option Machine
  | vgchange vg, m => if m.vgs.lookup vg ≠ none then some { m with
    active := m.active.filter (· ≠ vg) } else none
  | vgremove vg, m =>
    if m.vgs.lookup vg ≠ none then
      some { m with
        vgs := m.vgs.erase vg
        host := { m.host with lvs := Store.keep (fun k _ => k.1 ≠ vg) m.host.lvs } }
    else none
  | pvremove dev, m => if dev ∈ m.pvs then some { m with pvs := m.pvs.filter (· ≠ dev) } else none
  | netnsDel ns, m => onNet (fun n => (NetCmd.step (.netnsDel ns) n).map Prod.snd) m
  | linkDel dev, m => onNet (fun n => (NetCmd.step (.del dev) n).map Prod.snd) m
  | unjump table chain target, m =>
    onNet (fun n => (NetCmd.step (.deleteRule ⟨table, chain, ["-j", target]⟩) n).map Prod.snd) m
  | flush table chain, m =>
    onNet (fun n =>
      if n.chains.contains (table, chain) then
        some { n with rules := n.rules.filter fun r => ¬ (r.table = table ∧ r.chain = chain) }
      else none) m
  | deleteChain table chain, m =>
    onNet (fun n =>
      if n.chains.contains (table, chain) ∧ (∀ r ∈ n.rules, ¬ (r.table = table ∧ r.chain = chain)) ∧
          ∀ r ∈ n.rules, ¬ jumpsTo table chain r then
        some { n with chains := n.chains.filter (· ≠ (table, chain)) }
      else none) m

/-- `... 2>/dev/null || true`. -/
def attempt (m : Machine) (c : TearCmd) : Machine := (c.step m).getD m

end TearCmd

def all (cmds : List TearCmd) (m : Machine) : Machine := cmds.foldl TearCmd.attempt m

/-- `remove LVM vg`. -/
def removeVg (d : HostData) (m : Machine) : Machine :=
  if d.lvmVg ≠ [] then
    all ([.vgchange d.lvmVg, .vgremove d.lvmVg] ++
      if d.lvmDevice ≠ [] then [.pvremove (.disk d.lvmDevice)] else []) m
  else m

def namespaces (n : Net) : List Str := n.namespaces.filter isNamespace

def links (n : Net) : List Str := ((listed n).map cut).filter isLink

/-- `purge netns + links`: each list is read before the first of it goes. -/
def purgeLinks (m : Machine) : Machine :=
  let m := all ((namespaces m.host.net).map .netnsDel) m
  all ((links m.host.net).map .linkDel) m

/-- `purge iptables chains`. -/
def chainCmds : List TearCmd :=
  [.unjump "nat" "POSTROUTING" "NYC-POSTROUTING", .unjump "filter" "FORWARD" "NYC-FORWARD",
   .flush "nat" "NYC-POSTROUTING", .deleteChain "nat" "NYC-POSTROUTING",
   .flush "filter" "NYC-FORWARD", .deleteChain "filter" "NYC-FORWARD"]

/-- The services are stopped before, and no process of nyc runs. -/
def run (d : HostData) (m : Machine) : Machine := all chainCmds (purgeLinks (removeVg d m))

end Teardown

end Scripts

end Nyc
