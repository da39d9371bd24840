import Nyc.Python
import Mathlib.Data.List.Dedup

/-! The settings of a node: `config.toml` and the `NYC_*` environment, as read. -/

namespace Nyc

/-- The order in which Python walks over a set: some order of its elements. -/
structure SetOrder where
  order : List Str → List Str
  perm : ∀ xs, (order xs).Perm xs

/-- The elements of `set(xs) - set(ys)`, in the order of the walk. -/
def SetOrder.diff (o : SetOrder) (xs ys : List Str) : List Str :=
  o.order (xs.dedup.filter fun x => !ys.contains x)

@[simp] theorem SetOrder.mem_diff (o : SetOrder) (xs ys : List Str) (x : Str) :
    x ∈ o.diff xs ys ↔ x ∈ xs ∧ x ∉ ys := by
  rw [diff, (o.perm _).mem_iff, List.mem_filter, List.mem_dedup]
  simp only [List.contains_eq_mem, Bool.not_eq_true', decide_eq_false_iff_not]

namespace Config

structure Paths where
  nodeFolder : Str
  repoRoot : Str

namespace Paths

def vmsDir (p : Paths) : Str := p.nodeFolder ++ "/vms"

def kernel (p : Paths) : Str := p.repoRoot ++ "/assets/vmlinux"

def sshKey (p : Paths) : Str := p.repoRoot ++ "/assets/id_ed25519"

end Paths

structure LvmConfig where
  vg : Str
  thinpool : Str
  device : Option Str

def LvmConfig.vgFor (c : LvmConfig) (nodeId : Id) : Str :=
  if truthy c.device then c.vg else c.vg ++ "-" ++ nodeId.take 8

structure PubIpEntry where
  address : Str
  mac : Str
  prefix_ : Str
  deriving DecidableEq, Repr

structure PubipConfig where
  ips : List PubIpEntry
  gateway : Option Str
  bridge : Str

end Config

structure NodeConfig where
  paths : Config.Paths
  lvm : Config.LvmConfig
  pubip : Config.PubipConfig
  /-- `cluster_domain()`. -/
  domain : Option Str
  /-- `NYC_VM_DNS`. -/
  dns : Str
  /-- `NYC_VM_TTL_MINUTES`, in the unit of a `Timestamp`. -/
  ttl : Int
  sets : SetOrder

end Nyc
