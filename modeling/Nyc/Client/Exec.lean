import Nyc.Client.Host

/-!
# What the commands do

A command either succeeds with an answer and a new state, or exits non-zero and changes
nothing. Every kind of command has its own part of the host, so that a command on one VM's
directory, say, leaves the network and the volumes alone by definition.
-/

namespace Nyc.Client

open Data

/-! ## Logical volumes -/

abbrev Lvs : Type := Store (Str × Str) Lv

def Lvs.names (s : Lvs) (vg : Str) : List Str :=
  (s.keys.filter fun k => k.1 = vg).map Prod.snd

def LvmCmd.step : (c : LvmCmd) → Lvs → Option (c.Res × Lvs)
  | .lvs _ vg, s => some (s.names vg, s)
  | .createThin vg pool name sizeMb, s =>
    if s.lookup (vg, name) = none ∧ s.lookup (vg, pool) ≠ none ∧ 0 < sizeMb then
      some ((), s.insert (vg, name) ⟨sizeMb, none, false, .zeros⟩)
    else none
  | .snapshot vg origin name readonly, s =>
    match s.lookup (vg, origin) with
    | some lv =>
      if s.lookup (vg, name) = none then
        some ((), s.insert (vg, name) ⟨lv.sizeMb, some origin, readonly, lv.content⟩)
      else none
    | none => none
  | .remove vg name, s =>
    if s.lookup (vg, name) ≠ none then some ((), s.erase (vg, name)) else none
  | .extend vg name sizeMb, s =>
    match s.lookup (vg, name) with
    | some lv =>
      if lv.sizeMb < sizeMb then some ((), s.insert (vg, name) { lv with
        sizeMb := sizeMb }) else none
    | none => none
  | .resize2fs vg name, s => if s.lookup (vg, name) ≠ none then some ((), s) else none
  | .mkfs vg name, s =>
    if s.lookup (vg, name) ≠ none then
      some ((), Store.modify (vg, name) (fun lv => { lv with content := .ext4 }) s)
    else none

/-! ## VM directories -/

def VmDir.setLink (d : VmDir) (l : LinkName) (target : Option Path) : VmDir :=
  { d with links := Function.update d.links l target }

def DirCmd.step : (c : DirCmd) → Option VmDir → Option (c.Res × Option VmDir)
  | .exists_, d => some (d.isSome, d)
  | .mkdir, d => some ((), some (d.getD .empty))
  | .hasLink l, d => some ((d.bind (·.links l)).isSome, d)
  | .unlink l, some d => some ((), some (d.setLink l none))
  | .symlink l target, some d =>
    if d.links l = none then some ((), some (d.setLink l (some target))) else none
  | .writeConfig c, some d => some ((), some { d with config := some c })
  | .openLog, some d => some ((), some { d with log := true })
  | .hasPid, d => some ((d.bind (·.pid)).isSome, d)
  | .readPid, d => (d.bind (·.pid)).map fun pid => (pid, d)
  | .writePid pid, some d => some ((), some { d with pid := some pid })
  | .unlinkPid, d => some ((), d.map fun d => { d with pid := none })
  | .rmtree, _ => some ((), none)
  | .unlink _, none => none
  | .symlink _ _, none => none
  | .writeConfig _, none => none
  | .openLog, none => none
  | .writePid _, none => none

def putDir (dirs : Store Id VmDir) (vmId : Id) : Option VmDir → Store Id VmDir
  | some d => dirs.insert vmId d
  | none => dirs.erase vmId

/-! ## The network -/

def Kind.pair : Kind → Option Nat
  | .veth pair => some pair
  | _ => none

/-- The veth pairs with an end in the namespace. -/
def Net.pairsIn (n : Net) (ns : Str) : List Nat :=
  n.links.entries.filterMap fun e => if e.1.1 = some ns then e.2.kind.pair else none

/-- A line of `bridge fdb show`. -/
def fdbLine (dev : Str) (e : Str × Str) : Str :=
  e.1 ++ " dev " ++ dev ++ " dst " ++ e.2 ++ " self permanent"

/-- What `bridge fdb show dev` prints. -/
def fdbTable (dev : Str) (fdb : List (Str × Str)) : Str :=
  fdb.flatMap fun e => fdbLine dev e ++ ['\n']

def sameVni (a b : Kind) : Bool :=
  match a, b with
  | .vxlan vni _, .vxlan vni' _ => vni = vni'
  | _, _ => false

def NetCmd.step : (c : NetCmd) → Net → Option (c.Res × Net)
  | .netnsAdd ns, n =>
    if ns ∉ n.namespaces then some ((), { n with namespaces := ns :: n.namespaces }) else none
  | .netnsDel ns, n =>
    if ns ∈ n.namespaces then
      some ((), { n with
        namespaces := n.namespaces.filter (· ≠ ns)
        links := Store.keep (fun k l =>
          k.1 ≠ some ns && !(l.kind.pair.any fun p => (n.pairsIn ns).contains p)) n.links })
    else none
  | .show name, n => if n.links.lookup (none, name) ≠ none then some ((), n) else none
  | .add key kind, n =>
    if n.links.lookup key = none ∧ (∀ ns, key.1 = some ns → ns ∈ n.namespaces) ∧
        n.links.entries.all (fun e => !sameVni e.2.kind kind) then
      some ((), { n with links := n.links.insert key (.ofKind kind) })
    else none
  | .addVeth name peer, n =>
    if n.links.lookup (none, name) = none ∧ n.links.lookup (none, peer) = none ∧ name ≠ peer then
      some ((), { n with
        links := (n.links.insert (none, name) (.ofKind (.veth n.pairs))).insert (none, peer)
          (.ofKind (.veth n.pairs))
        pairs := n.pairs + 1 })
    else none
  | .del name, n =>
    match n.links.lookup (none, name) with
    | some l =>
      some ((), { n with links := Store.keep (fun k l' =>
        k ≠ (none, name) && !(l.kind.pair.isSome && l'.kind.pair = l.kind.pair)) n.links })
    | none => none
  | .setMaster key master, n =>
    if n.links.lookup key ≠ none ∧ (n.links.lookup (key.1, master)).map Link.kind =
      some .bridge then
      some ((), { n with
        links := Store.modify key (fun l => { l with master := some master }) n.links })
    else none
  | .setUp key, n =>
    if n.links.lookup key ≠ none then
      some ((), { n with links := Store.modify key (fun l => { l with up := true }) n.links })
    else none
  | .setNetns name ns, n =>
    match n.links.lookup (none, name) with
    | some l =>
      if ns ∈ n.namespaces ∧ n.links.lookup (some ns, name) = none then
        some ((), { n with
          links := AList.insert (some ns, name) { l with master := none, up := false }
            (n.links.erase (none, name)) })
      else none
    | none => none
  | .setAddress name mac, n =>
    if n.links.lookup (none, name) ≠ none then
      some ((), { n with
        links := Store.modify (none, name) (fun l => { l with address := some mac }) n.links })
    else none
  | .addAddr name cidr, n =>
    match n.links.lookup (none, name) with
    | some l =>
      if cidr ∉ l.addrs then
        some ((), { n with
          links := Store.modify (none, name) (fun l => { l with
            addrs := cidr :: l.addrs }) n.links })
      else none
    | none => none
  | .fdbShow dev, n => (n.links.lookup (none, dev)).map fun l => (fdbTable dev l.fdb, n)
  | .fdbAppend dev mac dst, n =>
    match n.links.lookup (none, dev) with
    | some l =>
      if (mac, dst) ∉ l.fdb then
        some ((), { n with
          links := Store.modify (none, dev) (fun l => { l with
            fdb := l.fdb ++ [(mac, dst)] }) n.links })
      else none
    | none => none
  | .fdbDel dev mac dst, n =>
    match n.links.lookup (none, dev) with
    | some l =>
      if (mac, dst) ∈ l.fdb then
        some ((), { n with
          links := Store.modify (none, dev) (fun l => { l with fdb := l.fdb.erase (mac, dst) })
            n.links })
      else none
    | none => none
  | .sysctlForward, n => some ((), { n with ipForward := true })
  | .listChain table chain, n => if (table, chain) ∈ n.chains then some ((), n) else none
  | .newChain table chain, n =>
    if (table, chain) ∉ n.chains then some ((), { n with chains := (table, chain) :: n.chains })
    else none
  | .checkRule r, n => if r ∈ n.rules then some ((), n) else none
  | .appendRule r, n =>
    if (r.table, r.chain) ∈ n.chains then some ((), { n with rules := n.rules ++ [r] }) else none
  | .deleteRule r, n => if r ∈ n.rules then some ((), { n with rules := n.rules.erase r }) else none

/-! ## The host -/

/-- The script is applied to the volume that the VM's `rootfs.ext4` links to. -/
def Host.editRootfs (h : Host) (vmId : Id) (session : List DebugfsLine) : Option Host :=
  match (h.dirs.lookup vmId).bind (·.links .rootfs) with
  | some (.device vg name) =>
    match h.lvs.lookup (vg, name) with
    | some lv =>
      if lv.readonly then none
      else some { h with
        lvs := h.lvs.insert (vg, name) { lv with content := .edited lv.content session } }
    | none => none
  | _ => none

def Host.alive (h : Host) (pid : Nat) : Bool := h.procs.any fun p => p.pid = pid

/-- `out` is what a script prints in its guest. -/
def Cmd.step (out : Str) : (c : Cmd) → Host → Option (c.Res × Host)
  | .lvm c, h => (c.step h.lvs).map fun (a, s) => (a, { h with lvs := s })
  | .dir vmId c, h => (c.step (h.dirs.lookup vmId)).map fun (a, d) =>
    (a, { h with dirs := putDir h.dirs vmId d })
  | .net c, h => (c.step h.net).map fun (a, n) => (a, { h with net := n })
  | .debugfs vmId session, h => (h.editRootfs vmId session).map ((), ·)
  | .listDirs, h => some (h.dirs.keys, h)
  | .popen vmId _, h =>
    some (h.nextPid, { h with procs := ⟨h.nextPid, vmId⟩ :: h.procs, nextPid := h.nextPid + 1 })
  | .kill pid, h =>
    if h.alive pid then some ((), { h with procs := h.procs.filter fun p => p.pid ≠ pid }) else none
  | .poll pid, h => if h.alive pid then some ((), h) else none
  | .ssh ip _ script, h => some (out, { h with pushed := (ip, script) :: h.pushed })

def Cmd.exn (c : Cmd) : Exn := if c.privileged then .privops else .os

/-- What the surroundings decide about one command: whether `sudo` fails, what a guest
prints, and which processes exit by themselves before it. -/
structure Chance where
  fails : Bool
  out : Str
  gone : Nat → Bool

def Host.reap (h : Host) (gone : Nat → Bool) : Host :=
  { h with procs := h.procs.filter fun p => !gone p.pid }

def Host.attempt (x : Chance) (c : Cmd) (h : Host) : Except Exn c.Res × Host :=
  if x.fails && c.privileged then (.error .privops, h)
  else
    match c.step x.out h with
    | some (a, h') => (.ok a, h')
    | none => (.error c.exn, h)

def Host.exec (x : Chance) (c : Cmd) (h : Host) : Except Exn c.Res × Host :=
  Host.attempt x c (h.reap x.gone)

/-- The commands of one host, one after the other; the surroundings are given by the number
of commands so far. -/
def execAt (x : Nat → Chance) (c : Cmd) (s : Nat × Host) : Except Exn c.Res × (Nat × Host) :=
  ((s.2.exec (x s.1) c).1, (s.1 + 1, (s.2.exec (x s.1) c).2))

end Nyc.Client
