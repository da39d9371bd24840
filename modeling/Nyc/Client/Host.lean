import Nyc.Data.Store
import Nyc.Effects.Transformer
import Nyc.Python

/-!
# The state of a node's host

What the privileged commands and the file operations of nyc read and change: the logical
volumes, the VM directories, the kernel's links, and the firecracker processes. The client
layer is dadar-free in the source, and `Sh` says so: its programs issue commands only.
-/

namespace Nyc.Client

open Data

/-! ## Logical volumes -/

/-- A line of a `debugfs` script. `write` carries the text of the temporary file. -/
inductive DebugfsLine where
  | mkdir (path : Str)
  | rm (path : Str)
  | write (text path : Str)
  | setInodeField (path field value : Str)
  | symlink (path target : Str)
  deriving DecidableEq, Repr

/-- What a block device holds; `image` is the base rootfs. -/
inductive Content where
  | zeros
  | ext4
  | image
  | edited (base : Content) (session : List DebugfsLine)
  deriving DecidableEq, Repr

structure Lv where
  sizeMb : Int
  /-- The volume it was cloned from. -/
  origin : Option Str
  readonly : Bool
  content : Content
  deriving DecidableEq, Repr

/-- A path: a file, or the device node of a volume. -/
inductive Path where
  | file (path : Str)
  | device (vg name : Str)
  deriving DecidableEq, Repr

def Path.text : Path → Str
  | file path => path
  | device vg name => "/dev/" ++ vg ++ "/" ++ name

/-! ## VM directories -/

structure Drive where
  driveId : Str
  pathOnHost : Str
  isRootDevice : Bool
  isReadOnly : Bool
  deriving DecidableEq, Repr

structure Nic where
  ifaceId : Str
  hostDevName : Str
  guestMac : Str
  deriving DecidableEq, Repr

/-- `config.json`. -/
structure FcConfig where
  kernelImagePath : Str
  bootArgs : Str
  drives : List Drive
  vcpuCount : Int
  memSizeMib : Int
  networkInterfaces : List Nic
  deriving DecidableEq, Repr

inductive LinkName where
  | rootfs | kernel | sshKey | data
  deriving DecidableEq, Repr

structure VmDir where
  links : LinkName → Option Path
  config : Option FcConfig
  pid : Option Int
  log : Bool

def VmDir.empty : VmDir := ⟨fun _ => none, none, none, false⟩

/-! ## The network -/

inductive Kind where
  | bridge
  | tap
  | veth (pair : Nat)
  | vxlan (vni : Nat) (localIp : Str)
  deriving DecidableEq, Repr

structure Link where
  kind : Kind
  master : Option Str
  address : Option Str
  addrs : List Str
  up : Bool
  /-- The forwarding entries, as (mac, dst). -/
  fdb : List (Str × Str)
  deriving DecidableEq, Repr

def Link.ofKind (kind : Kind) : Link := ⟨kind, none, none, [], false, []⟩

/-- A link by its namespace (`none` is the root namespace) and its name. -/
abbrev LinkKey : Type := Option Str × Str

structure Rule where
  table : Str
  chain : Str
  args : List Str
  deriving DecidableEq, Repr

structure Net where
  namespaces : List Str
  links : Store LinkKey Link
  /-- How many veth pairs were ever made. -/
  pairs : Nat
  chains : List (Str × Str)
  rules : List Rule
  ipForward : Bool

def builtinChains : List (Str × Str) :=
  [("filter", "INPUT"), ("filter", "FORWARD"), ("filter", "OUTPUT"), ("nat", "PREROUTING"),
   ("nat", "INPUT"), ("nat", "OUTPUT"), ("nat", "POSTROUTING")]

def Net.empty : Net := ⟨[], ∅, 0, builtinChains, [], false⟩

/-! ## The host -/

structure Proc where
  pid : Nat
  vmId : Id
  deriving DecidableEq, Repr

/-- A script for a guest: `setup.sh`, or the one that writes a Caddyfile and reloads. -/
inductive GuestScript where
  | setup
  | reload (caddyfile : Str)
  deriving DecidableEq, Repr

structure Host where
  lvs : Store (Str × Str) Lv
  dirs : Store Id VmDir
  net : Net
  /-- The firecracker processes that are alive. -/
  procs : List Proc
  nextPid : Nat
  /-- The scripts run in guests, newest first, with the guest's address. -/
  pushed : List (Str × GuestScript)

def Host.empty : Host := ⟨∅, ∅, Net.empty, [], 1, []⟩

/-! ## Commands -/

/-- Who lists the volumes of a group; only a reading of a run's history looks at it. -/
inductive Lister where
  | exists_ | pruneRootfs | volumesPass | snapshotsPass
  deriving DecidableEq, Repr

inductive LvmCmd where
  | lvs (lister : Lister) (vg : Str)
  | createThin (vg pool name : Str) (sizeMb : Int)
  | snapshot (vg origin name : Str) (readonly : Bool)
  | remove (vg name : Str)
  | extend (vg name : Str) (sizeMb : Int)
  | resize2fs (vg name : Str)
  | mkfs (vg name : Str)

/-- File operations inside the directory of one VM. -/
inductive DirCmd where
  | exists_
  | mkdir
  | hasLink (l : LinkName)
  | unlink (l : LinkName)
  | symlink (l : LinkName) (target : Path)
  | writeConfig (c : FcConfig)
  | openLog
  | hasPid
  | readPid
  | writePid (pid : Int)
  | unlinkPid
  | rmtree

inductive NetCmd where
  | netnsAdd (ns : Str)
  | netnsDel (ns : Str)
  | show (name : Str)
  | add (key : LinkKey) (kind : Kind)
  | addVeth (name peer : Str)
  | del (name : Str)
  | setMaster (key : LinkKey) (master : Str)
  | setUp (key : LinkKey)
  | setNetns (name ns : Str)
  | setAddress (name mac : Str)
  | addAddr (name cidr : Str)
  | fdbShow (dev : Str)
  | fdbAppend (dev mac dst : Str)
  | fdbDel (dev mac dst : Str)
  | sysctlForward
  | listChain (table chain : Str)
  | newChain (table chain : Str)
  | checkRule (r : Rule)
  | appendRule (r : Rule)
  | deleteRule (r : Rule)

inductive Cmd where
  | lvm (c : LvmCmd)
  | dir (vmId : Id) (c : DirCmd)
  | net (c : NetCmd)
  | debugfs (vmId : Id) (session : List DebugfsLine)
  | listDirs
  | popen (vmId ns : Str)
  | kill (pid : Nat)
  | poll (pid : Nat)
  | ssh (ip key : Str) (script : GuestScript)

abbrev LvmCmd.Res : LvmCmd → Type
  | lvs _ _ => List Str
  | _ => Unit

abbrev DirCmd.Res : DirCmd → Type
  | exists_ => Bool
  | hasLink _ => Bool
  | hasPid => Bool
  | readPid => Int
  | _ => Unit

abbrev NetCmd.Res : NetCmd → Type
  | fdbShow _ => Str
  | _ => Unit

abbrev Cmd.Res : Cmd → Type
  | lvm c => c.Res
  | dir _ c => c.Res
  | net c => c.Res
  | listDirs => List Id
  | popen _ _ => Nat
  | ssh _ _ _ => Str
  | _ => Unit

/-- A program of the client layer. -/
abbrev Sh : Type → Type := Effects.Program Cmd Cmd.Res Exn

/-- The commands that go through `sudo`, and fail when it does. -/
def Cmd.privileged : Cmd → Bool
  | lvm _ | net _ | debugfs _ _ | kill _ | ssh _ _ _ => true
  | dir _ _ | listDirs | popen _ _ | poll _ => false

end Nyc.Client
