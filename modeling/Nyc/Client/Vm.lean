import Nyc.Client.Network

/-! `client/env` and `client/vm`: one VM's directory, its rootfs and its process. -/

namespace Nyc.Client

open Effects (Program)
open Effects.Program (perform forEach filterEach whenTrue whenSome fromExcept)

def dir (vmId : Id) (c : DirCmd) : Sh c.Res := @perform Cmd Cmd.Res Exn (.dir vmId c)

/-- `PublicIpSpec` of `vm_up`. -/
structure PublicIpSpec where
  address : Str
  prefix_ : Str
  gateway : Str
  mac : Str
  deriving DecidableEq, Repr

/-- `VmPaths`: the texts of the paths in a VM's directory. -/
structure VmPaths where
  root : Str

namespace VmPaths

def forVm (vmsDir : Str) (vmId : Id) : VmPaths := ⟨vmsDir ++ "/" ++ vmId⟩

def rootfs (p : VmPaths) : Str := p.root ++ "/rootfs.ext4"
def kernel (p : VmPaths) : Str := p.root ++ "/vmlinux"
def data (p : VmPaths) : Str := p.root ++ "/data.ext4"

end VmPaths

/-- `_symlink` of `env/setup.py`, and the same steps in `volume/attach.py`. -/
def symlink (vmId : Id) (l : LinkName) (source : Path) : Sh Unit := do
  whenTrue (← dir vmId (.hasLink l)) (dir vmId (.unlink l))
  dir vmId (.symlink l source)

namespace EnvSetup

def run (vmId : Id) (kernel sshKey vg rootfsOrigin : Str) : Sh Unit := do
  dir vmId .mkdir
  Lv.remove vg (Names.rootfs vmId)
  let dev ← Lv.clone vg rootfsOrigin (Names.rootfs vmId)
  symlink vmId .rootfs dev
  symlink vmId .kernel (.file kernel)
  symlink vmId .sshKey (.file sshKey)

end EnvSetup

namespace EnvTeardown

def run (vmId : Id) (vg : Str) : Sh Unit := do
  whenTrue (← dir vmId .exists_) (dir vmId .rmtree)
  Lv.remove vg (Names.rootfs vmId)

end EnvTeardown

def listVmDirs : Sh (List Id) := @perform Cmd Cmd.Res Exn .listDirs

namespace Attach

/-- `volume/attach.py`: `run`. -/
def run (vmId : Id) (volumePath : Path) : Sh Unit := symlink vmId .data volumePath

end Attach

/-! ## Offline configuration of the rootfs -/

namespace Inject

def MOUNT_UNIT : Str :=
  "[Unit]\nDescription=Mount /home data volume\nDefaultDependencies=no\n" ++
  "Before=local-fs.target\nAfter=local-fs-pre.target\n\n" ++
  "[Mount]\nWhat=/dev/vdb\nWhere=/home\nType=ext4\nOptions=defaults\n\n" ++
  "[Install]\nWantedBy=local-fs.target\n"

def pubipScript (p : PublicIpSpec) : Str :=
  "#!/bin/sh\nset -e\nip link set eth1 up\n" ++
  "ip addr add " ++ p.address ++ "/" ++ p.prefix_ ++ " dev eth1\n" ++
  "ip route add " ++ p.gateway ++ " dev eth1\n" ++
  "ip route add default via " ++ p.gateway ++ " dev eth1 table 100\n" ++
  "ip rule add from " ++ p.address ++ " table 100\n" ++
  "sysctl -w net.ipv4.conf.all.rp_filter=2\n"

def PUBIP_SERVICE : Str :=
  "[Unit]\nDescription=Configure public IP on eth1\nAfter=network.target\n" ++
  "DefaultDependencies=no\n\n" ++
  "[Service]\nType=oneshot\nExecStart=/usr/local/sbin/nyc-pubip.sh\nRemainAfterExit=yes\n\n" ++
  "[Install]\nWantedBy=multi-user.target\n"

/-- The mode of a file, and root as its owner. -/
def owned (path mode : Str) : List DebugfsLine :=
  [.setInodeField path "mode" mode, .setInodeField path "uid" "0", .setInodeField path "gid" "0"]

def ssh (pubkey : Str) : List DebugfsLine :=
  [.mkdir "/root/.ssh", .rm "/root/.ssh/authorized_keys",
    .write (Text.strip pubkey ++ "\n") "/root/.ssh/authorized_keys"] ++
  owned "/root/.ssh/authorized_keys" "0100600" ++
  [.setInodeField "/root/.ssh" "mode" "040700"]

def resolv (dns : Str) : List DebugfsLine :=
  [.rm "/etc/resolv.conf", .write ("nameserver " ++ dns ++ "\n") "/etc/resolv.conf"] ++
  owned "/etc/resolv.conf" "0100644"

def fstab : List DebugfsLine :=
  [.rm "/etc/fstab", .write "/dev/vdb\t/home\text4\tdefaults,nofail\t0\t2\n" "/etc/fstab"] ++
  owned "/etc/fstab" "0100644"

def homeMountUnit : List DebugfsLine :=
  [.mkdir "/etc/systemd/system/local-fs.target.wants",
    .write MOUNT_UNIT "/etc/systemd/system/home.mount",
    .setInodeField "/etc/systemd/system/home.mount" "mode" "0100644",
    .symlink "/etc/systemd/system/local-fs.target.wants/home.mount" "../home.mount"]

def pubipUnit (p : PublicIpSpec) : List DebugfsLine :=
  [.write (pubipScript p) "/usr/local/sbin/nyc-pubip.sh"] ++
  owned "/usr/local/sbin/nyc-pubip.sh" "0100755" ++
  [.write PUBIP_SERVICE "/etc/systemd/system/nyc-pubip.service"] ++
  owned "/etc/systemd/system/nyc-pubip.service" "0100644" ++
  [.mkdir "/etc/systemd/system/multi-user.target.wants",
    .symlink "/etc/systemd/system/multi-user.target.wants/nyc-pubip.service"
      "../nyc-pubip.service"]

def lines (sshPubkey : Option Str) (dns : Str) (hasDataVolume : Bool)
    (publicIp : Option PublicIpSpec) : List DebugfsLine :=
  (if truthy sshPubkey then ssh (sshPubkey.getD []) else []) ++
  resolv dns ++
  (if hasDataVolume then fstab ++ homeMountUnit else []) ++
  (publicIp.elim [] pubipUnit)

def run (vmId : Id) (sshPubkey : Option Str) (dns : Str) (hasDataVolume : Bool)
    (publicIp : Option PublicIpSpec) : Sh Unit :=
  @perform Cmd Cmd.Res Exn (.debugfs vmId (lines sshPubkey dns hasDataVolume publicIp))

end Inject

/-! ## The firecracker process -/

structure VmConfig where
  tapName : Str
  mac : Str
  guestIp : Str
  cidr : Str
  hasDataVolume : Bool
  vcpuCount : Int
  memMib : Int
  dns : Str
  publicTap : Option Str
  publicMac : Option Str

namespace VmConfig

def bootArgs (cfg : VmConfig) : Except Exn Str := do
  let gw ← Allocate.gateway cfg.cidr
  let mask ← Allocate.netmask cfg.cidr
  return "console=ttyS0 reboot=k panic=1 pci=off ip=" ++ cfg.guestIp ++ "::" ++ gw ++ ":" ++ mask ++
    "::eth0:off:" ++ cfg.dns

def rootDrive (paths : VmPaths) : Drive := ⟨"rootfs", paths.rootfs, true, false⟩

def dataDrive (paths : VmPaths) : Drive := ⟨"data", paths.data, false, false⟩

def nics (cfg : VmConfig) : List Nic :=
  ⟨"eth0", cfg.tapName, cfg.mac⟩ ::
    if truthy cfg.publicTap then [⟨"eth1", cfg.publicTap.getD [], cfg.publicMac.getD []⟩] else []

def payload (paths : VmPaths) (cfg : VmConfig) : Except Exn FcConfig := do
  let args ← cfg.bootArgs
  return {
    kernelImagePath := paths.kernel
    bootArgs := args
    drives := rootDrive paths :: if cfg.hasDataVolume then [dataDrive paths] else []
    vcpuCount := cfg.vcpuCount
    memSizeMib := cfg.memMib
    networkInterfaces := cfg.nics }

/-- `config.build`. -/
def build (vmId : Id) (paths : VmPaths) (cfg : VmConfig) : Sh Unit := do
  let c ← fromExcept (payload paths cfg)
  dir vmId (.writeConfig c)

end VmConfig

namespace CreateVm

/-- `vm/create.py`: `_real`. -/
def run (vmId ns : Str) : Sh Unit := do
  dir vmId .openLog
  let pid ← @perform Cmd Cmd.Res Exn (.popen vmId ns)
  dir vmId (.writePid pid)

end CreateVm

namespace Kill

/-- `os.kill(pid, 0)`, as a test. -/
def stillThere (pid : Nat) : Sh Bool :=
  tryCatch (do @perform Cmd Cmd.Res Exn (.poll pid); return true)
    fun e => if e = .os then pure false else throw e

/-- A poll every 0.1 s, so at most thirty of them in the timeout of 3 s. -/
def waitGone (pid : Nat) : Nat → Sh Unit
  | 0 => pure ()
  | polls + 1 => do if ← stillThere pid then waitGone pid polls

/-- `except (PermissionError, OSError): pass`; a `PrivopsError` is neither. -/
def terminate (pid : Nat) : Sh Unit :=
  tryCatch (do @perform Cmd Cmd.Res Exn (.kill pid); waitGone pid 30)
    fun e => if e = .os then pure () else throw e

def run (vmId : Id) : Sh Unit := do
  if ← dir vmId .hasPid then
    let pid ← dir vmId .readPid
    whenTrue (0 < pid) (terminate pid.toNat)
    dir vmId .unlinkPid

end Kill

inductive LiveStatus where
  | running | stopped
  deriving DecidableEq, Repr

namespace Status

/-- `vm/status.py`: `_real_status`. There are no zombies and no processes of other users. -/
def run (vmId : Id) : Sh LiveStatus := do
  if ← dir vmId .hasPid then
    let pid ← dir vmId .readPid
    if pid ≤ 0 then return .stopped
    else do
      if ← Kill.stillThere pid.toNat then return .running else return .stopped
  else return .stopped

end Status

end Nyc.Client
