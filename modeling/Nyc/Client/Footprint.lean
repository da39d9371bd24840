import Nyc.Client.Proxy

/-!
# What a client program may do

The commands that the composers issue, with the names that they build: one predicate for
`vm_up`, one for `vm_down`, and the few that stop and start a VM.
-/

namespace Nyc

open Effects Effects.Program Client

theorem Effects.Program.Only.dir {allowed : Cmd → Prop} {vmId : Id} {c : DirCmd}
    (ok : allowed (.dir vmId c)) : Only allowed (dir vmId c) := Only.perform ok

theorem Effects.Program.Only.lvm {allowed : Cmd → Prop} {c : LvmCmd} (ok : allowed (.lvm c)) :
    Only allowed (lvm c) := Only.perform ok

theorem Effects.Program.Only.net {allowed : Cmd → Prop} {c : NetCmd} (ok : allowed (.net c)) :
    Only allowed (net c) := Only.perform ok

theorem Effects.Program.Only.exceptPrivops {allowed : Cmd → Prop} {α : Type} {p : Sh α}
    (fallback : α) (h : Only allowed p) : Only allowed (exceptPrivops p fallback) :=
  .tryCatch h fun _ => .ite (fun _ => .pure _) fun _ => .throw _

namespace Client

/-- The command starts no process, and leaves the pid files alone. -/
def Cmd.Quiet : Cmd → Prop
  | .popen _ _ | .dir _ (.writePid _) | .dir _ .unlinkPid | .dir _ .rmtree => False
  | _ => True

/-! ## Volumes -/

namespace Lv

/-- Looking for a volume and removing it. -/
inductive Removes (vg name : Str) : Cmd → Prop where
  | lvs (lister : Lister) : Removes vg name (.lvm (.lvs lister vg))
  | remove : Removes vg name (.lvm (.remove vg name))

theorem listLvs_only {allowed : Cmd → Prop} (lister : Lister) (vg : Str)
    (ok : allowed (.lvm (.lvs lister vg))) : Only allowed (listLvs lister vg) :=
  .exceptPrivops _ (.lvm ok)

theorem remove_only (vg name : Str) : Only (Removes vg name) (remove vg name) :=
  .bind (.bind (listLvs_only .exists_ vg (.lvs _)) fun _ => .pure _) fun _ =>
    .ite (fun _ => .lvm .remove) fun _ => .pure _

end Lv

/-! ## Taking a VM down -/

/-- The commands of `vm_down`. -/
inductive VmDown.Issues (vmId : Id) (vg : Str) : Cmd → Prop where
  | lvs (lister : Lister) : Issues vmId vg (.lvm (.lvs lister vg))
  | remove : Issues vmId vg (.lvm (.remove vg (Names.rootfs vmId)))
  | exists_ : Issues vmId vg (.dir vmId .exists_)
  | rmtree : Issues vmId vg (.dir vmId .rmtree)
  | hasPid : Issues vmId vg (.dir vmId .hasPid)
  | readPid : Issues vmId vg (.dir vmId .readPid)
  | unlinkPid : Issues vmId vg (.dir vmId .unlinkPid)
  | kill (pid : Nat) : Issues vmId vg (.kill pid)
  | poll (pid : Nat) : Issues vmId vg (.poll pid)
  | netnsDel : Issues vmId vg (.net (.netnsDel (VmUp.nsName vmId)))
  | delVeth : Issues vmId vg (.net (.del (VmUp.hostVeth vmId)))
  | delPublic : Issues vmId vg (.net (.del (VmUp.pubHostVeth vmId)))

namespace Kill

variable (vmId : Id) (vg : Str)

/-- The commands that end a VM's process. -/
inductive Issues : Cmd → Prop where
  | hasPid : Issues (.dir vmId .hasPid)
  | readPid : Issues (.dir vmId .readPid)
  | unlinkPid : Issues (.dir vmId .unlinkPid)
  | kill (pid : Nat) : Issues (.kill pid)
  | poll (pid : Nat) : Issues (.poll pid)

theorem waitGone_kills (pid polls : Nat) : Only (Issues vmId) (waitGone pid polls) := by
  induction polls with
  | zero => exact .pure _
  | succ polls ih =>
    refine .bind (.tryCatch (.bind (.perform (.poll pid)) fun _ => .pure _) fun e => ?_) fun _ => ?_
    · exact .ite (c := e = .os) (fun _ => .pure _) fun _ => .throw _
    · exact .ite (fun _ => ih) fun _ => .pure _

theorem run_kills : Only (Issues vmId) (run vmId) := by
  refine .bind (.dir .hasPid) fun _ => .ite (fun _ => ?_) fun _ => .pure _
  refine .bind (.dir .readPid) fun pid => .bind (.whenTrue fun _ => ?_) fun _ => .dir .unlinkPid
  exact .tryCatch (.bind (.perform (.kill _)) fun _ => waitGone_kills vmId _ _) fun _ =>
    .ite (fun _ => .pure _) fun _ => .throw _

theorem run_only : Only (VmDown.Issues vmId vg) (run vmId) :=
  (run_kills vmId).mono fun c h => by
    cases h with
    | hasPid => exact .hasPid
    | readPid => exact .readPid
    | unlinkPid => exact .unlinkPid
    | kill pid => exact .kill pid
    | poll pid => exact .poll pid

end Kill

/-- The commands that tell whether a VM's process is there. -/
theorem Status.run_only {allowed : Cmd → Prop} (vmId : Id) (has : allowed (.dir vmId .hasPid))
    (read : allowed (.dir vmId .readPid)) (poll : ∀ pid, allowed (.poll pid)) :
    Only allowed (run vmId) := by
  apply Only.bind (.dir has)
  intro there
  apply Only.ite
  · intro _
    apply Only.bind (.dir read)
    intro pid
    apply Only.ite
    · intro _
      exact .pure _
    · intro _
      refine .bind (.tryCatch (.bind (.perform (poll _)) fun _ => .pure _) fun e => ?_) fun _ => ?_
      · exact .ite (c := e = .os) (fun _ => .pure _) fun _ => .throw _
      · exact .ite (fun _ => .pure _) fun _ => .pure _
  · intro _
    exact .pure _

theorem VmDown.of_removes (vmId : Id) (vg : Str) (c : Cmd)
    (h : Lv.Removes vg (Names.rootfs vmId) c) :
    Issues vmId vg c := by
  cases h with
  | lvs lister => exact .lvs lister
  | remove => exact .remove

theorem VmDown.networkDown_only (vmId : Id) (vg : Str) :
    Only (Issues vmId vg) (networkDown vmId) := by
  have safe {p : Sh Unit} (h : Only (Issues vmId vg) p) : Only (Issues vmId vg) (safe p) :=
    .tryCatch h fun _ => .pure _
  exact .bind (safe (.net .netnsDel)) fun _ => .bind (safe (.net .delVeth)) fun _ =>
    safe (.net .delPublic)

/-- The commands that remove a VM's directory and root disk. -/
inductive EnvTeardown.Issues (vmId : Id) (vg : Str) : Cmd → Prop where
  | exists_ : Issues vmId vg (.dir vmId .exists_)
  | rmtree : Issues vmId vg (.dir vmId .rmtree)
  | removes (c : Cmd) (known : Lv.Removes vg (Names.rootfs vmId) c) : Issues vmId vg c

theorem EnvTeardown.run_only (vmId : Id) (vg : Str) : Only (Issues vmId vg) (run vmId vg) := by
  apply Only.bind (.dir .exists_)
  intro there
  exact .bind (.whenTrue fun _ => .dir .rmtree) fun _ => (Lv.remove_only vg _).mono .removes

theorem VmDown.of_teardown (vmId : Id) (vg : Str) (c : Cmd) (h : EnvTeardown.Issues vmId vg c) :
    Issues vmId vg c := by
  cases h with
  | exists_ => exact .exists_
  | rmtree => exact .rmtree
  | removes c known => exact of_removes vmId vg c known

theorem VmDown.run_only (vmId : Id) (vg : Str) : Only (Issues vmId vg) (run vmId vg) := by
  apply Only.bind (.dir .exists_)
  intro there
  apply Only.bind (.whenTrue fun _ => Kill.run_only vmId vg)
  intro _
  apply Only.bind (networkDown_only vmId vg)
  intro _
  exact (EnvTeardown.run_only vmId vg).mono (of_teardown vmId vg)

/-! ## Flood lists -/

namespace Vxlan

/-- What `set_fdb` does to the device: it lists peers, and takes others off the list. -/
inductive Lists (name : Str) (peers : List Str) : NetCmd → Prop where
  | show (name' : Str) : Lists name peers (.show name')
  | fdbShow : Lists name peers (.fdbShow name)
  | append {dst : Str} (listed : dst ∈ peers) : Lists name peers (.fdbAppend name ALL_ZEROS dst)
  | del {dst : Str} (unlisted : dst ∉ peers) : Lists name peers (.fdbDel name ALL_ZEROS dst)

inductive Listing (name : Str) (peers : List Str) : Cmd → Prop where
  | net (c : NetCmd) (lists : Lists name peers c) : Listing name peers (.net c)

theorem setFdb_lists (sets : SetOrder) (name : Str) (peers : List Str) :
    Only (Listing name peers) (setFdb sets name peers) := by
  apply Only.bind (.bind (.net (.net _ .fdbShow)) fun _ => .fromExcept _)
  intro current
  apply Only.bind
  · apply Only.forEach
    intro dst missing
    exact .net (.net _ (.append ((sets.mem_diff ..).mp missing).1))
  · intro _
    apply Only.forEach
    intro dst old
    exact .net (.net _ (.del ((sets.mem_diff ..).mp old).2))

end Vxlan

/-! ## Bringing a VM up -/

namespace VmUp

/-- What `vm_up` writes into the VM's directory. -/
inductive Writes (spec : VmSpec) : DirCmd → Prop where
  | mkdir : Writes spec .mkdir
  | hasLink (l : LinkName) : Writes spec (.hasLink l)
  | unlink (l : LinkName) : Writes spec (.unlink l)
  | rootfs : Writes spec (.symlink .rootfs (.device spec.vg (Names.rootfs spec.vmId)))
  | kernel : Writes spec (.symlink .kernel (.file spec.kernel))
  | sshKey : Writes spec (.symlink .sshKey (.file spec.sshKey))
  | data (path : Path) (given : spec.dataVolumePath = some path) : Writes spec (.symlink .data path)
  | config (c : FcConfig)
    (built : VmConfig.payload (VmPaths.forVm spec.vmsDir spec.vmId) (vmConfig spec) = .ok c) :
    Writes spec (.writeConfig c)
  | openLog : Writes spec .openLog
  | writePid (pid : Int) : Writes spec (.writePid pid)

/-- The devices inside the VM's namespace. -/
def inner : List (Str × Kind) :=
  [("nbr0", .bridge), ("tap0", .tap), ("pbr1", .bridge), ("tap1", .tap)]

/-- What `vm_up` does to the network. -/
inductive Wires (spec : VmSpec) : NetCmd → Prop where
  | show (name : Str) : Wires spec (.show name)
  | bridge : Wires spec (.add (none, Bridge.nameFor spec.nodeId spec.vpcId) .bridge)
  | setAddress (mac : Str) : Wires spec (.setAddress (Bridge.nameFor spec.nodeId spec.vpcId) mac)
  | addAddr (cidr : Str) : Wires spec (.addAddr (Bridge.nameFor spec.nodeId spec.vpcId) cidr)
  | vxlan : Wires spec (.add (none, Vxlan.nameFor spec.nodeId spec.vpcId)
      (.vxlan (Overlay.vniFor spec.vpcId) spec.nodeHost))
  | joinVxlan : Wires spec (.setMaster (none, Vxlan.nameFor spec.nodeId spec.vpcId)
      (Bridge.nameFor spec.nodeId spec.vpcId))
  | fdbShow : Wires spec (.fdbShow (Vxlan.nameFor spec.nodeId spec.vpcId))
  | fdbAppend (dst : Str) (listed : dst ∈ spec.peerHosts) :
    Wires spec (.fdbAppend (Vxlan.nameFor spec.nodeId spec.vpcId) Vxlan.ALL_ZEROS dst)
  | fdbDel (dst : Str) (unlisted : dst ∉ spec.peerHosts) :
    Wires spec (.fdbDel (Vxlan.nameFor spec.nodeId spec.vpcId) Vxlan.ALL_ZEROS dst)
  | sysctlForward : Wires spec .sysctlForward
  | listChain (table chain : Str) : Wires spec (.listChain table chain)
  | newChain (table chain : Str) : Wires spec (.newChain table chain)
  | checkRule (r : Rule) : Wires spec (.checkRule r)
  | appendRule (r : Rule) : Wires spec (.appendRule r)
  | netns : Wires spec (.netnsAdd (nsName spec.vmId))
  | pair : Wires spec (.addVeth (hostVeth spec.vmId) (nsVeth spec.vmId))
  | place : Wires spec (.setNetns (nsVeth spec.vmId) (nsName spec.vmId))
  | join : Wires spec (.setMaster (none, hostVeth spec.vmId)
    (Bridge.nameFor spec.nodeId spec.vpcId))
  | publicPair : Wires spec (.addVeth (pubHostVeth spec.vmId) (pubNsVeth spec.vmId))
  | publicPlace : Wires spec (.setNetns (pubNsVeth spec.vmId) (nsName spec.vmId))
  | publicJoin : Wires spec (.setMaster (none, pubHostVeth spec.vmId) spec.publicBridge)
  | inner (name : Str) (kind : Kind) (known : (name, kind) ∈ inner) :
    Wires spec (.add (some (nsName spec.vmId), name) kind)
  | attachVeth : Wires spec (.setMaster (some (nsName spec.vmId), nsVeth spec.vmId) "nbr0")
  | attachTap : Wires spec (.setMaster (some (nsName spec.vmId), "tap0") "nbr0")
  | attachPublicVeth : Wires spec (.setMaster (some (nsName spec.vmId), pubNsVeth spec.vmId) "pbr1")
  | attachPublicTap : Wires spec (.setMaster (some (nsName spec.vmId), "tap1") "pbr1")
  | setUp (key : LinkKey) : Wires spec (.setUp key)

/-- The commands of `vm_up`. -/
inductive Issues (spec : VmSpec) : Cmd → Prop where
  | lvs (lister : Lister) : Issues spec (.lvm (.lvs lister spec.vg))
  | remove : Issues spec (.lvm (.remove spec.vg (Names.rootfs spec.vmId)))
  | clone : Issues spec (.lvm (.snapshot spec.vg spec.rootfsOrigin (Names.rootfs spec.vmId) false))
  | dir (c : DirCmd) (known : Writes spec c) : Issues spec (.dir spec.vmId c)
  | net (c : NetCmd) (known : Wires spec c) : Issues spec (.net c)
  | inject : Issues spec (.debugfs spec.vmId
      (Inject.lines spec.sshPubkey spec.dns spec.dataVolumePath.isSome spec.publicIp))
  | popen : Issues spec (.popen spec.vmId (nsName spec.vmId))

section

variable (spec : VmSpec)

/-- The commands of `vm_up` before the process is started. -/
structure Prepares (c : Cmd) : Prop where
  issues : Issues spec c
  quiet : c.Quiet

theorem of_removes (c : Cmd) (h : Lv.Removes spec.vg (Names.rootfs spec.vmId) c) :
    Prepares spec c := by
  cases h with
  | lvs lister => exact ⟨.lvs lister, trivial⟩
  | remove => exact ⟨.remove, trivial⟩

theorem dir_only {c : DirCmd} (known : Writes spec c) (quiet : (Cmd.dir spec.vmId c).Quiet) :
    Only (Prepares spec) (Client.dir spec.vmId c) := .dir ⟨.dir c known, quiet⟩


theorem symlink_only (l : LinkName) (source : Path) (known : Writes spec (.symlink l source)) :
    Only (Prepares spec) (symlink spec.vmId l source) := by
  apply Only.bind (dir_only spec (.hasLink l) trivial)
  intro _
  apply Only.bind (.whenTrue fun _ => dir_only spec (.unlink l) trivial)
  intro _
  exact dir_only spec known trivial

/-! The rootfs and what is injected. -/

theorem setup_only :
    Only (Prepares spec) (EnvSetup.run spec.vmId spec.kernel spec.sshKey spec.vg
      spec.rootfsOrigin) := by
  -- The clone answers with its own device, which is what `rootfs.ext4` links to.
  simp only [EnvSetup.run, Lv.clone, LawfulMonad.bind_assoc, pure_bind]
  apply Only.bind (dir_only spec .mkdir trivial)
  intro _
  apply Only.bind ((Lv.remove_only spec.vg _).mono (of_removes spec))
  intro _
  apply Only.bind (.lvm ⟨.clone, trivial⟩)
  intro _
  apply Only.bind (symlink_only spec _ _ .rootfs)
  intro _
  exact .bind (symlink_only spec _ _ .kernel) fun _ => symlink_only spec _ _ .sshKey

theorem attach_only (path : Path) (given : spec.dataVolumePath = some path) :
    Only (Prepares spec) (Attach.run spec.vmId path) := symlink_only spec _ _ (.data path given)

/-! The network. -/

/-- The commands of `vm_up` on the network. -/
inductive Wired : Cmd → Prop where
  | net (c : NetCmd) (known : Wires spec c) : Wired (.net c)

theorem of_wired (c : Cmd) (h : Wired spec c) : Prepares spec c := by
  cases h with
  | net c known => exact ⟨.net c known, trivial⟩

theorem net_only {c : NetCmd} (known : Wires spec c) : Only (Wired spec) (Client.net c) :=
  .net (.net c known)

theorem linkExists_only (name : Str) : Only (Wired spec) (linkExists name) :=
  .exceptPrivops _ (.bind (net_only spec (.show name)) fun _ => .pure _)

theorem bridge_only (gw : Str) :
    Only (Wired spec) (Bridge.ensure (Bridge.nameFor spec.nodeId spec.vpcId) gw
      (Overlay.anycastMac spec.vpcId)) :=
  .bind (linkExists_only spec _) fun _ => .ite (fun _ => .pure _) fun _ =>
    .bind (net_only spec .bridge) fun _ => .bind (net_only spec (.setAddress _)) fun _ =>
    .bind (net_only spec (.addAddr _)) fun _ => net_only spec (.setUp _)

theorem setFdb_only :
    Only (Wired spec)
      (Vxlan.setFdb spec.sets (Vxlan.nameFor spec.nodeId spec.vpcId) spec.peerHosts) := by
  apply (Vxlan.setFdb_lists spec.sets _ spec.peerHosts).mono
  rintro _ ⟨c, lists⟩
  cases lists with
  | «show» name => exact .net _ (.show name)
  | fdbShow => exact .net _ .fdbShow
  | append listed => exact .net _ (.fdbAppend _ listed)
  | del unlisted => exact .net _ (.fdbDel _ unlisted)

theorem ensure_only :
    Only (Wired spec) (Vxlan.ensure (Vxlan.nameFor spec.nodeId spec.vpcId)
      (Overlay.vniFor spec.vpcId)
      spec.nodeHost (Bridge.nameFor spec.nodeId spec.vpcId)) :=
  .bind (linkExists_only spec _) fun _ => .ite (fun _ => .pure _) fun _ =>
    .bind (net_only spec .vxlan) fun _ => .bind (net_only spec .joinVxlan) fun _ =>
      net_only spec (.setUp _)

theorem overlay_only : Only (Wired spec) (overlay spec (Bridge.nameFor spec.nodeId spec.vpcId)) :=
  .ite (fun _ => .pure _) fun _ => .bind (ensure_only spec) fun _ => setFdb_only spec

theorem nat_only (cidr : Str) : Only (Wired spec) (Nat_.ensure cidr) := by
  have chain (table chain : Str) : Only (Wired spec) (Nat_.ensureChain table chain) :=
    .bind (.exceptPrivops _ (.bind (net_only spec (.listChain ..)) fun _ => .pure _)) fun _ =>
      .ite (fun _ => .pure _) fun _ => net_only spec (.newChain ..)
  have rule (table chain : Str) (args : List Str) :
      Only (Wired spec) (Nat_.ensureRule table chain args) :=
    .bind (.exceptPrivops _ (.bind (net_only spec (.checkRule _)) fun _ => .pure _)) fun _ =>
      .ite (fun _ => .pure _) fun _ => net_only spec (.appendRule _)
  apply Only.bind (net_only spec .sysctlForward)
  intro _
  apply Only.bind (chain ..)
  intro _
  apply Only.bind (chain ..)
  intro _
  apply Only.bind (rule ..)
  intro _
  apply Only.bind (rule ..)
  intro _
  apply Only.bind (rule ..)
  intro _
  exact .bind (rule ..) fun _ => rule ..

theorem wireTap_only : Only (Wired spec) (wireTap (nsName spec.vmId) (nsVeth spec.vmId)) := by
  apply Only.bind (.bind (net_only spec (.inner _ _ (by decide))) fun _ => net_only spec (.setUp _))
  intro _
  apply Only.bind (.bind (net_only spec .attachVeth) fun _ => net_only spec (.setUp _))
  intro _
  apply Only.bind (net_only spec (.inner _ _ (by decide)))
  intro _
  exact .bind (net_only spec .attachTap) fun _ => net_only spec (.setUp _)

theorem wirePublic_only : Only (Wired spec) (wirePublic spec (nsName spec.vmId)) := by
  apply Only.bind (net_only spec .publicPair)
  intro _
  apply Only.bind (net_only spec .publicPlace)
  intro _
  apply Only.bind (net_only spec .publicJoin)
  intro _
  apply Only.bind (net_only spec (.setUp _))
  intro _
  apply Only.bind (.bind (net_only spec (.inner _ _ (by decide))) fun _ => net_only spec (.setUp _))
  intro _
  apply Only.bind (.bind (net_only spec .attachPublicVeth) fun _ => net_only spec (.setUp _))
  intro _
  apply Only.bind (net_only spec (.inner _ _ (by decide)))
  intro _
  exact .bind (net_only spec .attachPublicTap) fun _ => net_only spec (.setUp _)

theorem wireVeth_only :
    Only (Wired spec) (wireVeth spec (nsName spec.vmId) (hostVeth spec.vmId)
      (nsVeth spec.vmId)) := by
  apply Only.bind (net_only spec .pair)
  intro _
  apply Only.bind (net_only spec .place)
  intro _
  exact .bind (net_only spec .join) fun _ => net_only spec (.setUp _)

theorem network_only : Only (Wired spec) (network spec) := by
  apply Only.bind (.fromExcept _)
  intro gw
  apply Only.bind (bridge_only spec gw)
  intro _
  apply Only.bind (overlay_only spec)
  intro _
  apply Only.bind (nat_only spec _)
  intro _
  apply Only.bind (net_only spec .netns)
  intro _
  apply Only.bind (wireVeth_only spec)
  intro _
  exact .bind (wireTap_only spec) fun _ => .whenSome fun _ _ => wirePublic_only spec

/-! The process. -/

theorem build_only :
    Only (Prepares spec) (VmConfig.build spec.vmId (VmPaths.forVm spec.vmsDir spec.vmId)
      (vmConfig spec)) := by
  unfold VmConfig.build
  cases built : VmConfig.payload (VmPaths.forVm spec.vmsDir spec.vmId) (vmConfig spec) with
  | error e => exact .throw e
  | ok c => exact dir_only spec (.config c built) trivial

theorem create_only : Only (Issues spec) (CreateVm.run spec.vmId (nsName spec.vmId)) := by
  apply Only.bind (.dir (.dir _ .openLog))
  intro _
  exact .bind (.perform .popen) fun _ => .dir (.dir _ (.writePid _))

/-- `vm_up` up to the start of the process. -/
def prepare : Sh Unit := do
  EnvSetup.run spec.vmId spec.kernel spec.sshKey spec.vg spec.rootfsOrigin
  Inject.run spec.vmId spec.sshPubkey spec.dns spec.dataVolumePath.isSome spec.publicIp
  whenSome spec.dataVolumePath fun path => Attach.run spec.vmId path
  network spec
  VmConfig.build spec.vmId (VmPaths.forVm spec.vmsDir spec.vmId) (vmConfig spec)

theorem run_eq :
    run spec = (prepare spec >>= fun _ => CreateVm.run spec.vmId (nsName spec.vmId)) := by
  simp only [run, prepare, spawn, LawfulMonad.bind_assoc]

theorem prepare_only : Only (Prepares spec) (prepare spec) := by
  apply Only.bind (setup_only spec)
  intro _
  apply Only.bind (.perform ⟨.inject, trivial⟩)
  intro _
  apply Only.bind (.whenSome fun path given => attach_only spec path given)
  intro _
  exact .bind ((network_only spec).mono (of_wired spec)) fun _ => build_only spec

theorem run_only : Only (Issues spec) (run spec) := by
  rw [run_eq]
  exact .bind ((prepare_only spec).mono fun _ h => h.issues) fun _ => create_only spec

end

end VmUp

/-! ## What the client layer raises -/

/-- Any exception but an `HTTPException`. -/
def Crash : Exn → Prop
  | .http _ _ => False
  | _ => True

theorem crash_of_exec (x : Chance) (c : Cmd) (h : Host) (e : Exn)
    (raised : (h.exec x c).1 = .error e) :
    Crash e := by
  rw [Host.exec, Host.attempt] at raised
  split at raised
  · cases raised
    trivial
  · split at raised
    · cases raised
    · cases raised
      rw [Cmd.exn]
      split <;> trivial

theorem raises_exceptPrivops {α : Type} {p : Sh α} (fallback : α) (h : Raises Crash p) :
    Raises Crash (exceptPrivops p fallback) :=
  .tryCatch h fun _ crash => .ite (.pure _) (.throw crash)

theorem raises_remove (vg name : Str) : Raises Crash (Lv.remove vg name) :=
  .bind (.bind (raises_exceptPrivops _ (.perform _)) fun _ => .pure _) fun _ =>
    .ite (.perform _) (.pure _)

theorem raises_symlink (vmId : Id) (l : LinkName) (source : Path) :
    Raises Crash (symlink vmId l source) := by
  apply Raises.bind (.perform _)
  intro _
  exact .bind (.whenTrue (.perform _)) fun _ => .perform _

theorem raises_linkExists (name : Str) : Raises Crash (linkExists name) :=
  raises_exceptPrivops _ (.bind (.perform _) fun _ => .pure _)

namespace Allocate

variable {cidr : Str} {e : Exn}

theorem network_crash (raised : network cidr = .error e) : Crash e := by
  unfold network at raised
  split at raised
  · cases raised
  · cases raised
    trivial

theorem gateway_crash (raised : gateway cidr = .error e) : Crash e := by
  rcases error_bind raised with first | ⟨n, -, rest⟩
  · exact network_crash first
  · split at rest <;> cases rest
    trivial

theorem pickIp_crash {used : List Str} (raised : pickIp cidr used = .error e) : Crash e := by
  rcases error_bind raised with first | ⟨n, -, rest⟩
  · exact network_crash first
  · rcases error_bind rest with second | ⟨gw, -, rest⟩
    · exact gateway_crash second
    · split at rest <;> cases rest
      trivial

theorem gatewayCidr_crash (raised : gatewayCidr cidr = .error e) : Crash e := by
  rcases error_bind raised with first | ⟨gw, -, rest⟩
  · exact gateway_crash first
  · split at rest <;> cases rest
    trivial

end Allocate

theorem VmConfig.payload_crash {paths : VmPaths} {cfg : VmConfig} {e : Exn}
    (raised : payload paths cfg = .error e) : Crash e := by
  rcases error_bind raised with args | ⟨args, -, rest⟩
  · rcases error_bind args with first | ⟨gw, -, rest⟩
    · exact Allocate.gateway_crash first
    · rcases error_bind rest with mask | ⟨mask, -, rest⟩
      · rcases error_bind mask with parsed | ⟨n, -, rest⟩
        · exact Allocate.network_crash parsed
        · cases rest
      · cases rest
  · cases rest

namespace VmUp

variable (spec : VmSpec)

theorem raises_bridge (bridge gw mac : Str) : Raises Crash (Bridge.ensure bridge gw mac) :=
  .bind (raises_linkExists _) fun _ => .ite (.pure _) <|
    .bind (.perform _) fun _ => .bind (.perform _) fun _ => .bind (.perform _) fun _ => .perform _

theorem peers_crash {out : Str} {e : Exn} (raised : Vxlan.parsePeers out = .error e) : Crash e := by
  obtain ⟨line, -, raised⟩ := error_mapM raised
  rw [Vxlan.peerOf] at raised
  split at raised
  · cases raised
  · cases raised
    trivial

theorem raises_overlay (br : Str) : Raises Crash (overlay spec br) :=
  .ite (.pure _) <| .bind (.bind (raises_linkExists _) fun _ => .ite (.pure _) <|
      .bind (.perform _) fun _ => .bind (.perform _) fun _ => .perform _) fun _ =>
    .bind (.bind (.perform _) fun _ => .fromExcept fun _ => peers_crash) fun _ =>
      .bind (.forEach _ fun _ => .perform _) fun _ => .forEach _ fun _ => .perform _

theorem raises_nat (cidr : Str) : Raises Crash (Nat_.ensure cidr) := by
  have chain (table chain : Str) : Raises Crash (Nat_.ensureChain table chain) :=
    .bind (raises_exceptPrivops _ (.bind (.perform _) fun _ => .pure _)) fun _ =>
      .ite (.pure _) (.perform _)
  have rule (table chain : Str) (args : List Str) :
      Raises Crash (Nat_.ensureRule table chain args) :=
    .bind (raises_exceptPrivops _ (.bind (.perform _) fun _ => .pure _)) fun _ =>
      .ite (.pure _) (.perform _)
  apply Raises.bind (.perform _)
  intro _
  apply Raises.bind (chain ..)
  intro _
  apply Raises.bind (chain ..)
  intro _
  apply Raises.bind (rule ..)
  intro _
  apply Raises.bind (rule ..)
  intro _
  apply Raises.bind (rule ..)
  intro _
  exact .bind (rule ..) fun _ => rule ..

theorem raises_stack (ns inner bridge tap : Str) : Raises Crash (do
    NsBridge.create ns bridge
    NsBridge.attach ns inner bridge
    Tap.create ns tap
    NsBridge.attach ns tap bridge) := by
  apply Raises.bind (.bind (.perform _) fun _ => .perform _)
  intro _
  apply Raises.bind (.bind (.perform _) fun _ => .perform _)
  intro _
  apply Raises.bind (.perform _)
  intro _
  exact .bind (.perform _) fun _ => .perform _

theorem raises_network : Raises Crash (network spec) := by
  apply Raises.bind (.fromExcept fun _ => Allocate.gatewayCidr_crash)
  intro ip
  apply Raises.bind (raises_bridge ..)
  intro _
  apply Raises.bind (raises_overlay spec _)
  intro _
  apply Raises.bind (raises_nat _)
  intro _
  apply Raises.bind (.perform _)
  intro _
  apply Raises.bind (.bind (.perform _) fun _ => .bind (.perform _) fun _ => .bind (.perform _)
    fun _ => .perform _)
  intro _
  apply Raises.bind (raises_stack ..)
  intro _
  exact .whenSome fun _ => .bind (.perform _) fun _ => .bind (.perform _) fun _ =>
    .bind (.perform _) fun _ => .bind (.perform _) fun _ => raises_stack ..

theorem raises_spawn : Raises Crash (spawn spec) := by
  have build : Raises Crash (VmConfig.build spec.vmId (VmPaths.forVm spec.vmsDir spec.vmId)
      (vmConfig spec)) :=
    .bind (.fromExcept fun _ => VmConfig.payload_crash) fun _ => .perform _
  have create : Raises Crash (CreateVm.run spec.vmId (nsName spec.vmId)) :=
    .bind (.perform _) fun _ => .bind (.perform _) fun _ => .perform _
  exact .bind build fun _ => create

/-- `vm_up` raises no `HTTPException`. -/
theorem run_raises : Raises Crash (run spec) := by
  apply Raises.bind (.bind (.perform _) fun _ => .bind (raises_remove ..) fun _ =>
    .bind (.bind (.perform _) fun _ => .pure _) fun _ => .bind (raises_symlink ..) fun _ =>
      .bind (raises_symlink ..) fun _ => raises_symlink ..)
  intro _
  apply Raises.bind (.perform _)
  intro _
  apply Raises.bind (.whenSome fun _ => raises_symlink ..)
  intro _
  exact .bind (raises_network spec) fun _ => raises_spawn spec

end VmUp

end Client

end Nyc
