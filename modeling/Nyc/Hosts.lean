import Nyc.Client.Footprint
import Nyc.Footprint

/-!
# What handlers run on the hosts

Most handlers leave the volumes of a node alone, but for the root disks that they clone and remove.
A property of commands that such commands have is one of whole handlers. The handlers of volumes
and images are looked at where the property is.
-/

namespace Nyc

open Data Effects Effects.Program Client

/-- The command is none of LVM's, and removes and moves no device of a VPC, as their names, with a
dash in the third place, tell. -/
def Client.Cmd.Sparing : Cmd → Prop
  | .lvm _ => False
  | .net (.del name) | .net (.setNetns name _) => name[2]? ≠ some '-'
  | _ => True

/-- The names of a VM's own devices have a letter in the third place. -/
theorem own_device {name : Str} {c : Char} (third : name[2]? = some c) (letter : c ≠ '-') :
    name[2]? ≠ some '-' := by
  rw [third]
  exact fun same => letter (Option.some.inj same)

/-- Allowed are the commands that list volumes, clone a root disk from one of the origins, or
remove one, and whatever spares the volumes and the devices of the VPCs. -/
structure Grants (origins : Id → Str → Prop) (allowed : Id → Cmd → Prop) : Prop where
  other : ∀ n c, c.Sparing → allowed n c
  lists : ∀ n lister vg, allowed n (.lvm (.lvs lister vg))
  clone : ∀ n vg origin vmId, origins n origin →
    allowed n (.lvm (.snapshot vg origin (Names.rootfs vmId) false))
  remove : ∀ n vg name, Names.ROOTFS <+: name → allowed n (.lvm (.remove vg name))

/-- What a program runs on the hosts is allowed there, and it gives no volume's row a size. -/
abbrev Within (allowed : Id → Cmd → Prop) {α : Type} (p : Py α) : Prop :=
  Only (Op.Within allowed) p

theorem Aside.within {allowed : Id → Cmd → Prop} {α : Type} {p : Py α} (off : Aside p) :
    Within allowed p :=
  off.mono fun _ off => off.within _

/-- The default image is the only origin. -/
def byDefault (_ : Id) (origin : Str) : Prop := origin = GOLD_DEFAULT

theorem default_origin (n : Id) : byDefault n GOLD_DEFAULT := rfl

/-- The requests that are about neither volumes nor images, and make none on the way. -/
def Plain : Request → Prop
  | .createVolume _ | .resizeVolume _ _ | .deleteVolume _ | .createSnapshot _ | .deleteSnapshot _
  | .createImage _ | .deleteImage _ | .spawnVm _ _ | .createProxy _ | .reconcileNow => False
  | _ => True

namespace Grants

variable {origins : Id → Str → Prop} {allowed : Id → Cmd → Prop} (self : Node)

/-! ## The client layer -/

section

variable (grants : Grants origins allowed)

include grants

theorem plain {α : Type} {p : Sh α} (sparing : Only Cmd.Sparing p) :
    Within allowed (self.sh p) :=
  .sh self (sparing.mono fun c sparing => grants.other _ c sparing)

theorem removeLv {n : Id} {vg name : Str} (known : Names.ROOTFS <+: name) :
    Only (allowed n) (Lv.remove vg name) := by
  apply (Lv.remove_only vg name).mono
  intro c issues
  cases issues with
  | lvs lister => exact grants.lists n lister vg
  | remove => exact grants.remove n vg name known

theorem down (vmId : Id) (vg : Str) : Within allowed (self.sh (VmDown.run vmId vg)) := by
  apply Only.sh self
  apply (VmDown.run_only vmId vg).mono
  intro c issues
  cases issues with
  | lvs lister => exact grants.lists _ lister vg
  | remove => exact grants.remove _ vg _ (List.prefix_append ..)
  | delVeth | delPublic => exact grants.other _ _ (own_device rfl (by decide))
  | _ => exact grants.other _ _ trivial

theorem kill (vmId : Id) : Within allowed (self.sh (Kill.run vmId)) := by
  apply grants.plain
  apply (Kill.run_kills vmId).mono
  intro c issues
  cases issues <;> exact trivial

theorem up (spec : VmSpec) (known : origins self.id spec.rootfsOrigin) :
    Within allowed (self.sh (VmUp.run spec)) := by
  apply Only.sh self
  apply (VmUp.run_only spec).mono
  intro c issues
  cases issues with
  | lvs lister => exact grants.lists _ lister spec.vg
  | remove => exact grants.remove _ spec.vg _ (List.prefix_append ..)
  | clone => exact grants.clone _ spec.vg _ spec.vmId known
  | net c wires =>
    apply grants.other
    cases wires with
    | place | publicPlace => exact own_device rfl (by decide)
    | _ => trivial
  | _ => exact grants.other _ _ trivial

theorem create (vmId ns : Id) : Within allowed (self.sh (CreateVm.run vmId ns)) := by
  apply grants.plain
  apply Only.bind (.dir trivial)
  intro _
  exact .bind (.perform trivial) fun _ => .dir trivial

theorem status (vmId : Id) : Within allowed (self.sh (Status.run vmId)) :=
  grants.plain self (Status.run_only vmId trivial trivial fun _ => trivial)

theorem sync (peers : List Str) (vpcId : Id) :
    Within allowed (self.sh (OverlayPass.sync self peers vpcId)) := by
  apply grants.plain
  apply Only.bind (.exceptPrivops _ (.bind (.net trivial) fun _ => .pure _))
  intro there
  apply Only.ite
  · intro _
    refine .bind (.bind (.bind (.net trivial) fun _ => .fromExcept _) fun listed => ?_)
      fun _ => .pure _
    apply Only.bind (.forEach _ fun _ _ => .net trivial)
    intro _
    exact .forEach _ fun _ _ => .net trivial
  · intro _
    exact .pure _

theorem push (ip key : Str) (script : GuestScript) :
    Within allowed (self.sh (GuestRun.run ip key script)) :=
  grants.plain self (.perform (show (Cmd.ssh ip key script).Sparing from trivial))

/-! ## VMs and their addresses -/

theorem bringUp (row : VmRow) (cidr : Str) (volPath : Option Path) (key : Option Str) {origin : Str}
    (known : origins self.id origin) :
    Within allowed (Vms.bringUp self row cidr volPath key origin) := by
  simp only [Vms.bringUp, Vms.spec, LawfulMonad.bind_assoc, pure_bind]
  apply Only.bind (.get trivial)
  intro row
  apply Only.bind (Aside.nodeHost _).within
  intro host
  apply Only.bind (Aside.peerHosts _).within
  intro peers
  apply Only.bind (grants.up self _ known)
  intro _
  exact .bind (.update trivial) fun _ => .pure _

theorem deleteVm (vmId nodeId : Id) : Within allowed (Vms.deleteLocal self vmId nodeId) := by
  apply Only.bind (Aside.teardown vmId).within
  intro _
  apply Only.bind (grants.down self ..)
  intro _
  exact .bind (.delete trivial) fun _ => .pure _

theorem stop (vmId : Id) : Within allowed (Vms.stopLocal self vmId) :=
  .bind (grants.kill self vmId) fun _ => (Aside.setStatus ..).within

theorem start (vmId : Id) : Within allowed (Vms.startLocal self vmId) :=
  .bind (grants.create self ..) fun _ => (Aside.setStatus ..).within

/-! ## Passes and ticks -/

theorem ttlPass : Within allowed (TtlPass.reconcile self) := by
  apply Only.ite
  · intro _
    exact .pure _
  · intro _
    apply Only.bind (.now trivial)
    intro time
    apply Only.bind (.getAll trivial)
    intro rows
    refine .bind (.forEach _ fun _ _ => ?_) fun _ => .pure _
    exact .bind (grants.down self ..) fun _ => .bind (.delete trivial) fun _ => .pure _

theorem vmsPass : Within allowed (VmsPass.reconcile self) := by
  apply Only.bind (.getAll trivial)
  intro rows
  apply Only.bind (grants.plain self (.perform (show Cmd.listDirs.Sparing from trivial)))
  intro dirs
  apply Only.bind (.forEach _ fun _ _ =>
    .bind (Aside.teardown _).within fun _ => grants.down self ..)
  intro _
  refine .bind (.bind (.sh self (Lv.listLvs_only _ _ (grants.lists ..))) fun names => ?_)
    fun _ => .pure _
  -- the names that are pruned have the prefix of the root disks
  refine .forEach _ fun name there => .sh self (grants.removeLv ?_)
  have kept := (List.mem_filter.mp there).2
  exact List.isPrefixOf_iff_prefix.mp (Bool.and_eq_true_iff.mp kept).1

theorem overlayPass : Within allowed (OverlayPass.reconcile self) := by
  apply Only.bind (Aside.nodeHost _).within
  intro host
  apply Only.ite
  · intro _
    exact .pure _
  · intro _
    apply Only.bind (Aside.peerHosts _).within
    intro peers
    apply Only.bind (.bind (.getAll trivial) fun _ => .pure _)
    intro vpcs
    exact .bind (.filterEach _ fun _ _ => grants.sync self ..) fun _ => .pure _

theorem dispatch (task : TaskRow) (nodeId : Id) :
    Within allowed (TaskRunner.dispatch self task nodeId) := by
  have vm (vmId : Id) : Within allowed (TaskRunner.vmOrFail vmId) :=
    .bind (.get trivial) fun row => by cases row <;> exact trivial
  have routes (rows : List DomainRow) : Within allowed (TaskRunner.routesOf rows) := by
    induction rows with
    | nil => exact .pure _
    | cons d rest ih =>
      exact .bind (.bind (.get trivial) fun _ => .pure _) fun _ => .bind ih fun _ => .pure _
  unfold TaskRunner.dispatch
  split
  · apply Only.bind (vm _)
    intro _
    apply Only.bind (grants.push self ..)
    intro _
    exact .bind (.update trivial) fun _ => .pure _
  · refine .bind (.get trivial) fun proxy => ?_
    cases proxy with
    | none => exact .pure _
    | some proxy =>
      apply Only.bind (vm _)
      intro _
      apply Only.bind (.bind (.getAll trivial) fun _ => routes _)
      intro _
      exact .bind (grants.push self ..) fun _ => .pure _
  · exact .throw _

theorem tick : Within allowed (Executor.tick self) := by
  have finish (id : Id) (status : TaskStatus) (result : Str) :
      Within allowed (TaskRunner.finish id status result) :=
    .bind (.now trivial) fun _ => .bind (.update trivial) fun _ => .pure _
  refine .bind (.getAll trivial) fun pending => ?_
  induction pending with
  | nil => exact .pure _
  | cons d rest ih =>
    refine .bind (.bind (.now trivial) fun _ => .bind (.update trivial) fun _ =>
      .get trivial) fun won => ?_
    cases won with
    | none => exact ih
    | some _ =>
      exact .tryCatch (.bind (grants.dispatch self d self.id) fun _ => finish ..) fun _ => finish ..

end

/-! ## VMs whose root disks come from the default image -/

section

variable (grants : Grants byDefault allowed)

include grants

theorem recreateVm (vmId : Id) : Within allowed (Vms.recreateVm self vmId) := by
  apply Only.bind (.get trivial)
  intro row
  apply Only.whenSome
  intro row _
  apply Only.bind (grants.down self ..)
  intro _
  apply Only.bind (.get trivial)
  intro vpc
  apply Only.whenSome
  intro vpc _
  apply Only.bind (Aside.rebuildVolumePath _).within
  intro path
  exact grants.bringUp self _ _ _ _ (default_origin _)

theorem createVm (body : VmIn) (nodeId : Id) :
    Within allowed (Vms.createLocal self body nodeId) := by
  apply Only.bind (Aside.lookup ..).within
  intro row
  apply Only.bind (Aside.bodyVolumePath body).within
  intro path
  apply Only.bind (Aside.usedIps _).within
  intro used
  apply Only.bind (.fromExcept _)
  intro ip
  apply Only.bind (.uuid4 trivial)
  intro id
  apply Only.bind (.now trivial)
  intro time
  apply Only.bind (.insert trivial)
  intro _
  exact .bind (grants.bringUp self _ _ _ _ (default_origin _)) fun _ => .pure _

theorem attach (vm : VmRow) (nodeId : Id) :
    Within allowed (PublicIps.attachLocal self vm nodeId) := by
  apply Only.bind (Aside.usedAddresses _).within
  intro used
  apply Only.bind (.fromExcept _)
  intro ip
  apply Only.bind (.uuid4 trivial)
  intro id
  apply Only.bind (.now trivial)
  intro time
  apply Only.bind (.insert trivial)
  intro _
  exact .bind (grants.recreateVm self _) fun _ => .pure _

theorem detach (vmId : Id) : Within allowed (PublicIps.detachLocal self vmId) := by
  apply Only.bind (.get trivial)
  intro row
  apply Only.bind (.whenSome fun _ _ =>
    .bind (.delete trivial) fun _ => grants.recreateVm self vmId)
  intro _
  exact .pure _

/-! ## Requests -/

theorem serveHere (req : Request) (found : Api.Found req) (plain : Plain req) :
    Within allowed (Api.serveHere self req found) := by
  cases req with
  | createVpc body => exact (Aside.createVpc body).within
  | deleteVpc vpcId => exact (Aside.deleteVpc vpcId).within
  | createVm body => exact grants.createVm self body _
  | getVm vmId => exact .bind (grants.status self _) fun _ => .pure _
  | deleteVm vmId => exact grants.deleteVm self vmId _
  | stopVm vmId => exact grants.stop self vmId
  | startVm vmId => exact grants.start self vmId
  | rebootVm vmId => exact .bind (grants.stop self vmId) fun _ => grants.start self vmId
  | attachPublicIp vmId => exact grants.attach self _ _
  | detachPublicIp vmId => exact grants.detach self vmId
  | createDomain body => exact (Aside.createDomain self body).within
  | deleteDomain domainId => exact (Aside.deleteDomain domainId).within
  | createTask vmId body => exact (Aside.createTask vmId body).within
  | _ => cases plain

end

end Grants

end Nyc
