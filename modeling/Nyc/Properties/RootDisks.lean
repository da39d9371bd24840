import Nyc.Client.Pool
import Nyc.Client.Steps
import Nyc.Cluster
import Nyc.Hosts
import Nyc.Naming

/-!
# What the root disks are cloned from

Root and data images share a table, a promotion and a clone, and no column says what a volume
comes from. Here the history is kept beside the cluster: for each volume the one that it was
cloned from, the one that this was cloned from, and so on, as it stood when each was made. The
images of root disks, and so the root disks of the VMs, all come from the base image, and none
of them by way of a data volume.
-/

namespace Nyc

open Data Effects Effects.Program Client
open Pool (BASE_ROOTFS)

namespace RootDisks

/-! ## Lineages -/

/-- For each volume of each node, the volumes that it descends from, its origin first. -/
abbrev Lineages : Type := Id → Str × Str → List Str

/-- A clone descends from its origin, and from what that descends from at this moment. -/
def descend : Cmd → (Str × Str → List Str) → Str × Str → List Str
  | .lvm (.createThin vg _ name _), line => Function.update line (vg, name) []
  | .lvm (.snapshot vg origin name _),
    line => Function.update line (vg, name) (origin :: line (vg, origin))
  | _, line => line

/-- Commands that fail make nothing. -/
def note : (o : Op) → Except Exn o.Res → Lineages → Lineages
  | .host n c, .ok _, lines => Function.update lines n (descend c (lines n))
  | _, _, lines => lines

/-- The cluster with the lineages of its volumes. -/
abbrev tracking (env : Env) (o : Op) (s : World × Lineages) :
    Except Exn o.Res × (World × Lineages) :=
  recording (exec env) note o s

def Made (cfg : Id → NodeConfig) (n : Id) (name : Str) (s : World × Lineages) : Prop :=
  (s.1.hosts n).HasLv (lvKey cfg n name)

def line (cfg : Id → NodeConfig) (n : Id) (name : Str) (s : World × Lineages) : List Str :=
  s.2 n (lvKey cfg n name)

/-- `rootfs-`, `snap-` and `gold-`. -/
def ImageName (name : Str) : Prop :=
  Names.ROOTFS <+: name ∨ Names.SNAP <+: name ∨ Names.GOLD <+: name

def DataName (name : Str) : Prop := Names.DATA <+: name

instance (name : Str) : Decidable (DataName name) :=
  inferInstanceAs (Decidable (Names.DATA <+: name))

/-- The line ends at the base image and goes through root disks, snapshots and golden images. -/
def FromBase (line : List Str) : Prop :=
  ∃ through, line = through ++ [BASE_ROOTFS] ∧ ∀ name ∈ through, ImageName name

/-- The volume, if it is there, comes from the base image. -/
def Sound (cfg : Id → NodeConfig) (n : Id) (name : Str) (s : World × Lineages) : Prop :=
  Made cfg n name s → FromBase (line cfg n name s)

/-- The images of root disks are there, and they and the root disks come from the base image, by no
data volume. -/
structure Descended (cfg : Id → NodeConfig) (s : World × Lineages) : Prop where
  images : ∀ r ∈ s.1.db .snapshots, r.disk = .root →
    Made cfg r.nodeId r.lvName s ∧ FromBase (line cfg r.nodeId r.lvName s) ∧
      ∀ name ∈ line cfg r.nodeId r.lvName s, ¬ DataName name
  disks : ∀ n vmId, Made cfg n (Names.rootfs vmId) s →
    FromBase (line cfg n (Names.rootfs vmId) s) ∧
      ∀ name ∈ line cfg n (Names.rootfs vmId) s, ¬ DataName name

/-- What `pool.ensure` leaves on the nodes of a new cluster: no image and no root disk, and a
default image cloned from the base image. -/
structure Bootstrapped (cfg : Id → NodeConfig) (s : World × Lineages) : Prop where
  images : ∀ r, ¬ r ∈ s.1.db .snapshots
  disks : ∀ n vmId, ¬ Made cfg n (Names.rootfs vmId) s
  golden : ∀ n, Made cfg n GOLD_DEFAULT s → line cfg n GOLD_DEFAULT s = [BASE_ROOTFS]

/-- The two volumes that `_ensure_default_golden` makes. -/
example (vg pool : Str) (sizeMb : Int) (line : Str × Str → List Str) :
    descend (.lvm (.snapshot vg BASE_ROOTFS GOLD_DEFAULT true))
      (descend (.lvm (.createThin vg pool BASE_ROOTFS sizeMb)) line)
        (vg, GOLD_DEFAULT) = [BASE_ROOTFS] := by
  simp [descend]

/-! ## Names -/

/-- The four prefixes differ in their first letters. -/
theorem head_of_image {name : Str} (image : ImageName name) :
    name.head? = some 'r' ∨ name.head? = some 's' ∨ name.head? = some 'g' := by
  rcases image with root | snap | gold
  · exact .inl (first_letter root 'r' (by decide))
  · exact .inr (.inl (first_letter snap 's' (by decide)))
  · exact .inr (.inr (first_letter gold 'g' (by decide)))

theorem not_data_of_image {name : Str} (image : ImageName name) : ¬ DataName name := by
  intro data
  have first := first_letter data 'd' (by decide)
  have other := head_of_image image
  rw [first] at other
  revert other
  decide

theorem FromBase.no_data {line : List Str} (h : FromBase line) :
    ∀ name ∈ line, ¬ DataName name := by
  obtain ⟨through, rfl, images⟩ := h
  intro name there
  rcases List.mem_append.mp there with image | base
  · exact not_data_of_image (images name image)
  · rw [List.mem_singleton.mp base]
    decide

theorem FromBase.cons {line : List Str} (h : FromBase line) {origin : Str}
    (image : ImageName origin) :
    FromBase (origin :: line) := by
  obtain ⟨through, rfl, images⟩ := h
  refine ⟨origin :: through, rfl, fun name there => ?_⟩
  rcases List.mem_cons.mp there with rfl | later
  · exact image
  · exact images name later

theorem image_rootfs (vmId : Id) : ImageName (Names.rootfs vmId) := .inl (List.prefix_append ..)

theorem image_default : ImageName GOLD_DEFAULT := .inr (.inr (by decide))

theorem image_lvOf (role : Role) (id : Id) : ImageName (lvOf role id) := by
  cases role with
  | snapshot => exact .inr (.inl (List.prefix_append ..))
  | golden => exact .inr (.inr (List.prefix_append ..))

/-! ## What an operation does to a volume -/

/-- The operation makes or removes the volume. -/
def Moves (n : Id) (key : Str × Str) : Op → Prop
  | .host n' c => n' = n ∧ c.moves key
  | _ => False

theorem Moves.command {n : Id} {key : Str × Str} {o : Op} (h : Moves n key o) :
    ∃ c, o = .host n c ∧ c.moves key := by
  cases o with
  | host n' c => exact ⟨c, by rw [h.1], h.2⟩
  | _ => cases h

section Steps

variable {env : Env} {cfg : Id → NodeConfig} {n : Id} {name : Str} {s : World × Lineages} {o : Op}

theorem descend_spares {c : Cmd} {key : Str × Str} (spares : ¬ c.moves key)
    (line : Str × Str → List Str) : descend c line key = line key := by
  unfold descend
  split
  · exact Function.update_of_ne (fun same => spares same.symm) ..
  · exact Function.update_of_ne (fun same => spares same.symm) ..
  · rfl

/-- The volume is there as before, with the lineage it had. -/
structure Unmoved (cfg : Id → NodeConfig) (n : Id) (name : Str) (s s' : World × Lineages) :
    Prop where
  made : Made cfg n name s' ↔ Made cfg n name s
  line : line cfg n name s' = line cfg n name s

theorem unmoved_of_spares (spares : ¬ Moves n (lvKey cfg n name) o) :
    Unmoved cfg n name s (tracking env o s).2 := by
  cases o with
  | host n' c =>
    constructor
    · change ((exec env (.host n' c) s.1).2.hosts n).HasLv _ ↔ _
      rw [hosts_exec]
      split
      next here => rw [exec_has _ c _ _ fun moves => spares ⟨here.symm, moves⟩, Made, here]
      next => rfl
    -- a command that failed notes nothing
    · change note (.host n' c) (exec env (.host n' c) s.1).1 s.2 n _ = _
      cases (exec env (.host n' c) s.1).1 with
      | error e => rfl
      | ok a =>
        by_cases here : n = n'
        · subst here
          rw [note, Function.update_self, descend_spares fun moves => spares ⟨rfl, moves⟩]
          rfl
        · rw [note, Function.update_of_ne here]
          rfl
  | insert t row =>
    refine ⟨?_, rfl⟩
    change ((exec env (.insert t row) s.1).2.hosts n).HasLv _ ↔ _
    rw [hosts_offHost env s.1 (o := .insert t row) trivial, Made]
  | update t p f =>
    refine ⟨?_, rfl⟩
    change ((exec env (.update t p f) s.1).2.hosts n).HasLv _ ↔ _
    rw [hosts_offHost env s.1 (o := .update t p f) trivial, Made]
  | _ => exact ⟨Iff.rfl, rfl⟩

/-- An operation that fails moves nothing. -/
theorem unmoved_of_error {e : Exn} (raised : (exec env o s.1).1 = .error e) :
    Unmoved cfg n name s (tracking env o s).2 := by
  cases o with
  | host n' c =>
    constructor
    · change ((exec env (.host n' c) s.1).2.hosts n).HasLv _ ↔ _
      rw [hosts_exec]
      split
      next here => rw [Host.HasLv, exec_error_lvs _ _ _ e raised, Made, here, Host.HasLv]
      next => rfl
    · change note (.host n' c) (exec env (.host n' c) s.1).1 s.2 n _ = _
      rw [raised]
      rfl
  | _ => exact unmoved_of_spares not_false

theorem Sound.unmoved {s' : World × Lineages} (sound : Sound cfg n name s)
    (same : Unmoved cfg n name s s') : Sound cfg n name s' := by
  intro made
  rw [same.line]
  exact sound (same.made.mp made)

/-- A clone or a snapshot in the group of the node. -/
def cloneOp (cfg : Id → NodeConfig) (n : Id) (origin name : Str) (readonly : Bool) : Op :=
  .host n (.lvm (.snapshot ((cfg n).lvm.vgFor n) origin name readonly))

/-- A clone that succeeds comes from where its origin does. -/
theorem clone_made {origin : Str} {readonly : Bool}
    (done : (exec env (cloneOp cfg n origin name readonly) s.1).1 = .ok ()) :
    Made cfg n origin s ∧ ¬ Made cfg n name s ∧
      Made cfg n name (tracking env (cloneOp cfg n origin name readonly) s).2 ∧
      line cfg n name (tracking env (cloneOp cfg n origin name readonly) s).2 =
        origin :: line cfg n origin s := by
  obtain ⟨there, free, made⟩ := exec_snapshot _ _ _ _ _ _ done
  refine ⟨there, free, ?_, ?_⟩
  · change ((exec env (.host n _) s.1).2.hosts n).HasLv _
    rw [hosts_exec, if_pos rfl]
    exact made
  · have answer : (exec env
        (.host n (.lvm (.snapshot ((cfg n).lvm.vgFor n) origin name readonly))) s.1).1 =
      .ok () :=
      done
    change note (.host n _) (exec env (.host n _) s.1).1 s.2 n _ = _
    rw [answer, note, Function.update_self, descend, lvKey, Function.update_self]
    rfl

theorem removed_gone {vg : Str}
    (done : (exec env (.host n (.lvm (.remove vg name))) s.1).1 = .ok ())
      (same : vg = (cfg n).lvm.vgFor n) :
    ¬ Made cfg n name (tracking env (.host n (.lvm (.remove vg name))) s).2 := by
  subst same
  change ¬ ((exec env _ s.1).2.hosts n).HasLv _
  rw [hosts_exec, if_pos rfl]
  exact exec_remove_gone _ _ _ _ done

/-- To remove a volume does no harm to what is said of it. -/
theorem sound_remove {n' : Id} {vg name' : Str} (sound : Sound cfg n name s) :
    Sound cfg n name (tracking env (.host n' (.lvm (.remove vg name'))) s).2 := by
  by_cases moves : Moves n (lvKey cfg n name) (.host n' (.lvm (.remove vg name')))
  · obtain ⟨rfl, same⟩ := moves
    obtain ⟨group, rfl⟩ := Prod.mk.inj same
    cases done : (exec env (.host n' (.lvm (.remove vg name'))) s.1).1 with
    | error e => exact sound.unmoved (unmoved_of_error done)
    | ok _ => exact fun made => absurd made (removed_gone done group)
  · exact sound.unmoved (unmoved_of_spares moves)

end Steps

/-! ## The invariant -/

/-- The default image and the root disks come from the base image, where they are; the images of
root disks, but for the ones that are about to go, are there, and do too. -/
structure RootedBut (cfg : Id → NodeConfig) (going : SnapshotRow → Prop) (s : World × Lineages) :
    Prop where
  golden : ∀ n, Sound cfg n GOLD_DEFAULT s
  rootfs : ∀ n vmId, Sound cfg n (Names.rootfs vmId) s
  named : ∀ r ∈ s.1.db .snapshots, r.lvName = lvOf r.role r.id
  images : ∀ r ∈ s.1.db .snapshots, ¬ going r → r.disk = .root →
    Made cfg r.nodeId r.lvName s ∧ FromBase (line cfg r.nodeId r.lvName s)

abbrev Rooted (cfg : Id → NodeConfig) : World × Lineages → Prop := RootedBut cfg fun _ => False

theorem RootedBut.descended {cfg : Id → NodeConfig} {s : World × Lineages} (h : Rooted cfg s) :
    Descended cfg s where
  images r there root := by
    obtain ⟨made, base⟩ := h.images r there not_false root
    exact ⟨made, base, base.no_data⟩
  disks n vmId made := by
    have base := h.rootfs n vmId made
    exact ⟨base, base.no_data⟩

theorem Bootstrapped.rooted {cfg : Id → NodeConfig} {s : World × Lineages}
    (h : Bootstrapped cfg s) :
    Rooted cfg s where
  golden n made := by
    rw [h.golden n made]
    exact ⟨[], rfl, fun _ there => absurd there List.not_mem_nil⟩
  rootfs n vmId made := absurd made (h.disks n vmId)
  named r there := absurd there (h.images r)
  images r there := absurd there (h.images r)

/-- Commands that make data volumes, clone root disks from the origins allowed on the node, and
remove either. -/
def TameCmd (origins : Id → Str → Prop) (n : Id) : Cmd → Prop
  | .lvm (.createThin _ _ name _) => DataName name
  | .lvm (.snapshot _ origin name _) => DataName name ∨ Names.ROOTFS <+: name ∧ origins n origin
  | .lvm (.remove _ name) => DataName name ∨ Names.ROOTFS <+: name
  | _ => True

/-- Operations other than the four on snapshots and images. -/
structure Tame (origins : Id → Str → Prop) (o : Op) : Prop where
  host : o.OnHosts (TameCmd origins)
  rows : ¬ o.writes .snapshots

/-- A state from which root disks may be cloned from the origins. -/
structure Fit (cfg : Id → NodeConfig) (origins : Id → Str → Prop) (s : World × Lineages) :
    Prop where
  rooted : Rooted cfg s
  sound : ∀ n origin, origins n origin → ImageName origin ∧ Sound cfg n origin s

section Invariant

variable {env : Env} {cfg : Id → NodeConfig} {origins : Id → Str →
  Prop} {n : Id} {s : World × Lineages}
  {o : Op}

theorem RootedBut.fit (rooted : Rooted cfg s) : Fit cfg byDefault s := by
  refine ⟨rooted, fun n origin default_ => ?_⟩
  rw [default_]
  exact ⟨image_default, rooted.golden n⟩

theorem tame_sound {name : Str} (fit : Fit cfg origins s) (tame : Tame origins o)
    (image : ImageName name)
    (sound : Sound cfg n name s) : Sound cfg n name (tracking env o s).2 := by
  by_cases moves : Moves n (lvKey cfg n name) o
  · obtain ⟨c, rfl, changes⟩ := moves.command
    have allowed := tame.host
    rcases Cmd.moves_cases changes with ⟨pool, sizeMb, rfl⟩ | ⟨origin, readonly, rfl⟩ | rfl
    · exact absurd allowed (not_data_of_image image)
    · rcases allowed with data | ⟨-, known⟩
      · exact absurd data (not_data_of_image image)
      · cases done : (exec env (cloneOp cfg n origin name readonly) s.1).1 with
        | error e => exact sound.unmoved (unmoved_of_error done)
        | ok _ =>
          obtain ⟨there, -, -, cloned⟩ := clone_made done
          obtain ⟨image', sound'⟩ := fit.sound _ _ known
          intro _
          change FromBase (line cfg n name (tracking env (cloneOp cfg n origin name readonly) s).2)
          rw [cloned]
          exact (sound' there).cons image'
    · exact sound_remove sound
  · exact sound.unmoved (unmoved_of_spares moves)

theorem tame_spares (tame : Tame origins o) (role : Role) (id : Id) :
    ¬ Moves n (lvKey cfg n (lvOf role id)) o := by
  intro moves
  have data : ¬ DataName (lvOf role id) := not_data_of_image (image_lvOf role id)
  have root : ¬ Names.ROOTFS <+: lvOf role id := lvOf_not_rootfs role id
  obtain ⟨c, rfl, changes⟩ := moves.command
  have allowed := tame.host
  rcases Cmd.moves_cases changes with ⟨pool, sizeMb, rfl⟩ | ⟨origin, readonly, rfl⟩ | rfl
  · exact data allowed
  · exact allowed.elim data fun h => root h.1
  · exact allowed.elim data root

/-- A tame operation keeps the invariant. -/
theorem Fit.tame (fit : Fit cfg origins s) (tame : Tame origins o) : Fit cfg origins
    (tracking env o s).2 := by
  have rows : (tracking env o s).2.1.db .snapshots = s.1.db .snapshots :=
    exec_frame env s.1 .snapshots o
    tame.rows
  refine ⟨⟨fun n => ?_, fun n vmId => ?_, ?_, ?_⟩, fun n origin known => ?_⟩
  · exact tame_sound fit tame image_default (fit.rooted.golden n)
  · exact tame_sound fit tame (image_rootfs vmId) (fit.rooted.rootfs n vmId)
  · rw [rows]
    exact fit.rooted.named
  · rw [rows]
    intro r there stays root
    have same : Unmoved cfg r.nodeId (lvOf r.role r.id) s (tracking env o s).2 :=
      unmoved_of_spares (tame_spares tame r.role r.id)
    rw [← fit.rooted.named r there] at same
    rw [same.made, same.line]
    exact fit.rooted.images r there stays root
  · obtain ⟨image, sound⟩ := fit.sound n origin known
    exact ⟨image, tame_sound fit tame image sound⟩

/-! ### Images -/

/-- The volume of an image: if it is a root disk's, it is there and comes from the base image. -/
def ImageOf (cfg : Id → NodeConfig) (n : Id) (name : Str) (disk : Disk) (s : World × Lineages) :
    Prop :=
  disk = .root → Made cfg n name s ∧ FromBase (line cfg n name s)

theorem RootedBut.host_error {c : Cmd} {e : Exn} (rooted : Rooted cfg s)
    (raised : (exec env (.host n c) s.1).1 = .error e) :
    Rooted cfg (tracking env (.host n c) s).2 := by
  have same (n' : Id) (name : Str) : Unmoved cfg n' name s (tracking env (.host n c) s).2 :=
    unmoved_of_error raised
  refine ⟨fun n' => (rooted.golden n').unmoved (same ..),
    fun n' vmId => (rooted.rootfs n' vmId).unmoved
    (same ..),
    rooted.named, fun r there stays root => ?_⟩
  rw [(same ..).made, (same ..).line]
  exact rooted.images r there stays root

/-- A snapshot or a promotion makes a volume of its own. -/
theorem RootedBut.clone (rooted : Rooted cfg s) {role : Role} {id : Id}
    (custom : id ≠ "default".toList) (origin : Str) (readonly : Bool) :
    Rooted cfg (tracking env (cloneOp cfg n origin (lvOf role id) readonly) s).2 := by
  cases done : (exec env (cloneOp cfg n origin (lvOf role id) readonly) s.1).1 with
  | error e => exact rooted.host_error done
  | ok _ =>
    have free := (clone_made done).2.1
    have same (n' : Id) (name : Str) (other : n' = n → lvOf role id ≠ name) : Unmoved cfg n' name s
        (tracking env (cloneOp cfg n origin (lvOf role id) readonly) s).2 := by
      refine unmoved_of_spares ?_
      rintro ⟨rfl, changes⟩
      exact other rfl (Prod.mk.inj changes).2
    refine ⟨fun n' => (rooted.golden n').unmoved (same n' _ fun _ => lvOf_ne_default custom),
      fun n' vmId => (rooted.rootfs n' vmId).unmoved (same n' _ fun _ clash => ?_), rooted.named,
      fun r there stays root => ?_⟩
    · exact lvOf_not_rootfs role id (clash ▸ List.prefix_append ..)
    · -- the new volume is not one that was there
      have before := rooted.images r there stays root
      have unmoved := same r.nodeId r.lvName fun here clash => free (clash ▸ here ▸ before.1)
      rw [unmoved.made, unmoved.line]
      exact before

theorem imageOf_clone {name origin : Str} {disk : Disk} {readonly : Bool}
    (source : disk = .root → ImageName origin ∧ Sound cfg n origin s)
    (done : (exec env (cloneOp cfg n origin name readonly) s.1).1 = .ok ()) :
    ImageOf cfg n name disk (tracking env (cloneOp cfg n origin name readonly) s).2 := by
  intro root
  obtain ⟨image, sound⟩ := source root
  obtain ⟨there, -, made, cloned⟩ := clone_made done
  refine ⟨made, ?_⟩
  rw [cloned]
  exact (sound there).cons image

theorem RootedBut.insert (rooted : Rooted cfg s) (row : SnapshotRow)
    (named : row.lvName = lvOf row.role row.id)
    (image : ImageOf cfg row.nodeId row.lvName row.disk s) :
    Rooted cfg (tracking env (.insert .snapshots row) s).2 := by
  have hosts : (exec env (.insert .snapshots row) s.1).2.hosts = s.1.hosts :=
    hosts_offHost env s.1 (o := .insert .snapshots row) trivial
  have same (n : Id) (name : Str) : Unmoved cfg n name s
      (tracking env (.insert .snapshots row) s).2 :=
    unmoved_of_spares not_false
  refine ⟨fun n => (rooted.golden n).unmoved (same ..), fun n vmId => (rooted.rootfs n vmId).unmoved
    (same ..),
    fun r there => ?_, fun r there stays root => ?_⟩
  · rcases insert_came there with old | rfl
    · exact rooted.named r old
    · exact named
  · rw [(same ..).made, (same ..).line]
    rcases insert_came there with old | rfl
    · exact rooted.images r old stays root
    · exact image root

/-- A volume may go if the rows that have it are about to. -/
theorem RootedBut.remove (rooted : Rooted cfg s) {vg name : Str} (going : SnapshotRow → Prop)
    (spares : ∀ r ∈ s.1.db .snapshots, r.nodeId = n → r.lvName = name → going r) :
    RootedBut cfg going (tracking env (.host n (.lvm (.remove vg name))) s).2 := by
  refine ⟨fun n' => sound_remove (rooted.golden n'),
    fun n' vmId => sound_remove (rooted.rootfs n' vmId),
    rooted.named, fun r there stays root => ?_⟩
  have same : Unmoved cfg r.nodeId r.lvName s
      (tracking env (.host n (.lvm (.remove vg name))) s).2 := by
    refine unmoved_of_spares ?_
    rintro ⟨here, changes⟩
    exact stays (spares r there here.symm (Prod.mk.inj changes).2.symm)
  rw [same.made, same.line]
  exact rooted.images r there not_false root

theorem RootedBut.delete {p : SnapshotRow → Bool} (rooted : RootedBut cfg (fun r => p r = true) s) :
    Rooted cfg (tracking env (.delete .snapshots p) s).2 := by
  have rows : ∀ r, r ∈ (tracking env (.delete .snapshots p) s).2.1.db .snapshots ↔
      r ∈ s.1.db .snapshots ∧ p r = false := by
    intro r
    change r ∈ (exec env (.delete .snapshots p) s.1).2.db .snapshots ↔ _
    rw [exec_delete, tick_db, setTable_self, Table.mem_delete]
  refine ⟨rooted.golden, rooted.rootfs, fun r there => ?_, fun r there _ root => ?_⟩
  · exact rooted.named r ((rows r).mp there).1
  · obtain ⟨before, stays⟩ := (rows r).mp there
    exact rooted.images r before (by rw [stays]; exact Bool.false_ne_true) root

end Invariant

/-! ## Tame programs -/

/-- What a program runs on the hosts is tame. -/
abbrev TameHosts (origins : Id → Str → Prop) {α : Type} (p : Py α) : Prop :=
  Only (Op.OnHosts (TameCmd origins)) p

theorem tameHosts {origins : Id → Str → Prop} {α : Type} {p : Py α}
    (within : Within (TameCmd origins) p) : TameHosts origins p :=
  within.mono fun _ within => within.onHosts

theorem off {origins : Id → Str → Prop} {α : Type} {p : Py α} (off : Aside p) :
    TameHosts origins p :=
  off.hosts

section Hosts

variable {origins : Id → Str → Prop} {n : Id} (self : Node)

theorem tame_grants : Grants origins (TameCmd origins) := by
  constructor
  · intro n c sparing
    cases c with
    | lvm c => cases sparing
    | _ => trivial
  · intro _ _ _
    trivial
  · intro _ _ _ vmId known
    exact .inr ⟨List.prefix_append .., known⟩
  · intro _ _ _ root
    exact .inr root

theorem remove_tame (vg name : Str) (data : DataName name) :
    Only (TameCmd origins n) (Lv.remove vg name) :=
  (Lv.remove_only vg name).mono fun c h => by
    cases h with
    | lvs lister => trivial
    | remove => exact .inl data

theorem data_name (volId : Id) : DataName (Names.data volId) := List.prefix_append ..

theorem create_tame (vg pool : Str) (volId : Id) (sizeMb : Int) :
    Only (TameCmd origins n) (Create.run vg pool (Names.data volId) sizeMb) := by
  apply Only.bind (.bind (.lvm (data_name volId)) fun _ => .pure _)
  intro _
  exact .bind (.lvm trivial) fun _ => .pure _

theorem fromSnapshot_tame (vg origin : Str) (volId : Id) :
    Only (TameCmd origins n) (Create.fromSnapshot vg origin (Names.data volId)) :=
  .bind (.lvm (.inl (data_name volId))) fun _ => .pure _

theorem extend_tame (vg name : Str) (sizeMb : Int) :
    Only (TameCmd origins n) (Lv.extend vg name sizeMb) :=
  .bind (.lvm trivial) fun _ => .lvm trivial

theorem autoVolume_hosts (body : SpawnIn) (nodeId : Id) : TameHosts origins
    (Vms.autoVolume self body nodeId) := by
  apply Only.bind (.uuid4 trivial)
  intro id
  refine .bind (.ite (fun _ => ?_) fun _ => ?_) fun _ => ?_
  · apply Only.bind (off (Aside.imageOr400 _))
    intro img
    apply Only.bind (off (Aside.refuseIf ..))
    intro _
    exact .bind (.sh self (fromSnapshot_tame ..)) fun _ => .pure _
  · exact .bind (.sh self (create_tame ..)) fun _ => .pure _
  · exact .bind (.now trivial) fun _ => .bind (.insert trivial) fun _ => .pure _

theorem createVolume_hosts (body : VolumeIn) (nodeId : Id) :
    TameHosts origins (Volumes.createLocal self body nodeId) := by
  apply Only.bind (.uuid4 trivial)
  intro id
  refine .bind (.ite (fun _ => ?_) fun _ => ?_) fun _ => ?_
  · apply Only.bind (.get trivial)
    intro snap
    apply Only.bind (off (Aside.orHttp ..))
    intro snap
    exact .bind (.sh self (fromSnapshot_tame ..)) fun _ => .pure _
  · exact .bind (.sh self (create_tame ..)) fun _ => .pure _
  · exact .bind (.now trivial) fun _ => .bind (.insert trivial) fun _ => .pure _

theorem deleteVolume_hosts (row : VolumeRow) :
    TameHosts origins (Volumes.deleteLocal self row) := by
  apply Only.bind (.get trivial)
  intro row
  apply Only.bind (off (Aside.refuseIf ..))
  intro _
  apply Only.bind (.sh self (remove_tame _ _ (data_name _)))
  intro _
  exact .bind (.delete trivial) fun _ => .pure _

theorem volumesPass_hosts : TameHosts origins (VolumesPass.reconcile self) := by
  apply Only.bind (.getAll trivial)
  intro rows
  apply Only.bind (.sh self (Lv.listLvs_only _ _ trivial))
  intro names
  refine .bind (.forEach _ fun name there => .sh self (remove_tame _ _ ?_)) fun _ => .pure _
  -- the pass looks at names with the prefix of the data volumes
  have kept := ((self.cfg.sets.mem_diff _ _ name).mp there).1
  exact List.isPrefixOf_iff_prefix.mp (List.mem_filter.mp kept).2

end Hosts

/-! ## Tame requests -/

/-- The requests that make no image, remove none, and clone none to a root disk. -/
def Usual : Request → Prop
  | .createSnapshot _ | .deleteSnapshot _ | .createImage _ | .deleteImage _ | .spawnVm _ _
  | .createProxy _ | .reconcileNow => False
  | _ => True

theorem serveHere_hosts (self : Node) (req : Request) (found : Api.Found req) (usual : Usual req) :
    TameHosts byDefault (Api.serveHere self req found) := by
  by_cases plain : Plain req
  · exact tameHosts (tame_grants.serveHere self req found plain)
  cases req with
  | createVolume body => exact createVolume_hosts self body _
  | resizeVolume volumeId body =>
    exact .bind (.sh self (extend_tame ..)) fun _ => .bind (.update trivial) fun _ => .pure _
  | deleteVolume volumeId => exact deleteVolume_hosts self _
  | createSnapshot | deleteSnapshot | createImage | deleteImage | spawnVm | createProxy
  | reconcileNow => cases usual
  | _ => exact absurd trivial plain

theorem tame_of {origins : Id → Str → Prop} (ts ds : List Tbl) {α : Type} {p : Py α}
    (touch : Only (Touch ts ds) p)
    (new : .snapshots ∉ ts) (old : .snapshots ∉ ds) (hosts : TameHosts origins p) :
    Only (Tame origins) p :=
  (touch.and hosts).mono fun _ ok => ⟨ok.2, ok.1.spares (by decide) new old⟩

/-- The lookups of an endpoint, the default VPC among them. -/
theorem lookUp_tame {origins : Id → Str → Prop} (self : Node) (req : Request) :
    Only (Tame origins) (Api.lookUp self req) :=
  tame_of [.vpcs, .publicIps] [] (Api.lookUp_touch self req fun _ there _ => there) (by decide)
    List.not_mem_nil (off (.lookUp self req))

theorem serveHere_tame (self : Node) (req : Request) (found : Api.Found req) (usual : Usual req) :
    Only (Tame byDefault) (Api.serveHere self req found) := by
  refine tame_of _ _ (Api.serveHere_touch self req found .refl) ?_ ?_
    (serveHere_hosts self req found usual)
  · cases req <;> first | exact False.elim usual | simp [Request.writes]
  · cases req <;> first | exact False.elim usual | simp [Request.deletes]

/-! ## Programs that make or remove images -/

section Programs

variable {env : Env} {cfg : Id → NodeConfig} {origins : Id → Str → Prop} {s : World × Lineages}

/-- One operation after the other, with the lineages. -/
abbrev watching (env : Env) : OpSpec Op Op.Res Exn (World × Lineages → Prop) :=
  checked (tracking env) fun _ _ => True

theorem fit_then {α β : Type} {p : Py α} (tame : Only (Tame origins) p) {f : α → Py β}
    {Q : Except Exn β → World × Lineages → Prop} (fit : Fit cfg origins s)
    (fails : ∀ e s', Rooted cfg s' → Q (.error e) s')
    (rest : ∀ a s', Fit cfg origins s' → wp (watching env) (f a) Q s') :
    wp (watching env) (p >>= f) Q s :=
  checked_keeps_then (tracking env) _ (Fit cfg origins) (fun _ _ _ _ => trivial)
    (fun _ _ tame fit => fit.tame tame) tame fit (fun e s' fit => fails e s' fit.rooted) rest

theorem fit_keeps {α : Type} {p : Py α} (tame : Only (Tame origins) p) (fit : Fit cfg origins s) :
    wp (watching env) p (fun _ s' => Rooted cfg s') s := by
  have kept := checked_keeps (tracking env) (fun _ _ => True) (Fit cfg origins)
    (fun _ _ _ _ => trivial) (fun _ _ tame fit => fit.tame tame) tame fit
  exact checked_mono (tracking env) _ _ _ _ (fun _ _ fit => fit.rooted) s kept

/-- A part that leaves the images alone, before one that does not. -/
theorem rooted_then {α β : Type} {p : Py α} (ts ds : List Tbl) (touch : Only (Touch ts ds) p)
    (new : .snapshots ∉ ts) (old : .snapshots ∉ ds) (hosts : TameHosts byDefault p) {f : α → Py β}
    {Q : Except Exn β → World × Lineages → Prop} (rooted : Rooted cfg s)
    (fails : ∀ e s', Rooted cfg s' → Q (.error e) s')
    (rest : ∀ a s', Rooted cfg s' → wp (watching env) (f a) Q s') :
    wp (watching env) (p >>= f) Q s :=
  fit_then (tame_of ts ds touch new old hosts) rooted.fit fails fun a s' fit => rest a s' fit.rooted

theorem get_then {β : Type} {t : Tbl} {p : t.Row → Bool} {f : Option t.Row → Py β}
    {Q : Except Exn β → World × Lineages → Prop} (rooted : Rooted cfg s)
    (rest : Rooted cfg (s.1.tick, s.2) →
      wp (watching env) (f ((s.1.db t).get p)) Q (s.1.tick, s.2)) :
    wp (watching env) (get t p >>= f) Q s := by
  rw [wp_bind, get, wp_perform]
  exact ⟨trivial, rest ⟨rooted.golden, rooted.rootfs, rooted.named, rooted.images⟩⟩

theorem RootedBut.tick (rooted : Rooted cfg s) : Rooted cfg (s.1.tick, s.2) :=
  ⟨rooted.golden, rooted.rootfs, rooted.named, rooted.images⟩

/-- A lookup that answers with an HTTP error where there is no row. -/
theorem lookup_then {β : Type} {t : Tbl} {p : t.Row → Bool} {code : Nat} {detail : Str}
    {f : t.Row → Py β} {Q : Except Exn β → World × Lineages → Prop} (rooted : Rooted cfg s)
    (fails : ∀ e s', Rooted cfg s' → Q (.error e) s')
    (rest : ∀ row ∈ s.1.db t, p row = true → Rooted cfg (s.1.tick, s.2) →
      wp (watching env) (f row) Q (s.1.tick, s.2)) :
    wp (watching env) (get t p >>= fun x => orHttp x code detail >>= f) Q s := by
  refine get_then rooted fun rooted => ?_
  rw [wp_bind, wp_orHttp]
  cases found : (s.1.db t).get p with
  | none => exact fails _ _ rooted
  | some row =>
    obtain ⟨there, meets⟩ := Table.get_some found
    exact rest row there meets rooted

/-! ### Snapshots and promotions -/

theorem clone_then {β : Type} (self : Node) (vg origin : Str) (role : Role) (id : Id) (disk : Disk)
    {f : Path → Py β} {Q : Except Exn β → World × Lineages → Prop} (rooted : Rooted cfg s)
    (group : vg = (cfg self.id).lvm.vgFor self.id) (custom : id ≠ "default".toList)
    (source : disk = .root → ImageName origin ∧ Sound cfg self.id origin s)
    (fails : ∀ e s', Rooted cfg s' → Q (.error e) s')
    (rest : ∀ dev s', Rooted cfg s' → ImageOf cfg self.id (lvOf role id) disk s' → wp (watching env)
      (f dev) Q s') :
    wp (watching env) (self.sh (Lv.snapshot vg origin (lvOf role id)) >>= f) Q s := by
  subst group
  rw [wp_bind, wp_sh, Lv.snapshot, wp_bind, lvm, wp_perform]
  have after : Rooted cfg (tracking env (cloneOp cfg self.id origin (lvOf role id) true) s).2 :=
    rooted.clone custom origin true
  refine ⟨trivial, ?_⟩
  generalize done : (tracking env (.host self.id
    (.lvm (.snapshot ((cfg self.id).lvm.vgFor self.id) origin
    (lvOf role id) true))) s).1 = answer
  cases answer with
  | error e => exact fails e _ after
  | ok a => exact rest _ _ after (imageOf_clone source done)

/-- The row of an image that has been made. -/
theorem record_rooted (row : Timestamp → SnapshotRow) (rooted : Rooted cfg s)
    (named : ∀ time, (row time).lvName = lvOf (row time).role (row time).id)
    (image : ∀ time, ImageOf cfg (row time).nodeId (row time).lvName (row time).disk s) :
    wp (watching env) (do
      let time ← now
      insert .snapshots (row time)
      return Response.snapshot (row time)) (fun _ s' => Rooted cfg s') s := by
  have ticked : Rooted cfg (s.1.tick, s.2) := rooted.tick
  rw [wp_bind, now, wp_perform]
  refine ⟨trivial, ?_⟩
  change wp (watching env) (insert .snapshots (row (env.now s.1.clock)) >>= _) _ (s.1.tick, s.2)
  rw [wp_bind, Nyc.insert, wp_perform]
  refine ⟨trivial, ?_⟩
  have after : Rooted cfg (tracking env (.insert .snapshots (row (env.now s.1.clock)))
      (s.1.tick, s.2)).2 :=
    ticked.insert (row (env.now s.1.clock)) (named _) (image _)
  generalize (tracking env (.insert .snapshots (row (env.now s.1.clock)))
    (s.1.tick, s.2)).1 = answer
  cases answer <;> exact after

theorem createSnapshotLocal_rooted (ids : ∀ k, env.uuid k ≠ "default".toList) (self : Node)
    (own : self.cfg = cfg self.id) (body : SnapshotIn) (src : Snapshots.Source)
      (here : src.nodeId = self.id)
    (source : src.disk = .root → ImageName src.sourceLv ∧ Sound cfg self.id src.sourceLv s)
    (rooted : Rooted cfg s) :
    wp (watching env) (Snapshots.createSnapshotLocal self body src)
      (fun _ s' => Rooted cfg s') s := by
  have ticked : Rooted cfg (s.1.tick, s.2) := rooted.tick
  rw [Snapshots.createSnapshotLocal, wp_bind, uuid4, wp_perform]
  refine ⟨trivial, ?_⟩
  refine clone_then self _ src.sourceLv .snapshot (env.uuid s.1.clock) src.disk ticked
    ?_ (ids _) source
    (fun _ _ h => h) fun dev s' rooted image => ?_
  · rw [here, Node.volumeVg, own]
  · exact record_rooted (fun time => ⟨env.uuid s.1.clock, src.nodeId, body.name,
      .snapshot, src.disk,
      some src.parent, Names.snap (env.uuid s.1.clock), src.sizeMb, time⟩) rooted (fun _ => rfl)
      fun _ => here ▸ image

theorem createImageLocal_rooted (ids : ∀ k, env.uuid k ≠ "default".toList) (self : Node)
    (own : self.cfg = cfg self.id) (body : ImageIn) (snap : SnapshotRow)
    (source : snap.disk = .root → Sound cfg self.id (Names.snap snap.id) s)
    (rooted : Rooted cfg s) :
    wp (watching env) (Snapshots.createImageLocal self body snap self.id)
      (fun _ s' => Rooted cfg s') s := by
  have ticked : Rooted cfg (s.1.tick, s.2) := rooted.tick
  rw [Snapshots.createImageLocal, wp_bind, uuid4, wp_perform]
  refine ⟨trivial, ?_⟩
  refine clone_then self _ (Names.snap snap.id) .golden
    (env.uuid s.1.clock) snap.disk ticked ?_ (ids _)
    (fun root => ⟨image_lvOf .snapshot snap.id, source root⟩) (fun _ _ h => h)
      fun dev s' rooted image => ?_
  · rw [Node.volumeVg, own]
  · exact record_rooted (fun time => ⟨env.uuid s.1.clock, self.id, body.name, .golden, snap.disk,
      some snap.id, Names.gold (env.uuid s.1.clock), snap.sizeMb, time⟩) rooted (fun _ => rfl)
        fun _ => image

/-! ### Removals -/

/-- The commands of one host, with the lineages. -/
def trackOn (env : Env) (n : Id) (c : Cmd) (s : World × Lineages) :
    Except Exn c.Res × (World × Lineages) :=
  tracking env (.host n c) s

theorem RootedBut.lvs (rooted : Rooted cfg s) (n : Id) (lister : Lister) (vg : Str) :
    Rooted cfg (tracking env (.host n (.lvm (.lvs lister vg))) s).2 := by
  have tame : Tame byDefault (.host n (.lvm (.lvs lister vg))) := ⟨trivial, not_false⟩
  exact (rooted.fit.tame tame).rooted

theorem RootedBut.but (rooted : Rooted cfg s) (going : SnapshotRow → Prop) :
    RootedBut cfg going s :=
  ⟨rooted.golden, rooted.rootfs, rooted.named,
    fun r there _ root => rooted.images r there not_false root⟩

theorem removeLv_then {β : Type} (self : Node) (vg name : Str) (going : SnapshotRow → Prop)
    {f : Unit → Py β} {Q : Except Exn β → World × Lineages → Prop} (rooted : Rooted cfg s)
    (spares : ∀ r ∈ s.1.db .snapshots, r.nodeId = self.id → r.lvName = name → going r)
    (fails : ∀ e s', Rooted cfg s' → Q (.error e) s')
    (rest : ∀ s', RootedBut cfg going s' → wp (watching env) (f ()) Q s') :
    wp (watching env) (self.sh (Lv.remove vg name) >>= f) Q s := by
  rw [wp_bind, wp_sh, Lv.remove]
  have lists : Only (fun c => c = .lvm (.lvs .exists_ vg)) (Lv.listLvs .exists_ vg) :=
    Lv.listLvs_only _ _ rfl
  have looks : Only (fun c => c = .lvm (.lvs .exists_ vg)) (Lv.exists_ vg name) := lists.bind
    fun _ => .pure _
  -- the listing changes no table and no volume
  refine checked_keeps_then (trackOn env self.id) _ (fun s' => Rooted cfg s' ∧ s'.1.db = s.1.db)
    (fun _ _ _ _ => trivial) ?_ looks ⟨rooted, rfl⟩ (fun e s' h => fails e s' h.1) ?_
  · rintro _ s' rfl ⟨rooted, same⟩
    exact ⟨rooted.lvs self.id .exists_ vg, same⟩
  -- the removal may take the volumes of `going` only
  · rintro there s' ⟨rooted, same⟩
    rw [wp_ite]
    split
    · rw [lvm, wp_perform]
      refine ⟨trivial, ?_⟩
      generalize done : (trackOn env self.id (.lvm (.remove vg name)) s').1 = answer
      cases answer with
      | error e => exact fails e _ (rooted.host_error done)
      | ok a =>
        refine rest _ (rooted.remove going ?_)
        rw [same]
        exact spares
    · exact rest s' (rooted.but going)

theorem delete_rooted (self : Node) (row : SnapshotRow) (named : row.lvName = lvOf row.role row.id)
    (rooted : Rooted cfg s) :
    wp (watching env) (do
      self.sh (SnapAction.remove (self.volumeVg row.nodeId) row.lvName)
      let _ ← delete .snapshots fun r => r.id = row.id
      return Response.empty) (fun _ s' => Rooted cfg s') s := by
  refine removeLv_then self _ _ (fun r => decide (r.id = row.id) = true) rooted
    (fun r there _ same => ?_)
    (fun _ _ h => h) fun s' rooted => ?_
  · -- the names tell the rows apart
    rw [rooted.named r there, named] at same
    exact decide_eq_true (lvOf_inj same)
  · rw [wp_bind, Nyc.delete, wp_perform]
    exact ⟨trivial, rooted.delete⟩

/-- The pass removes no volume that a row of the node has. -/
theorem snapshotsPass_rooted (self : Node) (rooted : Rooted cfg s) :
    wp (watching env) (SnapshotsPass.reconcile self) (fun _ s' => Rooted cfg s') s := by
  rw [SnapshotsPass.reconcile, wp_bind, getAll, wp_perform]
  refine ⟨trivial, ?_⟩
  have lists : Only (fun o => o = .host self.id
      (.lvm (.lvs .snapshotsPass (self.volumeVg self.id))))
      (self.sh (Lv.listLvs .snapshotsPass (self.volumeVg self.id))) := .sh self
        (Lv.listLvs_only _ _ rfl)
  -- the listing
  refine checked_keeps_then (tracking env) _ (fun s' => Rooted cfg s' ∧ s'.1.db = s.1.db)
    (fun _ _ _ _ => trivial) ?_ lists ⟨rooted.tick, rfl⟩ (fun e s' h => h.1) ?_
  · rintro _ s' rfl ⟨rooted, same⟩
    exact ⟨rooted.lvs self.id .snapshotsPass _, same⟩
  -- an orphan has no row, so no row loses its volume
  · rintro names s' holds
    set orphans := self.cfg.sets.diff _ _ with expected
    have removes : Only (fun o => o = .host self.id (.lvm (.lvs .exists_ (self.volumeVg self.id))) ∨
        ∃ name ∈ orphans, o = .host self.id (.lvm (.remove (self.volumeVg self.id) name)))
        (self.forEach (SnapAction.remove (self.volumeVg self.id)) orphans) := by
      refine .forEach _ fun name there => .sh self ?_
      refine .bind (.bind (Lv.listLvs_only _ _ (.inl rfl)) fun _ => .pure _) fun _ =>
        .ite (fun _ => ?_)
        fun _ => .pure _
      exact .lvm (.inr ⟨name, there, rfl⟩)
    refine checked_keeps_then (tracking env) _ (fun s' => Rooted cfg s' ∧ s'.1.db = s.1.db)
      (fun _ _ _ _ => trivial) ?_ removes holds (fun e s' h => h.1) fun _ s' h => h.1
    rintro _ s' (rfl | ⟨name, there, rfl⟩) ⟨rooted, same⟩
    · exact ⟨rooted.lvs self.id .exists_ _, same⟩
    · refine ⟨rooted.remove _ fun r before here lv => ?_, same⟩
      have orphan := ((self.cfg.sets.mem_diff _ _ name).mp (expected ▸ there)).2
      refine orphan (List.mem_cons_of_mem _ (List.mem_map.mpr ⟨r, ?_, lv⟩))
      rw [same] at before
      exact Table.mem_getAll.mpr ⟨before, decide_eq_true here⟩

/-! ### Spawns -/

/-- A root image is a golden image of a root disk, on the node; without one it is the default. -/
theorem resolveRootImage_then {β : Type} (body : SpawnIn) (nodeId : Id) {f : Str → Py β}
    {Q : Except Exn β → World × Lineages → Prop} (rooted : Rooted cfg s)
    (fails : ∀ e s', Rooted cfg s' → Q (.error e) s')
    (rest : ∀ origin s', Fit cfg (fun n o => n = nodeId ∧ o = origin) s' → wp (watching env)
      (f origin) Q s') :
    wp (watching env) (Vms.resolveRootImage body nodeId >>= f) Q s := by
  refine checked_bind (tracking env) _ (fun origin => Fit cfg fun n o => n = nodeId ∧ o = origin) ?_
    fun origin s' => rest origin s'
  rw [Vms.resolveRootImage, wp_ite]
  split
  · simp only [Vms.imageOr400, LawfulMonad.bind_assoc]
    refine lookup_then rooted fails fun img there _ rooted => ?_
    -- an image that is named: the row and its volume are those of one node
    have named := rooted.named img there
    rw [wp_bind, refuseIf, wp_whenTrue]
    split
    · exact fails _ _ rooted
    next root =>
      rw [onValue_ok, wp_bind, Vms.sameNodeOr409, refuseIf, wp_whenTrue]
      split
      · exact fails _ _ rooted
      next here =>
        have root : img.disk = .root := by simpa using root
        have here : img.nodeId = nodeId := by simpa using here
        refine ⟨rooted, ?_⟩
        rintro _ _ ⟨rfl, rfl⟩
        refine ⟨named ▸ image_lvOf .., fun _ => ?_⟩
        have image := rooted.images img there not_false root
        rw [here] at image
        exact image.2
  -- no image named: the golden root of the node
  · refine ⟨rooted, ?_⟩
    rintro n _ ⟨-, rfl⟩
    exact ⟨image_default, rooted.golden n⟩

theorem spawnLocal_rooted (self : Node) (body : SpawnIn) (preBringUp : Id → Py Unit)
    (touch : ∀ id, Only (Touch [.volumes, .vms, .publicIps] []) (preBringUp id))
      (offHost : ∀ id, Aside (preBringUp id))
    (rooted : Rooted cfg s) :
    wp (watching env) (Vms.spawnLocal self body self.id preBringUp)
      (fun _ s' => Rooted cfg s') s := by
  refine rooted_then [.vpcs] [] (ensureDefaultVpc_touch List.mem_cons_self) (by decide)
    List.not_mem_nil (off .ensureDefaultVpc) rooted (fun _ _ h => h) fun vpc s' rooted => ?_
  refine resolveRootImage_then body self.id rooted (fun _ _ h => h) fun origin s' fit => ?_
  -- what is left clones one root disk, from this origin
  refine fit_keeps (tame_of [.volumes, .vms, .publicIps] [] ?_
    (by decide) List.not_mem_nil ?_) fit
  · apply Only.bind (Vms.autoVolume_touch self _ _ (by decide))
    intro vol
    apply Only.bind (Vms.usedIps_touch _)
    intro used
    apply Only.bind (.fromExcept _)
    intro ip
    apply Only.bind (.uuid4 .uuid4)
    intro id
    apply Only.bind (.now .now)
    intro time
    apply Only.bind (.insert (.insert .vms _ (by decide)))
    intro _
    apply Only.bind (touch _)
    intro _
    exact .bind (Vms.bringUp_touch self ..) fun _ => .pure _
  · apply Only.bind (autoVolume_hosts self _ _)
    intro vol
    apply Only.bind (off (.usedIps _))
    intro used
    apply Only.bind (.fromExcept _)
    intro ip
    apply Only.bind (.uuid4 trivial)
    intro id
    apply Only.bind (.now trivial)
    intro time
    apply Only.bind (.insert trivial)
    intro _
    apply Only.bind (off (offHost _))
    intro _
    exact .bind (tameHosts (tame_grants.bringUp self _ _ _ _ ⟨rfl, rfl⟩)) fun _ => .pure _

theorem createProxyLocal_rooted (self : Node) (body : ProxyIn) (vpc : VpcRow)
    (rooted : Rooted cfg s) :
    wp (watching env) (Proxy.createProxyLocal self body vpc self.id)
      (fun _ s' => Rooted cfg s') s := by
  have none_ : Tbl.snapshots ∉ ([] : List Tbl) := List.not_mem_nil
  refine rooted_then [.publicIps] [] (PublicIps.usedAddresses_touch _ (by decide))
    (by decide) none_
    (off (.usedAddresses _)) rooted (fun _ _ h => h) fun used s' rooted => ?_
  refine rooted_then [] [] (.fromExcept _) none_ none_ (.fromExcept _) rooted
    (fun _ _ h => h)
    fun entry s' rooted => ?_
  refine rooted_then [] [] (.now .now) none_ none_ (.now trivial) rooted (fun _ _ h => h)
    fun time s' rooted => ?_
  refine rooted_then [] [] (.uuid4 .uuid4) none_ none_ (.uuid4 trivial) rooted
    (fun _ _ h => h)
    fun pipId s' rooted => ?_
  -- the address, the time and the id come first, and no volume with them
  rw [wp_bind]
  refine checked_mono (tracking env) _ _ _ _ ?_ s' (spawnLocal_rooted self _ _
    (fun _ => .insert (.insert .publicIps _ (by decide))) (fun _ => .insert trivial) rooted)
  rintro (e | vm) s'' rooted
  · exact rooted
  · exact fit_keeps (tame_of [.proxies, .tasks] []
      (Proxy.record_touch _ _ _ _ _ _ (by decide)
      (by decide)) (by decide) none_ (off (.record ..))) rooted.fit

theorem passOnce_rooted (self : Node) (rooted : Rooted cfg s) :
    wp (watching env) (PassOnce.run self) (fun _ s' => Rooted cfg s') s := by
  have none_ : Tbl.snapshots ∉ ([] : List Tbl) := List.not_mem_nil
  refine rooted_then [] [.vms] (ttlPass_touch self (by decide)) none_ (by decide)
    (tameHosts (tame_grants.ttlPass self))
    rooted (fun _ _ h => h) fun ttl s' rooted => ?_
  refine rooted_then [] [.publicIps, .domains, .proxies]
    (vmsPass_touch self (by decide) (by decide)
    (by decide)) none_ (by decide) (tameHosts (tame_grants.vmsPass self)) rooted (fun _ _ h => h)
      fun vms s' rooted => ?_
  refine rooted_then [] [] (volumesPass_touch self) none_ none_
    (volumesPass_hosts self) rooted
    (fun _ _ h => h) fun volumes s' rooted => ?_
  rw [wp_bind]
  refine checked_mono (tracking env) _ _ _ _ ?_ s' (snapshotsPass_rooted self rooted)
  rintro (e | snapshots) s'' rooted
  · exact rooted
  · exact fit_keeps (tame_of [] []
      (.bind (overlayPass_touch self) fun _ => .pure _) none_ none_
      (.bind (tameHosts (tame_grants.overlayPass self)) fun _ => .pure _)) rooted.fit

/-! ### Every request -/

theorem serveHere_rooted (ids : ∀ k, env.uuid k ≠ "default".toList) (self : Node)
    (own : self.cfg = cfg self.id) (req : Request) (found : Api.Found req) (rooted : Rooted cfg s)
    (known : Api.Known s.1.db req found) (here : Api.ownerOf self req found = self.id) :
    wp (watching env) (Api.serveHere self req found) (fun _ s' => Rooted cfg s') s := by
  by_cases usual : Usual req
  · exact fit_keeps (serveHere_tame self req found usual) rooted.fit
  have removal (row : SnapshotRow) (rid : Id) (there : row ∈ s.1.db .snapshots)
      (same : row.id = rid) :
      wp (watching env) (do
        self.sh (SnapAction.remove (self.volumeVg row.nodeId) row.lvName)
        let _ ← delete .snapshots fun r => r.id = rid
        return Response.empty) (fun _ s' => Rooted cfg s') s := by
    subst same
    exact delete_rooted self row (rooted.named row there) rooted
  cases req with
  | createSnapshot body =>
    apply createSnapshotLocal_rooted ids self own body found here _ rooted
    intro root
    -- the source of a root snapshot is a root disk
    obtain ⟨vol, -, rfl⟩ | ⟨vm, -, rfl⟩ := known
    · cases root
    · exact ⟨image_rootfs vm.id, rooted.rootfs self.id vm.id⟩
  | deleteSnapshot snapshotId => exact removal found _ known.1 known.2.1
  | createImage body =>
    obtain ⟨there, -, role⟩ := known
    have here : found.nodeId = self.id := here
    apply createImageLocal_rooted ids self own body found _ rooted
    intro root _
    -- a promotion names the volume by the id of the snapshot
    have image := rooted.images found there not_false root
    rw [rooted.named found there, role, here] at image
    exact image.2
  | deleteImage imageId => exact removal found _ known.1 known.2.1
  | spawnVm body pin =>
    rw [Api.serveHere, wp_bind]
    refine checked_mono (tracking env) _ _ _ _ ?_ s
      (spawnLocal_rooted self body _ (fun _ => .pure _) (fun _ => .pure _) rooted)
    rintro (e | vm) s'' rooted <;> exact rooted
  | createProxy body => exact createProxyLocal_rooted self body found.1 rooted
  | reconcileNow =>
    rw [Api.serveHere, wp_bind]
    refine checked_mono (tracking env) _ _ _ _ ?_ s (passOnce_rooted self rooted)
    rintro (e | r) s' rooted <;> exact rooted
  | _ => exact absurd trivial usual

theorem serve_rooted (ids : ∀ k, env.uuid k ≠ "default".toList) (hops : Nat) (nodeId : Id)
    (req : Request) (rooted : Rooted cfg s) :
    wp (watching env) (Api.serve cfg hops nodeId req) (fun _ s' => Rooted cfg s') s := by
  apply Api.serve_checked (tracking env) (fun s => s.1.db .nodes) (fun _ _ => rfl) _ cfg
    (fun _ _ _ s => Rooted cfg s) _ _ _ _ _ _ hops nodeId req s rooted
  · intro _ _ _ _ _ rooted
    exact ⟨trivial, rooted.tick⟩
  · intro _ _ _ _ _ _ rooted _
    exact rooted.tick
  · intro _ _ _ _ _ rooted
    exact rooted
  · intro _ _ rooted
    exact rooted
  · intro _ nodeId forward req s rooted on
    -- what the lookups perform changes no snapshot and no volume
    have keeps (o : Op) (s : World × Lineages) (tame : Tame byDefault o) (rooted : Rooted cfg s) :
        Rooted cfg (tracking env o s).2 :=
      (rooted.fit.tame tame).rooted
    apply Api.endpoint_checked (J := Rooted cfg) (fun _ _ _ => rfl) (fun _ _ _ => rfl)
      (fun _ _ _ _ => trivial) keeps (lookUp_tame _ req) rooted (fun _ _ rooted => rooted)
    · intro found s' rooted
      exact on _ _ s' rooted
    · intro found s' rooted known here
      exact serveHere_rooted ids ⟨nodeId, cfg nodeId⟩ rfl req found rooted known here

theorem action_rooted (ids : ∀ k, env.uuid k ≠ "default".toList) (hops : Nat) (a : Action)
    (rooted : Rooted cfg s) :
    wp (watching env) (a.program cfg hops) (fun _ s' => Rooted cfg s') s := by
  have of_tame (p : Py Response) (tame : Only (Tame byDefault) p) :
      wp (watching env) p (fun _ s' => Rooted cfg s') s :=
    fit_keeps tame rooted.fit
  apply Action.rule (C := fun p => wp (watching env) p (fun _ s' => Rooted cfg s') s) cfg hops a
    of_tame
  · intro nodeId
    exact tame_of [.tasks] [] (tick_touch _ (by decide)) (by decide) List.not_mem_nil
      (tameHosts (tame_grants.tick _))
  · intro row
    exact ⟨trivial, by rintro ⟨⟩⟩
  · intro p
    exact ⟨trivial, by rintro ⟨⟩⟩
  · intro nodeId req _
    exact serve_rooted ids hops nodeId req rooted
  · intro nodeId _
    rw [wp_bind]
    refine checked_mono (tracking env) _ _ _ _ ?_ s (passOnce_rooted ⟨nodeId, cfg nodeId⟩ rooted)
    rintro (e | r) s' rooted <;> exact rooted

end Programs

/-! ## Runs -/

theorem reached_rooted (cfg : Id → NodeConfig) (env : Env) (hops : Nat)
    (ids : ∀ k, env.uuid k ≠ "default".toList)
    (start : World × Lineages) (booted : Bootstrapped cfg start) (s : World × Lineages)
    (reached : Reached (tracking env) (Action.program cfg hops)
      (fun a s => anyAction a s.1) anyEnd start s) :
    Rooted cfg s := by
  refine reached.holds (Rooted cfg) booted.rooted fun a s rooted _ => ?_
  rw [wp_sequential]
  exact fun _ => ((wp_checked _ _ _ _ _).mp (action_rooted ids hops a rooted)).2

/-- In every run the images of root disks and the root disks of VMs come from the base image,
through images and root disks only. -/
theorem root_disks_descend (cfg : Id → NodeConfig) (env : Env) (hops : Nat)
    (ids : ∀ k, env.uuid k ≠ "default".toList) (start : World × Lineages)
    (booted : Bootstrapped cfg start) (s : World × Lineages)
    (reached : Reached (tracking env) (Action.program cfg hops)
      (fun a s => anyAction a s.1) anyEnd start s) :
    Descended cfg s :=
  (reached_rooted cfg env hops ids start booted s reached).descended

/-- To keep the lineages is no limit: every run of the cluster has them. -/
theorem tracked_run (cfg : Id → NodeConfig) (env : Env) (hops : Nat)
    (ids : ∀ k, env.uuid k ≠ "default".toList) (start : World × Lineages)
    (booted : Bootstrapped cfg start)
    (w : World) (reached : Reached (exec env) (Action.program cfg hops) anyAction
      anyEnd start.1 w) :
    ∃ lines, Reached (tracking env) (Action.program cfg hops)
      (fun a s => anyAction a s.1) anyEnd start
      (w, lines) ∧
      Descended cfg (w, lines) := by
  obtain ⟨lines, tracked⟩ := Reached.recorded note start.2 reached
  exact ⟨lines, tracked, (reached_rooted cfg env hops ids start booted _ tracked).descended⟩

/-! ## A root disk of the third generation -/

/-- The node of `Sample.fresh`, whose default image comes from the base image. -/
def newCluster : World × Lineages :=
  (Sample.fresh, fun _ key => if key.2 = GOLD_DEFAULT then [BASE_ROOTFS] else [])

theorem bootstrapped_new : Bootstrapped Sample.cluster newCluster where
  images r there := by cases there
  disks n vmId made := by
    refine made ?_
    change (if n = "n1" then Sample.host else Host.empty).lvs.lookup
      (lvKey Sample.cluster n (Names.rootfs vmId)) = none
    split
    · -- the node has its pool and the default image
      have other (name : Str) (first : name.head? ≠ some 'r') (vg : Str) :
          lvKey Sample.cluster n (Names.rootfs vmId) ≠ (vg, name) := by
        intro same
        have root := first_letter (List.prefix_append Names.ROOTFS vmId) 'r' (by decide)
        rw [← (Prod.mk.inj same).2] at first
        exact first root
      rw [Sample.host, AList.lookup_insert_ne (other _ (by decide) _), AList.lookup_insert_ne
        (other _ (by decide) _)]
      rfl
    · rfl
  golden n _ := rfl

/-- A VM, a snapshot of its root disk, an image of this, and a VM with this root disk. -/
def generations : List Action :=
  [.request "n1" (.spawnVm Sample.spawn none),
    .request "n1" (.createSnapshot ⟨"s", none, some Sample.v1⟩),
    .request "n1" (.createImage ⟨"i", "10000068"⟩),
    .request "n1" (.spawnVm { Sample.spawn with rootImage := some "10000073".toList } none)]

/-- The second VM, and what its root disk comes from. -/
def thirdGeneration (s : World × Lineages) : Prop :=
  (s.1.hosts "n1").HasLv (lvKey Sample.cluster "n1" (Names.rootfs "10000086")) ∧
    line Sample.cluster "n1" (Names.rootfs "10000086") s =
      ["gold-10000073", "snap-10000068", "rootfs-10000012", "gold-default", "base-rootfs"]

instance (s : World × Lineages) : Decidable (thirdGeneration s) :=
  inferInstanceAs (Decidable (_ ∧ _))

theorem generations_reached : ∃ s, Reached (tracking Sample.env) (Action.program Sample.cluster 1)
    (fun a s => anyAction a s.1) anyEnd newCluster s ∧ thirdGeneration s :=
  Reached.exists_of_follow generations _ (by decide +kernel)

/-- The root disk comes from the base image in five steps, none of which is a data volume. -/
theorem spawned_from_image : ∃ s, thirdGeneration s ∧ Descended Sample.cluster s := by
  obtain ⟨s, reached, third⟩ := generations_reached
  exact ⟨s, third, root_disks_descend Sample.cluster Sample.env 1 Sample.custom_ids newCluster
    bootstrapped_new s reached⟩

end RootDisks

end Nyc
