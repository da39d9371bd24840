import Nyc.Client.Steps
import Nyc.Cluster
import Nyc.Hosts
import Nyc.Naming

/-!
# The sizes of volumes

A row says how large its volume is, and a snapshot's row how large a clone of it will be. The
sizes agree with those of the LVs through every request, as long as no data volume is cloned from
an image of a root disk: for these the size that is recorded is zero.
-/

namespace Nyc

open Data Effects Effects.Program Client

namespace Sizes

/-- The volume is there, and has the size. -/
def Sized (cfg : Id → NodeConfig) (n : Id) (name : Str) (sizeMb : Int) (w : World) : Prop :=
  (w.hosts n).Sized (lvKey cfg n name) sizeMb

/-- Every row of the volumes gives the virtual size of its LV. -/
def Agree (cfg : Id → NodeConfig) (w : World) : Prop :=
  ∀ r ∈ w.db .volumes, Sized cfg r.nodeId (Names.data r.id) r.sizeMb w

/-! ## The invariant -/

/-- The rows of the volumes and those of snapshots of data volumes give the sizes of their LVs, but
for the LVs in `out`. -/
structure AgreeBut (cfg : Id → NodeConfig) (out : Id → Str → Prop) (w : World) : Prop where
  volumes : ∀ r ∈ w.db .volumes, ¬ out r.nodeId (Names.data r.id) →
    Sized cfg r.nodeId (Names.data r.id) r.sizeMb w
  snapshots : ∀ r ∈ w.db .snapshots, r.disk = .data → ¬ out r.nodeId r.lvName →
    Sized cfg r.nodeId r.lvName r.sizeMb w
  named : ∀ r ∈ w.db .snapshots, r.lvName = lvOf r.role r.id

def nowhere (_ : Id) (_ : Str) : Prop := False

/-- The one LV. -/
def only (n : Id) (name : Str) (n' : Id) (name' : Str) : Prop := n' = n ∧ name' = name

/-- No row of volumes or snapshots has come. -/
structure Fewer (w w' : World) : Prop where
  volumes : ∀ r ∈ w'.db .volumes, r ∈ w.db .volumes
  snapshots : ∀ r ∈ w'.db .snapshots, r ∈ w.db .snapshots

/-- The command changes the sizes of root disks and of LVs in `out` only. -/
def Leaves (out : Id → Str → Prop) (n : Id) (c : Cmd) : Prop :=
  ∀ name, c.resizes name → Names.ROOTFS <+: name ∨ out n name

/-- So does the operation, and it makes no row of volumes or snapshots. -/
structure Spares (out : Id → Str → Prop) (o : Op) : Prop where
  within : o.Within (Leaves out)
  touch : ∃ ts ds, Touch ts ds o ∧ .volumes ∉ ts ∧ .snapshots ∉ ts

section Invariant

variable {cfg : Id → NodeConfig} {out out' : Id → Str → Prop} {env : Env} {w w' : World} {o : Op}

theorem data_not_root (id : Id) : ¬ Names.ROOTFS <+: Names.data id := by
  intro root
  have first := first_letter root 'r' (by decide)
  rw [first_of_data] at first
  revert first
  decide

variable (env) in
/-- A host command that leaves an LV its size. -/
theorem Sized.host {n m : Id} {name : Str} {sizeMb : Int} {c : Cmd}
    (sized : Sized cfg n name sizeMb w) (spares : m = n → ¬ c.resizes name) :
    Sized cfg n name sizeMb (exec env (.host m c) w).2 := by
  rw [Sized, hosts_exec]
  split
  next same =>
    subst same
    exact exec_sized _ c _ (spares rfl) sized
  next => exact sized

theorem AgreeBut.of (agree : AgreeBut cfg out w) (fewer : Fewer w w')
    (sized : ∀ n name sizeMb, ¬ Names.ROOTFS <+: name → ¬ out n name →
      Sized cfg n name sizeMb w → Sized cfg n name sizeMb w') : AgreeBut cfg out w' := by
  constructor
  · intro r there spared
    exact sized _ _ _ (data_not_root r.id) spared
      (agree.volumes r (fewer.volumes r there) spared)
  · intro r there data spared
    have before := fewer.snapshots r there
    refine sized _ _ _ ?_ spared (agree.snapshots r before data spared)
    rw [agree.named r before]
    exact lvOf_not_rootfs r.role r.id
  · intro r there
    exact agree.named r (fewer.snapshots r there)

theorem Spares.fewer (spares : Spares out o) : Fewer w (exec env o w).2 := by
  obtain ⟨within, ts, ds, touch, volumes, snapshots⟩ := spares
  constructor
  · intro r there
    by_cases writes : o.writes .volumes
    · cases o with
      | insert t row =>
        cases writes
        cases touch with
        | insert _ _ known => exact absurd known volumes
      | update t p f =>
        cases writes
        cases within
      | delete t p =>
        cases writes
        rw [exec_delete, tick_db, setTable_self, Table.mem_delete] at there
        exact there.1
      | _ => cases writes
    · rwa [exec_frame env w .volumes o writes] at there
  · intro r there
    obtain ⟨_, before, rfl⟩ := touch.rows_came snapshots r there
    exact before

variable (env) in
/-- An operation that spares the sizes keeps the invariant. -/
theorem AgreeBut.spares (agree : AgreeBut cfg out w) (spares : Spares out o) :
    AgreeBut cfg out (exec env o w).2 := by
  apply agree.of spares.fewer
  intro n name sizeMb root spared sized
  by_cases off : o.OffHost
  · rw [Sized, hosts_offHost env w off]
    exact sized
  · cases o with
    | host n' c =>
      apply sized.host env
      rintro rfl resizes
      exact (spares.within name resizes).elim root spared
    | _ => exact absurd trivial off

theorem AgreeBut.loosen (agree : AgreeBut cfg nowhere w) (out : Id → Str → Prop) :
    AgreeBut cfg out w where
  volumes r there _ := agree.volumes r there not_false
  snapshots r there data _ := agree.snapshots r there data not_false
  named := agree.named

/-- A host command that fails changes no size. -/
theorem AgreeBut.host_error {n : Id} {c : Cmd} {e : Exn} (agree : AgreeBut cfg out w)
    (failed : (exec env (.host n c) w).1 = .error e) :
    AgreeBut cfg out (exec env (.host n c) w).2 := by
  refine agree.of ⟨fun _ there => there, fun _ there => there⟩ fun n' name sizeMb _ _ sized => ?_
  rw [Sized, hosts_exec]
  split
  next same =>
    subst same
    rw [Host.Sized, exec_error_lvs _ _ _ e failed]
    exact sized
  next => exact sized

theorem AgreeBut.tick (agree : AgreeBut cfg out w) : AgreeBut cfg out w.tick :=
  ⟨agree.volumes, agree.snapshots, agree.named⟩

end Invariant

/-! ## Programs that make and resize no volume -/

section Programs

variable {cfg : Id → NodeConfig} {out : Id → Str → Prop} {env : Env} {w : World} {α β : Type}

theorem leaves_grants {origins : Id → Str → Prop} : Grants origins (Leaves out) := by
  constructor
  · intro n c sparing name resizes
    cases c with
    | lvm c => cases sparing
    | _ => cases resizes
  · intro n lister vg name resizes
    cases resizes
  · intro n vg origin vmId _ name resizes
    cases resizes
  · intro n vg name root name' resizes
    cases resizes
    exact .inl root

theorem spares_of {p : Py α} (ts ds : List Tbl) (touch : Only (Touch ts ds) p)
    (volumes : .volumes ∉ ts) (snapshots : .snapshots ∉ ts) (within : Within (Leaves out) p) :
    Only (Spares out) p :=
  (touch.and within).mono fun _ ok => ⟨ok.2, ts, ds, ok.1, volumes, snapshots⟩

/-- The sizes agree, and the source of a clone, if it is an image, is a data volume's. -/
structure Fit (cfg : Id → NodeConfig) (source : Option Id) (w : World) : Prop where
  agree : AgreeBut cfg nowhere w
  data : ∀ r ∈ w.db .snapshots, some r.id = source → r.disk = .data

variable {source : Option Id}

theorem Fit.spares {o : Op} (fit : Fit cfg source w) (spares : Spares nowhere o) :
    Fit cfg source (exec env o w).2 :=
  ⟨fit.agree.spares env spares, fun r there => fit.data r (spares.fewer.snapshots r there)⟩

theorem fit_then {p : Py α} {f : α → Py β} {Q : Except Exn β → World → Prop}
    (spares : Only (Spares nowhere) p) (fit : Fit cfg source w)
    (fails : ∀ e w', AgreeBut cfg nowhere w' → Q (.error e) w')
    (rest : ∀ a w', Fit cfg source w' → wp (sequential (exec env)) (f a) Q w') :
    wp (sequential (exec env)) (p >>= f) Q w :=
  sequential_keeps_then (exec env) (Fit cfg source) (fun _ _ spares fit => fit.spares spares) spares
    fit (fun e w' fit => fails e w' fit.agree) rest

theorem agree_keeps {p : Py α} (spares : Only (Spares nowhere) p) (agree : AgreeBut cfg nowhere w) :
    wp (sequential (exec env)) p (fun _ w' => AgreeBut cfg nowhere w') w :=
  sequential_keeps (exec env) _ (fun _ _ spares agree => agree.spares env spares) spares w agree

/-! ## Volumes that are made -/

/-- A program that makes a volume: if it returns, the volume has the size that it says. -/
def Makes (cfg : Id → NodeConfig) (n : Id) (name : Str) (size : α → Int) :
    Except Exn α → World → Prop
  | .ok a, w => AgreeBut cfg nowhere w ∧ Sized cfg n name (size a) w
  | .error _, w => AgreeBut cfg nowhere w

variable {self : Node} (own : self.cfg = cfg self.id)

/-- A command of LVM's, before the rest. -/
theorem lvm_then (self : Node) {c : LvmCmd} {f : c.Res → Py β} {Q : Except Exn β → World → Prop}
    (fails : ∀ e, (exec env (.host self.id (.lvm c)) w).1 = .error e →
      Q (.error e) (exec env (.host self.id (.lvm c)) w).2)
    (rest : ∀ a, (exec env (.host self.id (.lvm c)) w).1 = .ok a →
      wp (sequential (exec env)) (f a) Q (exec env (.host self.id (.lvm c)) w).2) :
    wp (sequential (exec env)) (self.sh (lvm c) >>= f) Q w := by
  rw [wp_bind, wp_sh, lvm, wp_perform]
  change (onValue (fun a => wp (sequential (exec env)) (f a) Q) Q
    (exec env (.host self.id (.lvm c)) w).1) (exec env (.host self.id (.lvm c)) w).2
  cases answer : (exec env (.host self.id (.lvm c)) w).1 with
  | error e => exact fails e answer
  | ok a => exact rest a answer

/-- Most commands change no size. -/
theorem spares_lvm {n : Id} {c : LvmCmd} (none_ : ∀ name, ¬ Cmd.resizes name (.lvm c)) :
    Spares out (.host n (.lvm c)) :=
  ⟨fun name resizes => absurd resizes (none_ name), [], [], .host _ _, List.not_mem_nil,
    List.not_mem_nil⟩

include own

theorem own_key (name : Str) : (self.volumeVg self.id, name) = lvKey cfg self.id name := by
  rw [Node.volumeVg, own, lvKey]

/-- A new volume. -/
theorem create_makes (name : Str) (sizeMb : Int) (agree : AgreeBut cfg nowhere w) :
    wp (sequential (exec env))
      (self.sh (Create.run (self.volumeVg self.id) self.cfg.lvm.thinpool name sizeMb))
      (Makes cfg self.id name fun _ => sizeMb) w := by
  simp only [Create.run, Lv.createThin, Lv.formatExt4, LawfulMonad.bind_assoc, sh_bind, pure_bind]
  apply lvm_then
  · intro e _
    exact agree.spares env (spares_lvm fun _ => not_false)
  · intro _ done
    -- the volume has the size it is created with, and `mkfs` does not change it
    have made : Sized cfg self.id name sizeMb
        (exec env (.host self.id (.lvm (.createThin (self.volumeVg self.id)
          self.cfg.lvm.thinpool name sizeMb))) w).2 := by
      rw [Sized, hosts_exec, if_pos rfl, ← own_key own]
      exact exec_createThin_sized _ _ _ _ _ _ done
    have agree := agree.spares env (spares_lvm (n := self.id)
      (c := .createThin (self.volumeVg self.id) self.cfg.lvm.thinpool name sizeMb)
      fun _ => not_false)
    apply lvm_then
    · intro e _
      exact agree.spares env (spares_lvm fun _ => not_false)
    · intro _ _
      exact ⟨agree.spares env (spares_lvm fun _ => not_false), made.host env fun _ => not_false⟩

/-- A clone of a volume whose size is known. -/
theorem clone_makes (origin name : Str) (readonly : Bool) (sizeMb : Int)
    (sized : Sized cfg self.id origin sizeMb w) (agree : AgreeBut cfg nowhere w) :
    wp (sequential (exec env))
      (self.sh (do
        lvm (.snapshot (self.volumeVg self.id) origin name readonly)
        return Path.device (self.volumeVg self.id) name))
      (Makes cfg self.id name fun _ => sizeMb) w := by
  rw [sh_bind]
  apply lvm_then
  · intro e _
    exact agree.spares env (spares_lvm fun _ => not_false)
  · intro _ done
    refine ⟨agree.spares env (spares_lvm fun _ => not_false), ?_⟩
    rw [Sized, hosts_exec, if_pos rfl, ← own_key own]
    rw [Sized, ← own_key own] at sized
    exact exec_snapshot_sized _ _ _ _ _ _ sized done

omit own

/-! ## Rows that are written -/

theorem Sized.insert {t : Tbl} {row : t.Row} {n : Id} {name : Str} {sizeMb : Int}
    (sized : Sized cfg n name sizeMb w) :
    Sized cfg n name sizeMb (exec env (.insert t row) w).2 := by
  have off : Op.OffHost (.insert t row) := trivial
  rwa [Sized, hosts_offHost env w off]

variable (env) in
theorem AgreeBut.insert_volume (agree : AgreeBut cfg nowhere w) {row : VolumeRow}
    (sized : Sized cfg row.nodeId (Names.data row.id) row.sizeMb w) :
    AgreeBut cfg nowhere (exec env (.insert .volumes row) w).2 := by
  have frame : (exec env (.insert .volumes row) w).2.db .snapshots = w.db .snapshots :=
    exec_frame env w .snapshots _ (show Tbl.volumes ≠ .snapshots by decide)
  constructor
  · intro r there _
    apply Sized.insert
    rcases insert_came there with before | rfl
    · exact agree.volumes r before not_false
    · exact sized
  · intro r there data _
    apply Sized.insert
    exact agree.snapshots r (frame ▸ there) data not_false
  · intro r there
    exact agree.named r (frame ▸ there)

variable (env) in
theorem AgreeBut.insert_snapshot (agree : AgreeBut cfg nowhere w) {row : SnapshotRow}
    (sized : row.disk = .data → Sized cfg row.nodeId row.lvName row.sizeMb w)
    (named : row.lvName = lvOf row.role row.id) :
    AgreeBut cfg nowhere (exec env (.insert .snapshots row) w).2 := by
  have frame : (exec env (.insert .snapshots row) w).2.db .volumes = w.db .volumes :=
    exec_frame env w .volumes _ (show Tbl.snapshots ≠ .volumes by decide)
  constructor
  · intro r there _
    apply Sized.insert
    exact agree.volumes r (frame ▸ there) not_false
  · intro r there data _
    apply Sized.insert
    rcases insert_came there with before | rfl
    · exact agree.snapshots r before data not_false
    · exact sized data
  · intro r there
    rcases insert_came there with before | rfl
    · exact agree.named r before
    · exact named

/-! ## New volumes -/

/-- What is made is returned with its size. -/
theorem makes_sized {n : Id} {name : Str} {sizeMb : Int} {p : Py Path}
    (makes : wp (sequential (exec env)) p (Makes cfg n name fun _ => sizeMb) w) :
    wp (sequential (exec env)) (do return (← p, sizeMb)) (Makes cfg n name Prod.snd) w := by
  rw [wp_bind]
  apply sequential_mono _ _ _ _ _ _ makes
  rintro (e | path) w' made <;> exact made

include own

theorem provision_makes (body : VolumeIn) (id : Id) (fit : Fit cfg body.fromSnapshot w) :
    wp (sequential (exec env))
      (Volumes.provision self body (self.volumeVg self.id) (Names.data id) self.id)
      (Makes cfg self.id (Names.data id) Prod.snd) w := by
  rw [Volumes.provision, wp_ite]
  split
  · rw [wp_bind, wp_get, onValue_ok, wp_bind, wp_orHttp]
    cases found : ((w.db .snapshots).get fun r => some r.id = body.fromSnapshot).filter
        fun r => r.nodeId = self.id with
    | none => exact fit.agree.tick
    | some snap =>
      obtain ⟨looked, here⟩ := Option.filter_eq_some_iff.mp found
      obtain ⟨there, named⟩ := Table.get_some looked
      have here : snap.nodeId = self.id := of_decide_eq_true here
      have data := fit.data snap there (of_decide_eq_true named)
      have sized := fit.agree.snapshots snap there data not_false
      rw [here] at sized
      exact makes_sized (clone_makes own snap.lvName _ false snap.sizeMb sized fit.agree.tick)
  · exact makes_sized (create_makes own _ _ fit.agree)

theorem provisionData_makes (body : SpawnIn) (id : Id) (fit : Fit cfg body.dataImage w) :
    wp (sequential (exec env))
      (Vms.provisionData self body (self.volumeVg self.id) (Names.data id) self.id)
      (Makes cfg self.id (Names.data id) Prod.snd) w := by
  rw [Vms.provisionData, wp_ite]
  split
  next given =>
    simp only [Vms.imageOr400, LawfulMonad.bind_assoc]
    apply lookup_then
    · intro e
      exact fit.agree.tick
    · intro img there meets
      -- the image that is found is the one the request names, and it is a data image
      have named : img.id = body.dataImage.getD [] :=
        of_decide_eq_true (Bool.and_eq_true_iff.mp meets).1
      have data : img.disk = .data := by
        apply fit.data img there
        cases image : body.dataImage with
        | none =>
          rw [image] at given
          cases given
        | some imageId => rw [named, image, Option.getD_some]
      rw [wp_bind, Vms.sameNodeOr409, refuseIf, wp_whenTrue]
      split
      · exact fit.agree.tick
      next here =>
        have here : img.nodeId = self.id := by simpa using here
        -- a clone has the size of the image, which the image's row tells
        have sized := fit.agree.snapshots img there data not_false
        rw [here] at sized
        exact makes_sized (clone_makes (w := w.tick) own img.lvName _ false _ sized fit.agree.tick)
  · exact makes_sized (create_makes own _ _ fit.agree)

omit own

/-- The row of a new volume. -/
theorem record_volume {f : Timestamp → β} (row : Timestamp → VolumeRow)
    (agree : AgreeBut cfg nowhere w)
    (sized : ∀ time, Sized cfg (row time).nodeId (Names.data (row time).id) (row time).sizeMb w) :
    wp (sequential (exec env)) (do
      let time ← now
      insert .volumes (row time)
      return f time) (fun _ w' => AgreeBut cfg nowhere w') w := by
  rw [wp_bind, wp_now]
  have after := agree.tick.insert_volume env (sized (env.now w.clock))
  exact insert_then env _ (fun _ => after) fun _ => after

/-- The row of a new image. -/
theorem record_image {f : Timestamp → β} (row : Timestamp → SnapshotRow)
    (agree : AgreeBut cfg nowhere w)
    (sized : ∀ time, (row time).disk = .data →
      Sized cfg (row time).nodeId (row time).lvName (row time).sizeMb w)
    (named : ∀ time, (row time).lvName = lvOf (row time).role (row time).id) :
    wp (sequential (exec env)) (do
      let time ← now
      insert .snapshots (row time)
      return f time) (fun _ w' => AgreeBut cfg nowhere w') w := by
  rw [wp_bind, wp_now]
  have after := agree.tick.insert_snapshot env (sized (env.now w.clock)) (named _)
  exact insert_then env _ (fun _ => after) fun _ => after

/-- What has made a volume, before the rest. -/
theorem makes_then {n : Id} {name : Str} {size : α → Int} {p : Py α} {f : α → Py β}
    {Q : Except Exn β → World → Prop}
    (makes : wp (sequential (exec env)) p (Makes cfg n name size) w)
    (fails : ∀ e w', AgreeBut cfg nowhere w' → Q (.error e) w')
    (rest : ∀ a w', AgreeBut cfg nowhere w' → Sized cfg n name (size a) w' →
      wp (sequential (exec env)) (f a) Q w') :
    wp (sequential (exec env)) (p >>= f) Q w := by
  apply sequential_bind (exec env)
    (fun a w' => AgreeBut cfg nowhere w' ∧ Sized cfg n name (size a) w')
  · apply sequential_mono _ _ _ _ _ _ makes
    rintro (e | a) w' made
    · exact fails e w' made
    · exact made
  · rintro a w' ⟨agree, sized⟩
    exact rest a w' agree sized

include own

theorem createVolume_agrees (body : VolumeIn) (fit : Fit cfg body.fromSnapshot w) :
    wp (sequential (exec env)) (Volumes.createLocal self body self.id)
      (fun _ w' => AgreeBut cfg nowhere w') w := by
  rw [Volumes.createLocal, wp_bind, wp_uuid4, onValue_ok]
  have fit : Fit cfg body.fromSnapshot w.tick := ⟨fit.agree.tick, fit.data⟩
  apply makes_then (provision_makes own body _ fit)
  · intro e w' agree
    exact agree
  · rintro ⟨dev, sizeMb⟩ w' agree sized
    exact record_volume (fun time => ⟨_, self.id, body.name, sizeMb, dev.text, "ready", time⟩) agree
      fun _ => sized

theorem autoVolume_agrees (body : SpawnIn) (fit : Fit cfg body.dataImage w) :
    wp (sequential (exec env)) (Vms.autoVolume self body self.id)
      (fun _ w' => AgreeBut cfg nowhere w') w := by
  rw [Vms.autoVolume, wp_bind, wp_uuid4, onValue_ok]
  have fit : Fit cfg body.dataImage w.tick := ⟨fit.agree.tick, fit.data⟩
  apply makes_then (provisionData_makes own body _ fit)
  · intro e w' agree
    exact agree
  · rintro ⟨dev, sizeMb⟩ w' agree sized
    exact record_volume
      (fun time => ⟨_, self.id, body.vmName ++ "-data", sizeMb, dev.text, "ready", time⟩) agree
      fun _ => sized

/-- A snapshot, or a promotion. -/
theorem image_then (role : Role) (id : Id) {origin : Str} {disk : Disk} {sizeMb : Int}
    {f : Path → Py β} {Q : Except Exn β → World → Prop}
    (source : disk = .data → Sized cfg self.id origin sizeMb w) (agree : AgreeBut cfg nowhere w)
    (fails : ∀ e w', AgreeBut cfg nowhere w' → Q (.error e) w')
    (rest : ∀ dev w', AgreeBut cfg nowhere w' →
      (disk = .data → Sized cfg self.id (lvOf role id) sizeMb w') →
      wp (sequential (exec env)) (f dev) Q w') :
    wp (sequential (exec env))
      (self.sh (Lv.snapshot (self.volumeVg self.id) origin (lvOf role id)) >>= f) Q w := by
  cases disk with
  | data =>
    apply makes_then (clone_makes own origin _ true sizeMb (source rfl) agree) fails
    intro dev w' agree sized
    exact rest dev w' agree fun _ => sized
  -- a root image has no size in its row
  | root =>
    have spares : Only (Spares nowhere)
        (self.sh (Lv.snapshot (self.volumeVg self.id) origin (lvOf role id))) := by
      apply Only.sh self
      apply Only.bind (.lvm _)
      · intro _
        exact .pure _
      · exact spares_lvm fun _ => not_false
    apply sequential_keeps_then (exec env) (AgreeBut cfg nowhere)
      (fun _ _ spares agree => agree.spares env spares) spares agree fails
    intro dev w' agree
    apply rest dev w' agree
    intro data
    cases data

theorem createSnapshot_agrees (body : SnapshotIn) (src : Snapshots.Source)
    (here : src.nodeId = self.id)
    (source : src.disk = .data → Sized cfg self.id src.sourceLv src.sizeMb w)
    (agree : AgreeBut cfg nowhere w) :
    wp (sequential (exec env)) (Snapshots.createSnapshotLocal self body src)
      (fun _ w' => AgreeBut cfg nowhere w') w := by
  rw [Snapshots.createSnapshotLocal, wp_bind, wp_uuid4, onValue_ok, here]
  apply image_then (w := w.tick) own .snapshot _ source agree.tick
  · intro e w' agree
    exact agree
  · intro dev w' agree sized
    exact record_image (fun time => ⟨_, self.id, body.name, .snapshot, src.disk,
      some src.parent, _, src.sizeMb, time⟩) agree (fun _ => sized) fun _ => rfl

theorem createImage_agrees (body : ImageIn) (snap : SnapshotRow)
    (source : snap.disk = .data → Sized cfg self.id (Names.snap snap.id) snap.sizeMb w)
    (agree : AgreeBut cfg nowhere w) :
    wp (sequential (exec env)) (Snapshots.createImageLocal self body snap self.id)
      (fun _ w' => AgreeBut cfg nowhere w') w := by
  rw [Snapshots.createImageLocal, wp_bind, wp_uuid4, onValue_ok]
  apply image_then (w := w.tick) own .golden _ source agree.tick
  · intro e w' agree
    exact agree
  · intro dev w' agree sized
    exact record_image (fun time => ⟨_, self.id, body.name, .golden, snap.disk,
      some snap.id, _, snap.sizeMb, time⟩) agree (fun _ => sized) fun _ => rfl

omit own

/-! ## Volumes that are removed and resized -/

/-- The LVs in `out` have no row left, or have the sizes of their rows. -/
theorem AgreeBut.restore (agree : AgreeBut cfg out w)
    (volumes : ∀ r ∈ w.db .volumes, out r.nodeId (Names.data r.id) →
      Sized cfg r.nodeId (Names.data r.id) r.sizeMb w)
    (snapshots : ∀ r ∈ w.db .snapshots, ¬ out r.nodeId r.lvName) : AgreeBut cfg nowhere w := by
  constructor
  · intro r there _
    by_cases left : out r.nodeId (Names.data r.id)
    · exact volumes r there left
    · exact agree.volumes r there left
  · intro r there data _
    exact agree.snapshots r there data (snapshots r there)
  · exact agree.named

theorem remove_spares (n : Id) (vg name : Str) :
    Spares (only n name) (.host n (.lvm (.remove vg name))) :=
  ⟨fun _ removed => .inr ⟨rfl, removed.symm⟩, [], [], .host _ _, List.not_mem_nil,
    List.not_mem_nil⟩

/-- To list the volumes leaves everything as it is. -/
theorem lists_keep {vg : Str} {db : Db} {o : Op}
    (lists : ∃ lister, o = .host self.id (.lvm (.lvs lister vg)))
    (holds : AgreeBut cfg nowhere w ∧ w.db = db) :
    AgreeBut cfg nowhere (exec env o w).2 ∧ (exec env o w).2.db = db := by
  obtain ⟨lister, rfl⟩ := lists
  exact ⟨holds.1.spares env (spares_lvm fun _ => not_false), holds.2⟩

theorem remove_then (vg name : Str) {f : Unit → Py β} {Q : Except Exn β → World → Prop}
    (agree : AgreeBut cfg nowhere w) (fails : ∀ e w', AgreeBut cfg nowhere w' → Q (.error e) w')
    (rest : ∀ w', AgreeBut cfg (only self.id name) w' → wp (sequential (exec env)) (f ()) Q w') :
    wp (sequential (exec env)) (self.sh (Lv.remove vg name) >>= f) Q w := by
  -- the removal looks first whether the volume is there
  have lists : Only (fun o => ∃ lister, o = .host self.id (.lvm (.lvs lister vg)))
      (self.sh (Lv.exists_ vg name)) := by
    apply Only.sh self
    apply Only.bind
    · apply Lv.listLvs_only
      exact ⟨_, rfl⟩
    · intro names
      exact .pure _
  rw [Lv.remove, sh_bind, LawfulMonad.bind_assoc]
  apply sequential_keeps_then (exec env) (fun w' => AgreeBut cfg nowhere w' ∧ w'.db = w.db)
    (fun o w' => lists_keep) lists ⟨agree, rfl⟩
  · intro e w' kept
    exact fails e w' kept.1
  · rintro there w' ⟨agree, -⟩
    cases there with
    | false => exact rest w' (agree.loosen _)
    | true =>
      apply lvm_then
      · intro e failed
        exact fails e _ (agree.host_error failed)
      · intro _ _
        exact rest _ ((agree.loosen _).spares env (remove_spares self.id vg name))

theorem deleteVolume_agrees (row : VolumeRow) (agree : AgreeBut cfg nowhere w) :
    wp (sequential (exec env)) (Volumes.deleteLocal self row)
      (fun _ w' => AgreeBut cfg nowhere w') w := by
  rw [Volumes.deleteLocal, wp_bind, wp_get, onValue_ok, wp_bind, refuseIf, wp_whenTrue]
  split
  · exact agree.tick
  rw [onValue_ok]
  apply remove_then _ _ agree.tick
  · intro e w' agree
    exact agree
  · intro w' agree
    rw [wp_bind, wp_delete]
    have deletes : Spares (only self.id (Names.data row.id))
        (.delete .volumes fun r => decide (r.id = row.id)) :=
      ⟨trivial, [], [.volumes], .delete _ _ List.mem_cons_self, List.not_mem_nil,
        List.not_mem_nil⟩
    apply (agree.spares env deletes).restore
    · rintro r there ⟨-, same⟩
      exact absurd (data_inj same) (of_decide_eq_false (Table.mem_delete.mp there).2)
    · rintro r there ⟨-, same⟩
      rw [agree.named r there] at same
      exact data_ne_lvOf row.id r.role r.id same.symm

theorem deleteImage_agrees (row : SnapshotRow) (named : row.lvName = lvOf row.role row.id)
    (agree : AgreeBut cfg nowhere w) :
    wp (sequential (exec env)) (do
      self.sh (SnapAction.remove (self.volumeVg row.nodeId) row.lvName)
      let _ ← delete .snapshots fun r => r.id = row.id
      return Response.empty) (fun _ w' => AgreeBut cfg nowhere w') w := by
  apply remove_then _ _ agree
  · intro e w' agree
    exact agree
  · intro w' agree
    rw [wp_bind, wp_delete]
    have deletes : Spares (only self.id row.lvName)
        (.delete .snapshots fun r => decide (r.id = row.id)) :=
      ⟨trivial, [], [.snapshots], .delete _ _ List.mem_cons_self, List.not_mem_nil,
        List.not_mem_nil⟩
    apply (agree.spares env deletes).restore
    · rintro r there ⟨-, same⟩
      rw [named] at same
      exact absurd same (data_ne_lvOf r.id row.role row.id)
    · rintro r there ⟨-, same⟩
      obtain ⟨before, stays⟩ := Table.mem_delete.mp there
      rw [agree.named r before, named] at same
      exact of_decide_eq_false stays (lvOf_inj same)

variable (env) in
/-- The row of a volume that has its new size. -/
theorem AgreeBut.resized {n : Id} {row : VolumeRow} {sizeMb : Int}
    (agree : AgreeBut cfg (only n (Names.data row.id)) w) (there : row ∈ w.db .volumes)
    (here : row.nodeId = n) (sized : Sized cfg n (Names.data row.id) sizeMb w) :
    AgreeBut cfg nowhere (exec env (.update .volumes (fun r => decide (r.id = row.id))
      fun r => { r with sizeMb := sizeMb }) w).2 := by
  subst here
  obtain ⟨rows, updated, made⟩ := exec_update env w .volumes (fun r => decide (r.id = row.id))
    (fun r => { r with sizeMb := sizeMb }) (by simp [Tbl.unique])
  -- the ids are unique, so `row` is the only row that is written
  have same (r : VolumeRow) (before : r ∈ w.db .volumes) (own : r.id = row.id) : r = row :=
    (w.db .volumes).eq_of_key VolumeRow.id (by simp [Tbl.unique]) before there own
  rw [made]
  constructor
  · intro r' there' _
    rw [tick_db, setTable_self] at there'
    obtain ⟨r, before, rfl⟩ := (Table.mem_update updated).mp there'
    by_cases own : r.id = row.id
    · rw [if_pos (decide_eq_true own), same r before own]
      exact sized
    · rw [if_neg (by rwa [decide_eq_true_eq])]
      exact agree.volumes r before fun out => own (data_inj out.2)
  -- the volume of a snapshot row has another name
  · intro r there' data _
    rw [tick_db, setTable_ne _ _ _ _ (by decide)] at there'
    refine agree.snapshots r there' data fun out => ?_
    have same := out.2
    rw [agree.named r there'] at same
    exact data_ne_lvOf row.id r.role r.id same.symm
  · intro r there'
    rw [tick_db, setTable_ne _ _ _ _ (by decide)] at there'
    exact agree.named r there'

include own

/-- A resize whose commands succeed. -/
theorem resize_agrees (sound : ∀ k, (env.chance k).fails = false) (row : VolumeRow) (sizeMb : Int)
    (there : row ∈ w.db .volumes) (here : row.nodeId = self.id) (agree : AgreeBut cfg nowhere w) :
    wp (sequential (exec env)) (Volumes.resizeLocal self row sizeMb)
      (fun _ w' => AgreeBut cfg nowhere w') w := by
  rw [Volumes.resizeLocal, here]
  simp only [Lv.extend, sh_bind, LawfulMonad.bind_assoc]
  apply lvm_then
  · intro e failed
    exact agree.host_error failed
  · intro _ done
    set w₁ := (exec env (.host self.id (.lvm (.extend (self.volumeVg self.id)
      (Names.data row.id) sizeMb))) w).2 with first
    have extended : Sized cfg self.id (Names.data row.id) sizeMb w₁ := by
      rw [first, Sized, hosts_exec, if_pos rfl, ← own_key own]
      exact exec_extend_sized _ _ _ _ _ done
    have agree : AgreeBut cfg (only self.id (Names.data row.id)) w₁ :=
      (agree.loosen _).spares env ⟨fun _ resizes => .inr ⟨rfl, resizes.symm⟩, [], [], .host _ _,
        List.not_mem_nil, List.not_mem_nil⟩
    apply lvm_then
    · -- `resize2fs` finds the volume that has just been extended
      intro e failed
      obtain ⟨lv, present, -⟩ := extended
      have has : (w₁.hosts self.id).HasLv (self.volumeVg self.id, Names.data row.id) := by
        rw [own_key own, Host.HasLv, present]
        exact Option.some_ne_none lv
      have answer := exec_resize2fs (env.chance w₁.clock) _ _ _ (sound _) has
      cases answer.symm.trans failed
    · intro _ _
      have extended := extended.host env (m := self.id)
        (c := .lvm (.resize2fs (self.volumeVg self.id) (Names.data row.id))) fun _ => not_false
      have agree := agree.spares env (spares_lvm (n := self.id)
        (c := .resize2fs (self.volumeVg self.id) (Names.data row.id)) fun _ => not_false)
      have after := agree.resized env there here extended
      exact sequential_then (exec env) (fun _ _ => after) fun _ _ => after

omit own

/-! ## Passes -/

/-- To remove volumes that no row names. -/
theorem prune_agrees {lister : Lister} {vg : Str} (orphans : List Str → List Str)
    (agree : AgreeBut cfg nowhere w)
    (volumes : ∀ names, ∀ name ∈ orphans names, ∀ r ∈ w.db .volumes, r.nodeId = self.id →
      Names.data r.id ≠ name)
    (snapshots : ∀ names, ∀ name ∈ orphans names, ∀ r ∈ w.db .snapshots, r.nodeId = self.id →
      r.lvName ≠ name) {f : List Str → β} :
    wp (sequential (exec env)) (do
      let names ← self.sh (Lv.listLvs lister vg)
      self.forEach (Lv.remove vg) (orphans names)
      return f names) (fun _ w' => AgreeBut cfg nowhere w') w := by
  have lists : Only (fun o => ∃ lister, o = .host self.id (.lvm (.lvs lister vg)))
      (self.sh (Lv.listLvs lister vg)) := by
    apply Only.sh self
    apply Lv.listLvs_only
    exact ⟨_, rfl⟩
  apply sequential_keeps_then (exec env) (fun w' => AgreeBut cfg nowhere w' ∧ w'.db = w.db)
    (fun o w' => lists_keep) lists ⟨agree, rfl⟩
  · intro e w' kept
    exact kept.1
  · intro names w' holds
    -- only orphans are removed, and no row names one
    have removes : Only (fun o => (∃ lister, o = .host self.id (.lvm (.lvs lister vg))) ∨
        ∃ name ∈ orphans names, o = .host self.id (.lvm (.remove vg name)))
        (self.forEach (Lv.remove vg) (orphans names)) := by
      apply Only.forEach
      intro name there
      apply Only.sh self
      apply (Lv.remove_only vg name).mono
      intro c issues
      cases issues with
      | lvs lister => exact .inl ⟨lister, rfl⟩
      | remove => exact .inr ⟨name, there, rfl⟩
    apply sequential_keeps_then (exec env) (fun w' => AgreeBut cfg nowhere w' ∧ w'.db = w.db) _
      removes holds
    · intro e w' kept
      exact kept.1
    · intro _ w' kept
      exact kept.1
    · rintro o w' (lists | ⟨name, there, rfl⟩) holds
      · exact lists_keep lists holds
      · obtain ⟨agree, same⟩ := holds
        refine ⟨?_, same⟩
        apply ((agree.loosen _).spares env (remove_spares self.id vg name)).restore
        · rintro r before ⟨here, named⟩
          exact absurd named (volumes names name there r (same ▸ before) here)
        · rintro r before ⟨here, named⟩
          exact snapshots names name there r (same ▸ before) here named

theorem volumesPass_agrees (agree : AgreeBut cfg nowhere w) :
    wp (sequential (exec env)) (VolumesPass.reconcile self)
      (fun _ w' => AgreeBut cfg nowhere w') w := by
  rw [VolumesPass.reconcile, wp_bind, wp_getAll, onValue_ok]
  apply prune_agrees (fun names => self.cfg.sets.diff _ _) agree.tick
  · rintro names name orphan r there here rfl
    have orphan := ((self.cfg.sets.mem_diff _ _ _).mp orphan).2
    apply orphan
    exact List.mem_map.mpr ⟨r, Table.mem_getAll.mpr ⟨there, decide_eq_true here⟩, rfl⟩
  · rintro names name orphan r there here rfl
    -- the names that are looked at have the prefix of the data volumes
    have kept := ((self.cfg.sets.mem_diff _ _ _).mp orphan).1
    have data := List.isPrefixOf_iff_prefix.mp (List.mem_filter.mp kept).2
    rw [agree.named r there] at data
    have first := first_of_lvOf r.role r.id
    rw [first_letter data 'd' (by decide)] at first
    revert first
    decide

theorem snapshotsPass_agrees (agree : AgreeBut cfg nowhere w) :
    wp (sequential (exec env)) (SnapshotsPass.reconcile self)
      (fun _ w' => AgreeBut cfg nowhere w') w := by
  rw [SnapshotsPass.reconcile, wp_bind, wp_getAll, onValue_ok]
  apply prune_agrees (fun names => self.cfg.sets.diff _ _) agree.tick
  · rintro names name orphan r there here rfl
    -- the orphans of the pass start with `snap` or `gold`, a data volume with `data`
    have kept := ((self.cfg.sets.mem_diff _ _ _).mp orphan).1
    have image := (List.mem_filter.mp kept).2
    have first := first_of_data r.id
    rw [Bool.or_eq_true, List.isPrefixOf_iff_prefix, List.isPrefixOf_iff_prefix] at image
    rcases image with snap | gold
    · rw [first_letter snap 's' (by decide)] at first
      revert first
      decide
    · rw [first_letter gold 'g' (by decide)] at first
      revert first
      decide
  · rintro names name orphan r there here rfl
    -- the row's own name is among the expected ones
    have orphan := ((self.cfg.sets.mem_diff _ _ _).mp orphan).2
    apply orphan
    refine List.mem_cons_of_mem _ (List.mem_map.mpr ⟨r, ?_, rfl⟩)
    exact Table.mem_getAll.mpr ⟨there, decide_eq_true here⟩

/-- The parts of a program keep the invariant one by one. -/
theorem agree_then {p : Py α} {f : α → Py β}
    (kept : wp (sequential (exec env)) p (fun _ w' => AgreeBut cfg nowhere w') w)
    (rest : ∀ a w', AgreeBut cfg nowhere w' →
      wp (sequential (exec env)) (f a) (fun _ w' => AgreeBut cfg nowhere w') w') :
    wp (sequential (exec env)) (p >>= f) (fun _ w' => AgreeBut cfg nowhere w') w := by
  apply sequential_bind (exec env) (fun _ w' => AgreeBut cfg nowhere w') _ rest
  apply sequential_mono _ _ _ _ _ _ kept
  rintro (e | a) w' agree <;> exact agree

theorem passOnce_agrees (agree : AgreeBut cfg nowhere w) :
    wp (sequential (exec env)) (PassOnce.run self) (fun _ w' => AgreeBut cfg nowhere w') w := by
  have grants : Grants byDefault (Leaves nowhere) := leaves_grants
  rw [PassOnce.run]
  apply agree_then (agree_keeps (spares_of [] [.vms] (ttlPass_touch self (by decide))
    List.not_mem_nil List.not_mem_nil (grants.ttlPass self)) agree)
  intro ttl w' agree
  apply agree_then (agree_keeps (spares_of [] [.publicIps, .domains, .proxies]
    (vmsPass_touch self (by decide) (by decide) (by decide)) List.not_mem_nil List.not_mem_nil
    (grants.vmsPass self)) agree)
  intro vms w' agree
  apply agree_then (volumesPass_agrees agree)
  intro volumes w' agree
  apply agree_then (snapshotsPass_agrees agree)
  intro snapshots w' agree
  exact agree_keeps (spares_of [] [] (.bind (overlayPass_touch self) fun _ => .pure _)
    List.not_mem_nil List.not_mem_nil
    (.bind (grants.overlayPass self) fun _ => .pure _)) agree

/-! ## Spawns -/

include own

theorem spawnLocal_agrees (body : SpawnIn) (preBringUp : Id → Py Unit)
    (touch : ∀ id, Only (Touch [.vms, .publicIps] []) (preBringUp id))
    (offHost : ∀ id, Aside (preBringUp id)) (fit : Fit cfg body.dataImage w) :
    wp (sequential (exec env)) (Vms.spawnLocal self body self.id preBringUp)
      (fun _ w' => AgreeBut cfg nowhere w') w := by
  apply fit_then (spares_of [.vpcs] [] (ensureDefaultVpc_touch List.mem_cons_self) (by decide)
    (by decide) Aside.ensureDefaultVpc.within) fit (fun _ _ agree => agree)
  intro vpc w' fit
  apply fit_then (spares_of [] [] (Vms.resolveRootImage_touch body self.id) List.not_mem_nil
    List.not_mem_nil (Aside.resolveRootImage body self.id).within) fit (fun _ _ agree => agree)
  intro origin w' fit
  apply agree_then (autoVolume_agrees own body fit)
  intro vol w' agree
  -- what is left makes a root disk, from whatever image
  have anywhere : Grants (fun _ _ => True) (Leaves nowhere) := leaves_grants
  refine agree_keeps (spares_of [.vms, .publicIps] [] ?_ (by decide) (by decide) ?_) agree
  · apply Only.bind (Vms.usedIps_touch _)
    intro used
    apply Only.bind (.fromExcept _)
    intro ip
    apply Only.bind (.uuid4 .uuid4)
    intro id
    apply Only.bind (.now .now)
    intro time
    apply Only.bind (.insert (.insert .vms _ (by decide)))
    intro _
    apply Only.bind (touch _)
    intro _
    exact .bind (Vms.bringUp_touch self ..) fun _ => .pure _
  · apply Only.bind (Aside.usedIps _).within
    intro used
    apply Only.bind (.fromExcept _)
    intro ip
    apply Only.bind (.uuid4 trivial)
    intro id
    apply Only.bind (.now trivial)
    intro time
    apply Only.bind (.insert trivial)
    intro _
    apply Only.bind (offHost _).within
    intro _
    exact .bind (anywhere.bringUp self _ _ _ _ trivial) fun _ => .pure _

theorem createProxyLocal_agrees (body : ProxyIn) (vpc : VpcRow) (agree : AgreeBut cfg nowhere w) :
    wp (sequential (exec env)) (Proxy.createProxyLocal self body vpc self.id)
      (fun _ w' => AgreeBut cfg nowhere w') w := by
  -- the VM of a proxy has a blank data volume
  have fit : Fit cfg (Proxy.spawnBody body).dataImage w := by
    refine ⟨agree, fun r _ given => ?_⟩
    cases given
  apply fit_then (spares_of [.publicIps] [] (PublicIps.usedAddresses_touch _ (by decide))
    (by decide) (by decide) (Aside.usedAddresses _).within) fit (fun _ _ agree => agree)
  intro used w' fit
  apply fit_then (spares_of [] [] (.fromExcept _) List.not_mem_nil List.not_mem_nil
    (.fromExcept _)) fit (fun _ _ agree => agree)
  intro entry w' fit
  apply fit_then (spares_of [] [] (.now .now) List.not_mem_nil List.not_mem_nil
    (.now trivial)) fit (fun _ _ agree => agree)
  intro time w' fit
  apply fit_then (spares_of [] [] (.uuid4 .uuid4) List.not_mem_nil List.not_mem_nil
    (.uuid4 trivial)) fit (fun _ _ agree => agree)
  intro pipId w' fit
  apply agree_then (spawnLocal_agrees own (Proxy.spawnBody body) _
    (fun _ => .insert (.insert .publicIps _ (by decide))) (fun _ => .insert trivial) fit)
  intro vm w' agree
  exact agree_keeps (spares_of [.proxies, .tasks] []
    (Proxy.record_touch _ _ _ _ _ _ (by decide) (by decide)) (by decide) (by decide)
    (Aside.record ..).within) agree

/-! ## Requests -/

omit own

/-- The image that a request clones to a data volume. -/
def cloned : Request → Option Id
  | .createVolume body => body.fromSnapshot
  | .spawnVm body _ => body.dataImage
  | _ => none

include own

theorem serveHere_agrees (sound : ∀ k, (env.chance k).fails = false) (req : Request)
    (found : Api.Found req) (fit : Fit cfg (cloned req) w) (known : Api.Known w.db req found)
    (here : Api.ownerOf self req found = self.id) :
    wp (sequential (exec env)) (Api.serveHere self req found)
      (fun _ w' => AgreeBut cfg nowhere w') w := by
  by_cases plain : Plain req
  · apply agree_keeps _ fit.agree
    apply spares_of req.writes req.deletes (Api.serveHere_touch self req found .refl) _ _
      (leaves_grants.serveHere self req found plain)
    · cases req <;> first | exact False.elim plain | simp [Request.writes]
    · cases req <;> first | exact False.elim plain | simp [Request.writes]
  have removal (row : SnapshotRow) (rid : Id) (there : row ∈ w.db .snapshots)
      (same : row.id = rid) :
      wp (sequential (exec env)) (do
        self.sh (SnapAction.remove (self.volumeVg row.nodeId) row.lvName)
        let _ ← delete .snapshots fun r => r.id = rid
        return Response.empty) (fun _ w' => AgreeBut cfg nowhere w') w := by
    subst same
    exact deleteImage_agrees row (fit.agree.named row there) fit.agree
  cases req with
  | createVolume body => exact createVolume_agrees own body fit
  | resizeVolume volumeId body =>
    exact resize_agrees own sound found body.sizeMb known.1 here fit.agree
  | deleteVolume volumeId => exact deleteVolume_agrees found fit.agree
  | createSnapshot body =>
    apply createSnapshot_agrees own body found here _ fit.agree
    intro data
    obtain ⟨vol, there, rfl⟩ | ⟨vm, -, rfl⟩ := known
    · have sized := fit.agree.volumes vol there not_false
      rwa [show vol.nodeId = self.id from here] at sized
    · cases data
  | deleteSnapshot snapshotId => exact removal found _ known.1 known.2.1
  | createImage body =>
    obtain ⟨there, -, role⟩ := known
    apply createImage_agrees own body found _ fit.agree
    intro data
    -- a promotion names the volume by the id of the snapshot
    have sized := fit.agree.snapshots found there data not_false
    rwa [fit.agree.named found there, role, show found.nodeId = self.id from here] at sized
  | deleteImage imageId => exact removal found _ known.1 known.2.1
  | spawnVm body pin =>
    apply agree_then (spawnLocal_agrees own body _ (fun _ => .pure _) (fun _ => .pure _) fit)
    intro _ _ agree
    exact agree
  | createProxy body => exact createProxyLocal_agrees own body found.1 fit.agree
  | reconcileNow =>
    apply agree_then (passOnce_agrees fit.agree)
    intro _ _ agree
    exact agree
  | _ => exact absurd trivial plain

omit own

theorem serve_agrees (sound : ∀ k, (env.chance k).fails = false) (hops : Nat) (nodeId : Id)
    (req : Request) (fit : Fit cfg (cloned req) w) :
    wp (sequential (exec env)) (Api.serve cfg hops nodeId req)
      (fun _ w' => AgreeBut cfg nowhere w') w := by
  apply Api.serve_rule env cfg (fun req w => Fit cfg (cloned req) w) _ _ _ _ _ hops nodeId req w fit
  · intro req w fit
    exact ⟨fit.agree.tick, fit.data⟩
  · intro req e w fit
    exact fit.agree
  · intro e w agree
    exact agree
  · intro nodeId forward req w fit on
    -- the image that is cloned is the same on the owner's node
    have again (target : Id) : cloned (Api.handedTo target req) = cloned req := by
      cases req <;> rfl
    have looks : Only (Spares nowhere) (Api.lookUp ⟨nodeId, cfg nodeId⟩ req) :=
      spares_of [.vpcs, .publicIps] [] (Api.lookUp_touch _ req fun _ there _ => there) (by decide)
        (by decide) (Aside.lookUp _ req).within
    apply Api.endpoint_sequential (J := Fit cfg (cloned req))
      (fun _ _ spares fit => fit.spares spares) looks fit (fun _ _ fit => fit.agree)
    · intro found w' fit
      apply on
      rwa [again]
    · intro found w' fit known here
      have own : (⟨nodeId, cfg nodeId⟩ : Node).cfg = cfg nodeId := rfl
      exact serveHere_agrees own sound req found fit known here

end Programs

/-! ## Runs -/

def passes : Request → Bool
  | .reconcileNow => true
  | _ => false

/-- What is cloned to a data volume is an image of a data volume. A pass is of a node whose thin
pool does not look like a volume of its own: with the pool its volumes would go. -/
def ofData (cfg : Id → NodeConfig) : Action → World → Prop
  | .request n req, w => (∀ r ∈ (w.db .snapshots).rows, some r.id = cloned req → r.disk = .data) ∧
    (passes req = true → ¬ RoleName (cfg n).lvm.thinpool)
  | .reconcile n, _ => ¬ RoleName (cfg n).lvm.thinpool
  | .tick _, _ | .join _, _ | .leave _, _ => True

theorem action_agrees {cfg : Id → NodeConfig} {env : Env} {w : World}
    (sound : ∀ k, (env.chance k).fails = false) (hops : Nat) (a : Action) (may : ofData cfg a w)
    (agree : AgreeBut cfg nowhere w) :
    wp (sequential (exec env)) (a.program cfg hops) (fun _ w' => AgreeBut cfg nowhere w') w := by
  have grants : Grants byDefault (Leaves nowhere) := leaves_grants
  have keeps (p : Py Response) (spares : Only (Spares nowhere) p) :
      wp (sequential (exec env)) p (fun _ w' => AgreeBut cfg nowhere w') w :=
    agree_keeps spares agree
  apply Action.rule (C := fun p => wp (sequential (exec env)) p
    (fun _ w' => AgreeBut cfg nowhere w') w) cfg hops a keeps
  · intro nodeId
    exact spares_of [.tasks] [] (tick_touch _ (by decide)) (by decide) (by decide) (grants.tick _)
  · intro row
    exact ⟨trivial, [.nodes], [], .insert _ _ List.mem_cons_self, by decide, by decide⟩
  · intro p
    exact ⟨trivial, [], [.nodes], .delete _ _ List.mem_cons_self, by decide, by decide⟩
  · rintro nodeId req rfl
    exact serve_agrees sound hops nodeId req ⟨agree, may.1⟩
  · intro nodeId _
    apply agree_then (passOnce_agrees agree)
    intro _ _ agree
    exact agree

/-- In every run that clones no image of a root disk to a data volume, the rows of the volumes give
the sizes of their LVs. -/
theorem sizes_agree (cfg : Id → NodeConfig) (env : Env) (hops : Nat)
    (sound : ∀ k, (env.chance k).fails = false) (start : World)
    (volumes : ∀ r, ¬ r ∈ start.db .volumes) (snapshots : ∀ r, ¬ r ∈ start.db .snapshots)
    (w : World)
    (reached : Reached (exec env) (Action.program cfg hops) (ofData cfg) anyEnd start w) :
    Agree cfg w := by
  have new : AgreeBut cfg nowhere start :=
    ⟨fun r there => absurd there (volumes r), fun r there => absurd there (snapshots r),
      fun r there => absurd there (snapshots r)⟩
  have agree := reached.holds (AgreeBut cfg nowhere) new fun a w agree may => by
    rw [wp_sequential]
    intro _
    exact (wp_sequential _ _ _ _).mp (action_agrees sound hops a may agree)
  intro r there
  exact agree.volumes r there not_false

/-! ## A volume from a root disk -/

instance (cfg : Id → NodeConfig) (w : World) : Decidable (Agree cfg w) :=
  inferInstanceAs (Decidable (∀ r ∈ (w.db .volumes).rows,
    (w.hosts r.nodeId).Sized (lvKey cfg r.nodeId (Names.data r.id)) r.sizeMb))

/-- A VM, a snapshot of its root disk, and a data volume from this. -/
def fromRoot : List Action :=
  [.request "n1" (.spawnVm Sample.spawn none),
    .request "n1" (.createSnapshot ⟨"s", none, some Sample.v1⟩),
    .request "n1" (.createVolume ⟨"copy", 0, none, some "10000068"⟩)]

theorem fromRoot_reached : ∃ w, Reached (exec Sample.env) (Action.program Sample.cluster 1)
    anyAction succeeded Sample.fresh w ∧ ¬ Agree Sample.cluster w :=
  Reached.exists_of_follow fromRoot _ (by decide +kernel)

/-- Every request succeeds, and the row says that the volume has no size. -/
theorem root_copy_has_no_size :
    ¬ ∀ w, Reached (exec Sample.env) (Action.program Sample.cluster 1) anyAction succeeded
      Sample.fresh w → Agree Sample.cluster w := by
  intro agree
  obtain ⟨w, reached, differs⟩ := fromRoot_reached
  exact differs (agree w reached)

/-! ## A volume that outgrows its copies -/

instance (cfg : Id → NodeConfig) (a : Action) (w : World) : Decidable (ofData cfg a w) :=
  match a with
  | .request n req => inferInstanceAs (Decidable
    ((∀ r ∈ (w.db .snapshots).rows, some r.id = cloned req → r.disk = .data) ∧
      (passes req = true → ¬ RoleName (cfg n).lvm.thinpool)))
  | .reconcile n => inferInstanceAs (Decidable (¬ RoleName (cfg n).lvm.thinpool))
  | .tick _ | .join _ | .leave _ => .isTrue trivial

/-- A volume that is extended, snapshotted, promoted and extended again; a copy of the image, and a
VM with another. -/
def outgrows : List Action :=
  [.request "n1" (.createVolume ⟨"data", 64, none, none⟩),
    .request "n1" (.resizeVolume "10000000" ⟨128⟩),
    .request "n1" (.createSnapshot ⟨"s", some "10000000", none⟩),
    .request "n1" (.createImage ⟨"i", "10000010"⟩),
    .request "n1" (.resizeVolume "10000000" ⟨256⟩),
    .request "n1" (.createVolume ⟨"copy", 0, none, some "10000015"⟩),
    .request "n1" (.deleteSnapshot "10000010"),
    .request "n1" (.spawnVm { Sample.spawn with dataImage := some "10000015".toList } none)]

def outgrown (w : World) : Prop := (w.db .volumes).rows.map VolumeRow.sizeMb = [256, 128, 128]

instance (w : World) : Decidable (outgrown w) := inferInstanceAs (Decidable (_ = _))

theorem outgrows_reached : ∃ w, Reached (exec Sample.env) (Action.program Sample.cluster 1)
    (ofData Sample.cluster) anyEnd Sample.fresh w ∧ outgrown w :=
  Reached.exists_of_follow outgrows _ (by decide +kernel)

theorem outgrown_sizes_agree : ∃ w, outgrown w ∧ Agree Sample.cluster w := by
  obtain ⟨w, reached, grown⟩ := outgrows_reached
  have volumes (r : VolumeRow) : ¬ r ∈ Sample.fresh.db .volumes := by
    intro there
    cases there
  have snapshots (r : SnapshotRow) : ¬ r ∈ Sample.fresh.db .snapshots := by
    intro there
    cases there
  exact ⟨w, grown, sizes_agree Sample.cluster Sample.env 1 (fun _ => rfl) Sample.fresh
    volumes snapshots w reached⟩

end Sizes

end Nyc
