import Nyc.Client.Pool
import Nyc.Inventory.Commands

/-!
# Rows and volumes

A dozen requests write rows and LVs, in different orders. Every one of them, on success and on
failure, leaves as many LVs as rows, with the names that the rows give: where `sudo` does not
fail, the ids are fresh and the name of the thin pool has none of the four prefixes.
-/

namespace Nyc

open Data Effects Effects.Program Client

namespace Inventory

/-- The row that a request deletes. -/
inductive Deletes : Request → Owner → Prop where
  | volume (r : VolumeRow) : Deletes (.deleteVolume r.id) (.volume r)
  | snapshot (r : SnapshotRow) (role : r.role = .snapshot) :
    Deletes (.deleteSnapshot r.id) (.snapshot r)
  | image (r : SnapshotRow) (role : r.role = .golden) : Deletes (.deleteImage r.id) (.snapshot r)
  | vm (r : VmRow) : Deletes (.deleteVm r.id) (.vm r)

/-- Every other volume of every node is as it was; the row's own is gone, if the request
succeeds. -/
structure RemovesOwn (cfg : Id → NodeConfig) (o : Owner) (w : World) (r : Except Exn Response)
    (w' : World) :
    Prop where
  others : ∀ n k, ¬ (n = o.node ∧ k = lvKey cfg o.node o.lv) →
    (w'.hosts n).lvs.lookup k = (w.hosts n).lvs.lookup k
  own : succeeded r → ¬ (w'.hosts o.node).HasLv (lvKey cfg o.node o.lv)

/-! ## Runs -/

/-- What happens in these runs: requests, and reaps of the VMs that have expired. -/
inductive Act where
  | request (nodeId : Id) (req : Request)
  | reap (nodeId : Id)

namespace Act

def program (cfg : Id → NodeConfig) (hops : Nat) : Act → Py Response
  | request nodeId req => Api.serve cfg hops nodeId req
  | reap nodeId => do
    let _ ← TtlPass.reconcile ⟨nodeId, cfg nodeId⟩
    return .empty

end Act

/-- The requests on volumes, snapshots, images, VMs and public addresses, and on proxies. -/
def Listed : Request → Prop
  | .createVolume _ | .resizeVolume _ _ | .deleteVolume _ | .createSnapshot _ | .deleteSnapshot _
  | .createImage _ | .deleteImage _ | .createVm _ | .spawnVm _ _ | .stopVm _ | .startVm _
  | .deleteVm _ | .attachPublicIp _ | .detachPublicIp _ | .createProxy _ => True
  | _ => False

/-- An action at one of the nodes. -/
def listed (nodes : Id → Prop) : Act → World → Prop
  | .request nodeId req, _ => nodes nodeId ∧ Listed req
  | .reap nodeId, _ => nodes nodeId

/-- What `pool.ensure` leaves on new nodes: the pool, the base image and the default image. -/
structure Booted (cfg : Id → NodeConfig) (nodes : Id → Prop) (w : World) : Prop where
  volumes : ∀ r, ¬ r ∈ w.db .volumes
  snapshots : ∀ r, ¬ r ∈ w.db .snapshots
  vms : ∀ r, ¬ r ∈ w.db .vms
  publicIps : ∀ r, ¬ r ∈ w.db .publicIps
  registered : ∀ r ∈ w.db .nodes, nodes r.nodeId
  lvs : ∀ n name, nodes n → (w.hosts n).HasLv (lvKey cfg n name) →
    name = (cfg n).lvm.thinpool ∨ name = Pool.BASE_ROOTFS ∨ name = GOLD_DEFAULT
  golden : ∀ n, nodes n → (w.hosts n).HasLv (lvKey cfg n GOLD_DEFAULT)

/-- What these runs assume of the surroundings. -/
structure Assumed (cfg : Id → NodeConfig) (env : Env) (nodes : Id → Prop) : Prop where
  /-- `sudo` does not fail. -/
  sound : ∀ k, (env.chance k).fails = false
  fresh : Function.Injective env.uuid
  pool : ∀ n, nodes n → ¬ RoleName (cfg n).lvm.thinpool

/-! ## Requests -/

/-- The part runs no command, and writes only what is not about volumes. -/
theorem calm_of {α : Type} {p : Py α}
    (touch : Only (Touch [.vpcs, .proxies, .tasks] [.publicIps, .domains,
    .proxies, .tasks]) p) (off : Aside p) : Only Calm p :=
  (touch.and off).mono fun _ ok => ⟨ok.1, ok.2.onHosts _⟩

theorem calm_sh {α : Type} (self : Node) {p : Sh α} (steady : Only Steady p) :
    Only Calm (self.sh p) :=
  (sh_touch self p).and (.sh self (steady.mono fun _ ok => ok)) |>.mono fun _ ok => ⟨ok.1, ok.2⟩

section Rules

variable {cfg : Id → NodeConfig} {env : Env} {nodes : Id → Prop} {w₀ w : World} {α β : Type}
  {Q : Except Exn β → World → Prop}

/-- A calm part comes first. -/
theorem calm_then {p : Py α} {f : α → Py β} (calm : Only Calm p) (sofar : Moved nowhere w₀ w)
    (fails : ∀ e w', Moved nowhere w₀ w' → Q (.error e) w')
    (rest : ∀ a w', Moved nowhere w₀ w' → wp (watching env) (f a) Q w') :
    wp (watching env) (p >>= f) Q w :=
  checked_keeps_then (exec env) OriginThere (Moved nowhere w₀)
    (fun _ w' calm _ => origin_calm calm w')
    (fun _ _ calm sofar => sofar.trans (moved_calm calm)) calm sofar fails rest

theorem calm_keeps {p : Py α} (calm : Only Calm p) (w : World) :
    wp (watching env) p (fun _ w' => Moved nowhere w w') w :=
  checked_keeps (exec env) _ (Moved nowhere w) (fun _ w' calm _ => origin_calm calm w')
    (fun _ _ calm sofar => sofar.trans (moved_calm calm)) calm (.refl nowhere w)

theorem calm_balanced {p : Py α} (calm : Only Calm p) (balanced : Balanced cfg env nodes w) :
    wp (watching env) p (fun _ w' => Balanced cfg env nodes w') w :=
  checked_mono _ _ _ _ _ (fun _ _ moved => balanced.calm moved) w (calm_keeps calm w)

/-- A program on the node's host comes first. -/
theorem sh_then (self : Node) {p : Sh α} {f : α → Py β} {P : Except Exn α → World → Prop}
    (spec : wp (watchingOn env self.id) p P w) (fails : ∀ e w', P (.error e) w' → Q (.error e) w')
    (rest : ∀ a w', P (.ok a) w' → wp (watching env) (f a) Q w') :
    wp (watching env) (self.sh p >>= f) Q w := by
  rw [wp_bind, wp_sh, onHost_watching]
  refine checked_mono _ _ _ _ _ ?_ w spec
  rintro (e | a) w' post
  · exact fails e w' post
  · exact rest a w' post

theorem get_then {t : Tbl} {p : t.Row → Bool} {f : Option t.Row → Py β}
    (rest : wp (watching env) (f ((w.db t).get p)) Q w.tick) :
    wp (watching env) (get t p >>= f) Q w := by
  rw [wp_bind, get, wp_perform]
  exact ⟨trivial, rest⟩

theorem getAll_then {t : Tbl} {p : t.Row → Bool} {f : List t.Row → Py β}
    (rest : wp (watching env) (f ((w.db t).getAll p)) Q w.tick) :
    wp (watching env) (getAll t p >>= f) Q w := by
  rw [wp_bind, getAll, wp_perform]
  exact ⟨trivial, rest⟩

/-- A lookup that answers with an HTTP error where there is no row. -/
theorem lookup_then {t : Tbl} {p : t.Row → Bool} {code : Nat} {detail : Str} {f : t.Row → Py β}
    (fails : ∀ e, Q (.error e) w.tick)
    (rest : ∀ row ∈ w.db t, p row = true → wp (watching env) (f row) Q w.tick) :
    wp (watching env) (get t p >>= fun x => orHttp x code detail >>= f) Q w := by
  refine get_then ?_
  rw [wp_bind, wp_orHttp]
  cases found : (w.db t).get p with
  | none => exact fails _
  | some row =>
    obtain ⟨there, meets⟩ := Table.get_some found
    exact rest row there meets

theorem Inv.tick {out : Where} (inv : Inv cfg env nodes out w) : Inv cfg env nodes out w.tick :=
  inv.calm (.tick nowhere w)

theorem uuid_then {f : Id → Py β} (balanced : Balanced cfg env nodes w)
    (inj : Function.Injective env.uuid)
    (rest : Balanced cfg env nodes w.tick → Fresh env w.tick (env.uuid w.clock) →
      wp (watching env) (f (env.uuid w.clock)) Q w.tick) : wp (watching env) (uuid4 >>= f) Q w := by
  rw [wp_bind, uuid4, wp_perform]
  exact ⟨trivial, rest balanced.tick (balanced.fresh_uuid inj)⟩

theorem not_default_key {n n' : Id} {name : Str} (custom : name ≠ GOLD_DEFAULT) :
    ¬ at_ n (lvKey cfg n name) n' (lvKey cfg n' GOLD_DEFAULT) := by
  rintro ⟨rfl, same⟩
  exact custom (key_inj same).symm

theorem Fit.moved {e : Entry} {out : Where} {w' : World} (fit : Fit cfg env nodes e w)
    (moved : Moved out w w') : Fit cfg env nodes e w' where
  known := fit.known
  fresh := fit.fresh.moved moved
  custom := fit.custom
  vpc := by
    intro v vpc
    obtain ⟨r, there, same⟩ := fit.vpc v vpc
    exact ⟨r, moved.vpcs r there, same⟩

/-- The row of a volume that has been made since `w₀`. -/
theorem record_then {t : Tbl} {row : t.Row} {e : Entry} {f : Unit → Py β}
    (made : entryOf t row = some e) (balanced : Balanced cfg env nodes w₀)
    (fit : Fit cfg env nodes e w₀) (moved : Moved (at_ e.node (lvKey cfg e.node e.lv)) w₀ w)
      (has : (w.hosts e.node).HasLv (lvKey cfg e.node e.lv))
    (named : ∀ rows, (w.db t).insert row = some rows → NamedById (w.setTable t rows).db)
    (rest : ∀ w', Balanced cfg env nodes w' → Later w₀ w' → wp (watching env) (f ()) Q w') :
    wp (watching env) (insert t row >>= f) Q w := by
  have inv := (balanced.loosen (at_ e.node (lvKey cfg e.node e.lv))).moved moved fun _ =>
    not_default_key fit.custom
  obtain ⟨done, after, there, later, hosts⟩ := insert_exec made inv (fit.moved moved) named
  rw [wp_bind, Nyc.insert, wp_perform]
  refine ⟨trivial, ?_⟩
  rw [done, onValue_ok]
  refine rest _ (after.settle ?_) ((moved.later_made has).trans later)
  rw [hosts]
  exact iff_of_true has ⟨e, there, rfl, rfl⟩

/-- Rows of the other tables leave the snapshots alone. -/
theorem named_other {t : Tbl} (other : t ≠ .snapshots) (named : NamedById w.db)
    (rows : Table t.unique) :
    NamedById (w.setTable t rows).db := by
  rw [NamedById, setTable_ne w t .snapshots rows other.symm]
  exact named

theorem named_insert {row : SnapshotRow} {rows : Table Tbl.snapshots.unique}
    (inserted : (w.db .snapshots).insert row = some rows) (named : NamedById w.db)
    (own : row.lvName = lvOf row.role row.id) : NamedById (w.setTable .snapshots rows).db := by
  intro r there
  rw [setTable_self] at there
  rcases (Table.mem_insert inserted).mp there with old | rfl
  · exact named r old
  · exact own

end Rules

/-! ### Calm parts -/

section Calm

variable (self : Node)

theorem extend_steady (vg name : Str) (sizeMb : Int) : Only Steady (Lv.extend vg name sizeMb) :=
  .bind (.lvm fun _ moves => moves) fun _ => .lvm fun _ moves => moves

theorem resize_calm (row : VolumeRow) (sizeMb : Int) :
    Only Calm (Volumes.resizeLocal self row sizeMb) := by
  apply Only.bind (calm_sh self (extend_steady ..))
  intro _
  exact .bind (.update ⟨.size _ sizeMb, trivial⟩) fun _ => .pure _

theorem setStatus_calm (vmId : Id) (status : VmStatus) : Only Calm (Vms.setStatus vmId status) :=
  calm_of (Vms.setStatus_touch vmId status) (.setStatus vmId status)

theorem stop_calm (vmId : Id) : Only Calm (Vms.stopLocal self vmId) :=
  .bind (calm_sh self (kill_steady vmId)) fun _ => setStatus_calm vmId .stopped

theorem start_calm (vmId : Id) : Only Calm (Vms.startLocal self vmId) :=
  .bind (calm_sh self (create_steady _ _)) fun _ => setStatus_calm vmId .running

theorem teardown_calm (vmId : Id) : Only Calm (VmDeps.teardown vmId) :=
  calm_of (teardown_touch vmId (by decide) (by decide) (by decide)) (.teardown vmId)

end Calm

section Requests

variable {cfg : Id → NodeConfig} {env : Env} {nodes : Id → Prop} {w : World} {self : Node}

/-- A node of the cluster at work. -/
structure Home (cfg : Id → NodeConfig) (env : Env) (nodes : Id → Prop) (node : Node) : Prop
    extends Assumed cfg env nodes where
  own : node.cfg = cfg node.id
  known : nodes node.id

theorem Home.group (home : Home cfg env nodes self) (name : Str) :
    (self.volumeVg self.id, name) = lvKey cfg self.id name := by
  rw [Node.volumeVg, home.own, lvKey]

theorem cloned_spec {vg origin : Str} {n : Id} (name : Str)
    (there : (w.hosts n).HasLv (vg, origin)) :
    wp (watchingOn env n) (Lv.clone vg origin name) (Makes n (vg, name) w) w := by
  rw [Lv.clone, wp_bind]
  refine checked_mono _ _ _ _ _ ?_ w (clone_spec name false there)
  rintro (e | a) w' post <;> exact post

theorem snapshot_spec {vg origin : Str} {n : Id} (name : Str)
    (there : (w.hosts n).HasLv (vg, origin)) :
    wp (watchingOn env n) (Lv.snapshot vg origin name) (Makes n (vg, name) w) w := by
  rw [Lv.snapshot, wp_bind]
  refine checked_mono _ _ _ _ _ ?_ w (clone_spec name true there)
  rintro (e | a) w' post <;> exact post

variable (home : Home cfg env nodes self)

include home

/-! ### Volumes -/

/-- A volume is cloned from a row of the node, or made. -/
theorem provision_makes (body : VolumeIn) (name : Str) (balanced : Balanced cfg env nodes w) :
    wp (watching env) (Volumes.provision self body (self.volumeVg self.id) name self.id)
      (Makes self.id (lvKey cfg self.id name) w) w := by
  have ticked : Moved nowhere w w.tick := .tick nowhere w
  rw [Volumes.provision, wp_ite, ← home.group]
  split
  · refine get_then ?_
    rw [wp_bind, wp_orHttp]
    cases found : ((w.db .snapshots).get fun r => some r.id = body.fromSnapshot).filter
      fun r => r.nodeId = self.id with
    | none => exact ticked
    | some snap =>
      obtain ⟨row, here⟩ := Option.filter_eq_some_iff.mp found
      have there : snap ∈ w.db .snapshots := (Table.get_some row).1
      have node : snap.nodeId = self.id := of_decide_eq_true here
      have origin := balanced.has (mem_of_owner (o := .snapshot snap) there)
      change (w.hosts snap.nodeId).HasLv (lvKey cfg snap.nodeId snap.lvName) at origin
      rw [node, ← home.group] at origin
      refine sh_then self (P := Makes self.id (self.volumeVg self.id, name) w.tick)
        (cloned_spec name origin) (fun e w' moved => ticked.trans moved) fun dev w' made => ?_
      exact ⟨ticked.of_nowhere.trans made.1, made.2⟩
  · refine sh_then self (P := Makes self.id (self.volumeVg self.id, name) w)
      (create_spec home.sound ..) (fun e w' moved => moved) fun dev w' made => made

theorem createVolume_balanced (body : VolumeIn) (balanced : Balanced cfg env nodes w) :
    wp (watching env) (Volumes.createLocal self body self.id)
      (fun _ w' => Balanced cfg env nodes w') w := by
  refine uuid_then balanced home.fresh fun balanced fresh => ?_
  refine checked_bind _ _ (fun _ => Makes (α := Unit) self.id
    (lvKey cfg self.id (Names.data (env.uuid w.clock)))
    w.tick (.ok ())) ?_ fun made w' post => ?_
  · refine checked_mono _ _ _ _ _ ?_ _ (provision_makes home body _ balanced)
    rintro (e | a) w' post
    · exact balanced.calm post
    · exact post
  · obtain ⟨dev, sizeMb⟩ := made
    obtain ⟨moved, has⟩ := post
    rw [wp_bind, now, wp_perform]
    refine ⟨trivial, ?_⟩
    rw [exec_now, onValue_ok]
    refine record_then (e := ⟨.volumes, self.id, env.uuid w.clock,
      Names.data (env.uuid w.clock), none⟩) rfl
      balanced
      ⟨home.known, fresh, data_ne_default _, by rintro _ ⟨⟩⟩ (moved.trans (.tick _ w')) has
      (fun rows _ => named_other (t := .volumes) (by decide) ?_ rows) fun w'' balanced _ => balanced
    rw [NamedById, tick_db, moved.snapshots]
    exact balanced.named

/-- A volume and its row go. -/
theorem removeRow_then {β : Type} {t : Tbl} {p : t.Row → Bool} {e : Entry} {f : Nat → Py β}
    {Q : Except Exn β → World → Prop} (balanced : Balanced cfg env nodes w)
    (there : e ∈ entries w.db)
    (table : e.table = t) (volumes : t ∈ [Tbl.volumes, .snapshots, .vms]) (node : e.node = self.id)
    (names : ∀ w' : World, w'.db .snapshots = w.db .snapshots → ∀ r ∈ w'.db t, ∀ e',
      entryOf t r = some e' →
      (p r = true ↔ e'.lv = e.lv))
    (rest : ∀ a w', Balanced cfg env nodes w' → wp (watching env) (f a) Q w') :
    wp (watching env) (self.sh (Lv.remove (self.volumeVg self.id) e.lv) >>=
      fun _ => delete t p >>= f) Q
      w := by
  have removes := remove_spec (w := w) (n := self.id) home.sound (self.volumeVg self.id) e.lv
  rw [home.group] at removes
  refine sh_then self removes ?_ ?_
  · rintro _ _ ⟨⟨⟩, -⟩
  · rintro _ w' ⟨-, moved, gone⟩
    have custom := (balanced.placed e there).2.2
    have inv := (balanced.loosen (at_ self.id (lvKey cfg self.id e.lv))).moved moved fun _ =>
      not_default_key custom
    rw [wp_bind, Nyc.delete, wp_perform]
    refine ⟨trivial, rest _ _ (delete_exec inv gone ?_ (names w' moved.snapshots) volumes)⟩
    rw [moved.entries]
    intro e' there' same
    obtain rfl := entry_of_lv balanced.named there' there same
    exact ⟨table, node⟩

theorem deleteVolume_balanced (row : VolumeRow) (there : row ∈ w.db .volumes)
    (here : row.nodeId = self.id) (balanced : Balanced cfg env nodes w) :
    wp (watching env) (Volumes.deleteLocal self row) (fun _ w' => Balanced cfg env nodes w') w := by
  rw [Volumes.deleteLocal]
  refine get_then ?_
  rw [wp_bind, refuseIf, wp_whenTrue]
  split
  · exact balanced.tick
  · rw [onValue_ok, here]
    refine removeRow_then (e := Owner.entry (.volume row)) (t := .volumes) home balanced.tick
      (mem_of_owner (o := .volume row) there) rfl (by decide) here (fun w' _ r _ e' made => ?_)
      fun _ w' balanced => balanced
    cases made
    constructor
    · intro same
      exact congrArg Names.data (of_decide_eq_true same)
    · intro same
      exact decide_eq_true (data_inj same)

/-! ### Snapshots and images -/

/-- The row of a snapshot or of an image, once its volume is there. -/
theorem imageRow_balanced (row : Timestamp → SnapshotRow) {w₀ : World} {role : Role} {id : Id}
    (made : ∀ time, (row time).nodeId = self.id ∧ (row time).id = id ∧ (row time).role = role ∧
      (row time).lvName = lvOf role id)
    (balanced : Balanced cfg env nodes w₀) (fresh : Fresh env w₀ id)
    (moved : Moved (at_ self.id (lvKey cfg self.id (lvOf role id))) w₀ w)
    (has : (w.hosts self.id).HasLv (lvKey cfg self.id (lvOf role id))) (custom :
      lvOf role id ≠ GOLD_DEFAULT) :
    wp (watching env) (do
      let time ← now
      insert .snapshots (row time)
      return Response.snapshot (row time)) (fun _ w' => Balanced cfg env nodes w') w := by
  rw [wp_bind, now, wp_perform]
  refine ⟨trivial, ?_⟩
  rw [exec_now, onValue_ok]
  obtain ⟨node, id_, role_, lv⟩ := made (env.now w.clock)
  have entry : entryOf .snapshots
    (row (env.now w.clock)) = some ⟨.snapshots, self.id, id, lvOf role id, none⟩ := by
    rw [entryOf, node, id_, lv]
  refine record_then entry balanced ⟨home.known, fresh,
    custom, by rintro _ ⟨⟩⟩ (moved.trans (.tick _ w)) has
    (fun rows inserted => named_insert inserted ?_ ?_) fun w'' balanced _ => balanced
  · rw [NamedById, tick_db, moved.snapshots]
    exact balanced.named
  · rw [lv, role_, id_]

/-- A snapshot is a clone that takes a name of its own; the default image's is taken. -/
theorem image_then {origin : Str} (role : Role) {f : Path → Py Response} {id : Id}
    (balanced : Balanced cfg env nodes w)
    (there : (w.hosts self.id).HasLv (lvKey cfg self.id origin))
    (rest : ∀ dev w', Moved (at_ self.id (lvKey cfg self.id (lvOf role id))) w w' →
      (w'.hosts self.id).HasLv (lvKey cfg self.id (lvOf role id)) → lvOf role id ≠ GOLD_DEFAULT →
      wp (watching env) (f dev) (fun _ w' => Balanced cfg env nodes w') w') :
    wp (watching env) (self.sh (Lv.snapshot (self.volumeVg self.id) origin (lvOf role id)) >>= f)
      (fun _ w' => Balanced cfg env nodes w') w := by
  rw [← home.group] at there
  have clones : wp (watchingOn env self.id) _
      (Makes self.id (self.volumeVg self.id, lvOf role id) w) w :=
    snapshot_spec (lvOf role id) there
  rw [home.group] at clones
  by_cases default_ : lvOf role id = GOLD_DEFAULT
  · -- the clone fails
    have taken : (w.hosts self.id).HasLv (self.volumeVg self.id, lvOf role id) := by
      rw [home.group, default_]
      exact balanced.golden self.id home.known
    rw [wp_bind, wp_sh, onHost_watching, Lv.snapshot, wp_bind, lvm, wp_perform]
    refine ⟨there, ?_⟩
    cases done : (execOn env self.id (.lvm
      (.snapshot (self.volumeVg self.id) origin (lvOf role id) true))
      w).1 with
    | error e => exact balanced.calm (moved_error done)
    | ok a => exact absurd taken (exec_snapshot _ _ _ _ _ _ done).2.1
  · exact sh_then self clones (fun e w' moved => balanced.calm moved) fun dev w' made =>
      rest dev w' made.1 made.2 default_

theorem createSnapshot_balanced (body : SnapshotIn) (src : Snapshots.Source)
    (here : src.nodeId = self.id) (there : (w.hosts self.id).HasLv (lvKey cfg self.id src.sourceLv))
    (balanced : Balanced cfg env nodes w) :
    wp (watching env) (Snapshots.createSnapshotLocal self body src)
      (fun _ w' => Balanced cfg env nodes w') w := by
  refine uuid_then balanced home.fresh fun balanced fresh => ?_
  rw [here]
  refine image_then home .snapshot balanced there fun dev w' moved has custom => ?_
  exact imageRow_balanced home (fun time => ⟨env.uuid w.clock, self.id, body.name,
    .snapshot, src.disk,
    some src.parent, Names.snap (env.uuid w.clock), src.sizeMb, time⟩)
      (fun _ => ⟨rfl, rfl, rfl, rfl⟩)
    balanced fresh moved has custom

theorem createImage_balanced (body : ImageIn) (snap : SnapshotRow)
    (there : (w.hosts self.id).HasLv (lvKey cfg self.id (Names.snap snap.id)))
    (balanced : Balanced cfg env nodes w) :
    wp (watching env) (Snapshots.createImageLocal self body snap self.id)
      (fun _ w' => Balanced cfg env nodes w') w := by
  refine uuid_then balanced home.fresh fun balanced fresh => ?_
  refine image_then home .golden balanced there fun dev w' moved has custom => ?_
  exact imageRow_balanced home (fun time => ⟨env.uuid w.clock, self.id, body.name,
    .golden, snap.disk,
    some snap.id, Names.gold (env.uuid w.clock), snap.sizeMb, time⟩) (fun _ => ⟨rfl, rfl, rfl, rfl⟩)
    balanced fresh moved has custom

theorem deleteImage_balanced (row : SnapshotRow) (there : row ∈ w.db .snapshots)
    (here : row.nodeId = self.id) (balanced : Balanced cfg env nodes w) :
    wp (watching env) (do
      self.sh (SnapAction.remove (self.volumeVg row.nodeId) row.lvName)
      let _ ← delete .snapshots fun r => r.id = row.id
      return Response.empty) (fun _ w' => Balanced cfg env nodes w') w := by
  rw [here]
  refine removeRow_then (e := Owner.entry (.snapshot row)) (t := .snapshots) home balanced
    (mem_of_owner (o := .snapshot row) there) rfl (by decide) here (fun w' same r old e' made => ?_)
    fun _ w' balanced => balanced
  cases made
  rw [same] at old
  change decide (r.id = row.id) = true ↔ r.lvName = row.lvName
  rw [decide_eq_true_iff]
  constructor
  · intro id
    rw [(w.db .snapshots).eq_of_key SnapshotRow.id List.mem_cons_self old there id]
  · intro lv
    rw [balanced.named r old, balanced.named row there] at lv
    exact lvOf_inj lv

/-! ### VMs -/

omit home in
theorem default_ne_rootfs (vmId : Id) : GOLD_DEFAULT ≠ Names.rootfs vmId :=
  (rootfs_ne_default vmId).symm

/-- The VM has a row, and gets its root disk here. -/
theorem bringUp_balanced (row : VmRow) (cidr : Str) (volPath : Option Path) (sshPubkey : Option Str)
    {origin : Str} (here : row.nodeId = self.id)
    (inv : Inv cfg env nodes (at_ self.id (lvKey cfg self.id (Names.rootfs row.id))) w)
    (named : Named w.db self.id (Names.rootfs row.id))
      (there : (w.hosts self.id).HasLv (lvKey cfg self.id origin))
    (other : origin ≠ Names.rootfs row.id) :
    wp (watching env) (Vms.bringUp self row cidr volPath sshPubkey origin)
      (fun _ w' => Balanced cfg env nodes w') w := by
  simp only [Vms.bringUp, Vms.spec, LawfulMonad.bind_assoc, pure_bind]
  -- nothing is raised before the VM is brought up
  rw [wp_bind, get, wp_perform]
  refine ⟨trivial, ?_⟩
  rw [exec_get, onValue_ok]
  refine checked_bind _ _ (fun _ w' => Moved nowhere w w') ?_ fun nodeHost w' moved => ?_
  · refine get_then ?_
    split <;> exact .trans (.tick nowhere w) (.tick nowhere _)
  refine checked_bind _ _ (fun _ w' => Moved nowhere w w') ?_ fun peerHosts w'' moved => ?_
  · rw [Peers.peerHosts, wp_bind, getAll, wp_perform]
    exact ⟨trivial, moved.trans (.tick nowhere w')⟩
  have origin_there := (moved.has self.id _ not_false).mpr there
  rw [← home.group] at origin_there
  refine sh_then self (P := fun _ w' => Balanced cfg env nodes w')
    (checked_mono _ _ _ _ _ ?_ _ (up_spec home.sound
    { vmId := row.id, nodeId := row.nodeId, vpcId := row.vpcId, ip := row.ip, cidr := cidr,
      dataVolumePath := volPath, kernel := self.cfg.paths.kernel, sshKey := self.cfg.paths.sshKey,
      vmsDir := self.cfg.paths.vmsDir, vg := self.volumeVg row.nodeId, nodeHost := nodeHost,
      peerHosts := peerHosts, dns := self.cfg.dns, sshPubkey := sshPubkey,
        vcpuCount := row.vcpuCount,
      memMib := row.memMib, rootfsOrigin := origin,
      publicIp := ((w.db .publicIps).get (VmDeps.attachedTo row.id)).map Vms.publicIpSpec,
      publicBridge := self.cfg.pubip.bridge, sets := self.cfg.sets } (here ▸ origin_there) other))
    (fun e w' balanced => balanced) fun _ w' balanced => ?_
  · rintro r w' ⟨up, has⟩
    change Moved (at_ self.id (self.volumeVg row.nodeId, Names.rootfs row.id)) w'' w' at up
    change (w'.hosts self.id).HasLv (self.volumeVg row.nodeId, Names.rootfs row.id) at has
    rw [here, home.group] at up has
    have after := (inv.calm moved).moved up fun _ => not_default_key (rootfs_ne_default _)
    refine after.settle (iff_of_true has ?_)
    rw [Named, up.entries, moved.entries]
    exact named
  · exact calm_balanced (.bind (.update ⟨.status _ .running, trivial⟩) fun _ => .pure _) balanced

/-- The row of a new VM, before its root disk. -/
theorem newVm_then {β : Type} (row : VmRow) (here : row.nodeId = self.id) {f : Unit → Py β}
    {Q : Except Exn β → World → Prop} (balanced : Balanced cfg env nodes w)
    (fresh : Fresh env w row.id) (vpc : ∃ r ∈ w.db .vpcs, r.id = row.vpcId)
    (rest : ∀ w', Inv cfg env nodes (at_ self.id (lvKey cfg self.id (Names.rootfs row.id))) w' →
      Named w'.db self.id (Names.rootfs row.id) → Later w w' → wp (watching env) (f ()) Q w') :
    wp (watching env) (insert .vms row >>= f) Q w := by
  have fit : Fit cfg env nodes (Owner.entry (.vm row)) w := by
    refine ⟨?_, fresh, rootfs_ne_default _, ?_⟩
    · change nodes row.nodeId
      rw [here]
      exact home.known
    change ∀ v, some row.vpcId = some v → _
    rintro v ⟨⟩
    exact vpc
  obtain ⟨done, inv, there, later, -⟩ := insert_exec (e := Owner.entry (.vm row)) (t := .vms) rfl
    (balanced.loosen _) fit fun rows _ => named_other (t := .vms) (by decide) balanced.named rows
  rw [wp_bind, Nyc.insert, wp_perform]
  refine ⟨trivial, ?_⟩
  rw [done, onValue_ok]
  change Inv cfg env nodes (at_ row.nodeId (lvKey cfg row.nodeId (Names.rootfs row.id))) _ at inv
  rw [here] at inv
  exact rest _ inv ⟨_, there, here, rfl⟩ later

theorem createVm_balanced (body : VmIn) (balanced : Balanced cfg env nodes w) :
    wp (watching env) (Vms.createLocal self body self.id)
      (fun _ w' => Balanced cfg env nodes w') w := by
  rw [Vms.createLocal, Vms.vpcOr404, LawfulMonad.bind_assoc]
  refine lookup_then (fun _ => balanced.tick) fun vpc there same => ?_
  have volume : Only Calm (Vms.bodyVolumePath body) :=
    calm_of (Vms.bodyVolumePath_touch body) (.bodyVolumePath body)
  have used : Only Calm (Vms.usedIps body.vpcId) := calm_of (Vms.usedIps_touch _) (.usedIps _)
  have sofar : Moved nowhere w w.tick := .tick nowhere w
  refine calm_then volume sofar (fun _ _ moved => balanced.calm moved) fun volPath w₁ sofar => ?_
  refine calm_then used sofar (fun _ _ moved => balanced.calm moved) fun ips w₂ sofar => ?_
  refine calm_then (.fromExcept _) sofar (fun _ _ moved => balanced.calm moved)
    fun ip w₃ sofar => ?_
  refine uuid_then (balanced.calm sofar) home.fresh fun balanced fresh => ?_
  rw [wp_bind, now, wp_perform]
  refine ⟨trivial, ?_⟩
  rw [exec_now, onValue_ok]
  have network : vpc ∈ w₃.db .vpcs := sofar.vpcs vpc there
  refine newVm_then home _ rfl balanced.tick (fresh.moved (.tick nowhere _))
    ⟨vpc, network, of_decide_eq_true same⟩ fun w₄ inv named later => ?_
  rw [wp_bind]
  refine checked_mono _ _ _ _ _ ?_ _ (bringUp_balanced home _ vpc.cidr volPath none rfl inv named
    (inv.golden self.id home.known) (default_ne_rootfs _))
  rintro (e | _) w' balanced <;> exact balanced

/-- A VM that has been taken down and has lost its row. -/
theorem removeVm_then {β : Type} (vmId : Id) {f : Nat → Py β} (balanced : Balanced cfg env nodes w)
    (here : ∀ e ∈ entries w.db, e.lv = Names.rootfs vmId → e.node = self.id)
    {Q : Except Exn β → World → Prop} (fails : ∀ e w', Moved nowhere w w' → Q (.error e) w')
    (rest : ∀ a w', Balanced cfg env nodes w' → (∀ e ∈ entries w'.db, e ∈ entries w.db) →
      wp (watching env) (f a) Q w') :
    wp (watching env) (self.sh (VmDown.run vmId (self.volumeVg self.id)) >>= fun _ =>
      delete .vms (fun r => r.id = vmId) >>= f) Q w := by
  have down := down_spec (w := w) (n := self.id) home.sound vmId (self.volumeVg self.id)
  rw [home.group] at down
  refine sh_then self down (fun e w' post => fails e w' (post.1 e rfl)) fun _ w' post => ?_
  obtain ⟨moved, gone⟩ := post.2 rfl
  have inv := (balanced.loosen (at_ self.id (lvKey cfg self.id (Names.rootfs vmId)))).moved moved
    fun _ => not_default_key (rootfs_ne_default vmId)
  rw [wp_bind, Nyc.delete, wp_perform]
  refine ⟨trivial, rest _ _ (delete_exec inv gone ?_ ?_ (by decide)) ?_⟩
  · rw [moved.entries]
    intro e there same
    refine ⟨?_, here e there same⟩
    -- only the VMs have root disks
    obtain ⟨o, inside, rfl⟩ := mem_entries.mp there
    cases o with
    | volume r => exact absurd same (data_ne_rootfs _ _)
    | snapshot r =>
      rw [entry_lv, Owner.lv, balanced.named r inside] at same
      exact absurd same.symm (rootfs_ne_lvOf _ _ _)
    | vm r => rfl
  · intro r _ e made
    cases made
    constructor
    · intro same
      exact congrArg Names.rootfs (of_decide_eq_true same)
    · intro same
      exact decide_eq_true (rootfs_inj same)
  · intro e there
    rw [exec_delete] at there
    have old := (mem_entries_update .vms _).mp there
    rw [← moved.entries]
    rcases old with ⟨r, stays, made⟩ | ⟨old, -⟩
    · exact ⟨.vms, r, (Table.mem_delete.mp stays).1, made⟩
    · exact old

omit home in
/-- A VM with a row on the node has its root disk there. -/
theorem here_of_row (balanced : Balanced cfg env nodes w) {vm : VmRow} (there : vm ∈ w.db .vms)
    (here : vm.nodeId = self.id) :
    ∀ e ∈ entries w.db, e.lv = Names.rootfs vm.id → e.node = self.id := by
  intro e there' same
  rw [entry_of_lv balanced.named there' (mem_of_owner (o := .vm vm) there) same]
  exact here

theorem deleteVm_balanced (vmId : Id) (balanced : Balanced cfg env nodes w)
    (here : ∀ e ∈ entries w.db, e.lv = Names.rootfs vmId → e.node = self.id) :
    wp (watching env) (Vms.deleteLocal self vmId self.id)
      (fun _ w' => Balanced cfg env nodes w') w := by
  refine calm_then (teardown_calm vmId) (.refl nowhere w) (fun _ _ moved => balanced.calm moved)
    fun _ w' moved => ?_
  refine removeVm_then home vmId (balanced.calm moved) (by rw [moved.entries]; exact here)
    (fun _ _ moved' => (balanced.calm moved).calm moved') fun _ w'' balanced _ => balanced

/-- The old root disk goes, and a new one is cloned from the default image. -/
theorem recreateVm_balanced (vmId : Id) (balanced : Balanced cfg env nodes w)
    (here : ∀ e ∈ entries w.db, e.lv = Names.rootfs vmId → e.node = self.id) :
    wp (watching env) (Vms.recreateVm self vmId) (fun _ w' => Balanced cfg env nodes w') w := by
  refine get_then ?_
  cases found : (w.db .vms).get fun r => r.id = vmId with
  | none => exact balanced.tick
  | some d =>
    obtain ⟨there, same⟩ := Table.get_some found
    obtain rfl : d.id = vmId := of_decide_eq_true same
    have entry : Owner.entry (.vm d) ∈ entries w.db := mem_of_owner (o := .vm d) there
    have node : d.nodeId = self.id := here _ entry rfl
    obtain ⟨vpc, network, linked⟩ := balanced.linked _ entry d.vpcId rfl
    have down := down_spec (w := w.tick) (n := self.id) home.sound d.id (self.volumeVg self.id)
    rw [home.group] at down
    rw [whenSome, node]
    refine sh_then self down (fun e w' post => balanced.tick.calm (post.1 e rfl))
      fun _ w' post => ?_
    obtain ⟨moved, gone⟩ := post.2 rfl
    have inv := (balanced.tick.loosen (at_ self.id (lvKey cfg self.id (Names.rootfs d.id)))).moved
      moved
      fun _ => not_default_key (rootfs_ne_default _)
    -- its network is there, so the VM is built again
    refine get_then ?_
    cases again : (w'.db .vpcs).get fun r => r.id = d.vpcId with
    | none =>
      have missing := Table.get_none.mp again vpc (moved.vpcs vpc network)
      rw [linked] at missing
      simp at missing
    | some vpc' =>
      rw [whenSome, Vms.rebuild]
      refine checked_bind _ _ (fun _ w'' => Moved nowhere w' w'') ?_ fun volPath w'' moved' => ?_
      · rw [Vms.rebuildVolumePath, wp_ite]
        split
        · refine get_then ?_
          exact .trans (.tick nowhere w') (.tick nowhere _)
        · exact .tick nowhere w'
      · refine bringUp_balanced home d _ volPath none node (inv.calm moved') ?_
          ((inv.calm moved').golden self.id home.known) (default_ne_rootfs _)
        rw [Named, moved'.entries, moved.entries]
        exact ⟨_, entry, node, rfl⟩

/-! ### Spawns -/

omit home in
/-- A row of the node's images has its volume there. -/
theorem image_there (balanced : Balanced cfg env nodes w) {img : SnapshotRow}
    (there : img ∈ w.db .snapshots)
    (here : img.nodeId = self.id) : (w.hosts self.id).HasLv (lvKey cfg self.id img.lvName) := by
  have has := balanced.has (mem_of_owner (o := .snapshot img) there)
  change (w.hosts img.nodeId).HasLv (lvKey cfg img.nodeId img.lvName) at has
  rw [here] at has
  exact has

/-- A root disk's origin is there, and is no root disk. -/
structure Origin (cfg : Id → NodeConfig) (n : Id) (origin : Str) (w : World) : Prop where
  there : (w.hosts n).HasLv (lvKey cfg n origin)
  other : ∀ vmId, origin ≠ Names.rootfs vmId

omit home in
/-- What is refused promises nothing. -/
theorem of_refused {α : Type} {P : α → Prop} (e : Exn) : ∀ a, Except.error e = .ok a → P a := by
  intro a same
  cases same

/-- The origin is the default image, or that of an image on the node. -/
theorem resolveRootImage_spec (body : SpawnIn) (balanced : Balanced cfg env nodes w) :
    wp (watching env) (Vms.resolveRootImage body self.id) (fun r w' => Moved nowhere w w' ∧
      ∀ origin, r = .ok origin → Origin cfg self.id origin w') w := by
  rw [Vms.resolveRootImage, wp_ite]
  split
  · have ticked : Moved nowhere w w.tick := .tick nowhere w
    simp only [Vms.imageOr400, LawfulMonad.bind_assoc]
    refine lookup_then (fun _ => ⟨ticked, of_refused _⟩) fun img there meets => ?_
    rw [wp_bind, refuseIf, wp_whenTrue]
    split
    · exact ⟨ticked, of_refused _⟩
    · rw [onValue_ok, wp_bind, Vms.sameNodeOr409, refuseIf, wp_whenTrue]
      split
      · exact ⟨ticked, of_refused _⟩
      next here =>
        have here : img.nodeId = self.id := by simpa using here
        refine ⟨ticked, ?_⟩
        rintro _ ⟨⟩
        refine ⟨image_there balanced.tick there here, fun vmId same => ?_⟩
        rw [balanced.named img there] at same
        exact rootfs_ne_lvOf _ _ _ same.symm
  · refine ⟨.refl nowhere w, ?_⟩
    rintro _ ⟨⟩
    exact ⟨balanced.golden self.id home.known, default_ne_rootfs⟩

theorem provisionData_makes (body : SpawnIn) (name : Str) (balanced : Balanced cfg env nodes w) :
    wp (watching env) (Vms.provisionData self body (self.volumeVg self.id) name self.id)
      (Makes self.id (lvKey cfg self.id name) w) w := by
  have ticked : Moved nowhere w w.tick := .tick nowhere w
  rw [Vms.provisionData, wp_ite, ← home.group]
  split
  · simp only [Vms.imageOr400, LawfulMonad.bind_assoc]
    refine lookup_then (fun _ => ticked) fun img there _ => ?_
    rw [wp_bind, Vms.sameNodeOr409, refuseIf, wp_whenTrue]
    split
    · exact ticked
    next here =>
      have here : img.nodeId = self.id := by simpa using here
      have origin := image_there balanced.tick there here
      rw [← home.group] at origin
      refine sh_then self (P := Makes self.id (self.volumeVg self.id, name) w.tick)
        (cloned_spec name origin) (fun e w' moved => ticked.trans moved) fun dev w' made => ?_
      exact ⟨ticked.of_nowhere.trans made.1, made.2⟩
  · refine sh_then self (P := Makes self.id (self.volumeVg self.id, name) w)
      (create_spec home.sound ..) (fun e w' moved => moved) fun dev w' made => made

/-- The rows and the volumes correspond, after steps that removed nothing. -/
structure Grown (cfg : Id → NodeConfig) (env : Env) (nodes : Id → Prop) (w w' : World) : Prop where
  balanced : Balanced cfg env nodes w'
  later : Later w w'

omit home in
theorem Grown.moved {w' w'' : World} (grown : Grown cfg env nodes w w')
    (moved : Moved nowhere w' w'') :
    Grown cfg env nodes w w'' := ⟨grown.balanced.calm moved, grown.later.trans moved.later⟩

/-- The volume that comes with a VM. -/
theorem autoVolume_grown (body : SpawnIn) (balanced : Balanced cfg env nodes w) :
    wp (watching env) (Vms.autoVolume self body self.id)
      (fun _ w' => Grown cfg env nodes w w') w := by
  have ticked : Later w w.tick := (Moved.tick nowhere w).later
  refine uuid_then balanced home.fresh fun balanced fresh => ?_
  refine checked_bind _ _ (fun _ => Makes (α := Unit) self.id
    (lvKey cfg self.id (Names.data (env.uuid w.clock)))
    w.tick (.ok ())) ?_ fun made w' post => ?_
  · refine checked_mono _ _ _ _ _ ?_ _ (provisionData_makes home body _ balanced)
    rintro (e | a) w' post
    · exact ⟨balanced.calm post, ticked.trans post.later⟩
    · exact post
  · obtain ⟨dev, sizeMb⟩ := made
    obtain ⟨moved, has⟩ := post
    rw [wp_bind, now, wp_perform]
    refine ⟨trivial, ?_⟩
    rw [exec_now, onValue_ok]
    refine record_then (e := ⟨.volumes, self.id, env.uuid w.clock,
      Names.data (env.uuid w.clock), none⟩) rfl
      balanced
      ⟨home.known, fresh, data_ne_default _, by rintro _ ⟨⟩⟩ (moved.trans (.tick _ w')) has
      (fun rows _ => named_other (t := .volumes) (by decide) ?_ rows)
        fun w'' balanced later => ⟨balanced, ticked.trans later⟩
    rw [NamedById, tick_db, moved.snapshots]
    exact balanced.named

omit home in
/-- The default network, which is made where there is none. -/
theorem ensureDefaultVpc_spec (w : World) :
    wp (watching env) Defaults.ensureDefaultVpc (fun r w' => Moved nowhere w w' ∧
      ∀ vpc, r = .ok vpc → vpc ∈ w'.db .vpcs) w := by
  rw [Defaults.ensureDefaultVpc, Defaults.defaultVpc]
  refine get_then ?_
  have ticked : Moved nowhere w w.tick := .tick nowhere w
  cases found : (w.db .vpcs).get fun r => r.name = Defaults.DEFAULT_VPC_NAME with
  -- the row is there already
  | some vpc =>
    refine ⟨ticked, ?_⟩
    rintro _ ⟨⟩
    exact (Table.get_some found).1
  | none =>
    dsimp only
    -- no row: the id, the time and the insert
    rw [wp_bind, uuid4, wp_perform]
    refine ⟨trivial, ?_⟩
    rw [exec_uuid4, onValue_ok, wp_bind, now, wp_perform]
    refine ⟨trivial, ?_⟩
    rw [exec_now, onValue_ok, wp_tryCatch, wp_bind, Nyc.insert, wp_perform]
    refine ⟨trivial, ?_⟩
    have sofar : Moved nowhere w w.tick.tick.tick :=
      (ticked.trans (.tick nowhere _)).trans (.tick nowhere _)
    set row : VpcRow := ⟨env.uuid w.tick.clock, Defaults.DEFAULT_VPC_NAME,
      Defaults.DEFAULT_VPC_CIDR,
      env.now w.tick.tick.clock⟩
    have after : Moved nowhere w (exec env (.insert .vpcs row) w.tick.tick.tick).2 :=
      sofar.trans (moved_insert (t := .vpcs) row (by decide))
    cases inserted : (w.tick.tick.tick.db .vpcs).insert row with
    | some rows =>
      rw [exec_insert_some env _ .vpcs row inserted] at after ⊢
      refine ⟨after, ?_⟩
      rintro _ ⟨⟩
      rw [tick_db, setTable_self]
      exact (Table.mem_insert inserted).mpr (.inr rfl)
    | none =>
      rw [exec_insert_none env _ .vpcs row inserted] at after ⊢
      -- another call was first, and its row is read again
      rw [onValue_error, onError_error, wp_ite, if_pos rfl]
      refine get_then ?_
      have again := after.trans (.tick nowhere _)
      cases found : (w.tick.tick.tick.tick.db .vpcs).get fun r =>
        r.name = Defaults.DEFAULT_VPC_NAME with
      | none => exact ⟨again, by rintro _ ⟨⟩⟩
      | some vpc =>
        refine ⟨again, ?_⟩
        rintro _ ⟨⟩
        exact (Table.get_some found).1

/-- Every entry and every volume stays, and the invariant with them. -/
structure Held (cfg : Id → NodeConfig) (env : Env) (nodes : Id → Prop) (w w' : World) : Prop where
  inv : ∀ out, Inv cfg env nodes out w → Inv cfg env nodes out w'
  entries : entries w'.db = entries w.db
  has : ∀ n k, (w'.hosts n).HasLv k ↔ (w.hosts n).HasLv k

omit home in
theorem Held.of_moved {w' : World} (moved : Moved nowhere w w') : Held cfg env nodes w w' :=
  ⟨fun _ inv => inv.calm moved, moved.entries, fun n k => moved.has n k not_false⟩

/-- What `pre_bring_up` may be: it does not fail, and leaves rows and volumes alone. -/
def PreBringUp (cfg : Id → NodeConfig) (env : Env) (nodes : Id → Prop) (w : World)
    (pre : Id → Py Unit) : Prop :=
  ∀ vmId w', Later w w' →
    wp (watching env) (pre vmId) (fun r w'' => r = .ok () ∧ Held cfg env nodes w' w'') w'

theorem spawnLocal_balanced (body : SpawnIn) {preBringUp : Id → Py Unit}
    (balanced : Balanced cfg env nodes w) (pre : PreBringUp cfg env nodes w preBringUp) :
    wp (watching env) (Vms.spawnLocal self body self.id preBringUp)
      (fun _ w' => Balanced cfg env nodes w') w := by
  rw [Vms.spawnLocal]
  refine checked_bind _ _ (fun (vpc : VpcRow) w' => Grown cfg env nodes w w' ∧ vpc ∈ w'.db .vpcs) ?_
    fun vpc w₁ h₁ => ?_
  · refine checked_mono _ _ _ _ _ ?_ w (ensureDefaultVpc_spec w)
    rintro (e | vpc) w' ⟨moved, found⟩
    · exact balanced.calm moved
    · exact ⟨⟨balanced.calm moved, moved.later⟩, found vpc rfl⟩
  obtain ⟨grown, network⟩ := h₁
  refine checked_bind _ _ (fun origin w' => Moved nowhere w₁ w' ∧ Origin cfg self.id origin w') ?_
    fun origin w₂ h₂ => ?_
  · refine checked_mono _ _ _ _ _ ?_ w₁ (resolveRootImage_spec home body grown.balanced)
    rintro (e | origin) w' ⟨moved, found⟩
    · exact grown.balanced.calm moved
    · exact ⟨moved, found origin rfl⟩
  obtain ⟨moved, source⟩ := h₂
  replace grown := grown.moved moved
  replace network := moved.vpcs vpc network
  refine checked_bind _ _ (fun _ => Grown cfg env nodes w₂) ?_ fun vol w₃ grown' => ?_
  · refine checked_mono _ _ _ _ _ ?_ w₂ (autoVolume_grown home body grown.balanced)
    rintro (e | vol) w' grown'
    · exact grown'.balanced
    · exact grown'
  replace grown : Grown cfg env nodes w w₃ := ⟨grown'.balanced, grown.later.trans grown'.later⟩
  have origin_there := grown'.later.has _ _ source.there
  replace network := grown'.later.vpcs vpc network
  -- the address and the id
  have used : Only Calm (Vms.usedIps vpc.id) := calm_of (Vms.usedIps_touch _) (.usedIps _)
  refine calm_then used (.refl nowhere w₃) (fun _ _ moved => grown.balanced.calm moved)
    fun ips w₄ sofar => ?_
  refine calm_then (.fromExcept _) sofar (fun _ _ moved => grown.balanced.calm moved)
    fun ip w₅ sofar => ?_
  refine uuid_then (grown.balanced.calm sofar) home.fresh fun balanced fresh => ?_
  rw [wp_bind, now, wp_perform]
  refine ⟨trivial, ?_⟩
  rw [exec_now, onValue_ok]
  replace sofar := (sofar.trans (.tick nowhere w₅)).trans (.tick nowhere w₅.tick)
  refine newVm_then home _ rfl balanced.tick (fresh.moved (.tick nowhere _)) ⟨vpc,
    sofar.vpcs vpc network, rfl⟩
    fun w₆ inv named later => ?_
  replace later := sofar.later.trans later
  refine checked_bind _ _ (fun _ w' => Held cfg env nodes w₆ w') ?_ fun _ w₇ held => ?_
  · refine checked_mono _ _ _ _ _ ?_ w₆ (pre _ w₆ (grown.later.trans later))
    rintro r w' ⟨rfl, held⟩
    exact held
  rw [wp_bind]
  refine checked_mono _ _ _ _ _ ?_ w₇ (bringUp_balanced home _ vpc.cidr _ _ rfl (held.inv _ inv) ?_
    ((held.has _ _).mpr (later.has _ _ origin_there)) (source.other _))
  · rintro (e | _) w' balanced <;> exact balanced
  · rw [Named, held.entries]
    exact named

/-! ### Public addresses and proxies -/

omit home in
/-- A new address is no volume's. -/
theorem insertIp_held (row : PublicIpRow) (issued : Issued env w row.id) :
    Held cfg env nodes w (exec env (.insert .publicIps row) w).2 := by
  cases inserted : (w.db .publicIps).insert row with
  | none =>
    rw [exec_insert_none env w .publicIps row inserted]
    exact .of_moved (.tick nowhere w)
  | some rows =>
    rw [exec_insert_some env w .publicIps row inserted]
    have same : entries (w.setTable .publicIps rows).db = entries w.db :=
      entries_other (by decide) rows
    have clock : w.clock ≤ (w.setTable .publicIps rows).tick.clock := Nat.le_succ _
    refine ⟨fun out inv => ⟨?_, ?_, inv.named, ?_, inv.registered, inv.golden, ?_⟩, same,
      fun _ _ => Iff.rfl⟩
    · rw [tick_db, same]
      intro e there
      obtain ⟨known, issued, custom⟩ := inv.placed e there
      exact ⟨known, issued.later clock, custom⟩
    · rw [tick_db, same]
      exact inv.linked
    · intro r there
      rw [tick_db, setTable_self] at there
      rcases (Table.mem_insert inserted).mp there with old | rfl
      · exact (inv.ips r old).later clock
      · exact issued.later clock
    · intro n name known role custom other
      rw [Named, tick_db, same]
      exact inv.balanced n name known role custom other

theorem attach_balanced (vm : VmRow) (balanced : Balanced cfg env nodes w)
    (here : ∀ e ∈ entries w.db, e.lv = Names.rootfs vm.id → e.node = self.id) :
    wp (watching env) (PublicIps.attachLocal self vm self.id)
      (fun _ w' => Balanced cfg env nodes w') w := by
  rw [PublicIps.attachLocal, PublicIps.usedAddresses, LawfulMonad.bind_assoc]
  refine getAll_then ?_
  rw [pure_bind]
  have sofar : Moved nowhere w w.tick := .tick nowhere w
  refine calm_then (.fromExcept _) sofar (fun _ _ moved => balanced.calm moved)
    fun entry w₂ sofar => ?_
  refine uuid_then (balanced.calm sofar) home.fresh fun balanced fresh => ?_
  rw [wp_bind, now, wp_perform]
  refine ⟨trivial, ?_⟩
  rw [exec_now, onValue_ok]
  -- the address has the id that was given out just now, so no other row has it
  have issued : Issued env w₂.tick.tick (env.uuid w₂.clock) := fresh.issued.later (Nat.le_succ _)
  set row : PublicIpRow :=
    ⟨env.uuid w₂.clock, self.id, some vm.id, entry.1, some entry.2.1, entry.2.2.1,
    entry.2.2.2, .attached, env.now w₂.tick.clock⟩
  have held : Held cfg env nodes w₂.tick.tick _ := insertIp_held row issued
  rw [wp_bind, Nyc.insert, wp_perform]
  refine ⟨trivial, ?_⟩
  have balanced := held.inv nowhere balanced.tick
  generalize (exec env (.insert .publicIps row) w₂.tick.tick).1 = answer
  cases answer with
  | error e => exact balanced
  | ok _ =>
    rw [onValue_ok, wp_bind]
    refine checked_mono _ _ _ _ _ ?_ _ (recreateVm_balanced home vm.id balanced ?_)
    · rintro (e | _) w' balanced <;> exact balanced
    -- the address is no volume: the entries are those of the start
    · rw [held.entries, tick_db, tick_db, sofar.entries]
      exact here

theorem detach_balanced (vmId : Id) (balanced : Balanced cfg env nodes w)
    (here : ∀ e ∈ entries w.db, e.lv = Names.rootfs vmId → e.node = self.id) :
    wp (watching env) (PublicIps.detachLocal self vmId)
      (fun _ w' => Balanced cfg env nodes w') w := by
  refine get_then ?_
  rw [wp_bind, wp_whenSome]
  cases (w.db .publicIps).get (VmDeps.attachedTo vmId) with
  | none => exact balanced.tick
  | some pip =>
    have deletes : Only Calm (delete .publicIps fun r => r.id = pip.id) :=
      .delete ⟨.delete _ _ (by decide), trivial⟩
    refine calm_then deletes (.tick nowhere w) (fun _ _ moved => balanced.calm moved)
      fun _ w' sofar => ?_
    refine checked_mono _ _ _ _ _ ?_ w' (recreateVm_balanced home vmId (balanced.calm sofar) ?_)
    · rintro (e | _) w'' balanced <;> exact balanced
    · rw [sofar.entries]
      exact here

omit home in
/-- The address of a new proxy is recorded before its VM is brought up. -/
theorem preBringUp_ip (pipRow : Id → PublicIpRow) {id : Id} (ids : ∀ vmId, (pipRow vmId).id = id)
    (issued : Issued env w id) (unused : ∀ r ∈ w.db .publicIps, r.id ≠ id) :
    PreBringUp cfg env nodes w fun vmId => insert .publicIps (pipRow vmId) := by
  intro vmId w' later
  have held : Held cfg env nodes w' (exec env (.insert .publicIps (pipRow vmId)) w').2 :=
    insertIp_held _ (by rw [ids]; exact issued.later later.clock)
  change wp (watching env) (insert .publicIps (pipRow vmId)) _ w'
  rw [Nyc.insert, wp_perform]
  refine ⟨trivial, ?_, held⟩
  cases inserted : (w'.db .publicIps).insert (pipRow vmId) with
  | some rows => rw [exec_insert_some env w' .publicIps _ inserted]
  | none =>
    obtain ⟨r, there, col, column, -, same⟩ := Table.insert_none.mp inserted
    obtain rfl := List.mem_singleton.mp column
    have clash : r.id = (pipRow vmId).id := Option.some.inj same
    rw [ids] at clash
    exact absurd clash (unused r (later.ips r there))

theorem createProxyLocal_balanced (body : ProxyIn) (vpc : VpcRow)
    (balanced : Balanced cfg env nodes w) :
    wp (watching env) (Proxy.createProxyLocal self body vpc self.id)
      (fun _ w' => Balanced cfg env nodes w') w := by
  rw [Proxy.createProxyLocal, PublicIps.usedAddresses, LawfulMonad.bind_assoc]
  refine getAll_then ?_
  rw [pure_bind]
  have sofar : Moved nowhere w w.tick := .tick nowhere w
  refine calm_then (.fromExcept _) sofar (fun _ _ moved => balanced.calm moved)
    fun entry w₁ sofar => ?_
  have time : Only Calm now := .now ⟨.now, trivial⟩
  refine calm_then time sofar (fun _ _ moved => balanced.calm moved) fun time w₂ sofar => ?_
  replace balanced := balanced.calm sofar
  -- an id of the table was given out at an earlier tick
  have unused : ∀ r ∈ w₂.db .publicIps, r.id ≠ env.uuid w₂.clock := by
    intro r there same
    obtain ⟨k, before, id⟩ := balanced.ips r there
    have now : k = w₂.clock := home.fresh (id.symm.trans same)
    omega
  refine uuid_then balanced home.fresh fun balanced fresh => ?_
  -- the address is inserted between the rows of the VM and its bring-up
  have spawned := spawnLocal_balanced home (Proxy.spawnBody body) balanced
    (preBringUp_ip (fun vmId =>
    ⟨env.uuid w₂.clock, self.id, some vmId, entry.1, some entry.2.1, entry.2.2.1,
      entry.2.2.2, .attached,
      time⟩)
    (fun _ => rfl) fresh.issued unused)
  rw [wp_bind]
  refine checked_mono _ _ _ _ _ ?_ _ spawned
  rintro (e | vm) w' balanced
  · exact balanced
  · exact calm_balanced (calm_of (Proxy.record_touch _ _ _ _ _ _ (by decide) (by decide))
      (.record ..)) balanced

/-! ### Reaps -/

theorem reaps_balanced (ids : List Id) (balanced : Balanced cfg env nodes w)
    (here : ∀ id ∈ ids, ∀ e ∈ entries w.db, e.lv = Names.rootfs id → e.node = self.id) :
    wp (watching env) (forEach (TtlPass.reap self) ids)
      (fun _ w' => Balanced cfg env nodes w') w := by
  induction ids generalizing w with
  | nil => exact balanced
  | cons id rest ih =>
    rw [forEach, wp_dot_bind, TtlPass.reap]
    refine removeVm_then home id balanced (here id List.mem_cons_self)
      (fun e w' moved => balanced.calm moved)
      fun _ w' balanced fewer => ?_
    -- the other VMs are still on the node, if they are there
    refine ih balanced fun id' there e old =>
      here id' (List.mem_cons_of_mem _ there) e (fewer e old)

theorem ttlPass_balanced (balanced : Balanced cfg env nodes w) :
    wp (watching env) (TtlPass.reconcile self) (fun _ w' => Balanced cfg env nodes w') w := by
  rw [TtlPass.reconcile, wp_ite]
  split
  · exact balanced
  · rw [wp_bind, now, wp_perform]
    refine ⟨trivial, ?_⟩
    rw [exec_now, onValue_ok]
    refine getAll_then ?_
    rw [wp_bind]
    refine checked_mono _ _ _ _ _ ?_ _ (reaps_balanced home _ balanced.tick.tick ?_)
    · rintro (e | _) w' balanced <;> exact balanced
    · intro id listed
      obtain ⟨vm, there, rfl⟩ := List.mem_map.mp listed
      obtain ⟨row, node⟩ := Table.mem_getAll.mp (List.mem_filter.mp there).1
      exact here_of_row balanced row (of_decide_eq_true node)

/-! ### Every request -/

omit home in
/-- The lookups of an endpoint read, and make the default VPC. -/
theorem lookUp_keeps (self : Node) (req : Request) :
    Only (fun o => ∀ w, Balanced cfg env nodes w →
      OriginThere o w ∧ Balanced cfg env nodes (exec env o w).2) (Api.lookUp self req) := by
  have of_looks {α : Type} {p : Py α} (looks : Looks p) :
      Only (fun o => ∀ w, Balanced cfg env nodes w →
        OriginThere o w ∧ Balanced cfg env nodes (exec env o w).2) p := by
    apply looks.mono
    intro o looks w balanced
    cases looks <;> exact ⟨trivial, balanced.tick⟩
  by_cases proxy : ∃ body, req = .createProxy body
  · obtain ⟨body, rfl⟩ := proxy
    have vpc : Only Calm Defaults.ensureDefaultVpc :=
      calm_of (ensureDefaultVpc_touch (by decide)) .ensureDefaultVpc
    apply Only.bind (vpc.mono fun o calm w balanced => ⟨origin_calm calm w,
      balanced.calm (moved_calm calm)⟩)
    intro vpc
    apply Only.bind (of_looks (.get (.get ..)))
    intro proxy
    apply Only.bind (of_looks (.refuseIf ..))
    intro _
    exact .bind (of_looks (.nodeWithFreeIp ..)) fun _ => .pure _
  · exact of_looks (Api.lookUp_looks self req fun body same => proxy ⟨body, same⟩)

theorem serveHere_balanced (req : Request) (listed : Listed req) (found : Api.Found req)
    (balanced : Balanced cfg env nodes w) (known : Api.Known w.db req found)
    (here : Api.ownerOf self req found = self.id) :
    wp (watching env) (Api.serveHere self req found) (fun _ w' => Balanced cfg env nodes w') w := by
  have removal (row : SnapshotRow) (rid : Id) (there : row ∈ w.db .snapshots)
      (same : row.id = rid) (here : row.nodeId = self.id) :
      wp (watching env) (do
        self.sh (SnapAction.remove (self.volumeVg row.nodeId) row.lvName)
        let _ ← delete .snapshots fun r => r.id = rid
        return Response.empty) (fun _ w' => Balanced cfg env nodes w') w := by
    subst same
    exact deleteImage_balanced home row there here balanced
  have rooted {vmId owner : Id} (known : ∃ vm ∈ w.db .vms, vm.id = vmId ∧ vm.nodeId = owner)
      (here : owner = self.id) : ∀ e ∈ entries w.db, e.lv = Names.rootfs vmId →
        e.node = self.id := by
    obtain ⟨vm, there, rfl, rfl⟩ := known
    exact here_of_row balanced there here
  cases req with
  | createVolume body => exact createVolume_balanced home body balanced
  | resizeVolume volumeId body => exact calm_balanced (resize_calm self found _) balanced
  | deleteVolume volumeId => exact deleteVolume_balanced home found known.1 here balanced
  | createSnapshot body =>
    -- the source of a snapshot has its volume
    have has : (w.hosts found.nodeId).HasLv (lvKey cfg found.nodeId found.sourceLv) := by
      obtain ⟨vol, there, rfl⟩ | ⟨vm, there, rfl⟩ := known
      · exact balanced.has (mem_of_owner (o := .volume vol) there)
      · exact balanced.has (mem_of_owner (o := .vm vm) there)
    have here : found.nodeId = self.id := here
    rw [here] at has
    exact createSnapshot_balanced home body found here has balanced
  | deleteSnapshot snapshotId => exact removal found _ known.1 known.2.1 here
  | createImage body =>
    obtain ⟨there, -, role⟩ := known
    -- the promotion builds the name of the snapshot's volume from its id
    have has := image_there balanced there here
    rw [balanced.named found there, role] at has
    exact createImage_balanced home body found has balanced
  | deleteImage imageId => exact removal found _ known.1 known.2.1 here
  | createVm body => exact createVm_balanced home body balanced
  | spawnVm body pin =>
    have pre : PreBringUp cfg env nodes w fun _ => pure () :=
      fun _ w' _ => ⟨rfl, .of_moved (.refl nowhere w')⟩
    rw [Api.serveHere, wp_bind]
    refine checked_mono _ _ _ _ _ ?_ w (spawnLocal_balanced home body balanced pre)
    rintro (e | _) w' balanced <;> exact balanced
  | deleteVm vmId => exact deleteVm_balanced home vmId balanced (rooted known here)
  | stopVm vmId => exact calm_balanced (stop_calm self vmId) balanced
  | startVm vmId => exact calm_balanced (start_calm self vmId) balanced
  | attachPublicIp vmId =>
    exact attach_balanced home found balanced (here_of_row balanced known.1 here)
  | detachPublicIp vmId =>
    exact detach_balanced home vmId balanced (rooted ⟨found, known.1, known.2, rfl⟩ here)
  | createProxy body => exact createProxyLocal_balanced home body _ balanced
  | createVpc | deleteVpc | getVm | rebootVm | createDomain | deleteDomain | createTask
  | reconcileNow => cases listed

omit home in
theorem Listed.handedTo {req : Request} (listed : Listed req) (target : Id) :
    Listed (Api.handedTo target req) := by
  cases req <;> exact listed

end Requests

theorem serve_balanced {cfg : Id → NodeConfig} {env : Env} {nodes : Id → Prop} {w : World}
    (assumed : Assumed cfg env nodes) (hops : Nat) (nodeId : Id) (req : Request)
    (known : nodes nodeId) (listed : Listed req) (balanced : Balanced cfg env nodes w) :
    wp (watching env) (Api.serve cfg hops nodeId req)
      (fun _ w' => Balanced cfg env nodes w') w := by
  apply Api.serve_checked (exec env) (fun w => w.db .nodes) (fun _ _ => rfl) OriginThere cfg
    (fun _ nodeId req w => Balanced cfg env nodes w ∧ nodes nodeId ∧ Listed req) _ _ _ _ _ _
    hops nodeId req w ⟨balanced, known, listed⟩
  · intro _ _ _ _ _ holds
    exact ⟨trivial, holds.1.tick, holds.2⟩
  · intro _ _ _ _ _ row holds there
    exact ⟨holds.1.tick, holds.1.registered row there, holds.2.2⟩
  · intro _ _ _ _ _ holds
    exact holds.1
  · intro _ _ balanced
    exact balanced
  · rintro _ nodeId forward req w ⟨balanced, known, listed⟩ on
    have home : Home cfg env nodes ⟨nodeId, cfg nodeId⟩ := ⟨assumed, rfl, known⟩
    apply Api.endpoint_checked (J := Balanced cfg env nodes) (fun _ _ _ => rfl) (fun _ _ _ => rfl)
      (fun o w keeps balanced => (keeps w balanced).1)
      (fun o w keeps balanced => (keeps w balanced).2) (lookUp_keeps _ req) balanced
      (fun _ _ balanced => balanced)
    · intro found w' balanced
      exact on _ _ w' ⟨balanced, known, listed.handedTo _⟩
    · intro found w' balanced row here
      exact serveHere_balanced home req listed found balanced row here

theorem act_balanced {cfg : Id → NodeConfig} {env : Env} {nodes : Id → Prop} {w : World}
    (assumed : Assumed cfg env nodes) (hops : Nat) (a : Act) (may : listed nodes a w)
    (balanced : Balanced cfg env nodes w) :
    wp (watching env) (a.program cfg hops) (fun _ w' => Balanced cfg env nodes w') w := by
  cases a with
  | request nodeId req => exact serve_balanced assumed hops nodeId req may.1 may.2 balanced
  | reap nodeId =>
    rw [Act.program, wp_bind]
    have home : Home cfg env nodes ⟨nodeId, cfg nodeId⟩ := ⟨assumed, rfl, may⟩
    refine checked_mono _ _ _ _ _ ?_ w (ttlPass_balanced home balanced)
    rintro (e | _) w' balanced <;> exact balanced

/-! ## Deletions -/

/-- The other volumes are as they were. -/
def Apart (n : Id) (k : Str × Str) (w w' : World) : Prop :=
  ∀ n' k', ¬ (n' = n ∧ k' = k) → (w'.hosts n').lvs.lookup k' = (w.hosts n').lvs.lookup k'

section Deletions

variable {env : Env} {w : World} {n : Id}

theorem Apart.step {c : Cmd} {k : Str × Str} {w' : World} (sofar : Apart n k w w')
    (own : ∀ k', k' ≠ k → ¬ c.alters k') : Apart n k w (execOn env n c w').2 := by
  intro n' k' other
  rw [← sofar n' k' other]
  change ((exec env (.host n c) w').2.hosts n').lvs.lookup k' = _
  rw [hosts_exec]
  split
  next here =>
    subst here
    exact exec_lookup _ c _ k' (own k' fun same => other ⟨rfl, same⟩)
  next => rfl

/-- A program that alters one volume at most. -/
theorem apart_keeps {α : Type} {p : Sh α} {k : Str × Str}
    (own : Only (fun c => ∀ k', k' ≠ k → ¬ c.alters k') p) (w : World) :
    wp (sequential (execOn env n)) p (fun _ w' => Apart n k w w') w :=
  sequential_keeps (execOn env n) (Apart n k w) (fun _ _ own sofar => sofar.step own) own w
    fun _ _ _ => rfl

theorem remove_alters (vg name : Str) :
    Only (fun c => ∀ k', k' ≠ (vg, name) → ¬ c.alters k') (Lv.remove vg name) :=
  (Lv.remove_only vg name).mono fun c h k' other => by
    cases h with
    | lvs lister => exact not_false
    | remove => exact fun same => other same.symm

theorem down_alters (vmId : Id) (vg : Str) :
    Only (fun c => ∀ k', k' ≠ (vg, Names.rootfs vmId) → ¬ c.alters k') (VmDown.run vmId vg) :=
  (VmDown.run_only vmId vg).mono fun c h k' other => by
    cases h with
    | remove => exact fun same => other same.symm
    | _ => exact not_false

/-- A part that moves nothing on the hosts, before the rest of a deletion. -/
theorem removesOwn_hosts {cfg : Id → NodeConfig} {o : Owner} {w' : World} {r : Except Exn Response}
    {w'' : World}
    (same : w'.hosts = w.hosts) (h : RemovesOwn cfg o w' r w'') : RemovesOwn cfg o w r w'' :=
  ⟨fun n k other => by rw [h.others n k other, same], h.own⟩

theorem removesOwn_error {cfg : Id → NodeConfig} {o : Owner} {w' : World} (e : Exn)
    (same : w'.hosts = w.hosts) :
    RemovesOwn cfg o w (.error e) w' := ⟨fun _ _ _ => by rw [same], fun succeeds => succeeds.elim⟩

/-- The volume goes, and then the row. -/
theorem removesOwn_then {cfg : Id → NodeConfig} (self : Node) {o : Owner} {t : Tbl}
    {p : t.Row → Bool} {q : Sh Unit} (own : self.cfg = cfg self.id) (here : o.node = self.id)
    (alters : Only (fun c => ∀ k', k' ≠ (self.volumeVg self.id, o.lv) → ¬ c.alters k') q)
    (gone : wp (sequential (execOn env self.id)) q (fun r w' => r = .ok () →
      ¬ (w'.hosts self.id).HasLv (self.volumeVg self.id, o.lv)) w) :
    wp (sequential (exec env)) (do
      self.sh q
      let _ ← delete t p
      return Response.empty) (RemovesOwn cfg o w) w := by
  have group : (self.volumeVg self.id, o.lv) = lvKey cfg o.node o.lv := by
    rw [here, Node.volumeVg, own, lvKey]
  rw [wp_bind, wp_sh]
  refine sequential_mono (execOn env self.id) q _ _ ?_ w (sequential_and (execOn env self.id)
    (apart_keeps alters w) gone)
  rintro (e | _) w' ⟨apart, goes⟩
  · refine ⟨fun n k other => apart n k fun same => other ?_, fun succeeds => succeeds.elim⟩
    rw [here, same.1, same.2, group, here]
    exact ⟨rfl, rfl⟩
  · rw [onValue_ok, wp_bind, wp_delete]
    refine ⟨fun n k other => apart n k fun same => other ?_, fun _ => ?_⟩
    · rw [here, same.1, same.2, group, here]
      exact ⟨rfl, rfl⟩
    · have none_ := goes rfl
      rw [group, ← here] at none_
      exact none_

/-- The volume is removed whenever `vm_down` or `lvremove` succeeds. -/
theorem remove_gone (sound : ∀ k, (env.chance k).fails = false) (vg name : Str) (w : World) :
    wp (sequential (execOn env n)) (Lv.remove vg name) (fun r w' => r = .ok () →
      ¬ (w'.hosts n).HasLv (vg, name)) w :=
  sequential_mono _ _ _ _ (fun _ _ post _ =>
    post.2.2) w (sequential_of_checked (remove_spec sound vg name))

theorem down_gone (sound : ∀ k, (env.chance k).fails = false) (vmId : Id) (vg : Str) (w : World) :
    wp (sequential (execOn env n)) (VmDown.run vmId vg) (fun r w' => r = .ok () →
      ¬ (w'.hosts n).HasLv (vg, Names.rootfs vmId)) w :=
  sequential_mono _ _ _ _ (fun _ _ post done => (post.2 done).2) w
    (sequential_of_checked (down_spec sound vmId vg))

/-- The rows are those of `w`, and the hosts too. -/
structure Frozen (w w' : World) : Prop where
  db : w'.db = w.db
  hosts : w'.hosts = w.hosts

theorem serveHere_removes {cfg : Id → NodeConfig} (sound : ∀ k, (env.chance k).fails = false)
    (nodeId : Id) {o : Owner} {req : Request} (deletes : Deletes req o) {w₀ : World}
    (there : o.In w₀) (found : Api.Found req) (frozen : Frozen w₀ w)
    (known : Api.Known w.db req found)
    (here : Api.ownerOf ⟨nodeId, cfg nodeId⟩ req found = nodeId) :
    wp (sequential (exec env)) (Api.serveHere ⟨nodeId, cfg nodeId⟩ req found)
      (RemovesOwn cfg o w₀) w := by
  have image {r : SnapshotRow} (here : r.nodeId = nodeId) :
      wp (sequential (exec env)) (do
        Node.sh ⟨nodeId, cfg nodeId⟩
          (SnapAction.remove (Node.volumeVg ⟨nodeId, cfg nodeId⟩ r.nodeId) r.lvName)
        let _ ← delete .snapshots fun r' => r'.id = r.id
        return Response.empty) (RemovesOwn cfg (.snapshot r) w₀) w := by
    rw [here]
    refine sequential_mono _ _ _ _ (fun _ _ => removesOwn_hosts frozen.hosts) _ ?_
    exact removesOwn_then ⟨nodeId, cfg nodeId⟩ (o := .snapshot r) rfl here (remove_alters _ _)
      (remove_gone sound _ _ _)
  cases deletes with
  | volume r =>
    have row : r ∈ w.db .volumes := frozen.db ▸ there
    have same : found = r :=
      (w.db .volumes).eq_of_key VolumeRow.id List.mem_cons_self known.1 row known.2
    have here : r.nodeId = nodeId := same ▸ here
    rw [Api.serveHere, same, Volumes.deleteLocal, wp_bind, wp_get, onValue_ok, wp_bind, refuseIf,
      wp_whenTrue]
    split
    · exact removesOwn_error _ frozen.hosts
    · rw [onValue_ok, here]
      have hosts : w.tick.hosts = w₀.hosts := frozen.hosts
      refine sequential_mono _ _ _ _ (fun _ _ => removesOwn_hosts hosts) _ ?_
      exact removesOwn_then ⟨nodeId, cfg nodeId⟩ (o := .volume r) rfl here (remove_alters _ _)
        (remove_gone sound _ _ _)
  | snapshot r role =>
    have row : r ∈ w.db .snapshots := frozen.db ▸ there
    have same : found = r :=
      (w.db .snapshots).eq_of_key SnapshotRow.id List.mem_cons_self known.1 row known.2.1
    have here : r.nodeId = nodeId := same ▸ here
    rw [Api.serveHere, same]
    exact image here
  | image r role =>
    have row : r ∈ w.db .snapshots := frozen.db ▸ there
    have same : found = r :=
      (w.db .snapshots).eq_of_key SnapshotRow.id List.mem_cons_self known.1 row known.2.1
    have here : r.nodeId = nodeId := same ▸ here
    rw [Api.serveHere, same]
    exact image here
  | vm r =>
    have row : r ∈ w.db .vms := frozen.db ▸ there
    obtain ⟨vm, there', same, owner⟩ := known
    obtain rfl : vm = r := (w.db .vms).eq_of_key VmRow.id List.mem_cons_self there' row same
    have here : vm.nodeId = nodeId := owner.trans here
    rw [Api.serveHere, Vms.deleteLocal]
    -- the dependents go first, and these are rows
    refine sequential_keeps_then (exec env) (fun w' => w'.hosts = w₀.hosts)
      (fun _ w' aside same => (hosts_offHost env w' aside.offHost).trans same)
      (Aside.teardown vm.id) frozen.hosts
      (fun e w' same => removesOwn_error e same) fun _ w' same => ?_
    refine sequential_mono _ _ _ _ (fun _ _ => removesOwn_hosts same) _ ?_
    exact removesOwn_then ⟨nodeId, cfg nodeId⟩ (o := .vm vm) rfl here (down_alters _ _)
      (down_gone sound _ _ _)

theorem Deletes.unpinned {req : Request} {o : Owner} (deletes : Deletes req o) (target : Id) :
    Api.handedTo target req = req ∧ ∀ body, req ≠ .createProxy body := by
  cases deletes <;> exact ⟨rfl, by rintro body ⟨⟩⟩

/-- A deletion removes the volume of its row, on whichever node it arrives, and no other. -/
theorem serve_removes {cfg : Id → NodeConfig} (sound : ∀ k, (env.chance k).fails = false)
    (hops : Nat) (nodeId : Id) {o : Owner} {req : Request} (deletes : Deletes req o) {w : World}
    (there : o.In w) :
    wp (sequential (exec env)) (Api.serve cfg hops nodeId req) (RemovesOwn cfg o w) w := by
  apply Api.serve_rule env cfg (fun req' w' => req' = req ∧ Frozen w w') _ _ _ _ _ hops nodeId req w
    ⟨rfl, rfl, rfl⟩
  · intro _ _ holds
    exact ⟨holds.1, holds.2.db, holds.2.hosts⟩
  · intro _ e _ holds
    exact removesOwn_error e holds.2.hosts
  · intro _ _ post
    exact ⟨post.others, fun succeeds => succeeds.elim⟩
  · rintro nodeId forward _ w' ⟨rfl, frozen⟩ on
    have keeps (o : Op) (w' : World) (looks : o.Looks) (frozen : Frozen w w') :
        Frozen w (exec env o w').2 := by
      cases looks <;> exact ⟨frozen.db, frozen.hosts⟩
    have looks : Looks (Api.lookUp ⟨nodeId, cfg nodeId⟩ _) :=
      Api.lookUp_looks _ _ (deletes.unpinned nodeId).2
    apply Api.endpoint_sequential keeps looks frozen
    · intro e w' frozen
      exact removesOwn_error e frozen.hosts
    · intro found w' frozen
      exact on _ _ w' ⟨(deletes.unpinned _).1, frozen⟩
    · intro found w' frozen known here
      exact serveHere_removes sound nodeId deletes there found frozen known here

end Deletions

/-! ## Runs -/

section Runs

variable {cfg : Id → NodeConfig} {env : Env} {nodes : Id → Prop} {w : World}

theorem Booted.balanced (booted : Booted cfg nodes w)
    (assumed : Assumed cfg env nodes) : Balanced cfg env nodes w := by
  have none_ : ∀ e, e ∉ entries w.db := by
    intro e there
    obtain ⟨o, inside, -⟩ := mem_entries.mp there
    cases o with
    | volume r => exact booted.volumes r inside
    | snapshot r => exact booted.snapshots r inside
    | vm r => exact booted.vms r inside
  refine ⟨fun e there => absurd there (none_ e), fun e there => absurd there (none_ e),
    fun r there => absurd there (booted.snapshots r),
      fun r there => absurd there (booted.publicIps r),
    booted.registered, booted.golden, fun n name known role custom _ =>
      iff_of_false (fun has => ?_) ?_⟩
  · -- the pool and the base image have no role
    rcases booted.lvs n name known has with rfl | rfl | rfl
    · exact assumed.pool n known role
    · exact absurd role (by decide)
    · exact custom rfl
  · rintro ⟨e, there, -⟩
    exact none_ e there

/-- On the node, the rows and the volumes with a role correspond one to one. -/
theorem Inv.bijOn (balanced : Balanced cfg env nodes w) {n : Id} (known : nodes n) :
    Set.BijOn Owner.lv (owners n w) (roleLvs cfg n w) := by
  refine ⟨?_, ?_, ?_⟩
  · rintro o ⟨inside, rfl⟩
    have there := mem_of_owner inside
    have has := balanced.has there
    have role := (balanced.nameOf there).role
    have custom := (balanced.placed _ there).2.2
    rw [entry_lv] at role custom
    rw [entry_node, entry_lv] at has
    exact ⟨role, custom, has⟩
  · rintro o ⟨inside, -⟩ o' ⟨inside', -⟩ same
    exact owner_of_lv balanced.named inside inside' same
  · rintro name ⟨role, custom, has⟩
    obtain ⟨e, there, node, lv⟩ := (balanced.balanced n name known role custom not_false).mp has
    obtain ⟨o, inside, rfl⟩ := mem_entries.mp there
    rw [entry_node] at node
    rw [entry_lv] at lv
    exact ⟨o, ⟨inside, node⟩, lv⟩

theorem reached_balanced (assumed : Assumed cfg env nodes) (hops : Nat) {start : World}
    (booted : Booted cfg nodes start)
    (reached : Reached (exec env) (Act.program cfg hops) (listed nodes) anyEnd start w) :
    Balanced cfg env nodes
      w := by
  refine reached.holds (Balanced cfg env nodes) (booted.balanced assumed) fun a w balanced may => ?_
  exact sequential_mono _ _ _ _ (fun _ _ balanced _ => balanced) w
    (sequential_of_checked (act_balanced assumed hops a may balanced))

end Runs

/-- What holds of every state of such a run, and of every action that is taken next. -/
structure Corresponds (cfg : Id → NodeConfig) (env : Env) (nodes : Id → Prop) (hops : Nat)
    (w : World) : Prop where
  rows : ∀ n, nodes n → Set.BijOn Owner.lv (owners n w) (roleLvs cfg n w)
  origins : ∀ a, listed nodes a w → ∀ issued ∈ trail (exec env) (a.program cfg hops) w,
    OriginThere issued.1 issued.2
  deletes : ∀ nodeId req o, Deletes req o → o.In w →
    RemovesOwn cfg o w (run (exec env) (Api.serve cfg hops nodeId req) w).1
      (run (exec env) (Api.serve cfg hops nodeId req) w).2

/-- In every run of these requests and reaps the rows of each node correspond to its volumes, every
clone finds its origin, and every deletion removes its own volume only. -/
theorem rows_have_volumes (cfg : Id → NodeConfig) (env : Env) (nodes : Id → Prop) (hops : Nat)
    (assumed : Assumed cfg env nodes) (start : World) (booted : Booted cfg nodes start) (w : World)
    (reached : Reached (exec env) (Act.program cfg hops) (listed nodes) anyEnd start w) :
    Corresponds cfg env nodes hops w := by
  have balanced := reached_balanced assumed hops booted reached
  refine ⟨fun n known => balanced.bijOn known, fun a may => ?_,
    fun nodeId req o deletes there => ?_⟩
  · exact ((wp_checked _ _ _ _ _).mp (act_balanced assumed hops a may balanced)).1
  · exact (wp_sequential _ _ _ _).mp (serve_removes assumed.sound hops nodeId deletes there)

/-! ## A volume that outlives its origin -/

def onN1 (nodeId : Id) : Prop := nodeId = "n1"

instance : DecidablePred onN1 := fun nodeId => inferInstanceAs (Decidable (nodeId = "n1".toList))

instance : DecidablePred Listed := fun req => by
  cases req <;> first | exact .isTrue trivial | exact .isFalse not_false

instance (nodes : Id → Prop) [DecidablePred nodes] (a : Act) (w : World) :
    Decidable (listed nodes a w) :=
  match a with
  | .request nodeId req => inferInstanceAs (Decidable (nodes nodeId ∧ Listed req))
  | .reap nodeId => inferInstanceAs (Decidable (nodes nodeId))

theorem booted_fresh : Booted Sample.cluster onN1 Sample.fresh where
  volumes r there := by cases there
  snapshots r there := by cases there
  vms r there := by cases there
  publicIps r there := by cases there
  registered r there := by
    obtain rfl := List.mem_singleton.mp there
    rfl
  lvs n name here has := by
    obtain rfl := here
    have listed := (Lvs.mem_names Sample.host.lvs "nyc-n1" name).mpr has
    have all : ∀ name ∈ Lvs.names Sample.host.lvs "nyc-n1",
        name = "pool".toList ∨ name = Pool.BASE_ROOTFS ∨ name = GOLD_DEFAULT := by decide
    exact all name listed
  golden n here := by
    obtain rfl := here
    decide

theorem assumed_sample : Assumed Sample.cluster Sample.env onN1 where
  sound _ := rfl
  fresh := Sample.fresh_ids
  pool n here := by
    obtain rfl := here
    decide

/-- A VM, a snapshot of its root disk and an image of this; then the VM and the snapshot are
deleted. -/
def outlives : List Act :=
  [.request "n1" (.spawnVm Sample.spawn none),
    .request "n1" (.createSnapshot ⟨"s", none, some Sample.v1⟩),
    .request "n1" (.createImage ⟨"i", "10000068"⟩), .request "n1" (.deleteVm Sample.v1),
    .request "n1" (.deleteSnapshot "10000068")]

/-- The image is there, what it comes from is not, and the data volume has stayed. -/
def outlived (w : World) : Prop :=
  (w.hosts "n1").HasLv (lvKey Sample.cluster "n1" "gold-10000073") ∧
    ¬ (w.hosts "n1").HasLv (lvKey Sample.cluster "n1" "snap-10000068") ∧
      ¬ (w.hosts "n1").HasLv (lvKey Sample.cluster "n1" (Names.rootfs Sample.v1)) ∧
        ((w.db .snapshots).rows.map SnapshotRow.lvName, (w.db .volumes).rows.length) =
          (["gold-10000073".toList], 1)

instance (w : World) : Decidable (outlived w) := inferInstanceAs (Decidable (_ ∧ _))

theorem outlives_reached :
    ∃ w, Reached (exec Sample.env) (Act.program Sample.cluster 1) (listed onN1) anyEnd
    Sample.fresh w ∧ outlived w := Reached.exists_of_follow outlives _ (by decide +kernel)

theorem rows_have_volumes_after :
    ∃ w, outlived w ∧ Corresponds Sample.cluster Sample.env onN1 1 w := by
  obtain ⟨w, reached, left⟩ := outlives_reached
  exact ⟨w, left, rows_have_volumes Sample.cluster Sample.env onN1 1 assumed_sample
    Sample.fresh booted_fresh
    w reached⟩

end Inventory

end Nyc
