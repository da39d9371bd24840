import Nyc.Dispatch

/-!
# Where a request goes

The node that a request is bound to, as its rows, its `node_id` or its images say, and what
an endpoint does with it: at that node it calls its local handler, elsewhere it hands the
request on after lookups that change nothing.
-/

namespace Nyc

open Data Effects Effects.Program Client

/-- The world some operations later, when these changed nothing. -/
def World.ticks (w : World) (k : Nat) : World := { w with clock := w.clock + k }

@[simp] theorem ticks_db (w : World) (k : Nat) : (w.ticks k).db = w.db := rfl

@[simp] theorem ticks_hosts (w : World) (k : Nat) : (w.ticks k).hosts = w.hosts := rfl

theorem ticks_ticks (w : World) (j k : Nat) : (w.ticks j).ticks k = w.ticks (j + k) := by
  simp only [World.ticks, Nat.add_assoc]

namespace Api

def vmOf (db : Db) (vmId : Id) : Option VmRow := (db .vms).get fun r => r.id = vmId

def volumeOf (db : Db) (volumeId : Id) : Option VolumeRow :=
  (db .volumes).get fun r => r.id = volumeId

def snapshotOf (db : Db) (rid : Id) (role : Role) : Option SnapshotRow :=
  (db .snapshots).get fun r => r.id = rid && r.role = role

/-- What a snapshot is taken of, where the body names one thing and it exists. -/
def sourceOf (db : Db) (body : SnapshotIn) : Option Snapshots.Source :=
  if truthy body.volumeId == truthy body.vmId then none
  else if truthy body.volumeId then
    ((db .volumes).get fun r => some r.id = body.volumeId).map fun v =>
      ⟨v.nodeId, v.id, Names.data v.id, v.sizeMb, .data⟩
  else ((db .vms).get fun r => some r.id = body.vmId).map fun v =>
    ⟨v.nodeId, v.id, Names.rootfs v.id, 0, .root⟩

/-- The images that a spawn names. -/
def imagesOf (body : SpawnIn) : List Id :=
  [body.rootImage, body.dataImage].filterMap fun i => if truthy i then i else none

/-- The nodes of the images, where all of them exist. -/
def imageNodes (db : Db) (images : List Id) : Option (List Id) :=
  images.mapM fun i => (snapshotOf db i .golden).map SnapshotRow.nodeId

/-- The one node of the images that a spawn names. -/
def imagesNode (db : Db) (body : SpawnIn) : Option Id :=
  match (imageNodes db (imagesOf body)).map List.dedup with
  | some [n] => some n
  | _ => none

/-- The node that a node-bound request belongs to. -/
def boundTo (db : Db) : Request → Option Id
  | .createVolume body => if truthy body.nodeId then body.nodeId else none
  | .resizeVolume volumeId _ | .deleteVolume volumeId => (volumeOf db volumeId).map VolumeRow.nodeId
  | .createSnapshot body => (sourceOf db body).map Snapshots.Source.nodeId
  | .deleteSnapshot snapshotId => (snapshotOf db snapshotId .snapshot).map SnapshotRow.nodeId
  | .createImage body => (snapshotOf db body.fromSnapshot .snapshot).map SnapshotRow.nodeId
  | .deleteImage imageId => (snapshotOf db imageId .golden).map SnapshotRow.nodeId
  | .createVm body => if truthy body.nodeId then body.nodeId else none
  | .spawnVm body pin => if truthy pin then pin else imagesNode db body
  | .getVm vmId | .deleteVm vmId | .stopVm vmId | .startVm vmId | .rebootVm vmId
  | .attachPublicIp vmId | .detachPublicIp vmId => (vmOf db vmId).map VmRow.nodeId
  | .createVpc _ | .deleteVpc _ | .createDomain _ | .deleteDomain _ | .createProxy _
  | .createTask _ _ | .reconcileNow => none

/-- What an endpoint does with a node-bound request on its own node: the local handler, on the
row that the lookup found. -/
def handler (self : Node) (db : Db) : Request → Py Response
  | .createVolume body => Volumes.createLocal self body self.id
  | .resizeVolume volumeId body => onRow (volumeOf db volumeId) fun row =>
    Volumes.resizeLocal self row body.sizeMb
  | .deleteVolume volumeId => onRow (volumeOf db volumeId) (Volumes.deleteLocal self)
  | .createSnapshot body => onRow (sourceOf db body) (Snapshots.createSnapshotLocal self body)
  | .deleteSnapshot snapshotId => onRow (snapshotOf db snapshotId .snapshot) (deleteLv snapshotId)
  | .createImage body => onRow (snapshotOf db body.fromSnapshot .snapshot) fun snap =>
    Snapshots.createImageLocal self body snap snap.nodeId
  | .deleteImage imageId => onRow (snapshotOf db imageId .golden) (deleteLv imageId)
  | .createVm body => Vms.createLocal self body self.id
  | .spawnVm body _ => do
    let row ← Vms.spawnLocal self body self.id fun _ => pure ()
    return .vm row
  | .getVm vmId => onRow (vmOf db vmId) (Vms.withStatus self)
  | .deleteVm vmId => Vms.deleteLocal self vmId self.id
  | .stopVm vmId => Vms.stopLocal self vmId
  | .startVm vmId => Vms.startLocal self vmId
  | .rebootVm vmId => do
    let _ ← Vms.stopLocal self vmId
    Vms.startLocal self vmId
  | .attachPublicIp vmId => onRow (vmOf db vmId) fun vm => PublicIps.attachLocal self vm self.id
  | .detachPublicIp vmId => PublicIps.detachLocal self vmId
  | _ => throw .os
where
  onRow {ρ : Type} (row : Option ρ) (f : ρ → Py Response) : Py Response := row.elim (throw .os) f
  deleteLv (rid : Id) (row : SnapshotRow) : Py Response := do
    self.sh (SnapAction.remove (self.volumeVg row.nodeId) row.lvName)
    let _ ← delete .snapshots fun r => r.id = rid
    return .empty

end Api

/-- A condition on operations that lookups and draws meet. -/
structure Quiet (ok : Op → World → Prop) : Prop where
  get : ∀ t p w, ok (.get t p) w
  getAll : ∀ t p w, ok (.getAll t p) w
  choice : ∀ w, ok .choice w

theorem Quiet.any : Quiet fun _ _ => True :=
  ⟨fun _ _ _ => trivial, fun _ _ _ => trivial, fun _ => trivial⟩

section

variable (env : Env) {w : World} {ok : Op → World → Prop}

theorem wp_quietGet (quiet : Quiet ok) (t : Tbl) (p : t.Row → Bool)
    (Q : Except Exn (Option t.Row) → World → Prop) :
    wp (checked (exec env) ok) (get t p) Q w = Q (.ok ((w.db t).get p)) w.tick := by
  rw [get, wp_perform]
  exact propext (and_iff_right (quiet.get t p w))

theorem wp_quietGetAll (quiet : Quiet ok) (t : Tbl) (p : t.Row → Bool)
    (Q : Except Exn (List t.Row) → World → Prop) :
    wp (checked (exec env) ok) (getAll t p) Q w = Q (.ok ((w.db t).getAll p)) w.tick := by
  rw [getAll, wp_perform]
  exact propext (and_iff_right (quiet.getAll t p w))

theorem wp_quietChoice (quiet : Quiet ok) (Q : Except Exn Nat → World → Prop) :
    wp (checked (exec env) ok) choice Q w = Q (.ok (env.choice w.clock)) w.tick := by
  rw [choice, wp_perform]
  exact propext (and_iff_right (quiet.choice w))

/-- `p` at `w` runs as `q` at `w'`, after lookups only. -/
def RunsAs {α : Type} (p : Py α) (w : World) (q : Py α) (w' : World) : Prop :=
  ∀ ok, Quiet ok → ∀ Q, wp (checked (exec env) ok) p Q w = wp (checked (exec env) ok) q Q w'

variable {env}

theorem RunsAs.run_eq {α : Type} {p q : Py α} {w' : World} (h : RunsAs env p w q w') :
    run (exec env) p w = run (exec env) q w' := by
  refine run_eq_of_wp (exec env) fun Q => ?_
  have same := h _ .any Q
  rw [wp_sequential, wp_sequential]
  have left := wp_checked (exec env) (fun _ _ => True) p Q w
  have right := wp_checked (exec env) (fun _ _ => True) q Q w'
  simp only [implies_true, true_and] at left right
  rw [← left, same, right]

theorem RunsAs.refl {α : Type} (p : Py α) (w : World) : RunsAs env p w p w := fun _ _ _ => rfl

theorem RunsAs.symm {α : Type} {p q : Py α} {w' : World} (h : RunsAs env p w q w') :
    RunsAs env q w' p w := fun ok quiet Q => (h ok quiet Q).symm

theorem RunsAs.trans {α : Type} {p q r : Py α} {w' w'' : World} (h : RunsAs env p w q w')
    (h' : RunsAs env q w' r w'') : RunsAs env p w r w'' :=
  fun ok quiet Q => (h ok quiet Q).trans (h' ok quiet Q)

variable (env)

/-- A lookup that finds its row. -/
theorem runsAs_lookup {α : Type} {t : Tbl} (p : t.Row → Bool) (code : Nat) (detail : Str)
    {row : t.Row} (found : (w.db t).get p = some row) (f : t.Row → Py α) :
    RunsAs env (get t p >>= fun x => orHttp x code detail >>= f) w (f row) w.tick := by
  intro ok quiet Q
  rw [wp_bind, wp_quietGet env quiet, onValue_ok, wp_bind, wp_orHttp, found]
  rfl

/-- A lookup that finds nothing. -/
theorem runsAs_missing {α : Type} {t : Tbl} (p : t.Row → Bool) (code : Nat) (detail : Str)
    (missing : (w.db t).get p = none) (f : t.Row → Py α) :
    RunsAs env (get t p >>= fun x => orHttp x code detail >>= f) w
      (throw (.http code detail)) w.tick := by
  intro ok quiet Q
  rw [wp_bind, wp_quietGet env quiet, onValue_ok, wp_bind, wp_orHttp, missing]
  rfl

/-! ## Lookups -/

theorem resolveSource_runs {src : Snapshots.Source} (body : SnapshotIn)
    (found : Api.sourceOf w.db body = some src) {α : Type} (f : Snapshots.Source → Py α) :
    RunsAs env (Snapshots.resolveSource body >>= f) w (f src) w.tick := by
  intro ok quiet Q
  unfold Api.sourceOf at found
  split at found
  · cases found
  next one =>
    have single : (truthy body.volumeId == truthy body.vmId) = false := Bool.eq_false_iff.mpr one
    simp only [Snapshots.resolveSource, refuseIf, single, wp_bind, wp_whenTrue,
      Bool.false_eq_true, if_false, onValue_ok]
    -- Exactly one of the two is named: the one whose row the source is made of.
    split at found
    next volume =>
      obtain ⟨vol, there, rfl⟩ := Option.map_eq_some_iff.mp found
      simp only [volume, if_true, wp_bind, wp_orHttp, wp_pure]
      rw [wp_quietGet env quiet, onValue_ok, there]
      rfl
    next vm =>
      obtain ⟨vm', there, rfl⟩ := Option.map_eq_some_iff.mp found
      simp only [vm, Bool.false_eq_true, if_false, wp_bind, wp_orHttp, wp_pure]
      rw [wp_quietGet env quiet, onValue_ok, there]
      rfl

theorem imageNodes_runs (images : List Id) {nodes : List Id} (w : World)
    (all : Api.imageNodes w.db images = some nodes) {α : Type} (f : List Id → Py α) :
    RunsAs env (Vms.imageNodes images >>= f) w (f nodes) (w.ticks images.length) := by
  induction images generalizing w nodes f with
  | nil =>
    cases all
    exact fun _ _ _ => rfl
  | cons i rest ih =>
    simp only [Api.imageNodes, List.mapM_cons, Option.bind_eq_bind, Option.bind_eq_some_iff] at all
    obtain ⟨n, first, ns, more, same⟩ := all
    cases same
    obtain ⟨img, found, rfl⟩ := Option.map_eq_some_iff.mp first
    -- each image is one read
    have here : RunsAs env (Vms.imageNodes (i :: rest) >>= f) w
        (Vms.imageNodes rest >>= fun ns => f (img.nodeId :: ns)) w.tick := by
      intro ok quiet Q
      simp only [Vms.imageNodes, Vms.imageOr400, wp_bind, wp_orHttp]
      rw [wp_quietGet env quiet, onValue_ok]
      rw [Api.snapshotOf] at found
      rw [found]
      simp only [onValue_ok, wp_pure]
      rfl
    have later := ih w.tick more fun ns => f (img.nodeId :: ns)
    have clock : w.tick.ticks rest.length = w.ticks (i :: rest).length := by
      rw [List.length_cons, Nat.add_comm rest.length, ← ticks_ticks]
      rfl
    exact clock ▸ here.trans later

/-- Without a pin, a spawn looks up its images. -/
theorem pinOrTarget_runs {o : Id} {pin : Option Id} (body : SpawnIn) (falsy : ¬ truthy pin = true)
    (node : Api.imagesNode w.db body = some o) {α : Type} (f : Id → Py α) :
    RunsAs env (Vms.pinOrTarget body pin >>= f) w (f o) (w.ticks (Api.imagesOf body).length) := by
  unfold Api.imagesNode at node
  split at node
  next n one =>
    cases node
    obtain ⟨nodes, all, dedup⟩ := Option.map_eq_some_iff.mp one
    rw [Vms.pinOrTarget, if_neg falsy, Vms.targetNode, LawfulMonad.bind_assoc]
    refine (imageNodes_runs env _ w all _).trans ?_
    rw [dedup]
    exact fun _ _ _ => rfl
  · cases node

theorem pinned_runs {pin : Option Id} (body : SpawnIn) (value : truthy pin = true) {α : Type}
    (f : Id → Py α) : RunsAs env (Vms.pinOrTarget body pin >>= f) w (f (pin.getD [])) w := by
  rw [Vms.pinOrTarget, if_pos value]
  exact fun _ _ _ => rfl

theorem ownerOr404_runs {row : VmRow} (vmId : Id) (found : Api.vmOf w.db vmId = some row) {α : Type}
    (f : Id → Py α) : RunsAs env (Vms.ownerOr404 vmId >>= f) w (f row.nodeId) w.tick := by
  rw [Vms.ownerOr404, LawfulMonad.bind_assoc]
  simp only [LawfulMonad.bind_assoc, pure_bind]
  exact runsAs_lookup env _ _ _ found _

theorem vmOr404_runs {row : VmRow} (vmId : Id) (found : Api.vmOf w.db vmId = some row) {α : Type}
    (f : VmRow → Py α) : RunsAs env (vmOr404 vmId >>= f) w (f row) w.tick := by
  rw [vmOr404, LawfulMonad.bind_assoc]
  exact runsAs_lookup env _ _ _ found _

/-! ## Endpoints -/

namespace Api

/-- How many lookups an endpoint makes of the node that the request is bound to. -/
def lookups : Request → Nat
  | .createVolume _ | .createVm _ => 0
  | .spawnVm body pin => if truthy pin then 0 else (imagesOf body).length
  | _ => 1

theorem named_node {x : Option Id} {o : Id} (named : (if truthy x then x else none) = some o) :
    truthy x = true ∧ x = some o := by
  split at named
  next value => exact ⟨value, named⟩
  · cases named

/-- The lookups of a node-bound request find its node, and what the local handler is called on. -/
theorem lookUp_runs (self : Node) (req : Request) {o : Id} (bound : boundTo w.db req = some o) :
    ∃ found, ownerOf self req found = o ∧
      (o = self.id → serveHere self req found = handler self w.db req) ∧
      ∀ f : Found req → Py Response, RunsAs env (lookUp self req >>=
        f) w (f found) (w.ticks (lookups req)) := by
  -- one lookup for each table that names the owner; the row is the one that binds the request
  cases req with
  | createVolume body =>
    obtain ⟨value, named⟩ := named_node bound
    refine ⟨(), ?_, fun _ => rfl, fun f => .refl _ _⟩
    rw [ownerOf, orElse_of_truthy value, named, Option.getD_some]
  | createVm body =>
    obtain ⟨value, named⟩ := named_node bound
    refine ⟨(), ?_, fun _ => rfl, fun f => .refl _ _⟩
    rw [ownerOf, orElse_of_truthy value, named, Option.getD_some]
  | spawnVm body pin =>
    refine ⟨o, rfl, fun _ => rfl, fun f => ?_⟩
    rw [lookUp, lookups]
    rw [boundTo] at bound
    split at bound
    next value =>
      subst bound
      rw [if_pos value]
      exact pinned_runs env body value _
    next falsy =>
      rw [if_neg falsy]
      exact pinOrTarget_runs env body falsy bound _
  | createSnapshot body =>
    obtain ⟨src, found, rfl⟩ := Option.map_eq_some_iff.mp bound
    refine ⟨src, rfl, fun _ => ?_, resolveSource_runs env body found⟩
    simp only [handler, handler.onRow, found, Option.elim_some]
    rfl
  | resizeVolume | deleteVolume | deleteSnapshot | deleteImage | getVm =>
    obtain ⟨row, found, rfl⟩ := Option.map_eq_some_iff.mp bound
    refine ⟨row, rfl, fun _ => ?_, fun f => ?_⟩
    · simp only [handler, handler.onRow, found, Option.elim_some]
      rfl
    · rw [lookUp, LawfulMonad.bind_assoc]
      exact runsAs_lookup env _ _ _ found _
  | createImage body =>
    obtain ⟨row, found, rfl⟩ := Option.map_eq_some_iff.mp bound
    refine ⟨row, rfl, fun here => ?_, fun f => ?_⟩
    · simp only [handler, handler.onRow, found, Option.elim_some, here]
      rfl
    · rw [lookUp, LawfulMonad.bind_assoc]
      exact runsAs_lookup env _ _ _ found _
  | attachPublicIp vmId =>
    obtain ⟨row, found, rfl⟩ := Option.map_eq_some_iff.mp bound
    refine ⟨row, rfl, fun _ => ?_, vmOr404_runs env vmId found⟩
    simp only [handler, handler.onRow, found, Option.elim_some]
    rfl
  | detachPublicIp vmId =>
    obtain ⟨row, found, rfl⟩ := Option.map_eq_some_iff.mp bound
    exact ⟨row, rfl, fun _ => rfl, vmOr404_runs env vmId found⟩
  | deleteVm vmId | stopVm vmId | startVm vmId | rebootVm vmId =>
    obtain ⟨row, found, rfl⟩ := Option.map_eq_some_iff.mp bound
    exact ⟨row.nodeId, rfl, fun _ => rfl, ownerOr404_runs env vmId found⟩
  | createVpc | deleteVpc | createDomain | deleteDomain | createProxy | createTask | reconcileNow =>
    cases bound

/-- At its node an endpoint serves the request with its local handler, elsewhere it hands it on. -/
theorem endpoint_runs (self : Node) (req : Request) {o : Id} (bound : boundTo w.db req = some o)
    (forward : Forward) :
    RunsAs env (endpoint self forward req) w
      (if o ≠ self.id then forward o (handedTo o req) else handler self w.db req)
      (w.ticks (lookups req)) := by
  obtain ⟨found, rfl, own, runs⟩ := lookUp_runs env self req bound
  rw [endpoint_eq]
  have after := runs fun found => if ownerOf self req found ≠ self.id then
    forward (ownerOf self req found) (handedTo (ownerOf self req found) req)
      else serveHere self req found
  by_cases here : ownerOf self req found = self.id
  · rw [if_neg (not_not.mpr here)] at after ⊢
    rwa [← own here]
  · rw [if_pos here] at after ⊢
    exact after

end Api

end

end Nyc
