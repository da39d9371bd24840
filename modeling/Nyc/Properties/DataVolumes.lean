import Nyc.Cluster

/-!
# One data volume, one VM

`POST /vms` takes any volume that has a row: one that another VM uses, or one of another node.
Where it names a free volume of the target node, each volume belongs to at most one VM, of its
own node, in every state of every run: a spawn makes its own volume, and a volume in use is
not deleted.
-/

namespace Nyc

open Data Effects Effects.Program

namespace DataVolumes

/-- Each volume is the data volume of at most one VM, and is on that VM's node. -/
structure Exclusive (w : World) : Prop where
  atMostOne : ∀ vol ∈ w.db .volumes, ∀ vm ∈ w.db .vms, ∀ vm' ∈ w.db .vms,
    vm.dataVolumeId = some vol.id → vm'.dataVolumeId = some vol.id → vm = vm'
  sameNode : ∀ vol ∈ w.db .volumes, ∀ vm ∈ w.db .vms, vm.dataVolumeId = some vol.id →
    vol.nodeId = vm.nodeId

/-- The volume of the request, if it has a row, is on the node and no VM uses it. -/
def Attachable (w : World) (nodeId : Id) (dataVolumeId : Option Id) : Prop :=
  ∀ vol ∈ w.db .volumes, dataVolumeId = some vol.id →
    vol.nodeId = nodeId ∧ ∀ vm ∈ w.db .vms, vm.dataVolumeId ≠ some vol.id

/-- The volume, unless the field is empty, has a row. -/
def Named (w : World) (dataVolumeId : Option Id) : Prop :=
  ∀ volId, dataVolumeId = some volId → volId ≠ [] → ∃ vol ∈ w.db .volumes, vol.id = volId

/-- Every VM's volume has a row, and the relation is exclusive. -/
structure Sound (w : World) : Prop where
  exclusive : Exclusive w
  named : ∀ vm ∈ w.db .vms, Named w vm.dataVolumeId

/-- `POST /vms` names a free volume of the node that is to make the VM. -/
def attachesFree : Action → World → Prop
  | .request nodeId (.createVm body), w =>
    Attachable w (orElse body.nodeId nodeId) body.dataVolumeId
  | _, _ => True

instance (w : World) (nodeId : Id) (d : Option Id) : Decidable (Attachable w nodeId d) :=
  inferInstanceAs (Decidable (∀ vol ∈ (w.db .volumes).rows, d = some vol.id →
    vol.nodeId = nodeId ∧ ∀ vm ∈ (w.db .vms).rows, vm.dataVolumeId ≠ some vol.id))

instance (a : Action) (w : World) : Decidable (attachesFree a w) :=
  match a with
  | .request nodeId (.createVm body) =>
    inferInstanceAs (Decidable (Attachable w (orElse body.nodeId nodeId) body.dataVolumeId))
  | .request _ (.createVpc _) | .request _ (.deleteVpc _) | .request _ (.createVolume _)
  | .request _ (.resizeVolume _ _) | .request _ (.deleteVolume _) | .request _ (.createSnapshot _)
  | .request _ (.deleteSnapshot _) | .request _ (.createImage _) | .request _ (.deleteImage _)
  | .request _ (.spawnVm _ _) | .request _ (.deleteVm _) | .request _ (.getVm _)
  | .request _ (.stopVm _) | .request _ (.startVm _) | .request _ (.rebootVm _)
  | .request _ (.attachPublicIp _) | .request _ (.detachPublicIp _) | .request _ (.createDomain _)
  | .request _ (.deleteDomain _) | .request _ (.createProxy _) | .request _ (.createTask _ _)
  | .request _ .reconcileNow | .reconcile _ | .tick _ | .join _ | .leave _ => .isTrue trivial

/-! ## Operations that keep the relation -/

/-- `w'` has no VM and no volume with a relation that `w` has not, and has all its volumes. -/
structure NoNewAttachments (w w' : World) : Prop where
  vms : ∀ vm' ∈ w'.db .vms, ∃ vm ∈ w.db .vms,
    vm.id = vm'.id ∧ vm.nodeId = vm'.nodeId ∧ vm.dataVolumeId = vm'.dataVolumeId
  volumes : ∀ vol' ∈ w'.db .volumes, ∃ vol ∈ w.db .volumes,
    vol.id = vol'.id ∧ vol.nodeId = vol'.nodeId
  all : ∀ vol ∈ w.db .volumes, ∃ vol' ∈ w'.db .volumes, vol'.id = vol.id

namespace NoNewAttachments

variable {w w' : World}

theorem attachable (h : NoNewAttachments w w') {nodeId : Id} {d : Option Id}
    (a : Attachable w nodeId d) :
    Attachable w' nodeId d := by
  intro vol' there' names
  obtain ⟨vol, there, sameId, sameNode⟩ := h.volumes vol' there'
  obtain ⟨onNode, unused⟩ := a vol there (by rw [names, sameId])
  refine ⟨sameNode ▸ onNode, fun vm' vmThere' uses => ?_⟩
  obtain ⟨vm, vmThere, -, -, sameVolume⟩ := h.vms vm' vmThere'
  exact unused vm vmThere (by rw [sameVolume, uses, sameId])

theorem named (h : NoNewAttachments w w') {d : Option Id} (n : Named w d) : Named w' d := by
  intro volId names value
  obtain ⟨vol, there, rfl⟩ := n volId names value
  exact h.all vol there

theorem sound (h : NoNewAttachments w w') (s : Sound w) : Sound w' := by
  refine ⟨⟨?_, ?_⟩, ?_⟩
  · intro vol' there' vm₁ there₁ vm₂ there₂ uses₁ uses₂
    obtain ⟨vol, there, sameId, -⟩ := h.volumes vol' there'
    obtain ⟨v₁, before₁, id₁, -, volume₁⟩ := h.vms vm₁ there₁
    obtain ⟨v₂, before₂, id₂, -, volume₂⟩ := h.vms vm₂ there₂
    have same : v₁ = v₂ := s.exclusive.atMostOne vol there v₁ before₁ v₂ before₂
      (by rw [volume₁, uses₁, sameId]) (by rw [volume₂, uses₂, sameId])
    -- The two rows have one id, which is unique.
    exact Table.eq_of_key _ VmRow.id List.mem_cons_self there₁ there₂
      (by rw [← id₁, ← id₂, same])
  · intro vol' there' vm' vmThere' uses
    obtain ⟨vol, there, sameId, sameNode⟩ := h.volumes vol' there'
    obtain ⟨vm, vmThere, -, vmNode, volume⟩ := h.vms vm' vmThere'
    have onNode := s.exclusive.sameNode vol there vm vmThere (by rw [volume, uses, sameId])
    rw [← sameNode, onNode, vmNode]
  · intro vm' vmThere'
    obtain ⟨vm, vmThere, -, -, volume⟩ := h.vms vm' vmThere'
    exact volume ▸ h.named (s.named vm vmThere)

end NoNewAttachments

/-- The tables that harmless operations insert into. -/
def kept : List Tbl := [.vpcs, .snapshots, .publicIps, .domains, .tasks, .proxies, .nodes]

/-- The tables that harmless operations delete from. -/
def dropped : List Tbl :=
  [.vpcs, .vms, .snapshots, .publicIps, .domains, .tasks, .proxies, .nodes]

abbrev Harmless : Op → Prop := Touch kept dropped

/-- A harmless operation keeps the relation. -/
theorem noNewAttachments_of_harmless (env : Env) (w : World) (o : Op) (h : Harmless o) :
    NoNewAttachments w (exec env o w).2 where
  vms vm' there' := by
    obtain ⟨vm, there, status, rfl⟩ := h.rows_came (t := .vms) (by decide) vm' there'
    exact ⟨vm, there, rfl, rfl, rfl⟩
  volumes vol' there' := by
    obtain ⟨vol, there, sizeMb, rfl⟩ := h.rows_came (t := .volumes) (by decide) vol' there'
    exact ⟨vol, there, rfl, rfl⟩
  all vol there := by
    obtain ⟨vol', there', sizeMb, rfl⟩ :=
      h.rows_stay (t := .volumes) (by decide) (by decide) vol there
    exact ⟨_, there', rfl⟩

section Programs

variable {env : Env} {w : World}

/-- The rows that a VM on the node with this volume needs. -/
structure Ready (w : World) (nodeId : Id) (d : Option Id) : Prop where
  attachable : Attachable w nodeId d
  named : Named w d

theorem sound_keeps : Keeps env Harmless Sound := by
  intro o w harmless sound
  exact (noNewAttachments_of_harmless env w o harmless).sound sound

/-- Nor does a harmless operation take away what the VM needs. -/
theorem ready_keeps (nodeId : Id) (d : Option Id) :
    Keeps env Harmless fun w => Sound w ∧ Ready w nodeId d := by
  intro o w harmless post
  have same := noNewAttachments_of_harmless env w o harmless
  exact ⟨same.sound post.1, same.attachable post.2.attachable, same.named post.2.named⟩

theorem Sound.tick (sound : Sound w) : Sound w.tick :=
  ⟨⟨sound.exclusive.atMostOne, sound.exclusive.sameNode⟩, sound.named⟩

/-! ## The inserts -/

/-- A VM whose volume is ready for it. -/
theorem insert_vm (env : Env) (row : VmRow) (sound : Sound w)
    (ready : Ready w row.nodeId row.dataVolumeId) : Sound (exec env (.insert .vms row) w).2 := by
  cases inserted : (w.db .vms).insert row with
  | none =>
    rw [exec_insert_none env w .vms row inserted]
    exact ⟨⟨sound.exclusive.atMostOne, sound.exclusive.sameNode⟩, sound.named⟩
  | some rows =>
    rw [exec_insert_some env w .vms row inserted]
    have mem : ∀ vm, vm ∈ (w.setTable .vms rows).tick.db .vms ↔ vm ∈ w.db .vms ∨ vm = row := by
      intro vm
      rw [tick_db, setTable_self, Table.mem_insert inserted]
    refine ⟨⟨?_, ?_⟩, ?_⟩
    · intro vol there vm₁ there₁ vm₂ there₂ uses₁ uses₂
      rcases (mem vm₁).mp there₁ with old₁ | rfl <;> rcases (mem vm₂).mp there₂ with old₂ | rfl
      · exact sound.exclusive.atMostOne vol there vm₁ old₁ vm₂ old₂ uses₁ uses₂
      · exact absurd uses₁ ((ready.attachable vol there uses₂).2 vm₁ old₁)
      · exact absurd uses₂ ((ready.attachable vol there uses₁).2 vm₂ old₂)
      · rfl
    · intro vol there vm vmThere uses
      rcases (mem vm).mp vmThere with old | rfl
      · exact sound.exclusive.sameNode vol there vm old uses
      · exact (ready.attachable vol there uses).1
    · intro vm vmThere
      rcases (mem vm).mp vmThere with old | rfl
      · exact sound.named vm old
      · exact ready.named

/-- A volume with an id that no row has: no VM can have named it. -/
theorem insert_volume (env : Env) (row : VolumeRow) (sound : Sound w) (value : row.id ≠ []) :
    Sound (exec env (.insert .volumes row) w).2 ∧ ((exec env (.insert .volumes row) w).1 = .ok () →
      Ready (exec env (.insert .volumes row) w).2 row.nodeId (some row.id)) := by
  cases inserted : (w.db .volumes).insert row with
  | none =>
    rw [exec_insert_none env w .volumes row inserted]
    exact ⟨⟨⟨sound.exclusive.atMostOne, sound.exclusive.sameNode⟩, sound.named⟩, nofun⟩
  | some rows =>
    rw [exec_insert_some env w .volumes row inserted]
    have mem : ∀ vol, vol ∈ (w.setTable .volumes rows).tick.db .volumes ↔
        vol ∈ w.db .volumes ∨ vol = row := by
      intro vol
      rw [tick_db, setTable_self, Table.mem_insert inserted]
    -- a VM that named the new id would have named a volume that was there before
    have unused : ∀ vm ∈ w.db .vms, vm.dataVolumeId ≠ some row.id := by
      intro vm vmThere uses
      obtain ⟨vol, there, same⟩ := sound.named vm vmThere row.id uses value
      have clash : ∃ a ∈ w.db .volumes, Clash Tbl.volumes.unique a row :=
        ⟨vol, there, _, List.mem_cons_self, nofun, congrArg some same⟩
      rw [Table.insert_none.mpr clash] at inserted
      cases inserted
    refine ⟨⟨⟨?_, ?_⟩, ?_⟩, fun _ => ⟨?_, ?_⟩⟩
    · intro vol there vm₁ there₁ vm₂ there₂ uses₁ uses₂
      rcases (mem vol).mp there with old | rfl
      · exact sound.exclusive.atMostOne vol old vm₁ there₁ vm₂ there₂ uses₁ uses₂
      · exact absurd uses₁ (unused vm₁ there₁)
    · intro vol there vm vmThere uses
      rcases (mem vol).mp there with old | rfl
      · exact sound.exclusive.sameNode vol old vm vmThere uses
      · exact absurd uses (unused vm vmThere)
    · intro vm vmThere volId uses filled
      obtain ⟨vol, there, same⟩ := sound.named vm vmThere volId uses filled
      exact ⟨vol, (mem vol).mpr (.inl there), same⟩
    · intro vol there names
      rcases (mem vol).mp there with old | rfl
      · have clash : ∃ a ∈ w.db .volumes, Clash Tbl.volumes.unique a row :=
          ⟨vol, old, _, List.mem_cons_self, nofun, names.symm⟩
        rw [Table.insert_none.mpr clash] at inserted
        cases inserted
      · exact ⟨rfl, unused⟩
    · intro volId names _
      exact ⟨row, (mem row).mpr (.inr rfl), Option.some.inj names⟩

/-- A volume that no VM uses may lose its row. -/
theorem delete_volume (env : Env) (volId : Id) (sound : Sound w)
    (unused : ∀ vm ∈ w.db .vms, vm.dataVolumeId ≠ some volId) :
    Sound (exec env (.delete .volumes fun r => r.id = volId) w).2 := by
  have mem : ∀ vol, vol ∈ (exec env (.delete .volumes fun r => r.id = volId) w).2.db .volumes ↔
      vol ∈ w.db .volumes ∧ vol.id ≠ volId := by
    intro vol
    rw [exec_delete, tick_db, setTable_self, Table.mem_delete, decide_eq_false_iff_not]
  refine ⟨⟨?_, ?_⟩, ?_⟩
  · exact fun vol there => sound.exclusive.atMostOne vol ((mem vol).mp there).1
  · exact fun vol there => sound.exclusive.sameNode vol ((mem vol).mp there).1
  · intro vm vmThere id names value
    obtain ⟨vol, there, rfl⟩ := sound.named vm vmThere id names value
    exact ⟨vol, (mem vol).mpr ⟨there, fun same => unused vm vmThere (same ▸ names)⟩, rfl⟩

/-! ## The requests -/

theorem createVolume_sound (self : Node) (body : VolumeIn) (nodeId : Id)
    (uuids : ∀ n, env.uuid n ≠ []) (sound : Sound w) :
    wp (sequential (exec env)) (Volumes.createLocal self body nodeId) (fun _ w' => Sound w') w := by
  rw [Volumes.createLocal, wp_bind, wp_uuid4, onValue_ok]
  refine sound_keeps.first (Volumes.provision_touch self ..) sound.tick (fun _ _ s => s) ?_
  rintro ⟨dev, sizeMb⟩ w' sound
  refine sound_keeps.first (.now .now) sound (fun _ _ s => s) fun time w' sound => ?_
  have inserted := insert_volume env
    ⟨env.uuid w.clock, nodeId, body.name, sizeMb, dev.text, "ready", time⟩ sound (uuids _)
  exact insert_then env w' (fun _ => inserted.1) fun _ => inserted.1

theorem deleteVolume_sound (self : Node) (row : VolumeRow) (sound : Sound w) :
    wp (sequential (exec env)) (Volumes.deleteLocal self row) (fun _ w' => Sound w') w := by
  rw [Volumes.deleteLocal, wp_bind, wp_get, onValue_ok, wp_bind, refuseIf, wp_whenTrue]
  cases found : (w.db .vms).get fun r => r.dataVolumeId = some row.id with
  | some vm => exact sound.tick
  | none =>
    have unused : ∀ vm ∈ w.db .vms, vm.dataVolumeId ≠ some row.id := fun vm there =>
      of_decide_eq_false (Table.get_none.mp found vm there)
    have keeps : Keeps env Harmless fun w => Sound w ∧ ∀ vm ∈ w.db .vms,
        vm.dataVolumeId ≠ some row.id := by
      intro o w harmless post
      have same := noNewAttachments_of_harmless env w o harmless
      refine ⟨same.sound post.1, fun vm' there' uses => ?_⟩
      obtain ⟨vm, there, -, -, volume⟩ := same.vms vm' there'
      exact post.2 vm there (volume.trans uses)
    refine keeps.first (sh_touch self _) ⟨sound.tick, unused⟩ (fun _ _ post => post.1)
      fun _ w post => ?_
    rw [wp_bind, wp_delete]
    exact delete_volume env row.id post.1 post.2

/-- A volume that the body names has a row, or the request is refused. -/
theorem bodyVolumePath_then {β : Type} {f : Option Client.Path → Py β}
    {Q : Except Exn β → World → Prop} (body : VmIn) (nodeId : Id) (sound : Sound w)
    (free : Attachable w nodeId body.dataVolumeId) (fails : ∀ e w', Sound w' → Q (.error e) w')
    (rest : ∀ a w', Sound w' → Ready w' nodeId body.dataVolumeId →
      wp (sequential (exec env)) (f a) Q w') :
    wp (sequential (exec env)) (Vms.bodyVolumePath body >>= f) Q w := by
  rw [wp_bind, Vms.bodyVolumePath, wp_ite]
  split
  next value =>
    rw [wp_bind, Vms.volumePath, wp_bind, wp_get, onValue_ok, wp_bind, wp_orHttp]
    cases found : (w.db .volumes).get fun r => r.id = body.dataVolumeId.getD [] with
    | none => exact fails _ _ sound.tick
    | some vol =>
      obtain ⟨there, same⟩ := Table.get_some found
      refine rest _ w.tick sound.tick ⟨free, fun volId names _ => ⟨vol, there, ?_⟩⟩
      rw [of_decide_eq_true same, names]
      rfl
  next falsy =>
    refine rest _ w sound ⟨free, fun volId names filled => ?_⟩
    rw [names] at falsy
    cases volId with
    | nil => exact absurd rfl filled
    | cons c cs => exact absurd rfl falsy

theorem createLocal_sound (self : Node) (body : VmIn) (nodeId : Id) (sound : Sound w)
    (free : Attachable w nodeId body.dataVolumeId) :
    wp (sequential (exec env)) (Vms.createLocal self body nodeId) (fun _ w' => Sound w') w := by
  have vpcs : Keeps env Harmless fun w => Sound w ∧ Attachable w nodeId body.dataVolumeId := by
    intro o w harmless post
    have same := noNewAttachments_of_harmless env w o harmless
    exact ⟨same.sound post.1, same.attachable post.2⟩
  refine vpcs.first (Vms.vpcOr404_touch body.vpcId) ⟨sound, free⟩ (fun _ _ post => post.1)
    fun vpc w post => ?_
  refine bodyVolumePath_then body nodeId post.1 post.2 (fun _ _ s => s) fun path w sound ready => ?_
  -- From here on the volume stays ready for the VM.
  have keeps : Keeps env Harmless _ := ready_keeps nodeId body.dataVolumeId
  have fails : ∀ (e : Exn) w', Sound w' ∧ Ready w' nodeId body.dataVolumeId → Sound w' :=
    fun _ _ post => post.1
  refine keeps.first (Vms.usedIps_touch _) ⟨sound, ready⟩ fails fun used w post => ?_
  refine keeps.first (.fromExcept _) post fails fun ip w post => ?_
  refine keeps.first (.uuid4 .uuid4) post fails fun vmId w post => ?_
  refine keeps.first (.now .now) post fails fun time w post => ?_
  have inserted := insert_vm env (Vms.newRow self body nodeId ip vmId time) post.1 post.2
  refine insert_then env w (fun _ => inserted) fun _ => ?_
  exact sound_keeps.only (.bind (Vms.bringUp_touch self ..) fun _ => .pure _) inserted

/-- The volume that a spawn makes is ready for its VM. -/
theorem autoVolume_sound (self : Node) (body : SpawnIn) (nodeId : Id) (uuids : ∀ n, env.uuid n ≠ [])
    (sound : Sound w) :
    wp (sequential (exec env)) (Vms.autoVolume self body nodeId)
      (fun r w' => Sound w' ∧ ∀ vol, r = .ok vol → Ready w' nodeId (some vol.id)) w := by
  have fails : ∀ (e : Exn) (w' : World), Sound w' →
      Sound w' ∧ ∀ vol : VolumeRow, Except.error e = .ok vol → Ready w' nodeId (some vol.id) :=
    fun _ _ s => ⟨s, nofun⟩
  rw [Vms.autoVolume, wp_bind, wp_uuid4, onValue_ok]
  refine sound_keeps.first (Vms.provisionData_touch self ..) sound.tick fails ?_
  rintro ⟨dev, sizeMb⟩ w' sound
  refine sound_keeps.first (.now .now) sound fails fun time w' sound => ?_
  have inserted := insert_volume env
    ⟨env.uuid w.clock, nodeId, body.vmName ++ "-data", sizeMb, dev.text, "ready",
      time⟩ sound (uuids _)
  refine insert_then env w' (fun e => fails e _ inserted.1) fun answer => ⟨inserted.1, ?_⟩
  rintro _ ⟨⟩
  exact inserted.2 answer

theorem spawnLocal_sound (self : Node) (body : SpawnIn) (nodeId : Id) (preBringUp : Id → Py Unit)
    (uuids : ∀ n, env.uuid n ≠ []) (pre : ∀ vmId, Only Harmless (preBringUp vmId))
    (sound : Sound w) :
    wp (sequential (exec env)) (Vms.spawnLocal self body nodeId preBringUp)
      (fun _ w' => Sound w') w := by
  refine sound_keeps.first (ensureDefaultVpc_touch (by decide)) sound (fun _ _ s => s)
    fun vpc w sound => ?_
  refine sound_keeps.first (Vms.resolveRootImage_touch ..) sound (fun _ _ s => s)
    fun origin w sound => ?_
  -- From the volume's row on, the volume is ready for the VM.
  refine sequential_bind (exec env) (fun vol w => Sound w ∧ Ready w nodeId (some vol.id)) ?_
    fun vol w post => ?_
  · refine sequential_mono _ _ _ _ ?_ w (autoVolume_sound self body nodeId uuids sound)
    rintro (e | vol) w' post
    · exact post.1
    · exact ⟨post.1, post.2 vol rfl⟩
  have keeps : Keeps env Harmless _ := ready_keeps nodeId (some vol.id)
  have fails : ∀ (e : Exn) w', Sound w' ∧ Ready w' nodeId (some vol.id) → Sound w' :=
    fun _ _ post => post.1
  refine keeps.first (Vms.usedIps_touch _) post fails fun used w post => ?_
  refine keeps.first (.fromExcept _) post fails fun ip w post => ?_
  refine keeps.first (.uuid4 .uuid4) post fails fun vmId w post => ?_
  refine keeps.first (.now .now) post fails fun time w post => ?_
  have inserted := insert_vm env (Vms.spawnRow body nodeId vpc.id ip vol.id vmId time) post.1 post.2
  refine insert_then env w (fun _ => inserted) fun _ => ?_
  refine sound_keeps.only ?_ inserted
  exact .bind (pre _) fun _ => .bind (Vms.bringUp_touch self ..) fun _ => .pure _

theorem createProxyLocal_sound (self : Node) (body : ProxyIn) (vpc : VpcRow) (nodeId : Id)
    (uuids : ∀ n, env.uuid n ≠ []) (sound : Sound w) :
    wp (sequential (exec env)) (Proxy.createProxyLocal self body vpc nodeId)
      (fun _ w' => Sound w') w := by
  refine sound_keeps.first (PublicIps.usedAddresses_touch _ (by decide)) sound (fun _ _ s => s)
    fun used w sound => ?_
  refine sound_keeps.first (.fromExcept _) sound (fun _ _ s => s) fun entry w sound => ?_
  refine sound_keeps.first (.now .now) sound (fun _ _ s => s) fun time w sound => ?_
  refine sound_keeps.first (.uuid4 .uuid4) sound (fun _ _ s => s) fun pipId w sound => ?_
  refine sequential_bind (exec env) (fun _ => Sound) ?_ fun vm w sound =>
    sound_keeps.only (Proxy.record_touch _ _ _ _ _ _ (by decide) (by decide)) sound
  refine sequential_mono _ _ _ _ ?_ w (spawnLocal_sound self _ nodeId _ uuids
    (fun vmId => .insert (.insert .publicIps _ (by decide))) sound)
  rintro (e | _) w' s <;> exact s

/-- What an endpoint may assume: a `POST /vms` names the node where it ends up. -/
def Assumed (req : Request) (w : World) : Prop :=
  Sound w ∧ ∀ body, req = .createVm body →
    truthy body.nodeId = true ∧ Attachable w (body.nodeId.getD []) body.dataVolumeId

theorem assumed_keeps (req : Request) : Keeps env Harmless (Assumed req) := by
  intro o w harmless assumed
  have same := noNewAttachments_of_harmless env w o harmless
  refine ⟨same.sound assumed.1, fun body named => ?_⟩
  obtain ⟨value, free⟩ := assumed.2 body named
  exact ⟨value, same.attachable free⟩

theorem Assumed.handedTo {req : Request} (assumed : Assumed req w) (target : Id) :
    Assumed (Api.handedTo target req) w := by
  refine ⟨assumed.1, fun body same => ?_⟩
  cases req with
  | spawnVm body pin => cases same
  | _ => exact assumed.2 body same

/-- What a node does with a request of its own. -/
theorem serveHere_sound (self : Node) (req : Request) (found : Api.Found req)
    (uuids : ∀ n, env.uuid n ≠ [])
    (assumed : Assumed req w) (own : Api.ownerOf self req found = self.id) :
    wp (sequential (exec env)) (Api.serveHere self req found) (fun _ w' => Sound w') w := by
  obtain ⟨sound, names⟩ := assumed
  cases req with
  | createVolume body => exact createVolume_sound self body _ uuids sound
  | deleteVolume volumeId => exact deleteVolume_sound self found sound
  | createVm body =>
    obtain ⟨value, free⟩ := names body rfl
    rw [Api.ownerOf, orElse_of_truthy value] at own
    exact createLocal_sound self body _ sound (own ▸ free)
  | spawnVm body pin =>
    refine sequential_bind (exec env) (fun _ => Sound) ?_ fun _ w sound => sound
    refine sequential_mono _ _ _ _ ?_ w (spawnLocal_sound self body self.id _ uuids
      (fun _ => .pure _) sound)
    rintro (e | _) w' s <;> exact s
  | createProxy body => exact createProxyLocal_sound self body found.1 self.id uuids sound
  | _ =>
    apply sound_keeps.only _ sound
    apply Api.serveHere_touch self _ found
    constructor
    · simp [Request.writes, kept]
    · simp [Request.deletes, dropped]

theorem endpoint_sound (self : Node) (forward : Forward) (req : Request)
    (uuids : ∀ n, env.uuid n ≠ []) (assumed : Assumed req w)
    (on : ∀ target req' w', Assumed req' w' →
      wp (sequential (exec env)) (forward target req') (fun _ w' => Sound w') w') :
    wp (sequential (exec env)) (Api.endpoint self forward req) (fun _ w' => Sound w') w := by
  have looks : Only Harmless (Api.lookUp self req) := Api.lookUp_touch self req (by simp [kept])
  apply Api.endpoint_sequential (assumed_keeps req) looks assumed
  · intro e w' assumed
    exact assumed.1
  · intro found w' assumed
    exact on _ _ w' (assumed.handedTo _)
  · intro found w' assumed _ own
    exact serveHere_sound self req found uuids assumed own

theorem serve_sound (cfg : Id → NodeConfig) (hops : Nat) (nodeId : Id) (req : Request)
    (uuids : ∀ n, env.uuid n ≠ []) (allowed : attachesFree (.request nodeId req) w)
    (sound : Sound w) :
    wp (sequential (exec env)) (Api.serve cfg hops nodeId req) (fun _ w' => Sound w') w := by
  by_cases here : ∃ body, req = .createVm body ∧ truthy body.nodeId = false
  · -- No node is named: the VM is made where the request arrives.
    obtain ⟨body, rfl, falsy⟩ := here
    have free : Attachable w nodeId body.dataVolumeId := by
      have target := orElse_of_falsy falsy nodeId
      exact target ▸ allowed
    have endpoint (forward : Forward) : wp (sequential (exec env))
        (Api.endpoint ⟨nodeId, cfg nodeId⟩ forward (.createVm body)) (fun _ w' => Sound w') w := by
      rw [Api.endpoint, Vms.createVm, orElse_of_falsy falsy, wp_ite, if_neg (by simp)]
      exact createLocal_sound _ body nodeId sound free
    cases hops <;> exact endpoint _
  have assumed : Assumed req w := by
    refine ⟨sound, ?_⟩
    rintro body rfl
    have value : truthy body.nodeId = true := by
      by_contra falsy
      exact here ⟨body, rfl, Bool.eq_false_iff.mpr falsy⟩
    have target := orElse_of_truthy value nodeId
    exact ⟨value, target ▸ allowed⟩
  apply Api.serve_rule env cfg Assumed _ _ _ _ _ hops nodeId req w assumed
  · intro req w assumed
    exact ⟨assumed.1.tick, assumed.2⟩
  · intro _ _ _ assumed
    exact assumed.1
  · intro _ _ sound
    exact sound
  · intro nodeId forward req w assumed on
    exact endpoint_sound _ forward req uuids assumed on

theorem action_sound (cfg : Id → NodeConfig) (hops : Nat) (a : Action)
    (uuids : ∀ n, env.uuid n ≠ []) (allowed : attachesFree a w) (sound : Sound w) :
    wp (sequential (exec env)) (a.program cfg hops) (fun _ w' => Sound w') w := by
  apply Action.rule (C := fun p => wp (sequential (exec env)) p (fun _ w' => Sound w') w) cfg hops a
    fun p only => sound_keeps.only only sound
  · intro nodeId
    exact tick_touch _ (by decide)
  · intro row
    exact .insert .nodes row (by decide)
  · intro p
    exact .delete .nodes p (by decide)
  · rintro nodeId req rfl
    exact serve_sound cfg hops nodeId req uuids allowed sound
  · intro nodeId _
    apply sound_keeps.only _ sound
    exact .bind (passOnce_touch _ (by decide) (by decide) (by decide) (by decide)) fun _ => .pure _

end Programs

/-- Where every `POST /vms` names a free volume of its node, each volume belongs to at most one
VM, of its own node, whatever became of the actions. -/
theorem volumes_exclusive (env : Env) (uuids : ∀ n, env.uuid n ≠ []) (cfg : Id → NodeConfig)
    (hops : Nat) (start : World) (sound : Sound start) (w : World)
    (reached : Reached (exec env) (Action.program cfg hops) attachesFree anyEnd start w) :
    Exclusive w := by
  have kept := reached.holds Sound sound fun a _ sound allowed =>
    sequential_mono _ _ _ _ (fun _ _ s _ => s) _ (action_sound cfg hops a uuids allowed sound)
  exact kept.exclusive

/-! ## A volume for two VMs -/

/-- `POST /vms/spawn`, and `POST /vms` with the volume that the spawn made. -/
def sharing : List Action :=
  [.request "n1" (.spawnVm Sample.spawn none),
    .request "n1" (.createVm ⟨"second", "10000003", some "10000006", none⟩)]

theorem sharing_reached : ∃ w, Reached (exec Sample.env) (Action.program Sample.cluster 1) anyAction
    succeeded Sample.fresh w ∧ ∃ vol ∈ (w.db .volumes).rows, ∃ vm ∈ (w.db .vms).rows,
      ∃ vm' ∈ (w.db .vms).rows, vm.dataVolumeId = some vol.id ∧ vm'.dataVolumeId = some vol.id ∧
        vm ≠ vm' :=
  Reached.exists_of_follow sharing _ (by decide +kernel)

/-- Both requests succeed, and the two VMs have one volume. -/
theorem two_vms_share_a_volume :
    ¬ ∀ w, Reached (exec Sample.env) (Action.program Sample.cluster 1) anyAction succeeded
      Sample.fresh w → Exclusive w := by
  intro exclusive
  obtain ⟨w, reached, vol, there, vm, vmThere, vm', vmThere', uses, uses', differ⟩ :=
    sharing_reached
  exact differ ((exclusive w reached).atMostOne vol there vm vmThere vm' vmThere' uses uses')

/-- A spawned VM, and one with a volume made for it. -/
def apart : List Action :=
  [.request "n1" (.spawnVm Sample.spawn none),
    .request "n1" (.createVolume ⟨"data", 512, none, none⟩),
    .request "n1" (.createVm ⟨"second", "10000003", some "10000067", none⟩)]

/-- The volume of the second request. -/
def madeVolume : Id := "10000067"

theorem apart_reached :
    ∃ w, Reached (exec Sample.env) (Action.program Sample.cluster 1) attachesFree
    anyEnd Sample.fresh w ∧ (w.db .vms).rows.length = 2 ∧
      ∃ vm ∈ (w.db .vms).rows, vm.dataVolumeId = some madeVolume :=
  Reached.exists_of_follow apart _ (by decide +kernel)

theorem volumes_exclusive_apart :
    ∃ w, ((w.db .vms).rows.length = 2 ∧ ∃ vm ∈ (w.db .vms).rows,
      vm.dataVolumeId = some madeVolume) ∧ Exclusive w := by
  obtain ⟨w, reached, made⟩ := apart_reached
  exact ⟨w, made, volumes_exclusive Sample.env (fun _ => Nat.toDigits_ne_nil) Sample.cluster 1
    Sample.fresh ⟨⟨fun _ there => absurd there List.not_mem_nil,
      fun _ there => absurd there List.not_mem_nil⟩, fun _ there => absurd there List.not_mem_nil⟩ w
    reached⟩

end DataVolumes

end Nyc
