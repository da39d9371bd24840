import Nyc.Cluster

/-!
# Rows that depend on a VM

Public addresses, domains and proxies name a VM. `DELETE /vms` removes them with the VM, but
looks up one attached address only, and the TTL pass removes the VM's row alone. Where a
deleted VM has no other address, and an expired VM has no dependents at all, every dependent
row names a VM that has a row, in every state of every run.
-/

namespace Nyc

open Data Effects Effects.Program

namespace VmDeps

def HasRow (w : World) (vmId : Id) : Prop := ∃ vm ∈ w.db .vms, vm.id = vmId

/-- Every dependent row names a VM that has a row. -/
structure Linked (w : World) : Prop where
  publicIps : ∀ r ∈ w.db .publicIps, ∃ vmId, r.vmId = some vmId ∧ HasRow w vmId
  domains : ∀ r ∈ w.db .domains, HasRow w r.vmId
  proxies : ∀ r ∈ w.db .proxies, HasRow w r.vmId

/-- No dependent row names the VM. -/
structure Free (w : World) (vmId : Id) : Prop where
  publicIps : ∀ r ∈ w.db .publicIps, r.vmId ≠ some vmId
  domains : ∀ r ∈ w.db .domains, r.vmId ≠ vmId
  proxies : ∀ r ∈ w.db .proxies, r.vmId ≠ vmId

/-- The VM has no public address but the one that the teardown looks up. -/
def OneAddress (w : World) (vmId : Id) : Prop :=
  ∀ r ∈ w.db .publicIps, r.vmId = some vmId → (w.db .publicIps).get (attachedTo vmId) = some r

/-- Every VM that the TTL pass of this moment reaps is free. -/
def ExpiredFree (env : Env) (cfg : Id → NodeConfig) (nodeId : Id) (w : World) : Prop :=
  0 < (cfg nodeId).ttl → ∀ vm ∈ w.db .vms, vm.nodeId = nodeId →
    TtlPass.expired (env.now w.clock - (cfg nodeId).ttl) vm = true → Free w vm.id

/-- The actions whose removals of a VM reach every row that depends on it. -/
def cascades (env : Env) (cfg : Id → NodeConfig) : Action → World → Prop
  | .request _ (.deleteVm vmId), w => OneAddress w vmId
  | .request nodeId .reconcileNow, w => ExpiredFree env cfg nodeId w
  | .reconcile nodeId, w => ExpiredFree env cfg nodeId w
  | _, _ => True

instance (w : World) (vmId : Id) : Decidable (HasRow w vmId) :=
  inferInstanceAs (Decidable (∃ vm ∈ (w.db .vms).rows, vm.id = vmId))

instance (w : World) (vmId : Id) : Decidable (Free w vmId) :=
  decidable_of_iff ((∀ r ∈ (w.db .publicIps).rows, r.vmId ≠ some vmId) ∧
    (∀ r ∈ (w.db .domains).rows, r.vmId ≠ vmId) ∧ ∀ r ∈ (w.db .proxies).rows, r.vmId ≠ vmId)
    ⟨fun f => ⟨f.1, f.2.1, f.2.2⟩, fun f => ⟨f.publicIps, f.domains, f.proxies⟩⟩

instance (w : World) (vmId : Id) : Decidable (OneAddress w vmId) :=
  inferInstanceAs (Decidable (∀ r ∈ (w.db .publicIps).rows, r.vmId = some vmId →
    (w.db .publicIps).get (attachedTo vmId) = some r))

instance (env : Env) (cfg : Id → NodeConfig) (nodeId : Id) (w : World) :
    Decidable (ExpiredFree env cfg nodeId w) :=
  inferInstanceAs (Decidable (0 < (cfg nodeId).ttl → ∀ vm ∈ (w.db .vms).rows, vm.nodeId = nodeId →
    TtlPass.expired (env.now w.clock - (cfg nodeId).ttl) vm = true → Free w vm.id))

instance (env : Env) (cfg : Id → NodeConfig) (a : Action) (w : World) :
    Decidable (cascades env cfg a w) :=
  match a with
  | .request _ (.deleteVm vmId) => inferInstanceAs (Decidable (OneAddress w vmId))
  | .request nodeId .reconcileNow | .reconcile nodeId =>
    inferInstanceAs (Decidable (ExpiredFree env cfg nodeId w))
  | .request _ (.createVpc _) | .request _ (.deleteVpc _) | .request _ (.createVolume _)
  | .request _ (.resizeVolume _ _) | .request _ (.deleteVolume _) | .request _ (.createSnapshot _)
  | .request _ (.deleteSnapshot _) | .request _ (.createImage _) | .request _ (.deleteImage _)
  | .request _ (.createVm _) | .request _ (.spawnVm _ _) | .request _ (.getVm _)
  | .request _ (.stopVm _) | .request _ (.startVm _) | .request _ (.rebootVm _)
  | .request _ (.attachPublicIp _) | .request _ (.detachPublicIp _) | .request _ (.createDomain _)
  | .request _ (.deleteDomain _) | .request _ (.createProxy _) | .request _ (.createTask _ _)
  | .tick _ | .join _ | .leave _ =>
    .isTrue trivial

/-! ## Operations that keep the links -/

/-- `w'` has at least the VMs of `w`, and at most its dependent rows. -/
structure Fewer (w w' : World) : Prop where
  vms : ∀ vm ∈ w.db .vms, HasRow w' vm.id
  publicIps : ∀ r ∈ w'.db .publicIps, r ∈ w.db .publicIps
  domains : ∀ r ∈ w'.db .domains, r ∈ w.db .domains
  proxies : ∀ r ∈ w'.db .proxies, ∃ r' ∈ w.db .proxies, r'.vmId = r.vmId

namespace Fewer

variable {w w' w'' : World}

theorem refl (w : World) : Fewer w w where
  vms := fun vm there => ⟨vm, there, rfl⟩
  publicIps := fun _ there => there
  domains := fun _ there => there
  proxies := fun r there => ⟨r, there, rfl⟩

theorem hasRow (h : Fewer w w') {vmId : Id} (has : HasRow w vmId) : HasRow w' vmId := by
  obtain ⟨vm, there, same⟩ := has
  exact same ▸ h.vms vm there

theorem trans (h : Fewer w w') (h' : Fewer w' w'') : Fewer w w'' where
  vms := fun vm there => h'.hasRow (h.vms vm there)
  publicIps := fun r there => h.publicIps r (h'.publicIps r there)
  domains := fun r there => h.domains r (h'.domains r there)
  proxies := by
    intro r there
    obtain ⟨r', there', same'⟩ := h'.proxies r there
    obtain ⟨r'', there'', same''⟩ := h.proxies r' there'
    exact ⟨r'', there'', same''.trans same'⟩

theorem linked (h : Fewer w w') (l : Linked w) : Linked w' where
  publicIps := by
    intro r there
    obtain ⟨vmId, names, has⟩ := l.publicIps r (h.publicIps r there)
    exact ⟨vmId, names, h.hasRow has⟩
  domains := fun r there => h.hasRow (l.domains r (h.domains r there))
  proxies := by
    intro r there
    obtain ⟨r', there', same⟩ := h.proxies r there
    exact same ▸ h.hasRow (l.proxies r' there')

theorem free (h : Fewer w w') {vmId : Id} (f : Free w vmId) : Free w' vmId where
  publicIps := fun r there => f.publicIps r (h.publicIps r there)
  domains := fun r there => f.domains r (h.domains r there)
  proxies := by
    intro r there
    obtain ⟨r', there', same⟩ := h.proxies r there
    exact same ▸ f.proxies r' there'

end Fewer

/-- The tables that harmless operations insert into. -/
def kept : List Tbl := [.vpcs, .volumes, .snapshots, .vms, .tasks, .nodes]

/-- The tables that harmless operations delete from. -/
def dropped : List Tbl :=
  [.vpcs, .volumes, .snapshots, .tasks, .nodes, .publicIps, .domains, .proxies]

/-- Operations that remove no VM and add no dependent row. -/
def Harmless (o : Op) : Prop := Touch kept dropped o ∨ ∀ t, ¬ o.writes t

/-- A harmless operation keeps the VMs and adds no dependent row. -/
theorem fewer_of_harmless (env : Env) (w : World) (o : Op) (h : Harmless o) :
    Fewer w (exec env o w).2 := by
  rcases h with touch | reads
  · constructor
    · intro vm there
      obtain ⟨_, there', status, rfl⟩ :=
        touch.rows_stay (t := .vms) (by decide) (by decide) vm there
      exact ⟨_, there', rfl⟩
    · intro r there
      obtain ⟨_, there', rfl⟩ := touch.rows_came (t := .publicIps) (by decide) r there
      exact there'
    · intro r there
      obtain ⟨_, there', rfl⟩ := touch.rows_came (t := .domains) (by decide) r there
      exact there'
    · intro r there
      obtain ⟨r', there', status, rfl⟩ := touch.rows_came (t := .proxies) (by decide) r there
      exact ⟨r', there', rfl⟩
  · have same (t : Tbl) : (exec env o w).2.db t = w.db t := exec_frame env w t o (reads t)
    constructor
    · intro vm there
      exact ⟨vm, (same .vms).symm ▸ there, rfl⟩
    · intro r there
      exact same .publicIps ▸ there
    · intro r there
      exact same .domains ▸ there
    · intro r there
      exact ⟨r, same .proxies ▸ there, rfl⟩

/-! ## Programs of harmless operations -/

section Programs

variable {env : Env} {w : World}

theorem harmless_of_touch (ts ds : List Tbl) {α : Type} {p : Py α} (h : Only (Touch ts ds) p)
    (inserts : ∀ t ∈ ts, t ∈ kept) (deletes : ∀ t ∈ ds, t ∈ dropped) : Only Harmless p :=
  h.mono fun _ touch => .inl (touch.mono inserts deletes)

theorem fewer_of_only {α : Type} {p : Py α} (h : Only Harmless p) :
    wp (sequential (exec env)) p (fun _ w' => Fewer w w') w := by
  have keeps : Keeps env Harmless (Fewer w) := fun o w' harmless before =>
    before.trans (fewer_of_harmless env w' o harmless)
  exact keeps.only h (.refl w)

theorem linked_keeps : Keeps env Harmless Linked := by
  intro o w harmless linked
  exact (fewer_of_harmless env w o harmless).linked linked

/-- The links stay, and so does the VM. -/
theorem has_keeps (vmId : Id) : Keeps env Harmless fun w => Linked w ∧ HasRow w vmId := by
  intro o w harmless post
  have fewer := fewer_of_harmless env w o harmless
  exact ⟨fewer.linked post.1, fewer.hasRow post.2⟩

theorem Linked.tick (linked : Linked w) : Linked w.tick :=
  ⟨linked.publicIps, linked.domains, linked.proxies⟩

/-- A dependent row of a VM that has a row. -/
theorem insert_publicIp (row : PublicIpRow) (vmId : Id) (names : row.vmId = some vmId)
    (linked : Linked w) (has : HasRow w vmId) :
    Linked (exec env (.insert .publicIps row) w).2 ∧
      HasRow (exec env (.insert .publicIps row) w).2 vmId := by
  cases inserted : (w.db .publicIps).insert row with
  | none =>
    rw [exec_insert_none env w .publicIps row inserted]
    exact ⟨⟨linked.publicIps, linked.domains, linked.proxies⟩, has⟩
  | some rows =>
    rw [exec_insert_some env w .publicIps row inserted]
    refine ⟨⟨fun r there => ?_, linked.domains, linked.proxies⟩, has⟩
    rw [tick_db, setTable_self] at there
    rcases (Table.mem_insert inserted).mp there with old | rfl
    · exact linked.publicIps r old
    · exact ⟨vmId, names, has⟩

theorem insert_domain (row : DomainRow) (linked : Linked w) (has : HasRow w row.vmId) :
    Linked (exec env (.insert .domains row) w).2 ∧
      HasRow (exec env (.insert .domains row) w).2 row.vmId := by
  cases inserted : (w.db .domains).insert row with
  | none =>
    rw [exec_insert_none env w .domains row inserted]
    exact ⟨⟨linked.publicIps, linked.domains, linked.proxies⟩, has⟩
  | some rows =>
    rw [exec_insert_some env w .domains row inserted]
    refine ⟨⟨linked.publicIps, fun r there => ?_, linked.proxies⟩, has⟩
    rw [tick_db, setTable_self] at there
    rcases (Table.mem_insert inserted).mp there with old | rfl
    · exact linked.domains r old
    · exact has

theorem insert_proxy (row : ProxyRow) (linked : Linked w) (has : HasRow w row.vmId) :
    Linked (exec env (.insert .proxies row) w).2 ∧
      HasRow (exec env (.insert .proxies row) w).2 row.vmId := by
  cases inserted : (w.db .proxies).insert row with
  | none =>
    rw [exec_insert_none env w .proxies row inserted]
    exact ⟨⟨linked.publicIps, linked.domains, linked.proxies⟩, has⟩
  | some rows =>
    rw [exec_insert_some env w .proxies row inserted]
    refine ⟨⟨linked.publicIps, linked.domains, fun r there => ?_⟩, has⟩
    rw [tick_db, setTable_self] at there
    rcases (Table.mem_insert inserted).mp there with old | rfl
    · exact linked.proxies r old
    · exact has

/-! ## The requests that add dependents -/

theorem reads_harmless {o : Op} (reads : ∀ t, ¬ o.writes t) : Harmless o := .inr reads

theorem harmless_of_quiet {α : Type} {p : Py α} (h : Only (Touch [] []) p) : Only Harmless p :=
  harmless_of_touch [] [] h (fun _ there => absurd there List.not_mem_nil)
    fun _ there => absurd there List.not_mem_nil

theorem vmOr404_then {β : Type} {f : VmRow → Py β} {Q : Except Exn β → World → Prop} (vmId : Id)
    (linked : Linked w) (fails : ∀ e w', Linked w' → Q (.error e) w')
    (rest : ∀ vm w', vm.id = vmId → Linked w' → HasRow w' vmId →
      wp (sequential (exec env)) (f vm) Q w') :
    wp (sequential (exec env)) (vmOr404 vmId >>= f) Q w := by
  have after : Linked w.tick := ⟨linked.publicIps, linked.domains, linked.proxies⟩
  rw [wp_bind, vmOr404, wp_bind, get, wp_perform]
  simp only [sequential, exec_get, onValue_ok]
  cases found : (w.db .vms).get fun r => r.id = vmId with
  | none => exact fails _ _ after
  | some vm =>
    obtain ⟨there, named⟩ := Table.get_some found
    have named : vm.id = vmId := of_decide_eq_true named
    exact rest vm w.tick named after ⟨vm, there, named⟩

theorem uuid4_harmless : Only Harmless uuid4 := .uuid4 (reads_harmless fun _ => id)

theorem now_harmless : Only Harmless now := .now (reads_harmless fun _ => id)

theorem usedAddresses_harmless (nodeId : Id) : Only Harmless (PublicIps.usedAddresses nodeId) :=
  .bind (.getAll (reads_harmless fun _ => id)) fun _ => .pure _

/-- An insert, and what follows where it succeeds. -/
theorem insert_linked {β : Type} {t : Tbl} {row : t.Row} {f : Unit → Py β}
    {Q : Except Exn β → World → Prop} (vmId : Id)
    (after : Linked (exec env (.insert t row) w).2 ∧ HasRow (exec env (.insert t row) w).2 vmId)
    (fails : ∀ e w', Linked w' → Q (.error e) w')
    (rest : ∀ w', Linked w' → HasRow w' vmId → wp (sequential (exec env)) (f ()) Q w') :
    wp (sequential (exec env)) (Nyc.insert t row >>= f) Q w :=
  insert_then env w (fun e => fails e _ after.1) fun _ => rest _ after.1 after.2

theorem nodeWithFreeIp_harmless (self : Node) (default : Id) :
    Only Harmless (Proxy.nodeWithFreeIp self default) :=
  .bind (.getAll (reads_harmless fun _ => id)) fun _ => .ite (fun _ => .pure _) fun _ =>
    .bind (.getAll (reads_harmless fun _ => id)) fun _ => .ite (fun _ => .throw _) fun _ => .throw _

theorem attachLocal_linked (self : Node) (vm : VmRow) (linked : Linked w) (has : HasRow w vm.id) :
    wp (sequential (exec env)) (PublicIps.attachLocal self vm self.id)
      (fun _ w' => Linked w') w := by
  refine (has_keeps vm.id).first (usedAddresses_harmless _) ⟨linked, has⟩ (fun _ _ post => post.1)
    fun used w post => ?_
  refine (has_keeps vm.id).first (.fromExcept _) post (fun _ _ post => post.1)
    fun entry w post => ?_
  refine (has_keeps vm.id).first uuid4_harmless post (fun _ _ post => post.1) fun pipId w post => ?_
  refine (has_keeps vm.id).first now_harmless post (fun _ _ post => post.1) fun time w post => ?_
  refine insert_linked vm.id (insert_publicIp _ vm.id rfl post.1 post.2) (fun _ _ l => l)
    fun w linked _ => ?_
  exact linked_keeps.only (harmless_of_quiet (.bind (Vms.recreateVm_touch self _) fun _ =>
    .pure _)) linked

theorem createDomain_linked (self : Node) (body : DomainIn) (linked : Linked w) :
    wp (sequential (exec env)) (Domains.createDomain self body) (fun _ w' => Linked w') w := by
  refine linked_keeps.first (harmless_of_quiet (Domains.resolveFqdn_touch self body)) linked
    (fun _ _ l => l) fun fqdn w linked => ?_
  refine vmOr404_then body.vmId linked (fun _ _ l => l) fun vm w named linked has => ?_
  refine (has_keeps body.vmId).first uuid4_harmless ⟨linked, has⟩ (fun _ _ post => post.1)
    fun domainId w post => ?_
  refine (has_keeps body.vmId).first now_harmless post (fun _ _ post => post.1)
    fun time w post => ?_
  refine insert_linked body.vmId (insert_domain _ post.1 post.2) (fun _ _ l => l)
    fun w linked _ => ?_
  exact linked_keeps.only (harmless_of_touch [.tasks] []
    (.bind (Domains.enqueueReload_touch _ (by decide)) fun _ => .pure _) (by decide)
      (by decide)) linked

theorem insert_vm (env : Env) (w : World) (row : VmRow) (linked : Linked w) :
    Linked (exec env (.insert .vms row) w).2 ∧ ((exec env (.insert .vms row) w).1 = .ok () →
      HasRow (exec env (.insert .vms row) w).2 row.id) := by
  refine ⟨(fewer_of_harmless env w _ (.inl (.insert .vms row (by decide)))).linked linked,
    fun answer => ?_⟩
  cases inserted : (w.db .vms).insert row with
  | none =>
    rw [exec_insert_none env w .vms row inserted] at answer
    cases answer
  | some rows =>
    rw [exec_insert_some env w .vms row inserted]
    exact ⟨row, by rw [tick_db, setTable_self]; exact (Table.mem_insert inserted).mpr (.inr rfl),
      rfl⟩

/-- A VM is spawned with its row first, then the hook, then the bring-up. -/
theorem spawnLocal_linked (self : Node) (body : SpawnIn) (nodeId : Id) (preBringUp : Id → Py Unit)
    (pre : ∀ vmId w, Linked w → HasRow w vmId → wp (sequential (exec env)) (preBringUp vmId)
      (fun _ w' => Linked w' ∧ HasRow w' vmId) w) (linked : Linked w) :
    wp (sequential (exec env)) (Vms.spawnLocal self body nodeId preBringUp)
      (fun r w' => Linked w' ∧ ∀ vm, r = .ok vm → HasRow w' vm.id) w := by
  have fails : ∀ (e : Exn) (w' : World), Linked w' →
      Linked w' ∧ ∀ vm : VmRow, Except.error e = .ok vm → HasRow w' vm.id :=
    fun _ _ l => ⟨l, nofun⟩
  have touch {α : Type} {p : Py α} (h : Only (Touch [.vpcs, .volumes] []) p) : Only Harmless p :=
    harmless_of_touch _ _ h (by decide) (by decide)
  refine linked_keeps.first (touch (ensureDefaultVpc_touch (by decide))) linked fails
    fun vpc w linked => ?_
  refine linked_keeps.first (touch (Vms.resolveRootImage_touch ..)) linked fails
    fun origin w linked => ?_
  refine linked_keeps.first (touch (Vms.autoVolume_touch self _ _ (by decide))) linked fails
    fun vol w linked => ?_
  refine linked_keeps.first (touch (Vms.usedIps_touch _)) linked fails fun used w linked => ?_
  refine linked_keeps.first (touch (.fromExcept _)) linked fails fun ip w linked => ?_
  refine linked_keeps.first uuid4_harmless linked fails fun vmId w linked => ?_
  refine linked_keeps.first now_harmless linked fails fun time w linked => ?_
  -- From here on the VM has a row.
  have inserted := insert_vm env w (Vms.spawnRow body nodeId vpc.id ip vol.id vmId time) linked
  refine insert_then env w (fun e => fails e _ inserted.1) fun answer => ?_
  have has := inserted.2 answer
  refine sequential_bind (exec env) (fun _ w' => Linked w' ∧ HasRow w' vmId) ?_ fun _ w post => ?_
  · refine sequential_mono _ _ _ _ ?_ _ (pre vmId _ inserted.1 has)
    rintro (e | _) w' post
    · exact fails e w' post.1
    · exact post
  refine (has_keeps vmId).first (touch (Vms.bringUp_touch self ..)) post
    (fun e w' post => fails e w' post.1)
    fun _ w post => ?_
  refine ⟨post.1, ?_⟩
  rintro _ ⟨⟩
  exact post.2

theorem record_linked (vpc : VpcRow) (nodeId pipId : Id) (time : Timestamp) (vm : VmRow)
    (pip : PublicIpRow) (linked : Linked w) (has : HasRow w vm.id) :
    wp (sequential (exec env)) (Proxy.record vpc nodeId pipId time vm pip)
      (fun _ w' => Linked w') w := by
  refine (has_keeps vm.id).first uuid4_harmless ⟨linked, has⟩ (fun _ _ post => post.1)
    fun proxyId w post => ?_
  refine insert_linked vm.id (insert_proxy _ post.1 post.2) (fun _ _ l => l) fun w linked _ => ?_
  refine linked_keeps.only (harmless_of_touch [.tasks] [] ?_ (by decide) (by decide)) linked
  apply Only.bind (.uuid4 .uuid4)
  intro id
  apply Only.bind (.uuid4 .uuid4)
  intro id
  apply Only.bind (.insert (.insert .tasks _ (by decide)))
  intro _
  exact .bind (.insert (.insert .tasks _ (by decide))) fun _ => .pure _

theorem createProxyLocal_linked (self : Node) (body : ProxyIn) (vpc : VpcRow) (nodeId : Id)
    (linked : Linked w) :
    wp (sequential (exec env)) (Proxy.createProxyLocal self body vpc nodeId)
      (fun _ w' => Linked w') w := by
  refine linked_keeps.first (usedAddresses_harmless _) linked (fun _ _ l => l)
    fun used w linked => ?_
  refine linked_keeps.first (.fromExcept _) linked (fun _ _ l => l) fun entry w linked => ?_
  refine linked_keeps.first now_harmless linked (fun _ _ l => l) fun time w linked => ?_
  refine linked_keeps.first uuid4_harmless linked (fun _ _ l => l) fun pipId w linked => ?_
  refine sequential_bind (exec env) (fun vm w' => Linked w' ∧ HasRow w' vm.id) ?_
    fun vm w post => record_linked vpc nodeId pipId time vm _ post.1 post.2
  refine sequential_mono _ _ _ _ ?_ w (spawnLocal_linked self _ nodeId _ ?_ linked)
  · rintro (e | vm) w' post
    · exact post.1
    · exact ⟨post.1, post.2 vm rfl⟩
  · intro vmId w linked has
    rw [wp_insert]
    exact insert_publicIp _ vmId rfl linked has

/-! ## The removals of a VM -/

theorem teardown_harmless (vmId : Id) : Only Harmless (teardown vmId) :=
  harmless_of_touch [] [.publicIps, .domains, .proxies]
    (teardown_touch vmId (by decide) (by decide) (by decide)) (by decide) (by decide)

/-- The teardown finds the only address that the VM may have. -/
theorem teardownPublicIp_frees (vmId : Id) (one : OneAddress w vmId) :
    wp (sequential (exec env)) (teardownPublicIp vmId)
      (fun r w' => r = .ok () ∧ ∀ r ∈ w'.db .publicIps, r.vmId ≠ some vmId) w := by
  rw [teardownPublicIp, wp_bind, wp_get, onValue_ok, wp_whenSome]
  cases found : (w.db .publicIps).get (attachedTo vmId) with
  | none =>
    refine ⟨rfl, fun r there names => ?_⟩
    rw [one r there names] at found
    cases found
  | some pip =>
    simp only [wp_bind, wp_delete, onValue_ok, wp_pure, tick_db, setTable_self, Table.mem_delete]
    refine ⟨trivial, fun r there names => ?_⟩
    have same : pip = r := Option.some.inj (found.symm.trans (one r there.1 names))
    exact of_decide_eq_false there.2 (congrArg PublicIpRow.id same.symm)

/-- The rows of the two other tables are removed by the VM's id. -/
theorem teardown_frees (vmId : Id) (one : OneAddress w vmId) :
    wp (sequential (exec env)) (teardown vmId) (fun r w' => r = .ok () ∧ Free w' vmId) w := by
  refine sequential_bind (exec env) (fun _ w' => ∀ r ∈ w'.db .publicIps, r.vmId ≠ some vmId) ?_
    fun _ w publicIps => ?_
  · refine sequential_mono _ _ _ _ ?_ w (teardownPublicIp_frees vmId one)
    rintro _ w' ⟨rfl, free⟩
    exact free
  rw [wp_bind, wp_delete, onValue_ok, wp_bind, wp_get, onValue_ok, wp_whenSome, tick_db,
    setTable_ne w .domains .proxies _ nofun]
  have domains : ∀ r ∈ (w.db .domains).delete fun r => r.vmId = vmId, r.vmId ≠ vmId :=
    fun r there => of_decide_eq_false (Table.mem_delete.mp there).2
  cases found : (w.db .proxies).get fun r => r.vmId = vmId with
  | none =>
    refine ⟨rfl, publicIps, ?_, fun r there => of_decide_eq_false (Table.get_none.mp found r there)⟩
    simpa only [tick_db, setTable_self] using domains
  | some proxy =>
    simp only [wp_bind, wp_delete, onValue_ok, wp_pure]
    refine ⟨trivial, publicIps, ?_, fun r there => ?_⟩
    · intro r there
      rw [tick_db, setTable_ne _ .proxies .domains _ nofun, tick_db, tick_db,
        setTable_self] at there
      exact domains r there
    · rw [tick_db, setTable_self, Table.mem_delete] at there
      exact of_decide_eq_false there.2

/-- A VM that nothing depends on may lose its row. -/
theorem delete_vm (env : Env) (vmId : Id) (linked : Linked w) (free : Free w vmId) :
    Linked (exec env (.delete .vms fun r => r.id = vmId) w).2 := by
  have stays : ∀ other, other ≠ vmId → HasRow w other →
      HasRow (exec env (.delete .vms fun r => r.id = vmId) w).2 other := by
    rintro _ differ ⟨vm, there, rfl⟩
    refine ⟨vm, ?_, rfl⟩
    rw [exec_delete, tick_db, setTable_self, Table.mem_delete]
    exact ⟨there, decide_eq_false differ⟩
  constructor
  · intro r there
    obtain ⟨other, names, has⟩ := linked.publicIps r there
    exact ⟨other, names, stays other (fun same => free.publicIps r there (same ▸ names)) has⟩
  · exact fun r there => stays r.vmId (free.domains r there) (linked.domains r there)
  · exact fun r there => stays r.vmId (free.proxies r there) (linked.proxies r there)

theorem sh_harmless (self : Node) {α : Type} (p : Client.Sh α) : Only Harmless (self.sh p) :=
  harmless_of_quiet (sh_touch self p)

theorem deleteLocal_linked (self : Node) (vmId nodeId : Id) (linked : Linked w)
    (one : OneAddress w vmId) :
    wp (sequential (exec env)) (Vms.deleteLocal self vmId nodeId) (fun _ w' => Linked w') w := by
  refine sequential_bind (exec env) (fun _ w' => Linked w' ∧ Free w' vmId) ?_ fun _ w post => ?_
  · refine sequential_mono _ _ _ _ ?_ w (sequential_and (exec env) (teardown_frees vmId one)
      (linked_keeps.only (teardown_harmless vmId) linked))
    rintro _ w' ⟨⟨rfl, free⟩, linked⟩
    exact ⟨linked, free⟩
  -- The take-down may raise: then the VM keeps its row.
  refine sequential_bind (exec env) (fun _ w' => Linked w' ∧ Free w' vmId) ?_ fun _ w post => ?_
  · refine sequential_mono _ _ _ _ ?_ w (fewer_of_only (sh_harmless self _))
    rintro (e | _) w' fewer
    · exact fewer.linked post.1
    · exact ⟨fewer.linked post.1, fewer.free post.2⟩
  · rw [wp_bind, wp_delete]
    exact delete_vm env vmId post.1 post.2

theorem reapAll_linked (self : Node) (ids : List Id) (linked : Linked w)
    (free : ∀ vmId ∈ ids, Free w vmId) :
    wp (sequential (exec env)) (forEach (TtlPass.reap self) ids) (fun _ w' => Linked w') w := by
  induction ids generalizing w with
  | nil => exact linked
  | cons vmId rest ih =>
    refine sequential_bind (exec env) (fun _ w' => Linked w' ∧ ∀ other ∈ rest, Free w' other) ?_
      fun _ w post => ih post.1 post.2
    refine sequential_bind (exec env) (fun _ w' => Fewer w w') ?_ fun _ w' fewer => ?_
    · refine sequential_mono _ _ _ _ ?_ w (fewer_of_only (sh_harmless self _))
      rintro (e | _) w' fewer
      · exact fewer.linked linked
      · exact fewer
    · rw [wp_bind, wp_delete]
      refine ⟨delete_vm env vmId (fewer.linked linked) (fewer.free (free vmId List.mem_cons_self)),
        ?_⟩
      intro other there
      have before := fewer.free (free other (List.mem_cons_of_mem _ there))
      exact ⟨before.publicIps, before.domains, before.proxies⟩

theorem ttlPass_linked (cfg : Id → NodeConfig) (nodeId : Id) (linked : Linked w)
    (free : ExpiredFree env cfg nodeId w) :
    wp (sequential (exec env)) (TtlPass.reconcile ⟨nodeId, cfg nodeId⟩)
      (fun _ w' => Linked w') w := by
  rw [TtlPass.reconcile, wp_ite]
  split
  · exact linked
  next on =>
    rw [wp_bind, wp_now, onValue_ok, wp_bind, wp_getAll, onValue_ok, wp_bind]
    refine sequential_mono _ _ _ _ ?_ _ (reapAll_linked (w := w.tick.tick) _ _
      ⟨linked.publicIps, linked.domains, linked.proxies⟩ ?_)
    · rintro (e | _) w' l <;> exact l
    · intro vmId there
      obtain ⟨vm, row, rfl⟩ := List.mem_map.mp there
      obtain ⟨row, expired⟩ := List.mem_filter.mp row
      obtain ⟨row, here⟩ := Table.mem_getAll.mp row
      have spared := free (Int.not_le.mp on) vm row (of_decide_eq_true here) expired
      exact ⟨spared.publicIps, spared.domains, spared.proxies⟩

/-- After the TTL pass, a reconcile removes no VM. -/
theorem passOnce_linked (cfg : Id → NodeConfig) (nodeId : Id) (linked : Linked w)
    (free : ExpiredFree env cfg nodeId w) :
    wp (sequential (exec env)) (PassOnce.run ⟨nodeId, cfg nodeId⟩) (fun _ w' => Linked w') w := by
  refine sequential_bind (exec env) (fun _ w' => Linked w') ?_ fun _ w linked => ?_
  · refine sequential_mono _ _ _ _ ?_ w (ttlPass_linked cfg nodeId linked free)
    rintro (e | _) w' l <;> exact l
  · refine linked_keeps.only (harmless_of_touch [] [.publicIps, .domains, .proxies] ?_ (by decide)
      (by decide)) linked
    apply Only.bind (vmsPass_touch _ (by decide) (by decide) (by decide))
    intro _
    apply Only.bind (volumesPass_touch _)
    intro _
    apply Only.bind (snapshotsPass_touch _)
    intro _
    exact .bind (overlayPass_touch _) fun _ => .pure _

/-! ## Requests -/

/-- What an endpoint may assume: the VM that is deleted has one address at most. -/
def Prepared (req : Request) (w : World) : Prop :=
  Linked w ∧ ∀ vmId, req = .deleteVm vmId → OneAddress w vmId

theorem Prepared.handedTo {req : Request} (prepared : Prepared req w) (target : Id) :
    Prepared (Api.handedTo target req) w := by
  refine ⟨prepared.1, fun vmId same => ?_⟩
  cases req with
  | spawnVm body pin => cases same
  | _ => exact prepared.2 vmId same

theorem looks_keep (req : Request) : Keeps env Op.Looks (Prepared req) := by
  intro o w looks prepared
  cases looks <;> exact ⟨prepared.1.tick, prepared.2⟩

/-- The lookups of a proxy make the default VPC. -/
theorem lookUp_harmless (self : Node) (body : ProxyIn) :
    Only Harmless (Api.lookUp self (.createProxy body)) := by
  apply Only.bind (harmless_of_touch [.vpcs] [] (ensureDefaultVpc_touch (by decide))
    (by decide) (by decide))
  intro vpc
  apply Only.bind (.get (reads_harmless fun _ => id))
  intro proxy
  apply Only.bind (harmless_of_quiet (refuseIf_touch ..))
  intro _
  exact .bind (nodeWithFreeIp_harmless self _) fun _ => .pure _

/-- What a node does with a request of its own, but for the reconcile. -/
theorem serveHere_linked (self : Node) (req : Request) (found : Api.Found req)
    (pass : req ≠ .reconcileNow) (prepared : Prepared req w) (known : Api.Known w.db req found) :
    wp (sequential (exec env)) (Api.serveHere self req found) (fun _ w' => Linked w') w := by
  obtain ⟨linked, one⟩ := prepared
  cases req with
  | deleteVm vmId => exact deleteLocal_linked self vmId self.id linked (one vmId rfl)
  | attachPublicIp vmId => exact attachLocal_linked self found linked ⟨found, known.1, rfl⟩
  | createDomain body => exact createDomain_linked self body linked
  | createProxy body => exact createProxyLocal_linked self body found.1 self.id linked
  | reconcileNow => exact absurd rfl pass
  | _ =>
    apply linked_keeps.only _ linked
    apply harmless_of_touch kept dropped _ (fun _ there => there) fun _ there => there
    apply Api.serveHere_touch self _ found
    constructor
    · simp [Request.writes, kept]
    · simp [Request.deletes, dropped]

theorem endpoint_linked (self : Node) (forward : Forward) (req : Request)
    (pass : req ≠ .reconcileNow) (prepared : Prepared req w)
    (on : ∀ target w', Prepared (Api.handedTo target req) w' →
      wp (sequential (exec env)) (forward target (Api.handedTo target req))
        (fun _ w' => Linked w') w') :
    wp (sequential (exec env)) (Api.endpoint self forward req) (fun _ w' => Linked w') w := by
  by_cases proxy : ∃ body, req = .createProxy body
  · obtain ⟨body, rfl⟩ := proxy
    have any {w : World} (linked : Linked w) : Prepared (.createProxy body) w := ⟨linked, nofun⟩
    apply Api.endpoint_sequential linked_keeps (lookUp_harmless self body) prepared.1
    · intro e w' linked
      exact linked
    · intro found w' linked
      exact on _ w' (any linked)
    · intro found w' linked known _
      exact serveHere_linked self _ found pass (any linked) known
  · have looks := Api.lookUp_looks self req fun body same => proxy ⟨body, same⟩
    apply Api.endpoint_sequential (looks_keep req) looks prepared
    · intro e w' prepared
      exact prepared.1
    · intro found w' prepared
      exact on _ w' (prepared.handedTo _)
    · intro found w' prepared known _
      exact serveHere_linked self req found pass prepared known

theorem reconcileNow_linked (cfg : Id → NodeConfig) (hops : Nat) (nodeId : Id) (linked : Linked w)
    (free : ExpiredFree env cfg nodeId w) :
    wp (sequential (exec env)) (Api.serve cfg hops nodeId .reconcileNow)
      (fun _ w' => Linked w') w := by
  have endpoint (forward : Forward) : wp (sequential (exec env))
      (Api.endpoint ⟨nodeId, cfg nodeId⟩ forward .reconcileNow) (fun _ w' => Linked w') w := by
    rw [Api.endpoint, wp_bind]
    refine sequential_mono _ _ _ _ ?_ w (passOnce_linked cfg nodeId linked free)
    rintro (e | _) w' l <;> exact l
  cases hops <;> exact endpoint _

theorem serve_linked (cfg : Id → NodeConfig) (hops : Nat) (nodeId : Id) (req : Request)
    (allowed : cascades env cfg (.request nodeId req) w) (linked : Linked w) :
    wp (sequential (exec env)) (Api.serve cfg hops nodeId req) (fun _ w' => Linked w') w := by
  by_cases pass : req = .reconcileNow
  · subst pass
    exact reconcileNow_linked cfg hops nodeId linked allowed
  have prepared : Prepared req w := by
    refine ⟨linked, ?_⟩
    rintro vmId rfl
    exact allowed
  apply Api.serve_rule env cfg (fun req w => req ≠ .reconcileNow ∧
    Prepared req w) _ _ _ _ _ hops nodeId req w
    ⟨pass, prepared⟩
  · intro req w holds
    exact ⟨holds.1, holds.2.1.tick, holds.2.2⟩
  · intro _ _ _ holds
    exact holds.2.1
  · intro _ _ linked
    exact linked
  · intro nodeId forward req w holds on
    apply endpoint_linked _ forward req holds.1 holds.2
    intro target w' prepared
    refine on target _ w' ⟨fun same => holds.1 ?_, prepared⟩
    cases req with
    | reconcileNow => rfl
    | _ => cases same

/-! ## Runs -/

theorem action_linked (cfg : Id → NodeConfig) (hops : Nat) (a : Action)
    (allowed : cascades env cfg a w) (linked : Linked w) :
    wp (sequential (exec env)) (a.program cfg hops) (fun _ w' => Linked w') w := by
  apply Action.rule (C := fun p => wp (sequential (exec env)) p
    (fun _ w' => Linked w') w) cfg hops a
    fun p only => linked_keeps.only only linked
  · intro nodeId
    exact harmless_of_touch [.tasks] [] (tick_touch _ (by decide)) (by decide) (by decide)
  · intro row
    exact .inl (.insert .nodes row (by decide))
  · intro p
    exact .inl (.delete .nodes p (by decide))
  · rintro nodeId req rfl
    exact serve_linked cfg hops nodeId req allowed linked
  · rintro nodeId rfl
    rw [wp_bind]
    refine sequential_mono _ _ _ _ ?_ w (passOnce_linked cfg nodeId linked allowed)
    rintro (e | _) w' l <;> exact l

end Programs

/-- Where every deleted VM has at most one address and every expired VM has no dependents, each
dependent row names a VM that has a row, whatever became of the actions. -/
theorem dependents_have_their_vm (env : Env) (cfg : Id → NodeConfig) (hops : Nat) (start : World)
    (linked : Linked start) (w : World)
    (reached : Reached (exec env) (Action.program cfg hops) (cascades env cfg) anyEnd start w) :
    Linked w :=
  reached.holds Linked linked fun a _ linked allowed =>
    sequential_mono _ _ _ _ (fun _ _ l _ => l) _ (action_linked cfg hops a allowed linked)

/-! ## A VM that expires with a domain -/

/-- `POST /vms/spawn`, `POST /domains` for the new VM, and a reconcile after its time. -/
def expiry : List Action :=
  [.request "n1" (.spawnVm Sample.spawn none),
    .request "n1" (.createDomain ⟨Sample.v1, 80, none, some "a.example"⟩), .reconcile "n1"]

theorem expiry_reached :
    ∃ w, Reached (exec Sample.env) (Action.program (Sample.mortal 10) 1) anyAction
    succeeded Sample.fresh w ∧ ∃ r ∈ (w.db .domains).rows, ¬ HasRow w r.vmId :=
  Reached.exists_of_follow expiry _ (by decide +kernel)

/-- The TTL pass removes the VM's row and leaves the domain. -/
theorem expired_vm_keeps_domain :
    ¬ ∀ w, Reached (exec Sample.env) (Action.program (Sample.mortal 10) 1) anyAction succeeded
      Sample.fresh w → Linked w := by
  intro linked
  obtain ⟨w, reached, r, there, lost⟩ := expiry_reached
  exact lost ((linked w reached).domains r there)

/-- The first VM keeps its address and its domain; the second one is deleted. -/
def cascade : List Action :=
  [.request "n1" (.spawnVm Sample.spawn none), .request "n1" (.spawnVm Sample.spawn none),
    .request "n1" (.attachPublicIp Sample.v1),
    .request "n1" (.createDomain ⟨Sample.v1, 80, none, some "a.example"⟩),
    .request "n1" (.deleteVm "10000076"), .reconcile "n1"]

theorem cascade_reached : ∃ w, Reached (exec Sample.env) (Action.program (Sample.mortal 1000) 1)
    (cascades Sample.env (Sample.mortal 1000)) anyEnd Sample.fresh w ∧
      (w.db .vms).rows.length = 1 ∧ (w.db .publicIps).rows.length = 1 ∧
      (w.db .domains).rows.length = 1 :=
  Reached.exists_of_follow cascade _ (by decide +kernel)

theorem dependents_after_a_cascade :
    ∃ w, ((w.db .vms).rows.length = 1 ∧ (w.db .publicIps).rows.length = 1 ∧
      (w.db .domains).rows.length = 1) ∧ Linked w := by
  obtain ⟨w, reached, rows⟩ := cascade_reached
  exact ⟨w, rows, dependents_have_their_vm Sample.env (Sample.mortal 1000) 1 Sample.fresh
    ⟨fun _ there => absurd there List.not_mem_nil, fun _ there => absurd there List.not_mem_nil,
      fun _ there => absurd there List.not_mem_nil⟩ w reached⟩

end VmDeps

end Nyc
