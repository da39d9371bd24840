import Nyc.Cluster

/-!
# The addresses of VMs

Every VM has a host address of its VPC's network, other than the gateway's, and no two VMs of
a VPC have the same one: `pick_ip` avoids the addresses of all rows of the VPC, and a VPC with
VMs is not deleted.
-/

namespace Nyc

open Data Effects Effects.Program Client

/-! ## Host addresses -/

/-- An address of the network; in a network of more than two, neither the first one nor, for IPv4,
the last one. -/
structure IpAddress.Network.IsHost (n : IpAddress.Network) (host : Nat) : Prop where
  above : n.address ≤ host
  below : host < n.address + 2 ^ (n.version.bits - n.prefixlen)
  notFirst : n.prefixlen + 1 < n.version.bits → host ≠ n.address
  notLast : n.prefixlen + 1 < n.version.bits → n.version = .v4 →
    host + 1 ≠ n.address + 2 ^ (n.version.bits - n.prefixlen)

theorem IpAddress.Network.isHost_of_hosts (n : IpAddress.Network) (host : Nat)
    (above : n.hosts.1 ≤ host) (below : host < n.hosts.1 + n.hosts.2) : n.IsHost host := by
  by_cases small : n.version.bits ≤ n.prefixlen + 1
  · simp only [IpAddress.Network.hosts, if_pos small] at above below
    exact ⟨above, below, fun large => absurd large (by omega), fun large => absurd large (by omega)⟩
  · have two : 2 ^ 2 ≤ 2 ^ (n.version.bits - n.prefixlen) := Nat.pow_le_pow_right
      (by decide) (by omega)
    simp only [IpAddress.Network.hosts, if_neg small] at above below
    -- An IPv4 network keeps its broadcast address back, an IPv6 network does not.
    cases version : n.version with
    | v4 =>
      rw [version] at above below two
      simp only at above below
      constructor
      · omega
      · rw [version]
        omega
      · intro _
        omega
      · intro _ _
        rw [version]
        omega
    | v6 =>
      rw [version] at above below two
      simp only at above below
      constructor
      · omega
      · rw [version]
        omega
      · intro _
        omega
      · intro _ wrong
        rw [version] at wrong
        cases wrong

/-- An address that a VM of the network may have. -/
def Assignable (cidr ip : Str) : Prop :=
  ∃ n gw, Allocate.network cidr = .ok n ∧ Allocate.gateway cidr = .ok gw ∧ ip ≠ gw ∧
    ∃ host, n.IsHost host ∧ ip = n.hostText host

namespace Client.Allocate

theorem firstFree_succ (n : IpAddress.Network) (gw : Str) (used : List Str) (count host : Nat) :
    firstFree n gw used (count + 1) host =
      if n.hostText host ≠ gw ∧ n.hostText host ∉ used then some (n.hostText host)
      else firstFree n gw used count (host + 1) := rfl

theorem firstFree_some {n : IpAddress.Network} {gw : Str} {used : List Str} {count start : Nat}
    {ip : Str} (found : firstFree n gw used count start = some ip) :
    ip ≠ gw ∧ ip ∉ used ∧ ∃ host, start ≤ host ∧ host < start + count ∧ ip = n.hostText host := by
  induction count generalizing start with
  | zero => cases found
  | succ count ih =>
    rw [firstFree_succ] at found
    split at found
    next free =>
      cases found
      exact ⟨free.1, free.2, start, Nat.le_refl _, by omega, rfl⟩
    next taken =>
      obtain ⟨notGw, unused, host, above, below, same⟩ := ih found
      exact ⟨notGw, unused, host, by omega, by omega, same⟩

/-- What `pick_ip` returns can be assigned, and is in no row that it was told of. -/
theorem pickIp_ok {cidr : Str} {used : List Str} {ip : Str} (picked : pickIp cidr used = .ok ip) :
    Assignable cidr ip ∧ ip ∉ used := by
  obtain ⟨n, parsed, rest⟩ := ok_bind picked
  obtain ⟨gw, gateway_, rest⟩ := ok_bind rest
  split at rest
  next ip' found =>
    cases rest
    obtain ⟨notGw, unused, host, above, below, same⟩ := firstFree_some found
    have isHost := n.isHost_of_hosts host above (by omega)
    exact ⟨⟨n, gw, parsed, gateway_, notGw, host, isHost, same⟩, unused⟩
  · cases rest

end Client.Allocate

namespace Addresses

/-- Every VM has an address of its VPC, and no other VM of the VPC has it. -/
structure Assigned (w : World) : Prop where
  distinct : ∀ vm ∈ w.db .vms, ∀ vm' ∈ w.db .vms, vm.vpcId = vm'.vpcId → vm.ip = vm'.ip → vm = vm'
  hosts : ∀ vm ∈ w.db .vms, ∃ vpc ∈ w.db .vpcs, vpc.id = vm.vpcId ∧ Assignable vpc.cidr vm.ip

/-- The address is free in the VPC, and can be assigned there. -/
structure Free (vpcId ip : Str) (w : World) : Prop where
  unused : ∀ vm ∈ w.db .vms, vm.vpcId = vpcId → vm.ip ≠ ip
  host : ∃ vpc ∈ w.db .vpcs, vpc.id = vpcId ∧ Assignable vpc.cidr ip

/-! ## Operations that keep the addresses -/

/-- The tables that harmless operations insert into. -/
def kept : List Tbl := [.vpcs, .volumes, .snapshots, .publicIps, .domains, .tasks, .proxies, .nodes]

/-- The tables that harmless operations delete from. -/
def dropped : List Tbl :=
  [.volumes, .vms, .snapshots, .publicIps, .domains, .tasks, .proxies, .nodes]

abbrev Harmless : Op → Prop := Touch kept dropped

/-- `w'` has all VPCs of `w`, and no VM whose VPC and address `w` has not. -/
structure NoNewAddresses (w w' : World) : Prop where
  vms : ∀ vm' ∈ w'.db .vms, ∃ vm ∈ w.db .vms, vm.id = vm'.id ∧ vm.vpcId = vm'.vpcId ∧ vm.ip = vm'.ip
  vpcs : ∀ vpc ∈ w.db .vpcs, vpc ∈ w'.db .vpcs

namespace NoNewAddresses

variable {w w' : World}

theorem assigned (h : NoNewAddresses w w') (a : Assigned w) : Assigned w' where
  distinct vm₁ there₁ vm₂ there₂ sameVpc sameIp := by
    obtain ⟨v₁, before₁, id₁, vpc₁, ip₁⟩ := h.vms vm₁ there₁
    obtain ⟨v₂, before₂, id₂, vpc₂, ip₂⟩ := h.vms vm₂ there₂
    have same : v₁ = v₂ := a.distinct v₁ before₁ v₂ before₂ (by rw [vpc₁, sameVpc, vpc₂])
      (by rw [ip₁, sameIp, ip₂])
    -- The two rows have one id, which is unique.
    exact Table.eq_of_key _ VmRow.id List.mem_cons_self there₁ there₂ (by rw [← id₁, ← id₂, same])
  hosts vm' there' := by
    obtain ⟨vm, there, -, sameVpc, sameIp⟩ := h.vms vm' there'
    obtain ⟨vpc, known, id, host⟩ := a.hosts vm there
    exact ⟨vpc, h.vpcs vpc known, id.trans sameVpc, sameIp ▸ host⟩

theorem free (h : NoNewAddresses w w') {vpcId ip : Str} (f : Free vpcId ip w) :
    Free vpcId ip w' where
  unused vm' there' inVpc := by
    obtain ⟨vm, there, -, sameVpc, sameIp⟩ := h.vms vm' there'
    exact sameIp ▸ f.unused vm there (sameVpc.trans inVpc)
  host := by
    obtain ⟨vpc, known, id, host⟩ := f.host
    exact ⟨vpc, h.vpcs vpc known, id, host⟩

end NoNewAddresses

/-- A harmless operation keeps the addresses. -/
theorem noNewAddresses_of_harmless (env : Env) (w : World) (o : Op) (h : Harmless o) :
    NoNewAddresses w (exec env o w).2 where
  vms vm' there' := by
    obtain ⟨vm, there, status, rfl⟩ := h.rows_came (t := .vms) (by decide) vm' there'
    exact ⟨vm, there, rfl, rfl, rfl⟩
  vpcs vpc there := by
    obtain ⟨vpc', there', rfl⟩ := h.rows_stay (t := .vpcs) (by decide) (by decide) vpc there
    exact there'

section Programs

variable {env : Env} {w : World}

theorem assigned_keeps : Keeps env Harmless Assigned := by
  intro o w harmless assigned
  exact (noNewAddresses_of_harmless env w o harmless).assigned assigned

/-- Between the picking of an address and the insert. -/
theorem free_keeps (vpcId : Id) (ip : Str) :
    Keeps env Harmless fun w => Assigned w ∧ Free vpcId ip w := by
  intro o w harmless post
  have same := noNewAddresses_of_harmless env w o harmless
  exact ⟨same.assigned post.1, same.free post.2⟩

/-- While a VPC is held. -/
theorem vpc_keeps (vpc : VpcRow) : Keeps env Harmless fun w => Assigned w ∧ vpc ∈ w.db .vpcs := by
  intro o w harmless post
  have same := noNewAddresses_of_harmless env w o harmless
  exact ⟨same.assigned post.1, same.vpcs vpc post.2⟩

theorem Assigned.tick (assigned : Assigned w) : Assigned w.tick :=
  ⟨assigned.distinct, assigned.hosts⟩

/-! ## A VM with a picked address -/

theorem insert_vm (env : Env) (row : VmRow) (assigned : Assigned w)
    (free : Free row.vpcId row.ip w) :
    Assigned (exec env (.insert .vms row) w).2 := by
  cases inserted : (w.db .vms).insert row with
  | none =>
    rw [exec_insert_none env w .vms row inserted]
    exact assigned.tick
  | some rows =>
    rw [exec_insert_some env w .vms row inserted]
    have mem : ∀ vm, vm ∈ (w.setTable .vms rows).tick.db .vms ↔ vm ∈ w.db .vms ∨ vm = row := by
      intro vm
      rw [tick_db, setTable_self, Table.mem_insert inserted]
    have vpcs : (w.setTable .vms rows).tick.db .vpcs = w.db .vpcs :=
      setTable_ne w .vms .vpcs rows (by decide)
    refine ⟨?_, ?_⟩
    · intro vm₁ there₁ vm₂ there₂ sameVpc sameIp
      rcases (mem vm₁).mp there₁ with old₁ | rfl <;> rcases (mem vm₂).mp there₂ with old₂ | rfl
      · exact assigned.distinct vm₁ old₁ vm₂ old₂ sameVpc sameIp
      · exact absurd sameIp (free.unused vm₁ old₁ sameVpc)
      · exact absurd sameIp.symm (free.unused vm₂ old₂ sameVpc.symm)
      · rfl
    · intro vm there
      rw [vpcs]
      rcases (mem vm).mp there with old | rfl
      · exact assigned.hosts vm old
      · exact free.host

/-- An address picked for a VPC that has a row. -/
theorem pick_then {β : Type} {f : Str → Py β} {Q : Except Exn β → World → Prop} {vpc : VpcRow}
    {vpcId : Id} (assigned : Assigned w) (there : vpc ∈ w.db .vpcs) (named : vpc.id = vpcId)
    (fails : ∀ e w', Assigned w' → Q (.error e) w')
    (rest : ∀ ip w', Assigned w' → Free vpcId ip w' → wp (sequential (exec env)) (f ip) Q w') :
    wp (sequential (exec env))
      (Vms.usedIps vpcId >>= fun used => fromExcept (Allocate.pickIp vpc.cidr used) >>= f) Q w := by
  rw [Vms.usedIps, LawfulMonad.bind_assoc, wp_bind, wp_getAll, onValue_ok, pure_bind,
    wp_bind, wp_fromExcept]
  cases picked : Allocate.pickIp vpc.cidr
    (((w.db .vms).getAll fun r => r.vpcId = vpcId).map VmRow.ip) with
  | error e => exact fails e w.tick assigned.tick
  | ok ip =>
    obtain ⟨assignable, unused⟩ := Allocate.pickIp_ok picked
    refine rest ip w.tick assigned.tick ⟨fun vm member inVpc same => ?_, vpc, there,
      named, assignable⟩
    have listed : vm ∈ (w.db .vms).getAll fun r => r.vpcId = vpcId :=
      Table.mem_getAll.mpr ⟨member, decide_eq_true inVpc⟩
    exact unused (List.mem_map.mpr ⟨vm, listed, same⟩)

/-! ## The requests -/

theorem createLocal_assigned (self : Node) (body : VmIn) (nodeId : Id) (assigned : Assigned w) :
    wp (sequential (exec env)) (Vms.createLocal self body nodeId) (fun _ w' => Assigned w') w := by
  rw [Vms.createLocal, Vms.vpcOr404, LawfulMonad.bind_assoc, wp_bind, wp_get, onValue_ok,
    wp_bind, wp_orHttp]
  cases found : (w.db .vpcs).get fun r => r.id = body.vpcId with
  | none => exact assigned.tick
  | some vpc =>
    obtain ⟨there, named⟩ := Table.get_some found
    have vpcs : Keeps env Harmless _ := vpc_keeps vpc
    refine vpcs.first (w := w.tick) (Vms.bodyVolumePath_touch body) ⟨assigned.tick, there⟩
      (fun _ _ post => post.1) fun path w post => ?_
    refine pick_then post.1 post.2 (of_decide_eq_true named) (fun _ _ a => a)
      fun ip w assigned free => ?_
    have frees : Keeps env Harmless _ := free_keeps body.vpcId ip
    refine frees.first (.uuid4 .uuid4) ⟨assigned, free⟩ (fun _ _ post => post.1)
      fun vmId w post => ?_
    refine frees.first (.now .now) post (fun _ _ post => post.1) fun time w post => ?_
    have inserted := insert_vm env (Vms.newRow self body nodeId ip vmId time) post.1 post.2
    refine insert_then env w (fun _ => inserted) fun _ => ?_
    exact assigned_keeps.only (.bind (Vms.bringUp_touch self ..) fun _ => .pure _) inserted

/-- The default VPC, as it is returned, has its row. -/
theorem ensureDefaultVpc_assigned (assigned : Assigned w) :
    wp (sequential (exec env)) Defaults.ensureDefaultVpc
      (fun r w' => Assigned w' ∧ ∀ vpc, r = .ok vpc → vpc ∈ w'.db .vpcs) w := by
  apply Defaults.ensureDefaultVpc_finds env w (fun _ assigned => assigned.tick) _ assigned
  intro row w' k _ assigned
  exact assigned_keeps (.insert .vpcs row) w' (.insert .vpcs row (by decide)) assigned

theorem spawnLocal_assigned (self : Node) (body : SpawnIn) (nodeId : Id) (preBringUp : Id → Py Unit)
    (pre : ∀ vmId, Only Harmless (preBringUp vmId)) (assigned : Assigned w) :
    wp (sequential (exec env)) (Vms.spawnLocal self body nodeId preBringUp)
      (fun _ w' => Assigned w') w := by
  refine sequential_bind (exec env) (fun vpc w => Assigned w ∧ vpc ∈ w.db .vpcs) ?_
    fun vpc w post => ?_
  · refine sequential_mono _ _ _ _ ?_ w (ensureDefaultVpc_assigned assigned)
    rintro (e | vpc) w' post
    · exact post.1
    · exact ⟨post.1, post.2 vpc rfl⟩
  have vpcs : Keeps env Harmless _ := vpc_keeps vpc
  refine vpcs.first (Vms.resolveRootImage_touch ..) post (fun _ _ post => post.1)
    fun origin w post => ?_
  refine vpcs.first (Vms.autoVolume_touch self _ _ (by decide)) post (fun _ _ post => post.1)
    fun vol w post => ?_
  refine pick_then post.1 post.2 rfl (fun _ _ a => a) fun ip w assigned free => ?_
  have frees : Keeps env Harmless _ := free_keeps vpc.id ip
  refine frees.first (.uuid4 .uuid4) ⟨assigned, free⟩ (fun _ _ post => post.1) fun vmId w post => ?_
  refine frees.first (.now .now) post (fun _ _ post => post.1) fun time w post => ?_
  have inserted := insert_vm env (Vms.spawnRow body nodeId vpc.id ip vol.id vmId time) post.1 post.2
  refine insert_then env w (fun _ => inserted) fun _ => ?_
  refine assigned_keeps.only ?_ inserted
  exact .bind (pre _) fun _ => .bind (Vms.bringUp_touch self ..) fun _ => .pure _

/-- A VPC is deleted only when no VM is in it. -/
theorem deleteVpc_assigned (vpcId : Id) (assigned : Assigned w) :
    wp (sequential (exec env)) (Vpcs.deleteVpc vpcId) (fun _ w' => Assigned w') w := by
  rw [Vpcs.deleteVpc, wp_bind, wp_get, onValue_ok, wp_bind, refuseIf, wp_whenTrue]
  cases found : (w.db .vms).get fun r => r.vpcId = vpcId with
  | some vm => exact assigned.tick
  | none =>
    have unused : ∀ vm ∈ w.db .vms, vm.vpcId ≠ vpcId := fun vm there =>
      of_decide_eq_false (Table.get_none.mp found vm there)
    have deleted : Assigned (exec env (.delete .vpcs fun r => r.id = vpcId) w.tick).2 := by
      refine ⟨assigned.distinct, fun vm there => ?_⟩
      obtain ⟨vpc, known, id, host⟩ := assigned.hosts vm there
      refine ⟨vpc, ?_, id, host⟩
      rw [exec_delete, tick_db, setTable_self, Table.mem_delete, decide_eq_false_iff_not]
      exact ⟨known, fun same => unused vm there (id.symm.trans same)⟩
    refine assigned_keeps.only (w := (exec env (.delete .vpcs fun r =>
      r.id = vpcId) w.tick).2) ?_ deleted
    exact .bind (refuseIf_touch ..) fun _ => .pure _

theorem createProxyLocal_assigned (self : Node) (body : ProxyIn) (vpc : VpcRow) (nodeId : Id)
    (assigned : Assigned w) :
    wp (sequential (exec env)) (Proxy.createProxyLocal self body vpc nodeId)
      (fun _ w' => Assigned w') w := by
  refine assigned_keeps.first (PublicIps.usedAddresses_touch _ (by decide)) assigned
    (fun _ _ a => a)
    fun used w assigned => ?_
  refine assigned_keeps.first (.fromExcept _) assigned (fun _ _ a => a) fun entry w assigned => ?_
  refine assigned_keeps.first (.now .now) assigned (fun _ _ a => a) fun time w assigned => ?_
  refine assigned_keeps.first (.uuid4 .uuid4) assigned (fun _ _ a => a) fun pipId w assigned => ?_
  refine sequential_bind (exec env) (fun _ => Assigned) ?_ fun vm w assigned =>
    assigned_keeps.only (Proxy.record_touch _ _ _ _ _ _ (by decide) (by decide)) assigned
  refine sequential_mono _ _ _ _ ?_ w (spawnLocal_assigned self _ nodeId _
    (fun vmId => .insert (.insert .publicIps _ (by decide))) assigned)
  rintro (e | _) w' a <;> exact a

/-- What a node does with a request of its own. -/
theorem serveHere_assigned (self : Node) (req : Request) (found : Api.Found req)
    (assigned : Assigned w) :
    wp (sequential (exec env)) (Api.serveHere self req found) (fun _ w' => Assigned w') w := by
  cases req with
  | deleteVpc vpcId => exact deleteVpc_assigned vpcId assigned
  | createVm body => exact createLocal_assigned self body _ assigned
  | spawnVm body pin =>
    refine sequential_bind (exec env) (fun _ => Assigned) ?_ fun _ w assigned => assigned
    refine sequential_mono _ _ _ _ ?_ w (spawnLocal_assigned self body self.id _
      (fun _ => .pure _) assigned)
    rintro (e | _) w' a <;> exact a
  | createProxy body => exact createProxyLocal_assigned self body found.1 self.id assigned
  | _ =>
    apply assigned_keeps.only _ assigned
    apply Api.serveHere_touch self _ found
    constructor
    · simp [Request.writes, kept]
    · simp [Request.deletes, dropped]

theorem serve_assigned (cfg : Id → NodeConfig) (hops : Nat) (nodeId : Id) (req : Request)
    (assigned : Assigned w) :
    wp (sequential (exec env)) (Api.serve cfg hops nodeId req) (fun _ w' => Assigned w') w := by
  apply Api.serve_rule env cfg (fun _ => Assigned) _ _ _ _ _ hops nodeId req w assigned
  · intro _ w assigned
    exact assigned.tick
  · intro _ _ _ assigned
    exact assigned
  · intro _ _ assigned
    exact assigned
  · intro nodeId forward req w assigned on
    have looks : Only Harmless (Api.lookUp ⟨nodeId, cfg nodeId⟩ req) :=
      Api.lookUp_touch _ req (by simp [kept])
    apply Api.endpoint_sequential assigned_keeps looks assigned
    · intro e w' assigned
      exact assigned
    · intro found w' assigned
      exact on _ _ w' assigned
    · intro found w' assigned _ _
      exact serveHere_assigned _ req found assigned

theorem action_assigned (cfg : Id → NodeConfig) (hops : Nat) (a : Action) (assigned : Assigned w) :
    wp (sequential (exec env)) (a.program cfg hops) (fun _ w' => Assigned w') w := by
  apply Action.rule (C := fun p => wp (sequential (exec env)) p
    (fun _ w' => Assigned w') w) cfg hops a
    fun p only => assigned_keeps.only only assigned
  · intro nodeId
    exact tick_touch _ (by decide)
  · intro row
    exact .insert .nodes row (by decide)
  · intro p
    exact .delete .nodes p (by decide)
  · intro nodeId req _
    exact serve_assigned cfg hops nodeId req assigned
  · intro nodeId _
    apply assigned_keeps.only _ assigned
    exact .bind (passOnce_touch _ (by decide) (by decide) (by decide) (by decide)) fun _ => .pure _

end Programs

/-- In every run of any actions on any nodes, whatever became of them, each VM has a host address of
its VPC's network, not the gateway's, and no other VM of the VPC has it. -/
theorem addresses_assigned (env : Env) (cfg : Id → NodeConfig) (hops : Nat) (start : World)
    (assigned : Assigned start) (w : World)
    (reached : Reached (exec env) (Action.program cfg hops) anyAction anyEnd start w) :
    Assigned w :=
  reached.holds Assigned assigned fun a _ assigned _ =>
    sequential_mono _ _ _ _ (fun _ _ s _ => s) _ (action_assigned cfg hops a assigned)

/-- Two VMs of the default VPC, and one in a network of two addresses. -/
def three : List Action :=
  [.request "n1" (.spawnVm Sample.spawn none), .request "n1" (.spawnVm Sample.spawn none),
    .request "n1" (.createVpc ⟨"pair", "10.0.0.0/31"⟩),
    .request "n1" (.createVm ⟨"third", "10000120", none, none⟩)]

/-- The addresses after `three`. -/
def threeIps : List Str := ["172.16.0.2", "172.16.0.3", "10.0.0.1"]

theorem three_reached :
    ∃ w, Reached (exec Sample.env) (Action.program Sample.cluster 1) anyAction anyEnd
    Sample.fresh w ∧ (w.db .vms).rows.map VmRow.ip = threeIps :=
  Reached.exists_of_follow three _ (by decide +kernel)

theorem addresses_of_three : ∃ w, (w.db .vms).rows.map VmRow.ip = threeIps ∧ Assigned w := by
  obtain ⟨w, reached, made⟩ := three_reached
  exact ⟨w, made, addresses_assigned Sample.env Sample.cluster 1 Sample.fresh
    ⟨fun _ there => absurd there List.not_mem_nil,
      fun _ there => absurd there List.not_mem_nil⟩ w reached⟩

end Addresses

end Nyc
