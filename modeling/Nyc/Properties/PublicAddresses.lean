import Nyc.Footprint

/-!
# One public address, one VM

An allocation reads the addresses in use and inserts its own later, and no constraint of the
table stops two of them from choosing the same one. Where the address that a request found
free is still free when it inserts, the addresses stay distinct: what a request does not see
in its reading was inserted since, and the history shows by whom.
-/

namespace Nyc

open Data Effects Effects.Program

namespace PublicIps

def DistinctAddresses (w : World) : Prop :=
  ∀ r ∈ w.db .publicIps, ∀ r' ∈ w.db .publicIps, r.status = .attached → r'.status = .attached →
    r.address = r'.address → r = r'

instance (w : World) : Decidable (DistinctAddresses w) :=
  inferInstanceAs (Decidable (∀ r ∈ (w.db .publicIps).rows, ∀ r' ∈ (w.db .publicIps).rows,
    r.status = .attached → r'.status = .attached → r.address = r'.address → r = r'))

def pool (cfg : Id → NodeConfig) (nodeId : Id) : List Str :=
  (cfg nodeId).pubip.ips.map Config.PubIpEntry.address

/-- No address is configured on two nodes. -/
def PoolsDisjoint (cfg : Id → NodeConfig) : Prop :=
  ∀ n n' a, a ∈ pool cfg n → a ∈ pool cfg n' → n = n'

/-- Every row's address is one of its node's pool, and the attached ones differ. -/
structure Allotted (cfg : Id → NodeConfig) (w : World) : Prop where
  fromPool : ∀ r ∈ w.db .publicIps, r.address ∈ pool cfg r.nodeId
  distinct : DistinctAddresses w

/-! ## The history since the last reading -/

def poolRead (i : Nat) : Event Op Op.Res Exn → Bool
  | ⟨j, .getAll .publicIps _, _⟩ => j = i
  | _ => false

/-- What happened since thread `i` last read the addresses. -/
def sinceRead (i : Nat) (s : Run) : List (Event Op Op.Res Exn) :=
  s.trace.takeWhile fun e => !poolRead i e

/-- The address that `acquire` takes from the pool of a node, where `used` are in use. -/
def firstFree (cfg : Id → NodeConfig) (nodeId : Id) (used : List Str) : Option Str :=
  (Client.PubipPool.acquire (cfg nodeId).pubip used).toOption.map Prod.fst

/-- The first address that was free when thread `i` last read them. -/
def foundFree (cfg : Id → NodeConfig) (i : Nat) (nodeId : Id) (s : Run) : Option Str :=
  match s.latest (poolRead i) with
  | some ⟨_, .getAll .publicIps _, .ok rows⟩ => firstFree cfg nodeId (rows.map PublicIpRow.address)
  | _ => none

/-- Another thread inserted the row of this event, it is still there, and has the address. -/
def takes (i : Nat) (address : Option Str) (w : World) : Event Op Op.Res Exn → Bool
  | ⟨j, .insert .publicIps r, _⟩ =>
    j ≠ i && some r.address = address && (w.db .publicIps).rows.contains r
  | _ => false

/-- When a request inserts, no other one took the address that it last found free. -/
def stillFree (cfg : Id → NodeConfig) : Gate Op Op.Res Exn World := fun i o s =>
  match o with
  | .insert .publicIps row =>
    (sinceRead i s).all (fun e => !takes i (foundFree cfg i row.nodeId s) s.world e) = true
  | _ => True

instance (cfg : Id → NodeConfig) (i : Nat) (o : Op) (s : Run) : Decidable (stillFree cfg i o s) :=
  match o with
  | .insert .publicIps row => inferInstanceAs (Decidable ((sinceRead i s).all
      (fun e => !takes i (foundFree cfg i row.nodeId s) s.world e) = true))
  | .insert .vpcs _ | .insert .volumes _ | .insert .vms _ | .insert .snapshots _
  | .insert .domains _ | .insert .proxies _ | .insert .nodes _ | .insert .tasks _ => .isTrue trivial
  | .get _ _ | .getAll _ _ | .update _ _ _ | .delete _ _ | .uuid4 | .now | .choice
  | .host _ _ => .isTrue trivial

/-! ## Rely and guarantee -/

/-- The rows after `s` are those of `s` and those that the new events inserted. -/
def Rely (i : Nat) (s s' : Run) : Prop :=
  ∃ new, s'.trace = new ++ s.trace ∧ (∀ e ∈ new, e.thread ≠ i) ∧
    ∀ r ∈ s'.world.db .publicIps, r ∈ s.world.db .publicIps ∨
      ∃ e ∈ new, e.op = .insert .publicIps r

def Guar (i : Nat) (s s' : Run) : Prop :=
  ∃ e, s'.trace = e :: s.trace ∧ e.thread = i ∧
    ∀ r ∈ s'.world.db .publicIps, r ∈ s.world.db .publicIps ∨ e.op = .insert .publicIps r

theorem Rely.refl (i : Nat) (s : Run) : Rely i s s :=
  ⟨[], rfl, fun _ there => absurd there List.not_mem_nil, fun _ there => .inl there⟩

theorem Rely.trans (i : Nat) (s s' s'' : Run) (h : Rely i s s') (h' : Rely i s' s'') :
    Rely i s s'' := by
  obtain ⟨new, same, others, rows⟩ := h
  obtain ⟨new', same', others', rows'⟩ := h'
  refine ⟨new' ++ new, by rw [same', same, List.append_assoc], ?_, ?_⟩
  · exact fun e there => (List.mem_append.mp there).elim (others' e) (others e)
  · intro r there
    rcases rows' r there with before | ⟨e, made, inserts⟩
    · rcases rows r before with first | ⟨e, made, inserts⟩
      · exact .inl first
      · exact .inr ⟨e, List.mem_append_right _ made, inserts⟩
    · exact .inr ⟨e, List.mem_append_left _ made, inserts⟩

theorem Guar.rely (i j : Nat) (s s' : Run) (differ : i ≠ j) (h : Guar j s s') : Rely i s s' := by
  obtain ⟨e, same, own, rows⟩ := h
  refine ⟨[e], same, fun e' there => ?_, fun r there => ?_⟩
  · rw [List.mem_singleton.mp there, own]
    exact Ne.symm differ
  · exact (rows r there).imp id fun inserts => ⟨e, List.mem_singleton_self e, inserts⟩

/-! ## What a reading knows -/

/-- Thread `i` last read `used` on node `nodeId`: what is in use there and not in `used` was
inserted by another thread since. -/
structure Known (cfg : Id → NodeConfig) (i : Nat) (nodeId : Id) (used : List Str) (s : Run) :
    Prop where
  rows : ∀ r ∈ s.world.db .publicIps, r.nodeId = nodeId → r.address ∈ used ∨
    ∃ e ∈ sinceRead i s, e.thread ≠ i ∧ e.op = .insert .publicIps r
  found : foundFree cfg i nodeId s = firstFree cfg nodeId used

theorem poolRead_thread {i : Nat} {e : Event Op Op.Res Exn} (h : poolRead i e = true) :
    e.thread = i := by
  unfold poolRead at h
  split at h
  · exact of_decide_eq_true h
  · cases h

theorem sinceRead_append {i : Nat} {s s' : Run} {new : List (Event Op Op.Res Exn)}
    (same : s'.trace = new ++ s.trace) (quiet : ∀ e ∈ new, poolRead i e = false) :
    sinceRead i s' = new ++ sinceRead i s := by
  rw [sinceRead, same, List.takeWhile_append_of_pos fun e there => by rw [quiet e there]; rfl]
  rfl

theorem foundFree_append (cfg : Id → NodeConfig) {i : Nat} {nodeId : Id} {s s' : Run}
    {new : List (Event Op Op.Res Exn)} (same : s'.trace = new ++ s.trace)
    (quiet : ∀ e ∈ new, poolRead i e = false) :
    foundFree cfg i nodeId s' = foundFree cfg i nodeId s := by
  have latest : s'.latest (poolRead i) = s.latest (poolRead i) := by
    have none : new.find? (poolRead i) = none := List.find?_eq_none.mpr fun e there found => by
      rw [quiet e there] at found
      cases found
    rw [Shared.latest, same, List.find?_append, none, Option.none_or]
    rfl
  rw [foundFree, foundFree, latest]

/-- What is known stays known when the history grows by no reading of thread `i`, and every
new row is another thread's. -/
theorem Known.grow {cfg : Id → NodeConfig} {i : Nat} {nodeId : Id} {used : List Str} {s s' : Run}
    (new : List (Event Op Op.Res Exn)) (h : Known cfg i nodeId used s)
    (same : s'.trace = new ++ s.trace) (quiet : ∀ e ∈ new, poolRead i e = false)
    (rows : ∀ r ∈ s'.world.db .publicIps, r ∈ s.world.db .publicIps ∨
      ∃ e ∈ new, e.thread ≠ i ∧ e.op = .insert .publicIps r) : Known cfg i nodeId used s' := by
  refine ⟨fun r there here => ?_, (foundFree_append cfg same quiet).trans h.found⟩
  rw [sinceRead_append same quiet]
  rcases rows r there with before | ⟨e, made, other, inserts⟩
  · refine (h.rows r before here).imp id ?_
    rintro ⟨e, made, other, inserts⟩
    exact ⟨e, List.mem_append_right _ made, other, inserts⟩
  · exact .inr ⟨e, List.mem_append_left _ made, other, inserts⟩

theorem Known.stable {cfg : Id → NodeConfig} {i : Nat} {nodeId : Id} {used : List Str} {s s' : Run}
    (h : Known cfg i nodeId used s) (moved : Rely i s s') : Known cfg i nodeId used s' := by
  obtain ⟨new, same, others, rows⟩ := moved
  refine h.grow new same (fun e there => Bool.eq_false_iff.mpr fun read =>
    others e there (poolRead_thread read)) fun r there => (rows r there).imp id ?_
  rintro ⟨e, made, inserts⟩
  exact ⟨e, made, others e made, inserts⟩

/-- What `acquire` takes is in the pool and not in use. -/
theorem firstFree_some {cfg : Id → NodeConfig} {nodeId : Id} {used : List Str} {a : Str}
    (h : firstFree cfg nodeId used = some a) : a ∈ pool cfg nodeId ∧ a ∉ used := by
  unfold firstFree Client.PubipPool.acquire at h
  split at h
  next e found =>
    have unused := List.find?_some found
    simp only [Bool.not_eq_true', List.contains_eq_mem, decide_eq_false_iff_not] at unused
    cases h
    exact ⟨List.mem_map_of_mem (List.mem_of_find?_eq_some found), unused⟩
  next => cases h

/-! ## Single operations -/

section Steps

variable {cfg : Id → NodeConfig} {env : Env} {i : Nat} {s : Run}

/-- Where the rows only lose some, the addresses stay allotted. -/
theorem Allotted.of_fewer {w w' : World} (h : Allotted cfg w)
    (fewer : ∀ r ∈ w'.db .publicIps, r ∈ w.db .publicIps) : Allotted cfg w' where
  fromPool := fun r there => h.fromPool r (fewer r there)
  distinct := fun r there r' there' => h.distinct r (fewer r there) r' (fewer r' there')

/-- An operation that adds no address and changes none. -/
theorem touch_fewer (env : Env) {ts ds : List Tbl} {o : Op} (h : Touch ts ds o)
    (outside : .publicIps ∉ ts)
    (w : World) : ∀ r ∈ (exec env o w).2.db .publicIps, r ∈ w.db .publicIps := by
  by_cases writes : o.writes .publicIps
  · cases h with
    | delete t p known =>
      obtain rfl : t = .publicIps := writes
      intro r there
      rw [exec_delete, tick_db, setTable_self, Table.mem_delete] at there
      exact there.1
    | insert t row known =>
      exact absurd (show t = .publicIps from writes) fun same => outside (same ▸ known)
    | status p st | ready p | size p n | task p f known => exact absurd writes nofun
    | _ => exact absurd writes id
  · rw [exec_frame env w .publicIps o writes]
    exact fun _ there => there

theorem touch_step (env : Env) (i : Nat) {s : Run} {ts ds : List Tbl} {o : Op} (h : Touch ts ds o)
    (outside : .publicIps ∉ ts) (inv : Allotted cfg s.world) :
    Allotted cfg (s.after (exec env) i o).world ∧ Guar i s (s.after (exec env) i o) ∧
      ∀ nodeId used, Known cfg i nodeId used s →
        Known cfg i nodeId used (s.after (exec env) i o) := by
  have fewer := touch_fewer env h outside s.world
  refine ⟨inv.of_fewer fewer, ⟨_, rfl, rfl, fun r there => .inl (fewer r there)⟩, ?_⟩
  intro nodeId used known
  have unread : poolRead i ⟨i, o, (exec env o s.world).1⟩ = false := by
    cases h with
    | getAll t p known' =>
      cases t <;> first | rfl | exact absurd (known' rfl) outside
    | _ => rfl
  refine known.grow [⟨i, o, (exec env o s.world).1⟩] rfl (fun e there => ?_) fun r there =>
    .inl (fewer r there)
  rw [List.mem_singleton.mp there, unread]

/-- The reading of a node's addresses. -/
def readOp (nodeId : Id) : Op := .getAll .publicIps fun r => r.nodeId = nodeId

theorem read_step (env : Env) (i : Nat) {s : Run} (nodeId : Id) (inv : Allotted cfg s.world) :
    Allotted cfg (s.after (exec env) i (readOp nodeId)).world ∧
      Guar i s (s.after (exec env) i (readOp nodeId)) ∧
      Known cfg i nodeId (((s.world.db .publicIps).getAll fun r => r.nodeId = nodeId).map
        PublicIpRow.address) (s.after (exec env) i (readOp nodeId)) := by
  refine ⟨inv.of_fewer fun _ there => there, ⟨_, rfl, rfl, fun r there => .inl there⟩,
    fun r there here => .inl ?_, ?_⟩
  · exact List.mem_map.mpr ⟨r, Table.mem_getAll.mpr ⟨there, decide_eq_true here⟩, rfl⟩
  · have latest : (s.after (exec env) i (readOp nodeId)).latest (poolRead i) =
        some ⟨i, readOp nodeId, (exec env (readOp nodeId) s.world).1⟩ :=
      List.find?_cons_of_pos (decide_eq_true rfl)
    rw [foundFree, latest]
    rfl

theorem takes_of {w : World} {e : Event Op Op.Res Exn} {r : PublicIpRow} (other : e.thread ≠ i)
    (inserts : e.op = .insert .publicIps r) (there : r ∈ w.db .publicIps) :
    takes i (some r.address) w e = true := by
  obtain ⟨j, o, a⟩ := e
  obtain rfl : o = .insert .publicIps r := inserts
  simp only [takes, decide_true, Bool.and_true, Bool.and_eq_true, decide_eq_true_eq]
  exact ⟨other, List.contains_iff_mem.mpr there⟩

/-- A row with the address that was found free would have taken it since. -/
theorem fresh_of_gate (row : PublicIpRow) (used : List Str) (disjoint : PoolsDisjoint cfg)
    (inv : Allotted cfg s.world) (known : Known cfg i row.nodeId used s)
    (chosen : firstFree cfg row.nodeId used = some row.address)
    (gate : stillFree cfg i (.insert .publicIps row) s) :
    ∀ r ∈ s.world.db .publicIps, r.address ≠ row.address := by
  intro r there same
  obtain ⟨inPool, free⟩ := firstFree_some chosen
  have here : r.nodeId = row.nodeId :=
    disjoint _ _ r.address (inv.fromPool r there) (same ▸ inPool)
  rcases known.rows r there here with seen | ⟨e, since, other, inserts⟩
  · exact free (same ▸ seen)
  · have apart := List.all_eq_true.mp gate e since
    rw [known.found, chosen, ← same, takes_of other inserts there] at apart
    cases apart

theorem Allotted.insert {w : World} {rows : Table Tbl.publicIps.unique} {row : PublicIpRow}
    (h : Allotted cfg w) (inserted : (w.db .publicIps).insert row = some rows)
    (inPool : row.address ∈ pool cfg row.nodeId)
    (fresh : ∀ r ∈ w.db .publicIps, r.address ≠ row.address) :
    Allotted cfg (w.setTable .publicIps rows).tick := by
  constructor <;> simp only [DistinctAddresses, tick_db, setTable_self, Table.mem_insert inserted]
  · rintro r (there | rfl)
    · exact h.fromPool r there
    · exact inPool
  · rintro r (there | rfl) r' (there' | rfl) attached attached' same
    · exact h.distinct r there r' there' attached attached' same
    · exact absurd same (fresh r there)
    · exact absurd same.symm (fresh r' there')
    · rfl

theorem insert_step (env : Env) (row : PublicIpRow) (used : List Str) (disjoint : PoolsDisjoint cfg)
    (inv : Allotted cfg s.world) (known : Known cfg i row.nodeId used s)
    (chosen : firstFree cfg row.nodeId used = some row.address)
    (gate : stillFree cfg i (.insert .publicIps row) s) :
    Allotted cfg (s.after (exec env) i (.insert .publicIps row)).world ∧
      Guar i s (s.after (exec env) i (.insert .publicIps row)) := by
  have fresh := fresh_of_gate row used disjoint inv known chosen gate
  cases inserted : (s.world.db .publicIps).insert row with
  | none =>
    have same := exec_insert_none env s.world .publicIps row inserted
    refine ⟨?_, ⟨_, rfl, rfl, fun r there => .inl ?_⟩⟩
    · rw [Shared.after, same]
      exact inv.of_fewer fun _ there => there
    · rwa [Shared.after, same] at there
  | some rows =>
    have same := exec_insert_some env s.world .publicIps row inserted
    refine ⟨?_, ⟨_, rfl, rfl, fun r there => ?_⟩⟩
    · rw [Shared.after, same]
      exact inv.insert inserted (firstFree_some chosen).1 fresh
    · rw [Shared.after, same, tick_db, setTable_self, Table.mem_insert inserted] at there
      exact there.imp id fun (own : r = row) => own ▸ rfl

end Steps

/-! ## The requests -/

section Requests

variable (cfg : Id → NodeConfig) (env : Env) (i : Nat)

/-- Thread `i` among the other requests. -/
abbrev amongRequests : OpSpec Op Op.Res Exn (Run → Prop) :=
  among (exec env) i (fun s => Allotted cfg s.world) (Rely i) (Guar i) (stillFree cfg i)

variable {cfg env i} (ts ds : List Tbl)

theorem known_of_touch {α : Type} {p : Py α} (h : Only (Touch ts ds) p) (outside : .publicIps ∉ ts)
    (nodeId : Id) (used : List Str) (s : Run) (known : Known cfg i nodeId used s) :
    wp (amongRequests cfg env i) p (fun _ s' => Known cfg i nodeId used s') s := by
  refine among_mono p _ _ (fun _ _ post => post.1) s
    (among_of_issues (Known cfg i nodeId used) (fun s s' known moved _ => known.stable moved) ?_ p
      (fun _ => True) h s known)
  intro o s touches known inv _
  have step := touch_step env i touches outside inv
  exact ⟨step.1, step.2.1, step.2.2 nodeId used known, fun _ _ => trivial⟩

theorem done_of_touch {α : Type} {p : Py α} (h : Only (Touch ts ds) p) (outside : .publicIps ∉ ts)
    (s : Run) : wp (amongRequests cfg env i) p (fun _ _ => True) s := by
  refine among_mono p _ _ (fun _ _ _ => trivial) s
    (among_of_issues (fun _ => True) (fun _ _ _ _ _ => trivial) ?_ p (fun _ => True) h s trivial)
  intro o s touches _ inv _
  have step := touch_step env i touches outside inv
  exact ⟨step.1, step.2.1, trivial, fun _ _ => trivial⟩

theorem known_then {α β : Type} {p : Py α} {f : α → Py β} (h : Only (Touch ts ds) p)
    (outside : .publicIps ∉ ts) {nodeId : Id} {used : List Str} {s : Run}
    (known : Known cfg i nodeId used s)
    (rest : ∀ a s', Known cfg i nodeId used s' →
      wp (amongRequests cfg env i) (f a) (fun _ _ => True) s') :
    wp (amongRequests cfg env i) (p >>= f) (fun _ _ => True) s :=
  among_seq (J := fun _ => Known cfg i nodeId used)
    (among_mono p _ _ (fun _ _ post _ _ =>
      post) s (known_of_touch ts ds h outside nodeId used s known)) rest

/-- The reading of the addresses, and the first of the pool that it leaves free. -/
theorem acquire_then {β : Type} (nodeId : Id) {f : Str × Str × Str × Str → Py β} (s : Run)
    (rest : ∀ used entry s', firstFree cfg nodeId used = some entry.1 → Known cfg i nodeId used s' →
      wp (amongRequests cfg env i) (f entry) (fun _ _ => True) s') :
    wp (amongRequests cfg env i) (do
      let used ← usedAddresses nodeId
      let entry ← fromExcept (Client.PubipPool.acquire (cfg nodeId).pubip used)
      f entry) (fun _ _ => True) s := by
  refine among_seq (J := Known cfg i nodeId) ?_ fun used s' known => ?_
  · rw [usedAddresses, wp_bind, getAll, wp_perform]
    intro s' _ inv _
    have step := read_step env i nodeId inv
    refine ⟨step.1, step.2.1, ?_⟩
    rintro a ⟨⟩
    exact step.2.2
  · rw [wp_bind, wp_fromExcept]
    cases chosen : Client.PubipPool.acquire (cfg nodeId).pubip used with
    | ok entry => exact rest used entry s' (by rw [firstFree, chosen]; rfl) known
    | error e => trivial

theorem insert_among (disjoint : PoolsDisjoint cfg) (row : PublicIpRow) (used : List Str) (s : Run)
    (chosen : firstFree cfg row.nodeId used = some row.address)
    (known : Known cfg i row.nodeId used s) :
    wp (amongRequests cfg env i) (Nyc.insert .publicIps row) (fun _ _ => True) s := by
  rw [Nyc.insert, wp_perform]
  intro s' moved inv gate
  have step := insert_step env row used disjoint inv (known.stable moved) chosen gate
  exact ⟨step.1, step.2, trivial⟩

theorem attachLocal_among (disjoint : PoolsDisjoint cfg) (nodeId : Id) (vm : VmRow) (s : Run) :
    wp (amongRequests cfg env i) (attachLocal ⟨nodeId, cfg nodeId⟩ vm nodeId)
      (fun _ _ => True) s := by
  refine acquire_then nodeId s fun used entry s' chosen known => ?_
  refine known_then [] [] (.uuid4 .uuid4) List.not_mem_nil known fun _ _ known =>
    known_then [] [] (.now .now) List.not_mem_nil known fun _ s'' known => ?_
  refine among_then (insert_among disjoint _ used s'' chosen known) fun _ s'' => ?_
  exact done_of_touch [] [] (.bind (Vms.recreateVm_touch _ _) fun _ => .pure _)
    List.not_mem_nil s''

/-- The hook that inserts the address runs after the other rows and before the bring-up. -/
theorem spawnLocal_among (self : Node) (body : SpawnIn) (nodeId : Id) (used : List Str)
    (preBringUp : Id → Py Unit) (s : Run) (known : Known cfg i nodeId used s)
    (pre : ∀ id s', Known cfg i nodeId used s' →
      wp (amongRequests cfg env i) (preBringUp id) (fun _ _ => True) s') :
    wp (amongRequests cfg env i) (Vms.spawnLocal self body nodeId preBringUp)
      (fun _ _ => True) s := by
  let ts : List Tbl := [.vpcs, .volumes, .vms]
  have rows : .publicIps ∉ ts := by decide
  refine known_then ts [] (ensureDefaultVpc_touch (by decide)) rows known fun _ _ known =>
    known_then ts [] (Vms.resolveRootImage_touch ..) rows known fun _ _ known =>
    known_then ts [] (Vms.autoVolume_touch self _ _ (by decide)) rows known fun _ _ known =>
    known_then ts [] (Vms.usedIps_touch _) rows known fun _ _ known =>
    known_then ts [] (.fromExcept _) rows known fun _ _ known =>
    known_then ts [] (.uuid4 .uuid4) rows known fun _ _ known =>
    known_then ts [] (.now .now) rows known fun _ _ known =>
    known_then ts [] (.insert (.insert .vms _ (by decide))) rows known fun _ s' known => ?_
  refine among_then (pre _ s' known) fun _ s'' => ?_
  exact done_of_touch [] [] (.bind (Vms.bringUp_touch self ..) fun _ => .pure _)
    List.not_mem_nil s''

theorem createProxyLocal_among (disjoint : PoolsDisjoint cfg) (nodeId : Id) (body : ProxyIn)
    (vpc : VpcRow) (s : Run) :
    wp (amongRequests cfg env i) (Proxy.createProxyLocal ⟨nodeId, cfg nodeId⟩ body vpc nodeId)
      (fun _ _ => True) s := by
  refine acquire_then nodeId s fun used entry s' chosen known => ?_
  refine known_then [] [] (.now .now) List.not_mem_nil known fun _ _ known =>
    known_then [] [] (.uuid4 .uuid4) List.not_mem_nil known fun _ s'' known => ?_
  refine among_then (spawnLocal_among _ _ nodeId used _ s'' known fun vmId s' known =>
    insert_among disjoint _ used s' chosen known) fun _ s' => ?_
  exact done_of_touch [.proxies, .tasks] []
    (Proxy.record_touch _ _ _ _ _ _ (by decide) (by decide)) (by decide) s'

theorem nodeWithFreeIp_among (self : Node) (default : Id) (s : Run) :
    wp (amongRequests cfg env i) (Proxy.nodeWithFreeIp self default) (fun _ _ => True) s := by
  refine among_then ?_ fun rows s' => ?_
  · rw [getAll, wp_perform]
    intro s' _ inv _
    exact ⟨inv.of_fewer fun _ there => there, ⟨_, rfl, rfl, fun r there => .inl there⟩, trivial⟩
  · exact done_of_touch [] [] (.ite (fun _ => .pure _) fun _ =>
      .bind (.getAll (.getAll .nodes _ fun same => absurd same (by decide))) fun _ =>
        .ite (fun _ => .throw _) fun _ => .throw _) List.not_mem_nil s'

theorem lookUp_among (self : Node) (req : Request) (s : Run) :
    wp (amongRequests cfg env i) (Api.lookUp self req) (fun _ _ => True) s := by
  by_cases allocates : .publicIps ∈ req.writes
  · cases req with
    | attachPublicIp vmId => exact done_of_touch [] [] (vmOr404_touch _) List.not_mem_nil s
    | createProxy body =>
      have vpcs : Only (Touch [.vpcs] []) Defaults.ensureDefaultVpc :=
        ensureDefaultVpc_touch (by decide)
      apply among_then (done_of_touch _ _ vpcs (by decide) s)
      intro vpc s
      apply among_then (done_of_touch [] [] (.get (.get ..)) List.not_mem_nil s)
      intro proxy s
      apply among_then (done_of_touch [] [] (refuseIf_touch ..) List.not_mem_nil s)
      intro _ s
      apply among_then (nodeWithFreeIp_among _ _ s)
      intro target s
      trivial
    | _ => simp [Request.writes] at allocates
  · exact done_of_touch _ [] (Api.lookUp_touch self req fun _ _ there => there) allocates s

/-- The two requests that allocate an address, and those that do not. -/
theorem serveHere_among (disjoint : PoolsDisjoint cfg) (nodeId : Id) (req : Request)
    (found : Api.Found req) (s : Run) :
    wp (amongRequests cfg env i) (Api.serveHere ⟨nodeId, cfg nodeId⟩ req found)
      (fun _ _ => True) s := by
  by_cases allocates : .publicIps ∈ req.writes
  · cases req with
    | attachPublicIp vmId => exact attachLocal_among disjoint nodeId found s
    | createProxy body => exact createProxyLocal_among disjoint nodeId body _ s
    | _ => simp [Request.writes] at allocates
  · exact done_of_touch _ _ (Api.serveHere_touch _ req found .refl) allocates s

theorem composes :
    Api.Composes fun _ p => ∀ s, wp (amongRequests cfg env i) p (fun _ _ => True) s where
  bind p f first rest s := among_then (first s) rest
  throw _ _ _ := trivial
  remote p h s := by
    rw [Api.remote, wp_tryCatch]
    refine among_mono _ _ _ ?_ s (h s)
    rintro (e | a) _ _ <;> trivial

theorem serve_among (disjoint : PoolsDisjoint cfg) (hops : Nat) (nodeId : Id) (req : Request)
    (s : Run) :
    wp (amongRequests cfg env i) (Api.serve cfg hops nodeId req) (fun _ _ => True) s := by
  apply Api.serve_composed composes cfg (fun _ => True) (fun _ _ _ => trivial) _ _ _ hops nodeId req
    trivial
  · intro p s
    exact done_of_touch [] [] (.get (.get ..)) List.not_mem_nil s
  · intro nodeId req _ s
    exact lookUp_among _ req s
  · intro nodeId req found _ s
    exact serveHere_among disjoint nodeId req found s

end Requests

/-- Whenever no other request took the address that one found free before it inserts its row,
the attached addresses differ in every state. -/
theorem attached_addresses_distinct (cfg : Id → NodeConfig) (disjoint : PoolsDisjoint cfg)
    (env : Env) (hops : Nat) (arriving : List (Id × Request)) (w : World)
    (allotted : Allotted cfg w) (c : Config Op Op.Res Exn Response World)
    (reached : Reachable (exec env) (stillFree cfg) (Api.requests cfg hops arriving w) c) :
    DistinctAddresses c.shared.world := by
  have inv := (reached.holds (fun s => Allotted cfg s.world) Rely Guar (fun _ _ _ => True) Rely.refl
    Rely.trans (fun i j s s' differ _ _ guar => Guar.rely i j s s' differ guar) allotted
    (fun i p there => by
      obtain ⟨a, -, rfl⟩ := List.mem_map.mp (List.mem_of_getElem? there)
      exact serve_among disjoint hops a.1 a.2 _)).1
  exact inv.distinct

/-! ## Two requests choose one address -/

/-- `POST /vms/v1/public-ip` and `POST /vms/v2/public-ip`. -/
def twoAttaches : Config Op Op.Res Exn Response World :=
  Api.requests Sample.cluster 1 [("n1", .attachPublicIp "v1"),
    ("n1", .attachPublicIp "v2")] Sample.twoVms

theorem race_reached : ∃ c, Reachable (exec Sample.env) anyStep twoAttaches c ∧
    ¬ DistinctAddresses c.shared.world :=
  Config.exists_of_follow (exec Sample.env) anyStep _ [0, 0, 1, 1, 0, 0, 0, 1, 1, 1] _
    (by decide +kernel)

/-- Both requests read that the first address is free, and both insert it. -/
theorem two_attaches_share_an_address :
    ¬ ∀ c, Reachable (exec Sample.env) anyStep twoAttaches c →
      DistinctAddresses c.shared.world := by
  intro distinct
  obtain ⟨c, reached, shared⟩ := race_reached
  exact shared (distinct c reached)

theorem cluster_disjoint : PoolsDisjoint Sample.cluster := by
  have only : ∀ n a, a ∈ pool Sample.cluster n → n = "n1" := by
    intro n a there
    by_contra other
    rw [pool, Sample.cluster, if_neg other] at there
    exact List.not_mem_nil there
  intro n n' a there there'
  rw [only n a there, only n' a there']

theorem turn_reached : ∃ c, Reachable (exec Sample.env) (stillFree Sample.cluster) twoAttaches c ∧
    (c.shared.world.db .publicIps).rows.length = 2 :=
  Config.exists_of_follow (exec Sample.env) (stillFree Sample.cluster) _
    [0, 0, 1, 0, 0, 0, 1, 1, 1, 1] _ (by decide +kernel)

/-- The second request reads the addresses after the first one's insert. -/
theorem two_attaches_in_turn :
    ∃ c, Reachable (exec Sample.env) (stillFree Sample.cluster) twoAttaches c ∧
      (c.shared.world.db .publicIps).rows.length = 2 ∧ DistinctAddresses c.shared.world := by
  obtain ⟨c, reached, two⟩ := turn_reached
  exact ⟨c, reached, two, attached_addresses_distinct Sample.cluster cluster_disjoint Sample.env 1
    _ Sample.twoVms ⟨fun _ there => absurd there List.not_mem_nil,
      fun _ there => absurd there List.not_mem_nil⟩ c reached⟩

end PublicIps

end Nyc
