import Nyc.Properties.Routes

/-!
# The proxy that a reload reaches

`routers/domains.py` chooses the proxy of a reload by the VPC of the VM; the task runner, when the
task comes up, by the node it runs on, and it takes the domains of the whole cluster.
-/

namespace Nyc

open Data Effects Effects.Program Client

namespace ProxyReload

open Api Routes

/-- The Caddyfile that an operation sends, with the address it goes to. -/
def sends : Op → Option (Str × Str)
  | .host _ (.ssh ip _ (.reload text)) => some (ip, text)
  | _ => none

/-- The proxy of a task. -/
def proxyOf (db : Db) (vmId : Id) : Option ProxyRow := (db .proxies).get fun r => r.vmId = vmId

/-- The proxy that the task runner finds. -/
def proxyOn (db : Db) (nodeId : Id) : Option ProxyRow :=
  (db .proxies).get fun r => r.nodeId = nodeId

def inVpc (db : Db) (vpcId : Id) (d : DomainRow) : Bool :=
  (vmOf db d.vmId).any fun vm => vm.vpcId = vpcId

/-- One route for each domain whose VM is in the VPC. -/
def routesFor (db : Db) (vpcId : Id) : List Caddyfile.Route :=
  routesThrough db ((db .domains).rows.filter (inVpc db vpcId))

/-- The row of a VM that a lookup finds. -/
def looked : Op × World → Option VmRow
  | (.get .vms where_, w) => (w.db .vms).get where_
  | _ => none

/-- The VM that a run sends to: the first whose row it reads. -/
def recipient (issued : List (Op × World)) : Option VmRow := issued.findSome? looked

section

variable (env : Env) (node : Node) (task : TaskRow)

/-- What the run of a task issues. -/
def issued (w : World) : List (Op × World) :=
  trail (exec env) (TaskRunner.runTask node task node.id) w

/-- Every Caddyfile sent goes to the VM of the task, by its row. -/
def Addressed (w : World) : Prop :=
  ∀ a ∈ issued env node task w, ∀ s, sends a.1 = some s →
    ∃ vm, vmOf w.db task.vmId = some vm ∧ recipient (issued env node task w) = some vm ∧ s.1 = vm.ip

/-- The task sends one Caddyfile: to the VM, with the routes of the VPC. -/
structure SendsTo (vm : VmRow) (vpcId : Id) (w : World) : Prop where
  sent : ∃ a ∈ issued env node task w,
    sends a.1 = some (vm.ip, Caddyfile.render (routesFor w.db vpcId))
  alone : ∀ a ∈ issued env node task w, ∀ s, sends a.1 = some s →
    s = (vm.ip, Caddyfile.render (routesFor w.db vpcId))

/-- A Caddyfile is sent to no VM but that of the task, and where that VM is a proxy it gets one,
with the routes of its VPC. -/
structure Delivers (w : World) : Prop where
  addressed : Addressed env node task w
  routes : ∀ vm proxy, vmOf w.db task.vmId = some vm → proxyOf w.db task.vmId = some proxy →
    SendsTo env node task vm proxy.vpcId w

end

/-- The node's first proxy is the VM, unless its VM is gone; and where the VM has a row as a proxy,
it is the node's first and no domain is in another VPC. -/
structure Selected (nodeId vmId : Id) (db : Db) : Prop where
  target : ∀ p, proxyOn db nodeId = some p → (vmOf db p.vmId).isSome = true → p.vmId = vmId
  first : (vmOf db vmId).isSome = true → (proxyOf db vmId).isSome = true →
    ∃ p, proxyOn db nodeId = some p ∧ p.vmId = vmId
  routed : (vmOf db vmId).isSome = true → ∀ proxy, proxyOf db vmId = some proxy →
    ∀ d ∈ (db .domains).rows, ∀ v, vmOf db d.vmId = some v → v.vpcId = proxy.vpcId

/-! ## The text of fewer routes is shorter -/

section Size

/-- The length of the blocks, each with a blank line. -/
def size : List Caddyfile.Route → Nat
  | [] => 0
  | r :: routes => (Caddyfile.block r).length + 2 + size routes

theorem length_blocks (r : Caddyfile.Route) (routes : List Caddyfile.Route) :
    (blocks (r :: routes)).length + 2 = size (r :: routes) := by
  induction routes generalizing r with
  | nil => simp [blocks, size]
  | cons r' routes ih =>
    have rest := ih r'
    rw [blocks_cons, size, ← rest]
    simp only [List.length_append, List.length_cons]
    omega

theorem length_render (routes : List Caddyfile.Route) :
    (Caddyfile.render routes).length = size routes - 1 := by
  cases routes with
  | nil => rfl
  | cons r routes =>
    rw [render_cons, List.length_append, ← length_blocks]
    simp

theorem size_lt_of_sublist {few many : List Caddyfile.Route} (sub : few.Sublist many) :
    size few ≤ size many ∧ (size few = size many → few = many) := by
  induction sub with
  | slnil => exact ⟨Nat.le_refl _, fun _ => rfl⟩
  | cons r _ ih =>
    simp only [size]
    constructor <;> omega
  | cons_cons r _ ih =>
    simp only [size]
    refine ⟨by omega, fun same => ?_⟩
    rw [ih.2 (by omega)]

/-- Leaving routes out changes the text. -/
theorem render_sublist {few many : List Caddyfile.Route} (sub : few.Sublist many) :
    Caddyfile.render few = Caddyfile.render many ↔ few = many := by
  constructor
  · intro same
    have lengths := congrArg List.length same
    rw [length_render, length_render] at lengths
    apply (size_lt_of_sublist sub).2
    cases few with
    | nil =>
      cases many with
      | nil => rfl
      | cons r rest =>
        simp only [size] at lengths
        omega
    | cons r rest =>
      have := (size_lt_of_sublist sub).1
      simp only [size] at lengths this ⊢
      omega
  · exact congrArg _

theorem routesThrough_cons (db : Db) (d : DomainRow) (domains : List DomainRow) :
    routesThrough db (d :: domains) =
      ((vmOf db d.vmId).map fun vm => (d.fqdn, vm.ip, d.port)).toList ++
        routesThrough db domains := by
  rw [routesThrough, List.filterMap_cons]
  cases vmOf db d.vmId <;> rfl

theorem routes_filter (db : Db) (p : DomainRow → Bool) (domains : List DomainRow) :
    routesThrough db (domains.filter p) = routesThrough db domains ↔
      ∀ d ∈ domains, ∀ vm, vmOf db d.vmId = some vm → p d = true := by
  induction domains with
  | nil => exact iff_of_true rfl fun _ there => absurd there List.not_mem_nil
  | cons d domains ih =>
    rw [List.forall_mem_cons, ← ih, routesThrough_cons]
    by_cases kept : p d = true
    · rw [List.filter_cons_of_pos kept, routesThrough_cons, List.append_cancel_left_eq]
      exact (and_iff_right fun _ _ => kept).symm
    · rw [List.filter_cons_of_neg kept]
      cases found : vmOf db d.vmId with
      | none => simp
      | some vm =>
        refine iff_of_false (fun same => ?_) (fun both => kept (both.1 vm rfl))
        -- One route is missing, and none can stand in for it.
        have fewer := (List.filter_sublist (p := p) (l := domains)).filterMap
          fun d => (vmOf db d.vmId).map fun vm => (d.fqdn, vm.ip, d.port)
        have lengths := congrArg List.length same
        simp only [Option.map_some, Option.toList_some, List.length_append,
          List.length_singleton] at lengths
        have := fewer.length_le
        rw [← routesThrough, ← routesThrough] at this
        omega

end Size

/-! ## What a task sends -/

section Runs

variable (env : Env) {w : World}

/-- The Caddyfile that a reload sends, if it gets that far. -/
def caddyfile (db : Db) (nodeId : Id) : Option (Str × Str) := do
  let proxy ← proxyOn db nodeId
  let vm ← vmOf db proxy.vmId
  return (vm.ip, Caddyfile.render (routesIn db))

/-- What a check on the Caddyfiles sent says of an operation. -/
def Checked (P : Str × Str → Prop) (o : Op) (_ : World) : Prop := ∀ s, sends o = some s → P s

theorem checked_quiet (P : Str × Str → Prop) : Quiet (Checked P) := by
  constructor <;> intros <;> rintro s sent <;> cases sent

theorem finish_checked (P : Str × Str → Prop) (taskId : Id) (status : TaskStatus) (result : Str)
    (w : World) :
    wp (checked (exec env) (Checked P)) (TaskRunner.finish taskId status result)
      (fun _ _ => True) w := by
  have silent : ∀ o w, sends o = none → Checked P o w :=
    fun o w none s sent => by cases none.symm.trans sent
  rw [TaskRunner.finish, wp_bind, now, wp_perform]
  refine ⟨silent _ _ rfl, ?_⟩
  rw [exec_now, onValue_ok, wp_bind, update, wp_perform]
  refine ⟨silent _ _ rfl, ?_⟩
  cases (exec env (.update .tasks (fun r => r.id = taskId) _) _).1 <;> trivial

/-- A reload of a proxy sends one script, after lookups. -/
theorem push_runs (self : Node) {proxy : ProxyRow} {vm : VmRow}
    (found : vmOf w.db proxy.vmId = some vm) :
    ∃ w', RunsAs env (TaskRunner.push self proxy) w
      (self.sh (Push.reload vm.ip self.cfg.paths.sshKey (Caddyfile.render (routesIn w.db))) >>=
        fun out => pure (orElse (some out) "ok")) w' := by
  have here : RunsAs env (TaskRunner.push self proxy) w
      (TaskRunner.buildRoutes >>= fun routes =>
        self.sh (Push.reload vm.ip self.cfg.paths.sshKey (Caddyfile.render routes)) >>=
          fun out => pure (orElse (some out) "ok")) w.tick := by
    intro ok quiet Q
    rw [vmOf] at found
    rw [TaskRunner.push, TaskRunner.vmOrFail, wp_bind, wp_bind, wp_quietGet env quiet,
      onValue_ok, found]
    rfl
  have later := buildRoutes_runs env (w := w.tick) fun routes =>
    self.sh (Push.reload vm.ip self.cfg.paths.sshKey (Caddyfile.render routes)) >>=
      fun out => pure (orElse (some out) "ok")
  exact ⟨_, here.trans later⟩

theorem push_lost (self : Node) {proxy : ProxyRow} (missing : vmOf w.db proxy.vmId = none) :
    ∃ e, RunsAs env (TaskRunner.push self proxy) w (throw e) w.tick := by
  refine ⟨.runtime ("vm " ++ proxy.vmId ++ " not found"), fun ok quiet Q => ?_⟩
  rw [vmOf] at missing
  rw [TaskRunner.push, TaskRunner.vmOrFail, wp_bind, wp_bind, wp_quietGet env quiet,
    onValue_ok, missing]
  rfl

theorem reload_checked (P : Str × Str → Prop) (self : Node) (nodeId : Id)
    (Q : Except Exn Str → World → Prop) (always : ∀ r w', Q r w') :
    wp (checked (exec env) (Checked P)) (TaskRunner.reload self nodeId) Q w ↔
      ∀ s, caddyfile w.db nodeId = some s → P s := by
  rw [TaskRunner.reload, wp_bind, wp_quietGet env (checked_quiet P), onValue_ok, caddyfile]
  cases first : (w.db .proxies).get fun r => r.nodeId = nodeId with
  -- the node has no proxy: the task ends without a command
  | none =>
    rw [proxyOn, first]
    exact iff_of_true (always _ _) fun s sent => by cases sent
  | some proxy =>
    rw [proxyOn, first]
    dsimp only [Option.bind_eq_bind, Option.bind_some]
    cases found : vmOf w.db proxy.vmId with
    | none =>
      -- the proxy's VM has no row
      obtain ⟨e, runs⟩ := push_lost env self (w := w.tick) found
      rw [runs _ (checked_quiet P)]
      exact iff_of_true (always _ _) fun s sent => by cases sent
    | some vm =>
      obtain ⟨w', runs⟩ := push_runs env self (w := w.tick) found
      rw [runs _ (checked_quiet P), wp_bind, wp_sh, Push.reload, GuestRun.run, wp_perform]
      -- whatever the guest answers, the one script is the one that was checked
      have ends : ∀ (r : Except Exn Str) w'', onValue (fun b => wp (checked (exec env) (Checked P))
          (pure (orElse (some b) "ok")) Q) Q r w'' := by
        rintro (e | out) w'' <;> exact always _ _
      refine (and_iff_left (ends _ _)).trans ?_
      simp [Checked, sends]

/-- The scripts of a task are those of its reload. -/
theorem runTask_checked (P : Str × Str → Prop) (self : Node) {task : TaskRow}
    (type : task.type = .proxyReload) :
    (∀ a ∈ trail (exec env) (TaskRunner.runTask self task self.id) w, ∀ s,
      sends a.1 = some s → P s) ↔
      ∀ s, caddyfile w.db self.id = some s → P s := by
  have along := wp_checked (exec env) (Checked P) (TaskRunner.runTask self task self.id)
    (fun _ _ => True) w
  rw [and_iff_left trivial] at along
  refine along.symm.trans ?_
  rw [TaskRunner.runTask, TaskRunner.dispatch, type, wp_tryCatch, wp_bind]
  apply reload_checked env P self self.id
  rintro (e | out) w'
  · exact finish_checked env P _ _ _ w'
  · have finished := finish_checked env P task.id .succeeded out w'
    rw [wp_checked] at finished
    refine (wp_checked _ _ _ _ _).mpr ⟨finished.1, ?_⟩
    -- Where the row of the outcome cannot be written, the failure is recorded.
    cases (run (exec env) (TaskRunner.finish task.id .succeeded out) w').1 with
    | error e => exact finish_checked env P _ _ _ _
    | ok _ => trivial

theorem caddyfile_some {db : Db} {nodeId : Id} {s : Str × Str} :
    caddyfile db nodeId = some s ↔ ∃ p v, proxyOn db nodeId = some p ∧ vmOf db p.vmId = some v ∧
      (v.ip, Caddyfile.render (routesIn db)) = s := by
  simp [caddyfile, Option.bind_eq_some_iff]

/-- What a reload sends is the Caddyfile, and it is sent wherever there is one. -/
theorem sent_iff (node : Node) {task : TaskRow} (type : task.type = .proxyReload) {s : Str × Str} :
    (∃ a ∈ issued env node task w, sends a.1 = some s) ↔ caddyfile w.db node.id = some s := by
  constructor
  · rintro ⟨a, there, sent⟩
    by_contra other
    have all := (runTask_checked env (· ≠ s) node type).mpr fun s' sends' same =>
      other (sends'.trans (congrArg some same))
    exact all a there s sent rfl
  · intro one
    by_contra none
    apply (runTask_checked env (· ≠ s) node type).mp _ s one rfl
    rintro a there s' sent rfl
    exact none ⟨a, there, sent⟩

theorem findSome?_prefix {α β : Type} {f : α → Option β} {xs : List α} {b : β}
    (found : xs.findSome? f = some b) (ys : List α) : (xs ++ ys).findSome? f = some b := by
  rw [List.findSome?_append, found, Option.some_or]

/-- A push reads the row of its proxy's VM first. -/
theorem recipient_push (self : Node) {proxy : ProxyRow} {v : VmRow}
    (lives : vmOf w.db proxy.vmId = some v) :
    recipient (trail (exec env) (TaskRunner.push self proxy) w) = some v := by
  rw [TaskRunner.push, trail_bind]
  apply findSome?_prefix
  rw [TaskRunner.vmOrFail, trail_bind]
  apply findSome?_prefix
  rw [get, trail_perform, List.findSome?_singleton]
  exact lives

/-- The first row of a VM that a reload reads is that of the node's first proxy. -/
theorem recipient_issued (node : Node) {task : TaskRow} (type : task.type = .proxyReload)
    {p : ProxyRow}
    {v : VmRow} (first : proxyOn w.db node.id = some p) (lives : vmOf w.db p.vmId = some v) :
    recipient (issued env node task w) = some v := by
  have looksUp : run (exec env) (get .proxies fun r => r.nodeId = node.id) w =
      (.ok (some p), w.tick) := by
    rw [get, run_perform]
    exact Prod.ext (congrArg Except.ok first) rfl
  rw [issued, TaskRunner.runTask, TaskRunner.dispatch, type, trail_tryCatch]
  apply findSome?_prefix
  rw [trail_bind]
  apply findSome?_prefix
  dsimp only
  -- The lookup of the proxy reads no VM.
  rw [TaskRunner.reload, trail_bind_ok looksUp, get, trail_perform]
  exact recipient_push env node lives

theorem addressed_iff (node : Node) {task : TaskRow} (type : task.type = .proxyReload) :
    Addressed env node task w ↔
      ∀ p, proxyOn w.db node.id = some p → (vmOf w.db p.vmId).isSome = true →
        p.vmId = task.vmId := by
  constructor
  · intro addressed p first there
    obtain ⟨v, lives⟩ := Option.isSome_iff_exists.mp there
    obtain ⟨a, member, sent⟩ :=
      (sent_iff env node type).mpr (caddyfile_some.mpr ⟨p, v, first, lives, rfl⟩)
    obtain ⟨vm, named, to_, -⟩ := addressed a member _ sent
    rw [recipient_issued env node type first lives] at to_
    cases to_
    have own : v.id = p.vmId := by simpa using (Table.get_some lives).2
    have asked : v.id = task.vmId := by simpa using (Table.get_some named).2
    exact own.symm.trans asked
  · intro target a member s sent
    obtain ⟨p, v, first, lives, same⟩ :=
      caddyfile_some.mp ((sent_iff env node type).mp ⟨a, member, sent⟩)
    have here : p.vmId = task.vmId := target p first (by rw [lives]; rfl)
    refine ⟨v, here ▸ lives, recipient_issued env node type first lives, ?_⟩
    rw [← same]

/-- A task sends the routes of a VPC to a VM if and only if the node's first proxy has the VM's
address and no domain belongs to another VPC. -/
theorem sends_iff (node : Node) {task : TaskRow} (type : task.type = .proxyReload) (vm : VmRow)
    (vpcId : Id) :
    SendsTo env node task vm vpcId w ↔
      (∃ p v, proxyOn w.db node.id = some p ∧ vmOf w.db p.vmId = some v ∧ v.ip = vm.ip) ∧
        ∀ d ∈ (w.db .domains).rows, ∀ v, vmOf w.db d.vmId = some v → v.vpcId = vpcId := by
  -- the routes of one VPC are part of all routes, so the texts agree when none is left out
  have fewer : (routesFor w.db vpcId).Sublist (routesIn w.db) := List.filter_sublist.filterMap _
  have routed : Caddyfile.render (routesIn w.db) = Caddyfile.render (routesFor w.db vpcId) ↔
      ∀ d ∈ (w.db .domains).rows, ∀ v, vmOf w.db d.vmId = some v → v.vpcId = vpcId := by
    rw [eq_comm, render_sublist fewer, routesFor, routesIn, routes_filter]
    refine forall₂_congr fun d _ => forall₂_congr fun v there => ?_
    simp [inVpc, there]
  constructor
  · intro sends
    obtain ⟨p, v, first, lives, same⟩ := caddyfile_some.mp ((sent_iff env node type).mp sends.sent)
    exact ⟨⟨p, v, first, lives, congrArg Prod.fst same⟩, routed.mp (congrArg Prod.snd same)⟩
  -- a text that is sent is the one the node reads from its tables
  · rintro ⟨⟨p, v, first, lives, address⟩, whole⟩
    have one : caddyfile w.db node.id = some (vm.ip, Caddyfile.render (routesFor w.db vpcId)) :=
      caddyfile_some.mpr ⟨p, v, first, lives, Prod.ext address (routed.mpr whole)⟩
    constructor
    · exact (sent_iff env node type).mpr one
    · intro a member s sent
      have other := (sent_iff env node type).mp ⟨a, member, sent⟩
      exact Option.some.inj (other.symm.trans one)

/-- A reload delivers if and only if the first proxy of its node is the task's VM, and where that VM
is a proxy no domain belongs to another VPC than its own. -/
theorem delivers_iff (node : Node) (task : TaskRow) (w : World) (type : task.type = .proxyReload) :
    Delivers env node task w ↔ Selected node.id task.vmId w.db := by
  constructor
  · intro delivers
    have target := (addressed_iff env node type).mp delivers.addressed
    constructor
    · exact target
    · intro there owned
      obtain ⟨vm, found⟩ := Option.isSome_iff_exists.mp there
      obtain ⟨proxy, named⟩ := Option.isSome_iff_exists.mp owned
      -- the first proxy of the node serves the VM's address, and is the VM by its row
      obtain ⟨⟨p, v, first, lives, -⟩, -⟩ := (sends_iff env node type vm proxy.vpcId).mp
        (delivers.routes vm proxy found named)
      exact ⟨p, first, target p first (by rw [lives]; rfl)⟩
    · intro there proxy named
      obtain ⟨vm, found⟩ := Option.isSome_iff_exists.mp there
      exact ((sends_iff env node type vm proxy.vpcId).mp (delivers.routes vm proxy found named)).2
  · intro selected
    constructor
    · exact (addressed_iff env node type).mpr selected.target
    · intro vm proxy found named
      have there : (vmOf w.db task.vmId).isSome = true := by rw [found]; rfl
      obtain ⟨p, first, same⟩ := selected.first there (by rw [named]; rfl)
      apply (sends_iff env node type vm proxy.vpcId).mpr
      exact ⟨⟨p, vm, first, same ▸ found, rfl⟩, selected.routed there proxy named⟩

end Runs

/-! ## Two VPCs -/

instance (nodeId vmId : Id) (db : Db) : Decidable (Selected nodeId vmId db) :=
  decidable_of_iff
    (((proxyOn db nodeId).all fun p => (vmOf db p.vmId).isNone || p.vmId = vmId) = true ∧
      ((vmOf db vmId).isSome = true → (proxyOf db vmId).all (fun proxy =>
        (proxyOn db nodeId).any (fun p => p.vmId = vmId) &&
          (db .domains).rows.all fun d => (vmOf db d.vmId).all fun v =>
            v.vpcId = proxy.vpcId) = true)) <| by
    simp only [Option.all_eq_true, Option.any_eq_true, Bool.and_eq_true, List.all_eq_true,
      decide_eq_true_eq,
      Bool.or_eq_true, Option.isNone_iff_eq_none]
    constructor
    · rintro ⟨target, own⟩
      constructor
      · intro p here there
        rcases target p here with gone | same
        · rw [gone] at there
          cases there
        · exact same
      · intro there owned
        obtain ⟨proxy, named⟩ := Option.isSome_iff_exists.mp owned
        exact (own there proxy named).1
      · intro there proxy named
        exact (own there proxy named).2
    · rintro ⟨target, first, routed⟩
      constructor
      · intro p here
        by_cases there : (vmOf db p.vmId).isSome = true
        · exact .inr (target p here there)
        · exact .inl (Option.not_isSome_iff_eq_none.mp there)
      · intro there proxy named
        exact ⟨first there (by rw [named]; rfl), routed there proxy named⟩

/-- The requests of a client of `n1`, one after the other, from the start. -/
def after (requests : List Request) : World :=
  requests.foldl (fun w req =>
    (run (exec Sample.env) (serve Sample.cluster 0 "n1" req) w).2) Sample.fresh

/-- The default VPC has a proxy, and another VPC with the same addresses a VM with a name. -/
def tenants : World :=
  after [.createProxy ⟨none, 1, 512⟩, .createVpc ⟨"b", "172.16.0.0/16"⟩,
    .createVm ⟨"web", "10000089", none, none⟩,
    .createDomain ⟨"10000094", 80, none, some "b.example"⟩]

/-- The reload that came with the proxy. -/
def reload : TaskRow := ⟨"10000086", "n1", "10000016", .proxyReload, none, .pending, none, 7, 7⟩

theorem reload_leaks :
    ¬ ∀ (env : Env) (node : Node) (task : TaskRow) (w : World), task ∈ (w.db .tasks).rows →
    task.type = .proxyReload → task.nodeId = node.id → Delivers env node task w := by
  intro delivers
  have there : reload ∈ (tenants.db .tasks).rows := by decide +kernel
  have here : (vmOf tenants.db reload.vmId).isSome = true := by decide +kernel
  have owned : (proxyOf tenants.db reload.vmId).map ProxyRow.vpcId = some "10000001".toList := by
    decide +kernel
  obtain ⟨vm, found⟩ := Option.isSome_iff_exists.mp here
  obtain ⟨proxy, named, vpcId⟩ := Option.map_eq_some_iff.mp owned
  have sent := (delivers Sample.env Sample.n1 reload tenants there rfl rfl).routes vm
    proxy found named
  have routed := ((sends_iff Sample.env Sample.n1 rfl vm proxy.vpcId).mp sent).2
  rw [vpcId] at routed
  revert routed
  decide +kernel

/-- With the names of the proxy's own VPC only, its reload delivers. -/
theorem reload_stays : Delivers Sample.env Sample.n1 reload
    (after [.createProxy ⟨none, 1, 512⟩,
      .createDomain ⟨"10000016", 80, none, some "a.example"⟩]) := by
  apply (delivers_iff Sample.env Sample.n1 reload _ rfl).mpr
  decide +kernel

end ProxyReload

end Nyc
