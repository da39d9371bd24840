import Nyc.Properties.Underlay

/-!
# Neighbours connected

A bring-up that returns leaves a way for frames from the VM's `eth0` to the bridge of its VPC, and
no job of another VM takes it away. Once all bring-ups have returned, VMs of one VPC are connected,
and with `Isolation` they are connected to no others.
-/

namespace Nyc.Connectivity

open Data Client Isolation
open Convergence (hostOf peersOf)
open Underlay (Registry OnOverlay)
open Effects Effects.Program

/-! ## What jobs leave to others -/

/-- The VM that the job is about. -/
def vmOf : Job → Option Id
  | .up _ spec | .rebuild _ spec => some spec.vmId
  | .down _ v => some v
  | .overlay _ => none

/-- The links that a job about the VM may take away. -/
def Mine (v : Option Id) (k : LinkKey) : Prop := ∃ w, v = some w ∧ Own w k

/-- The links that jobs about other VMs may take away. -/
def Foreign (plan : Plan) (v : Option Id) (k : LinkKey) : Prop :=
  ∃ w, plan.vms w ∧ some w ≠ v ∧ Own w k

/-- A VXLAN device and the bridge it is to be joined to. -/
def Joins (node : Id) (k : LinkKey) (m : Option Str) : Prop :=
  ∃ u, k = (none, Vxlan.nameFor node u) ∧ m = some (Bridge.nameFor node u)

/-- A port is what it was, but that a VXLAN device may have been joined to its bridge. -/
def Keeps (node : Id) (taken : LinkKey → Prop) (n n' : Net) : Prop :=
  ∀ k kind m, ¬ taken k → n.portAt k = some (kind, m) →
    ∃ m', n'.portAt k = some (kind, m') ∧ (m' = m ∨ Joins node k m')

namespace Keeps

variable {node : Id} {taken taken' : LinkKey → Prop} {n n' n'' : Net}

theorem refl : Keeps node taken n n := fun _ _ m _ there => ⟨m, there, .inl rfl⟩

theorem trans (first : Keeps node taken n n')
    (second : Keeps node taken n' n'') : Keeps node taken n n'' := by
  intro k kind m other there
  obtain ⟨m', there', same⟩ := first k kind m other there
  obtain ⟨m'', there'', same'⟩ := second k kind m' other there'
  refine ⟨m'', there'', ?_⟩
  rcases same' with rfl | joins
  · exact same
  · exact .inr joins

theorem fewer (keeps : Keeps node taken n n') (less : ∀ k, taken k → taken' k) :
    Keeps node taken' n n' :=
  fun k kind m other there => keeps k kind m (fun h => other (less k h)) there

end Keeps

theorem bridge_of_vxlan {node u u' : Id} (same : Vxlan.nameFor node u = Vxlan.nameFor node u') :
    Bridge.nameFor node u = Bridge.nameFor node u' := by
  have cut : u.take 4 = u'.take 4 := List.append_cancel_left same
  simp only [Bridge.nameFor, cut]

/-! ## Links that are no VM's own -/

theorem bridge_not_own (v node u : Id) : ¬ Own v (none, Bridge.nameFor node u) :=
  device_not_own rfl

theorem vxlan_not_own (v node u : Id) : ¬ Own v (none, Vxlan.nameFor node u) :=
  device_not_own rfl

/-! ## Tunnels -/

/-- The VXLAN device of the VPC, as a bring-up makes it. -/
def tunnel (node u : Id) (ip : Str) : NetCmd :=
  .add (none, Vxlan.nameFor node u) (.vxlan (Overlay.vniFor u) ip)

/-- A bring-up has made the VXLAN device. -/
def Makes (node u : Id) (e : Event Op Op.Res Exn) : Prop :=
  (∃ ip, e.op = .host node (.net (tunnel node u ip))) ∧ ∃ a, e.answer = .ok a

/-- A VXLAN device has the number of its VPC, and some bring-up has made it. -/
def Tunnels (plan : Plan) (s : Run) : Prop :=
  ∀ node u, plan.vpcs u → ∀ kind m, (s.world.hosts node).net.portAt
    (none, Vxlan.nameFor node u) = some
    (kind, m) →
    (∃ ip, kind = .vxlan (Overlay.vniFor u) ip) ∧ ∃ e ∈ s.trace, Makes node u e

/-- The VXLAN device is joined to the bridge of its VPC. -/
def Joined (node u : Id) (n : Net) : Prop :=
  ∃ kind, n.portAt (none, Vxlan.nameFor node u) = some (kind, some (Bridge.nameFor node u))

/-- The VXLAN devices that the thread has made are joined, but for those it is at. -/
def Settled (i : Nat) (at_ : Id → Id → Prop) (s : Run) : Prop :=
  ∀ e ∈ s.trace, e.thread = i → ∀ node u, Makes node u e → at_ node u ∨
    Joined node u (s.world.hosts node).net

theorem Joined.stays {node u : Id} {taken : LinkKey → Prop} {n n' : Net} (joined : Joined node u n)
    (keeps : Keeps node taken n n') (free : ¬ taken (none, Vxlan.nameFor node u)) :
    Joined node u n' := by
  obtain ⟨kind, there⟩ := joined
  obtain ⟨m, there', same⟩ := keeps _ kind _ free there
  refine ⟨kind, there'.trans (congrArg (fun m => some (kind, m)) ?_)⟩
  rcases same with rfl | ⟨u', named, rfl⟩
  · rfl
  · rw [bridge_of_vxlan (Prod.mk.inj named).2]

/-! ## The commands -/

/-- Whatever the command does to a network whose VPCs are apart, it takes no link but the VM's own,
and makes no tunnel. -/
structure Careful (plan : Plan) (node : Id) (v : Option Id) (c : NetCmd) : Prop where
  keeps : ∀ n a n', Segregated plan node n → c.step n = some (a, n') → Keeps node (Mine v) n n'
  tunnels : ∀ n a n', c.step n = some (a, n') → ∀ u kind m,
    n'.portAt (none, Vxlan.nameFor node u) = some (kind, m) →
      ∃ old, n.portAt (none, Vxlan.nameFor node u) = some (kind, old)
  other : ∀ u ip, c ≠ tunnel node u ip

section

variable {plan : Plan} {node : Id}

theorem keeps_step {taken : LinkKey → Prop} {n n' : Net} {c : NetCmd} {a : c.Res}
    (step : c.step n = some (a, n'))
    (moves : ∀ k, c.Moves k → taken k ∨ ∃ u, c = .setMaster (none, Vxlan.nameFor node u)
      (Bridge.nameFor node u)) :
    Keeps node taken n n' := by
  intro k kind m other there
  by_cases moved : c.Moves k
  · rcases moves k moved with own | ⟨u, rfl⟩
    · exact absurd own other
    · obtain ⟨⟨kind', old, found, ports⟩, -⟩ := setMaster_port step
      change k = (none, Vxlan.nameFor node u) at moved
      subst moved
      rw [there] at found
      cases found
      exact ⟨_, by rw [ports, if_pos rfl], .inr ⟨u, rfl, rfl⟩⟩
  · exact ⟨m, port_stays step there moved, .inl rfl⟩

theorem tunnels_step {n n' : Net} {c : NetCmd} {a : c.Res} (step : c.step n = some (a, n'))
    (adds : ∀ u kind, c ≠ .add (none, Vxlan.nameFor node u) kind)
    (pairs : ∀ u name peer, c = .addVeth name peer → Vxlan.nameFor node u ≠ name ∧
      Vxlan.nameFor node u ≠
      peer)
    (u : Id) (kind : Kind) (m : Option Str) (now :
      n'.portAt (none, Vxlan.nameFor node u) = some (kind, m)) :
    ∃ old, n.portAt (none, Vxlan.nameFor node u) = some (kind, old) := by
  rcases port_was step now with old | made | ⟨name, peer, rfl, one⟩ | ⟨name, ns, -, same⟩
  · exact old
  · exact absurd made (adds u kind)
  · obtain ⟨first, second⟩ := pairs u name peer rfl
    rcases one with same | same
    · exact absurd (Prod.mk.inj same).2 first
    · exact absurd (Prod.mk.inj same).2 second
  · cases (Prod.mk.inj same).1

/-- A command that makes, moves and removes no link. -/
theorem careful_plain {v : Option Id} {c : NetCmd} (plain : c.Plain) : Careful plan node v c := by
  constructor
  · intro n a n' _ step k kind m _ there
    rw [← (plain_step plain step).ports] at there
    exact ⟨m, there, .inl rfl⟩
  · intro n a n' step u kind m now
    rw [(plain_step plain step).ports] at now
    exact ⟨m, now⟩
  · rintro u ip rfl
    cases plain

/-- What a take-down does. -/
theorem careful_down {v vg : Id} {c : NetCmd} (issues : VmDown.Issues v vg (.net c)) :
    Careful plan node (some v) c := by
  constructor
  · intro n a n' seg step k kind m other there
    obtain ⟨links, -⟩ := down_net issues seg step
    have same : n'.portAt k = n.portAt k :=
      congrArg (Option.map _) (links k fun own => other ⟨v, rfl, own⟩)
    exact ⟨m, same.trans there, .inl rfl⟩
  · intro n a n' step
    apply tunnels_step step
    · rintro u kind rfl
      cases issues
    · rintro u name peer rfl
      cases issues
  · rintro u ip rfl
    cases issues

variable {spec : VmSpec}

/-- The links that a bring-up moves are the VM's own, and the VXLAN device that it joins. -/
theorem wires_moves {c : NetCmd} (wires : VmUp.Wires spec c) (k : LinkKey) (moves : c.Moves k) :
    Own spec.vmId k ∨ ∃ u, c = .setMaster (none, Vxlan.nameFor spec.nodeId u)
      (Bridge.nameFor spec.nodeId u) := by
  cases wires with
  | joinVxlan => exact .inr ⟨_, rfl⟩
  | place =>
    subst moves
    exact .inl (.inr ⟨.vpc, .inr rfl⟩)
  | join =>
    subst moves
    exact .inl (.inr ⟨.vpc, .inl rfl⟩)
  | publicPlace =>
    subst moves
    exact .inl (.inr ⟨.public_, .inr rfl⟩)
  | publicJoin =>
    subst moves
    exact .inl (.inr ⟨.public_, .inl rfl⟩)
  | attachVeth | attachTap | attachPublicVeth | attachPublicTap =>
    subst moves
    exact .inl (.inl rfl)
  | _ => cases moves

theorem wires_keeps {c : NetCmd} (wires : VmUp.Wires spec c) {n n' : Net} {a : c.Res}
    (step : c.step n = some (a, n')) : Keeps spec.nodeId (Mine (some spec.vmId)) n n' := by
  apply keeps_step step
  intro k moves
  rcases wires_moves wires k moves with own | joins
  · exact .inl ⟨_, rfl, own⟩
  · exact .inr joins

/-- The one link that a bring-up makes under the name of a VXLAN device. -/
theorem wires_adds {c : NetCmd} (wires : VmUp.Wires spec c) {u : Id} {kind : Kind}
    (same : c = .add (none, Vxlan.nameFor spec.nodeId u) kind) : c = tunnel spec.nodeId spec.vpcId
      spec.nodeHost := by
  subst same
  generalize key : ((none, Vxlan.nameFor spec.nodeId u) : LinkKey) = k at wires
  cases wires with
  | bridge =>
    have head := congrArg List.head? (Prod.mk.inj key).2
    cases head
  | vxlan => rfl
  | inner => cases (Prod.mk.inj key).1

theorem third_of_pair {c : NetCmd} (wires : VmUp.Wires spec c) {name peer : Str}
    (same : c = .addVeth name peer) :
    name[2]? = some 'h' ∧ peer[2]? = some 'n' := by
  subst same
  cases wires <;> exact ⟨rfl, rfl⟩

/-- What a bring-up does, but for the VXLAN device that it makes. -/
theorem careful_wires {c : NetCmd} (wires : VmUp.Wires spec c)
    (other : c ≠ tunnel spec.nodeId spec.vpcId spec.nodeHost) : Careful plan spec.nodeId
      (some spec.vmId) c := by
  constructor
  · exact fun _ _ _ _ step => wires_keeps wires step
  · intro n a n' step
    apply tunnels_step step
    · exact fun u kind same => other (wires_adds wires same)
    · intro u name peer same
      have third : (Vxlan.nameFor spec.nodeId u)[2]? = some '-' := rfl
      obtain ⟨first, second⟩ := third_of_pair wires same
      constructor
      · rintro rfl
        rw [third] at first
        exact absurd first (by decide)
      · rintro rfl
        rw [third] at second
        exact absurd second (by decide)
  · exact fun u ip same => other (wires_adds wires same)

end

/-! ## A job among others -/

/-- What the others may have done since. -/
structure Relies (plan : Plan) (i : Nat) (v : Option Id) (s s' : Run) : Prop where
  others : Shared.Others i s s'
  keeps : ∀ n, Keeps n (Foreign plan v) (s.world.hosts n).net (s'.world.hosts n).net

/-- What an operation of the job does to the others. -/
structure Spares (i : Nat) (v : Option Id) (s s' : Run) : Prop where
  others : ∀ j, j ≠ i → Shared.Others j s s'
  keeps : ∀ n, Keeps n (Mine v) (s.world.hosts n).net (s'.world.hosts n).net

theorem Relies.refl {plan : Plan} {i : Nat} {v : Option Id} (s : Run) : Relies plan i v s s :=
  ⟨Shared.Others.refl i s, fun _ => .refl⟩

theorem Relies.trans {plan : Plan} {i : Nat} {v : Option Id} {s s' s'' : Run}
    (first : Relies plan i v s s') (second : Relies plan i v s' s'') : Relies plan i v s s'' :=
  ⟨first.others.trans second.others, fun n => (first.keeps n).trans (second.keeps n)⟩

/-- Where jobs are about different VMs, one spares what the other relies on. -/
theorem relies_of_spares {plan : Plan} {i j : Nat} {v v' : Option Id}
    (known : ∀ w, v' = some w → plan.vms w) (apart : ∀ w, v' = some w → v ≠ some w) (differ : i ≠ j)
    {s s' : Run} (spares : Spares j v' s s') :
    Relies plan i v s s' := by
  refine ⟨spares.others i differ, fun n => (spares.keeps n).fewer ?_⟩
  rintro k ⟨w, rfl, own⟩
  exact ⟨w, known w rfl, fun same => apart w rfl same.symm, own⟩

/-- A job of the run, as the others see it; its network is safe. -/
abbrev wiring (plan : Plan) (env : Env) (i : Nat) (v : Option Id) :
    OpSpec Op Op.Res Exn (Run → Prop) :=
  among (exec env) i (Tunnels plan) (Relies plan i v) (Spares i v) fun _ s =>
    TenantsApart plan s.world

section

variable {plan : Plan} {env : Env} {i : Nat} {node : Node} {v : Option Id} {at_ : Id → Id → Prop}

/-- What the thread knows of its node's network, and where it is with the VXLAN devices. -/
structure Here (i : Nat) (node : Id) (at_ : Id → Id → Prop) (A : Net → Prop) (s : Run) : Prop where
  net : A (s.world.hosts node).net
  settled : Settled i at_ s

/-- No job about another VM changes that. -/
def Stable (plan : Plan) (node : Id) (v : Option Id) (A : Net → Prop) : Prop :=
  ∀ n n', A n → Keeps node (Foreign plan v) n n' → A n'

theorem Settled.stays {s s' : Run} (settled : Settled i at_ s) (relies : Relies plan i v s s') :
    Settled i at_ s' := by
  intro e there own n u makes
  have old := (relies.others.mem own).mp there
  rcases settled e old own n u makes with now | joined
  · exact .inl now
  · apply Or.inr
    apply joined.stays (relies.keeps n)
    rintro ⟨w, -, -, own⟩
    exact vxlan_not_own w n u own

theorem Here.stays {A : Net → Prop} (stable : Stable plan node.id v A) {s s' : Run}
    (here : Here i node.id at_ A s) (relies : Relies plan i v s s') : Here i node.id at_ A s' :=
  ⟨stable _ _ here.net (relies.keeps node.id), here.settled.stays relies⟩

/-- The network of a node after a command on it. -/
theorem net_after (s : Run) (n : Id) (c : Cmd) (n' : Id) :
    ((s.after (exec env) i (.host n c)).world.hosts n').net =
      if n' = n then ((s.world.hosts n).exec (env.chance s.world.clock) c).2.net else
        (s.world.hosts n').net := by
  change ((exec env (.host n c) s.world).2.hosts n').net = _
  rw [hosts_exec]
  split <;> rfl

/-- A command spares the others if it does so on its host. -/
theorem spares_after {s : Run} {n : Id} {c : Cmd}
    (keeps : Keeps n (Mine v) (s.world.hosts n).net
      ((s.world.hosts n).exec (env.chance s.world.clock) c).2.net) :
    Spares i v s (s.after (exec env) i (.host n c)) := by
  constructor
  · exact fun j differ => .of_after (exec env) s _ differ.symm
  · intro n'
    rw [net_after]
    split
    next same =>
      subst same
      exact keeps
    next => exact .refl

theorem settled_after {s : Run} {o : Op} (spares : Spares i v s (s.after (exec env) i o))
    (settled : Settled i at_ s)
    (new : ∀ n u, Makes n u ⟨i, o, (exec env o s.world).1⟩ → at_ n u) : Settled i at_
      (s.after (exec env) i o) := by
  intro e there own n u makes
  rcases List.mem_cons.mp there with rfl | before
  · exact .inl (new n u makes)
  · rcases settled e before own n u makes with now | joined
    · exact .inl now
    · apply Or.inr
      apply joined.stays (spares.keeps n)
      rintro ⟨w, -, own⟩
      exact vxlan_not_own w n u own

/-- What a careful command of the job does. -/
theorem careful_after {n : Id} {c : Cmd} (careful : ∀ c', c = .net c' → Careful plan n v c')
    {s : Run} (safe : TenantsApart plan s.world) (tunnels : Tunnels plan s) :
    Tunnels plan (s.after (exec env) i (.host n c)) ∧
      Spares i v s (s.after (exec env) i (.host n c)) ∧
      (Settled i at_ s → Settled i at_ (s.after (exec env) i (.host n c))) := by
  -- what the command does to its host's network
  have step : Keeps n (Mine v) (s.world.hosts n).net
    ((s.world.hosts n).exec (env.chance s.world.clock) c).2.net ∧
      ∀ u kind m, ((s.world.hosts n).exec (env.chance s.world.clock) c).2.net.portAt
        (none, Vxlan.nameFor n u) =
        some (kind, m) → ∃ old, (s.world.hosts n).net.portAt (none, Vxlan.nameFor n u) = some
          (kind, old) := by
    apply exec_net_keeps (env.chance s.world.clock) c (s.world.hosts n)
      (J := fun net => Keeps n (Mine v) (s.world.hosts n).net net ∧ ∀ u kind m,
        net.portAt (none, Vxlan.nameFor n u) = some (kind, m) →
          ∃ old, (s.world.hosts n).net.portAt (none, Vxlan.nameFor n u) = some (kind, old))
    · intro c' same a n' taken
      exact ⟨(careful c' same).keeps _ a n' (safe n).1 taken,
        (careful c' same).tunnels _ a n' taken⟩
    · exact ⟨.refl, fun _ _ m there => ⟨m, there⟩⟩
  have spares : Spares i v s (s.after (exec env) i (.host n c)) := spares_after step.1
  refine ⟨?_, spares, fun settled => settled_after spares settled ?_⟩
  · intro n' u known kind m there
    have old : ∃ old, (s.world.hosts n').net.portAt (none, Vxlan.nameFor n' u) =
        some (kind, old) := by
      rw [net_after] at there
      split at there
      next same =>
        subst same
        exact step.2 u kind m there
      next => exact ⟨m, there⟩
    obtain ⟨old, found⟩ := old
    obtain ⟨number, e, before, makes⟩ := tunnels n' u known kind old found
    exact ⟨number, e, List.mem_cons_of_mem _ before, makes⟩
  · -- a careful command makes no device
    rintro n' u ⟨⟨ip, same⟩, -⟩
    cases same
    exact absurd rfl ((careful _ rfl).other u ip)

/-- An operation of the job that keeps what the thread knows. -/
def Fine (plan : Plan) (node : Id) (v : Option Id) (A : Net → Prop) : Op → Prop
  | .host n c => n = node ∧ ∀ c', c = .net c' → Careful plan node v c' ∧
      ∀ m a m', A m → c'.step m = some (a, m') → A m'
  | _ => True

theorem fine_after {A : Net → Prop} {o : Op} (fine : Fine plan node.id v A o) {s : Run}
    (safe : TenantsApart plan s.world)
    (tunnels : Tunnels plan s) : Tunnels plan (s.after (exec env) i o) ∧ Spares i v s
      (s.after (exec env) i o) ∧
      (Here i node.id at_ A s → Here i node.id at_ A (s.after (exec env) i o)) := by
  by_cases host : ∃ n c, o = .host n c
  · obtain ⟨n, c, rfl⟩ := host
    obtain ⟨rfl, net⟩ := fine
    obtain ⟨tunnels', spares, settled⟩ :=
      careful_after (fun c' same => (net c' same).1) safe tunnels
    refine ⟨tunnels', spares, fun here => ⟨?_, settled here.settled⟩⟩
    rw [net_after, if_pos rfl]
    apply exec_net_keeps
    · intro c' same a n' step
      exact (net c' same).2 _ a n' here.net step
    · exact here.net
  · have hosts : (s.after (exec env) i o).world.hosts = s.world.hosts :=
      hosts_off o s.world fun n c is => host ⟨n, c, is⟩
    have spares : Spares i v s (s.after (exec env) i o) :=
      ⟨fun j differ => .of_after (exec env) s _ differ.symm, fun n => by rw [hosts]; exact .refl⟩
    refine ⟨?_, spares, fun here => ⟨?_, settled_after spares here.settled ?_⟩⟩
    · intro n u known kind m there
      rw [hosts] at there
      obtain ⟨number, e, before, makes⟩ := tunnels n u known kind m there
      exact ⟨number, e, List.mem_cons_of_mem _ before, makes⟩
    · rw [hosts]
      exact here.net
    · rintro n u ⟨⟨ip, is⟩, -⟩
      exact absurd ⟨n, _, is⟩ host

/-- A part of the job that keeps what the thread knows, whatever becomes of it. -/
theorem reads_fine {A : Net → Prop} (stable : Stable plan node.id v A) {α : Type} {p : Py α}
    (only : Only (Fine plan node.id v A) p) {s : Run} (here : Here i node.id at_ A s) :
    wp (wiring plan env i v) p (fun _ s' => Here i node.id at_ A s') s := by
  apply among_mono p _ _ _ s (among_of_issues (Here i node.id at_ A) _ _ p (fun _ => True)
    (only.issues fun _ _ => True) s here)
  · exact fun _ _ post => post.1
  · exact fun s s' here relies _ => here.stays stable relies
  · intro o s fine here tunnels safe
    obtain ⟨tunnels', spares, keeps⟩ := fine_after fine safe tunnels
    exact ⟨tunnels', spares, keeps here, fun _ _ => trivial⟩

/-- One careful command: an answer has the step taken, an exception has not. -/
theorem careful_net {A : Net → Prop} {c : NetCmd} {B : c.Res → Net → Prop}
    (stable : Stable plan node.id v A) (careful : Careful plan node.id v c)
    (next : ∀ m a m', A m → c.step m = some (a, m') → B a m') {s : Run}
    (here : Here i node.id at_ A s) {Q : Except Exn c.Res → Run → Prop}
    (ok : ∀ a s', Here i node.id at_ (B a) s' → Q (.ok a) s')
    (error : ∀ e s', Here i node.id at_ A s' → Q (.error e) s') :
    wp (onHostSpec (wiring plan env i v) node.id) (net c) Q s := by
  rw [net, wp_perform]
  intro s' relies tunnels safe
  have now := here.stays stable relies
  have only (c' : NetCmd) (same : Cmd.net c = .net c') : Careful plan node.id v c' := by
    cases same
    exact careful
  obtain ⟨tunnels', spares, settled⟩ := careful_after only safe tunnels
  refine ⟨tunnels', spares, ?_⟩
  cases answers : (exec env (.host node.id (.net c)) s'.world).1 with
  | error e =>
    apply error e
    refine ⟨?_, settled now.settled⟩
    rw [net_after, if_pos rfl, same_of_error answers]
    exact now.net
  | ok a =>
    apply ok a
    refine ⟨?_, settled now.settled⟩
    rw [net_after, if_pos rfl]
    exact next _ _ _ now.net (step_of_ok answers)

/-- One careful command, where only its answer counts. -/
theorem reads_net {A : Net → Prop} {c : NetCmd} {B : c.Res → Net → Prop}
    (stable : Stable plan node.id v A) (careful : Careful plan node.id v c)
    (next : ∀ m a m', A m → c.step m = some (a, m') → B a m') {s : Run}
    (here : Here i node.id at_ A s) : wp (wiring plan env i v) (node.sh (net c))
      (fun r s' => ∀ a, r = .ok a → Here i node.id at_ (B a) s') s := by
  rw [wp_sh]
  apply careful_net stable careful next here
  · rintro a s' now _ ⟨⟩
    exact now
  · rintro e s' - a ⟨⟩

/-- The test for a link. -/
theorem reads_linkExists {A : Net → Prop} {name : Str} (stable : Stable plan node.id v A) {s : Run}
    (here : Here i node.id at_ A s) : wp (wiring plan env i v) (node.sh (linkExists name))
      (fun r s' => ∀ b, r = .ok b → Here i node.id at_ (fun m => A m ∧
        (b = true → ∃ x, m.portAt (none, name) = some x)) s') s := by
  rw [wp_sh, linkExists, exceptPrivops, wp_tryCatch, wp_bind]
  have shows (m : Net) (a : Unit) (m' : Net) (holds : A m)
    (step : NetCmd.step (.show name) m = some (a, m')) :
      A m' ∧ ∃ x, m'.portAt (none, name) = some x := by
    simp only [NetCmd.step] at step
    split at step
    next found =>
      cases step
      obtain ⟨l, there⟩ := Option.ne_none_iff_exists'.mp found
      exact ⟨holds, _, Net.portAt_some.mpr ⟨l, there, rfl, rfl⟩⟩
    next => cases step
  have plain : Careful plan node.id v (.show name) := careful_plain trivial
  apply careful_net (B := fun _ m => A m ∧ ∃ x,
    m.portAt (none, name) = some x) stable plain shows here
  · rintro a s' now b ⟨⟩
    exact ⟨⟨now.net.1, fun _ => now.net.2⟩, now.settled⟩
  · intro e s' still
    rw [onValue_error, onError_error, wp_ite]
    split
    · rintro b ⟨⟩
      exact ⟨⟨still.net, fun same => by cases same⟩, still.settled⟩
    · rintro b ⟨⟩

/-! ## A bring-up -/

/-- The VXLAN devices of that name on the node. -/
def Digging (node u : Id) (node' u' : Id) : Prop :=
  node' = node ∧ Vxlan.nameFor node u' = Vxlan.nameFor node u

def Idle (_ _ : Id) : Prop := False

variable {spec : VmSpec}

/-- The tunnel is made, and not yet joined. -/
theorem reads_tunnel (apart : plan.Apart) (fits : Fits plan node.id spec) {A : Net → Prop}
    (stable : Stable plan node.id (some spec.vmId) A)
    (keeps : ∀ m a m', A m → (tunnel spec.nodeId spec.vpcId spec.nodeHost).step m =
      some (a, m') → A m')
      {s : Run}
    (here : Here i node.id Idle A s) :
    wp (wiring plan env i (some spec.vmId))
      (node.sh (net (tunnel spec.nodeId spec.vpcId spec.nodeHost)))
      (fun r s' => ∀ a, r = .ok a → Here i node.id (Digging node.id spec.vpcId) (fun m => A m ∧
        ∃ x, m.portAt (none, Vxlan.nameFor spec.nodeId spec.vpcId) = some x) s') s := by
  obtain same := fits.node_
  rw [same]
  rw [same] at keeps
  have placed : plan.vpcs spec.vpcId := fits.vpc ▸ apart.placed _ fits.vm
  have wires : VmUp.Wires spec (tunnel node.id spec.vpcId spec.nodeHost) := same ▸ .vxlan
  rw [wp_sh, net, wp_perform]
  intro s' relies tunnels safe
  have now := here.stays stable relies
  have step (m m' : Net) (a : Unit)
    (taken : (tunnel node.id spec.vpcId spec.nodeHost).step m = some (a, m')) :
      Keeps node.id (Mine (some spec.vmId)) m m' := same ▸ wires_keeps wires taken
  have spares : Spares i (some spec.vmId) s'
      (s'.after (exec env) i (.host node.id (.net (tunnel node.id spec.vpcId spec.nodeHost)))) := by
    apply spares_after
    apply exec_net_keeps _ _ _ ?_ .refl
    rintro c ⟨⟩ a n' taken
    exact step _ _ a taken
  cases answers : (exec env (.host node.id (.net (tunnel node.id spec.vpcId spec.nodeHost)))
    s'.world).1 with
  | error e =>
    have still := same_of_error answers
    refine ⟨?_, spares, by rintro a ⟨⟩⟩
    intro n u known kind m there
    have old : (s'.world.hosts n).net.portAt (none, Vxlan.nameFor n u) = some (kind, m) := by
      rw [net_after] at there
      split at there
      next is =>
        subst is
        rwa [still] at there
      next => exact there
    obtain ⟨number, e', before, makes⟩ := tunnels n u known kind m old
    exact ⟨number, e', List.mem_cons_of_mem _ before, makes⟩
  | ok a =>
    have taken := step_of_ok answers
    obtain ⟨-, ports⟩ := add_port taken
    refine ⟨?_, spares, ?_⟩
    · intro n u known kind m there
      rw [net_after] at there
      split at there
      next is =>
        subst is
        rw [ports] at there
        split at there
        next named =>
          -- no other VPC has a device of this name
          have cut : u.take 4 = spec.vpcId.take 4 := List.append_cancel_left (Prod.mk.inj named).2
          obtain rfl := apart.devices u spec.vpcId known placed cut
          cases there
          exact ⟨⟨_, rfl⟩, _, List.mem_cons_self, ⟨_, rfl⟩, a, answers⟩
        next =>
          obtain ⟨number, e, before, makes⟩ := tunnels node.id u known kind m there
          exact ⟨number, e, List.mem_cons_of_mem _ before, makes⟩
      next =>
        obtain ⟨number, e, before, makes⟩ := tunnels n u known kind m there
        exact ⟨number, e, List.mem_cons_of_mem _ before, makes⟩
    · rintro a' ⟨⟩
      refine ⟨⟨?_, ?_⟩, settled_after spares ?_ ?_⟩
      · rw [net_after, if_pos rfl]
        exact keeps _ _ _ now.net taken
      · rw [net_after, if_pos rfl, ports, if_pos rfl]
        exact ⟨_, rfl⟩
      · intro e there own n u makes
        rcases now.settled e there own n u makes with idle | joined
        · exact idle.elim
        · exact .inr joined
      · rintro n u ⟨⟨ip, is⟩, -⟩
        simp only [tunnel, Op.host.injEq, Cmd.net.injEq, NetCmd.add.injEq, Prod.mk.injEq] at is
        obtain ⟨rfl, ⟨-, named⟩, -⟩ := is
        exact ⟨rfl, named.symm⟩

end

/-! ## The links of one VM -/

section

variable {plan : Plan} {node : Id} {v : Id}

/-- A link that no job about another VM takes away, and no VXLAN device. -/
structure Held (plan : Plan) (node v : Id) (k : LinkKey) : Prop where
  own : ¬ Foreign plan (some v) k
  port : ∀ u, k ≠ (none, Vxlan.nameFor node u)

theorem held_own (apart : plan.Apart) (known : plan.vms v) {k : LinkKey}
    (own : Own v k) : Held plan node v k := by
  constructor
  · rintro ⟨w, known', other, own'⟩
    exact own_apart apart known known' (fun same => other (congrArg some same)) own' own
  · rintro u rfl
    exact vxlan_not_own v node u own

theorem held_bridge (u : Id) : Held plan node v (none, Bridge.nameFor node u) := by
  constructor
  · rintro ⟨w, -, -, own⟩
    exact bridge_not_own w node u own
  · intro u' same
    have head := congrArg List.head? (Prod.mk.inj same).2
    cases head

/-- The facts are of such links only. -/
def Owned (plan : Plan) (node v : Id) (facts : Facts) : Prop :=
  ∀ k x, facts k = some x → Held plan node v k

theorem owned_update {facts : Facts} (owned : Owned plan node v facts) {key : LinkKey}
    {x : Option (Kind × Option Str)} (held : Held plan node v key) :
    Owned plan node v (Function.update facts key x) := by
  intro k y known
  by_cases same : k = key
  · rw [same]
    exact held
  · rw [Function.update_of_ne same] at known
    exact owned k y known

/-- They are still true after the others' steps. -/
theorem stable_has {facts : Facts} (owned : Owned plan node v facts) :
    Stable plan node (some v) fun m => m.Has facts := by
  intro n n' has keeps k x known
  obtain ⟨own, port⟩ := owned k x known
  obtain ⟨m', there, same⟩ := keeps k x.1 x.2 own (has k x known)
  rcases same with rfl | ⟨u, named, -⟩
  · exact there
  · exact absurd named (port u)

end

/-! The facts, as a bring-up goes on. -/

section

variable (v : Id) (br : Str) (p : Nat) (up : Option Str)

def paired : Facts :=
  Function.update (Function.update (fun _ => none) (none, VmUp.hostVeth v) (some (.veth p, none)))
    (none, VmUp.nsVeth v) (some (.veth p, none))

def placed : Facts :=
  Function.update (Function.update (paired v p) (none, VmUp.nsVeth v) none)
    (some (VmUp.nsName v), VmUp.nsVeth v)
    (some (.veth p, none))

def joined : Facts :=
  Function.update (Function.update (placed v p) (none, VmUp.hostVeth v)
    (some (.veth p, some br))) (none, br)
    (some (.bridge, up))

def bridged : Facts :=
  Function.update (joined v br p up) (some (VmUp.nsName v), "nbr0") (some (.bridge, none))

def attached : Facts :=
  Function.update (bridged v br p up) (some (VmUp.nsName v), VmUp.nsVeth v)
    (some (.veth p, some "nbr0"))

def tapped : Facts :=
  Function.update (attached v br p up) (some (VmUp.nsName v), "tap0") (some (.tap, none))

/-- From the tap to the bridge of the VPC. -/
def wired : Facts := Function.update (tapped v br p up) (some (VmUp.nsName v), "tap0")
    (some (.tap, some "nbr0"))

end

section

variable {plan : Plan} (apart : plan.Apart) {node v : Id} (known : plan.vms v) (u : Id) (p : Nat)
  (up : Option Str)

include apart known

theorem owned_paired : Owned plan node v (paired v p) := by
  apply owned_update
  · apply owned_update
    · rintro k x ⟨⟩
    · exact held_own apart known (.inr ⟨.vpc, .inl rfl⟩)
  · exact held_own apart known (.inr ⟨.vpc, .inr rfl⟩)

theorem owned_placed : Owned plan node v (placed v p) := by
  apply owned_update
  · exact owned_update (owned_paired apart known p) (held_own apart known (.inr ⟨.vpc, .inr rfl⟩))
  · exact held_own apart known (.inl rfl)

theorem owned_joined : Owned plan node v (joined v (Bridge.nameFor node u) p up) := by
  apply owned_update
  · exact owned_update (owned_placed apart known p) (held_own apart known (.inr ⟨.vpc, .inl rfl⟩))
  · exact held_bridge u

theorem owned_bridged : Owned plan node v (bridged v (Bridge.nameFor node u) p up) :=
  owned_update (owned_joined apart known u p up) (held_own apart known (.inl rfl))

theorem owned_attached : Owned plan node v (attached v (Bridge.nameFor node u) p up) :=
  owned_update (owned_bridged apart known u p up) (held_own apart known (.inl rfl))

theorem owned_tapped : Owned plan node v (tapped v (Bridge.nameFor node u) p up) :=
  owned_update (owned_attached apart known u p up) (held_own apart known (.inl rfl))

theorem owned_wired : Owned plan node v (wired v (Bridge.nameFor node u) p up) :=
  owned_update (owned_tapped apart known u p up) (held_own apart known (.inl rfl))

end

/-! ## A bring-up among others -/

section

variable {plan : Plan} {env : Env} {i : Nat} {node : Node} {spec : VmSpec}

/-- On the overlay, the VXLAN device of the VPC is there. -/
def Dug (spec : VmSpec) (m : Net) : Prop :=
  ¬ (spec.peerHosts = [] ∨ LOOPBACK.contains spec.nodeHost) →
    ∃ x, m.portAt (none, Vxlan.nameFor spec.nodeId spec.vpcId) = some x

/-- What is known of the VM's links, and once it is dug of the VXLAN device. -/
def Stage (spec : VmSpec) (dug : Prop) (F : Nat → Option Str → Facts) (m : Net) : Prop :=
  (∃ p up, m.Has (F p up)) ∧ (dug → Dug spec m)

theorem dug_keeps {taken : LinkKey → Prop} (free : ∀ u, ¬ taken (none, Vxlan.nameFor spec.nodeId u))
    {m m' : Net} (dug : Dug spec m) (keeps : Keeps spec.nodeId taken m m') : Dug spec m' := by
  intro on
  obtain ⟨x, there⟩ := dug on
  obtain ⟨master, there', -⟩ := keeps _ x.1 x.2 (free _) there
  exact ⟨_, there'⟩

theorem dug_wires {c : NetCmd} (wires : VmUp.Wires spec c) {m m' : Net} {a : c.Res}
    (dug : Dug spec m) (step : c.step m = some (a, m')) : Dug spec m' := by
  apply dug_keeps _ dug (wires_keeps wires step)
  rintro u ⟨w, -, own⟩
  exact vxlan_not_own w spec.nodeId u own

section

variable (fits : Fits plan node.id spec) {F F' : Nat → Option Str → Facts} {dug : Prop}

include fits

theorem stable_stage (owned : ∀ p up, Owned plan node.id spec.vmId (F p up)) :
    Stable plan node.id (some spec.vmId) (Stage spec dug F) := by
  rintro n n' ⟨⟨p, up, has⟩, known⟩ keeps
  refine ⟨⟨p, up, stable_has (owned p up) n n' has keeps⟩, fun on => ?_⟩
  rw [← fits.node_] at keeps
  apply dug_keeps _ (known on) keeps
  rintro u ⟨w, -, -, own⟩
  exact vxlan_not_own w spec.nodeId u own

/-- From one stage to the next; an exception ends the bring-up. -/
def Goes (plan : Plan) (env : Env) (i : Nat) (node : Node) (spec : VmSpec) {α : Type} (q : Sh α)
    (A B : Net → Prop) : Prop :=
  ∀ s, Here i node.id Idle A s → wp (wiring plan env i (some spec.vmId)) (node.sh q)
    (fun r s' => ∀ a, r = .ok a → Here i node.id Idle B s') s

omit fits in
theorem Goes.bind {α β : Type} {q : Sh α} {f : α → Sh β} {A B C : Net → Prop}
    (first : Goes plan env i node spec q A B) (rest : ∀ a, Goes plan env i node spec (f a) B C) :
    Goes plan env i node spec (q >>= f) A C := by
  intro s here
  have split_ : node.sh (q >>= f) = (node.sh q >>= fun a => node.sh (f a)) := onHost_bind ..
  rw [split_, wp_bind]
  apply among_mono _ _ _ _ s (first s here)
  rintro (e | a) s' post
  · rintro b ⟨⟩
  · exact rest a s' (post a rfl)

/-- One command that makes or joins a link. -/
theorem Goes.net {c : NetCmd} (wires : VmUp.Wires spec c)
    (other : c ≠ tunnel spec.nodeId spec.vpcId spec.nodeHost)
    (owned : ∀ p up, Owned plan node.id spec.vmId (F p up))
    (next : ∀ p up m a m', m.Has (F p up) → c.step m = some (a, m') → ∃ p' up',
      m'.Has (F' p' up')) :
    Goes plan env i node spec (Client.net c) (Stage spec dug F) (Stage spec dug F') := by
  intro s here
  have careful : Careful plan node.id (some spec.vmId) c := fits.node_ ▸ careful_wires wires other
  apply reads_net (B := fun _ => Stage spec dug F') (stable_stage fits owned) careful _ here
  rintro m a m' ⟨⟨p, up, has⟩, known⟩ step
  exact ⟨next p up m a m' has step, fun on => dug_wires wires (known on) step⟩

/-- A command that moves none of the links that something is known of. -/
def Mild (spec : VmSpec) (F : Nat → Option Str → Facts) (c : Cmd) : Prop :=
  ∀ c', c = .net c' → VmUp.Wires spec c' ∧ c' ≠ tunnel spec.nodeId spec.vpcId spec.nodeHost ∧
    ∀ p up k, c'.Moves k → F p up k = none

theorem fine_of_mild {c : Cmd} (mild : Mild spec F c) :
    Fine plan node.id (some spec.vmId) (Stage spec dug F) (.host node.id c) := by
  refine ⟨rfl, fun c' same => ?_⟩
  obtain ⟨wires, other, stays⟩ := mild c' same
  refine ⟨fits.node_ ▸ careful_wires wires other, ?_⟩
  rintro m a m' ⟨⟨p, up, has⟩, known⟩ step
  exact ⟨⟨p, up, has_stays step has (stays p up)⟩, fun on => dug_wires wires (known on) step⟩

theorem Goes.only (owned : ∀ p up, Owned plan node.id spec.vmId (F p up)) {α : Type} {q : Sh α}
    (only : Only (Mild spec F) q) :
    Goes plan env i node spec q (Stage spec dug F) (Stage spec dug F) := by
  intro s here
  have fine : Only (Fine plan node.id (some spec.vmId) (Stage spec dug F)) (node.sh q) :=
    .sh node (only.mono fun c mild => fine_of_mild fits mild)
  apply among_mono _ _ _ _ s (reads_fine (stable_stage fits owned) fine here)
  exact fun _ _ now _ _ => now

end

/-- Nothing is known yet. -/
def nothing (_ : Nat) (_ : Option Str) : Facts := fun _ => none

theorem owned_nothing (p : Nat) (up : Option Str) :
    Owned plan node.id spec.vmId (nothing p up) := by
  rintro k x ⟨⟩

/-! The parts that leave what is known. -/

section

variable (F : Nat → Option Str → Facts)

theorem mild_net {c : NetCmd} (wires : VmUp.Wires spec c)
    (other : c ≠ tunnel spec.nodeId spec.vpcId spec.nodeHost)
    (stays : ∀ p up k, c.Moves k → F p up k = none) : Only (Mild spec F) (Client.net c) := by
  apply Only.net
  rintro c' ⟨⟩
  exact ⟨wires, other, stays⟩

/-- A command that makes, moves and removes no link. -/
theorem mild_of_plain {c : NetCmd} (wires : VmUp.Wires spec c) (plain : c.Plain) :
    Mild spec F (.net c) := by
  rintro c' ⟨⟩
  refine ⟨wires, ?_, ?_⟩
  · rintro rfl
    cases plain
  · intro p up k moves
    cases c <;> first | exact False.elim plain | exact False.elim moves

theorem mild_plain {c : NetCmd} (wires : VmUp.Wires spec c) (plain : c.Plain) :
    Only (Mild spec F) (Client.net c) := .net (mild_of_plain F wires plain)

theorem mild_linkExists (name : Str) : Only (Mild spec F) (linkExists name) :=
  .exceptPrivops _ (.bind (mild_plain F (.show name) trivial) fun _ => .pure _)

theorem mild_bridge (gw : Str) : Only (Mild spec F)
    (Bridge.ensure (Bridge.nameFor spec.nodeId spec.vpcId) gw (Overlay.anycastMac spec.vpcId)) := by
  apply Only.bind (mild_linkExists F _)
  intro found
  apply Only.ite
  · exact fun _ => .pure _
  · intro _
    apply Only.bind
    · apply mild_net F .bridge
      · intro same
        have head := congrArg List.head? (Prod.mk.inj (NetCmd.add.inj same).1).2
        cases head
      · rintro p up k ⟨⟩
    · intro _
      apply Only.bind (mild_plain F (.setAddress _) trivial)
      intro _
      exact .bind (mild_plain F (.addAddr _) trivial) fun _ => mild_plain F (.setUp _) trivial

theorem mild_setFdb : Only (Mild spec F)
    (Vxlan.setFdb spec.sets (Vxlan.nameFor spec.nodeId spec.vpcId) spec.peerHosts) := by
  apply (Vxlan.setFdb_lists spec.sets _ spec.peerHosts).mono
  rintro _ ⟨c, lists⟩
  have wires : VmUp.Wires spec c ∧ c.Plain := by
    cases lists with
    | «show» name => exact ⟨.show name, trivial⟩
    | fdbShow => exact ⟨.fdbShow, trivial⟩
    | append listed => exact ⟨.fdbAppend _ listed, trivial⟩
    | del unlisted => exact ⟨.fdbDel _ unlisted, trivial⟩
  exact mild_of_plain F wires.1 wires.2

theorem mild_nat (cidr : Str) : Only (Mild spec F) (Nat_.ensure cidr) := by
  have chain (table chain : Str) : Only (Mild spec F) (Nat_.ensureChain table chain) :=
    .bind (.exceptPrivops _ (.bind (mild_plain F (.listChain ..) trivial) fun _ =>
      .pure _)) fun _ =>
      .ite (fun _ => .pure _) fun _ => mild_plain F (.newChain ..) trivial
  have rule (table chain : Str) (args : List Str) :
      Only (Mild spec F) (Nat_.ensureRule table chain args) :=
    .bind (.exceptPrivops _ (.bind (mild_plain F (.checkRule _) trivial) fun _ => .pure _)) fun _ =>
      .ite (fun _ => .pure _) fun _ => mild_plain F (.appendRule _) trivial
  apply Only.bind (mild_plain F .sysctlForward trivial)
  intro _
  apply Only.bind (chain ..)
  intro _
  apply Only.bind (chain ..)
  intro _
  apply Only.bind (rule ..)
  intro _
  apply Only.bind (rule ..)
  intro _
  apply Only.bind (rule ..)
  intro _
  exact .bind (rule ..) fun _ => rule ..

/-- What touches no network. -/
theorem mild_off {c : Cmd} (off : ∀ c', c ≠ .net c') : Mild spec F c :=
  fun c' same => absurd same (off c')

theorem mild_symlink (l : LinkName) (source : Path) :
    Only (Mild spec F) (symlink spec.vmId l source) := by
  have dir (c : DirCmd) : Only (Mild spec F) (Client.dir spec.vmId c) :=
    .dir (mild_off F (by rintro c' ⟨⟩))
  exact .bind (dir _) fun _ => .bind (.whenTrue fun _ => dir _) fun _ => dir _

/-- `vm_up` up to the network. -/
theorem mild_files : Only (Mild spec F) (do
    EnvSetup.run spec.vmId spec.kernel spec.sshKey spec.vg spec.rootfsOrigin
    Inject.run spec.vmId spec.sshPubkey spec.dns spec.dataVolumePath.isSome spec.publicIp
    whenSome spec.dataVolumePath fun path => Attach.run spec.vmId path) := by
  have lvm (c : LvmCmd) : Only (Mild spec F) (Client.lvm c) := .lvm (mild_off F (by rintro c' ⟨⟩))
  apply Only.bind
  · simp only [EnvSetup.run, Lv.clone, LawfulMonad.bind_assoc, pure_bind]
    apply Only.bind (.dir (mild_off F (by rintro c' ⟨⟩)))
    intro _
    apply Only.bind
    · apply (Lv.remove_only spec.vg _).mono
      rintro c removes c' rfl
      cases removes
    · intro _
      apply Only.bind (lvm _)
      intro _
      apply Only.bind (mild_symlink F ..)
      intro _
      exact .bind (mild_symlink F ..) fun _ => mild_symlink F ..
  · intro _
    apply Only.bind (.perform (mild_off F (by rintro c' ⟨⟩)))
    exact fun _ => .whenSome fun _ _ => mild_symlink F ..

theorem mild_spawn : Only (Mild spec F) (VmUp.spawn spec) := by
  apply Only.bind
  · unfold VmConfig.build
    apply Only.bind (.fromExcept _)
    exact fun _ => .dir (mild_off F (by rintro c' ⟨⟩))
  · intro _
    apply Only.bind (.dir (mild_off F (by rintro c' ⟨⟩)))
    intro _
    exact .bind (.perform (mild_off F (by rintro c' ⟨⟩))) fun _ =>
      .dir (mild_off F (by rintro c' ⟨⟩))

end

/-! The parts that make links. -/

section

variable (apart : plan.Apart) (fits : Fits plan node.id spec)

include apart fits

omit apart in
theorem stable_tunnel : Stable plan node.id (some spec.vmId) fun m =>
    ∃ x, m.portAt (none, Vxlan.nameFor spec.nodeId spec.vpcId) = some x := by
  rintro n n' ⟨x, found⟩ keeps
  rw [← fits.node_] at keeps
  have free : ¬ Foreign plan (some spec.vmId) (none, Vxlan.nameFor spec.nodeId spec.vpcId) := by
    rintro ⟨w, -, -, own⟩
    exact vxlan_not_own w _ _ own
  obtain ⟨m', found', -⟩ := keeps _ x.1 x.2 free found
  exact ⟨_, found'⟩

omit apart in
/-- The device that the thread is at is joined. -/
theorem reads_join {s : Run} (here : Here i node.id (Digging node.id spec.vpcId) (fun m =>
    ∃ x, m.portAt (none, Vxlan.nameFor spec.nodeId spec.vpcId) = some x) s) :
    wp (wiring plan env i (some spec.vmId)) (node.sh (net
      (.setMaster (none, Vxlan.nameFor spec.nodeId spec.vpcId)
        (Bridge.nameFor spec.nodeId spec.vpcId))))
      (fun r s' => ∀ a, r = .ok a → Here i node.id Idle (Stage spec True nothing) s') s := by
  have joins : VmUp.Wires spec (.setMaster (none, Vxlan.nameFor spec.nodeId spec.vpcId)
    (Bridge.nameFor spec.nodeId spec.vpcId)) := .joinVxlan
  have careful : Careful plan node.id (some spec.vmId)
    (.setMaster (none, Vxlan.nameFor spec.nodeId spec.vpcId)
      (Bridge.nameFor spec.nodeId spec.vpcId)) := fits.node_ ▸ careful_wires joins (by rintro ⟨⟩)
  apply among_mono _ _ _ _ s (reads_net (B := fun _ => Joined spec.nodeId spec.vpcId)
    (stable_tunnel fits) careful _ here)
  · intro r s' post a answers
    have now := post a answers
    refine ⟨⟨⟨0, none, by rintro k x ⟨⟩⟩, fun _ _ => ?_⟩, ?_⟩
    · obtain ⟨kind, found⟩ := now.net
      exact ⟨_, found⟩
    · intro e there own n u makes
      rcases now.settled e there own n u makes with ⟨rfl, named⟩ | joined
      · obtain ⟨kind, found⟩ := now.net
        rw [fits.node_] at found
        refine .inr ⟨kind, ?_⟩
        rw [named, bridge_of_vxlan named]
        exact found
      · exact .inr joined
  · rintro m a m' - step
    obtain ⟨⟨kind, old, -, ports⟩, -⟩ := setMaster_port step
    exact ⟨kind, by rw [ports, if_pos rfl]⟩

/-- The VXLAN device is made and joined. -/
theorem goes_dig : Goes plan env i node spec (do
    net (tunnel spec.nodeId spec.vpcId spec.nodeHost)
    net (.setMaster (none, Vxlan.nameFor spec.nodeId spec.vpcId)
      (Bridge.nameFor spec.nodeId spec.vpcId))
    net (.setUp (none, Vxlan.nameFor spec.nodeId spec.vpcId))) (Stage spec False nothing)
      (Stage spec True nothing) := by
  intro s here
  have split_ : node.sh (do
      net (tunnel spec.nodeId spec.vpcId spec.nodeHost)
      net (.setMaster (none, Vxlan.nameFor spec.nodeId spec.vpcId)
        (Bridge.nameFor spec.nodeId spec.vpcId))
      net (.setUp (none, Vxlan.nameFor spec.nodeId spec.vpcId))) =
      (node.sh (net (tunnel spec.nodeId spec.vpcId spec.nodeHost)) >>= fun _ => node.sh (net
        (.setMaster (none, Vxlan.nameFor spec.nodeId spec.vpcId)
          (Bridge.nameFor spec.nodeId spec.vpcId))) >>=
          fun _ =>
          node.sh (net (.setUp (none, Vxlan.nameFor spec.nodeId spec.vpcId)))) := by
    refine (onHost_bind ..).trans (congrArg (_ >>= ·) (funext fun _ => ?_))
    exact onHost_bind ..
  -- the device is made, joined to the bridge and set up, one command at a time
  rw [split_, wp_bind]
  have anything : Here i node.id Idle (fun _ => True) s := ⟨trivial, here.settled⟩
  apply among_mono _ _ _ _ s (reads_tunnel apart fits (fun _ _ _ _ => trivial)
    (fun _ _ _ _ _ => trivial) anything)
  rintro (e | ⟨⟩) s₁ made
  · rintro b ⟨⟩
  rw [onValue_ok, wp_bind]
  have dug := made () rfl
  apply among_mono _ _ _ _ s₁ (reads_join fits ⟨dug.net.2, dug.settled⟩)
  rintro (e | ⟨⟩) s₂ joined
  · rintro b ⟨⟩
  exact Goes.only fits owned_nothing (mild_plain nothing (.setUp _) trivial) s₂ (joined () rfl)

/-- The VXLAN device is found, or made and joined. -/
theorem goes_overlay : Goes plan env i node spec
    (VmUp.overlay spec (Bridge.nameFor spec.nodeId spec.vpcId)) (Stage spec False nothing)
      (Stage spec True nothing) := by
  have has (m : Net) : ∃ p up, m.Has (nothing p up) := ⟨0, none, by rintro k x ⟨⟩⟩
  unfold VmUp.overlay
  split
  next off =>
    -- on a single host there is no overlay
    rintro s here a ⟨⟩
    exact ⟨⟨has _, fun _ on => absurd off on⟩, here.settled⟩
  next on =>
    apply Goes.bind (B := Stage spec True nothing)
    · intro s here
      have split_ : node.sh (Vxlan.ensure (Vxlan.nameFor spec.nodeId spec.vpcId)
          (Overlay.vniFor spec.vpcId)
          spec.nodeHost (Bridge.nameFor spec.nodeId spec.vpcId)) =
          (node.sh (linkExists (Vxlan.nameFor spec.nodeId spec.vpcId)) >>= fun b => node.sh
            (if b then pure () else do
              net (tunnel spec.nodeId spec.vpcId spec.nodeHost)
              net (.setMaster (none, Vxlan.nameFor spec.nodeId spec.vpcId)
                (Bridge.nameFor spec.nodeId spec.vpcId))
              net (.setUp (none, Vxlan.nameFor spec.nodeId spec.vpcId)))) := onHost_bind ..
      rw [split_, wp_bind]
      apply among_mono _ _ _ _ s (reads_linkExists (stable_stage fits owned_nothing) here)
      rintro (e | found) s' post
      · rintro b ⟨⟩
      · have asked := post found rfl
        rw [onValue_ok]
        cases found with
        | true =>
          rintro a ⟨⟩
          exact ⟨⟨has _, fun _ _ => asked.net.2 rfl⟩, asked.settled⟩
        | false => exact goes_dig apart fits s' ⟨asked.net.1, asked.settled⟩
    · intro _
      exact Goes.only fits owned_nothing (mild_setFdb nothing)

end

/-! The facts at each stage. -/

section

variable (v : Id) (br : Str) (p : Nat) (up : Option Str)

theorem host_ne_ns : VmUp.hostVeth v ≠ VmUp.nsVeth v :=
    (outer_ne_inner : Stack.vpc.outer v ≠ Stack.vpc.inner v)

theorem paired_ns : paired v p (none, VmUp.nsVeth v) = some (.veth p, none) :=
  Function.update_self ..

theorem placed_host : placed v p (none, VmUp.hostVeth v) = some (.veth p, none) := by
  have other : ((none, VmUp.hostVeth v) : LinkKey) ≠ (none, VmUp.nsVeth v) := fun same =>
    host_ne_ns v (Prod.mk.inj same).2
  rw [placed, Function.update_of_ne (fun same => by cases same),
    Function.update_of_ne other, paired,
    Function.update_of_ne other, Function.update_self]

theorem placed_ns : placed v p (some (VmUp.nsName v), VmUp.nsVeth v) = some
    (.veth p, none) := Function.update_self ..

theorem bridged_ns :
    bridged v br p up (some (VmUp.nsName v), VmUp.nsVeth v) = some (.veth p, none) := by
  have other : ((some (VmUp.nsName v), VmUp.nsVeth v) : LinkKey) ≠
    (some (VmUp.nsName v), ("nbr0" : Str)) := by
    intro same
    have head := congrArg List.head? (Prod.mk.inj same).2
    cases head
  rw [bridged, Function.update_of_ne other, joined,
    Function.update_of_ne (fun same => by cases same),
    Function.update_of_ne (fun same => by cases same), placed_ns]

theorem tapped_tap : tapped v br p up (some (VmUp.nsName v), "tap0") = some
    (.tap, none) := Function.update_self ..

/-- The links that something is known of in the end. -/
theorem wired_off {k : LinkKey} (inner : ∀ name, k = (some (VmUp.nsName v), name) →
      name ≠ "tap0" ∧ name ≠ "nbr0" ∧ name ≠ VmUp.nsVeth v)
    (outer : k ≠ (none, VmUp.hostVeth v)) (ns : k ≠ (none, VmUp.nsVeth v)) (bridge :
      k ≠ (none, br)) :
    wired v br p up k = none := by
  have tap : k ≠ (some (VmUp.nsName v), ("tap0" : Str)) := fun same => (inner _ same).1 rfl
  have nbr : k ≠ (some (VmUp.nsName v), ("nbr0" : Str)) := fun same => (inner _ same).2.1 rfl
  have veth : k ≠ (some (VmUp.nsName v), VmUp.nsVeth v) := fun same => (inner _ same).2.2 rfl
  simp only [wired, tapped, attached, bridged, joined, placed, paired, ne_eq, tap, nbr,
    veth, outer, ns,
    bridge,
    not_false_eq_true, Function.update_of_ne]

end

section

variable (apart : plan.Apart) (fits : Fits plan node.id spec)

include apart fits

/-- The facts once the VM's pair is joined to the bridge of its VPC. -/
abbrev joinedTo (spec : VmSpec) : Nat → Option Str → Facts :=
  joined spec.vmId (Bridge.nameFor spec.nodeId spec.vpcId)

abbrev wiredTo (spec : VmSpec) : Nat → Option Str → Facts :=
  wired spec.vmId (Bridge.nameFor spec.nodeId spec.vpcId)

theorem owned_joinedTo (p : Nat) (up : Option Str) :
    Owned plan node.id spec.vmId (joinedTo spec p up) := by
  rw [joinedTo, fits.node_]
  exact owned_joined apart fits.vm spec.vpcId p up

theorem owned_wiredTo (p : Nat) (up : Option Str) :
    Owned plan node.id spec.vmId (wiredTo spec p up) := by
  rw [wiredTo, fits.node_]
  exact owned_wired apart fits.vm spec.vpcId p up

omit apart in
theorem goes_up (F : Nat → Option Str → Facts)
    (owned : ∀ p up, Owned plan node.id spec.vmId (F p up)) (key : LinkKey) :
    Goes plan env i node spec (net (.setUp key)) (Stage spec True F) (Stage spec True F) :=
  Goes.only fits owned (mild_plain F (.setUp key) trivial)

theorem goes_wireVeth : Goes plan env i node spec
    (VmUp.wireVeth spec (VmUp.nsName spec.vmId) (VmUp.hostVeth spec.vmId) (VmUp.nsVeth spec.vmId))
    (Stage spec True nothing) (Stage spec True (joinedTo spec)) := by
  apply Goes.bind (B := Stage spec True fun p _ => paired spec.vmId p)
  · apply Goes.net fits .pair (by rintro ⟨⟩) owned_nothing
    exact fun p up m a m' has step => ⟨m.pairs, none, has_addVeth step has⟩
  intro _
  apply Goes.bind (B := Stage spec True fun p _ => placed spec.vmId p)
  · apply Goes.net fits .place (by rintro ⟨⟩) fun p _ => owned_paired apart fits.vm p
    exact fun p up m a m' has step => ⟨p, up, has_setNetns step has (paired_ns spec.vmId p)⟩
  intro _
  apply Goes.bind (B := Stage spec True (joinedTo spec))
  · apply Goes.net fits .join (by rintro ⟨⟩) fun p _ => owned_placed apart fits.vm p
    intro p _ m a m' has step
    obtain ⟨⟨kind, old, -, ports⟩, ⟨up, bridge⟩, -⟩ := setMaster_port step
    have now := has_setMaster step has (placed_host spec.vmId p)
    refine ⟨p, up, has_update ?_ fun k y _ known => now k y known⟩
    rintro y ⟨⟩
    rw [ports, if_neg, bridge]
    intro same
    have head := congrArg List.head? (Prod.mk.inj same).2
    cases head
  · exact fun _ => goes_up fits _ (owned_joinedTo apart fits) _

theorem goes_wireTap : Goes plan env i node spec
    (VmUp.wireTap (VmUp.nsName spec.vmId) (VmUp.nsVeth spec.vmId))
    (Stage spec True (joinedTo spec)) (Stage spec True (wiredTo spec)) := by
  have br (p : Nat) (up : Option Str) : Owned plan node.id spec.vmId
      (bridged spec.vmId (Bridge.nameFor spec.nodeId spec.vpcId) p up) := by
    rw [fits.node_]
    exact owned_bridged apart fits.vm spec.vpcId p up
  have at_ (p : Nat) (up : Option Str) : Owned plan node.id spec.vmId
      (attached spec.vmId (Bridge.nameFor spec.nodeId spec.vpcId) p up) := by
    rw [fits.node_]
    exact owned_attached apart fits.vm spec.vpcId p up
  have tap (p : Nat) (up : Option Str) : Owned plan node.id spec.vmId
      (tapped spec.vmId (Bridge.nameFor spec.nodeId spec.vpcId) p up) := by
    rw [fits.node_]
    exact owned_tapped apart fits.vm spec.vpcId p up
  -- the bridge in the namespace, and then its two ports, the veth and the tap
  apply Goes.bind (B := Stage spec True (bridged spec.vmId (Bridge.nameFor spec.nodeId spec.vpcId)))
  · apply Goes.bind (B := Stage spec True
      (bridged spec.vmId (Bridge.nameFor spec.nodeId spec.vpcId)))
    · apply Goes.net fits (.inner _ _ (by decide)) (by rintro ⟨⟩) (owned_joinedTo apart fits)
      exact fun p up m a m' has step => ⟨p, up, has_add step has⟩
    · exact fun _ => goes_up fits _ br _
  intro _
  apply Goes.bind (B := Stage spec True
    (attached spec.vmId (Bridge.nameFor spec.nodeId spec.vpcId)))
  · apply Goes.bind (B := Stage spec True
      (attached spec.vmId (Bridge.nameFor spec.nodeId spec.vpcId)))
    · apply Goes.net fits .attachVeth (by rintro ⟨⟩) br
      exact fun p up m a m' has step => ⟨p, up, has_setMaster step has (bridged_ns ..)⟩
    · exact fun _ => goes_up fits _ at_ _
  intro _
  apply Goes.bind (B := Stage spec True (tapped spec.vmId (Bridge.nameFor spec.nodeId spec.vpcId)))
  · apply Goes.net fits (.inner _ _ (by decide)) (by rintro ⟨⟩) at_
    exact fun p up m a m' has step => ⟨p, up, has_add step has⟩
  intro _
  apply Goes.bind (B := Stage spec True (wiredTo spec))
  · apply Goes.net fits .attachTap (by rintro ⟨⟩) tap
    exact fun p up m a m' has step => ⟨p, up, has_setMaster step has (tapped_tap ..)⟩
  · exact fun _ => goes_up fits _ (owned_wiredTo apart fits) _

/-- The public network takes none of the VPC's links. -/
theorem goes_wirePublic : Goes plan env i node spec (VmUp.wirePublic spec (VmUp.nsName spec.vmId))
    (Stage spec True (wiredTo spec)) (Stage spec True (wiredTo spec)) := by
  -- names that begin with a p are none of those on the way to the VPC
  have outside (name : Str) (head : name.head? = some 'p') (p : Nat) (up : Option Str) :
      wiredTo spec p up (none, name) = none := by
    apply wired_off
    · intro _ same
      cases (Prod.mk.inj same).1
    · intro same
      rw [(Prod.mk.inj same).2] at head
      cases head
    · intro same
      rw [(Prod.mk.inj same).2] at head
      cases head
    · intro same
      rw [(Prod.mk.inj same).2] at head
      cases head
  have inside (name : Str) (tap : name ≠ "tap0") (nbr : name ≠ "nbr0") (veth :
      name ≠ VmUp.nsVeth spec.vmId)
    (p : Nat)
      (up : Option Str) : wiredTo spec p up (some (VmUp.nsName spec.vmId), name) = none := by
    apply wired_off
    · rintro _ ⟨⟩
      exact ⟨tap, nbr, veth⟩
    · rintro ⟨⟩
    · rintro ⟨⟩
    · rintro ⟨⟩
  have veth : VmUp.pubNsVeth spec.vmId ≠ VmUp.nsVeth spec.vmId := by
    intro same
    have head := congrArg List.head? same
    cases head
  have plain {c : NetCmd} (wires : VmUp.Wires spec c) (plain : c.Plain) :
      Only (Mild spec (wiredTo spec))
    (net c) :=
    mild_plain _ wires plain
  have up (key : LinkKey) : Only (Mild spec (wiredTo spec)) (net (.setUp key)) :=
    plain (.setUp key) trivial
  have makes (name : Str) (kind : Kind) (listed : (name, kind) ∈ VmUp.inner) :
      Only (Mild spec (wiredTo spec)) (net (.add (some (VmUp.nsName spec.vmId), name) kind)) :=
    mild_net _ (.inner name kind listed) (by rintro ⟨⟩) (by rintro p up k ⟨⟩)
  -- so what is wired for the public address passes the rest by
  apply Goes.only fits (owned_wiredTo apart fits)
  apply Only.bind (mild_net _ .publicPair (by rintro ⟨⟩) (by rintro p up k ⟨⟩))
  intro _
  apply Only.bind (mild_net _ .publicPlace (by rintro ⟨⟩)
    (by rintro p up k ⟨⟩; exact outside _ rfl p up))
  intro _
  apply Only.bind (mild_net _ .publicJoin (by rintro ⟨⟩)
    (by rintro p up k ⟨⟩; exact outside _ rfl p up))
  intro _
  apply Only.bind (up _)
  intro _
  apply Only.bind (.bind (makes "pbr1" .bridge (by decide)) fun _ => up _)
  intro _
  apply Only.bind
  · apply Only.bind (mild_net _ .attachPublicVeth (by rintro ⟨⟩) _) fun _ => up _
    rintro p up k ⟨⟩
    apply inside
    · intro same
      have head := congrArg List.head? same
      cases head
    · intro same
      have head := congrArg List.head? same
      cases head
    · exact veth
  intro _
  apply Only.bind (makes "tap1" .tap (by decide))
  intro _
  apply Only.bind (mild_net _ .attachPublicTap (by rintro ⟨⟩) _) fun _ => up _
  rintro p up k ⟨⟩
  apply inside
  · decide
  · decide
  · intro same
    have head := congrArg List.head? same
    cases head

/-- A bring-up that returns has wired the VM. -/
theorem goes_run : Goes plan env i node spec (VmUp.run spec) (Stage spec False nothing)
    (Stage spec True (wiredTo spec)) := by
  -- files and processes are no devices: only the network takes the VM from one stage to the next
  have files : Goes plan env i node spec (do
      EnvSetup.run spec.vmId spec.kernel spec.sshKey spec.vg spec.rootfsOrigin
      Inject.run spec.vmId spec.sshPubkey spec.dns spec.dataVolumePath.isSome spec.publicIp
      whenSome spec.dataVolumePath fun path => Attach.run spec.vmId path) (Stage spec False nothing)
      (Stage spec False nothing) := Goes.only fits owned_nothing (mild_files nothing)
  have spawn : Goes plan env i node spec (VmUp.spawn spec) (Stage spec True (wiredTo spec))
      (Stage spec True (wiredTo spec)) := Goes.only fits (owned_wiredTo apart fits) (mild_spawn _)
  have network : Goes plan env i node spec (VmUp.network spec) (Stage spec False nothing)
      (Stage spec True (wiredTo spec)) := by
    apply Goes.bind (Goes.only fits owned_nothing (.fromExcept _))
    intro gw
    apply Goes.bind (Goes.only fits owned_nothing (mild_bridge nothing gw))
    intro _
    apply Goes.bind (goes_overlay apart fits)
    intro _
    apply Goes.bind (Goes.only fits owned_nothing (mild_nat nothing _))
    intro _
    apply Goes.bind (Goes.only fits owned_nothing
      (mild_net nothing .netns (by rintro ⟨⟩) (by rintro p up k ⟨⟩)))
    intro _
    apply Goes.bind (goes_wireVeth apart fits)
    intro _
    apply Goes.bind (goes_wireTap apart fits)
    intro _
    cases spec.publicIp with
    | none => exact Goes.only fits (owned_wiredTo apart fits) (.pure _)
    | some public_ => exact goes_wirePublic apart fits
  have split_ : VmUp.run spec = (do
      (do
        EnvSetup.run spec.vmId spec.kernel spec.sshKey spec.vg spec.rootfsOrigin
        Inject.run spec.vmId spec.sshPubkey spec.dns spec.dataVolumePath.isSome spec.publicIp
        whenSome spec.dataVolumePath fun path => Attach.run spec.vmId path)
      VmUp.network spec
      VmUp.spawn spec) := by
    simp only [VmUp.run, LawfulMonad.bind_assoc]
  rw [split_]
  exact files.bind fun _ => network.bind fun _ => spawn

end

end

/-! ## Jobs among others -/

section

variable {plan : Plan} {env : Env} {i : Nat}

/-- What is known of a job once it has returned. -/
structure Finished (i : Nat) (job : Job) (s : Run) : Prop where
  settled : Settled i Idle s
  wired : ∀ node spec, job = .up node spec ∨ job = .rebuild node spec →
    Stage spec True (wiredTo spec) (s.world.hosts node.id).net

theorem Finished.stays (apart : plan.Apart) {job : Job} (planned : job.Planned plan) {s s' : Run}
    (finished : Finished i job s) (relies : Relies plan i (vmOf job) s s') : Finished i job s' := by
  refine ⟨finished.settled.stays relies, fun node spec is => ?_⟩
  have fits : Fits plan node.id spec := by rcases is with rfl | rfl <;> exact planned
  have vm : vmOf job = some spec.vmId := by rcases is with rfl | rfl <;> rfl
  rw [vm] at relies
  exact stable_stage fits (owned_wiredTo apart fits) _ _ (finished.wired node spec is)
    (relies.keeps node.id)

theorem down_fine (node : Node) (v vg : Id) :
    Only (Fine plan node.id (some v) fun _ => True) (node.sh (VmDown.run v vg)) := by
  apply Only.sh node
  apply (VmDown.run_only v vg).mono
  intro c issues
  refine ⟨rfl, ?_⟩
  rintro c' rfl
  exact ⟨careful_down issues, fun _ _ _ _ _ => trivial⟩

theorem overlay_fine (node : Node) : Only (Fine plan node.id none fun _ => True)
    (OverlayPass.reconcile node) := by
  apply (Convergence.overlay_only node).mono
  intro o overlays
  cases overlays with
  | get | getAll => exact trivial
  | net c plain =>
    refine ⟨rfl, ?_⟩
    rintro c' ⟨⟩
    exact ⟨careful_plain plain, fun _ _ _ _ _ => trivial⟩

theorem start_stage {node : Id} {spec : VmSpec} {s : Run} (settled : Settled i Idle s) :
    Here i node Idle (Stage spec False nothing) s :=
  ⟨⟨⟨0, none, by rintro k x ⟨⟩⟩, False.elim⟩, settled⟩

/-- A job that returns has finished, whatever the others do. -/
theorem wires_job (apart : plan.Apart) {job : Job} (planned : job.Planned plan) {s : Run}
    (settled : Settled i Idle s) :
    wp (wiring plan env i (vmOf job)) job.program (fun r s' => ∀ a, r = .ok a →
      Finished i job s') s := by
  have anything (node : Id) : Here i node Idle (fun _ => True) s := ⟨trivial, settled⟩
  cases job with
  | up node spec =>
    apply among_mono _ _ _ _ s (goes_run apart planned s (start_stage settled))
    intro r s' post a answers
    obtain ⟨stage, settled'⟩ := post a answers
    refine ⟨settled', ?_⟩
    rintro node' spec' (is | is) <;> cases is
    exact stage
  | down node v =>
    apply among_mono _ _ _ _ s (reads_fine (fun _ _ _ _ => trivial) (down_fine node v _)
      (anything node.id))
    intro r s' here a answers
    refine ⟨here.settled, ?_⟩
    rintro node' spec' (is | is) <;> cases is
  -- of the take-down nothing is needed but that it leaves the rest of the tenants apart
  | rebuild node spec =>
    rw [Job.program, wp_bind]
    apply among_mono _ _ _ _ s (reads_fine (fun _ _ _ _ => trivial) (down_fine node spec.vmId _)
      (anything node.id))
    rintro (e | _) s₁ here
    · rintro a ⟨⟩
    rw [onValue_ok]
    apply among_mono _ _ _ _ s₁ (goes_run apart planned s₁ (start_stage here.settled))
    intro r s' post a answers
    obtain ⟨stage, settled'⟩ := post a answers
    refine ⟨settled', ?_⟩
    rintro node' spec' (is | is) <;> cases is
    exact stage
  | overlay node =>
    have fine : Only (Fine plan node.id none fun _ => True) (Job.overlay node).program :=
      .bind (overlay_fine node) fun _ => .pure _
    apply among_mono _ _ _ _ s (reads_fine (fun _ _ _ _ => trivial) fine (anything node.id))
    intro r s' here a answers
    refine ⟨here.settled, ?_⟩
    rintro node' spec' (is | is) <;> cases is

/-- The VM that thread `i` is about. -/
def vmAt (jobs : List Job) (i : Nat) : Option Id := jobs[i]?.bind vmOf

/-- No two jobs are about one VM. -/
def OneEach (jobs : List Job) : Prop :=
  jobs.Pairwise fun a b => ∀ v, vmOf a = some v → vmOf b ≠ some v

theorem OneEach.apart {jobs : List Job} (each : OneEach jobs) {i j : Nat} (differ : i ≠ j) {v : Id}
    (first : vmAt jobs i = some v) : vmAt jobs j ≠ some v := by
  intro second
  obtain ⟨a, here, is⟩ := Option.bind_eq_some_iff.mp first
  obtain ⟨b, there, is'⟩ := Option.bind_eq_some_iff.mp second
  obtain ⟨below, rfl⟩ := List.getElem?_eq_some_iff.mp here
  obtain ⟨below', rfl⟩ := List.getElem?_eq_some_iff.mp there
  rcases Nat.lt_or_gt_of_ne differ with less | greater
  · exact List.pairwise_iff_getElem.mp each i j below below' less v is is'
  · exact List.pairwise_iff_getElem.mp each j i below' below greater v is' is

/-- A job about a VM of the plan. -/
structure Proper (plan : Plan) (job : Job) : Prop where
  planned : job.Planned plan
  known : ∀ v, vmOf job = some v → plan.vms v

/-- Wherever a run of jobs has come, what has returned has finished. -/
theorem finished_reached (apart : plan.Apart) {jobs : List Job}
    (proper : ∀ job ∈ jobs, Proper plan job) (each : OneEach jobs) {start : World}
    (bare : ∀ n, Bare plan n (start.hosts n)) {c : Config Op Op.Res Exn Unit World}
    (reached : Reachable (exec env) anyStep ⟨⟨start, []⟩, jobs.map Job.program⟩ c) :
    Tunnels plan c.shared ∧ ∀ i job, jobs[i]? = some job → c.threads[i]? = some (.ret ()) →
      Finished i job c.shared := by
  have tunnels : Tunnels plan ⟨start, []⟩ := by
    intro n u known kind m there
    exact absurd (.root .vxlan u known) (((bare n).names _ _ there).1 _)
  have holds := Reachable.holds (fun s => TenantsApart plan s.world ∧ Tunnels plan s)
    (fun i s s' => Grows s s' ∧ Relies plan i (vmAt jobs i) s s')
    (fun i s s' => Grows s s' ∧ Spares i (vmAt jobs i) s s')
    (fun i r s => True ∧ ∀ a job, jobs[i]? = some job → r = .ok a → Finished i job s)
    (fun _ s => ⟨fun _ => .refl _, .refl s⟩)
    (fun _ _ _ _ first second => ⟨fun n => (first.1 n).trans (second.1 n), first.2.trans second.2⟩)
    ?_ ⟨tenantsApart_of_bare bare, tunnels⟩ ?_ reached
  · obtain ⟨⟨-, now⟩, threads⟩ := holds
    refine ⟨now, fun i job is returned => ?_⟩
    obtain ⟨s, relies, -, post⟩ := threads i _ returned
    have proper := proper job (List.mem_of_getElem? is)
    have vm : vmAt jobs i = vmOf job := by rw [vmAt, is, Option.bind_some]
    rw [vm] at relies
    exact (post () job is rfl).stays apart proper.planned relies.2
  · -- jobs about different VMs spare each other
    intro i j s s' differ _ _ spares
    refine ⟨spares.1, relies_of_spares ?_ ?_ differ spares.2⟩
    · intro w is
      obtain ⟨job, there, vm⟩ := Option.bind_eq_some_iff.mp is
      exact (proper job (List.mem_of_getElem? there)).known w vm
    · exact fun w is => each.apart (Ne.symm differ) is
  · intro i p there
    rw [List.getElem?_map, Option.map_eq_some_iff] at there
    obtain ⟨job, found, rfl⟩ := there
    have planned := (proper job (List.mem_of_getElem? found)).planned
    have settled : Settled i Idle ⟨start, []⟩ := by rintro e ⟨⟩
    have vm : vmAt jobs i = vmOf job := by rw [vmAt, found, Option.bind_some]
    have wires : wp (wiring plan env i (vmOf job)) job.program
        (fun r s' => ∀ a, r = .ok a → Finished i job s') ⟨start,
          []⟩ := wires_job apart planned settled
    rw [← vm] at wires
    apply among_mono _ _ _ _ _ (among_and (reads_job apart i planned _) wires)
    rintro r s ⟨-, post⟩
    refine ⟨trivial, fun a job' is answers => ?_⟩
    rw [found] at is
    cases is
    exact post a answers

end

/-! ## From interface to interface -/

section

variable (v : Id) (br : Str) (p : Nat) (up : Option Str)

theorem inside_ne {ns name name' : Str} (differ : name ≠ name') : ((some ns, name) : LinkKey) ≠
    (some ns, name') :=
  fun same => differ (Prod.mk.inj same).2

theorem nbr_ne_tap : ("nbr0" : Str) ≠ "tap0" := by decide

theorem ns_ne {name : Str} (head : name.head? ≠ some 'v') : VmUp.nsVeth v ≠ name := by
  rintro rfl
  exact head rfl

theorem wired_tap : wired v br p up (some (VmUp.nsName v), ("tap0" : Str)) = some
    (Kind.tap, some ("nbr0" : Str)) :=
  Function.update_self ..

theorem wired_nbr :
    wired v br p up (some (VmUp.nsName v), ("nbr0" : Str)) = some (Kind.bridge, none) := by
  rw [wired, Function.update_of_ne (inside_ne nbr_ne_tap), tapped, Function.update_of_ne
    (inside_ne nbr_ne_tap),
    attached, Function.update_of_ne (inside_ne (ns_ne v (by decide)).symm), bridged,
      Function.update_self]

theorem wired_ns :
    wired v br p up (some (VmUp.nsName v), VmUp.nsVeth v) =
      some (Kind.veth p, some ("nbr0" : Str)) := by
  have other : VmUp.nsVeth v ≠ "tap0" := ns_ne v (by decide)
  rw [wired, Function.update_of_ne (inside_ne other), tapped, Function.update_of_ne
    (inside_ne other), attached,
    Function.update_self]

/-- In the root namespace there are the pair's other end and the bridge. -/
theorem wired_outside (name : Str) :
    wired v br p up (none, name) = joined v br p up (none, name) := by
  rw [wired, Function.update_of_ne (fun same => by cases same), tapped,
    Function.update_of_ne (fun same => by cases same), attached, Function.update_of_ne
      (fun same => by cases same),
    bridged, Function.update_of_ne (fun same => by cases same)]

theorem wired_br : wired v br p up (none, br) = some (.bridge, up) := by
  rw [wired_outside, joined, Function.update_self]

theorem wired_host (differ : VmUp.hostVeth v ≠ br) :
    wired v br p up (none, VmUp.hostVeth v) = some (.veth p, some br) := by
  have other : ((none, VmUp.hostVeth v) : LinkKey) ≠ (none, br) :=
    fun same => differ (Prod.mk.inj same).2
  rw [wired_outside, joined, Function.update_of_ne other, Function.update_self]

end

/-! ## The way of a frame -/

/-- On a host frames pass from a port to its bridge, and between the ends of a pair. -/
inductive Segment (w : World) : Port → Port → Prop where
  | bridge {n : Id} {k : LinkKey} {kind : Kind} {br : Str} {up : Option Str}
    (port : (w.hosts n).net.portAt k = some (kind, some br))
    (there : (w.hosts n).net.portAt (k.1, br) = some (.bridge, up)) :
      Segment w (n, k) (n, (k.1, br))
  | veth {n : Id} {k k' : LinkKey} {p : Nat} {m m' : Option Str}
    (end_ : (w.hosts n).net.portAt k = some (.veth p, m))
    (end' : (w.hosts n).net.portAt k' = some (.veth p, m')) : Segment w (n, k) (n, k')

/-- Any number of segments, either way. -/
def Bridged (w : World) : Port → Port → Prop := Relation.EqvGen (Segment w)

/-- Between hosts frames pass from a VXLAN device to one of the same number, where each floods to
the other's address. -/
inductive Tunnel (w : World) : Port → Port → Prop where
  | vxlan {n n' : Id} {k k' : LinkKey} {l l' : Link} {vni : Nat} {ip ip' : Str}
    (here : (w.hosts n).net.links.lookup k = some l) (kind : l.kind = .vxlan vni ip)
    (there : (w.hosts n').net.links.lookup k' = some l') (kind' : l'.kind = .vxlan vni ip')
    (out : (Vxlan.ALL_ZEROS, ip') ∈ l.fdb) (back : (Vxlan.ALL_ZEROS, ip) ∈ l'.fdb) :
    Tunnel w (n, k) (n', k')

/-- There is a way for frames. What has come out of a tunnel is sent into no other one. -/
inductive Reaches (w : World) (a b : Port) : Prop where
  | near (way : Bridged w a b)
  | far {d d' : Port} (out : Bridged w a d) (tunnel : Tunnel w d d') (in_ : Bridged w d' b)

section

variable {w : World}

theorem Bridged.connected {a b : Port} (bridged : Bridged w a b) : Connected w a b := by
  induction bridged with
  | rel a b segment =>
    cases segment with
    | bridge port there => exact .rel _ _ (.bridge port there)
    | veth end_ end' => exact .rel _ _ (.veth end_ end')
  | refl a => exact .refl a
  | symm a b _ ih => exact .symm _ _ ih
  | trans a b c _ _ first second => exact .trans _ _ _ first second

/-- The ways of frames are connections. -/
theorem Reaches.connected {a b : Port} (reaches : Reaches w a b) : Connected w a b := by
  cases reaches with
  | near way => exact way.connected
  | far out tunnel in_ =>
    cases tunnel with
    | vxlan here kind there kind' _ _ =>
      have across : Connected w _ _ := .rel _ _ (.vxlan (Net.portAt_some.mpr ⟨_, here, kind, rfl⟩)
        (Net.portAt_some.mpr ⟨_, there, kind', rfl⟩))
      exact .trans _ _ _ out.connected (.trans _ _ _ across in_.connected)

end

section

variable {w : World} {n v u : Id} {p : Nat} {up : Option Str}

/-- From the VM's `eth0` to the bridge of its VPC. -/
theorem wired_bridged (has : (w.hosts n).net.Has (wired v (Bridge.nameFor n u) p up)) :
    Bridged w (n, eth0 v) (n, (none, Bridge.nameFor n u)) := by
  have differ : VmUp.hostVeth v ≠ Bridge.nameFor n u := by
    intro same
    have head := congrArg List.head? same
    cases head
  have tap := has _ _ (wired_tap v _ p up)
  have nbr := has _ _ (wired_nbr v _ p up)
  have ns := has _ _ (wired_ns v _ p up)
  have host := has _ _ (wired_host v _ p up differ)
  have br := has _ _ (wired_br v _ p up)
  have inner : Bridged w (n, eth0 v) (n, (some (VmUp.nsName v), ("nbr0" : Str))) :=
    .rel _ _ (.bridge tap nbr)
  have pair : Bridged w (n, (some (VmUp.nsName v), ("nbr0" : Str))) (n, (none, VmUp.hostVeth v)) :=
    .trans _ _ _ (.symm _ _ (.rel _ _ (.bridge ns nbr))) (.rel _ _ (.veth ns host))
  exact .trans _ _ _ inner (.trans _ _ _ pair (.rel _ _ (.bridge host br)))

/-- From the bridge of a VPC to its VXLAN device. -/
theorem joined_bridged (joined : Joined n u (w.hosts n).net)
    (bridge : ∃ up, (w.hosts n).net.portAt (none, Bridge.nameFor n u) = some (.bridge, up)) :
    Bridged w (n, (none, Bridge.nameFor n u)) (n, (none, Vxlan.nameFor n u)) := by
  obtain ⟨kind, port⟩ := joined
  obtain ⟨up, there⟩ := bridge
  exact .symm _ _ (.rel _ _ (.bridge port there))

end

/-- The VM was brought up on the node, and the bring-up has returned. -/
def Brought (jobs : List Job) (c : Config Op Op.Res Exn Unit World) (node : Node) (spec : VmSpec) :
    Prop :=
  ∃ i : Nat, (jobs[i]? = some (Job.up node spec) ∨ jobs[i]? = some (Job.rebuild node spec)) ∧
    c.threads[i]? = some (.ret ())

/-- Every job has returned. -/
def Done (jobs : List Job) (c : Config Op Op.Res Exn Unit World) : Prop :=
  ∀ i : Nat, i < jobs.length → c.threads[i]? = some (.ret ())

/-- The tunnel of a VPC is joined once whoever has made it has returned. -/
theorem tunnel_joined {plan : Plan} {env : Env} {jobs : List Job} {start : World}
    {c : Config Op Op.Res Exn Unit World} (tunnels : Tunnels plan c.shared)
    (finished : ∀ i job, jobs[i]? = some job → c.threads[i]? = some (.ret ()) →
      Finished i job c.shared)
    (reached : Reachable (exec env) anyStep ⟨⟨start, []⟩, jobs.map Job.program⟩ c)
      (done : Done jobs c)
      {n u : Id}
    (known : plan.vpcs u) (dug : ∃ x, (c.shared.world.hosts n).net.portAt
      (none, Vxlan.nameFor n u) = some x) :
    Joined n u (c.shared.world.hosts n).net ∧
      ∃ ip m, (c.shared.world.hosts n).net.portAt (none, Vxlan.nameFor n u) =
        some (.vxlan (Overlay.vniFor u) ip, m) := by
  obtain ⟨⟨kind, m⟩, found⟩ := dug
  obtain ⟨⟨ip, rfl⟩, e, there, makes⟩ := tunnels n u known kind m found
  have below := (reached.thread_lt rfl).2 e there
  rw [List.length_map] at below
  have is : jobs[e.thread]? = some jobs[e.thread] := List.getElem?_eq_getElem below
  rcases (finished e.thread _ is (done _ below)).settled e there rfl n u makes with idle | joined
  · exact idle.elim
  · exact ⟨joined, ip, m, found⟩

/-- The VXLAN devices of a VPC that has VMs of both nodes flood to each other. -/
theorem tunnel_reached {plan : Plan} {db : Db} {c : Config Op Op.Res Exn Unit World}
    {node node' : Node} {u : Id} (known : plan.vpcs u) (listed : Underlay.Listed plan db c.shared)
    (port : ∃ ip m, (c.shared.world.hosts node.id).net.portAt (none, Vxlan.nameFor node.id u) =
      some (.vxlan (Overlay.vniFor u) ip, m))
    (port' : ∃ ip m, (c.shared.world.hosts node'.id).net.portAt (none, Vxlan.nameFor node'.id u) =
      some (.vxlan (Overlay.vniFor u) ip, m))
    (floods : Underlay.Floods c.shared.world node.id u (hostOf node' db))
    (floods' : Underlay.Floods c.shared.world node'.id u (hostOf node db)) :
    Tunnel c.shared.world (node.id, (none, Vxlan.nameFor node.id u))
      (node'.id, (none, Vxlan.nameFor node'.id u)) := by
  -- the device floods to the other's address, and has its own
  have device (node : Node) (dst : Str)
      (port : ∃ ip m, (c.shared.world.hosts node.id).net.portAt (none, Vxlan.nameFor node.id u) =
        some (.vxlan (Overlay.vniFor u) ip, m))
      (floods : Underlay.Floods c.shared.world node.id u dst) :
      ∃ l, (c.shared.world.hosts node.id).net.links.lookup
        (none, Vxlan.nameFor node.id u) = some l ∧
        l.kind = .vxlan (Overlay.vniFor u) (hostOf node db) ∧ (Vxlan.ALL_ZEROS, dst) ∈ l.fdb := by
    obtain ⟨l, there, inside⟩ := floods
    obtain ⟨ip, m, port⟩ := port
    obtain ⟨l', there', kind, -⟩ := Net.portAt_some.mp port
    rw [there] at there'
    cases there'
    obtain ⟨vni, kind'⟩ := (listed.devices node u known l there).kind
    rw [kind] at kind'
    cases kind'
    exact ⟨l, there, kind, inside⟩
  obtain ⟨l, here, kind, out⟩ := device node _ port floods
  obtain ⟨l', there, kind', back⟩ := device node' _ port' floods'
  exact .vxlan here kind there kind' out back

def family : Plan where
  vms v := v = "v1" ∨ v = "v2"
  vpcs u := u = "a1b2c3d4"
  vpcOf _ := "a1b2c3d4"
  publicBridge _ := "pub0"

theorem family_apart : family.Apart := by
  constructor
  · exact fun _ _ => rfl
  · rintro _ _ rfl rfl _
    rfl
  · rintro _ _ rfl rfl _
    rfl
  · rintro _ _ (rfl | rfl) (rfl | rfl) same
    · rfl
    · exact absurd same (by decide)
    · exact absurd same (by decide)
    · rfl
  · intro _ begins
    have other : ¬ "br-" <+: ("pub0" : Str) := by decide
    exact other begins

def west : Node := ⟨"0a1b2c3d", Sample.config⟩

def east : Node := ⟨"4e5f6a7b", Sample.config⟩

def member (v node host peer : Str) : VmSpec :=
  { sampleSpec with
    vmId := v, nodeId := node, vpcId := "a1b2c3d4", vg := "nyc-n1", nodeHost := host,
      peerHosts := [peer] }

def first : VmSpec := member "v1" "0a1b2c3d" "10.0.0.1" "10.0.0.2"

def second : VmSpec := member "v2" "4e5f6a7b" "10.0.0.2" "10.0.0.1"

def moves : List Job := [.up west first, .up east second]

theorem moves_proper : ∀ job ∈ moves, Proper family job := by
  intro job there
  rcases List.mem_pair.mp there with rfl | rfl
  · refine ⟨⟨.inl rfl, rfl, rfl, rfl⟩, ?_⟩
    rintro v ⟨⟩
    exact .inl rfl
  · refine ⟨⟨.inr rfl, rfl, rfl, rfl⟩, ?_⟩
    rintro v ⟨⟩
    exact .inr rfl

theorem moves_each : OneEach moves := by
  apply List.Pairwise.cons
  · intro b there v is
    cases List.mem_singleton.mp there
    cases is
    exact fun same => absurd (Option.some.inj same) (by decide)
  · exact List.pairwise_singleton ..

/-- The two nodes of the registry. -/
def bothNodes : List NodeRow := [⟨"0a1b2c3d", "10.0.0.1", 8000⟩, ⟨"4e5f6a7b", "10.0.0.2", 8000⟩]

theorem bothNodes_distinct : bothNodes.Pairwise fun a b => ¬ Clash Tbl.nodes.unique a b := by
  decide

/-- Every host has the golden root image and the public bridge, and the registry has both nodes. -/
def hosts : World :=
  { Sample.fresh with
    db := Function.update Db.empty .nodes ⟨bothNodes, bothNodes_distinct⟩
    hosts := fun _ => Sample.host }

theorem hosts_registry : Registry family hosts.db moves := by
  constructor
  · intro job there
    rcases List.mem_pair.mp there with rfl | rfl
    · exact ⟨⟨by decide, by decide⟩, by decide⟩
    · exact ⟨⟨by decide, by decide⟩, by decide⟩
  · rintro _ rfl
    decide
  · intro row there
    rcases List.mem_pair.mp there with rfl | rfl
    · exact .inr ⟨0x0a000001, by decide, by decide⟩
    · exact .inr ⟨0x0a000002, by decide, by decide⟩

def returned : Program Op Op.Res Exn Unit → Bool
  | .ret _ => true
  | _ => false

theorem of_returned {p : Program Op Op.Res Exn Unit} (is : returned p = true) : p = .ret () := by
  cases p with
  | ret a => rfl
  | raise e => cases is
  | op o k => cases is

/-- Both bring-ups have returned. -/
def Both (c : Config Op Op.Res Exn Unit World) : Prop := ∀ i < 2, c.threads[i]?.any returned = true

instance : DecidablePred Both := fun c => inferInstanceAs
    (Decidable (∀ i < 2, c.threads[i]?.any returned = true))

theorem Both.done {c : Config Op Op.Res Exn Unit World} (both : Both c) : Done moves c := by
  intro i below
  obtain ⟨p, is, done⟩ := (Option.any_eq_true _ _).mp (both i below)
  rw [is, of_returned done]

theorem both_reached :
    ∃ c, Reachable (exec Sample.env) anyStep ⟨⟨hosts, []⟩, moves.map Job.program⟩ c ∧ Both c :=
  Config.exists_of_follow (exec Sample.env) anyStep _ ((List.range 52).flatMap fun _ => [0, 1]) _
    (by decide +kernel)

end Nyc.Connectivity
