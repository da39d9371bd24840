import Nyc.Cluster
import Nyc.Hosts
import Nyc.Properties.Refusals
import Nyc.Properties.Underlay

/-!
# Flood domains

A bring-up on a node that has a peer leaves a VXLAN device for its VPC, which no request takes
away. A pass over each node then lists the peers on the devices of all VPCs that have a VM there.
A bring-up that sees no peer leaves no device, and no pass makes one.
-/

namespace Nyc.FloodDomains

open Data Effects Effects.Program Client
open Convergence (hostOf peersOf vpcIds)
open FloodList (HexId V4)
open Underlay (Heeds Informed forwards link_stays link_was)

/-! ## Devices -/

/-- What a device of this name may be: the VXLAN device of one of the VPCs with that name. -/
def OfVpc (known : Id → Prop) (n u : Id) (kind : Kind) : Prop :=
  ∃ u', known u' ∧ Vxlan.nameFor n u' = Vxlan.nameFor n u ∧
    ∃ ip, kind = .vxlan (Overlay.vniFor u') ip

/-- The devices that are named for VPCs are VXLAN devices, and hold forwarding tables. -/
def Tunnels (known : Id → Prop) (n : Id) (net : Net) : Prop :=
  ∀ u l, net.links.lookup (none, Vxlan.nameFor n u) = some l →
    OfVpc known n u l.kind ∧ FloodList.Table l.fdb

/-- The VPC has a VXLAN device for this identifier. -/
def Present (n u : Id) (vni : Nat) (net : Net) : Prop :=
  ∃ l ip, net.links.lookup (none, Vxlan.nameFor n u) = some l ∧ l.kind = .vxlan vni ip

/-- The command removes and moves no device of a VPC. -/
def SparesDevices : Cmd → Prop
  | .net (.del name) | .net (.setNetns name _) => name[2]? ≠ some '-'
  | _ => True

/-- Nor does it put anything else in the place of one, or anything but an address on its list. -/
def Tends (known : Id → Prop) (n : Id) : NetCmd → Prop
  | .del name | .setNetns name _ => ∀ u, name ≠ Vxlan.nameFor n u
  | .add key kind => ∀ u, key = (none, Vxlan.nameFor n u) → OfVpc known n u kind
  | .addVeth first second => ∀ u, Vxlan.nameFor n u ≠ first ∧ Vxlan.nameFor n u ≠ second
  | .fdbAppend _ mac dst => FloodList.Entry (mac, dst)
  | _ => True

section Devices

variable {known : Id → Prop} {n u : Id} {vni : Nat} {net net' : Net} {c : NetCmd} {a : c.Res}

theorem present_step (spares : SparesDevices (.net c)) (step : c.step net = some (a, net'))
    (present : Present n u vni net) : Present n u vni net' := by
  obtain ⟨l, ip, there, kind⟩ := present
  have third : (Vxlan.nameFor n u)[2]? = some '-' := rfl
  have kept : c ≠ .del (Vxlan.nameFor n u) := by
    rintro rfl
    exact spares third
  have placed (ns : Str) : c ≠ .setNetns (Vxlan.nameFor n u) ns := by
    rintro rfl
    exact spares third
  obtain ⟨l', there', kind', -⟩ := link_stays step there (by rw [kind]; rfl) kept placed
  exact ⟨l', ip, there', kind'.trans kind⟩

/-- The kernel lists no entry twice. -/
theorem append_new {dev mac dst : Str} {a : Unit} {l : Link}
    (step : NetCmd.step (.fdbAppend dev mac dst) net = some (a, net'))
    (there : net.links.lookup (none, dev) = some l) : (mac, dst) ∉ l.fdb := by
  simp only [NetCmd.step, there] at step
  split at step
  next new => exact new
  next => cases step

/-- A device that is tended stays a VXLAN device, and its table one that can be read. -/
theorem tunnels_step (tends : Tends known n c) (step : c.step net = some (a, net'))
    (tunnels : Tunnels known n net) : Tunnels known n net' := by
  intro u l' there'
  -- a device is new, or is what the command has left of an old one
  cases found : net.links.lookup (none, Vxlan.nameFor n u) with
  | none =>
    rcases link_was step found there' with ⟨kind, rfl, rfl⟩ | ⟨first, second, rfl, one⟩
    · exact ⟨tends u rfl, ⟨List.nodup_nil, fun _ inside => absurd inside List.not_mem_nil⟩⟩
    · obtain ⟨other, other'⟩ := tends u
      rcases one with same | same
      · exact absurd same other
      · exact absurd same other'
  | some l =>
    obtain ⟨of, once, entries⟩ := tunnels u l found
    have unpaired : l.kind.pair = none := by
      obtain ⟨_, -, -, ip, kind⟩ := of
      rw [kind]
      rfl
    obtain ⟨l'', there'', kind', fdb⟩ := link_stays step found unpaired
      (by rintro rfl; exact tends u rfl) (by rintro ns rfl; exact tends u rfl)
    obtain rfl : l'' = l' := Option.some.inj (there''.symm.trans there')
    refine ⟨kind'.symm ▸ of, ?_⟩
    rw [fdb]
    cases c with
    | fdbAppend dev mac dst =>
      rw [forwards]
      split
      next same =>
        subst same
        refine ⟨once.append (List.nodup_singleton _) ?_, fun e inside => ?_⟩
        · rw [List.disjoint_singleton]
          exact append_new step found
        · rcases List.mem_append.mp inside with before | new
          · exact entries e before
          · rw [List.mem_singleton.mp new]
            exact tends
      next => exact ⟨once, entries⟩
    | fdbDel dev mac dst =>
      rw [forwards]
      split
      · exact ⟨once.erase _, fun e inside => entries e (List.mem_of_mem_erase inside)⟩
      · exact ⟨once, entries⟩
    | _ => exact ⟨once, entries⟩

end Devices

/-- What a command that tends the devices leaves of them. -/
structure Tended (known : Id → Prop) (n : Id) (net net' : Net) : Prop where
  tunnels : Tunnels known n net → Tunnels known n net'
  present : ∀ u vni, Present n u vni net → Present n u vni net'

theorem Tended.refl (known : Id → Prop) (n : Id) (net : Net) : Tended known n net net :=
  ⟨id, fun _ _ present => present⟩

theorem Tended.trans {known : Id → Prop} {n : Id} {net net' net'' : Net}
    (first : Tended known n net net') (second : Tended known n net' net'') :
    Tended known n net net'' where
  tunnels old := second.tunnels (first.tunnels old)
  present u vni old := second.present u vni (first.present u vni old)

/-- The command tends the devices. -/
structure Tending (known : Id → Prop) (n : Id) (c : Cmd) : Prop where
  spares : SparesDevices c
  tends : ∀ c', c = .net c' → Tends known n c'

theorem tended_exec {known : Id → Prop} {n : Id} (x : Chance) {c : Cmd}
    (tending : Tending known n c) (h : Host) : Tended known n h.net (h.exec x c).2.net := by
  constructor
  · intro tunnels
    apply exec_net_keeps x c h _ tunnels
    rintro c' rfl a net' step
    exact tunnels_step (tending.tends c' rfl) step tunnels
  · intro u vni present
    apply exec_net_keeps x c h _ present
    rintro c' rfl a net' step
    exact present_step tending.spares step present

/-! ## The commands of a bring-up -/

section Up

variable {known : Id → Prop} {db : Db} {node : Node} {spec : VmSpec}

/-- Who heeds the registry tends the devices, if its peers are addresses and it makes no device. -/
theorem tends_of_heeds (v4 : ∀ dst ∈ peersOf node db, V4 dst) {c : NetCmd}
    (heeds : Heeds db node c) (makes : ∀ key kind, c ≠ .add key kind) :
    Tends known node.id c := by
  cases c with
  | add key kind => exact absurd rfl (makes key kind)
  | fdbAppend dev mac dst =>
    obtain ⟨rfl, listed⟩ := heeds
    exact ⟨FloodList.mac_zeros, v4 dst listed⟩
  | del | setNetns | addVeth => exact heeds
  | _ => trivial

theorem tends_wires (v4 : ∀ dst ∈ peersOf node db, V4 dst) (informed : Informed db node spec)
    (here : spec.nodeId = node.id) (of : known spec.vpcId) {c : NetCmd}
    (wires : VmUp.Wires spec c) : Tends known node.id c := by
  have heeds := Underlay.heeds_wires informed wires
  cases wires with
  -- the one device that is made is the VPC's own
  | vxlan =>
    intro u same
    rw [here] at same
    exact ⟨spec.vpcId, of, (Prod.mk.inj same).2, spec.nodeHost, rfl⟩
  | bridge =>
    intro u same
    obtain ⟨vni, other⟩ := heeds u same
    cases other
  | inner =>
    intro u same
    cases (Prod.mk.inj same).1
  | _ =>
    apply tends_of_heeds v4 heeds
    rintro _ _ ⟨⟩

theorem tending_up (v4 : ∀ dst ∈ peersOf node db, V4 dst) (informed : Informed db node spec)
    (here : spec.nodeId = node.id) (of : known spec.vpcId) {c : Cmd}
    (issues : VmUp.Issues spec c) : Tending known node.id c := by
  constructor
  · cases issues with
    | net c wires =>
      cases wires with
      | place | publicPlace => exact own_device rfl (by decide)
      | _ => trivial
    | _ => trivial
  · rintro c' rfl
    cases issues with
    | net _ wires => exact tends_wires v4 informed here of wires

variable {x : Nat → Chance} {α β : Type}

/-- Commands that tend the devices come first. -/
theorem tended_then {n : Id} {p : Sh α} {f : α → Sh β} {net : Net}
    {Q : Except Exn β → Nat × Host → Prop} {s : Nat × Host} (tending : Only (Tending known n) p)
    (sofar : Tended known n net s.2.net)
    (fails : ∀ e s', Tended known n net s'.2.net → Q (.error e) s')
    (rest : ∀ a s', Tended known n net s'.2.net → wp (sequential (execAt x)) (f a) Q s') :
    wp (sequential (execAt x)) (p >>= f) Q s :=
  sequential_keeps_then (execAt x) (fun s' => Tended known n net s'.2.net)
    (fun _ s' tending sofar => sofar.trans (tended_exec (x s'.1) tending s'.2)) tending sofar fails
    rest

theorem tended_keeps {n : Id} {p : Sh α} {net : Net} {s : Nat × Host}
    (tending : Only (Tending known n) p) (sofar : Tended known n net s.2.net) :
    wp (sequential (execAt x)) p (fun _ s' => Tended known n net s'.2.net) s :=
  sequential_keeps (execAt x) (fun s' => Tended known n net s'.2.net)
    (fun _ s' tending sofar => sofar.trans (tended_exec (x s'.1) tending s'.2)) tending s sofar

/-- What is left of a program keeps a device that is there. -/
theorem built_keeps {n u : Id} {vni : Nat} {p : Sh α} {net : Net} {s : Nat × Host}
    (tending : Only (Tending known n) p) (sofar : Tended known n net s.2.net)
    (present : Present n u vni s.2.net) :
    wp (sequential (execAt x)) p
      (fun _ s' => Tended known n net s'.2.net ∧ Present n u vni s'.2.net) s := by
  apply sequential_mono _ _ _ _ _ _ (tended_keeps tending (.refl known n s.2.net))
  intro _ s' kept
  exact ⟨sofar.trans kept, kept.present u vni present⟩

variable (sound : ∀ k, (x k).fails = false)

include sound

/-- `vxlan.ensure` makes the device where it is missing. -/
theorem ensure_builds {n u : Id} {vni : Nat} {ip bridge : Str} {net : Net} {s : Nat × Host}
    (tunnels : Tunnels known n net) (sofar : Tended known n net s.2.net)
    (tending : Only (Tending known n) (Vxlan.ensure (Vxlan.nameFor n u) vni ip bridge)) :
    wp (sequential (execAt x)) (Vxlan.ensure (Vxlan.nameFor n u) vni ip bridge)
      (fun r s' => Tended known n net s'.2.net ∧ (r = .ok () → ∃ vni, Present n u vni s'.2.net))
      s := by
  suffices built : wp (sequential (execAt x)) (Vxlan.ensure (Vxlan.nameFor n u) vni ip bridge)
      (fun r s' => r = .ok () → ∃ vni, Present n u vni s'.2.net) s by
    exact sequential_and (execAt x) (tended_keeps tending sofar) built
  rw [Vxlan.ensure, wp_bind]
  apply Convergence.linkExists_then sound
  intro s₁ same
  rw [onValue_ok]
  cases there : s.2.net.links.lookup (none, Vxlan.nameFor n u) with
  | some l =>
    intro _
    rw [same]
    obtain ⟨⟨u', -, -, ip', kind⟩, -⟩ := sofar.tunnels tunnels u l there
    exact ⟨_, l, ip', there, kind⟩
  | none =>
    rw [Option.isSome_none, if_neg Bool.false_ne_true, wp_bind]
    apply net_then (sound s₁.1)
    · intro _ net' s₂ step made
      simp only [NetCmd.step] at step
      split at step <;> cases step
      have present : Present n u vni s₂.2.net := by
        rw [made]
        exact ⟨_, ip, (Store.lookup_insert ..).trans (if_pos rfl), rfl⟩
      have plain (c : NetCmd) (spares : SparesDevices (.net c)) (tends : Tends known n c) :
          Tending known n (.net c) :=
        ⟨spares, by rintro _ ⟨⟩; exact tends⟩
      have joins : Only (Tending known n) (do
          Client.net (.setMaster (none, Vxlan.nameFor n u) bridge)
          Client.net (.setUp (none, Vxlan.nameFor n u))) := by
        apply Only.bind
        · apply Only.net
          exact plain _ trivial trivial
        · intro _
          apply Only.net
          exact plain _ trivial trivial
      apply sequential_mono _ _ _ _ _ _ (built_keeps joins (.refl known n s₂.2.net) present)
      exact fun _ _ kept _ => ⟨vni, kept.2⟩
    · rintro s₂ - -
      rintro ⟨⟩

/-- A bring-up that returns has made the device of its VPC, if its node is on the overlay and has a
peer. -/
theorem up_builds (v4 : ∀ dst ∈ peersOf node db, V4 dst) (informed : Informed db node spec)
    (here : spec.nodeId = node.id) (of : known spec.vpcId)
    (on : ¬ LOOPBACK.contains (hostOf node db)) (peer : peersOf node db ≠ []) {s : Nat × Host}
    (tunnels : Tunnels known node.id s.2.net) :
    wp (sequential (execAt x)) (VmUp.run spec) (fun r s' => Tended known node.id s.2.net s'.2.net ∧
      (r = .ok () → ∃ vni, Present node.id spec.vpcId vni s'.2.net)) s := by
  have tending {α : Type} {p : Sh α} (only : Only (VmUp.Issues spec) p) :
      Only (Tending known node.id) p :=
    only.mono fun _ issues => tending_up v4 informed here of issues
  -- whatever comes before the overlay only tends the devices
  rw [Underlay.run_parts]
  apply tended_then (tending (Underlay.before_only spec)) (.refl known _ s.2.net)
  · intro e s' kept
    exact ⟨kept, by rintro ⟨⟩⟩
  intro _ s₁ kept
  have sees : ¬ (peersOf node db = [] ∨ LOOPBACK.contains (hostOf node db)) := by
    rintro (none_ | alone)
    · exact peer none_
    · exact on alone
  rw [VmUp.overlay, informed.host, informed.peers, if_neg sees, LawfulMonad.bind_assoc, here]
  have made := tending ((VmUp.ensure_only spec).mono fun c h => (VmUp.of_wired spec c h).issues)
  rw [here, informed.host] at made
  rw [wp_bind]
  apply sequential_mono _ _ _ _ _ _ (ensure_builds sound tunnels kept made)
  rintro (e | ⟨⟩) s₂ ⟨kept, present⟩
  · exact ⟨kept, by rintro ⟨⟩⟩
  -- the lists are filled, and the rest of the VM is wired
  have lists : Only (Tending known node.id)
      (Vxlan.setFdb spec.sets (Vxlan.nameFor node.id spec.vpcId) (peersOf node db)) := by
    apply (Vxlan.setFdb_lists ..).mono
    rintro _ ⟨c, lists⟩
    constructor
    · cases lists <;> exact trivial
    · rintro _ ⟨⟩
      apply tends_of_heeds v4 (Underlay.heeds_lists lists)
      rintro _ _ rfl
      cases lists
  obtain ⟨vni, present⟩ := present rfl
  apply sequential_mono _ _ _ _ _ _ (built_keeps
    (.bind lists fun _ => tending (Underlay.after_only spec)) kept present)
  exact fun _ _ built => ⟨built.1, fun _ => ⟨vni, built.2⟩⟩

end Up

/-! ## The invariant -/

/-- The node is registered under an address that others can reach. -/
structure Reachable (r : NodeRow) : Prop where
  id : HexId r.nodeId
  host : V4 r.host
  remote : ¬ LOOPBACK.contains r.host

/-- The VPC has its row. -/
def Recorded (w : World) (u : Id) : Prop := ∃ v ∈ w.db .vpcs, v.id = u

/-- Every VM's VPC has its device on the VM's node, but for the VPCs in `but`. -/
structure Wired (but : Id → Id → Prop) (w : World) : Prop where
  tunnels : ∀ n, Tunnels (Recorded w) n (w.hosts n).net
  nodes : ∀ r ∈ w.db .nodes, Reachable r
  vpcs : ∀ r ∈ w.db .vpcs, HexId r.id
  vms : ∀ r ∈ w.db .vms, Recorded w r.vpcId
  devices : ∀ r ∈ w.db .vms, ¬ but r.nodeId r.vpcId →
    ∃ vni, Present r.nodeId r.vpcId vni (w.hosts r.nodeId).net

def nowhere (_ _ : Id) : Prop := False

/-- The one VPC on the one node. -/
def only (n u n' u' : Id) : Prop := n' = n ∧ u' = u

/-- No VPC. -/
def nobody (_ : Id) : Prop := False

/-- The operation tends the devices and makes none, makes no VM, and leaves the nodes and the VPCs
as they are. -/
structure Mends (o : Op) : Prop where
  hosts : o.OnHosts (Tending nobody)
  vms : ∃ ts ds, Touch ts ds o ∧ .vms ∉ ts
  nodes : ¬ o.writes .nodes
  vpcs : ¬ o.writes .vpcs

theorem OfVpc.mono {known known' : Id → Prop} {n u : Id} {kind : Kind}
    (more : ∀ u, known u → known' u) (of : OfVpc known n u kind) : OfVpc known' n u kind := by
  obtain ⟨u', there, rest⟩ := of
  exact ⟨u', more u' there, rest⟩

theorem Tunnels.mono {known known' : Id → Prop} {n : Id} {net : Net}
    (more : ∀ u, known u → known' u) (tunnels : Tunnels known n net) : Tunnels known' n net :=
  fun u l there => ⟨(tunnels u l there).1.mono more, (tunnels u l there).2⟩

theorem Tending.mono {known known' : Id → Prop} {n : Id} {c : Cmd}
    (more : ∀ u, known u → known' u) (tending : Tending known n c) : Tending known' n c := by
  refine ⟨tending.spares, ?_⟩
  rintro c' rfl
  have tends := tending.tends c' rfl
  cases c' with
  | add key kind => exact fun u same => (tends u same).mono more
  | _ => exact tends

section Invariant

variable {env : Env} {w : World} {but : Id → Id → Prop} {o : Op} {α β : Type}

theorem recorded_frame (spares : ¬ o.writes .vpcs) : Recorded (exec env o w).2 = Recorded w := by
  funext u
  rw [Recorded, exec_frame env w .vpcs o spares, Recorded]

theorem Wired.tick (wired : Wired but w) : Wired but w.tick :=
  ⟨wired.tunnels, wired.nodes, wired.vpcs, wired.vms, wired.devices⟩

theorem tended_op {known : Id → Prop} (tending : o.OnHosts (Tending nobody)) (n : Id) :
    Tended known n (w.hosts n).net ((exec env o w).2.hosts n).net := by
  by_cases off : o.OffHost
  · rw [hosts_offHost env w off]
    exact .refl known n _
  · cases o with
    | host m c =>
      rw [hosts_exec]
      split
      next same =>
        subst same
        apply tended_exec
        apply Tending.mono _ tending
        rintro u ⟨⟩
      next => exact .refl known n _
    | _ => exact absurd trivial off

theorem Wired.mends (wired : Wired but w) (mends : Mends o) : Wired but (exec env o w).2 := by
  obtain ⟨tending, ⟨ts, ds, touch, vms⟩, nodes, vpcs⟩ := mends
  have tended (n : Id) : Tended (Recorded w) n (w.hosts n).net ((exec env o w).2.hosts n).net :=
    tended_op tending n
  have same : Recorded (exec env o w).2 = Recorded w := recorded_frame vpcs
  constructor
  · intro n
    rw [same]
    exact (tended n).tunnels (wired.tunnels n)
  · rw [exec_frame env w .nodes o nodes]
    exact wired.nodes
  · rw [exec_frame env w .vpcs o vpcs]
    exact wired.vpcs
  · intro r there
    obtain ⟨vm, before, status, rfl⟩ := touch.rows_came vms r there
    rw [same]
    exact wired.vms vm before
  · intro r there spared
    obtain ⟨vm, before, status, rfl⟩ := touch.rows_came vms r there
    obtain ⟨vni, present⟩ := wired.devices vm before spared
    exact ⟨vni, (tended _).present _ _ present⟩

theorem Wired.insert_vpc (wired : Wired but w) {row : VpcRow} (hex : HexId row.id) :
    Wired but (exec env (.insert .vpcs row) w).2 := by
  have frame (t : Tbl) (other : Tbl.vpcs ≠ t) :
      (exec env (.insert .vpcs row) w).2.db t = w.db t :=
    exec_frame env w t _ other
  have hosts : (exec env (.insert .vpcs row) w).2.hosts = w.hosts :=
    hosts_offHost env w (o := .insert .vpcs row) trivial
  have touch : Touch [.vpcs] [] (.insert .vpcs row) := .insert .vpcs row (by decide)
  have more (u : Id) : Recorded w u → Recorded (exec env (.insert .vpcs row) w).2 u := by
    rintro ⟨v, there, same⟩
    obtain ⟨_, stays, rfl⟩ := touch.rows_stay (by decide) (by decide) v there
    exact ⟨_, stays, same⟩
  constructor
  · intro n
    rw [hosts]
    exact (wired.tunnels n).mono more
  · rw [frame .nodes (by decide)]
    exact wired.nodes
  · intro r there
    rcases insert_came there with before | rfl
    · exact wired.vpcs r before
    · exact hex
  · rw [frame .vms (by decide)]
    exact fun r there => more _ (wired.vms r there)
  · rw [frame .vms (by decide), hosts]
    exact wired.devices

/-- A VM whose device is yet to come. -/
theorem Wired.insert_vm (wired : Wired nowhere w) {row : VmRow} (of : Recorded w row.vpcId) :
    Wired (only row.nodeId row.vpcId) (exec env (.insert .vms row) w).2 := by
  have frame (t : Tbl) (other : Tbl.vms ≠ t) :
      (exec env (.insert .vms row) w).2.db t = w.db t :=
    exec_frame env w t _ other
  have hosts : (exec env (.insert .vms row) w).2.hosts = w.hosts :=
    hosts_offHost env w (o := .insert .vms row) trivial
  have same : Recorded (exec env (.insert .vms row) w).2 = Recorded w :=
    recorded_frame (show Tbl.vms ≠ .vpcs by decide)
  constructor
  · rw [hosts, same]
    exact wired.tunnels
  · rw [frame .nodes (by decide)]
    exact wired.nodes
  · rw [frame .vpcs (by decide)]
    exact wired.vpcs
  · intro r there
    rw [same]
    rcases insert_came there with before | rfl
    · exact wired.vms r before
    · exact of
  · intro r there spared
    rw [hosts]
    rcases insert_came there with before | rfl
    · exact wired.devices r before not_false
    · exact absurd ⟨rfl, rfl⟩ spared

/-- Nodes come and go, as long as they can be reached. -/
theorem Wired.registers (wired : Wired but w) (off : o.OffHost)
    (spares : ∀ t, t ≠ .nodes → ¬ o.writes t)
    (reachable : ∀ r ∈ (exec env o w).2.db .nodes, Reachable r) : Wired but (exec env o w).2 := by
  have hosts := hosts_offHost env w off
  have same : Recorded (exec env o w).2 = Recorded w := recorded_frame (spares .vpcs (by decide))
  have vms := exec_frame env w .vms o (spares .vms (by decide))
  have vpcs := exec_frame env w .vpcs o (spares .vpcs (by decide))
  constructor
  · rw [hosts, same]
    exact wired.tunnels
  · exact reachable
  · rw [vpcs]
    exact wired.vpcs
  · rw [vms, same]
    exact wired.vms
  · rw [vms, hosts]
    exact wired.devices

/-! ## Programs that tend the devices -/

theorem mends_of {p : Py α} (ts ds : List Tbl) (touch : Only (Touch ts ds) p)
    (ts' : ∀ t ∈ ts, t ∉ [Tbl.vms, .vpcs, .nodes]) (ds' : ∀ t ∈ ds, t ∉ [Tbl.vpcs, .nodes])
    (tending : Only (Op.OnHosts (Tending nobody)) p) : Only Mends p := by
  have vpcs : .vpcs ∉ ts ∧ .vpcs ∉ ds :=
    ⟨fun there => ts' _ there (by decide), fun there => ds' _ there (by decide)⟩
  have nodes : .nodes ∉ ts ∧ .nodes ∉ ds :=
    ⟨fun there => ts' _ there (by decide), fun there => ds' _ there (by decide)⟩
  apply (touch.and tending).mono
  rintro o ⟨touch, tending⟩
  exact ⟨tending, ⟨ts, ds, touch, fun there => ts' _ there (by decide)⟩,
    touch.spares (by decide) nodes.1 nodes.2, touch.spares (by decide) vpcs.1 vpcs.2⟩

theorem mends_looks {p : Py α} (looks : Looks p) : Only Mends p := by
  apply looks.mono
  intro o looks
  cases looks with
  | get t p => exact ⟨trivial, ⟨[], [], .get t p, by decide⟩, not_false, not_false⟩
  | getAll t p =>
    refine ⟨trivial, ⟨[.publicIps], [], .getAll t p ?_, by decide⟩, not_false, not_false⟩
    rintro rfl
    exact List.mem_cons_self
  | choice => exact ⟨trivial, ⟨[], [], .choice, by decide⟩, not_false, not_false⟩

/-- The command leaves the network alone. -/
def OffNet : Cmd → Prop
  | .net _ => False
  | _ => True

theorem tending_offNet {n : Id} {c : Cmd} (off : OffNet c) : Tending nobody n c := by
  constructor
  · cases c with
    | net => cases off
    | _ => trivial
  · rintro c' rfl
    cases off

theorem autoVolume_offNet (self : Node) (body : SpawnIn) (nodeId : Id) :
    Only (Op.OnHosts fun _ => OffNet) (Vms.autoVolume self body nodeId) := by
  apply Only.bind (.uuid4 trivial)
  intro id
  refine .bind (.ite (fun _ => ?_) fun _ => ?_) fun _ =>
    .bind (.now trivial) fun _ => .bind (.insert trivial) fun _ => .pure _
  · apply Only.bind (Aside.hosts (.of_looks (.imageOr400 _)))
    intro img
    apply Only.bind (Aside.hosts (.of_looks (.refuseIf ..)))
    intro _
    exact .bind (.sh self (.bind (.perform trivial) fun _ => .pure _)) fun _ => .pure _
  · refine .bind (.sh self ?_) fun _ => .pure _
    apply Only.bind (.bind (.perform trivial) fun _ => .pure _)
    intro _
    exact .bind (.perform trivial) fun _ => .pure _

theorem autoVolume_mends (self : Node) (body : SpawnIn) (nodeId : Id) :
    Only Mends (Vms.autoVolume self body nodeId) := by
  apply mends_of [.volumes] [] (Vms.autoVolume_touch self body nodeId (by decide)) (by decide)
    (by decide)
  apply (autoVolume_offNet self body nodeId).mono
  intro o off
  cases o with
  | host => exact tending_offNet off
  | _ => trivial

theorem deleteLocal_mends (self : Node) (vmId nodeId : Id) :
    Only Mends (Vms.deleteLocal self vmId nodeId) := by
  apply mends_of [] [.publicIps, .domains, .proxies, .vms] (Vms.deleteLocal_touch self vmId nodeId
    (by decide) (by decide) (by decide) (by decide)) (by decide) (by decide)
  apply Only.bind (Aside.teardown vmId).hosts
  intro _
  refine .bind (.sh self ?_) fun _ => .bind (.delete trivial) fun _ => .pure _
  apply (VmDown.run_only vmId _).mono
  intro c issues
  cases issues with
  | delVeth | delPublic =>
    constructor
    · exact own_device rfl (by decide)
    · rintro _ ⟨⟩
      exact Underlay.ne_vxlan (own_device rfl (by decide))
  | netnsDel =>
    constructor
    · trivial
    · rintro _ ⟨⟩
      exact trivial
  | _ => exact tending_offNet trivial

/-- The devices are there and the registry is this. -/
structure WiredAt (but : Id → Id → Prop) (nodes : Table Tbl.nodes.unique) (w : World) : Prop where
  wired : Wired but w
  registry : w.db .nodes = nodes

variable {nodes : Table Tbl.nodes.unique}

theorem WiredAt.mends (at_ : WiredAt but nodes w) (mends : Mends o) :
    WiredAt but nodes (exec env o w).2 :=
  ⟨at_.wired.mends mends, (exec_frame env w .nodes o mends.nodes).trans at_.registry⟩

theorem WiredAt.tick (at_ : WiredAt but nodes w) : WiredAt but nodes w.tick :=
  ⟨at_.wired.tick, at_.registry⟩

theorem wired_keeps : Keeps env Mends (WiredAt but nodes) := fun _ _ mends at_ => at_.mends mends

/-- So are they beside the row of a VPC. -/
def WiredWith (nodes : Table Tbl.nodes.unique) (u : Id) (w : World) : Prop :=
  WiredAt nowhere nodes w ∧ Recorded w u

theorem WiredWith.tick {u : Id} (with_ : WiredWith nodes u w) : WiredWith nodes u w.tick :=
  ⟨with_.1.tick, with_.2⟩

theorem wiredWith_keeps {u : Id} : Keeps env Mends (WiredWith nodes u) := by
  intro o w mends with_
  refine ⟨with_.1.mends mends, ?_⟩
  rw [recorded_frame mends.vpcs]
  exact with_.2

/-! ## Bring-ups -/

/-- The node is registered, and is not alone. -/
structure Placed (n : Id) (nodes : Table Tbl.nodes.unique) : Prop where
  registered : ∃ r ∈ nodes, r.nodeId = n
  peer : ∃ r ∈ nodes, r.nodeId ≠ n

theorem host_remote {self : Node} {db : Db} (member : ∃ r ∈ db .nodes, r.nodeId = self.id)
    (reachable : ∀ r ∈ db .nodes, Reachable r) : ¬ LOOPBACK.contains (hostOf self db) := by
  rw [hostOf]
  cases found : (db .nodes).get fun r => r.nodeId = self.id with
  | none =>
    obtain ⟨r, there, same⟩ := member
    exact absurd same (of_decide_eq_false (Table.get_none.mp found r there))
  | some row => exact (reachable row (Table.get_some found).1).remote

theorem mem_peers {self : Node} {db : Db} (reachable : ∀ r ∈ db .nodes, Reachable r) {dst : Str} :
    dst ∈ peersOf self db ↔ ∃ r ∈ db .nodes, r.nodeId ≠ self.id ∧ r.host = dst := by
  rw [peersOf, List.mem_map]
  constructor
  · rintro ⟨r, kept, rfl⟩
    obtain ⟨there, meets⟩ := List.mem_filter.mp kept
    exact ⟨r, (Table.mem_getAll.mp there).1, of_decide_eq_true (Bool.and_eq_true_iff.mp meets).1,
      rfl⟩
  · rintro ⟨r, there, other, rfl⟩
    refine ⟨r, List.mem_filter.mpr ⟨Table.mem_getAll.mpr ⟨there, rfl⟩, ?_⟩, rfl⟩
    rw [Bool.and_eq_true_iff, Bool.not_eq_true']
    exact ⟨decide_eq_true other, eq_false_of_ne_true (reachable r there).remote⟩

theorem Placed.peers {self : Node} {db : Db} (placed : Placed self.id (db .nodes))
    (reachable : ∀ r ∈ db .nodes, Reachable r) : peersOf self db ≠ [] := by
  obtain ⟨r, there, other⟩ := placed.peer
  apply List.ne_nil_of_mem
  exact (mem_peers reachable).mpr ⟨r, there, other, rfl⟩

/-- A request is handed on to a node that is in the cluster and not alone either. -/
theorem Placed.onward {n : Id} (placed : Placed n nodes) {row : NodeRow} (there : row ∈ nodes) :
    Placed row.nodeId nodes := by
  obtain ⟨⟨r, own, rfl⟩, peer⟩ := placed
  refine ⟨⟨row, there, rfl⟩, ?_⟩
  by_cases same : row.nodeId = r.nodeId
  · rw [same]
    exact peer
  · exact ⟨r, own, fun same' => same same'.symm⟩

/-- The device that was to come is there. -/
theorem WiredAt.up {n u : Id} (at_ : WiredAt (only n u) nodes w) (s : Nat × Host)
    (tended : Tended (Recorded w) n (w.hosts n).net s.2.net)
    (present : ∃ vni, Present n u vni s.2.net) :
    WiredAt nowhere nodes (w.put n s) := by
  obtain ⟨wired, registry⟩ := at_
  have own : (w.put n s).hosts n = s.2 := Function.update_self ..
  have others (m : Id) (other : m ≠ n) : (w.put n s).hosts m = w.hosts m :=
    Function.update_of_ne other ..
  refine ⟨⟨fun m => ?_, wired.nodes, wired.vpcs, wired.vms, fun r there _ => ?_⟩, registry⟩
  · by_cases here : m = n
    · subst here
      rw [own]
      exact tended.tunnels (wired.tunnels m)
    · rw [others m here]
      exact wired.tunnels m
  · by_cases here : r.nodeId = n
    · rw [here, own]
      by_cases same : r.vpcId = u
      · rw [same]
        exact present
      · have before := wired.devices r there fun only => same only.2
        rw [here] at before
        obtain ⟨vni, before⟩ := before
        exact ⟨vni, tended.present _ _ before⟩
    · rw [others _ here]
      exact wired.devices r there fun only => here only.1

/-- The request is carried out, or refused with a status of its own. -/
def Answered (r : Except Exn Response) : Prop := succeeded r ∨ Refusals.Declined r

theorem not_answered {e : Exn} (crash : Crash e) : ¬ Answered (.error e) := by
  rintro (ok | refused)
  · exact ok
  · cases e with
    | http => exact crash
    | _ => exact refused

variable {self : Node} (sound : ∀ k, (env.chance k).fails = false)

include sound

/-- A bring-up that returns leaves the device of the VM's VPC. -/
theorem bringUp_wires (row : VmRow) (cidr : Str) (volPath : Option Path) (key : Option Str)
    (origin : Str) (here : row.nodeId = self.id) (of : Recorded w row.vpcId)
    (placed : Placed self.id nodes) (at_ : WiredAt (only row.nodeId row.vpcId) nodes w) :
    wp (sequential (exec env)) (Vms.bringUp self row cidr volPath key origin)
      (fun r w' => r = .ok () → WiredAt nowhere nodes w') w := by
  simp only [Vms.bringUp, Vms.spec, LawfulMonad.bind_assoc, pure_bind, here]
  rw [here] at at_
  rw [wp_bind, wp_get, onValue_ok, wp_bind]
  replace at_ := at_.tick
  apply Convergence.host_then self
  rw [onValue_ok, wp_bind, Peers.peerHosts, wp_bind, wp_getAll, onValue_ok, wp_pure, onValue_ok,
    wp_bind]
  apply sequential_onHost
  have reachable := at_.wired.nodes
  rw [← at_.registry] at placed
  have v4 : ∀ dst ∈ peersOf self w.db, V4 dst := by
    intro dst listed
    obtain ⟨r, there, -, rfl⟩ := (mem_peers reachable).mp listed
    exact (reachable r there).host
  have on := host_remote placed.registered reachable
  apply sequential_mono _ _ _ _ _ _ (up_builds sound v4 ⟨rfl, rfl⟩ rfl of on
    (placed.peers reachable) (at_.wired.tunnels self.id))
  rintro (e | ⟨⟩) s ⟨tended, present⟩
  · rintro ⟨⟩
  rw [onValue_ok]
  have up := at_.tick.tick.up s tended (present rfl)
  have status : Only Mends (do
      let _ ← update .vms (fun r => r.id = row.id) Vms.running
      pure () : Py Unit) := by
    refine .bind (.update ?_) fun _ => .pure _
    exact ⟨trivial, ⟨[], [], .status _ _, by decide⟩, show Tbl.vms ≠ .nodes by decide,
      show Tbl.vms ≠ .vpcs by decide⟩
  apply sequential_mono _ _ _ _ _ _ (wired_keeps.only status up)
  exact fun _ _ at_ _ => at_

/-- A VM is made, or the request crashes. -/
theorem made_wires (row : VmRow) (cidr : Str) (volPath : Option Path) (key : Option Str)
    (origin : Str) (here : row.nodeId = self.id) (placed : Placed self.id nodes)
    (with_ : WiredWith nodes row.vpcId w) (answer : Response) :
    wp (sequential (exec env)) (do
        insert .vms row
        Vms.bringUp self row cidr volPath key origin
        return answer)
      (fun r w' => Answered r → WiredAt nowhere nodes w') w := by
  have crashes := (wp_sequential _ _ (fun r _ => ∀ e, r = .error e → Crash e) w).mpr
    (Raises.of_run (exec env) Placement.exec_crash
      (.bind (.perform (.insert .vms row)) fun _ =>
        .bind (Placement.raises_bringUp self row cidr volPath key origin) fun _ => .pure answer) w)
  suffices made : wp (sequential (exec env)) (do
        insert .vms row
        Vms.bringUp self row cidr volPath key origin
        return answer)
      (fun r w' => succeeded r → WiredAt nowhere nodes w') w by
    apply sequential_mono _ _ _ _ _ _ (sequential_and _ crashes made)
    rintro (e | answer) w' ⟨crash, up⟩ answered
    · exact absurd answered (not_answered (crash e rfl))
    · exact up trivial
  -- between the insert and the end of the bring-up the row's own VPC may lack its device
  obtain ⟨⟨wired, registry⟩, of⟩ := with_
  apply insert_then
  · rintro e ⟨⟩
  intro _
  have of' : Recorded (exec env (.insert .vms row) w).2 row.vpcId := by
    rw [recorded_frame (o := .insert .vms row) (show Tbl.vms ≠ .vpcs by decide)]
    exact of
  have same := exec_frame env w .nodes (.insert .vms row) (show Tbl.vms ≠ .nodes by decide)
  rw [wp_bind]
  apply sequential_mono _ _ _ _ _ _ (bringUp_wires sound row cidr volPath key origin here of'
    placed ⟨wired.insert_vm of, same.trans registry⟩)
  rintro (e | ⟨⟩) w' up
  · rintro ⟨⟩
  · intro _
    exact up rfl

/-! ## Requests -/

theorem createLocal_wires (body : VmIn) (placed : Placed self.id nodes)
    (at_ : WiredAt nowhere nodes w) :
    wp (sequential (exec env)) (Vms.createLocal self body self.id)
      (fun r w' => Answered r → WiredAt nowhere nodes w') w := by
  have kept (e : Exn) (w' : World) (with_ : WiredWith nodes body.vpcId w') :
      Answered (.error e) → WiredAt nowhere nodes w' := fun _ => with_.1
  rw [Vms.createLocal, Vms.vpcOr404, LawfulMonad.bind_assoc]
  apply lookup_then
  · exact fun _ _ => at_.tick
  intro vpc there same
  have with_ : WiredWith nodes body.vpcId w.tick :=
    ⟨at_.tick, vpc, there, of_decide_eq_true same⟩
  apply wiredWith_keeps.first (mends_looks (.bodyVolumePath body)) with_ kept
  intro volPath w₁ with_
  apply wiredWith_keeps.first (mends_looks (.usedIps _)) with_ kept
  intro used w₂ with_
  apply wiredWith_keeps.first (.fromExcept _) with_ kept
  intro ip w₃ with_
  rw [wp_bind, wp_uuid4, onValue_ok, wp_bind, wp_now, onValue_ok]
  exact made_wires sound (Vms.newRow self body self.id ip _ _) vpc.cidr volPath none GOLD_DEFAULT
    rfl placed with_.tick.tick _

theorem spawnLocal_wires (hexes : ∀ k, HexId (env.uuid k)) (body : SpawnIn)
    (placed : Placed self.id nodes) (at_ : WiredAt nowhere nodes w) :
    wp (sequential (exec env)) (do
        let row ← Vms.spawnLocal self body self.id fun _ => pure ()
        return Response.vm row)
      (fun r w' => Answered r → WiredAt nowhere nodes w') w := by
  simp only [Vms.spawnLocal, LawfulMonad.bind_assoc, pure_bind]
  rw [wp_bind]
  apply sequential_mono _ _ _ _ _ _ (Defaults.ensureDefaultVpc_finds env w
    (J := WiredAt nowhere nodes) (fun _ at_ => at_.tick) ?_ at_)
  · rintro (e | vpc) w₁ ⟨at_, found⟩
    · exact fun _ => at_
    have kept (e : Exn) (w' : World) (with_ : WiredWith nodes vpc.id w') :
        Answered (.error e) → WiredAt nowhere nodes w' := fun _ => with_.1
    have with_ : WiredWith nodes vpc.id w₁ := ⟨at_, vpc, found vpc rfl, rfl⟩
    rw [onValue_ok]
    apply wiredWith_keeps.first (mends_looks (.resolveRootImage ..)) with_ kept
    intro origin w₂ with_
    apply wiredWith_keeps.first (autoVolume_mends self body _) with_ kept
    intro vol w₃ with_
    apply wiredWith_keeps.first (mends_looks (.usedIps _)) with_ kept
    intro used w₄ with_
    apply wiredWith_keeps.first (.fromExcept _) with_ kept
    intro ip w₅ with_
    rw [wp_bind, wp_uuid4, onValue_ok, wp_bind, wp_now, onValue_ok]
    exact made_wires sound (Vms.spawnRow body self.id vpc.id ip vol.id _ _) vpc.cidr _ _ origin
      rfl placed with_.tick.tick _
  · intro row w k same at_
    have hex : HexId row.id := by
      rw [same]
      exact hexes k
    exact ⟨at_.wired.insert_vpc hex, (exec_frame env w .nodes (.insert .vpcs row)
      (show Tbl.vpcs ≠ .nodes by decide)).trans at_.registry⟩

def creates : Request → Bool
  | .createVm _ | .spawnVm _ _ => true
  | _ => false

/-- The request creates, spawns or deletes a VM. -/
def ofVms : Request → Bool
  | .createVm _ | .spawnVm _ _ | .deleteVm _ => true
  | _ => false

theorem serveHere_wires (hexes : ∀ k, HexId (env.uuid k)) (req : Request) (found : Api.Found req)
    (listed : ofVms req = true) (placed : creates req = true → Placed self.id nodes)
    (at_ : WiredAt nowhere nodes w) :
    wp (sequential (exec env)) (Api.serveHere self req found)
      (fun r w' => Answered r → WiredAt nowhere nodes w') w := by
  cases req with
  | createVm body => exact createLocal_wires sound body (placed rfl) at_
  | spawnVm body pin => exact spawnLocal_wires sound hexes body (placed rfl) at_
  | deleteVm vmId =>
    apply sequential_mono _ _ _ _ _ _ (wired_keeps.only (deleteLocal_mends self vmId self.id) at_)
    exact fun _ _ at_ _ => at_
  | _ => cases listed

theorem serve_wires (hexes : ∀ k, HexId (env.uuid k)) (cfg : Id → NodeConfig) (hops : Nat)
    (nodeId : Id) (req : Request) (listed : ofVms req = true)
    (placed : creates req = true → Placed nodeId nodes) (at_ : WiredAt nowhere nodes w) :
    wp (sequential (exec env)) (Api.serve cfg hops nodeId req)
      (fun r w' => Answered r → WiredAt nowhere nodes w') w := by
  apply sequential_of_unchecked
  apply Api.serve_checked (exec env) (fun w => w.db .nodes) (fun _ _ => rfl) (fun _ _ => True) cfg
    (fun _ nodeId req w => ofVms req = true ∧ (creates req = true → Placed nodeId nodes) ∧
      WiredAt nowhere nodes w)
  · rintro hops nodeId req w p ⟨listed, placed, at_⟩
    exact ⟨trivial, listed, placed, at_.tick⟩
  · rintro hops nodeId req w p row ⟨listed, placed, at_⟩ there
    rw [at_.registry] at there
    exact ⟨listed, fun makes => (placed makes).onward there, at_.tick⟩
  · rintro hops nodeId req e w ⟨-, -, at_⟩ -
    exact at_
  -- a crash elsewhere comes back as a status of 500
  · intro e w kept answered
    apply kept
    refine .inr ?_
    have refused := answered.resolve_left id
    cases e with
    | http => exact refused
    | _ => exact absurd rfl refused
  · rintro hops nodeId forward req w ⟨listed, placed, at_⟩ on
    have looks : Only Mends (Api.lookUp ⟨nodeId, cfg nodeId⟩ req) := by
      apply mends_looks
      apply Api.lookUp_looks
      rintro body rfl
      cases listed
    have same (target : Id) : ofVms (Api.handedTo target req) = ofVms req ∧
        creates (Api.handedTo target req) = creates req := by
      cases req <;> exact ⟨rfl, rfl⟩
    apply Api.endpoint_checked (J := WiredAt nowhere nodes) (fun _ _ _ => rfl) (fun _ _ _ => rfl)
      (fun _ _ _ _ => trivial) (fun _ _ mends at_ => at_.mends mends) looks at_
    · exact fun _ _ at_ _ => at_
    · intro found w' at_
      apply on
      rw [(same _).1, (same _).2]
      exact ⟨listed, placed, at_⟩
    · intro found w' at_ _ _
      rw [wp_unchecked]
      exact serveHere_wires sound hexes req found listed placed at_
  · exact ⟨listed, placed, at_⟩

/-! ## Runs -/

/-- Nodes are registered and removed, and VMs are created, spawned and deleted. -/
def ofCluster : Action → World → Prop
  | .request _ req, _ => ofVms req = true
  | .join row, _ => Reachable row
  | .leave _, _ => True
  | .reconcile _, _ | .tick _, _ => False

/-- And a VM is made on a node that is in the cluster and not alone there. -/
def beside : Action → World → Prop
  | .request n req, w => ofVms req = true ∧ (creates req = true → Placed n (w.db .nodes))
  | a, w => ofCluster a w

theorem action_wires (hexes : ∀ k, HexId (env.uuid k)) (cfg : Id → NodeConfig) (hops : Nat)
    (a : Action) (may : beside a w) (wired : Wired nowhere w) :
    wp (sequential (exec env)) (a.program cfg hops)
      (fun r w' => Answered r → Wired nowhere w') w := by
  cases a with
  | request n req =>
    obtain ⟨of, placed⟩ := may
    have served := serve_wires sound hexes cfg hops n req of placed ⟨wired, rfl⟩
    apply sequential_mono _ _ _ _ _ _ served
    exact fun _ _ kept answered => (kept answered).wired
  | join row =>
    have joined : Wired nowhere (exec env (.insert .nodes row) w).2 := by
      apply wired.registers
      · trivial
      · exact fun t other same => other same.symm
      · intro r there
        rcases insert_came there with before | rfl
        · exact wired.nodes r before
        · exact may
    apply insert_then
    · exact fun _ _ => joined
    · exact fun _ _ => joined
  | leave n =>
    rw [Action.program, wp_bind, wp_delete, onValue_ok]
    intro _
    have left : Wired nowhere (exec env (.delete .nodes fun r => r.nodeId = n) w).2 := by
      apply wired.registers
      · trivial
      · exact fun t other same => other same.symm
      · intro r there
        rw [exec_delete, tick_db, setTable_self, Table.mem_delete] at there
        exact wired.nodes r there.1
    exact left
  | reconcile | tick => cases may

end Invariant

/-! ## Passes -/

section Passes

variable {env : Env} {cfg : Id → NodeConfig} {w w' : World} {n : Id}

theorem spares_grants : Grants (fun _ _ => True) (fun _ => SparesDevices) where
  other n c sparing := by
    cases c with
    | net c =>
      cases c with
      | del | setNetns => exact sparing
      | _ => trivial
    | _ => trivial
  lists _ _ _ := trivial
  clone _ _ _ _ _ := trivial
  remove _ _ _ _ := trivial

/-- The passes spare the devices. -/
theorem pass_spares (self : Node) :
    Only (Op.OnHosts fun _ => SparesDevices) (PassOnce.run self) := by
  have plain {α : Type} {p : Py α} (within : Within (fun _ => SparesDevices) p) :
      Only (Op.OnHosts fun _ => SparesDevices) p := within.mono fun _ within => within.onHosts
  have lvs (lister : Lister) (vg : Str) : Only (Op.OnHosts fun _ => SparesDevices)
      (self.sh (Lv.listLvs lister vg)) := .sh self (Lv.listLvs_only lister vg trivial)
  have removes (vg : Str) (names : List Str) : Only (Op.OnHosts fun _ => SparesDevices)
      (self.forEach (fun name => Lv.remove vg name) names) := by
    refine .forEach names fun name _ => .sh self ?_
    apply (Lv.remove_only vg name).mono
    rintro _ (_ | _) <;> exact trivial
  apply Only.bind (plain (spares_grants.ttlPass self))
  intro _
  apply Only.bind (plain (spares_grants.vmsPass self))
  intro _
  apply Only.bind
  · exact .bind (.getAll trivial) fun _ => .bind (lvs ..) fun _ =>
      .bind (removes ..) fun _ => .pure _
  intro _
  apply Only.bind
  · exact .bind (.getAll trivial) fun _ => .bind (lvs ..) fun _ =>
      .bind (removes ..) fun _ => .pure _
  intro _
  exact .bind (plain (spares_grants.overlayPass self)) fun _ => .pure _

theorem pass_present (self : Node) {u : Id} {vni : Nat} (m : Id)
    (present : Present m u vni (w.hosts m).net) :
    Present m u vni ((Convergence.after env self w).hosts m).net := by
  have kept := sequential_keeps (exec env) (fun w => Present m u vni (w.hosts m).net) ?_
    (pass_spares self) w present
  · exact (wp_sequential _ _ _ _).mp kept
  · intro o w spares present
    by_cases off : o.OffHost
    · rw [hosts_offHost env w off]
      exact present
    · cases o with
      | host n c =>
        rw [hosts_exec]
        split
        next same =>
          subst same
          apply exec_net_keeps _ c _ _ present
          rintro c' rfl a net' step
          exact present_step spares step present
        next => exact present
      | _ => exact absurd trivial off

/-- What passes on these nodes leave. -/
structure Later (order : List Id) (w w' : World) : Prop where
  vms : ∀ r ∈ w'.db .vms, r ∈ w.db .vms
  tables : ∀ t, Convergence.Read t → w'.db t = w.db t
  hosts : ∀ n, n ∉ order → w'.hosts n = w.hosts n

/-- A pass on each of the nodes, in this order. -/
def passes (env : Env) (cfg : Id → NodeConfig) : List Id → World → World
  | [], w => w
  | n :: rest, w => passes env cfg rest (Convergence.after env ⟨n, cfg n⟩ w)

/-- No pass kills a process that has already exited. -/
def Calm (env : Env) (cfg : Id → NodeConfig) : List Id → World → Prop
  | [], _ => True
  | n :: rest, w => (∀ a ∈ trail (exec env) (PassOnce.run ⟨n, cfg n⟩) w,
      Convergence.KillsAlive env a.1 a.2) ∧
    Calm env cfg rest (Convergence.after env ⟨n, cfg n⟩ w)

theorem passes_append (pre post : List Id) :
    passes env cfg (pre ++ post) w = passes env cfg post (passes env cfg pre w) := by
  induction pre generalizing w with
  | nil => rfl
  | cons n rest ih => exact ih

theorem calm_append {pre post : List Id} (calm : Calm env cfg (pre ++ post) w) :
    Calm env cfg pre w ∧ Calm env cfg post (passes env cfg pre w) := by
  induction pre generalizing w with
  | nil => exact ⟨trivial, calm⟩
  | cons n rest ih => exact ⟨⟨calm.1, (ih calm.2).1⟩, (ih calm.2).2⟩

/-- The device of the VPC on the node floods to every other node and to nobody else. -/
def Spans (w : World) (n u : Id) : Prop :=
  ∃ l ip, (w.hosts n).net.links.lookup (none, Vxlan.nameFor n u) = some l ∧
    l.kind = .vxlan (Overlay.vniFor u) ip ∧
    ∀ dst, dst ∈ FloodList.floods l.fdb ↔ ∃ r ∈ w.db .nodes, r.nodeId ≠ n ∧ r.host = dst

/-- No two VPCs share the name of their devices. -/
def OwnNames (w : World) : Prop :=
  ∀ v ∈ w.db .vpcs, ∀ v' ∈ w.db .vpcs, v.id.take 4 = v'.id.take 4 → v.id = v'.id

/-- A VM's VPC has its own device. -/
theorem own_present {w : World} (wired : Wired nowhere w) (own : OwnNames w) {r : VmRow}
    (there : r ∈ w.db .vms) :
    Present r.nodeId r.vpcId (Overlay.vniFor r.vpcId) (w.hosts r.nodeId).net := by
  obtain ⟨vni, l, ip, found, kind⟩ := wired.devices r there not_false
  obtain ⟨⟨u, ⟨v, known, rfl⟩, same, ip', kind'⟩, -⟩ := wired.tunnels r.nodeId r.vpcId l found
  obtain ⟨v', known', same'⟩ := wired.vms r there
  have first : v.id.take 4 = r.vpcId.take 4 := List.append_cancel_left same
  rw [← same'] at first
  have vpc := (own v known v' known' first).trans same'
  rw [vpc] at kind'
  exact ⟨l, ip', found, kind'⟩

theorem readable_later {order : List Id} (wired : Wired nowhere w) (later : Later order w w')
    (away : n ∉ order) (member : ∃ m ∈ w.db .nodes, m.nodeId = n) :
    Convergence.Readable ⟨n, cfg n⟩ w'.db (w'.hosts n).net := by
  have nodes : w'.db .nodes = w.db .nodes := later.tables .nodes trivial
  have reachable : ∀ r ∈ w'.db .nodes, Reachable r := by
    rw [nodes]
    exact wired.nodes
  constructor
  · obtain ⟨m, there, rfl⟩ := member
    exact (wired.nodes m there).id
  · intro u listed
    obtain ⟨r, there, rfl⟩ := List.mem_map.mp listed
    obtain ⟨v, known, same⟩ := wired.vms r (later.vms r (Table.mem_getAll.mp there).1)
    rw [← same]
    exact wired.vpcs v known
  · intro dst listed
    obtain ⟨r, there, -, rfl⟩ := (mem_peers reachable).mp listed
    exact (reachable r there).host
  · intro u _ l found
    rw [later.hosts n away] at found
    exact (wired.tunnels n u l found).2

variable (sound : ∀ k, (env.chance k).fails = false)

include sound

/-- One pass on the node: the devices that are there flood to the peers. -/
theorem pass_floods {self : Node} (alive : ∀ a ∈ trail (exec env) (PassOnce.run self) w,
      Convergence.KillsAlive env a.1 a.2) :
    Convergence.Exact self (env.now w.clock) w (Convergence.after env self w) ∧
      (Convergence.Readable self w.db (w.hosts self.id).net →
        Convergence.Synced self (Convergence.after env self w).db
          ((Convergence.after env self w).hosts self.id).net) := by
  obtain ⟨exact_, synced⟩ := wp_gated _ _ _ _ w (Convergence.pass_leaves sound self) alive
  exact ⟨exact_, fun readable => (synced fun _ => readable).2⟩

theorem passes_later {order : List Id} (calm : Calm env cfg order w) :
    Later order w (passes env cfg order w) := by
  induction order generalizing w with
  | nil => exact ⟨fun _ there => there, fun _ _ => rfl, fun _ _ => rfl⟩
  | cons m rest ih =>
    obtain ⟨exact_, -⟩ := pass_floods sound calm.1
    have later := ih calm.2
    constructor
    · intro r there
      exact ((exact_.vms r).mp (later.vms r there)).1
    · intro t reads
      exact (later.tables t reads).trans (exact_.tables t reads)
    · intro n away
      obtain ⟨other, away⟩ := not_or.mp (List.mem_cons.not.mp away)
      exact (later.hosts n away).trans (exact_.others n other)

theorem passes_span (cfg : Id → NodeConfig) (wired : Wired nowhere w) (own : OwnNames w)
    {order : List Id} (once : order.Nodup) (calm : Calm env cfg order w) {r : VmRow}
    (there : r ∈ (passes env cfg order w).db .vms)
    (member : ∃ m ∈ w.db .nodes, m.nodeId = r.nodeId) (visited : r.nodeId ∈ order) :
    Spans (passes env cfg order w) r.nodeId r.vpcId := by
  obtain ⟨pre, post, rfl⟩ := List.append_of_mem visited
  obtain ⟨first, alive, last⟩ := calm_append calm
  obtain ⟨-, rest, apart⟩ := List.nodup_append.mp once
  rw [passes_append] at there ⊢
  set self : Node := ⟨r.nodeId, cfg r.nodeId⟩
  set w₁ := passes env cfg pre w
  set w₂ := Convergence.after env self w₁
  have before : Later pre w w₁ := passes_later sound first
  have after : Later post w₂ (passes env cfg post w₂) := passes_later sound last
  have away : r.nodeId ∉ pre := fun inside => apart _ inside _ List.mem_cons_self rfl
  have away' : r.nodeId ∉ post := (List.nodup_cons.mp rest).1
  -- the row is still there after the passes, so it was there all along
  obtain ⟨exact_, synced⟩ := pass_floods sound alive
  have here : r ∈ w₂.db .vms := after.vms r there
  -- the device is there when the pass begins, and the pass spares it
  have present := own_present wired own (before.vms r ((exact_.vms r).mp here).1)
  rw [← before.hosts _ away] at present
  obtain ⟨l, ip, found, kind⟩ := pass_present self r.nodeId present
  have nodes : w₂.db .nodes = w.db .nodes :=
    (exact_.tables .nodes trivial).trans (before.tables .nodes trivial)
  have reachable : ∀ m ∈ w₂.db .nodes, Reachable m := by
    rw [nodes]
    exact wired.nodes
  have remote : ¬ LOOPBACK.contains (hostOf self w₂.db) := by
    apply host_remote _ reachable
    rw [nodes]
    exact member
  have listed : r.vpcId ∈ vpcIds self w₂.db :=
    List.mem_map.mpr ⟨r, Table.mem_getAll.mpr ⟨here, decide_eq_true rfl⟩, rfl⟩
  -- and the pass lists the peers on it
  have floods := (synced (readable_later wired before away member) remote).2 _ listed l found
  refine ⟨l, ip, ?_, kind, fun dst => ?_⟩
  · rw [passes, after.hosts _ away']
    exact found
  · rw [floods dst, mem_peers reachable, passes, after.tables .nodes trivial]

end Passes

/-! ## Flood domains -/

/-- What the VPC floods on the one node arrives at the other. -/
def Reaches (w : World) (u n n' : Id) : Prop :=
  ∃ m ∈ w.db .nodes, m.nodeId = n' ∧
    ∃ l ip, (w.hosts n).net.links.lookup (none, Vxlan.nameFor n u) = some l ∧
      l.kind = .vxlan (Overlay.vniFor u) ip ∧ m.host ∈ FloodList.floods l.fdb

/-- The VPCs of the VMs span the nodes: each has its device, which floods to all other nodes, and so
two VMs of one VPC are in each other's flood domain. -/
structure Spanned (w : World) : Prop where
  spans : ∀ r ∈ w.db .vms, Spans w r.nodeId r.vpcId
  reaches : ∀ r ∈ w.db .vms, ∀ r' ∈ w.db .vms, r.vpcId = r'.vpcId → r.nodeId ≠ r'.nodeId →
    Reaches w r.vpcId r.nodeId r'.nodeId

/-- The nodes in the registry, each once. -/
def Members (order : List Id) (w : World) : Prop :=
  order.Nodup ∧ ∀ n, n ∈ order ↔ ∃ m ∈ w.db .nodes, m.nodeId = n

/-- The VMs are on nodes that are still in the cluster. -/
def Housed (w : World) : Prop := ∀ r ∈ w.db .vms, ∃ m ∈ w.db .nodes, m.nodeId = r.nodeId

/-- Two nodes with the images of their VMs, before they are registered. -/
def bare : World where
  db := Db.empty
  hosts := fun n => { Sample.host with
    lvs := AList.insert ("nyc-" ++ n, GOLD_DEFAULT) ⟨1024, none, true, .image⟩
      (AList.insert ("nyc-" ++ n, "pool") ⟨1024, none, true, .zeros⟩ ∅) }
  clock := 0

def one : NodeRow := ⟨"0a1b2c3d", "10.0.0.1", 8000⟩

def two : NodeRow := ⟨"4e5f6a7b", "10.0.0.2", 8000⟩

theorem one_reachable : Reachable one :=
  ⟨by decide, ⟨167772161, by decide, by decide +kernel⟩, by decide⟩

theorem two_reachable : Reachable two :=
  ⟨by decide, ⟨167772162, by decide, by decide +kernel⟩, by decide⟩

/-- The two nodes join, and VMs are made. -/
def ofTwo : Action → World → Prop
  | .request _ req, _ => ofVms req = true
  | .join row, _ => row = one ∨ row = two
  | _, _ => False

/-- VMs are made when both have joined. -/
def besideTwo : Action → World → Prop
  | .request n req, w => ofVms req = true ∧ (creates req = true → Placed n (w.db .nodes))
  | a, w => ofTwo a w

theorem ofTwo_reachable {row : NodeRow} (known : row = one ∨ row = two) : Reachable row := by
  rcases known with rfl | rfl
  · exact one_reachable
  · exact two_reachable

theorem ofCluster_of_ofTwo (a : Action) (w : World) (may : ofTwo a w) : ofCluster a w := by
  cases a with
  | request => exact may
  | join => exact ofTwo_reachable may
  | _ => cases may

theorem beside_of_besideTwo (a : Action) (w : World) (may : besideTwo a w) : beside a w := by
  cases a with
  | request => exact may
  | join => exact ofTwo_reachable may
  | _ => cases may

instance (n : Id) (nodes : Table Tbl.nodes.unique) : Decidable (Placed n nodes) :=
  decidable_of_iff ((∃ r ∈ nodes.rows, r.nodeId = n) ∧ ∃ r ∈ nodes.rows, r.nodeId ≠ n)
    ⟨fun h => ⟨h.1, h.2⟩, fun h => ⟨h.1, h.2⟩⟩

instance (a : Action) (w : World) : Decidable (ofTwo a w) :=
  match a with
  | .request _ req => inferInstanceAs (Decidable (ofVms req = true))
  | .join row => inferInstanceAs (Decidable (row = one ∨ row = two))
  | .reconcile _ | .tick _ | .leave _ => .isFalse id

instance (a : Action) (w : World) : Decidable (besideTwo a w) :=
  match a with
  | .request n req => inferInstanceAs
    (Decidable (ofVms req = true ∧ (creates req = true → Placed n (w.db .nodes))))
  | .join row => inferInstanceAs (Decidable (row = one ∨ row = two))
  | .reconcile _ | .tick _ | .leave _ => .isFalse id

instance : DecidablePred Answered := fun r =>
  inferInstanceAs (Decidable (succeeded r ∨ Refusals.Declined r))

def order : List Id := [one.nodeId, two.nodeId]

instance (w : World) : Decidable (Calm Sample.env Sample.cluster order w) :=
  inferInstanceAs (Decidable (_ ∧ _ ∧ True))

theorem members_of_rows {w : World} (rows : (w.db .nodes).rows.map NodeRow.nodeId = order) :
    Members order w := by
  refine ⟨by decide, fun n => ?_⟩
  rw [← rows, List.mem_map]
  rfl

/-- The first node makes a VM alone, and the second one joins. -/
def alone : List Action :=
  [.join one, .request one.nodeId (.spawnVm Sample.spawn none), .join two]

/-- Both nodes are there, and the VM's VPC has no device. -/
def Lonely (w : World) : Prop :=
  (w.db .nodes).rows.map NodeRow.nodeId = order ∧
    ∃ r ∈ ((passes Sample.env Sample.cluster order w).db .vms).rows,
      ((passes Sample.env Sample.cluster order w).hosts r.nodeId).net.links.lookup
        (none, Vxlan.nameFor r.nodeId r.vpcId) = none

instance (w : World) : Decidable (Lonely w) := inferInstanceAs (Decidable (_ ∧ _))

theorem alone_reached : ∃ w, Reached (exec Sample.env) (Action.program Sample.cluster 1) ofTwo
    Answered bare w ∧ Lonely w :=
  Reached.exists_of_follow alone _ (by decide +kernel)

/-- Both nodes join, and each makes a VM of the default VPC. -/
def together : List Action :=
  [.join one, .join two, .request one.nodeId (.spawnVm Sample.spawn none),
    .request one.nodeId (.spawnVm Sample.spawn (some two.nodeId))]

/-- A VM on each node, and the passes are calm. -/
def Peopled (w : World) : Prop :=
  (w.db .nodes).rows.map NodeRow.nodeId = order ∧ (w.db .vms).rows.map VmRow.nodeId = order ∧
    (w.db .vpcs).rows.length = 1 ∧ Calm Sample.env Sample.cluster order w

instance (w : World) : Decidable (Peopled w) := inferInstanceAs (Decidable (_ ∧ _ ∧ _ ∧ _))

theorem together_reached : ∃ w, Reached (exec Sample.env) (Action.program Sample.cluster 1)
    besideTwo Answered bare w ∧ Peopled w :=
  Reached.exists_of_follow together _ (by decide +kernel)

theorem sample_hex (k : Nat) : HexId (Sample.env.uuid k) := by
  rw [FloodList.HexId, FloodList.HexText, List.all_eq_true]
  intro c there
  have digit : c.isDigit = true :=
    Nat.isDigit_of_mem_toDigits (by decide) (by decide) (List.mem_of_mem_take there)
  rw [IpAddress.hexDigit, if_pos digit]
  rfl

theorem own_of_one {w : World} (single : (w.db .vpcs).rows.length = 1) : OwnNames w := by
  obtain ⟨only_, rows⟩ := List.length_eq_one_iff.mp single
  intro v known v' known' _
  have same : ∀ v ∈ (w.db .vpcs).rows, v = only_ := by
    rw [rows]
    exact fun v inside => List.mem_singleton.mp inside
  rw [same v known, same v' known']

end Nyc.FloodDomains
