import Mathlib.Logic.Relation
import Nyc.Properties.Convergence
import Nyc.Properties.Spawn

/-!
# Tenants apart

Which VPC a link belongs to can be read off its name, as long as the ids that the names are cut from
differ. No command joins links of different VPCs, so that no frame of one VPC gets into another.
-/

namespace Nyc.Isolation

open Data Client
open Effects Effects.Program

/-- The VMs and VPCs of a run, and the public bridges of its nodes. -/
structure Plan where
  vms : Id → Prop
  vpcs : Id → Prop
  vpcOf : Id → Id
  publicBridge : Id → Str

/-- The parts of the ids that go into names and numbers differ. -/
structure Plan.Apart (plan : Plan) : Prop where
  placed : ∀ v, plan.vms v → plan.vpcs (plan.vpcOf v)
  devices : ∀ u u', plan.vpcs u → plan.vpcs u' → u.take 4 = u'.take 4 → u = u'
  vnis : ∀ u u', plan.vpcs u → plan.vpcs u' → Overlay.vniFor u = Overlay.vniFor u' → u = u'
  names : ∀ v v', plan.vms v → plan.vms v' → v.take 8 = v'.take 8 → v = v'
  public_ : ∀ node, ¬ "br-" <+: plan.publicBridge node

/-! ## Links by their names -/

/-- The links of the root namespace that belong to a VPC. -/
inductive Device where
  | bridge | vxlan | outer | inner

namespace Device

def name (node : Id) : Device → Id → Str
  | bridge => Bridge.nameFor node
  | vxlan => Vxlan.nameFor node
  | outer => VmUp.hostVeth
  | inner => VmUp.nsVeth

/-- What the names begin with, as far as it tells them apart. -/
def tag : Device → Option Char × Option Char
  | bridge => (some 'b', some '-')
  | vxlan => (some 'v', some '-')
  | outer => (some 'v', some 'h')
  | inner => (some 'v', some 'n')

def Known (plan : Plan) : Device → Id → Prop
  | bridge | vxlan => plan.vpcs
  | outer | inner => plan.vms

def vpc (plan : Plan) : Device → Id → Id
  | bridge | vxlan => id
  | outer | inner => plan.vpcOf

theorem tag_inj {d d' : Device} (same : d.tag = d'.tag) : d = d' := by
  cases d <;> cases d' <;> first | rfl | exact absurd same (by decide)

end Device

def tagOf (name : Str) : Option Char × Option Char := (name.head?, name[2]?)

theorem tagOf_name (node : Id) (d : Device) (id : Id) : tagOf (d.name node id) = d.tag := by
  cases d <;> rfl

/-- The links of a VM's namespace that belong to its VPC. -/
def Inside (v : Id) (name : Str) : Prop := name = "nbr0" ∨ name = "tap0" ∨ name = VmUp.nsVeth v

/-- The link belongs to the VPC. -/
inductive Of (plan : Plan) (node : Id) : LinkKey → Id → Prop where
  | root (d : Device) (id : Id) (known : d.Known plan id) : Of plan node (none, d.name node id)
    (d.vpc plan id)
  | inside {v : Id} {name : Str} (known : plan.vms v) (listed : Inside v name) :
    Of plan node (some (VmUp.nsName v), name) (plan.vpcOf v)

section

variable {plan : Plan} (apart : plan.Apart) {node : Id}

include apart

theorem name_inj {d : Device} {id id' : Id} (known : d.Known plan id) (known' : d.Known plan id')
    (same : d.name node id = d.name node id') : id = id' := by
  cases d with
  | bridge | vxlan =>
    apply apart.devices id id' known known'
    exact List.append_cancel_left same
  | outer | inner =>
    apply apart.names id id' known known'
    exact List.append_cancel_left same

theorem of_unique {k k' : LinkKey} {u u' : Id} (of : Of plan node k u) (of' : Of plan node k' u')
    (same : k = k') :
    u = u' := by
  cases of with
  | root d id known =>
    cases of' with
    | root d' id' known' =>
      have names : d.name node id = d'.name node id' := (Prod.mk.inj same).2
      have tags := congrArg tagOf names
      rw [tagOf_name, tagOf_name] at tags
      obtain rfl := Device.tag_inj tags
      rw [name_inj apart known known' names]
    | inside known' listed => exact absurd (Prod.mk.inj same).1 (Option.some_ne_none _).symm
  | inside known listed =>
    cases of' with
    | root d' id' known' => exact absurd (Prod.mk.inj same).1 (Option.some_ne_none _)
    | inside known' listed' =>
      have cut := List.append_cancel_left (Option.some.inj (Prod.mk.inj same).1)
      rw [apart.names _ _ known known' cut]

end

open Classical in
/-- The VPC that the link belongs to; none for a link of the public network and for any other. -/
noncomputable def segment (plan : Plan) (node : Id) (k : LinkKey) : Option Id :=
  if of : ∃ u, Of plan node k u then some of.choose else none

theorem segment_none {plan : Plan} {node : Id} {k : LinkKey} (none_ : ∀ u, ¬ Of plan node k u) :
    segment plan node k = none :=
  dif_neg fun found => found.elim none_

theorem segment_iff {plan : Plan} (apart : plan.Apart) {node : Id} {k : LinkKey} {u : Id} :
    segment plan node k = some u ↔ Of plan node k u := by
  constructor
  · intro found
    by_cases of : ∃ u, Of plan node k u
    · rw [segment, dif_pos of] at found
      cases found
      exact of.choose_spec
    · rw [segment, dif_neg of] at found
      cases found
  · intro of
    have some_ : ∃ u, Of plan node k u := ⟨u, of⟩
    rw [segment, dif_pos some_, of_unique apart some_.choose_spec of rfl]

/-- A link whose name begins unlike those of a VPC's links belongs to none. -/
theorem not_of_tag {plan : Plan} {node : Id} {name : Str} (other : ∀ d : Device, tagOf name ≠ d.tag)
    (u : Id) :
    ¬ Of plan node (none, name) u := by
  generalize key : ((none, name) : LinkKey) = k
  intro of
  cases of with
  | root d id known =>
    apply other d
    rw [← tagOf_name node d id, (Prod.mk.inj key).2]
  | inside known listed => exact absurd (Prod.mk.inj key).1 (Option.some_ne_none _).symm

theorem not_of_inside {plan : Plan} {node ns name : Str} (other : ∀ v, ¬ Inside v name) (u : Id) :
    ¬ Of plan node (some ns, name) u := by
  generalize key : ((some ns, name) : LinkKey) = k
  intro of
  cases of with
  | root d id known => exact absurd (Prod.mk.inj key).1 (Option.some_ne_none _)
  | @inside v name' known listed =>
    rw [← (Prod.mk.inj key).2] at listed
    exact other v listed

theorem not_inside_of_head {name : Str} (head : name.head? = some 'p') (v : Id) :
    ¬ Inside v name := by
  rintro (rfl | rfl | rfl)
  · exact absurd head (by decide)
  · exact absurd head (by decide)
  · have own : (VmUp.nsVeth v).head? = some 'v' := rfl
    rw [own] at head
    exact absurd head (by decide)

theorem not_inside_tap1 (v : Id) : ¬ Inside v "tap1" := by
  rintro (same | same | same)
  · exact absurd same (by decide)
  · exact absurd same (by decide)
  · have own : (VmUp.nsVeth v).head? = some 'v' := rfl
    rw [← same] at own
    exact absurd own (by decide)

/-! ## Links of one VM -/

theorem outer_cut {st st' : Stack} {v v' : Id}
    (same : st.outer v = st'.outer v') : st = st' ∧ v.take 8 = v'.take 8 := by
  have heads := Stack.outer_head st v
  rw [same, Stack.outer_head] at heads
  obtain rfl := Stack.letter_inj (Option.some.inj heads).symm
  cases st <;> exact ⟨rfl, List.append_cancel_left same⟩

theorem inner_cut {st st' : Stack} {v v' : Id}
    (same : st.inner v = st'.inner v') : st = st' ∧ v.take 8 = v'.take 8 := by
  have heads := Stack.inner_head st v
  rw [same, Stack.inner_head] at heads
  obtain rfl := Stack.letter_inj (Option.some.inj heads).symm
  cases st <;> exact ⟨rfl, List.append_cancel_left same⟩

theorem outer_ne_inner {st st' : Stack} {v v' : Id} : st.outer v ≠ st'.inner v' := by
  intro same
  have third := Stack.outer_third st v
  rw [same, Stack.inner_third] at third
  exact absurd third (by decide)

theorem own_outer {v m : Id} {st : Stack} : Own v (none, st.outer m) ↔ v.take 8 = m.take 8 := by
  constructor
  · rintro (inside | ⟨st', same | same⟩)
    · cases inside
    · exact (outer_cut (Prod.mk.inj same).2).2.symm
    · exact absurd (Prod.mk.inj same).2 outer_ne_inner
  · intro same
    refine .inr ⟨st, .inl ?_⟩
    cases st <;> simp only [Stack.outer, VmUp.hostVeth, VmUp.pubHostVeth, same]

theorem own_inner {v m : Id} {st : Stack} : Own v (none, st.inner m) ↔ v.take 8 = m.take 8 := by
  constructor
  · rintro (inside | ⟨st', same | same⟩)
    · cases inside
    · exact absurd (Prod.mk.inj same).2.symm outer_ne_inner
    · exact (inner_cut (Prod.mk.inj same).2).2.symm
  · intro same
    refine .inr ⟨st, .inr ?_⟩
    cases st <;> simp only [Stack.inner, VmUp.nsVeth, VmUp.pubNsVeth, same]

theorem own_inside {v m : Id} {name : Str} :
    Own v (some (VmUp.nsName m), name) ↔ v.take 8 = m.take 8 := by
  constructor
  · rintro (inside | ⟨st, same | same⟩)
    · exact (List.append_cancel_left (Option.some.inj inside)).symm
    · cases (Prod.mk.inj same).1
    · cases (Prod.mk.inj same).1
  · intro same
    apply Or.inl
    simp only [VmUp.nsName, same]

theorem own_pair (st : Stack) (v m : Id) : Own v (none, st.outer m) ↔ Own v (none, st.inner m) :=
  own_outer.trans own_inner.symm

theorem own_moved (st : Stack) (v m : Id) (name : Str) :
    Own v (some (VmUp.nsName m), name) ↔ Own v (none, st.inner m) := own_inside.trans own_inner.symm

/-! ## What is kept -/

/-- Ports, pairs and VXLAN devices join only links of one VPC. -/
structure Segregated (plan : Plan) (node : Id) (n : Net) : Prop where
  master : ∀ k kind br, n.portAt k = some (kind, some br) →
    segment plan node (k.1, br) = segment plan node k
  pairs : ∀ k k' p m m', n.portAt k = some (.veth p, m) → n.portAt k' = some (.veth p, m') →
    segment plan node k = segment plan node k' ∧ ∀ v, Own v k ↔ Own v k'
  fresh : ∀ k p m, n.portAt k = some (.veth p, m) → p < n.pairs
  vxlans : ∀ k vni ip m, n.portAt k = some (.vxlan vni ip, m) →
    ∀ u, plan.vpcs u → (vni = Overlay.vniFor u ↔ segment plan node k = some u)
  bridges : ∀ k m, n.portAt k = some (.bridge, m) → ∀ u, Of plan node k u →
    k = (none, Bridge.nameFor node u) ∨ k.2 = "nbr0"

namespace Segregated

variable {plan : Plan} {node : Id} {n n' : Net}

theorem same (seg : Segregated plan node n) (ports : SamePorts n n') : Segregated plan node n' := by
  have at_ (k : LinkKey) := ports.ports k
  constructor
  · intro k kind br there
    exact seg.master k kind br (at_ k ▸ there)
  · intro k k' p m m' there there'
    exact seg.pairs k k' p m m' (at_ k ▸ there) (at_ k' ▸ there')
  · intro k p m there
    rw [ports.pairs]
    exact seg.fresh k p m (at_ k ▸ there)
  · intro k vni ip m there
    exact seg.vxlans k vni ip m (at_ k ▸ there)
  · intro k m there
    exact seg.bridges k m (at_ k ▸ there)

theorem fewer (seg : Segregated plan node n) (ports : FewerPorts n n') :
    Segregated plan node n' := by
  have old {k : LinkKey} {x : Kind × Option Str} (there : n'.portAt k = some x) :
      n.portAt k = some x := by
    rcases ports.ports k with gone | same
    · rw [gone] at there
      cases there
    · rwa [← same]
  constructor
  · intro k kind br there
    exact seg.master k kind br (old there)
  · intro k k' p m m' there there'
    exact seg.pairs k k' p m m' (old there) (old there')
  · intro k p m there
    rw [ports.pairs]
    exact seg.fresh k p m (old there)
  · intro k vni ip m there
    exact seg.vxlans k vni ip m (old there)
  · intro k m there
    exact seg.bridges k m (old there)

/-- A new link that is neither joined to a bridge nor the end of a pair. -/
theorem add {key : LinkKey} {kind : Kind} (seg : Segregated plan node n)
    (pairs : n'.pairs = n.pairs)
    (ports : ∀ k, n'.portAt k = if k = key then some (kind, none) else n.portAt k)
      (veth : ∀ p, kind ≠ .veth p)
    (vxlan : ∀ vni ip, kind = .vxlan vni ip →
      ∀ u, plan.vpcs u → (vni = Overlay.vniFor u ↔ segment plan node key = some u))
    (bridge : kind = .bridge → ∀ u, Of plan node key u → key = (none, Bridge.nameFor node u) ∨
      key.2 = "nbr0") :
    Segregated plan node n' := by
  -- a port of `n'` is the new one or was there before
  have cases_ {k : LinkKey} {x : Kind × Option Str} (there : n'.portAt k = some x) :
      (k = key ∧ x = (kind, none)) ∨ n.portAt k = some x := by
    rw [ports] at there
    split at there
    next here => exact .inl ⟨here, (Option.some.inj there).symm⟩
    next => exact .inr there
  -- the new link is no veth, so the pairs are those of `n`
  have end_ {k : LinkKey} {p : Nat} {m : Option Str} (there : n'.portAt k = some (.veth p, m)) :
      n.portAt k = some (.veth p, m) := by
    rcases cases_ there with ⟨-, same⟩ | old
    · exact absurd (Prod.mk.inj same).1.symm (veth p)
    · exact old
  constructor
  · intro k kind' br there
    rcases cases_ there with ⟨-, same⟩ | old
    · cases (Prod.mk.inj same).2
    · exact seg.master k kind' br old
  · intro k k' p m m' there there'
    exact seg.pairs k k' p m m' (end_ there) (end_ there')
  · intro k p m there
    rw [pairs]
    exact seg.fresh k p m (end_ there)
  · intro k vni ip m there
    rcases cases_ there with ⟨rfl, same⟩ | old
    · exact vxlan vni ip (Prod.mk.inj same).1.symm
    · exact seg.vxlans k vni ip m old
  · intro k m there
    rcases cases_ there with ⟨rfl, same⟩ | old
    · exact bridge (Prod.mk.inj same).1.symm
    · exact seg.bridges k m old

/-- A new pair. -/
theorem pair {a b : LinkKey} (seg : Segregated plan node n) (pairs : n'.pairs = n.pairs + 1)
    (ports : ∀ k, n'.portAt k = if k = a ∨ k = b then some (.veth n.pairs, none) else n.portAt k)
    (alike : segment plan node a = segment plan node b)
      (own : ∀ v, Own v a ↔ Own v b) : Segregated plan node n' := by
  have cases_ {k : LinkKey} {x : Kind × Option Str} (there : n'.portAt k = some x) :
      ((k = a ∨ k = b) ∧ x = (.veth n.pairs, none)) ∨ n.portAt k = some x := by
    rw [ports] at there
    split at there
    next here => exact .inl ⟨here, (Option.some.inj there).symm⟩
    next => exact .inr there
  -- an old end has an old number
  have numbered {k : LinkKey} {p : Nat} {m : Option Str} (there : n'.portAt k = some (.veth p, m)) :
      ((k = a ∨ k = b) ∧ p = n.pairs) ∨ (n.portAt k = some (.veth p, m) ∧ p < n.pairs) := by
    rcases cases_ there with ⟨here, same⟩ | old
    · exact .inl ⟨here, Kind.veth.inj (Prod.mk.inj same).1⟩
    · exact .inr ⟨old, seg.fresh k p m old⟩
  constructor
  · intro k kind br there
    rcases cases_ there with ⟨-, same⟩ | old
    · cases (Prod.mk.inj same).2
    · exact seg.master k kind br old
  · intro k k' p m m' there there'
    rcases numbered there with ⟨here, rfl⟩ | ⟨old, less⟩
    · rcases numbered there' with ⟨here', -⟩ | ⟨-, less⟩
      · rcases here with rfl | rfl <;> rcases here' with rfl | rfl
        · exact ⟨rfl, fun _ => Iff.rfl⟩
        · exact ⟨alike, own⟩
        · exact ⟨alike.symm, fun v => (own v).symm⟩
        · exact ⟨rfl, fun _ => Iff.rfl⟩
      · omega
    · rcases numbered there' with ⟨-, rfl⟩ | ⟨old', -⟩
      · omega
      · exact seg.pairs k k' p m m' old old'
  · intro k p m there
    rcases numbered there with ⟨-, rfl⟩ | ⟨-, less⟩ <;> omega
  · intro k vni ip m there
    rcases cases_ there with ⟨-, same⟩ | old
    · cases (Prod.mk.inj same).1
    · exact seg.vxlans k vni ip m old
  · intro k m there
    rcases cases_ there with ⟨-, same⟩ | old
    · cases (Prod.mk.inj same).1
    · exact seg.bridges k m old

/-- A link is joined to a bridge of its VPC. -/
theorem join {key : LinkKey} {kind : Kind} {old : Option Str} {br : Str}
    (seg : Segregated plan node n)
    (there : n.portAt key = some (kind, old)) (pairs : n'.pairs = n.pairs)
    (ports : ∀ k, n'.portAt k = if k = key then some (kind, some br) else n.portAt k)
    (alike : segment plan node (key.1, br) = segment plan node key) : Segregated plan node n' := by
  -- a port, but for the bridge it is joined to, is what it was
  have before {k : LinkKey} {kind' : Kind} {m : Option Str} (now : n'.portAt k = some (kind', m)) :
      ∃ m', n.portAt k = some (kind', m') := by
    rw [ports] at now
    split at now
    next here =>
      cases now
      exact ⟨old, here ▸ there⟩
    next => exact ⟨m, now⟩
  constructor
  · intro k kind' br' now
    rw [ports] at now
    split at now
    next here =>
      cases now
      rw [here]
      exact alike
    next => exact seg.master k kind' br' now
  · intro k k' p m m' now now'
    obtain ⟨_, was⟩ := before now
    obtain ⟨_, was'⟩ := before now'
    exact seg.pairs k k' p _ _ was was'
  · intro k p m now
    obtain ⟨_, was⟩ := before now
    rw [pairs]
    exact seg.fresh k p _ was
  · intro k vni ip m now
    obtain ⟨_, was⟩ := before now
    exact seg.vxlans k vni ip _ was
  · intro k m now
    obtain ⟨_, was⟩ := before now
    exact seg.bridges k _ was

/-- A link is moved into a namespace. -/
theorem move {name ns : Str} {kind : Kind} {old : Option Str} (seg : Segregated plan node n)
    (there : n.portAt (none, name) = some (kind, old)) (pairs : n'.pairs = n.pairs)
    (ports : ∀ k, n'.portAt k =
      if k = (some ns, name) then some (kind, none) else if k = (none, name) then none
        else n.portAt k)
    (alike : segment plan node (some ns, name) = segment plan node (none, name))
    (own : ∀ v, Own v (some ns, name) ↔ Own v (none, name))
    (bridge : kind = .bridge → ∀ u, ¬ Of plan node (some ns, name) u) :
      Segregated plan node n' := by
  -- where a link was before, which is of the same VPC and the same VM
  have before {k : LinkKey} {kind' : Kind} {m : Option Str} (now : n'.portAt k = some (kind', m)) :
      (k = (some ns, name) ∧ kind' = kind ∧ m = none) ∨ n.portAt k = some (kind', m) := by
    rw [ports] at now
    split at now
    next here =>
      cases now
      exact .inl ⟨here, rfl, rfl⟩
    next =>
      split at now
      · cases now
      · exact .inr now
  have was {k : LinkKey} {kind' : Kind} {m : Option Str} (now : n'.portAt k = some (kind', m)) :
      ∃ k₀ m₀, n.portAt k₀ = some (kind', m₀) ∧
        segment plan node k = segment plan node k₀ ∧ ∀ v, Own v k ↔
        Own v k₀ := by
    rcases before now with ⟨rfl, rfl, -⟩ | same
    · exact ⟨_, _, there, alike, own⟩
    · exact ⟨k, m, same, rfl, fun _ => Iff.rfl⟩
  constructor
  · intro k kind' br now
    rcases before now with ⟨-, -, none_⟩ | same
    · cases none_
    · exact seg.master k kind' br same
  · intro k k' p m m' now now'
    obtain ⟨k₀, m₀, found, alike₀, own₀⟩ := was now
    obtain ⟨k₁, m₁, found', alike₁, own₁⟩ := was now'
    obtain ⟨one, both⟩ := seg.pairs k₀ k₁ p m₀ m₁ found found'
    refine ⟨?_, fun v => ?_⟩
    · rw [alike₀, one, alike₁]
    · rw [own₀, both, own₁]
  · intro k p m now
    obtain ⟨k₀, m₀, found, -⟩ := was now
    rw [pairs]
    exact seg.fresh k₀ p m₀ found
  · intro k vni ip m now
    obtain ⟨k₀, m₀, found, alike₀, -⟩ := was now
    rw [alike₀]
    exact seg.vxlans k₀ vni ip m₀ found
  · intro k m now u of
    rcases before now with ⟨rfl, rfl, -⟩ | same
    · exact absurd of (bridge rfl u)
    · exact seg.bridges k m same u of

end Segregated

/-! ## The commands -/

/-- The bring-up is of a VM of the plan, on its node. -/
structure Fits (plan : Plan) (node : Id) (spec : VmSpec) : Prop where
  vm : plan.vms spec.vmId
  vpc : spec.vpcId = plan.vpcOf spec.vmId
  node_ : spec.nodeId = node
  public_ : spec.publicBridge = plan.publicBridge node

/-- Whatever the command does to a network whose VPCs are apart, they stay apart. -/
def KeepsSegregated (plan : Plan) (node : Id) (c : NetCmd) : Prop :=
  ∀ n a n', Segregated plan node n → c.step n = some (a, n') → Segregated plan node n'

section

variable {plan : Plan} (apart : plan.Apart) {node : Id} {spec : VmSpec}

theorem keepsSegregated_plain {c : NetCmd} (plain : c.Plain) : KeepsSegregated plan node c :=
  fun _ _ _ seg step => seg.same (plain_step plain step)

theorem keepsSegregated_join {key : LinkKey} {br : Str}
    (alike : ∀ n : Net, (∃ up, n.portAt (key.1, br) = some (.bridge, up)) → Segregated plan node n →
      segment plan node (key.1, br) = segment plan node key) :
        KeepsSegregated plan node (.setMaster key br) := by
  intro n a n' seg step
  obtain ⟨⟨kind, old, there, ports⟩, bridge, pairs⟩ := setMaster_port step
  exact seg.join there pairs ports (alike n bridge seg)

theorem keepsSegregated_add_inner {v : Id} {name : Str} {kind : Kind}
    (listed : (name, kind) ∈ VmUp.inner) :
    KeepsSegregated plan node (.add (some (VmUp.nsName v), name) kind) := by
  intro n a n' seg step
  obtain ⟨pairs, ports⟩ := add_port step
  simp only [VmUp.inner, List.mem_cons, Prod.mk.injEq, List.not_mem_nil, or_false] at listed
  refine seg.add pairs ports ?_ ?_ ?_
  · rintro p rfl
    rcases listed with ⟨-, same⟩ | ⟨-, same⟩ | ⟨-, same⟩ | ⟨-, same⟩ <;> cases same
  · rintro vni ip rfl
    rcases listed with ⟨-, same⟩ | ⟨-, same⟩ | ⟨-, same⟩ | ⟨-, same⟩ <;> cases same
  · rintro rfl u of
    rcases listed with ⟨rfl, -⟩ | ⟨-, same⟩ | ⟨rfl, -⟩ | ⟨-, same⟩
    · exact .inr rfl
    · cases same
    · exact absurd of (not_of_inside (not_inside_of_head (by decide)) u)
    · cases same

include apart

/-- A public bridge is no link of a VPC. -/
theorem public_free {n : Net} {up : Option Str} (seg : Segregated plan node n)
    (there : n.portAt (none, plan.publicBridge node) = some (.bridge, up)) (u : Id) :
    ¬ Of plan node (none, plan.publicBridge node) u := by
  intro of
  rcases seg.bridges _ _ there u of with same | same
  · apply apart.public_ node
    rw [(Prod.mk.inj same).2, Bridge.nameFor, List.append_assoc, List.append_assoc]
    exact List.prefix_append ..
  · generalize key : ((none, plan.publicBridge node) : LinkKey) = k at of
    cases of with
    | root d id is =>
      have tags := tagOf_name node d id
      rw [← (Prod.mk.inj key).2] at tags
      change plan.publicBridge node = "nbr0" at same
      rw [same] at tags
      cases d <;> exact absurd tags (by decide)
    | inside is listed => cases (Prod.mk.inj key).1

/-- What a bring-up does to the network of its node. -/
theorem keepsSegregated_wires (fits : Fits plan node spec) {c : NetCmd}
    (wires : VmUp.Wires spec c) : KeepsSegregated plan node c := by
  have known : plan.vms spec.vmId := fits.vm
  have placed : plan.vpcs spec.vpcId := fits.vpc ▸ apart.placed _ known
  obtain rfl := fits.node_
  -- the links of the VM and of its VPC
  have device (d : Device) (id : Id) (is : d.Known plan id) : segment plan spec.nodeId
    (none, d.name spec.nodeId id) =
      some (d.vpc plan id) := (segment_iff apart).mpr (.root d id is)
  have inside (name : Str) (listed : Inside spec.vmId name) :
      segment plan spec.nodeId (some (VmUp.nsName spec.vmId), name) = some (plan.vpcOf spec.vmId) :=
    (segment_iff apart).mpr (.inside known listed)
  have bridge := device .bridge spec.vpcId placed
  have vxlan := device .vxlan spec.vpcId placed
  have outer := device .outer spec.vmId known
  have inner := device .inner spec.vmId known
  -- the links of the public network
  have apart_ (name : Str) (other : ∀ d : Device, tagOf name ≠ d.tag) : segment plan spec.nodeId
    (none, name) = none :=
    segment_none (not_of_tag other)
  have publicOuter := apart_ (VmUp.pubHostVeth spec.vmId)
    (by rintro (_ | _ | _ | _) <;> exact fun same => by cases same)
  have publicInner := apart_ (VmUp.pubNsVeth spec.vmId)
    (by rintro (_ | _ | _ | _) <;> exact fun same => by cases same)
  have publicInside (name : Str) (head : name.head? = some 'p') :
      segment plan spec.nodeId (some (VmUp.nsName spec.vmId), name) = none :=
    segment_none (not_of_inside (not_inside_of_head head))
  cases wires with
  | «show» | setAddress | addAddr | fdbShow | fdbAppend | fdbDel | sysctlForward | listChain
  | newChain |
    checkRule |
    appendRule | netns | setUp => exact keepsSegregated_plain trivial
  | bridge =>
    intro n a n' seg step
    obtain ⟨pairs, ports⟩ := add_port step
    refine seg.add pairs ports (fun _ same => by cases same) (fun _ _ same => by cases same)
      fun _ u of => .inl ?_
    rw [of_unique apart of (.root .bridge spec.vpcId placed) rfl]
    rfl
  | vxlan =>
    intro n a n' seg step
    obtain ⟨pairs, ports⟩ := add_port step
    refine seg.add pairs ports (fun _ same => by cases same) ?_ fun same => by cases same
    rintro vni ip same u is
    cases same
    have here : segment plan spec.nodeId
      (none, Vxlan.nameFor spec.nodeId spec.vpcId) = some spec.vpcId := vxlan
    rw [here, Option.some_inj]
    exact ⟨apart.vnis _ _ placed is, congrArg _⟩
  | joinVxlan => exact keepsSegregated_join fun _ _ _ => bridge.trans vxlan.symm
  | pair =>
    intro n a n' seg step
    obtain ⟨pairs, ports⟩ := addVeth_port step
    exact seg.pair pairs ports (outer.trans inner.symm) fun v => own_pair .vpc v spec.vmId
  | publicPair =>
    intro n a n' seg step
    obtain ⟨pairs, ports⟩ := addVeth_port step
    exact seg.pair pairs ports (publicOuter.trans publicInner.symm) fun v =>
      own_pair .public_ v spec.vmId
  | place =>
    intro n a n' seg step
    obtain ⟨⟨kind, old, there, ports⟩, pairs⟩ := setNetns_port step
    refine seg.move there pairs ports ((inside _ (.inr (.inr rfl))).trans inner.symm)
      (fun v => own_moved .vpc v spec.vmId _) ?_
    rintro rfl u -
    rcases seg.bridges _ _ there _ (.root .inner spec.vmId known) with same | same
    · have tags := congrArg tagOf (Prod.mk.inj same).2
      cases tags
    · have tags := congrArg tagOf same
      cases tags
  | publicPlace =>
    intro n a n' seg step
    obtain ⟨⟨kind, old, there, ports⟩, pairs⟩ := setNetns_port step
    refine seg.move there pairs ports ((publicInside _ rfl).trans publicInner.symm)
      (fun v => own_moved .public_ v spec.vmId _) fun _ u => ?_
    exact not_of_inside (not_inside_of_head rfl) u
  | join =>
    refine keepsSegregated_join fun _ _ _ => ?_
    refine bridge.trans (Eq.trans ?_ outer.symm)
    exact congrArg some fits.vpc
  | publicJoin =>
    refine keepsSegregated_join fun n ⟨up, there⟩ seg => ?_
    rw [fits.public_] at there ⊢
    exact (segment_none (public_free apart seg there)).trans publicOuter.symm
  | inner name kind listed => exact keepsSegregated_add_inner listed
  | attachVeth =>
    exact keepsSegregated_join fun _ _ _ =>
      (inside _ (.inl rfl)).trans (inside _ (.inr (.inr rfl))).symm
  | attachTap =>
    exact keepsSegregated_join fun _ _ _ =>
      (inside _ (.inl rfl)).trans (inside _ (.inr (.inl rfl))).symm
  | attachPublicVeth =>
    exact keepsSegregated_join fun _ _ _ => (publicInside _ rfl).trans (publicInside _ rfl).symm
  | attachPublicTap =>
    exact keepsSegregated_join fun _ _ _ => (publicInside _ rfl).trans
      (segment_none (not_of_inside not_inside_tap1)).symm

end

/-- What a take-down does to the network of its node. -/
theorem keepsSegregated_down {plan : Plan} {node v vg : Id} {c : NetCmd}
    (issues : VmDown.Issues v vg (.net c)) :
    KeepsSegregated plan node c := by
  intro n a n' seg step
  cases issues with
  | netnsDel => exact seg.fewer (netnsDel_port step)
  | delVeth | delPublic => exact seg.fewer (del_port step)

/-! ## Processes -/

/-- The pid in a VM's pid file is that of no other VM's process. -/
structure Tagged (h : Host) : Prop where
  fresh : ∀ q ∈ h.procs, q.pid < h.nextPid
  bound : ∀ v pid, h.pidFile v = some pid → pid < h.nextPid
  owner : ∀ v pid, h.pidFile v = some pid → ∀ q ∈ h.procs, (q.pid : Int) = pid → q.vmId = v

/-- A process has an old or a new pid. -/
structure Younger (h h' : Host) : Prop where
  nextPid : h.nextPid ≤ h'.nextPid
  procs : ∀ q ∈ h'.procs, q ∈ h.procs ∨ h.nextPid ≤ q.pid

/-- Every process with the pid is of the VM, now and later. -/
def Claimed (v : Id) (pid : Nat)
    (h : Host) : Prop := pid < h.nextPid ∧ ∀ q ∈ h.procs, q.pid = pid → q.vmId = v

/-- The command neither starts a process nor names one in a pid file. -/
def Forgets : Cmd → Prop
  | .popen _ _ | .dir _ (.writePid _) => False
  | _ => True

theorem Younger.refl (h : Host) : Younger h h := ⟨Nat.le_refl _, fun _ there => .inl there⟩

theorem Younger.trans {h h' h'' : Host} (first : Younger h h') (second : Younger h' h'') :
    Younger h h'' := by
  refine ⟨Nat.le_trans first.nextPid second.nextPid, fun q there => ?_⟩
  rcases second.procs q there with old | new
  · exact first.procs q old
  · exact .inr (Nat.le_trans first.nextPid new)

theorem Claimed.later {v : Id} {pid : Nat} {h h' : Host} (claimed : Claimed v pid h)
    (younger : Younger h h') :
    Claimed v pid h' := by
  refine ⟨Nat.lt_of_lt_of_le claimed.1 younger.nextPid, fun q there same => ?_⟩
  rcases younger.procs q there with old | new
  · exact claimed.2 q old same
  · have less := claimed.1
    omega

/-- Such a command forgets a pid at most. -/
theorem forgets_exec (x : Chance) {c : Cmd} (forgets : Forgets c) (h : Host) :
    Fewer h (h.exec x c).2 ∧ ∀ v, (h.exec x c).2.pidFile v = none ∨
      (h.exec x c).2.pidFile v = h.pidFile v := by
  by_cases quiet : c.Quiet
  · have calm := calm_exec x c quiet h
    exact ⟨calm.toFewer, fun v => .inr (calm.pidFile v)⟩
  · have reaped : (h.reap x.gone).procs.Sublist h.procs := List.filter_sublist
    have emptied (vmId : Id) (c : DirCmd) (d : Option VmDir) (a : c.Res)
        (step : c.step (h.dirs.lookup vmId) = some (a, d)) (noPid : d.bind VmDir.pid = none) :
        Fewer h (h.exec x (.dir vmId c)).2 ∧ ∀ v, (h.exec x (.dir vmId c)).2.pidFile v = none ∨
          (h.exec x (.dir vmId c)).2.pidFile v = h.pidFile v := by
      rw [exec_dir x vmId c h step]
      refine ⟨⟨reaped, rfl⟩, fun v => ?_⟩
      rw [Host.pidFile, Host.pidFile, lookup_putDir]
      split
      · exact .inl noPid
      · exact .inr rfl
    cases c with
    | popen vmId ns => exact forgets.elim
    | dir vmId c =>
      cases c with
      | writePid pid => exact forgets.elim
      | rmtree => exact emptied vmId .rmtree none () rfl rfl
      | unlinkPid =>
        refine emptied vmId .unlinkPid _ () rfl ?_
        cases h.dirs.lookup vmId <;> rfl
      | _ => exact absurd trivial quiet
    | _ => exact absurd trivial quiet

theorem Tagged.forgets {h : Host} (tagged : Tagged h) (x : Chance) {c : Cmd} (forgets : Forgets c) :
    Tagged (h.exec x c).2 := by
  obtain ⟨fewer, files⟩ := forgets_exec x forgets h
  have old {v : Id} {pid : Int} (file : (h.exec x c).2.pidFile v = some pid) :
      h.pidFile v = some pid := by
    rcases files v with none_ | same
    · rw [none_] at file
      cases file
    · rwa [← same]
  constructor
  · intro q there
    rw [fewer.nextPid]
    exact tagged.fresh q (fewer.procs.subset there)
  · intro v pid file
    rw [fewer.nextPid]
    exact tagged.bound v pid (old file)
  · intro v pid file q there
    exact tagged.owner v pid (old file) q (fewer.procs.subset there)

theorem younger_forgets {h : Host} (x : Chance) {c : Cmd} (forgets : Forgets c) :
    Younger h (h.exec x c).2 := by
  obtain ⟨fewer, -⟩ := forgets_exec x forgets h
  exact ⟨fewer.nextPid.ge, fun q there => .inl (fewer.procs.subset there)⟩

/-- The next pid is given to a new process of the VM. -/
theorem popen_exec (x : Chance) (v ns : Str) (h : Host) : h.exec x (.popen v ns) =
    (.ok h.nextPid,
      { h.reap x.gone with
        procs := ⟨h.nextPid, v⟩ :: (h.reap x.gone).procs, nextPid := h.nextPid + 1 }) :=
  exec_of_step x (.popen v ns) h _ _ (.inr rfl) rfl

theorem Tagged.popen {h : Host} (tagged : Tagged h) (x : Chance) (v ns : Str) :
    Tagged (h.exec x (.popen v ns)).2 ∧ Younger h (h.exec x (.popen v ns)).2 ∧
      Claimed v h.nextPid (h.exec x (.popen v ns)).2 := by
  rw [popen_exec]
  -- a process of the new host is the one just started or was there before
  have cases_ {q : Proc} (there : q ∈ (⟨h.nextPid, v⟩ :: (h.reap x.gone).procs : List Proc)) :
      q = ⟨h.nextPid, v⟩ ∨ q ∈ h.procs := by
    rcases List.mem_cons.mp there with new | old
    · exact .inl new
    · exact .inr (List.mem_of_mem_filter old)
  refine ⟨⟨?_, ?_, ?_⟩, ⟨Nat.le_succ _, ?_⟩, Nat.lt_succ_self _, ?_⟩
  · intro q there
    rcases cases_ there with rfl | old
    · exact Nat.lt_succ_self _
    · exact Nat.lt_succ_of_lt (tagged.fresh q old)
  · intro v' pid file
    have bound := tagged.bound v' pid file
    change pid < ((h.nextPid + 1 : Nat) : Int)
    omega
  -- the new pid is above every recorded one
  · intro v' pid file q there same
    rcases cases_ there with rfl | old
    · have bound := tagged.bound v' pid file
      change (h.nextPid : Int) = pid at same
      omega
    · exact tagged.owner v' pid file q old same
  · intro q there
    rcases cases_ there with rfl | old
    · exact .inr (Nat.le_refl _)
    · exact .inl old
  · intro q there same
    rcases cases_ there with rfl | old
    · rfl
    · have less := tagged.fresh q old
      omega

theorem Tagged.writePid {h : Host} (tagged : Tagged h) (x : Chance) {v : Id} {pid : Nat}
    (claimed : Claimed v pid h) :
    Tagged (h.exec x (.dir v (.writePid pid))).2 ∧
      Younger h (h.exec x (.dir v (.writePid pid))).2 := by
  have reaped (q : Proc) (there : q ∈ (h.reap x.gone).procs) : q ∈ h.procs :=
    List.mem_of_mem_filter there
  cases found : h.dirs.lookup v with
  | none =>
    -- there is no directory to write to: the command fails
    have step : Cmd.step x.out (.dir v (.writePid pid)) (h.reap x.gone) = none := by
      simp only [Cmd.step, reap_dirs, found, DirCmd.step, Option.map_none]
    have same : (h.exec x (.dir v (.writePid pid))).2 = h.reap x.gone := by
      simp only [Host.exec, Host.attempt, Cmd.privileged, Bool.and_false, Bool.false_eq_true,
        ite_false, step]
    rw [same]
    refine ⟨⟨fun q there => tagged.fresh q (reaped q there), tagged.bound, ?_⟩, Nat.le_refl _, ?_⟩
    · exact fun v pid file q there => tagged.owner v pid file q (reaped q there)
    · exact fun q there => .inl (reaped q there)
  | some d =>
    have step : DirCmd.step (.writePid pid) (h.dirs.lookup v) = some
      ((), some { d with pid := some (pid : Int) }) := by
      rw [found]
      rfl
    rw [exec_dir x v _ h step]
    -- only the pid file of `v` differs
    have file (v' : Id) : ({ h.reap x.gone with
        dirs := putDir h.dirs v (some { d with pid := some (pid : Int) }) } : Host).pidFile v' =
          if v' = v then some (pid : Int) else h.pidFile v' := by
      rw [Host.pidFile, lookup_putDir]
      split <;> rfl
    refine ⟨⟨fun q there => tagged.fresh q (reaped q there), ?_, ?_⟩, Nat.le_refl _,
      fun q there => .inl
      (reaped q there)⟩
    · intro v' pid' here
      rw [file] at here
      split at here
      · cases here
        exact Int.ofNat_lt.mpr claimed.1
      · exact tagged.bound v' pid' here
    · intro v' pid' here q there same
      rw [file] at here
      split at here
      next own =>
        cases here
        rw [own]
        exact claimed.2 q (reaped q there) (Int.ofNat_inj.mp same)
      next => exact tagged.owner v' pid' here q (reaped q there) same

/-! ## Programs among others -/

/-- What the nodes do in a run. -/
inductive Job where
  | up (node : Node) (spec : VmSpec)
  | down (node : Node) (v : Id)
  | rebuild (node : Node) (spec : VmSpec)
  | overlay (node : Node)

namespace Job

def program : Job → Py Unit
  | up node spec => node.sh (VmUp.run spec)
  | down node v => node.sh (VmDown.run v (node.volumeVg node.id))
  | rebuild node spec => do
    node.sh (VmDown.run spec.vmId spec.vg)
    node.sh (VmUp.run spec)
  | overlay node => do
    let _ ← OverlayPass.reconcile node
    return ()

/-- The VMs that are brought up are those of the plan. -/
def Planned (plan : Plan) : Job → Prop
  | up node spec | rebuild node spec => Fits plan node.id spec
  | down _ _ | overlay _ => True

end Job

/-- On every host the VPCs are apart, and the pid files name the VMs' own processes. -/
def TenantsApart (plan : Plan) (w : World) : Prop :=
  ∀ n, Segregated plan n (w.hosts n).net ∧ Tagged (w.hosts n)

/-- An operation that is neither the start of a process nor a note of its pid. -/
def KeepsApart (plan : Plan) : Op → Prop
  | .host n c => (∀ c', c = .net c' → KeepsSegregated plan n c') ∧ Forgets c
  | _ => True

def Grows (s s' : Run) : Prop := ∀ n, Younger (s.world.hosts n) (s'.world.hosts n)

section

variable {plan : Plan} {env : Env}

theorem hosts_off (o : Op) (w : World) (off : ∀ n c, o ≠ .host n c) :
    (exec env o w).2.hosts = w.hosts := by
  cases o with
  | host n c => exact absurd rfl (off n c)
  | getAll | get | uuid4 | now | choice | delete => rfl
  | insert t row =>
    simp only [exec]
    split <;> rfl
  | update t p f =>
    simp only [exec]
    split <;> rfl

theorem tenantsApart_host {w : World} (safe : TenantsApart plan w) {n : Id} {c : Cmd}
    (net : Segregated plan n ((w.hosts n).exec (env.chance w.clock) c).2.net)
    (tagged : Tagged ((w.hosts n).exec (env.chance w.clock) c).2) :
      TenantsApart plan (exec env (.host n c) w).2 := by
  intro n'
  rw [hosts_exec]
  split
  next same =>
    subst same
    exact ⟨net, tagged⟩
  next => exact safe n'

theorem grows_host {s : Run} {i : Nat} {n : Id} {c : Cmd}
    (younger : Younger (s.world.hosts n) ((s.world.hosts n).exec (env.chance s.world.clock) c).2) :
    Grows s (s.after (exec env) i (.host n c)) := by
  intro n'
  change Younger _ ((exec env (.host n c) s.world).2.hosts n')
  rw [hosts_exec]
  split
  next same =>
    subst same
    exact younger
  next => exact .refl _

theorem net_host {w : World} {n : Id} {c : Cmd} (seg : Segregated plan n (w.hosts n).net)
    (tame : ∀ c', c = .net c' → KeepsSegregated plan n c') (x : Chance) : Segregated plan n
      ((w.hosts n).exec x c).2.net :=
  exec_net_keeps x c (w.hosts n) (fun c' same a n' step => tame c' same _ a n' seg step) seg

/-- What an allowed operation keeps. -/
theorem keepsApart_after {o : Op} (allowed : KeepsApart plan o) (i : Nat) {s : Run}
    (safe : TenantsApart plan s.world) :
    TenantsApart plan (s.after (exec env) i o).world ∧ Grows s (s.after (exec env) i o) := by
  by_cases host : ∃ n c, o = .host n c
  · obtain ⟨n, c, rfl⟩ := host
    exact ⟨tenantsApart_host safe (net_host (safe n).1 allowed.1 _)
      ((safe n).2.forgets _ allowed.2),
      grows_host (younger_forgets _ allowed.2)⟩
  · have same : (exec env o s.world).2.hosts = s.world.hosts := hosts_off o s.world
      fun n c is => host ⟨n, c, is⟩
    constructor
    · intro n
      change Segregated plan n ((exec env o s.world).2.hosts n).net ∧
        Tagged ((exec env o s.world).2.hosts n)
      rw [same]
      exact safe n
    · intro n
      change Younger _ ((exec env o s.world).2.hosts n)
      rw [same]
      exact .refl _

/-- A thread of the run, as the others see it. -/
abbrev reading (plan : Plan) (env : Env) (i : Nat) : OpSpec Op Op.Res Exn (Run → Prop) :=
  among (exec env) i (fun s => TenantsApart plan s.world) Grows Grows fun _ _ => True

theorem reads_keepsApart (i : Nat) {α : Type} {p : Py α} (only : Only (KeepsApart plan) p)
    (s : Run) :
    wp (reading plan env i) p (fun _ _ => True) s := by
  refine among_mono p _ _ (fun _ _ _ => trivial) s
    (among_of_issues (fun _ => True) (fun _ _ _ _ _ => trivial) ?_ p (fun _ => True)
      (only.issues fun _ _ => True) s trivial)
  intro o s allowed _ safe _
  obtain ⟨safe', grows⟩ := keepsApart_after allowed i safe
  exact ⟨safe', grows, trivial, fun _ _ => trivial⟩

theorem offNet {n : Id} {v : Id} {d : DirCmd} :
    ∀ c', Cmd.dir v d = .net c' → KeepsSegregated plan n c' := by
  rintro c' ⟨⟩

/-- A process is started, and its pid is noted. -/
theorem reads_create (i : Nat) (node : Node) (v ns : Str) (s : Run) :
    wp (reading plan env i) (node.sh (CreateVm.run v ns)) (fun _ _ => True) s := by
  rw [wp_sh, CreateVm.run, wp_bind, dir, wp_perform]
  intro s₁ _ safe₁ _
  have opened : KeepsApart plan (.host node.id (.dir v .openLog)) := ⟨offNet, trivial⟩
  obtain ⟨safe₁', grows₁⟩ := keepsApart_after opened i safe₁
  refine ⟨safe₁', grows₁, ?_⟩
  cases (exec env (.host node.id (.dir v .openLog)) s₁.world).1 with
  | error e => trivial
  | ok _ =>
    rw [onValue_ok, wp_bind, wp_perform]
    intro s₂ _ safe₂ _
    obtain ⟨tagged, younger, claimed⟩ := (safe₂ node.id).2.popen (env.chance s₂.world.clock) v ns
    have answer : (exec env (.host node.id (.popen v ns)) s₂.world).1 = .ok
      (s₂.world.hosts node.id).nextPid := by
      rw [exec_host, popen_exec]
    have start (c' : NetCmd) : Cmd.popen v ns = .net c' → KeepsSegregated plan node.id c' := by
      rintro ⟨⟩
    refine ⟨tenantsApart_host safe₂ (net_host (safe₂ node.id).1 start _) tagged,
      grows_host younger, ?_⟩
    rw [answer, onValue_ok, dir, wp_perform]
    intro s₃ grows safe₃ _
    -- the pid is still that of the VM, whatever the others have done meanwhile
    have claimed₃ : Claimed v (s₂.world.hosts node.id).nextPid (s₃.world.hosts node.id) := by
      refine Claimed.later ?_ (grows node.id)
      change Claimed v _ ((exec env (.host node.id (.popen v ns)) s₂.world).2.hosts node.id)
      rw [hosts_exec, if_pos rfl]
      exact claimed
    obtain ⟨tagged₃, younger₃⟩ := (safe₃ node.id).2.writePid (env.chance s₃.world.clock) claimed₃
    exact ⟨tenantsApart_host safe₃ (net_host (safe₃ node.id).1 offNet _) tagged₃,
      grows_host younger₃,
      trivial⟩

theorem prepare_keepsApart (apart : plan.Apart) {node : Node} {spec : VmSpec}
    (fits : Fits plan node.id spec) :
    Only (KeepsApart plan) (node.sh (VmUp.prepare spec)) := by
  apply Only.sh node
  apply (VmUp.prepare_only spec).mono
  rintro c ⟨issues, quiet⟩
  constructor
  · rintro c' rfl
    cases issues with
    | net _ wires => exact keepsSegregated_wires apart fits wires
  · cases c with
    | popen => exact quiet
    | dir v c =>
      cases c with
      | writePid => exact quiet
      | _ => exact trivial
    | _ => exact trivial

theorem reads_up (apart : plan.Apart) (i : Nat) {node : Node} {spec : VmSpec}
    (fits : Fits plan node.id spec)
    (s : Run) : wp (reading plan env i) (node.sh (VmUp.run spec)) (fun _ _ => True) s := by
  have split_ : node.sh (VmUp.run spec) =
      (node.sh (VmUp.prepare spec) >>= fun _ => node.sh
        (CreateVm.run spec.vmId (VmUp.nsName spec.vmId))) := by
    rw [VmUp.run_eq]
    exact onHost_bind ..
  rw [split_]
  exact among_then (reads_keepsApart i (prepare_keepsApart apart fits) s) fun _ s' =>
    reads_create i node _ _ s'

theorem down_keepsApart (node : Node) (v vg : Id) :
    Only (KeepsApart plan) (node.sh (VmDown.run v vg)) := by
  apply Only.sh node
  apply (VmDown.run_only v vg).mono
  intro c issues
  constructor
  · rintro c' rfl
    exact keepsSegregated_down issues
  · cases issues <;> exact trivial

theorem overlay_keepsApart (node : Node) : Only (KeepsApart plan) (OverlayPass.reconcile node) := by
  apply (Convergence.overlay_only node).mono
  intro o overlays
  cases overlays with
  | get | getAll => exact trivial
  | net c plain =>
    refine ⟨?_, trivial⟩
    rintro c' ⟨⟩
    exact keepsSegregated_plain plain

theorem reads_job (apart : plan.Apart) (i : Nat) {job : Job} (planned : job.Planned plan)
    (s : Run) :
    wp (reading plan env i) job.program (fun _ _ => True) s := by
  cases job with
  | up node spec => exact reads_up apart i planned s
  | down node v => exact reads_keepsApart i (down_keepsApart node v _) s
  | rebuild node spec =>
    apply among_then (reads_keepsApart i (down_keepsApart node _ _) s)
    exact fun _ s' => reads_up apart i planned s'
  | overlay node => exact reads_keepsApart i (.bind (overlay_keepsApart node) fun _ => .pure _) s

/-- On a host that the nodes have not used yet there may be any links but those of VMs and VPCs. -/
structure Bare (plan : Plan) (node : Id) (h : Host) : Prop where
  names : ∀ k x, h.net.portAt k = some x → (∀ u, ¬ Of plan node k u) ∧ ∀ v, ¬ Own v k
  masters : ∀ k kind br, h.net.portAt k = some (kind, some br) → h.net.portAt (k.1, br) ≠ none
  pairs : ∀ k p m, h.net.portAt k = some (.veth p, m) → p < h.net.pairs
  vxlans : ∀ k vni ip m, h.net.portAt k = some (.vxlan vni ip, m) → ∀ u, plan.vpcs u →
    vni ≠ Overlay.vniFor u
  procs : h.procs = []
  pids : ∀ v, h.pidFile v = none

theorem tenantsApart_of_bare {w : World} (bare : ∀ n, Bare plan n (w.hosts n)) :
    TenantsApart plan w := by
  intro n
  have bare := bare n
  have outside {k : LinkKey} {x : Kind × Option Str} (there : (w.hosts n).net.portAt k = some x) :
      segment plan n k = none := segment_none (bare.names k x there).1
  refine ⟨⟨?_, ?_, bare.pairs, ?_, ?_⟩, ?_, ?_, ?_⟩
  · intro k kind br there
    obtain ⟨x, found⟩ := Option.ne_none_iff_exists'.mp (bare.masters k kind br there)
    rw [outside there, outside found]
  · intro k k' p m m' there there'
    refine ⟨(outside there).trans (outside there').symm, fun v => ?_⟩
    exact ⟨fun own => absurd own ((bare.names k _ there).2 v), fun own => absurd own
      ((bare.names k' _ there').2 v)⟩
  · intro k vni ip m there u known
    rw [outside there]
    constructor
    · exact fun same => absurd same (bare.vxlans k vni ip m there u known)
    · rintro ⟨⟩
  · exact fun k m there u of => absurd of ((bare.names k _ there).1 u)
  · intro q there
    rw [bare.procs] at there
    cases there
  · intro v pid file
    rw [bare.pids] at file
    cases file
  · intro v pid file
    rw [bare.pids] at file
    cases file

/-- Whatever the nodes do, and in whatever order. -/
theorem tenantsApart_reached (apart : plan.Apart) {jobs : List Job}
    (planned : ∀ job ∈ jobs, job.Planned plan) {start : World}
    (bare : ∀ n, Bare plan n (start.hosts n)) {c : Config Op Op.Res Exn Unit World}
    (reached : Reachable (exec env) anyStep ⟨⟨start, []⟩, jobs.map Job.program⟩ c) :
    TenantsApart plan
      c.shared.world := by
  refine (Reachable.holds (fun s => TenantsApart plan s.world) (fun _ => Grows) (fun _ => Grows)
    (fun _ _ _ => True)
    (fun _ _ _ => .refl _) (fun _ _ _ _ first second n => (first n).trans (second n))
      (fun _ _ _ _ _ _ _ grows => grows)
    (tenantsApart_of_bare bare) ?_ reached).1
  intro i p there
  rw [List.getElem?_map, Option.map_eq_some_iff] at there
  obtain ⟨job, found, rfl⟩ := there
  exact reads_job apart i (planned job (List.mem_of_getElem? found)) _

end

/-! ## Who can reach whom -/

/-- A link on a host. -/
abbrev Port : Type := Id × LinkKey

/-- Frames pass from a port to its bridge, between the ends of a pair, and between VXLAN devices of
one
  number. -/
inductive Wire (w : World) : Port → Port → Prop where
  | bridge {n : Id} {k : LinkKey} {kind : Kind} {br : Str} {up : Option Str}
    (port : (w.hosts n).net.portAt k = some (kind, some br))
    (there : (w.hosts n).net.portAt (k.1, br) = some (.bridge, up)) : Wire w (n, k) (n, (k.1, br))
  | veth {n : Id} {k k' : LinkKey} {p : Nat} {m m' : Option Str}
    (end_ : (w.hosts n).net.portAt k = some (.veth p, m))
      (end' : (w.hosts n).net.portAt k' = some (.veth p, m')) :
    Wire w (n, k) (n, k')
  | vxlan {n n' : Id} {k k' : LinkKey} {vni : Nat} {ip ip' : Str} {m m' : Option Str}
    (here : (w.hosts n).net.portAt k = some (.vxlan vni ip, m))
    (there : (w.hosts n').net.portAt k' = some (.vxlan vni ip', m')) : Wire w (n, k) (n', k')

/-- There is a way for frames, over any number of links and hosts. -/
def Connected (w : World) : Port → Port → Prop := Relation.EqvGen (Wire w)

/-- The interface that the VM sees as `eth0`. -/
def eth0 (v : Id) : LinkKey := (some (VmUp.nsName v), "tap0")

section

variable {plan : Plan} (apart : plan.Apart) {w : World} (safe : TenantsApart plan w)

include apart

theorem vpcs_of_segment {n : Id} {k : LinkKey} {u : Id}
    (found : segment plan n k = some u) : plan.vpcs u := by
  cases (segment_iff apart).mp found with
  | root d id known =>
    cases d with
    | bridge | vxlan => exact known
    | outer | inner => exact apart.placed id known
  | inside known listed => exact apart.placed _ known

include safe

theorem wire_alike {a b : Port} (wire : Wire w a b) :
    segment plan a.1 a.2 = segment plan b.1 b.2 := by
  cases wire with
  | @bridge n k kind br up port there => exact ((safe n).1.master k kind br port).symm
  | @veth n k k' p m m' end_ end' => exact ((safe n).1.pairs k k' p m m' end_ end').1
  | @vxlan n n' k k' vni ip ip' m m' here there =>
    apply Option.ext
    intro u
    constructor
    · intro found
      have known := vpcs_of_segment apart found
      exact ((safe n').1.vxlans k' vni ip' m' there u known).mp
        (((safe n).1.vxlans k vni ip m here u known).mpr found)
    · intro found
      have known := vpcs_of_segment apart found
      exact ((safe n).1.vxlans k vni ip m here u known).mp
        (((safe n').1.vxlans k' vni ip' m' there u known).mpr found)

/-- Connected links are of one VPC, or of none. -/
theorem connected_alike {a b : Port}
    (connected : Connected w a b) : segment plan a.1 a.2 = segment plan b.1 b.2 := by
  induction connected with
  | rel a b wire => exact wire_alike apart safe wire
  | refl a => rfl
  | symm a b _ ih => exact ih.symm
  | trans a b c _ _ first second => exact first.trans second

end

/-! ## Taking one VM down -/

/-- A process that is neither killed nor exits by itself stays. -/
theorem proc_stays (x : Chance) (c : Cmd) (h : Host) {q : Proc} (there : q ∈ h.procs)
    (lives : x.gone q.pid = false)
    (spared : ∀ pid, c = .kill pid → q.pid ≠ pid) : q ∈ (h.exec x c).2.procs := by
  -- the processes that died by themselves are reaped first
  have here : q ∈ (h.reap x.gone).procs := by
    apply List.mem_filter.mpr
    rw [lives]
    exact ⟨there, rfl⟩
  unfold Host.exec Host.attempt
  split
  · exact here
  · split
    next a h' step =>
      cases c with
      | lvm c | net c | dir vmId c =>
        obtain ⟨_, -, same⟩ := Option.map_eq_some_iff.mp step
        cases same
        exact here
      | debugfs vmId session =>
        obtain ⟨h'', edited, same⟩ := Option.map_eq_some_iff.mp step
        cases same
        unfold Host.editRootfs at edited
        repeat' split at edited
        all_goals cases edited
        exact here
      -- the one command that takes a process away
      | kill pid =>
        simp only [Cmd.step] at step
        split at step <;> cases step
        exact List.mem_filter.mpr ⟨here, decide_eq_true (spared pid rfl)⟩
      | poll pid =>
        simp only [Cmd.step] at step
        split at step <;> cases step
        exact here
      | listDirs | ssh ip key script =>
        cases step
        exact here
      | popen vmId ns =>
        cases step
        exact List.mem_cons_of_mem _ here
    next => exact here

/-- What is not the VM's own is as it was, but for processes that have exited by themselves. -/
structure Untouched (v : Id) (x : Nat → Chance) (h h' : Host) : Prop where
  links : ∀ key, ¬ Own v key → h'.net.links.lookup key = h.net.links.lookup key
  namespaces : ∀ ns, ns ≠ VmUp.nsName v → (ns ∈ h'.net.namespaces ↔ ns ∈ h.net.namespaces)
  procs : ∀ q ∈ h.procs, q.vmId ≠ v → (∀ k, (x k).gone q.pid = false) → q ∈ h'.procs
  old : ∀ q ∈ h'.procs, q ∈ h.procs

section

variable {plan : Plan} {node v : Id} {vg : Str} {x : Nat → Chance} {h : Host}

/-- The links that a take-down deletes are the VM's own. -/
theorem down_net {n n' : Net} {c : NetCmd} {a : c.Res} (issues : VmDown.Issues v vg (.net c))
    (seg : Segregated plan node n) (step : c.step n = some (a, n')) :
    (∀ key, ¬ Own v key → n'.links.lookup key = n.links.lookup key) ∧
      ∀ ns, ns ≠ VmUp.nsName v → (ns ∈ n'.namespaces ↔ ns ∈ n.namespaces) := by
  -- both ends of a pair have the same owner
  have paired {k k' : LinkKey} {p : Nat} (end_ : n.kindAt k = some (.veth p))
    (end' : n.kindAt k' = some (.veth p))
      (own : Own v k) : Own v k' := by
    obtain ⟨m, port⟩ := Net.port_of_kindAt end_
    obtain ⟨m', port'⟩ := Net.port_of_kindAt end'
    exact ((seg.pairs k k' p m m' port port').2 v).mp own
  -- deleting an outer end takes the two ends of its pair and nothing else
  have deleted (st : Stack) (key : LinkKey) (other : ¬ Own v key) :
      ¬ n.Paired (st.outer v) key := by
    rintro (rfl | ⟨p, end_, end'⟩)
    · exact other (own_outer.mpr rfl)
    · exact other (paired end_ end' (own_outer.mpr rfl))
  cases issues with
  | netnsDel =>
    obtain ⟨-, namespaces, links⟩ := netnsDel_step step
    refine ⟨fun key other => (links key).2 ?_, fun ns differs => ?_⟩
    · rintro (inside | ⟨name, p, end_, end'⟩)
      · exact other (.inl inside)
      · exact other (paired end_ end' (.inl rfl))
    · rw [namespaces]
      exact and_iff_left differs
  | delVeth =>
    obtain ⟨-, namespaces, links⟩ := del_step step
    rw [namespaces]
    exact ⟨fun key other => (links key).2 (deleted .vpc key other), fun _ _ => Iff.rfl⟩
  | delPublic =>
    obtain ⟨-, namespaces, links⟩ := del_step step
    rw [namespaces]
    exact ⟨fun key other => (links key).2 (deleted .public_ key other), fun _ _ => Iff.rfl⟩

/-- How far a take-down has come. -/
structure Going (plan : Plan) (node v : Id) (x : Nat → Chance) (h : Host) (s : Nat × Host) :
    Prop where
  seg : Segregated plan node s.2.net
  tagged : Tagged s.2
  untouched : Untouched v x h s.2

theorem going_step {c : Cmd} (issues : VmDown.Issues v vg c) {s : Nat × Host}
    (going : Going plan node v x h s)
    (kills : ∀ pid, c = .kill pid → ∀ q ∈ s.2.procs, q.pid = pid → q.vmId = v) :
    Going plan node v x h (execAt x c s).2 := by
  have forgets : Forgets c := by cases issues <;> exact trivial
  have net : Segregated plan node (execAt x c s).2.2.net ∧
      (∀ key, ¬ Own v key → (execAt x c s).2.2.net.links.lookup key = s.2.net.links.lookup key) ∧
        ∀ ns, ns ≠ VmUp.nsName v → (ns ∈ (execAt x c s).2.2.net.namespaces ↔
          ns ∈ s.2.net.namespaces) := by
    apply exec_net_keeps (J := fun n => Segregated plan node n ∧
      (∀ key, ¬ Own v key → n.links.lookup key =
      s.2.net.links.lookup key) ∧ ∀ ns, ns ≠ VmUp.nsName v →
        (ns ∈ n.namespaces ↔ ns ∈ s.2.net.namespaces))
    · rintro c' rfl a n' step
      exact ⟨keepsSegregated_down issues _ _ _ going.seg step, down_net issues going.seg step⟩
    · exact ⟨going.seg, fun _ _ => rfl, fun _ _ => Iff.rfl⟩
  obtain ⟨seg, links, namespaces⟩ := net
  have untouched := going.untouched
  refine ⟨seg, going.tagged.forgets _ forgets, ?_, ?_, ?_, ?_⟩
  · exact fun key other => (links key other).trans (untouched.links key other)
  · exact fun ns differs => (namespaces ns differs).trans (untouched.namespaces ns differs)
  · intro q there other lives
    apply proc_stays (x s.1) c s.2 (untouched.procs q there other lives) (lives s.1)
    rintro pid same rfl
    exact other (kills q.pid same q (untouched.procs q there other lives) rfl)
  · exact fun q there => untouched.old q ((forgets_exec _ forgets s.2).1.procs.subset there)

/-- A part of a take-down that kills nothing. -/
theorem going_keeps {α : Type} {p : Sh α}
    (only : Only (fun c => VmDown.Issues v vg c ∧ ∀ pid, c ≠ .kill pid) p)
    {s : Nat × Host} (going : Going plan node v x h s) :
    wp (sequential (execAt x)) p (fun _ s' => Going plan node v x h s') s :=
  sequential_keeps (execAt x) (Going plan node v x h)
    (fun _ _ issues going => going_step issues.1 going fun pid same =>
      absurd same (issues.2 pid)) only s
      going

theorem readPid_exec (x : Chance) (h : Host) {pid : Int}
    (read : (h.exec x (.dir v .readPid)).1 = .ok pid) :
    h.pidFile v = some pid := by
  have runs : (x.fails && (Cmd.dir v .readPid).privileged) = false := Bool.and_false _
  cases file : h.pidFile v with
  | none =>
    have bare : (h.dirs.lookup v).bind VmDir.pid = none := file
    have step : Cmd.step x.out (.dir v .readPid) (h.reap x.gone) = none := by
      simp only [Cmd.step, reap_dirs, DirCmd.step, bare, Option.map_none]
    simp only [Host.exec, Host.attempt, runs, Bool.false_eq_true, ite_false, step] at read
    cases read
  | some pid' =>
    have there : (h.dirs.lookup v).bind VmDir.pid = some pid' := file
    have step : DirCmd.step .readPid (h.dirs.lookup v) = some (pid', h.dirs.lookup v) := by
      simp only [DirCmd.step, there, Option.map_some]
    rw [exec_dir x v .readPid h step] at read
    cases read
    rfl

theorem waitGone_polls {allowed : Cmd → Prop} {pid : Nat} (ok : allowed (.poll pid)) (polls : Nat) :
    Only allowed (Kill.waitGone pid polls) := by
  induction polls with
  | zero => exact .pure _
  | succ polls ih =>
    apply Only.bind
    · apply Only.tryCatch (.bind (.perform ok) fun _ => .pure _)
      exact fun e => .ite (c := e = .os) (fun _ => .pure _) fun _ => .throw _
    · exact fun _ => .ite (fun _ => ih) fun _ => .pure _

theorem terminate_going {pid : Nat} {s : Nat × Host} (going : Going plan node v x h s)
    (own : ∀ q ∈ s.2.procs, q.pid = pid → q.vmId = v) :
    wp (sequential (execAt x)) (Kill.terminate pid) (fun _ s' => Going plan node v x h s') s := by
  have killed : Going plan node v x h (execAt x (.kill pid) s).2 := by
    apply going_step (.kill pid : VmDown.Issues v [] _) going
    rintro _ ⟨⟩
    exact own
  have waits := @waitGone_polls (fun c => VmDown.Issues v [] c ∧ ∀ pid, c ≠ .kill pid) pid
    ⟨.poll pid, by rintro _ ⟨⟩⟩
  rw [Kill.terminate, wp_tryCatch]
  have body : wp (sequential (execAt x))
      (do @perform Cmd Cmd.Res Exn (.kill pid); Kill.waitGone pid 30)
      (fun _ s' => Going plan node v x h s') s :=
    sequential_then (execAt x) (fun _ _ => killed) fun _ _ => going_keeps (waits 30) killed
  apply sequential_mono _ _ _ _ _ s body
  rintro (e | _) s' going'
  · rw [onError_error, wp_ite]
    split <;> exact going'
  · exact going'

theorem kill_going {s : Nat × Host} (going : Going plan node v x h s) :
    wp (sequential (execAt x)) (Kill.run v) (fun _ s' => Going plan node v x h s') s := by
  have asked : Going plan node v x h (execAt x (.dir v .hasPid) s).2 :=
    going_step (.hasPid : VmDown.Issues v [] _) going (by rintro _ ⟨⟩)
  apply sequential_then (execAt x) (fun _ _ => asked)
  intro there _
  rw [wp_ite]
  split
  · have read : Going plan node v x h (execAt x (.dir v .readPid)
        (execAt x (.dir v .hasPid) s).2).2 :=
      going_step (.readPid : VmDown.Issues v [] _) asked (by rintro _ ⟨⟩)
    apply sequential_then (execAt x) (fun _ _ => read)
    intro (pid : Int) found
    generalize (execAt x (.dir v .hasPid) s).2 = s₁ at asked read found ⊢
    have file := readPid_exec (x s₁.1) s₁.2 found
    have fewer := (forgets_exec (x s₁.1) (c := .dir v .readPid) trivial s₁.2).1.procs.subset
    apply sequential_bind (execAt x) (fun _ => Going plan node v x h)
    · apply sequential_mono _ _ _ _ _ _
        (_ : wp (sequential (execAt x)) (whenTrue (0 < pid) (Kill.terminate pid.toNat))
        (fun _ s' => Going plan node v x h s') _)
      · rintro (e | _) s' going'
        · exact going'
        · exact going'
      · rw [wp_whenTrue]
        split
        next positive =>
          apply terminate_going read
          -- the pid is that of no other VM's process
          intro q there same
          apply asked.tagged.owner v pid file q (fewer there)
          have low : 0 < pid := of_decide_eq_true positive
          omega
        · exact read
    · intro _ s₂ going₂
      have unlinks : Only (fun c => VmDown.Issues v [] c ∧ ∀ pid,
          c ≠ .kill pid) (dir v .unlinkPid) :=
        .dir ⟨.unlinkPid, by rintro _ ⟨⟩⟩
      exact going_keeps unlinks going₂
  · exact asked

/-- However a take-down ends, it has touched nothing but its VM. -/
theorem down_going {s : Nat × Host} (going : Going plan node v x h s) :
    wp (sequential (execAt x)) (VmDown.run v vg) (fun _ s' => Going plan node v x h s') s := by
  have asked : Going plan node v x h (execAt x (.dir v .exists_) s).2 :=
    going_step (.exists_ : VmDown.Issues v [] _) going (by rintro _ ⟨⟩)
  apply sequential_then (execAt x) (fun _ _ => asked)
  intro there _
  apply sequential_bind (execAt x) (fun _ => Going plan node v x h)
  -- the kill is of the recorded pid only
  · have killed : wp (sequential (execAt x)) (whenTrue there (Kill.run v))
      (fun _ s' => Going plan node v x h s')
        (execAt x (.dir v .exists_) s).2 := by
      rw [wp_whenTrue]
      split
      · exact kill_going asked
      · exact asked
    apply sequential_mono _ _ _ _ _ _ killed
    rintro (e | _) s' going'
    · exact going'
    · exact going'
  · intro _ s' going'
    -- what follows signals no process
    have quiet : Only (fun c => VmDown.Issues v vg c ∧ ∀ pid, c ≠ .kill pid)
        (do VmDown.networkDown v; EnvTeardown.run v vg) := by
      have safe {p : Sh Unit} (only : Only (fun c => VmDown.Issues v vg c ∧ ∀ pid,
          c ≠ .kill pid) p) :
          Only (fun c => VmDown.Issues v vg c ∧ ∀ pid, c ≠ .kill pid) (VmDown.safe p) :=
        .tryCatch only fun _ => .pure _
      apply Only.bind (.bind (safe (.net ⟨.netnsDel, by rintro _ ⟨⟩⟩)) fun _ =>
        .bind (safe (.net ⟨.delVeth, by rintro _ ⟨⟩⟩)) fun _ =>
          safe (.net ⟨.delPublic, by rintro _ ⟨⟩⟩))
      intro _
      apply (EnvTeardown.run_only v vg).mono
      intro c removes
      refine ⟨VmDown.of_teardown v vg c removes, ?_⟩
      rintro pid rfl
      cases removes with
      | removes _ known => cases known
    exact going_keeps quiet going'

end

/-! ## The cluster -/

/-- The cluster after a take-down, however it ended. -/
def afterDown (env : Env) (node : Node) (v : Id) (w : World) : World :=
  (run (exec env) (node.sh (VmDown.run v (node.volumeVg node.id))) w).2

theorem down_untouched {plan : Plan} {w : World} (safe : TenantsApart plan w) (env : Env)
    (node : Node) (v : Id) :
    Untouched v env.chance (w.hosts node.id) ((afterDown env node v w).hosts node.id) ∧
      ∀ n, n ≠ node.id → (afterDown env node v w).hosts n = w.hosts n := by
  have start : Going plan node.id v env.chance (w.hosts node.id) (w.clock, w.hosts node.id) :=
    ⟨(safe node.id).1, (safe node.id).2, fun _ _ => rfl, fun _ _ => Iff.rfl,
      fun _ there _ _ => there,
      fun _ there => there⟩
  have whole : wp (sequential (exec env))
      (node.sh (VmDown.run v (node.volumeVg node.id))) (fun _ w' =>
      Untouched v env.chance (w.hosts node.id) (w'.hosts node.id) ∧ ∀ n, n ≠ node.id →
        w'.hosts n = w.hosts n)
        w := by
    apply sequential_onHost
    apply sequential_mono _ _ _ _ _ _ (down_going start)
    intro r s going
    have here : (w.put node.id s).hosts node.id = s.2 := Function.update_self ..
    rw [here]
    exact ⟨going.untouched, fun n other => Function.update_of_ne other _ _⟩
  exact (wp_sequential ..).mp whole

/-- What belongs to another VM of the plan is none of this one's. -/
theorem own_apart {plan : Plan} (apart : plan.Apart) {v m : Id} (known : plan.vms v)
    (known' : plan.vms m) (other : m ≠ v) {key : LinkKey} (own : Own m key) : ¬ Own v key := by
  intro own'
  apply other
  rcases own with inside | ⟨st, rfl | rfl⟩
  · obtain ⟨ns, name⟩ := key
    cases inside
    exact (apart.names v m known known' (own_inside.mp own')).symm
  · exact (apart.names v m known known' (own_outer.mp own')).symm
  · exact (apart.names v m known known' (own_inner.mp own')).symm

/-- The links, the namespace and the processes of another VM are as they were, but for processes
that have exited by themselves. -/
structure Spared (m : Id) (x : Nat → Chance) (h h' : Host) : Prop where
  links : ∀ key, Own m key → h'.net.links.lookup key = h.net.links.lookup key
  namespace_ : VmUp.nsName m ∈ h'.net.namespaces ↔ VmUp.nsName m ∈ h.net.namespaces
  procs : ∀ q ∈ h.procs, q.vmId = m → (∀ k, (x k).gone q.pid = false) → q ∈ h'.procs
  old : ∀ q ∈ h'.procs, q ∈ h.procs

/-- Two VMs' interfaces are connected only where the VMs are of one VPC, and none is connected to a
public bridge; a take-down spares every other VM. -/
structure Isolated (plan : Plan) (w : World) : Prop where
  tenants : ∀ n n' v v', plan.vms v → plan.vms v' → Connected w (n, eth0 v) (n', eth0 v') →
    plan.vpcOf v = plan.vpcOf v'
  public_ : ∀ n up, (w.hosts n).net.portAt (none, plan.publicBridge n) = some (.bridge, up) →
    ∀ n' k u, Of plan n' k u → ¬ Connected w (n', k) (n, (none, plan.publicBridge n))
  spares : ∀ (env : Env) (node : Node) v, plan.vms v → ∀ m, plan.vms m → m ≠ v → ∀ n,
    Spared m env.chance (w.hosts n) ((afterDown env node v w).hosts n)

theorem isolated_of_tenantsApart {plan : Plan} (apart : plan.Apart) {w : World}
    (safe : TenantsApart plan w) : Isolated plan w := by
  constructor
  · intro n n' v v' known known' connected
    have alike := connected_alike apart safe connected
    have here : segment plan n (eth0 v) = some (plan.vpcOf v) :=
      (segment_iff apart).mpr (.inside known (.inr (.inl rfl)))
    have there : segment plan n' (eth0 v') = some (plan.vpcOf v') :=
      (segment_iff apart).mpr (.inside known' (.inr (.inl rfl)))
    rw [here, there] at alike
    exact Option.some.inj alike
  · intro n up bridge n' k u of connected
    have alike := connected_alike apart safe connected
    rw [(segment_iff apart).mpr of, eq_comm] at alike
    exact public_free apart (safe n).1 bridge u ((segment_iff apart).mp alike)
  · intro env node v known m known' other n
    obtain ⟨untouched, others⟩ := down_untouched safe env node v
    by_cases here : n = node.id
    · subst here
      constructor
      · exact fun key own => untouched.links key (own_apart apart known known' other own)
      · apply untouched.namespaces
        intro same
        exact other (apart.names m v known' known (List.append_cancel_left same))
      · rintro q there rfl lives
        exact untouched.procs q there other lives
      · exact untouched.old
    · rw [others n here]
      exact ⟨fun _ _ => rfl, Iff.rfl, fun _ there _ _ => there, fun _ there => there⟩

/-- Whatever VMs the nodes bring up, take down and rebuild, and however the steps of it follow on
one another and fail, tenants stay isolated. -/
theorem tenants_isolated (plan : Plan) (apart : plan.Apart) (env : Env) (jobs : List Job)
    (planned : ∀ job ∈ jobs, job.Planned plan) (start : World)
    (bare : ∀ n, Bare plan n (start.hosts n)) (c : Config Op Op.Res Exn Unit World)
    (reached : Reachable (exec env) anyStep ⟨⟨start, []⟩, jobs.map Job.program⟩ c) :
    Isolated plan c.shared.world :=
  isolated_of_tenantsApart apart (tenantsApart_reached apart planned bare reached)

/-! ## Two tenants of one node -/

/-- A VM of each of two VPCs. -/
def neighbours : Plan where
  vms v := v = "v1" ∨ v = "v2"
  vpcs u := u = "a1b2c3d4" ∨ u = "b1b2c3d4"
  vpcOf v := if v = "v1" then "a1b2c3d4" else "b1b2c3d4"
  publicBridge _ := "pub0"

theorem neighbours_apart : neighbours.Apart := by
  constructor
  · rintro _ (rfl | rfl)
    · exact .inl rfl
    · exact .inr rfl
  · rintro _ _ (rfl | rfl) (rfl | rfl) same
    · rfl
    · exact absurd same (by decide)
    · exact absurd same (by decide)
    · rfl
  · rintro _ _ (rfl | rfl) (rfl | rfl) same
    · rfl
    · exact absurd same (by decide +kernel)
    · exact absurd same (by decide +kernel)
    · rfl
  · rintro _ _ (rfl | rfl) (rfl | rfl) same
    · rfl
    · exact absurd same (by decide)
    · exact absurd same (by decide)
    · rfl
  · intro _ begins
    have other : ¬ "br-" <+: ("pub0" : Str) := by decide
    exact other begins

/-- With a public address. -/
def tenant (v vpc ip public_ : Str) : VmSpec :=
  { sampleSpec with
    vmId := v, vpcId := vpc, ip := ip, vg := "nyc-n1",
    publicIp := some ⟨public_, "32", "203.0.113.1", "02:00:00:00:00:0a"⟩ }

def moves : List Job :=
  [.up Sample.n1 (tenant "v1" "a1b2c3d4" "172.16.0.2" "203.0.113.10"),
    .up Sample.n1 (tenant "v2" "b1b2c3d4" "172.16.0.2" "203.0.113.11")]

theorem moves_planned : ∀ job ∈ moves, job.Planned neighbours := by
  intro job there
  rcases List.mem_pair.mp there with rfl | rfl
  · exact ⟨.inl rfl, rfl, rfl, rfl⟩
  · exact ⟨.inr rfl, rfl, rfl, rfl⟩

theorem host_bare (plan : Plan) (n : Id) : Bare plan n Sample.host := by
  -- `pub0` is the only link of the host
  have only {k : LinkKey} {x : Kind × Option Str} (there : Sample.host.net.portAt k = some x) :
      k = (none, ("pub0" : Str)) ∧ x = (.bridge, none) := by
    rw [Net.portAt, Sample.host, Store.lookup_insert] at there
    split at there
    next same =>
      cases there
      exact ⟨same, rfl⟩
    next => cases there
  constructor
  · intro k x there
    obtain ⟨rfl, -⟩ := only there
    constructor
    · apply not_of_tag
      intro d
      cases d <;> decide
    · rintro v (inside | ⟨st, same | same⟩)
      · cases inside
      -- the third letter of an end is no letter of `pub0`
      · have third := Stack.outer_third st v
        rw [← (Prod.mk.inj same).2] at third
        exact absurd third (by decide)
      · have third := Stack.inner_third st v
        rw [← (Prod.mk.inj same).2] at third
        exact absurd third (by decide)
  · intro k kind br there
    cases (only there).2
  · intro k p m there
    cases (only there).2
  · intro k vni ip m there
    cases (only there).2
  · rfl
  · intro v
    rfl

theorem fresh_bare (n : Id) : Bare neighbours n (Sample.fresh.hosts n) := by
  unfold Sample.fresh
  dsimp only
  split
  next same =>
    exact host_bare neighbours n
  next =>
    constructor
    · rintro k x ⟨⟩
    · rintro k kind br ⟨⟩
    · rintro k p m ⟨⟩
    · rintro k vni ip m ⟨⟩
    · rfl
    · intro v
      rfl

/-- Both interfaces are there. -/
def BothUp (c : Config Op Op.Res Exn Unit World) : Prop :=
  ((c.shared.world.hosts "n1").net.portAt (eth0 "v1")).isSome = true ∧
    ((c.shared.world.hosts "n1").net.portAt (eth0 "v2")).isSome = true

instance : DecidablePred BothUp := fun _ => inferInstanceAs (Decidable (_ ∧ _))

/-- The second bring-up starts when the first one has set up the firewall. -/
def turns : List Nat :=
  List.replicate 24 0 ++ ((List.range 32).flatMap fun _ => [1, 0]) ++ [1, 1, 1]

theorem both_reached :
    ∃ c, Reachable (exec Sample.env) anyStep ⟨⟨Sample.fresh, []⟩,
      moves.map Job.program⟩ c ∧ BothUp c :=
  Config.exists_of_follow (exec Sample.env) anyStep _ turns _ (by decide +kernel)

theorem both_isolated : ∃ c, Reachable
    (exec Sample.env) anyStep ⟨⟨Sample.fresh, []⟩, moves.map Job.program⟩ c ∧
    BothUp c ∧ Isolated neighbours c.shared.world := by
  obtain ⟨c, reached, up⟩ := both_reached
  exact ⟨c, reached, up, tenants_isolated neighbours neighbours_apart Sample.env moves moves_planned
    Sample.fresh
    fresh_bare c reached⟩

end Nyc.Isolation
