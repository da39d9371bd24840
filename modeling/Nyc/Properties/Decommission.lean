import Nyc.Client.Footprint
import Nyc.Properties.NatRules
import Nyc.Properties.Substrate
import Nyc.Scripts.Teardown
import Mathlib.Data.List.TakeWhile

/-!
# What a decommissioned node keeps

The runtime names its namespaces and links, and the script finds them again by expressions of its
own. For UUIDs the two agree (`isNamespace_iff`, `isLink_iff`), whatever the node lived through. On
the volume group they do not: the runtime appends the node to its name where the node has no device
of its own, and has a default for an empty name.
-/

namespace Nyc.Decommission

open Data Effects Effects.Program Client Scripts Scripts.Teardown

/-! ## The names of the runtime -/

def DIGITS : Str := "0123456789abcdef"

/-- `str(uuid)`. -/
def Uuid (id : Id) : Prop :=
  matches_ [.of DIGITS 8, .text "-".toList, .of DIGITS 4, .text "-".toList, .of DIGITS 4,
    .text "-".toList,
    .of DIGITS 4, .text "-".toList, .of DIGITS 12] id = true

instance (id : Id) : Decidable (Uuid id) := inferInstanceAs (Decidable (_ = true))

/-- A name that nyc gives to the namespace of some VM. -/
inductive NamesNamespace : Str → Prop where
  | vm {vmId : Id} (uuid : Uuid vmId) : NamesNamespace (VmUp.nsName vmId)

/-- A name that nyc gives to a link outside the namespaces: of some VPC on some node, or of some
VM. -/
inductive NamesLink : Str → Prop where
  | bridge {nodeId vpcId : Id} (node : Uuid nodeId) (vpc : Uuid vpcId) :
    NamesLink (Bridge.nameFor nodeId vpcId)
  | vxlan {nodeId vpcId : Id} (node : Uuid nodeId) (vpc : Uuid vpcId) :
    NamesLink (Vxlan.nameFor nodeId vpcId)
  | hostVeth {vmId : Id} (vm : Uuid vmId) : NamesLink (VmUp.hostVeth vmId)
  | nsVeth {vmId : Id} (vm : Uuid vmId) : NamesLink (VmUp.nsVeth vmId)
  | pubHostVeth {vmId : Id} (vm : Uuid vmId) : NamesLink (VmUp.pubHostVeth vmId)
  | pubNsVeth {vmId : Id} (vm : Uuid vmId) : NamesLink (VmUp.pubNsVeth vmId)

/-- The link is one of nyc's: by its name, or by the name of its namespace. -/
def Named : LinkKey → Prop
  | (none, name) => NamesLink name
  | (some ns, _) => NamesNamespace ns

section Names

variable {vm : Id}

theorem Uuid.eight (uuid : Uuid vm) : Stretch DIGITS 8 (vm.take 8) := (stretch_of_matches uuid).1

theorem Uuid.four (uuid : Uuid vm) : Stretch DIGITS 4 (vm.take 4) := by
  have short := (uuid.eight).take (show 4 ≤ 8 by decide)
  rwa [List.take_take] at short

/-- Any eight digits begin some UUID. -/
theorem uuid_of_eight {x : Str} (stretch : Stretch DIGITS 8 x) :
    Uuid (x ++ "-0000-0000-0000-000000000000") ∧
      (x ++ "-0000-0000-0000-000000000000").take 8 = x := by
  constructor
  · rw [Uuid, matches_of stretch]
    decide
  · rw [← stretch.length, List.take_left]

/-- Any four do. -/
theorem uuid_of_four {x : Str} (stretch : Stretch DIGITS 4 x) : ∃ id, Uuid id ∧ id.take 4 = x := by
  have eight : Stretch DIGITS 8 (x ++ "0000") := by
    constructor
    · rw [List.length_append, stretch.length]
      rfl
    · intro c there
      rcases List.mem_append.mp there with first | zero
      · exact stretch.class_ c first
      · rw [List.eq_of_mem_replicate (show c ∈ List.replicate 4 '0' from zero)]
        decide
  refine ⟨_, (uuid_of_eight eight).1, ?_⟩
  rw [List.append_assoc, ← stretch.length, List.take_left]

/-! ### The expressions of the script -/

/-- The expression for the namespaces fits the names of nyc and no others. -/
theorem isNamespace_iff {name : Str} : isNamespace name = true ↔ NamesNamespace name := by
  constructor
  · intro fits
    obtain ⟨x, rfl, last⟩ := exists_of_matches_text fits
    obtain ⟨uuid, same⟩ := uuid_of_eight (matches_last.mp last)
    have named := NamesNamespace.vm uuid
    rwa [VmUp.nsName, same] at named
  · rintro ⟨uuid⟩
    rw [isNamespace, namespacePattern, VmUp.nsName, matches_text]
    exact matches_last.mpr uuid.eight

theorem isLink_of {p : List Piece} {name : Str} (known : p ∈ linkPatterns)
    (fits : matches_ p name = true) :
    isLink name = true := List.any_eq_true.mpr ⟨p, known, fits⟩

/-- The name of a device of a VPC on a node. -/
theorem matches_device {t name : Str} :
    matches_ [.text t, .of hex 4, .text "-".toList, .of hex 4] name = true ↔
    ∃ nodeId vpcId, Uuid nodeId ∧ Uuid vpcId ∧ name = t ++ nodeId.take 4 ++ "-" ++
      vpcId.take 4 := by
  constructor
  · intro fits
    obtain ⟨_, rfl, digits⟩ := exists_of_matches_text fits
    obtain ⟨x, _, rfl, first, dashed⟩ := exists_of_matches_of digits
    obtain ⟨y, rfl, last⟩ := exists_of_matches_text dashed
    obtain ⟨nodeId, node, same⟩ := uuid_of_four first
    obtain ⟨vpcId, vpc, same'⟩ := uuid_of_four (matches_last.mp last)
    refine ⟨nodeId, vpcId, node, vpc, ?_⟩
    rw [same, same', List.append_assoc, List.append_assoc]
  · rintro ⟨nodeId, vpcId, node, vpc, rfl⟩
    have first : Stretch hex 4 (nodeId.take 4) := node.four
    rw [List.append_assoc, List.append_assoc, matches_text, matches_of first, matches_text]
    exact matches_last.mpr vpc.four

/-- The name of an end of a pair of a VM. -/
theorem matches_end {t name : Str} :
    matches_ [.text t, .of "hn".toList 1, .text "-".toList, .of hex 8] name = true ↔
      ∃ side vmId, side ∈ "hn".toList ∧ Uuid vmId ∧ name = t ++
        ([side] ++ ("-".toList ++ vmId.take 8)) := by
  constructor
  · intro fits
    obtain ⟨_, rfl, digits⟩ := exists_of_matches_text fits
    obtain ⟨x, _, rfl, first, dashed⟩ := exists_of_matches_of digits
    obtain ⟨y, rfl, last⟩ := exists_of_matches_text dashed
    obtain ⟨side, rfl⟩ := List.length_eq_one_iff.mp first.length
    obtain ⟨uuid, same⟩ := uuid_of_eight (matches_last.mp last)
    refine ⟨side, _, first.class_ side List.mem_cons_self, uuid, ?_⟩
    rw [same]
  · rintro ⟨side, vmId, known, vm, rfl⟩
    have one : Stretch "hn".toList 1 [side] := by
      refine ⟨rfl, fun c there => ?_⟩
      rw [List.mem_singleton.mp there]
      exact known
    rw [matches_text, matches_of one, matches_text]
    exact matches_last.mpr vm.eight

/-- The sides of a pair. -/
theorem side_cases {side : Char} (known : side ∈ "hn".toList) : side = 'h' ∨ side = 'n' := by
  simpa using known

/-- The expression for the links fits the names of nyc and no others. -/
theorem isLink_iff {name : Str} : isLink name = true ↔ NamesLink name := by
  constructor
  · intro fits
    obtain ⟨p, known, fits⟩ := List.any_eq_true.mp fits
    simp only [linkPatterns, List.mem_cons, List.not_mem_nil, or_false] at known
    -- two expressions are for devices of a VPC, and two for the ends of a VM's pairs
    rcases known with rfl | rfl | rfl | rfl
    · obtain ⟨_, _, node, vpc, rfl⟩ := matches_device.mp fits
      exact .bridge node vpc
    · obtain ⟨_, _, node, vpc, rfl⟩ := matches_device.mp fits
      exact .vxlan node vpc
    · obtain ⟨side, _, known, vm, rfl⟩ := matches_end.mp fits
      rcases side_cases known with rfl | rfl
      · exact .hostVeth vm
      · exact .nsVeth vm
    · obtain ⟨side, _, known, vm, rfl⟩ := matches_end.mp fits
      rcases side_cases known with rfl | rfl
      · exact .pubHostVeth vm
      · exact .pubNsVeth vm
  · intro named
    have third : [.text "vm".toList, .of "hn".toList 1, .text "-".toList,
        .of hex 8] ∈ linkPatterns :=
      List.mem_cons_of_mem _ (List.mem_cons_of_mem _ List.mem_cons_self)
    have fourth : [.text "pv".toList, .of "hn".toList 1, .text "-".toList,
        .of hex 8] ∈ linkPatterns :=
      List.mem_cons_of_mem _ (List.mem_cons_of_mem _ (List.mem_cons_of_mem _ List.mem_cons_self))
    cases named with
    | bridge node vpc =>
      exact isLink_of List.mem_cons_self (matches_device.mpr ⟨_, _, node, vpc, rfl⟩)
    | vxlan node vpc =>
      exact isLink_of (List.mem_cons_of_mem _ List.mem_cons_self) (matches_device.mpr ⟨_, _,
        node, vpc, rfl⟩)
    | hostVeth vm => exact isLink_of third (matches_end.mpr ⟨'h', _, by decide, vm, rfl⟩)
    | nsVeth vm => exact isLink_of third (matches_end.mpr ⟨'n', _, by decide, vm, rfl⟩)
    | pubHostVeth vm => exact isLink_of fourth (matches_end.mpr ⟨'h', _, by decide, vm, rfl⟩)
    | pubNsVeth vm => exact isLink_of fourth (matches_end.mpr ⟨'n', _, by decide, vm, rfl⟩)

instance (name : Str) : Decidable (NamesNamespace name) := decidable_of_iff _ isNamespace_iff

instance (name : Str) : Decidable (NamesLink name) := decidable_of_iff _ isLink_iff

/-- The links that a node has without nyc are none of its names. -/
example : ∀ name ∈ (["lo", "eth0", "pub0", "br0"] : List Str), ¬ NamesLink name := by decide

/-- The script finds the link: by its name, or by the name of its namespace. -/
def Matched : LinkKey → Prop
  | (none, name) => isLink name = true
  | (some ns, _) => isNamespace ns = true

/-- What the script finds is what nyc names. -/
theorem matched_iff (key : LinkKey) : Matched key ↔ Named key := by
  obtain ⟨ns, name⟩ := key
  cases ns with
  | none => exact isLink_iff
  | some ns => exact isNamespace_iff

end Names

/-! ## The links of a node -/

/-- Every namespace and every link is of nyc or was there at the start, and no pair joins the
two. -/
structure Kept (start n : Net) : Prop where
  namespaces : ∀ ns ∈ n.namespaces, ns ∈ start.namespaces ∨ isNamespace ns = true
  links : ∀ key, n.kindAt key ≠ none → start.kindAt key ≠ none ∨ Matched key
  numbers : ∀ key p, n.kindAt key = some (.veth p) → p < n.pairs
  ends : ∀ key key' p, n.kindAt key = some (.veth p) → n.kindAt key' = some (.veth p) →
    (Matched key ↔ Matched key')

namespace Kept

variable {start n n' : Net}

/-- Nothing new: some links and namespaces may be gone. -/
theorem less (kept : Kept start n)
    (links : ∀ key, n'.kindAt key = none ∨ n'.kindAt key = n.kindAt key)
    (pairs : n'.pairs = n.pairs) (namespaces : ∀ ns ∈ n'.namespaces, ns ∈ n.namespaces) :
    Kept start n' := by
  have old (key : LinkKey) (kind : Kind) (there : n'.kindAt key = some kind) :
      n.kindAt key = some kind := by
    rcases links key with gone | same
    · rw [gone] at there
      cases there
    · rwa [same] at there
  constructor
  · exact fun ns there => kept.namespaces ns (namespaces ns there)
  · intro key there
    obtain ⟨kind, found⟩ := Option.ne_none_iff_exists'.mp there
    apply kept.links key
    rw [old key kind found]
    exact Option.some_ne_none kind
  · intro key p there
    rw [pairs]
    exact kept.numbers key p (old key _ there)
  · exact fun key key' p there there' => kept.ends key key' p (old key _ there) (old key' _ there')

theorem same (kept : Kept start n) (alike : SameLinks n n') : Kept start n' := by
  refine kept.less (fun key => .inr (alike.kinds key)) alike.pairs fun ns there => ?_
  rwa [alike.namespaces] at there

theorem namespace_ (kept : Kept start n) {ns : Str} (named : isNamespace ns = true) :
    Kept start { n with namespaces := ns :: n.namespaces } where
  namespaces ns' there := by
    rcases List.mem_cons.mp there with rfl | old
    · exact .inr named
    · exact kept.namespaces ns' old
  links := kept.links
  numbers := kept.numbers
  ends := kept.ends

/-- A new link of nyc that is no end of a pair. -/
theorem added (kept : Kept start n) {key : LinkKey} {kind : Kind} (named : Matched key)
    (plain : ∀ p, kind ≠ .veth p) {a : Unit} (step : NetCmd.step (.add key kind) n = some (a, n')) :
    Kept start n' := by
  obtain ⟨-, -, pairs, namespaces, kinds⟩ := add_step step
  have veths (k : LinkKey) (p : Nat) (there : n'.kindAt k = some (.veth p)) : n.kindAt k = some
    (.veth p) := by
    rw [kinds] at there
    split at there
    · cases there
      exact absurd rfl (plain p)
    · exact there
  constructor
  · rw [namespaces]
    exact kept.namespaces
  · intro k there
    rw [kinds] at there
    split at there
    next here => exact .inr (here ▸ named)
    next => exact kept.links k there
  · intro k p there
    rw [pairs]
    exact kept.numbers k p (veths k p there)
  · exact fun k k' p there there' => kept.ends k k' p (veths k p there) (veths k' p there')

/-- A new pair of nyc. -/
theorem paired (kept : Kept start n) {name peer : Str} (outer : isLink name = true)
    (inner : isLink peer = true)
    {a : Unit} (step : NetCmd.step (.addVeth name peer) n = some (a, n')) : Kept start n' := by
  obtain ⟨-, -, pairs, namespaces, kinds⟩ := addVeth_step step
  have named (k : LinkKey) (new : k = (none, name) ∨ k = (none, peer)) : Matched k := by
    rcases new with rfl | rfl
    · exact outer
    · exact inner
  -- an end is new, and nyc's, or as it was
  have cases_ (k : LinkKey) (p : Nat) (there : n'.kindAt k = some (.veth p)) :
      (Matched k ∧ p = n.pairs) ∨ n.kindAt k = some (.veth p) := by
    rw [kinds] at there
    split at there
    next new =>
      cases there
      exact .inl ⟨named k new, rfl⟩
    next => exact .inr there
  constructor
  · rw [namespaces]
    exact kept.namespaces
  · intro k there
    rw [kinds] at there
    split at there
    next new => exact .inr (named k new)
    next => exact kept.links k there
  · intro k p there
    rcases cases_ k p there with ⟨-, rfl⟩ | old
    · omega
    · have below := kept.numbers k p old
      omega
  · intro k k' p there there'
    rcases cases_ k p there with ⟨first, rfl⟩ | old
    · rcases cases_ k' _ there' with ⟨second, -⟩ | old'
      · exact iff_of_true first second
      · exact absurd (kept.numbers k' _ old') (lt_irrefl _)
    · rcases cases_ k' p there' with ⟨-, rfl⟩ | old'
      · exact absurd (kept.numbers k _ old) (lt_irrefl _)
      · exact kept.ends k k' p old old'

/-- A link of nyc goes into a namespace of nyc. -/
theorem placed (kept : Kept start n) {name ns : Str} (outside : isLink name = true)
    (inside : isNamespace ns = true)
    {a : Unit} (step : NetCmd.step (.setNetns name ns) n = some (a, n')) : Kept start n' := by
  obtain ⟨kind, found, -, -, pairs, namespaces, kinds⟩ := setNetns_step step
  -- where a link was before
  have before (k : LinkKey) (kind' : Kind) (there : n'.kindAt k = some kind') :
      ∃ k₀, n.kindAt k₀ = some kind' ∧ (Matched k ↔ Matched k₀) := by
    rw [kinds] at there
    split at there
    next new =>
      subst new
      cases there
      exact ⟨(none, name), found, iff_of_true inside outside⟩
    next =>
      split at there
      · cases there
      · exact ⟨k, there, Iff.rfl⟩
  constructor
  · rw [namespaces]
    exact kept.namespaces
  · intro k there
    rw [kinds] at there
    split at there
    next new => exact .inr (new ▸ inside)
    next =>
      split at there
      · exact absurd rfl there
      · exact kept.links k there
  · intro k p there
    obtain ⟨k₀, old, -⟩ := before k _ there
    rw [pairs]
    exact kept.numbers k₀ p old
  · intro k k' p there there'
    obtain ⟨k₀, old, same⟩ := before k _ there
    obtain ⟨k₀', old', same'⟩ := before k' _ there'
    rw [same, same']
    exact kept.ends k₀ k₀' p old old'

/-- A namespace goes, with what is in it. -/
theorem dropped (kept : Kept start n) {ns : Str} {a : Unit}
    (step : NetCmd.step (.netnsDel ns) n = some (a, n')) :
    Kept start n' := by
  obtain ⟨filters, namespaces, links⟩ := netnsDel_step step
  refine kept.less (fun key => ?_) filters.pairs fun m there => ((namespaces m).mp there).1
  by_cases inside : n.Inside ns key
  · exact .inl (Net.kindAt_none.mpr ((links key).1 inside))
  · exact .inr (kindAt_congr ((links key).2 inside))

theorem deleted (kept : Kept start n) {name : Str} {a : Unit}
    (step : NetCmd.step (.del name) n = some (a, n')) :
    Kept start n' := by
  obtain ⟨filters, namespaces, links⟩ := del_step step
  refine kept.less (fun key => ?_) filters.pairs fun ns there => by rwa [namespaces] at there
  by_cases paired : n.Paired name key
  · exact .inl (Net.kindAt_none.mpr ((links key).1 paired))
  · exact .inr (kindAt_congr ((links key).2 paired))

/-- What `vm_up` wires is nyc's. -/
theorem wired {spec : VmSpec} (node : Uuid spec.nodeId) (vpc : Uuid spec.vpcId)
    (vm : Uuid spec.vmId) (kept : Kept start n) {c : NetCmd} (known : VmUp.Wires spec c) {a : c.Res}
      (step : c.step n = some (a, n')) :
    Kept start n' := by
  cases known with
  | bridge =>
    have named : Matched (none, Bridge.nameFor spec.nodeId spec.vpcId) :=
      isLink_iff.mpr (.bridge node vpc)
    exact kept.added named (fun p => by rintro ⟨⟩) step
  | vxlan =>
    have named : Matched (none, Vxlan.nameFor spec.nodeId spec.vpcId) :=
      isLink_iff.mpr (.vxlan node vpc)
    exact kept.added named (fun p => by rintro ⟨⟩) step
  | netns =>
    obtain ⟨-, rfl⟩ := netnsAdd_step step
    exact kept.namespace_ (isNamespace_iff.mpr (.vm vm))
  | pair => exact kept.paired (isLink_iff.mpr (.hostVeth vm)) (isLink_iff.mpr (.nsVeth vm)) step
  | publicPair =>
    exact kept.paired (isLink_iff.mpr (.pubHostVeth vm)) (isLink_iff.mpr (.pubNsVeth vm)) step
  | place => exact kept.placed (isLink_iff.mpr (.nsVeth vm)) (isNamespace_iff.mpr (.vm vm)) step
  | publicPlace =>
    exact kept.placed (isLink_iff.mpr (.pubNsVeth vm)) (isNamespace_iff.mpr (.vm vm)) step
  | inner name kind known =>
    have named : Matched (some (VmUp.nsName spec.vmId), name) := isNamespace_iff.mpr (.vm vm)
    refine kept.added named (fun p same => ?_) step
    simp only [VmUp.inner, List.mem_cons, List.not_mem_nil, or_false, Prod.mk.injEq] at known
    rcases known with ⟨-, rfl⟩ | ⟨-, rfl⟩ | ⟨-, rfl⟩ | ⟨-, rfl⟩ <;> cases same
  | _ => exact kept.same (sets_step (by exact trivial) step)

theorem issued {spec : VmSpec} (node : Uuid spec.nodeId) (vpc : Uuid spec.vpcId)
    (vm : Uuid spec.vmId)
    {c : Cmd} (issues : VmUp.Issues spec c) (x : Chance) {h : Host} (kept : Kept start h.net) :
    Kept start (h.exec x c).2.net := by
  apply exec_net_keeps x c h ?_ kept
  rintro c rfl a n' step
  cases issues with
  | net c known => exact kept.wired node vpc vm known step

theorem undone {v : Id} {vg : Str} {c : Cmd} (issues : VmDown.Issues v vg c) (x : Chance) {h : Host}
    (kept : Kept start h.net) : Kept start (h.exec x c).2.net := by
  apply exec_net_keeps x c h ?_ kept
  rintro c rfl a n' step
  cases issues with
  | netnsDel => exact kept.dropped step
  | delVeth => exact kept.deleted step
  | delPublic => exact kept.deleted step

end Kept

/-! ## The rules of a node -/

open Nat_
open NatRules (Jump)

/-- The chain that the jump leads to. -/
def target : Jump → Str
  | .postrouting => POST
  | .forward => FWD

/-- Each jump is there at most once, and nothing else leads to the two chains. -/
structure Filters (n : Net) : Prop where
  once : ∀ j : Jump, List.count j.rule n.rules ≤ 1
  sole : ∀ r ∈ n.rules, ∀ j : Jump, jumpsTo j.rule.table (target j) r → r = j.rule

theorem Filters.same {n n' : Net} (filters : Filters n) (same : n'.rules = n.rules) :
    Filters n' := by
  constructor
  · rw [same]
    exact filters.once
  · rw [same]
    exact filters.sole

/-- The rules of a CIDR lead to none of the chains. -/
theorem ruleFor_leads (k : NatRules.RuleKind) (cidr : Str) (j : Jump) :
    ¬ jumpsTo j.rule.table (target j) (NatRules.ruleFor k cidr) := by
  rintro ⟨-, leads⟩
  have mark : target j ≠ "!" ∧ target j ≠ "MASQUERADE" ∧ target j ≠ "ACCEPT" ∧
      target j ≠ "-d" ∧ target j ≠
    "-j" := by
    cases j <;> decide
  have flags : ("-j" : Str) ≠ "-s" ∧ ("-j" : Str) ≠ "-d" ∧ ("-j" : Str) ≠ "!" := by decide
  cases k <;> simp only [NatRules.ruleFor, List.infix_cons_iff, List.cons_prefix_cons, mark, flags,
    List.infix_nil,
    List.cons_ne_nil, List.prefix_nil, List.nil_prefix, false_and, and_false, and_true,
      or_false] at leads

/-- A rule that is new, and leads to a chain only if it is that jump. -/
theorem Filters.append {n : Net} (filters : Filters n) {r : Rule} (new : r ∉ n.rules)
    (leads : ∀ j : Jump, jumpsTo j.rule.table (target j) r → r = j.rule) :
    Filters { n with rules := n.rules ++ [r] } := by
  constructor
  · intro j
    rw [List.count_append, List.count_singleton]
    split
    next same =>
      rw [← beq_iff_eq.mp same, List.count_eq_zero_of_not_mem new]
    next => exact filters.once j
  · intro r' there
    rcases List.mem_append.mp there with old | last
    · exact filters.sole r' old
    · rw [List.mem_singleton.mp last]
      exact leads

/-- The command leaves the rules alone. -/
def SparesRules : Cmd → Prop
  | .net (.appendRule _) | .net (.deleteRule _) => False
  | _ => True

theorem rules_step {c : NetCmd} (spares : SparesRules (.net c)) {n n' : Net} {a : c.Res}
    (step : c.step n = some (a, n')) : n'.rules = n.rules := by
  cases c with
  | appendRule | deleteRule => cases spares
  | netnsDel ns => exact (netnsDel_step step).1.rules
  | del name => exact (del_step step).1.rules
  | fdbShow dev =>
    obtain ⟨l, -, put⟩ := Option.map_eq_some_iff.mp step
    cases put
    rfl
  | sysctlForward =>
    cases step
    rfl
  | _ =>
    simp only [NetCmd.step] at step
    repeat' split at step
    all_goals cases step
    all_goals rfl

theorem Filters.spared {c : Cmd} (spares : SparesRules c) (x : Chance) {h : Host}
    (filters : Filters h.net) :
    Filters (h.exec x c).2.net := by
  apply exec_net_keeps x c h ?_ filters
  rintro c rfl a n' step
  exact filters.same (rules_step spares step)

section Rules

variable {x : Nat → Chance} {s : Nat × Host}

/-- No check for a rule that is there fails. -/
def Honest (x : Nat → Chance) (c : Cmd) (s : Nat × Host) : Prop :=
  ∀ r, c = .net (.checkRule r) → r ∈ s.2.net.rules → (x s.1).fails = false

/-- Where an honest check fails, the rule is not there. -/
theorem ensureRule_filters {table chain : Str} {args : List Str} (filters : Filters s.2.net)
    (leads : ∀ j : Jump, jumpsTo j.rule.table (target j) ⟨table, chain, args⟩ →
      ⟨table, chain, args⟩ = j.rule) :
    wp (gated (execAt x) (Honest x)) (ensureRule table chain args)
      (fun _ s' => Filters s'.2.net) s := by
  rw [ensureRule, wp_bind, exceptPrivops, wp_tryCatch, wp_bind, net, wp_perform]
  intro honest
  by_cases there : (⟨table, chain, args⟩ : Rule) ∈ s.2.net.rules
  -- a rule that is there is found, as the check is honest
  · have sound := honest _ rfl there
    have found : NetCmd.step (.checkRule ⟨table, chain, args⟩) s.2.net = some ((), s.2.net) := by
      simp only [NetCmd.step, if_pos there]
    have step : Cmd.step (x s.1).out (.net (.checkRule ⟨table, chain, args⟩))
        (s.2.reap (x s.1).gone) =
        some ((), s.2.reap (x s.1).gone) := by
      change (NetCmd.step (.checkRule ⟨table, chain, args⟩) s.2.net).map _ = _
      rw [found]
      rfl
    simp only [execAt, exec_of_step (x s.1) (.net (.checkRule ⟨table, chain, args⟩)) s.2 _ _
      (.inl sound) step]
    exact filters
  -- one that is not is appended, and leads to a chain that it was made for
  · have refused : NetCmd.step (.checkRule ⟨table, chain, args⟩) s.2.net = none := by
      simp only [NetCmd.step, if_neg there]
    simp only [execAt, exec_net_refused (x s.1) refused]
    change wp (gated (execAt x) (Honest x)) (net (.appendRule ⟨table, chain, args⟩)) _ _
    rw [net, wp_perform]
    intro _
    change Filters (Host.exec _ _ _).2.net
    rcases exec_net (x (s.1 + 1)) (.appendRule ⟨table, chain, args⟩)
      (s.2.reap (x s.1).gone) with same | ⟨a, step⟩
    · rw [same]
      exact filters
    · simp only [NetCmd.step] at step
      split at step
      · rw [← (Prod.mk.inj (Option.some.inj step)).2]
        exact filters.append there leads
      · cases step

theorem spares_then {α β : Type} {p : Sh α} {f : α → Sh β} (spares : Only SparesRules p)
    (filters : Filters s.2.net)
    (rest : ∀ a s', Filters s'.2.net → wp (gated (execAt x) (Honest x)) (f a)
      (fun _ s' => Filters s'.2.net) s') :
    wp (gated (execAt x) (Honest x)) (p >>= f) (fun _ s' => Filters s'.2.net) s :=
  gated_keeps_then (execAt x) (Honest x) (fun s' => Filters s'.2.net)
    (fun _ s' spares filters => filters.spared spares (x s'.1)) spares filters (fun _ _ h => h) rest

theorem rule_then {table chain : Str} {args : List Str} {f : Unit → Sh Unit}
    (filters : Filters s.2.net)
    (leads : ∀ j : Jump, jumpsTo j.rule.table (target j) ⟨table, chain, args⟩ →
      ⟨table, chain, args⟩ = j.rule)
    (rest : ∀ s', Filters s'.2.net → wp (gated (execAt x) (Honest x)) (f ())
      (fun _ s' => Filters s'.2.net) s') :
    wp (gated (execAt x) (Honest x)) (ensureRule table chain args >>= f)
      (fun _ s' => Filters s'.2.net) s :=
  gated_then (execAt x) (Honest x) (fun s' => Filters s'.2.net) (ensureRule_filters filters leads)
    (fun _ _ h => h)
    fun _ => rest

/-- A jump leads to its own chain. -/
theorem jump_leads (j j' : Jump) (leads : jumpsTo j'.rule.table (target j') j.rule) :
    j.rule = j'.rule := by
  revert leads
  cases j <;> cases j' <;> decide

theorem natEnsure_filters (cidr : Str) (filters : Filters s.2.net) :
    wp (gated (execAt x) (Honest x)) (Nat_.ensure cidr) (fun _ s' => Filters s'.2.net) s := by
  have chain (table chain : Str) : Only SparesRules (ensureChain table chain) :=
    .bind (.exceptPrivops _ (.bind (.net trivial) fun _ => .pure _)) fun _ =>
      .ite (fun _ => .pure _) fun _ => .net trivial
  have own (k : NatRules.RuleKind) (j : Jump)
      (leads : jumpsTo j.rule.table (target j) (NatRules.ruleFor k cidr)) :
        NatRules.ruleFor k cidr =
        j.rule :=
    absurd leads (ruleFor_leads k cidr j)
  have forward : Only SparesRules (net .sysctlForward) := .net trivial
  refine spares_then forward filters fun _ s₁ filters => ?_
  refine spares_then (chain ..) filters fun _ s₂ filters => ?_
  refine spares_then (chain ..) filters fun _ s₃ filters => ?_
  refine rule_then filters (jump_leads .postrouting) fun s₄ filters => ?_
  refine rule_then filters (jump_leads .forward) fun s₅ filters => ?_
  refine rule_then filters (own .masquerade) fun s₆ filters => ?_
  refine rule_then filters (own .source) fun s₇ filters => ?_
  exact ensureRule_filters filters (own .destination)

theorem symlink_spares (vmId : Id) (l : LinkName) (source : Path) : Only SparesRules
    (symlink vmId l source) := by
  apply Only.bind (.dir trivial)
  intro _
  exact .bind (.whenTrue fun _ => .dir trivial) fun _ => .dir trivial

theorem setup_spares (vmId : Id) (kernel sshKey vg origin : Str) :
    Only SparesRules (EnvSetup.run vmId kernel sshKey vg origin) := by
  refine .bind (.dir trivial) fun _ => .bind ((Lv.remove_only vg _).mono ?_) fun _ =>
    .bind (.bind (.lvm trivial) fun _ => .pure _) fun _ => .bind (symlink_spares ..) fun _ =>
    .bind (symlink_spares ..) fun _ => symlink_spares ..
  rintro c (lvs | _) <;> trivial

theorem linkExists_spares (name : Str) : Only SparesRules (linkExists name) :=
  .exceptPrivops _ (.bind (.net trivial) fun _ => .pure _)

theorem bridge_spares (br gw mac : Str) : Only SparesRules (Bridge.ensure br gw mac) :=
  .bind (linkExists_spares br) fun _ => .ite (fun _ => .pure _) fun _ =>
    .bind (.net trivial) fun _ =>
    .bind (.net trivial) fun _ => .bind (.net trivial) fun _ => .net trivial

theorem vxlan_spares (name localIp br : Str) (vni : Nat) : Only SparesRules
    (Vxlan.ensure name vni localIp br) :=
  .bind (linkExists_spares name) fun _ => .ite (fun _ => .pure _) fun _ =>
    .bind (.net trivial) fun _ =>
    .bind (.net trivial) fun _ => .net trivial

theorem setFdb_spares (sets : SetOrder) (name : Str) (peers : List Str) :
    Only SparesRules (Vxlan.setFdb sets name peers) := by
  have shows : Only SparesRules (net (.fdbShow name)) := .net trivial
  exact .bind (.bind shows fun _ => .fromExcept _) fun _ =>
    .bind (.forEach _ fun _ _ => .net trivial) fun _ => .forEach _ fun _ _ => .net trivial

theorem overlay_spares (spec : VmSpec) (br : Str) : Only SparesRules (VmUp.overlay spec br) :=
  .ite (fun _ => .pure _) fun _ => .bind (vxlan_spares ..) fun _ => setFdb_spares ..

theorem attach_spares (ns link name : Str) : Only SparesRules (NsBridge.attach ns link name) :=
  .bind (.net trivial) fun _ => .net trivial

theorem create_spares (ns name : Str) : Only SparesRules (NsBridge.create ns name) :=
  .bind (.net trivial) fun _ => .net trivial

theorem wireVeth_spares (spec : VmSpec) (ns host inner : Str) : Only SparesRules
    (VmUp.wireVeth spec ns host inner) := by
  apply Only.bind (.net trivial)
  intro _
  apply Only.bind (.net trivial)
  intro _
  exact .bind (.net trivial) fun _ => .net trivial

theorem wireTap_spares (ns inner : Str) : Only SparesRules (VmUp.wireTap ns inner) := by
  apply Only.bind (create_spares ..)
  intro _
  apply Only.bind (attach_spares ..)
  intro _
  exact .bind (.net trivial) fun _ => attach_spares ..

theorem wirePublic_spares (spec : VmSpec) (ns : Str) :
    Only SparesRules (VmUp.wirePublic spec ns) := by
  apply Only.bind (.net trivial)
  intro _
  apply Only.bind (.net trivial)
  intro _
  apply Only.bind (.net trivial)
  intro _
  apply Only.bind (.net trivial)
  intro _
  apply Only.bind (create_spares ..)
  intro _
  apply Only.bind (attach_spares ..)
  intro _
  exact .bind (.net trivial) fun _ => attach_spares ..

theorem spawn_spares (spec : VmSpec) : Only SparesRules (VmUp.spawn spec) := by
  refine .bind ?_ fun _ => .bind (.dir trivial) fun _ => .bind (.perform trivial)
    fun _ => .dir trivial
  unfold VmConfig.build
  cases VmConfig.payload (VmPaths.forVm spec.vmsDir spec.vmId) (VmUp.vmConfig spec) with
  | error e => exact .throw e
  | ok c => exact .dir trivial

/-- Only `nat.ensure` adds rules. -/
theorem up_filters (spec : VmSpec) (filters : Filters s.2.net) :
    wp (gated (execAt x) (Honest x)) (VmUp.run spec) (fun _ s' => Filters s'.2.net) s := by
  refine spares_then (setup_spares ..) filters fun _ s₁ filters => ?_
  refine spares_then (.perform trivial) filters fun _ s₂ filters => ?_
  refine spares_then (.whenSome fun _ _ => symlink_spares ..) filters fun _ s₃ filters => ?_
  refine gated_then (execAt x) (Honest x) (fun s' => Filters s'.2.net) ?_ (fun _ _ h => h)
    fun _ s₄ filters => ?_
  · refine spares_then (.fromExcept _) filters fun _ s₅ filters => ?_
    refine spares_then (bridge_spares ..) filters fun _ s₆ filters => ?_
    refine spares_then (overlay_spares ..) filters fun _ s₇ filters => ?_
    refine gated_then (execAt x) (Honest x)
      (fun s' => Filters s'.2.net) (natEnsure_filters _ filters)
      (fun _ _ h => h) fun _ s₈ filters => ?_
    exact gated_keeps (execAt x) (Honest x) (fun s' => Filters s'.2.net)
      (fun _ s' spares filters => filters.spared spares (x s'.1))
      (.bind (.net trivial) fun _ => .bind (wireVeth_spares ..) fun _ =>
        .bind (wireTap_spares ..) fun _ =>
        .whenSome fun _ _ => wirePublic_spares ..) s₈ filters
  · exact gated_keeps (execAt x) (Honest x) (fun s' => Filters s'.2.net)
      (fun _ s' spares filters => filters.spared spares (x s'.1)) (spawn_spares spec) s₄ filters

theorem down_spares (v : Id) (vg : Str) : Only SparesRules (VmDown.run v vg) :=
  (VmDown.run_only v vg).mono fun c issues => by cases issues <;> trivial

end Rules

/-! ## The start of a node -/

/-- A command of the start: on volumes, or on what is under them; it makes no group but this. -/
def Under (group : Str) : PoolCmd → Prop
  | .host (.lvm _) => True
  | .host _ => False
  | .vgcreate vg _ => vg = group
  | _ => True

theorem onMachine_under {group : Str} {α : Type} {p : Sh α}
    (volumes : Only (fun c => ∃ c', c = .lvm c') p) :
    Only (Under group) (onMachine p) := by
  rw [Only, Substrate.wp_onMachine]
  have host : Only (fun c => Under group (.host c)) p := volumes.mono fun c ok => by
    obtain ⟨c', rfl⟩ := ok
    trivial
  exact host

theorem cmd_under {group : Str} {c : PoolCmd} (under : Under group c) :
    Only (Under group) (Pool.cmd c) :=
  .perform under

theorem exitsZero_under {group : Str} {p : Setup Unit} (under : Only (Under group) p) :
    Only (Under group) (Pool.exitsZero p) :=
  .tryCatch (.bind under fun _ => .pure _) fun _ => .ite (fun _ => .pure _) fun _ => .throw _

theorem ensure_under (node : Id) (cfg : PoolConfig) (src : Str) :
    Only (Under (cfg.vgFor node)) (Pool.ensure node cfg src) := by
  have exists_ (vg name : Str) : Only (Under (cfg.vgFor node)) (onMachine (Lv.exists_ vg name)) :=
    onMachine_under (.bind (Lv.listLvs_only _ _ ⟨_, rfl⟩) fun _ => .pure _)
  have label (force : Bool) (dev : Dev) :
      Only (Under (cfg.vgFor node)) (Pool.ensurePvcreate force dev) :=
    .bind (exitsZero_under (cmd_under (by trivial))) fun _ => .ite (fun _ => .pure _)
      fun _ => cmd_under
      (by trivial)
  -- the label of the device comes with or without a loop device under it
  have pv : Only (Under (cfg.vgFor node)) (Pool.ensurePv cfg) := by
    refine .ite (fun _ => .bind (label ..) fun _ => .pure _) fun _ => ?_
    refine .bind (cmd_under (by trivial)) fun _ => .bind (cmd_under (by trivial)) fun _ =>
      .bind (.whenTrue fun _ => cmd_under (by trivial)) fun _ => .bind ?_ fun _ => .bind (label ..)
        fun _ => .pure _
    refine .bind (cmd_under (by trivial)) fun dev => ?_
    cases dev with
    | none => exact cmd_under (by trivial)
    | some dev => exact .pure _
  refine .bind pv fun _ => .bind (exitsZero_under (cmd_under (by trivial))) fun _ =>
    .bind (.whenTrue fun _ => cmd_under (by exact rfl)) fun _ =>
    .bind (.bind (exists_ ..) fun _ => .ite (fun _ => .pure _) fun _ =>
      cmd_under (by trivial)) fun _ =>
    .bind (cmd_under (by trivial)) fun _ => .bind
      (.bind (exists_ ..) fun _ => .ite (fun _ => .pure _) fun _ => ?_)
      fun _ => .pure _
  apply Only.bind (onMachine_under (.bind (.lvm ⟨_, rfl⟩) fun _ => .pure _))
  intro _
  apply Only.bind (cmd_under (by trivial))
  intro _
  exact .bind (onMachine_under (.bind (.lvm ⟨_, rfl⟩) fun _ => .pure _)) fun _ => .pure _

/-- The network is as it was, and no other group is new. -/
structure SameNet (group : Str) (m m' : Machine) : Prop where
  net : m'.host.net = m.host.net
  groups : ∀ vg, vg ≠ group → m.vgs.lookup vg = none → m'.vgs.lookup vg = none

theorem SameNet.refl (group : Str) (m : Machine) : SameNet group m m :=
  ⟨rfl, fun _ _ none_ => none_⟩

theorem SameNet.trans {group : Str} {m m' m'' : Machine} (first : SameNet group m m')
    (second : SameNet group m' m'') : SameNet group m m'' :=
  ⟨second.net.trans first.net, fun vg other none_ =>
    second.groups vg other (first.groups vg other none_)⟩

theorem under_step {group : Str} {c : PoolCmd} (under : Under group c) {m m' : Machine} {a : c.Res}
    (step : c.step [] m = some (a, m')) : SameNet group m m' := by
  -- only `vgcreate` makes a group, and it makes the node's own
  cases c with
  | host c =>
    cases c with
    | lvm c =>
      obtain ⟨⟨b, h⟩, done, same⟩ := Option.map_eq_some_iff.mp step
      obtain ⟨_, -, put⟩ := Option.map_eq_some_iff.mp done
      cases same
      cases put
      exact ⟨rfl, fun _ _ none_ => none_⟩
    | _ => cases under
  | vgcreate vg dev =>
    cases (show vg = group from under)
    simp only [PoolCmd.step] at step
    split at step <;> cases step
    refine ⟨rfl, fun vg other none_ => ?_⟩
    rw [Store.lookup_insert, if_neg other]
    exact none_
  | pvcreate force dev =>
    simp only [PoolCmd.step] at step
    split at step <;> cases step
    refine ⟨rfl, fun vg _ none_ => ?_⟩
    change (Store.keep _ m.vgs).lookup vg = none
    rw [Store.lookup_keep, none_]
    rfl
  | _ =>
    simp only [PoolCmd.step] at step
    repeat' split at step
    all_goals cases step
    all_goals exact ⟨rfl, fun _ _ none_ => none_⟩

theorem ensure_same (fails : Nat → Bool) (node : Id) (cfg : PoolConfig) (src : Str) (m : Machine) :
    SameNet (cfg.vgFor node) m (Program.run (execPool fails) (Pool.ensure node cfg src)
      (0, m)).2.2 := by
  apply (wp_sequential _ _ (fun _ (s : Nat × Machine) => SameNet (cfg.vgFor node) m s.2) _).mp
  apply sequential_keeps (execPool fails) (fun s => SameNet (cfg.vgFor node) m s.2) _
    (ensure_under node cfg src)
  · exact .refl ..
  · intro c s under same
    refine Substrate.execPool_rule (Q := fun _ s' => SameNet (cfg.vgFor node) m s'.2) ?_ ?_ ?_
    · exact fun _ => same
    · exact fun _ => same
    · exact fun a m' step => same.trans (under_step under step)

/-! ## The life of a node -/

/-- A client program on the host of the machine. -/
def onHost {α : Type} (p : Sh α) (x : Nat → Chance) (m : Machine) : Machine :=
  { m with host := (Program.run (execAt x) p (0, m.host)).2.2 }

/-- The machine is not nyc's yet: no name that nyc would give, and nothing leads to its chains. -/
structure Fresh (m : Machine) : Prop where
  namespaces : ∀ ns ∈ m.host.net.namespaces, ¬ NamesNamespace ns
  links : ∀ key, m.host.net.kindAt key ≠ none → ¬ Named key
  numbers : ∀ key p, m.host.net.kindAt key = some (.veth p) → p < m.host.net.pairs
  rules : ∀ r ∈ m.host.net.rules, ∀ j : Jump, ¬ jumpsTo j.rule.table (target j) r

/-- Starts of the node, bring-ups and teardowns of its VMs, in any order, each with any failures but
those of a check for a rule that is there. -/
inductive Lived (node : Id) (cfg : PoolConfig) (start : Machine) : Machine → Prop where
  | refl : Lived node cfg start start
  | ensure {m : Machine} (fails : Nat → Bool) (src : Str) : Lived node cfg start m →
    Lived node cfg start (Program.run (execPool fails) (Pool.ensure node cfg src) (0, m)).2.2
  | up {m : Machine} (spec : VmSpec) (x : Nat → Chance) : Lived node cfg start m →
    spec.nodeId = node →
    Uuid spec.vpcId → Uuid spec.vmId →
    (∀ a ∈ trail (execAt x) (VmUp.run spec) (0, m.host), Honest x a.1 a.2) →
    Lived node cfg start (onHost (VmUp.run spec) x m)
  | down {m : Machine} (v : Id) (vg : Str) (x : Nat → Chance) : Lived node cfg start m →
    Lived node cfg start (onHost (VmDown.run v vg) x m)

/-- What a life leaves. -/
structure Left (group : Str) (start m : Machine) : Prop where
  kept : Kept start.host.net m.host.net
  filters : Filters m.host.net
  groups : ∀ vg, vg ≠ group → start.vgs.lookup vg = none → m.vgs.lookup vg = none

section Life

variable {node : Id} {cfg : PoolConfig} {start m : Machine}

theorem Fresh.left (fresh : Fresh start) (group : Str) : Left group start start where
  kept := {
    namespaces := fun _ there => .inl there
    links := fun _ there => .inl there
    numbers := fresh.numbers
    ends := fun key key' p there there' => by
      rw [matched_iff, matched_iff]
      refine iff_of_false (fresh.links key ?_) (fresh.links key' ?_)
      · rw [there]
        exact Option.some_ne_none _
      · rw [there']
        exact Option.some_ne_none _ }
  filters := {
    once := fun j => by
      rw [List.count_eq_zero_of_not_mem fun there => fresh.rules _ there j ?_]
      · exact Nat.zero_le 1
      · cases j <;> decide
    sole := fun r there j leads => absurd leads (fresh.rules r there j) }
  groups := fun _ _ none_ => none_

theorem Lived.left (fresh : Fresh start) (uuid : Uuid node) (lived : Lived node cfg start m) :
    Left (cfg.vgFor node) start m := by
  -- a start makes the group, a bring-up links and rules, and a take-down nothing
  induction lived with
  | refl => exact fresh.left _
  | @ensure m fails src _ ih =>
    have same := ensure_same fails node cfg src m
    constructor
    · rw [same.net]
      exact ih.kept
    · rw [same.net]
      exact ih.filters
    · exact fun vg other none_ => same.groups vg other (ih.groups vg other none_)
  | @up m spec x _ here vpc vm honest ih =>
    subst here
    refine ⟨?_, ?_, ih.groups⟩
    · apply (wp_sequential _ _ (fun _ (s : Nat × Host) => Kept start.host.net s.2.net) _).mp
      exact sequential_keeps (execAt x) (fun s => Kept start.host.net s.2.net)
        (fun c s issues kept => kept.issued uuid vpc vm issues (x s.1)) (VmUp.run_only spec)
          (0, m.host) ih.kept
    · exact wp_gated (execAt x) (Honest x) _ (fun _ (s : Nat × Host) => Filters s.2.net) (0, m.host)
        (up_filters spec ih.filters) honest
  | @down m v vg x _ ih =>
    refine ⟨?_, ?_, ih.groups⟩
    · apply (wp_sequential _ _ (fun _ (s : Nat × Host) => Kept start.host.net s.2.net) _).mp
      exact sequential_keeps (execAt x) (fun s => Kept start.host.net s.2.net)
        (fun c s issues kept => kept.undone issues (x s.1)) (VmDown.run_only v vg)
          (0, m.host) ih.kept
    · apply (wp_sequential _ _ (fun _ (s : Nat × Host) => Filters s.2.net) _).mp
      exact sequential_keeps (execAt x) (fun s => Filters s.2.net)
        (fun c s spares filters => filters.spared spares (x s.1)) (down_spares v vg) (0,
          m.host) ih.filters

end Life

/-! ## The purge of the links -/

def withNet (m : Machine) (n : Net) : Machine := { m with host := { m.host with net := n } }

theorem attempt_onNet (f : Net → Option Net) (m : Machine) :
    (onNet f m).getD m = withNet m ((f m.host.net).getD m.host.net) := by
  unfold onNet
  cases f m.host.net with
  | none => rfl
  | some n => rfl

/-- `ip netns del ... || true`. -/
def dropNs (n : Net) (ns : Str) : Net := ((NetCmd.step (.netnsDel ns) n).map Prod.snd).getD n

/-- `ip link del ... || true`. -/
def dropLink (n : Net) (name : Str) : Net := ((NetCmd.step (.del name) n).map Prod.snd).getD n

/-- A loop over names on the network. -/
theorem all_net {c : Str → TearCmd} {f : Net → Str → Net}
    (is : ∀ a m, (c a).attempt m = withNet m (f m.host.net a))
    (xs : List Str) (m : Machine) : all (xs.map c) m = withNet m (xs.foldl f m.host.net) := by
  induction xs generalizing m with
  | nil => rfl
  | cons a xs ih =>
    change all (xs.map c) ((c a).attempt m) = _
    rw [is, ih]
    rfl

/-- Links of nyc are gone, and no others. -/
structure Purged (start n n' : Net) : Prop where
  kept : Kept start n'
  filters : SameFilters n n'
  foreign : ∀ key, ¬ Matched key → n'.links.lookup key = n.links.lookup key
  less : ∀ key, n'.kindAt key = none ∨ n'.kindAt key = n.kindAt key

namespace Purged

variable {start n n' n'' : Net}

theorem refl (kept : Kept start n) : Purged start n n :=
  ⟨kept, ⟨rfl, rfl, rfl, rfl⟩, fun _ _ => rfl, fun _ => .inr rfl⟩

theorem trans (first : Purged start n n') (second : Purged start n' n'') : Purged start n n'' where
  kept := second.kept
  filters := {
    pairs := second.filters.pairs.trans first.filters.pairs
    chains := second.filters.chains.trans first.filters.chains
    rules := second.filters.rules.trans first.filters.rules
    ipForward := second.filters.ipForward.trans first.filters.ipForward }
  foreign key other := (second.foreign key other).trans (first.foreign key other)
  less key := by
    rcases second.less key with gone | same
    · exact .inl gone
    · rw [same]
      exact first.less key

theorem gone (purged : Purged start n n') {key : LinkKey}
    (gone : n.kindAt key = none) : n'.kindAt key = none := by
  rcases purged.less key with now | same
  · exact now
  · rw [same, gone]

/-- One namespace. -/
theorem dropNs (kept : Kept start n) {ns : Str} (named : isNamespace ns = true) :
    Purged start n (Decommission.dropNs n ns) ∧
      ∀ m, m ∈ (Decommission.dropNs n ns).namespaces ↔ m ∈ n.namespaces ∧ m ≠ ns := by
  by_cases there : ns ∈ n.namespaces
  · obtain ⟨n', step⟩ := netnsDel_there there
    obtain ⟨filters, namespaces, links⟩ := netnsDel_step step
    have done : Decommission.dropNs n ns = n' := by simp only
      [Decommission.dropNs, step, Option.map_some, Option.getD_some]
    rw [done]
    refine ⟨⟨kept.dropped step, filters, fun key other => ?_, fun key => ?_⟩, namespaces⟩
    · apply (links key).2
      rintro (inside | ⟨name, p, inside, paired⟩)
      · obtain ⟨ns', name⟩ := key
        cases inside
        exact other named
      · exact other ((kept.ends _ _ p inside paired).mp named)
    · by_cases inside : n.Inside ns key
      · exact .inl (Net.kindAt_none.mpr ((links key).1 inside))
      · exact .inr (kindAt_congr ((links key).2 inside))
  · have none_ : Decommission.dropNs n ns = n := by
      simp only [Decommission.dropNs, netnsDel_missing there, Option.map_none, Option.getD_none]
    rw [none_]
    refine ⟨.refl kept, fun m => ⟨fun old => ⟨old, ?_⟩, fun old => old.1⟩⟩
    rintro rfl
    exact there old

/-- One link. -/
theorem dropLink (kept : Kept start n) {name : Str} (named : isLink name = true) :
    Purged start n (Decommission.dropLink n name) ∧
      (Decommission.dropLink n name).namespaces = n.namespaces ∧
      (Decommission.dropLink n name).kindAt (none, name) = none := by
  cases there : n.links.lookup (none, name) with
  | some l =>
    obtain ⟨n', step⟩ := del_there there
    obtain ⟨filters, namespaces, links⟩ := del_step step
    have done : Decommission.dropLink n name = n' := by
      simp only [Decommission.dropLink, step, Option.map_some, Option.getD_some]
    rw [done]
    refine ⟨⟨kept.deleted step, filters, fun key other => ?_, fun key => ?_⟩, namespaces, ?_⟩
    · apply (links key).2
      rintro (rfl | ⟨p, here, paired⟩)
      · exact other named
      · exact other ((kept.ends _ _ p here paired).mp named)
    · by_cases paired : n.Paired name key
      · exact .inl (Net.kindAt_none.mpr ((links key).1 paired))
      · exact .inr (kindAt_congr ((links key).2 paired))
    · exact Net.kindAt_none.mpr ((links _).1 (.inl rfl))
  | none =>
    have none_ : Decommission.dropLink n name = n := by
      simp only [Decommission.dropLink, del_missing there, Option.map_none, Option.getD_none]
    rw [none_]
    exact ⟨.refl kept, rfl, Net.kindAt_none.mpr there⟩

/-- The loop over the namespaces. -/
theorem allNs (xs : List Str) (named : ∀ ns ∈ xs, isNamespace ns = true) (kept : Kept start n) :
    Purged start n (xs.foldl Decommission.dropNs n) ∧
      ∀ m, m ∈ (xs.foldl Decommission.dropNs n).namespaces ↔ m ∈ n.namespaces ∧ m ∉ xs := by
  induction xs generalizing n with
  | nil =>
    refine ⟨.refl kept, fun m => ⟨fun old => ⟨old, List.not_mem_nil⟩, fun old => old.1⟩⟩
  | cons ns xs ih =>
    obtain ⟨first, namespaces⟩ := dropNs kept (named ns List.mem_cons_self)
    obtain ⟨rest, namespaces'⟩ :=
      ih (fun m there => named m (List.mem_cons_of_mem _ there)) first.kept
    refine ⟨first.trans rest, fun m => ?_⟩
    change m ∈ (xs.foldl _ (Decommission.dropNs n ns)).namespaces ↔ _
    rw [namespaces', namespaces, List.mem_cons, not_or, and_assoc]

/-- The loop over the links. -/
theorem allLinks (xs : List Str) (named : ∀ name ∈ xs, isLink name = true) (kept : Kept start n) :
    Purged start n (xs.foldl Decommission.dropLink n) ∧
      (xs.foldl Decommission.dropLink n).namespaces = n.namespaces ∧
      ∀ name ∈ xs, (xs.foldl Decommission.dropLink n).kindAt (none, name) = none := by
  induction xs generalizing n with
  | nil => exact ⟨.refl kept, rfl, fun _ there => absurd there List.not_mem_nil⟩
  | cons name xs ih =>
    obtain ⟨first, namespaces, gone⟩ := dropLink kept (named name List.mem_cons_self)
    obtain ⟨rest, namespaces', gone'⟩ :=
      ih (fun m there => named m (List.mem_cons_of_mem _ there)) first.kept
    refine ⟨first.trans rest, namespaces'.trans namespaces, fun m there => ?_⟩
    rcases List.mem_cons.mp there with rfl | later
    · exact rest.gone gone
    · exact gone' m later

end Purged

/-! ### The lists -/

/-- No character that an expression matches is the sign that `cut` looks for. -/
theorem not_at_of_isLink {name : Str} (named : isLink name = true) : '@' ∉ name := by
  intro there
  obtain ⟨pieces, known, fits⟩ := List.any_eq_true.mp named
  obtain ⟨p, piece, within⟩ := chars_of_matches fits '@' there
  have plain : (linkPatterns.all fun pieces => pieces.all fun p =>
      !p.chars.contains '@') = true := by
    decide
  have none_ := List.all_eq_true.mp (List.all_eq_true.mp plain pieces known) p piece
  rw [List.contains_iff_mem.mpr within] at none_
  cases none_

/-- `cut` gives back the name of a link of nyc. -/
theorem cut_shown {name : Str} (named : isLink name = true) (l : Link) :
    cut (shown name l) = name := by
  have plain : ∀ c ∈ name, decide (c ≠ '@') = true := by
    intro c there
    rw [decide_eq_true_iff]
    rintro rfl
    exact not_at_of_isLink named there
  unfold shown
  split
  next other _ =>
    rw [cut, List.append_assoc, List.takeWhile_append_of_pos plain]
    exact List.append_right_eq_self.mpr rfl
  next => exact List.takeWhile_eq_self_iff.mpr plain

/-- Every link of nyc in the root namespace is on the list. -/
theorem mem_links {n : Net} {name : Str} (named : isLink name = true)
    (there : n.kindAt (none, name) ≠ none) :
    name ∈ links n := by
  obtain ⟨kind, found⟩ := Option.ne_none_iff_exists'.mp there
  obtain ⟨l, looked, -⟩ := Net.kindAt_some.mp found
  refine List.mem_filter.mpr ⟨List.mem_map.mpr ⟨shown name l, ?_, cut_shown named l⟩, named⟩
  exact List.mem_filterMap.mpr ⟨⟨(none, name), l⟩, AList.mem_lookup_iff.mp looked, rfl⟩

/-- What `purge netns + links` leaves of the network. -/
theorem purgeLinks_net {start : Net} {m : Machine} (kept : Kept start m.host.net) :
    ∃ n, purgeLinks m = withNet m n ∧ Purged start m.host.net n ∧
      (∀ ns, ns ∈ n.namespaces ↔ ns ∈ m.host.net.namespaces ∧ isNamespace ns = false) ∧
      ∀ name, isLink name = true → n.kindAt (none, name) = none := by
  have isNs (a : Str) (m : Machine) :
      (TearCmd.netnsDel a).attempt m = withNet m (dropNs m.host.net a) :=
    attempt_onNet (fun n => (NetCmd.step (.netnsDel a) n).map Prod.snd) m
  have isLink_ (a : Str) (m : Machine) :
      (TearCmd.linkDel a).attempt m = withNet m (dropLink m.host.net a) :=
    attempt_onNet (fun n => (NetCmd.step (.del a) n).map Prod.snd) m
  -- namespaces go before links, so a device in one of them is gone when its turn comes
  obtain ⟨first, inside⟩ := Purged.allNs (namespaces m.host.net)
    (fun ns there => (List.mem_filter.mp there).2) kept
  set n₁ := (namespaces m.host.net).foldl dropNs m.host.net with dropped
  obtain ⟨second, same, gone⟩ := Purged.allLinks (links n₁)
    (fun name there => (List.mem_filter.mp there).2) first.kept
  refine ⟨(links n₁).foldl dropLink n₁, ?_, first.trans second, fun ns => ?_, fun name named => ?_⟩
  · rw [purgeLinks, all_net isNs, all_net isLink_]
    rfl
  · rw [same, inside, namespaces, List.mem_filter]
    constructor
    · rintro ⟨there, other⟩
      refine ⟨there, ?_⟩
      cases named : isNamespace ns with
      | false => rfl
      | true => exact absurd ⟨there, named⟩ other
    · rintro ⟨there, other⟩
      refine ⟨there, fun named => ?_⟩
      rw [other] at named
      cases named.2
  · by_cases there : n₁.kindAt (none, name) = none
    · exact second.gone there
    · exact gone name (mem_links named there)

/-! ## The purge of the chains -/

/-- Nothing leads to the two chains. -/
def Free (n : Net) : Prop := ∀ r ∈ n.rules, ∀ j : Jump, ¬ jumpsTo j.rule.table (target j) r

/-- The links are as they were, and no rule or chain is new. -/
structure Fewer (n n' : Net) : Prop where
  links : n'.links = n.links
  namespaces : n'.namespaces = n.namespaces
  rules : n'.rules ⊆ n.rules
  chains : n'.chains ⊆ n.chains

theorem Fewer.refl (n : Net) : Fewer n n := ⟨rfl, rfl, List.Subset.refl _, List.Subset.refl _⟩

theorem Fewer.trans {n n' n'' : Net} (first : Fewer n n') (second : Fewer n' n'') : Fewer n n'' :=
  ⟨second.links.trans first.links, second.namespaces.trans first.namespaces,
    List.Subset.trans second.rules first.rules, List.Subset.trans second.chains first.chains⟩

theorem Free.fewer {n n' : Net} (free : Free n) (fewer : Fewer n n') : Free n' :=
  fun r there => free r (fewer.rules there)

/-- `iptables -D ... || true`. -/
theorem unjump_net (j : Jump) (m : Machine) : ∃ n,
    (TearCmd.unjump j.rule.table j.rule.chain (target j)).attempt m = withNet m n ∧
      Fewer m.host.net n ∧
      n.rules = m.host.net.rules.erase j.rule := by
  have rule : (⟨j.rule.table, j.rule.chain, ["-j", target j]⟩ : Rule) = j.rule := by cases j <;> rfl
  have done := attempt_onNet (fun n => (NetCmd.step (.deleteRule j.rule) n).map Prod.snd) m
  rw [← rule] at done
  refine ⟨_, done, ?_⟩
  rw [rule]
  by_cases there : j.rule ∈ m.host.net.rules
  · simp only [NetCmd.step, if_pos there, Option.map_some, Option.getD_some, and_true]
    exact ⟨rfl, rfl, List.erase_subset, List.Subset.refl _⟩
  · simp only [NetCmd.step, if_neg there, Option.map_none, Option.getD_none]
    exact ⟨.refl _, (List.erase_of_not_mem there).symm⟩

/-- A chain is flushed. -/
theorem flush_net (table chain : Str) (m : Machine) : ∃ n,
    (TearCmd.flush table chain).attempt m = withNet m n ∧ Fewer m.host.net n ∧
      n.chains = m.host.net.chains ∧
      ((table, chain) ∈ n.chains → ∀ r ∈ n.rules, ¬ (r.table = table ∧ r.chain = chain)) := by
  refine ⟨_, attempt_onNet (fun n =>
    if n.chains.contains (table, chain) then
      some { n with rules := n.rules.filter fun r => ¬ (r.table = table ∧ r.chain = chain) }
    else none) m, ?_⟩
  by_cases there : m.host.net.chains.contains (table, chain) = true
  · simp only [if_pos there, Option.getD_some]
    refine ⟨⟨rfl, rfl, List.filter_subset_self _, List.Subset.refl _⟩, trivial, fun _ r kept => ?_⟩
    exact of_decide_eq_true (List.mem_filter.mp kept).2
  · simp only [if_neg there, Option.getD_none]
    exact ⟨.refl _, trivial, fun here => absurd (List.contains_iff_mem.mpr here) there⟩

/-- A chain that is empty and that nothing leads to is deleted, if it is there. -/
theorem deleteChain_net {table chain : Str} {m : Machine}
    (empty : (table, chain) ∈ m.host.net.chains → ∀ r ∈ m.host.net.rules, ¬
      (r.table = table ∧ r.chain = chain))
    (free : ∀ r ∈ m.host.net.rules, ¬ jumpsTo table chain r) : ∃ n,
    (TearCmd.deleteChain table chain).attempt m = withNet m n ∧ Fewer m.host.net n ∧
      (table, chain) ∉ n.chains := by
  refine ⟨_, attempt_onNet (fun n =>
    if n.chains.contains (table, chain) ∧ (∀ r ∈ n.rules, ¬ (r.table = table ∧ r.chain = chain)) ∧
        ∀ r ∈ n.rules, ¬ jumpsTo table chain r then
      some { n with chains := n.chains.filter (· ≠ (table, chain)) }
    else none) m, ?_⟩
  by_cases there : m.host.net.chains.contains (table, chain) = true
  · simp only [if_pos (show _ ∧ _ ∧ _ from ⟨there, empty (List.contains_iff_mem.mp there), free⟩),
      Option.getD_some]
    refine ⟨⟨rfl, rfl, List.Subset.refl _, List.filter_subset_self _⟩, fun kept => ?_⟩
    exact of_decide_eq_true (List.mem_filter.mp kept).2 rfl
  · simp only [if_neg fun all : _ ∧ _ ∧ _ => there all.1, Option.getD_none]
    exact ⟨.refl _, fun here => there (List.contains_iff_mem.mpr here)⟩

theorem unchain_net (j : Jump) {m : Machine} (free : Free m.host.net) : ∃ n,
    (TearCmd.deleteChain j.rule.table (target j)).attempt
      ((TearCmd.flush j.rule.table (target j)).attempt m) =
      withNet m n ∧ Fewer m.host.net n ∧ (j.rule.table, target j) ∉ n.chains := by
  obtain ⟨n, flushed, fewer, -, empty⟩ := flush_net j.rule.table (target j) m
  rw [flushed]
  obtain ⟨n', deleted, fewer', gone⟩ := deleteChain_net (m := withNet m n) empty
    fun r there => (free.fewer fewer) r there j
  exact ⟨n', deleted, fewer.trans fewer', gone⟩

/-- A jump that is there at most once is not there any more. -/
theorem free_of_erased {n n' : Net} (filters : Filters n)
    (rules : n'.rules = (n.rules.erase (Jump.rule .postrouting)).erase (Jump.rule .forward)) :
    Free n' := by
  intro r there j leads
  rw [rules] at there
  have old := List.mem_of_mem_erase (List.mem_of_mem_erase there)
  have same := filters.sole r old j leads
  subst same
  have once := filters.once j
  have none_ : List.count j.rule ((n.rules.erase (Jump.rule .postrouting)).erase
      (Jump.rule .forward)) =
    0 := by
    cases j with
    | postrouting =>
      rw [List.count_erase_of_ne (by decide), List.count_erase_self]
      omega
    | forward =>
      rw [List.count_erase_self, List.count_erase_of_ne (by decide)]
      omega
  exact List.count_eq_zero.mp none_ there

theorem chainCmds_eq : chainCmds =
    [.unjump (Jump.rule .postrouting).table (Jump.rule .postrouting).chain (target .postrouting),
      .unjump (Jump.rule .forward).table (Jump.rule .forward).chain (target .forward),
      .flush (Jump.rule .postrouting).table (target .postrouting),
      .deleteChain (Jump.rule .postrouting).table (target .postrouting),
      .flush (Jump.rule .forward).table (target .forward),
      .deleteChain (Jump.rule .forward).table (target .forward)] := rfl

/-- What `purge iptables chains` leaves of the network. -/
theorem purgeChains_net {m : Machine} (filters : Filters m.host.net) :
    ∃ n, all chainCmds m = withNet m n ∧ Fewer m.host.net n ∧ Free n ∧
      ∀ j : Jump, (j.rule.table, target j) ∉ n.chains := by
  obtain ⟨n₁, first, fewer₁, rules₁⟩ := unjump_net .postrouting m
  obtain ⟨n₂, second, fewer₂, rules₂⟩ := unjump_net .forward (withNet m n₁)
  have free : Free n₂ := by
    apply free_of_erased filters
    rw [rules₂]
    exact congrArg (List.erase · _) rules₁
  obtain ⟨n₃, third, fewer₃, post⟩ := unchain_net .postrouting (m := withNet (withNet m n₁) n₂) free
  obtain ⟨n₄, fourth, fewer₄, fwd⟩ :=
    unchain_net .forward (m := withNet (withNet (withNet m n₁) n₂) n₃) (free.fewer fewer₃)
  refine ⟨n₄, ?_, fewer₁.trans (fewer₂.trans (fewer₃.trans fewer₄)),
    (free.fewer fewer₃).fewer fewer₄,
    fun j => ?_⟩
  · rw [chainCmds_eq, all]
    simp only [List.foldl_cons, List.foldl_nil, first, second, third, fourth]
    rfl
  · cases j with
    | postrouting => exact fun there => post (fewer₄.chains there)
    | forward => exact fwd

/-! ## The group -/

/-- What `remove LVM vg` leaves. -/
theorem removeVg_eq (d : Inventory.HostData) (m : Machine) : (removeVg d m).host.net = m.host.net ∧
    ∀ vg, (removeVg d m).vgs.lookup vg = if d.lvmVg ≠ [] ∧
      vg = d.lvmVg then none else m.vgs.lookup vg := by
  -- each command leaves the network, and only the second changes the groups
  have off (m : Machine) : ((TearCmd.vgchange d.lvmVg).attempt m).host = m.host ∧
      ((TearCmd.vgchange d.lvmVg).attempt m).vgs = m.vgs := by
    simp only [TearCmd.attempt, TearCmd.step]
    by_cases there : m.vgs.lookup d.lvmVg ≠ none
    · simp only [if_pos there, Option.getD_some, and_self]
    · simp only [if_neg there, Option.getD_none, and_self]
  have gone (m : Machine) : ((TearCmd.vgremove d.lvmVg).attempt m).host.net = m.host.net ∧
      ∀ vg, ((TearCmd.vgremove d.lvmVg).attempt m).vgs.lookup vg =
        if vg = d.lvmVg then none else m.vgs.lookup
        vg := by
    simp only [TearCmd.attempt, TearCmd.step]
    by_cases there : m.vgs.lookup d.lvmVg ≠ none
    · simp only [if_pos there, Option.getD_some]
      exact ⟨trivial, fun vg => Store.lookup_erase ..⟩
    · simp only [if_neg there, Option.getD_none]
      refine ⟨trivial, fun vg => ?_⟩
      split
      next same =>
        rw [same]
        exact not_not.mp there
      next => rfl
  have last (m : Machine) : ((TearCmd.pvremove (.disk d.lvmDevice)).attempt m).host = m.host ∧
      ((TearCmd.pvremove (.disk d.lvmDevice)).attempt m).vgs = m.vgs := by
    simp only [TearCmd.attempt, TearCmd.step]
    by_cases there : Dev.disk d.lvmDevice ∈ m.pvs
    · simp only [if_pos there, Option.getD_some, and_self]
    · simp only [if_neg there, Option.getD_none, and_self]
  unfold removeVg
  by_cases named : d.lvmVg ≠ []
  · rw [if_pos named]
    obtain ⟨host, vgs⟩ := off m
    obtain ⟨net, lookups⟩ := gone ((TearCmd.vgchange d.lvmVg).attempt m)
    have both : ∀ vg, (if vg = d.lvmVg then none else m.vgs.lookup vg) =
        if d.lvmVg ≠ [] ∧ vg = d.lvmVg then none else m.vgs.lookup vg := by
      intro vg
      simp only [named, ne_eq, not_false_eq_true, true_and]
    simp only [vgs, both] at lookups
    rw [host] at net
    by_cases device : d.lvmDevice ≠ []
    · rw [if_pos device]
      obtain ⟨host', vgs'⟩ :=
        last ((TearCmd.vgremove d.lvmVg).attempt ((TearCmd.vgchange d.lvmVg).attempt m))
      refine ⟨(congrArg Host.net host').trans net, fun vg => ?_⟩
      exact (congrArg (AList.lookup vg) vgs').trans (lookups vg)
    · rw [if_neg device]
      exact ⟨net, lookups⟩
  · rw [if_neg named]
    exact ⟨rfl, fun vg => by rw [if_neg fun both => named both.1]⟩

section Group

variable (d : Inventory.HostData) (node : Id)

/-- The group that the runtime makes on the node. -/
def groupOf : Str := (Config.lvm (Provision.lvmConfig d)).vgFor node

/-- The script knows the group under its own name only where the node has a device. -/
theorem groupOf_eq_iff (named : d.lvmVg ≠ []) : groupOf d node = d.lvmVg ↔ d.lvmDevice ≠ [] := by
  obtain ⟨device, vg, pool⟩ := d
  obtain ⟨c, cs, rfl⟩ := List.exists_cons_of_ne_nil named
  cases device with
  | nil =>
    refine iff_of_false (fun same => ?_) (fun some_ => some_ rfl)
    have long := congrArg List.length same
    simp only [groupOf, Config.lvm, Provision.lvmConfig, Config.LvmConfig.vgFor,
      truthy, orElse, ne_eq,
      not_true_eq_false, if_false, Bool.false_eq_true, List.length_append] at long
    have dash : ("-" : Str).length = 1 := rfl
    omega
  | cons e es => exact iff_of_true rfl (List.cons_ne_nil e es)

end Group

/-! ## What is left -/

/-- Of a machine that was `m` and is `m'` now: what nyc made on it is gone, and what is not nyc's by
its name is as it was. -/
structure Decommissioned (start m m' : Machine) : Prop where
  namespaces : ∀ ns ∈ m'.host.net.namespaces, ns ∈ start.host.net.namespaces
  links : ∀ name, m'.host.net.kindAt (none, name) ≠ none → start.host.net.kindAt (none, name) ≠ none
  chains : ∀ j : Jump, (j.rule.table, target j) ∉ m'.host.net.chains
  jumps : ∀ j : Jump, j.rule ∉ m'.host.net.rules
  groups : ∀ vg, start.vgs.lookup vg = none → m'.vgs.lookup vg = none
  otherNamespaces : ∀ ns ∈ m.host.net.namespaces, ¬ NamesNamespace ns → ns ∈ m'.host.net.namespaces
  otherLinks : ∀ key, ¬ Named key → m'.host.net.links.lookup key = m.host.net.links.lookup key

/-- `pool.ensure` has made the group. -/
def Made (start m : Machine) (group : Str) : Prop :=
  start.vgs.lookup group = none ∧ m.vgs.lookup group ≠ none

/-- The links, the namespaces and the chains go in any case; the group goes if the node has a device
and the group a name of its own. -/
theorem decommissioned_iff (cluster : Inventory.ClusterTable) (entry : Inventory.NodeTable)
    (node : Id) (uuid : Uuid node) (cfg : PoolConfig)
    (read : cfg.toLvmConfig = Config.lvm (Provision.lvmConfig (Inventory.host cluster entry)))
    (start m : Machine) (fresh : Fresh start) (lived : Lived node cfg start m) :
    Decommissioned start m (Teardown.run (Inventory.host cluster entry) m) ↔
      (Made start m (cfg.vgFor node) →
        (Inventory.host cluster entry).lvmVg ≠ [] ∧
          (Inventory.host cluster entry).lvmDevice ≠ []) := by
  generalize Inventory.host cluster entry = d at read ⊢
  have group : cfg.vgFor node = groupOf d node := by rw [groupOf, ← read]
  obtain ⟨kept, filters, groups⟩ := lived.left fresh uuid
  rw [group] at groups ⊢
  obtain ⟨net, vgs⟩ := removeVg_eq d m
  obtain ⟨n₁, first, purged, namespaces, links⟩ := purgeLinks_net (m := removeVg d m) (net ▸ kept)
  rw [net] at purged namespaces
  have filters₁ : Filters n₁ := filters.same purged.filters.rules
  obtain ⟨n₂, second, fewer, free, chains⟩ :=
    purgeChains_net (m := withNet (removeVg d m) n₁) filters₁
  -- the script in its three parts: the group, the links, the chains
  have done : Teardown.run d m = withNet (withNet (removeVg d m) n₁) n₂ := by
    rw [Teardown.run, first, second]
  have lookups (key : LinkKey) : n₂.links.lookup key = n₁.links.lookup key := by
    rw [fewer.links]; rfl
  rw [done]
  constructor
  -- what is gone must be the group of the device that the entry names
  · rintro gone ⟨before, made⟩
    have none_ := gone.groups _ before
    change (removeVg d m).vgs.lookup _ = none at none_
    rw [vgs] at none_
    split at none_
    next both => exact ⟨both.1, (groupOf_eq_iff d node both.1).mp both.2⟩
    next => exact absurd none_ made
  · intro known
    constructor
    · intro ns there
      change ns ∈ n₂.namespaces at there
      rw [fewer.namespaces] at there
      obtain ⟨old, other⟩ := (namespaces ns).mp there
      rcases kept.namespaces ns old with first | named
      · exact first
      · rw [named] at other
        cases other
    · intro name there
      have there₁ : n₁.kindAt (none, name) ≠ none := by
        rwa [← kindAt_congr (lookups (none, name))]
      rcases purged.kept.links _ there₁ with first | named
      · exact first
      · exact absurd (links name named) there₁
    · exact chains
    · intro j there
      exact free _ there j (by cases j <;> decide)
    · intro vg before
      change (removeVg d m).vgs.lookup vg = none
      rw [vgs]
      split
      · rfl
      next kept =>
        by_cases own : vg = groupOf d node
        · subst own
          by_contra made
          obtain ⟨named, device⟩ := known ⟨before, made⟩
          exact kept ⟨named, (groupOf_eq_iff d node named).mpr device⟩
        · exact groups vg own before
    · intro ns there other
      change ns ∈ n₂.namespaces
      rw [fewer.namespaces]
      rw [← isNamespace_iff, Bool.not_eq_true] at other
      exact (namespaces ns).mpr ⟨there, other⟩
    · intro key other
      rw [← matched_iff] at other
      exact (lookups key).trans (purged.foreign key other)

/-! ## One node -/

def sampleNode : Id := "0b1f4c2e-6d2a-4c59-9a55-0f6f3f1a7c10"

/-- `cluster.toml` names no group, and the node its device, if it has one. -/
def sampleCluster : Inventory.ClusterTable := ⟨none, none, none⟩

def sampleConfig (device : Option Str) : PoolConfig :=
  ⟨Config.lvm (Provision.lvmConfig (Inventory.host sampleCluster ⟨device⟩)), "/node",
    20, 4096, false⟩

theorem empty_fresh : Fresh Machine.empty where
  namespaces ns there := by cases there
  links key there := absurd rfl there
  numbers key p there := by cases there
  rules r there := by cases there

def started (device : Option Str) : Machine :=
  (Program.run (execPool fun _ => false)
    (Pool.ensure sampleNode (sampleConfig device) "rootfs.ext4")
    (0, Machine.empty)).2.2

/-- A VM with a public address. -/
def sampleSpec : VmSpec where
  vmId := "7c9e6679-7425-40de-944b-e07fc1f90ae7"
  nodeId := sampleNode
  vpcId := "16fd2706-8baf-433b-82eb-8c7fada847da"
  ip := "172.16.0.2"
  cidr := "172.16.0.0/16"
  dataVolumePath := none
  kernel := "/repo/assets/vmlinux"
  sshKey := "/repo/assets/id_ed25519"
  vmsDir := "/node/vms"
  vg := "nyc"
  nodeHost := "10.0.0.1"
  peerHosts := ["10.0.0.2"]
  dns := "1.1.1.1"
  sshPubkey := none
  vcpuCount := 1
  memMib := 512
  rootfsOrigin := GOLD_DEFAULT
  publicIp := some ⟨"203.0.113.10", "32", "203.0.113.1", "02:00:00:00:00:0a"⟩
  publicBridge := "pub0"
  sets := ⟨id, fun xs => .refl xs⟩

theorem started_lived (device : Option Str) :
    Lived sampleNode (sampleConfig device) Machine.empty (started device) :=
  .ensure _ _ .refl

/-- After the bring-up. -/
def used (device : Option Str) : Machine := onHost (VmUp.run sampleSpec)
    (fun _ => ⟨false, [], fun _ => false⟩) (started device)

theorem used_lived (device : Option Str) :
    Lived sampleNode (sampleConfig device) Machine.empty (used device) :=
  .up sampleSpec _ (started_lived device) rfl (by decide +kernel) (by decide +kernel)
    fun _ _ _ _ _ => rfl

/-- A node with a device of its own. -/
theorem device_decommissioned : Decommissioned Machine.empty (used (some "/dev/sdb"))
    (Teardown.run (Inventory.host sampleCluster ⟨some "/dev/sdb"⟩) (used (some "/dev/sdb"))) :=
  (decommissioned_iff sampleCluster ⟨some "/dev/sdb"⟩ sampleNode (by decide +kernel)
    (sampleConfig (some "/dev/sdb"))
    rfl Machine.empty _ empty_fresh (used_lived _)).mpr fun _ => ⟨by decide, by decide⟩

/-- Without a device, the group `nyc-0b1f4c2e` stays. -/
theorem loopback_stays : Lived sampleNode (sampleConfig none) Machine.empty (started none) ∧
    ¬ Decommissioned Machine.empty (started none)
      (Teardown.run (Inventory.host sampleCluster ⟨none⟩) (started none)) := by
  refine ⟨started_lived none, fun gone => ?_⟩
  have group := gone.groups "nyc-0b1f4c2e" rfl
  revert group
  decide +kernel

end Nyc.Decommission
