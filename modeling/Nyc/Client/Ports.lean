import Nyc.Client.Topology

/-!
# What the links are joined to

The kinds of the links and the bridges they are ports of, and what each network command does to
them.
-/

namespace Nyc.Client

open Data

/-- What the link is, and the bridge it is a port of. -/
def Net.portAt (n : Net) (key : LinkKey) : Option (Kind × Option Str) :=
  (n.links.lookup key).map fun l => (l.kind, l.master)

theorem Net.portAt_some {n : Net} {key : LinkKey} {kind : Kind} {master : Option Str} :
    n.portAt key = some (kind, master) ↔ ∃ l, n.links.lookup key = some l ∧
      l.kind = kind ∧ l.master =
      master := by
  rw [Net.portAt, Option.map_eq_some_iff]
  simp only [Prod.mk.injEq]

theorem Net.portAt_none {n : Net} {key : LinkKey} :
    n.portAt key = none ↔ n.links.lookup key = none := by
  rw [Net.portAt, Option.map_eq_none_iff]

theorem Net.kindAt_of_port {n : Net} {key : LinkKey} {kind : Kind} {master : Option Str}
    (port : n.portAt key = some (kind, master)) : n.kindAt key = some kind := by
  obtain ⟨l, there, same, -⟩ := Net.portAt_some.mp port
  exact Net.kindAt_some.mpr ⟨l, there, same⟩

theorem Net.port_of_kindAt {n : Net} {key : LinkKey} {kind : Kind}
    (found : n.kindAt key = some kind) :
    ∃ master, n.portAt key = some (kind, master) := by
  obtain ⟨l, there, same⟩ := Net.kindAt_some.mp found
  exact ⟨l.master, Net.portAt_some.mpr ⟨l, there, same, rfl⟩⟩

/-- The same ports. -/
structure SamePorts (n n' : Net) : Prop where
  ports : ∀ key, n'.portAt key = n.portAt key
  pairs : n'.pairs = n.pairs

/-- The command makes, moves, joins and removes no link. -/
def NetCmd.Plain : NetCmd → Prop
  | netnsDel _ | add _ _ | addVeth _ _ | del _ | setMaster _ _ | setNetns _ _ => False
  | _ => True

theorem portAt_modify (n : Net) (key : LinkKey) (f : Link → Link)
    (keeps : ∀ l, (f l).kind = l.kind ∧ (f l).master = l.master) :
    SamePorts n { n with links := Store.modify key f n.links } := by
  refine ⟨fun k => ?_, rfl⟩
  rw [Net.portAt, Store.lookup_modify]
  split
  next same =>
    subst same
    rw [Option.map_map, Net.portAt]
    exact congrArg (Option.map · _) (funext fun l => Prod.ext (keeps l).1 (keeps l).2)
  next => rfl

theorem plain_step {c : NetCmd} (plain : c.Plain) {n n' : Net} {a : c.Res}
    (step : c.step n = some (a, n')) :
    SamePorts n n' := by
  have same : SamePorts n n := ⟨fun _ => rfl, rfl⟩
  have keeps {f : Link → Link} {key : LinkKey} (kept : ∀ l, (f l).kind = l.kind ∧
      (f l).master = l.master) :
      SamePorts n { n with links := Store.modify key f n.links } := portAt_modify n key f kept
  -- a plain command changes no link, or one of them in neither kind nor master
  cases c with
  | netnsDel | add | addVeth | del | setMaster | setNetns => cases plain
  | netnsAdd ns =>
    obtain ⟨-, rfl⟩ := netnsAdd_step step
    exact ⟨fun _ => rfl, rfl⟩
  | «show» name =>
    simp only [NetCmd.step] at step
    split at step <;> cases step
    exact same
  | setUp key =>
    simp only [NetCmd.step] at step
    split at step <;> cases step
    exact keeps fun _ => ⟨rfl, rfl⟩
  | setAddress name mac =>
    simp only [NetCmd.step] at step
    split at step <;> cases step
    exact keeps fun _ => ⟨rfl, rfl⟩
  | addAddr name cidr =>
    simp only [NetCmd.step] at step
    split at step
    · split at step <;> cases step
      exact keeps fun _ => ⟨rfl, rfl⟩
    · cases step
  | fdbShow dev =>
    obtain ⟨l, -, put⟩ := Option.map_eq_some_iff.mp step
    cases put
    exact same
  | fdbAppend dev mac dst | fdbDel dev mac dst =>
    simp only [NetCmd.step] at step
    split at step
    · split at step <;> cases step
      exact keeps fun _ => ⟨rfl, rfl⟩
    · cases step
  | sysctlForward =>
    cases step
    exact ⟨fun _ => rfl, rfl⟩
  | listChain table chain | checkRule r =>
    simp only [NetCmd.step] at step
    split at step <;> cases step
    exact same
  | newChain table chain | appendRule r | deleteRule r =>
    simp only [NetCmd.step] at step
    split at step <;> cases step
    exact ⟨fun _ => rfl, rfl⟩

variable {n n' : Net} {a : Unit}

theorem add_port {key : LinkKey} {kind : Kind}
    (step : NetCmd.step (.add key kind) n = some (a, n')) :
    n'.pairs = n.pairs ∧ ∀ k, n'.portAt k = if k = key then some (kind, none) else n.portAt k := by
  simp only [NetCmd.step] at step
  split at step
  · cases step
    refine ⟨rfl, fun k => ?_⟩
    simp only [Net.portAt, Store.lookup_insert]
    split <;> rfl
  · cases step

theorem addVeth_port {name peer : Str} (step : NetCmd.step (.addVeth name peer) n = some (a, n')) :
    n'.pairs = n.pairs + 1 ∧ ∀ k, n'.portAt k =
      if k = (none, name) ∨ k = (none, peer) then some (.veth n.pairs, none) else n.portAt k := by
  simp only [NetCmd.step] at step
  split at step
  · cases step
    refine ⟨rfl, fun k => ?_⟩
    simp only [Net.portAt, Store.lookup_insert]
    by_cases first : k = (none, peer)
    · rw [if_pos first, if_pos (.inr first)]
      rfl
    · rw [if_neg first]
      by_cases second : k = (none, name)
      · rw [if_pos second, if_pos (.inl second)]
        rfl
      · rw [if_neg second, if_neg (not_or.mpr ⟨second, first⟩)]
  · cases step

theorem setMaster_port {key : LinkKey} {master : Str}
    (step : NetCmd.step (.setMaster key master) n = some (a, n')) :
    (∃ kind old, n.portAt key = some (kind, old) ∧
      ∀ k, n'.portAt k = if k = key then some (kind, some master) else n.portAt k) ∧
    (∃ up, n.portAt (key.1, master) = some (.bridge, up)) ∧ n'.pairs = n.pairs := by
  simp only [NetCmd.step] at step
  split at step
  next ready =>
    obtain ⟨l, there⟩ := Option.ne_none_iff_exists'.mp ready.1
    cases step
    refine ⟨⟨l.kind, l.master, Net.portAt_some.mpr ⟨l, there, rfl, rfl⟩, fun k => ?_⟩, ?_, rfl⟩
    · rw [Net.portAt, Store.lookup_modify]
      split
      next same =>
        rw [same, there]
        rfl
      next => rfl
    · exact Net.port_of_kindAt ready.2
  next => cases step

theorem setNetns_port {name ns : Str} (step : NetCmd.step (.setNetns name ns) n = some (a, n')) :
    (∃ kind old, n.portAt (none, name) = some (kind, old) ∧ ∀ k, n'.portAt k =
      if k = (some ns, name) then some (kind, none) else if k = (none, name) then none
        else n.portAt k) ∧
    n'.pairs = n.pairs := by
  simp only [NetCmd.step] at step
  split at step
  next l there =>
    split at step
    next free =>
      cases step
      refine ⟨⟨l.kind, l.master, Net.portAt_some.mpr ⟨l, there, rfl, rfl⟩, fun k => ?_⟩, rfl⟩
      simp only [Net.portAt, Store.lookup_insert, Store.lookup_erase]
      split
      · rfl
      · split <;> rfl
    next => cases step
  next => cases step

/-- Of the links, some are gone. -/
structure FewerPorts (n n' : Net) : Prop where
  ports : ∀ key, n'.portAt key = none ∨ n'.portAt key = n.portAt key
  pairs : n'.pairs = n.pairs

theorem fewerPorts_of_gone {gone : LinkKey → Prop} (pairs : n'.pairs = n.pairs)
    (links : ∀ key, (gone key → n'.links.lookup key = none) ∧
      (¬ gone key → n'.links.lookup key = n.links.lookup key)) : FewerPorts n n' := by
  refine ⟨fun key => ?_, pairs⟩
  by_cases lost : gone key
  · exact .inl (Net.portAt_none.mpr ((links key).1 lost))
  · exact .inr (congrArg (Option.map _) ((links key).2 lost))

theorem del_port {name : Str} (step : NetCmd.step (.del name) n = some (a, n')) :
    FewerPorts n n' := by
  obtain ⟨filters, -, links⟩ := del_step step
  exact fewerPorts_of_gone filters.pairs links

theorem netnsDel_port {ns : Str} (step : NetCmd.step (.netnsDel ns) n = some (a, n')) :
    FewerPorts n n' := by
  obtain ⟨filters, -, links⟩ := netnsDel_step step
  exact fewerPorts_of_gone filters.pairs links

/-- The links that the command joins to a bridge, moves or removes. -/
def NetCmd.Moves : NetCmd → LinkKey → Prop
  | setMaster key _, k => k = key
  | setNetns name _, k => k = (none, name)
  | del _, _ | netnsDel _, _ => True
  | _, _ => False

/-- A port that the command does not move is what it was. -/
theorem port_stays {c : NetCmd} {a : c.Res} (step : c.step n = some (a, n')) {k : LinkKey}
    {x : Kind × Option Str}
    (there : n.portAt k = some x) (stays : ¬ c.Moves k) : n'.portAt k = some x := by
  by_cases plain : c.Plain
  · rw [(plain_step plain step).ports, there]
  · cases c with
    | netnsDel | del => exact absurd trivial stays
    | add key kind =>
      obtain ⟨free, -⟩ := add_step step
      obtain ⟨-, ports⟩ := add_port step
      rw [ports, if_neg, there]
      -- a new link had no port before
      rintro rfl
      rw [Net.kindAt_of_port there] at free
      cases free
    | addVeth name peer =>
      obtain ⟨free, free', -⟩ := addVeth_step step
      obtain ⟨-, ports⟩ := addVeth_port step
      rw [ports, if_neg, there]
      rintro (rfl | rfl)
      · rw [Net.kindAt_of_port there] at free
        cases free
      · rw [Net.kindAt_of_port there] at free'
        cases free'
    | setMaster key master =>
      obtain ⟨⟨kind, old, -, ports⟩, -⟩ := setMaster_port step
      change ¬ k = key at stays
      rw [ports, if_neg stays, there]
    | setNetns name ns =>
      obtain ⟨kind, -, -, free, -⟩ := setNetns_step step
      obtain ⟨⟨kind, old, -, ports⟩, -⟩ := setNetns_port step
      change ¬ k = (none, name) at stays
      rw [ports, if_neg, if_neg stays, there]
      rintro rfl
      rw [Net.kindAt_of_port there] at free
      cases free
    | _ => exact absurd trivial plain

/-- A port after the command was one before, or the command has made it or put it there. -/
theorem port_was {c : NetCmd} {a : c.Res} (step : c.step n = some (a, n')) {k : LinkKey}
    {kind : Kind} {master : Option Str} (now : n'.portAt k = some (kind, master)) :
    (∃ old, n.portAt k = some (kind, old)) ∨ c = .add k kind ∨
      (∃ name peer, c = .addVeth name peer ∧ (k = (none, name) ∨ k = (none, peer))) ∨
      ∃ name ns, c = .setNetns name ns ∧ k = (some ns, name) := by
  have fewer {m m' : Net} (ports : FewerPorts m m') (now : m'.portAt k = some (kind, master)) :
      ∃ old, m.portAt k = some (kind, old) := by
    rcases ports.ports k with gone | same
    · rw [gone] at now
      cases now
    · exact ⟨master, same ▸ now⟩
  -- plain commands leave every port; the others are looked at one by one
  by_cases plain : c.Plain
  · rw [(plain_step plain step).ports] at now
    exact .inl ⟨master, now⟩
  · cases c with
    | netnsDel ns => exact .inl (fewer (netnsDel_port step) now)
    | del name => exact .inl (fewer (del_port step) now)
    | add key kind' =>
      obtain ⟨-, ports⟩ := add_port step
      rw [ports] at now
      split at now
      next same =>
        cases now
        subst same
        exact .inr (.inl rfl)
      next => exact .inl ⟨master, now⟩
    | addVeth name peer =>
      obtain ⟨-, ports⟩ := addVeth_port step
      rw [ports] at now
      split at now
      next one => exact .inr (.inr (.inl ⟨name, peer, rfl, one⟩))
      next => exact .inl ⟨master, now⟩
    | setMaster key bridge =>
      obtain ⟨⟨kind', old, there, ports⟩, -⟩ := setMaster_port step
      rw [ports] at now
      split at now
      next same =>
        cases now
        subst same
        exact .inl ⟨old, there⟩
      next => exact .inl ⟨master, now⟩
    | setNetns name ns =>
      obtain ⟨⟨kind', old, there, ports⟩, -⟩ := setNetns_port step
      rw [ports] at now
      split at now
      next same => exact .inr (.inr (.inr ⟨name, ns, rfl, same⟩))
      next =>
        split at now
        · cases now
        · exact .inl ⟨master, now⟩
    | _ => exact absurd trivial plain

/-! ## Partial knowledge of a network -/

/-- What is known of some links. -/
abbrev Facts : Type := LinkKey → Option (Kind × Option Str)

def Net.Has (n : Net) (facts : Facts) : Prop := ∀ k x, facts k = some x → n.portAt k = some x

theorem has_update {facts : Facts} {key : LinkKey} {x : Option (Kind × Option Str)}
    (new : ∀ y, x = some y → n'.portAt key = some y)
    (old : ∀ k y, k ≠ key → facts k = some y → n'.portAt k = some y) : n'.Has
      (Function.update facts key x) := by
  intro k y known
  by_cases same : k = key
  · subst same
    rw [Function.update_self] at known
    exact new y known
  · rw [Function.update_of_ne same] at known
    exact old k y same known

theorem has_stays {c : NetCmd} {a : c.Res} (step : c.step n = some (a, n')) {facts : Facts}
    (has : n.Has facts) (stays : ∀ k, c.Moves k → facts k = none) : n'.Has facts := by
  intro k x known
  apply port_stays step (has k x known)
  intro moves
  rw [stays k moves] at known
  cases known

theorem has_add {key : LinkKey} {kind : Kind} (step : NetCmd.step (.add key kind) n = some (a, n'))
    {facts : Facts}
    (has : n.Has facts) : n'.Has (Function.update facts key (some (kind, none))) := by
  obtain ⟨-, ports⟩ := add_port step
  apply has_update
  · rintro y ⟨⟩
    rw [ports, if_pos rfl]
  · intro k y other known
    rw [ports, if_neg other]
    exact has k y known

theorem has_addVeth {name peer : Str} (step : NetCmd.step (.addVeth name peer) n = some (a, n'))
    {facts : Facts}
    (has : n.Has facts) : n'.Has (Function.update
      (Function.update facts (none, name) (some (.veth n.pairs, none)))
      (none, peer) (some (.veth n.pairs, none))) := by
  obtain ⟨-, ports⟩ := addVeth_port step
  apply has_update
  · rintro y ⟨⟩
    rw [ports, if_pos (.inr rfl)]
  · intro k y other known
    by_cases first : k = (none, name)
    · subst first
      rw [Function.update_self] at known
      cases known
      rw [ports, if_pos (.inl rfl)]
    · rw [Function.update_of_ne first] at known
      rw [ports, if_neg (not_or.mpr ⟨first, other⟩)]
      exact has k y known

theorem has_setMaster {key : LinkKey} {master : Str}
    (step : NetCmd.step (.setMaster key master) n = some (a, n'))
    {facts : Facts} (has : n.Has facts) {kind : Kind} {old : Option Str}
      (known : facts key = some (kind, old)) :
    n'.Has (Function.update facts key (some (kind, some master))) := by
  obtain ⟨⟨kind', old', there, ports⟩, -⟩ := setMaster_port step
  rw [has key _ known] at there
  cases there
  apply has_update
  · rintro y ⟨⟩
    rw [ports, if_pos rfl]
  · intro k y other known
    rw [ports, if_neg other]
    exact has k y known

theorem has_setNetns {name ns : Str} (step : NetCmd.step (.setNetns name ns) n = some (a, n'))
    {facts : Facts} (has : n.Has facts) {kind : Kind} {old : Option Str}
    (known : facts (none, name) = some (kind, old)) :
    n'.Has (Function.update (Function.update facts (none, name) none) (some ns, name)
      (some (kind, none))) := by
  obtain ⟨⟨kind', old', there, ports⟩, -⟩ := setNetns_port step
  rw [has _ _ known] at there
  cases there
  apply has_update
  · rintro y ⟨⟩
    rw [ports, if_pos rfl]
  · intro k y other known
    by_cases first : k = (none, name)
    · subst first
      rw [Function.update_self] at known
      cases known
    · rw [Function.update_of_ne first] at known
      rw [ports, if_neg other, if_neg first]
      exact has k y known

end Nyc.Client
