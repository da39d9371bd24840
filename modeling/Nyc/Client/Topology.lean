import Nyc.Client.Steps

/-!
# Which links there are

The kinds of the links by their keys, and what each network command does to them. A command that
only sets up, joins or addresses a link leaves them all.
-/

namespace Nyc.Client

open Data Effects Effects.Program

def Net.kindAt (n : Net) (key : LinkKey) : Option Kind := (n.links.lookup key).map Link.kind

theorem Net.kindAt_some {n : Net} {key : LinkKey} {kind : Kind} :
    n.kindAt key = some kind ↔ ∃ l, n.links.lookup key = some l ∧ l.kind = kind := by
  rw [Net.kindAt, Option.map_eq_some_iff]

theorem Net.kindAt_none {n : Net} {key : LinkKey} :
    n.kindAt key = none ↔ n.links.lookup key = none := by
  rw [Net.kindAt, Option.map_eq_none_iff]

theorem kindAt_congr {n n' : Net} {key : LinkKey}
    (same : n'.links.lookup key = n.links.lookup key) :
    n'.kindAt key = n.kindAt key := by
  rw [Net.kindAt, Net.kindAt, same]

/-- The same links, whatever their settings. -/
structure SameLinks (n n' : Net) : Prop where
  kinds : ∀ key, n'.kindAt key = n.kindAt key
  pairs : n'.pairs = n.pairs
  namespaces : n'.namespaces = n.namespaces

/-- The command makes, moves and removes no link, and no namespace. -/
def NetCmd.Sets : NetCmd → Prop
  | netnsAdd _ | netnsDel _ | add _ _ | addVeth _ _ | del _ | setNetns _ _ => False
  | _ => True

theorem kindAt_modify (n : Net) (key : LinkKey) (f : Link → Link) (keeps : ∀ l, (f l).kind = l.kind)
    (k : LinkKey) :
    ({ n with links := Store.modify key f n.links } : Net).kindAt k = n.kindAt k := by
  rw [Net.kindAt, Store.lookup_modify]
  split
  next same =>
    subst same
    rw [Option.map_map, Net.kindAt]
    exact congrArg (Option.map · _) (funext keeps)
  next => rfl

theorem sets_modify (n : Net) (key : LinkKey) (f : Link → Link) (keeps : ∀ l, (f l).kind = l.kind) :
    SameLinks n { n with links := Store.modify key f n.links } :=
  ⟨kindAt_modify n key f keeps, rfl, rfl⟩

theorem sets_step {c : NetCmd} (sets : c.Sets) {n n' : Net} {a : c.Res}
    (step : c.step n = some (a, n')) :
    SameLinks n n' := by
  have same : SameLinks n n := ⟨fun _ => rfl, rfl, rfl⟩
  -- what is set up on a link leaves its kind, and the other commands leave all links
  cases c with
  | netnsAdd | netnsDel | add | addVeth | del | setNetns => cases sets
  | «show» name =>
    simp only [NetCmd.step] at step
    split at step <;> cases step
    exact same
  | setMaster key master =>
    simp only [NetCmd.step] at step
    split at step <;> cases step
    exact sets_modify n key _ fun _ => rfl
  | setUp key =>
    simp only [NetCmd.step] at step
    split at step <;> cases step
    exact sets_modify n key _ fun _ => rfl
  | setAddress name mac =>
    simp only [NetCmd.step] at step
    split at step <;> cases step
    exact sets_modify n (none, name) _ fun _ => rfl
  | addAddr name cidr =>
    simp only [NetCmd.step] at step
    split at step
    · split at step <;> cases step
      exact sets_modify n (none, name) _ fun _ => rfl
    · cases step
  | fdbShow dev =>
    obtain ⟨l, -, put⟩ := Option.map_eq_some_iff.mp step
    cases put
    exact same
  | fdbAppend dev mac dst =>
    simp only [NetCmd.step] at step
    split at step
    · split at step <;> cases step
      exact sets_modify n (none, dev) _ fun _ => rfl
    · cases step
  | fdbDel dev mac dst =>
    simp only [NetCmd.step] at step
    split at step
    · split at step <;> cases step
      exact sets_modify n (none, dev) _ fun _ => rfl
    · cases step
  | sysctlForward =>
    cases step
    exact ⟨fun _ => rfl, rfl, rfl⟩
  | listChain table chain =>
    simp only [NetCmd.step] at step
    split at step <;> cases step
    exact same
  | newChain table chain =>
    simp only [NetCmd.step] at step
    split at step <;> cases step
    exact ⟨fun _ => rfl, rfl, rfl⟩
  | checkRule r =>
    simp only [NetCmd.step] at step
    split at step <;> cases step
    exact same
  | appendRule r =>
    simp only [NetCmd.step] at step
    split at step <;> cases step
    exact ⟨fun _ => rfl, rfl, rfl⟩
  | deleteRule r =>
    simp only [NetCmd.step] at step
    split at step <;> cases step
    exact ⟨fun _ => rfl, rfl, rfl⟩

variable {n n' : Net} {a : Unit}

theorem netnsAdd_step {ns : Str} (step : NetCmd.step (.netnsAdd ns) n = some (a, n')) :
    ns ∉ n.namespaces ∧ n' = { n with namespaces := ns :: n.namespaces } := by
  simp only [NetCmd.step] at step
  split at step <;> cases step
  exact ⟨‹_›, rfl⟩

theorem add_step {key : LinkKey} {kind : Kind}
    (step : NetCmd.step (.add key kind) n = some (a, n')) :
    n.kindAt key = none ∧ (∀ ns, key.1 = some ns → ns ∈ n.namespaces) ∧ n'.pairs = n.pairs ∧
      n'.namespaces = n.namespaces ∧ ∀ k,
        n'.kindAt k = if k = key then some kind else n.kindAt k := by
  simp only [NetCmd.step] at step
  split at step
  next free =>
    cases step
    refine ⟨Net.kindAt_none.mpr free.1, free.2.1, rfl, rfl, fun k => ?_⟩
    simp only [Net.kindAt, Store.lookup_insert]
    split <;> rfl
  next => cases step

theorem addVeth_step {name peer : Str} (step : NetCmd.step (.addVeth name peer) n = some (a, n')) :
    n.kindAt (none, name) = none ∧ n.kindAt (none, peer) = none ∧ n'.pairs = n.pairs + 1 ∧
      n'.namespaces = n.namespaces ∧ ∀ k, n'.kindAt k =
        if k = (none, name) ∨ k = (none, peer) then some (.veth n.pairs) else n.kindAt k := by
  simp only [NetCmd.step] at step
  split at step
  next free =>
    cases step
    refine ⟨Net.kindAt_none.mpr free.1, Net.kindAt_none.mpr free.2.1, rfl, rfl, fun k => ?_⟩
    simp only [Net.kindAt, Store.lookup_insert]
    by_cases first : k = (none, peer)
    · rw [if_pos first, if_pos (.inr first)]
      rfl
    · rw [if_neg first]
      by_cases second : k = (none, name)
      · rw [if_pos second, if_pos (.inl second)]
        rfl
      · rw [if_neg second, if_neg (not_or.mpr ⟨second, first⟩)]
  next => cases step

theorem setNetns_step {name ns : Str} (step : NetCmd.step (.setNetns name ns) n = some (a, n')) :
    ∃ kind,
    n.kindAt (none, name) = some kind ∧ ns ∈ n.namespaces ∧ n.kindAt (some ns, name) = none ∧
      n'.pairs = n.pairs ∧ n'.namespaces = n.namespaces ∧ ∀ k, n'.kindAt k =
        if k = (some ns, name) then some kind else if k = (none, name) then none
          else n.kindAt k := by
  simp only [NetCmd.step] at step
  split at step
  next l there =>
    split at step
    next free =>
      cases step
      refine ⟨l.kind, Net.kindAt_some.mpr ⟨l, there, rfl⟩, free.1, Net.kindAt_none.mpr free.2, rfl,
        rfl, fun k => ?_⟩
      simp only [Net.kindAt, Store.lookup_insert, Store.lookup_erase]
      split
      · rfl
      · split <;> rfl
    next => cases step
  next => cases step

/-! ## Removals -/

/-- The link is in the namespace, or the other end of a pair with an end in it. -/
def Net.Inside (n : Net) (ns : Str) (key : LinkKey) : Prop :=
  key.1 = some ns ∨ ∃ name p, n.kindAt (some ns, name) = some (.veth p) ∧
    n.kindAt key = some (.veth p)

/-- The link has the name, or is the other end of its pair. -/
def Net.Paired (n : Net) (name : Str) (key : LinkKey) : Prop :=
  key = (none, name) ∨ ∃ p, n.kindAt (none, name) = some (.veth p) ∧ n.kindAt key = some (.veth p)

theorem Kind.pair_some {kind : Kind} {p : Nat} : kind.pair = some p ↔ kind = .veth p := by
  cases kind <;> simp [Kind.pair]

theorem mem_pairsIn (n : Net) (ns : Str) (p : Nat) :
    p ∈ n.pairsIn ns ↔ ∃ name, n.kindAt (some ns, name) = some (.veth p) := by
  rw [Net.pairsIn, List.mem_filterMap]
  constructor
  · rintro ⟨⟨key, l⟩, there, pair⟩
    split at pair
    next here =>
      refine ⟨key.2, Net.kindAt_some.mpr ⟨l, ?_, Kind.pair_some.mp pair⟩⟩
      have same : key = (some ns, key.2) := Prod.ext here rfl
      rw [← same]
      exact AList.mem_lookup_iff.mpr there
    next => cases pair
  · rintro ⟨name, found⟩
    obtain ⟨l, there, kind⟩ := Net.kindAt_some.mp found
    refine ⟨⟨(some ns, name), l⟩, AList.mem_lookup_iff.mp there, ?_⟩
    rw [if_pos rfl]
    exact Kind.pair_some.mpr kind

/-- Only links and namespaces differ. -/
structure SameFilters (n n' : Net) : Prop where
  pairs : n'.pairs = n.pairs
  chains : n'.chains = n.chains
  rules : n'.rules = n.rules
  ipForward : n'.ipForward = n.ipForward

theorem netnsDel_step {ns : Str} (step : NetCmd.step (.netnsDel ns) n = some (a, n')) :
    SameFilters n n' ∧ (∀ m, m ∈ n'.namespaces ↔ m ∈ n.namespaces ∧ m ≠ ns) ∧
      ∀ key, (n.Inside ns key → n'.links.lookup key = none) ∧
        (¬ n.Inside ns key → n'.links.lookup key = n.links.lookup key) := by
  simp only [NetCmd.step] at step
  split at step
  next => 
    cases step
    refine ⟨⟨rfl, rfl, rfl, rfl⟩, fun m => ?_, fun key => ?_⟩
    · rw [List.mem_filter, decide_eq_true_iff]
    -- the filter of the step, as `Inside`
    have kept (l : Link) (there : n.links.lookup key = some l) :
        (key.1 ≠ some ns && !(l.kind.pair.any fun p => (n.pairsIn ns).contains p)) = true ↔
          ¬ n.Inside ns key := by
      have kind : n.kindAt key = some l.kind := Net.kindAt_some.mpr ⟨l, there, rfl⟩
      rw [Net.Inside, kind, Bool.and_eq_true, decide_eq_true_iff, Bool.not_eq_true', not_or]
      apply and_congr_right'
      rw [← Bool.not_eq_true, not_congr]
      simp only [Option.any_eq_true, List.contains_iff_mem, mem_pairsIn, Kind.pair_some,
        Option.some_inj]
      constructor
      · rintro ⟨p, same, name, found⟩
        exact ⟨name, p, found, same⟩
      · rintro ⟨name, p, found, same⟩
        exact ⟨p, same, name, found⟩
    simp only [Store.lookup_keep]
    cases there : n.links.lookup key with
    | none => exact ⟨fun _ => rfl, fun _ => rfl⟩
    | some l =>
      constructor
      · intro inside
        rw [Option.filter_some, if_neg]
        exact fun passes => (kept l there).mp passes inside
      · intro outside
        rw [Option.filter_some, if_pos ((kept l there).mpr outside)]
  next => cases step

theorem netnsDel_missing {ns : Str} (missing : ns ∉ n.namespaces) :
    NetCmd.step (.netnsDel ns) n = none := by
  simp only [NetCmd.step, if_neg missing]

theorem netnsDel_there {ns : Str} (there : ns ∈ n.namespaces) :
    ∃ n', NetCmd.step (.netnsDel ns) n = some ((), n') := by
  simp only [NetCmd.step, if_pos there]
  exact ⟨_, rfl⟩

theorem del_step {name : Str} (step : NetCmd.step (.del name) n = some (a, n')) :
    SameFilters n n' ∧ n'.namespaces = n.namespaces ∧
      ∀ key, (n.Paired name key → n'.links.lookup key = none) ∧
        (¬ n.Paired name key → n'.links.lookup key = n.links.lookup key) := by
  simp only [NetCmd.step] at step
  split at step
  next l0 named =>
    cases step
    refine ⟨⟨rfl, rfl, rfl, rfl⟩, rfl, fun key => ?_⟩
    -- the filter drops the device and, if it is one end of a pair, the other end
    have kept (l : Link) (there : n.links.lookup key = some l) :
        (key ≠ (none, name) && !(l0.kind.pair.isSome && l.kind.pair = l0.kind.pair)) = true ↔
          ¬ n.Paired name key := by
      have kind : n.kindAt key = some l.kind := Net.kindAt_some.mpr ⟨l, there, rfl⟩
      have kind0 : n.kindAt (none, name) = some l0.kind := Net.kindAt_some.mpr ⟨l0, named, rfl⟩
      rw [Net.Paired, kind, kind0, Bool.and_eq_true, decide_eq_true_iff, Bool.not_eq_true', not_or]
      apply and_congr_right'
      rw [← Bool.not_eq_true, not_congr]
      simp only [Bool.and_eq_true, decide_eq_true_iff, Option.some_inj, Option.isSome_iff_exists]
      constructor
      · rintro ⟨⟨p, first⟩, same⟩
        exact ⟨p, Kind.pair_some.mp first, Kind.pair_some.mp (same.trans first)⟩
      · rintro ⟨p, first, second⟩
        rw [first, second]
        exact ⟨⟨p, rfl⟩, rfl⟩
    simp only [Store.lookup_keep]
    cases there : n.links.lookup key with
    | none => exact ⟨fun _ => rfl, fun _ => rfl⟩
    | some l =>
      constructor
      · intro paired
        rw [Option.filter_some, if_neg]
        exact fun passes => (kept l there).mp passes paired
      · intro other
        rw [Option.filter_some, if_pos ((kept l there).mpr other)]
  next => cases step

theorem del_missing {name : Str} (missing : n.links.lookup (none, name) = none) :
    NetCmd.step (.del name) n = none := by
  simp only [NetCmd.step, missing]

theorem del_there {name : Str} {l : Link} (there : n.links.lookup (none, name) = some l) :
    ∃ n', NetCmd.step (.del name) n = some ((), n') := by
  simp only [NetCmd.step, there]
  exact ⟨_, rfl⟩

/-! ## On a host -/

/-- Only network commands change the network. -/
theorem exec_net_other (x : Chance) (c : Cmd) (h : Host) (other : ∀ c', c ≠ .net c') :
    (h.exec x c).2.net = h.net := by
  unfold Host.exec Host.attempt
  split
  · rfl
  · split
    next a h' step =>
      cases c with
      | net c => exact absurd rfl (other c)
      | lvm c | dir vmId c =>
        obtain ⟨_, -, same⟩ := Option.map_eq_some_iff.mp step
        cases same
        rfl
      | debugfs vmId session =>
        obtain ⟨h'', edited, same⟩ := Option.map_eq_some_iff.mp step
        cases same
        unfold Host.editRootfs at edited
        repeat' split at edited
        all_goals cases edited
        rfl
      | kill pid | poll pid =>
        simp only [Cmd.step] at step
        split at step <;> cases step
        rfl
      | listDirs | popen vmId ns | ssh ip key script =>
        cases step
        rfl
    next => rfl

/-- A network command does its step, or leaves the network as it is. -/
theorem exec_net (x : Chance) (c : NetCmd) (h : Host) : (h.exec x (.net c)).2.net = h.net ∨
    ∃ a, c.step h.net = some (a, (h.exec x (.net c)).2.net) := by
  unfold Host.exec Host.attempt
  split
  · exact .inl rfl
  · split
    next a h' step =>
      obtain ⟨⟨a', n⟩, done, same⟩ := Option.map_eq_some_iff.mp step
      cases same
      exact .inr ⟨a, done⟩
    next => exact .inl rfl

/-- Where `sudo` does not fail, a network command does its step if it can take it. -/
theorem exec_net_sound (x : Chance) (c : NetCmd) (h : Host) (sound : x.fails = false) :
    (∃ a, c.step h.net = some (a, (h.exec x (.net c)).2.net)) ∨
      c.step h.net = none ∧ (h.exec x (.net c)).2.net = h.net := by
  cases step : c.step h.net with
  | some r =>
    have done : Cmd.step x.out (.net c) (h.reap x.gone) = some (r.1, { h.reap x.gone with
        net := r.2 }) := by
      simp only [Cmd.step, reap_net, step, Option.map_some]
    rw [exec_of_step x (.net c) h _ _ (.inl sound) done]
    exact .inl ⟨r.1, rfl⟩
  | none =>
    rcases exec_net x c h with same | ⟨a, taken⟩
    · exact .inr ⟨rfl, same⟩
    · rw [step] at taken
      cases taken

/-- A network command in a run: it answers with its step, or is refused and changes nothing. -/
theorem net_then {x : Nat → Chance} {c : NetCmd} {s : Nat × Host}
    {Q : Except Exn c.Res → Nat × Host → Prop} (sound : (x s.1).fails = false)
    (done : ∀ a n' (s' : Nat × Host), c.step s.2.net = some (a, n') → s'.2.net = n' → Q (.ok a) s')
    (refused : ∀ s' : Nat × Host, c.step s.2.net = none → s'.2.net = s.2.net →
      Q (.error .privops) s') :
    wp (sequential (execAt x)) (net c) Q s := by
  rw [net, wp_perform]
  cases step : c.step s.2.net with
  | some r =>
    have taken : Cmd.step (x s.1).out (.net c) (s.2.reap (x s.1).gone) =
        some (r.1, { s.2.reap (x s.1).gone with net := r.2 }) := by
      simp only [Cmd.step, reap_net, step, Option.map_some]
    have answer := exec_of_step (x s.1) (.net c) s.2 _ _ (.inl sound) taken
    simp only [sequential, execAt, answer]
    exact done r.1 r.2 _ step rfl
  | none =>
    have stuck : Cmd.step (x s.1).out (.net c) (s.2.reap (x s.1).gone) = none := by
      simp only [Cmd.step, reap_net, step, Option.map_none]
    simp only [sequential, execAt, Host.exec, Host.attempt, sound, Bool.false_and,
      Bool.false_eq_true, ite_false, stuck]
    exact refused _ step rfl

/-- What every step of a network command keeps, a command keeps. -/
theorem exec_net_keeps {J : Net → Prop} (x : Chance) (c : Cmd) (h : Host)
    (keeps : ∀ c', c = .net c' → ∀ a n', c'.step h.net = some (a, n') → J n') (holds : J h.net) :
    J (h.exec x c).2.net := by
  by_cases net : ∃ c', c = .net c'
  · obtain ⟨c', rfl⟩ := net
    rcases exec_net x c' h with same | ⟨a, step⟩
    · rw [same]
      exact holds
    · exact keeps c' rfl a _ step
  · rw [exec_net_other x c h fun c' same => net ⟨c', same⟩]
    exact holds

/-- A network command that cannot be done fails, whatever `sudo` does. -/
theorem exec_net_refused (y : Chance) {c : NetCmd} {h : Host} (refused : c.step h.net = none) :
    h.exec y (.net c) = (.error .privops, h.reap y.gone) := by
  have stuck : Cmd.step y.out (.net c) (h.reap y.gone) = none := by
    simp only [Cmd.step, reap_net, refused, Option.map_none]
  unfold Host.exec Host.attempt
  rw [stuck]
  split <;> rfl

/-- A command that answers has taken its step. -/
theorem step_of_ok {x : Chance} {c : NetCmd} {h : Host} {a : c.Res}
    (answers : (h.exec x (.net c)).1 = .ok a) :
    c.step h.net = some (a, (h.exec x (.net c)).2.net) := by
  cases fails : x.fails with
  | true =>
    have refused : (h.exec x (.net c)).1 = .error .privops := by
      simp only [Host.exec, Host.attempt, fails, Cmd.privileged, Bool.and_self, ite_true]
    rw [refused] at answers
    cases answers
  | false =>
    cases step : c.step h.net with
    | none =>
      rw [exec_net_refused x step] at answers
      cases answers
    | some r =>
      have taken : Cmd.step x.out (.net c) (h.reap x.gone) = some
        (r.1, { h.reap x.gone with net := r.2 }) := by
        simp only [Cmd.step, reap_net, step, Option.map_some]
      rw [exec_of_step x (.net c) h _ _ (.inl fails) taken] at answers ⊢
      cases answers
      rfl

/-- One that raises has not. -/
theorem same_of_error {x : Chance} {c : NetCmd} {h : Host} {e : Exn}
    (raises : (h.exec x (.net c)).1 = .error e) :
    (h.exec x (.net c)).2.net = h.net := by
  rcases exec_net x c h with same | ⟨a, step⟩
  · exact same
  · cases fails : x.fails with
    | true =>
      simp only [Host.exec, Host.attempt, fails, Cmd.privileged, Bool.and_self, ite_true, reap_net]
    | false =>
      have taken : Cmd.step x.out (.net c) (h.reap x.gone) =
          some (a, { h.reap x.gone with net := (h.exec x (.net c)).2.net }) := by
        simp only [Cmd.step, reap_net, step, Option.map_some]
      rw [exec_of_step x (.net c) h _ _ (.inl fails) taken] at raises
      cases raises

end Nyc.Client
