import Nyc.Properties.FloodList
import Nyc.Properties.Isolation

/-!
# Peers listed

The VXLAN devices of a VPC flood to the peers that the registry names. What one job has listed no
other takes off the list, so that after its bring-up a VM's frames get to every peer.
-/

namespace Nyc.Underlay

open Data Client Isolation
open Convergence (hostOf peersOf)
open Effects Effects.Program

/-! ## One link -/

/-- The forwarding entries of a device after a command. -/
def forwards (name : Str) : NetCmd → List (Str × Str) → List (Str × Str)
  | .fdbAppend dev mac dst, fdb => if dev = name then fdb ++ [(mac, dst)] else fdb
  | .fdbDel dev mac dst, fdb => if dev = name then fdb.erase (mac, dst) else fdb
  | _, fdb => fdb

section

variable {c : NetCmd} {n n' : Net} {a : c.Res} {name : Str} {l l' : Link}

/-- A device that is no end of a pair stays, unless the command removes or moves it. -/
theorem link_stays (step : c.step n = some (a, n')) (there : n.links.lookup (none, name) = some l)
    (unpaired : l.kind.pair = none) (kept : c ≠ .del name) (placed : ∀ ns, c ≠ .setNetns name ns) :
    ∃ l', n'.links.lookup (none, name) = some l' ∧ l'.kind = l.kind ∧
      l'.fdb = forwards name c l.fdb := by
  -- a command that sets something up on one link
  have modified {key : LinkKey} {f : Link → Link} {fdb : List (Str × Str)}
      (kind : (f l).kind = l.kind) (same :
        (if (none, name) = key then (f l).fdb else l.fdb) = fdb) :
      ∃ l', (Store.modify key f n.links).lookup (none, name) = some l' ∧ l'.kind = l.kind ∧
        l'.fdb = fdb := by
    rw [Store.lookup_modify, there]
    split at same
    next here =>
      rw [if_pos here]
      exact ⟨f l, rfl, kind, same⟩
    next other =>
      rw [if_neg other]
      exact ⟨l, rfl, rfl, same⟩
  cases c with
  | netnsAdd | «show» | listChain | newChain | checkRule | appendRule | deleteRule =>
    simp only [NetCmd.step] at step
    split at step <;> cases step
    exact ⟨l, there, rfl, rfl⟩
  | sysctlForward =>
    cases step
    exact ⟨l, there, rfl, rfl⟩
  | netnsDel ns =>
    simp only [NetCmd.step] at step
    split at step <;> cases step
    refine ⟨l, ?_, rfl, rfl⟩
    rw [Store.lookup_keep, there, Option.filter_some, if_pos]
    rw [unpaired]
    rfl
  | add key kind =>
    simp only [NetCmd.step] at step
    split at step <;> cases step
    next free =>
      have other : (none, name) ≠ key := by
        rintro rfl
        rw [free.1] at there
        cases there
      exact ⟨l, by rw [Store.lookup_insert, if_neg other, there], rfl, rfl⟩
  | addVeth first second =>
    simp only [NetCmd.step] at step
    split at step <;> cases step
    next free =>
      have other (end_ : Str) (none_ : n.links.lookup (none, end_) = none) :
          ((none, name) : LinkKey) ≠ (none, end_) := by
        intro same
        rw [same, none_] at there
        cases there
      refine ⟨l, ?_, rfl, rfl⟩
      rw [Store.lookup_insert, if_neg (other second free.2.1), Store.lookup_insert,
        if_neg (other first free.1), there]
  | del gone =>
    have other : ((none, name) : LinkKey) ≠ (none, gone) := by
      intro same
      cases same
      exact kept rfl
    simp only [NetCmd.step] at step
    split at step <;> cases step
    next old found =>
      refine ⟨l, ?_, rfl, rfl⟩
      rw [Store.lookup_keep, there, Option.filter_some, if_pos]
      rw [unpaired, decide_eq_true other, Bool.true_and]
      cases old.kind.pair <;> rfl
  | setNetns moved ns =>
    have other : ((none, name) : LinkKey) ≠ (none, moved) := by
      intro same
      cases same
      exact placed ns rfl
    have inside : ((none, name) : LinkKey) ≠ (some ns, moved) := fun same => by cases same
    simp only [NetCmd.step] at step
    split at step
    · split at step <;> cases step
      exact ⟨l, by rw [Store.lookup_insert, if_neg inside, Store.lookup_erase, if_neg other, there],
        rfl, rfl⟩
    · cases step
  | setMaster | setUp | setAddress =>
    simp only [NetCmd.step] at step
    split at step <;> cases step
    exact modified rfl (ite_self _)
  | addAddr =>
    simp only [NetCmd.step] at step
    split at step
    · split at step <;> cases step
      exact modified rfl (ite_self _)
    · cases step
  | fdbShow dev =>
    obtain ⟨old, -, put⟩ := Option.map_eq_some_iff.mp step
    cases put
    exact ⟨l, there, rfl, rfl⟩
  | fdbAppend dev mac dst | fdbDel dev mac dst =>
    simp only [NetCmd.step] at step
    split at step
    · split at step <;> cases step
      apply modified rfl
      simp only [forwards, Prod.mk.injEq, true_and, eq_comm]
    · cases step

/-- What has been appended is there. -/
theorem appended {dev mac dst : Str} {a : Unit}
    (step : NetCmd.step (.fdbAppend dev mac dst) n = some (a, n')) :
    ∃ l, n'.links.lookup (none, dev) = some l ∧ (mac, dst) ∈ l.fdb := by
  simp only [NetCmd.step] at step
  split at step
  next l there =>
    split at step <;> cases step
    refine ⟨{ l with fdb := l.fdb ++ [(mac, dst)] }, ?_, List.mem_append_right _ List.mem_cons_self⟩
    rw [Store.lookup_modify, if_pos rfl, there]
    rfl
  next => cases step

/-- A device that was not there has been made. -/
theorem link_was (step : c.step n = some (a, n')) (missing : n.links.lookup (none, name) = none)
    (now : n'.links.lookup (none, name) = some l') :
    (∃ kind, c = .add (none, name) kind ∧ l' = .ofKind kind) ∨
      ∃ first second, c = .addVeth first second ∧ (name = first ∨ name = second) := by
  have port : n'.portAt (none, name) = some (l'.kind, l'.master) := by rw [Net.portAt, now]; rfl
  rcases port_was step port with ⟨old, found⟩ | made | ⟨first, second, made, one⟩ | ⟨_, _, -, same⟩
  · rw [Net.portAt, missing] at found
    cases found
  · refine .inl ⟨_, made, ?_⟩
    subst made
    simp only [NetCmd.step] at step
    split at step <;> cases step
    rw [Store.lookup_insert, if_pos rfl] at now
    rw [← Option.some.inj now]
    rfl
  · refine .inr ⟨first, second, made, ?_⟩
    exact one.imp (fun same => (Prod.mk.inj same).2) fun same => (Prod.mk.inj same).2
  · cases (Prod.mk.inj same).1

end

/-! ## The commands of a job -/

/-- The device floods to the address. -/
def Floods (w : World) (node u : Id) (ip : Str) : Prop :=
  ∃ l, (w.hosts node).net.links.lookup (none, Vxlan.nameFor node u) = some l ∧
    (Vxlan.ALL_ZEROS, ip) ∈ l.fdb

/-- The command leaves VXLAN devices where they are, makes them for the node's own address, lists
only peers and takes none off a list. -/
def Heeds (db : Db) (node : Node) : NetCmd → Prop
  | .del name | .setNetns name _ => ∀ u, name ≠ Vxlan.nameFor node.id u
  | .add key kind => ∀ u, key = (none, Vxlan.nameFor node.id u) → ∃ vni,
    kind = .vxlan vni (hostOf node db)
  | .addVeth first second => ∀ u, Vxlan.nameFor node.id u ≠ first ∧ Vxlan.nameFor node.id u ≠ second
  | .fdbAppend _ mac dst => mac = Vxlan.ALL_ZEROS ∧ dst ∈ peersOf node db
  | .fdbDel _ _ dst => dst ∉ peersOf node db
  | _ => True

section

variable {db : Db} {node : Node} {c : NetCmd}

theorem ne_vxlan {name : Str} (third : name[2]? ≠ some '-') (u : Id) :
    name ≠ Vxlan.nameFor node.id u := by
  rintro rfl
  exact third rfl

/-- What a take-down does. -/
theorem heeds_down {v vg : Id} (issues : VmDown.Issues v vg (.net c)) : Heeds db node c := by
  cases issues with
  | netnsDel => exact trivial
  | delVeth | delPublic =>
    apply ne_vxlan
    exact (by decide : some 'h' ≠ some '-')

/-- What the overlay pass does to one device. -/
theorem heeds_lists {name : Str} (lists : Vxlan.Lists name (peersOf node db) c) :
    Heeds db node c := by
  cases lists with
  | «show» | fdbShow => exact trivial
  | append listed => exact ⟨rfl, listed⟩
  | del unlisted => exact unlisted

/-- The bring-up is given the addresses that the registry has. -/
structure Informed (db : Db) (node : Node) (spec : VmSpec) : Prop where
  host : spec.nodeHost = hostOf node db
  peers : spec.peerHosts = peersOf node db

/-- What a bring-up does. -/
theorem heeds_wires {spec : VmSpec} (informed : Informed db node spec) (wires : VmUp.Wires spec c) :
    Heeds db node c := by
  -- the name of a device has a dash as its third letter, an end of a pair has not
  have moved {name : Str} (third : name[2]? = some 'n') (u : Id) :
      name ≠ Vxlan.nameFor node.id u := by
    apply ne_vxlan
    rw [third]
    exact (by decide : some 'n' ≠ some '-')
  have paired {outer inner : Str} (third : outer[2]? = some 'h') (third' :
      inner[2]? = some 'n') (u : Id) :
      Vxlan.nameFor node.id u ≠ outer ∧ Vxlan.nameFor node.id u ≠ inner := by
    refine ⟨fun same => ?_, (moved third' u).symm⟩
    rw [← same] at third
    exact absurd third (by decide : some '-' ≠ some 'h')
  cases wires with
  | bridge =>
    intro u same
    have head := congrArg List.head? (Prod.mk.inj same).2
    cases head
  | vxlan => exact fun _ _ => ⟨_, by rw [informed.host]⟩
  | inner =>
    intro u same
    cases (Prod.mk.inj same).1
  | fdbAppend dst listed =>
    rw [informed.peers] at listed
    exact ⟨rfl, listed⟩
  | fdbDel dst unlisted =>
    rw [informed.peers] at unlisted
    exact unlisted
  | pair | publicPair => exact paired rfl rfl
  | place | publicPlace => exact moved rfl
  | _ => exact trivial

end

/-- The registry has the node under an address that others can reach. -/
def OnOverlay (db : Db) (node : Node) : Prop := ¬ LOOPBACK.contains (hostOf node db)

instance (db : Db) (node : Node) : Decidable (OnOverlay db node) :=
  inferInstanceAs (Decidable (¬ LOOPBACK.contains (hostOf node db)))

/-! ## One step -/

/-- The device has the node's own address, and floods to peers only. -/
structure Peered (db : Db) (node : Node) (l : Link) : Prop where
  kind : ∃ vni, l.kind = .vxlan vni (hostOf node db)
  entries : ∀ e ∈ l.fdb, e.1 = Vxlan.ALL_ZEROS ∧ e.2 ∈ peersOf node db

/-- The registry has not changed, and the devices of the VPCs go by it. -/
structure Listed (plan : Plan) (db : Db) (s : Run) : Prop where
  registry : s.world.db = db
  devices : ∀ (node : Node) u, plan.vpcs u → ∀ l,
    (s.world.hosts node.id).net.links.lookup (none, Vxlan.nameFor node.id u) = some l →
      Peered db node l

/-- A peer that a device floods to is not taken off its list. -/
def Lasting (plan : Plan) (db : Db) (s s' : Run) : Prop :=
  ∀ (node : Node) u, plan.vpcs u → ∀ ip ∈ peersOf node db,
    Floods s.world node.id u ip → Floods s'.world node.id u ip

/-- The operations of the jobs. -/
def Minds (db : Db) : Op → Prop
  | .host n c => ∃ node : Node, n = node.id ∧ ∀ c', c = .net c' → Heeds db node c'
  | .get _ _ | .getAll _ _ => True
  | _ => False

section

variable {plan : Plan} {db : Db}

theorem Lasting.refl (s : Run) : Lasting plan db s s := fun _ _ _ _ _ floods => floods

theorem Lasting.trans {s s' s'' : Run} (first : Lasting plan db s s')
    (second : Lasting plan db s' s'') :
    Lasting plan db s s'' := by
  intro node u known ip listed floods
  exact second node u known ip listed (first node u known ip listed floods)

/-- The addresses depend on the node's id alone. -/
theorem hostOf_id {node node' : Node} (same : node.id = node'.id) :
    hostOf node db = hostOf node' db := by
  rw [hostOf, hostOf, same]

theorem peersOf_id {node node' : Node} (same : node.id = node'.id) :
    peersOf node db = peersOf node' db := by
  rw [peersOf, peersOf, same]

/-- What one command does to the devices of its host. -/
theorem heeds_step {node : Node} {c : NetCmd} (heeds : Heeds db node c) {n n' : Net} {a : c.Res}
    (step : c.step n = some (a, n')) {u : Id}
    (old : ∀ l, n.links.lookup (none, Vxlan.nameFor node.id u) = some l → Peered db node l) :
    (∀ l, n'.links.lookup (none, Vxlan.nameFor node.id u) = some l → Peered db node l) ∧
      ∀ l, n.links.lookup (none, Vxlan.nameFor node.id u) = some l → ∀ ip ∈ peersOf node db,
        (Vxlan.ALL_ZEROS, ip) ∈ l.fdb → ∃ l',
          n'.links.lookup (none, Vxlan.nameFor node.id u) = some l' ∧
          (Vxlan.ALL_ZEROS, ip) ∈ l'.fdb := by
  cases found : n.links.lookup (none, Vxlan.nameFor node.id u) with
  -- no device yet: the one that is made has no entry
  | none =>
    refine ⟨?_, by rintro l ⟨⟩⟩
    intro l now
    rcases link_was step found now with ⟨kind, rfl, rfl⟩ | ⟨first, second, rfl, one⟩
    · obtain ⟨vni, rfl⟩ := heeds u rfl
      exact ⟨⟨vni, rfl⟩, by rintro e ⟨⟩⟩
    · obtain ⟨other, other'⟩ := heeds u
      rcases one with same | same
      · exact absurd same other
      · exact absurd same other'
  -- the device is there: its entries change by `fdb append` and `fdb del` alone
  | some l =>
    obtain ⟨⟨vni, kind⟩, entries⟩ := old l found
    obtain ⟨l', now, kind', fdb⟩ := link_stays step found (by rw [kind]; rfl)
      (by rintro rfl; exact heeds u rfl) (by rintro ns rfl; exact heeds u rfl)
    constructor
    · intro l'' there
      rw [now] at there
      cases there
      refine ⟨⟨vni, kind'.trans kind⟩, fun e inside => ?_⟩
      rw [fdb] at inside
      cases c with
      | fdbAppend dev mac dst =>
        obtain ⟨rfl, listed⟩ := heeds
        rw [forwards] at inside
        split at inside
        · rcases List.mem_append.mp inside with before | new
          · exact entries e before
          · cases List.mem_singleton.mp new
            exact ⟨rfl, listed⟩
        · exact entries e inside
      | fdbDel dev mac dst =>
        rw [forwards] at inside
        split at inside
        · exact entries e (List.mem_of_mem_erase inside)
        · exact entries e inside
      | _ => exact entries e inside
    · rintro _ ⟨⟩ ip listed inside
      refine ⟨l', now, ?_⟩
      rw [fdb]
      cases c with
      | fdbAppend dev mac dst =>
        rw [forwards]
        split
        · exact List.mem_append_left _ inside
        · exact inside
      | fdbDel dev mac dst =>
        rw [forwards]
        split
        · apply (List.mem_erase_of_ne _).mpr inside
          rintro ⟨⟩
          exact heeds listed
        · exact inside
      | _ => exact inside

theorem minds_after {env : Env} {o : Op} (minds : Minds db o) (i : Nat) {s : Run}
    (listed : Listed plan db s) : Listed plan db (s.after (exec env) i o) ∧
      Lasting plan db s (s.after (exec env) i o) := by
  cases o with
  | get | getAll => exact ⟨⟨listed.registry, listed.devices⟩, .refl s⟩
  | host n c =>
    obtain ⟨node, rfl, heeds⟩ := minds
    -- on its own node the command keeps the entries of every device
    have devices (u : Id) (known : plan.vpcs u) :
        let net := ((s.world.hosts node.id).exec (env.chance s.world.clock) c).2.net
        (∀ l, net.links.lookup (none, Vxlan.nameFor node.id u) = some l → Peered db node l) ∧
          ∀ l, (s.world.hosts node.id).net.links.lookup (none, Vxlan.nameFor node.id u) = some l →
            ∀ ip ∈ peersOf node db, (Vxlan.ALL_ZEROS, ip) ∈ l.fdb →
              ∃ l', net.links.lookup (none, Vxlan.nameFor node.id u) = some l' ∧
                (Vxlan.ALL_ZEROS, ip) ∈ l'.fdb := by
      have old := listed.devices node u known
      apply exec_net_keeps (env.chance s.world.clock) c (s.world.hosts node.id)
        (J := fun net =>
          (∀ l, net.links.lookup (none, Vxlan.nameFor node.id u) = some l → Peered db node l) ∧
            ∀ l, (s.world.hosts node.id).net.links.lookup (none, Vxlan.nameFor node.id u) = some l →
              ∀ ip ∈ peersOf node db, (Vxlan.ALL_ZEROS, ip) ∈ l.fdb →
                ∃ l', net.links.lookup (none, Vxlan.nameFor node.id u) = some l' ∧
                  (Vxlan.ALL_ZEROS, ip) ∈ l'.fdb)
      · intro c' same a n' step
        exact heeds_step (heeds c' same) step old
      · exact ⟨old, fun l there _ _ inside => ⟨l, there, inside⟩⟩
    -- the hosts of the other nodes stay as they are
    have hosts (n : Id) : (s.after (exec env) i (.host node.id c)).world.hosts n =
        if n = node.id then ((s.world.hosts node.id).exec (env.chance s.world.clock) c).2 else
          s.world.hosts n := hosts_exec ..
    constructor
    · refine ⟨listed.registry, fun node' u known l there => ?_⟩
      rw [hosts] at there
      split at there
      next same =>
        rw [same] at there
        obtain ⟨kind, entries⟩ := (devices u known).1 l there
        rw [← hostOf_id same] at kind
        rw [← peersOf_id same] at entries
        exact ⟨kind, entries⟩
      next => exact listed.devices node' u known l there
    · rintro node' u known ip peer ⟨l, there, inside⟩
      rw [Floods, hosts]
      split
      next same =>
        rw [same] at there ⊢
        rw [peersOf_id same] at peer
        exact (devices u known).2 l there ip peer inside
      next => exact ⟨l, there, inside⟩
  | _ => exact minds.elim

/-! ## One job -/

/-- A job, as the others see it. -/
abbrev listing (plan : Plan) (db : Db) (env : Env) (i : Nat) : OpSpec Op Op.Res Exn (Run → Prop) :=
  among (exec env) i (Listed plan db) (Lasting plan db) (Lasting plan db) fun _ _ => True

variable {env : Env} {i : Nat}

/-- A part of a job that minds the lists keeps what no other job changes. -/
theorem reads_minding {J : Run → Prop} (stable : ∀ s s', J s → Lasting plan db s s' → J s')
    {α : Type} {p : Py α} (only : Only (Minds db) p) {s : Run} (holds : J s) :
    wp (listing plan db env i) p (fun _ s' => J s') s := by
  apply among_mono p _ _ _ s (among_of_issues J _ _ p
    (fun _ => True) (only.issues fun _ _ => True) s holds)
  · exact fun _ _ post => post.1
  · exact fun s s' holds lasting _ => stable s s' holds lasting
  · intro o s minds holds listed _
    obtain ⟨listed', lasting⟩ := minds_after minds i listed
    exact ⟨listed', lasting, stable _ _ holds lasting, fun _ _ => trivial⟩

/-- The device floods to those peers. -/
def FloodsTo (db : Db) (node : Node) (u : Id) (dsts : List Str) (s : Run) : Prop :=
  ∀ ip ∈ peersOf node db, ip ∈ dsts → Floods s.world node.id u ip

theorem FloodsTo.stays {node : Node} {u : Id} (known : plan.vpcs u) {dsts : List Str} (s s' : Run)
    (floods : FloodsTo db node u dsts s) (lasting : Lasting plan db s s') :
    FloodsTo db node u dsts s' :=
  fun ip peer there => lasting node u known ip peer (floods ip peer there)

section

variable {node : Node} {u : Id} (known : plan.vpcs u)

include known

/-- Every entry that is appended is there from then on. -/
theorem reads_appends (dsts done : List Str) (peers : ∀ dst ∈ dsts, dst ∈ peersOf node db) {s : Run}
    (floods : FloodsTo db node u done s) :
    wp (listing plan db env i) (node.sh
      (forEach (fun dst => net (.fdbAppend (Vxlan.nameFor node.id u) Vxlan.ALL_ZEROS dst)) dsts))
      (fun r s' => r = .ok () → FloodsTo db node u (dsts ++ done) s') s := by
  -- the induction is on the peers; those already appended stay, whatever runs in between
  induction dsts generalizing done s with
  | nil => exact fun _ => floods
  | cons dst dsts ih =>
    have peer := peers dst List.mem_cons_self
    rw [wp_sh, forEach, wp_dot_bind, net, wp_perform]
    intro s' lasting listed _
    have minds : Minds db (.host node.id
        (.net (.fdbAppend (Vxlan.nameFor node.id u) Vxlan.ALL_ZEROS dst))) := by
      refine ⟨node, rfl, ?_⟩
      rintro c ⟨⟩
      exact ⟨rfl, peer⟩
    obtain ⟨listed', lasting'⟩ := minds_after minds i listed
    refine ⟨listed', lasting', ?_⟩
    cases answers : (exec env (.host node.id
      (.net (.fdbAppend (Vxlan.nameFor node.id u) Vxlan.ALL_ZEROS dst))) s'.world).1 with
    | error e => rintro ⟨⟩
    | ok a =>
      -- the command returned, so its entry stands on the device
      have now : Floods (s'.after (exec env) i (.host node.id
          (.net (.fdbAppend (Vxlan.nameFor node.id u) Vxlan.ALL_ZEROS dst)))).world
            node.id u dst := by
        obtain ⟨l, there, inside⟩ := appended (step_of_ok answers)
        refine ⟨l, ?_, inside⟩
        rw [← there]
        exact congrArg (fun h : Host => h.net.links.lookup _) ((hosts_exec ..).trans (if_pos rfl))
      have floods' := (floods.stays known _ _ lasting).stays known _ _ lasting'
      rw [onValue_ok, ← wp_sh]
      apply among_mono _ _ _ _ _ (ih (dst :: done)
        (fun dst there => peers dst (List.mem_cons_of_mem _ there)) _)
      · intro r s'' post ok ip peer there
        apply post ok ip peer
        simp only [List.mem_append, List.mem_cons] at there ⊢
        tauto
      · intro ip peer there
        rcases List.mem_cons.mp there with rfl | before
        · exact now
        · exact floods' ip peer before

/-- What `set_fdb` leaves, where the tables can be read. -/
theorem reads_setFdb (hexNode : FloodList.HexId node.id) (hexVpc : FloodList.HexId u)
    (v4 : ∀ ip ∈ peersOf node db, FloodList.V4 ip) (sets : SetOrder) {s : Run} :
    wp (listing plan db env i) (node.sh
      (Vxlan.setFdb sets (Vxlan.nameFor node.id u) (peersOf node db)))
      (fun r s' => r = .ok () → FloodsTo db node u (peersOf node db) s') s := by
  rw [wp_sh, Vxlan.setFdb, wp_bind, Vxlan.fdbPeers, wp_bind, net, wp_perform]
  intro s' lasting listed _
  have minds : Minds db (.host node.id (.net (.fdbShow (Vxlan.nameFor node.id u)))) := by
    refine ⟨node, rfl, ?_⟩
    rintro c ⟨⟩
    exact trivial
  obtain ⟨listed', lasting'⟩ := minds_after minds i listed
  refine ⟨listed', lasting', ?_⟩
  cases answers : (exec env (.host node.id (.net (.fdbShow (Vxlan.nameFor node.id u))))
    s'.world).1 with
  | error e => rintro ⟨⟩
  | ok out =>
    -- what is printed is read back as the list of that moment
    obtain ⟨l, there, put⟩ := Option.map_eq_some_iff.mp (step_of_ok answers)
    obtain rfl : fdbTable (Vxlan.nameFor node.id u) l.fdb = out := congrArg Prod.fst put
    have entries : ∀ e ∈ l.fdb, FloodList.Entry e := by
      rintro ⟨mac, dst⟩ inside
      obtain ⟨rfl, peer⟩ := (listed.devices node u known l there).entries _ inside
      exact ⟨FloodList.mac_zeros, v4 dst peer⟩
    have floods : FloodsTo db node u (FloodList.floods l.fdb)
        (s'.after (exec env) i (.host node.id (.net (.fdbShow (Vxlan.nameFor node.id u))))) := by
      intro ip peer found
      exact lasting' node u known ip peer ⟨l, there, FloodList.mem_floods.mp found⟩
    rw [onValue_ok, wp_fromExcept, FloodList.parse_table hexNode hexVpc entries,
      onValue_ok, wp_bind,
      ← wp_sh]
    apply among_mono _ _ _ _ _ (reads_appends known _ _
      (fun dst missing => ((sets.mem_diff ..).mp missing).1) floods)
    rintro (e | ⟨⟩) s₁ post
    · rintro ⟨⟩
    · have all : FloodsTo db node u (peersOf node db) s₁ := by
        intro ip peer _
        apply post rfl ip peer
        by_cases old : ip ∈ FloodList.floods l.fdb
        · exact List.mem_append_right _ old
        · exact List.mem_append_left _ ((sets.mem_diff ..).mpr ⟨peer, old⟩)
      rw [onValue_ok, ← wp_sh]
      apply among_mono _ _ _ _ s₁ (reads_minding (fun s s' holds => holds.stays known s s') _ all)
      · exact fun _ _ now _ => now
      · apply Only.sh node
        apply Only.forEach
        intro dst old
        apply Only.net
        refine ⟨node, rfl, ?_⟩
        rintro c ⟨⟩
        exact ((sets.mem_diff ..).mp old).2

end

/-- The commands of a bring-up mind the lists. -/
theorem minds_issues {node : Node} {spec : VmSpec} (informed : Informed db node spec) {c : Cmd}
    (issues : VmUp.Issues spec c) : Minds db (.host node.id c) := by
  refine ⟨node, rfl, ?_⟩
  rintro c' rfl
  cases issues with
  | net _ wires => exact heeds_wires informed wires

/-- `vm_up` up to the overlay. -/
def before (spec : VmSpec) : Sh Unit := do
  EnvSetup.run spec.vmId spec.kernel spec.sshKey spec.vg spec.rootfsOrigin
  Inject.run spec.vmId spec.sshPubkey spec.dns spec.dataVolumePath.isSome spec.publicIp
  whenSome spec.dataVolumePath fun path => Attach.run spec.vmId path
  let gw ← fromExcept (Allocate.gatewayCidr spec.cidr)
  Bridge.ensure (Bridge.nameFor spec.nodeId spec.vpcId) gw (Overlay.anycastMac spec.vpcId)

/-- And from there. -/
def after (spec : VmSpec) : Sh Unit := do
  Nat_.ensure spec.cidr
  Namespace.create (VmUp.nsName spec.vmId)
  VmUp.wireVeth spec (VmUp.nsName spec.vmId) (VmUp.hostVeth spec.vmId) (VmUp.nsVeth spec.vmId)
  VmUp.wireTap (VmUp.nsName spec.vmId) (VmUp.nsVeth spec.vmId)
  whenSome spec.publicIp fun _ => VmUp.wirePublic spec (VmUp.nsName spec.vmId)
  VmUp.spawn spec

theorem run_parts (spec : VmSpec) : VmUp.run spec = (before spec >>= fun _ =>
    VmUp.overlay spec (Bridge.nameFor spec.nodeId spec.vpcId) >>= fun _ => after spec) := by
  simp only [VmUp.run, VmUp.network, before, after, LawfulMonad.bind_assoc]

theorem before_only (spec : VmSpec) : Only (VmUp.Issues spec) (before spec) := by
  have prepares {α : Type} {p : Sh α} (only : Only (VmUp.Prepares spec) p) :
      Only (VmUp.Issues spec) p :=
    only.mono fun _ h => h.issues
  apply Only.bind (prepares (VmUp.setup_only spec))
  intro _
  apply Only.bind (.perform .inject)
  intro _
  apply Only.bind (.whenSome fun path given => prepares (VmUp.attach_only spec path given))
  intro _
  apply Only.bind (.fromExcept _)
  exact fun gw => prepares ((VmUp.bridge_only spec gw).mono (VmUp.of_wired spec))

theorem after_only (spec : VmSpec) : Only (VmUp.Issues spec) (after spec) := by
  have wired {α : Type} {p : Sh α} (only : Only (VmUp.Wired spec) p) : Only (VmUp.Issues spec) p :=
    only.mono fun c h => (VmUp.of_wired spec c h).issues
  apply Only.bind (wired (VmUp.nat_only spec _))
  intro _
  apply Only.bind (wired (VmUp.net_only spec .netns))
  intro _
  apply Only.bind (wired (VmUp.wireVeth_only spec))
  intro _
  apply Only.bind (wired (VmUp.wireTap_only spec))
  intro _
  apply Only.bind (.whenSome fun _ _ => wired (VmUp.wirePublic_only spec))
  intro _
  exact .bind ((VmUp.build_only spec).mono fun _ h => h.issues) fun _ => VmUp.create_only spec

/-- A bring-up that returns has its VPC's device flood to the peers, if the node is on the
overlay. -/
theorem reads_run {node : Node} {spec : VmSpec} (informed : Informed db node spec)
    (here : spec.nodeId = node.id) (known : plan.vpcs spec.vpcId)
    (hexNode : FloodList.HexId node.id)
    (hexVpc : FloodList.HexId spec.vpcId) (v4 : ∀ ip ∈ peersOf node db, FloodList.V4 ip) {s : Run} :
    wp (listing plan db env i) (node.sh (VmUp.run spec)) (fun r s' => r = .ok () →
      OnOverlay db node → FloodsTo db node spec.vpcId (peersOf node db) s') s := by
  have minds {α : Type} {p : Sh α} (only : Only (VmUp.Issues spec) p) :
      Only (Minds db) (node.sh p) :=
    .sh node (only.mono fun _ issues => minds_issues informed issues)
  rw [run_parts, sh_bind, wp_bind]
  apply among_mono _ _ _ _ s (reads_minding (J := fun _ => True) (fun _ _ _ _ => trivial)
    (minds (before_only spec)) trivial)
  rintro (e | ⟨⟩) s₁ -
  · rintro ⟨⟩
  rw [onValue_ok, sh_bind, wp_bind]
  -- the overlay is synced only on a node with peers
  have overlay : wp (listing plan db env i)
      (node.sh (VmUp.overlay spec (Bridge.nameFor spec.nodeId spec.vpcId)))
        (fun r s' => r = .ok () →
        OnOverlay db node → FloodsTo db node spec.vpcId (peersOf node db) s') s₁ := by
    unfold VmUp.overlay
    split
    next off =>
      rintro - on ip peer -
      rcases off with none_ | alone
      · rw [← informed.peers, none_] at peer
        cases peer
      · rw [informed.host] at alone
        exact absurd alone on
    next =>
      -- the device is made first, then its list is set
      have made := (VmUp.ensure_only spec).mono fun c h => (VmUp.of_wired spec c h).issues
      rw [sh_bind, wp_bind]
      apply among_mono _ _ _ _ s₁ (reads_minding (J := fun _ => True) (fun _ _ _ _ => trivial)
        (minds made) trivial)
      rintro (e | ⟨⟩) s' -
      · rintro ⟨⟩
      rw [onValue_ok, here, informed.peers]
      apply among_mono _ _ _ _ s' (reads_setFdb known hexNode hexVpc v4 spec.sets)
      exact fun _ _ post ok _ => post ok
  apply among_mono _ _ _ _ s₁ overlay
  rintro (e | ⟨⟩) s₂ post
  · rintro ⟨⟩
  rw [onValue_ok]
  apply among_mono _ _ _ _ s₂ (reads_minding (J := fun s => OnOverlay db node →
    FloodsTo db node spec.vpcId (peersOf node db) s) _ (minds (after_only spec)) (post rfl))
  · exact fun _ _ now _ => now
  · exact fun s s' holds lasting on => (holds on).stays known s s' lasting

/-- The overlay pass lists the peers of the registry, and no others. -/
theorem reads_overlay (node : Node) (s : Run) :
    wp (listing plan db env i) (OverlayPass.reconcile node) (fun _ _ => True) s := by
  have minding {α : Type} {p : Py α} (only : Only (Minds db) p) (s : Run) :
      wp (listing plan db env i) p (fun _ _ => True) s :=
    reads_minding (J := fun _ => True) (fun _ _ _ _ => trivial) only trivial
  rw [OverlayPass.reconcile]
  apply among_then (minding _ s)
  · intro host s₁
    rw [wp_ite]
    split
    · exact trivial
    -- the peers are those that the registry has had from the start
    rw [Peers.peerHosts, wp_bind, wp_bind, getAll, wp_perform]
    intro s₂ lasting listed _
    obtain ⟨listed', lasting'⟩ :=
      minds_after (o := .getAll .nodes fun _ => true) trivial i listed
    refine ⟨listed', lasting', ?_⟩
    have peers : (((s₂.world.db .nodes).getAll fun _ => true).filter fun n =>
        n.nodeId ≠ node.id && !LOOPBACK.contains n.host).map NodeRow.host = peersOf node db := by
      rw [listed.registry, peersOf]
    have answer : (exec env (.getAll .nodes fun _ => true) s₂.world).1 =
        .ok ((s₂.world.db .nodes).getAll fun _ => true) := rfl
    rw [answer, onValue_ok, wp_pure, onValue_ok, peers]
    apply minding
    apply Only.bind (.bind (.getAll trivial) fun _ => .pure _)
    intro vpcs
    apply Only.bind (.filterEach _ fun v _ => ?_) fun _ => .pure _
    apply Only.sh node
    have shows (name : Str) : Minds db (.host node.id (.net (.show name))) := by
      refine ⟨node, rfl, ?_⟩
      rintro c ⟨⟩
      exact trivial
    apply Only.bind (.exceptPrivops _ (.bind (.net (shows _)) fun _ => .pure _))
    intro there
    apply Only.ite
    · intro _
      apply Only.bind ((Vxlan.setFdb_lists node.cfg.sets _ (peersOf node db)).mono _)
        fun _ => .pure _
      rintro _ ⟨c, lists⟩
      refine ⟨node, rfl, ?_⟩
      rintro c' ⟨⟩
      exact heeds_lists lists
    · exact fun _ => .pure _
  · apply Only.bind (.get trivial)
    intro row
    cases row <;> exact .pure _

end

/-! ## Jobs among others -/

/-- The job is given what the registry has. -/
def Told (db : Db) : Job → Prop
  | .up node spec | .rebuild node spec => Informed db node spec ∧ FloodList.HexId node.id
  | .down _ _ | .overlay _ => True

/-- The jobs go by the registry, which has IPv4 addresses, and the names of the devices can be
read. -/
structure Registry (plan : Plan) (db : Db) (jobs : List Job) : Prop where
  told : ∀ job ∈ jobs, Told db job
  vpcs : ∀ u, plan.vpcs u → FloodList.HexId u
  hosts : ∀ row ∈ db .nodes, LOOPBACK.contains row.host ∨ FloodList.V4 row.host

section

variable {plan : Plan} {db : Db} {jobs : List Job} (registry : Registry plan db jobs)

include registry

theorem Registry.v4 (node : Node) : ∀ ip ∈ peersOf node db, FloodList.V4 ip := by
  intro ip there
  obtain ⟨row, kept, rfl⟩ := List.mem_map.mp there
  obtain ⟨found, other⟩ := List.mem_filter.mp kept
  rcases registry.hosts row ((Table.mem_getAll ..).mp found).1 with alone | v4
  · rw [alone] at other
    exact absurd other (by simp)
  · exact v4

omit registry in
/-- A node on the overlay is a peer of the others. -/
theorem host_mem_peers {node node' : Node} (differ : node'.id ≠ node.id)
    (on : OnOverlay db node') : hostOf node' db ∈ peersOf node db := by
  cases found : (db .nodes).get fun r => r.nodeId = node'.id with
  | none =>
    rw [OnOverlay, hostOf, found] at on
    exact absurd (by decide) on
  | some row =>
    obtain ⟨there, is⟩ := Table.get_some found
    have host : hostOf node' db = row.host := by
      rw [hostOf, found]
      rfl
    have own : row.nodeId = node'.id := of_decide_eq_true is
    rw [OnOverlay, host] at on
    rw [host]
    apply List.mem_map_of_mem
    apply List.mem_filter.mpr
    refine ⟨Table.mem_getAll.mpr ⟨there, rfl⟩, ?_⟩
    simp only [own, differ, on, ne_eq, not_false_eq_true, decide_true,
      Bool.not_false, Bool.and_self]

theorem reads_job (apart : plan.Apart) {env : Env} (i : Nat) {job : Job}
    (planned : job.Planned plan)
    (there : job ∈ jobs) (s : Run) : wp (listing plan db env i) job.program
      (fun r s' => ∀ node spec, job = .up node spec ∨ job = .rebuild node spec → r = .ok () →
        OnOverlay db node → FloodsTo db node spec.vpcId (peersOf node db) s') s := by
  have told := registry.told job there
  -- a bring-up is one of the node's own VPC, which the registry knows
  have bringsUp (node : Node) (spec : VmSpec) (fits : Fits plan node.id spec)
      (told : Informed db node spec ∧ FloodList.HexId node.id) (s : Run) :
      wp (listing plan db env i) (node.sh (VmUp.run spec)) (fun r s' => r = .ok () →
        OnOverlay db node → FloodsTo db node spec.vpcId (peersOf node db) s') s := by
    have known : plan.vpcs spec.vpcId := fits.vpc ▸ apart.placed _ fits.vm
    exact reads_run told.1 fits.node_ known told.2 (registry.vpcs _ known) (registry.v4 node)
  -- a take-down deletes no overlay device
  have takesDown (node : Node) (v vg : Id) : Only (Minds db) (node.sh (VmDown.run v vg)) := by
    apply Only.sh node
    apply (VmDown.run_only v vg).mono
    intro c issues
    refine ⟨node, rfl, ?_⟩
    rintro c' rfl
    exact heeds_down issues
  have anything (s s' : Run) (_ : True) (_ : Lasting plan db s s') : True := trivial
  cases job with
  | up node spec =>
    apply among_mono _ _ _ _ s (bringsUp node spec planned told s)
    rintro r s' post node' spec' (is | is) <;> cases is
    exact post
  | down node v =>
    apply among_mono _ _ _ _ s (reads_minding anything (takesDown node v _) trivial)
    rintro r s' - node' spec' (is | is) <;> cases is
  | rebuild node spec =>
    rw [Job.program, wp_bind]
    apply among_mono _ _ _ _ s (reads_minding anything (takesDown node spec.vmId _) trivial)
    rintro (e | _) s₁ -
    · rintro _ _ - ⟨⟩
    rw [onValue_ok]
    apply among_mono _ _ _ _ s₁ (bringsUp node spec planned told s₁)
    rintro r s' post node' spec' (is | is) <;> cases is
    exact post
  | overlay node =>
    have reads : wp (listing plan db env i) (Job.overlay node).program (fun _ _ => True) s :=
      among_then (reads_overlay node s) fun _ _ => trivial
    apply among_mono _ _ _ _ s reads
    rintro r s' - node' spec' (is | is) <;> cases is

/-- Wherever a run of jobs has come, the devices list peers only, and those of the bring-ups that
have returned list them all. -/
theorem floods_reached (apart : plan.Apart) (planned : ∀ job ∈ jobs, job.Planned plan) {env : Env}
    {start : World} (same : start.db = db) (bare : ∀ n, Bare plan n (start.hosts n))
    {c : Config Op Op.Res Exn Unit World}
    (reached : Reachable (exec env) anyStep ⟨⟨start, []⟩, jobs.map Job.program⟩ c) :
    Listed plan db c.shared ∧ ∀ (i : Nat) node spec,
      jobs[i]? = some (Job.up node spec) ∨ jobs[i]? = some (Job.rebuild node spec) →
        c.threads[i]? = some (.ret ()) → OnOverlay db node →
          FloodsTo db node spec.vpcId (peersOf node db) c.shared := by
  -- no overlay device is there at the start
  have listed : Listed plan db ⟨start, []⟩ := by
    refine ⟨same, fun node u known l there => ?_⟩
    have port : (start.hosts node.id).net.portAt (none, Vxlan.nameFor node.id u) =
        some (l.kind, l.master) := by rw [Net.portAt, there]; rfl
    exact absurd (.root .vxlan u known) (((bare node.id).names _ _ port).1 _)
  -- every thread relies on entries that last, and guarantees the same to the others
  have holds := Reachable.holds (Listed plan db) (fun _ => Lasting plan db)
    (fun _ => Lasting plan db) (fun i r s => ∀ node spec,
      jobs[i]? = some (.up node spec) ∨ jobs[i]? = some (.rebuild node spec) → r = .ok () →
        OnOverlay db node → FloodsTo db node spec.vpcId (peersOf node db) s)
    (fun _ s => .refl s) (fun _ _ _ _ first second => first.trans second)
    (fun _ _ _ _ _ _ _ lasting => lasting) listed ?_ reached
  · refine ⟨holds.1, fun i node spec is returned on => ?_⟩
    obtain ⟨s, lasting, post⟩ := holds.2 i _ returned
    have fits : Fits plan node.id spec := by
      rcases is with is | is <;> exact planned _ (List.mem_of_getElem? is)
    have known : plan.vpcs spec.vpcId := fits.vpc ▸ apart.placed _ fits.vm
    exact (post node spec is rfl on).stays known s _ lasting
  · intro i p there
    rw [List.getElem?_map, Option.map_eq_some_iff] at there
    obtain ⟨job, found, rfl⟩ := there
    have inside := List.mem_of_getElem? found
    apply among_mono _ _ _ _ _ (reads_job registry apart i (planned job inside) inside _)
    intro r s post node spec is
    apply post node spec
    rw [found] at is
    exact is.imp Option.some.inj Option.some.inj

end

end Nyc.Underlay
