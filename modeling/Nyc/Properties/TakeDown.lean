import Nyc.Client.Processes
import Nyc.Client.Topology
import Nyc.Properties.Shutdown

/-!
# A bring-up that is cut off, and the take-down after it

Wherever `vm_up` ends, `vm_down` with succeeding commands removes all that is the VM's own, and
leaves the rest of the host as it finds it.
-/

namespace Nyc.Client

open Data Effects Effects.Program

/-! ## The kernel -/

/-- What the kernel sees to: pids are positive, and a pair of veths has a number of its own. -/
structure Kernel (h : Host) : Prop where
  pids : 0 < h.nextPid
  pairs : ∀ key p, h.net.kindAt key = some (.veth p) → p < h.net.pairs

/-- A veth is made with its other end. -/
def Cmd.Proper (c : Cmd) : Prop := ∀ key p, c ≠ .net (.add key (.veth p))

theorem pairs_step {c : NetCmd} (proper : ∀ key p, c ≠ .add key (.veth p)) {n n' : Net} {a : c.Res}
    (pairs : ∀ key p, n.kindAt key = some (.veth p) → p < n.pairs)
    (step : c.step n = some (a, n')) :
    ∀ key p, n'.kindAt key = some (.veth p) → p < n'.pairs := by
  intro key p there
  -- only `addVeth` makes a pair, under a number that no pair has yet
  cases c with
  | netnsAdd ns =>
    obtain ⟨-, rfl⟩ := netnsAdd_step step
    exact pairs key p there
  | netnsDel ns =>
    obtain ⟨same, -, links⟩ := netnsDel_step step
    rw [same.pairs]
    by_cases inside : n.Inside ns key
    · rw [Net.kindAt, (links key).1 inside] at there
      cases there
    · rw [Net.kindAt, (links key).2 inside] at there
      exact pairs key p there
  | add key' kind =>
    obtain ⟨-, -, same, -, kinds⟩ := add_step step
    rw [kinds] at there
    rw [same]
    split at there
    · cases there
      exact absurd rfl (proper key' p)
    · exact pairs key p there
  | addVeth name peer =>
    obtain ⟨-, -, more, -, kinds⟩ := addVeth_step step
    rw [kinds] at there
    rw [more]
    split at there
    · cases there
      omega
    · have := pairs key p there
      omega
  | del name =>
    obtain ⟨same, -, links⟩ := del_step step
    rw [same.pairs]
    by_cases paired : n.Paired name key
    · rw [Net.kindAt, (links key).1 paired] at there
      cases there
    · rw [Net.kindAt, (links key).2 paired] at there
      exact pairs key p there
  | setNetns name ns =>
    obtain ⟨kind, found, -, -, same, -, kinds⟩ := setNetns_step step
    rw [kinds] at there
    rw [same]
    split at there
    · cases there
      exact pairs _ p found
    · split at there
      · cases there
      · exact pairs key p there
  | «show» | setMaster | setUp | setAddress | addAddr | fdbShow | fdbAppend | fdbDel | sysctlForward
  | listChain | newChain | checkRule | appendRule | deleteRule =>
    have same : SameLinks n n' := sets_step (by exact trivial) step
    rw [same.kinds] at there
    rw [same.pairs]
    exact pairs key p there

theorem nextPid_step {out : Str} {c : Cmd} {h h' : Host} {a : c.Res}
    (step : c.step out h = some (a, h')) :
    h.nextPid ≤ h'.nextPid := by
  cases c with
  | popen vmId ns =>
    cases step
    exact Nat.le_succ _
  | dir vmId c | lvm c | net c =>
    obtain ⟨_, -, same⟩ := Option.map_eq_some_iff.mp step
    cases same
    exact le_rfl
  | debugfs vmId session => exact (calm_step out (.debugfs vmId session) trivial step).nextPid.ge
  | kill pid => exact (calm_step out (.kill pid) trivial step).nextPid.ge
  | poll pid => exact (calm_step out (.poll pid) trivial step).nextPid.ge
  | listDirs => exact (calm_step out .listDirs trivial step).nextPid.ge
  | ssh ip key script => exact (calm_step out (.ssh ip key script) trivial step).nextPid.ge

theorem Kernel.exec {h : Host} (kernel : Kernel h) (x : Chance) (c : Cmd) (proper : c.Proper) :
    Kernel (h.exec x c).2 := by
  constructor
  · unfold Host.exec Host.attempt
    split
    · exact kernel.pids
    · split
      next a h' step =>
        exact Nat.lt_of_lt_of_le kernel.pids (nextPid_step (h := h.reap x.gone) step)
      next => exact kernel.pids
  · apply exec_net_keeps (J := fun n => ∀ key p, n.kindAt key = some (.veth p) →
      p < n.pairs) x c h ?_ kernel.pairs
    rintro c rfl a n' step
    exact pairs_step (fun key p same => proper key p (congrArg Cmd.net same)) kernel.pairs step

/-- The hosts that any commands may lead to after a boot, when there are the volumes and the
directories only. -/
inductive HostReached : Host → Prop where
  | booted (h : Host) : h.net = Net.empty → h.procs = [] → h.nextPid = 1 → HostReached h
  | exec {h : Host} (x : Chance) (c : Cmd) : HostReached h → c.Proper → HostReached (h.exec x c).2

theorem HostReached.kernel {h : Host} (reached : HostReached h) : Kernel h := by
  induction reached with
  | booted h net _ nextPid =>
    constructor
    · omega
    · intro key p there
      rw [net] at there
      cases there
  | exec x c _ proper ih => exact ih.exec x c proper

/-! ## The links of a VM -/

/-- The two stacks of a VM's network: to the VPC, and to the public bridge. -/
inductive Stack where
  | vpc | public_
  deriving DecidableEq

namespace Stack

/-- The end of the veth pair that stays on the host. -/
def outer : Stack → Id → Str
  | vpc => VmUp.hostVeth
  | public_ => VmUp.pubHostVeth

/-- The end that is moved into the namespace. -/
def inner : Stack → Id → Str
  | vpc => VmUp.nsVeth
  | public_ => VmUp.pubNsVeth

def letter : Stack → Char
  | vpc => 'v'
  | public_ => 'p'

theorem letter_inj {st st' : Stack} (same : st.letter = st'.letter) : st = st' := by
  cases st <;> cases st' <;> first | rfl | exact absurd same (by decide)

theorem outer_head (st : Stack) (v : Id) : (st.outer v).head? = some st.letter := by
  cases st <;> rfl

theorem inner_head (st : Stack) (v : Id) : (st.inner v).head? = some st.letter := by
  cases st <;> rfl

theorem outer_third (st : Stack) (v : Id) : (st.outer v)[2]? = some 'h' := by
  cases st <;> rfl

theorem inner_third (st : Stack) (v : Id) : (st.inner v)[2]? = some 'n' := by
  cases st <;> rfl

theorem outer_inj {st st' : Stack} {v : Id} (same : st.outer v = st'.outer v) : st = st' := by
  have heads := outer_head st v
  rw [same, outer_head] at heads
  exact letter_inj (Option.some.inj heads).symm

theorem inner_inj {st st' : Stack} {v : Id} (same : st.inner v = st'.inner v) : st = st' := by
  have heads := inner_head st v
  rw [same, inner_head] at heads
  exact letter_inj (Option.some.inj heads).symm

theorem outer_ne_inner (st st' : Stack) (v : Id) : st.outer v ≠ st'.inner v := by
  intro same
  have third := outer_third st v
  rw [same, inner_third] at third
  exact absurd third (by decide)

end Stack

/-- A link in the VM's namespace, or with one of the four names. -/
def Own (v : Id) (key : LinkKey) : Prop :=
  key.1 = some (VmUp.nsName v) ∨ ∃ st : Stack, key = (none, st.outer v) ∨ key = (none, st.inner v)

/-- How far a bring-up has come with the VM's links, since there were `first` pairs. -/
structure Wired (v : Id) (first : Nat) (n : Net) : Prop where
  bound : first ≤ n.pairs
  pairs : ∀ key p, n.kindAt key = some (.veth p) → p < n.pairs
  own : ∀ key p, n.kindAt key = some (.veth p) → (first ≤ p ↔ Own v key)
  /-- An inner end that is still on the host has its outer end there. -/
  inner : ∀ st : Stack, n.kindAt (none, st.inner v) ≠ none →
    ∃ p, n.kindAt (none, st.inner v) = some (.veth p) ∧ n.kindAt (none, st.outer v) = some (.veth p)
  inside : ∀ name, n.kindAt (some (VmUp.nsName v), name) ≠ none → VmUp.nsName v ∈ n.namespaces

namespace Wired

variable {v : Id} {first : Nat} {n n' : Net}

/-- No link of the VM yet. -/
theorem start (pairs : ∀ key p, n.kindAt key = some (.veth p) → p < n.pairs)
    (absent : ∀ key, Own v key → n.kindAt key = none) : Wired v n.pairs n := by
  constructor
  · exact le_rfl
  · exact pairs
  · intro key p there
    have below := pairs key p there
    refine iff_of_false (by omega) fun own => ?_
    rw [absent key own] at there
    cases there
  · exact fun st there => absurd (absent _ (.inr ⟨st, .inr rfl⟩)) there
  · exact fun name there => absurd (absent _ (.inl rfl)) there

theorem same (wired : Wired v first n) (alike : SameLinks n n') : Wired v first n' := by
  have kinds : n'.kindAt = n.kindAt := funext alike.kinds
  constructor
  · rw [alike.pairs]
    exact wired.bound
  · rw [kinds, alike.pairs]
    exact wired.pairs
  · rw [kinds]
    exact wired.own
  · rw [kinds]
    exact wired.inner
  · rw [kinds, alike.namespaces]
    exact wired.inside

theorem namespace_ (wired : Wired v first n) (ns : Str) :
    Wired v first { n with namespaces := ns :: n.namespaces } where
  bound := wired.bound
  pairs := wired.pairs
  own := wired.own
  inner := wired.inner
  inside name there := List.mem_cons_of_mem _ (wired.inside name there)

/-- A new link of another name, which is no veth. -/
theorem added (wired : Wired v first n) {key : LinkKey} {kind : Kind} (plain : ∀ p, kind ≠ .veth p)
    (other : ∀ st : Stack, key.2 ≠ st.outer v ∧ key.2 ≠ st.inner v) {a : Unit}
    (step : NetCmd.step (.add key kind) n = some (a, n')) : Wired v first n' := by
  obtain ⟨-, known, pairs, namespaces, kinds⟩ := add_step step
  -- the link that is added is no end of a pair
  have veths (k : LinkKey) (p : Nat) : n'.kindAt k = some (.veth p) →
      n.kindAt k = some (.veth p) := by
    intro there
    rw [kinds] at there
    split at there
    · cases there
      exact absurd rfl (plain p)
    · exact there
  -- and has none of the names of the ends
  have outers (st : Stack) : n'.kindAt (none, st.outer v) = n.kindAt (none, st.outer v) := by
    rw [kinds, if_neg]
    rintro rfl
    exact (other st).1 rfl
  have inners (st : Stack) : n'.kindAt (none, st.inner v) = n.kindAt (none, st.inner v) := by
    rw [kinds, if_neg]
    rintro rfl
    exact (other st).2 rfl
  constructor
  · rw [pairs]
    exact wired.bound
  · intro k p there
    rw [pairs]
    exact wired.pairs k p (veths k p there)
  · exact fun k p there => wired.own k p (veths k p there)
  · intro st
    rw [inners, outers]
    exact wired.inner st
  · intro name there
    rw [kinds] at there
    rw [namespaces]
    split at there
    next here =>
      cases here
      exact known _ rfl
    next => exact wired.inside name there

/-- The pair of a stack. -/
theorem paired (wired : Wired v first n) (st : Stack) {a : Unit}
    (step : NetCmd.step (.addVeth (st.outer v) (st.inner v)) n = some (a, n')) :
    Wired v first n' := by
  obtain ⟨-, -, pairs, namespaces, kinds⟩ := addVeth_step step
  -- both ends are new, and both belong to `v`
  have made : n'.kindAt (none, st.outer v) = some (.veth n.pairs) := by
    rw [kinds, if_pos (.inl rfl)]
  have made' : n'.kindAt (none, st.inner v) = some (.veth n.pairs) := by
    rw [kinds, if_pos (.inr rfl)]
  have rest (k : LinkKey) (ne : k ≠ (none, st.outer v)) (ne' : k ≠ (none, st.inner v)) :
      n'.kindAt k = n.kindAt k := by rw [kinds, if_neg (not_or.mpr ⟨ne, ne'⟩)]
  have bound := wired.bound
  constructor
  · omega
  · intro k p there
    rw [kinds] at there
    split at there
    · cases there
      omega
    · have below := wired.pairs k p there
      omega
  · intro k p there
    rw [kinds] at there
    split at there
    next here =>
      cases there
      exact iff_of_true bound (.inr ⟨st, here⟩)
    next => exact wired.own k p there
  · intro st' there
    -- the other stack keeps its own two ends
    by_cases same : st' = st
    · subst same
      exact ⟨_, made', made⟩
    · have outer := rest (none, st'.outer v)
        (fun alike => same (Stack.outer_inj (congrArg Prod.snd alike)))
        fun alike => Stack.outer_ne_inner st' st v (congrArg Prod.snd alike)
      have inner := rest (none, st'.inner v)
        (fun alike => Stack.outer_ne_inner st st' v (congrArg Prod.snd alike).symm)
        fun alike => same (Stack.inner_inj (congrArg Prod.snd alike))
      rw [inner] at there
      rw [inner, outer]
      exact wired.inner st' there
  · intro name
    rw [rest _ (fun same => by cases same) (fun same => by cases same), namespaces]
    exact wired.inside name

/-- An inner end is moved into the namespace. -/
theorem placed (wired : Wired v first n) (st : Stack) {a : Unit}
    (step : NetCmd.step (.setNetns (st.inner v) (VmUp.nsName v)) n = some (a, n')) :
    Wired v first n' := by
  obtain ⟨kind, found, known, -, pairs, namespaces, kinds⟩ := setNetns_step step
  -- the outer end stays in the root namespace
  have outer (st' : Stack) : n'.kindAt (none, st'.outer v) = n.kindAt (none, st'.outer v) := by
    rw [kinds, if_neg (fun same => by cases same), if_neg]
    exact fun same => Stack.outer_ne_inner st' st v (congrArg Prod.snd same)
  constructor
  · rw [pairs]
    exact wired.bound
  · intro k p there
    rw [kinds] at there
    rw [pairs]
    split at there
    · exact wired.pairs _ p (found.trans there)
    · split at there
      · cases there
      · exact wired.pairs k p there
  · intro k p there
    rw [kinds] at there
    split at there
    next here =>
      -- the end that moved is the inner one of `v`
      have whose := wired.own _ p (found.trans there)
      exact iff_of_true (whose.mpr (.inr ⟨st, .inr rfl⟩)) (.inl (congrArg Prod.fst here))
    next =>
      split at there
      · cases there
      · exact wired.own k p there
  · intro st' there
    rw [kinds, if_neg (fun same => by cases same)] at there
    split at there
    · exact absurd rfl there
    next other =>
      rw [outer, kinds, if_neg (fun same => by cases same), if_neg other]
      exact wired.inner st' there
  · intro name there
    rw [namespaces]
    exact known

/-- A name is told from the four by its third letter. -/
theorem other_name {name : Str} (host : name[2]? ≠ some 'h') (ns : name[2]? ≠ some 'n')
    (st : Stack) :
    name ≠ st.outer v ∧ name ≠ st.inner v := by
  constructor
  · rintro rfl
    exact host (st.outer_third v)
  · rintro rfl
    exact ns (st.inner_third v)

theorem device_name {name : Str} (third : name[2]? = some '-') (st : Stack) :
    name ≠ st.outer v ∧ name ≠ st.inner v := by
  apply other_name <;> rw [third] <;> decide

/-- The devices in the namespace are no veths, and have other names. -/
theorem devices_plain : ∀ e ∈ VmUp.inner,
    e.1[2]? ≠ some 'h' ∧ e.1[2]? ≠ some 'n' ∧ e.2.pair = none := by decide

/-- Every command of `vm_up` keeps to it. -/
theorem issued {spec : VmSpec} {c : Cmd} (issues : VmUp.Issues spec c) (x : Chance) {h : Host}
    (wired : Wired spec.vmId first h.net) : Wired spec.vmId first (h.exec x c).2.net := by
  apply exec_net_keeps x c h ?_ wired
  rintro c rfl a n' step
  cases issues with
  | net c known =>
    -- only the commands that make or place links touch the pairs
    cases known with
    | bridge => exact wired.added (fun p => by rintro ⟨⟩) (device_name rfl) step
    | vxlan => exact wired.added (fun p => by rintro ⟨⟩) (device_name rfl) step
    | inner name kind known =>
      obtain ⟨host, ns, plain⟩ := devices_plain _ known
      refine wired.added (fun p same => ?_) (other_name host ns) step
      rw [same] at plain
      cases plain
    | netns =>
      obtain ⟨-, rfl⟩ := netnsAdd_step step
      exact wired.namespace_ _
    | pair => exact wired.paired .vpc step
    | publicPair => exact wired.paired .public_ step
    | place => exact wired.placed .vpc step
    | publicPlace => exact wired.placed .public_ step
    | _ => exact wired.same (sets_step (by exact trivial) step)

end Wired

/-! ## The bring-up -/

/-- Each process of the VM is the one in the pid file. -/
def PidKept (v : Id) (h : Host) : Prop :=
  ∀ p ∈ h.procs, p.vmId = v → h.pidFile v = some p.pid ∧ 0 < p.pid

section

variable (x : Nat → Chance) (spec : VmSpec)

/-- The host that `vm_up` leaves, wherever it ends. -/
def broughtUp (h : Host) : Host := (run (execAt x) (VmUp.run spec) (0, h)).2.2

theorem broughtUp_wired {h : Host} {first : Nat} (wired : Wired spec.vmId first h.net) :
    Wired spec.vmId first (broughtUp x spec h).net := by
  have kept := sequential_keeps (execAt x) (fun s => Wired spec.vmId first s.2.net)
    (fun c s issues holds => holds.issued issues (x s.1)) (VmUp.run_only spec) (0, h) wired
  exact (wp_sequential ..).mp kept

/-- No process of the VM, which is then not in the pid file either. -/
structure Idle (v : Id) (h : Host) : Prop where
  pids : 0 < h.nextPid
  none : ∀ p ∈ h.procs, p.vmId ≠ v

theorem Idle.fewer {v : Id} {h h' : Host} (idle : Idle v h) (fewer : Fewer h h') : Idle v h' :=
  ⟨fewer.nextPid ▸ idle.pids, fun p there => idle.none p (fewer.procs.subset there)⟩

theorem Idle.pidKept {v : Id} {h : Host} (idle : Idle v h) : PidKept v h :=
  fun p there same => absurd same (idle.none p there)

theorem wp_at (c : Cmd) (Q : Except Exn c.Res → Nat × Host → Prop) (s : Nat × Host) :
    wp (sequential (execAt x)) (@perform Cmd Cmd.Res Exn c) Q s =
      Q (s.2.exec (x s.1) c).1 (s.1 + 1, (s.2.exec (x s.1) c).2) := by
  rw [wp_perform]
  rfl

theorem written_pid {v : Id} {d : VmDir} {pid : Nat} (y : Chance) (u : Host)
    (dirs : u.dirs.lookup v = some d)
    (mine : ∀ p ∈ u.procs, p.vmId = v → p.pid = pid) (positive : 0 < pid) :
    PidKept v (u.exec y (.dir v (.writePid pid))).2 := by
  have written := exec_dir y v (.writePid pid) u (a := ()) (d := some { d with
    pid := some (pid : Int) })
    (by rw [dirs]; rfl)
  rw [written]
  intro p there same
  rw [mine p (List.mem_of_mem_filter there) same]
  refine ⟨?_, positive⟩
  rw [Host.pidFile, lookup_putDir, if_pos rfl]
  rfl

/-- The process is started with its pid written at once. -/
theorem create_pid {v : Id} (ns : Str) (s : Nat × Host) (idle : Idle v s.2) :
    wp (sequential (execAt x)) (CreateVm.run v ns) (fun _ s' => PidKept v s'.2) s := by
  rw [CreateVm.run, wp_bind, dir, wp_at]
  have idle' : Idle v (s.2.exec (x s.1) (.dir v .openLog)).2 :=
    idle.fewer (calm_exec _ (.dir v .openLog) trivial _).toFewer
  cases there : s.2.dirs.lookup v with
  | none =>
    have stuck : Cmd.step (x s.1).out (.dir v .openLog) (s.2.reap (x s.1).gone) = none := by
      simp only [Cmd.step, reap_dirs, there, DirCmd.step, Option.map_none]
    obtain ⟨e, fails⟩ := exec_of_none (x s.1) (.dir v .openLog) s.2 stuck
    rw [fails]
    exact idle'.pidKept
  | some d =>
    have opened := exec_dir (x s.1) v .openLog s.2 (a := ()) (d := some { d with
      log := true }) (by rw [there]; rfl)
    have dirs : (s.2.exec (x s.1) (.dir v .openLog)).2.dirs.lookup v = some { d with
        log := true } := by
      rw [opened, lookup_putDir, if_pos rfl]
    have done : (s.2.exec (x s.1) (.dir v .openLog)).1 = .ok () := by rw [opened]
    generalize s.2.exec (x s.1) (.dir v .openLog) = t at idle' dirs done
    rw [done, onValue_ok, wp_bind, wp_at]
    have started := exec_of_step (x (s.1 + 1)) (.popen v ns) t.2 _ _ (.inr rfl) rfl
    simp only [started, onValue_ok, dir]
    apply (iff_of_eq (wp_at x _ _ _)).mpr
    refine written_pid _ _ dirs (fun p there mine => ?_) idle'.pids
    -- the process just started is the only one of the VM
    rcases List.mem_cons.mp there with rfl | older
    · rfl
    · exact absurd mine (idle'.none p (List.mem_of_mem_filter older))

theorem broughtUp_pid {h : Host} (idle : Idle spec.vmId h) :
    PidKept spec.vmId (broughtUp x spec h) := by
  have kept : wp (sequential (execAt x)) (VmUp.run spec)
      (fun _ s => PidKept spec.vmId s.2) (0, h) := by
    rw [VmUp.run_eq]
    refine sequential_keeps_then (execAt x)
      (fun s => Idle spec.vmId s.2) ?_ (VmUp.prepare_only spec) idle
      (fun e s holds => holds.pidKept) fun _ s holds => create_pid x _ s holds
    exact fun c s prepares holds => holds.fewer (calm_exec (x s.1) c prepares.quiet s.2).toFewer
  exact (wp_sequential ..).mp kept

end

/-! ## The network goes down -/

/-- The command removes the links of `base`, and the other ends of their pairs. -/
def Net.Removed (n : Net) (base : LinkKey → Prop) (key : LinkKey) : Prop :=
  base key ∨ ∃ k p, base k ∧ n.kindAt k = some (.veth p) ∧ n.kindAt key = some (.veth p)

/-- No link is there that was not, and only the VM's are gone. -/
structure Clearing (v : Id) (n0 n : Net) : Prop where
  fewer : ∀ key, n.links.lookup key = none ∨ n.links.lookup key = n0.links.lookup key
  left : ∀ key, ¬ Own v key → n.links.lookup key = n0.links.lookup key
  inner : ∀ st : Stack, n.kindAt (none, st.inner v) ≠ none →
    ∃ p, n.kindAt (none, st.inner v) = some (.veth p) ∧ n.kindAt (none, st.outer v) = some (.veth p)
  namespaces : ∀ m, m ≠ VmUp.nsName v → (m ∈ n.namespaces ↔ m ∈ n0.namespaces)
  filters : SameFilters n0 n

theorem SameFilters.trans {n n' n'' : Net} (first : SameFilters n n')
    (second : SameFilters n' n'') :
    SameFilters n n'' where
  pairs := second.pairs.trans first.pairs
  chains := second.chains.trans first.chains
  rules := second.rules.trans first.rules
  ipForward := second.ipForward.trans first.ipForward

namespace Clearing

variable {v : Id} {first : Nat} {n0 n n' : Net}

theorem start (wired : Wired v first n0) : Clearing v n0 n0 where
  fewer _ := .inr rfl
  left _ _ := rfl
  inner := wired.inner
  namespaces _ _ := Iff.rfl
  filters := ⟨rfl, rfl, rfl, rfl⟩

theorem kind_back (clearing : Clearing v n0 n) {key : LinkKey} {kind : Kind}
    (there : n.kindAt key = some kind) :
    n0.kindAt key = some kind := by
  rcases clearing.fewer key with gone | same
  · rw [Net.kindAt, gone] at there
    cases there
  · rwa [← kindAt_congr same]

/-- A removal of the VM's own links takes the VM's own links only, with both ends of a pair. -/
theorem removal (wired : Wired v first n0) (clearing : Clearing v n0 n) {base : LinkKey → Prop}
    (own : ∀ key, base key → Own v key) (filters : SameFilters n n')
    (namespaces : ∀ m, m ≠ VmUp.nsName v → (m ∈ n'.namespaces ↔ m ∈ n.namespaces))
    (links : ∀ key, (n.Removed base key → n'.links.lookup key = none) ∧
      (¬ n.Removed base key → n'.links.lookup key = n.links.lookup key)) : Clearing v n0 n' := by
  have fewer (key : LinkKey) : n'.links.lookup key = none ∨
      n'.links.lookup key = n.links.lookup key := by
    by_cases removed : n.Removed base key
    · exact .inl ((links key).1 removed)
    · exact .inr ((links key).2 removed)
  constructor
  · intro key
    rcases fewer key with gone | same
    · exact .inl gone
    · rw [same]
      exact clearing.fewer key
  · intro key other
    have spared : ¬ n.Removed base key := by
      rintro (mine | ⟨k, p, mine, first, second⟩)
      · exact other (own key mine)
      -- a pair with an end of the VM's is one of the bring-up, and so is its other end
      · have mine' := (wired.own k p (clearing.kind_back first)).mpr (own k mine)
        exact other ((wired.own key p (clearing.kind_back second)).mp mine')
    rw [(links key).2 spared]
    exact clearing.left key other
  · intro st there
    have kept : ¬ n.Removed base (none, st.inner v) := by
      intro removed
      exact there (Net.kindAt_none.mpr ((links _).1 removed))
    rw [kindAt_congr ((links _).2 kept)] at there ⊢
    obtain ⟨p, inner, outer⟩ := clearing.inner st there
    have kept' : ¬ n.Removed base (none, st.outer v) := by
      rintro (mine | ⟨k, q, mine, first, second⟩)
      · exact kept (.inr ⟨_, p, mine, outer, inner⟩)
      · cases outer.symm.trans second
        exact kept (.inr ⟨k, p, mine, first, inner⟩)
    rw [kindAt_congr ((links _).2 kept')]
    exact ⟨p, inner, outer⟩
  · intro m other
    rw [namespaces m other]
    exact clearing.namespaces m other
  · exact clearing.filters.trans filters

end Clearing

/-- The namespace and what was in it are gone. -/
structure Bare (v : Id) (n : Net) : Prop where
  namespace_ : VmUp.nsName v ∉ n.namespaces
  inside : ∀ name, n.links.lookup (some (VmUp.nsName v), name) = none

/-- Both ends of a stack are gone from the host. -/
structure Unwired (v : Id) (st : Stack) (n : Net) : Prop where
  outer : n.links.lookup (none, st.outer v) = none
  inner : n.links.lookup (none, st.inner v) = none

section

variable {v : Id} {first : Nat} {y : Chance} {h : Host} {n0 : Net}

/-- `ip netns del`. -/
theorem netnsDel_clears (sound : y.fails = false) (wired : Wired v first h.net) :
    Clearing v h.net (h.exec y (.net (.netnsDel (VmUp.nsName v)))).2.net ∧
      Bare v (h.exec y (.net (.netnsDel (VmUp.nsName v)))).2.net := by
  rcases exec_net_sound y (.netnsDel (VmUp.nsName v)) h sound with ⟨a, step⟩ | ⟨stuck, same⟩
  · obtain ⟨filters, namespaces, links⟩ := netnsDel_step step
    -- deleting the namespace takes what is inside it and the other ends of its pairs
    have removed (key : LinkKey) :
        h.net.Inside (VmUp.nsName v) key ↔ h.net.Removed
          (fun k => k.1 = some (VmUp.nsName v)) key := by
      apply or_congr_right
      constructor
      · rintro ⟨name, p, here, there⟩
        exact ⟨_, p, rfl, here, there⟩
      · rintro ⟨⟨ns, name⟩, p, rfl, here, there⟩
        exact ⟨name, p, here, there⟩
    constructor
    · apply (Clearing.start wired).removal wired (fun key => .inl) filters
      · exact fun m other => (namespaces m).trans (and_iff_left other)
      · simpa only [removed] using links
    · constructor
      · exact fun there => ((namespaces _).mp there).2 rfl
      · exact fun name => (links _).1 (.inl rfl)
  · rw [same]
    -- it failed, so the namespace is not there, and nothing is inside it
    have missing : VmUp.nsName v ∉ h.net.namespaces := by
      intro there
      obtain ⟨n', step⟩ := netnsDel_there there
      rw [step] at stuck
      cases stuck
    exact ⟨.start wired, missing, fun name =>
      Net.kindAt_none.mp (not_not.mp (mt (wired.inside name) missing))⟩

/-- `ip link del` of the outer end of a stack. -/
theorem del_clears (sound : y.fails = false) (wired : Wired v first n0)
    (clearing : Clearing v n0 h.net) (st : Stack) :
    Clearing v n0 (h.exec y (.net (.del (st.outer v)))).2.net ∧
      Unwired v st (h.exec y (.net (.del (st.outer v)))).2.net ∧
      (h.exec y (.net (.del (st.outer v)))).2.net.namespaces = h.net.namespaces ∧
      ∀ key, h.net.links.lookup key = none →
        (h.exec y (.net (.del (st.outer v)))).2.net.links.lookup key = none := by
  rcases exec_net_sound y (.del (st.outer v)) h sound with ⟨a, step⟩ | ⟨stuck, same⟩
  · obtain ⟨filters, namespaces, links⟩ := del_step step
    have removed (key : LinkKey) :
        h.net.Paired (st.outer v) key ↔ h.net.Removed (· = (none, st.outer v)) key := by
      apply or_congr_right
      constructor
      · rintro ⟨p, here, there⟩
        exact ⟨_, p, rfl, here, there⟩
      · rintro ⟨k, p, rfl, here, there⟩
        exact ⟨p, here, there⟩
    have still (key : LinkKey) (none_ : h.net.links.lookup key = none) :
        (h.exec y (.net (.del (st.outer v)))).2.net.links.lookup key = none := by
      by_cases paired : h.net.Paired (st.outer v) key
      · exact (links key).1 paired
      · rw [(links key).2 paired]
        exact none_
    refine ⟨?_, ⟨(links _).1 (.inl rfl), ?_⟩, namespaces, still⟩
    · apply clearing.removal wired (fun key same => .inr ⟨st, .inl same⟩) filters
      · exact fun m _ => by rw [namespaces]
      · simpa only [removed] using links
    -- an inner end on the host is of the same pair, and goes with it
    · by_cases there : h.net.kindAt (none, st.inner v) = none
      · exact still _ (Net.kindAt_none.mp there)
      · obtain ⟨p, inner, outer⟩ := clearing.inner st there
        exact (links _).1 (.inr ⟨p, outer, inner⟩)
  · rw [same]
    have missing : h.net.links.lookup (none, st.outer v) = none := by
      cases there : h.net.links.lookup (none, st.outer v) with
      | none => rfl
      | some l =>
        obtain ⟨n', step⟩ := del_there there
        rw [step] at stuck
        cases stuck
    refine ⟨clearing, ⟨missing, ?_⟩, rfl, fun _ none_ => none_⟩
    by_contra there
    obtain ⟨p, -, outer⟩ := clearing.inner st (mt Net.kindAt_none.mp there)
    rw [Net.kindAt, missing] at outer
    cases outer

end

/-! ## The take-down -/

/-- No process of the VM. -/
def NoProc (v : Id) (h : Host) : Prop := ∀ p ∈ h.procs, p.vmId ≠ v

theorem NoProc.sublist {v : Id} {h h' : Host} (none_ : NoProc v h)
    (fewer : h'.procs.Sublist h.procs) : NoProc v h' :=
  fun p there => none_ p (fewer.subset there)

theorem down_starts_none {v : Id} {vg : Str} {c : Cmd} (issues : VmDown.Issues v vg c) :
    ∀ vmId ns, c ≠ .popen vmId ns := by
  rintro vmId ns rfl
  cases issues

theorem kill_starts_none {v : Id} {c : Cmd} (issues : Kill.Issues v c) :
    ∀ vmId ns, c ≠ .popen vmId ns := by
  rintro vmId ns rfl
  cases issues

theorem kill_off_net {v : Id} {c : Cmd} (issues : Kill.Issues v c) : ∀ c', c ≠ .net c' := by
  rintro c' rfl
  cases issues

section

variable {y : Nat → Chance} (v : Id)

/-- Processes of the VM other than `pid` are none. -/
def Sole (pid : Nat) (h : Host) : Prop := ∀ p ∈ h.procs, p.vmId = v → p.pid = pid

theorem PidKept.sole {h : Host} {pid : Int} (kept : PidKept v h) (file : h.pidFile v = some pid) :
    Sole v pid.toNat h := by
  intro p there mine
  obtain ⟨named, -⟩ := kept p there mine
  rw [file] at named
  cases named
  rfl

theorem kill_ends {pid : Nat} (s : Nat × Host) (sound : (y s.1).fails = false)
    (alive : (s.2.reap (y s.1).gone).alive pid = true) (sole : Sole v pid s.2) :
    NoProc v (s.2.exec (y s.1) (.kill pid)).2 := by
  have step : Cmd.step (y s.1).out (.kill pid) (s.2.reap (y s.1).gone) = some ((), _) :=
    if_pos alive
  rw [exec_of_step _ _ _ _ _ (.inl sound) step]
  intro p there mine
  obtain ⟨running, other⟩ := List.mem_filter.mp there
  have same := sole p (List.mem_of_mem_filter running) mine
  simp [same] at other

/-- Without a process to kill there is none of the VM. -/
theorem terminate_ends {pid : Nat} (sound : ∀ n, (y n).fails = false) (s : Nat × Host)
    (sole : Sole v pid s.2) :
    wp (killing y) (Kill.terminate pid) (fun _ s' => NoProc v s'.2) s := by
  rw [Kill.terminate, wp_tryCatch, wp_bind, wp_perform]
  intro alive
  have none_ := kill_ends v s (sound s.1) alive sole
  have done := exec_kill (y s.1) pid s.2 (sound s.1) alive
  simp only [execAt, done, onValue_ok]
  have waits := gated_keeps (execAt y) (killsAlive y) (fun s => NoProc v s.2)
    (fun c s issues holds => holds.sublist (procs_exec (y s.1) c s.2 (kill_starts_none issues)))
    (Kill.waitGone_kills v pid 30) (s.1 + 1, (s.2.exec (y s.1) (.kill pid)).2) none_
  refine gated_mono _ _ _ _ _ ?_ _ waits
  rintro (e | _) s' none_'
  · rw [onError_error, wp_ite]
    split <;> exact none_'
  · exact none_'

theorem PidKept.calm {h h' : Host} (kept : PidKept v h) (calm : Calm h h') : PidKept v h' := by
  intro p there mine
  rw [calm.pidFile]
  exact kept p (calm.procs.subset there) mine

/-- A question about the directory. -/
theorem ask_kept {α : Type} (c : DirCmd) (quiet : (Cmd.dir v c).Quiet) {a : c.Res} {s : Nat × Host}
    (kept : PidKept v s.2) (step : c.step (s.2.dirs.lookup v) = some (a, s.2.dirs.lookup v))
    {f : c.Res → Sh α} {Q : Except Exn α → Nat × Host → Prop}
    (rest : ∀ s' : Nat × Host, PidKept v s'.2 → s'.2.pidFile v = s.2.pidFile v →
      s'.2.net = s.2.net →
      wp (killing y) (f a) Q s') : wp (killing y) (dir v c >>= f) Q s := by
  have calm := calm_exec (y s.1) (.dir v c) quiet s.2
  have done : s.2.exec (y s.1) (.dir v c) = _ := exec_dir (y s.1) v c s.2 step
  rw [wp_bind, dir, wp_perform]
  intro _
  have answer : (execAt y (.dir v c) s).1 = .ok a := congrArg Prod.fst done
  rw [answer, onValue_ok]
  exact rest _ (kept.calm v calm) (calm.pidFile v) (exec_net_other _ _ _ fun _ => by rintro ⟨⟩)

theorem kill_stops (sound : ∀ n, (y n).fails = false) (s : Nat × Host) (kept : PidKept v s.2) :
    wp (killing y) (Kill.run v) (fun _ s' => NoProc v s'.2) s := by
  rw [Kill.run]
  refine ask_kept v .hasPid trivial kept rfl fun s' kept' files _ => ?_
  have file' : ((s'.2.dirs.lookup v).bind VmDir.pid) = (s.2.dirs.lookup v).bind VmDir.pid := files
  rw [wp_ite]
  cases file : (s.2.dirs.lookup v).bind VmDir.pid with
  | none =>
    rw [if_neg (by simp)]
    intro p there mine
    obtain ⟨named, -⟩ := kept' p there mine
    rw [Host.pidFile, file', file] at named
    cases named
  | some pid =>
    rw [if_pos (by simp)]
    refine ask_kept v .readPid trivial (a := pid) kept' ?_ fun s'' kept'' files' _ => ?_
    · simp only [DirCmd.step, file', file, Option.map_some]
    have named : s''.2.pidFile v = some pid := (files'.trans files).trans file
    apply gated_then (execAt y) (killsAlive y) (fun s => NoProc v s.2)
    · rw [wp_whenTrue]
      split
      · exact terminate_ends v sound s'' (kept''.sole v named)
      next negative =>
        -- a process of the VM would have a positive pid
        intro p there mine
        obtain ⟨same, positive⟩ := kept'' p there mine
        cases named.symm.trans same
        exact absurd (by simpa using positive) negative
    · exact fun _ _ none_ => none_
    · intro _ t none_
      rw [dir, wp_perform]
      exact fun _ => none_.sublist (procs_exec _ _ _ fun _ _ => by rintro ⟨⟩)

/-- The network as `vm_down` leaves it. -/
structure Down (n0 n : Net) : Prop extends Clearing v n0 n, Bare v n where
  unwired : ∀ st : Stack, Unwired v st n

/-- `except Exception: pass`. -/
theorem safe_then {p : Sh Unit} {Q : Except Exn Unit → Nat × Host → Prop} {s : Nat × Host}
    (h : wp (killing y) p (fun _ => Q (.ok ())) s) : wp (killing y) (VmDown.safe p) Q s := by
  rw [VmDown.safe, wp_tryCatch]
  refine gated_mono _ _ p _ _ ?_ s h
  rintro (e | _) s' post <;> exact post

theorem netns_goes (sound : ∀ n, (y n).fails = false) {first : Nat} {s : Nat × Host}
    (wired : Wired v first s.2.net) {Q : Except Exn Unit → Nat × Host → Prop}
    (rest : ∀ s' : Nat × Host, Clearing v s.2.net s'.2.net → Bare v s'.2.net → Q (.ok ()) s') :
    wp (killing y) (VmDown.safe (Namespace.delete (VmUp.nsName v))) Q s := by
  apply safe_then
  rw [Namespace.delete, net, wp_perform]
  intro _
  obtain ⟨clearing, bare⟩ := netnsDel_clears (sound s.1) wired
  exact rest _ clearing bare

theorem veth_goes (sound : ∀ n, (y n).fails = false) {first : Nat} {n0 : Net}
    (wired : Wired v first n0) {s : Nat × Host} (clearing : Clearing v n0 s.2.net)
    (bare : Bare v s.2.net) (st : Stack) {Q : Except Exn Unit → Nat × Host → Prop}
    (rest : ∀ s' : Nat × Host, Clearing v n0 s'.2.net → Bare v s'.2.net → Unwired v st s'.2.net →
      (∀ st', Unwired v st' s.2.net → Unwired v st' s'.2.net) → Q (.ok ()) s') :
    wp (killing y) (VmDown.safe (Veth.delete (st.outer v))) Q s := by
  apply safe_then
  rw [Veth.delete, net, wp_perform]
  intro _
  obtain ⟨clearing', unwired, namespaces, still⟩ := del_clears (sound s.1) wired clearing st
  apply rest _ clearing' _ unwired
  · exact fun st' gone => ⟨still _ gone.outer, still _ gone.inner⟩
  · constructor
    · exact fun there => bare.namespace_ (namespaces ▸ there)
    · exact fun name => still _ (bare.inside name)

theorem networkDown_clears (sound : ∀ n, (y n).fails = false) {first : Nat} (s : Nat × Host)
    (wired : Wired v first s.2.net) :
    wp (killing y) (VmDown.networkDown v) (fun _ s' => Down v s.2.net s'.2.net) s := by
  rw [VmDown.networkDown, wp_bind]
  apply netns_goes v sound wired
  intro s' clearing bare
  rw [onValue_ok, wp_bind]
  apply veth_goes v sound wired clearing bare .vpc
  intro s'' clearing' bare' vpc _
  rw [onValue_ok]
  apply veth_goes v sound wired clearing' bare' .public_
  intro t clearing'' bare'' public_ still
  refine ⟨clearing'', bare'', fun st => ?_⟩
  cases st with
  | vpc => exact still .vpc vpc
  | public_ => exact public_

theorem remove_gone (sound : ∀ n, (y n).fails = false) (vg name : Str) (s : Nat × Host) :
    wp (killing y) (Lv.remove vg name) (fun _ s' => s'.2.lvs.lookup (vg, name) = none) s := by
  rw [Lv.remove, wp_bind, Lv.exists_, wp_bind, Lv.listLvs, exceptPrivops, wp_tryCatch,
    lvm, wp_perform]
  intro _
  simp only [execAt, exec_lvs _ _ _ _ (sound s.1), onError_ok, onValue_ok, wp_pure, wp_ite]
  split
  next listed =>
    have there := (Lvs.mem_names s.2.lvs vg name).mp (List.contains_iff_mem.mp listed)
    rw [lvm, wp_perform]
    intro _
    have removed := exec_remove (y (s.1 + 1)) vg name (s.2.reap (y s.1).gone) (sound _) there
    simp only [execAt, removed]
    exact AList.lookup_erase _ _
  next missing =>
    by_contra there
    exact missing (List.contains_iff_mem.mpr ((Lvs.mem_names s.2.lvs vg name).mpr there))

/-- The directory goes, and then the root disk. -/
theorem envTeardown_removes (sound : ∀ n, (y n).fails = false) (vg : Str) (s : Nat × Host) :
    wp (killing y) (EnvTeardown.run v vg)
      (fun _ s' => s'.2.dirs.lookup v = none ∧ s'.2.lvs.lookup (vg, Names.rootfs v) = none) s := by
  rw [EnvTeardown.run, wp_bind]
  refine dir_killing rfl fun s' same => ?_
  rw [onValue_ok]
  rw [wp_bind]
  have gone : wp (killing y) (whenTrue (s.2.dirs.lookup v).isSome (dir v .rmtree))
      (fun r s'' => r = .ok () ∧ s''.2.dirs.lookup v = none) s' := by
    rw [wp_whenTrue]
    split
    · exact dir_killing (a := ()) (d := none) rfl fun _ gone => ⟨rfl, gone⟩
    next missing => exact ⟨rfl, same.trans (Option.not_isSome_iff_eq_none.mp missing)⟩
  refine gated_mono _ _ _ _ _ ?_ s' gone
  rintro _ t ⟨rfl, none_⟩
  refine gated_mono _ _ _ _ _ ?_ t (gated_and _ _ (remove_leaves sound vg _ v t)
    (remove_gone sound vg _ t))
  exact fun _ t' post => ⟨post.1.2.trans none_, post.2⟩

/-- What is left of a VM after its take-down: nothing. -/
structure Gone (vg : Str) (h : Host) : Prop where
  directory : h.dirs.lookup v = none
  rootfs : h.lvs.lookup (vg, Names.rootfs v) = none
  process : NoProc v h
  namespace_ : VmUp.nsName v ∉ h.net.namespaces
  inside : ∀ name, h.net.links.lookup (some (VmUp.nsName v), name) = none
  ends_ : ∀ st : Stack, h.net.links.lookup (none, st.outer v) = none ∧
    h.net.links.lookup (none, st.inner v) = none

/-- The process goes first, then the network, then the directory and the root disk. -/
theorem vmDown_removes (sound : ∀ n, (y n).fails = false) (vg : Str) {first : Nat} (s : Nat × Host)
    (wired : Wired v first s.2.net) (kept : PidKept v s.2) :
    wp (killing y) (VmDown.run v vg)
      (fun r s' => r = .ok () → Gone v vg s'.2 ∧ Clearing v s.2.net s'.2.net) s := by
  rw [VmDown.run]
  refine ask_kept v .exists_ trivial kept rfl fun s' kept' files net' => ?_
  have killed : wp (killing y) (whenTrue (s.2.dirs.lookup v).isSome (Kill.run v))
      (fun _ t => NoProc v t.2 ∧ t.2.net = s.2.net) s' := by
    rw [wp_whenTrue]
    split
    · refine gated_and _ _ (kill_stops v sound s' kept') ?_
      refine gated_keeps (execAt y) (killsAlive y)
        (fun t => t.2.net = s.2.net) ?_ (Kill.run_kills v) s' net'
      exact fun c t issues same => (exec_net_other _ c _ (kill_off_net issues)).trans same
    next missing =>
      refine ⟨fun p there mine => ?_, net'⟩
      -- without a directory there is no pid file
      obtain ⟨named, -⟩ := kept' p there mine
      rw [files, Host.pidFile, Option.not_isSome_iff_eq_none.mp missing] at named
      cases named
  refine gated_then _ _ _ killed (fun e _ _ => by rintro ⟨⟩) ?_
  rintro _ t ⟨none_, same⟩
  have downed : wp (killing y) (VmDown.networkDown v) (fun _ t => NoProc v t.2 ∧
      Down v s.2.net t.2.net) t := by
    refine gated_and _ _ ?_ ?_
    · exact gated_keeps (execAt y) (killsAlive y) (fun t => NoProc v t.2)
        (fun c t issues holds => holds.sublist (procs_exec _ c _ (down_starts_none issues)))
        (VmDown.networkDown_only v vg) t none_
    · have cleared := networkDown_clears v sound t (same ▸ wired)
      rwa [same] at cleared
  refine gated_then _ _ _ downed (fun e _ _ => by rintro ⟨⟩) ?_
  rintro _ t ⟨none_, down⟩
  have frame := gated_keeps (execAt y) (killsAlive y) (fun t => NoProc v t.2 ∧
    Down v s.2.net t.2.net)
    (fun c t issues holds => ?_) (EnvTeardown.run_only v vg) t ⟨none_, down⟩
  · refine gated_mono _ _ _ _ _ ?_ t (gated_and _ _ (envTeardown_removes v sound vg t) frame)
    rintro _ t' ⟨⟨directory, rootfs⟩, none_', down'⟩ _
    refine ⟨?_, down'.toClearing⟩
    constructor
    · exact directory
    · exact rootfs
    · exact none_'
    · exact down'.namespace_
    · exact down'.inside
    · exact fun st => ⟨(down'.unwired st).outer, (down'.unwired st).inner⟩
  · have off : ∀ c', c ≠ .net c' := by
      rintro c' rfl
      cases issues with
      | removes _ known => cases known
    have net_ : (execAt y c t).2.2.net = t.2.net := exec_net_other _ c _ off
    refine ⟨holds.1.sublist (procs_exec _ c _
      (down_starts_none (VmDown.of_teardown v vg c issues))), ?_⟩
    rw [net_]
    exact holds.2

theorem down_alters {vg : Str} {c : Cmd} (issues : VmDown.Issues v vg c) {key : Str × Str}
    (other : key ≠ (vg, Names.rootfs v)) : ¬ c.alters key := by
  intro alters
  cases issues with
  | remove => exact other (Eq.symm alters)
  | _ => exact alters

end

/-- The volumes, links, chains and rules that are not the VM's own are as they were. -/
structure Spared (spec : VmSpec) (h h' : Host) : Prop where
  /-- The data volumes and the golden images among them. -/
  lvs : ∀ key, key ≠ (spec.vg, Names.rootfs spec.vmId) → h'.lvs.lookup key = h.lvs.lookup key
  bridge : h'.net.links.lookup (none, Bridge.nameFor spec.nodeId spec.vpcId) =
    h.net.links.lookup (none, Bridge.nameFor spec.nodeId spec.vpcId)
  vxlan : h'.net.links.lookup (none, Vxlan.nameFor spec.nodeId spec.vpcId) =
    h.net.links.lookup (none, Vxlan.nameFor spec.nodeId spec.vpcId)
  links : ∀ key, ¬ Own spec.vmId key → h'.net.links.lookup key = h.net.links.lookup key
  namespaces : ∀ m, m ≠ VmUp.nsName spec.vmId → (m ∈ h'.net.namespaces ↔ m ∈ h.net.namespaces)
  filters : SameFilters h.net h'.net

theorem device_not_own {v : Id} {name : Str} (third : name[2]? = some '-') :
    ¬ Own v (none, name) := by
  rintro (inside | ⟨st, same | same⟩)
  · cases inside
  · exact (Wired.device_name third st).1 (congrArg Prod.snd same)
  · exact (Wired.device_name third st).2 (congrArg Prod.snd same)

/-- Nothing of the VM is on the host before it is brought up; an old directory or root disk may
be. -/
structure Fresh (v : Id) (h : Host) : Prop where
  process : NoProc v h
  links : ∀ key, Own v key → h.net.kindAt key = none

/-- The host after `vm_up`, however it ended, and a `vm_down`. -/
def takenDown (x y : Nat → Chance) (spec : VmSpec) (h : Host) : Except Exn Unit × Nat × Host :=
  run (execAt y) (VmDown.run spec.vmId spec.vg) (0, broughtUp x spec h)

/-- Wherever the bring-up ends, a take-down whose commands succeed returns, leaves nothing of the VM
and spares the rest. The first surroundings are any, and cut the bring-up off at any command. -/
theorem down_clears (x y : Nat → Chance) (spec : VmSpec) (h : Host) (reached : HostReached h)
    (fresh : Fresh spec.vmId h) (sound : ∀ n, (y n).fails = false)
    (alive : ∀ a ∈ trail (execAt y) (VmDown.run spec.vmId spec.vg) (0, broughtUp x spec h),
      killsAlive y a.1 a.2) :
    (takenDown x y spec h).1 = .ok () ∧ Gone spec.vmId spec.vg (takenDown x y spec h).2.2 ∧
      Spared spec (broughtUp x spec h) (takenDown x y spec h).2.2 := by
  have kernel := reached.kernel
  -- the bring-up leaves the links and the pid file as it made them, wherever it stopped
  have wired : Wired spec.vmId h.net.pairs (broughtUp x spec h).net :=
    broughtUp_wired x spec (.start kernel.pairs fresh.links)
  have kept : PidKept spec.vmId (broughtUp x spec h) :=
    broughtUp_pid x spec ⟨kernel.pids, fresh.process⟩
  have clean := wp_gated _ _ _ _ _ (vmDown_clean sound spec.vmId spec.vg
    (0, broughtUp x spec h)) alive
  have removes := wp_gated _ _ _ _ _ (vmDown_removes spec.vmId sound spec.vg
    (0, broughtUp x spec h) wired kept) alive
  -- of the volumes only the root disk is removed
  have lvs := sequential_keeps (execAt y)
    (fun s => ∀ key, key ≠ (spec.vg, Names.rootfs spec.vmId) →
      s.2.lvs.lookup key = (broughtUp x spec h).lvs.lookup key)
    (fun c s issues same key other =>
      (exec_lookup (y s.1) c s.2 key (down_alters _ issues other)).trans (same key other))
    (VmDown.run_only spec.vmId spec.vg) (0, broughtUp x spec h) fun _ _ => rfl
  obtain ⟨gone, clearing⟩ := removes clean.1
  refine ⟨clean.1, gone, ?_⟩
  constructor
  · exact (wp_sequential ..).mp lvs
  · exact clearing.left _ (device_not_own rfl)
  · exact clearing.left _ (device_not_own rfl)
  · exact clearing.left
  · exact clearing.namespaces
  · exact clearing.filters

/-- The process of a VM that was brought up lives until it is killed. -/
theorem sample_kills : ∀ a ∈ trail (execAt (exitsAt 90)) (VmDown.run "v1" "nyc")
    (0, broughtUp (exitsAt 80) sampleSpec sampleHost),
      killsAlive (exitsAt 90) a.1 a.2 := by decide +kernel

theorem sample_cleared :
    Gone "v1" "nyc" (takenDown (exitsAt 80) (exitsAt 90) sampleSpec sampleHost).2.2 :=
  (down_clears (exitsAt 80) (exitsAt 90) sampleSpec sampleHost (.booted _ rfl rfl rfl)
    ⟨fun _ there => absurd there List.not_mem_nil, fun _ _ => rfl⟩ (fun _ => rfl) sample_kills).2.1

end Nyc.Client
