import Nyc.Properties.Addresses
import Nyc.Python.IpText

/-!
# The walk of `pick_ip`

The hosts of a network are walked from the first one on, and different hosts print differently, so
that the walk ends at the least free one after as many hosts as there are addresses in use. A
network of one host has a list for its hosts, of which `next` takes nothing.
-/

namespace Nyc.HostScan

open Client.Allocate
open IpAddress (Network format format_inj)

variable {n : Network}

/-! ## The hosts -/

/-- Where the addresses of the network end. -/
theorem end_le (n : Network) :
    n.address + 2 ^ (n.version.bits - n.prefixlen) ≤ 2 ^ n.version.bits := by
  obtain ⟨q, same⟩ := Nat.dvd_of_mod_eq_zero n.aligned
  have whole : 2 ^ (n.version.bits - n.prefixlen) * 2 ^ n.prefixlen = 2 ^ n.version.bits := by
    rw [← Nat.pow_add, Nat.sub_add_cancel n.within]
  have fits := n.fits
  rw [same, ← whole] at fits
  have below : q < 2 ^ n.prefixlen := Nat.lt_of_mul_lt_mul_left fits
  calc n.address + 2 ^ (n.version.bits - n.prefixlen)
      = 2 ^ (n.version.bits - n.prefixlen) * (q + 1) := by rw [Nat.mul_add, Nat.mul_one, ← same]
    _ ≤ 2 ^ (n.version.bits - n.prefixlen) * 2 ^ n.prefixlen := Nat.mul_le_mul_left _ below
    _ = 2 ^ n.version.bits := whole

/-- The hosts are what `hosts()` walks over. -/
theorem isHost_iff (host : Nat) :
    n.IsHost host ↔ n.hosts.1 ≤ host ∧ host < n.hosts.1 + n.hosts.2 := by
  constructor
  · rintro ⟨above, below, notFirst, notLast⟩
    by_cases small : n.version.bits ≤ n.prefixlen + 1
    · simp only [Network.hosts, if_pos small]
      exact ⟨above, below⟩
    · have other := notFirst (by omega)
      simp only [Network.hosts, if_neg small]
      cases version : n.version with
      | v4 =>
        have last := notLast (by omega) version
        rw [version] at below last
        simp only
        omega
      | v6 =>
        rw [version] at below
        simp only
        omega
  · rintro ⟨above, below⟩
    exact n.isHost_of_hosts host above below

theorem hosts_pos (n : Network) : 0 < n.hosts.2 := by
  by_cases small : n.version.bits ≤ n.prefixlen + 1
  · simp only [Network.hosts, if_pos small]
    exact Nat.pow_pos (by decide)
  · have two : 2 ^ 2 ≤ 2 ^ (n.version.bits - n.prefixlen) := Nat.pow_le_pow_right
      (by decide) (by omega)
    simp only [Network.hosts, if_neg small]
    cases version : n.version with
    | v4 =>
      rw [version] at two
      simp only
      omega
    | v6 =>
      rw [version] at two
      simp only
      omega

/-- The gateway is the least host. -/
def First (n : Network) (host : Nat) : Prop :=
  n.IsHost host ∧ ∀ other, n.IsHost other → host ≤ other

theorem first_iff (host : Nat) : First n host ↔ host = n.hosts.1 := by
  have start : n.IsHost n.hosts.1 :=
    (isHost_iff _).mpr ⟨Nat.le_refl _, by have := hosts_pos n; omega⟩
  constructor
  · rintro ⟨isHost, least⟩
    exact Nat.le_antisymm (least _ start) ((isHost_iff host).mp isHost).1
  · rintro rfl
    exact ⟨start, fun other isHost => ((isHost_iff other).mp isHost).1⟩

/-- Different hosts print differently. -/
theorem hostText_inj {host other : Nat} (isHost : n.IsHost host) (isHost' : n.IsHost other)
    (same : n.hostText host = n.hostText other) : host = other := by
  have most := end_le n
  have below := isHost.below
  have below' := isHost'.below
  rw [Network.hostText, Network.hostText, List.append_cancel_right_eq] at same
  exact format_inj n.version (by omega) (by omega) same

/-! ## What is picked -/

/-- A host that is neither the gateway nor in use. -/
structure Open (n : Network) (used : List Str) (host : Nat) : Prop where
  isHost : n.IsHost host
  notFirst : ¬ First n host
  unused : n.hostText host ∉ used

/-- How many of `count` hosts from `host` on the walk takes. -/
def examined (n : Network) (gw : Str) (used : List Str) : Nat → Nat → Nat
  | 0, _ => 0
  | count + 1, host =>
    if n.hostText host ≠ gw ∧ n.hostText host ∉
      used then 1 else examined n gw used count (host + 1) + 1

theorem examined_succ (n : Network) (gw : Str) (used : List Str) (count host : Nat) :
    examined n gw used (count + 1) host =
      if n.hostText host ≠ gw ∧ n.hostText host ∉ used then 1 else examined n gw used count
        (host + 1) + 1 := rfl

/-- The least open host, which is the last one that the walk takes, after no more hosts than needed,
or `RuntimeError` where all are in use. -/
structure Picks (cidr : Str) (n : Network) (used : List Str) : Prop where
  least : ∀ ip, pickIp cidr used = .ok ip ↔
    ∃ host, Open n used host ∧ (∀ other, Open n used other → host ≤ other) ∧ ip = n.hostText host
  full : (∃ message, pickIp cidr used = .error (.runtime message)) ↔
    ∀ host, n.IsHost host → ¬ First n host → n.hostText host ∈ used
  few : examined n (n.hostText n.hosts.1) used n.hosts.2 n.hosts.1 ≤ used.dedup.length + 2
  last : ∀ ip, pickIp cidr used = .ok ip →
    ip = n.hostText (n.hosts.1 + examined n (n.hostText n.hosts.1) used n.hosts.2 n.hosts.1 - 1)

/-! ## The walk -/

section

variable {gw : Str} {used : List Str}

theorem firstFree_some_iff {count start : Nat} {ip : Str} :
    firstFree n gw used count start = some ip ↔
    ∃ host, (start ≤ host ∧ host < start + count) ∧
      (n.hostText host ≠ gw ∧ n.hostText host ∉ used) ∧
      (∀ other, start ≤ other → other < host →
        ¬ (n.hostText other ≠ gw ∧ n.hostText other ∉ used)) ∧
      ip = n.hostText host := by
  induction count generalizing start with
  | zero =>
    constructor
    · intro found
      cases found
    · rintro ⟨host, ⟨above, below⟩, -⟩
      omega
  | succ count ih =>
    rw [firstFree_succ]
    split
    next free =>
      constructor
      · intro found
        cases found
        exact ⟨start, ⟨Nat.le_refl _, by omega⟩, free, fun other above below => by omega, rfl⟩
      · rintro ⟨host, ⟨above, below⟩, -, least, rfl⟩
        -- an earlier free host would be the least one
        have same : host = start := by
          by_contra other
          exact least start (Nat.le_refl _) (by omega) free
        rw [same]
    next taken =>
      rw [ih]
      constructor
      · rintro ⟨host, ⟨above, below⟩, free, least, same⟩
        refine ⟨host, ⟨by omega, by omega⟩, free, fun other above' below' => ?_, same⟩
        by_cases first : other = start
        · rw [first]
          exact taken
        · exact least other (by omega) below'
      · rintro ⟨host, ⟨above, below⟩, free, least, same⟩
        have later : host ≠ start := by
          rintro rfl
          exact taken free
        exact ⟨host, ⟨by omega, by omega⟩, free, fun other above' below' => least other
          (by omega) below', same⟩

theorem firstFree_none_iff {count start : Nat} : firstFree n gw used count start = none ↔
    ∀ host, start ≤ host → host < start + count →
      ¬ (n.hostText host ≠ gw ∧ n.hostText host ∉ used) := by
  induction count generalizing start with
  | zero =>
    constructor
    · intro _ host above below
      omega
    · exact fun _ => rfl
  | succ count ih =>
    rw [firstFree_succ]
    split
    next free =>
      constructor
      · intro none
        cases none
      · intro all
        exact absurd free (all start (Nat.le_refl _) (by omega))
    next taken =>
      rw [ih]
      constructor
      · intro all host above below
        by_cases first : host = start
        · rw [first]
          exact taken
        · exact all host (by omega) (by omega)
      · intro all host above below
        exact all host (by omega) (by omega)

/-- The host that is found is the last one that the walk takes. -/
theorem firstFree_last {count start : Nat} {ip : Str}
    (found : firstFree n gw used count start = some ip) :
    ∃ host, ip = n.hostText host ∧ host + 1 = start + examined n gw used count start := by
  induction count generalizing start with
  | zero => cases found
  | succ count ih =>
    rw [firstFree_succ] at found
    rw [examined_succ]
    split at found
    next free =>
      cases found
      rw [if_pos free]
      exact ⟨start, rfl, rfl⟩
    next taken =>
      obtain ⟨host, same, last⟩ := ih found
      rw [if_neg taken]
      exact ⟨host, same, by omega⟩

/-- All hosts of the walk but the last one are the gateway or in use. -/
theorem examined_taken (n : Network) (gw : Str) (used : List Str) (count start : Nat) :
    examined n gw used count start ≤ count ∧
    ∀ host, start ≤ host → host + 1 < start + examined n gw used count start →
      ¬ (n.hostText host ≠ gw ∧ n.hostText host ∉ used) := by
  induction count generalizing start with
  | zero =>
    refine ⟨Nat.le_refl _, fun host above below => ?_⟩
    have : examined n gw used 0 start = 0 := rfl
    omega
  | succ count ih =>
    obtain ⟨most, all⟩ := ih (start + 1)
    rw [examined_succ]
    split
    next free => exact ⟨by omega, fun host above below => by omega⟩
    next taken =>
      refine ⟨by omega, fun host above below => ?_⟩
      by_cases first : host = start
      · rw [first]
        exact taken
      · exact all host (by omega) (by omega)

end

/-- As many hosts are passed over as there are addresses in use, and the gateway. -/
theorem examined_le (gw : Str) (used : List Str) :
    examined n gw used n.hosts.2 n.hosts.1 ≤ used.dedup.length + 2 := by
  obtain ⟨most, taken⟩ := examined_taken n gw used n.hosts.2 n.hosts.1
  let passed := examined n gw used n.hosts.2 n.hosts.1 - 1
  have isHost (i : Nat) (small : i < passed) : n.IsHost (n.hosts.1 + i) :=
    (isHost_iff _).mpr ⟨by omega, by omega⟩
  have once : ((List.range passed).map fun i => n.hostText (n.hosts.1 + i)).Nodup := by
    apply List.Nodup.map_on _ List.nodup_range
    intro i there j there' same
    have equal := hostText_inj (isHost i (List.mem_range.mp there))
      (isHost j (List.mem_range.mp there')) same
    omega
  have within : (List.range passed).map (fun i => n.hostText (n.hosts.1 + i)) ⊆
      gw :: used.dedup := by
    intro text there
    obtain ⟨i, small, rfl⟩ := List.mem_map.mp there
    have small' := List.mem_range.mp small
    by_cases gateway : n.hostText (n.hosts.1 + i) = gw
    · exact gateway ▸ List.mem_cons_self
    · have busy := taken (n.hosts.1 + i) (by omega) (by omega)
      apply List.mem_cons_of_mem
      apply List.mem_dedup.mpr
      by_contra unused
      exact busy ⟨gateway, unused⟩
  have lengths := (List.subperm_of_subset once within).length_le
  rw [List.length_map, List.length_range, List.length_cons] at lengths
  omega

/-! ## `pick_ip` -/

section

variable {cidr : Str} {used : List Str} (accepted : network cidr = .ok n)

include accepted

theorem gateway_ok (several : n.prefixlen ≠ n.version.bits) :
    gateway cidr = .ok (n.hostText n.hosts.1) := by
  rw [gateway, accepted]
  simp only [bind, Except.bind, if_neg several]
  rfl

theorem pickIp_some (several : n.prefixlen ≠ n.version.bits) {ip : Str}
    (found : firstFree n (n.hostText n.hosts.1) used n.hosts.2 n.hosts.1 = some ip) :
    pickIp cidr used = .ok
      ip := by
  rw [pickIp, accepted, gateway_ok accepted several]
  simp only [bind, Except.bind, found]
  rfl

theorem pickIp_none (several : n.prefixlen ≠ n.version.bits)
    (none : firstFree n (n.hostText n.hosts.1) used n.hosts.2 n.hosts.1 = none) :
    pickIp cidr used = .error (.runtime ("VPC " ++ cidr ++ " is full")) := by
  rw [pickIp, accepted, gateway_ok accepted several]
  simp only [bind, Except.bind, none]
  rfl

/-- `next` of a list. -/
theorem pickIp_single (single : n.prefixlen = n.version.bits) :
    pickIp cidr used = .error .typeError := by
  rw [pickIp, gateway, accepted]
  simp only [bind, Except.bind, if_pos single]
  rfl

omit accepted

/-- The test of the walk. -/
theorem free_iff {host : Nat} (isHost : n.IsHost host) :
    (n.hostText host ≠ n.hostText n.hosts.1 ∧ n.hostText host ∉ used) ↔ Open n used host := by
  have start : n.IsHost n.hosts.1 := ((first_iff _).mpr rfl).1
  constructor
  · rintro ⟨other, unused⟩
    refine ⟨isHost, fun first => other ?_, unused⟩
    rw [(first_iff host).mp first]
  · rintro ⟨-, notFirst, unused⟩
    refine ⟨fun same => notFirst ?_, unused⟩
    exact (first_iff host).mpr (hostText_inj isHost start same)

theorem open_bounds {host : Nat}
    (open_ : Open n used host) : n.hosts.1 ≤ host ∧ host < n.hosts.1 + n.hosts.2 :=
  (isHost_iff host).mp open_.isHost

/-- What the walk finds. -/
theorem walk_some_iff {ip : Str} :
    firstFree n (n.hostText n.hosts.1) used n.hosts.2 n.hosts.1 = some ip ↔
    ∃ host, Open n used host ∧ (∀ other, Open n used other → host ≤ other) ∧
      ip = n.hostText host := by
  rw [firstFree_some_iff]
  constructor
  · rintro ⟨host, ⟨above, below⟩, free, least, same⟩
    have isHost := (isHost_iff host).mpr ⟨above, below⟩
    refine ⟨host, (free_iff isHost).mp free, fun other open_ => ?_, same⟩
    by_contra earlier
    exact least other (open_bounds open_).1 (by omega) ((free_iff open_.isHost).mpr open_)
  · rintro ⟨host, open_, least, same⟩
    refine ⟨host, open_bounds open_, (free_iff open_.isHost).mpr open_,
      fun other above below free => ?_, same⟩
    have bounds := open_bounds open_
    have isHost := (isHost_iff other).mpr ⟨above, by omega⟩
    have := least other ((free_iff isHost).mp free)
    omega

theorem walk_none_iff : firstFree n (n.hostText n.hosts.1) used n.hosts.2 n.hosts.1 = none ↔
    ∀ host, n.IsHost host → ¬ First n host → n.hostText host ∈ used := by
  rw [firstFree_none_iff]
  constructor
  · intro all host isHost notFirst
    obtain ⟨above, below⟩ := (isHost_iff host).mp isHost
    by_contra unused
    exact all host above below ((free_iff isHost).mpr ⟨isHost, notFirst, unused⟩)
  · intro full host above below free
    have isHost := (isHost_iff host).mpr ⟨above, below⟩
    have open_ := (free_iff isHost).mp free
    exact open_.unused (full host isHost open_.notFirst)

end

/-- With any addresses in use, in every network that is not a single address, and in no other. -/
theorem picks_iff (cidr : Str) (n : Network) (accepted : network cidr = .ok n) (used : List Str) :
    Picks cidr n used ↔ n.prefixlen ≠ n.version.bits := by
  constructor
  · intro picks single
    -- the only host is the gateway, so that the network counts as full
    have full : ∀ host, n.IsHost host → ¬ First n host → n.hostText host ∈ used := by
      intro host isHost notFirst
      have one : n.hosts.2 = 1 := by
        have small : n.version.bits ≤ n.prefixlen + 1 := by omega
        simp only [Network.hosts, if_pos small]
        rw [single, Nat.sub_self, Nat.pow_zero]
      have bounds := (isHost_iff host).mp isHost
      exact absurd ((first_iff host).mpr (by omega)) notFirst
    obtain ⟨message, raised⟩ := picks.full.mpr full
    rw [pickIp_single accepted single] at raised
    cases raised
  · intro several
    cases walk : firstFree n (n.hostText n.hosts.1) used n.hosts.2 n.hosts.1 with
    | some ip =>
      have picked := pickIp_some accepted several walk
      constructor
      · intro ip'
        rw [← walk_some_iff, walk, picked, Except.ok.injEq, Option.some_inj]
      · rw [← walk_none_iff, walk, picked]
        constructor
        · rintro ⟨message, raised⟩
          cases raised
        · intro none
          cases none
      · exact examined_le _ _
      · intro ip' got
        rw [picked] at got
        cases got
        obtain ⟨host, same, last⟩ := firstFree_last walk
        rw [same, ← last, Nat.add_sub_cancel]
    | none =>
      have raised := pickIp_none accepted several walk
      constructor
      · intro ip'
        rw [← walk_some_iff, walk, raised]
        constructor <;> intro none <;> cases none
      · rw [← walk_none_iff, walk, raised]
        exact ⟨fun _ => rfl, fun _ => ⟨_, rfl⟩⟩
      · exact examined_le _ _
      · intro ip' got
        rw [raised] at got
        cases got

def block : Network := ⟨.v4, 167772160, 29, [], by decide, by decide, by decide⟩

theorem block_picks : Picks "10.0.0.0/29" block ["10.0.0.2"] :=
  (picks_iff "10.0.0.0/29" block rfl ["10.0.0.2"]).mpr (by decide)

def single : Network := ⟨.v4, 167772167, 32, [], by decide, by decide, by decide⟩

/-- The one host is the gateway, and `pick_ip` raises `TypeError`. -/
theorem single_fails : network "10.0.0.7/32" = .ok single ∧ ¬ Picks "10.0.0.7/32" single [] := by
  refine ⟨rfl, fun picks => ?_⟩
  have full : ∀ host, single.IsHost host → ¬ First single host →
      single.hostText host ∈ ([] : List Str) := by
    intro host isHost notFirst
    have one : host = 167772167 := Nat.le_antisymm (Nat.lt_succ_iff.mp isHost.below) isHost.above
    exact absurd ((first_iff (n := single) host).mpr (one.trans rfl)) notFirst
  obtain ⟨message, raised⟩ := picks.full.mpr full
  have error : pickIp "10.0.0.7/32" [] = .error .typeError := rfl
  rw [error] at raised
  cases raised

end Nyc.HostScan
