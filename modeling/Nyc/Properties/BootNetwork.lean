import Nyc.Client.Vm
import Nyc.Properties.HostScan

/-!
# One network in the bridge and in the guest

The address of the bridge takes the prefix length from the text of the CIDR, and the guest takes
the netmask from the network that the text is parsed to, in a field that is split on colons.
-/

namespace Nyc.BootNetwork

open Client Client.Allocate
open IpAddress (Network formatV4 colon_mem_formatV6 colon_not_mem_formatV4)

/-! ## Agreement -/

/-- What stands before the `ip=` field. -/
def KERNEL : Str := "console=ttyS0 reboot=k panic=1 pci=off ip="

/-- The fields of `ip=`: client, server, gateway, netmask, host name, device, autoconf and DNS. -/
def ipFields (ip gw mask dns : Str) : List Str := [ip, "", gw, mask, "", "eth0", "off", dns]

/-- The bridge and the guest have the gateway and the prefix of one network. -/
structure Agree (cidr : Str) (n : Network) (ip dns : Str) : Prop where
  bridge : gatewayCidr cidr = .ok (n.hostText n.hosts.1 ++ "/" ++ Nat.toDigits 10 n.prefixlen)
  guest : ∀ cfg : VmConfig, cfg.cidr = cidr → cfg.guestIp = ip → cfg.dns = dns →
    ∃ field, cfg.bootArgs = .ok (KERNEL ++ field) ∧
      field.splitOn ':' = ipFields ip (n.hostText n.hosts.1) n.netmask dns

/-- For every address that `pick_ip` can return. -/
def Agrees (cidr : Str) (n : Network) : Prop :=
  ∀ used ip dns, pickIp cidr used = .ok ip → ':' ∉ dns → Agree cidr n ip dns

/-- An IPv4 network whose text ends in its prefix length, in decimal. -/
def Plain (cidr : Str) (n : Network) : Prop :=
  n.version = .v4 ∧ ∃ addr, cidr.splitOn '/' = [addr, Nat.toDigits 10 n.prefixlen]

/-! ## The text of the CIDR -/

section

variable {cidr : Str} {n : Network} (accepted : network cidr = .ok n)

include accepted

theorem ipNetwork_ok : IpAddress.ipNetwork cidr = .ok n := by
  rw [network] at accepted
  split at accepted
  next n' parsed =>
    cases accepted
    exact parsed
  next => cases accepted

/-- The family in which the text was parsed. -/
theorem parsed :
    ∃ address, IpAddress.parseNetwork n.version cidr = some (address, n.prefixlen) := by
  have ok := ipNetwork_ok accepted
  have one (v : IpAddress.Version) (found : IpAddress.ofVersion v cidr = some (.ok n)) :
      ∃ address, IpAddress.parseNetwork n.version cidr = some (address, n.prefixlen) := by
    obtain ⟨⟨address, prefixlen⟩, here, rest⟩ := Option.bind_eq_some_iff.mp found
    dsimp only at rest
    split at rest
    next =>
      split at rest
      next =>
        split at rest
        next =>
          cases rest
          exact ⟨address, here⟩
        next => cases rest
      next => cases rest
    next => cases rest
  -- the text is tried as IPv4 first, and as IPv6 where that fails
  rw [IpAddress.ipNetwork] at ok
  cases first : IpAddress.ofVersion .v4 cidr with
  | some r =>
    rw [first, Option.some_or] at ok
    exact one .v4 (by rw [first, show r = .ok n from ok])
  | none =>
    rw [first, Option.none_or] at ok
    cases second : IpAddress.ofVersion .v6 cidr with
    | some r =>
      rw [second] at ok
      exact one .v6 (by rw [second, show r = .ok n from ok])
    | none =>
      rw [second] at ok
      cases ok

/-- A bare address, or an address and what stands after the slash. -/
theorem split_cidr : (∃ addr, cidr.splitOn '/' = [addr] ∧ n.prefixlen = n.version.bits) ∨
    ∃ addr len, cidr.splitOn '/' = [addr, len] := by
  obtain ⟨address, here⟩ := parsed accepted
  rw [IpAddress.parseNetwork] at here
  split at here
  next addr split_ =>
    obtain ⟨_, -, same⟩ := Option.map_eq_some_iff.mp here
    exact .inl ⟨addr, split_, (Prod.mk.inj same).2.symm⟩
  next addr len split_ => exact .inr ⟨addr, len, split_⟩
  next => cases here

/-- What is written after the slash, where an address can be picked. -/
theorem gatewayCidr_eq (several : n.prefixlen ≠ n.version.bits) :
    ∃ addr len, cidr.splitOn '/' = [addr, len] ∧
    gatewayCidr cidr = .ok (n.hostText n.hosts.1 ++ "/" ++ len) := by
  rcases split_cidr accepted with ⟨addr, -, single⟩ | ⟨addr, len, split_⟩
  · exact absurd single several
  · refine ⟨addr, len, split_, ?_⟩
    rw [gatewayCidr, HostScan.gateway_ok accepted several, split_]
    rfl

/-- The boot arguments are put together from the parsed network. -/
theorem bootArgs_eq (several : n.prefixlen ≠ n.version.bits) (cfg : VmConfig)
    (same : cfg.cidr = cidr) :
    cfg.bootArgs = .ok (KERNEL ++ (cfg.guestIp ++
      ':' :: (':' :: (n.hostText n.hosts.1 ++ ":" ++ n.netmask ++
      "::eth0:off:" ++ cfg.dns)))) := by
  rw [VmConfig.bootArgs, same, HostScan.gateway_ok accepted several, netmask, accepted]
  have cut : ("console=ttyS0 reboot=k panic=1 pci=off ip=" : Str) = KERNEL := rfl
  have colons : ("::" : Str) = [':', ':'] := rfl
  simp only [bind, Except.bind, pure, Except.pure, cut, colons, List.append_assoc, List.cons_append,
    List.nil_append]

/-- The second host can be picked. -/
theorem picks_one (several : n.prefixlen ≠ n.version.bits) : ∃ ip, pickIp cidr [] = .ok ip := by
  have two : 2 ≤ n.hosts.2 := by
    have within := n.within
    by_cases small : n.version.bits ≤ n.prefixlen + 1
    · have one : n.version.bits - n.prefixlen = 1 := by omega
      simp only [Network.hosts, if_pos small, one]
      decide
    · have size : 2 ^ 2 ≤ 2 ^ (n.version.bits - n.prefixlen) := Nat.pow_le_pow_right
        (by decide) (by omega)
      simp only [Network.hosts, if_neg small]
      cases version : n.version with
      | v4 | v6 =>
        rw [version] at size
        simp only
        omega
  cases walk : firstFree n (n.hostText n.hosts.1) [] n.hosts.2 n.hosts.1 with
  | some ip => exact ⟨ip, HostScan.pickIp_some accepted several walk⟩
  | none =>
    have second : n.IsHost (n.hosts.1 + 1) := (HostScan.isHost_iff _).mpr ⟨by omega, by omega⟩
    have notFirst : ¬ HostScan.First n (n.hosts.1 + 1) := fun first => by
      have := (HostScan.first_iff _).mp first
      omega
    exact absurd (HostScan.walk_none_iff.mp walk _ second notFirst) List.not_mem_nil

theorem picked_text {used : List Str} {ip : Str} (picked : pickIp cidr used = .ok ip) :
    ∃ host, ip = n.hostText host := by
  obtain ⟨⟨n', gw, known, -, -, host, -, text⟩, -⟩ := pickIp_ok picked
  rw [accepted] at known
  cases known
  exact ⟨host, text⟩

end

/-! ## The fields -/

section

variable {n : Network}

theorem colon_not_mem_hostText (v4 : n.version = .v4) (host : Nat) : ':' ∉ n.hostText host := by
  have within := n.within
  rw [v4] at within
  have most : ¬ n.prefixlen = 128 := by
    change n.prefixlen ≤ 32 at within
    omega
  rw [Network.hostText, if_neg most, List.append_nil, v4]
  exact colon_not_mem_formatV4 host

theorem colon_not_mem_netmask (v4 : n.version = .v4) : ':' ∉ n.netmask := by
  rw [Network.netmask, v4]
  exact colon_not_mem_formatV4 _

theorem colon_mem_hostText (v6 : n.version = .v6) (host : Nat) : ':' ∈ n.hostText host := by
  rw [Network.hostText, v6]
  exact List.mem_append_left _ (colon_mem_formatV6 host)

/-- The text of the field is that of its parts. -/
theorem fields_eq (ip gw mask dns : Str) :
    ip ++ ':' :: (':' :: (gw ++ ":" ++ mask ++ "::eth0:off:" ++ dns)) =
      List.intercalate [':'] (ipFields ip gw mask dns) := by
  have tail : ("::eth0:off:" : Str) = ":" ++ ("" ++ (":" ++ ("eth0" ++ (":" ++ ("off" ++ ":"))))) :=
    rfl
  have colon : (":" : Str) = [':'] := rfl
  have empty : ("" : Str) = [] := rfl
  rw [ipFields, tail]
  simp only [List.intercalate_cons_cons, List.intercalate_singleton,
    List.append_assoc, colon, empty,
    List.nil_append,
    List.cons_append]

theorem fields_split {ip gw mask dns : Str} (noIp : ':' ∉ ip) (noGw : ':' ∉ gw)
    (noMask : ':' ∉ mask) (noDns : ':' ∉ dns) :
    (List.intercalate [':'] (ipFields ip gw mask dns)).splitOn ':' = ipFields ip gw mask
      dns := by
  apply List.splitOn_intercalate
  · intro part there
    simp only [ipFields, List.mem_cons, List.not_mem_nil, or_false] at there
    rcases there with rfl | rfl | rfl | rfl | rfl | rfl | rfl | rfl
    · exact noIp
    · decide
    · exact noGw
    · exact noMask
    · decide
    · decide
    · decide
    · exact noDns
  · exact List.cons_ne_nil _ _

/-- A text with a colon is not the first part of what it begins. -/
theorem not_first_part {x y : Str} {parts : List Str} (colon : ':' ∈ x) :
    (x ++ ':' :: y).splitOn ':' ≠ x :: parts := by
  intro same
  obtain ⟨a, b, rfl, none⟩ := List.eq_append_cons_of_mem colon
  rw [List.append_assoc, List.cons_append, List.splitOn_append_cons_self_of_not_mem none] at same
  have short := congrArg List.length (List.cons.inj same).1
  simp only [List.length_append, List.length_cons] at short
  omega

end

/-! ## Where they agree -/

/-- Where a single address is given there is none to pick; else an IPv4 network and a decimal
length. -/
theorem agrees_iff (cidr : Str) (n : Network) (accepted : network cidr = .ok n) :
    Agrees cidr n ↔ n.prefixlen = n.version.bits ∨ Plain cidr n := by
  by_cases several : n.prefixlen = n.version.bits
  · constructor
    · exact fun _ => .inl several
    · intro _ used ip dns picked _
      rw [HostScan.pickIp_single accepted several] at picked
      cases picked
  obtain ⟨addr, len, split_, bridge⟩ := gatewayCidr_eq accepted several
  constructor
  · intro agrees
    obtain ⟨ip, picked⟩ := picks_one accepted several
    have agree := agrees [] ip [] picked List.not_mem_nil
    refine .inr ⟨?_, addr, ?_⟩
    · cases version : n.version with
      | v4 => rfl
      | v6 =>
        -- the address of the guest is cut at its first colon
        let cfg : VmConfig := ⟨[], [], ip, cidr, false, 1, 1, [], none, none⟩
        obtain ⟨field, args, fields⟩ := agree.guest cfg rfl rfl rfl
        rw [bootArgs_eq accepted several cfg rfl, Except.ok.injEq,
          List.append_cancel_left_eq] at args
        obtain ⟨host, same⟩ := picked_text accepted picked
        have colon : ':' ∈ ip := by
          rw [same]
          exact colon_mem_hostText version host
        rw [← args] at fields
        exact absurd fields (not_first_part colon)
    · rw [agree.bridge, Except.ok.injEq, List.append_cancel_left_eq] at bridge
      rw [split_, bridge]
  · rintro (single | ⟨v4, addr', plain⟩)
    · exact absurd single several
    · intro used ip dns picked noDns
      constructor
      · rw [split_] at plain
        cases plain
        exact bridge
      · rintro cfg same rfl rfl
        refine ⟨_, bootArgs_eq accepted several cfg same, ?_⟩
        obtain ⟨host, text⟩ := picked_text accepted picked
        rw [fields_eq]
        apply fields_split _ (colon_not_mem_hostText v4 _) (colon_not_mem_netmask v4) noDns
        rw [text]
        exact colon_not_mem_hostText v4 host

def sixteen : Network := ⟨.v4, 167837696, 16, [], by decide, by decide, by decide⟩

theorem sixteen_agrees : Agrees "10.1.0.0/16" sixteen :=
  (agrees_iff "10.1.0.0/16" sixteen rfl).mpr (.inr ⟨rfl, "10.1.0.0", rfl⟩)

def masked : Network := ⟨.v4, 168361984, 24, [], by decide, by decide, by decide⟩

/-- The bridge gets `10.9.0.1/255.255.255.0`. -/
theorem netmask_is_spliced : network "10.9.0.0/255.255.255.0" = .ok masked ∧
    ¬ Agrees "10.9.0.0/255.255.255.0" masked := by
  refine ⟨rfl, fun agrees => ?_⟩
  have bridge := (agrees [] "10.9.0.2" [] rfl List.not_mem_nil).bridge
  have spliced : gatewayCidr "10.9.0.0/255.255.255.0" = .ok "10.9.0.1/255.255.255.0" := rfl
  rw [spliced, Except.ok.injEq] at bridge
  exact absurd bridge (by decide)

end Nyc.BootNetwork
