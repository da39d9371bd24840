import Nyc.Client.Topology
import Nyc.Data.Once
import Nyc.Python.IpText

/-!
# The flood list of a VXLAN device

`vxlan.set_fdb` reads the list from the text that `bridge fdb show` prints. The lines are read back
as they were written, so that the commands it issues are the two differences.
-/

namespace Nyc.FloodList

open Data Effects Effects.Program Client Client.Vxlan

/-! ## Entries -/

def HexText (s : Str) : Prop := s.all fun c => (IpAddress.hexDigit c).isSome

instance (s : Str) : Decidable (HexText s) :=
  inferInstanceAs (Decidable ((s.all fun c => (IpAddress.hexDigit c).isSome) = true))

theorem HexText.digit {s : Str} (hex : HexText s) {c : Char} (there : c ∈ s) :
    (IpAddress.hexDigit c).isSome :=
  List.all_eq_true.mp hex c there

/-- Six bytes in hexadecimal. -/
def Mac (m : Str) : Prop :=
  ∃ bytes : List Str, bytes.length = 6 ∧
    (∀ b ∈ bytes, b.length = 2 ∧ HexText b) ∧ m = List.intercalate [':'] bytes

def V4 (s : Str) : Prop := ∃ n < 2 ^ 32, s = IpAddress.formatV4 n

/-- An entry of a forwarding table, unicast or all-zeros. -/
def Entry (e : Str × Str) : Prop := Mac e.1 ∧ V4 e.2

/-- Forwarding entries, as a set. -/
structure Table (fdb : List (Str × Str)) : Prop where
  once : fdb.Nodup
  entries : ∀ e ∈ fdb, Entry e

def flooded (e : Str × Str) : Bool := e.1 = ALL_ZEROS

/-- The destinations of the all-zeros entries. -/
def floods (fdb : List (Str × Str)) : List Str := (fdb.filter flooded).map Prod.snd

theorem mem_floods {fdb : List (Str × Str)} {dst : Str} :
    dst ∈ floods fdb ↔ (ALL_ZEROS, dst) ∈ fdb := by
  rw [floods, List.mem_map]
  constructor
  · rintro ⟨⟨mac, dst'⟩, there, rfl⟩
    obtain ⟨here, zeros⟩ := List.mem_filter.mp there
    have same : mac = ALL_ZEROS := of_decide_eq_true zeros
    rwa [same] at here
  · intro there
    exact ⟨(ALL_ZEROS, dst), List.mem_filter.mpr ⟨there, decide_eq_true rfl⟩, rfl⟩

theorem mac_zeros : Mac ALL_ZEROS := by
  refine ⟨List.replicate 6 "00", rfl, ?_, rfl⟩
  intro b there
  obtain ⟨-, rfl⟩ := List.mem_replicate.mp there
  exact ⟨rfl, by decide⟩

/-! ## The characters of a line -/

/-- A character that is printed, or a blank. -/
def printed (c : Char) : Bool := 32 ≤ c.toNat && c.toNat ≤ 126

theorem printed_iff {c : Char} : printed c = true ↔ 32 ≤ c.toNat ∧ c.toNat ≤ 126 := by
  rw [printed, Bool.and_eq_true, decide_eq_true_iff, decide_eq_true_iff]

theorem printed_of_all {s : Str} (all : s.all printed = true) {c : Char} (there : c ∈ s) :
    printed c = true :=
  List.all_eq_true.mp all c there

theorem hex_bounds {c : Char} (hex : (IpAddress.hexDigit c).isSome) :
    48 ≤ c.toNat ∧ c.toNat ≤ 102 := by
  unfold IpAddress.hexDigit at hex
  split at hex
  next digit =>
    have bounds := Char.isDigit_iff_toNat.mp digit
    have first : 48 ≤ c.toNat := bounds.1
    have last : c.toNat ≤ 57 := bounds.2
    omega
  next =>
    split at hex
    next low =>
      have first : 97 ≤ c.toNat := low.1
      have last : c.toNat ≤ 102 := low.2
      omega
    next =>
      split at hex
      next high =>
        have first : 65 ≤ c.toNat := high.1
        have last : c.toNat ≤ 70 := high.2
        omega
      next => cases hex

theorem not_mem_hex {s : Str} (hex : HexText s) {c : Char} (other : IpAddress.hexDigit c = none) :
    c ∉ s := by
  intro there
  have some_ := hex.digit there
  rw [other] at some_
  cases some_

/-- The characters of an IPv4 address are the point and the digits. -/
theorem v4_bounds {s : Str} (v4 : V4 s) {c : Char} (there : c ∈ s) :
    46 ≤ c.toNat ∧ c.toNat ≤ 57 := by
  obtain ⟨n, -, rfl⟩ := v4
  rcases IpAddress.mem_formatV4 there with rfl | digit
  · decide
  · have bounds := Char.isDigit_iff_toNat.mp digit
    have first : 48 ≤ c.toNat := bounds.1
    have last : c.toNat ≤ 57 := bounds.2
    omega

theorem not_break {c : Char} (shown : printed c = true) : Text.isBreak c = false := by
  obtain ⟨first, last⟩ := printed_iff.mp shown
  rw [Text.isBreak, ← Bool.not_eq_true, List.contains_iff_mem]
  simp only [List.mem_cons, List.not_mem_nil, or_false]
  omega

theorem not_space {c : Char} (first : 33 ≤ c.toNat) (last : c.toNat ≤ 126) :
    Text.isSpace c = false := by
  have none : c.toNat ∉ [9, 10, 11, 12, 13, 28, 29, 30, 31, 32, 133, 160, 5760, 8232,
      8233, 8239, 8287,
    12288] := by
    simp only [List.mem_cons, List.not_mem_nil, or_false]
    omega
  have below : ¬ 8192 ≤ c.toNat := by omega
  rw [Text.isSpace, List.contains_eq_mem, decide_eq_false none, decide_eq_false below]
  rfl

theorem mac_chars {m : Str} (mac : Mac m) {c : Char} (there : c ∈ m) : c = ':' ∨
    (IpAddress.hexDigit c).isSome := by
  obtain ⟨bytes, -, each, rfl⟩ := mac
  refine (mem_intercalate there).imp id ?_
  rintro ⟨b, here, inside⟩
  exact (each b here).2.digit inside

/-- Bytes that are joined by colons: how long the text is, and how many colons it has. -/
theorem joined {bytes : List Str} (some_ : bytes ≠ [])
    (each : ∀ b ∈ bytes, b.length = 2 ∧ HexText b) :
    (List.intercalate [':'] bytes).length + 1 = 3 * bytes.length ∧
      (List.intercalate [':'] bytes).count ':' + 1 = bytes.length := by
  induction bytes with
  | nil => exact absurd rfl some_
  | cons b rest ih =>
    obtain ⟨two, hex⟩ := each b List.mem_cons_self
    have plain : b.count ':' = 0 := List.count_eq_zero_of_not_mem (not_mem_hex hex (by decide))
    cases rest with
    | nil =>
      rw [List.intercalate_singleton]
      simp [two, plain]
    | cons b' rest =>
      obtain ⟨length, count⟩ :=
        ih (List.cons_ne_nil _ _) fun b there => each b (List.mem_cons_of_mem _ there)
      rw [List.intercalate_cons_cons]
      simp only [List.length_append, List.count_append, List.length_cons, List.length_nil,
        List.count_singleton_self,
        two, plain] at length count ⊢
      omega

/-- The first byte, and what follows its colon. -/
theorem mac_shape {m : Str} (mac : Mac m) :
    m.length = 17 ∧ m.count ':' = 5 ∧ ∃ b t, m = b ++ ':' :: t ∧ b.length = 2 ∧ ':' ∉ b := by
  obtain ⟨bytes, six, each, rfl⟩ := mac
  have some_ : bytes ≠ [] := List.ne_nil_of_length_pos (by omega)
  obtain ⟨length, count⟩ := joined some_ each
  refine ⟨by omega, by omega, ?_⟩
  match bytes, six with
  | b :: b' :: rest, _ =>
    obtain ⟨two, hex⟩ := each b List.mem_cons_self
    refine ⟨b, List.intercalate [':'] (b' :: rest), ?_, two, not_mem_hex hex (by decide)⟩
    rw [List.intercalate_cons_cons, List.append_assoc, List.singleton_append]

/-- The all-zeros text occurs only where the address is that. -/
theorem infix_zeros {m rest : Str} (mac : Mac m) (plain : ':' ∉ rest) :
    ALL_ZEROS <:+: m ++ rest ↔ m = ALL_ZEROS := by
  obtain ⟨length, count, b, t, shape, two, none⟩ := mac_shape mac
  constructor
  · rintro ⟨p, q, found⟩
    -- all the colons are in the text that was found, so that nothing comes before it
    have colons := congrArg (List.count ':') found
    have five : ALL_ZEROS.count ':' = 5 := by decide
    rw [List.count_append, List.count_append, List.count_append, five, count,
      List.count_eq_zero_of_not_mem plain] at colons
    have before : ':' ∉ p := List.count_eq_zero.mp (by omega)
    have first : (m ++ rest).takeWhile (· ≠ ':') = b := by
      rw [shape, List.append_assoc, List.cons_append, List.takeWhile_append_of_pos,
        List.takeWhile_cons_of_neg,
        List.append_nil]
      · simp
      · intro c there
        exact decide_eq_true fun same => none (same ▸ there)
    have first' : (p ++ ALL_ZEROS ++ q).takeWhile (· ≠ ':') = p ++ "00" := by
      rw [List.append_assoc, List.takeWhile_append_of_pos]
      · rfl
      · intro c there
        exact decide_eq_true fun same => before (same ▸ there)
    have empty : p = [] := by
      rw [found, first] at first'
      have lengths := congrArg List.length first'
      rw [List.length_append, two] at lengths
      have : ("00" : Str).length = 2 := rfl
      exact List.length_eq_zero_iff.mp (by omega)
    rw [empty, List.nil_append] at found
    exact (List.append_inj found (by rw [length]; rfl)).1.symm
  · rintro rfl
    exact (List.prefix_append _ _).isInfix

/-! ## Names of devices -/

/-- An id whose first characters, which name its devices, are hexadecimal. -/
def HexId (id : Id) : Prop := HexText (id.take 4)

instance (id : Id) : Decidable (HexId id) := inferInstanceAs (Decidable (HexText (id.take 4)))

theorem name_chars {node vpc : Id} (hexNode : HexId node) (hexVpc : HexId vpc) {c : Char}
    (there : c ∈ nameFor node vpc) : c ∈ ("vx-" : Str) ∨ (IpAddress.hexDigit c).isSome := by
  rw [nameFor] at there
  rcases List.mem_append.mp there with front | last
  · rcases List.mem_append.mp front with front | dash
    · rcases List.mem_append.mp front with start | first
      · exact .inl start
      · exact .inr (hexNode.digit first)
    · rw [List.mem_singleton.mp dash]
      exact .inl (by decide)
  · exact .inr (hexVpc.digit last)

/-! ## One line -/

section

variable {node vpc : Id} (hexNode : HexId node) (hexVpc : HexId vpc) {e : Str × Str}
  (entry : Entry e)

include hexNode hexVpc entry

theorem line_printed {c : Char} (there : c ∈ fdbLine (nameFor node vpc) e) : printed c = true := by
  have hex (some_ : (IpAddress.hexDigit c).isSome) : printed c = true := by
    have := hex_bounds some_
    exact printed_iff.mpr ⟨by omega, by omega⟩
  rw [fdbLine] at there
  rcases List.mem_append.mp there with there | last
  · rcases List.mem_append.mp there with there | dst
    · rcases List.mem_append.mp there with there | sep
      · rcases List.mem_append.mp there with there | dev
        · rcases List.mem_append.mp there with mac | sep
          · rcases mac_chars entry.1 mac with rfl | some_
            · decide
            · exact hex some_
          · exact printed_of_all (by decide) sep
        · rcases name_chars hexNode hexVpc dev with start | some_
          · exact printed_of_all (by decide) start
          · exact hex some_
      · exact printed_of_all (by decide) sep
    · have := v4_bounds entry.2 dst
      exact printed_iff.mpr ⟨by omega, by omega⟩
  · exact printed_of_all (by decide) last

/-- After the address there is no colon. -/
theorem line_zeros : Text.has ALL_ZEROS (fdbLine (nameFor node vpc) e) = flooded e := by
  have rest : ':' ∉ " dev " ++ nameFor node vpc ++ " dst " ++ e.2 ++ " self permanent" := by
    intro there
    rcases List.mem_append.mp there with there | last
    · rcases List.mem_append.mp there with there | dst
      · rcases List.mem_append.mp there with there | sep
        · rcases List.mem_append.mp there with sep | dev
          · exact absurd sep (by decide)
          · rcases name_chars hexNode hexVpc dev with start | some_
            · exact absurd start (by decide)
            · exact absurd some_ (by decide)
        · exact absurd sep (by decide)
      · have := v4_bounds entry.2 dst
        exact absurd this (by decide)
    · exact absurd last (by decide)
  have line : fdbLine (nameFor node vpc) e =
      e.1 ++ (" dev " ++ nameFor node vpc ++ " dst " ++ e.2 ++ " self permanent") := by
    simp only [fdbLine, List.append_assoc]
  apply Bool.eq_iff_iff.mpr
  rw [line, Text.has_iff, infix_zeros entry.1 rest, flooded, decide_eq_true_iff]

/-- The address of the peer stands between `dst` and the next blank. -/
theorem line_peer : peerOf (fdbLine (nameFor node vpc) e) = .ok e.2 := by
  -- the only `dst` of a line is the word itself: a `t` or a `d` stands on neither side
  have before : 't' ∉ e.1 ++ " dev " ++ nameFor node vpc ++ " " ++ "ds" := by
    intro there
    rcases List.mem_append.mp there with there | last
    · rcases List.mem_append.mp there with there | sep
      · rcases List.mem_append.mp there with there | dev
        · rcases List.mem_append.mp there with mac | sep
          · rcases mac_chars entry.1 mac with colon | some_
            · exact absurd colon (by decide)
            · exact absurd some_ (by decide)
          · exact absurd sep (by decide)
        · rcases name_chars hexNode hexVpc dev with start | some_
          · exact absurd start (by decide)
          · exact absurd some_ (by decide)
      · exact absurd sep (by decide)
    · exact absurd last (by decide)
  have after : 'd' ∉ " " ++ (e.2 ++ " self permanent") := by
    intro there
    rcases List.mem_append.mp there with sep | there
    · exact absurd sep (by decide)
    · rcases List.mem_append.mp there with dst | last
      · have := v4_bounds entry.2 dst
        exact absurd this (by decide)
      · exact absurd last (by decide)
  have line : fdbLine (nameFor node vpc) e =
      (e.1 ++ " dev " ++ nameFor node vpc ++ " ") ++ "dst" ++
        (" " ++ (e.2 ++ " self permanent")) := by
    have cut : (" dst " : Str) = " " ++ "dst" ++ " " := rfl
    simp only [fdbLine, cut, List.append_assoc]
  have parts : Text.split "dst" (fdbLine (nameFor node vpc) e) =
      [e.1 ++ " dev " ++ nameFor node vpc ++ " ", " " ++ (e.2 ++ " self permanent")] := by
    rw [line, Text.split_append (by decide), Text.split_of_not_infix]
    · exact fun found => after (found.subset (by decide))
    · exact fun found => before (found.subset (by decide))
  have word : Text.firstWord (" " ++ (e.2 ++ " self permanent")) = some e.2 := by
    apply Text.firstWord_append
    · obtain ⟨n, -, same⟩ := entry.2
      rw [same]
      exact IpAddress.formatV4_ne_nil n
    · intro c there
      have := v4_bounds entry.2 there
      exact not_space (by omega) (by omega)
    · decide
  have found : ((Text.split "dst" (fdbLine (nameFor node vpc) e))[1]?).bind
      Text.firstWord = some e.2 := by
    rw [parts]
    exact word
  rw [peerOf, found]

end

/-! ## The table -/

theorem parse_table {node vpc : Id} (hexNode : HexId node) (hexVpc : HexId vpc)
    {fdb : List (Str × Str)} (entries : ∀ e ∈ fdb, Entry e) :
    parsePeers (fdbTable (nameFor node vpc) fdb) = .ok (floods fdb) := by
  have lines : Text.splitlines (fdbTable (nameFor node vpc) fdb) =
      fdb.map (fdbLine (nameFor node vpc)) := by
    apply Text.splitlines_flatMap
    intro e there c inside
    exact not_break (line_printed hexNode hexVpc (entries e there) inside)
  have kept : fdb.filter ((fun line => Text.has ALL_ZEROS line && Text.has "dst" line) ∘
      fdbLine (nameFor node vpc)) = fdb.filter flooded := by
    apply List.filter_congr
    intro e there
    rw [Function.comp_apply]
    have dst : Text.has "dst" (fdbLine (nameFor node vpc) e) = true := by
      apply Text.has_iff.mpr
      refine ⟨e.1 ++ " dev " ++ nameFor node vpc ++ " ", " " ++ e.2 ++ " self permanent", ?_⟩
      have cut : (" dst " : Str) = " " ++ "dst" ++ " " := rfl
      simp only [fdbLine, cut, List.append_assoc]
    rw [line_zeros hexNode hexVpc (entries e there), dst, Bool.and_true]
  rw [parsePeers, lines, List.filter_map, List.mapM_map, kept]
  apply ok_mapM
  intro e there
  exact line_peer hexNode hexVpc (entries e (List.mem_of_mem_filter there))

/-! ## The commands -/

/-- The network is as at first, but for the forwarding entries of one device. -/
structure Forwards (dev : Str) (l : Link) (n₀ : Net) (fdb : List (Str × Str)) (n : Net) : Prop where
  here : n.links.lookup (none, dev) = some { l with fdb := fdb }
  others : ∀ key, key ≠ (none, dev) → n.links.lookup key = n₀.links.lookup key
  rest : { n with links := n₀.links } = n₀

namespace Forwards

variable {dev : Str} {l : Link} {n₀ n : Net} {fdb : List (Str × Str)}

theorem start (there : n₀.links.lookup (none, dev) = some l) : Forwards dev l n₀ l.fdb n₀ :=
    ⟨there, fun _ _ => rfl, rfl⟩

/-- A command that changes the entries. -/
theorem modify (now : Forwards dev l n₀ fdb n) (f : List (Str × Str) → List (Str × Str)) :
    Forwards dev l n₀ (f fdb)
      { n with links := Store.modify (none, dev) (fun l => { l with
        fdb := f l.fdb }) n.links } := by
  constructor
  · rw [Store.lookup_modify, if_pos rfl, now.here]
    rfl
  · intro key other
    rw [Store.lookup_modify, if_neg other]
    exact now.others key other
  · exact now.rest

end Forwards

section

variable {x : Nat → Chance} (sound : ∀ n, (x n).fails = false) {dev : Str} {l : Link} {n₀ : Net}

include sound

theorem appends_then (dsts : List Str) (once : dsts.Nodup) {fdb : List (Str × Str)}
    (new : ∀ dst ∈ dsts, (ALL_ZEROS, dst) ∉ fdb) {s : Nat × Host}
    (now : Forwards dev l n₀ fdb s.2.net) {Q : Except Exn Unit → Nat × Host → Prop}
    (rest : ∀ s' : Nat × Host, Forwards dev l n₀ (fdb ++ dsts.map (ALL_ZEROS, ·)) s'.2.net →
      Q (.ok ()) s') :
    wp (sequential (execAt x)) (forEach
      (fun dst => net (.fdbAppend dev ALL_ZEROS dst)) dsts) Q s := by
  induction dsts generalizing fdb s with
  | nil =>
    apply rest s
    rwa [List.map_nil, List.append_nil]
  | cons dst dsts ih =>
    -- the kernel refuses an entry that is there, so the list must be of new ones
    have first := new dst List.mem_cons_self
    rw [forEach, wp_dot_bind]
    apply net_then (sound s.1)
    · intro _ n' s' step same
      simp only [NetCmd.step, now.here, if_pos first] at step
      cases step
      rw [onValue_ok]
      have now' : Forwards dev l n₀ (fdb ++ [(ALL_ZEROS, dst)]) s'.2.net := by
        rw [same]
        exact now.modify (· ++ [(ALL_ZEROS, dst)])
      apply ih (List.nodup_cons.mp once).2 _ now'
      · intro s'' done
        apply rest s''
        rwa [List.append_assoc] at done
      · intro dst' there found
        rcases List.mem_append.mp found with old | added
        · exact new dst' (List.mem_cons_of_mem _ there) old
        · cases List.mem_singleton.mp added
          exact (List.nodup_cons.mp once).1 there
    · intro s' step _
      simp only [NetCmd.step, now.here, if_pos first] at step
      cases step

theorem dels_then (dsts : List Str) (once : dsts.Nodup) {fdb : List (Str × Str)} (nodup : fdb.Nodup)
    (old : ∀ dst ∈ dsts, (ALL_ZEROS, dst) ∈ fdb) {s : Nat × Host}
    (now : Forwards dev l n₀ fdb s.2.net) {Q : Except Exn Unit → Nat × Host → Prop}
    (rest : ∀ s' : Nat × Host, Forwards dev l n₀ (fdb.diff (dsts.map (ALL_ZEROS, ·))) s'.2.net → Q
      (.ok ()) s') :
    wp (sequential (execAt x)) (forEach (fun dst => net (.fdbDel dev ALL_ZEROS dst)) dsts) Q s := by
  induction dsts generalizing fdb s with
  | nil =>
    apply rest s
    rwa [List.map_nil, List.diff_nil]
  | cons dst dsts ih =>
    -- nor does it delete an entry that is not there
    have first := old dst List.mem_cons_self
    rw [forEach, wp_dot_bind]
    apply net_then (sound s.1)
    · intro _ n' s' step same
      simp only [NetCmd.step, now.here, if_pos first] at step
      cases step
      rw [onValue_ok]
      apply ih (List.nodup_cons.mp once).2 (nodup.erase (ALL_ZEROS, dst))
      · intro dst' there
        apply (nodup.mem_erase_iff).mpr
        refine ⟨?_, old dst' (List.mem_cons_of_mem _ there)⟩
        intro same
        cases same
        exact (List.nodup_cons.mp once).1 there
      · rw [same]
        exact now.modify (List.erase · (ALL_ZEROS, dst))
      · intro s'' done
        apply rest s''
        rwa [List.map_cons, List.diff_cons]
    · intro s' step _
      simp only [NetCmd.step, now.here, if_pos first] at step
      cases step

end

/-! ## One call -/

/-- The entries that a call leaves. -/
def reconciled (sets : SetOrder) (peers : List Str) (fdb : List (Str × Str)) : List (Str × Str) :=
  (fdb ++ (sets.diff peers (floods fdb)).map (ALL_ZEROS, ·)).diff
    ((sets.diff (floods fdb) peers).map (ALL_ZEROS, ·))

theorem nodup_diff (sets : SetOrder) (xs ys : List Str) : (sets.diff xs ys).Nodup := by
  apply (sets.perm _).nodup_iff.mpr
  exact (List.nodup_dedup xs).filter _

theorem nodup_zeros {dsts : List Str} (once : dsts.Nodup) :
    (dsts.map fun dst => (ALL_ZEROS, dst)).Nodup :=
  once.map fun _ _ same => (Prod.mk.inj same).2

section

variable {sets : SetOrder} {peers : List Str} {fdb : List (Str × Str)}

theorem nodup_appended (once : fdb.Nodup) :
    (fdb ++ (sets.diff peers (floods fdb)).map (ALL_ZEROS, ·)).Nodup := by
  apply once.append (nodup_zeros (nodup_diff sets peers (floods fdb)))
  intro e old added
  obtain ⟨dst, new, rfl⟩ := List.mem_map.mp added
  exact ((sets.mem_diff ..).mp new).2 (mem_floods.mpr old)

/-- The all-zeros entries are those of the peers. -/
theorem mem_reconciled (once : fdb.Nodup) (dst : Str) :
    (ALL_ZEROS, dst) ∈ reconciled sets peers fdb ↔ dst ∈ peers := by
  have zeros (dsts : List Str) : (ALL_ZEROS, dst) ∈ dsts.map (ALL_ZEROS, ·) ↔ dst ∈ dsts := by
    simp only [List.mem_map, Prod.mk.injEq, true_and, exists_eq_right]
  rw [reconciled, (nodup_appended once).mem_sdiff_iff, List.mem_append, zeros, zeros, sets.mem_diff,
    sets.mem_diff,
    mem_floods]
  by_cases wanted : dst ∈ peers <;> by_cases old : (ALL_ZEROS, dst) ∈ fdb <;> simp [wanted, old]

theorem table_reconciled (table : Table fdb) (v4 : ∀ dst ∈ peers, V4 dst) : Table
    (reconciled sets peers fdb) := by
  constructor
  · exact (nodup_appended table.once).diff
  · intro e there
    rcases List.mem_append.mp ((List.diff_subset _ _) there) with old | added
    · exact table.entries e old
    · obtain ⟨dst, new, rfl⟩ := List.mem_map.mp added
      exact ⟨mac_zeros, v4 dst ((sets.mem_diff ..).mp new).1⟩

theorem unicast_reconciled : ((reconciled sets peers fdb).filter fun e => !flooded e) = fdb.filter
    fun e => !flooded e := by
  have out (dsts : List Str) : ∀ e ∈ dsts.map (ALL_ZEROS, ·), (!flooded e) = false := by
    intro e there
    obtain ⟨dst, -, rfl⟩ := List.mem_map.mp there
    rw [flooded, decide_eq_true rfl]
    rfl
  have added : ((sets.diff peers (floods fdb)).map (ALL_ZEROS, ·)).filter
      (fun e => !flooded e) = [] := by
    apply List.filter_eq_nil_iff.mpr
    intro e there
    rw [out _ e there]
    exact Bool.false_ne_true
  rw [reconciled, filter_diff (out _), List.filter_append, added, List.append_nil]

end

/-- Each destination is listed once. -/
theorem nodup_floods {fdb : List (Str × Str)} (once : fdb.Nodup) : (floods fdb).Nodup := by
  apply (once.filter _).map_on
  intro e there e' there' same
  have zeros : e.1 = ALL_ZEROS := of_decide_eq_true (List.mem_filter.mp there).2
  have zeros' : e'.1 = ALL_ZEROS := of_decide_eq_true (List.mem_filter.mp there').2
  exact Prod.ext (zeros.trans zeros'.symm) same

section

variable {x : Nat → Chance} (sound : ∀ n, (x n).fails = false) {node vpc :
  Id} (hexNode : HexId node)
  (hexVpc : HexId vpc) {l : Link} {s : Nat × Host}
    (there : s.2.net.links.lookup (none, nameFor node vpc) = some l)
  (table : Table l.fdb)

include sound hexNode hexVpc there table

theorem setFdb_then (sets : SetOrder) (peers : List Str) {Q : Except Exn Unit → Nat × Host → Prop}
    (rest : ∀ s' : Nat × Host, Forwards (nameFor node vpc) l s.2.net
      (reconciled sets peers l.fdb) s'.2.net →
      Q (.ok ()) s') : wp (sequential (execAt x)) (setFdb sets (nameFor node vpc) peers) Q s := by
  rw [setFdb, wp_bind, fdbPeers, wp_bind]
  apply net_then (sound s.1)
  · intro out n' s₁ step same
    simp only [NetCmd.step, there, Option.map_some, Option.some.injEq, Prod.mk.injEq] at step
    obtain ⟨rfl, rfl⟩ := step
    have now : Forwards (nameFor node vpc) l s.2.net l.fdb s₁.2.net := by
      rw [same]
      exact Forwards.start there
    rw [onValue_ok, wp_fromExcept, parse_table hexNode hexVpc table.entries, onValue_ok, wp_bind]
    apply appends_then sound _ (nodup_diff sets peers (floods l.fdb)) _ now
    · intro s₂ now₂
      rw [onValue_ok]
      apply dels_then sound _ (nodup_diff sets (floods l.fdb) peers)
        (nodup_appended table.once) _ now₂
      · exact rest
      · intro dst old
        exact List.mem_append_left _ (mem_floods.mp ((sets.mem_diff ..).mp old).1)
    · intro dst new found
      exact ((sets.mem_diff ..).mp new).2 (mem_floods.mpr found)
  · intro s' step _
    simp only [NetCmd.step, there, Option.map_some] at step
    cases step

/-- Where the list is that of the peers, the table is read and nothing else is done. -/
theorem setFdb_quiet (sets : SetOrder) {peers : List Str}
    (same : ∀ dst, dst ∈ floods l.fdb ↔ dst ∈ peers) :
    trail (execAt x) (setFdb sets (nameFor node vpc) peers) s =
      [(.net (.fdbShow (nameFor node vpc)), s)] := by
  have none (xs ys : List Str) (within : ∀ dst ∈ xs, dst ∈ ys) : sets.diff xs ys = [] := by
    apply List.eq_nil_iff_forall_not_mem.mpr
    intro dst found
    obtain ⟨left, right⟩ := (sets.mem_diff ..).mp found
    exact right (within dst left)
  have step : Cmd.step (x s.1).out (.net (.fdbShow (nameFor node vpc))) (s.2.reap (x s.1).gone) =
      some (fdbTable (nameFor node vpc) l.fdb, s.2.reap (x s.1).gone) := by
    simp only [Cmd.step, reap_net, NetCmd.step, there, Option.map_some]
    rfl
  have answer := exec_of_step (x s.1) _ s.2 _ _ (.inl (sound s.1)) step
  have shown : run (execAt x) (net (.fdbShow (nameFor node vpc))) s =
      (.ok (fdbTable (nameFor node vpc) l.fdb), (s.1 + 1, s.2.reap (x s.1).gone)) := by
    rw [net, run_perform, execAt, answer]
  have read : run (execAt x) (fdbPeers (nameFor node vpc)) s =
      (.ok (floods l.fdb), (s.1 + 1, s.2.reap (x s.1).gone)) := by
    rw [fdbPeers, run_bind_ok shown, parse_table hexNode hexVpc table.entries]
    rfl
  have reads : trail (execAt x) (fdbPeers (nameFor node vpc)) s =
    [(.net (.fdbShow (nameFor node vpc)), s)] := by
    rw [fdbPeers, trail_bind_ok shown, parse_table hexNode hexVpc table.entries, net, trail_perform]
    rfl
  rw [setFdb, trail_bind_ok read, reads, none _ _ fun dst => (same dst).mpr, none _ _ fun dst =>
    (same dst).mp]
  rfl

end

/-! ## Two calls -/

/-- What the table of the device prints, and what else there is, after a call with `peers`. -/
structure Reconciled (dev : Str) (l : Link) (peers : List Str) (before after : Net) : Prop where
  printed : ∃ fdb, after.links.lookup (none, dev) = some { l with fdb := fdb } ∧
    (∃ found, parsePeers (fdbTable dev fdb) = .ok found ∧ found.Nodup ∧ ∀ dst,
      dst ∈ found ↔ dst ∈ peers) ∧
    (fdb.filter fun e => !flooded e) = l.fdb.filter fun e => !flooded e
  others : ∀ key, key ≠ (none, dev) → after.links.lookup key = before.links.lookup key
  rest : { after with links := before.links } = before

/-- One call leaves the peers and a second one only reads, with any ids, tables and peers. -/
theorem setFdb_reconciles (x : Nat → Chance) (sound : ∀ n, (x n).fails = false)
    (sets sets' : SetOrder)
    (node vpc : Id) (hexNode : HexId node) (hexVpc : HexId vpc) (peers : List Str)
      (v4 : ∀ dst ∈ peers, V4 dst)
    (s : Nat × Host) (l : Link) (there : s.2.net.links.lookup (none, nameFor node vpc) = some l)
    (table : Table l.fdb) :
    (run (execAt x) (setFdb sets (nameFor node vpc) peers) s).1 = .ok () ∧
      Reconciled (nameFor node vpc) l peers s.2.net
        (run (execAt x) (setFdb sets (nameFor node vpc) peers) s).2.2.net ∧
      (trail (execAt x) (setFdb sets' (nameFor node vpc) peers)
        (run (execAt x) (setFdb sets (nameFor node vpc) peers) s).2).map Prod.fst =
        [.net (.fdbShow (nameFor node vpc))] := by
  have table' : Table (reconciled sets peers l.fdb) := table_reconciled table v4
  have listed (dst : Str) : dst ∈ floods (reconciled sets peers l.fdb) ↔ dst ∈ peers := by
    rw [mem_floods]
    exact mem_reconciled table.once dst
  have result := setFdb_then sound hexNode hexVpc there table sets peers (Q := fun r s' =>
    r = .ok () ∧ Forwards (nameFor node vpc) l s.2.net (reconciled sets peers l.fdb) s'.2.net)
    fun s' after => ⟨rfl, after⟩
  rw [wp_sequential] at result
  obtain ⟨returned, after⟩ := result
  refine ⟨returned, ⟨⟨reconciled sets peers l.fdb, after.here, ?_,
    unicast_reconciled⟩, after.others,
    after.rest⟩, ?_⟩
  · exact ⟨_, parse_table hexNode hexVpc table'.entries, nodup_floods table'.once, listed⟩
  · rw [setFdb_quiet sound hexNode hexVpc after.here table' sets' listed]
    rfl

/-! ## A device with two peers -/

def device : Link :=
  { Link.ofKind (.vxlan 7 "10.0.0.1") with
    fdb := [("02:ab:00:00:00:01", "10.0.0.3"), (ALL_ZEROS, "10.0.0.2"), (ALL_ZEROS, "10.0.0.3")] }

def joinedHost : Host :=
  { Host.empty with net := { Net.empty with
    links := AList.insert (none, "vx-0a1b-9c8d") device ∅ } }

def calm : Nat → Chance := fun _ => ⟨false, [], fun _ => false⟩

def inOrder : SetOrder := ⟨id, fun xs => .refl xs⟩

theorem device_table : Table device.fdb := by
  have three : V4 "10.0.0.3" := ⟨167772163, by decide, by decide +kernel⟩
  have two : V4 "10.0.0.2" := ⟨167772162, by decide, by decide +kernel⟩
  constructor
  · decide
  · intro e there
    rcases List.mem_cons.mp there with rfl | there
    · have bytes : ∀ b ∈ (["02", "ab", "00", "00", "00", "01"] : List Str),
          b.length = 2 ∧ HexText b := by
        intro b there
        simp only [List.mem_cons, List.not_mem_nil, or_false] at there
        rcases there with rfl | rfl | rfl | rfl | rfl | rfl <;> exact ⟨rfl, by decide⟩
      exact ⟨⟨_, rfl, bytes, rfl⟩, three⟩
    rcases List.mem_cons.mp there with rfl | there
    · exact ⟨mac_zeros, two⟩
    rw [List.mem_singleton.mp there]
    exact ⟨mac_zeros, three⟩

/-- One peer goes and one comes, which is given twice. -/
theorem device_reconciles :
    ∃ net, Reconciled "vx-0a1b-9c8d" device ["10.0.0.3", "10.0.0.4", "10.0.0.4"]
    joinedHost.net net := by
  have three : V4 "10.0.0.3" := ⟨167772163, by decide, by decide +kernel⟩
  have four : V4 "10.0.0.4" := ⟨167772164, by decide, by decide +kernel⟩
  refine ⟨_, (setFdb_reconciles calm (fun _ =>
    rfl) inOrder inOrder "0a1b2c3d" "9c8d7e6f" (by decide)
    (by decide)
    ["10.0.0.3", "10.0.0.4", "10.0.0.4"] ?_ (0, joinedHost) device rfl device_table).2.1⟩
  intro dst there
  rcases List.mem_cons.mp there with rfl | there
  · exact three
  rcases List.mem_cons.mp there with rfl | there
  · exact four
  · rw [List.mem_singleton.mp there]
    exact four

/-- A second call has to read the table. -/
theorem second_call_reads : ¬ trail (execAt calm)
    (setFdb inOrder (nameFor "0a1b2c3d" "9c8d7e6f") ["10.0.0.3"])
    (run (execAt calm) (setFdb inOrder (nameFor "0a1b2c3d" "9c8d7e6f") ["10.0.0.3"])
      (0, joinedHost)).2 =
      [] :=
  List.cons_ne_nil _ _

end Nyc.FloodList
