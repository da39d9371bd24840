import Nyc.Scripts.Provision

/-!
# The public addresses of a node, declared and read back
-/

namespace Nyc.PublicPool

open Data Scripts Client
open Inventory (DeclaredIp)

/-- A text that an implementation of `echo` wrote and that the reader of a basic string takes for
the value is that value, and nothing in it means anything to either. -/
theorem value_echoed {v rest out r : Str} (unquoted : '\x22' ∉ v)
    (echoed : Echoed (v ++ '\x22' :: rest) out) (read : Toml.inner .none out = some (v, r)) :
    (∀ c ∈ v, Toml.plain c = true) ∧ out = v ++ '\x22' :: r ∧ Echoed rest r := by
  obtain ⟨text, rfl, reads⟩ := Toml.reads_of_inner read
  obtain ⟨source, s', split, later, made⟩ := echoed.part
  -- beyond the value there is its quote, which would have to be in the value
  have within : source.length ≤ v.length := by
    rcases List.append_eq_append_iff.mp split with ⟨more, same, after⟩ | ⟨less, same, -⟩
    · cases more with
      | nil =>
        rw [same, List.append_nil]
      | cons c more =>
        have quote : '\x22' = c := (List.cons.inj after).1
        have there : '\x22' ∈ source := by
          rw [same, quote]
          exact List.mem_append_right v List.mem_cons_self
        exact absurd (reads.quote (made.quote there)) unquoted
    · rw [same, List.length_append]
      omega
  have shorter := reads.length
  have shorter' := made.length
  have same : text = source := made.same (by omega)
  obtain ⟨rfl, rfl⟩ := List.append_inj split (by omega)
  subst same
  obtain ⟨-, all⟩ := Toml.plain_of_inner read rfl
  obtain ⟨r', after, ended⟩ := later.of_cons (by decide)
  cases after
  exact ⟨all, rfl, ended⟩

/-! ## One entry -/

/-- What an entry says, to `config.pubip`. -/
def asDeclared (e : DeclaredIp) : Config.PubIpEntry := ⟨e.address, e.mac, e.prefix_.getD "32"⟩

/-- No quote is in the values. -/
structure Quoteless (e : DeclaredIp) : Prop where
  address : '\x22' ∉ e.address ∧ '\x27' ∉ e.address
  mac : '\x22' ∉ e.mac ∧ '\x27' ∉ e.mac
  prefix_ : ∀ p ∈ e.prefix_, '\x22' ∉ p ∧ '\x27' ∉ p

/-- The written line holds all that the entry says: no value has a backslash or a control character,
and the prefix is the one that the node assumes. -/
structure Carried (e : DeclaredIp) : Prop where
  address : ∀ c ∈ e.address, Toml.plain c = true
  mac : ∀ c ∈ e.mac, Toml.plain c = true
  prefix_ : e.prefix_.getD "32" = "32"

/-- The table that an entry is written as. -/
def written (e : DeclaredIp) : Toml.Table := [("address", e.address), ("mac", e.mac)]

theorem regroup (a x b y tail : Str) : a ++ x ++ ('\x22' :: b) ++ y ++ ['\x22', '\x7d'] ++ tail =
    a ++ (x ++ '\x22' :: (b ++ (y ++ '\x22' :: '\x7d' :: tail))) := by
  simp only [List.append_assoc, List.cons_append, List.nil_append]

theorem item_append (e : DeclaredIp) (tail : Str) :
    Provision.item e ++ tail = "\x7baddress = \"".toList ++
      (e.address ++ '\x22' :: (", mac = \"".toList ++
      (e.mac ++ '\x22' :: '\x7d' :: tail))) := by
  have between : "\", mac = \"".toList = '\x22' :: ", mac = \"".toList := by decide
  have after : "\"\x7d".toList = ['\x22', '\x7d'] := by decide
  have parts := regroup "\x7baddress = \"".toList e.address ", mac = \"".toList e.mac tail
  rw [← between, ← after] at parts
  exact parts

/-- The fields of a table, from the quote of its first one on. -/
theorem table_address (s : Str) : ∃ n, Toml.table ("\x7baddress = \"".toList ++ s) =
    (Toml.fields (n + 2) ("address = \"".toList ++ s)).bind fun p =>
      if (p.1.map Prod.fst).Nodup then some p else none :=
  ⟨s.length + 9, rfl⟩

theorem field_address (s : Str) : Toml.field ("address = \"".toList ++ s) =
    (Toml.inner .none s).map fun p => (("address".toList, p.1), p.2) :=
  Toml.field_text (k := "address".toList) (List.all_eq_true.mp (by decide)) (by decide) s

theorem field_mac (s : Str) : Toml.field (" mac = \"".toList ++ s) =
    (Toml.inner .none s).map fun p => (("mac".toList, p.1), p.2) :=
  Toml.field_text (k := "mac".toList) (List.all_eq_true.mp (by decide)) (by decide) s

/-- An entry whose values stand for themselves is read as it was written. -/
theorem table_item {e : DeclaredIp} (carried : Carried e) (tail : Str) :
    Toml.table (Provision.item e ++ tail) = some (written e, tail) := by
  rw [item_append]
  obtain ⟨n, reads⟩ := table_address
    (e.address ++ '\x22' :: (", mac = \"".toList ++ (e.mac ++ '\x22' :: '\x7d' :: tail)))
  have first := field_address (e.address ++ '\x22' ::
    (", mac = \"".toList ++ (e.mac ++ '\x22' :: '\x7d' :: tail)))
  rw [Toml.inner_plain carried.address] at first
  have second := field_mac (e.mac ++ '\x22' :: '\x7d' :: tail)
  rw [Toml.inner_plain carried.mac] at second
  have rest : Toml.fields (n + 2) ("address = \"".toList ++
      (e.address ++ '\x22' :: (", mac = \"".toList ++
      (e.mac ++ '\x22' :: '\x7d' :: tail)))) = some (written e, tail) := by
    rw [Toml.fields_comma (r := " mac = \"".toList ++ (e.mac ++ '\x22' :: '\x7d' :: tail)) first,
      Toml.fields_brace second]
    rfl
  have distinct : ((written e).map Prod.fst).Nodup :=
    show ["address".toList, "mac".toList].Nodup by decide
  rw [reads, rest, Option.bind_some, if_pos distinct]

theorem entry_some {t : Toml.Table} {p : Config.PubIpEntry} (read : Config.entry t = some p) :
    t.lookup "address".toList = some p.address ∧ t.lookup "mac".toList = some p.mac ∧
      (t.lookup "prefix".toList).getD "32" = p.prefix_ := by
  obtain ⟨a, address, later⟩ := Option.bind_eq_some_iff.mp read
  obtain ⟨m, mac, made⟩ := Option.bind_eq_some_iff.mp later
  cases made
  exact ⟨address, mac, rfl⟩

/-- A field that is read as it was declared was written as it was declared. -/
theorem field_echoed {k opening : Str} (named : ∀ s, Toml.field (opening ++ s) =
      (Toml.inner .none s).map fun p => ((k, p.1), p.2))
    {v rest o s : Str} {n : Nat} {t : Toml.Table} (unquoted : '\x22' ∉ v)
      (echoed : Echoed (v ++ '\x22' :: rest) o)
    (read : Toml.fields n (opening ++ o) = some (t, s)) (same : t.lookup k = some v) :
    (∀ c ∈ v, Toml.plain c = true) ∧ ∃ r t',
      Toml.field (opening ++ o) = some ((k, v), r) ∧ Echoed rest r ∧
      t = (k, v) :: t' := by
  obtain ⟨f, r, t', first, rfl⟩ := Toml.field_of_fields read
  have first' := first
  rw [named] at first'
  obtain ⟨⟨w, r'⟩, inner, made⟩ := Option.map_eq_some_iff.mp first'
  cases made
  rw [List.lookup_cons_self] at same
  have is_value : w = v := Option.some.inj same
  subst is_value
  obtain ⟨plain, -, after⟩ := value_echoed unquoted echoed inner
  exact ⟨plain, r', t', first, after, rfl⟩

/-- An entry that is read as it was declared was written as it was declared. -/
theorem item_echoed {e : DeclaredIp} (quoteless : Quoteless e) {tail out s : Str} {t : Toml.Table}
    (echoed : Echoed (Provision.item e ++ tail) out) (read : Toml.table out = some (t, s))
    (same : Config.entry t = some (asDeclared e)) : Carried e ∧ Echoed tail s := by
  obtain ⟨is_address, is_mac, is_prefix⟩ := entry_some same
  -- the echo of the text before the address is that text itself
  rw [item_append] at echoed
  obtain ⟨o, rfl, from_address⟩ := echoed.of_append (by decide)
  obtain ⟨n, reads⟩ := table_address o
  have fields : Toml.fields (n + 2) ("address = \"".toList ++ o) = some (t, s) := by
    rw [reads] at read
    obtain ⟨p, fields, unique⟩ := Option.bind_eq_some_iff.mp read
    split_ifs at unique
    cases unique
    exact fields
  -- the address: read back only when the echo left it as it was
  obtain ⟨plain, r, t', first, between, rfl⟩ :=
    field_echoed field_address quoteless.address.1 from_address fields is_address
  obtain ⟨o', rfl, from_mac⟩ := between.of_append (s := ", mac = \"".toList) (by decide)
  rw [Toml.fields_comma (r := " mac = \"".toList ++ o') first] at fields
  obtain ⟨⟨t'', s'⟩, rest, made⟩ := Option.map_eq_some_iff.mp fields
  have parts := Prod.mk.inj made
  obtain rfl : t'' = t' := (List.cons.inj parts.1).2
  obtain rfl : s' = s := parts.2
  -- the mac, in the same way
  obtain ⟨plain', r', t', second, brace, rfl⟩ :=
    field_echoed field_mac quoteless.mac.1 from_mac rest is_mac
  obtain ⟨o'', rfl, after⟩ := brace.of_cons (by decide)
  rw [Toml.fields_brace second] at rest
  -- the brace ends the table: there is no third field
  have ended := Prod.mk.inj (Option.some.inj rest)
  obtain rfl : o'' = s' := ended.2
  obtain rfl : [] = t' := (List.cons.inj ended.1).2
  exact ⟨⟨plain, plain', is_prefix.symm⟩, after⟩

/-! ## The array -/

/-- The array, after its bracket. -/
def body (es : List DeclaredIp) : Str := List.intercalate ", " (es.map Provision.item) ++ "]"

theorem body_one (e : DeclaredIp) : body [e] = Provision.item e ++ "]" := by
  rw [body, List.map_singleton, List.intercalate_singleton]

theorem body_cons (e e' : DeclaredIp) (es : List DeclaredIp) :
    body (e :: e' :: es) = Provision.item e ++ ',' :: ' ' :: body (e' :: es) := by
  rw [body, body, List.map_cons, List.map_cons, List.intercalate_cons_cons]
  simp only [List.append_assoc]
  rfl

theorem elements_body {es : List DeclaredIp} (some_ : es ≠ []) (carried : ∀ e ∈ es, Carried e)
    {n : Nat} (enough : es.length ≤ n) : Toml.elements n (body es) = some (es.map written, []) := by
  induction es generalizing n with
  | nil => exact absurd rfl some_
  | cons e es ih =>
    obtain ⟨n, rfl⟩ : ∃ m, n = m + 1 := ⟨n - 1, by simp only [List.length_cons] at enough; omega⟩
    have first := table_item (carried e List.mem_cons_self)
    cases es with
    | nil =>
      rw [body_one]
      exact Toml.elements_bracket (first _)
    | cons e' es =>
      have rest := ih (List.cons_ne_nil e' es)
        (fun x there => carried x (List.mem_cons_of_mem e there))
        (Nat.le_of_succ_le_succ enough)
      rw [body_cons, Toml.elements_comma (first _), Toml.elements_blank, rest]
      rfl

/-- The tables are read in the order of the entries, so each entry is read as it was declared. -/
theorem body_echoed {es : List DeclaredIp} (quoteless : ∀ e ∈ es, Quoteless e) {out r : Str}
    {n : Nat} {ts : List Toml.Table} (echoed : Echoed (body es) out)
      (read : Toml.elements n out = some (ts, r))
    (same : ts.mapM Config.entry = some (es.map asDeclared)) : ∀ e ∈ es, Carried e := by
  -- the induction is on the entries; each one's echo ends where the next one's starts
  induction es generalizing out n ts with
  -- the last entry is followed by nothing
  | nil =>
    intro e there
    cases there
  | cons e es ih =>
    cases n with
    | zero => cases read
    | succ n =>
      obtain ⟨t, s, ts', first, rfl⟩ := Toml.table_of_elements read
      rw [List.mapM_cons] at same
      obtain ⟨p, entry, later⟩ := Option.bind_eq_some_iff.mp same
      obtain ⟨ps, entries, made⟩ := Option.bind_eq_some_iff.mp later
      have parts := List.cons.inj (Option.some.inj made)
      rw [parts.1] at entry
      rw [parts.2] at entries
      have here := quoteless e List.mem_cons_self
      cases es with
      | nil =>
        rw [body_one] at echoed
        obtain ⟨carried, -⟩ := item_echoed here echoed first entry
        intro x there
        cases List.mem_singleton.mp there
        exact carried
      | cons e' es =>
        rw [body_cons] at echoed
        obtain ⟨carried, after⟩ := item_echoed here echoed first entry
        obtain ⟨s', rfl, comma⟩ := after.of_cons (by decide)
        obtain ⟨s'', rfl, blank⟩ := comma.of_cons (by decide)
        -- a comma and a blank stand between two entries
        rw [Toml.elements_comma first, Toml.elements_blank] at read
        obtain ⟨⟨rest, r'⟩, within, made⟩ := Option.map_eq_some_iff.mp read
        have parts := Prod.mk.inj made
        obtain rfl : rest = ts' := (List.cons.inj parts.1).2
        obtain rfl : r' = r := parts.2
        have others := ih (fun x there => quoteless x (List.mem_cons_of_mem e there))
          blank within entries
        intro x there
        rcases List.mem_cons.mp there with rfl | there
        · exact carried
        · exact others x there

/-! ## The file -/

section File

variable (sh : Echo) (d : Inventory.PublicData) (file : ConfigFile)

/-- Nothing is left of the keys that are written. -/
theorem lookup_stripped {key : Str} (strips : Provision.stripped key = true) :
    (file.filter fun l => !Provision.stripped l.1).lookup key = none := by
  rw [List.lookup_eq_none_iff]
  intro l there
  obtain ⟨-, kept⟩ := List.mem_filter.mp there
  rw [bne_iff_ne]
  rintro rfl
  rw [strips] at kept
  cases kept

theorem lookup_setting (key : Str) (value : Str) : (Provision.setting key value).lookup key =
    if value ≠ [] then some ("\"".toList ++ value ++ "\"") else none := by
  rw [Provision.setting]
  split_ifs
  · exact List.lookup_cons_self
  · rfl

theorem lookup_other {key key' : Str} (other : key ≠ key') (value : Str) :
    (Provision.setting key' value).lookup key = none := by
  rw [Provision.setting]
  split_ifs
  · rw [List.lookup_cons, beq_false_of_ne other]
    rfl
  · rfl

theorem lookup_ips : (Provision.nycConfig sh d file).lookup "public_ips".toList =
    if d.publicIps ≠ [] then some (sh.write (Provision.ipsToml d.publicIps)) else none := by
  simp only [Provision.nycConfig, List.lookup_append, lookup_stripped file
    (show Provision.stripped "public_ips" = true by decide),
    lookup_other (show "public_ips".toList ≠ "domain".toList by decide),
    lookup_other (show "public_ips".toList ≠ "public_iface".toList by decide),
    lookup_other (show "public_ips".toList ≠ "pubip_gateway".toList by decide),
    lookup_other (show "public_ips".toList ≠ "public_bridge".toList by decide), Option.none_or,
      Option.or_none]
  split_ifs
  · exact List.lookup_cons_self
  · rfl

theorem lookup_gateway : (Provision.nycConfig sh d file).lookup "pubip_gateway".toList =
    if d.pubipGateway ≠ [] then some ("\"".toList ++ d.pubipGateway ++ "\"") else none := by
  have elsewhere : ((if d.publicIps ≠ [] then
    [("public_ips".toList, sh.write (Provision.ipsToml d.publicIps))]
      else []) : ConfigFile).lookup "pubip_gateway".toList = none := by
    split_ifs <;> rfl
  simp only [Provision.nycConfig, List.lookup_append,
    lookup_stripped file (show Provision.stripped "pubip_gateway" = true by decide), elsewhere,
    lookup_other (show "pubip_gateway".toList ≠ "domain".toList by decide),
    lookup_other (show "pubip_gateway".toList ≠ "public_iface".toList by decide),
    lookup_other (show "pubip_gateway".toList ≠ "public_bridge".toList by decide), lookup_setting,
    Option.none_or, Option.or_none]

theorem lookup_bridge : (Provision.nycConfig sh d file).lookup "public_bridge".toList =
    if d.publicBridge ≠ [] then some ("\"".toList ++ d.publicBridge ++ "\"") else none := by
  have elsewhere : ((if d.publicIps ≠ [] then
    [("public_ips".toList, sh.write (Provision.ipsToml d.publicIps))]
      else []) : ConfigFile).lookup "public_bridge".toList = none := by
    split_ifs <;> rfl
  simp only [Provision.nycConfig, List.lookup_append,
    lookup_stripped file (show Provision.stripped "public_bridge" = true by decide), elsewhere,
    lookup_other (show "public_bridge".toList ≠ "domain".toList by decide),
    lookup_other (show "public_bridge".toList ≠ "public_iface".toList by decide),
    lookup_other (show "public_bridge".toList ≠ "pubip_gateway".toList by decide), lookup_setting,
    Option.none_or]

end File

/-- A setting of one string that was written so is read back. -/
theorem text_written {file : ConfigFile} {key value : Str} (inert : Inert value)
    (line : file.lookup key = if value ≠ [] then some ("\"".toList ++ value ++ "\"") else none) :
    Config.text file key = some (if value ≠ [] then some value else none) := by
  rw [Config.text, line]
  split_ifs
  · have plain : ∀ c ∈ value, Toml.plain c = true := by
      intro c there
      have all := inert c there
      simp only [Bool.and_eq_true] at all
      exact all.1.1
    have read : Toml.string ("\"".toList ++ value ++ "\"") = some (value, []) :=
      Toml.inner_plain plain []
    simp only [read, Option.map_some]
  · rfl

theorem gateway_of {v : Str} : (if truthy (if v ≠ [] then some v else none) then
    (if v ≠ [] then some v else none) else none) = if v ≠ [] then some v else none := by
  cases v <;> rfl

theorem bridge_of {v : Str} (other : Str) :
    orElse (if v ≠ [] then some v else none) other = if v ≠ [] then v else other := by
  cases v <;> rfl

/-- What `config.pubip` makes of the file. -/
theorem pubip_provisioned (sh : Echo) {d : Inventory.PublicData} (inert : d.InertSettings)
    (file : ConfigFile) :
    Config.pubip (Provision.nycConfig sh d file) =
      (if d.publicIps ≠ [] then
        (Toml.tables (sh.write (Provision.ipsToml d.publicIps))).bind fun es => es.mapM Config.entry
      else some []).map fun ips =>
        { ips, gateway := if d.pubipGateway ≠ [] then some d.pubipGateway else none
          bridge := if d.publicBridge ≠ [] then d.publicBridge else "pub0" } := by
  rw [Config.pubip, lookup_ips, text_written inert.pubipGateway (lookup_gateway sh d file),
    text_written inert.publicBridge (lookup_bridge sh d file)]
  by_cases some_ : d.publicIps ≠ []
  · rw [if_pos some_, if_pos some_]
    cases read : (Toml.tables (sh.write (Provision.ipsToml d.publicIps))).bind
      fun es => es.mapM Config.entry with
    | none => simp only [read, Option.map_none, Option.bind_eq_bind, Option.bind_none]
    | some ips =>
      simp only [read, Option.map_some, Option.bind_eq_bind, Option.bind_some,
        Option.pure_def, gateway_of,
        bridge_of]
  · rw [if_neg some_, if_neg some_]
    simp only [Option.map_some, Option.bind_eq_bind, Option.bind_some, Option.pure_def,
      gateway_of, bridge_of]

/-! ## Declared and read back -/

theorem ipsToml_eq (es : List DeclaredIp) : Provision.ipsToml es = '[' :: body es := by
  rw [Provision.ipsToml, body, List.append_assoc]
  rfl

theorem not_mem_parts {c : Char} {a x b y d : Str} (first : c ∉ a) (second : c ∉ x) (third : c ∉ b)
    (fourth : c ∉ y) (last : c ∉ d) : c ∉ a ++ x ++ b ++ y ++ d := by
  simp only [List.mem_append, not_or]
  exact ⟨⟨⟨⟨first, second⟩, third⟩, fourth⟩, last⟩

/-- Nothing in the text of carried entries is an escape. -/
theorem plain_item {e : DeclaredIp} (carried : Carried e) : '\x5c' ∉ Provision.item e := by
  have unescaped {v : Str} (all : ∀ c ∈ v, Toml.plain c = true) : '\x5c' ∉ v := by
    intro there
    cases all _ there
  exact not_mem_parts (by decide) (unescaped carried.address) (by decide)
    (unescaped carried.mac) (by decide)

theorem plain_body {es : List DeclaredIp} (carried : ∀ e ∈ es, Carried e) : '\x5c' ∉ body es := by
  induction es with
  | nil => decide
  | cons e es ih =>
    have first := plain_item (carried e List.mem_cons_self)
    have rest := ih fun x there => carried x (List.mem_cons_of_mem e there)
    cases es with
    | nil =>
      rw [body_one, List.mem_append, not_or]
      exact ⟨first, by decide⟩
    | cons e' es =>
      rw [body_cons, List.mem_append, not_or, List.mem_cons, List.mem_cons]
      refine ⟨first, ?_⟩
      rintro (comma | blank | there)
      · cases comma
      · cases blank
      · exact rest there

theorem length_body (es : List DeclaredIp) : es.length ≤ (body es).length := by
  induction es with
  | nil => exact Nat.zero_le _
  | cons e es ih =>
    cases es with
    | nil =>
      have bracket : "]".toList.length = 1 := by decide
      rw [body_one, List.length_append, bracket]
      exact Nat.le_add_left 1 _
    | cons e' es =>
      simp only [body_cons, List.length_append, List.length_cons] at ih ⊢
      omega

theorem entry_written {e : DeclaredIp} (carried : Carried e) : Config.entry (written e) = some
    (asDeclared e) := by
  rw [asDeclared, carried.prefix_]
  rfl

theorem entries_written {es : List DeclaredIp} (carried : ∀ e ∈ es, Carried e) :
    (es.map written).mapM Config.entry = some (es.map asDeclared) := by
  induction es with
  | nil => rfl
  | cons e es ih =>
    rw [List.map_cons, List.mapM_cons, entry_written (carried e List.mem_cons_self),
      ih fun x there => carried x (List.mem_cons_of_mem e there)]
    rfl

/-- Entries that are carried are read back. -/
theorem read_carried (sh : Echo) {es : List DeclaredIp} (some_ : es ≠ [])
    (carried : ∀ e ∈ es, Carried e) :
    (Toml.tables (sh.write (Provision.ipsToml es))).bind (fun ts => ts.mapM Config.entry) =
      some (es.map asDeclared) := by
  have same : sh.write (Provision.ipsToml es) = '[' :: body es := by
    have plain : '\x5c' ∉ Provision.ipsToml es := by
      rw [ipsToml_eq, List.mem_cons, not_or]
      exact ⟨by decide, plain_body carried⟩
    rw [← ipsToml_eq]
    exact (sh.sound _).of_plain plain
  have elements := elements_body some_ carried (length_body es)
  have tables : Toml.tables ('[' :: body es) = some (es.map written) := by
    change ((Toml.elements (body es).length (body es)).bind
      fun p => if Toml.blank p.2 = [] then some p.1 else none) = _
    rw [elements]
    rfl
  rw [same, tables]
  exact entries_written carried

/-- Entries that are read back are carried. -/
theorem carried_read {sh : Echo} {es : List DeclaredIp} (quoteless : ∀ e ∈ es, Quoteless e)
    (read : (Toml.tables (sh.write (Provision.ipsToml es))).bind (fun ts => ts.mapM Config.entry) =
      some (es.map asDeclared)) : ∀ e ∈ es, Carried e := by
  obtain ⟨ts, tables, entries⟩ := Option.bind_eq_some_iff.mp read
  have echoed := sh.sound (Provision.ipsToml es)
  generalize sh.write (Provision.ipsToml es) = out at echoed tables
  rw [ipsToml_eq] at echoed
  obtain ⟨o, rfl, later⟩ := echoed.of_cons (by decide)
  change ((Toml.elements o.length o).bind fun p =>
    if Toml.blank p.2 = [] then some p.1 else none) = _ at tables
  obtain ⟨⟨ts', r⟩, elements, ended⟩ := Option.bind_eq_some_iff.mp tables
  split_ifs at ended
  cases ended
  exact body_echoed quoteless later elements entries

/-- `config.pubip` reads the declared list back on the node, and `acquire` hands out what was
declared. -/
def ReadsBack (sh : Echo) (cluster : Inventory.PublicCluster) (node : Inventory.PublicNode)
    (file : ConfigFile) :
    Prop :=
  ∃ cfg, Config.pubip (Provision.nycConfig sh (Inventory.publicHost cluster node) file) = some cfg ∧
    cfg.ips = (node.publicIps.getD []).map asDeclared ∧
    ∀ used, (PubipPool.acquire cfg used).toOption.map (fun p => (p.1, p.2.2.1, p.2.2.2)) =
      ((node.publicIps.getD []).find? fun e => !used.contains e.address).map fun e =>
        (e.address, e.mac, e.prefix_.getD "32")

/-- Whatever implementation of `echo` writes the line, and whatever the other settings are, if they
stand for themselves: the list is read back just where every value of it does and no other prefix
than 32 was declared. -/
theorem reads_back_iff (sh : Echo) (cluster : Inventory.PublicCluster) (node : Inventory.PublicNode)
    (file : ConfigFile) (quoteless : ∀ e ∈ node.publicIps.getD [], Quoteless e)
    (inert : (Inventory.publicHost cluster node).InertSettings) :
    ReadsBack sh cluster node file ↔ ∀ e ∈ node.publicIps.getD [], Carried e := by
  constructor
  · rintro ⟨cfg, read, ips, -⟩ e there
    have some_ : (Inventory.publicHost cluster node).publicIps ≠ [] := List.ne_nil_of_mem there
    rw [pubip_provisioned sh inert, if_pos some_] at read
    obtain ⟨ips', entries, rfl⟩ := Option.map_eq_some_iff.mp read
    rw [show ips' = _ from ips] at entries
    exact carried_read quoteless entries e there
  · intro carried
    have entries : (if (Inventory.publicHost cluster node).publicIps ≠ [] then
        (Toml.tables (sh.write (Provision.ipsToml
          (Inventory.publicHost cluster node).publicIps))).bind
          fun es => es.mapM Config.entry
        else some []) = some ((node.publicIps.getD []).map asDeclared) := by
      split_ifs with some_
      · exact read_carried sh some_ carried
      · rw [show node.publicIps.getD [] = [] from not_not.mp some_]
        rfl
    rw [ReadsBack, pubip_provisioned sh inert, entries]
    refine ⟨_, rfl, rfl, fun used => ?_⟩
    -- the first that is free is the first declared one that is
    rw [PubipPool.acquire, List.find?_map]
    change _ = ((node.publicIps.getD []).find?
      ((fun e => !used.contains e.address) ∘ asDeclared)).map _
    cases (node.publicIps.getD []).find? ((fun e => !used.contains e.address) ∘ asDeclared) <;> rfl

/-- An `echo` that writes its operand as it is. -/
def literal : Echo := ⟨id, Echoed.same⟩

/-- A node of one address, with a prefix of its own. -/
def routed (prefix_ : Str) : Inventory.PublicNode where
  publicIface := none
  publicIps := some [⟨"203.0.113.5", "52:54:00:12:34:56", some prefix_⟩]
  pubipGateway := none
  publicBridge := none

def anyCluster : Inventory.PublicCluster := ⟨none, none⟩

theorem routed_quoteless {p : Str} (unquoted : '\x22' ∉ p ∧ '\x27' ∉ p) :
    ∀ e ∈ (routed p).publicIps.getD [], Quoteless e := by
  have address : '\x22' ∉ "203.0.113.5".toList ∧ '\x27' ∉ "203.0.113.5".toList := by decide
  have mac : '\x22' ∉ "52:54:00:12:34:56".toList ∧ '\x27' ∉ "52:54:00:12:34:56".toList := by decide
  intro e there
  cases List.mem_singleton.mp there
  exact ⟨address, mac, fun p same => by cases same; exact unquoted⟩

theorem routed_inert : (Inventory.publicHost anyCluster (routed "32")).InertSettings := by
  constructor <;> exact List.all_eq_true.mp (by decide)

theorem routed_read : ReadsBack literal anyCluster (routed "32") [] := by
  apply (reads_back_iff literal anyCluster (routed "32") []
    (routed_quoteless (by decide)) routed_inert).mpr
  intro e there
  cases List.mem_singleton.mp there
  exact ⟨List.all_eq_true.mp (by decide), List.all_eq_true.mp (by decide), rfl⟩

/-- A declared prefix does not reach the node. -/
theorem prefix_lost :
    ¬ ∀ (sh : Echo) (cluster : Inventory.PublicCluster) (node : Inventory.PublicNode)
    (file : ConfigFile), (∀ e ∈ node.publicIps.getD [], Quoteless e) →
      ReadsBack sh cluster node file := by
  intro claim
  obtain ⟨cfg, read, ips, -⟩ :=
    claim literal anyCluster (routed "29") [] (routed_quoteless (by decide))
  have written : (Config.pubip (Provision.nycConfig literal
    (Inventory.publicHost anyCluster (routed "29")) [])).map
      (fun cfg => cfg.ips.map fun e => e.prefix_) = some ["32".toList] := by decide +kernel
  rw [read, Option.map_some, ips] at written
  cases written

end Nyc.PublicPool
