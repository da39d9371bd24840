import Nyc.Data.Script
import Nyc.Properties.Forwarding

/-!
# The Caddyfile that reaches a proxy

Routes become the blocks of a Caddyfile, and the Caddyfile the here-document of a shell script. Both
are text around the names that clients gave; what comes out at the other end is read back here.
-/

namespace Nyc

open Data Effects Effects.Program Client

namespace Routes

/-! ## Reading a Caddyfile back -/

/-- A decimal number, with its sign. -/
def readPort : Str → Option Int
  | [] => none
  | '-' :: digits => some (-(Nat.ofDigitChars 10 digits 0 : Nat))
  | digits => some (Nat.ofDigitChars 10 digits 0 : Nat)

/-- The route of a block. -/
def readBlock (block : Str) : Option Caddyfile.Route := do
  let (site, rest) ← cutLast '\x7b' block
  let fqdn ← site.dropSuffix? " ".toList
  let upstream ← rest.dropPrefix? "\n\treverse_proxy ".toList
  let upstream ← upstream.dropSuffix? "\n\x7d".toList
  let (ip, port) ← cutLast ':' upstream
  let port ← readPort port
  return (fqdn, ip, port)

/-- The routes of a Caddyfile: `render` joins the blocks by a blank line and ends the last line. -/
def readRoutes (text : Str) : Option (List Caddyfile.Route) :=
  if text = [] then some [] else (splitPairs '\n' text.dropLast).mapM readBlock

/-- The script writes the Caddyfile as it was rendered and does nothing else, and the routes can be
read from the Caddyfile. -/
structure Faithful (routes : List Caddyfile.Route) : Prop where
  writes : Shell.commands (Push.reloadScript (Caddyfile.render routes)) =
    [⟨"mkdir -p /etc/caddy", none⟩,
      ⟨"cat > /etc/caddy/Caddyfile << 'NYCEOF'", some (Caddyfile.render routes)⟩,
      ⟨"caddy reload --config /etc/caddy/Caddyfile", none⟩]
  reads : readRoutes (Caddyfile.render routes) = some routes

/-- The name has no blank line, and no line of it, the last apart, is the delimiter of the
script. -/
def Literal (fqdn : Str) : Prop :=
  ¬ "\n\n".toList <:+: fqdn ∧ "NYCEOF".toList ∉ (fqdn.splitOn '\n').dropLast

/-- An IPv4 address in text form has digits and dots. -/
def Dotted (ip : Str) : Prop := ∀ c ∈ ip, c.isDigit = true ∨ c = '.'

/-! ## One block -/

section Block

variable {r : Caddyfile.Route}

theorem port_digits (p : Int) :
    (toString p).toList = if 0 ≤ p then Nat.toDigits 10 p.toNat else '-' :: Nat.toDigits 10
      (-p).toNat := by
  rw [Int.toString_eq_repr, Int.repr_eq_if]
  split
  · exact Nat.toList_repr
  · rw [String.toList_append, Nat.toList_repr]
    rfl

theorem isDigit_of_mem {n : Nat} {c : Char} (there : c ∈ Nat.toDigits 10 n) : c.isDigit = true :=
  Nat.isDigit_of_mem_toDigits (by decide) (by decide) there

theorem port_char {p : Int} {c : Char} (there : c ∈ (toString p).toList) :
    c.isDigit = true ∨ c = '-' := by
  rw [port_digits] at there
  split at there
  · exact .inl (isDigit_of_mem there)
  · rcases List.mem_cons.mp there with minus | there
    · exact .inr minus
    · exact .inl (isDigit_of_mem there)

theorem readPort_toString (p : Int) : readPort (toString p).toList = some p := by
  rw [port_digits]
  split
  next natural =>
    have value := Nat.ofDigitChars_ten_toDigits (n := p.toNat)
    have digit : ∀ c ∈ Nat.toDigits 10 p.toNat, c.isDigit = true := fun c => isDigit_of_mem
    have nonempty : Nat.toDigits 10 p.toNat ≠ [] := Nat.toDigits_ne_nil
    generalize Nat.toDigits 10 p.toNat = digits at value digit nonempty
    unfold readPort
    split
    next => exact absurd rfl nonempty
    next => exact absurd (digit '-' List.mem_cons_self) (by decide)
    next =>
      rw [value]
      exact congrArg some (Int.toNat_of_nonneg natural)
  next negative =>
    rw [readPort, Nat.ofDigitChars_ten_toDigits]
    congr 1
    omega

/-- The upstream of a route. -/
def upstream (r : Caddyfile.Route) : Str := r.2.1 ++ ":" ++ (toString r.2.2).toList

theorem upstream_char (dotted : Dotted r.2.1) {c : Char} (there : c ∈ upstream r) :
    c.isDigit = true ∨ c = '.' ∨ c = ':' ∨ c = '-' := by
  simp only [upstream, List.mem_append] at there
  rcases there with (ip | colon) | port
  · exact (dotted c ip).imp_right .inl
  · right; right; left
    simpa using colon
  · exact (port_char port).imp_right fun minus => .inr (.inr minus)

theorem not_mem_upstream (dotted : Dotted r.2.1) : '\n' ∉ upstream r ∧ '\x7b' ∉ upstream r := by
  constructor <;> intro there <;> exact absurd (upstream_char dotted there) (by decide)

theorem block_eq (r : Caddyfile.Route) :
    Caddyfile.block r =
      (r.1 ++ " ") ++ '\x7b' :: ("\n\treverse_proxy ".toList ++
        (upstream r ++ "\n\x7d".toList)) := by
  simp [Caddyfile.block, upstream]

theorem dropSuffix_append (x y : Str) : (x ++ y).dropSuffix? y = some x :=
  List.dropSuffix?_eq_some_iff.mpr ⟨y, rfl, BEq.rfl⟩

theorem dropPrefix_append (x y : Str) : (x ++ y).dropPrefix? x = some y :=
  List.dropPrefix?_append_of_beq y BEq.rfl

theorem readBlock_block (dotted : Dotted r.2.1) : readBlock (Caddyfile.block r) = some r := by
  have brace : '\x7b' ∉ "\n\treverse_proxy ".toList ++ (upstream r ++ "\n\x7d".toList) := by
    simp only [List.mem_append, not_or]
    exact ⟨by decide, (not_mem_upstream dotted).2, by decide⟩
  have colon : ':' ∉ (toString r.2.2).toList := fun there => absurd (port_char there) (by decide)
  have parts : cutLast ':' (upstream r) = some (r.2.1, (toString r.2.2).toList) := by
    rw [upstream, List.append_assoc]
    exact cutLast_append _ colon
  rw [block_eq, readBlock, cutLast_append _ brace]
  simp only [Option.bind_eq_bind, Option.bind_some, dropSuffix_append, dropPrefix_append, parts,
    readPort_toString]
  rfl

/-- The only blank lines of a block are in its name. -/
theorem blank_block (dotted : Dotted r.2.1) :
    "\n\n".toList <:+: Caddyfile.block r ↔ "\n\n".toList <:+: r.1 := by
  have rest : ¬ ['\n', '\n'] <:+:
      ['\n'] ++ '\t' :: ("reverse_proxy ".toList ++ (upstream r ++ "\n\x7d".toList)) := by
    rw [pair_infix_append (by decide), not_or]
    constructor <;> apply not_pair_infix_of_count
    · decide
    · rw [List.count_append, List.count_append, List.count_eq_zero.mpr (not_mem_upstream dotted).1]
      decide
  have spaced : Caddyfile.block r = r.1 ++ ' ' :: ([] ++ '\x7b' ::
      (['\n'] ++ '\t' :: ("reverse_proxy ".toList ++ (upstream r ++ "\n\x7d".toList)))) := by
    simp [block_eq]
  rw [spaced]
  change ['\n', '\n'] <:+: _ ↔ ['\n', '\n'] <:+: _
  rw [pair_infix_append (by decide), pair_infix_append (by decide), or_iff_left rest]
  exact or_iff_left fun found => by cases List.infix_nil.mp found

/-- The lines of a block: those of the name, with the brace on the last, the upstream, and the other
brace. -/
theorem lines_block (dotted : Dotted r.2.1) :
    ∃ last, (Caddyfile.block r).splitOn '\n' = (r.1.splitOn '\n').dropLast ++
      [last ++ " \x7b".toList, "\treverse_proxy ".toList ++ upstream r, "\x7d".toList] := by
  obtain ⟨init, last, split, appended⟩ :=
    splitOn_append r.1 (y := " \x7b".toList) (a := '\n') (by decide)
  refine ⟨last, ?_⟩
  have plain : '\n' ∉ "\treverse_proxy ".toList ++ upstream r := by
    rw [List.mem_append, not_or]
    exact ⟨by decide, (not_mem_upstream dotted).1⟩
  have spaced : Caddyfile.block r = (r.1 ++ " \x7b".toList) ++ '\n' ::
      (("\treverse_proxy ".toList ++ upstream r) ++ '\n' :: "\x7d".toList) := by
    simp [block_eq]
  rw [spaced, List.splitOn_append_cons_self, List.splitOn_append_cons_self_of_not_mem plain,
    appended, split]
  rw [List.dropLast_concat, List.append_assoc]
  rfl

/-- A block has the delimiter as a line only in its name. -/
theorem delimiter_block (dotted : Dotted r.2.1) :
    "NYCEOF".toList ∈ (Caddyfile.block r).splitOn '\n' ↔
      "NYCEOF".toList ∈ (r.1.splitOn '\n').dropLast := by
  obtain ⟨last, lines⟩ := lines_block dotted
  rw [lines, List.mem_append]
  apply or_iff_left
  simp only [List.mem_cons, List.not_mem_nil, or_false, not_or]
  refine ⟨fun same => ?_, fun same => ?_, by decide⟩
  · have := congrArg List.getLast? same
    simp at this
  · have := congrArg List.head? same
    simp at this

end Block

/-! ## The Caddyfile -/

section Text

variable {routes : List Caddyfile.Route}

/-- The text between the first block and the end of the last. -/
abbrev blocks (routes : List Caddyfile.Route) : Str :=
  "\n\n".toList.intercalate (routes.map Caddyfile.block)

theorem render_cons (r : Caddyfile.Route) (routes : List Caddyfile.Route) :
    Caddyfile.render (r :: routes) = blocks (r :: routes) ++ ['\n'] := by
  rw [Caddyfile.render, if_neg (List.cons_ne_nil _ _)]
  rfl

theorem blocks_cons (r r' : Caddyfile.Route) (routes : List Caddyfile.Route) :
    blocks (r :: r' :: routes) = Caddyfile.block r ++ '\n' :: '\n' :: blocks (r' :: routes) := by
  rw [blocks, List.map_cons, List.map_cons, List.intercalate_cons_cons, List.append_assoc]
  rfl

theorem splitPairs_blocks (r : Caddyfile.Route) (routes : List Caddyfile.Route) :
    splitPairs '\n' (blocks (r :: routes)) =
      (r :: routes).flatMap fun r => splitPairs '\n' (Caddyfile.block r) := by
  induction routes generalizing r with
  | nil => simp [blocks, List.intercalate_singleton]
  | cons r' routes ih =>
    have closed : Caddyfile.block r = (r.1 ++ " \x7b\n\treverse_proxy ".toList ++ upstream r ++
        "\n".toList) ++ ['\x7d'] := by
      simp [block_eq]
    rw [blocks_cons, List.flatMap_cons, ← ih, closed]
    rw [List.append_assoc _ _ ('\n' :: _), List.singleton_append, splitPairs_append (by decide)]

theorem readBlocks (dotted : ∀ r ∈ routes, Dotted r.2.1) :
    (routes.map Caddyfile.block).mapM readBlock = some routes := by
  induction routes with
  | nil => rfl
  | cons r routes ih =>
    rw [List.forall_mem_cons] at dotted
    rw [List.map_cons, List.mapM_cons, readBlock_block dotted.1, ih dotted.2]
    rfl

theorem length_of_mapM {l : List Str} (reads : l.mapM readBlock = some routes) :
    l.length = routes.length := by
  induction l generalizing routes with
  | nil =>
    cases reads
    rfl
  | cons b l ih =>
    rw [List.mapM_cons] at reads
    cases first : readBlock b with
    | none => simp [first] at reads
    | some r =>
      cases others : l.mapM readBlock with
      | none => simp [first, others] at reads
      | some rs =>
        simp only [first, others, Option.bind_eq_bind, Option.bind_some, Option.pure_def,
          Option.some.injEq] at reads
        rw [← reads, List.length_cons, List.length_cons, ih others]

/-- Every block comes in at least one part. -/
theorem length_le_parts (routes : List Caddyfile.Route) :
    routes.length ≤ (routes.flatMap fun r => splitPairs '\n' (Caddyfile.block r)).length := by
  induction routes with
  | nil => exact Nat.zero_le _
  | cons r routes ih =>
    have first := List.length_pos_of_ne_nil (splitPairs_ne_nil (c := '\n') (Caddyfile.block r))
    rw [List.flatMap_cons, List.length_append, List.length_cons]
    omega

theorem length_lt_parts {r : Caddyfile.Route} (there : r ∈ routes)
    (broken : "\n\n".toList <:+: Caddyfile.block r) :
    routes.length < (routes.flatMap fun r => splitPairs '\n' (Caddyfile.block r)).length := by
  obtain ⟨front, back, rfl⟩ := List.append_of_mem there
  have parts : 2 ≤ (splitPairs '\n' (Caddyfile.block r)).length := length_splitPairs_of_infix broken
  have before := length_le_parts front
  have after := length_le_parts back
  rw [List.flatMap_append, List.flatMap_cons]
  simp only [List.length_append, List.length_cons]
  omega

/-- The routes can be read back as long as no name has a blank line. -/
theorem reads_iff (dotted : ∀ r ∈ routes, Dotted r.2.1) :
    readRoutes (Caddyfile.render routes) = some routes ↔ ∀ r ∈ routes,
      ¬ "\n\n".toList <:+: r.1 := by
  cases routes with
  | nil => exact iff_of_true rfl (fun _ there => absurd there List.not_mem_nil)
  | cons r routes =>
    rw [readRoutes, render_cons, if_neg (by simp), List.dropLast_concat, splitPairs_blocks]
    constructor
    · intro reads r' there broken
      have more := length_lt_parts there ((blank_block (dotted r' there)).mpr broken)
      have same := length_of_mapM reads
      omega
    · intro whole
      have single : ∀ r' ∈ r :: routes, splitPairs '\n' (Caddyfile.block r') =
          [Caddyfile.block r'] :=
        fun r' there => splitPairs_of_not_infix
          ((blank_block (dotted r' there)).not.mpr (whole r' there))
      rw [List.flatMap_congr single, ← List.map_eq_flatMap]
      exact readBlocks dotted

/-! ## The script -/

theorem delimiter_blocks (r : Caddyfile.Route) (routes : List Caddyfile.Route)
    (dotted : ∀ r' ∈ r :: routes, Dotted r'.2.1) :
    "NYCEOF".toList ∈ (blocks (r :: routes)).splitOn '\n' ↔
      ∃ r' ∈ r :: routes, "NYCEOF".toList ∈ (r'.1.splitOn '\n').dropLast := by
  induction routes generalizing r with
  | nil =>
    rw [blocks, List.map_singleton, List.intercalate_singleton,
      delimiter_block (dotted r List.mem_cons_self)]
    simp
  | cons r' routes ih =>
    rw [List.forall_mem_cons] at dotted
    rw [blocks_cons, List.splitOn_append_cons_self,
      List.splitOn_cons_eq_if_modifyHead, if_pos BEq.rfl,
      List.mem_append, List.mem_cons, delimiter_block dotted.1, ih r' dotted.2]
    have apart : ¬ "NYCEOF".toList = [] := by decide
    rw [or_iff_right apart]
    simp only [List.exists_mem_cons_iff]

/-- The lines of a Caddyfile, as the script has them. -/
theorem lines_render (routes : List Caddyfile.Route) (dotted : ∀ r ∈ routes, Dotted r.2.1) :
    ∃ body, Caddyfile.render routes = unlines body ∧
      (∀ rest : Str, (Caddyfile.render routes ++ rest).splitOn '\n' = body ++ rest.splitOn '\n') ∧
      ("NYCEOF".toList ∈ body ↔ ∃ r ∈ routes, "NYCEOF".toList ∈ (r.1.splitOn '\n').dropLast) := by
  cases routes with
  | nil => exact ⟨[], rfl, fun _ => rfl, by simp⟩
  | cons r routes =>
    refine ⟨(blocks (r :: routes)).splitOn '\n', ?_,
      fun rest => ?_, delimiter_blocks r routes dotted⟩
    · rw [render_cons, unlines_splitOn]
    · rw [render_cons, List.append_assoc, List.singleton_append, List.splitOn_append_cons_self]

/-- The commands of the script: what follows the first two lines is in the here-document. -/
theorem commands_script (text : Str) :
    Shell.commands (Push.reloadScript text) = ⟨"mkdir -p /etc/caddy", none⟩ ::
      Shell.read (some ⟨"cat > /etc/caddy/Caddyfile << 'NYCEOF'", "NYCEOF", []⟩)
        ((text ++ ("NYCEOF".toList ++
          '\n' :: ("caddy reload --config /etc/caddy/Caddyfile".toList ++
          ['\n']))).splitOn '\n') := by
  -- the script is five lines and the text between them
  have lines : Push.reloadScript text = "mkdir -p /etc/caddy".toList ++ '\n' ::
      ("cat > /etc/caddy/Caddyfile << 'NYCEOF'".toList ++
        '\n' :: (text ++ ("NYCEOF".toList ++ '\n' ::
        ("caddy reload --config /etc/caddy/Caddyfile".toList ++ ['\n'])))) := by
    have mkdir : "mkdir -p /etc/caddy\n".toList = "mkdir -p /etc/caddy".toList ++ ['\n'] := by
      decide +kernel
    have cat : "cat > /etc/caddy/Caddyfile << 'NYCEOF'\n".toList =
        "cat > /etc/caddy/Caddyfile << 'NYCEOF'".toList ++ ['\n'] := by decide +kernel
    have delimiter : "NYCEOF\n".toList = "NYCEOF".toList ++ ['\n'] := by decide +kernel
    have reload : "caddy reload --config /etc/caddy/Caddyfile\n".toList =
        "caddy reload --config /etc/caddy/Caddyfile".toList ++ ['\n'] := by decide +kernel
    delta Push.reloadScript
    simp only [mkdir, cat, delimiter, reload, List.append_assoc, List.cons_append, List.nil_append]
  rw [Shell.commands, lines, List.splitOn_append_cons_self_of_not_mem (by decide),
    List.splitOn_append_cons_self_of_not_mem (by decide)]
  -- mkdir opens no document, cat opens the quoted one
  have plain : Shell.opens "mkdir -p /etc/caddy" = none := by decide
  have document : Shell.opens "cat > /etc/caddy/Caddyfile << 'NYCEOF'" = some "NYCEOF".toList := by
    decide +kernel
  rw [Shell.read, if_neg (by decide), plain]
  dsimp only
  rw [Shell.read, if_neg (by decide), document]

/-- The script writes the Caddyfile and does nothing else as long as no name has the delimiter as a
line. -/
theorem writes_iff (dotted : ∀ r ∈ routes, Dotted r.2.1) :
    Shell.commands (Push.reloadScript (Caddyfile.render routes)) =
        [⟨"mkdir -p /etc/caddy", none⟩,
          ⟨"cat > /etc/caddy/Caddyfile << 'NYCEOF'", some (Caddyfile.render routes)⟩,
          ⟨"caddy reload --config /etc/caddy/Caddyfile", none⟩] ↔
      ∀ r ∈ routes, "NYCEOF".toList ∉ (r.1.splitOn '\n').dropLast := by
  obtain ⟨body, text, lines, inside⟩ := lines_render routes dotted
  -- The two lines after the here-document.
  have last : Shell.read none (("caddy reload --config /etc/caddy/Caddyfile".toList ++
      ['\n']).splitOn '\n') =
      [⟨"caddy reload --config /etc/caddy/Caddyfile", none⟩] := by decide +kernel
  rw [commands_script, lines, List.splitOn_append_cons_self_of_not_mem (by decide)]
  by_cases delimiter : "NYCEOF".toList ∈ body
  · obtain ⟨r, there, found⟩ := inside.mp delimiter
    refine iff_of_false (fun same => ?_) (fun whole => whole r there found)
    obtain ⟨front, back, split, cut⟩ := Shell.read_cut
      ⟨"cat > /etc/caddy/Caddyfile << 'NYCEOF'", "NYCEOF", []⟩ delimiter _
    -- The file then has the lines before the delimiter, which are fewer.
    rw [cut, text, split] at same
    have second := congrArg Shell.Command.input (List.cons.inj (List.cons.inj same).2).1
    have lengths := congrArg List.length (Option.some.inj second)
    simp only [unlines, List.flatMap_append, List.flatMap_cons, List.length_append,
      List.length_singleton,
      List.length_nil] at lengths
    omega
  · rw [Shell.read_body ⟨_, "NYCEOF", []⟩ delimiter, last, ← text]
    exact iff_of_true rfl fun r there found => delimiter (inside.mpr ⟨r, there, found⟩)

theorem faithful_of_literal (dotted : ∀ r ∈ routes, Dotted r.2.1) :
    Faithful routes ↔ ∀ r ∈ routes, Literal r.1 := by
  constructor
  · intro faithful r there
    exact ⟨(reads_iff dotted).mp faithful.reads r there,
      (writes_iff dotted).mp faithful.writes r there⟩
  · intro literal
    exact ⟨(writes_iff dotted).mpr fun r there => (literal r there).2,
      (reads_iff dotted).mpr fun r there => (literal r there).1⟩

end Text

/-! ## What a node sends -/

/-- The routes of some domains: those whose VM is there. -/
def routesThrough (db : Db) (domains : List DomainRow) : List Caddyfile.Route :=
  domains.filterMap fun d => (Api.vmOf db d.vmId).map fun vm => (d.fqdn, vm.ip, d.port)

def routesIn (db : Db) : List Caddyfile.Route := routesThrough db (db .domains).rows

section Runs

variable (env : Env) {w : World}

open Api

theorem routesOf_runs (domains : List DomainRow) {α : Type} (f : List Caddyfile.Route → Py α) :
    RunsAs env (TaskRunner.routesOf domains >>= f) w (f (routesThrough w.db domains))
      (w.ticks domains.length) := by
  -- the induction is on the domains; each takes one read and adds its route, if it has one
  induction domains generalizing w α with
  | nil => exact .refl _ _
  | cons d rest ih =>
    let r := (vmOf w.db d.vmId).map fun vm => (d.fqdn, vm.ip, d.port)
    have here : RunsAs env (TaskRunner.routesOf (d :: rest) >>= f) w
        (TaskRunner.routesOf rest >>= fun rs => f (r.toList ++ rs)) w.tick := by
      intro ok quiet Q
      simp only [TaskRunner.routesOf, TaskRunner.route, wp_bind]
      rw [wp_quietGet env quiet, onValue_ok]
      simp only [wp_pure, onValue_ok]
      rfl
    have later := ih (w := w.tick) fun rs => f (r.toList ++ rs)
    have clock : w.tick.ticks rest.length = w.ticks (d :: rest).length := by
      rw [List.length_cons, Nat.add_comm rest.length, ← ticks_ticks]
      rfl
    have routes : routesThrough w.db (d :: rest) = r.toList ++ routesThrough w.db rest := by
      rw [routesThrough, List.filterMap_cons]
      cases here : r with
      | none => simp only [r, here]; rfl
      | some r' => simp only [r, here]; rfl
    rw [routes]
    exact clock ▸ here.trans later

theorem buildRoutes_runs {α : Type} (f : List Caddyfile.Route → Py α) :
    RunsAs env (TaskRunner.buildRoutes >>=
      f) w (f (routesIn w.db)) (w.ticks (1 + (w.db .domains).rows.length)) := by
  have all : (w.db .domains).getAll (fun _ => true) = (w.db .domains).rows :=
    List.filter_eq_self.mpr fun _ _ => rfl
  have here : RunsAs env (TaskRunner.buildRoutes >>=
      f) w (TaskRunner.routesOf (w.db .domains).rows >>= f) w.tick := by
    intro ok quiet Q
    simp only [TaskRunner.buildRoutes, wp_bind]
    rw [wp_quietGetAll env quiet, onValue_ok, all]
  have clock : w.tick.ticks (w.db .domains).rows.length =
      w.ticks (1 + (w.db .domains).rows.length) := by
    rw [← ticks_ticks]
    rfl
  exact clock ▸ here.trans (routesOf_runs env _ f)

theorem mem_routesIn {db : Db} {r : Caddyfile.Route} :
    r ∈ routesIn db ↔ ∃ d ∈ (db .domains).rows, ∃ vm, vmOf db d.vmId = some vm ∧
      r = (d.fqdn, vm.ip, d.port) := by
  simp only [routesIn, routesThrough, List.mem_filterMap, Option.map_eq_some_iff]
  simp only [eq_comm (b := r)]

/-- In every database, the script that the routes are put into does what it should, and the routes
can be read back from the Caddyfile, if and only if every name that has a route is literal. -/
theorem faithful_iff (w : World) (dotted : ∀ vm ∈ (w.db .vms).rows, Dotted vm.ip) :
    ∃ routes, (run (exec env) TaskRunner.buildRoutes w).1 = .ok routes ∧
      (Faithful routes ↔ ∀ d ∈ (w.db .domains).rows, (vmOf w.db d.vmId).isSome →
        Literal d.fqdn) := by
  refine ⟨routesIn w.db, ?_, ?_⟩
  · have runs := (buildRoutes_runs env (w := w) pure).run_eq
    rw [bind_pure] at runs
    exact congrArg Prod.fst runs
  · have ips : ∀ r ∈ routesIn w.db, Dotted r.2.1 := by
      intro r there
      obtain ⟨d, _, vm, found, rfl⟩ := mem_routesIn.mp there
      exact dotted vm (Table.get_some found).1
    rw [faithful_of_literal ips]
    constructor
    · intro literal d there found
      obtain ⟨vm, found⟩ := Option.isSome_iff_exists.mp found
      exact literal _ (mem_routesIn.mpr ⟨d, there, vm, found, rfl⟩)
    · intro literal r there
      obtain ⟨d, among, vm, found, rfl⟩ := mem_routesIn.mp there
      exact literal d among (Option.isSome_of_eq_some found)

end Runs

instance : DecidablePred Literal := fun _ => inferInstanceAs (Decidable (_ ∧ _))

/-- A client attaches a name to a VM. -/
def attached (fqdn : Str) : World :=
  (run (exec Sample.env) (Api.serve Sample.cluster 0 "n1" (.createDomain ⟨"v1", 80,
    none, some fqdn⟩))
    Sample.twoVms).2

/-- The second line of the name ends the here-document: the third is a command. -/
def escaping : Str := "a.example\nNYCEOF\nreboot\n#"

theorem dotted_of_all {vms : List VmRow}
    (all : vms.all (fun vm => vm.ip.all fun c => c.isDigit || c == '.') = true) :
    ∀ vm ∈ vms, Dotted vm.ip := by
  intro vm there c among
  have digit := List.all_eq_true.mp (List.all_eq_true.mp all vm there) c among
  rw [Bool.or_eq_true, beq_iff_eq] at digit
  exact digit

theorem script_escapes : ¬ ∀ (env : Env) (w : World), (∀ vm ∈ (w.db .vms).rows, Dotted vm.ip) →
    ∃ routes, (run (exec env) TaskRunner.buildRoutes w).1 = .ok routes ∧ Faithful routes := by
  intro faithful
  have dotted : ∀ vm ∈ ((attached escaping).db .vms).rows, Dotted vm.ip :=
    dotted_of_all (by decide +kernel)
  obtain ⟨routes, built, both⟩ := faithful Sample.env (attached escaping) dotted
  have route : (run (exec Sample.env) TaskRunner.buildRoutes (attached escaping)).1 =
      .ok [(escaping, "172.16.0.2", 80)] := by decide +kernel
  cases built.symm.trans route
  have commands := both.writes
  revert commands
  decide +kernel

theorem script_keeps : ∃ routes,
    (run (exec Sample.env) TaskRunner.buildRoutes (attached "a.example")).1 = .ok routes ∧
      Faithful routes := by
  obtain ⟨routes, built, same⟩ :=
    faithful_iff Sample.env (attached "a.example") (dotted_of_all (by decide +kernel))
  refine ⟨routes, built, same.mpr ?_⟩
  have literal : ((attached "a.example").db .domains).rows.all
      (fun d => decide (Literal d.fqdn)) = true := by
    decide +kernel
  intro d there _
  exact of_decide_eq_true (List.all_eq_true.mp literal d there)

end Routes

end Nyc
