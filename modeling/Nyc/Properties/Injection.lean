import Nyc.Client.Guest
import Nyc.Client.Steps

/-!
# A root file system that is configured twice

A VM spawned from a snapshot of another VM's root is configured on top of what the other VM was.
The files that a session removes before it writes them follow the last request. The mount unit and
the public-IP files are written without that, and nothing takes them away.
-/

namespace Nyc

open Data Effects Effects.Program Client

namespace Injection

/-- What `vm.inject.run` is asked for. -/
structure Wish where
  sshPubkey : Option Str
  dns : Str
  hasDataVolume : Bool
  publicIp : Option PublicIpSpec

def Wish.lines (r : Wish) : List DebugfsLine :=
  Inject.lines r.sshPubkey r.dns r.hasDataVolume r.publicIp

def Wish.run (vmId : Id) (r : Wish) : Sh Unit :=
  Inject.run vmId r.sshPubkey r.dns r.hasDataVolume r.publicIp

/-! ## The managed names -/

/-- The directories that the session finds or makes. -/
inductive Place where
  | rootHome | ssh | etc | system | mountWants | serviceWants | sbin
  deriving DecidableEq

def Place.path : Place → Str
  | rootHome => "/root"
  | ssh => "/root/.ssh"
  | etc => "/etc"
  | system => "/etc/systemd/system"
  | mountWants => "/etc/systemd/system/local-fs.target.wants"
  | serviceWants => "/etc/systemd/system/multi-user.target.wants"
  | sbin => "/usr/local/sbin"

/-- The files that an injection manages. -/
inductive Managed where
  | key | resolv | fstab | mount | mountWanted | script | service | serviceWanted
  deriving DecidableEq

namespace Managed

def path : Managed → Str
  | key => "/root/.ssh/authorized_keys"
  | resolv => "/etc/resolv.conf"
  | fstab => "/etc/fstab"
  | mount => "/etc/systemd/system/home.mount"
  | mountWanted => "/etc/systemd/system/local-fs.target.wants/home.mount"
  | script => "/usr/local/sbin/nyc-pubip.sh"
  | service => "/etc/systemd/system/nyc-pubip.service"
  | serviceWanted => "/etc/systemd/system/multi-user.target.wants/nyc-pubip.service"

/-- The directory that it is in. -/
def place : Managed → Place
  | key => .ssh
  | resolv | fstab => .etc
  | mount | service => .system
  | mountWanted => .mountWants
  | script => .sbin
  | serviceWanted => .serviceWants

/-- The request has the file. -/
def asked (r : Wish) : Managed → Bool
  | key => truthy r.sshPubkey
  | resolv => true
  | fstab | mount | mountWanted => r.hasDataVolume
  | script | service | serviceWanted => r.publicIp.isSome

/-- What it is in a request that has it. -/
def entry (r : Wish) : Managed → Entry
  | key => .file (Text.strip (r.sshPubkey.getD []) ++ "\n")
  | resolv => .file ("nameserver " ++ r.dns ++ "\n")
  | fstab => .file "/dev/vdb\t/home\text4\tdefaults,nofail\t0\t2\n"
  | mount => .file Inject.MOUNT_UNIT
  | mountWanted => .link "../home.mount"
  | script => .file ((r.publicIp.map Inject.pubipScript).getD [])
  | service => .file Inject.PUBIP_SERVICE
  | serviceWanted => .link "../nyc-pubip.service"

end Managed

/-- The managed files are those of the request: each file that it has is there as it has it, and
without a public address the service that would set one up lacks one of its parts. -/
structure Reflects (r : Wish) (g : Guest) : Prop where
  written : ∀ f : Managed, f.asked r = true → g.entry f.path = some (f.entry r)
  disabled : r.publicIp = none → g.entry Managed.script.path = none ∨
    g.entry Managed.service.path = none ∨
    g.entry Managed.serviceWanted.path = none

/-! ## What a session does to each of them -/

/-- What `rm` refuses. -/
def Refuses (e : Option Entry) : Prop := e = some .dir ∨ e = some (.damaged .directory)

instance (e : Option Entry) : Decidable (Refuses e) := inferInstanceAs (Decidable (_ ∨ _))

/-- How a file gets there: with an `rm` and a mode, with a mode only, or with neither. -/
inductive Manner where
  | rewritten
  | placed
  | linked
  deriving DecidableEq

def Manner.fill (entry : Entry) : Manner → Option Entry → Option Entry
  | rewritten, e => if Refuses e then some (.damaged .regular) else some entry
  | placed, none => some entry
  | placed, some e => some (e.retype .regular)
  | linked, e => some (e.getD entry)

def Managed.manner : Managed → Manner
  | key | resolv | fstab => .rewritten
  | mount | script | service => .placed
  | mountWanted | serviceWanted => .linked

/-- The directory is there. -/
def There (g : Guest) (p : Place) : Prop := g.entry p.path = some .dir

instance (g : Guest) (p : Place) : Decidable (There g p) := inferInstanceAs (Decidable (_ = _))

/-- The directory is there, or can be made. -/
def Ready (g : Guest) (p : Place) : Prop := g.entry p.path = none ∨ There g p

instance (g : Guest) (p : Place) : Decidable (Ready g p) := inferInstanceAs (Decidable (_ ∨ _))

/-- A session that has the file finds its directory, or makes it. -/
def Managed.Reachable (g : Guest) : Managed → Prop
  | key => There g .rootHome ∧ Ready g .ssh
  | resolv | fstab => There g .etc
  | mount | service => There g .system
  | mountWanted => There g .system ∧ Ready g .mountWants
  | script => There g .sbin
  | serviceWanted => There g .system ∧ Ready g .serviceWants

/-! ### The names are apart -/

/-- A name that a session is about, or that is on the way. -/
inductive Name where
  | file (f : Managed)
  | place (p : Place)
  deriving DecidableEq

def Name.path : Name → Str
  | file f => f.path
  | place p => p.path

def Managed.all : List Managed :=
  [key, resolv, fstab, mount, mountWanted, script, service, serviceWanted]

theorem Managed.mem_all (f : Managed) : f ∈ Managed.all := by
  cases f <;> simp [Managed.all]

def Place.all : List Place := [rootHome, ssh, etc, system, mountWants, serviceWants, sbin]

theorem Place.mem_all (p : Place) : p ∈ Place.all := by
  cases p <;> simp [Place.all]

/-- No name is below a file, or is its name. -/
theorem file_apart {f : Managed} {n : Name} (other : n ≠ .file f) :
    f.path ≠ n.path ∧ ¬ Below f.path n.path := by
  have files : ∀ f ∈ Managed.all, ∀ f' ∈ Managed.all, f' ≠ f → f.path ≠ f'.path ∧
      ¬ Below f.path f'.path := by
    decide
  have places : ∀ f ∈ Managed.all, ∀ p ∈ Place.all, f.path ≠ p.path ∧ ¬ Below f.path p.path := by
    decide
  cases n with
  | file f' =>
    apply files f f.mem_all f' f'.mem_all
    rintro rfl
    exact other rfl
  | place p => exact places f f.mem_all p p.mem_all

theorem place_apart {p : Place} {n : Name} (other : n ≠ .place p) : p.path ≠ n.path := by
  have places : ∀ p ∈ Place.all, ∀ p' ∈ Place.all, p' ≠ p → p.path ≠ p'.path := by decide
  cases n with
  | file f => exact (@file_apart f (.place p) (by rintro ⟨⟩)).1.symm
  | place p' =>
    apply places p p.mem_all p' p'.mem_all
    rintro rfl
    exact other rfl

/-- The parent of a name whose last part is given. -/
theorem parent_of (d : Str) {last : Str} (plain : '/' ∉ last) : parent (d ++ '/' :: last) = d := by
  have drops : (d ++ '/' :: last).rdropWhile (· ≠ '/') = d ++ ['/'] := by
    have all : ∀ c ∈ last.reverse, decide (c ≠ '/') = true := by
      intro c there
      rw [decide_eq_true_iff]
      rintro rfl
      exact plain (List.mem_reverse.mp there)
    rw [List.rdropWhile, List.reverse_append, List.reverse_cons, List.append_assoc,
      List.dropWhile_append_of_pos all]
    simp
  rw [parent, drops, List.dropLast_concat]

theorem parent_file (f : Managed) : parent f.path = f.place.path := by
  cases f with
  | key => exact parent_of "/root/.ssh" (show '/' ∉ "authorized_keys".toList by decide)
  | resolv => exact parent_of "/etc" (show '/' ∉ "resolv.conf".toList by decide)
  | fstab => exact parent_of "/etc" (show '/' ∉ "fstab".toList by decide)
  | mount => exact parent_of "/etc/systemd/system" (show '/' ∉ "home.mount".toList by decide)
  | mountWanted =>
    exact parent_of "/etc/systemd/system/local-fs.target.wants"
      (show '/' ∉ "home.mount".toList by decide)
  | script => exact parent_of "/usr/local/sbin" (show '/' ∉ "nyc-pubip.sh".toList by decide)
  | service =>
    exact parent_of "/etc/systemd/system" (show '/' ∉ "nyc-pubip.service".toList by decide)
  | serviceWanted =>
    exact parent_of "/etc/systemd/system/multi-user.target.wants"
      (show '/' ∉ "nyc-pubip.service".toList by decide)

/-- The directories that a session makes, and those that they are in. -/
inductive Made : Place → Place → Prop where
  | ssh : Made .ssh .rootHome
  | mountWants : Made .mountWants .system
  | serviceWants : Made .serviceWants .system

theorem Made.parent_eq {p above : Place} (made : Made p above) : parent p.path = above.path := by
  cases made with
  | ssh => exact parent_of "/root" (show '/' ∉ ".ssh".toList by decide)
  | mountWants =>
    exact parent_of "/etc/systemd/system" (show '/' ∉ "local-fs.target.wants".toList by decide)
  | serviceWants =>
    exact parent_of "/etc/systemd/system" (show '/' ∉ "multi-user.target.wants".toList by decide)

theorem Place.named (p : Place) : p.path ≠ [] := by cases p <;> decide

theorem isDir_place (g : Guest) (p : Place) : g.IsDir p.path ↔ There g p := or_iff_right p.named

section Lines

variable (r : Wish) (g : Guest)

/-- The lines about a file. -/
def block : Managed → List DebugfsLine
  | .key => [.rm Managed.key.path, .write (Text.strip (r.sshPubkey.getD []) ++
    "\n") Managed.key.path] ++
      Inject.owned Managed.key.path "0100600"
  | .resolv => Inject.resolv r.dns
  | .fstab => Inject.fstab
  | .mount => [.write Inject.MOUNT_UNIT Managed.mount.path] ++
    [.setInodeField Managed.mount.path "mode" "0100644"]
  | .mountWanted => [.symlink Managed.mountWanted.path "../home.mount"]
  | .script => [.write ((r.publicIp.map Inject.pubipScript).getD []) Managed.script.path] ++
      Inject.owned Managed.script.path "0100755"
  | .service => [.write Inject.PUBIP_SERVICE Managed.service.path] ++
    Inject.owned Managed.service.path "0100644"
  | .serviceWanted => [.symlink Managed.serviceWanted.path "../nyc-pubip.service"]

def made (p : Place) : List DebugfsLine := [.mkdir p.path]

def sshMode : List DebugfsLine := [.setInodeField Place.ssh.path "mode" "040700"]

/-- The parts of a session, in their order. -/
def keyLines : List DebugfsLine :=
  if truthy r.sshPubkey then made .ssh ++ (block r .key ++ sshMode) else []

def dataLines : List DebugfsLine :=
  if r.hasDataVolume then block r .fstab ++
    (made .mountWants ++ (block r .mount ++ block r .mountWanted)) else []

def addressLines : List DebugfsLine :=
  if r.publicIp.isSome then block r .script ++
    (block r .service ++ (made .serviceWants ++ block r .serviceWanted))
  else []

theorem lines_eq :
    r.lines = keyLines r ++ (block r .resolv ++ (dataLines r ++ addressLines r)) := by
  have address : r.publicIp.elim [] Inject.pubipUnit = addressLines r := by
    unfold addressLines block
    cases r.publicIp <;> rfl
  rw [Wish.lines, Inject.lines, List.append_assoc, List.append_assoc, address]
  rfl

/-! ### What the lines are about -/

/-- The lines are about these names, and make nothing else of a directory that is one. -/
def Touches (names : List Name) (lines : List DebugfsLine) : Prop :=
  ∀ l ∈ lines, ∃ n ∈ names, l.path = n.path ∧ ∀ p, n = .place p → l.Keeps

theorem Touches.append {ns ms : List Name} {first second : List DebugfsLine}
    (touches : Touches ns first)
    (touches' : Touches ms second) : Touches (ns ++ ms) (first ++ second) := by
  intro l there
  rcases List.mem_append.mp there with there | there
  · obtain ⟨n, known, about⟩ := touches l there
    exact ⟨n, List.mem_append_left _ known, about⟩
  · obtain ⟨n, known, about⟩ := touches' l there
    exact ⟨n, List.mem_append_right _ known, about⟩

theorem Touches.ite {c : Prop} [Decidable c] {names : List Name} {lines : List DebugfsLine}
    (touches : Touches names lines) : Touches names (if c then lines else []) := by
  split
  · exact touches
  · intro l there
    cases there

theorem touches_nil : Touches [] [] := by
  intro l there
  cases there

/-- Every other name is spared. -/
theorem Touches.spare {names : List Name} {lines : List DebugfsLine} (touches : Touches names lines)
    {n : Name} (other : n ∉ names) : ∀ l ∈ lines, l.Spares n.path := by
  intro l there
  obtain ⟨m, known, about, keeps⟩ := touches l there
  have apart : n ≠ m := by
    rintro rfl
    exact other known
  rw [DebugfsLine.Spares, about]
  cases m with
  | file f => exact ⟨(file_apart apart).1, fun below => absurd below (file_apart apart).2⟩
  | place p => exact ⟨place_apart apart, fun _ => keeps p rfl⟩

theorem Touches.spareFile {names : List Name} {lines : List DebugfsLine}
    (touches : Touches names lines) {f : Managed}
    (other : .file f ∉ names) : ∀ l ∈ lines, l.Spares f.path := touches.spare other

theorem Touches.sparePlace {names : List Name} {lines : List DebugfsLine}
    (touches : Touches names lines) {p : Place}
    (other : .place p ∉ names) : ∀ l ∈ lines, l.Spares p.path := touches.spare other

theorem touches_made (p : Place) : Touches [.place p] (made p) := by
  intro l there
  cases List.mem_singleton.mp there
  exact ⟨.place p, List.mem_cons_self, rfl, fun _ _ => rfl⟩

theorem touches_sshMode : Touches [.place .ssh] sshMode := by
  intro l there
  cases List.mem_singleton.mp there
  exact ⟨.place .ssh, List.mem_cons_self, rfl, fun _ _ => by decide⟩

theorem about_of_paths {lines : List DebugfsLine} {q : Str} (n : Nat)
    (paths : lines.map DebugfsLine.path = List.replicate n q) : ∀ l ∈ lines, l.path = q := by
  intro l there
  apply List.eq_of_mem_replicate
  rw [← paths]
  exact List.mem_map_of_mem there

theorem block_about (f : Managed) : ∀ l ∈ block r f, l.path = f.path := by
  cases f with
  | key | resolv | fstab => exact about_of_paths 5 rfl
  | script | service => exact about_of_paths 4 rfl
  | mount => exact about_of_paths 2 rfl
  | mountWanted | serviceWanted => exact about_of_paths 1 rfl

theorem touches_block (f : Managed) : Touches [.file f] (block r f) := by
  intro l there
  refine ⟨.file f, List.mem_cons_self, block_about r f l there, ?_⟩
  intro p same
  cases same

theorem touches_key : Touches [.place .ssh, .file .key, .place .ssh] (keyLines r) :=
  ((touches_made .ssh).append ((touches_block r .key).append touches_sshMode)).ite

theorem touches_data :
    Touches [.file .fstab, .place .mountWants, .file .mount, .file .mountWanted] (dataLines r) :=
  ((touches_block r .fstab).append ((touches_made .mountWants).append
    ((touches_block r .mount).append (touches_block r .mountWanted)))).ite

theorem touches_address :
    Touches [.file .script, .file .service, .place .serviceWants,
      .file .serviceWanted] (addressLines r) :=
  ((touches_block r .script).append ((touches_block r .service).append
    ((touches_made .serviceWants).append (touches_block r .serviceWanted)))).ite

/-! ### One file -/

/-- Lines about one name, between lines that spare it. -/
theorem session_block {before lines after : List DebugfsLine} {q : Str} (named : q ≠ [])
    (about : ∀ l ∈ lines, l.path = q) (earlier : ∀ l ∈ before, l.Spares q)
    (later : ∀ l ∈ after, l.Spares q)
    {inside : Prop} [Decidable inside] (known : (session before g).IsDir (parent q) ↔ inside) :
    (session (before ++ (lines ++ after)) g).entry q = if inside then fate lines
      (g.entry q) else g.entry q := by
  rw [session_append, session_append, session_spared later, session_here named about,
    session_spared earlier]
  exact if_congr known rfl rfl

theorem there_spared {p : Place} {before : List DebugfsLine}
    (spares : ∀ l ∈ before, l.Spares p.path) :
    There (session before g) p ↔ There g p := by
  rw [There, There, session_spared spares]

/-- What becomes of a directory that is made on the way. -/
theorem entry_made {before after : List DebugfsLine} {p above : Place} (known : Made p above)
    (earlier : ∀ l ∈ before, l.Spares p.path) (outer : ∀ l ∈ before, l.Spares above.path)
    (later : ∀ l ∈ after, l.Spares p.path) :
    (session (before ++ (made p ++ after)) g).entry p.path =
      if There g above then some ((g.entry p.path).getD .dir) else g.entry p.path := by
  have inside : (session before g).IsDir (parent p.path) ↔ There g above := by
    rw [known.parent_eq, isDir_place, there_spared g outer]
  rw [session_block g p.named (about_of_paths 1 rfl) earlier later inside]
  cases g.entry p.path <;> rfl

/-- Nothing is in a directory that is not there. -/
theorem none_below {q : Str} {p : Place} (within : parent q = p.path) (missing : ¬ There g p) :
    g.entry q = none := by
  by_contra there
  have inside := g.rooted q there
  rw [within] at inside
  exact missing ((isDir_place g p).mp inside)

theorem there_made {before after : List DebugfsLine} {p above : Place} (known : Made p above)
    (earlier : ∀ l ∈ before, l.Spares p.path) (outer : ∀ l ∈ before, l.Spares above.path)
    (later : ∀ l ∈ after, l.Spares p.path) :
    There (session (before ++ (made p ++ after)) g) p ↔ There g above ∧ Ready g p := by
  change (session (before ++ (made p ++ after)) g).entry p.path = some .dir ↔
    There g above ∧ (g.entry p.path = none ∨ g.entry p.path = some .dir)
  rw [entry_made g known earlier outer later]
  by_cases inside : There g above
  · rw [if_pos inside, and_iff_right inside]
    cases g.entry p.path with
    | none => exact iff_of_true rfl (.inl rfl)
    | some e => exact (or_iff_right (Option.some_ne_none e)).symm
  · rw [if_neg inside, none_below g known.parent_eq inside]
    exact iff_of_false (Option.some_ne_none _ ∘ Eq.symm) (fun both => inside both.1)

/-- An owner is no part of what a name stands for. -/
theorem fate_owned (path mode : Str) (before : List DebugfsLine) (e : Option Entry) :
    fate (before ++ Inject.owned path mode) e = fate (before ++
      [.setInodeField path "mode" mode]) e := by
  have owner : ∀ field ∈ (["uid", "gid"] : List Str), ∀ e : Option Entry,
      DebugfsLine.act (.setInodeField path field "0") e = e := by
    intro field known e
    have other : field ≠ "mode" := by
      rintro rfl
      revert known
      decide
    cases e with
    | none => rfl
    | some e => exact if_neg other
  have uid := owner "uid" (by decide)
  have gid := owner "gid" (by decide)
  simp only [fate, Inject.owned, List.foldl_append, List.foldl_cons, List.foldl_nil, uid, gid]

theorem act_mode (path : Str) {mode : Str} (regular : FileType.ofMode mode = some .regular)
    (e : Entry) :
    DebugfsLine.act (.setInodeField path "mode" mode) (some e) = some (e.retype .regular) := by
  simp only [DebugfsLine.act, if_true, regular, Option.map_some, Option.getD_some]

/-- `rm`, `write` and a mode. -/
theorem fate_rewritten (text path : Str) {mode : Str}
    (regular : FileType.ofMode mode = some .regular)
    (e : Option Entry) : fate ([.rm path, .write text path] ++ Inject.owned path mode) e =
      Manner.rewritten.fill (.file text) e := by
  rw [fate_owned]
  match e with
  | none | some (.file _) | some (.link _)
  | some (.damaged .regular) => exact act_mode path regular _
  | some .dir | some (.damaged .directory) => exact act_mode path regular _

/-- `write` and a mode. -/
theorem fate_placed (text path : Str) {mode : Str} (regular : FileType.ofMode mode = some .regular)
    (e : Option Entry) : fate ([.write text path] ++ [.setInodeField path "mode" mode]) e =
      Manner.placed.fill (.file text) e := by
  cases e with
  | none => exact act_mode path regular (.file text)
  | some e => exact act_mode path regular e

/-- What its lines make of a file, in its directory. -/
theorem block_fate (f : Managed) (e : Option Entry) :
    fate (block r f) e = f.manner.fill (f.entry r) e := by
  cases f with
  | key => exact fate_rewritten _ _ (by decide) e
  | resolv => exact fate_rewritten _ _ (by decide) e
  | fstab => exact fate_rewritten _ _ (by decide) e
  | mount => exact fate_placed _ _ (by decide) e
  | script =>
    rw [block, fate_owned]
    exact fate_placed _ _ (by decide) e
  | service =>
    rw [block, fate_owned]
    exact fate_placed _ _ (by decide) e
  | mountWanted | serviceWanted => cases e <;> rfl

/-! ### The whole session -/

/-- What the session of a request makes of a root file system. -/
def edited : Guest := session r.lines g

/-- Where the lines about a file stand in the session. -/
structure Stands (f : Managed) (before after : List DebugfsLine) : Prop where
  lines : r.lines = before ++ (block r f ++ after)
  earlier : ∀ l ∈ before, l.Spares f.path
  later : ∀ l ∈ after, l.Spares f.path
  inside : ∀ g : Guest, There (session before g) f.place ↔ f.Reachable g

theorem keyLines_asked (asked : truthy r.sshPubkey = true) :
    keyLines r = made .ssh ++ (block r .key ++ sshMode) := if_pos asked

theorem dataLines_asked (asked : r.hasDataVolume = true) : dataLines r =
    block r .fstab ++ (made .mountWants ++ (block r .mount ++ block r .mountWanted)) := if_pos asked

theorem addressLines_asked (asked : r.publicIp.isSome = true) : addressLines r =
    block r .script ++ (block r .service ++
      (made .serviceWants ++ block r .serviceWanted)) := if_pos asked

/-- The lines about each file that a request has, in order. -/
theorem stands (f : Managed) (asked : f.asked r = true) :
    ∃ before after, Stands r f before after := by
  -- what each part of the session touches, in the order of the lines
  have key := touches_key r
  have resolv := touches_block r .resolv
  have fstab := touches_block r .fstab
  have mount := touches_block r .mount
  have wanted := touches_block r .mountWanted
  have data := touches_data r
  have script := touches_block r .script
  have service := touches_block r .service
  have address := touches_address r
  -- the file splits the session: the parts before it and the parts after it spare its path
  cases f with
  | key =>
    have after := touches_sshMode.append (resolv.append (data.append address))
    refine ⟨made .ssh, _, ?_, (touches_made .ssh).spareFile (by decide),
      after.spareFile (by decide), fun g => ?_⟩
    · rw [lines_eq, keyLines_asked r asked, List.append_assoc, List.append_assoc]
    · exact there_made g .ssh (touches_nil.sparePlace (by decide))
        (touches_nil.sparePlace (by decide))
        (touches_nil.sparePlace (by decide))
  | resolv =>
    refine ⟨keyLines r, _, lines_eq r, key.spareFile (by decide),
      (data.append address).spareFile (by decide), fun g => ?_⟩
    exact there_spared g (key.sparePlace (by decide))
  | fstab =>
    have before := key.append resolv
    have after := ((touches_made .mountWants).append (mount.append wanted)).append address
    refine ⟨_, _, ?_, before.spareFile (by decide), after.spareFile (by decide), fun g => ?_⟩
    · rw [lines_eq, dataLines_asked r asked]
      simp only [List.append_assoc]
    · exact there_spared g (before.sparePlace (by decide))
  | mount =>
    have before := key.append (resolv.append (fstab.append (touches_made .mountWants)))
    have after := wanted.append address
    refine ⟨_, _, ?_, before.spareFile (by decide), after.spareFile (by decide), fun g => ?_⟩
    · rw [lines_eq, dataLines_asked r asked]
      simp only [List.append_assoc]
    · exact there_spared g (before.sparePlace (by decide))
  | mountWanted =>
    have before := key.append (resolv.append fstab)
    have before' := before.append ((touches_made .mountWants).append mount)
    refine ⟨_, _, ?_, before'.spareFile (by decide), address.spareFile (by decide), fun g => ?_⟩
    · rw [lines_eq, dataLines_asked r asked]
      simp only [List.append_assoc]
    · exact there_made g .mountWants (before.sparePlace (by decide)) (before.sparePlace (by decide))
        (mount.sparePlace (by decide))
  | script =>
    have before := key.append (resolv.append data)
    have after := service.append ((touches_made .serviceWants).append
      (touches_block r .serviceWanted))
    refine ⟨_, _, ?_, before.spareFile (by decide), after.spareFile (by decide), fun g => ?_⟩
    · rw [lines_eq, addressLines_asked r asked]
      simp only [List.append_assoc]
    · exact there_spared g (before.sparePlace (by decide))
  | service =>
    have before := key.append (resolv.append (data.append script))
    have after := (touches_made .serviceWants).append (touches_block r .serviceWanted)
    refine ⟨_, _, ?_, before.spareFile (by decide), after.spareFile (by decide), fun g => ?_⟩
    · rw [lines_eq, addressLines_asked r asked]
      simp only [List.append_assoc]
    · exact there_spared g (before.sparePlace (by decide))
  | serviceWanted =>
    have before := key.append (resolv.append (data.append (script.append service)))
    have before' := before.append ((touches_made .serviceWants).append touches_nil)
    refine ⟨_, [], ?_, before'.spareFile (by decide),
      touches_nil.spareFile (by decide), fun g => ?_⟩
    · rw [lines_eq, addressLines_asked r asked]
      simp only [List.append_assoc, List.append_nil]
    · exact there_made g .serviceWants (before.sparePlace (by decide))
        (before.sparePlace (by decide))
        (touches_nil.sparePlace (by decide))

instance (f : Managed) : Decidable (f.Reachable g) := by
  cases f <;> unfold Managed.Reachable <;> infer_instance

/-- Nothing is done to a name that all parts of the session spare. -/
theorem edited_spared {n : Name}
    (key : truthy r.sshPubkey = true → n ≠ .file .key ∧ n ≠ .place .ssh)
    (resolv : n ≠ .file .resolv)
    (data : r.hasDataVolume = true → n ∉ ([.file .fstab, .place .mountWants, .file .mount,
      .file .mountWanted] : List Name))
    (address : r.publicIp.isSome = true →
      n ∉ ([.file .script, .file .service, .place .serviceWants,
        .file .serviceWanted] : List Name)) :
    (edited r g).entry n.path = g.entry n.path := by
  have none_ : ∀ l ∈ ([] : List DebugfsLine), l.Spares n.path := by
    intro l there
    cases there
  rw [edited, lines_eq]
  apply session_spared
  simp only [List.forall_mem_append]
  refine ⟨?_, (touches_block r .resolv).spare ?_, ?_, ?_⟩
  · by_cases asked : truthy r.sshPubkey = true
    · apply (touches_key r).spare
      simp only [List.mem_cons, List.not_mem_nil, or_false, not_or]
      exact ⟨(key asked).2, (key asked).1, (key asked).2⟩
    · rwa [keyLines, if_neg asked]
  · rwa [List.mem_singleton]
  · by_cases asked : r.hasDataVolume = true
    · exact (touches_data r).spare (data asked)
    · rwa [dataLines, if_neg asked]
  · by_cases asked : r.publicIp.isSome = true
    · exact (touches_address r).spare (address asked)
    · rwa [addressLines, if_neg asked]

/-- A file that the request does not have stays what it is. -/
theorem edited_unasked {f : Managed} (unasked : ¬ f.asked r = true) :
    (edited r g).entry f.path = g.entry f.path := by
  apply edited_spared r g (n := .file f)
  · intro asked
    exact ⟨fun same => by cases same; exact unasked asked, by rintro ⟨⟩⟩
  · rintro ⟨⟩
    exact unasked rfl
  · intro asked known
    cases f <;> first | exact unasked asked | (revert known; decide)
  · intro asked known
    cases f <;> first | exact unasked asked | (revert known; decide)

/-- What a session makes of each file. -/
theorem edited_at (f : Managed) : (edited r g).entry f.path =
    if f.asked r = true ∧ f.Reachable g then f.manner.fill (f.entry r)
      (g.entry f.path) else g.entry f.path := by
  by_cases asked : f.asked r = true
  · obtain ⟨before, after, stands⟩ := stands r f asked
    have named : f.path ≠ [] := by cases f <;> decide
    have inside : (session before g).IsDir (parent f.path) ↔ f.asked r = true ∧ f.Reachable g := by
      rw [parent_file, isDir_place, stands.inside g, and_iff_right asked]
    rw [edited, stands.lines,
      session_block g named (block_about r f) stands.earlier stands.later inside, block_fate]
  · rw [edited_unasked r g asked, if_neg fun both => asked both.1]

/-- A directory that no session makes. -/
theorem there_edited {p : Place} (other : p ∉ ([.ssh, .mountWants, .serviceWants] : List Place)) :
    There (edited r g) p ↔ There g p := by
  have same : (edited r g).entry (Name.place p).path = g.entry (Name.place p).path := by
    simp only [List.mem_cons, List.not_mem_nil, or_false, not_or] at other
    apply edited_spared
    · exact fun _ => ⟨by rintro ⟨⟩, fun same => other.1 (Name.place.inj same)⟩
    · rintro ⟨⟩
    · intro _ known
      simp only [List.mem_cons, List.not_mem_nil, or_false, Name.place.injEq, reduceCtorEq,
        false_or] at known
      exact other.2.1 known
    · intro _ known
      simp only [List.mem_cons, List.not_mem_nil, or_false, Name.place.injEq, reduceCtorEq,
        false_or] at known
      exact other.2.2 known
  rw [There, There]
  exact iff_of_eq (congrArg (· = _) same)

variable {g} {before after : List DebugfsLine} {p above : Place}

/-- A directory that a session makes is as ready for the next. -/
theorem ready_made (known : Made p above) (earlier : ∀ l ∈ before, l.Spares p.path)
    (outer : ∀ l ∈ before, l.Spares above.path) (later : ∀ l ∈ after, l.Spares p.path) :
    Ready (session (before ++ (made p ++ after)) g) p ↔ Ready g p := by
  have made := entry_made g known earlier outer later
  unfold Ready There
  rw [made]
  split
  · cases g.entry p.path with
    | none => exact iff_of_true (.inr rfl) (.inl rfl)
    | some e => rfl
  · rfl

variable (g)

theorem ready_mountWants : Ready (edited r g) .mountWants ↔ Ready g .mountWants := by
  by_cases asked : r.hasDataVolume = true
  · have before := (touches_key r).append
      ((touches_block r .resolv).append (touches_block r .fstab))
    have after := ((touches_block r .mount).append (touches_block r .mountWanted)).append
      (touches_address r)
    have split : r.lines = (keyLines r ++ (block r .resolv ++ block r .fstab)) ++
        (made .mountWants ++
        ((block r .mount ++ block r .mountWanted) ++ addressLines r)) := by
      rw [lines_eq, dataLines_asked r asked]
      simp only [List.append_assoc]
    rw [edited, split]
    exact ready_made .mountWants (before.sparePlace (by decide)) (before.sparePlace (by decide))
      (after.sparePlace (by decide))
  · have same : (edited r g).entry (Name.place .mountWants).path =
        g.entry (Name.place .mountWants).path :=
      edited_spared r g (fun _ => by decide) (by decide) (absurd · asked) (fun _ => by decide)
    exact or_congr (iff_of_eq (congrArg (· = _) same)) (iff_of_eq (congrArg (· = _) same))

theorem ready_serviceWants : Ready (edited r g) .serviceWants ↔ Ready g .serviceWants := by
  by_cases asked : r.publicIp.isSome = true
  · have before := (touches_key r).append ((touches_block r .resolv).append ((touches_data r).append
      ((touches_block r .script).append (touches_block r .service))))
    have split : r.lines = (keyLines r ++ (block r .resolv ++ (dataLines r ++ (block r .script ++
        block r .service)))) ++ (made .serviceWants ++ block r .serviceWanted) := by
      rw [lines_eq, addressLines_asked r asked]
      simp only [List.append_assoc]
    rw [edited, split]
    exact ready_made .serviceWants (before.sparePlace (by decide)) (before.sparePlace (by decide))
      ((touches_block r .serviceWanted).sparePlace (by decide))
  · have same : (edited r g).entry (Name.place .serviceWants).path =
        g.entry (Name.place .serviceWants).path :=
      edited_spared r g (fun _ => by decide) (by decide) (fun _ => by decide) (absurd · asked)
    exact or_congr (iff_of_eq (congrArg (· = _) same)) (iff_of_eq (congrArg (· = _) same))

/-- What the lines about it make of `/root/.ssh`. -/
theorem entry_ssh (asked : truthy r.sshPubkey = true) (inside : There g .rootHome) :
    (edited r g).entry Place.ssh.path = fate (made .ssh ++ sshMode) (g.entry Place.ssh.path) := by
  have block_ := touches_block r .key
  have rest := (touches_block r .resolv).append ((touches_data r).append (touches_address r))
  have split : r.lines = ((made .ssh ++ block r .key) ++
      (sshMode ++ (block r .resolv ++ (dataLines r ++
      addressLines r)))) := by
    rw [lines_eq, keyLines_asked r asked]
    simp only [List.append_assoc]
  have first : (session (made .ssh ++ block r .key) g).entry Place.ssh.path =
      fate (made .ssh) (g.entry Place.ssh.path) := by
    rw [session_append, session_spared (block_.sparePlace (by decide)),
      session_here Place.ssh.named (about_of_paths 1 rfl), Made.ssh.parent_eq, if_pos (.inr inside)]
  have root : There (session (made .ssh ++ block r .key) g) .rootHome := by
    have before := (touches_made .ssh).append block_
    exact (there_spared g (before.sparePlace (by decide))).mpr inside
  rw [edited, split, session_append, session_append, session_spared (rest.sparePlace (by decide)),
    session_here Place.ssh.named (about_of_paths 1 rfl), Made.ssh.parent_eq, if_pos (.inr root),
      first, fate, fate,
    fate, List.foldl_append]

/-- The type bits of a directory make one of an empty file, too. -/
theorem ready_ssh (inside : There g .rootHome) : Ready (edited r g) .ssh ↔
    Ready g .ssh ∨ g.entry Place.ssh.path = some (.file []) ∧ truthy r.sshPubkey = true := by
  by_cases asked : truthy r.sshPubkey = true
  -- the key is asked for: mkdir of the place, then its mode
  · have type : FileType.ofMode "040700" = some .directory := by decide
    have last := entry_ssh r g asked inside
    unfold Ready There
    rw [last]
    simp only [fate, made, sshMode, List.cons_append, List.nil_append,
      List.foldl_cons, List.foldl_nil]
    cases g.entry Place.ssh.path with
    | none => exact iff_of_true (.inr (by decide)) (.inl (.inl rfl))
    | some e =>
      have mode : DebugfsLine.act (.setInodeField Place.ssh.path "mode" "040700") (some e) =
          some (e.retype .directory) := by
        simp only [DebugfsLine.act, if_true, type, Option.map_some, Option.getD_some]
      change DebugfsLine.act (.setInodeField Place.ssh.path "mode" "040700") (some e) = none ∨
        DebugfsLine.act (.setInodeField Place.ssh.path "mode" "040700") (some e) = some .dir ↔ _
      rw [mode]
      -- `040700` makes any entry a directory but a file with text in it
      match e with
      | .dir => simp [Entry.retype]
      | .file [] => simp [Entry.retype, asked]
      | .file (c :: text) => simp [Entry.retype]
      | .link target => simp [Entry.retype]
      | .damaged type => simp [Entry.retype]
  -- no key: no line of the session names the place
  · have same : (edited r g).entry (Name.place .ssh).path = g.entry (Name.place .ssh).path :=
      edited_spared r g (absurd · asked) (by decide) (fun _ => by decide) (fun _ => by decide)
    have ready : Ready (edited r g) .ssh ↔ Ready g .ssh :=
      or_congr (iff_of_eq (congrArg (· = _) same)) (iff_of_eq (congrArg (· = _) same))
    rw [ready]
    exact (or_iff_left fun opened => asked opened.2).symm

end Lines

/-! ### Where a file cannot be -/

section Places

variable (r : Wish) (g : Guest)

/-- Nothing is where no session could put it. -/
theorem unreachable {f : Managed} (lost : ¬ f.Reachable g) : g.entry f.path = none := by
  apply none_below g (parent_file f)
  intro there
  apply lost
  -- a directory that a session would make is itself in one
  have within {above : Place} (known : Made f.place above) : There g above ∧ Ready g f.place := by
    refine ⟨?_, .inr there⟩
    by_contra missing
    rw [There, none_below g known.parent_eq missing] at there
    cases there
  cases f with
  | key => exact within .ssh
  | mountWanted => exact within .mountWants
  | serviceWanted => exact within .serviceWants
  | resolv | fstab | mount | service | script => exact there

/-- An empty file in the place of `/root/.ssh`, which an earlier request for a key makes a
directory. -/
def Managed.Opened (r : Wish) (g : Guest) (f : Managed) : Prop :=
  f = .key ∧ g.entry Place.ssh.path = some (.file []) ∧ truthy r.sshPubkey = true

/-- A second session finds the directories that the first one found. -/
theorem reachable_edited (f : Managed) :
    f.Reachable (edited r g) ↔ f.Reachable g ∨ f.Opened r g := by
  have closed (other : f ≠ .key) : ¬ f.Opened r g := fun opened => other opened.1
  cases f with
  | key =>
    have root := there_edited r g (p := .rootHome) (by decide)
    constructor
    · rintro ⟨inside, ready⟩
      rcases (ready_ssh r g (root.mp inside)).mp ready with now | later
      · exact .inl ⟨root.mp inside, now⟩
      · exact .inr ⟨rfl, later⟩
    · rintro (⟨inside, ready⟩ | ⟨-, empty, asked⟩)
      · exact ⟨root.mpr inside, (ready_ssh r g inside).mpr (.inl ready)⟩
      · -- the empty file is in `/root`
        have inside : There g .rootHome := by
          by_contra missing
          rw [none_below g Made.ssh.parent_eq missing] at empty
          cases empty
        exact ⟨root.mpr inside, (ready_ssh r g inside).mpr (.inr ⟨empty, asked⟩)⟩
  | resolv | fstab | mount | service | script =>
    rw [or_iff_left (closed (by decide))]
    exact there_edited r g (by decide)
  | mountWanted =>
    rw [or_iff_left (closed (by decide))]
    exact and_congr (there_edited r g (by decide)) (ready_mountWants r g)
  | serviceWanted =>
    rw [or_iff_left (closed (by decide))]
    exact and_congr (there_edited r g (by decide)) (ready_serviceWants r g)

end Places

/-! ### What is filled in -/

/-- What is filled in this manner: a text or a link. -/
def Manner.Fits : Manner → Entry → Prop
  | rewritten, .file _ | placed, .file _ | linked, .link _ => True
  | _, _ => False

theorem Managed.fits (r : Wish) (f : Managed) : f.manner.Fits (f.entry r) := by
  cases f <;> trivial

/-- The name is free, or stands for the entry already. -/
def Vacant (e : Option Entry) (entry : Entry) : Prop := e = none ∨ e = some entry

section Fill

variable {m : Manner} {entry entry' : Entry} {e : Option Entry}

theorem fill_ne_none : m.fill entry e ≠ none := by
  cases m with
  | rewritten =>
    rw [Manner.fill]
    split <;> exact Option.some_ne_none _
  | placed => cases e <;> exact Option.some_ne_none _
  | linked => exact Option.some_ne_none _

theorem fill_none (other : m ≠ .rewritten) : m.fill entry none = some entry := by
  cases m with
  | rewritten => exact absurd rfl other
  | placed | linked => rfl

/-- What is there is not replaced, where nothing removes it. -/
theorem fill_some (other : m ≠ .rewritten) (fits : m.Fits entry) {x : Entry} :
    m.fill entry' (some x) = some entry ↔ x = entry := by
  cases m with
  | rewritten => exact absurd rfl other
  | linked => simp [Manner.fill]
  | placed =>
    cases entry with
    | file text => cases x <;> simp [Manner.fill, Entry.retype]
    | dir | link | damaged => cases fits

theorem vacant_fill (other : m ≠ .rewritten) (fits : m.Fits entry) :
    m.fill entry e = some entry ↔ Vacant e entry := by
  cases e with
  | none => exact iff_of_true (fill_none other) (.inl rfl)
  | some x =>
    rw [fill_some other fits, Vacant, Option.some_inj]
    exact (or_iff_right (Option.some_ne_none x)).symm

/-- After an earlier filling, one more brings the entry just where that one brought it. -/
theorem refill (other : m ≠ .rewritten) (fits : m.Fits entry) :
    m.fill entry (m.fill entry' e) = some entry ↔ Vacant e entry ∧ (e = none → entry' = entry) := by
  cases e with
  | none =>
    rw [fill_none other, fill_some other fits]
    exact ⟨fun same => ⟨.inl rfl, fun _ => same⟩, fun both => both.2 rfl⟩
  | some x =>
    have twice : ∃ y, m.fill entry' (some x) = some y ∧ (y = entry ↔ x = entry) := by
      cases filled : m.fill entry' (some x) with
      | none => exact absurd filled fill_ne_none
      | some y =>
        refine ⟨y, rfl, ?_⟩
        rw [← Option.some_inj, ← filled]
        exact fill_some other fits
    obtain ⟨y, filled, same⟩ := twice
    rw [filled, fill_some other fits, same, Vacant, Option.some_inj]
    constructor
    · exact fun same => ⟨.inr same, fun none_ => absurd none_ (Option.some_ne_none x)⟩
    · exact fun both => both.1.resolve_left (Option.some_ne_none x)

theorem rewrite_iff (fits : Manner.rewritten.Fits entry) :
    Manner.rewritten.fill entry e = some entry ↔ ¬ Refuses e := by
  cases entry with
  | file text => by_cases refuses : Refuses e <;> simp [Manner.fill, refuses]
  | dir | link | damaged => cases fits

/-- What was rewritten can be rewritten. -/
theorem not_refuses_rewrite (fits : Manner.rewritten.Fits entry) :
    ¬ Refuses (Manner.rewritten.fill entry e) := by
  cases entry with
  | file text => by_cases refuses : Refuses e <;> simp [Manner.fill, refuses] <;> simp [Refuses]
  | dir | link | damaged => cases fits

end Fill

/-! ## Two requests -/

/-- What the first of two requests and the file system before it must leave, so that the second one
gets its files. -/
structure Clears (g : Guest) (r₁ r₂ : Wish) : Prop where
  /-- The directories of the files are there, or can be made. -/
  reachable : ∀ f : Managed, f.asked r₂ = true → f.Reachable g ∨ f.Opened r₁ g
  /-- No directory is in the place of a file that is removed first, unless the first request wrote
  it. -/
  removable : ∀ f : Managed, f.asked r₂ = true → f.manner = .rewritten → Refuses (g.entry f.path) →
    f.asked r₁ = true
  /-- A file that is not removed first is missing, or is what the second request has. -/
  vacant : ∀ f : Managed, f.asked r₂ = true → f.manner ≠ .rewritten →
    Vacant (g.entry f.path) (f.entry r₂)
  /-- Where it is missing, the first request has no other. -/
  same : ∀ f : Managed, f.asked r₂ = true → f.manner ≠ .rewritten → g.entry f.path = none →
    f.asked r₁ = true → f.entry r₁ = f.entry r₂
  /-- Without a public address, part of the service is missing and the first request did not make
  it. -/
  disabled : r₂.publicIp = none → ∃ f ∈ ([.script, .service, .serviceWanted] : List Managed),
    g.entry f.path = none ∧ ¬ (f.asked r₁ = true ∧ f.Reachable g)

section Twice

variable (r₁ r₂ : Wish) (g : Guest)

/-- A file that is removed first. -/
theorem twice_rewritten {f : Managed} (asked : f.asked r₂ = true)
    (rewritten : f.manner = .rewritten) :
    (edited r₂ (edited r₁ g)).entry f.path = some (f.entry r₂) ↔
      (f.Reachable g ∨ f.Opened r₁ g) ∧ (Refuses (g.entry f.path) → f.asked r₁ = true) := by
  have fits₁ := f.fits r₁
  have fits₂ := f.fits r₂
  rw [rewritten] at fits₁ fits₂
  rw [← reachable_edited, edited_at, rewritten]
  by_cases found : f.Reachable (edited r₁ g)
  · rw [if_pos ⟨asked, found⟩, rewrite_iff fits₂, and_iff_right found, edited_at, rewritten]
    by_cases first : f.asked r₁ = true
    · refine iff_of_true ?_ fun _ => first
      split
      next => exact not_refuses_rewrite fits₁
      next lost =>
        rw [unreachable g fun found => lost ⟨first, found⟩]
        rintro (dir | dir) <;> cases dir
    · rw [if_neg fun both => first both.1]
      exact ⟨fun free refuses => absurd refuses free, fun free refuses => first (free refuses)⟩
  · rw [if_neg fun both => found both.2, unreachable _ found]
    exact iff_of_false (Option.some_ne_none _ ∘ Eq.symm) (fun both => found both.1)

/-- A file that is only added. -/
theorem twice_added {f : Managed} (asked : f.asked r₂ = true) (added : f.manner ≠ .rewritten) :
    (edited r₂ (edited r₁ g)).entry f.path = some (f.entry r₂) ↔
      (f.Reachable g ∨ f.Opened r₁ g) ∧ Vacant (g.entry f.path) (f.entry r₂) ∧
        (g.entry f.path = none → f.asked r₁ = true → f.entry r₁ = f.entry r₂) := by
  have closed : ¬ f.Opened r₁ g := by
    rintro ⟨rfl, -⟩
    exact added rfl
  have reach := reachable_edited r₁ g f
  rw [or_iff_left closed] at reach
  rw [or_iff_left closed, edited_at]
  by_cases found : f.Reachable g
  · rw [if_pos ⟨asked, reach.mpr found⟩, and_iff_right found, edited_at]
    by_cases first : f.asked r₁ = true
    · rw [if_pos ⟨first, found⟩, refill added (f.fits r₂)]
      exact and_congr_right fun _ => forall_congr' fun _ => (imp_iff_right first).symm
    · rw [if_neg fun both => first both.1, vacant_fill added (f.fits r₂)]
      exact (and_iff_left fun _ first' => absurd first' first).symm
  · rw [if_neg fun both => found (reach.mp both.2),
      unreachable _ fun found' => found (reach.mp found')]
    exact iff_of_false (Option.some_ne_none _ ∘ Eq.symm) (fun both => found both.1)

/-- Where the last request does not have a file, it is as the first request left it. -/
theorem twice_unasked {f : Managed} (unasked : ¬ f.asked r₂ = true) :
    (edited r₂ (edited r₁ g)).entry f.path = none ↔ g.entry f.path = none ∧
      ¬ (f.asked r₁ = true ∧ f.Reachable g) := by
  rw [edited_unasked _ _ unasked, edited_at]
  split
  next made => exact iff_of_false fill_ne_none fun both => both.2 made
  next other => exact (and_iff_left other).symm

/-- After two requests the managed files are those of the second, if and only if the first and the
file system before it left the names clear. -/
theorem edited_iff : Reflects r₂ (edited r₂ (edited r₁ g)) ↔ Clears g r₁ r₂ := by
  -- without an address none of its three files is asked for
  have parts (none_ : r₂.publicIp = none) (f : Managed) (known : f ∈ [.script, .service,
      .serviceWanted]) :
      ¬ f.asked r₂ = true := by
    simp only [List.mem_cons, List.not_mem_nil, or_false] at known
    rcases known with rfl | rfl | rfl <;> simp [Managed.asked, none_]
  constructor
  -- each field of `Clears` is read off the file that it speaks of
  · intro reflects
    constructor
    case reachable =>
      intro f asked
      by_cases rewritten : f.manner = .rewritten
      · exact ((twice_rewritten r₁ r₂ g asked rewritten).mp (reflects.written f asked)).1
      · exact ((twice_added r₁ r₂ g asked rewritten).mp (reflects.written f asked)).1
    case removable =>
      intro f asked rewritten
      exact ((twice_rewritten r₁ r₂ g asked rewritten).mp (reflects.written f asked)).2
    case vacant =>
      intro f asked added
      exact ((twice_added r₁ r₂ g asked added).mp (reflects.written f asked)).2.1
    case same =>
      intro f asked added
      exact ((twice_added r₁ r₂ g asked added).mp (reflects.written f asked)).2.2
    case disabled =>
      intro none_
      have unasked := parts none_
      rcases reflects.disabled none_ with script | service | wanted
      · exact ⟨.script, by decide, (twice_unasked r₁ r₂ g (unasked .script (by decide))).mp script⟩
      · exact ⟨.service, by decide,
          (twice_unasked r₁ r₂ g (unasked .service (by decide))).mp service⟩
      · exact ⟨.serviceWanted, by decide,
          (twice_unasked r₁ r₂ g (unasked .serviceWanted (by decide))).mp wanted⟩
  · intro clears
    constructor
    · intro f asked
      by_cases rewritten : f.manner = .rewritten
      · apply (twice_rewritten r₁ r₂ g asked rewritten).mpr
        exact ⟨clears.reachable f asked, clears.removable f asked rewritten⟩
      · apply (twice_added r₁ r₂ g asked rewritten).mpr
        exact ⟨clears.reachable f asked, clears.vacant f asked rewritten,
          clears.same f asked rewritten⟩
    · intro none_
      obtain ⟨f, known, missing⟩ := clears.disabled none_
      have gone := (twice_unasked r₁ r₂ g (parts none_ f known)).mpr missing
      simp only [List.mem_cons, List.not_mem_nil, or_false] at known
      rcases known with rfl | rfl | rfl
      · exact .inl gone
      · exact .inr (.inl gone)
      · exact .inr (.inr gone)

end Twice

/-! ## On a host -/

/-- The volume that a VM's `rootfs.ext4` links to. -/
def rootfsOf (h : Host) (vmId : Id) : Option Lv :=
  match (h.dirs.lookup vmId).bind (·.links .rootfs) with
  | some (.device vg name) => h.lvs.lookup (vg, name)
  | _ => none

/-- The files on it. -/
def filesOf (image : Guest) (h : Host) (vmId : Id) : Guest :=
  ((rootfsOf h vmId).map fun lv => lv.content.guest image).getD .empty

theorem filesOf_edit (image : Guest) (h h' : Host) (vmId : Id) (lines : List DebugfsLine)
    (edit : h.editRootfs vmId lines = some h') :
    filesOf image h' vmId = session lines (filesOf image h vmId) := by
  unfold Host.editRootfs at edit
  split at edit
  case h_2 => cases edit
  next vg name link =>
    split at edit
    case h_2 => cases edit
    next lv there =>
      split at edit
      · cases edit
      · cases edit
        have made : (h.lvs.insert (vg, name) { lv with
            content := .edited lv.content lines }).lookup (vg, name) =
            some { lv with content := .edited lv.content lines } := AList.lookup_insert _
        simp only [filesOf, rootfsOf, link, there, made, Option.map_some,
          Option.getD_some, Content.guest]

/-- An injection that ends has run its session on the files of the VM's root. -/
theorem inject_files (image : Guest) (x : Nat → Chance) (vmId : Id) (r : Wish) (s : Nat × Host)
    (ended : (run (execAt x) (r.run vmId) s).1 = .ok ()) :
    filesOf image (run (execAt x) (r.run vmId) s).2.2 vmId = edited r (filesOf image s.2 vmId) := by
  rw [Wish.run, Inject.run, run_perform] at ended ⊢
  obtain ⟨h', step, same⟩ := exec_ok (x s.1) (.debugfs vmId r.lines) s.2 () ended
  obtain ⟨h'', edit, put⟩ := Option.map_eq_some_iff.mp step
  cases put
  change filesOf image (s.2.exec (x s.1) (.debugfs vmId r.lines)).2 vmId = _
  rw [same, filesOf_edit image _ _ vmId r.lines edit]
  rfl

/-- No name on the way to a managed file is a symbolic link. A session would follow one, and what is
below it would be elsewhere. -/
def Straight (g : Guest) : Prop :=
  ∀ f : Managed, ∀ d, Below d f.path → ∀ target, g.entry d ≠ some (.link target)

/-- A host with a VM whose root holds the base image. -/
def booted : Host :=
  { Host.empty with
    lvs := AList.insert ("nyc", "rootfs-v1") ⟨1024, some GOLD_DEFAULT, false, .image⟩ ∅
    dirs := AList.insert "v1" (VmDir.empty.setLink .rootfs (some (.device "nyc" "rootfs-v1"))) ∅ }

/-- The directories of the base image that matter here. -/
def imageDirs : List Str :=
  ["/root", "/etc", "/etc/systemd", "/etc/systemd/system", "/usr", "/usr/local", "/usr/local/sbin"]

/-- The entries of the base image: the managed names are free but `resolv.conf`, a symbolic link. -/
def imageEntry (q : Str) : Option Entry :=
  if imageDirs.contains q then some .dir
  else if q = Managed.resolv.path then some (.link "../run/systemd/resolve/stub-resolv.conf")
  else none

theorem imageDirs_closed :
    ∀ q ∈ Managed.resolv.path :: imageDirs, parent q = [] ∨ parent q ∈ imageDirs := by
  decide

theorem imageEntry_rooted (q : Str) (there : imageEntry q ≠ none) :
    IsDir imageEntry (parent q) := by
  have known : q ∈ Managed.resolv.path :: imageDirs := by
    unfold imageEntry at there
    split at there
    next dir => exact List.mem_cons_of_mem _ (List.contains_iff_mem.mp dir)
    next =>
      split at there
      next link => exact link ▸ List.mem_cons_self
      next => exact absurd rfl there
  rcases imageDirs_closed q known with root | dir
  · exact .inl root
  · exact .inr (if_pos (List.contains_iff_mem.mpr dir))

/-- The base image: every entry is in a directory. -/
def plain : Guest := ⟨imageEntry, imageEntry_rooted⟩

theorem plain_straight : Straight plain := by
  intro f d below target link
  have apart : ∀ f : Managed, ¬ Below Managed.resolv.path f.path := by
    intro f
    cases f <;> decide
  simp only [plain, imageEntry] at link
  split at link
  next => cases link
  next =>
    split at link
    next same => exact apart f (same ▸ below)
    next => cases link

def withAddress (address : Str) : Wish :=
  ⟨none, "1.1.1.1", true, some ⟨address, "32", "203.0.113.1", "02:00:00:00:00:0a"⟩⟩

def withoutAddress : Wish := ⟨none, "1.1.1.1", true, none⟩

def calm : Nat → Chance := fun _ => ⟨false, [], fun _ => false⟩

end Injection

end Nyc
