import Nyc.Client.Footprint
import Nyc.Client.Steps
import Nyc.Properties.Forwarding

/-!
# A spawn that is refused

`POST /vms/spawn` checks and acts by turns: the images, the data volume with its row, then the
address. Refused by a check, it should leave nothing behind.
-/

namespace Nyc

open Data Effects Effects.Program Client

namespace Spawn

open Api

/-! ## Programs that only read -/

section Lookups

variable (env : Env)

theorem reads_exec {o : Op} (reads : o.Looks) (w : World) :
    ∃ r, exec env o w = (.ok r, w.tick) := by
  cases reads <;> exact ⟨_, rfl⟩

theorem reads_quiet {ok : Op → World → Prop} (quiet : Quiet ok) {o : Op} (reads : o.Looks)
    (w : World) : ok o w := by
  cases reads with
  | get t p => exact quiet.get t p w
  | getAll t p => exact quiet.getAll t p w
  | choice => exact quiet.choice w

/-- Such a program runs as its outcome, some operations later. -/
theorem reads_runs {α : Type} {p : Py α} (reads : Looks p) (w : World) :
    ∃ k, (∃ e, ∀ {β : Type} (f : α → Py β), RunsAs env (p >>= f) w (throw e) (w.ticks k)) ∨
      ∃ a, ∀ {β : Type} (f : α → Py β), RunsAs env (p >>= f) w (f a) (w.ticks k) := by
  unfold Looks Only at reads
  -- the induction is on the program: each read answers and moves the clock on
  induction p generalizing w with
  | ret a => exact ⟨0, .inr ⟨a, fun f => .refl _ _⟩⟩
  | raise e => exact ⟨0, .inl ⟨e, fun f => .refl _ _⟩⟩
  | op o k ih =>
    obtain ⟨r, answers⟩ := reads_exec env reads.1 w
    have first {β : Type} (f : α → Py β) : RunsAs env (.op o k >>=
        f) w (k (.ok r) >>= f) w.tick := by
      intro ok quiet Q
      have step : wp (checked (exec env) ok) (.op o k >>= f) Q w =
          (ok o w ∧ wp (checked (exec env) ok) (k (exec env o w).1 >>= f) Q (exec env o w).2) := rfl
      rw [step, answers]
      exact propext (and_iff_right (reads_quiet quiet reads.1 w))
    have clock (j : Nat) : w.tick.ticks j = w.ticks (j + 1) := by
      rw [Nat.add_comm, ← ticks_ticks]
      rfl
    obtain ⟨j, outcome⟩ := ih (.ok r) (reads.2.1 r trivial) w.tick
    rw [clock] at outcome
    refine ⟨j + 1, outcome.imp ?_ ?_⟩
    · rintro ⟨e, raises⟩
      exact ⟨e, fun f => (first f).trans (raises f)⟩
    · rintro ⟨a, returns⟩
      exact ⟨a, fun f => (first f).trans (returns f)⟩

/-- The spawn on the node that takes it. -/
def spawnOn (cfg : Id → NodeConfig) (body : SpawnIn) (x : Id) : Py Response := do
  let row ← Vms.spawnLocal ⟨x, cfg x⟩ body x fun _ => pure ()
  return .vm row

/-- `p` at `w` runs as `q` at `w'`, after lookups only, and but for errors that a node passes on. -/
def RelaysAs {α : Type} (p : Py α) (w : World) (q : Py α) (w' : World) : Prop :=
  ∀ ok, Quiet ok → ∀ Q : Except Exn α → World → Prop,
    (∀ e, Q (.error (.http (errorBody e).1 (errorBody e).2)) = Q (.error e)) →
    wp (checked (exec env) ok) p Q w = wp (checked (exec env) ok) q Q w'

theorem RelaysAs.after {α : Type} {p q r : Py α} {w w' w'' : World} (first : RunsAs env p w q w')
    (later : RelaysAs env q w' r w'') : RelaysAs env p w r w'' :=
  fun ok quiet Q relays => (first ok quiet Q).trans (later ok quiet Q relays)

theorem RelaysAs.remote {p q : Py Response} {w w' : World} (same : RelaysAs env p w q w') :
    RelaysAs env (Api.remote p) w q w' := by
  intro ok quiet Q relays
  have relayed : (onError Q fun e => wp (checked (exec env) ok)
      (throw (.http (errorBody e).1 (errorBody e).2)) Q) = Q := by
    funext r
    cases r with
    | error e => exact relays e
    | ok a => rfl
  rw [← same ok quiet Q relays, Api.remote, wp_tryCatch, relayed]

/-- Refused after lookups, or the spawn of one node, some lookups later. -/
def Settles (cfg : Id → NodeConfig) (body : SpawnIn) (p : Py Response) (w : World) : Prop :=
  ∃ k, (∃ e, RelaysAs env p w (throw e) (w.ticks k)) ∨ ∃ x,
    RelaysAs env p w (spawnOn cfg body x) (w.ticks k)

theorem Settles.after {cfg : Id → NodeConfig} {body : SpawnIn} {p q : Py Response} {w : World}
    {k : Nat} (first : RunsAs env p w q (w.ticks k)) (later : Settles env cfg body q (w.ticks k)) :
    Settles env cfg body p w := by
  obtain ⟨j, outcome⟩ := later
  rw [ticks_ticks] at outcome
  refine ⟨k + j, outcome.imp ?_ ?_⟩
  · rintro ⟨e, raises⟩
    exact ⟨e, raises.after env first⟩
  · rintro ⟨x, returns⟩
    exact ⟨x, returns.after env first⟩

theorem Settles.throw (cfg : Id → NodeConfig) (body : SpawnIn) (e : Exn) (w : World) :
    Settles env cfg body (throw e) w :=
  ⟨0, .inl ⟨e, fun _ _ _ _ => rfl⟩⟩

theorem endpoint_settles (cfg : Id → NodeConfig) (nodeId : Id) (forward : Forward) (body : SpawnIn)
    (pin : Option Id) (w : World)
    (onward : ∀ t w', Settles env cfg body (forward t (.spawnVm body (some t))) w') :
    Settles env cfg body (endpoint ⟨nodeId, cfg nodeId⟩ forward (.spawnVm body pin)) w := by
  obtain ⟨k, ⟨e, raises⟩ | ⟨t, returns⟩⟩ := reads_runs env (.pinOrTarget body pin) w
  · exact .after env (raises _) (.throw env cfg body e _)
  · refine .after env (returns _) ?_
    split
    · exact onward t _
    · exact ⟨0, .inr ⟨nodeId, fun _ _ _ _ => rfl⟩⟩

theorem serve_settles (cfg : Id → NodeConfig) (hops : Nat) (nodeId : Id) (body : SpawnIn)
    (pin : Option Id)
    (w : World) : Settles env cfg body (serve cfg hops nodeId (.spawnVm body pin)) w := by
  induction hops generalizing nodeId pin w with
  | zero =>
    exact endpoint_settles env cfg nodeId _ body pin w fun t w' =>
      .throw env cfg body .requestError w'
  | succ hops ih =>
    apply endpoint_settles env cfg nodeId _ body pin w
    intro t w'
    cases found : (w'.db .nodes).get fun r => r.nodeId = t with
    | none => exact .after env (runsAs_missing env _ _ _ found _) (.throw env cfg body _ _)
    | some row =>
      refine .after env (runsAs_lookup env _ _ _ found _) ?_
      obtain ⟨k, outcome⟩ := ih row.nodeId (some t) w'.tick
      refine ⟨k, outcome.imp ?_ ?_⟩
      · rintro ⟨e, raises⟩
        exact ⟨e, raises.remote env⟩
      · rintro ⟨x, returns⟩
        exact ⟨x, returns.remote env⟩

end Lookups

/-! ## What a refused spawn leaves -/

/-- Rows and volumes are what they were. -/
structure Unchanged (w w' : World) : Prop where
  volumes : w'.db .volumes = w.db .volumes
  snapshots : w'.db .snapshots = w.db .snapshots
  vms : w'.db .vms = w.db .vms
  lvs : ∀ n, (w'.hosts n).lvs = (w.hosts n).lvs

/-- The default VPC, as it is looked up. -/
def defaultOf (db : Db) : Option VpcRow :=
  (db .vpcs).get fun r => r.name = Defaults.DEFAULT_VPC_NAME

def used (db : Db) (vpcId : Id) : List Str :=
  ((db .vms).getAll fun r => r.vpcId = vpcId).map VmRow.ip

/-- The default VPC has a free address. -/
def Room (db : Db) : Prop := ∃ vpc ip, defaultOf db = some vpc ∧ Allocate.pickIp vpc.cidr
    (used db vpc.id) = .ok ip

def Succeeds (env : Env) (o : Op) (w : World) : Prop := ∃ r, (exec env o w).1 = .ok r

/-- After these a spawn has something to undo: the volume is formatted, its row or the VM's is
written. -/
def Marked : Op → Prop
  | .insert t _ => t = .volumes ∨ t = .vms
  | .host _ (.lvm (.mkfs _ _)) => True
  | _ => False

/-- Such an operation succeeds, and no volume is recorded while the default VPC is full. -/
def Fine (env : Env) (o : Op) (w : World) : Prop :=
  (Marked o → Succeeds env o w) ∧ ∀ row, o = .insert .volumes row → Room w.db

/-- No VM gets its row here: the bring-up is not reached. -/
def NotBooked (env : Env) (o : Op) (w : World) : Prop :=
  ∀ row, o = .insert .vms row → ¬ Succeeds env o w

/-- Whether the operation is to write the row of a VM. -/
def books : Op → Bool
  | .insert .vms _ => true
  | _ => false

abbrev Plain (o : Op) : Prop := ¬ Marked o

/-- All goes well in `p`, just if its error before a bring-up leaves all as at `base`. -/
def Accords (env : Env) (base : World) (p : Py Response) (w : World) : Prop :=
  (∀ a ∈ trail (exec env) p w, Fine env a.1 a.2) ↔
    ((∀ a ∈ trail (exec env) p w, NotBooked env a.1 a.2) →
      (∃ e, (run (exec env) p w).1 = .error e) → Unchanged base (run (exec env) p w).2)

section Accord

variable (env : Env) {base w : World}

theorem plain_fine {o : Op} (plain : Plain o) (w : World) : Fine env o w := by
  constructor
  · exact fun marked => absurd marked plain
  · rintro row rfl
    exact absurd (Or.inl rfl) plain

theorem plain_notBooked {o : Op} (plain : Plain o) (w : World) : NotBooked env o w := by
  rintro row rfl
  exact absurd (Or.inr rfl) plain

theorem notBooked_of_books {o : Op} (h : books o = false) (w : World) : NotBooked env o w := by
  rintro row rfl
  cases h

/-- An operation that succeeds, and records no volume. -/
theorem fine_of_succeeds {o : Op} (done : Succeeds env o w)
    (other : ∀ row, o ≠ .insert .volumes row) : Fine env o w := by
  constructor
  · exact fun _ => done
  · exact fun row same => absurd same (other row)

/-- A program that raises at once accords, where nothing is changed. -/
theorem accords_raise (e : Exn) (same : Unchanged base w) : Accords env base (.raise e) w := by
  constructor
  · exact fun _ _ _ => same
  · exact fun _ _ there => absurd there List.not_mem_nil

/-- What comes first is fine, and books no VM. -/
theorem accords_op {o : Op} {k : Except Exn o.Res → Py Response} (fine : Fine env o w)
    (free : NotBooked env o w) (rest : Accords env base (k (exec env o w).1) (exec env o w).2) :
    Accords env base (.op o k) w := by
  unfold Accords
  simp only [trail, run, List.forall_mem_cons]
  rw [and_iff_right fine, and_iff_right free]
  exact rest

/-- Programs whose operations leave no trace come first. -/
theorem accords_bind {α : Type} {p : Py α} {f : α → Py Response} (plain : Only Plain p)
    (first : wp (sequential (exec env)) p
      (onValue (fun a s => Accords env base (f a) s) fun (_ : Except Exn Response) s =>
        Unchanged base s) w) :
    Accords env base (p >>= f) w := by
  unfold Only at plain
  induction p generalizing w with
  | ret a => exact first
  | raise e => exact accords_raise env e first
  | op o k ih =>
    have here : Plain o := plain.1
    have later : Only Plain (k (exec env o w).1) := by
      cases (exec env o w).1 with
      | ok r => exact plain.2.1 r trivial
      | error e => exact plain.2.2 e
    exact accords_op env (plain_fine env here w) (plain_notBooked env here w) (ih _ later first)

/-- A first operation that is not fine, and after it an error that leaves a change. -/
theorem accords_lost {o : Op} {f : o.Res → Py Response} {a : o.Res}
    (answer : (exec env o w).1 = .ok a) (wrong : ¬ Fine env o w) (free : NotBooked env o w)
    (lost : wp (checked (exec env) (NotBooked env)) (f a)
      (fun r s => (∃ e, r = .error e) ∧ ¬ Unchanged base s) (exec env o w).2) :
    Accords env base (@perform Op Op.Res Exn o >>= f) w := by
  have whole : wp (checked (exec env) (NotBooked env)) (@perform Op Op.Res Exn o >>= f)
      (fun r s => (∃ e, r = .error e) ∧ ¬ Unchanged base s) w := by
    rw [wp_bind, wp_perform]
    refine ⟨free, ?_⟩
    rw [answer]
    exact lost
  obtain ⟨all, raised, changed⟩ := (wp_checked ..).mp whole
  constructor
  · exact fun fine => absurd (fine (o, w) List.mem_cons_self) wrong
  · exact fun kept => absurd (kept all raised) changed

/-- A volume that was not there before. -/
def Made (base w : World) : Prop := ∃ n key, ¬ (base.hosts n).HasLv key ∧ (w.hosts n).HasLv key

theorem Made.changed (made : Made base w) : ¬ Unchanged base w := by
  obtain ⟨n, key, free, there⟩ := made
  intro same
  apply free
  rw [Host.HasLv, ← same.lvs n]
  exact there

theorem Made.offHost {o : Op} (off : o.OffHost) (made : Made base w) :
    Made base (exec env o w).2 := by
  obtain ⟨n, key, free, there⟩ := made
  refine ⟨n, key, free, ?_⟩
  rw [hosts_offHost env w off]
  exact there

theorem Made.command (made : Made base w) (n : Id) (c : Cmd) (spares : ∀ key, ¬ c.moves key) :
    Made base (exec env (.host n c) w).2 := by
  obtain ⟨n', key, free, there⟩ := made
  refine ⟨n', key, free, ?_⟩
  rw [hosts_exec]
  split
  next here =>
    subst here
    exact (exec_has _ _ _ _ (spares key)).mpr there
  next => exact there

/-- An operation that fails, after a volume was made. -/
theorem accords_failed {o : Op} {f : o.Res → Py Response} {e : Exn} (marked : Marked o)
    (failed : (exec env o w).1 = .error e) (made : Made base (exec env o w).2) :
    Accords env base (@perform Op Op.Res Exn o >>= f) w := by
  have fails : ¬ Succeeds env o w := by
    rintro ⟨r, answers⟩
    rw [failed] at answers
    cases answers
  have whole : wp (checked (exec env) (NotBooked env)) (@perform Op Op.Res Exn o >>= f)
      (fun r s => r = .error e ∧ Made base s) w := by
    rw [wp_bind, wp_perform]
    refine ⟨fun _ _ => fails, ?_⟩
    rw [failed]
    exact ⟨rfl, made⟩
  obtain ⟨all, raised, left⟩ := (wp_checked ..).mp whole
  constructor
  · exact fun fine => absurd ((fine (o, w) List.mem_cons_self).1 marked) fails
  · exact fun kept => absurd (kept all ⟨e, raised⟩) left.changed

end Accord

/-! ## The parts of a spawn -/

/-- From the address on. -/
def booking (self : Node) (body : SpawnIn) (nodeId : Id) (vpc : VpcRow) (origin : Str)
    (vol : VolumeRow) :
    Py Response := do
  let ip ← fromExcept (Allocate.pickIp vpc.cidr (← Vms.usedIps vpc.id))
  let row := Vms.spawnRow body nodeId vpc.id ip vol.id (← uuid4) (← now)
  insert .vms row
  Vms.bringUp self row vpc.cidr (some (.file vol.path)) (some body.sshKey) origin
  return .vm (Vms.running row)

/-- From the row of the volume on. -/
def recording (self : Node) (body : SpawnIn) (nodeId : Id) (vpc : VpcRow) (origin : Str)
    (volId : Id) (made : Path × Int) : Py Response := do
  let time ← now
  let vol : VolumeRow := ⟨volId, nodeId, body.vmName ++ "-data", made.2, made.1.text, "ready", time⟩
  insert .volumes vol
  booking self body nodeId vpc origin vol

theorem spawnOn_eq (cfg : Id → NodeConfig) (body : SpawnIn) (x : Id) :
    spawnOn cfg body x = (Defaults.ensureDefaultVpc >>= fun vpc => Vms.resolveRootImage body x >>=
      fun origin =>
      uuid4 >>= fun volId =>
      Vms.provisionData ⟨x, cfg x⟩ body (Node.volumeVg ⟨x, cfg x⟩ x) (Names.data volId) x >>=
        fun made =>
      recording ⟨x, cfg x⟩ body x vpc origin volId made) := by
  simp only [spawnOn, Vms.spawnLocal, Vms.autoVolume, recording, booking, LawfulMonad.bind_assoc,
    LawfulMonad.pure_bind]

section Parts

variable (env : Env) {base w : World}

theorem Unchanged.tick {w' : World} (same : Unchanged w w') : Unchanged w w'.tick :=
  ⟨same.volumes, same.snapshots, same.vms, same.lvs⟩

theorem reads_plain {o : Op} (reads : o.Looks) : Plain o := by
  cases reads <;> exact not_false

theorem only_trail {α : Type} {allowed : Op → Prop} {p : Py α} (h : Only allowed p) (w : World) :
    ∀ a ∈ trail (exec env) p w, allowed a.1 := by
  have all := checked_of_issues (exec env) (fun o _ => allowed o) (fun _ => True)
    (fun _ _ ok _ => ok)
    (fun _ _ _ _ => trivial) (fun _ _ _ _ _ => trivial) p (fun _ => True) h w trivial
  exact ((wp_checked ..).mp all).1

/-- Once the VM is to be brought up, nothing is marked. -/
theorem bringUp_plain (self : Node) (row : VmRow) (cidr : Str) (volPath : Option Path)
    (key : Option Str)
    (origin : Str) : Only Plain (Vms.bringUp self row cidr volPath key origin) := by
  have quiet (s : VmSpec) (c : Cmd) (issues : VmUp.Issues s c) : Plain (.host self.id c) := by
    cases issues <;> exact not_false
  simp only [Vms.bringUp, Vms.spec, LawfulMonad.bind_assoc, pure_bind]
  refine .bind (.get not_false) fun _ => .bind (.bind (.get not_false) fun r => ?_) fun _ =>
    .bind (.bind (.getAll not_false) fun _ => .pure _) fun _ =>
    .bind (.sh self ((VmUp.run_only _).mono (quiet _))) fun _ => .bind (.update not_false)
      fun _ => .pure _
  cases r <;> exact trivial

theorem inserted_some {t : Tbl} {row : t.Row} {r : Unit}
    (inserted : (exec env (.insert t row) w).1 = .ok r) :
    ∃ rows, (w.db t).insert row = some rows ∧ exec env (.insert t row) w =
      (.ok (), (w.setTable t rows).tick) := by
  cases added : (w.db t).insert row with
  | some rows => exact ⟨rows, rfl, exec_insert_some env w t row added⟩
  | none =>
    rw [exec_insert_none env w t row added] at inserted
    cases inserted

theorem accords_perform {o : Op} {f : o.Res → Py Response} {a : o.Res}
    (answer : (exec env o w).1 = .ok a) (fine : Fine env o w) (free : NotBooked env o w)
    (rest : Accords env base (f a) (exec env o w).2) :
    Accords env base (@perform Op Op.Res Exn o >>= f) w := by
  apply accords_op env fine free
  rw [answer]
  exact rest

theorem accords_plain {o : Op} {f : o.Res → Py Response} {a : o.Res}
    (answer : (exec env o w).1 = .ok a)
    (plain : Plain o) (rest : Accords env base (f a) (exec env o w).2) :
    Accords env base (@perform Op Op.Res Exn o >>= f) w :=
  accords_perform env answer (plain_fine env plain w) (plain_notBooked env plain w) rest

/-- The VM gets its row: its bring-up follows, which marks nothing. -/
theorem accords_booked {row : VmRow} {f : Unit → Py Response} {u : Unit}
    (answer : (exec env (.insert .vms row) w).1 = .ok u) (rest : Only Plain (f u)) :
    Accords env base (@perform Op Op.Res Exn (.insert .vms row) >>= f) w := by
  have booked : Succeeds env (.insert .vms row) w := ⟨u, answer⟩
  constructor
  · intro _ free
    exact absurd booked (free _ List.mem_cons_self row rfl)
  · intro _ a there
    rcases List.mem_cons.mp there with rfl | later
    · exact fine_of_succeeds env booked fun row' same => by cases same
    · rw [answer] at later
      exact plain_fine env (only_trail env rest _ a later) a.2

/-- Once the address is found, what goes wrong before the bring-up is the row of the VM. -/
theorem booking_accords (self : Node) (body : SpawnIn) (nodeId : Id) {vpc : VpcRow} (origin : Str)
    (vol : VolumeRow) {ip : Str} (made : Made base w)
    (pick : Allocate.pickIp vpc.cidr (used w.db vpc.id) = .ok ip) :
    Accords env base (booking self body nodeId vpc origin vol) w := by
  simp only [booking, Vms.usedIps, LawfulMonad.bind_assoc, LawfulMonad.pure_bind]
  refine accords_plain env rfl not_false ?_
  change Accords env base (fromExcept (Allocate.pickIp vpc.cidr (used w.db vpc.id)) >>= _) _
  rw [pick]
  refine accords_plain env rfl not_false ?_
  refine accords_plain env rfl not_false ?_
  generalize Vms.spawnRow body nodeId vpc.id ip vol.id _ _ = row
  have there : Made base w.tick.tick.tick := made
  cases answer : (exec env (.insert .vms row) w.tick.tick.tick).1 with
  | error e => exact accords_failed env (.inr rfl) answer (there.offHost env trivial)
  | ok u => exact accords_booked env answer (.bind (bringUp_plain self ..) fun _ => .pure _)

/-- A full VPC: the address is refused, and what was made stays. -/
theorem booking_full (self : Node) (body : SpawnIn) (nodeId : Id) {vpc : VpcRow} (origin : Str)
    (vol : VolumeRow) {e : Exn} (made : Made base w)
    (pick : Allocate.pickIp vpc.cidr (used w.db vpc.id) = .error e) :
    wp (checked (exec env) (NotBooked env)) (booking self body nodeId vpc origin vol)
      (fun r s => (∃ e, r = .error e) ∧ ¬ Unchanged base s) w := by
  simp only [booking, Vms.usedIps, LawfulMonad.bind_assoc, LawfulMonad.pure_bind]
  rw [wp_bind, getAll, wp_perform]
  refine ⟨notBooked_of_books env rfl w, ?_⟩
  change wp (checked (exec env) (NotBooked env))
    (fromExcept (Allocate.pickIp vpc.cidr (used w.db vpc.id)) >>= _) _ w.tick
  rw [pick]
  have there : Made base w.tick := made
  exact ⟨⟨e, rfl⟩, there.changed⟩

/-- Once the volume is there, what goes wrong is a row, or the address. -/
theorem recording_accords (self : Node) (body : SpawnIn) (nodeId : Id) {vpc : VpcRow} (origin : Str)
    (volId : Id) (dev : Path × Int) (made : Made base w) (found : defaultOf w.db = some vpc) :
    Accords env base (recording self body nodeId vpc origin volId dev) w := by
  refine accords_plain env rfl not_false ?_
  generalize (⟨volId, nodeId, body.vmName ++ "-data", dev.2, dev.1.text, "ready", _⟩ :
    VolumeRow) = vol
  have there : Made base w.tick := made
  have after : Made base (exec env (.insert .volumes vol) w.tick).2 := there.offHost env trivial
  cases answer : (exec env (.insert .volumes vol) w.tick).1 with
  | error e => exact accords_failed env (.inl rfl) answer after
  | ok u =>
    obtain ⟨rows, added, result⟩ := inserted_some env answer
    have same (vpcId : Id) : used (exec env (.insert .volumes vol) w.tick).2.db vpcId =
        used w.db vpcId := by
      rw [result, used, tick_db, setTable_ne _ _ _ _ (by decide)]
      rfl
    cases pick : Allocate.pickIp vpc.cidr (used w.db vpc.id) with
    | ok ip =>
      refine accords_perform env answer ⟨fun _ => ⟨u, answer⟩, fun _ _ => ⟨vpc, ip, found, pick⟩⟩
        (notBooked_of_books env rfl _) ?_
      exact booking_accords env self body nodeId origin vol after ((same _).symm ▸ pick)
    | error e =>
      -- the VPC is full: the volume and its row stay behind
      have full : ¬ Room w.db := by
        rintro ⟨vpc', ip, found', pick'⟩
        cases found.symm.trans found'
        rw [pick] at pick'
        cases pick'
      have wrong : ¬ Fine env (.insert .volumes vol) w.tick := fun fine => full (fine.2 vol rfl)
      have refused : Allocate.pickIp vpc.cidr
          (used (exec env (.insert .volumes vol) w.tick).2.db vpc.id) =
          .error e := by
        rw [same]
        exact pick
      exact accords_lost env answer wrong (notBooked_of_books env rfl _)
        (booking_full env self body nodeId origin vol after refused)

theorem onHost_lvm (n : Id) (c : LvmCmd) :
    onHost n (lvm c) = @perform Op Op.Res Exn (.host n (.lvm c)) := by
  refine congrArg (@Program.op Op Op.Res Exn c.Res (.host n (.lvm c))) (funext fun r => ?_)
  cases r <;> rfl

/-- Lookups come first. -/
theorem accords_reads {α : Type} {p : Py α} {f : α → Py Response} {vpc : VpcRow} (reads : Looks p)
    (same : Unchanged base w) (found : defaultOf w.db = some vpc)
    (rest : ∀ a s, Unchanged base s → defaultOf s.db = some vpc → Accords env base (f a) s) :
    Accords env base (p >>= f) w := by
  apply accords_bind env (reads.mono fun _ => reads_plain)
  refine sequential_mono _ _ _ _ ?_ w (sequential_keeps (exec env)
    (fun s => Unchanged base s ∧ defaultOf s.db = some vpc) ?_ reads w ⟨same, found⟩)
  · rintro (e | a) s ⟨same', found'⟩
    · exact same'
    · exact rest a s same' found'
  · intro o s read holds
    obtain ⟨r, answers⟩ := reads_exec env read s
    rw [answers]
    exact ⟨holds.1.tick, holds.2⟩

/-- A command that makes a volume makes it, or changes nothing. -/
theorem accords_make {n : Id} {c : LvmCmd} {f : c.Res → Py Response} (key : Str × Str)
    {vpc : VpcRow}
    (plain : Plain (.host n (.lvm c))) (same : Unchanged base w) (found : defaultOf w.db = some vpc)
    (makes : ∀ r, ((w.hosts n).exec (env.chance w.clock) (.lvm c)).1 = .ok r →
      ¬ (w.hosts n).HasLv key ∧
      ((w.hosts n).exec (env.chance w.clock) (.lvm c)).2.HasLv key)
    (rest : ∀ r s, (s.hosts n).HasLv key → Made base s → defaultOf s.db = some vpc →
      Accords env base (f r) s) :
    Accords env base (@perform Op Op.Res Exn (.host n (.lvm c)) >>= f) w := by
  have hosts (n' : Id) := hosts_exec env w n (.lvm c) n'
  cases answer : (exec env (.host n (.lvm c)) w).1 with
  | ok r =>
    refine accords_plain env answer plain (rest r _ ?_ ?_ found)
    · rw [hosts, if_pos rfl]
      exact (makes r answer).2
    · refine ⟨n, key, ?_, ?_⟩
      · rw [Host.HasLv, ← same.lvs n]
        exact (makes r answer).1
      · rw [hosts, if_pos rfl]
        exact (makes r answer).2
  -- a command that failed has left every volume as it was
  | error e =>
    apply accords_op env (plain_fine env plain w) (plain_notBooked env plain w)
    rw [answer]
    refine accords_raise env e ⟨same.volumes, same.snapshots, same.vms, fun n' => ?_⟩
    rw [hosts, ← same.lvs n']
    split
    next here =>
      subst here
      exact exec_error_lvs _ _ _ e answer
    next => rfl

/-- The volume is made, or nothing is changed; but for one that could not be formatted. -/
theorem provision_accords (self : Node) (body : SpawnIn) (vg name : Str) (nodeId : Id)
    {vpc : VpcRow}
    {f : Path × Int → Py Response} (same : Unchanged base w) (found : defaultOf w.db = some vpc)
    (rest : ∀ dev s, Made base s → defaultOf s.db = some vpc → Accords env base (f dev) s) :
    Accords env base (Vms.provisionData self body vg name nodeId >>= f) w := by
  unfold Vms.provisionData
  split
  next cloned =>
    simp only [LawfulMonad.bind_assoc, LawfulMonad.pure_bind, Node.sh,
      Create.fromSnapshot, Lv.clone,
      onHost_bind]
    -- the data image and its node are checked before the clone
    refine accords_reads env (.imageOr400 _) same found fun img s same' found' => ?_
    refine accords_reads env (.refuseIf ..) same' found' fun _ s' same'' found'' => ?_
    rw [onHost_lvm self.id (.snapshot vg img.lvName name false)]
    refine accords_make env (vg, name) not_false same'' found''
      (fun r done => (exec_snapshot _ vg img.lvName name false _ done).2)
      fun r s'' _ made there => ?_
    exact rest _ s'' made there
  next blank =>
    simp only [LawfulMonad.bind_assoc, LawfulMonad.pure_bind, Node.sh, Create.run, Lv.createThin,
      Lv.formatExt4,
      onHost_bind]
    rw [onHost_lvm self.id (.createThin vg _ name body.sizeMb), onHost_lvm self.id (.mkfs vg name)]
    refine accords_make env (vg, name) not_false same found (fun r done => ?_)
      fun r s there made found' => ?_
    · exact ⟨exec_createThin_free _ vg _ name _ _ done, exec_createThin _ vg _ name _ _ done⟩
    -- the volume is there, formatted or not
    have after := made.command env self.id (.lvm (.mkfs vg name)) fun _ => not_false
    cases answer : (exec env (.host self.id (.lvm (.mkfs vg name))) s).1 with
    | error e => exact accords_failed env trivial answer after
    | ok u =>
      have fine := fine_of_succeeds env ⟨u, answer⟩ fun row same => by cases same
      refine accords_perform env answer fine (notBooked_of_books env rfl _) ?_
      exact rest _ _ after found'

/-- The default VPC is found under its name afterwards. -/
theorem vpc_found (w : World) : wp (sequential (exec env)) Defaults.ensureDefaultVpc
    (fun r s => Unchanged w s ∧ ∀ vpc, r = .ok vpc → defaultOf s.db = some vpc) w := by
  rw [Defaults.ensureDefaultVpc, Defaults.defaultVpc, wp_bind, wp_get, onValue_ok]
  cases found : (w.db .vpcs).get fun r => r.name = Defaults.DEFAULT_VPC_NAME with
  | some vpc =>
    refine ⟨⟨rfl, rfl, rfl, fun _ => rfl⟩, ?_⟩
    rintro _ ⟨⟩
    exact found
  | none =>
    rw [wp_bind, wp_uuid4, onValue_ok, wp_bind, wp_now, onValue_ok, wp_tryCatch, wp_bind, wp_insert]
    cases added : (w.tick.tick.tick.db .vpcs).insert
        ⟨env.uuid w.tick.clock, Defaults.DEFAULT_VPC_NAME, Defaults.DEFAULT_VPC_CIDR, env.now
          w.tick.tick.clock⟩ with
    | some rows =>
      rw [exec_insert_some env _ .vpcs _ added, onValue_ok, wp_pure, onError_ok]
      -- the insert changes the table of VPCs alone
      have others (t : Tbl) (other : t ≠ .vpcs) :
          (w.tick.tick.tick.setTable .vpcs rows).tick.db t = w.db t :=
        setTable_ne w.tick.tick.tick .vpcs t rows other
      refine ⟨⟨others .volumes (by decide), others .snapshots (by decide), others .vms (by decide),
        fun _ => rfl⟩, ?_⟩
      rintro _ ⟨⟩
      -- the new row is the only one of its name, so it is the one found next
      have fresh : (w.tick.tick.tick.db .vpcs).rows.find?
        (fun r => r.name = Defaults.DEFAULT_VPC_NAME) = none := found
      rw [defaultOf, tick_db, setTable_self, Table.get, Table.insert_some added,
        List.find?_append, fresh]
      rw [Option.none_or]
      exact List.find?_cons_of_pos (p := fun r : VpcRow => r.name = Defaults.DEFAULT_VPC_NAME)
        (decide_eq_true rfl)
    | none =>
      -- the insert was refused: the row is read once more, and is not there
      rw [exec_insert_none env _ .vpcs _ added, onValue_error, onError_error, if_pos rfl,
        wp_bind, wp_get,
        onValue_ok]
      change wp (sequential (exec env)) (orAttributeError ((w.db .vpcs).get _)) _ _
      rw [found]
      refine ⟨⟨rfl, rfl, rfl, fun _ => rfl⟩, ?_⟩
      rintro _ ⟨⟩

/-- Checks and effects along the whole path. -/
theorem spawnOn_accords (cfg : Id → NodeConfig) (body : SpawnIn) (x : Id) (w : World) :
    Accords env w (spawnOn cfg body x) w := by
  have vpcPlain : Only Plain Defaults.ensureDefaultVpc := by
    refine .bind (.get not_false) fun r => ?_
    cases r with
    | some vpc => exact .pure _
    | none =>
      refine .bind (.uuid4 not_false) fun _ => .bind (.now not_false) fun _ => .tryCatch
        (.bind (.insert fun marked => by cases marked <;> contradiction) fun _ =>
          .pure _) fun e => .ite
          (fun _ => .bind (.get not_false) fun r => ?_)
        fun _ => .throw _
      cases r <;> exact trivial
  rw [spawnOn_eq]
  refine accords_bind env vpcPlain (sequential_mono _ _ _ _ ?_ w (vpc_found env w))
  rintro (e | vpc) s ⟨same, found⟩
  · exact same
  -- the root image is checked before anything is made
  refine accords_reads env (.resolveRootImage body x) same (found vpc rfl)
    fun origin s' same' found' => ?_
  refine accords_plain env rfl not_false ?_
  exact provision_accords env _ body _ _ x same'.tick found' fun dev s'' made found'' =>
    recording_accords env _ body x origin _ dev made found''

/-- The two readings of `Accords` in terms of what its runs meet. -/
theorem accords_iff (base : World) (p : Py Response) (w : World) : Accords env base p w ↔
    (wp (checked (exec env) (Fine env)) p (fun _ _ => True) w ↔
      ¬ wp (checked (exec env) (NotBooked env)) p (fun r s => (∃ e, r = .error e) ∧
        ¬ Unchanged base s)
        w) := by
  rw [Accords, wp_checked, wp_checked, and_true, not_and, not_and, not_not]

theorem accords_relays {base : World} {p q : Py Response} {w w' : World}
    (same : RelaysAs env p w q w') (later : Accords env base q w') : Accords env base p w := by
  have relays (e : Exn) : ((∃ e',
    (.error (.http (errorBody e).1 (errorBody e).2) : Except Exn Response) = .error e')
      = ∃ e', (.error e : Except Exn Response) = .error e') :=
    propext ⟨fun _ => ⟨e, rfl⟩, fun _ => ⟨_, rfl⟩⟩
  have quietFine : Quiet (Fine env) := by
    constructor
    · exact fun t p w => plain_fine env (reads_plain (.get t p)) w
    · exact fun t p w => plain_fine env (reads_plain (.getAll t p)) w
    · exact fun w => plain_fine env (reads_plain .choice) w
  have quietBooked : Quiet (NotBooked env) := by
    constructor
    · exact fun t p w => notBooked_of_books env rfl w
    · exact fun t p w => notBooked_of_books env rfl w
    · exact fun w => notBooked_of_books env rfl w
  rw [accords_iff] at later ⊢
  rw [same _ quietFine _ fun _ => rfl, same _ quietBooked _ fun e => by rw [relays e]]
  exact later

theorem accords_ticks {p : Py Response} {s : World} {k : Nat} (h : Accords env (w.ticks k) p s) :
    Accords env w p s := by
  have same (s' : World) : Unchanged (w.ticks k) s' ↔ Unchanged w s' := by
    constructor <;> exact fun h => ⟨h.volumes, h.snapshots, h.vms, h.lvs⟩
  unfold Accords at h ⊢
  rw [h, same]

end Parts

/-- A spawn that ends in an error before any VM is booked leaves rows and volumes as they were. -/
def Atomic (env : Env) (cfg : Id → NodeConfig) (hops : Nat) (nodeId : Id) (body : SpawnIn)
    (pin : Option Id) (w : World) : Prop :=
  (∀ a ∈ trail (exec env) (serve cfg hops nodeId (.spawnVm body pin)) w, NotBooked env a.1 a.2) →
    (∃ e, (run (exec env) (serve cfg hops nodeId (.spawnVm body pin)) w).1 = .error e) →
    Unchanged w (run (exec env) (serve cfg hops nodeId (.spawnVm body pin)) w).2

theorem atomic_iff (env : Env) (cfg : Id → NodeConfig) (hops : Nat) (nodeId : Id) (body : SpawnIn)
    (pin : Option Id) (w : World) : Atomic env cfg hops nodeId body pin w ↔
      ∀ a ∈ trail (exec env) (serve cfg hops nodeId (.spawnVm body pin)) w, Fine env a.1 a.2 := by
  have accords : Accords env w (serve cfg hops nodeId (.spawnVm body pin)) w := by
    obtain ⟨k, ⟨e, raises⟩ | ⟨x, returns⟩⟩ := serve_settles env cfg hops nodeId body pin w
    · exact accords_relays env raises (accords_raise env e ⟨rfl, rfl, rfl, fun _ => rfl⟩)
    · apply accords_relays env returns
      exact accords_ticks env (spawnOn_accords env cfg body x (w.ticks k))
  exact accords.symm

/-! ## A spawn into a full VPC -/

/-- Node `n1`, whose default VPC has one address beside the gateway's, which is taken. -/
def full : World where
  db := Function.update (Function.update Sample.fresh.db .vpcs
    ⟨[{ Sample.vpc with cidr := "10.0.0.0/30" }], by decide⟩)
    .vms ⟨[Sample.vm "v1" "10.0.0.2"], by decide⟩
  hosts := Sample.fresh.hosts
  clock := 0

/-- The address is refused, and the data volume with its row stays. -/
theorem full_leaves_volume : ¬ ∀ (env : Env) (cfg : Id → NodeConfig) (hops : Nat) (nodeId : Id)
    (body : SpawnIn)
    (pin : Option Id) (w : World), Atomic env cfg hops nodeId body pin w := by
  intro atomic
  -- the run books no address of another, is refused, and leaves one volume row
  have free : (trail (exec Sample.env)
    (serve Sample.cluster 0 "n1" (.spawnVm Sample.spawn (some "n1"))) full).all
      (fun a => !books a.1) = true := by decide +kernel
  have refused : (run (exec Sample.env)
      (serve Sample.cluster 0 "n1" (.spawnVm Sample.spawn (some "n1")))
      full).1.isOk = false := by decide +kernel
  have left : ((run (exec Sample.env)
      (serve Sample.cluster 0 "n1" (.spawnVm Sample.spawn (some "n1")))
      full).2.db .volumes).rows.length = 1 := by decide +kernel
  have same := atomic Sample.env Sample.cluster 0 "n1" Sample.spawn (some "n1") full ?_ ?_
  · rw [same.volumes] at left
    cases left
  · intro a there
    have other := List.all_eq_true.mp free a there
    exact notBooked_of_books Sample.env (Bool.not_eq_true' _ ▸ other) a.2
  · cases outcome : (run (exec Sample.env) (serve Sample.cluster 0 "n1"
        (.spawnVm Sample.spawn (some "n1"))) full).1 with
    | error e => exact ⟨e, rfl⟩
    | ok response =>
      rw [outcome] at refused
      cases refused

end Spawn

end Nyc
