import Nyc.Api
import Nyc.Effects.Interleaving

/-!
# What an operation does to the cluster

One lemma for each kind of operation, and the rules by which a client program is run inside
a node's program: it moves the node's host as the client layer says, and nothing else.
-/

namespace Nyc

open Data Effects Effects.Program

variable (env : Env) (w : World)

@[simp] theorem tick_db : w.tick.db = w.db := rfl

@[simp] theorem tick_hosts : w.tick.hosts = w.hosts := rfl

@[simp] theorem setTable_hosts (t : Tbl) (rows : Table t.unique) :
    (w.setTable t rows).hosts = w.hosts := rfl

@[simp] theorem setHost_db (nodeId : Id) (h : Client.Host) : (w.setHost nodeId h).db = w.db := rfl

theorem setHost_hosts (nodeId nodeId' : Id) (h : Client.Host) :
    (w.setHost nodeId h).hosts nodeId' = if nodeId' = nodeId then h else w.hosts nodeId' :=
  Function.update_apply ..

@[simp] theorem setTable_self (t : Tbl) (rows : Table t.unique) : (w.setTable t rows).db t = rows :=
  Function.update_self ..

theorem setTable_ne (t t' : Tbl) (rows : Table t.unique) (other : t' ≠ t) :
    (w.setTable t rows).db t' = w.db t' := Function.update_of_ne other ..

@[simp] theorem exec_getAll (t : Tbl) (p : t.Row → Bool) :
    exec env (.getAll t p) w = (.ok ((w.db t).getAll p), w.tick) := rfl

@[simp] theorem exec_get (t : Tbl) (p : t.Row → Bool) :
    exec env (.get t p) w = (.ok ((w.db t).get p), w.tick) := rfl

@[simp] theorem exec_delete (t : Tbl) (p : t.Row → Bool) :
    exec env (.delete t p) w =
      (.ok ((w.db t).getAll p).length, (w.setTable t ((w.db t).delete p)).tick) := rfl

@[simp] theorem exec_uuid4 : exec env .uuid4 w = (.ok (env.uuid w.clock), w.tick) := rfl

@[simp] theorem exec_now : exec env .now w = (.ok (env.now w.clock), w.tick) := rfl

@[simp] theorem exec_choice : exec env .choice w = (.ok (env.choice w.clock), w.tick) := rfl

theorem exec_insert_some (t : Tbl) (row : t.Row) {rows : Table t.unique}
    (h : (w.db t).insert row = some rows) :
    exec env (.insert t row) w = (.ok (), (w.setTable t rows).tick) := by
  simp only [exec, h]

theorem exec_insert_none (t : Tbl) (row : t.Row) (h : (w.db t).insert row = none) :
    exec env (.insert t row) w = (.error .rqlite, w.tick) := by
  simp only [exec, h]

variable {env w} in
/-- A row comes in as it is inserted, or was there. -/
theorem insert_came {t : Tbl} {row r : t.Row} (there : r ∈ (exec env (.insert t row) w).2.db t) :
    r ∈ w.db t ∨ r = row := by
  cases inserted : (w.db t).insert row with
  | none =>
    rw [exec_insert_none env w t row inserted] at there
    exact .inl there
  | some rows =>
    rw [exec_insert_some env w t row inserted, tick_db, setTable_self] at there
    exact (Table.mem_insert inserted).mp there

theorem exec_host (nodeId : Id) (c : Client.Cmd) :
    exec env (.host nodeId c) w =
      (((w.hosts nodeId).exec (env.chance w.clock) c).1,
        (w.setHost nodeId ((w.hosts nodeId).exec (env.chance w.clock) c).2).tick) := rfl

/-- The commands of one host, in the cluster. -/
def execOn (n : Id) (c : Client.Cmd) (w : World) : Except Exn c.Res × World :=
  exec env (.host n c) w

theorem hosts_exec (n : Id) (c : Client.Cmd) (n' : Id) :
    (exec env (.host n c) w).2.hosts n' =
      if n' = n then ((w.hosts n).exec (env.chance w.clock) c).2 else w.hosts n' := by
  rw [exec_host, tick_hosts, setHost_hosts]

/-- An update that writes no unique column. -/
theorem exec_update (t : Tbl) (p : t.Row → Bool) (f : t.Row → t.Row)
    (keeps : ∀ col ∈ t.unique, ∀ r, col (f r) = col r) :
    ∃ rows, (w.db t).update p f = some rows ∧
      exec env (.update t p f) w =
        (.ok ((w.db t).getAll p).length, (w.setTable t rows).tick) := by
  obtain ⟨rows, same⟩ := (w.db t).update_isSome p f keeps
  refine ⟨rows, same, ?_⟩
  simp only [exec, same]

theorem exec_clock (o : Op) : (exec env o w).2.clock = w.clock + 1 := by
  cases o <;> simp only [exec]
  case insert t row => split <;> rfl
  case update t p f => split <;> rfl
  all_goals rfl

/-- The operation writes the table. -/
def Op.writes (t : Tbl) : Op → Prop
  | .insert t' _ => t' = t
  | .update t' _ _ => t' = t
  | .delete t' _ => t' = t
  | _ => False

theorem exec_frame (t : Tbl) (o : Op) (spares : ¬ o.writes t) :
    (exec env o w).2.db t = w.db t := by
  cases o <;> simp only [exec]
  case insert t' row =>
    split
    · exact setTable_ne w _ _ _ fun same => spares same.symm
    · rfl
  case update t' p f =>
    split
    · exact setTable_ne w _ _ _ fun same => spares same.symm
    · rfl
  case delete t' p => exact setTable_ne w _ _ _ fun same => spares same.symm
  all_goals rfl

/-- The cluster and the history of its operations, in a run of several programs. -/
abbrev Run : Type := Shared Op Op.Res Exn World

@[simp] theorem wp_orHttp {l α : Type} (Φ : OpSpec Op Op.Res Exn l) (x : Option α) (code : Nat)
    (detail : Str) (Q : Except Exn α → l) :
    wp Φ (orHttp x code detail) Q = match x with
      | some a => Q (.ok a)
      | none => Q (.error (.http code detail)) := by
  cases x <;> rfl

/-! ## Operations in a sequential run -/

section Sequential

@[simp] theorem wp_get (t : Tbl) (p : t.Row → Bool) (Q : Except Exn (Option t.Row) → World → Prop) :
    wp (sequential (exec env)) (get t p) Q w = Q (.ok ((w.db t).get p)) w.tick := by
  rw [get, wp_perform]
  rfl

@[simp] theorem wp_getAll (t : Tbl) (p : t.Row → Bool)
    (Q : Except Exn (List t.Row) → World → Prop) :
    wp (sequential (exec env)) (getAll t p) Q w = Q (.ok ((w.db t).getAll p)) w.tick := by
  rw [getAll, wp_perform]
  rfl

@[simp] theorem wp_delete (t : Tbl) (p : t.Row → Bool) (Q : Except Exn Nat → World → Prop) :
    wp (sequential (exec env)) (delete t p) Q w =
      Q (.ok ((w.db t).getAll p).length) (w.setTable t ((w.db t).delete p)).tick := by
  rw [delete, wp_perform]
  rfl

@[simp] theorem wp_uuid4 (Q : Except Exn Id → World → Prop) :
    wp (sequential (exec env)) uuid4 Q w = Q (.ok (env.uuid w.clock)) w.tick := by
  rw [uuid4, wp_perform]
  rfl

@[simp] theorem wp_now (Q : Except Exn Timestamp → World → Prop) :
    wp (sequential (exec env)) now Q w = Q (.ok (env.now w.clock)) w.tick := by
  rw [now, wp_perform]
  rfl

theorem wp_insert (t : Tbl) (row : t.Row) (Q : Except Exn Unit → World → Prop) :
    wp (sequential (exec env)) (insert t row) Q w =
      Q (exec env (.insert t row) w).1 (exec env (.insert t row) w).2 := by
  rw [insert, wp_perform]
  rfl

/-- An insert first: what follows is for the case that it succeeds. -/
theorem insert_then {β : Type} {t : Tbl} {row : t.Row} {f : Unit → Py β}
    {Q : Except Exn β → World → Prop} (fails : ∀ e, Q (.error e) (exec env (.insert t row) w).2)
    (rest : (exec env (.insert t row) w).1 = .ok () →
      wp (sequential (exec env)) (f ()) Q (exec env (.insert t row) w).2) :
    wp (sequential (exec env)) (insert t row >>= f) Q w := by
  rw [wp_bind, wp_insert]
  cases answer : (exec env (.insert t row) w).1 with
  | error e => exact fails e
  | ok _ => exact rest answer

/-- A lookup that answers with an HTTP error where there is no row. -/
theorem lookup_then {β : Type} {t : Tbl} {p : t.Row → Bool} {code : Nat} {detail : Str}
    {f : t.Row → Py β} {Q : Except Exn β → World → Prop} (fails : ∀ e, Q (.error e) w.tick)
    (rest : ∀ row ∈ w.db t, p row = true → wp (sequential (exec env)) (f row) Q w.tick) :
    wp (sequential (exec env)) (get t p >>= fun x => orHttp x code detail >>= f) Q w := by
  rw [wp_bind, wp_get, onValue_ok, wp_bind, wp_orHttp]
  cases found : (w.db t).get p with
  | none => exact fails _
  | some row =>
    obtain ⟨there, meets⟩ := Table.get_some found
    exact rest row there meets

/-- The default VPC, as it is returned, has its row. -/
theorem Defaults.ensureDefaultVpc_finds {J : World → Prop} (ticks : ∀ w, J w → J w.tick)
    (inserts : ∀ (row : VpcRow) w k, row.id = env.uuid k → J w →
      J (exec env (.insert .vpcs row) w).2) (holds : J w) :
    wp (sequential (exec env)) ensureDefaultVpc
      (fun r w' => J w' ∧ ∀ vpc, r = .ok vpc → vpc ∈ w'.db .vpcs) w := by
  rw [ensureDefaultVpc, defaultVpc, wp_bind, wp_get, onValue_ok]
  cases found : (w.db .vpcs).get fun r => r.name = DEFAULT_VPC_NAME with
  | some vpc =>
    refine ⟨ticks w holds, ?_⟩
    rintro _ ⟨⟩
    exact (Table.get_some found).1
  | none =>
    simp only [wp_bind, wp_uuid4, wp_now, onValue_ok, wp_tryCatch, wp_insert]
    set row : VpcRow := ⟨env.uuid w.tick.clock, DEFAULT_VPC_NAME, DEFAULT_VPC_CIDR,
      env.now w.tick.tick.clock⟩
    have kept : J (exec env (.insert .vpcs row) w.tick.tick.tick).2 :=
      inserts row _ w.tick.clock rfl (ticks _ (ticks _ (ticks _ holds)))
    cases inserted : (w.tick.tick.tick.db .vpcs).insert row with
    | some rows =>
      rw [exec_insert_some env _ .vpcs row inserted] at kept ⊢
      refine ⟨kept, ?_⟩
      rintro _ ⟨⟩
      rw [tick_db, setTable_self]
      exact (Table.mem_insert inserted).mpr (.inr rfl)
    | none =>
      rw [exec_insert_none env _ .vpcs row inserted] at kept ⊢
      -- Another node was first: its row is read again.
      rw [onValue_error, onError_error, if_pos rfl, wp_bind, wp_get, onValue_ok]
      cases again : (w.tick.tick.tick.tick.db .vpcs).get fun r => r.name = DEFAULT_VPC_NAME with
      | none =>
        refine ⟨ticks _ kept, ?_⟩
        rintro _ ⟨⟩
      | some vpc =>
        refine ⟨ticks _ kept, ?_⟩
        rintro _ ⟨⟩
        exact (Table.get_some again).1

end Sequential

/-! ## Requests that are handed on -/

/-- A request is served where it ends up. `P` is what an endpoint may assume of its request, and
holds again for the one that it hands on; `Q` survives the status codes in between. -/
theorem Api.serve_rule (env : Env) (cfg : Id → NodeConfig) (P : Request → World → Prop)
    (Q : Except Exn Response → World → Prop)
    (tick : ∀ req w, P req w → P req w.tick) (fails : ∀ req e w, P req w → Q (.error e) w)
    (remote : ∀ e w, Q (.error e) w → Q (.error (.http (errorBody e).1 (errorBody e).2)) w)
    (here : ∀ nodeId forward req w, P req w →
      (∀ target req' w', P req' w' → wp (sequential (exec env)) (forward target req') Q w') →
      wp (sequential (exec env)) (endpoint ⟨nodeId, cfg nodeId⟩ forward req) Q w)
    (hops : Nat) (nodeId : Id) (req : Request) (w : World) (holds : P req w) :
    wp (sequential (exec env)) (serve cfg hops nodeId req) Q w := by
  -- the induction is on the hops that are left: a node that is asked answers in the same way
  induction hops generalizing nodeId req w with
  | zero =>
    exact here nodeId _ req w holds fun _ req' w' holds' => fails req' .requestError w' holds'
  | succ hops ih =>
    refine here nodeId _ req w holds fun target req' w' holds' => ?_
    rw [forward, wp_bind, wp_get, onValue_ok, wp_bind, wp_orHttp]
    have ticked := tick req' w' holds'
    cases (w'.db .nodes).get fun r => r.nodeId = target with
    | none => exact fails req' _ w'.tick ticked
    | some row =>
      simp only [onValue_ok, Api.remote, wp_tryCatch]
      refine sequential_mono _ _ _ _ ?_ _ (ih row.nodeId req' w'.tick ticked)
      rintro (e | _) w'' post
      · exact remote e w'' post
      · exact post

/-- As `serve_rule`, where every operation meets `ok`, the state may tell more than the cluster, and
`P` may tell how far the request is. -/
theorem Api.serve_checked {σ : Type} (exec : (o : Op) → σ → Except Exn o.Res × σ)
    (nodes : σ → Table Tbl.nodes.unique)
    (gets : ∀ p s, (exec (.get .nodes p) s).1 = .ok ((nodes s).get p)) (ok : Op → σ → Prop)
    (cfg : Id → NodeConfig) (P : Nat → Id → Request → σ → Prop) (Q : Except Exn Response → σ → Prop)
    (looks : ∀ hops nodeId req s p, P hops nodeId req s →
      ok (.get .nodes p) s ∧ P hops nodeId req (exec (.get .nodes p) s).2)
    (next : ∀ hops nodeId req s p row, P (hops + 1) nodeId req s → row ∈ nodes s →
      P hops row.nodeId req (exec (.get .nodes p) s).2)
    (fails : ∀ hops nodeId req e s, P hops nodeId req s → Q (.error e) s)
    (remote : ∀ e s, Q (.error e) s → Q (.error (.http (errorBody e).1 (errorBody e).2)) s)
    (here : ∀ hops nodeId forward req s, P hops nodeId req s →
      (∀ target req' s', P hops nodeId req' s' → wp (checked exec ok) (forward target req') Q s') →
      wp (checked exec ok) (endpoint ⟨nodeId, cfg nodeId⟩ forward req) Q s)
    (hops : Nat) (nodeId : Id) (req : Request) (s : σ) (holds : P hops nodeId req s) :
    wp (checked exec ok) (serve cfg hops nodeId req) Q s := by
  -- the same induction, with the state that the hops share
  induction hops generalizing nodeId req s with
  | zero =>
    exact here 0 nodeId _ req s holds fun _ req' s' holds' =>
      fails 0 nodeId req' .requestError s' holds'
  | succ hops ih =>
    refine here (hops + 1) nodeId _ req s holds fun target req' s' holds' => ?_
    have looked := looks _ _ _ _ (fun r => r.nodeId = target) holds'
    rw [forward, wp_bind, get, wp_perform]
    refine ⟨looked.1, ?_⟩
    rw [gets, onValue_ok, wp_bind, wp_orHttp]
    cases found : (nodes s').get fun r => r.nodeId = target with
    | none => exact fails _ _ req' _ _ looked.2
    | some row =>
      simp only [onValue_ok, Api.remote, wp_tryCatch]
      refine checked_mono _ _ _ _ _ ?_ _ (ih row.nodeId req' _
        (next hops nodeId req' s' _ row holds' (Table.get_some found).1))
      rintro (e | _) s'' post
      · exact remote e s'' post
      · exact post

/-! ## Client programs inside a node's program -/

/-- What a specification of the operations says of the commands on one host. -/
def onHostSpec {l : Type} (Φ : OpSpec Op Op.Res Exn l) (nodeId : Id) :
    OpSpec Client.Cmd Client.Cmd.Res Exn l := fun c Q => Φ (.host nodeId c) Q

@[simp] theorem wp_onHost {l α : Type} (Φ : OpSpec Op Op.Res Exn l) (nodeId : Id)
    (p : Client.Sh α) (Q : Except Exn α → l) :
    wp Φ (onHost nodeId p) Q = wp (onHostSpec Φ nodeId) p Q := by
  induction p with
  | ret a => rfl
  | raise e => rfl
  | op c k ih =>
    change Φ (.host nodeId c) (fun r => wp Φ (onHost nodeId (k r)) Q) = _
    exact congrArg (Φ (.host nodeId c)) (funext ih)

@[simp] theorem wp_sh {l α : Type} (Φ : OpSpec Op Op.Res Exn l) (self : Node)
    (p : Client.Sh α) (Q : Except Exn α → l) :
    wp Φ (self.sh p) Q = wp (onHostSpec Φ self.id) p Q := wp_onHost Φ self.id p Q

theorem onHost_bind {α β : Type} (n : Id) (p : Client.Sh α) (f : α → Client.Sh β) :
    onHost n (p >>= f) = onHost n p >>= fun a => onHost n (f a) := by
  induction p with
  | ret a => rfl
  | raise e => rfl
  | op c k ih => exact congrArg (@Program.op Op Op.Res Exn β (.host n c)) (funext ih)

theorem sh_bind {α β : Type} (self : Node) (p : Client.Sh α) (f : α → Client.Sh β) :
    self.sh (p >>= f) = self.sh p >>= fun a => self.sh (f a) := onHost_bind self.id p f

/-- The cluster after commands on one of its hosts. -/
def World.put (w : World) (nodeId : Id) (s : Nat × Client.Host) : World :=
  { w with hosts := Function.update w.hosts nodeId s.2, clock := s.1 }

theorem World.put_same (w : World) (nodeId : Id) : w.put nodeId (w.clock, w.hosts nodeId) = w := by
  rw [World.put, Function.update_eq_self]

theorem World.put_exec (w : World) (nodeId : Id) (h : Client.Host) (s : Nat × Client.Host) :
    (w.setHost nodeId h).tick.put nodeId s = w.put nodeId s := by
  simp only [World.put, World.tick, World.setHost, Function.update_idem]

/-- What a client program does to its host is what it does to the cluster. -/
theorem gated_onHost {ok : Op → World → Prop} {okHost : Client.Cmd → Nat × Client.Host → Prop}
    {nodeId : Id} (meets : ∀ c w, ok (.host nodeId c) w → okHost c (w.clock, w.hosts nodeId))
    {α : Type} {p : Client.Sh α} {Q : Except Exn α → World → Prop} {w : World}
    (h : wp (gated (Client.execAt env.chance) okHost) p (fun r s => Q r (w.put nodeId s))
      (w.clock, w.hosts nodeId)) :
    wp (gated (exec env) ok) (onHost nodeId p) Q w := by
  -- the induction is on the host program; the clock moves on with each command
  induction p generalizing w with
  | ret a =>
    change Q (.ok a) (w.put nodeId (w.clock, w.hosts nodeId)) at h
    rwa [World.put_same] at h
  | raise e =>
    change Q (.error e) (w.put nodeId (w.clock, w.hosts nodeId)) at h
    rwa [World.put_same] at h
  | op c k ih =>
    intro fine
    apply ih
    have next := h (meets c w fine)
    simp only [exec, World.put_exec]
    have there : ((w.setHost nodeId ((w.hosts nodeId).exec (env.chance w.clock) c).2).tick).hosts
        nodeId =
        ((w.hosts nodeId).exec (env.chance w.clock) c).2 := Function.update_self ..
    rw [there]
    exact next

theorem sequential_onHost {nodeId : Id} {α : Type} {p : Client.Sh α}
    {Q : Except Exn α → World → Prop} {w : World}
    (h : wp (sequential (Client.execAt env.chance)) p (fun r s => Q r (w.put nodeId s))
      (w.clock, w.hosts nodeId)) :
    wp (sequential (exec env)) (onHost nodeId p) Q w := by
  induction p generalizing w with
  | ret a =>
    change Q (.ok a) (w.put nodeId (w.clock, w.hosts nodeId)) at h
    rwa [World.put_same] at h
  | raise e =>
    change Q (.error e) (w.put nodeId (w.clock, w.hosts nodeId)) at h
    rwa [World.put_same] at h
  | op c k ih =>
    apply ih
    simp only [exec, World.put_exec]
    have there : ((w.setHost nodeId ((w.hosts nodeId).exec (env.chance w.clock) c).2).tick).hosts
        nodeId =
        ((w.hosts nodeId).exec (env.chance w.clock) c).2 := Function.update_self ..
    rw [there]
    exact h

/-- A client program inside a node's program issues commands on that host. -/
theorem Effects.Program.Only.sh {α : Type} {allowed : Op → Prop} (self : Node) {p : Client.Sh α}
    (h : Only (fun c => allowed (.host self.id c)) p) : Only allowed (self.sh p) := by
  rw [Only, wp_sh]
  exact h

/-- Where every command on the host is allowed, any client program is. -/
theorem Effects.Program.Only.shAny {α : Type} {allowed : Op → Prop} (self : Node) (p : Client.Sh α)
    (all : ∀ c, allowed (.host self.id c)) : Only allowed (self.sh p) := by
  refine Only.sh self ?_
  induction p with
  | ret a => exact trivial
  | raise e => exact trivial
  | op c k ih => exact ⟨all c, fun r _ => ih _, fun e => ih _⟩

theorem Effects.Program.Only.get {allowed : Op → Prop} {t : Tbl} {p : t.Row → Bool}
    (ok : allowed (.get t p)) :
    Only allowed (get t p) := Only.perform ok

theorem Effects.Program.Only.getAll {allowed : Op → Prop} {t : Tbl} {p : t.Row → Bool}
    (ok : allowed (.getAll t p)) : Only allowed (getAll t p) := Only.perform ok

theorem Effects.Program.Only.insert {allowed : Op → Prop} {t : Tbl} {row : t.Row}
    (ok : allowed (.insert t row)) :
    Only allowed (insert t row) := Only.perform ok

theorem Effects.Program.Only.update {allowed : Op → Prop} {t : Tbl} {p : t.Row → Bool}
    {f : t.Row → t.Row}
    (ok : allowed (.update t p f)) : Only allowed (update t p f) := Only.perform ok

theorem Effects.Program.Only.delete {allowed : Op → Prop} {t : Tbl} {p : t.Row → Bool}
    (ok : allowed (.delete t p)) : Only allowed (delete t p) := Only.perform ok

theorem Effects.Program.Only.uuid4 {allowed : Op → Prop} (ok : allowed .uuid4) :
    Only allowed uuid4 :=
  Only.perform ok

theorem Effects.Program.Only.now {allowed : Op → Prop}
    (ok : allowed .now) : Only allowed now := Only.perform ok

theorem Effects.Program.Only.choice {allowed : Op → Prop} (ok : allowed .choice) :
    Only allowed choice :=
  Only.perform ok

end Nyc
