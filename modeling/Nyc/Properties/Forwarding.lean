import Nyc.Footprint
import Nyc.Routing

/-!
# Requests that are handed on to their node

A request that arrives at another node than its own is answered there by the same local
handler, from the same database. A value comes back as it is. An `HTTPException` is raised
again with the text of its JSON body as the detail, so the client gets a body inside a body.
-/

namespace Nyc

open Data Effects Effects.Program

namespace Api

/-- The status of an answer. -/
def successCode : Request → Nat
  | .createVpc _ | .createVolume _ | .createSnapshot _ | .createImage _ | .createVm _ | .spawnVm _ _
  | .attachPublicIp _ | .createDomain _ | .createProxy _ | .createTask _ _ => 201
  | .deleteVpc _ | .deleteVolume _ | .deleteSnapshot _ | .deleteImage _ | .deleteVm _
  | .detachPublicIp _ | .deleteDomain _ => 204
  | .resizeVolume _ _ | .getVm _ | .stopVm _ | .startVm _ | .rebootVm _ | .reconcileNow => 200

/-- What the client gets: a status with a value that is rendered as JSON, or with a text. -/
def reply (req : Request) : Except Exn Response → Nat × (Response ⊕ Str)
  | .ok response => (successCode req, .inl response)
  | .error exc => ((errorBody exc).1, .inr (errorBody exc).2)

/-- An outcome as `remote` passes it on. -/
def relayed : Except Exn Response → Except Exn Response
  | .ok response => .ok response
  | .error exc => .error (.http (errorBody exc).1 (errorBody exc).2)

end Api

namespace Forwarding

open Api

section

variable (env : Env) (cfg : Id → NodeConfig) {w : World} {req : Request} {owner : Id}

theorem boundTo_handedTo {db : Db} (bound : boundTo db req = some owner) :
    boundTo db (handedTo owner req) = some owner := by
  cases req with
  | spawnVm body pin =>
    rw [handedTo, boundTo]
    split
    · rfl
    next falsy =>
      rw [boundTo] at bound
      split at bound
      next value => exact absurd (bound ▸ value) falsy
      · exact bound
  | _ => exact bound

theorem handler_handedTo (self : Node) (db : Db) (nodeId : Id) (req : Request) :
    handler self db (handedTo nodeId req) = handler self db req := by
  cases req <;> rfl

/-- At its own node a request is served by its local handler. -/
theorem serve_here (hops : Nat) (bound : boundTo w.db req = some owner) :
    RunsAs env (serve cfg hops owner req) w (handler ⟨owner, cfg owner⟩ w.db req)
      (w.ticks (lookups req)) := by
  cases hops with
  | zero =>
    have runs := endpoint_runs env ⟨owner, cfg owner⟩ req bound fun _ _ => throw .requestError
    rwa [if_neg (not_not.mpr rfl)] at runs
  | succ hops =>
    have runs := endpoint_runs env ⟨owner, cfg owner⟩ req bound (forward (serve cfg hops))
    rwa [if_neg (not_not.mpr rfl)] at runs

theorem run_remote (p : Py Response) (w : World) :
    run (exec env) (remote p) w = (relayed (run (exec env) p w).1, (run (exec env) p w).2) := by
  refine (wp_sequential (exec env) (remote p) (fun r w' => (r, w') = _) w).mp ?_
  rw [remote, wp_tryCatch, wp_sequential]
  cases (run (exec env) p w).1 <;> rfl

/-- The world in which the request reaches its owner, by way of another node. -/
def arrival (owner : Id) (req : Request) (w : World) : World :=
  w.ticks (lookups (handedTo owner req) + 1)

/-- Through another node, the outcome is the owner's, as `remote` passes it on. -/
theorem serve_elsewhere (hops : Nat) {nodeId : Id} (bound : boundTo w.db req = some owner)
    (other : nodeId ≠ owner) (registered : ∃ row ∈ w.db .nodes, row.nodeId = owner) :
    run (exec env) (serve cfg (hops + 1) nodeId req) w =
      (relayed (run (exec env) (serve cfg hops owner req) (arrival owner req w)).1,
        (run (exec env) (serve cfg hops owner req) (arrival owner req w)).2) := by
  -- Both reach the owner's handler at the same moment, with and without the pin.
  have direct := serve_here env cfg (w := arrival owner req w) hops bound
  have handed := serve_here env cfg (w := w.ticks (lookups req + 1)) hops
    (boundTo_handedTo bound)
  have clock : (arrival owner req w).ticks (lookups req) =
      (w.ticks (lookups req + 1)).ticks (lookups (handedTo owner req)) := by
    rw [arrival, ticks_ticks, ticks_ticks]
    congr 1
    omega
  rw [handler_handedTo] at handed
  rw [clock] at direct
  have alike := handed.trans direct.symm
  have there : ∃ row, (w.db .nodes).get (fun r => r.nodeId = owner) = some row ∧
      row.nodeId = owner := by
    cases found : (w.db .nodes).get fun r => r.nodeId = owner with
    | none =>
      obtain ⟨row, member, same⟩ := registered
      exact absurd (Table.get_none.mp found row member) (by simp only [same, decide_true]; decide)
    | some row => exact ⟨row, rfl, of_decide_eq_true (Table.get_some found).2⟩
  obtain ⟨row, found, same⟩ := there
  have sent : RunsAs env (serve cfg (hops + 1) nodeId req) w
      (remote (serve cfg hops owner (handedTo owner req))) (w.ticks (lookups req + 1)) := by
    have first := endpoint_runs env ⟨nodeId, cfg nodeId⟩ req bound (forward (serve cfg hops))
    rw [if_pos (Ne.symm other)] at first
    have second := runsAs_lookup env (w := w.ticks (lookups req)) _ 404
      ("unknown node " ++ owner) found fun row =>
        remote (serve cfg hops row.nodeId (handedTo owner req))
    rw [same] at second
    exact first.trans second
  rw [sent.run_eq, run_remote env, alike.run_eq]

/-! ## With or without the owner -/

/-- The request gets to its node: it arrives there, or the node that it arrives at can hand it
on. -/
def Arrives (db : Db) (hops : Nat) (nodeId owner : Id) : Prop :=
  nodeId = owner ∨ hops ≠ 0 ∧ ∃ row ∈ db .nodes, row.nodeId = owner

/-- The owner's answer as the node of arrival gives it. -/
def answered (nodeId owner : Id) (p : Py Response) : Py Response :=
  if nodeId = owner then p else remote p

theorem runsAs_remote {p q : Py Response} {w' : World} (same : RunsAs env p w q w') :
    RunsAs env (remote p) w (remote q) w' := by
  intro ok quiet Q
  simp only [remote, wp_tryCatch]
  exact same ok quiet _

/-- What does not look at how an error is passed on holds of the owner's own answer. -/
theorem wp_answered (Φ : OpSpec Op Op.Res Exn (World → Prop)) (nodeId : Id) (p : Py Response)
    (Q : Except Exn Response → World → Prop)
    (relays : ∀ e, Q (.error (.http (errorBody e).1 (errorBody e).2)) = Q (.error e)) :
    wp Φ (answered nodeId owner p) Q = wp Φ p Q := by
  unfold answered
  split
  · rfl
  · rw [remote, wp_tryCatch]
    congr 1
    funext r
    cases r with
    | ok response => rfl
    | error e => exact relays e

/-- A request that gets to its node is served there by the local handler. -/
theorem serve_arrives {hops : Nat} {nodeId : Id} (bound : boundTo w.db req = some owner)
    (arrives : Arrives w.db hops nodeId owner) :
    ∃ k, RunsAs env (serve cfg hops nodeId req) w
      (answered nodeId owner (handler ⟨owner, cfg owner⟩ w.db req)) (w.ticks k) := by
  by_cases here : nodeId = owner
  · subst here
    refine ⟨lookups req, ?_⟩
    rw [answered, if_pos rfl]
    exact serve_here env cfg hops bound
  · obtain ⟨more, row, member, same⟩ := arrives.resolve_left here
    obtain ⟨hops, rfl⟩ := Nat.exists_eq_succ_of_ne_zero more
    obtain ⟨row', found⟩ : ∃ row', (w.db .nodes).get (fun r => r.nodeId = owner) = some row' := by
      cases found : (w.db .nodes).get fun r => r.nodeId = owner with
      | none =>
        have missing := Table.get_none.mp found row member
        exact absurd same (of_decide_eq_false missing)
      | some row' => exact ⟨row', rfl⟩
    have same' : row'.nodeId = owner := of_decide_eq_true (Table.get_some found).2
    -- The lookups of the endpoint, the one of the registry, then those of the owner.
    have first := endpoint_runs env ⟨nodeId, cfg nodeId⟩ req bound (forward (serve cfg hops))
    rw [if_pos (Ne.symm here)] at first
    have second := runsAs_lookup env (w := w.ticks (lookups req)) _ 404
      ("unknown node " ++ owner) found fun row =>
        remote (serve cfg hops row.nodeId (handedTo owner req))
    rw [same'] at second
    have third := serve_here env cfg (w := w.ticks (lookups req + 1)) hops (boundTo_handedTo bound)
    rw [handler_handedTo] at third
    refine ⟨lookups req + 1 + lookups (handedTo owner req), ?_⟩
    rw [answered, if_neg here, ← ticks_ticks]
    exact (first.trans second).trans (runsAs_remote env third)

/-- A request that does not get to its node ends in an error after lookups. -/
theorem serve_lost {hops : Nat} {nodeId : Id} (bound : boundTo w.db req = some owner)
    (lost : ¬ Arrives w.db hops nodeId owner) :
    ∃ k e, RunsAs env (serve cfg hops nodeId req) w (throw e) (w.ticks k) := by
  rw [Arrives, not_or] at lost
  obtain ⟨elsewhere, alone⟩ := lost
  cases hops with
  | zero =>
    refine ⟨lookups req, .requestError, ?_⟩
    have runs := endpoint_runs env ⟨nodeId, cfg nodeId⟩ req bound fun _ _ => throw .requestError
    rwa [if_pos (Ne.symm elsewhere)] at runs
  | succ hops =>
    have missing : (w.db .nodes).get (fun r => r.nodeId = owner) = none := by
      refine Table.get_none.mpr fun row member => ?_
      by_contra there
      have same : row.nodeId = owner := by simpa using there
      exact alone ⟨Nat.succ_ne_zero hops, row, member, same⟩
    have first := endpoint_runs env ⟨nodeId, cfg nodeId⟩ req bound (forward (serve cfg hops))
    rw [if_pos (Ne.symm elsewhere)] at first
    have second := runsAs_missing env (w := w.ticks (lookups req)) _ 404
      ("unknown node " ++ owner) missing fun row =>
        remote (serve cfg hops row.nodeId (handedTo owner req))
    exact ⟨lookups req + 1, _, first.trans second⟩

/-! ## Bodies inside bodies -/

theorem jsonEscape_length (text : Str) : text.length ≤ (jsonEscape text).length := by
  induction text with
  | nil => exact Nat.zero_le _
  | cons c rest ih =>
    have one : 1 ≤ (jsonEscape [c]).length := by
      simp only [jsonEscape, List.flatMap_cons, List.flatMap_nil, List.append_nil]
      split <;> try decide
      split
      · simp
      · exact Nat.le_refl 1
    have both : jsonEscape (c :: rest) = jsonEscape [c] ++ jsonEscape rest := by
      simp only [jsonEscape, List.flatMap_cons, List.flatMap_nil, List.append_nil]
    rw [both, List.length_append, List.length_cons]
    omega

/-- No text is the body of an error with that text as its detail. -/
theorem errorBody_ne (code : Nat) (detail : Str) :
    (errorBody (.http code (errorBody (.http code detail)).2)).2 ≠
      (errorBody (.http code detail)).2 := by
  intro same
  have escapes : jsonEscape (errorBody (.http code detail)).2 = jsonEscape detail := by
    simp only [errorBody] at same ⊢
    exact List.append_cancel_left (List.append_cancel_right same)
  have longer := jsonEscape_length (errorBody (.http code detail)).2
  rw [escapes] at longer
  simp only [errorBody, List.length_append] at longer
  have quoted : 0 < ("\x7b\"detail\":\"".toList).length := by decide
  omega

end

/-- The reply and the effect are those of the request sent to the owner itself. -/
structure Transparent (env : Env) (cfg : Id → NodeConfig) (hops : Nat) (nodeId owner : Id)
    (req : Request) (w : World) : Prop where
  reply : reply req (run (exec env) (serve cfg (hops + 1) nodeId req) w).1 =
    reply req (run (exec env) (serve cfg hops owner req) (arrival owner req w)).1
  effect : (run (exec env) (serve cfg (hops + 1) nodeId req) w).2 =
    (run (exec env) (serve cfg hops owner req) (arrival owner req w)).2

/-- The owner answers with a value, or refuses with an `HTTPException`. -/
def Answers : Except Exn Response → Prop
  | .ok _ | .error (.http _ _) => True
  | .error _ => False

/-- The owner refuses the request with an `HTTPException`. -/
def Refuses : Except Exn Response → Prop
  | .error (.http _ _) => True
  | _ => False

instance : DecidablePred Answers
  | .ok _ | .error (.http _ _) => .isTrue trivial
  | .error .privops | .error (.runtime _) | .error .rqlite | .error (.value _) | .error .indexError
  | .error .typeError | .error .attributeError | .error .os
  | .error .requestError => .isFalse id

instance : DecidablePred Refuses
  | .error (.http _ _) => .isTrue trivial
  | .ok _ | .error .privops | .error (.runtime _) | .error .rqlite | .error (.value _)
  | .error .indexError | .error .typeError | .error .attributeError | .error .os
  | .error .requestError => .isFalse id

/-- A request that arrives at another node gets the owner's own reply, with the same effect, if
and only if the owner does not refuse it with an `HTTPException`. -/
theorem transparent_iff (env : Env) (cfg : Id → NodeConfig) (hops : Nat) (nodeId owner : Id)
    (req : Request) (w : World) (bound : boundTo w.db req = some owner) (other : nodeId ≠ owner)
    (registered : ∃ row ∈ w.db .nodes, row.nodeId = owner) :
    (Answers (run (exec env) (serve cfg hops owner req) (arrival owner req w)).1 →
      Transparent env cfg hops nodeId owner req w) ↔
    ¬ Refuses (run (exec env) (serve cfg hops owner req) (arrival owner req w)).1 := by
  have through := serve_elsewhere env cfg hops bound other registered
  have effect := congrArg Prod.snd through
  have outcome := congrArg Prod.fst through
  constructor
  -- an error body that is wrapped again is longer than it was
  · intro transparent refuses
    cases direct : (run (exec env) (serve cfg hops owner req) (arrival owner req w)).1 with
    | ok response => exact absurd refuses (by rw [direct]; exact id)
    | error exc =>
      rw [direct] at refuses outcome transparent
      cases exc with
      | http code detail =>
        have same := congrArg Prod.snd (transparent trivial).reply
        rw [outcome, direct] at same
        exact errorBody_ne code detail (Sum.inr.inj same)
      | _ => exact refuses
  · intro accepts answers
    refine ⟨?_, effect⟩
    cases direct : (run (exec env) (serve cfg hops owner req) (arrival owner req w)).1 with
    | ok response => rw [outcome, direct, relayed]
    | error exc =>
      rw [direct] at accepts answers
      cases exc with
      | http code detail => exact absurd trivial accepts
      | _ => exact answers.elim

/-! ## A refusal and a success -/

/-- Two nodes, and the VMs of node `n1`. -/
def twoNodes : World :=
  { Sample.twoVms with
    db := Function.update Sample.twoVms.db .nodes
      ⟨[⟨"n1", "10.0.0.1", 8000⟩, ⟨"n2", "10.0.0.2", 8000⟩], by decide⟩ }

/-- `POST /vms` for node `n1`, in a VPC that does not exist. -/
def unknownVpc : Request := .createVm ⟨"vm", "nope", none, some "n1".toList⟩

/-- Through `n2` the client gets the body of the refusal as the detail of another one. -/
theorem refusal_is_wrapped :
    ¬ ∀ (env : Env) (cfg : Id → NodeConfig) (hops : Nat) (nodeId owner : Id) (req :
      Request) (w : World),
      boundTo w.db req = some owner → nodeId ≠ owner → (∃ row ∈ w.db .nodes, row.nodeId = owner) →
      Answers (run (exec env) (serve cfg hops owner req) (arrival owner req w)).1 →
      Transparent env cfg hops nodeId owner req w := by
  intro transparent
  have there := transparent Sample.env Sample.cluster 1 "n2" "n1" unknownVpc twoNodes (by decide)
    (by decide) ⟨⟨"n1", "10.0.0.1", 8000⟩, List.mem_cons_self, rfl⟩ (by decide +kernel)
  have different : (reply unknownVpc
      (run (exec Sample.env) (serve Sample.cluster 2 "n2" unknownVpc) twoNodes).1).2.getRight? ≠
      (reply unknownVpc (run (exec Sample.env) (serve Sample.cluster 1 "n1" unknownVpc)
        (arrival "n1" unknownVpc twoNodes)).1).2.getRight? := by
    decide +kernel
  exact different (congrArg (fun r => r.2.getRight?) there.reply)

/-- Node `n2` passes on what `n1` answers to a stop. -/
theorem stop_is_transparent :
    Transparent Sample.env Sample.cluster 1 "n2" "n1" (.stopVm "v1") twoNodes :=
  (transparent_iff Sample.env Sample.cluster 1 "n2" "n1" (.stopVm "v1") twoNodes (by decide +kernel)
    (by decide) ⟨⟨"n1", "10.0.0.1", 8000⟩, List.mem_cons_self, rfl⟩).mpr (by decide +kernel)
    (by decide +kernel)

end Forwarding

end Nyc
