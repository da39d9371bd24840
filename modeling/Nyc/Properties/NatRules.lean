import Nyc.Client.Topology
import Nyc.Data.Once

/-!
# The NAT rules of the VPCs

`nat.ensure` adds the rules of a CIDR that are not there, and `nat.delete` takes them out. No rule
is there twice, so that one deletion is enough, and every other rule stays where it is.
-/

namespace Nyc.NatRules

open Data Effects Effects.Program Client Nat_

/-! ## The rules -/

/-- The rules of one CIDR. -/
inductive RuleKind where
  | masquerade | source | destination
  deriving DecidableEq

def ruleFor (k : RuleKind) (cidr : Str) : Rule :=
  match k with
  | .masquerade => ⟨NAT, POST, ["-s", cidr, "!", "-d", cidr, "-j", "MASQUERADE"]⟩
  | .source => ⟨FILTER, FWD, ["-s", cidr, "-j", "ACCEPT"]⟩
  | .destination => ⟨FILTER, FWD, ["-d", cidr, "-j", "ACCEPT"]⟩

/-- The jumps into the two chains. -/
inductive Jump where
  | postrouting | forward
  deriving DecidableEq

def Jump.rule : Jump → Rule
  | postrouting => ⟨NAT, "POSTROUTING", ["-j", POST]⟩
  | forward => ⟨FILTER, "FORWARD", ["-j", FWD]⟩

def Ours (r : Rule) : Prop := (r.table = NAT ∧ r.chain = POST) ∨ (r.table = FILTER ∧ r.chain = FWD)

instance (r : Rule) : Decidable (Ours r) :=
  inferInstanceAs (Decidable ((r.table = NAT ∧ r.chain = POST) ∨
    (r.table = FILTER ∧ r.chain = FWD)))

/-- A rule of another chain than the two, and not a jump into them. -/
def foreign (r : Rule) : Bool :=
  !decide (Ours r) && r ≠ Jump.postrouting.rule && r ≠ Jump.forward.rule

theorem ours_ruleFor (k : RuleKind) (cidr : Str) : Ours (ruleFor k cidr) := by
  cases k with
  | masquerade => exact .inl ⟨rfl, rfl⟩
  | source => exact .inr ⟨rfl, rfl⟩
  | destination => exact .inr ⟨rfl, rfl⟩

theorem not_foreign_ruleFor (k : RuleKind) (cidr : Str) : foreign (ruleFor k cidr) = false := by
  rw [foreign, decide_eq_true (ours_ruleFor k cidr)]
  rfl

theorem not_foreign_jump (j : Jump) : foreign j.rule = false := by cases j <;> decide

theorem jump_not_ours (j : Jump) : ¬ Ours j.rule := by cases j <;> decide

theorem ruleFor_ne_jump (k : RuleKind) (cidr : Str) (j : Jump) : ruleFor k cidr ≠ j.rule :=
  fun same => jump_not_ours j (same ▸ ours_ruleFor k cidr)

theorem cidr_ruleFor (k : RuleKind) (cidr : Str) : (ruleFor k cidr).args[1]? = some cidr := by
  cases k <;> rfl

/-- How many arguments the rule has. -/
def RuleKind.size : RuleKind → Nat
  | masquerade => 7
  | source | destination => 4

/-- The first argument. -/
def RuleKind.flag : RuleKind → Str
  | masquerade | source => "-s"
  | destination => "-d"

theorem length_ruleFor (k : RuleKind) (cidr : Str) : (ruleFor k cidr).args.length = k.size := by
  cases k <;> rfl

theorem head_ruleFor (k : RuleKind) (cidr : Str) : (ruleFor k cidr).args.head? = some k.flag := by
  cases k <;> rfl

/-- The length of the arguments and the first one tell the three apart. -/
theorem kind_ruleFor {k k' : RuleKind} {cidr cidr' : Str}
    (same : ruleFor k cidr = ruleFor k' cidr') : k = k' := by
  have lengths := length_ruleFor k cidr
  have heads := head_ruleFor k cidr
  rw [same, length_ruleFor] at lengths
  rw [same, head_ruleFor] at heads
  revert lengths heads
  cases k <;> cases k' <;> decide

theorem ruleFor_inj {k k' : RuleKind} {cidr cidr' : Str}
    (same : ruleFor k cidr = ruleFor k' cidr') :
    k = k' ∧ cidr = cidr' := by
  have args := cidr_ruleFor k cidr
  rw [same, cidr_ruleFor] at args
  exact ⟨kind_ruleFor same, (Option.some.inj args).symm⟩

/-! ## Calls -/

inductive Call where
  | ensure (cidr : Str)
  | delete (cidr : Str)
  deriving DecidableEq

namespace Call

def cidr : Call → Str
  | ensure c | delete c => c

def program : Call → Sh Unit
  | ensure c => Nat_.ensure c
  | delete c => Nat_.delete c

/-- The call leaves the rules of its CIDR. -/
def wants : Call → Bool
  | ensure _ => true
  | delete _ => false

/-- Which CIDRs have their rules after the call, where `wanted` had them before. -/
def after (wanted : Str → Bool) : Call → Str → Bool
  | ensure c => Function.update wanted c true
  | delete c => Function.update wanted c false

end Call

/-- The last call for a CIDR. -/
def last (calls : List Call) (cidr : Str) : Option Call :=
  calls.reverse.find? fun c => c.cidr = cidr

theorem last_cons (c : Call) (calls : List Call) (cidr : Str) :
    last (c :: calls) cidr = (last calls cidr).or (if c.cidr = cidr then some c else none) := by
  rw [last, List.reverse_cons, List.find?_append, last]
  congr 1
  by_cases same : c.cidr = cidr <;> simp [same]

/-! ## One rule -/

/-- The chains into which nyc jumps. -/
structure Ready (n : Net) : Prop where
  postrouting : (NAT, ("POSTROUTING" : Str)) ∈ n.chains
  forward : (FILTER, ("FORWARD" : Str)) ∈ n.chains

section

variable {x : Nat → Chance} (sound : ∀ n, (x n).fails = false)

include sound

theorem chain_exists {s : Nat × Host} {table chain : Str} {Q : Except Exn Unit → Nat × Host → Prop}
    (rest : ∀ s' : Nat × Host, s'.2.net.rules = s.2.net.rules → (table, chain) ∈ s'.2.net.chains →
      s.2.net.chains ⊆ s'.2.net.chains → Q (.ok ()) s') :
    wp (sequential (execAt x)) (ensureChain table chain) Q s := by
  rw [ensureChain, wp_bind, exceptPrivops, wp_tryCatch, wp_bind]
  apply net_then (sound s.1)
  · intro _ n' s' step same
    simp only [NetCmd.step] at step
    split at step <;> cases step
    exact rest s' (by rw [same]) (by rw [same]; assumption) (by rw [same]; exact List.Subset.refl _)
  · intro s' step same
    simp only [NetCmd.step] at step
    split at step <;> cases step
    next missing =>
      apply net_then (sound s'.1)
      · intro _ n' s'' step' same'
        rw [same] at step'
        simp only [NetCmd.step, if_pos missing] at step'
        cases step'
        exact rest s'' (by rw [same']) (by rw [same']; exact List.mem_cons_self)
          (by rw [same']; exact List.subset_cons_self _ _)
      · intro s'' step' _
        rw [same] at step'
        simp only [NetCmd.step, if_pos missing] at step'
        cases step'

/-- A check for a rule, which changes nothing. -/
theorem checked_then {α : Type} {s : Nat × Host} {r : Rule} {f : Bool → Sh α}
    {Q : Except Exn α → Nat × Host → Prop}
    (rest : ∀ s' : Nat × Host, s'.2.net = s.2.net →
      wp (sequential (execAt x)) (f (decide (r ∈ s.2.net.rules))) Q s') :
    wp (sequential (execAt x)) (exceptPrivops (do net (.checkRule r); return true) false >>=
      f) Q s := by
  rw [wp_bind, exceptPrivops, wp_tryCatch, wp_bind]
  apply net_then (sound s.1)
  · intro _ n' s' step same
    simp only [NetCmd.step] at step
    split at step <;> cases step
    next there =>
      have result := rest s' same
      rwa [decide_eq_true there] at result
  · intro s' step same
    simp only [NetCmd.step] at step
    split at step <;> cases step
    next missing =>
      have result := rest s' same
      rwa [decide_eq_false missing] at result

theorem rule_added {s : Nat × Host} {table chain : Str} {args : List Str}
    (there : (table, chain) ∈ s.2.net.chains) {Q : Except Exn Unit → Nat × Host → Prop}
    (rest : ∀ s' : Nat × Host, s'.2.net.rules = addOnce ⟨table, chain, args⟩ s.2.net.rules →
      s'.2.net.chains = s.2.net.chains → Q (.ok ()) s') :
    wp (sequential (execAt x)) (ensureRule table chain args) Q s := by
  rw [ensureRule]
  apply checked_then sound
  intro s' same
  rw [wp_ite]
  split
  next found =>
    apply rest s'
    · rw [same, addOnce_of_mem (of_decide_eq_true found)]
    · rw [same]
  next missing =>
    have new : (⟨table, chain, args⟩ : Rule) ∉ s.2.net.rules :=
      fun found => missing (decide_eq_true found)
    apply net_then (sound s'.1)
    · intro _ n' s'' step same'
      rw [same] at step
      simp only [NetCmd.step, if_pos there] at step
      cases step
      apply rest s''
      · rw [same', addOnce_of_not_mem new]
      · rw [same']
    · intro s'' step _
      rw [same] at step
      simp only [NetCmd.step, if_pos there] at step
      cases step

theorem rule_erased {s : Nat × Host} {table chain : Str} {args : List Str}
    {Q : Except Exn Unit → Nat × Host → Prop}
    (rest : ∀ s' : Nat × Host, s'.2.net.rules = s.2.net.rules.erase ⟨table, chain, args⟩ →
      s'.2.net.chains = s.2.net.chains → Q (.ok ()) s') :
    wp (sequential (execAt x)) (delRule table chain args) Q s := by
  rw [delRule]
  apply checked_then sound
  intro s' same
  rw [wp_ite]
  split
  next found =>
    have there := of_decide_eq_true found
    apply net_then (sound s'.1)
    · intro _ n' s'' step same'
      rw [same] at step
      simp only [NetCmd.step, if_pos there] at step
      cases step
      exact rest s'' (by rw [same']) (by rw [same'])
    · intro s'' step _
      rw [same] at step
      simp only [NetCmd.step, if_pos there] at step
      cases step
  next missing =>
    have absent : (⟨table, chain, args⟩ : Rule) ∉ s.2.net.rules :=
      fun found => missing (decide_eq_true found)
    exact rest s' (by rw [same, List.erase_of_not_mem absent]) (by rw [same])

omit sound

/-! ## One call -/

def rulesFor (cidr : Str) : List Rule :=
  [ruleFor .masquerade cidr, ruleFor .source cidr, ruleFor .destination cidr]

theorem mem_rulesFor {r : Rule} {cidr : Str} : r ∈ rulesFor cidr ↔ ∃ k, r = ruleFor k cidr := by
  constructor
  · intro there
    rcases List.mem_cons.mp there with same | there
    · exact ⟨_, same⟩
    rcases List.mem_cons.mp there with same | there
    · exact ⟨_, same⟩
    exact ⟨_, List.mem_singleton.mp there⟩
  · rintro ⟨k, rfl⟩
    cases k with
    | masquerade => exact List.mem_cons_self
    | source => exact List.mem_cons_of_mem _ List.mem_cons_self
    | destination => exact List.mem_cons_of_mem _ (List.mem_cons_of_mem _ List.mem_cons_self)

def jumps : List Rule := [Jump.postrouting.rule, Jump.forward.rule]

theorem mem_jumps {r : Rule} : r ∈ jumps ↔ ∃ j : Jump, r = j.rule := by
  constructor
  · intro there
    rcases List.mem_cons.mp there with same | there
    · exact ⟨_, same⟩
    exact ⟨_, List.mem_singleton.mp there⟩
  · rintro ⟨j, rfl⟩
    cases j with
    | postrouting => exact List.mem_cons_self
    | forward => exact List.mem_cons_of_mem _ List.mem_cons_self

/-- The rules after a call. -/
def Call.rules : Call → List Rule → List Rule
  | .ensure c, rules => addAll (jumps ++ rulesFor c) rules
  | .delete c, rules => rules.diff (rulesFor c)

include sound

theorem ensure_then (cidr : Str) {s : Nat × Host} (ready : Ready s.2.net)
    {Q : Except Exn Unit → Nat × Host → Prop}
    (rest : ∀ s' : Nat × Host, s'.2.net.rules = (Call.ensure cidr).rules s.2.net.rules →
      Ready s'.2.net →
      Q (.ok ()) s') : wp (sequential (execAt x)) (Nat_.ensure cidr) Q s := by
  rw [Nat_.ensure, wp_bind]
  -- forwarding is turned on, which no rule depends on
  apply net_then (sound s.1)
  · intro _ n' s₁ step same
    cases step
    rw [onValue_ok, wp_bind]
    apply chain_exists sound
    intro s₂ rules₂ post kept₂
    rw [onValue_ok, wp_bind]
    apply chain_exists sound
    intro s₃ rules₃ fwd kept₃
    -- creating a chain keeps those that are there
    have chains : s.2.net.chains ⊆ s₃.2.net.chains := by
      intro chain there
      apply kept₃ (kept₂ _)
      rw [same]
      exact there
    rw [onValue_ok, wp_bind]
    -- the two jumps, then the three rules of the range
    apply rule_added sound (chains ready.postrouting)
    intro s₄ rules₄ chains₄
    rw [onValue_ok, wp_bind]
    apply rule_added sound (chains₄ ▸ chains ready.forward)
    intro s₅ rules₅ chains₅
    rw [onValue_ok, wp_bind]
    apply rule_added sound (by rw [chains₅, chains₄]; exact kept₃ post)
    intro s₆ rules₆ chains₆
    rw [onValue_ok, wp_bind]
    apply rule_added sound (by rw [chains₆, chains₅, chains₄]; exact fwd)
    intro s₇ rules₇ chains₇
    rw [onValue_ok]
    apply rule_added sound (by rw [chains₇, chains₆, chains₅, chains₄]; exact fwd)
    intro s₈ rules₈ chains₈
    apply rest s₈
    · rw [rules₈, rules₇, rules₆, rules₅, rules₄, rules₃, rules₂, same]
      rfl
    -- adding a rule adds no chain
    · have all : s₈.2.net.chains =
          s₃.2.net.chains := by rw [chains₈, chains₇, chains₆, chains₅, chains₄]
      constructor
      · rw [all]
        exact chains ready.postrouting
      · rw [all]
        exact chains ready.forward
  · intro s' step _
    cases step

theorem delete_then (cidr : Str) {s : Nat × Host} (ready : Ready s.2.net)
    {Q : Except Exn Unit → Nat × Host → Prop}
    (rest : ∀ s' : Nat × Host, s'.2.net.rules = (Call.delete cidr).rules s.2.net.rules →
      Ready s'.2.net →
      Q (.ok ()) s') : wp (sequential (execAt x)) (Nat_.delete cidr) Q s := by
  rw [Nat_.delete, wp_bind]
  apply rule_erased sound
  intro s₁ rules₁ chains₁
  rw [onValue_ok, wp_bind]
  apply rule_erased sound
  intro s₂ rules₂ chains₂
  rw [onValue_ok]
  apply rule_erased sound
  intro s₃ rules₃ chains₃
  apply rest s₃
  · rw [rules₃, rules₂, rules₁, Call.rules, List.diff_eq_foldl]
    rfl
  · have all : s₃.2.net.chains = s.2.net.chains := by rw [chains₃, chains₂, chains₁]
    constructor
    · rw [all]
      exact ready.postrouting
    · rw [all]
      exact ready.forward

theorem call_then (c : Call) {s : Nat × Host} (ready : Ready s.2.net)
    {Q : Except Exn Unit → Nat × Host → Prop}
    (rest : ∀ s' : Nat × Host, s'.2.net.rules = c.rules s.2.net.rules → Ready s'.2.net →
      Q (.ok ()) s') :
    wp (sequential (execAt x)) c.program Q s := by
  cases c with
  | ensure cidr => exact ensure_then sound cidr ready rest
  | delete cidr => exact delete_then sound cidr ready rest

end

/-! ## Runs of calls -/

/-- The rules at one point of a run, which began with `rules₀`. -/
structure Kept (rules₀ : List Rule) (wanted : Str → Bool) (rules : List Rule) : Prop where
  counts : ∀ k cidr, rules.count (ruleFor k cidr) = if wanted cidr then 1 else 0
  jumps : ∀ j : Jump, rules.count j.rule ≤ 1
  others : rules.filter foreign = rules₀.filter foreign

theorem ruleFor_mem_rulesFor {k : RuleKind} {cidr cidr' : Str} :
    ruleFor k cidr ∈ rulesFor cidr' ↔ cidr = cidr' := by
  rw [mem_rulesFor]
  constructor
  · rintro ⟨k', same⟩
    exact (ruleFor_inj same).2
  · rintro rfl
    exact ⟨k, rfl⟩

theorem jump_not_mem_rulesFor (j : Jump) (cidr : Str) : j.rule ∉ rulesFor cidr := by
  intro there
  obtain ⟨k, same⟩ := mem_rulesFor.mp there
  exact ruleFor_ne_jump k cidr j same.symm

namespace Kept

variable {rules₀ rules : List Rule} {wanted : Str → Bool}

theorem once (kept : Kept rules₀ wanted rules) (k : RuleKind) (cidr : Str) :
    rules.count (ruleFor k cidr) ≤ 1 := by
  rw [kept.counts]
  split <;> omega

theorem ensure (kept : Kept rules₀ wanted rules) (cidr : Str) :
    Kept rules₀ (Function.update wanted cidr true) ((Call.ensure cidr).rules rules) ∧
      ∀ j : Jump, ((Call.ensure cidr).rules rules).count j.rule = 1 := by
  -- every rule that is checked for stands at most once
  have once_ : ∀ r ∈ NatRules.jumps ++ rulesFor cidr, rules.count r ≤ 1 := by
    intro r there
    rcases List.mem_append.mp there with jump | own
    · obtain ⟨j, rfl⟩ := mem_jumps.mp jump
      exact kept.jumps j
    · obtain ⟨k, rfl⟩ := mem_rulesFor.mp own
      exact kept.once k cidr
  have jumped (j : Jump) : ((Call.ensure cidr).rules rules).count j.rule = 1 := by
    rw [Call.rules, count_addAll once_]
    exact if_pos (List.mem_append_left _ (mem_jumps.mpr ⟨j, rfl⟩))
  refine ⟨⟨fun k c => ?_, fun j => (jumped j).le, ?_⟩, jumped⟩
  · rw [Call.rules, count_addAll once_, Function.update_apply]
    -- the rules of `cidr` now stand once, those of another range as before
    by_cases same : c = cidr
    · rw [if_pos (List.mem_append_right _ (ruleFor_mem_rulesFor.mpr same)), if_pos same]
      rfl
    · rw [if_neg, if_neg same]
      · exact kept.counts k c
      · intro there
        rcases List.mem_append.mp there with jump | own
        · obtain ⟨j, alike⟩ := mem_jumps.mp jump
          exact ruleFor_ne_jump k c j alike
        · exact same (ruleFor_mem_rulesFor.mp own)
  -- none of the rules is a foreign one
  · rw [Call.rules, filter_addAll]
    · exact kept.others
    · intro r there
      rcases List.mem_append.mp there with jump | own
      · obtain ⟨j, rfl⟩ := mem_jumps.mp jump
        exact not_foreign_jump j
      · obtain ⟨k, rfl⟩ := mem_rulesFor.mp own
        exact not_foreign_ruleFor k cidr

theorem delete (kept : Kept rules₀ wanted rules) (cidr : Str) :
    Kept rules₀ (Function.update wanted cidr false) ((Call.delete cidr).rules rules) ∧
      ∀ j : Jump, ((Call.delete cidr).rules rules).count j.rule = rules.count j.rule := by
  have jumps_ (j : Jump) : ((Call.delete cidr).rules rules).count j.rule = rules.count j.rule := by
    rw [Call.rules, List.count_diff, List.count_eq_zero_of_not_mem (jump_not_mem_rulesFor j cidr),
      Nat.sub_zero]
  refine ⟨⟨fun k c => ?_, fun j => (jumps_ j).le.trans (kept.jumps j), ?_⟩, jumps_⟩
  · rw [Call.rules, List.count_diff, Function.update_apply]
    by_cases same : c = cidr
    · have one : 0 < (rulesFor cidr).count (ruleFor k c) :=
        List.count_pos_iff.mpr (ruleFor_mem_rulesFor.mpr same)
      have before := kept.once k c
      rw [if_pos same]
      simp only [Bool.false_eq_true, if_false]
      omega
    · rw [if_neg same, List.count_eq_zero_of_not_mem (mt ruleFor_mem_rulesFor.mp same),
        Nat.sub_zero]
      exact kept.counts k c
  · rw [Call.rules, filter_diff]
    · exact kept.others
    · intro r there
      obtain ⟨k, rfl⟩ := mem_rulesFor.mp there
      exact not_foreign_ruleFor k cidr

end Kept

theorem after_apply (calls : List Call) (wanted : Str → Bool) (cidr : Str) :
    calls.foldl Call.after wanted cidr = ((last calls cidr).map Call.wants).getD (wanted cidr) := by
  induction calls generalizing wanted with
  | nil => rfl
  | cons c calls ih =>
    rw [List.foldl_cons, ih, last_cons]
    cases later : last calls cidr with
    | some c' =>
      rw [Option.some_or]
      rfl
    | none =>
      rw [Option.none_or]
      by_cases same : c.cidr = cidr
      · rw [if_pos same]
        subst same
        cases c <;> exact Function.update_self ..
      · rw [if_neg same]
        cases c <;> exact Function.update_of_ne (Ne.symm same) ..

/-- Every call returns, and the rules are those of the calls so far. -/
theorem calls_keep {x : Nat → Chance} (sound : ∀ n, (x n).fails = false) {rules₀ : List Rule}
    (calls : List Call) {wanted : Str → Bool} {s : Nat × Host} (ready : Ready s.2.net)
    (kept : Kept rules₀ wanted s.2.net.rules) :
    wp (sequential (execAt x)) (forEach Call.program calls) (fun r s' => r = .ok () ∧
      Kept rules₀ (calls.foldl Call.after wanted) s'.2.net.rules ∧
      ((∃ c, .ensure c ∈ calls) ∨ (∀ j : Jump, s.2.net.rules.count j.rule = 1) →
        ∀ j : Jump, s'.2.net.rules.count j.rule = 1)) s := by
  -- the induction is on the calls; `Kept` is the invariant, with what is wanted updated by each
  induction calls generalizing wanted s with
  | nil =>
    refine ⟨rfl, kept, ?_⟩
    rintro (⟨_, none⟩ | jumped)
    · exact absurd none List.not_mem_nil
    · exact jumped
  | cons c calls ih =>
    rw [forEach, wp_dot_bind]
    apply call_then sound c ready
    intro s' rules ready'
    cases c with
    | ensure cidr =>
      obtain ⟨kept', jumped⟩ := kept.ensure cidr
      rw [← rules] at kept' jumped
      refine sequential_mono _ _ _ _ ?_ s' (ih ready' kept')
      rintro r t ⟨returned, kept'', jumps⟩
      exact ⟨returned, kept'', fun _ => jumps (.inr jumped)⟩
    | delete cidr =>
      obtain ⟨kept', still⟩ := kept.delete cidr
      rw [← rules] at kept' still
      refine sequential_mono _ _ _ _ ?_ s' (ih ready' kept')
      rintro r t ⟨returned, kept'', jumps⟩
      refine ⟨returned, kept'', fun before => jumps ?_⟩
      rcases before with ⟨cidr', there⟩ | jumped
      · rcases List.mem_cons.mp there with same | there
        · cases same
        · exact .inl ⟨cidr', there⟩
      · exact .inr fun j => (still j).trans (jumped j)

/-- Before the first call: the built-in chains, no rule in nyc's chains, and no jump twice. -/
structure Start (n : Net) : Prop extends Ready n where
  empty : ∀ r ∈ n.rules, ¬ Ours r
  jumps : ∀ j : Jump, n.rules.count j.rule ≤ 1

/-- The rules after a run of calls that began with `rules₀`. -/
structure Tidy (calls : List Call) (rules₀ rules : List Rule) : Prop where
  ensured : ∀ cidr, last calls cidr = some (.ensure cidr) → ∀ k, rules.count (ruleFor k cidr) = 1
  deleted : ∀ cidr, last calls cidr = some (.delete cidr) → ∀ k, ruleFor k cidr ∉ rules
  jumpsOnce : ∀ j : Jump, rules.count j.rule ≤ 1
  jumped : (∃ cidr, .ensure cidr ∈ calls) → ∀ j : Jump, rules.count j.rule = 1
  others : rules.filter foreign = rules₀.filter foreign

/-- However `nat.ensure` and `nat.delete` are called, with any CIDRs. -/
theorem calls_tidy (x : Nat → Chance) (sound : ∀ n, (x n).fails = false) (calls : List Call)
    (h : Host)
    (start : Start h.net) : (run (execAt x) (forEach Call.program calls) (0, h)).1 = .ok () ∧
      Tidy calls h.net.rules (run (execAt x) (forEach Call.program calls)
        (0, h)).2.2.net.rules := by
  have kept : Kept h.net.rules (fun _ => false) h.net.rules := by
    constructor
    · intro k cidr
      exact List.count_eq_zero_of_not_mem fun there => start.empty _ there (ours_ruleFor k cidr)
    · exact start.jumps
    · rfl
  have result := calls_keep sound calls (s := (0, h)) start.toReady kept
  rw [wp_sequential] at result
  obtain ⟨returned, kept', jumps⟩ := result
  refine ⟨returned, ?_⟩
  constructor
  · intro cidr ensured k
    rw [kept'.counts, after_apply, ensured]
    rfl
  · intro cidr deleted k there
    have none := kept'.counts k cidr
    rw [after_apply, deleted] at none
    exact List.count_eq_zero.mp none there
  · exact kept'.jumps
  · exact fun ensured => jumps (.inl ensured)
  · exact kept'.others

/-- On a host without rules: one CIDR twice, and another that is deleted again. -/
theorem sample_tidy :
    ∃ rules, Tidy [.ensure "10.1.0.0/16", .ensure "10.2.0.0/16", .ensure "10.1.0.0/16",
    .delete "10.2.0.0/16"] [] rules :=
  ⟨_, (calls_tidy (fun _ => ⟨false, "", fun _ => false⟩) (fun _ => rfl) _ Host.empty
    ⟨⟨by decide, by decide⟩, fun _ there => absurd there List.not_mem_nil,
      fun j => by cases j <;> decide⟩).2⟩

end Nyc.NatRules
