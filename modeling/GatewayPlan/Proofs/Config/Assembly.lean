import GatewayPlan.Proofs.Config.Protection

/-!
# The assembly of an API plan

An API plan is put together from methods that were planned before. The origin is looked at next and
then the keys of callers, one by one, so the order of these steps is the order of failures. A plan
that comes out has one usage plan for each key and answers browsers from the origin alone.
-/

namespace GatewayPlan

open Logged

namespace ApiKey

/-- What is wrong with a key that comes after keys with the given names. -/
def fault? (earlier : List String) (k : ApiKey) : Option ConfigFault :=
  if Text.isBlank k.name then some .blankKeyName
  else if k.name ∈ earlier then some (.repeatedKeyName k.name)
  else none

theorem fault?_eq_none_iff (earlier : List String) (k : ApiKey) :
    k.fault? earlier = none ↔ Text.isBlank k.name = false ∧ k.name ∉ earlier := by
  unfold fault?
  split <;> simp_all

/-- Keys that can be told apart by their names, also from the names before them. -/
structure Admissible (earlier : List String) (keys : List ApiKey) : Prop where
  named : ∀ k ∈ keys, Text.isBlank k.name = false
  distinct : (keys.map name).Nodup
  fresh : ∀ k ∈ keys, k.name ∉ earlier

theorem admissible_nil (earlier : List String) : Admissible earlier [] :=
  ⟨nofun, .nil, nofun⟩

theorem admissible_nil_iff (keys : List ApiKey) : Admissible [] keys ↔
    (∀ k ∈ keys, Text.isBlank k.name = false) ∧ (keys.map name).Nodup :=
  ⟨fun h => ⟨h.named, h.distinct⟩, fun h => ⟨h.1, h.2, fun _ _ => List.not_mem_nil⟩⟩

theorem admissible_cons_iff (earlier : List String) (k : ApiKey) (rest : List ApiKey) :
    Admissible earlier (k :: rest) ↔
      k.fault? earlier = none ∧ Admissible (k.name :: earlier) rest := by
  rw [fault?_eq_none_iff]
  constructor
  · rintro ⟨named, distinct, fresh⟩
    obtain ⟨apart, distinct⟩ := List.nodup_cons.mp distinct
    refine ⟨⟨named k List.mem_cons_self, fresh k List.mem_cons_self⟩, ?_, distinct, ?_⟩
    · exact fun q hq => named q (List.mem_cons_of_mem k hq)
    · intro q hq mem
      rcases List.mem_cons.mp mem with same | before
      · exact apart (same ▸ List.mem_map_of_mem hq)
      · exact fresh q (List.mem_cons_of_mem k hq) before
  · rintro ⟨⟨blank, new⟩, named, distinct, fresh⟩
    refine ⟨List.forall_mem_cons.mpr ⟨blank, named⟩, ?_, ?_⟩
    · refine List.nodup_cons.mpr ⟨fun mem => ?_, distinct⟩
      obtain ⟨q, hq, same⟩ := List.mem_map.mp mem
      exact fresh q hq (same ▸ List.mem_cons_self)
    · refine List.forall_mem_cons.mpr ⟨new, fun q hq mem => ?_⟩
      exact fresh q hq (List.mem_cons_of_mem k.name mem)

end ApiKey

namespace UsagePlan

theorem ofKeysAfter_cons (stage : String) (earlier : List String) (k : ApiKey)
    (rest : List ApiKey) : ofKeysAfter stage earlier (k :: rest) = match k.fault? earlier with
      | some fault => .error (.config fault)
      | none => (ofKeysAfter stage (k.name :: earlier) rest).map (ofKey stage k :: ·) := by
  rw [ofKeysAfter, ApiKey.fault?]
  split
  · rfl
  · split
    · rfl
    · cases ofKeysAfter stage (k.name :: earlier) rest <;> rfl

theorem ofKeysAfter_of_admissible (stage : String) {earlier : List String} {keys : List ApiKey}
    (h : ApiKey.Admissible earlier keys) :
    ofKeysAfter stage earlier keys = .ok (keys.map (ofKey stage)) := by
  induction keys generalizing earlier with
  | nil => rfl
  | cons k rest ih =>
    obtain ⟨sound, later⟩ := (ApiKey.admissible_cons_iff earlier k rest).mp h
    rw [ofKeysAfter_cons, sound, ih later]
    rfl

/-- The first key with a fault ends the list, whatever keys come behind it. -/
theorem ofKeysAfter_of_fault (stage : String) {earlier : List String} {before : List ApiKey}
    {k : ApiKey} (after : List ApiKey) {fault : ConfigFault}
    (sound : ApiKey.Admissible earlier before)
    (h : k.fault? (before.map ApiKey.name ++ earlier) = some fault) :
    ofKeysAfter stage earlier (before ++ k :: after) = .error (.config fault) := by
  induction before generalizing earlier with
  | nil =>
    rw [List.map_nil, List.nil_append] at h
    rw [List.nil_append, ofKeysAfter_cons, h]
  | cons q rest ih =>
    obtain ⟨first, later⟩ := (ApiKey.admissible_cons_iff earlier q rest).mp sound
    have moved_before : k.fault? (rest.map ApiKey.name ++ q.name :: earlier) = some fault := by
      rw [← h]
      simp only [ApiKey.fault?, List.map_cons, List.mem_append, List.mem_cons, or_left_comm,
        or_assoc]
    rw [List.cons_append, ofKeysAfter_cons, first, ih later moved_before]
    rfl

theorem admissible_of_ofKeysAfter {stage : String} {earlier : List String} {keys : List ApiKey}
    {plans : List UsagePlan} (h : ofKeysAfter stage earlier keys = .ok plans) :
    ApiKey.Admissible earlier keys := by
  induction keys generalizing earlier plans with
  | nil => exact ApiKey.admissible_nil earlier
  | cons k rest ih =>
    rw [ofKeysAfter_cons] at h
    cases fault : k.fault? earlier with
    | some f =>
      rw [fault] at h
      cases h
    | none =>
      rw [fault] at h
      cases later : ofKeysAfter stage (k.name :: earlier) rest with
      | error e =>
        rw [later] at h
        cases h
      | ok plans' => exact (ApiKey.admissible_cons_iff earlier k rest).mpr ⟨fault, ih later⟩

end UsagePlan

namespace ApiPlan

/-- The plan of an API whose origin and keys are in order. -/
def assembled (name stage : String) (origin : Option String) (keys : List ApiKey)
    (methods : List MethodPlan) : ApiPlan where
  name := name
  stage := stage
  apiKeyRequired := !keys.isEmpty
  corsPreflight := origin.map .ofOrigin
  gatewayResponses := (origin.map GatewayResponse.ofOrigin).getD []
  usagePlans := keys.map (UsagePlan.ofKey stage)
  methods := methods

variable {name stage : String} {origin : Option String} {keys : List ApiKey}
  {methods : List MethodPlan} {a : ApiPlan}

theorem ofMethods_of_blank {o : String} (given : o ∈ origin) (blank : Text.isBlank o = true) :
    ofMethods name stage origin keys methods = .error (.config .blankOrigin) := by
  rw [Option.mem_def] at given
  rw [ofMethods, given, Option.any_some, blank, if_pos rfl]

theorem ofMethods_of_named (named : ∀ o ∈ origin, Text.isBlank o = false) :
    ofMethods name stage origin keys methods = (UsagePlan.ofKeys keys stage).map fun plans =>
      { assembled name stage origin keys methods with usagePlans := plans } := by
  have filled : origin.any Text.isBlank = false := by
    cases origin with
    | none => rfl
    | some o => exact named o rfl
  rw [ofMethods, filled]
  cases UsagePlan.ofKeys keys stage <;> rfl

/-- The first key with a fault is reported, the keys before it being in order. -/
theorem ofMethods_of_fault {before after : List ApiKey} {k : ApiKey} {fault : ConfigFault}
    (filled : ∀ o ∈ origin, Text.isBlank o = false)
    (named : ∀ q ∈ before, Text.isBlank q.name = false) (distinct : (before.map ApiKey.name).Nodup)
    (h : k.fault? (before.map ApiKey.name) = some fault) :
    ofMethods name stage origin (before ++ k :: after) methods = .error (.config fault) := by
  have sound := (ApiKey.admissible_nil_iff before).mpr ⟨named, distinct⟩
  have refused := UsagePlan.ofKeysAfter_of_fault stage after sound (by rwa [List.append_nil])
  rw [ofMethods_of_named filled, UsagePlan.ofKeys, refused]
  rfl

theorem ofMethods_eq_ok_iff : ofMethods name stage origin keys methods = .ok a ↔
    (∀ o ∈ origin, Text.isBlank o = false) ∧ ApiKey.Admissible [] keys ∧
      a = assembled name stage origin keys methods := by
  constructor
  · intro h
    have named : ∀ o ∈ origin, Text.isBlank o = false := by
      intro o given
      by_contra blank
      rw [ofMethods_of_blank given (eq_true_of_ne_false blank)] at h
      cases h
    rw [ofMethods_of_named named] at h
    cases plans : UsagePlan.ofKeys keys stage with
    | error e =>
      rw [plans] at h
      cases h
    | ok list =>
      have admissible := UsagePlan.admissible_of_ofKeysAfter plans
      rw [UsagePlan.ofKeys, UsagePlan.ofKeysAfter_of_admissible stage admissible] at h
      exact ⟨named, admissible, (Except.ok.inj h).symm⟩
  · rintro ⟨named, admissible, rfl⟩
    rw [ofMethods_of_named named, UsagePlan.ofKeys,
      UsagePlan.ofKeysAfter_of_admissible stage admissible]
    rfl

/-- What the plan of an API takes from its configuration, and the methods it was made of. -/
structure MadeOf (c : Config) (methods : List MethodPlan) (a : ApiPlan) : Prop where
  methods : a.methods = methods
  name : a.name = c.name
  stage : a.stage = c.stage
  usagePlans : List.Forall₂ (fun (k : ApiKey) (u : UsagePlan) => u.name = k.name ∧
    u.apiKeyName = k.name ∧ u.stage = a.stage ∧ u.throttle = k.throttle.getD .standard)
    c.apiKeys a.usagePlans
  noOrigin : c.corsAllowOrigin = none → a.corsPreflight = none ∧ a.gatewayResponses = []
  origin : ∀ o, c.corsAllowOrigin = some o →
    (∃ preflight, a.corsPreflight = some preflight ∧ preflight.allowOrigins = [o]) ∧
      a.gatewayResponses.map GatewayResponse.errors = [.client, .server] ∧
      ∀ r ∈ a.gatewayResponses,
        r.headers.get? "Access-Control-Allow-Origin" = some (Mapping.constant o)

end ApiPlan

theorem GatewayResponse.get?_corsHeaders (origin : String) :
    (corsHeaders origin).get? "Access-Control-Allow-Origin" = some (Mapping.constant origin) := by
  simp [corsHeaders, Keyed.ofList]

theorem ApiPlan.assembled_madeOf (c : Config) (methods : List MethodPlan) :
    (assembled c.name c.stage c.corsAllowOrigin c.apiKeys methods).MadeOf c methods where
  methods := rfl
  name := rfl
  stage := rfl
  usagePlans := by
    rw [assembled, List.forall₂_map_right_iff]
    exact List.forall₂_same.mpr fun _ _ => ⟨rfl, rfl, rfl, rfl⟩
  noOrigin none := by simp [assembled, none]
  origin o given := by
    simp only [assembled, given, Option.map_some, Option.getD_some]
    refine ⟨⟨_, rfl, rfl⟩, rfl, ?_⟩
    intro r mem
    rcases List.mem_pair.mp mem with rfl | rfl <;> exact GatewayResponse.get?_corsHeaders o

namespace Config

variable (c : Config) (key : String)

theorem plan_of_error {e : Error} (h : (c.planRoutes key).result = .error e) :
    c.plan key = ⟨(c.planRoutes key).log, .error e⟩ := by
  rw [plan, bind_error h]

theorem plan_of_methods {methods : List MethodPlan} (h : (c.planRoutes key).result = .ok methods) :
    c.plan key = ⟨(c.planRoutes key).log,
      ApiPlan.ofMethods c.name c.stage c.corsAllowOrigin c.apiKeys methods⟩ := by
  rw [plan, bind_ok h]
  exact Logged.ext (List.append_nil _) rfl

theorem plan_result_eq_ok_iff {a : ApiPlan} : (c.plan key).result = .ok a ↔
    ∃ methods, (c.planRoutes key).result = .ok methods ∧
      (∀ o ∈ c.corsAllowOrigin, Text.isBlank o = false) ∧ ApiKey.Admissible [] c.apiKeys ∧
      a = .assembled c.name c.stage c.corsAllowOrigin c.apiKeys methods := by
  simp only [plan, bind_result_eq_ok, quiet, ApiPlan.ofMethods_eq_ok_iff]

theorem plan_succeeds_iff : (c.plan key).Succeeds ↔ (c.planRoutes key).Succeeds ∧
    (∀ o ∈ c.corsAllowOrigin, Text.isBlank o = false) ∧
    (∀ k ∈ c.apiKeys, Text.isBlank k.name = false) ∧ (c.apiKeys.map ApiKey.name).Nodup := by
  rw [← ApiKey.admissible_nil_iff]
  constructor
  · rintro ⟨a, h⟩
    obtain ⟨methods, planned, named, admissible, -⟩ := (plan_result_eq_ok_iff c key).mp h
    exact ⟨⟨methods, planned⟩, named, admissible⟩
  · rintro ⟨⟨methods, planned⟩, named, admissible⟩
    exact ⟨_, (plan_result_eq_ok_iff c key).mpr ⟨methods, planned, named, admissible, rfl⟩⟩

theorem plan_log : (c.plan key).log = (c.planRoutes key).log := by
  cases ends : (c.planRoutes key).result with
  | error e => rw [plan_of_error c key ends]
  | ok methods => rw [plan_of_methods c key ends]

/-- Planning an API succeeds if its routes can be planned, its origin is not blank, and the names
of its keys are neither blank nor repeated. Of several failures the one that stands first in this
order is reported, among keys that of the first key, and a blank name before a repeated one. The
plan holds the methods as they were planned, and what the configuration says of the whole API. -/
theorem plan_assembly :
    (c.plan key).log = (c.planRoutes key).log ∧
    ((c.plan key).Succeeds ↔ (c.planRoutes key).Succeeds ∧
      (∀ o ∈ c.corsAllowOrigin, Text.isBlank o = false) ∧
      (∀ k ∈ c.apiKeys, Text.isBlank k.name = false) ∧ (c.apiKeys.map ApiKey.name).Nodup) ∧
    (∀ e, (c.planRoutes key).result = .error e → (c.plan key).result = .error e) ∧
    ∀ methods, (c.planRoutes key).result = .ok methods →
      (∀ o ∈ c.corsAllowOrigin, Text.isBlank o = true →
        (c.plan key).result = .error (.config .blankOrigin)) ∧
      ((∀ o ∈ c.corsAllowOrigin, Text.isBlank o = false) →
        ∀ before k after, c.apiKeys = before ++ k :: after →
          (∀ q ∈ before, Text.isBlank q.name = false) → (before.map ApiKey.name).Nodup →
          (Text.isBlank k.name = true →
            (c.plan key).result = .error (.config .blankKeyName)) ∧
          (Text.isBlank k.name = false → k.name ∈ before.map ApiKey.name →
            (c.plan key).result = .error (.config (.repeatedKeyName k.name)))) ∧
      ∀ a, (c.plan key).result = .ok a → a.MadeOf c methods := by
  refine ⟨plan_log c key, plan_succeeds_iff c key, ?_, ?_⟩
  · intro e failed
    rw [plan_of_error c key failed]
  · intro methods planned
    rw [plan_of_methods c key planned]
    refine ⟨?_, ?_, ?_⟩
    · intro o given blank
      exact ApiPlan.ofMethods_of_blank given blank
    · intro filled before k after keys named distinct
      rw [keys]
      constructor
      · intro blank
        have faulty : k.fault? (before.map ApiKey.name) = some .blankKeyName := by
          rw [ApiKey.fault?, if_pos blank]
        exact ApiPlan.ofMethods_of_fault filled named distinct faulty
      · intro filledName repeated
        have faulty : k.fault? (before.map ApiKey.name) = some (.repeatedKeyName k.name) := by
          rw [ApiKey.fault?, if_neg (Bool.eq_false_iff.mp filledName), if_pos repeated]
        exact ApiPlan.ofMethods_of_fault filled named distinct faulty
    · intro a h
      obtain ⟨-, -, rfl⟩ := ApiPlan.ofMethods_eq_ok_iff.mp h
      exact ApiPlan.assembled_madeOf c methods

end Config

end GatewayPlan
