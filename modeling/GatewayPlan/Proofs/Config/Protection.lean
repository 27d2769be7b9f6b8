import GatewayPlan.Proofs.Config.Expansion
import GatewayPlan.Proofs.Route.Proxy

/-!
# Protection

A method is protected by the authorizer and by the keys of callers. Each is decided once for the
whole configuration, and every plan that comes of it agrees: a method hands on what the authorizer
said of a caller only if the authorizer was asked.
-/

namespace GatewayPlan

open Logged Mapping

namespace Integration

/-- The template that rewrites a body on its way to the integration. -/
def templates? (i : Integration) : Option (Keyed String) :=
  i.mappings?.bind MappingSet.templates

/-- The method of the request that is sent on. -/
def method? : Integration → Option Method
  | function _ => none
  | http h => some h.method
  | service s => some s.method

end Integration

/-- What a method plan owes to the configuration `c` and to the entry `r` that it comes from. -/
structure MethodPlan.Protected (c : Config) (r : RouteConfig) (p : MethodPlan) : Prop where
  apiKeyRequired : p.apiKeyRequired = true ↔ c.apiKeys ≠ []
  authorization : p.authorization = if c.authorizer then .custom else .none
  /-- Only behind the authorizer, on the way upstream, and where the entry asks for it. -/
  template : p.integration.templates?.isSome = true →
    p.authorization = .custom ∧ (∃ h, p.integration = .http h) ∧
      r.function = none ∧ r.bucket = none ∧ ∃ q ∈ r.parameters, q.isContext = true
  function : ∀ name, p.integration = .function name → p.integration.templates? = none
  service : ∀ s, p.integration = .service s → s.mappings.templates = none ∧
    ∀ e ∈ s.mappings.backend.entries, ∀ value, e.2 ≠ constant value
  method : ∀ m ∈ p.integration.method?, m = p.method

/-- What the plan of an API owes to its configuration, as a whole and pair by pair. -/
structure ApiPlan.Protected (c : Config) (a : ApiPlan) : Prop where
  apiKeyRequired : a.apiKeyRequired = true ↔ c.apiKeys ≠ []
  usagePlans : a.usagePlans ≠ [] ↔ c.apiKeys ≠ []
  methods : List.Forall₂ (fun pair p => p.Protected c pair.1) c.pairs a.methods

namespace Mapping

theorem value_ne_constant {ps : List Parameter} (h : Distinct ps) {e : String × String}
    (mem : e ∈ (forwarded ps).entries) (value : String) : e.2 ≠ constant value := by
  obtain ⟨p, -, rfl⟩ := List.mem_map.mp ((forwarded_perm h).mem_iff.mp mem)
  exact (constant_ne_declaredReference value p).symm

end Mapping

namespace RouteConfig

theorem destination_eq_proxy {r : RouteConfig} {parameters : List Parameter}
    (h : r.destination = .proxy parameters) :
    r.function = none ∧ r.bucket = none ∧ r.parameters = parameters := by
  unfold destination at h
  split at h
  · cases h
  · cases h
  · rename_i function bucket
    cases h
    exact ⟨function, bucket, rfl⟩

end RouteConfig

namespace Config

variable {c : Config} {key : String}

theorem apiKeyRequired_settings (key : String) :
    (c.settings key).apiKeyRequired = true ↔ c.apiKeys ≠ [] := by
  simp [settings]

theorem authorization_settings (key : String) :
    (c.settings key).authorization = if c.authorizer then .custom else .none := rfl

theorem protected_of_planned {r : RouteConfig} {m : Method} {p : MethodPlan}
    (h : Route.Planned (c.settings key) (r.route m) r.destination p) : p.Protected c r := by
  generalize destination : r.destination = target at h
  cases h with
  | function name =>
    exact {
      apiKeyRequired := apiKeyRequired_settings key
      authorization := authorization_settings key
      template := nofun
      function := fun _ _ => rfl
      service := nofun
      method := nofun }
  | @proxy parameters own captured free covered =>
    refine {
      apiKeyRequired := apiKeyRequired_settings key
      authorization := authorization_settings key
      template := fun templated => ?_
      function := nofun
      service := nofun
      method := by simp [Route.proxyPlan, Route.planned, Integration.method?] }
    have authorizer : c.authorizer = true := covered templated
    obtain ⟨function, bucket, same⟩ := RouteConfig.destination_eq_proxy destination
    refine ⟨?_, ⟨_, rfl⟩, function, bucket, ?_⟩
    · exact (authorization_settings key).trans (if_pos authorizer)
    · rw [same]
      have fromPath := Template.kind_of_pathParameters captured
      exact (templates_merged_isSome_iff parameters fromPath).mp templated
  | @bucket name objectKey role captured fromPath used free =>
    have none := templates_eq_none_of_path (Template.kind_of_pathParameters fromPath)
    refine {
      apiKeyRequired := apiKeyRequired_settings key
      authorization := authorization_settings key
      template := fun templated => ?_
      function := fun _ ends => by cases ends
      service := ?_
      method := by simp [Route.bucketPlan, Route.planned, Integration.method?] }
    · change (templates captured).isSome = true at templated
      simp [none] at templated
    · rintro s ⟨⟩
      obtain ⟨distinct, -⟩ := (clash?_eq_none_iff captured .none).mp free
      exact ⟨none, fun e mem => value_ne_constant distinct mem⟩

/-- Routes that were planned to the end have a plan for each pair, each planned as its entry says.
-/
theorem planned_of_planRoutes {plans : List MethodPlan}
    (h : (c.planRoutes key).result = .ok plans) :
    List.Forall₂ (fun pair p => Route.Planned (c.settings key) (pair.1.route pair.2)
      pair.1.destination p) c.pairs plans :=
  ((planRoutes_result_eq_ok_iff c key).mp h).2.imp fun _ _ ends => planned_of_planPair c key ends

end Config

namespace UsagePlan

theorem eq_of_ofKeysAfter {stage : String} {seen : List String} {keys : List ApiKey}
    {plans : List UsagePlan} (h : ofKeysAfter stage seen keys = .ok plans) :
    plans = keys.map (ofKey stage) := by
  induction keys generalizing seen plans with
  | nil =>
    cases h
    rfl
  | cons key rest ih =>
    rw [ofKeysAfter] at h
    split at h
    · cases h
    · split at h
      · cases h
      · obtain ⟨plans', later, h⟩ := Except.bind_eq_ok_iff.mp h
        cases h
        rw [ih later, List.map_cons]

end UsagePlan

theorem ApiPlan.eq_of_ofMethods {name stage : String} {origin : Option String}
    {keys : List ApiKey} {methods : List MethodPlan} {a : ApiPlan}
    (h : ofMethods name stage origin keys methods = .ok a) :
    a.apiKeyRequired = !keys.isEmpty ∧ a.usagePlans = keys.map (UsagePlan.ofKey stage) ∧
      a.methods = methods := by
  unfold ofMethods at h
  split at h
  · cases h
  · obtain ⟨usagePlans, plans, h⟩ := Except.bind_eq_ok_iff.mp h
    cases h
    exact ⟨rfl, UsagePlan.eq_of_ofKeysAfter plans, rfl⟩

namespace Config

/-- In the plan of an API all that protects its methods agrees with the configuration and with
each other, and what the authorizer said of a caller is handed on only behind the authorizer. -/
theorem plan_protected {c : Config} {key : String} {a : ApiPlan}
    (h : (c.plan key).result = .ok a) : a.Protected c := by
  obtain ⟨plans, planned, assembled⟩ := bind_result_eq_ok.mp h
  obtain ⟨apiKeyRequired, usagePlans, methods⟩ := ApiPlan.eq_of_ofMethods assembled
  refine ⟨?_, ?_, ?_⟩
  · simp [apiKeyRequired]
  · simp [usagePlans]
  · rw [methods]
    exact (planned_of_planRoutes planned).imp fun _ _ each => protected_of_planned each

theorem plan_protected_of_targets :
    let c : Config := {
      name := "orders", stage := "prod", proxyRoot := "/api"
      upstream := ⟨⟨"https", some ⟨"", none, .domain "x.example.com", none⟩, .segments [""], none,
        none⟩, "X-API-Key"⟩
      authorizer := true, corsAllowOrigin := none, apiKeys := [⟨"web", none⟩]
      routes := [⟨"/orders/\x7bid\x7d", [.get, .put], none, none, [.username]⟩,
        ⟨"/health", [.get], some "health", none, []⟩,
        ⟨"/files/\x7bkey\x7d", [.get], none, some ⟨"b", "/\x7bkey\x7d", "r"⟩, []⟩] }
    ∃ a, (c.plan "k").result = .ok a ∧
      (a.methods.map fun p => p.integration.templates?.isSome) = [true, true, false, false] ∧
      a.Protected c := by
  intro c
  have ends : ((c.plan "k").result.map fun a =>
      a.methods.map fun p => p.integration.templates?.isSome) =
        .ok [true, true, false, false] := by decide +kernel
  cases planned : (c.plan "k").result with
  | error e =>
    rw [planned] at ends
    cases ends
  | ok a =>
    rw [planned] at ends
    exact ⟨a, rfl, Except.ok.inj ends, plan_protected planned⟩

end Config

end GatewayPlan
