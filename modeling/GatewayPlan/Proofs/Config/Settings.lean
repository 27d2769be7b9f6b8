import GatewayPlan.Proofs.Config.Assembly

/-!
# The part of each setting

Whether a route can be planned hangs on the literal header, and on the authorizer being there. All
else that the settings say stands in four places of a plan, and the rest of the plan does not
change with it. So a configuration that was planned is planned again after one of its settings was
changed, and the plans differ in what that setting is for.
-/

namespace GatewayPlan

open Logged Mapping

namespace Integration

def withUri (uri : String) : Integration → Integration
  | function name => .function name
  | http h => .http { h with uri }
  | service s => .service s

end Integration

namespace MethodPlan

/-- The plan with another resource path if it proxies. Other routes keep the path they have. -/
def mounted (path : String) (p : MethodPlan) : MethodPlan :=
  match p.integration with
  | .http _ => { p with resourcePath := path }
  | _ => p

/-- The plan with another place upstream if it proxies. -/
def withUri (uri : String) (p : MethodPlan) : MethodPlan :=
  { p with integration := p.integration.withUri uri }

/-- The plan of a route at `path` with all that comes from settings taken from `s`. -/
def under (s : Settings) (path : String) (p : MethodPlan) : MethodPlan :=
  { (p.mounted (Template.join s.proxyRoot path)).withUri (s.uri path) with
    authorization := s.authorization, apiKeyRequired := s.apiKeyRequired }

end MethodPlan

namespace Route

variable {s s' : Settings} {r : Route} {target : Target} {p : MethodPlan}

/-- A plan needs no more of other settings than the same literal header, and an authorizer if it
had one. -/
theorem Planned.under (h : Planned s r target p) (literal : s'.literal = s.literal)
    (authorizer : s.authorizer = true → s'.authorizer = true) :
    Planned s' r target (p.under s' r.path) := by
  cases h with
  | function name => exact .function name
  | @proxy parameters own captured free covered =>
    have moved := Planned.proxy (s := s') captured (literal ▸ free)
      fun templated => authorizer (covered templated)
    rw [proxyPlan, literal] at moved
    exact moved
  | bucket captured used free => exact .bucket captured used free

theorem Planned.under_proxyRoot (h : Planned s r target p) (root : String) :
    p.under { s with proxyRoot := root } r.path = p.mounted (Template.join root r.path) := by
  cases h <;> rfl

theorem Planned.under_upstream (h : Planned s r target p) (url : Url) :
    p.under { s with upstream := url } r.path =
      p.withUri (Template.trimSlashes url.text ++ r.path) := by
  cases h <;> rfl

theorem Planned.under_authorizer (h : Planned s r target p) :
    p.under { s with authorizer := true } r.path = { p with authorization := .custom } := by
  cases h <;> rfl

theorem Planned.under_apiKeyRequired (h : Planned s r target p) (required : Bool) :
    p.under { s with apiKeyRequired := required } r.path =
      { p with apiKeyRequired := required } := by
  cases h <;> rfl

theorem Planned.under_self (h : Planned s r target p) : p.under s r.path = p := by
  cases h <;> rfl

end Route

namespace Config

variable {c c' : Config} {key : String} {a : ApiPlan}

theorem forall₂_zipWith {α β γ : Type} {R : α → β → Prop} {S : α → γ → Prop} {f : α → β → γ}
    {xs : List α} {ys : List β} (h : List.Forall₂ R xs ys) (each : ∀ x y, R x y → S x (f x y)) :
    List.Forall₂ S xs (xs.zipWith f ys) := by
  induction h with
  | nil => exact .nil
  | cons head _ ih => exact .cons (each _ _ head) ih

theorem zipWith_of_length_eq {α β γ : Type} (f : β → γ) {xs : List α} {ys : List β}
    (h : xs.length = ys.length) : xs.zipWith (fun _ y => f y) ys = ys.map f := by
  have second := List.map_snd_zip (Nat.le_of_eq h.symm)
  calc xs.zipWith (fun _ y => f y) ys
      = (xs.zip ys).map (f ∘ Prod.snd) := List.map_uncurry_zip_eq_zipWith.symm
    _ = ys.map f := by rw [← List.map_map, second]

/-- Two configurations with the same routes and the same header for the key of the upstream, of
which the second has an authorizer if the first has one. -/
structure Reset (c c' : Config) : Prop where
  routes : c'.routes = c.routes
  header : c'.upstream.apiKeyHeader = c.upstream.apiKeyHeader
  authorizer : c.authorizer = true → c'.authorizer = true

theorem Reset.literal (h : c.Reset c') (key : String) :
    (c'.settings key).literal = (c.settings key).literal := by
  rw [settings, settings, h.header]

theorem Reset.pairs (h : c.Reset c') : c'.pairs = c.pairs := by
  rw [Config.pairs, Config.pairs, h.routes]

theorem Reset.planPair (h : c.Reset c') {pair : RouteConfig × Method} {p : MethodPlan}
    (planned : (c.planPair key pair).result = .ok p) : (c'.planPair key pair).result =
      .ok (p.under (c'.settings key) pair.1.path) := by
  obtain ⟨rooted, planned⟩ := Route.plan_result_eq_ok_iff.mp planned
  exact Route.plan_of_planned rooted (planned.under (h.literal key) h.authorizer)

/-- What the settings leave alone in a method plan, `edit` leaves alone too. -/
theorem Reset.plan (h : c.Reset c') (edit : String → MethodPlan → MethodPlan)
    (origin : ∀ o ∈ c'.corsAllowOrigin, Text.isBlank o = false)
    (keys : ApiKey.Admissible [] c'.apiKeys)
    (each : ∀ {r : Route} {target : Target} {p : MethodPlan},
      Route.Planned (c.settings key) r target p → p.under (c'.settings key) r.path = edit r.path p)
    (planned : (c.plan key).result = .ok a) : (c'.plan key).result =
      .ok (.assembled c'.name c'.stage c'.corsAllowOrigin c'.apiKeys
        (c.pairs.zipWith (fun pair p => edit pair.1.path p) a.methods)) := by
  obtain ⟨methods, routes, -, -, made⟩ := (plan_result_eq_ok_iff c key).mp planned
  have same : a.methods = methods := by rw [made, ApiPlan.assembled]
  obtain ⟨expandable, pairs⟩ := (planRoutes_result_eq_ok_iff c key).mp routes
  refine (plan_result_eq_ok_iff c' key).mpr ⟨_, ?_, origin, keys, rfl⟩
  have expandable' : ∀ r ∈ c'.routes, r.fault? = none := by
    rw [h.routes]
    exact expandable
  refine (planRoutes_result_eq_ok_iff c' key).mpr ⟨expandable', ?_⟩
  rw [h.pairs, same]
  refine forall₂_zipWith pairs fun pair p ends => ?_
  have edited := each (planned_of_planPair c key ends)
  rw [h.planPair ends]
  exact congrArg Except.ok edited

theorem length_methods (h : (c.plan key).result = .ok a) : c.pairs.length = a.methods.length := by
  obtain ⟨methods, routes, -, -, rfl⟩ := (plan_result_eq_ok_iff c key).mp h
  exact ((planRoutes_result_eq_ok_iff c key).mp routes).2.length_eq

theorem plan_with_proxyRoot (h : (c.plan key).result = .ok a) (root : String) :
    ({ c with proxyRoot := root }.plan key).result = .ok { a with
      methods := c.pairs.zipWith
        (fun pair p => p.mounted (Template.join root pair.1.path)) a.methods } := by
  obtain ⟨methods, -, named, admissible, made⟩ := (plan_result_eq_ok_iff c key).mp h
  have reset : c.Reset { c with proxyRoot := root } := ⟨rfl, rfl, id⟩
  rw [reset.plan (fun path p => p.mounted (Template.join root path)) named admissible
    (fun planned => planned.under_proxyRoot root) h, made]
  rfl

theorem plan_with_baseUrl (h : (c.plan key).result = .ok a) (url : Url) :
    ({ c with upstream := { c.upstream with baseUrl := url } }.plan key).result = .ok { a with
      methods := c.pairs.zipWith
        (fun pair p => p.withUri (Template.trimSlashes url.text ++ pair.1.path)) a.methods } := by
  obtain ⟨methods, -, named, admissible, made⟩ := (plan_result_eq_ok_iff c key).mp h
  have reset : c.Reset { c with upstream := { c.upstream with baseUrl := url } } := ⟨rfl, rfl, id⟩
  rw [reset.plan (fun path p => p.withUri (Template.trimSlashes url.text ++ path)) named
    admissible (fun planned => planned.under_upstream url) h, made]
  rfl

/-- An authorizer that comes in takes no plan away: only a route that was refused asked for one. -/
theorem plan_with_authorizer (h : (c.plan key).result = .ok a) :
    ({ c with authorizer := true }.plan key).result = .ok { a with
      methods := a.methods.map fun p => { p with authorization := .custom } } := by
  obtain ⟨methods, -, named, admissible, made⟩ := (plan_result_eq_ok_iff c key).mp h
  have reset : c.Reset { c with authorizer := true } := ⟨rfl, rfl, fun _ => rfl⟩
  rw [reset.plan (fun _ p => { p with authorization := .custom }) named admissible
    (fun planned => planned.under_authorizer) h, zipWith_of_length_eq _ (length_methods h), made]
  rfl

theorem plan_with_stage (h : (c.plan key).result = .ok a) (stage : String) :
    ({ c with stage }.plan key).result = .ok { a with
      stage, usagePlans := a.usagePlans.map fun u => { u with stage } } := by
  obtain ⟨methods, -, named, admissible, made⟩ := (plan_result_eq_ok_iff c key).mp h
  have reset : c.Reset { c with stage } := ⟨rfl, rfl, id⟩
  rw [reset.plan (fun _ p => p) named admissible (fun planned => planned.under_self) h,
    zipWith_of_length_eq _ (length_methods h), made]
  simp [ApiPlan.assembled, UsagePlan.ofKey]

theorem plan_with_origin (h : (c.plan key).result = .ok a) {origin : Option String}
    (filled : ∀ o ∈ origin, Text.isBlank o = false) :
    ({ c with corsAllowOrigin := origin }.plan key).result = .ok { a with
      corsPreflight := origin.map .ofOrigin
      gatewayResponses := (origin.map GatewayResponse.ofOrigin).getD [] } := by
  obtain ⟨methods, -, named, admissible, made⟩ := (plan_result_eq_ok_iff c key).mp h
  have reset : c.Reset { c with corsAllowOrigin := origin } := ⟨rfl, rfl, id⟩
  rw [reset.plan (fun _ p => p) filled admissible (fun planned => planned.under_self) h,
    zipWith_of_length_eq _ (length_methods h), made]
  simp [ApiPlan.assembled]

theorem plan_with_apiKeys (h : (c.plan key).result = .ok a) {keys : List ApiKey}
    (sound : ApiKey.Admissible [] keys) :
    ({ c with apiKeys := keys }.plan key).result = .ok { a with
      apiKeyRequired := !keys.isEmpty
      usagePlans := keys.map (UsagePlan.ofKey c.stage)
      methods := a.methods.map fun p => { p with apiKeyRequired := !keys.isEmpty } } := by
  obtain ⟨methods, -, named, admissible, made⟩ := (plan_result_eq_ok_iff c key).mp h
  have reset : c.Reset { c with apiKeys := keys } := ⟨rfl, rfl, id⟩
  rw [reset.plan (fun _ p => { p with apiKeyRequired := !keys.isEmpty }) named sound
    (fun planned => planned.under_apiKeyRequired _) h, zipWith_of_length_eq _ (length_methods h),
    made]
  rfl

/-- One setting changed and the rest as it was: planning succeeds again, and the new plan differs
only where the setting has its place. -/
theorem plan_of_changed_setting (h : (c.plan key).result = .ok a) :
    (∀ root, ({ c with proxyRoot := root }.plan key).result = .ok { a with
      methods := c.pairs.zipWith
        (fun pair p => p.mounted (Template.join root pair.1.path)) a.methods }) ∧
    (∀ url, ({ c with upstream := { c.upstream with baseUrl := url } }.plan key).result =
      .ok { a with
        methods := c.pairs.zipWith
          (fun pair p => p.withUri (Template.trimSlashes url.text ++ pair.1.path)) a.methods }) ∧
    ({ c with authorizer := true }.plan key).result = .ok { a with
      methods := a.methods.map fun p => { p with authorization := .custom } } ∧
    (∀ stage, ({ c with stage }.plan key).result = .ok { a with
      stage, usagePlans := a.usagePlans.map fun u => { u with stage } }) ∧
    (∀ origin, (∀ o ∈ origin, Text.isBlank o = false) →
      ({ c with corsAllowOrigin := origin }.plan key).result = .ok { a with
        corsPreflight := origin.map .ofOrigin
        gatewayResponses := (origin.map GatewayResponse.ofOrigin).getD [] }) ∧
    ∀ keys : List ApiKey, (∀ k ∈ keys, Text.isBlank k.name = false) →
      (keys.map ApiKey.name).Nodup →
      ({ c with apiKeys := keys }.plan key).result = .ok { a with
        apiKeyRequired := !keys.isEmpty
        usagePlans := keys.map (UsagePlan.ofKey c.stage)
        methods := a.methods.map fun p => { p with apiKeyRequired := !keys.isEmpty } } := by
  refine ⟨plan_with_proxyRoot h, plan_with_baseUrl h, plan_with_authorizer h, plan_with_stage h,
    ?_, ?_⟩
  · intro origin filled
    exact plan_with_origin h filled
  · intro keys named distinct
    exact plan_with_apiKeys h ((ApiKey.admissible_nil_iff keys).mpr ⟨named, distinct⟩)

theorem plan_of_changed_setting_mounted :
    let c : Config := {
      name := "orders", stage := "prod", proxyRoot := "/api"
      upstream := ⟨⟨"https", some ⟨"", none, .domain "x.example.com", none⟩, .segments [""], none,
        none⟩, "X-API-Key"⟩
      authorizer := false, corsAllowOrigin := none, apiKeys := []
      routes := [⟨"/orders/\x7bid\x7d", [.get, .put], none, none, []⟩,
        ⟨"/health", [.get], some "health", none, []⟩] }
    ∃ a, (c.plan "k").result = .ok a ∧
      (a.methods.map MethodPlan.resourcePath) =
        ["/api/orders/\x7bid\x7d", "/api/orders/\x7bid\x7d", "/health"] ∧
      ({ c with proxyRoot := "v2/" }.plan "k").result = .ok { a with
        methods := c.pairs.zipWith
          (fun pair p => p.mounted (Template.join "v2/" pair.1.path)) a.methods } ∧
      ({ c with apiKeys := [⟨"web", none⟩] }.plan "k").result = .ok { a with
        apiKeyRequired := true
        usagePlans := [⟨"web", "web", "prod", .standard⟩]
        methods := a.methods.map fun p => { p with apiKeyRequired := true } } := by
  intro c
  have ends : ((c.plan "k").result.map fun a => a.methods.map MethodPlan.resourcePath) =
      .ok ["/api/orders/\x7bid\x7d", "/api/orders/\x7bid\x7d", "/health"] := by decide +kernel
  cases planned : (c.plan "k").result with
  | error e =>
    rw [planned] at ends
    cases ends
  | ok a =>
    rw [planned] at ends
    obtain ⟨root, -, -, -, -, keys⟩ := plan_of_changed_setting planned
    refine ⟨a, rfl, Except.ok.inj ends, root "v2/", ?_⟩
    exact keys [⟨"web", none⟩] (by decide +kernel) (by decide)

end Config

end GatewayPlan
