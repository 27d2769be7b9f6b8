import GatewayPlan.Config
import GatewayPlan.Proofs.Except
import GatewayPlan.Proofs.Route.Plan
import Mathlib.Algebra.GroupWithZero.Nat

/-!
# The expansion of a configuration

Planning the routes of a configuration goes through the pairs of an entry and one of its methods,
entry by entry and method by method. Before the first pair is planned every entry was expanded, so
an entry that cannot be expanded wins over any pair that cannot be planned.
-/

namespace GatewayPlan

open Logged

namespace RouteConfig

/-- What keeps an entry from being expanded. -/
def fault? (r : RouteConfig) : Option ConfigFault :=
  if r.methods = [] then some (.noMethods r.path)
  else if r.function.isSome ∧ r.bucket.isSome then some (.twoTargets r.path)
  else if (r.function.isSome ∨ r.bucket.isSome) ∧ r.parameters ≠ [] then
    some (.idleParameters r.path)
  else none

/-- Where the requests of an entry go: to its function, else to its bucket, else upstream. -/
def destination (r : RouteConfig) : Target :=
  match r.function, r.bucket with
  | some name, _ => .function name
  | none, some b => .bucket b.name b.objectKey b.role
  | none, none => .proxy r.parameters

def route (r : RouteConfig) (method : Method) : Route :=
  ⟨r.path, method, r.destination⟩

theorem expand_eq (r : RouteConfig) : r.expand = match r.fault? with
    | some fault => .error (.config fault)
    | none => .ok (r.methods.map r.route) := by
  obtain ⟨path, methods, function, bucket, parameters⟩ := r
  cases methods with
  | nil => rfl
  | cons method methods =>
    cases function <;> cases bucket <;> cases parameters <;> rfl

end RouteConfig

namespace Integration

def withMethod (m : Method) : Integration → Integration
  | function name => .function name
  | http h => .http { h with method := m }
  | service s => .service { s with method := m }

end Integration

/-- The same plan for another method. -/
def MethodPlan.withMethod (p : MethodPlan) (m : Method) : MethodPlan :=
  { p with method := m, integration := p.integration.withMethod m }

/-- A method enters its plan in two places only. -/
theorem Route.Planned.withMethod {s : Settings} {path : String} {target : Target} {m n : Method}
    {p q : MethodPlan} (hp : Planned s ⟨path, m, target⟩ target p)
    (hq : Planned s ⟨path, n, target⟩ target q) : q = p.withMethod n := by
  cases hp with
  | function name =>
    cases hq
    rfl
  | proxy own clash covered =>
    cases hq with
    | proxy same =>
      cases own.symm.trans same
      rfl
  | bucket own used clash =>
    cases hq with
    | bucket same =>
      cases own.symm.trans same
      rfl

namespace Config

/-- The pairs of an entry and a method, entry by entry and method by method. -/
def pairs (c : Config) : List (RouteConfig × Method) :=
  c.routes.flatMap fun r => r.methods.map (r, ·)

def planPair (c : Config) (key : String) (pair : RouteConfig × Method) : Logged MethodPlan :=
  (pair.1.route pair.2).plan (c.settings key)

theorem mapM_expand_fault {before : List RouteConfig} {r : RouteConfig} (after : List RouteConfig)
    {fault : ConfigFault} (earlier : ∀ q ∈ before, q.fault? = none) (h : r.fault? = some fault) :
    (before ++ r :: after).mapM RouteConfig.expand = .error (.config fault) := by
  induction before with
  | nil =>
    rw [List.nil_append, List.mapM_cons, RouteConfig.expand_eq, h]
    rfl
  | cons q rest ih =>
    have tail := ih fun p hp => earlier p (List.mem_cons_of_mem q hp)
    rw [List.cons_append, List.mapM_cons, RouteConfig.expand_eq, earlier q List.mem_cons_self,
      tail]
    rfl

theorem mapM_expand_ok {routes : List RouteConfig} (h : ∀ r ∈ routes, r.fault? = none) :
    routes.mapM RouteConfig.expand = .ok (routes.map fun r => r.methods.map r.route) := by
  induction routes with
  | nil => rfl
  | cons r rest ih =>
    have tail := ih fun q hq => h q (List.mem_cons_of_mem r hq)
    rw [List.mapM_cons, RouteConfig.expand_eq, h r List.mem_cons_self, tail]
    rfl

variable (c : Config) (key : String)

theorem planRoutes_of_fault {before after : List RouteConfig} {r : RouteConfig}
    {fault : ConfigFault} (routes : c.routes = before ++ r :: after)
    (earlier : ∀ q ∈ before, q.fault? = none) (h : r.fault? = some fault) :
    c.planRoutes key = .fail (.config fault) := by
  have expanded : c.expandRoutes = .error (.config fault) := by
    rw [expandRoutes, routes, mapM_expand_fault after earlier h]
    rfl
  rw [planRoutes, expanded, quiet_error_bind]

theorem planRoutes_eq (h : ∀ r ∈ c.routes, r.fault? = none) : c.planRoutes key =
    c.pairs.mapM (c.planPair key) >>= fun plans =>
      ⟨[.plannedApi plans.length c.name c.stage], .ok plans⟩ := by
  have flat : (c.routes.map fun r => r.methods.map r.route).flatten =
      c.pairs.map fun pair => pair.1.route pair.2 := by
    rw [pairs, List.map_flatMap, List.flatMap_def]
    congr 2
    funext r
    rw [List.map_map]
    rfl
  have expanded : c.expandRoutes = .ok (c.pairs.map fun pair => pair.1.route pair.2) := by
    rw [expandRoutes, mapM_expand_ok h, ← flat]
    rfl
  rw [planRoutes, expanded, quiet_ok_bind, List.mapM_map]
  rfl

theorem length_pairs : c.pairs.length = (c.routes.map fun r => r.methods.length).sum := by
  simp [pairs, List.length_flatMap]

theorem planRoutes_of_failing_pair (sound : ∀ r ∈ c.routes, r.fault? = none)
    {before after : List (RouteConfig × Method)} {pair : RouteConfig × Method} {e : Error}
    (split : c.pairs = before ++ pair :: after)
    (earlier : ∀ q ∈ before, (c.planPair key q).Succeeds)
    (h : (c.planPair key pair).result = .error e) : c.planRoutes key =
      ⟨(before.flatMap fun q => (c.planPair key q).log) ++ (c.planPair key pair).log,
        .error e⟩ := by
  rw [planRoutes_eq c key sound, split, mapM_error after earlier h, bind_error rfl]

theorem planRoutes_of_plans (sound : ∀ r ∈ c.routes, r.fault? = none) {plans : List MethodPlan}
    (h : List.Forall₂ (fun pair p => (c.planPair key pair).result = .ok p) c.pairs plans) :
    c.planRoutes key = ⟨(c.pairs.flatMap fun pair => (c.planPair key pair).log) ++
      [.plannedApi plans.length c.name c.stage], .ok plans⟩ := by
  rw [planRoutes_eq c key sound, mapM_ok h, bind_ok rfl]

theorem expandable_of_expandRoutes {c : Config} {routes : List Route}
    (h : c.expandRoutes = .ok routes) : ∀ r ∈ c.routes, r.fault? = none := by
  obtain ⟨lists, expanded, -⟩ := Except.bind_eq_ok_iff.mp h
  have sound : ∀ (r : RouteConfig) (list : List Route), r.expand = .ok list →
      r.fault? = none ∧ r.expand = .ok list := by
    intro r list each
    refine ⟨?_, each⟩
    rw [RouteConfig.expand_eq] at each
    cases fault : r.fault? with
    | none => rfl
    | some fault =>
      rw [fault] at each
      cases each
  exact ((List.forall₂_and_left _ _).mp ((Except.mapM_eq_ok_iff.mp expanded).imp sound)).1

/-- Routes are planned to the end if every entry can be expanded and every pair has a plan. -/
theorem planRoutes_result_eq_ok_iff {plans : List MethodPlan} :
    (c.planRoutes key).result = .ok plans ↔ (∀ r ∈ c.routes, r.fault? = none) ∧
      List.Forall₂ (fun pair p => (c.planPair key pair).result = .ok p) c.pairs plans := by
  constructor
  · intro h
    have sound : ∀ r ∈ c.routes, r.fault? = none := by
      obtain ⟨routes, expanded, -⟩ := bind_result_eq_ok.mp h
      exact expandable_of_expandRoutes expanded
    rw [planRoutes_eq c key sound] at h
    obtain ⟨plans', each, h⟩ := bind_result_eq_ok.mp h
    cases h
    exact ⟨sound, results_of_mapM each⟩
  · rintro ⟨sound, each⟩
    rw [planRoutes_of_plans c key sound each]

theorem planned_of_planPair {pair : RouteConfig × Method} {p : MethodPlan}
    (h : (c.planPair key pair).result = .ok p) :
    Route.Planned (c.settings key) (pair.1.route pair.2) pair.1.destination p :=
  Route.planned_of_plan h

/-- Planning the routes of a configuration. The first entry that cannot be expanded decides alone
and leaves no trace in the log. Otherwise the first pair that cannot be planned ends planning, and
the log is that of the pairs up to it. Otherwise there is one plan for each pair, in order, and the
log is that of the pairs with one line on the whole behind it. -/
theorem planRoutes_expansion :
    (∀ before r after fault, c.routes = before ++ r :: after →
      (∀ q ∈ before, q.fault? = none) → r.fault? = some fault →
      c.planRoutes key = .fail (.config fault)) ∧
    ((∀ r ∈ c.routes, r.fault? = none) →
      (∀ before pair after e, c.pairs = before ++ pair :: after →
        (∀ q ∈ before, (c.planPair key q).Succeeds) → (c.planPair key pair).result = .error e →
        c.planRoutes key =
          ⟨(before.flatMap fun q => (c.planPair key q).log) ++ (c.planPair key pair).log,
            .error e⟩ ∧
        (c.planRoutes key).Tells (·.level ≠ .info)) ∧
      ((∀ pair ∈ c.pairs, (c.planPair key pair).Succeeds) → ∃ plans,
        c.planRoutes key = ⟨(c.pairs.flatMap fun pair => (c.planPair key pair).log) ++
          [.plannedApi plans.length c.name c.stage], .ok plans⟩ ∧
        (∀ pair ∈ c.pairs, (c.planPair key pair).Tells (·.level ≠ .info)) ∧
        plans.length = (c.routes.map fun r => r.methods.length).sum ∧
        List.Forall₂ (fun pair p => (c.planPair key pair).result = .ok p ∧ p.method = pair.2)
          c.pairs plans ∧
        ∀ a ∈ c.pairs.zip plans, ∀ b ∈ c.pairs.zip plans, a.1.1 = b.1.1 →
          b.2 = a.2.withMethod b.1.2)) := by
  refine ⟨?_, fun sound => ⟨?_, ?_⟩⟩
  · intro before r after fault routes earlier h
    exact planRoutes_of_fault c key routes earlier h
  · intro before pair after e split earlier h
    have ends := planRoutes_of_failing_pair c key sound split earlier h
    refine ⟨ends, ?_⟩
    rw [ends]
    intro event mem
    rcases List.mem_append.mp mem with first | last
    · obtain ⟨q, -, told⟩ := List.mem_flatMap.mp first
      exact Route.plan_tells _ _ event told
    · exact Route.plan_tells _ _ event last
  · intro h
    obtain ⟨plans, each⟩ := exists_results h
    refine ⟨plans, planRoutes_of_plans c key sound each, ?_, ?_, ?_, ?_⟩
    · exact fun _ _ => Route.plan_tells _ _
    · rw [← each.length_eq, length_pairs]
    · exact each.imp fun _ _ ends => ⟨ends, (planned_of_planPair c key ends).method_eq⟩
    · rintro ⟨⟨r, m⟩, p⟩ first ⟨⟨_, n⟩, q⟩ second rfl
      have hp := planned_of_planPair c key ((List.forall₂_zip each) first)
      have hq := planned_of_planPair c key ((List.forall₂_zip each) second)
      exact hp.withMethod hq

end Config

end GatewayPlan
