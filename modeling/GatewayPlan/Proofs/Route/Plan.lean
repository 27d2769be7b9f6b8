import GatewayPlan.Proofs.Mapping.Lossless
import GatewayPlan.Proofs.Template.Merge
import GatewayPlan.Route.Plan

/-!
# How planning a route ends

Planning a route has a row for each way to end, with all that the log is told on the way. Whatever
is proved of plans rests on these rows.
-/

namespace GatewayPlan

open Logged Mapping

namespace Route

/-- The plan of a proxy route whose merged parameters compile. -/
def proxyPlan (s : Settings) (r : Route) (merged : List Parameter) : MethodPlan :=
  planned s r (Template.join s.proxyRoot r.path)
    (.http ⟨s.uri r.path, r.method, .whenNoMatch, assemble merged (some s.literal),
      IntegrationResponse.passed⟩)
    MethodResponse.passed

/-- The plan of a bucket route whose own parameters compile. -/
def bucketPlan (s : Settings) (r : Route) (name key role : String) (captured : List Parameter) :
    MethodPlan :=
  planned s r r.path
    (.service ⟨bucketService, r.method, name ++ key, role, .whenNoTemplates,
      assemble captured none, IntegrationResponse.ofBucket⟩)
    MethodResponse.ofBucket

theorem planProxy_eq (s : Settings) (r : Route) (parameters : List Parameter) :
    planProxy s r parameters = match Template.pathParameters r.path with
      | .error e => .fail e
      | .ok own =>
        let merged := Parameter.dedupe (parameters ++ own)
        let warnings := Parameter.dropWarnings (parameters ++ own)
        match clash? merged (some s.literal) with
        | some clash => ⟨warnings, .error (.invariantViolation clash)⟩
        | none =>
          let reported := warnings ++ [report merged (assemble merged (some s.literal))]
          if (templates merged).isSome && !s.authorizer then
            ⟨reported, .error (.config (.unprotected r.method.name r.path))⟩
          else
            ⟨reported ++ [.plannedProxy r.method.name r.path merged.length],
              .ok (proxyPlan s r merged)⟩ := by
  unfold planProxy
  rw [Template.merge_eq]
  cases Template.pathParameters r.path with
  | error e => rfl
  | ok own =>
    simp only
    rw [bind_ok rfl, compile_eq]
    cases clash? (Parameter.dedupe (parameters ++ own)) (some s.literal) with
    | some clash =>
      ext1
      · exact List.append_nil _
      · rfl
    | none =>
      simp only
      rw [bind_ok rfl]
      simp only [templates_assemble]
      split
      · ext1
        · simp only [fail, List.append_nil]
        · rfl
      · ext1
        · simp only [tell_bind, pure_log, List.append_nil, List.append_assoc]
        · rfl

theorem planBucket_eq (s : Settings) (r : Route) (name key role : String) :
    planBucket s r name key role = match Template.pathParameters r.path with
      | .error e => .fail e
      | .ok captured =>
        match checkKey r.path key captured with
        | .error e => .fail e
        | .ok () =>
          match clash? captured none with
          | some clash => .fail (.invariantViolation clash)
          | none => ⟨[report captured (assemble captured none),
              .plannedBucket r.method.name r.path (name ++ key)],
              .ok (bucketPlan s r name key role captured)⟩ := by
  unfold planBucket
  cases Template.pathParameters r.path with
  | error e => rfl
  | ok captured =>
    simp only [quiet_ok_bind]
    cases checkKey r.path key captured with
    | error e => simp only [quiet_error_bind]
    | ok checked =>
      simp only [quiet_ok_bind, compile_eq]
      cases clash? captured none with
      | some clash => rfl
      | none => rfl

section

variable {s : Settings} {path : String} {method : Method} {target : Target}

/-- A rooted path leaves the rest to the target of the route. -/
theorem plan_of_rooted (h : Template.isRooted path = true) :
    plan s ⟨path, method, target⟩ = match target with
      | .function name => pure (planned s ⟨path, method, target⟩ path (.function name) [])
      | .proxy parameters => planProxy s ⟨path, method, target⟩ parameters
      | .bucket name key role => planBucket s ⟨path, method, target⟩ name key role := by
  have rooted : ¬ (!Template.isRooted path) = true := by simp [h]
  exact if_neg rooted

theorem plan_of_unrooted (h : Template.isRooted path = false) :
    plan s ⟨path, method, target⟩ = .fail (.config (.unrootedRoute path)) := by
  rw [plan, h, Bool.not_false, if_pos rfl]

end

/-- What it takes for a plan to be the plan of a route with a given target. -/
inductive Planned (s : Settings) (r : Route) : Target → MethodPlan → Prop
  | function (name : String) :
      Planned s r (.function name) (planned s r r.path (.function name) [])
  | proxy {parameters own : List Parameter} :
      Template.pathParameters r.path = .ok own →
      clash? (Parameter.dedupe (parameters ++ own)) (some s.literal) = none →
      ((templates (Parameter.dedupe (parameters ++ own))).isSome = true → s.authorizer = true) →
      Planned s r (.proxy parameters) (proxyPlan s r (Parameter.dedupe (parameters ++ own)))
  | bucket {name key role : String} {captured : List Parameter} :
      Template.pathParameters r.path = .ok captured →
      checkKey r.path key captured = .ok () →
      clash? captured none = none →
      Planned s r (.bucket name key role) (bucketPlan s r name key role captured)

theorem planned_of_planProxy {s : Settings} {r : Route} {parameters : List Parameter}
    {p : MethodPlan} (h : (planProxy s r parameters).result = .ok p) :
    Planned s r (.proxy parameters) p := by
  rw [planProxy_eq] at h
  cases path : Template.pathParameters r.path with
  | error e =>
    rw [path] at h
    cases h
  | ok own =>
    simp only [path] at h
    cases clash : clash? (Parameter.dedupe (parameters ++ own)) (some s.literal) with
    | some c =>
      simp only [clash] at h
      cases h
    | none =>
      simp only [clash] at h
      split at h
      · cases h
      · rename_i covered
        cases h
        refine .proxy path clash fun templated => ?_
        simpa [templated] using covered

theorem planned_of_planBucket {s : Settings} {r : Route} {name key role : String}
    {p : MethodPlan} (h : (planBucket s r name key role).result = .ok p) :
    Planned s r (.bucket name key role) p := by
  rw [planBucket_eq] at h
  cases path : Template.pathParameters r.path with
  | error e =>
    rw [path] at h
    cases h
  | ok captured =>
    simp only [path] at h
    cases used : checkKey r.path key captured with
    | error e =>
      rw [used] at h
      cases h
    | ok checked =>
      simp only [used] at h
      cases clash : clash? captured none with
      | some c =>
        rw [clash] at h
        cases h
      | none =>
        rw [clash] at h
        cases h
        exact .bucket path used clash

theorem planned_of_plan {s : Settings} {r : Route} {p : MethodPlan}
    (h : (plan s r).result = .ok p) : Planned s r r.target p := by
  unfold plan at h
  split at h
  · cases h
  · cases target : r.target with
    | function name =>
      simp only [target] at h
      cases h
      exact .function name
    | proxy parameters =>
      simp only [target] at h
      exact planned_of_planProxy h
    | bucket name key role =>
      simp only [target] at h
      exact planned_of_planBucket h

theorem rooted_of_plan {s : Settings} {r : Route} {p : MethodPlan}
    (h : (plan s r).result = .ok p) : Template.isRooted r.path = true := by
  unfold plan at h
  split at h
  · cases h
  · rename_i rooted
    simpa using rooted

theorem plan_of_planned {s : Settings} {r : Route} {p : MethodPlan}
    (rooted : Template.isRooted r.path = true) (h : Planned s r r.target p) :
    (plan s r).result = .ok p := by
  rw [plan, rooted, Bool.not_true, if_neg Bool.false_ne_true]
  generalize r.target = target at h
  cases h with
  | function name => rfl
  | @proxy parameters own path free covered =>
    have passes : ¬ ((templates (Parameter.dedupe (parameters ++ own))).isSome &&
        !s.authorizer) = true := by
      simpa using covered
    simp only [planProxy_eq, path, free, if_neg passes]
  | bucket path used free => simp only [planBucket_eq, path, used, free]

/-- A route has a plan exactly if its path is rooted and the plan is the one for its target. -/
theorem plan_result_eq_ok_iff {s : Settings} {r : Route} {p : MethodPlan} :
    (plan s r).result = .ok p ↔ Template.isRooted r.path = true ∧ Planned s r r.target p :=
  ⟨fun h => ⟨rooted_of_plan h, planned_of_plan h⟩, fun h => plan_of_planned h.1 h.2⟩

/-- Behind an authorizer a proxy route fails only for its path or for a clash. -/
theorem plan_proxy_result {s : Settings} {path : String} (method : Method)
    (declared : List Parameter) (rooted : Template.isRooted path = true)
    (authorized : s.authorizer = true) :
    (plan s ⟨path, method, .proxy declared⟩).result = match Template.pathParameters path with
      | .error e => .error e
      | .ok own =>
        match clash? (Parameter.dedupe (declared ++ own)) (some s.literal) with
        | some clash => .error (.invariantViolation clash)
        | none => .ok (proxyPlan s ⟨path, method, .proxy declared⟩
            (Parameter.dedupe (declared ++ own))) := by
  rw [plan_of_rooted rooted]
  simp only [planProxy_eq, authorized, Bool.not_true, Bool.and_false, Bool.false_eq_true, if_false]
  cases Template.pathParameters path with
  | error e => rfl
  | ok own =>
    simp only
    cases clash? (Parameter.dedupe (declared ++ own)) (some s.literal) <;> rfl

theorem Planned.method_eq {s : Settings} {r : Route} {target : Target} {p : MethodPlan}
    (h : Planned s r target p) : p.method = r.method := by
  cases h <;> rfl

theorem level_dropWarnings {ps : List Parameter} {event : Event}
    (h : event ∈ Parameter.dropWarnings ps) : event.level = .warn := by
  obtain ⟨p, -, dropped⟩ := List.mem_filterMap.mp h
  obtain ⟨kept, -, due⟩ := Option.bind_eq_some_iff.mp dropped
  split at due
  · cases due
  · cases due
    rfl

theorem merge_tells (template : String) (declared : List Parameter) :
    (Template.merge template declared).Tells (·.level ≠ .info) := by
  rw [Template.merge_eq]
  cases Template.pathParameters template with
  | error e => exact tells_fail _ e
  | ok own =>
    intro event mem
    rw [level_dropWarnings mem]
    decide

theorem compile_tells (ps : List Parameter) (literal : Option LiteralHeader) :
    (compile ps literal).Tells (·.level ≠ .info) := by
  rw [compile_eq]
  cases clash? ps literal with
  | some clash => exact tells_fail _ _
  | none => simp [Tells, report, Event.level]

/-- Of a single route the log is never told at the level of information. -/
theorem plan_tells (s : Settings) (r : Route) : (plan s r).Tells (·.level ≠ .info) := by
  unfold plan
  split
  · exact tells_fail _ _
  · split
    · exact tells_pure _ _
    · rename_i parameters target
      refine (merge_tells r.path parameters).bind fun merged => ?_
      refine (compile_tells merged s.literal).bind fun mappings => ?_
      split
      · exact tells_fail _ _
      · exact (tells_tell _ (by simp [Event.level])).bind fun _ => tells_pure _ _
    · rename_i name key role target
      refine Tells.bind (tells_quiet _ _) fun captured => ?_
      refine Tells.bind (tells_quiet _ _) fun _ => ?_
      refine (compile_tells captured none).bind fun mappings => ?_
      exact (tells_tell _ (by simp [Event.level])).bind fun _ => tells_pure _ _

end Route

end GatewayPlan
