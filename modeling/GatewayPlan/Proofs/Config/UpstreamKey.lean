import GatewayPlan.Config
import GatewayPlan.Proofs.Route.Plan

/-!
# The key of the upstream

Planning the same configuration with two keys for the upstream ends alike: the log is the same, so
is an error, and plans differ in nothing but the entry that hands the key on, which only HTTP
integrations have.
-/

namespace GatewayPlan

open Logged Mapping

/-- Two maps that agree but for one key, under which each has a value of its own. -/
structure Keyed.DifferAt {α : Type} (key : String) (a b : α) (m n : Keyed α) : Prop where
  left : m.get? key = some a
  right : n.get? key = some b
  rest : ∀ k, k ≠ key → m.get? k = n.get? k

theorem Keyed.differAt_insert {α : Type} (m : Keyed α) (key : String) (a b : α) :
    DifferAt key a b (m.insert key a) (m.insert key b) := by
  refine ⟨by simp, by simp, ?_⟩
  intro k other
  simp [other]

section

variable (header k₁ k₂ : String)

/-- Two mapping sets whose literal under `header` is `k₁` in one and `k₂` in the other. -/
structure MappingSet.SameBut (m n : MappingSet) : Prop where
  rest : { m with backend := n.backend } = n
  backend : m.backend.DifferAt (headerKey header) (constant k₁) (constant k₂) n.backend

inductive Integration.SameBut : Integration → Integration → Prop
  | function (name : String) : SameBut (.function name) (.function name)
  | service (s : ServiceIntegration) : SameBut (.service s) (.service s)
  | http {h g : HttpIntegration} : { h with mappings := g.mappings } = g →
      h.mappings.SameBut header k₁ k₂ g.mappings → SameBut (.http h) (.http g)

structure MethodPlan.SameBut (p q : MethodPlan) : Prop where
  rest : { p with integration := q.integration } = q
  integration : p.integration.SameBut header k₁ k₂ q.integration

structure ApiPlan.SameBut (a b : ApiPlan) : Prop where
  rest : { a with methods := b.methods } = b
  methods : List.Forall₂ (MethodPlan.SameBut header k₁ k₂) a.methods b.methods

end

theorem MappingSet.SameBut.templates {header k₁ k₂ : String} {m n : MappingSet}
    (h : m.SameBut header k₁ k₂ n) : m.templates = n.templates := by
  rw [← h.rest]

namespace Mapping

variable (ps : List Parameter) (header k₁ k₂ : String)

theorem assemble_sameBut : (assemble ps (some ⟨header, k₁⟩)).SameBut header k₁ k₂
    (assemble ps (some ⟨header, k₂⟩)) :=
  ⟨rfl, Keyed.differAt_insert (forwarded ps) (headerKey header) (constant k₁) (constant k₂)⟩

/-- The log is told how many entries there are, and a key takes one whatever it is. -/
theorem report_assemble : report ps (assemble ps (some ⟨header, k₁⟩)) =
    report ps (assemble ps (some ⟨header, k₂⟩)) := by
  have size : (assemble ps (some ⟨header, k₁⟩)).backend.size =
      (assemble ps (some ⟨header, k₂⟩)).backend.size :=
    Keyed.size_insert (forwarded ps) (headerKey header) (constant k₁) (constant k₂)
  rw [report, size]
  rfl

/-- A literal clashes by its header, never by its value. -/
theorem compile_alike : Alike (MappingSet.SameBut header k₁ k₂)
    (compile ps (some ⟨header, k₁⟩)) (compile ps (some ⟨header, k₂⟩)) := by
  have same : clash? ps (some ⟨header, k₁⟩) = clash? ps (some ⟨header, k₂⟩) := rfl
  rw [compile_eq, compile_eq, same, report_assemble ps header k₁ k₂]
  cases clash? ps (some ⟨header, k₂⟩) with
  | some clash => exact .error
  | none => exact .ok (assemble_sameBut ps header k₁ k₂)

end Mapping

/-- The settings with another key for the upstream. -/
def Settings.withKey (s : Settings) (key : String) : Settings :=
  { s with literal := ⟨s.literal.header, key⟩ }

namespace Route

variable (s : Settings) (key : String) (r : Route)

theorem planProxy_alike (parameters : List Parameter) :
    Alike (MethodPlan.SameBut s.literal.header s.literal.value key)
      (planProxy s r parameters) (planProxy (s.withKey key) r parameters) := by
  unfold planProxy
  apply (Alike.of_eq (Template.merge r.path parameters)).bind
  rintro merged _ rfl
  apply (compile_alike merged s.literal.header s.literal.value key).bind
  intro m n same
  have authorizer : (s.withKey key).authorizer = s.authorizer := rfl
  rw [same.templates, authorizer]
  split
  · exact .error
  · exact .ok ⟨rfl, .http rfl same⟩

/-- A bucket gets no literal, so the key has no way into its plan. -/
theorem planBucket_alike (name objectKey role : String) :
    Alike (MethodPlan.SameBut s.literal.header s.literal.value key)
      (planBucket s r name objectKey role) (planBucket (s.withKey key) r name objectKey role) := by
  unfold planBucket
  apply (Alike.of_eq (quiet (Template.pathParameters r.path))).bind
  rintro captured _ rfl
  apply (Alike.of_eq (quiet (checkKey r.path objectKey captured))).bind
  rintro _ _ -
  apply (Alike.of_eq (compile captured none)).bind
  rintro mappings _ rfl
  exact .ok ⟨rfl, .service _⟩

theorem plan_alike : Alike (MethodPlan.SameBut s.literal.header s.literal.value key)
    (plan s r) (plan (s.withKey key) r) := by
  unfold plan
  split
  · exact .error
  · split
    · exact .ok ⟨rfl, .function _⟩
    · exact planProxy_alike s key r _
    · exact planBucket_alike s key r _ _ _

end Route

theorem ApiPlan.ofMethods_alike {header k₁ k₂ : String} (name stage : String)
    (origin : Option String) (keys : List ApiKey) {ms ns : List MethodPlan}
    (h : List.Forall₂ (MethodPlan.SameBut header k₁ k₂) ms ns) :
    Alike (ApiPlan.SameBut header k₁ k₂) (quiet (ofMethods name stage origin keys ms))
      (quiet (ofMethods name stage origin keys ns)) := by
  unfold ofMethods
  split
  · exact .error
  · cases UsagePlan.ofKeys keys stage with
    | error e => exact .error
    | ok plans => exact .ok ⟨rfl, h⟩

namespace Config

variable (c : Config) (k₁ k₂ : String)

theorem planRoutes_alike :
    Alike (List.Forall₂ (MethodPlan.SameBut c.upstream.apiKeyHeader k₁ k₂))
      (c.planRoutes k₁) (c.planRoutes k₂) := by
  unfold planRoutes
  apply (Alike.of_eq (quiet c.expandRoutes)).bind
  rintro routes _ rfl
  apply (Alike.mapM routes fun r _ => Route.plan_alike (c.settings k₁) k₂ r).bind
  intro ps qs same
  rw [same.length_eq]
  exact .ok same

/-- The key of the upstream decides nothing: planning the routes or the whole API with one key or
the other tells the log the same and ends in the same error, or in plans that differ only under the
header of the key, in HTTP integrations, where each has its own key as a constant. -/
theorem plan_alike_of_keys :
    Alike (List.Forall₂ (MethodPlan.SameBut c.upstream.apiKeyHeader k₁ k₂))
      (c.planRoutes k₁) (c.planRoutes k₂) ∧
    Alike (ApiPlan.SameBut c.upstream.apiKeyHeader k₁ k₂) (c.plan k₁) (c.plan k₂) := by
  refine ⟨planRoutes_alike c k₁ k₂, ?_⟩
  apply (planRoutes_alike c k₁ k₂).bind
  intro ps qs same
  exact ApiPlan.ofMethods_alike c.name c.stage c.corsAllowOrigin c.apiKeys same

end Config

end GatewayPlan
