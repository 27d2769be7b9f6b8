import GatewayPlan.Proofs.Config.Protection
import GatewayPlan.Proofs.Parameter

/-!
# The supply of path parameters

A path that an integration asks for is a template, and the gateway fills its placeholders from the
path parameters that the method declares. The route's own path and the object key of a bucket get
all they need. What is taken as it stands, the base URL or the name of a bucket, is not looked at,
and a proxy route may list a path parameter that its own path has no placeholder for.
-/

namespace GatewayPlan

open Logged Mapping

namespace MappingSet

def WritesPath (set : MappingSet) (name : String) : Prop :=
  key integrationRequest "path" name ∈ set.backend.keys

def DeclaresPath (set : MappingSet) (name : String) : Prop :=
  key methodRequest "path" name ∈ set.accepted.keys

instance (set : MappingSet) (name : String) : Decidable (set.WritesPath name) :=
  inferInstanceAs (Decidable (_ ∈ _))

instance (set : MappingSet) (name : String) : Decidable (set.DeclaresPath name) :=
  inferInstanceAs (Decidable (_ ∈ _))

/-- The mappings of a route at `own` that lists `declared` fill the placeholders of `path`, and
those of all of `target` but for the part of it that stands in `front`. -/
structure Supplies (set : MappingSet) (target front path own : String)
    (declared : List Parameter) : Prop where
  path : ∀ name, Template.Names path name → set.WritesPath name
  target : ∀ name, Template.Names target name → set.WritesPath name ∨ Template.Names front name
  declared : ∀ name, set.DeclaresPath name →
    Template.Names own name ∨ ∃ q ∈ declared, q.kind = .path ∧ q.name = name

end MappingSet

/-- What the plan of an entry owes to the paths that its integration asks for. -/
structure MethodPlan.Supplied (c : Config) (r : RouteConfig) (p : MethodPlan) : Prop where
  http : ∀ h, p.integration = .http h →
    h.uri = Template.trimSlashes c.upstream.baseUrl.text ++ r.path ∧
      h.mappings.Supplies h.uri c.upstream.baseUrl.text r.path r.path r.parameters
  service : ∀ s, p.integration = .service s → ∃ b, r.bucket = some b ∧
    s.path = b.name ++ b.objectKey ∧ s.mappings.Supplies s.path b.name b.objectKey r.path []

namespace Parameter

theorem forwardedReference_eq_path_iff (p : Parameter) (name : String) :
    p.forwardedReference = key integrationRequest "path" name ↔ p.kind = .path ∧ p.name = name := by
  rw [← Prod.mk.injEq]
  exact (Place.reference_injective integrationRequest).eq_iff (a := (p.kind, p.name))
    (b := (.path, name))

theorem declaredReference_eq_path_iff (p : Parameter) (name : String) :
    p.declaredReference = key methodRequest "path" name ↔ p.kind = .path ∧ p.name = name := by
  have kinds : p.kind.declared = .path ↔ p.kind = .path := by
    cases p.kind <;> simp [ParameterKind.declared]
  rw [← kinds, ← Prod.mk.injEq]
  exact (Place.reference_injective methodRequest).eq_iff (a := (p.kind.declared, p.name))
    (b := (.path, name))

end Parameter

namespace Mapping

variable {ps : List Parameter} {literal : Option LiteralHeader}

/-- A parameter of a path has references, so looking for one among those that have any is looking
for it in the whole list. -/
theorem exists_plain_path_iff {reference : Parameter → String} {text name : String}
    (same : ∀ p, reference p = text ↔ p.kind = .path ∧ p.name = name) (ps : List Parameter) :
    (∃ p ∈ plain ps, reference p = text) ↔ ∃ p ∈ ps, p.kind = .path ∧ p.name = name := by
  constructor
  · rintro ⟨p, hp, referred⟩
    exact ⟨p, (mem_plain.mp hp).1, (same p).mp referred⟩
  · rintro ⟨p, hp, path⟩
    have own : p.isContext = false := by simp [Parameter.isContext, path.1]
    exact ⟨p, mem_plain.mpr ⟨hp, own⟩, (same p).mpr path⟩

/-- A literal is written to a header, so it stands for no path parameter. -/
theorem writesPath_assemble (ps : List Parameter) (literal : Option LiteralHeader)
    (name : String) : (assemble ps literal).WritesPath name ↔
      key integrationRequest "path" name ∈ (forwarded ps).keys := by
  cases literal with
  | none => exact Iff.rfl
  | some l =>
    have dots : '.' ∉ "path".toList ∧ '.' ∉ "header".toList := by decide +kernel
    have apart : key integrationRequest "path" name ≠ l.key := by
      intro same
      have scopes := ((key_inj dots.1 dots.2).mp same).1
      exact absurd scopes (by decide)
    have entry : (backend ps l).get? (key integrationRequest "path" name) =
        (forwarded ps).get? (key integrationRequest "path" name) := by
      rw [backend, Keyed.get?_insert, if_neg apart]
    rw [MappingSet.WritesPath, assemble, Keyed.mem_keys_iff, Keyed.mem_keys_iff, entry]

theorem writesPath_assemble_iff (name : String) :
    (assemble ps literal).WritesPath name ↔ ∃ p ∈ ps, p.kind = .path ∧ p.name = name := by
  rw [writesPath_assemble, mem_keys_forwarded]
  exact exists_plain_path_iff (fun p => p.forwardedReference_eq_path_iff name) ps

theorem declaresPath_assemble_iff (name : String) :
    (assemble ps literal).DeclaresPath name ↔ ∃ p ∈ ps, p.kind = .path ∧ p.name = name := by
  rw [MappingSet.DeclaresPath, accepted_assemble, mem_keys_accepted]
  exact exists_plain_path_iff (fun p => p.declaredReference_eq_path_iff name) ps

/-- Parameters supply a path whose placeholders are all among them. -/
theorem supplies_assemble {target front path own : String} {declared : List Parameter}
    (used : ∀ name, Template.Names path name → ∃ p ∈ ps, p.kind = .path ∧ p.name = name)
    (parts : ∀ name, Template.Names target name →
      Template.Names front name ∨ Template.Names path name)
    (sources : ∀ p ∈ ps, p.kind = .path →
      Template.Names own p.name ∨ ∃ q ∈ declared, q.kind = .path ∧ q.name = p.name) :
    (assemble ps literal).Supplies target front path own declared := by
  have written : ∀ name, Template.Names path name → (assemble ps literal).WritesPath name := by
    intro name named
    exact (writesPath_assemble_iff name).mpr (used name named)
  refine ⟨written, ?_, ?_⟩
  · intro name named
    exact (parts name named).symm.imp_left (written name)
  · intro name declares
    obtain ⟨p, hp, kind, rfl⟩ := (declaresPath_assemble_iff name).mp declares
    exact sources p hp kind

end Mapping

namespace Route

/-- The object key of a bucket is rooted and uses no placeholder that the route does not capture. -/
theorem captured_of_checkKey {path key : String} {captured : List Parameter}
    (h : checkKey path key captured = .ok ()) : Template.isRooted key = true ∧
      ∀ name, Template.Names key name → ∃ q ∈ captured, q.name = name := by
  unfold checkKey at h
  split at h
  · cases h
  · rename_i rooted
    obtain ⟨used, read, h⟩ := Except.bind_eq_ok_iff.mp h
    refine ⟨by simpa using rooted, ?_⟩
    intro name named
    obtain ⟨p, hp, rfl⟩ := (Template.names_iff read).mp named
    cases missing : used.find? fun p => !captured.any (·.name = p.name) with
    | some q =>
      rw [missing] at h
      cases h
    | none => simpa using List.find?_eq_none.mp missing p hp

end Route

namespace Mapping

variable {path : String} {own : List Parameter}

/-- What a proxy route asks for upstream: its path is behind the base URL. -/
theorem supplies_upstream (base : String) (parameters : List Parameter)
    (literal : Option LiteralHeader) (rooted : Template.isRooted path = true)
    (read : Template.pathParameters path = .ok own) :
    (assemble (Parameter.dedupe (parameters ++ own)) literal).Supplies
      (Template.trimSlashes base ++ path) base path path parameters := by
  apply supplies_assemble
  · intro name named
    obtain ⟨p, hp, rfl⟩ := (Template.names_iff read).mp named
    obtain ⟨kept, mem, same⟩ := Parameter.exists_mem_dedupe (List.mem_append_right parameters hp)
    obtain ⟨kind, name⟩ := Prod.mk.inj same
    exact ⟨kept, mem, kind.trans (Template.kind_of_pathParameters read p hp), name⟩
  · intro name named
    exact (Template.names_append _ rooted named).imp_left (Template.names_trimSlashes_iff _ name).mp
  · intro q hq kind
    rcases List.mem_append.mp ((Parameter.dedupe_sublist _).subset hq) with declared | fromPath
    · exact .inr ⟨q, declared, kind, rfl⟩
    · exact .inl ⟨own, read, q, fromPath, rfl⟩

/-- What a bucket route asks for: an object whose key was checked, behind the name of the bucket. -/
theorem supplies_object (bucket : String) {objectKey : String}
    (read : Template.pathParameters path = .ok own)
    (checked : Route.checkKey path objectKey own = .ok ()) :
    (assemble own none).Supplies (bucket ++ objectKey) bucket objectKey path [] := by
  obtain ⟨rooted, uses⟩ := Route.captured_of_checkKey checked
  apply supplies_assemble
  · intro name named
    obtain ⟨q, hq, same⟩ := uses name named
    exact ⟨q, hq, Template.kind_of_pathParameters read q hq, same⟩
  · intro name named
    exact Template.names_append bucket rooted named
  · intro q hq kind
    exact .inl ⟨own, read, q, hq, rfl⟩

end Mapping

theorem RouteConfig.destination_eq_bucket {r : RouteConfig} {name objectKey role : String}
    (h : r.destination = .bucket name objectKey role) :
    ∃ b, r.bucket = some b ∧ b.name = name ∧ b.objectKey = objectKey := by
  unfold destination at h
  split at h
  · cases h
  · rename_i b _ bucket
    cases h
    exact ⟨b, bucket, rfl, rfl⟩
  · cases h

namespace Config

variable {c : Config} {key : String}

theorem supplied_of_planned {r : RouteConfig} {m : Method} {p : MethodPlan}
    (rooted : Template.isRooted r.path = true)
    (h : Route.Planned (c.settings key) (r.route m) r.destination p) : p.Supplied c r := by
  generalize destination : r.destination = target at h
  cases h with
  | function name => exact ⟨nofun, nofun⟩
  | @proxy parameters own read _ _ =>
    obtain ⟨-, -, same⟩ := RouteConfig.destination_eq_proxy destination
    have supplies := supplies_upstream c.upstream.baseUrl.text parameters
      (some (c.settings key).literal) rooted read
    refine ⟨?_, nofun⟩
    intro h made
    cases Integration.http.inj made
    rw [same]
    exact ⟨rfl, supplies⟩
  | @bucket name objectKey role own read checked _ =>
    obtain ⟨b, bucket, sameName, sameKey⟩ := RouteConfig.destination_eq_bucket destination
    have supplies := supplies_object name read checked
    refine ⟨nofun, ?_⟩
    intro s made
    cases Integration.service.inj made
    refine ⟨b, bucket, ?_, ?_⟩
    · rw [sameName, sameKey]
    · rw [sameName, sameKey]
      exact supplies

/-- Every plan of a configuration writes what its target path asks for, but for the part that is
taken as it stands, and declares no path parameter that the entry does not have from its path or
from its list. -/
theorem planRoutes_supplied {plans : List MethodPlan} (h : (c.planRoutes key).result = .ok plans) :
    List.Forall₂ (fun pair p => p.Supplied c pair.1) c.pairs plans := by
  obtain ⟨-, each⟩ := (planRoutes_result_eq_ok_iff c key).mp h
  apply each.imp
  intro pair p planned
  obtain ⟨rooted, made⟩ := Route.plan_result_eq_ok_iff.mp planned
  exact supplied_of_planned rooted made

theorem planRoutes_supplied_of_placeholders :
    let c : Config := {
      name := "assets", stage := "prod", proxyRoot := "/api"
      upstream := ⟨⟨"https", some ⟨"", none, .domain "x.example.com", none⟩, .segments [""], none,
        none⟩, "X-API-Key"⟩
      authorizer := false, corsAllowOrigin := none, apiKeys := []
      routes := [⟨"/orders/\x7bid\x7d", [.get, .put], none, none, []⟩,
        ⟨"/files/\x7bkey\x7d", [.get], none, some ⟨"b", "/\x7bkey\x7d", "r"⟩, []⟩] }
    ∃ plans, (c.planRoutes "k").result = .ok plans ∧ plans.length = 3 ∧
      List.Forall₂ (fun pair p => p.Supplied c pair.1) c.pairs plans := by
  intro c
  have ends : (c.planRoutes "k").result.map List.length = .ok 3 := by decide +kernel
  cases planned : (c.planRoutes "k").result with
  | error e =>
    rw [planned] at ends
    cases ends
  | ok plans =>
    rw [planned] at ends
    exact ⟨plans, rfl, Except.ok.inj ends, planRoutes_supplied planned⟩

/-- What is taken as it stands may ask for a path parameter that nothing writes, and a method may
declare one that its path does not have. -/
theorem planRoutes_dangling :
    let c : Config := {
      name := "assets", stage := "prod", proxyRoot := "/api"
      upstream := ⟨⟨"https", some ⟨"", none, .domain "x.example.com", none⟩, .segments [""],
        some "q=/\x7btenant\x7d", none⟩, "X-API-Key"⟩
      authorizer := false, corsAllowOrigin := none, apiKeys := []
      routes := [⟨"/files/\x7bkey\x7d", [.get], none,
          some ⟨"\x7btenant\x7d", "/\x7bkey\x7d", "r"⟩, []⟩,
        ⟨"/orders", [.get], none, none, [⟨.path, "id", true, rfl⟩]⟩] }
    ∃ s h, (c.planRoutes "k").result.map (·.map MethodPlan.integration) =
        .ok [.service s, .http h] ∧
      (Template.Names s.path "tenant" ∧ ¬ s.mappings.WritesPath "tenant") ∧
      (Template.Names h.uri "tenant" ∧ ¬ h.mappings.WritesPath "tenant") ∧
      h.mappings.DeclaresPath "id" ∧ ¬ Template.Names "/orders" "id" := by
  intro c
  refine ⟨⟨Route.bucketService, .get, "\x7btenant\x7d/\x7bkey\x7d", "r", .whenNoTemplates,
      assemble [⟨.path, "key", true, rfl⟩] none, IntegrationResponse.ofBucket⟩,
    ⟨"https://x.example.com/?q=/\x7btenant\x7d/orders", .get, .whenNoMatch,
      assemble [⟨.path, "id", true, rfl⟩] (some (.apiKey "k")), IntegrationResponse.passed⟩, ?_⟩
  decide +kernel

end Config

end GatewayPlan
