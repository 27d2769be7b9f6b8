import GatewayPlan.CommandLine.Run
import GatewayPlan.Proofs.Config.Expansion
import GatewayPlan.Proofs.Mapping.Relaxed
import GatewayPlan.Proofs.Template

/-!
# One route from the command line

The command for a single route and a configuration with that route agree. The command relaxes
parameters once those of the path are merged in, and planning merges parameters that are relaxed
already. Merging keeps the first of equals and no check asks which parameters are relaxed, so the
order makes no difference but for the warnings on the way.
-/

namespace GatewayPlan

open Logged Mapping Parameter

namespace Template

variable {path : String} {declared own : List Parameter} {names : List String}

/-- A parameter of the path stands in the merged list as the path has it: none of those that are
declared by kind takes its place. -/
theorem exists_relaxed (others : ∀ p ∈ declared, p.kind ≠ .path)
    (read : pathParameters path = .ok own) : ∀ q ∈ own,
      ∃ p ∈ (dedupe (declared ++ own)).map (relaxedIn names),
        p.identity = q.identity ∧ p.required = decide (q.name ∉ names) := by
  intro q hq
  obtain ⟨p, hp, same⟩ := exists_mem_dedupe (List.mem_append_right declared hq)
  refine ⟨p.relaxedIn names, List.mem_map_of_mem hp, ?_, ?_⟩
  · rw [identity_relaxedIn, same]
  · obtain ⟨kind, name⟩ := Prod.mk.inj same
    have isPath : p.kind = .path := kind.trans (kind_of_pathParameters read q hq)
    have fromPath : p ∈ own := by
      have mem := (dedupe_sublist _).subset hp
      exact (List.mem_append.mp mem).resolve_left fun mem => others p mem isPath
    rw [required_relaxedIn, required_of_pathParameters read p fromPath, Bool.true_and, name]

/-- Merging the parameters of the path in once more, after some were relaxed, warns of each
placeholder of a relaxed one and changes nothing else. -/
theorem merge_relaxed (others : ∀ p ∈ declared, p.kind ≠ .path)
    (read : pathParameters path = .ok own) :
    merge path ((dedupe (declared ++ own)).map (relaxedIn names)) =
      ⟨(own.filter (·.name ∈ names)).map (.dropped · false),
        .ok ((dedupe (declared ++ own)).map (relaxedIn names))⟩ := by
  have warnings : dropWarnings ((dedupe (declared ++ own)).map (relaxedIn names) ++ own) =
      (own.filter (·.name ∈ names)).map (.dropped · false) := by
    rw [dropWarnings_append (nodup_relaxed names _) (exists_relaxed others read),
      ← List.filterMap_eq_map, List.filterMap_filter]
    apply List.filterMap_congr
    intro q hq
    have required := required_of_pathParameters read q hq
    rw [required]
    by_cases named : q.name ∈ names <;> simp [named]
  rw [merge_eq, read]
  simp only
  rw [warnings, dedupe_relaxed]

end Template

namespace Config

variable {c : Config} {key path : String} {method : Method} {ps own : List Parameter}

/-- A configuration of one proxy route whose parameters leave nothing to merge plans this route
alone, and maps just these parameters. -/
theorem planRoutes_of_merged (routes : c.routes = [⟨path, [method], none, none, ps⟩])
    (rooted : Template.isRooted path = true) (authorized : c.authorizer = true)
    (read : Template.pathParameters path = .ok own) (absorbed : dedupe (ps ++ own) = ps)
    (free : clash? ps (some (c.settings key).literal) = none) :
    ∃ p h, (c.planRoutes key).result = .ok [p] ∧ p.integration = .http h ∧
      h.mappings = assemble ps (some (c.settings key).literal) := by
  have planned := Route.plan_proxy_result (s := c.settings key) method ps rooted authorized
  rw [read] at planned
  simp only [absorbed, free] at planned
  refine ⟨Route.proxyPlan (c.settings key) ⟨path, method, .proxy ps⟩ ps, _, ?_, rfl, rfl⟩
  rw [planRoutes_result_eq_ok_iff, pairs, routes]
  constructor
  · intro r hr
    rw [List.mem_singleton.mp hr]
    rfl
  · exact .cons planned .nil

end Config

namespace CommandLine

def ParamsOptions.literal (o : ParamsOptions) (key : String) : LiteralHeader :=
  ⟨o.apiKeyHeader, key⟩

def printed (set : MappingSet) : String :=
  Json.block (MappingSet.codec.encode set) ++ "\n"

variable {environment : Option String} {o : ParamsOptions} {key : String}
  {declared own ps : List Parameter}

section

variable (made : Parameter.declared o.queries o.multis o.headers o.contexts = .ok declared)
include made

theorem paramsOf_eq : paramsOf o = match Template.pathParameters o.path with
    | .error e => .error (.ofError e)
    | .ok own =>
      match relaxNamed (dedupe (declared ++ own)) o.optionals with
      | .ok ps => .ok (dropWarnings (declared ++ own), ps)
      | .error unknown =>
        .error ⟨"--optional " ++ unknown ++ " does not name any parameter of this route", []⟩ := by
  have merged := Template.merge_eq o.path declared
  rw [paramsOf, made]
  simp only [Except.mapError, bind, Except.bind, merged]
  cases Template.pathParameters o.path with
  | error e => rfl
  | ok own =>
    simp only
    cases relaxNamed (dedupe (declared ++ own)) o.optionals <;> rfl

variable (keyed : keyOf o.apiKey environment = .ok key)
include keyed

theorem params_of_malformed {e : Error} (read : Template.pathParameters o.path = .error e) :
    (params environment o).result = .error (.ofError e) := by
  have failed := paramsOf_eq made
  rw [read] at failed
  rw [params, keyed]
  simp only [failed]

theorem params_of_relaxed (read : Template.pathParameters o.path = .ok own)
    (relaxed : relaxNamed (dedupe (declared ++ own)) o.optionals = .ok ps) :
    (params environment o).result = match clash? ps (some (o.literal key)) with
      | some clash => .error (.ofError (.invariantViolation clash))
      | none => .ok (printed (assemble ps (some (o.literal key)))) := by
  have merged := paramsOf_eq made
  rw [read] at merged
  simp only [relaxed] at merged
  have compiled := Mapping.compile_eq ps (some (o.literal key))
  rw [ParamsOptions.literal] at compiled ⊢
  rw [params, keyed]
  simp only [merged, compiled]
  cases clash? ps (some ⟨o.apiKeyHeader, key⟩) <;> rfl

/-- With nothing unknown to relax, the command ends as planning its route does behind an authorizer,
but that an error shows the relaxed parameters as such. -/
theorem params_like_plan (rooted : Template.isRooted o.path = true) {s : Settings}
    (method : Method) (literal : s.literal = o.literal key) (authorized : s.authorizer = true)
    (known : ∀ merged, (Template.merge o.path declared).result = .ok merged →
      ∀ name ∈ o.optionals, ∃ p ∈ merged, p.name = name) :
    match (Route.plan s ⟨o.path, method, .proxy declared⟩).result with
    | .ok _ => ∃ text, (params environment o).result = .ok text
    | .error e => (params environment o).result = .error (.ofError (e.relaxedIn o.optionals)) := by
  rw [Route.plan_proxy_result method declared rooted authorized, literal]
  cases read : Template.pathParameters o.path with
  | error e =>
    obtain ⟨segment, reason, rfl⟩ := Template.malformed_of_pathParameters read
    exact params_of_malformed made keyed read
  | ok own =>
    have relaxed : relaxNamed (dedupe (declared ++ own)) o.optionals =
        .ok ((dedupe (declared ++ own)).map (relaxedIn o.optionals)) :=
      relaxNamed_eq_ok_iff.mpr ⟨known _ (Template.merge_ok_iff.mpr ⟨own, read, rfl⟩), rfl⟩
    have ends := params_of_relaxed made keyed read relaxed
    rw [clash?_relaxedIn] at ends
    cases clash : clash? (dedupe (declared ++ own)) (some (o.literal key)) with
    | some found =>
      rw [clash] at ends
      simp only [clash]
      exact ends
    | none =>
      rw [clash] at ends
      simp only [clash]
      exact ⟨_, ends⟩

end

end CommandLine

end GatewayPlan
