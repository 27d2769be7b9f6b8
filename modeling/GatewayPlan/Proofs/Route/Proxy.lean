import GatewayPlan.Proofs.Parameter
import GatewayPlan.Proofs.Route.Demands

/-!
# Proxy routes

A proxy route compiles the parameters it declares together with those of its path. A parameter of
a path shares its place with nothing but a repeat of it, and repeats are dropped before anything
is compared, so a path adds no clash to those of the declared parameters.
-/

namespace GatewayPlan

open Logged Mapping

namespace Parameter

theorem not_hits_of_path {p : Parameter} (path : p.kind = .path) (l : LiteralHeader) :
    ¬ p.Hits l := by
  intro hit
  cases hit with
  | header kind | context kind => cases path.symm.trans kind

/-- No two of the parameters clash, and none of them hits the literal header. -/
structure Compatible (ps : List Parameter) (l : LiteralHeader) : Prop where
  apart : ps.Pairwise fun p q => ¬ p.Clashes q
  free : ∀ p ∈ ps, ¬ p.Hits l

theorem clash?_eq_none_iff_compatible (ps : List Parameter) (l : LiteralHeader) :
    clash? ps (some l) = none ↔ Compatible ps l := by
  rw [clash?_eq_none_iff, distinct_iff_pairwise]
  constructor
  · rintro ⟨apart, free⟩
    exact ⟨apart, free l rfl⟩
  · rintro ⟨apart, free⟩
    refine ⟨apart, ?_⟩
    rintro _ ⟨⟩
    exact free

/-- Parameters of a path add no clash to those that they are merged with. -/
theorem compatible_merged_iff (ps : List Parameter) {own : List Parameter}
    (paths : ∀ p ∈ own, p.kind = .path) (l : LiteralHeader) :
    Compatible (dedupe (ps ++ own)) l ↔ Compatible (dedupe ps) l := by
  have added : ∀ q ∈ (dedupe own).filter fun q => q.identity ∉ ps.map identity,
      q.kind = .path ∧ q.identity ∉ ps.map identity := by
    intro q hq
    obtain ⟨mem, new⟩ := List.mem_filter.mp hq
    exact ⟨paths q ((dedupe_sublist own).subset mem), of_decide_eq_true new⟩
  rw [dedupe_append]
  constructor
  · rintro ⟨apart, free⟩
    exact ⟨(List.pairwise_append.mp apart).1, (List.forall_mem_append.mp free).1⟩
  · rintro ⟨apart, free⟩
    refine ⟨List.pairwise_append.mpr ⟨apart, ?_, ?_⟩, List.forall_mem_append.mpr ⟨free, ?_⟩⟩
    · apply (pairwise_not_clashes_iff_of_path fun q hq => (added q hq).1).mpr
      exact (nodup_identities_dedupe own).sublist (List.filter_sublist.map identity)
    · intro p hp q hq clash
      obtain ⟨path, new⟩ := added q hq
      apply new
      rw [(clashes_iff_of_path path p).mp clash.symm]
      exact List.mem_map_of_mem ((dedupe_sublist ps).subset hp)
    · intro q hq
      exact not_hits_of_path (added q hq).1 l

end Parameter

open Parameter

/-- The set declares the path parameter of a name and hands it on under this name. -/
structure MappingSet.Passes (name : String) (required : Bool) (set : MappingSet) : Prop where
  accepted : set.accepted.get? (key methodRequest "path" name) = some required
  backend : set.backend.get? (key integrationRequest "path" name) =
    some (key methodRequest "path" name)

theorem Mapping.assemble_passes {ps : List Parameter} {l : LiteralHeader} (h : Compatible ps l)
    {p : Parameter} (mem : p ∈ ps) (path : p.kind = .path) :
    (assemble ps (some l)).Passes p.name p.required := by
  have distinct := (distinct_iff_pairwise ps).mpr h.apart
  have own : p ∈ plain ps := mem_plain.mpr ⟨mem, by simp [isContext, path]⟩
  have declared := declaredReference_of_path path
  have forwarded := forwardedReference_of_path path
  constructor
  · apply Keyed.get?_eq_some_iff.mpr
    apply (accepted_perm distinct).mem_iff.mpr
    exact List.mem_map.mpr ⟨p, own, congrArg (Prod.mk · p.required) declared⟩
  · apply Keyed.get?_eq_some_iff.mpr
    apply (backend_perm distinct h.free).mem_iff.mpr
    exact List.mem_cons_of_mem _ (List.mem_map.mpr ⟨p, own, congrArg₂ Prod.mk forwarded declared⟩)

/-- A template comes from a declared parameter: a path has none to add. -/
theorem Mapping.templates_merged_isSome_iff (declared : List Parameter) {own : List Parameter}
    (paths : ∀ p ∈ own, p.kind = .path) :
    (templates (dedupe (declared ++ own))).isSome = true ↔
      ∃ p ∈ declared, p.isContext = true := by
  rw [templates_isSome, List.any_eq_true]
  constructor
  · rintro ⟨p, mem, context⟩
    rcases List.mem_append.mp ((dedupe_sublist _).subset mem) with explicit | fromPath
    · exact ⟨p, explicit, context⟩
    · simp [isContext, paths p fromPath] at context
  · rintro ⟨p, mem, context⟩
    obtain ⟨q, hq, same⟩ := exists_mem_dedupe (List.mem_append_left own mem)
    have kind : q.kind = p.kind := (Prod.mk.inj same).1
    exact ⟨q, hq, by rwa [isContext, kind]⟩

namespace Route

structure ProxySound (s : Settings) (path : String) (declared : List Parameter) : Prop where
  sound : PathSound path
  compatible : ∃ merged, (Template.merge path declared).result = .ok merged ∧
    Compatible merged s.literal
  covered : s.authorizer = true ∨ ∀ p ∈ declared, p.isContext = false

inductive ProxyFault (s : Settings) (path : String) (method : Method) (declared : List Parameter) :
    Error → Prop
  | path {e : Error} : PathFault path e → ProxyFault s path method declared e
  | clash {merged : List Parameter} {clash : Clash} : PathSound path →
      (Template.merge path declared).result = .ok merged → ¬ Compatible merged s.literal →
      ProxyFault s path method declared (.invariantViolation clash)
  | unprotected {merged : List Parameter} {p : Parameter} : PathSound path →
      (Template.merge path declared).result = .ok merged → Compatible merged s.literal →
      s.authorizer = false → p ∈ declared → p.isContext = true →
      ProxyFault s path method declared (.config (.unprotected method.name path))

section Proxy

variable (s : Settings) (path : String) (method : Method) (declared : List Parameter)

variable {s path method declared} in
theorem ProxyFault.not_sound {e : Error} (h : ProxyFault s path method declared e) :
    ¬ ProxySound s path declared := by
  rintro ⟨sound, ⟨merged, ends, compatible⟩, covered⟩
  cases h with
  | path fault => exact fault.not_sound sound
  | clash _ other clashes =>
    cases ends.symm.trans other
    exact clashes compatible
  | unprotected _ _ _ off mem context =>
    rcases covered with on | none
    · cases off.symm.trans on
    · cases (none _ mem).symm.trans context

/-- A proxy route meets all demands and is planned, or is refused for the first that it misses. -/
theorem plan_proxy_cases :
    (∃ own, Template.pathParameters path = .ok own ∧ ProxySound s path declared ∧
      Compatible (dedupe (declared ++ own)) s.literal ∧
      (plan s ⟨path, method, .proxy declared⟩).result =
        .ok (proxyPlan s ⟨path, method, .proxy declared⟩ (dedupe (declared ++ own)))) ∨
    ∃ e, ProxyFault s path method declared e ∧
      (plan s ⟨path, method, .proxy declared⟩).result = .error e := by
  rcases path_cases path with ⟨own, read, sound⟩ | ⟨e, fault, failed⟩
  · have ends : (Template.merge path declared).result = .ok (dedupe (declared ++ own)) :=
      Template.merge_ok_iff.mpr ⟨own, read, rfl⟩
    have templated := templates_merged_isSome_iff declared (Template.kind_of_pathParameters read)
    have compatible := clash?_eq_none_iff_compatible (dedupe (declared ++ own)) s.literal
    rw [plan_of_rooted sound.rooted]
    simp only [planProxy_eq, read]
    cases clash : clash? (dedupe (declared ++ own)) (some s.literal) with
    | some found =>
      refine .inr ⟨_, .clash sound ends ?_, rfl⟩
      intro free
      cases clash.symm.trans (compatible.mpr free)
    | none =>
      have free := compatible.mp clash
      by_cases bare : ((templates (dedupe (declared ++ own))).isSome && !s.authorizer) = true
      · obtain ⟨some, off⟩ := Bool.and_eq_true_iff.mp bare
        obtain ⟨p, mem, context⟩ := templated.mp some
        refine .inr ⟨.config (.unprotected method.name path), ?_, ?_⟩
        · exact .unprotected sound ends free (Bool.not_eq_true' _ |>.mp off) mem context
        · simp only [if_pos bare]
      · refine .inl ⟨own, rfl, ⟨sound, ⟨_, ends, free⟩, ?_⟩, free, ?_⟩
        · cases on : s.authorizer with
          | true => exact .inl rfl
          | false =>
            refine .inr fun p mem => Bool.eq_false_iff.mpr fun context => bare ?_
            rw [templated.mpr ⟨p, mem, context⟩, on]
            rfl
        · simp only [if_neg bare]
  · refine .inr ⟨e, .path fault, ?_⟩
    rw [(failed s method).1 declared]
    rfl

theorem plan_proxy_succeeds_iff :
    (plan s ⟨path, method, .proxy declared⟩).Succeeds ↔ ProxySound s path declared := by
  rcases plan_proxy_cases s path method declared with ⟨_, -, sound, -, planned⟩ | ⟨e, fault, failed⟩
  · exact iff_of_true ⟨_, planned⟩ sound
  · refine iff_of_false ?_ fault.not_sound
    rintro ⟨p, planned⟩
    cases failed.symm.trans planned

/-- Declaring a parameter again changes nothing but what the log is told. -/
theorem plan_proxy_dedupe : (plan s ⟨path, method, .proxy (dedupe declared)⟩).result =
    (plan s ⟨path, method, .proxy declared⟩).result := by
  cases rooted : Template.isRooted path with
  | false => rw [plan_of_unrooted rooted, plan_of_unrooted rooted]
  | true =>
    rw [plan_of_rooted rooted, plan_of_rooted rooted]
    simp only [planProxy_eq]
    cases Template.pathParameters path with
    | error e => rfl
    | ok own =>
      simp only [dedupe_dedupe_append]
      cases clash? (dedupe (declared ++ own)) (some s.literal) with
      | some clash => rfl
      | none =>
        simp only
        split <;> rfl

/-- A proxy route is planned just if it meets all demands, and else it is refused for the first that
it misses. Its plan has the mappings of the merged parameters, and passes on each name that the path
captures. It does no harm to declare a parameter again, or to capture a name that was declared or
captured before. -/
theorem plan_proxy :
    ((plan s ⟨path, method, .proxy declared⟩).Succeeds ↔ ProxySound s path declared) ∧
    (∀ e, (plan s ⟨path, method, .proxy declared⟩).result = .error e →
      ProxyFault s path method declared e) ∧
    (∀ p, (plan s ⟨path, method, .proxy declared⟩).result = .ok p → ∃ merged h,
      (Template.merge path declared).result = .ok merged ∧ p.integration = .http h ∧
        (compile merged (some s.literal)).result = .ok h.mappings ∧
        ∀ name ∈ Template.names path, h.mappings.Passes name (pathRequired declared name)) ∧
    (plan s ⟨path, method, .proxy (dedupe declared)⟩).result =
      (plan s ⟨path, method, .proxy declared⟩).result ∧
    ∀ merged, (Template.merge path declared).result = .ok merged →
      (merged.map identity).Nodup ∧
        (Compatible merged s.literal ↔ Compatible (dedupe declared) s.literal) := by
  refine ⟨plan_proxy_succeeds_iff s path method declared, ?_, ?_,
    plan_proxy_dedupe s path method declared, ?_⟩
  · intro e h
    rcases plan_proxy_cases s path method declared with ⟨_, -, -, -, planned⟩ | ⟨e', fault, failed⟩
    · cases h.symm.trans planned
    · cases h.symm.trans failed
      exact fault
  · intro p h
    rcases plan_proxy_cases s path method declared with
      ⟨own, read, -, free, planned⟩ | ⟨e, -, failed⟩
    · cases h.symm.trans planned
      refine ⟨_, _, Template.merge_ok_iff.mpr ⟨own, read, rfl⟩, rfl, ?_, ?_⟩
      · exact compile_ok_iff.mpr ⟨(clash?_eq_none_iff_compatible _ _).mpr free, rfl⟩
      · intro name captured
        obtain ⟨q, mem, kind, rfl, required⟩ := exists_mem_merged declared read captured
        rw [← required]
        exact assemble_passes free mem kind
    · cases h.symm.trans failed
  · intro merged ends
    obtain ⟨own, read, rfl⟩ := Template.merge_ok_iff.mp ends
    refine ⟨nodup_identities_dedupe _, ?_⟩
    exact compatible_merged_iff declared (Template.kind_of_pathParameters read) s.literal

end Proxy

end Route

end GatewayPlan
