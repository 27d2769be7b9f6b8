import GatewayPlan.Proofs.Route.Plan
import GatewayPlan.Proofs.Template.Grammar
import Mathlib.Data.Prod.Basic

/-!
# What is demanded of a route

A path has to be rooted and well formed, an object key besides has to use the placeholders of its
path and no others. What is missed first is what a route is refused for. Each demand has a predicate
for what it asks, and each refusal a constructor that says which demands were met before it, so a
route that is refused is one that misses a demand.

A bucket route hands on the placeholders of its path and nothing else. It declares no parameters
and has no literal header, so that a name captured twice is its only clash.
-/

namespace GatewayPlan

open Logged Mapping

namespace Parameter

variable {p : Parameter} (path : p.kind = .path)
include path

theorem declaredReference_of_path : p.declaredReference = key methodRequest "path" p.name := by
  rw [declaredReference, path]
  rfl

theorem forwardedReference_of_path :
    p.forwardedReference = key integrationRequest "path" p.name := by
  rw [forwardedReference, path]
  rfl

end Parameter

/-- The set declares the path parameters of the given names, all of them required, and hands on each
under its own name. -/
structure MappingSet.HandsOn (names : List String) (set : MappingSet) : Prop where
  accepted : set.accepted.entries.Perm (names.map fun n => (key methodRequest "path" n, true))
  backend : set.backend.entries.Perm
    (names.map fun n => (key integrationRequest "path" n, key methodRequest "path" n))
  templates : set.templates = none

namespace Mapping

theorem plain_of_path {ps : List Parameter} (paths : ∀ p ∈ ps, p.kind = .path) : plain ps = ps := by
  apply List.filter_eq_self.mpr
  intro p hp
  simp [Parameter.isContext, paths p hp]

theorem pairwise_not_clashes_iff_of_path {ps : List Parameter} (paths : ∀ p ∈ ps, p.kind = .path) :
    (ps.Pairwise fun p q => ¬ p.Clashes q) ↔ (ps.map Parameter.identity).Nodup := by
  rw [List.Nodup, List.pairwise_map]
  apply List.Pairwise.iff_of_mem
  intro p q hp _
  exact not_congr (Parameter.clashes_iff_of_path (paths p hp) q)

/-- Parameters of a path clash just when they repeat a name. -/
theorem clash?_eq_none_iff_of_path {ps : List Parameter} (paths : ∀ p ∈ ps, p.kind = .path) :
    clash? ps none = none ↔ (ps.map Parameter.name).Nodup := by
  have identities : ps.map Parameter.identity = (ps.map Parameter.name).map (Prod.mk .path) := by
    rw [List.map_map]
    apply List.map_congr_left
    intro p hp
    rw [Parameter.identity, paths p hp, Function.comp_apply]
  have free : ∀ l ∈ (none : Option LiteralHeader), ∀ p ∈ ps, ¬ p.Hits l := by simp
  rw [clash?_eq_none_iff, and_iff_left free, distinct_iff_pairwise,
    pairwise_not_clashes_iff_of_path paths, identities,
    List.nodup_map_iff (Prod.mk_right_injective ParameterKind.path)]

/-- What the parameters of a template are assembled to. -/
theorem assemble_handsOn {template : String} {ps : List Parameter}
    (read : Template.pathParameters template = .ok ps) (distinct : Distinct ps) :
    (assemble ps none).HandsOn (Template.names template) := by
  have paths := Template.kind_of_pathParameters read
  have accepted := accepted_perm distinct
  have backend := forwarded_perm distinct
  have declared : ps.map (fun p => (p.declaredReference, p.required)) =
      (ps.map Parameter.name).map fun n => (key methodRequest "path" n, true) := by
    rw [List.map_map]
    apply List.map_congr_left
    intro p hp
    rw [Template.required_of_pathParameters read p hp,
      Parameter.declaredReference_of_path (paths p hp), Function.comp_apply]
  have written : ps.map (fun p => (p.forwardedReference, p.declaredReference)) =
      (ps.map Parameter.name).map fun n =>
        (key integrationRequest "path" n, key methodRequest "path" n) := by
    rw [List.map_map]
    apply List.map_congr_left
    intro p hp
    rw [Parameter.forwardedReference_of_path (paths p hp),
      Parameter.declaredReference_of_path (paths p hp), Function.comp_apply]
  rw [plain_of_path paths, declared] at accepted
  rw [plain_of_path paths, written] at backend
  rw [← Template.names_of_pathParameters read]
  exact ⟨accepted, backend, (templates_assemble ps none).trans (templates_eq_none_of_path paths)⟩

end Mapping

namespace Route

/-! ### The path -/

/-- A path that a route can be planned for. -/
structure PathSound (path : String) : Prop where
  rooted : Template.isRooted path = true
  wellFormed : Template.WellFormed path

inductive PathFault (path : String) : Error → Prop
  | unrooted : Template.isRooted path = false → PathFault path (.config (.unrootedRoute path))
  | malformed {segment reason : String} : Template.isRooted path = true →
      ¬ Template.WellFormed path → PathFault path (.malformedTemplate path segment reason)

theorem PathFault.not_sound {path : String} {e : Error} (h : PathFault path e) :
    ¬ PathSound path := by
  intro sound
  cases h with
  | unrooted other => exact Bool.false_ne_true (other.symm.trans sound.rooted)
  | malformed _ other => exact other sound.wellFormed

/-- A path is sound and read, or else it is what the route is refused for, whether the route is
one to the upstream service or to a bucket. -/
theorem path_cases (path : String) :
    (∃ own, Template.pathParameters path = .ok own ∧ PathSound path) ∨
      ∃ e, PathFault path e ∧ ∀ s method,
        (∀ declared, plan s ⟨path, method, .proxy declared⟩ = .fail e) ∧
          ∀ name key role, plan s ⟨path, method, .bucket name key role⟩ = .fail e := by
  cases rooted : Template.isRooted path with
  | false =>
    refine .inr ⟨_, .unrooted rooted, fun s method => ⟨fun declared => ?_, fun name key role => ?_⟩⟩
    · exact plan_of_unrooted rooted
    · exact plan_of_unrooted rooted
  | true =>
    cases read : Template.pathParameters path with
    | ok own => exact .inl ⟨own, rfl, rooted, Template.wellFormed_of_read read⟩
    | error e =>
      obtain ⟨segment, reason, rfl⟩ := Template.malformed_of_pathParameters read
      have malformed := Template.not_wellFormed_of_error read
      refine .inr ⟨.malformedTemplate path segment reason, .malformed rooted malformed,
        fun s method => ⟨fun declared => ?_, fun name key role => ?_⟩⟩
      · simp only [plan_of_rooted rooted, planProxy_eq, read]
      · simp only [plan_of_rooted rooted, planBucket_eq, read]

/-! ### The object key -/

/-- An object key that uses nothing but the placeholders of the path. -/
structure KeySound (path key : String) : Prop where
  rooted : Template.isRooted key = true
  wellFormed : Template.WellFormed key
  captured : ∀ n ∈ Template.names key, n ∈ Template.names path

/-- What an object key is refused for: of the names that the path does not have, the first. -/
inductive KeyFault (path key : String) : Error → Prop
  | unrooted : Template.isRooted key = false → KeyFault path key (.config (.unrootedKey key path))
  | malformed {segment reason : String} : Template.isRooted key = true →
      ¬ Template.WellFormed key → KeyFault path key (.malformedTemplate key segment reason)
  | uncaptured {before after : List String} {n : String} : Template.isRooted key = true →
      Template.WellFormed key → Template.names key = before ++ n :: after →
      (∀ m ∈ before, m ∈ Template.names path) → n ∉ Template.names path →
      KeyFault path key (.config (.uncaptured key n path))

theorem KeyFault.not_sound {path key : String} {e : Error} (h : KeyFault path key e) :
    ¬ KeySound path key := by
  intro sound
  cases h with
  | unrooted other => exact Bool.false_ne_true (other.symm.trans sound.rooted)
  | malformed _ other => exact other sound.wellFormed
  | uncaptured _ _ cut _ new =>
    apply new
    apply sound.captured
    rw [cut]
    exact List.mem_append_right _ List.mem_cons_self

theorem isUncaptured_eq {path : String} {captured : List Parameter}
    (h : Template.pathParameters path = .ok captured) :
    (fun p : Parameter => !captured.any (·.name = p.name)) =
      fun p => decide (p.name ∉ Template.names path) := by
  funext p
  rw [← Template.names_of_pathParameters h, Bool.eq_iff_iff]
  simp

theorem checkKey_cases {path : String} (key : String) {captured : List Parameter}
    (h : Template.pathParameters path = .ok captured) :
    (checkKey path key captured = .ok () ∧ KeySound path key) ∨
      ∃ e, checkKey path key captured = .error e ∧ KeyFault path key e := by
  unfold checkKey
  cases rooted : Template.isRooted key with
  | false => exact .inr ⟨_, rfl, .unrooted rooted⟩
  | true =>
    rw [Bool.not_true, if_neg Bool.false_ne_true, isUncaptured_eq h]
    cases read : Template.pathParameters key with
    | error e =>
      obtain ⟨segment, reason, rfl⟩ := Template.malformed_of_pathParameters read
      exact .inr ⟨_, rfl, .malformed rooted (Template.not_wellFormed_of_error read)⟩
    | ok used =>
      have own := Template.wellFormed_of_read read
      have names := Template.names_of_pathParameters read
      cases missing : used.find? fun p => decide (p.name ∉ Template.names path) with
      | none =>
        refine .inl ⟨?_, rooted, own, ?_⟩
        · simp only [bind, Except.bind, missing]
          rfl
        · rw [← names]
          simpa using missing
      | some p =>
        obtain ⟨new, before, after, rfl, old⟩ := List.find?_eq_some_iff_append.mp missing
        rw [List.map_append, List.map_cons] at names
        refine .inr ⟨.config (.uncaptured key p.name path), ?_, ?_⟩
        · simp only [bind, Except.bind, missing]
        · refine .uncaptured rooted own names.symm ?_ (of_decide_eq_true new)
          intro n mem
          obtain ⟨q, hq, rfl⟩ := List.mem_map.mp mem
          simpa using old q hq

/-! ### Buckets -/

inductive BucketFault (path key : String) : Error → Prop
  | path {e : Error} : PathFault path e → BucketFault path key e
  | key {e : Error} : PathSound path → KeyFault path key e → BucketFault path key e
  | repeated {clash : Clash} : PathSound path → KeySound path key →
      ¬ (Template.names path).Nodup → BucketFault path key (.invariantViolation clash)

theorem BucketFault.not_sound {path key : String} {e : Error} (h : BucketFault path key e) :
    ¬ (PathSound path ∧ KeySound path key ∧ (Template.names path).Nodup) := by
  rintro ⟨sound, used, distinct⟩
  cases h with
  | path fault => exact fault.not_sound sound
  | key _ fault => exact fault.not_sound used
  | repeated _ _ repeats => exact repeats distinct

section Bucket

variable (s : Settings) (path : String) (method : Method) (name key role : String)

/-- A bucket route meets all demands and is planned, or is refused for the first that it misses. -/
theorem plan_bucket_cases :
    (∃ captured, Template.pathParameters path = .ok captured ∧ clash? captured none = none ∧
      PathSound path ∧ KeySound path key ∧ (Template.names path).Nodup ∧
      (plan s ⟨path, method, .bucket name key role⟩).result =
        .ok (bucketPlan s ⟨path, method, .bucket name key role⟩ name key role captured)) ∨
    ∃ e, BucketFault path key e ∧ plan s ⟨path, method, .bucket name key role⟩ = .fail e := by
  rcases path_cases path with ⟨captured, read, sound⟩ | ⟨e, fault, failed⟩
  · rw [plan_of_rooted sound.rooted]
    simp only [planBucket_eq, read]
    rcases checkKey_cases key read with ⟨checked, used⟩ | ⟨e, checked, fault⟩
    · have distinct := clash?_eq_none_iff_of_path (Template.kind_of_pathParameters read)
      rw [Template.names_of_pathParameters read] at distinct
      simp only [checked]
      cases clash : clash? captured none with
      | none => exact .inl ⟨captured, rfl, clash, sound, used, distinct.mp clash, rfl⟩
      | some found =>
        have repeats : ¬ (Template.names path).Nodup := by
          intro nodup
          cases clash.symm.trans (distinct.mpr nodup)
        exact .inr ⟨_, .repeated sound used repeats, rfl⟩
    · simp only [checked]
      exact .inr ⟨e, .key sound fault, rfl⟩
  · exact .inr ⟨e, .path fault, (failed s method).2 name key role⟩

theorem plan_bucket_succeeds_iff :
    (plan s ⟨path, method, .bucket name key role⟩).Succeeds ↔
      PathSound path ∧ KeySound path key ∧ (Template.names path).Nodup := by
  rcases plan_bucket_cases s path method name key role with
    ⟨captured, -, -, sound, used, distinct, planned⟩ | ⟨e, fault, failed⟩
  · exact iff_of_true ⟨_, planned⟩ ⟨sound, used, distinct⟩
  · rw [failed]
    exact iff_of_false (not_succeeds_fail e) fault.not_sound

/-- The settings enter the plan of a bucket route in two flags. -/
theorem plan_bucket_congr {s' : Settings} (authorizer : s'.authorizer = s.authorizer)
    (apiKeyRequired : s'.apiKeyRequired = s.apiKeyRequired) :
    plan s' ⟨path, method, .bucket name key role⟩ =
      plan s ⟨path, method, .bucket name key role⟩ := by
  have same : ∀ captured,
      bucketPlan s' ⟨path, method, .bucket name key role⟩ name key role captured =
        bucketPlan s ⟨path, method, .bucket name key role⟩ name key role captured := by
    intro captured
    simp only [bucketPlan, planned, Settings.authorization, authorizer, apiKeyRequired]
  unfold plan
  simp only [planBucket_eq, same]

/-- A bucket route is planned just if it meets all demands, and else it is refused for the first
that it misses. Its plan hands on what the path captures, and of the settings it reads the flags
only. -/
theorem plan_bucket :
    ((plan s ⟨path, method, .bucket name key role⟩).Succeeds ↔
      PathSound path ∧ KeySound path key ∧ (Template.names path).Nodup) ∧
    (∀ e, (plan s ⟨path, method, .bucket name key role⟩).result = .error e →
      BucketFault path key e) ∧
    (∀ p, (plan s ⟨path, method, .bucket name key role⟩).result = .ok p →
      ∃ i, p.integration = .service i ∧ i.mappings.HandsOn (Template.names path)) ∧
    ∀ s' : Settings, s'.authorizer = s.authorizer → s'.apiKeyRequired = s.apiKeyRequired →
      plan s' ⟨path, method, .bucket name key role⟩ =
        plan s ⟨path, method, .bucket name key role⟩ := by
  refine ⟨plan_bucket_succeeds_iff s path method name key role, ?_, ?_, ?_⟩
  · intro e h
    rcases plan_bucket_cases s path method name key role with
      ⟨captured, -, -, -, -, -, planned⟩ | ⟨e', fault, failed⟩
    · cases h.symm.trans planned
    · rw [failed] at h
      cases h
      exact fault
  · intro p h
    rcases plan_bucket_cases s path method name key role with
      ⟨captured, read, clash, -, -, -, planned⟩ | ⟨e, fault, failed⟩
    · cases h.symm.trans planned
      obtain ⟨distinct, -⟩ := (clash?_eq_none_iff captured none).mp clash
      exact ⟨_, rfl, assemble_handsOn read distinct⟩
    · rw [failed] at h
      cases h
  · intro s' authorizer apiKeyRequired
    exact plan_bucket_congr s path method name key role authorizer apiKeyRequired

end Bucket

end Route

end GatewayPlan
