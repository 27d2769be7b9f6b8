import GatewayPlan.Proofs.Mapping.Derivation
import GatewayPlan.Proofs.Parameter

/-!
# Mappings of relaxed parameters

No check for a clash asks whether the gateway insists on a parameter, and no reference or template
says so. Relaxing some parameters therefore changes nothing about which of them clash, only how the
error shows them, and nothing in a mapping set but the flags of these parameters.
-/

namespace GatewayPlan

open Mapping

def Clash.map (f : Parameter → Parameter) : Clash → Clash
  | shared p owner side key => .shared (f p) (f owner) side key
  | literal p header => .literal (f p) header
  | stated text => .stated text

/-- The same error after the parameters of the given names were relaxed. -/
def Error.relaxedIn (names : List String) : Error → Error
  | invariantViolation clash => .invariantViolation (clash.map (Parameter.relaxedIn names))
  | e => e

namespace Mapping

variable {f : Parameter → Parameter}

theorem comparableDeclared?_congr {p q : Parameter} (h : p.identity = q.identity) :
    comparableDeclared? p = comparableDeclared? q := by
  obtain ⟨kind, name⟩ := Prod.mk.inj h
  rw [comparableDeclared?, comparableDeclared?, Parameter.declaredKey?, Parameter.declaredKey?,
    kind, name]

theorem comparableTarget_congr {p q : Parameter} (h : p.identity = q.identity) :
    comparableTarget p = comparableTarget q := by
  obtain ⟨kind, name⟩ := Prod.mk.inj h
  rw [comparableTarget, comparableTarget, Parameter.targetKey, Parameter.targetKey, kind, name]

/-- A parameter and the owner of its key, both mapped. -/
def mapShared (f : Parameter → Parameter) (found : Parameter × Parameter × String) :
    Parameter × Parameter × String :=
  (f found.1, f found.2.1, found.2.2)

theorem lookup_map (owners : List (String × Parameter)) (key : String) :
    (owners.map (Prod.map id f)).lookup key = (owners.lookup key).map f := by
  induction owners with
  | nil => rfl
  | cons owner rest ih =>
    rw [List.map_cons, Prod.map, Keyed.lookup_cons_eq, ih, ← Prod.eta owner, Keyed.lookup_cons_eq]
    simp only [id]
    split <;> rfl

/-- A scan by keys that `f` keeps finds the same two positions, whatever was scanned before. -/
theorem firstShared?_map (key? : Parameter → Option String) (same : ∀ p, key? (f p) = key? p)
    (owners : List (String × Parameter)) (ps : List Parameter) :
    firstShared? key? (owners.map (Prod.map id f)) (ps.map f) =
      (firstShared? key? owners ps).map (mapShared f) := by
  induction ps generalizing owners with
  | nil => rfl
  | cons p rest ih =>
    rw [List.map_cons]
    cases own : key? p with
    | none => simpa [firstShared?, same, own] using ih owners
    | some key =>
      cases taken : owners.lookup key with
      | some owner => simp [firstShared?, same, own, lookup_map, taken, mapShared]
      | none => simpa [firstShared?, same, own, lookup_map, taken] using ih ((key, p) :: owners)

theorem clash?_map (same : ∀ p, (f p).identity = p.identity) (ps : List Parameter)
    (literal : Option LiteralHeader) :
    clash? (ps.map f) literal = (clash? ps literal).map (Clash.map f) := by
  have declared := firstShared?_map comparableDeclared?
    (fun p => comparableDeclared?_congr (same p)) [] ps
  have target := firstShared?_map (fun p => some (comparableTarget p))
    (fun p => congrArg some (comparableTarget_congr (same p))) [] ps
  have hits : ∀ l, hitsLiteral l ∘ f = hitsLiteral l := by
    intro l
    funext p
    rw [Function.comp_apply, hitsLiteral, hitsLiteral, comparableTarget_congr (same p)]
  rw [List.map_nil] at declared target
  unfold clash?
  rw [declared, target]
  cases firstShared? comparableDeclared? [] ps with
  | some found => rfl
  | none =>
    cases firstShared? (fun p => some (comparableTarget p)) [] ps with
    | some found => rfl
    | none =>
      cases literal with
      | none => rfl
      | some l =>
        simp only [Option.map_none, Option.bind_some, List.find?_map, hits, Option.map_map]
        rfl

theorem clash?_relaxedIn (names : List String) (ps : List Parameter)
    (literal : Option LiteralHeader) :
    clash? (ps.map (Parameter.relaxedIn names)) literal =
      (clash? ps literal).map (Clash.map (Parameter.relaxedIn names)) :=
  clash?_map (Parameter.identity_relaxedIn names) ps literal

/-! ### Mapping sets -/

section

variable (same : ∀ p, (f p).identity = p.identity) (ps : List Parameter)
include same

theorem identities_map : (ps.map f).map Parameter.identity = ps.map Parameter.identity := by
  rw [List.map_map]
  apply List.map_congr_left
  intro p _
  exact same p

theorem plain_map : plain (ps.map f) = (plain ps).map f := by
  unfold plain
  rw [List.filter_map]
  congr 2
  funext p
  simp only [Function.comp_apply, Parameter.isContext_congr (same p)]

theorem contextNames_map : contextNames (ps.map f) = contextNames ps := by
  have kinds : Parameter.isContext ∘ f = Parameter.isContext := by
    funext p
    exact Parameter.isContext_congr (same p)
  rw [contextNames, List.filter_map, kinds, List.map_map, contextNames]
  apply List.map_congr_left
  intro p _
  exact (Prod.mk.inj (same p)).2

theorem templates_map : templates (ps.map f) = templates ps := by
  rw [templates, contextNames_map same, templates]

theorem forwarded_map : forwarded (ps.map f) = forwarded ps := by
  apply forwarded_congr
  intro i
  rw [identities_map same]

theorem backend_assemble_map (literal : Option LiteralHeader) :
    (assemble (ps.map f) literal).backend = (assemble ps literal).backend := by
  cases literal with
  | none => exact forwarded_map same ps
  | some l => exact congrArg (·.insert l.key (constant l.value)) (forwarded_map same ps)

theorem keys_accepted_map : (accepted (ps.map f)).keys = (accepted ps).keys := by
  apply Keyed.keys_eq_of_mem_iff
  intro reference
  rw [mem_keys_accepted, mem_keys_accepted, plain_map same]
  constructor
  · intro ⟨q, mem, declared⟩
    obtain ⟨p, hp, rfl⟩ := List.mem_map.mp mem
    exact ⟨p, hp, (Parameter.declaredReference_congr (same p)).symm.trans declared⟩
  · intro ⟨p, mem, declared⟩
    exact ⟨f p, List.mem_map_of_mem mem,
      (Parameter.declaredReference_congr (same p)).trans declared⟩

theorem report_assemble_map (literal : Option LiteralHeader) :
    report (ps.map f) (assemble (ps.map f) literal) = report ps (assemble ps literal) := by
  have size : (accepted (ps.map f)).size = (accepted ps).size := by
    simpa [Keyed.keys, Keyed.size] using congrArg List.length (keys_accepted_map same ps)
  simp only [report, accepted_assemble, templates_assemble, List.length_map, size,
    backend_assemble_map same, templates_map same]

end

/-- Where no two parameters share a reference, each has its own word on being required. -/
theorem get?_accepted_of_distinct {ps : List Parameter} (distinct : Distinct ps) {p : Parameter}
    (mem : p ∈ plain ps) : (accepted ps).get? p.declaredReference = some p.required := by
  apply Keyed.get?_eq_some_iff.mpr
  apply (accepted_perm distinct).mem_iff.mpr
  exact List.mem_map_of_mem mem

end Mapping

/-- What a mapping set is once parameters of its list were relaxed by name: each accepted reference
has one owner, and the flag of those with a relaxed one is all that changes. -/
structure MappingSet.Relaxes (ps : List Parameter) (names : List String)
    (set relaxed : MappingSet) : Prop where
  backend : relaxed.backend = set.backend
  templates : relaxed.templates = set.templates
  keys : relaxed.accepted.keys = set.accepted.keys
  owned : ∀ reference ∈ set.accepted.keys, ∃! p, p ∈ plain ps ∧ p.declaredReference = reference
  required : ∀ p ∈ plain ps, relaxed.accepted.get? p.declaredReference =
    if p.name ∈ names then some false else set.accepted.get? p.declaredReference

namespace Mapping

open Parameter

variable {ps : List Parameter} {literal : Option LiteralHeader} (names : List String)

theorem assemble_relaxes (free : clash? ps literal = none) :
    (assemble ps literal).Relaxes ps names (assemble (ps.map (relaxedIn names)) literal) := by
  have same := identity_relaxedIn names
  have distinct := ((clash?_eq_none_iff ps literal).mp free).1
  have freed : clash? (ps.map (relaxedIn names)) literal = none := by
    rw [clash?_relaxedIn, free, Option.map_none]
  have distinct' := ((clash?_eq_none_iff _ literal).mp freed).1
  refine ⟨backend_assemble_map same ps literal, ?_, ?_, ?_, ?_⟩
  · rw [templates_assemble, templates_assemble, templates_map same]
  · rw [accepted_assemble, accepted_assemble, keys_accepted_map same]
  · intro reference mem
    rw [accepted_assemble] at mem
    obtain ⟨p, hp, declared⟩ := mem_keys_accepted.mp mem
    refine ⟨p, ⟨hp, declared⟩, ?_⟩
    intro q ⟨hq, other⟩
    have shared := other.trans declared.symm
    exact List.inj_on_of_nodup_map distinct.nodup_declaredReference hq hp shared
  · intro p mem
    have own : p.relaxedIn names ∈ plain (ps.map (relaxedIn names)) := by
      rw [plain_map same]
      exact List.mem_map_of_mem mem
    have flag := get?_accepted_of_distinct distinct' own
    rw [declaredReference_congr (same p), required_relaxedIn] at flag
    rw [accepted_assemble, accepted_assemble, flag, get?_accepted_of_distinct distinct mem]
    by_cases named : p.name ∈ names
    · simp [named]
    · simp [named]

theorem compile_relaxedIn (ps : List Parameter) (literal : Option LiteralHeader) :
    compile (ps.map (relaxedIn names)) literal = match clash? ps literal with
      | some clash => .fail (.invariantViolation (clash.map (relaxedIn names)))
      | none => ⟨[report ps (assemble ps literal)],
          .ok (assemble (ps.map (relaxedIn names)) literal)⟩ := by
  rw [compile_eq, clash?_relaxedIn, report_assemble_map (identity_relaxedIn names)]
  cases clash? ps literal with
  | some clash => rfl
  | none => rfl

/-- Relaxing by name fails at the first name that no parameter has. Else it leaves the list as it is
but for the flags of the parameters with one of the names, of whatever kind they are. The relaxed
list compiles just if the other does, and tells the log the same. The mapping sets differ in the
flags of these parameters alone, and an error shows them as relaxed. Relaxing once more by the same
names, in any order and number, changes nothing. -/
theorem relaxNamed_changes_flags (ps : List Parameter) (names : List String) :
    (∀ name, relaxNamed ps names = .error name ↔ ∃ before after,
      names = before ++ name :: after ∧ (∀ p ∈ ps, p.name ≠ name) ∧
        ∀ other ∈ before, ∃ p ∈ ps, p.name = other) ∧
    ((∃ qs, relaxNamed ps names = .ok qs) ↔ ∀ name ∈ names, ∃ p ∈ ps, p.name = name) ∧
    ∀ qs, relaxNamed ps names = .ok qs →
      List.Forall₂ (fun p q => q.kind = p.kind ∧ q.name = p.name ∧
        (q.required = false ↔ p.required = false ∨ p.name ∈ names)) ps qs ∧
      (∀ literal, ((compile qs literal).Succeeds ↔ (compile ps literal).Succeeds) ∧
        (compile qs literal).log = (compile ps literal).log ∧
        (∀ set, (compile ps literal).result = .ok set → ∃ relaxed,
          (compile qs literal).result = .ok relaxed ∧ set.Relaxes ps names relaxed) ∧
        ∀ e, (compile ps literal).result = .error e →
          (compile qs literal).result = .error (e.relaxedIn names)) ∧
      relaxNamed qs names = .ok qs ∧
      ∀ others, (∀ name, name ∈ others ↔ name ∈ names) → relaxNamed ps others = .ok qs := by
  refine ⟨fun _ => relaxNamed_eq_error_iff, ?_, ?_⟩
  · constructor
    · intro ⟨qs, relaxed⟩
      exact (relaxNamed_eq_ok_iff.mp relaxed).1
    · intro known
      exact ⟨_, relaxNamed_eq_ok_iff.mpr ⟨known, rfl⟩⟩
  · intro qs relaxed
    refine ⟨?_, ?_, relaxNamed_of_relaxed relaxed,
      fun others same => relaxNamed_of_same_names same relaxed⟩
    · obtain ⟨-, rfl⟩ := relaxNamed_eq_ok_iff.mp relaxed
      apply List.forall₂_map_right_iff.mpr
      apply List.forall₂_same.mpr
      intro p _
      obtain ⟨kind, name⟩ := Prod.mk.inj (identity_relaxedIn names p)
      refine ⟨kind, name, ?_⟩
      rw [required_relaxedIn]
      by_cases named : p.name ∈ names
      · simp [named]
      · simp [named]
    · intro literal
      obtain ⟨-, rfl⟩ := relaxNamed_eq_ok_iff.mp relaxed
      rw [succeeds_iff_clash?_eq_none, succeeds_iff_clash?_eq_none, clash?_relaxedIn,
        Option.map_eq_none_iff, compile_relaxedIn, compile_eq]
      cases clash : clash? ps literal with
      | some found =>
        refine ⟨Iff.rfl, rfl, nofun, ?_⟩
        intro e failed
        cases failed
        rfl
      | none =>
        refine ⟨Iff.rfl, rfl, ?_, nofun⟩
        intro set compiled
        cases compiled
        exact ⟨_, rfl, assemble_relaxes names clash⟩

/-- A name relaxes the placeholder and the query parameter that have it. -/
theorem relaxNamed_changes_flags_across_kinds :
    let id : Parameter := ⟨.path, "id", true, rfl⟩
    let tag : Parameter := ⟨.header, "tag", true, rfl⟩
    let filter : Parameter := ⟨.query, "id", true, rfl⟩
    let ps := [id, tag, filter]
    let qs := [id.relaxed, tag, filter.relaxed]
    let set := assemble ps (some (.apiKey "k"))
    relaxNamed ps ["id"] = .ok qs ∧ (compile ps (some (.apiKey "k"))).result = .ok set ∧
      (∃ relaxed, (compile qs (some (.apiKey "k"))).result = .ok relaxed ∧
        set.Relaxes ps ["id"] relaxed) ∧
      relaxNamed qs ["id"] = .ok qs ∧ relaxNamed ps ["id", "id"] = .ok qs := by
  intro id tag filter ps qs set
  have relaxed : relaxNamed ps ["id"] = .ok qs := by decide +kernel
  have compiled : (compile ps (some (.apiKey "k"))).result = .ok set := by decide +kernel
  obtain ⟨-, -, each⟩ := relaxNamed_changes_flags ps ["id"]
  obtain ⟨-, alike, again, others⟩ := each qs relaxed
  obtain ⟨-, -, sets, -⟩ := alike (some (.apiKey "k"))
  exact ⟨relaxed, compiled, sets set compiled, again, others ["id", "id"] (by simp)⟩

end Mapping

end GatewayPlan
