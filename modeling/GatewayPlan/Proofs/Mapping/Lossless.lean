import GatewayPlan.Parameter.Catalog
import GatewayPlan.Proofs.Mapping.Distinct

/-!
# Lossless mapping sets

Maps keep the last value that is written under a key. In a mapping set that was compiled no key is
written twice: each parameter with references of its own has one entry on either side, and the
literal header has one besides.
-/

namespace GatewayPlan

open Mapping

namespace Parameter

/-- The reference under which the method request declares a parameter. -/
def declaredReference (p : Parameter) : String :=
  key methodRequest p.kind.declared.tag p.name

/-- The reference under which a mapping writes a parameter to the integration request. -/
def forwardedReference (p : Parameter) : String :=
  key integrationRequest p.kind.tag p.name

/-- The header that a parameter is written to upstream, by its mapping or by the template. -/
def upstreamHeader? (p : Parameter) : Option String :=
  match p.kind with
  | .header => some p.name
  | .context => some (contextHeader p.name)
  | _ => none

theorem targetPlace_of_plain {p : Parameter} (h : p.isContext = false) :
    p.targetPlace = (p.kind, p.name) := by
  unfold targetPlace
  cases kind : p.kind with
  | context => exact absurd kind ((isContext_eq_false_iff p).mp h)
  | _ => rfl

end Parameter

/-- What a mapping set owes to the parameters and the literal it was compiled from: one entry on
either side for each parameter that has references, one besides for the literal, and the one
template. -/
structure MappingSet.Lossless (ps : List Parameter) (l : LiteralHeader) (set : MappingSet) :
    Prop where
  accepted : set.accepted.entries.Perm
    ((plain ps).map fun p => (p.declaredReference, p.required))
  accepted_size : set.accepted.size = (plain ps).length
  backend : set.backend.entries.Perm ((l.key, constant l.value) ::
    (plain ps).map fun p => (p.forwardedReference, p.declaredReference))
  backend_size : set.backend.size = (plain ps).length + 1
  reads_accepted : ∀ e ∈ set.backend.entries, e.1 ≠ l.key → e.2 ∈ set.accepted.keys
  read_once : ∀ reference ∈ set.accepted.keys, ∃! e, e ∈ set.backend.entries ∧ e.2 = reference
  headers : ((l.header :: ps.filterMap Parameter.upstreamHeader?).map folded).Nodup
  templates : set.templates.isSome = ps.any Parameter.isContext

namespace Mapping

open Parameter

variable {ps : List Parameter} {l : LiteralHeader}

theorem accepted_assemble (ps : List Parameter) (literal : Option LiteralHeader) :
    (assemble ps literal).accepted = accepted ps := by
  cases literal <;> rfl

theorem templates_assemble (ps : List Parameter) (literal : Option LiteralHeader) :
    (assemble ps literal).templates = templates ps := by
  cases literal <;> rfl

theorem accepted_eq (ps : List Parameter) :
    accepted ps = .ofList ((plain ps).map fun p => (p.declaredReference, p.required)) := by
  unfold accepted
  congr 1
  rw [← filterMap_plain]
  congr 1
  funext p
  rw [declaredKey?_eq]
  split <;> rfl

theorem forwarded_eq (ps : List Parameter) : forwarded ps =
    .ofList ((plain ps).map fun p => (p.forwardedReference, p.declaredReference)) := by
  unfold forwarded
  congr 1
  rw [← filterMap_plain]
  congr 1
  funext p
  rw [declaredKey?_eq, forwardedKey?_eq]
  split
  · rfl
  · rename_i own
    rw [targetPlace_of_plain (Bool.eq_false_iff.mpr own)]
    rfl

theorem mem_keys_accepted {reference : String} :
    reference ∈ (accepted ps).keys ↔ ∃ p ∈ plain ps, p.declaredReference = reference := by
  rw [accepted_eq, Keyed.mem_keys_ofList, List.map_map]
  exact List.mem_map

theorem mem_keys_forwarded {reference : String} :
    reference ∈ (forwarded ps).keys ↔ ∃ p ∈ plain ps, p.forwardedReference = reference := by
  rw [forwarded_eq, Keyed.mem_keys_ofList, List.map_map]
  exact List.mem_map

theorem Distinct.nodup_declaredReference (h : Distinct ps) :
    ((plain ps).map declaredReference).Nodup := by
  have places : ((plain ps).map declaredPlace).Nodup := by
    apply List.Nodup.of_map Place.folded
    rw [List.map_map]
    exact h.declared
  have references := places.map (Place.reference_injective methodRequest)
  rwa [List.map_map] at references

theorem Distinct.nodup_forwardedReference (h : Distinct ps) :
    ((plain ps).map forwardedReference).Nodup := by
  have places : ((plain ps).map targetPlace).Nodup := by
    apply List.Nodup.of_map Place.folded
    have part : (plain ps).Sublist ps := List.filter_sublist
    rw [List.map_map]
    exact h.target.sublist (part.map fun p => p.targetPlace.folded)
  have references := places.map (Place.reference_injective integrationRequest)
  rw [List.map_map] at references
  have same : ∀ p ∈ plain ps,
      (Place.reference integrationRequest ∘ targetPlace) p = p.forwardedReference := by
    intro p hp
    simp only [Function.comp_apply, targetPlace_of_plain (mem_plain.mp hp).2]
    rfl
  rwa [List.map_congr_left same] at references

theorem accepted_perm (h : Distinct ps) : (accepted ps).entries.Perm
    ((plain ps).map fun p => (p.declaredReference, p.required)) := by
  rw [accepted_eq]
  apply Keyed.ofList_perm
  rw [List.map_map]
  exact h.nodup_declaredReference

theorem forwarded_perm (h : Distinct ps) : (forwarded ps).entries.Perm
    ((plain ps).map fun p => (p.forwardedReference, p.declaredReference)) := by
  rw [forwarded_eq]
  apply Keyed.ofList_perm
  rw [List.map_map]
  exact h.nodup_forwardedReference

/-- A parameter whose reference is the literal's, letter for letter, hits the literal. -/
theorem literal_notMem_forwarded (free : ∀ p ∈ ps, ¬ p.Hits l) :
    l.key ∉ (forwarded ps).keys := by
  intro mem
  obtain ⟨p, hp, reference⟩ := mem_keys_forwarded.mp mem
  have place : (p.kind, p.name) = ((.header, l.header) : Place) :=
    Place.reference_injective integrationRequest reference
  obtain ⟨kind, name⟩ := Prod.mk.inj place
  exact free p (mem_plain.mp hp).1 (.header kind (congrArg folded name))

theorem backend_perm (h : Distinct ps) (free : ∀ p ∈ ps, ¬ p.Hits l) :
    (backend ps l).entries.Perm ((l.key, constant l.value) ::
      (plain ps).map fun p => (p.forwardedReference, p.declaredReference)) :=
  (Keyed.insert_perm _ (literal_notMem_forwarded free)).trans ((forwarded_perm h).cons _)

theorem overrideWarnings_eq_nil (free : ∀ p ∈ ps, ¬ p.Hits l) :
    overrideWarnings ps l = [] := by
  rw [overrideWarnings, Keyed.get?_eq_none_iff.mpr (literal_notMem_forwarded free)]

/-- What the log is told of a mapping set. -/
def report (ps : List Parameter) (set : MappingSet) : Event :=
  .compiled ps.length set.accepted.size set.backend.size set.templates.isSome

/-- Compiling refuses a clash and else assembles the set. It never tells of an overridden header:
a literal that would override one was refused. -/
theorem compile_eq (ps : List Parameter) (literal : Option LiteralHeader) :
    compile ps literal = match clash? ps literal with
      | some clash => .fail (.invariantViolation clash)
      | none => ⟨[report ps (assemble ps literal)], .ok (assemble ps literal)⟩ := by
  cases h : clash? ps literal with
  | some clash => exact compile_of_clash h
  | none =>
    obtain ⟨distinct, free⟩ := (clash?_eq_none_iff ps literal).mp h
    cases literal with
    | none => simp only [compile, h, List.nil_append, report]
    | some l =>
      simp only [compile, h, report,
        overrideWarnings_eq_nil (free l rfl), List.nil_append]

theorem compile_ok_iff {ps : List Parameter} {literal : Option LiteralHeader}
    {set : MappingSet} : (compile ps literal).result = .ok set ↔
      clash? ps literal = none ∧ assemble ps literal = set := by
  rw [compile_eq]
  cases clash? ps literal with
  | some clash => simp [Logged.fail]
  | none => simp

theorem reads_accepted (h : Distinct ps) (free : ∀ p ∈ ps, ¬ p.Hits l) {e : String × String}
    (mem : e ∈ (backend ps l).entries) (other : e.1 ≠ l.key) : e.2 ∈ (accepted ps).keys := by
  rcases List.mem_cons.mp ((backend_perm h free).mem_iff.mp mem) with literal | forwarded
  · exact absurd (congrArg Prod.fst literal) other
  · obtain ⟨p, hp, rfl⟩ := List.mem_map.mp forwarded
    exact mem_keys_accepted.mpr ⟨p, hp, rfl⟩

theorem constant_ne_declaredReference (value : String) (p : Parameter) :
    constant value ≠ p.declaredReference := by
  intro h
  have heads := congrArg (fun s => s.toList.head?) h
  simp [constant, declaredReference, key, methodRequest] at heads

theorem read_once (h : Distinct ps) (free : ∀ p ∈ ps, ¬ p.Hits l) {reference : String}
    (declared : reference ∈ (accepted ps).keys) :
    ∃! e, e ∈ (backend ps l).entries ∧ e.2 = reference := by
  have backend := backend_perm h free
  obtain ⟨p, hp, rfl⟩ := mem_keys_accepted.mp declared
  refine ⟨(p.forwardedReference, p.declaredReference), ⟨?_, rfl⟩, ?_⟩
  · exact backend.mem_iff.mpr (List.mem_cons_of_mem _ (List.mem_map_of_mem hp))
  · rintro e ⟨mem, value⟩
    rcases List.mem_cons.mp (backend.mem_iff.mp mem) with literal | forwarded
    · rw [literal] at value
      exact absurd value (constant_ne_declaredReference l.value p)
    · obtain ⟨q, hq, rfl⟩ := List.mem_map.mp forwarded
      rw [List.inj_on_of_nodup_map h.nodup_declaredReference hq hp value]

theorem folded_targetPlace_of_upstreamHeader? {p : Parameter} {header : String}
    (own : p.upstreamHeader? = some header) :
    p.targetPlace.folded = (.header, folded header) := by
  unfold upstreamHeader? at own
  cases kind : p.kind <;> simp only [kind, Option.some.injEq, reduceCtorEq] at own
  case header => rw [folded_targetPlace_of_header kind, own]
  case context => rw [folded_targetPlace_of_context kind, own]

theorem nodup_upstreamHeaders (h : Distinct ps) (free : ∀ p ∈ ps, ¬ p.Hits l) :
    ((l.header :: ps.filterMap upstreamHeader?).map folded).Nodup := by
  rw [List.map_cons, List.nodup_cons]
  constructor
  · intro mem
    obtain ⟨header, written, same⟩ := List.mem_map.mp mem
    obtain ⟨p, hp, own⟩ := List.mem_filterMap.mp written
    apply free p hp
    rw [hits_iff, hitsLiteral_iff, folded_targetPlace_of_upstreamHeader? own, same]
  · have target := h.target
    rw [List.Nodup, List.pairwise_map] at target
    rw [List.Nodup, List.pairwise_map, List.pairwise_filterMap]
    refine target.imp ?_
    intro p q apart a own b other same
    rw [folded_targetPlace_of_upstreamHeader? own, folded_targetPlace_of_upstreamHeader? other,
      same] at apart
    exact apart rfl

theorem templates_isSome (ps : List Parameter) :
    (templates ps).isSome = ps.any Parameter.isContext := by
  have names : contextNames ps = [] ↔ ps.any Parameter.isContext = false := by
    simp [contextNames]
  unfold templates
  split
  · rename_i none
    exact (names.mp none).symm
  · rename_i some
    cases found : ps.any Parameter.isContext with
    | true => rfl
    | false => exact absurd (names.mpr found) some

/-- Parameters of a path ask for no template. -/
theorem templates_eq_none_of_path (h : ∀ p ∈ ps, p.kind = .path) :
    templates ps = none := by
  have some := templates_isSome ps
  rw [List.any_eq_false.mpr fun p hp => by simp [Parameter.isContext, h p hp]] at some
  exact Option.isSome_eq_false_iff.mp some |> Option.isNone_iff_eq_none.mp

theorem assemble_lossless (h : Distinct ps) (free : ∀ p ∈ ps, ¬ p.Hits l) :
    (assemble ps (some l)).Lossless ps l where
  accepted := accepted_perm h
  accepted_size := (accepted_perm h).length_eq.trans (List.length_map _)
  backend := backend_perm h free
  backend_size := (backend_perm h free).length_eq.trans (congrArg Nat.succ (List.length_map _))
  reads_accepted _ mem other := reads_accepted h free mem other
  read_once _ declared := read_once h free declared
  headers := nodup_upstreamHeaders h free
  templates := templates_isSome ps

/-- Nothing is lost, merged or overwritten in a mapping set that was compiled, and the log is told
of the set and of nothing else. -/
theorem compile_lossless {set : MappingSet}
    (h : (compile ps (some l)).result = .ok set) :
    set.Lossless ps l ∧ (compile ps (some l)).log = [report ps set] := by
  rw [compile_eq] at h ⊢
  cases clash : clash? ps (some l) with
  | some c =>
    rw [clash] at h
    cases h
  | none =>
    rw [clash] at h
    obtain ⟨distinct, free⟩ := (clash?_eq_none_iff ps (some l)).mp clash
    cases h
    exact ⟨assemble_lossless distinct (free l rfl), rfl⟩

theorem compile_lossless_tags :
    let tags : Parameter := ⟨.multiValueQuery, "tags", true, by decide +kernel⟩
    let set : MappingSet :=
      ⟨.ofList [("method.request.querystring.tags", true)],
        .ofList [("integration.request.multivaluequerystring.tags",
            "method.request.querystring.tags"),
          ("integration.request.header.X-API-Key", "'k'")],
        some (.ofList [("application/json", script ["username"])])⟩
    (compile [tags, username] (some (.apiKey "k"))).result = .ok set ∧
      set.Lossless [tags, username] (.apiKey "k") ∧
      (compile [tags, username] (some (.apiKey "k"))).log = [report [tags, username] set] := by
  intro tags set
  have h : (compile [tags, username] (some (.apiKey "k"))).result = .ok set := by decide +kernel
  exact ⟨h, compile_lossless h⟩

end Mapping

end GatewayPlan
