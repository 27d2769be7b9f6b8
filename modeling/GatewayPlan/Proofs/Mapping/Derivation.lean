import GatewayPlan.Parameter.Dedupe
import GatewayPlan.Proofs.Mapping.Lossless

/-!
# Mappings of any list

References are derived from a list whether or not its parameters clash. Where two are declared under
one reference, the last one says whether it is required. What is forwarded is told by the plain
identities of the list alone, since two parameters that are written under one reference read one
reference, too. The literal takes the place of a header of just its name.
-/

namespace GatewayPlan

open Mapping

namespace Parameter

variable {p q : Parameter}

theorem forwardedReference_eq_iff :
    p.forwardedReference = q.forwardedReference ↔ p.identity = q.identity :=
  (Place.reference_injective integrationRequest).eq_iff (a := p.identity) (b := q.identity)

theorem declaredReference_eq_iff : p.declaredReference = q.declaredReference ↔
    p.kind.declared = q.kind.declared ∧ p.name = q.name := by
  rw [← Prod.mk.injEq]
  exact (Place.reference_injective methodRequest).eq_iff (a := p.declaredPlace)
    (b := q.declaredPlace)

theorem isContext_congr (same : p.identity = q.identity) : p.isContext = q.isContext := by
  rw [isContext, isContext, (Prod.mk.inj same).1]

theorem declaredReference_congr (same : p.identity = q.identity) :
    p.declaredReference = q.declaredReference := by
  obtain ⟨kind, name⟩ := Prod.mk.inj same
  rw [declaredReference, declaredReference, kind, name]

end Parameter

namespace Mapping

open Parameter

variable {ps qs : List Parameter} {l : LiteralHeader} {reference value : String}

theorem mem_identities_plain_iff {i : Identity} :
    i ∈ (plain ps).map identity ↔ i ∈ ps.map identity ∧ i.1 ≠ .context := by
  simp only [List.mem_map, mem_plain, isContext_eq_false_iff]
  constructor
  · intro ⟨p, ⟨mem, own⟩, same⟩
    exact ⟨⟨p, mem, same⟩, same ▸ own⟩
  · intro ⟨⟨p, mem, same⟩, own⟩
    subst same
    exact ⟨p, ⟨mem, own⟩, rfl⟩

/-! ### What is accepted -/

theorem get?_accepted_eq_some_iff {required : Bool} :
    (accepted ps).get? reference = some required ↔ ∃ before p after,
      plain ps = before ++ p :: after ∧ p.declaredReference = reference ∧
        p.required = required ∧ ∀ q ∈ after, q.declaredReference ≠ reference := by
  rw [accepted_eq, Keyed.get?_ofList_eq_some_iff]
  constructor
  · intro ⟨before, after, cut, last⟩
    obtain ⟨front, rest, split, -, tail⟩ := List.map_eq_append_iff.mp cut
    obtain ⟨p, back, rfl, own, rfl⟩ := List.map_eq_cons_iff.mp tail
    obtain ⟨declared, flag⟩ := Prod.mk.inj own
    refine ⟨front, p, back, split, declared, flag, ?_⟩
    intro q mem
    exact last _ (List.mem_map_of_mem mem)
  · intro ⟨before, p, after, cut, declared, flag, last⟩
    refine ⟨before.map fun p => (p.declaredReference, p.required),
      after.map fun p => (p.declaredReference, p.required), ?_, List.forall_mem_map.mpr last⟩
    rw [cut, List.map_append, List.map_cons, declared, flag]

/-! ### What is forwarded -/

theorem get?_forwarded_eq_some_iff : (forwarded ps).get? reference = some value ↔
    ∃ p ∈ plain ps, p.forwardedReference = reference ∧ p.declaredReference = value := by
  rw [forwarded_eq, Keyed.get?_ofList_eq_some_iff_of_agree]
  · simp only [List.mem_map, Prod.mk.injEq]
  · intro d hd e he same
    obtain ⟨p, -, rfl⟩ := List.mem_map.mp hd
    obtain ⟨q, -, rfl⟩ := List.mem_map.mp he
    exact declaredReference_congr (forwardedReference_eq_iff.mp same)

/-- A reference is written for each plain identity, and tells it. -/
theorem reference_mem_keys_forwarded_iff {i : Identity} :
    Place.reference integrationRequest i ∈ (forwarded ps).keys ↔
      i ∈ (plain ps).map identity := by
  rw [mem_keys_forwarded, List.mem_map]
  apply exists_congr
  intro p
  exact and_congr_right fun _ => (Place.reference_injective integrationRequest).eq_iff
    (a := p.identity)

theorem get?_forwarded_of_identities
    (known : ∀ i ∈ (plain ps).map identity, i ∈ (plain qs).map identity)
    (read : (forwarded ps).get? reference = some value) :
    (forwarded qs).get? reference = some value := by
  obtain ⟨p, mem, rfl, rfl⟩ := get?_forwarded_eq_some_iff.mp read
  obtain ⟨q, other, same⟩ := List.mem_map.mp (known _ (List.mem_map_of_mem mem))
  apply get?_forwarded_eq_some_iff.mpr
  exact ⟨q, other, forwardedReference_eq_iff.mpr same, declaredReference_congr same⟩

theorem forwarded_eq_iff : forwarded ps = forwarded qs ↔
    ∀ i, i ∈ (plain ps).map identity ↔ i ∈ (plain qs).map identity := by
  constructor
  · intro same i
    rw [← reference_mem_keys_forwarded_iff, same, reference_mem_keys_forwarded_iff]
  · intro same
    apply Keyed.eq_of_get?
    intro reference
    apply Option.ext
    intro value
    exact ⟨get?_forwarded_of_identities fun i => (same i).mp,
      get?_forwarded_of_identities fun i => (same i).mpr⟩

theorem forwarded_congr (same : ∀ i, i ∈ ps.map identity ↔ i ∈ qs.map identity) :
    forwarded ps = forwarded qs := by
  apply forwarded_eq_iff.mpr
  intro i
  rw [mem_identities_plain_iff, mem_identities_plain_iff, same]

theorem mem_values_forwarded_iff :
    (∃ reference, (forwarded ps).get? reference = some value) ↔ value ∈ (accepted ps).keys := by
  simp only [get?_forwarded_eq_some_iff, mem_keys_accepted]
  constructor
  · intro ⟨_, p, mem, _, declared⟩
    exact ⟨p, mem, declared⟩
  · intro ⟨p, mem, declared⟩
    exact ⟨_, p, mem, rfl, declared⟩

/-! ### The literal -/

/-- No other kind of parameter is written under the key of the literal, and no other spelling of its
header. -/
theorem get?_forwarded_literal (ps : List Parameter) (l : LiteralHeader) :
    (forwarded ps).get? l.key = if (.header, l.header) ∈ ps.map identity then
      some (key methodRequest "header" l.header) else none := by
  have plainly : (.header, l.header) ∈ (plain ps).map identity ↔
      (.header, l.header) ∈ ps.map identity := by simp [mem_identities_plain_iff]
  by_cases mem : (.header, l.header) ∈ ps.map identity
  · rw [if_pos mem]
    obtain ⟨p, hp, same⟩ := List.mem_map.mp (plainly.mpr mem)
    obtain ⟨kind, name⟩ := Prod.mk.inj same
    apply get?_forwarded_eq_some_iff.mpr
    refine ⟨p, hp, ?_, ?_⟩
    · rw [forwardedReference, kind, name]
      rfl
    · rw [declaredReference, kind, name]
      rfl
  · rw [if_neg mem]
    apply Keyed.get?_eq_none_iff.mpr
    intro written
    exact mem (plainly.mp (reference_mem_keys_forwarded_iff.mp written))

/-- What the log is told where the literal takes the place of a header. -/
def overriding (l : LiteralHeader) : Event :=
  .overridden l.key (key methodRequest "header" l.header)

theorem overrideWarnings_eq (ps : List Parameter) (l : LiteralHeader) : overrideWarnings ps l =
    if (.header, l.header) ∈ ps.map identity then [overriding l] else [] := by
  unfold overrideWarnings
  rw [get?_forwarded_literal]
  by_cases mem : (.header, l.header) ∈ ps.map identity
  · rw [if_pos mem, if_pos mem]
    rfl
  · rw [if_neg mem, if_neg mem]

/-- The mappings of any list, clashes or not. Just the references of the plain parameters are
accepted, each as required as the last parameter says that is declared under it. Just their
references on the integration request are forwarded, each reading the one that its parameter is
declared under, and all that is accepted is read. This map tells the plain identities of the list
and nothing else, so neither repeats nor the order of the list matter. The literal header changes
what stands under its own key, and the log is warned if that was a header of just this name. -/
theorem mappings_of_any_list (ps : List Parameter) :
    ((∀ reference, reference ∈ (accepted ps).keys ↔
        ∃ p ∈ plain ps, p.declaredReference = reference) ∧
      (∀ reference required, (accepted ps).get? reference = some required ↔
        ∃ before p after, plain ps = before ++ p :: after ∧ p.declaredReference = reference ∧
          p.required = required ∧ ∀ q ∈ after, q.declaredReference ≠ reference) ∧
      ∀ p q : Parameter, p.declaredReference = q.declaredReference ↔
        p.kind.declared = q.kind.declared ∧ p.name = q.name) ∧
    ((∀ reference value, (forwarded ps).get? reference = some value ↔
        ∃ p ∈ plain ps, p.forwardedReference = reference ∧ p.declaredReference = value) ∧
      (∀ p q : Parameter, p.forwardedReference = q.forwardedReference →
        p.declaredReference = q.declaredReference) ∧
      (∀ qs, forwarded qs = forwarded ps ↔
        ∀ i, i ∈ (plain qs).map identity ↔ i ∈ (plain ps).map identity) ∧
      forwarded (dedupe ps) = forwarded ps ∧
      (∀ qs, qs.Perm ps → forwarded qs = forwarded ps) ∧
      ∀ value, (∃ reference, (forwarded ps).get? reference = some value) ↔
        value ∈ (accepted ps).keys) ∧
    ∀ l : LiteralHeader,
      (∀ reference, (backend ps l).get? reference = if reference = headerKey l.header then
        some ("'" ++ l.value ++ "'") else (forwarded ps).get? reference) ∧
      overrideWarnings ps l =
        (if (.header, l.header) ∈ ps.map identity then [overriding l] else []) ∧
      (overriding l).level = .warn ∧
      (overriding l).message = "Literal header " ++ headerKey l.header ++
        " replaces mapping from " ++ key methodRequest "header" l.header := by
  refine ⟨⟨fun _ => mem_keys_accepted, fun _ _ => get?_accepted_eq_some_iff,
      fun _ _ => declaredReference_eq_iff⟩,
    ⟨fun _ _ => get?_forwarded_eq_some_iff, ?_, fun _ => forwarded_eq_iff, ?_, ?_,
      fun _ => mem_values_forwarded_iff⟩, ?_⟩
  · intro p q same
    exact declaredReference_congr (forwardedReference_eq_iff.mp same)
  · apply forwarded_congr
    intro i
    exact mem_identities_dedupe
  · intro qs perm
    apply forwarded_congr
    intro i
    exact (perm.map identity).mem_iff
  · intro l
    refine ⟨?_, overrideWarnings_eq ps l, rfl, rfl⟩
    intro reference
    exact Keyed.get?_insert _ _ _ _

/-- Both parameters are declared under one reference, which is as required as the last one says. -/
theorem mappings_of_any_list_tags :
    let tag : Parameter := ⟨.query, "tag", true, rfl⟩
    let tags : Parameter := ⟨.multiValueQuery, "tag", false, rfl⟩
    let header : Parameter := ⟨.header, "X-API-Key", true, rfl⟩
    let ps := [tag, header, tags]
    (accepted ps).get? "method.request.querystring.tag" = some false ∧
      forwarded [tags, header, tag] = forwarded ps ∧
      overrideWarnings ps (.apiKey "k") = [overriding (.apiKey "k")] := by
  intro tag tags header ps
  obtain ⟨⟨-, flags, -⟩, ⟨-, -, -, -, perms, -⟩, literal⟩ := mappings_of_any_list ps
  obtain ⟨-, warnings, -⟩ := literal (.apiKey "k")
  refine ⟨?_, perms _ (by decide +kernel), ?_⟩
  · apply (flags _ _).mpr
    exact ⟨[tag, header], tags, [], by decide +kernel, by decide +kernel, rfl, by simp⟩
  · rw [warnings]
    exact if_pos (by decide +kernel)

end Mapping

end GatewayPlan
