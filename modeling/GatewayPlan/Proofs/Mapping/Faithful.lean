import GatewayPlan.Proofs.Mapping.Lossless
import GatewayPlan.Proofs.Mapping.Script

/-!
# Faithful mapping sets

What a mapping set tells of the parameters and the literal it was compiled from: the whole literal,
the plain parameters but for their order, and the names from the context in their order, as long
as none of these breaks a line of the template. It tells nothing else, so parameters that agree in
all this compile to one set.
-/

namespace GatewayPlan.Mapping

open Parameter

variable {ps qs : List Parameter} {l m : LiteralHeader} {set : MappingSet}

theorem compile_result_eq_ok_iff (ps : List Parameter) (literal : Option LiteralHeader)
    (set : MappingSet) : (compile ps literal).result = .ok set ↔
      (Distinct ps ∧ ∀ l ∈ literal, ∀ p ∈ ps, ¬ p.Hits l) ∧ assemble ps literal = set := by
  rw [← clash?_eq_none_iff]
  exact compile_ok_iff

theorem lossless_of_compile (h : (compile ps (some l)).result = .ok set) : set.Lossless ps l := by
  obtain ⟨⟨distinct, free⟩, rfl⟩ := (compile_result_eq_ok_iff ps (some l) set).mp h
  exact assemble_lossless distinct (free l rfl)

/-! ### The literal -/

theorem headerKey_injective : Function.Injective headerKey := by
  intro a b h
  have dots : '.' ∉ "header".toList := by decide +kernel
  exact ((key_inj dots dots).mp h).2

theorem constant_injective : Function.Injective constant := by
  intro a b h
  have chars := congrArg String.toList h
  simp only [constant, String.toList_append, List.append_assoc, List.append_cancel_left_eq,
    List.append_cancel_right_eq] at chars
  exact String.toList_inj.mp chars

/-- Only the literal is written as a constant. -/
theorem literal_eq (hp : set.Lossless ps l) (hq : set.Lossless qs m) : l = m := by
  have mem : (l.key, constant l.value) ∈ set.backend.entries :=
    hp.backend.mem_iff.mpr List.mem_cons_self
  rcases List.mem_cons.mp (hq.backend.mem_iff.mp mem) with same | reference
  · obtain ⟨keys, values⟩ := Prod.mk.inj same
    obtain ⟨header, value⟩ := l
    obtain ⟨header', value'⟩ := m
    have headers : header = header' := headerKey_injective keys
    have values : value = value' := constant_injective values
    rw [headers, values]
  · obtain ⟨q, -, e⟩ := List.mem_map.mp reference
    exact absurd (Prod.mk.inj e).2.symm (constant_ne_declaredReference l.value q)

/-! ### Plain parameters -/

/-- A plain parameter is found again by its forwarded reference, which names its own kind, and is
required as the accepted entry says. -/
theorem mem_plain_of_lossless (hp : set.Lossless ps l) (hq : set.Lossless qs m) {p : Parameter}
    (mem : p ∈ plain ps) : p ∈ plain qs := by
  have forwarded : (p.forwardedReference, p.declaredReference) ∈ set.backend.entries :=
    hp.backend.mem_iff.mpr (List.mem_cons_of_mem _ (List.mem_map_of_mem mem))
  rcases List.mem_cons.mp (hq.backend.mem_iff.mp forwarded) with literal | reference
  · exact absurd (Prod.mk.inj literal).2.symm (constant_ne_declaredReference m.value p)
  · obtain ⟨q, hq', same⟩ := List.mem_map.mp reference
    obtain ⟨forwarded, declared⟩ := Prod.mk.inj same
    have place : ((q.kind, q.name) : Place) = (p.kind, p.name) :=
      Place.reference_injective integrationRequest forwarded
    obtain ⟨kind, name⟩ := Prod.mk.inj place
    have own : set.accepted.get? p.declaredReference = some p.required :=
      Keyed.get?_eq_some_iff.mpr (hp.accepted.mem_iff.mpr (List.mem_map.mpr ⟨p, mem, rfl⟩))
    have other : set.accepted.get? p.declaredReference = some q.required :=
      Keyed.get?_eq_some_iff.mpr
        (hq.accepted.mem_iff.mpr (List.mem_map.mpr ⟨q, hq', by rw [declared]⟩))
    have required : q.required = p.required := Option.some.inj (other.symm.trans own)
    have eq : q = p := by
      cases p
      cases q
      cases kind
      cases name
      cases required
      rfl
    exact eq ▸ hq'

theorem Distinct.nodup_plain (h : Distinct ps) : (plain ps).Nodup :=
  h.nodup_declaredReference.of_map

/-! ### Names from the context -/

theorem contextNames_eq (unbroken : ∀ name ∈ contextNames ps ++ contextNames qs,
    '\n' ∉ name.toList) (h : templates ps = templates qs) : contextNames ps = contextNames qs := by
  simp only [List.mem_append] at unbroken
  unfold templates at h
  split at h
  · rename_i none
    split at h
    · rename_i none'
      rw [none, none']
    · cases h
  · split at h
    · cases h
    · have scripts := congrArg (·.get? templateContentType) (Option.some.inj h)
      simp only [Keyed.ofList, List.foldl_cons, List.foldl_nil, Keyed.get?_insert, if_true,
        Option.some.injEq] at scripts
      exact script_inj (fun a ha => unbroken a (.inl ha)) (fun b hb => unbroken b (.inr hb)) scripts

/-! ### What a mapping set forgets -/

/-- The places that a list is written to are those of its plain parameters and those of its names
from the context. -/
theorem targets_perm (ps : List Parameter) : (ps.map fun p => p.targetPlace.folded).Perm
    ((contextNames ps).map (fun name => ((.header, folded (contextHeader name)) : Place)) ++
      (plain ps).map fun p => p.targetPlace.folded) := by
  have contexts : (contextNames ps).map
      (fun name => ((.header, folded (contextHeader name)) : Place)) =
      (ps.filter isContext).map fun p => p.targetPlace.folded := by
    rw [contextNames, List.map_map]
    refine List.map_congr_left fun p mem => ?_
    have kind : p.kind = .context := by simpa [isContext] using (List.mem_filter.mp mem).2
    exact (folded_targetPlace_of_context kind).symm
  rw [contexts, ← List.map_append]
  exact ((List.filter_append_perm isContext ps).map _).symm

theorem not_hits_iff (l : LiteralHeader) (ps : List Parameter) : (∀ p ∈ ps, ¬ p.Hits l) ↔
    (.header, folded l.header) ∉ ps.map fun p => p.targetPlace.folded := by
  simp only [List.mem_map, not_exists, not_and, hits_iff, hitsLiteral_iff]

section

variable (plains : (plain ps).Perm (plain qs)) (contexts : contextNames ps = contextNames qs)

include plains contexts

theorem targets_perm_of_alike : (ps.map fun p => p.targetPlace.folded).Perm
    (qs.map fun p => p.targetPlace.folded) := by
  refine (targets_perm ps).trans (List.Perm.trans ?_ (targets_perm qs).symm)
  rw [contexts]
  exact (plains.map _).append_left _

theorem Distinct.of_alike (h : Distinct ps) : Distinct qs where
  declared := (plains.map _).nodup_iff.mp h.declared
  target := (targets_perm_of_alike plains contexts).nodup_iff.mp h.target

theorem free_of_alike (h : ∀ p ∈ ps, ¬ p.Hits l) : ∀ q ∈ qs, ¬ q.Hits l := by
  rw [not_hits_iff] at h ⊢
  rwa [← (targets_perm_of_alike plains contexts).mem_iff]

theorem assemble_of_alike (h : Distinct ps) : assemble qs (some l) = assemble ps (some l) := by
  have h' := h.of_alike plains contexts
  have accepted : accepted qs = accepted ps := Keyed.eq_of_entries_perm
    ((accepted_perm h').trans ((plains.symm.map _).trans (accepted_perm h).symm))
  have forwarded : forwarded qs = forwarded ps := Keyed.eq_of_entries_perm
    ((forwarded_perm h').trans ((plains.symm.map _).trans (forwarded_perm h).symm))
  simp only [assemble, backend, templates, accepted, forwarded, contexts]

end

/-- A mapping set tells the literal and the parameters it was compiled from, up to the order of the
plain parameters, to where the others stand, and to whether those are required. Names from the
context are told apart if they have no line feed. Lists that agree in all this compile alike. -/
theorem compile_faithful (ps qs : List Parameter) (l m : LiteralHeader) :
    (∀ set, (compile ps (some l)).result = .ok set → (compile qs (some m)).result = .ok set →
      l = m ∧ (plain ps).Perm (plain qs) ∧
        ((∀ name ∈ contextNames ps ++ contextNames qs, '\n' ∉ name.toList) →
          contextNames ps = contextNames qs)) ∧
    ((plain ps).Perm (plain qs) → contextNames ps = contextNames qs → l = m →
      ∀ set, (compile ps (some l)).result = .ok set → (compile qs (some m)).result = .ok set) := by
  constructor
  · intro set hp hq
    have lp := lossless_of_compile hp
    have lq := lossless_of_compile hq
    obtain ⟨⟨distinct, -⟩, left⟩ := (compile_result_eq_ok_iff ps (some l) set).mp hp
    obtain ⟨⟨distinct', -⟩, right⟩ := (compile_result_eq_ok_iff qs (some m) set).mp hq
    refine ⟨literal_eq lp lq, ?_, fun unbroken => contextNames_eq unbroken ?_⟩
    · refine (List.perm_ext_iff_of_nodup distinct.nodup_plain distinct'.nodup_plain).mpr ?_
      exact fun p => ⟨mem_plain_of_lossless lp lq, mem_plain_of_lossless lq lp⟩
    · have same : (assemble ps (some l)).templates = (assemble qs (some m)).templates := by
        rw [left, right]
      exact same
  · rintro plains contexts rfl set hp
    obtain ⟨⟨distinct, free⟩, assembled⟩ := (compile_result_eq_ok_iff ps (some l) set).mp hp
    refine (compile_result_eq_ok_iff qs (some l) set).mpr ⟨⟨?_, ?_⟩, ?_⟩
    · exact distinct.of_alike plains contexts
    · rintro _ ⟨⟩
      exact free_of_alike plains contexts (free l rfl)
    · rw [assemble_of_alike plains contexts distinct, assembled]

theorem compile_faithful_reordered :
    let order : Parameter := ⟨.path, "order", true, by decide +kernel⟩
    let labels : Parameter := ⟨.multiValueQuery, "labels", false, by decide +kernel⟩
    let ps := [order, username, labels, permissions]
    let qs := [username.relaxed, labels, order, permissions]
    (compile ps (some (.apiKey "k"))).Succeeds ∧
      (compile qs (some (.apiKey "k"))).result = (compile ps (some (.apiKey "k"))).result := by
  intro order labels ps qs
  have succeeds : (compile ps (some (.apiKey "k"))).Succeeds := by
    rw [succeeds_iff_clash?_eq_none]
    decide +kernel
  obtain ⟨set, ends⟩ := succeeds
  have plains : (plain ps).Perm (plain qs) := .swap labels order []
  have contexts : contextNames ps = contextNames qs := rfl
  have same := (compile_faithful ps qs (.apiKey "k") (.apiKey "k")).2 plains contexts rfl set ends
  exact ⟨⟨set, ends⟩, same.trans ends.symm⟩

end GatewayPlan.Mapping
