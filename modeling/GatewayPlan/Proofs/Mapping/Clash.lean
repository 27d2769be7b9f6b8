import GatewayPlan.Proofs.Logged
import GatewayPlan.Proofs.Mapping.Place

/-!
# Clashes

Which parameters cannot stand side by side, told by their kinds and names alone, and which of them
a literal header keeps out. Compiling succeeds exactly for the lists without either.
-/

namespace GatewayPlan

open Mapping

/-- Two names of one header: they differ at most in the case of ASCII letters. -/
def SameHeader (a b : String) : Prop :=
  folded a = folded b

theorem contextHeader_injective : Function.Injective contextHeader := by
  intro a b h
  have chars := congrArg String.toList h
  simp only [contextHeader, String.toList_append, List.append_cancel_left_eq] at chars
  exact String.toList_inj.mp chars

theorem folded_contextHeader (name : String) :
    folded (contextHeader name) = contextHeader (folded name) := by
  have start : folded "authorizer-" = "authorizer-" := by decide +kernel
  rw [contextHeader, folded_append, start, contextHeader]

theorem sameHeader_contextHeader_iff (a b : String) :
    SameHeader (contextHeader a) (contextHeader b) ↔ SameHeader a b := by
  unfold SameHeader
  rw [folded_contextHeader, folded_contextHeader]
  exact contextHeader_injective.eq_iff

namespace Parameter

def IsQuery (p : Parameter) : Prop :=
  p.kind = .query ∨ p.kind = .multiValueQuery

/-- Two parameters that would be declared or written under one reference. -/
inductive Clashes (p q : Parameter) : Prop
  | query : p.IsQuery → q.IsQuery → p.name = q.name → Clashes p q
  | path : p.kind = .path → q.kind = .path → p.name = q.name → Clashes p q
  | header : p.kind = .header → q.kind = .header → SameHeader p.name q.name → Clashes p q
  | context : p.kind = .context → q.kind = .context → SameHeader p.name q.name → Clashes p q
  | headerContext : p.kind = .header → q.kind = .context →
      SameHeader p.name (contextHeader q.name) → Clashes p q
  | contextHeader : p.kind = .context → q.kind = .header →
      SameHeader (contextHeader p.name) q.name → Clashes p q

theorem Clashes.symm {p q : Parameter} (h : p.Clashes q) : q.Clashes p := by
  cases h with
  | query hp hq names => exact .query hq hp names.symm
  | path hp hq names => exact .path hq hp names.symm
  | header hp hq names => exact .header hq hp (Eq.symm names)
  | context hp hq names => exact .context hq hp (Eq.symm names)
  | headerContext hp hq names => exact .contextHeader hq hp (Eq.symm names)
  | contextHeader hp hq names => exact .headerContext hq hp (Eq.symm names)

/-- A parameter of a path shares its place with nothing but a repeat of it. -/
theorem clashes_iff_of_path {p : Parameter} (path : p.kind = .path) (q : Parameter) :
    p.Clashes q ↔ p.identity = q.identity := by
  constructor
  · intro clash
    cases clash with
    | path hp hq names => exact Prod.ext (hp.trans hq.symm) names
    | query hp => rcases hp with hp | hp <;> cases path.symm.trans hp
    | header hp | context hp | headerContext hp | contextHeader hp => cases path.symm.trans hp
  · intro same
    obtain ⟨kind, name⟩ := Prod.mk.inj same
    exact .path path (kind.symm.trans path) name

/-- A parameter that would be written to the literal's header. -/
inductive Hits (l : LiteralHeader) (p : Parameter) : Prop
  | header : p.kind = .header → SameHeader p.name l.header → Hits l p
  | context : p.kind = .context → SameHeader (contextHeader p.name) l.header → Hits l p

/-- Parameters clash when they share a place: one where both are declared or the one they are
written to. -/
theorem clashes_iff (p q : Parameter) : p.Clashes q ↔
    (p.isContext = false ∧ q.isContext = false ∧
      p.declaredPlace.folded = q.declaredPlace.folded) ∨
    p.targetPlace.folded = q.targetPlace.folded := by
  constructor
  · intro h
    cases h with
    | query hp hq names =>
      left
      rcases hp with hp | hp <;> rcases hq with hq | hq <;>
        simp [isContext, declaredPlace, ParameterKind.declared, hp, hq, names]
    | path hp hq names =>
      right
      simp [targetPlace, hp, hq, names]
    | header hp hq names =>
      right
      rw [folded_targetPlace_of_header hp, folded_targetPlace_of_header hq]
      exact congrArg (Prod.mk _) names
    | context hp hq names =>
      right
      rw [folded_targetPlace_of_context hp, folded_targetPlace_of_context hq]
      exact congrArg (Prod.mk _) ((sameHeader_contextHeader_iff p.name q.name).mpr names)
    | headerContext hp hq names =>
      right
      rw [folded_targetPlace_of_header hp, folded_targetPlace_of_context hq]
      exact congrArg (Prod.mk _) names
    | contextHeader hp hq names =>
      right
      rw [folded_targetPlace_of_context hp, folded_targetPlace_of_header hq]
      exact congrArg (Prod.mk _) names
  · intro h
    cases hp : p.kind <;> cases hq : q.kind <;>
      simp [isContext, declaredPlace, targetPlace, ParameterKind.declared, Place.folded, hp, hq]
        at h
    case query.query | query.multiValueQuery | multiValueQuery.query |
        multiValueQuery.multiValueQuery =>
      exact .query (by simp [IsQuery, hp]) (by simp [IsQuery, hq]) h
    case path.path => exact .path hp hq h
    case header.header => exact .header hp hq h
    case header.context => exact .headerContext hp hq h
    case context.header => exact .contextHeader hp hq h
    case context.context =>
      exact .context hp hq ((sameHeader_contextHeader_iff p.name q.name).mp h)

theorem hits_iff (l : LiteralHeader) (p : Parameter) :
    p.Hits l ↔ hitsLiteral l p = true := by
  rw [hitsLiteral_iff]
  constructor
  · rintro (⟨kind, names⟩ | ⟨kind, names⟩)
    · rw [folded_targetPlace_of_header kind]
      exact congrArg (Prod.mk _) names
    · rw [folded_targetPlace_of_context kind]
      exact congrArg (Prod.mk _) names
  · intro h
    cases kind : p.kind <;> simp [targetPlace, Place.folded, kind] at h
    · exact .header kind h
    · exact .context kind h

end Parameter

end GatewayPlan
