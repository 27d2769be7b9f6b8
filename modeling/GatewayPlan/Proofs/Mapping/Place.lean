import GatewayPlan.Mapping.Compile
import Mathlib.Data.List.Basic

/-!
# Places

A place is a scope of a request and a name in it. Every reference that is compared or written is
the text of a place, and no scope has a dot, so two references are one exactly when their places
are, whatever dots and prefixes the names hold. Comparing references without regard to case is
comparing places after the names of headers were folded.
-/

namespace GatewayPlan

open Mapping

namespace Mapping

theorem toList_folded (s : String) : (folded s).toList = s.toList.map Char.toLower :=
  String.toList_map

theorem folded_append (s t : String) : folded (s ++ t) = folded s ++ folded t := by
  apply String.toList_inj.mp
  simp only [toList_folded, String.toList_append, List.map_append]

theorem folded_key (request scope name : String) :
    folded (key request scope name) = key (folded request) (folded scope) (folded name) := by
  have dot : folded "." = "." := by decide +kernel
  simp only [key, folded_append, dot]

theorem folded_headerKey (name : String) : folded (headerKey name) = headerKey (folded name) := by
  have request : folded integrationRequest = integrationRequest := by decide +kernel
  have scope : folded "header" = "header" := by decide +kernel
  rw [headerKey, folded_key, request, scope, headerKey]

/-- The part before the first separator and the part behind it are read off the whole. -/
theorem append_separator_inj {sep : Char} {a b c d : List Char} (ha : sep ∉ a) (hb : sep ∉ b)
    (h : a ++ sep :: c = b ++ sep :: d) : a = b ∧ c = d := by
  induction a generalizing b with
  | nil =>
    cases b with
    | nil => exact ⟨rfl, (List.cons.inj h).2⟩
    | cons y ys =>
      have hy : sep = y := (List.cons.inj h).1
      exact absurd List.mem_cons_self (hy ▸ hb)
  | cons x xs ih =>
    cases b with
    | nil =>
      have hx : x = sep := (List.cons.inj h).1
      exact absurd List.mem_cons_self (hx ▸ ha)
    | cons y ys =>
      obtain ⟨hxy, rest⟩ := List.cons.inj h
      obtain ⟨hs, hcd⟩ :=
        ih (List.not_mem_of_not_mem_cons ha) (List.not_mem_of_not_mem_cons hb) rest
      exact ⟨by rw [hxy, hs], hcd⟩

theorem key_inj {request s t m n : String} (hs : '.' ∉ s.toList) (ht : '.' ∉ t.toList) :
    key request s m = key request t n ↔ s = t ∧ m = n := by
  constructor
  · intro h
    have chars := congrArg String.toList h
    simp only [key, String.toList_append, List.append_assoc, List.append_cancel_left_eq] at chars
    obtain ⟨hst, hmn⟩ := append_separator_inj hs ht chars
    exact ⟨String.toList_inj.mp hst, String.toList_inj.mp hmn⟩
  · rintro ⟨rfl, rfl⟩
    rfl

theorem dot_notMem_tag (k : ParameterKind) : '.' ∉ k.tag.toList := by
  cases k <;> decide +kernel

end Mapping

/-- A scope, given by the kind it is named for, and a name in it. -/
abbrev Place := ParameterKind × String

namespace Place

def reference (request : String) (place : Place) : String :=
  key request place.1.tag place.2

theorem reference_injective (request : String) : Function.Injective (reference request) := by
  rintro ⟨j, m⟩ ⟨k, n⟩ h
  obtain ⟨scopes, names⟩ := (key_inj (dot_notMem_tag j) (dot_notMem_tag k)).mp h
  exact Prod.ext (ParameterKind.tag_injective scopes) names

/-- The names of headers do not tell ASCII case apart. -/
def folded : Place → Place
  | (.header, name) => (.header, Mapping.folded name)
  | place => place

end Place

namespace ParameterKind

/-- The kind that a parameter is declared as: a repeated query parameter is declared as a plain
one. -/
def declared : ParameterKind → ParameterKind
  | multiValueQuery => query
  | kind => kind

end ParameterKind

namespace Parameter

def declaredPlace (p : Parameter) : Place :=
  (p.kind.declared, p.name)

def targetPlace (p : Parameter) : Place :=
  match p.kind with
  | .context => (.header, contextHeader p.name)
  | kind => (kind, p.name)

theorem folded_targetPlace_of_header {p : Parameter} (h : p.kind = .header) :
    p.targetPlace.folded = (.header, folded p.name) := by
  simp [targetPlace, Place.folded, h]

theorem folded_targetPlace_of_context {p : Parameter} (h : p.kind = .context) :
    p.targetPlace.folded = (.header, folded (contextHeader p.name)) := by
  simp [targetPlace, Place.folded, h]

theorem isContext_eq_false_iff (p : Parameter) : p.isContext = false ↔ p.kind ≠ .context := by
  simp [isContext]

theorem declaredKey?_eq (p : Parameter) : p.declaredKey? =
    if p.isContext then none else some (p.declaredPlace.reference methodRequest) := by
  unfold declaredKey? declaredPlace isContext
  cases p.kind <;> rfl

theorem forwardedKey?_eq (p : Parameter) : p.forwardedKey? =
    if p.isContext then none else some (p.targetPlace.reference integrationRequest) := by
  unfold forwardedKey? targetPlace isContext
  cases p.kind <;> rfl

end Parameter

namespace Mapping

open Parameter

theorem comparableDeclared?_eq (p : Parameter) : comparableDeclared? p =
    if p.isContext then none else some (p.declaredPlace.folded.reference methodRequest) := by
  have request : folded methodRequest = methodRequest := by decide +kernel
  have scope : folded "header" = "header" := by decide +kernel
  unfold comparableDeclared? declaredKey? declaredPlace isContext
  cases p.kind with
  | header => simp [ParameterKind.declaredScope?, ParameterKind.comparable, ParameterKind.declared,
      Place.folded, Place.reference, ParameterKind.tag, folded_key, request, scope]
  | _ => rfl

theorem comparableTarget_eq (p : Parameter) :
    comparableTarget p = p.targetPlace.folded.reference integrationRequest := by
  unfold comparableTarget targetKey targetPlace
  cases p.kind with
  | header => exact folded_headerKey p.name
  | context => exact folded_headerKey (contextHeader p.name)
  | _ => rfl

theorem hitsLiteral_iff (l : LiteralHeader) (p : Parameter) :
    hitsLiteral l p = true ↔ p.targetPlace.folded = (.header, folded l.header) := by
  have key : folded l.key = Place.reference integrationRequest (.header, folded l.header) :=
    folded_headerKey l.header
  rw [hitsLiteral, decide_eq_true_iff, comparableTarget_eq, key]
  exact (Place.reference_injective integrationRequest).eq_iff

end Mapping

end GatewayPlan
