import GatewayPlan.Logged
import GatewayPlan.Mapping.Set

/-!
# Compiling parameters

A list of parameters compiles to a mapping set unless two of them would be declared or written
under one key, or one of them under the literal header. The first clash in the list is reported:
on the method request, then on the integration request, then with the literal.
-/

namespace GatewayPlan.Mapping

/-- The first parameter whose key was taken by an earlier one. `owners` holds the keys so far. -/
def firstShared? (key? : Parameter → Option String) (owners : List (String × Parameter)) :
    List Parameter → Option (Parameter × Parameter × String)
  | [] => none
  | p :: rest =>
    match key? p with
    | none => firstShared? key? owners rest
    | some key =>
      match owners.lookup key with
      | some owner => some (p, owner, key)
      | none => firstShared? key? ((key, p) :: owners) rest

def comparableDeclared? (p : Parameter) : Option String :=
  p.declaredKey?.map p.kind.comparable

def comparableTarget (p : Parameter) : String :=
  p.kind.comparable p.targetKey

def hitsLiteral (literal : LiteralHeader) (p : Parameter) : Bool :=
  comparableTarget p = folded literal.key

/-- The first clash of a list of parameters. -/
def clash? (ps : List Parameter) (literal : Option LiteralHeader) : Option Clash :=
  match firstShared? comparableDeclared? [] ps with
  | some (p, owner, key) => some (.shared p owner .method key)
  | none =>
    match firstShared? (fun p => some (comparableTarget p)) [] ps with
    | some (p, owner, key) => some (.shared p owner .integration key)
    | none => literal.bind fun l => (ps.find? (hitsLiteral l)).map fun p => .literal p l.header

/-- The mapping set of a list of parameters, clashes or not. -/
def assemble (ps : List Parameter) : Option LiteralHeader → MappingSet
  | some literal => ⟨accepted ps, backend ps literal, templates ps⟩
  | none => ⟨accepted ps, forwarded ps, templates ps⟩

def compile (ps : List Parameter) (literal : Option LiteralHeader) : Logged MappingSet :=
  match clash? ps literal with
  | some clash => .fail (.invariantViolation clash)
  | none =>
    let set := assemble ps literal
    let warnings := match literal with
      | some l => overrideWarnings ps l
      | none => []
    ⟨warnings ++
      [.compiled ps.length set.accepted.size set.backend.size set.templates.isSome], .ok set⟩

end GatewayPlan.Mapping
