import GatewayPlan.Proofs.Tree.StandsFor

/-!
# Written trees

Trees of the shape in which values are written: every scalar says its type, a whole number has at
most 64 bits, and the keys of a map are texts that differ from each other.
-/

namespace GatewayPlan.Tree.Node

/-- Lists and maps stand in each other at most `depth` deep, and every key is one of `keys`. -/
inductive Written (keys : String → Prop) : Nat → Node → Prop
  | null {depth : Nat} : Written keys depth .null
  | bool {depth : Nat} (b : Bool) : Written keys depth (.bool b)
  | natural {depth n : Nat} : n < UInt64.size → Written keys depth (.num (.natural n))
  | text {depth : Nat} (s : String) : Written keys depth (.text s)
  | seq {depth : Nat} {ns : List Node} : (∀ n ∈ ns, Written keys depth n) →
      Written keys (depth + 1) (.seq ns)
  | fields {depth : Nat} {ws : List (String × Node)} : (∀ w ∈ ws, keys w.1) →
      (∀ w ∈ ws, Written keys depth w.2) → (ws.map Prod.fst).Nodup →
      Written keys (depth + 1) (.fields ws)

def anyKey : String → Prop :=
  fun _ => True

variable {keys : String → Prop} {depth : Nat} {n : Node}

/-- What is written need not be told any types. -/
theorem Written.settled? (h : n.Written keys depth) : n.settled? = some n := by
  induction h with
  | null => rfl
  | bool => rfl
  | natural => rfl
  | text => rfl
  | seq _ ih => exact settled?_seq_self_iff.mpr ih
  | fields _ _ _ ih =>
    refine settled?_map_self_iff.mpr fun e mem => ?_
    obtain ⟨w, hw, rfl⟩ := List.mem_map.mp mem
    exact ⟨rfl, ih w hw⟩

end GatewayPlan.Tree.Node
