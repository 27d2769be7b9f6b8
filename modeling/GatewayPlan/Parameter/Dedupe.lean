import GatewayPlan.Logged

/-!
# Repeated parameters

Of parameters with one identity the first stays. A later one is dropped, with a warning if it
disagrees with the first on whether it is required. A list is gone through once: the identities met
tell a repeat, and what was kept tells what it repeats.
-/

namespace GatewayPlan.Parameter

/-- The first parameter of a list with a given identity. -/
def first? (ps : List Parameter) (i : Identity) : Option Parameter :=
  ps.find? fun p => p.identity = i

/-- The warning that a parameter is due if it repeats one of the list. -/
def dropWarning? (ps : List Parameter) (p : Parameter) : Option Event :=
  (first? ps p.identity).bind fun kept =>
    if kept.required = p.required then none else some (.dropped p kept.required)

/-- How far a list was gone through. -/
structure Sieve where
  seen : List Identity
  kept : List Parameter

namespace Sieve

def empty : Sieve := ⟨[], []⟩

def take (s : Sieve) (p : Parameter) : Logged Sieve :=
  if p.identity ∈ s.seen then do
    .tell (dropWarning? s.kept p).toList
    pure s
  else pure ⟨p.identity :: s.seen, s.kept ++ [p]⟩

end Sieve

/-- The parameters of a list but for repeats. -/
def sifted (ps : List Parameter) : Logged (List Parameter) := do
  let s ← ps.foldlM Sieve.take .empty
  pure s.kept

/-! ### What is kept and what is told, without a state -/

def dedupe : List Parameter → List Parameter
  | [] => []
  | p :: rest => p :: (dedupe rest).filter fun q => q.identity ≠ p.identity

/-- One warning for each parameter that disagrees with the one kept in its place. -/
def dropWarnings (ps : List Parameter) : List Event :=
  ps.filterMap (dropWarning? ps)

theorem dedupe_sublist (ps : List Parameter) : (dedupe ps).Sublist ps := by
  induction ps with
  | nil => exact .slnil
  | cons p rest ih => exact (List.filter_sublist.trans ih).cons_cons p

theorem mem_identities_dedupe {ps : List Parameter} {i : Identity} :
    i ∈ (dedupe ps).map identity ↔ i ∈ ps.map identity := by
  induction ps with
  | nil => simp [dedupe]
  | cons p rest ih =>
    simp only [List.mem_map] at ih
    by_cases h : i = p.identity
    · simp [dedupe, h]
    · simp only [dedupe, List.map_cons, List.mem_cons, h, false_or, List.mem_map, List.mem_filter,
        decide_not, Bool.not_eq_eq_eq_not, Bool.not_true, decide_eq_false_iff_not, ← ih]
      constructor
      · rintro ⟨q, ⟨mem, -⟩, e⟩
        exact ⟨q, mem, e⟩
      · rintro ⟨q, mem, e⟩
        exact ⟨q, ⟨mem, e ▸ h⟩, e⟩

end GatewayPlan.Parameter
