import GatewayPlan.Proofs.Keyed
import GatewayPlan.Proofs.Mapping.Clash
import Mathlib.Data.List.Nodup

/-!
# Distinct places

The scan for a shared reference finds none exactly when the places of the list are distinct, and
so compiling succeeds exactly when no two parameters clash and none hits the literal header.
-/

namespace GatewayPlan.Mapping

open Parameter

/-- The parameters that have references of their own. -/
def plain (ps : List Parameter) : List Parameter :=
  ps.filter fun p => !p.isContext

theorem mem_plain {ps : List Parameter} {p : Parameter} :
    p ∈ plain ps ↔ p ∈ ps ∧ p.isContext = false := by
  simp [plain]

/-- A part of a parameter that only plain parameters have, over a whole list. -/
theorem filterMap_plain {α : Type} (f : Parameter → α) (ps : List Parameter) :
    (ps.filterMap fun p => if p.isContext then none else some (f p)) = (plain ps).map f := by
  induction ps with
  | nil => rfl
  | cons p rest ih =>
    by_cases context : p.isContext = true
    · simpa [plain, context] using ih
    · simpa [plain, context] using ih

/-- Over the rest of a list, `owners` stands for the keys of the part already scanned. -/
theorem firstShared?_eq_none_iff (key? : Parameter → Option String)
    (owners : List (String × Parameter)) (ps : List Parameter) :
    firstShared? key? owners ps = none ↔
      (ps.filterMap key?).Nodup ∧ ∀ k ∈ ps.filterMap key?, k ∉ owners.map Prod.fst := by
  induction ps generalizing owners with
  | nil => simp [firstShared?]
  | cons p rest ih =>
    cases own : key? p with
    | none => simpa [firstShared?, own] using ih owners
    | some key =>
      cases taken : owners.lookup key with
      | some owner =>
        have scanned : key ∈ owners.map Prod.fst := by
          by_contra fresh
          rw [Keyed.lookup_eq_none_iff_notMem.mpr fresh] at taken
          cases taken
        simp only [firstShared?, own, taken, reduceCtorEq, List.filterMap_cons_some own,
          false_iff]
        exact fun h => h.2 key List.mem_cons_self scanned
      | none =>
        have fresh := Keyed.lookup_eq_none_iff_notMem.mp taken
        simp only [firstShared?, own, taken, ih, List.filterMap_cons_some own, List.nodup_cons,
          List.map_cons, List.mem_cons, forall_eq_or_imp, not_or]
        constructor
        · rintro ⟨nodup, apart⟩
          exact ⟨⟨fun mem => (apart key mem).1 rfl, nodup⟩, fresh, fun k hk => (apart k hk).2⟩
        · rintro ⟨⟨notMem, nodup⟩, -, apart⟩
          exact ⟨nodup, fun k hk => ⟨fun eq => notMem (eq ▸ hk), apart k hk⟩⟩

theorem firstShared?_nil_eq_none_iff (key? : Parameter → Option String) (ps : List Parameter) :
    firstShared? key? [] ps = none ↔ (ps.filterMap key?).Nodup := by
  rw [firstShared?_eq_none_iff]
  simp

/-- No two parameters are declared at one place, and no two are written to one place. -/
structure Distinct (ps : List Parameter) : Prop where
  declared : ((plain ps).map fun p => p.declaredPlace.folded).Nodup
  target : (ps.map fun p => p.targetPlace.folded).Nodup

theorem nodup_comparableDeclared_iff (ps : List Parameter) :
    (ps.filterMap comparableDeclared?).Nodup ↔
      ((plain ps).map fun p => p.declaredPlace.folded).Nodup := by
  have keys : ps.filterMap comparableDeclared? =
      ((plain ps).map fun p => p.declaredPlace.folded).map (Place.reference methodRequest) := by
    rw [List.map_map, funext comparableDeclared?_eq]
    exact filterMap_plain _ ps
  rw [keys]
  exact List.nodup_map_iff (Place.reference_injective methodRequest)

theorem nodup_comparableTarget_iff (ps : List Parameter) :
    (ps.filterMap fun p => some (comparableTarget p)).Nodup ↔
      (ps.map fun p => p.targetPlace.folded).Nodup := by
  have keys : (ps.filterMap fun p => some (comparableTarget p)) =
      (ps.map fun p => p.targetPlace.folded).map (Place.reference integrationRequest) := by
    rw [List.map_map, funext comparableTarget_eq]
    exact congrFun List.filterMap_eq_map ps
  rw [keys]
  exact List.nodup_map_iff (Place.reference_injective integrationRequest)

theorem distinct_iff_pairwise (ps : List Parameter) :
    Distinct ps ↔ ps.Pairwise fun p q => ¬ p.Clashes q := by
  have both : Distinct ps ↔ ps.Pairwise fun p q =>
      (p.isContext = false → q.isContext = false →
        p.declaredPlace.folded ≠ q.declaredPlace.folded) ∧
      p.targetPlace.folded ≠ q.targetPlace.folded := by
    rw [List.pairwise_and_iff]
    constructor
    · rintro ⟨declared, target⟩
      simp only [plain, List.Nodup, List.pairwise_map, List.pairwise_filter,
        Bool.not_eq_eq_eq_not, Bool.not_true] at declared target
      exact ⟨declared, target⟩
    · rintro ⟨declared, target⟩
      refine ⟨?_, ?_⟩ <;>
        simpa only [plain, List.Nodup, List.pairwise_map, List.pairwise_filter,
          Bool.not_eq_eq_eq_not, Bool.not_true]
  rw [both]
  apply iff_of_eq
  congr 1
  funext p q
  simp only [clashes_iff, not_or, not_and, ne_eq]

/-- Sharing is symmetric, so it does not matter which of two positions comes first. -/
theorem pairwise_not_clashes_iff (ps : List Parameter) :
    (ps.Pairwise fun p q => ¬ p.Clashes q) ↔
      ∀ i j : Fin ps.length, i ≠ j → ¬ (ps[i]).Clashes ps[j] := by
  rw [List.pairwise_iff_getElem]
  constructor
  · intro h i j ne clash
    rcases Nat.lt_or_gt_of_ne (Fin.val_ne_of_ne ne) with lt | gt
    · exact h i j i.isLt j.isLt lt clash
    · exact h j i j.isLt i.isLt gt clash.symm
  · intro h i j hi hj lt
    exact h ⟨i, hi⟩ ⟨j, hj⟩ (Fin.ne_of_val_ne (Nat.ne_of_lt lt))

theorem clash?_eq_none_iff (ps : List Parameter) (literal : Option LiteralHeader) :
    clash? ps literal = none ↔ Distinct ps ∧ ∀ l ∈ literal, ∀ p ∈ ps, ¬ p.Hits l := by
  have declared := (firstShared?_nil_eq_none_iff comparableDeclared? ps).trans
    (nodup_comparableDeclared_iff ps)
  have target := (firstShared?_nil_eq_none_iff (fun p => some (comparableTarget p)) ps).trans
    (nodup_comparableTarget_iff ps)
  have free : (literal.bind fun l => (ps.find? (hitsLiteral l)).map fun p =>
      Clash.literal p l.header) = none ↔ ∀ l ∈ literal, ∀ p ∈ ps, ¬ p.Hits l := by
    cases literal <;> simp [hits_iff]
  unfold clash?
  cases method : firstShared? comparableDeclared? [] ps with
  | some shared =>
    simp only [reduceCtorEq, false_iff]
    rintro ⟨⟨nodup, -⟩, -⟩
    rw [declared.mpr nodup] at method
    cases method
  | none =>
    cases integration : firstShared? (fun p => some (comparableTarget p)) [] ps with
    | some shared =>
      simp only [reduceCtorEq, false_iff]
      rintro ⟨⟨-, nodup⟩, -⟩
      rw [target.mpr nodup] at integration
      cases integration
    | none =>
      rw [free]
      exact (and_iff_right ⟨declared.mp method, target.mp integration⟩).symm

theorem compile_of_clash {ps : List Parameter} {literal : Option LiteralHeader} {clash : Clash}
    (h : clash? ps literal = some clash) :
    compile ps literal = .fail (.invariantViolation clash) := by
  simp only [compile, h]

theorem succeeds_iff_clash?_eq_none (ps : List Parameter) (literal : Option LiteralHeader) :
    (compile ps literal).Succeeds ↔ clash? ps literal = none := by
  cases h : clash? ps literal with
  | some clash => simp [compile_of_clash h]
  | none => simp [compile, h, Logged.Succeeds]

/-- Compiling succeeds exactly for parameters that do not clash, and with a literal header only if
none of them hits it. Kinds and names alone decide this. A failure names a clash and tells the log
nothing. -/
theorem compile_succeeds_iff (ps : List Parameter) :
    (∀ l : LiteralHeader, (compile ps (some l)).Succeeds ↔
      (∀ i j : Fin ps.length, i ≠ j → ¬ (ps[i]).Clashes ps[j]) ∧
        ∀ i : Fin ps.length, ¬ (ps[i]).Hits l) ∧
    ((compile ps none).Succeeds ↔
      ∀ i j : Fin ps.length, i ≠ j → ¬ (ps[i]).Clashes ps[j]) ∧
    ∀ literal, (compile ps literal).Succeeds ∨
      ∃ clash, compile ps literal = .fail (.invariantViolation clash) := by
  have distinct : Distinct ps ↔ ∀ i j : Fin ps.length, i ≠ j → ¬ (ps[i]).Clashes ps[j] :=
    (distinct_iff_pairwise ps).trans (pairwise_not_clashes_iff ps)
  refine ⟨fun l => ?_, ?_, fun literal => ?_⟩
  · rw [succeeds_iff_clash?_eq_none, clash?_eq_none_iff, distinct]
    simp [List.forall_mem_iff_get]
  · rw [succeeds_iff_clash?_eq_none, clash?_eq_none_iff, distinct]
    simp
  · rw [succeeds_iff_clash?_eq_none]
    cases h : clash? ps literal with
    | none => exact .inl rfl
    | some clash => exact .inr ⟨clash, compile_of_clash h⟩

end GatewayPlan.Mapping
