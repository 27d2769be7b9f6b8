import Mathlib.Data.List.Forall2

/-!
# Outcomes of computations that may fail

What it takes for a sequence, and for a computation over a whole list, to come to its end.
-/

namespace GatewayPlan.Except

universe u v w
variable {ε : Type u} {α : Type v} {β : Type v}

theorem bind_eq_ok_iff {x : Except ε α} {f : α → Except ε β} {b : β} :
    x >>= f = .ok b ↔ ∃ a, x = .ok a ∧ f a = .ok b := by
  cases x with
  | error e =>
    refine ⟨fun h => (nomatch h), ?_⟩
    rintro ⟨a, h, -⟩
    cases h
  | ok a =>
    refine ⟨fun h => ⟨a, rfl, h⟩, ?_⟩
    rintro ⟨a, h, ends⟩
    cases h
    exact ends

theorem mapError_eq_ok_iff {ε' : Type w} {f : ε → ε'} {x : Except ε α} {a : α} :
    x.mapError f = .ok a ↔ x = .ok a := by
  cases x <;> simp [Except.mapError]

theorem mapError_eq_error_iff {ε' : Type w} {f : ε → ε'} {x : Except ε α} {e' : ε'} :
    x.mapError f = .error e' ↔ ∃ e, x = .error e ∧ f e = e' := by
  cases x <;> simp [Except.mapError]

/-- A list comes to its end if every item does, with the results in order. -/
theorem mapM_eq_ok_iff {α : Type w} {f : α → Except ε β} {xs : List α} {ys : List β} :
    xs.mapM f = .ok ys ↔ List.Forall₂ (fun x y => f x = .ok y) xs ys := by
  induction xs generalizing ys with
  | nil =>
    rw [List.forall₂_nil_left_iff, List.mapM_nil]
    exact ⟨fun h => (Except.ok.inj h).symm, fun h => congrArg Except.ok h.symm⟩
  | cons x rest ih =>
    rw [List.mapM_cons, bind_eq_ok_iff, List.forall₂_cons_left_iff]
    constructor
    · rintro ⟨y, head, h⟩
      obtain ⟨ys', tail, h⟩ := bind_eq_ok_iff.mp h
      exact ⟨y, ys', head, ih.mp tail, (Except.ok.inj h).symm⟩
    · rintro ⟨y, ys', head, tail, rfl⟩
      exact ⟨y, head, bind_eq_ok_iff.mpr ⟨ys', ih.mpr tail, rfl⟩⟩

theorem exists_related_of_mem {α : Type w} {R : α → β → Prop} {xs : List α} {ys : List β}
    (h : List.Forall₂ R xs ys) : ∀ x ∈ xs, ∃ y ∈ ys, R x y := by
  induction h with
  | nil => exact nofun
  | @cons x y xs ys head _ ih =>
    rw [List.forall_mem_cons]
    refine ⟨⟨y, List.mem_cons_self, head⟩, fun z mem => ?_⟩
    obtain ⟨w, hw, related⟩ := ih z mem
    exact ⟨w, List.mem_cons_of_mem y hw, related⟩

/-- Each item of a list has a result. -/
theorem exists_result_of_mem {α : Type w} {f : α → Except ε β} {xs : List α} {ys : List β}
    (h : xs.mapM f = .ok ys) : ∀ x ∈ xs, ∃ y ∈ ys, f x = .ok y :=
  exists_related_of_mem (mapM_eq_ok_iff.mp h)

/-- Where the results of a list come from. -/
theorem exists_of_mem_results {α : Type w} {f : α → Except ε β} {xs : List α} {ys : List β}
    (h : xs.mapM f = .ok ys) : ∀ y ∈ ys, ∃ x ∈ xs, f x = .ok y :=
  exists_related_of_mem (mapM_eq_ok_iff.mp h).flip

/-- A list fails at the first of its items that does. -/
theorem mapM_eq_error_iff {α : Type w} {f : α → Except ε β} {xs : List α} {e : ε} :
    xs.mapM f = .error e ↔ ∃ before x after, xs = before ++ x :: after ∧
      (∀ y ∈ before, ∃ b, f y = .ok b) ∧ f x = .error e := by
  induction xs with
  | nil =>
    refine ⟨nofun, ?_⟩
    rintro ⟨before, x, after, cut, -⟩
    exact absurd cut.symm (List.append_ne_nil_of_right_ne_nil before (List.cons_ne_nil x after))
  | cons x rest ih =>
    rw [List.mapM_cons]
    constructor
    · intro h
      cases head : f x with
      | error e' =>
        rw [head] at h
        cases h
        exact ⟨[], x, rest, rfl, nofun, head⟩
      | ok b =>
        cases tail : rest.mapM f with
        | ok bs =>
          rw [head, tail] at h
          cases h
        | error e' =>
          rw [head, tail] at h
          cases h
          obtain ⟨before, y, after, cut, earlier, failed⟩ := ih.mp tail
          refine ⟨x :: before, y, after, congrArg (x :: ·) cut, ?_, failed⟩
          exact List.forall_mem_cons.mpr ⟨⟨b, head⟩, earlier⟩
    · rintro ⟨before, y, after, cut, earlier, failed⟩
      cases before with
      | nil =>
        obtain ⟨rfl, rfl⟩ := List.cons.inj cut
        rw [failed]
        rfl
      | cons z before =>
        obtain ⟨rfl, later⟩ := List.cons.inj cut
        obtain ⟨⟨b, head⟩, earlier⟩ := List.forall_mem_cons.mp earlier
        rw [head, ih.mpr ⟨before, y, after, later, earlier, failed⟩]
        rfl

theorem exists_of_mapM_error {α : Type w} {f : α → Except ε β} {xs : List α} {e : ε}
    (h : xs.mapM f = .error e) : ∃ x ∈ xs, f x = .error e := by
  obtain ⟨before, x, after, rfl, -, failed⟩ := mapM_eq_error_iff.mp h
  exact ⟨x, List.mem_append_right before List.mem_cons_self, failed⟩

end GatewayPlan.Except
