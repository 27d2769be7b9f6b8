/-!
# Maps ordered by key

A map from text to values, held as its entries in ascending order of the keys. The order is that
of code points. A key written twice keeps the last value, and two maps with the same values at all
keys are equal.
-/

namespace GatewayPlan

universe u
variable {α : Type u}

structure Keyed (α : Type u) where
  entries : List (String × α)
  ordered : entries.Pairwise (fun a b => a.1 < b.1)
  deriving DecidableEq, Repr

namespace Keyed

@[ext] theorem ext {m n : Keyed α} (h : m.entries = n.entries) : m = n := by
  cases m; cases n; cases h; rfl

def empty : Keyed α := ⟨[], .nil⟩

instance : Inhabited (Keyed α) := ⟨empty⟩

def put (k : String) (v : α) : List (String × α) → List (String × α)
  | [] => [(k, v)]
  | (k', v') :: rest =>
    if k < k' then (k, v) :: (k', v') :: rest
    else if k = k' then (k, v) :: rest
    else (k', v') :: put k v rest

theorem mem_put {k : String} {v : α} {e : String × α} {l : List (String × α)}
    (h : e ∈ put k v l) : e = (k, v) ∨ e ∈ l := by
  induction l with
  | nil => simpa [put] using h
  | cons d rest ih =>
    obtain ⟨k', v'⟩ := d
    rw [put] at h
    split at h
    · simpa using h
    · split at h
      · simp only [List.mem_cons] at h ⊢
        exact h.imp id Or.inr
      · simp only [List.mem_cons] at h ⊢
        rcases h with h | h
        · exact .inr (.inl h)
        · exact (ih h).imp id Or.inr

theorem pairwise_put (k : String) (v : α) {l : List (String × α)}
    (h : l.Pairwise (fun a b => a.1 < b.1)) : (put k v l).Pairwise (fun a b => a.1 < b.1) := by
  induction l with
  | nil => simp [put]
  | cons d rest ih =>
    obtain ⟨k', v'⟩ := d
    rw [List.pairwise_cons] at h
    rw [put]
    split
    · rename_i lt
      refine .cons (fun e he => ?_) (.cons h.1 h.2)
      rcases List.mem_cons.mp he with rfl | he
      · exact lt
      · exact String.lt_trans lt (h.1 e he)
    · split
      · rename_i eq
        subst eq
        exact .cons h.1 h.2
      · rename_i nlt ne
        refine .cons (fun e he => ?_) (ih h.2)
        rcases mem_put he with rfl | he
        · rcases Std.lt_trichotomy k k' with lt | eq | gt
          · exact absurd lt nlt
          · exact absurd eq ne
          · exact gt
        · exact h.1 e he

def insert (m : Keyed α) (k : String) (v : α) : Keyed α :=
  ⟨put k v m.entries, pairwise_put k v m.ordered⟩

def ofList (entries : List (String × α)) : Keyed α :=
  entries.foldl (fun m e => m.insert e.1 e.2) empty

def get? (m : Keyed α) (k : String) : Option α :=
  m.entries.lookup k

def keys (m : Keyed α) : List String :=
  m.entries.map (·.1)

def size (m : Keyed α) : Nat :=
  m.entries.length

def isEmpty (m : Keyed α) : Bool :=
  m.entries.isEmpty

theorem lookup_cons_eq (k j : String) (v : α) (l : List (String × α)) :
    ((k, v) :: l).lookup j = if j = k then some v else l.lookup j := by
  by_cases h : j = k
  · simp [h]
  · rw [List.lookup_cons, beq_eq_false_iff_ne.mpr h, if_neg h]

theorem lookup_put (k j : String) (v : α) (l : List (String × α)) :
    (put k v l).lookup j = if j = k then some v else l.lookup j := by
  induction l with
  | nil => rw [put, lookup_cons_eq]
  | cons d rest ih =>
    obtain ⟨k', v'⟩ := d
    rw [put]
    split
    · rw [lookup_cons_eq]
    · split
      · rename_i eq
        subst eq
        rw [lookup_cons_eq, lookup_cons_eq]
        split <;> rfl
      · rename_i ne
        rw [lookup_cons_eq, lookup_cons_eq, ih]
        split
        · rename_i h
          subst h
          rw [ite_eq_right_iff.mpr (fun h => absurd h.symm ne)]
        · rfl

@[simp] theorem get?_insert (m : Keyed α) (k j : String) (v : α) :
    (m.insert k v).get? j = if j = k then some v else m.get? j :=
  lookup_put k j v m.entries

theorem lookup_eq_some_iff {l : List (String × α)} (h : l.Pairwise (fun a b => a.1 < b.1))
    {k : String} {v : α} : l.lookup k = some v ↔ (k, v) ∈ l := by
  induction l with
  | nil => simp
  | cons d rest ih =>
    obtain ⟨k', v'⟩ := d
    rw [List.pairwise_cons] at h
    by_cases hk : k = k'
    · subst hk
      rw [lookup_cons_eq]
      simp only [↓reduceIte, Option.some.injEq, List.mem_cons, Prod.mk.injEq, true_and]
      refine ⟨fun e => .inl e.symm, ?_⟩
      rintro (e | mem)
      · exact e.symm
      · exact absurd (h.1 _ mem) (String.lt_irrefl _)
    · simp [lookup_cons_eq, hk, ih h.2]

theorem get?_eq_some_iff {m : Keyed α} {k : String} {v : α} :
    m.get? k = some v ↔ (k, v) ∈ m.entries :=
  lookup_eq_some_iff m.ordered

end Keyed

end GatewayPlan
