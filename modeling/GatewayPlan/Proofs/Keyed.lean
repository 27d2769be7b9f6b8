import GatewayPlan.Keyed
import Mathlib.Data.List.Induction
import Mathlib.Data.List.Nodup

/-!
# Entries of keyed maps

Writing under a new key adds one entry and leaves the others. A map made of entries with distinct
keys therefore holds just these entries, in another order. Of entries with one key the last is held.
-/

namespace GatewayPlan.Keyed

universe u
variable {α : Type u}

theorem lookup_eq_none_iff_notMem {k : String} {l : List (String × α)} :
    l.lookup k = none ↔ k ∉ l.map Prod.fst := by
  rw [List.lookup_eq_none_iff]
  constructor
  · intro h mem
    obtain ⟨e, he, rfl⟩ := List.mem_map.mp mem
    simpa using h e he
  · intro h e he
    have ne : k ≠ e.1 := fun eq => h (eq ▸ List.mem_map_of_mem he)
    simpa using ne

theorem lookup_eq_some_iff_of_nodup {k : String} {v : α} {l : List (String × α)}
    (distinct : (l.map Prod.fst).Nodup) : l.lookup k = some v ↔ (k, v) ∈ l := by
  induction l with
  | nil => simp
  | cons e rest ih =>
    obtain ⟨k', v'⟩ := e
    obtain ⟨notMem, distinct⟩ := List.nodup_cons.mp distinct
    rw [lookup_cons_eq, List.mem_cons, Prod.mk.injEq, ← ih distinct]
    split
    · rename_i eq
      subst eq
      have none : rest.lookup k = none := lookup_eq_none_iff_notMem.mpr notMem
      simp [none, eq_comm]
    · rename_i ne
      simp [ne]

theorem get?_eq_none_iff {m : Keyed α} {k : String} : m.get? k = none ↔ k ∉ m.keys :=
  lookup_eq_none_iff_notMem

theorem mem_keys_iff {m : Keyed α} {k : String} : k ∈ m.keys ↔ ∃ v, m.get? k = some v := by
  rw [← not_iff_not, ← get?_eq_none_iff, Option.eq_none_iff_forall_ne_some, not_exists]

theorem put_perm {k : String} (v : α) {l : List (String × α)} (fresh : k ∉ l.map Prod.fst) :
    (put k v l).Perm ((k, v) :: l) := by
  induction l with
  | nil => exact .refl _
  | cons d rest ih =>
    obtain ⟨k', v'⟩ := d
    simp only [List.map_cons, List.mem_cons, not_or] at fresh
    rw [put]
    split
    · exact .refl _
    · rw [if_neg fresh.1]
      have moved_past := List.Perm.swap (k, v) (k', v') rest
      exact ((ih fresh.2).cons (k', v')).trans moved_past

theorem insert_perm {m : Keyed α} {k : String} (v : α) (fresh : k ∉ m.keys) :
    (m.insert k v).entries.Perm ((k, v) :: m.entries) :=
  put_perm v fresh

theorem foldl_insert_perm {es : List (String × α)} (m : Keyed α)
    (distinct : (es.map Prod.fst).Nodup) (fresh : ∀ e ∈ es, e.1 ∉ m.keys) :
    (es.foldl (fun m e => m.insert e.1 e.2) m).entries.Perm (es ++ m.entries) := by
  induction es generalizing m with
  | nil => exact .refl _
  | cons d rest ih =>
    obtain ⟨notMem, distinct⟩ := List.nodup_cons.mp distinct
    have one := insert_perm d.2 (fresh d List.mem_cons_self)
    have later : ∀ e ∈ rest, e.1 ∉ (m.insert d.1 d.2).keys := by
      intro e he mem
      rcases List.mem_cons.mp ((one.map Prod.fst).mem_iff.mp mem) with eq | old
      · exact notMem (eq ▸ List.mem_map_of_mem he)
      · exact fresh e (List.mem_cons_of_mem d he) old
    exact (ih (m.insert d.1 d.2) distinct later).trans ((one.append_left rest).trans
      List.perm_middle)

theorem ofList_perm {es : List (String × α)} (distinct : (es.map Prod.fst).Nodup) :
    (ofList es).entries.Perm es := by
  have perm := foldl_insert_perm empty distinct fun _ _ => List.not_mem_nil
  rwa [show (empty : Keyed α).entries = [] from rfl, List.append_nil] at perm

theorem ofList_concat (es : List (String × α)) (e : String × α) :
    ofList (es ++ [e]) = (ofList es).insert e.1 e.2 :=
  List.foldl_concat _ _ _ _

theorem get?_ofList (es : List (String × α)) (k : String) :
    (ofList es).get? k = es.reverse.lookup k := by
  induction es using List.reverseRecOn with
  | nil => rfl
  | append_singleton es e ih =>
    rw [ofList_concat, get?_insert, ih, List.reverse_concat, ← Prod.eta e, lookup_cons_eq]

/-- The last entry of a key is the one that a map holds. -/
theorem get?_ofList_eq_some_iff {es : List (String × α)} {k : String} {v : α} :
    (ofList es).get? k = some v ↔
      ∃ before after, es = before ++ (k, v) :: after ∧ ∀ e ∈ after, e.1 ≠ k := by
  rw [get?_ofList, List.lookup_eq_some_iff]
  constructor
  · intro ⟨after, before, cut, other⟩
    refine ⟨before.reverse, after.reverse, ?_, ?_⟩
    · simpa using congrArg List.reverse cut
    · intro e mem
      exact Ne.symm (bne_iff_ne.mp (other e (List.mem_reverse.mp mem)))
  · intro ⟨before, after, cut, other⟩
    refine ⟨after.reverse, before.reverse, ?_, ?_⟩
    · simp [cut]
    · intro e mem
      exact bne_iff_ne.mpr (Ne.symm (other e (List.mem_reverse.mp mem)))

theorem mem_keys_ofList {es : List (String × α)} {k : String} :
    k ∈ (ofList es).keys ↔ k ∈ es.map Prod.fst := by
  rw [← not_iff_not, ← get?_eq_none_iff, get?_ofList, lookup_eq_none_iff_notMem, List.map_reverse,
    List.mem_reverse]

/-- Where entries with one key agree, none of them is lost. -/
theorem get?_ofList_eq_some_iff_of_agree {es : List (String × α)} {k : String} {v : α}
    (agree : ∀ d ∈ es, ∀ e ∈ es, d.1 = e.1 → d.2 = e.2) :
    (ofList es).get? k = some v ↔ (k, v) ∈ es := by
  have kept : ∀ w, (ofList es).get? k = some w → (k, w) ∈ es := by
    intro w held
    obtain ⟨before, after, cut, -⟩ := get?_ofList_eq_some_iff.mp held
    simp [cut]
  constructor
  · exact kept v
  · intro mem
    obtain ⟨w, held⟩ := mem_keys_iff.mp (mem_keys_ofList.mpr (List.mem_map_of_mem mem))
    have same : w = v := agree _ (kept w held) _ mem rfl
    exact same ▸ held

theorem nodup_keys (m : Keyed α) : (m.entries.map Prod.fst).Nodup := by
  rw [List.Nodup, List.pairwise_map]
  refine m.ordered.imp fun {a b} lt eq => ?_
  rw [eq] at lt
  exact String.lt_irrefl b.1 lt

/-- The order of the keys leaves one order for the entries. -/
theorem eq_of_entries_perm {m n : Keyed α} (h : m.entries.Perm n.entries) : m = n := by
  apply ext
  refine h.eq_of_pairwise ?_ m.ordered n.ordered
  intro a b _ _ ab ba
  exact absurd (String.lt_trans ab ba) (String.lt_irrefl a.1)

/-- A map is told by what it has under each key. -/
theorem eq_of_get? {m n : Keyed α} (h : ∀ k, m.get? k = n.get? k) : m = n := by
  apply eq_of_entries_perm
  apply (List.perm_ext_iff_of_nodup m.nodup_keys.of_map n.nodup_keys.of_map).mpr
  intro e
  rw [← Prod.eta e, ← get?_eq_some_iff, ← get?_eq_some_iff, h]

/-- The keys stand in one order in all maps that have them. -/
theorem keys_eq_of_mem_iff {m n : Keyed α} (h : ∀ k, k ∈ m.keys ↔ k ∈ n.keys) :
    m.keys = n.keys := by
  have perm := (List.perm_ext_iff_of_nodup m.nodup_keys n.nodup_keys).mpr h
  refine perm.eq_of_pairwise ?_ (List.pairwise_map.mpr m.ordered) (List.pairwise_map.mpr n.ordered)
  intro a b _ _ ab ba
  exact absurd (String.lt_trans ab ba) (String.lt_irrefl a)

/-- Which keys a map has does not depend on what is written under them. -/
theorem keys_put (k : String) (v w : α) (l : List (String × α)) :
    (put k v l).map Prod.fst = (put k w l).map Prod.fst := by
  induction l with
  | nil => rfl
  | cons d rest ih =>
    obtain ⟨k', v'⟩ := d
    rw [put, put]
    split
    · rfl
    · split
      · rfl
      · simp only [List.map_cons, ih]

theorem size_insert (m : Keyed α) (k : String) (v w : α) :
    (m.insert k v).size = (m.insert k w).size := by
  have keys := congrArg List.length (keys_put k v w m.entries)
  rwa [List.length_map, List.length_map] at keys

end GatewayPlan.Keyed
