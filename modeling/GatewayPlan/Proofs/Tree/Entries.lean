import GatewayPlan.Proofs.Tree.Record

/-!
# What records take in

A map is read as a record exactly if each of its entries is taken in or passed over, no field is
met twice, and the record can be built from what was met. What stands in the place of a field is
what the field is built from.
-/

namespace GatewayPlan.Tree

/-- The node is a text, with or without quotes. -/
def Node.Says (n : Node) (s : String) : Prop :=
  n.untagged = .text s ∨ n.untagged = .plain s

theorem Node.Says.unique {n : Node} {s t : String} (h : n.Says s) (h' : n.Says t) : s = t := by
  rcases h with h | h <;> rcases h' with h' | h' <;> cases h.symm.trans h' <;> rfl

namespace Codec

variable {α β : Type} {src : Source} {n : Node}

theorem string_eq_ok_iff {s : String} : string.decode src n = .ok s ↔ n.Says s := by
  simp only [string, stringExpecting, Node.Says]
  cases n.untagged <;> simp [Node.unexpected]

theorem bool_eq_ok_iff {b : Bool} : bool.decode src n = .ok b ↔ n.scalar = .bool b := by
  simp only [bool]
  cases n.scalar <;> simp [Node.unexpected]

/-- Each item of a list that was read is one of the values. -/
theorem exists_of_list_item {c : Codec α} {xs : List α} {items : List Node} {item : Node}
    (h : c.list.decode src n = .ok xs) (list : n.untagged = .seq items) (mem : item ∈ items) :
    ∃ x ∈ xs, c.decode src item = .ok x := by
  simp only [Codec.list, list] at h
  exact Except.exists_result_of_mem h item mem

section Choice

variable {table : List (String × α)} {name : α → String}

theorem pick_eq_ok_iff {s : String} {x : α} : pick table s = .ok x ↔ table.lookup s = some x := by
  simp only [pick]
  cases table.lookup s <;> simp

/-- A text chooses by its name, unless the document gives it a tag of its own. -/
theorem choice_of_text {s : String} (h : n.general = .text s ∨ n.general = .plain s) :
    (choice table name).decode src n = pick table s := by
  cases n with
  | tagged tag content =>
    cases own : Node.localTag? tag with
    | some label =>
      simp only [Node.general, own, Option.isSome_some, if_true] at h
      rcases h with h | h <;> cases h
    | none =>
      simp only [Node.general, own, Option.isSome_none, Bool.false_eq_true, if_false] at h
      simp only [choice, own]
      rcases h with rfl | rfl <;> rfl
  | _ => rcases h with h | h <;> cases h <;> rfl

end Choice

section Refine

variable {c : Codec β} {write : α → β} {read : β → Except String α}

theorem refine_eq_ok_iff {x : α} : (c.refine write read).decode src n = .ok x ↔
    ∃ u, c.decode src n = .ok u ∧ read u = .ok x := by
  rw [refine, Except.bind_eq_ok_iff]
  apply exists_congr
  intro u
  cases read u <;> simp [pure, Except.pure, throw, throwThe, MonadExceptOf.throw]

theorem refine_of_refused {u : β} {reason : String} (h : c.decode src n = .ok u)
    (refused : read u = .error reason) :
    (c.refine write read).decode src n = .error (.mismatch (.refused reason)) := by
  simp only [refine, h, bind, Except.bind, refused]
  rfl

end Refine

end Codec

namespace Fields

variable {ρ α β : Type} {slots : List Slot} {src : Source} {entries : List (Node × Node)}

theorem slot_check_eq_ok_iff {name : String} {c : Codec β} {alias? : Option String} {n : Node} :
    (slot name c alias?).check src n = .ok () ↔ ∃ b, c.decode src n = .ok b := by
  simp only [slot]
  cases c.decode src n <;> simp [Except.map]

theorem mem_of_slotOf {k : Node} {s : Slot} (h : slotOf slots k = .ok (some s)) : s ∈ slots := by
  unfold slotOf at h
  split at h
  · exact List.mem_of_getElem? (Except.ok.inj h)
  · obtain ⟨name, -, h⟩ := Except.bind_eq_ok_iff.mp h
    exact List.mem_of_find?_eq_some (Except.ok.inj h)

/-! ### Going through entries -/

/-- What the entries of a map say of fields, under the names of these. -/
def answers (slots : List Slot) (entries : List (Node × Node)) : List (String × Node) :=
  entries.filterMap fun e =>
    match slotOf slots e.1 with
    | .ok (some s) => some (s.name, e.2)
    | _ => none

theorem answers_cons_own {k v : Node} {s : Slot} (key : slotOf slots k = .ok (some s)) :
    answers slots ((k, v) :: entries) = (s.name, v) :: answers slots entries := by
  simp only [answers, List.filterMap_cons, key]

theorem answers_cons_foreign {k v : Node} (key : slotOf slots k = .ok none) :
    answers slots ((k, v) :: entries) = answers slots entries := by
  simp only [answers, List.filterMap_cons, key]

theorem mem_answers {k v : Node} {s : Slot} (mem : (k, v) ∈ entries)
    (key : slotOf slots k = .ok (some s)) : (s.name, v) ∈ answers slots entries :=
  List.mem_filterMap.mpr ⟨(k, v), mem, by simp only [key]⟩

/-- The entry answers to a field that takes it in, or to none. -/
inductive Admits (slots : List Slot) (src : Source) (e : Node × Node) : Prop
  | field (s : Slot) : slotOf slots e.1 = .ok (some s) → s.check src e.2 = .ok () →
      Admits slots src e
  | other : slotOf slots e.1 = .ok none → e.2.intact = true → Admits slots src e

/-- What the first entry of a map needs for the rest to be gone through. -/
theorem collect_cons_eq_ok_iff {met all : List (String × Node)} {k v : Node} :
    collect slots src met ((k, v) :: entries) = .ok all ↔
      (slotOf slots k = .ok none ∧ v.intact = true ∧ collect slots src met entries = .ok all) ∨
        ∃ s, slotOf slots k = .ok (some s) ∧ s.name ∉ met.map Prod.fst ∧
          s.check src v = .ok () ∧ collect slots src (met ++ [(s.name, v)]) entries = .ok all := by
  constructor
  · intro h
    obtain ⟨found, key, h⟩ := Except.bind_eq_ok_iff.mp h
    cases found with
    | none =>
      refine .inl ⟨key, ?_⟩
      cases intact : v.intact <;> simp only [intact] at h
      · cases h
      · exact ⟨rfl, h⟩
    | some s =>
      refine .inr ⟨s, key, ?_⟩
      cases known : met.any (fun e => decide (e.1 = s.name)) <;> simp only [known] at h
      · obtain ⟨_, checked, h⟩ := Except.bind_eq_ok_iff.mp h
        rw [← any_met_iff, known]
        exact ⟨Bool.false_ne_true, checked, h⟩
      · cases h
  · rintro (⟨key, intact, h⟩ | ⟨s, key, fresh, checked, h⟩)
    · rwa [collect_cons_foreign key intact]
    · rwa [collect_cons_own key fresh checked]

/-- Entries are gone through exactly if each is admitted and none answers to a field that another
did, and then what they say of fields is behind what was met before. -/
theorem collect_eq_ok_iff {met all : List (String × Node)} (distinct : (met.map Prod.fst).Nodup) :
    collect slots src met entries = .ok all ↔ (∀ e ∈ entries, Admits slots src e) ∧
      all = met ++ answers slots entries ∧ (all.map Prod.fst).Nodup := by
  induction entries generalizing met with
  | nil =>
    rw [collect, answers, List.filterMap_nil, List.append_nil, Except.ok.injEq]
    constructor
    · rintro rfl
      exact ⟨by simp, rfl, distinct⟩
    · rintro ⟨-, rfl, -⟩
      rfl
  | cons e rest ih =>
    obtain ⟨k, v⟩ := e
    have longer : ∀ s : Slot, s.name ∉ met.map Prod.fst →
        ((met ++ [(s.name, v)]).map Prod.fst).Nodup := by
      intro s fresh
      rw [List.map_append, List.map_singleton, ← List.concat_eq_append]
      exact distinct.concat fresh
    rw [collect_cons_eq_ok_iff, List.forall_mem_cons]
    constructor
    · rintro (⟨key, intact, h⟩ | ⟨s, key, fresh, checked, h⟩)
      · rw [answers_cons_foreign key]
        obtain ⟨admits, found, once⟩ := (ih distinct).mp h
        exact ⟨⟨.other key intact, admits⟩, found, once⟩
      · rw [answers_cons_own key, List.append_cons]
        obtain ⟨admits, found, once⟩ := (ih (longer s fresh)).mp h
        exact ⟨⟨.field s key checked, admits⟩, found, once⟩
    · rintro ⟨⟨head, admits⟩, found, once⟩
      cases head with
      | field s key checked =>
        rw [answers_cons_own key, List.append_cons] at found
        have fresh : s.name ∉ met.map Prod.fst := by
          intro known
          rw [found, List.append_assoc, List.map_append, List.nodup_append] at once
          exact absurd rfl (once.2.2 s.name known s.name List.mem_cons_self)
        exact .inr ⟨s, key, fresh, checked, (ih (longer s fresh)).mpr ⟨admits, found, once⟩⟩
      | other key intact =>
        rw [answers_cons_foreign key] at found
        exact .inl ⟨key, intact, (ih distinct).mpr ⟨admits, found, once⟩⟩

theorem ofEntries_eq_ok_iff {f : Fields ρ α} {a : α} : f.ofEntries src entries = .ok a ↔
    (∀ e ∈ entries, Admits f.slots src e) ∧ ((answers f.slots entries).map Prod.fst).Nodup ∧
      f.build ⟨src, answers f.slots entries, fun name => .mismatch (.missingField name), false⟩ =
        .ok a := by
  have start : (([] : List (String × Node)).map Prod.fst).Nodup := .nil
  rw [ofEntries, Except.bind_eq_ok_iff]
  simp only [collect_eq_ok_iff start, List.nil_append]
  constructor
  · rintro ⟨_, ⟨admits, rfl, distinct⟩, built⟩
    exact ⟨admits, distinct, built⟩
  · rintro ⟨admits, distinct, built⟩
    exact ⟨_, ⟨admits, rfl, distinct⟩, built⟩

/-! ### Building -/

section Building

variable {met : Met}

theorem build_map_eq_ok_iff {f : Fields ρ α} {g : α → β} {b : β} :
    (g <$> f).build met = .ok b ↔ ∃ a, f.build met = .ok a ∧ g a = b := by
  change (f.build met).map g = .ok b ↔ _
  cases f.build met <;> simp [Except.map]

theorem build_seq_eq_ok_iff {f : Fields ρ (α → β)} {x : Fields ρ α} {b : β} :
    (f <*> x).build met = .ok b ↔
      ∃ g, f.build met = .ok g ∧ ∃ a, x.build met = .ok a ∧ g a = b := by
  change (do
    let g ← f.build met
    let a ← x.build met
    pure (g a)) = .ok b ↔ _
  simp only [Except.bind_eq_ok_iff, pure, Except.pure, Except.ok.injEq]

variable {name : String} {c : Codec β} {b : β}

theorem build_required_eq_ok_iff {get : ρ → β} {alias? : Option String} :
    (required name get c alias?).build met = .ok b ↔
      ∃ n, met.find? name = some n ∧ c.decode met.source n = .ok b := by
  simp only [required]
  cases met.find? name <;> simp

theorem build_defaulted_eq_ok_iff {get : ρ → β} {default : β} :
    (defaulted name get c default).build met = .ok b ↔
      (met.find? name = none ∧ b = default) ∨
        ∃ n, met.find? name = some n ∧ c.decode met.source n = .ok b := by
  simp only [defaulted]
  cases met.find? name <;> simp [eq_comm]

theorem build_defaulted_of_found {get : ρ → β} {default : β} {n : Node}
    (found : met.find? name = some n) :
    (defaulted name get c default).build met = c.decode met.source n := by
  simp only [defaulted, found]

theorem build_omitted_of_found {get : ρ → β} {default : β} {skip : β → Bool} {n : Node}
    (found : met.find? name = some n) :
    (omitted name get c default skip).build met = c.decode met.source n := by
  simp only [omitted, found]

end Building

/-! ### Places of fields -/

/-- The tree `v` stands for the field in a record that is read from `n`: under a key of the field in
a map, or in its place in a list. -/
inductive Holds (slots : List Slot) (name : String) (n v : Node) : Prop
  | entry {entries : List (Node × Node)} {key : Node} {s : Slot} : n.untagged = .map entries →
      (key, v) ∈ entries → slotOf slots key = .ok (some s) → s.name = name →
      Holds slots name n v
  | place {items : List Node} {i : Nat} {s : Slot} : n.untagged = .seq items →
      slots[i]? = some s → items[i]? = some v → s.name = name → Holds slots name n v

/-- The tree is an item of the list that stands for the field. -/
def HoldsItem (slots : List Slot) (name : String) (n item : Node) : Prop :=
  ∃ v items, Holds slots name n v ∧ v.untagged = .seq items ∧ item ∈ items

theorem lookup_checkItems {items : List Node} {met : List (String × Node)}
    (distinct : (slots.map Slot.name).Nodup) (h : checkItems src slots items = .ok met)
    {i : Nat} {s : Slot} {v : Node} (own : slots[i]? = some s) (place : items[i]? = some v) :
    met.lookup s.name = some v := by
  induction slots generalizing items met i with
  | nil => cases own
  | cons first rest ih =>
    cases items with
    | nil => cases place
    | cons n items =>
      obtain ⟨fresh, distinct⟩ := List.nodup_cons.mp distinct
      obtain ⟨_, -, h⟩ := Except.bind_eq_ok_iff.mp h
      obtain ⟨others, tail, h⟩ := Except.bind_eq_ok_iff.mp h
      cases h
      rw [Keyed.lookup_cons_eq]
      cases i with
      | zero =>
        cases own
        cases place
        exact if_pos rfl
      | succ i =>
        have other : s.name ≠ first.name := fun same =>
          fresh (same ▸ List.mem_map_of_mem (List.mem_of_getElem? own))
        rw [if_neg other]
        exact ih distinct tail own place

theorem record_cases {label : String} {f : Fields α α} {n : Node} {a : α}
    (h : (record label f).decode src n = .ok a) :
    (∃ entries, n.untagged = .map entries ∧ f.ofEntries src entries = .ok a) ∨
      (∃ items, n.untagged = .seq items ∧ f.ofItems label src items = .ok a) ∨
      (n.untagged = .plain "" ∧ f.ofEntries src [] = .ok a) := by
  simp only [record] at h
  split at h
  · rename_i entries map
    exact .inl ⟨entries, map, h⟩
  · rename_i items list
    split at h
    · cases h
    · exact .inr (.inl ⟨items, list, h⟩)
  · rename_i empty
    exact .inr (.inr ⟨empty, h⟩)
  · cases h

/-- What a record that was read was built from, with everything that stands in a field's place. -/
theorem exists_met_of_decode {label : String} {f : Fields α α} {n : Node} {a : α}
    (distinct : (f.slots.map Slot.name).Nodup) (h : (record label f).decode src n = .ok a) :
    ∃ met : Met, met.source = src ∧ f.build met = .ok a ∧
      ∀ name v, Holds f.slots name n v → met.find? name = some v := by
  rcases record_cases h with ⟨entries, map, h⟩ | ⟨items, list, h⟩ | ⟨empty, h⟩
  · obtain ⟨-, once, built⟩ := ofEntries_eq_ok_iff.mp h
    refine ⟨_, rfl, built, ?_⟩
    rintro _ v (⟨map', mem, key, rfl⟩ | ⟨list, -⟩)
    · cases map.symm.trans map'
      exact (Keyed.lookup_eq_some_iff_of_nodup once).mpr (mem_answers mem key)
    · cases map.symm.trans list
  · obtain ⟨met, checked, h⟩ := Except.bind_eq_ok_iff.mp h
    obtain ⟨b, built, h⟩ := Except.bind_eq_ok_iff.mp h
    split at h
    · cases h
    · cases h
      refine ⟨_, rfl, built, ?_⟩
      rintro _ v (⟨map, -⟩ | ⟨list', own, place, rfl⟩)
      · cases list.symm.trans map
      · cases list.symm.trans list'
        exact lookup_checkItems distinct checked own place
  · obtain ⟨-, -, built⟩ := ofEntries_eq_ok_iff.mp h
    refine ⟨_, rfl, built, ?_⟩
    rintro _ v (⟨map, -⟩ | ⟨list, -⟩)
    · cases empty.symm.trans map
    · cases empty.symm.trans list

end Fields

end GatewayPlan.Tree
