import GatewayPlan.Tree.Codec
import Mathlib.Data.List.Perm.Basic

/-!
# Trees that stand for one another

What a tree says does not depend on how it is set down: a scalar may stand without quotes where it
still says of which type it is, and the entries of a map come in any order. A tree that can be
settled stands for one that says the type of every scalar.
-/

namespace GatewayPlan.Tree

namespace Plain

theorem kept?_eq_some {m n : Node} (h : kept? m = some n) : m = n := by
  unfold kept? at h
  split at h
  · split at h
    · exact Option.some.inj h
    · cases h
  · split at h
    · exact Option.some.inj h
    · cases h
  · exact Option.some.inj h

/-- A scalar without quotes stands for a scalar, and for a text only if that is its own. -/
theorem resolve_cases (s : String) : resolve s = .null ∨ (∃ b, resolve s = .bool b) ∨
    (∃ n, resolve s = .num n) ∨ resolve s = .text s := by
  unfold resolve
  split
  · exact .inl rfl
  · split
    · exact .inr (.inl ⟨_, rfl⟩)
    · split
      · exact .inr (.inr (.inl ⟨_, rfl⟩))
      · split
        · exact .inr (.inr (.inl ⟨_, rfl⟩))
        · exact .inr (.inr (.inr rfl))

theorem eq_of_resolve_eq_text {s t : String} (h : resolve s = .text t) : s = t := by
  rcases resolve_cases s with e | ⟨b, e⟩ | ⟨n, e⟩ | e <;> rw [e] at h <;> cases h
  rfl

end Plain

namespace Node

mutual

/-- The first tree stands for the second. -/
inductive StandsFor : Node → Node → Prop
  | refl (n : Node) : StandsFor n n
  | plain {s : String} {n : Node} : Plain.kept? (Plain.resolve s) = some n →
      StandsFor (.plain s) n
  | seq {ms ns : List Node} : ItemsStandFor ms ns → StandsFor (.seq ms) (.seq ns)
  | map {es fs fs' : List (Node × Node)} : EntriesStandFor es fs → fs.Perm fs' →
      StandsFor (.map es) (.map fs')

inductive ItemsStandFor : List Node → List Node → Prop
  | nil : ItemsStandFor [] []
  | cons {m n : Node} {ms ns : List Node} : StandsFor m n → ItemsStandFor ms ns →
      ItemsStandFor (m :: ms) (n :: ns)

inductive EntriesStandFor : List (Node × Node) → List (Node × Node) → Prop
  | nil : EntriesStandFor [] []
  | cons {k v j w : Node} {es fs : List (Node × Node)} : StandsFor k j → StandsFor v w →
      EntriesStandFor es fs → EntriesStandFor ((k, v) :: es) ((j, w) :: fs)

end

theorem itemsStandFor_iff {ms ns : List Node} :
    ItemsStandFor ms ns ↔ List.Forall₂ StandsFor ms ns := by
  constructor
  · intro h
    induction ms generalizing ns with
    | nil =>
      cases h
      exact .nil
    | cons m ms ih =>
      cases h with
      | cons head tail => exact .cons head (ih tail)
  · intro h
    induction h with
    | nil => exact .nil
    | cons head _ ih => exact .cons head ih

/-- Two entries of which one stands for the other. -/
def EntryStandsFor (e f : Node × Node) : Prop :=
  e.1.StandsFor f.1 ∧ e.2.StandsFor f.2

theorem entriesStandFor_iff {es fs : List (Node × Node)} :
    EntriesStandFor es fs ↔ List.Forall₂ EntryStandsFor es fs := by
  constructor
  · intro h
    induction es generalizing fs with
    | nil =>
      cases h
      exact .nil
    | cons e es ih =>
      cases h with
      | cons key value tail => exact .cons ⟨key, value⟩ (ih tail)
  · intro h
    induction h with
    | nil => exact .nil
    | cons head _ ih => exact .cons head.1 head.2 ih

variable {m : Node}

theorem standsFor_text_iff {s : String} : m.StandsFor (.text s) ↔
    m = .text s ∨ (m = .plain s ∧ Plain.resolve s = .text s) := by
  constructor
  · intro h
    cases h with
    | refl => exact .inl rfl
    | plain kept =>
      have resolved := Plain.kept?_eq_some kept
      cases Plain.eq_of_resolve_eq_text resolved
      exact .inr ⟨rfl, resolved⟩
  · rintro (rfl | ⟨rfl, resolved⟩)
    · exact .refl _
    · exact .plain (by simp [resolved, Plain.kept?])

theorem settled?_of_standsFor_text {s : String} (h : m.StandsFor (.text s)) :
    m.settled? = some (.text s) := by
  rcases standsFor_text_iff.mp h with rfl | ⟨rfl, resolved⟩
  · rfl
  · simp [settled?, resolved, Plain.kept?]

/-- A scalar that says its type. -/
def isScalar : Node → Bool
  | null => true
  | bool _ => true
  | num _ => true
  | text _ => true
  | _ => false

/-- Asked for its value, a scalar that stands for another gives it. -/
theorem scalar_of_standsFor {n : Node} (h : m.StandsFor n) (leaf : n.isScalar = true) :
    m.scalar = n := by
  cases h with
  | refl => cases m <;> first | rfl | cases leaf
  | plain kept => exact Plain.kept?_eq_some kept
  | seq => cases leaf
  | map => cases leaf

theorem standsFor_seq_iff {ns : List Node} :
    m.StandsFor (.seq ns) ↔ ∃ ms, m = .seq ms ∧ List.Forall₂ StandsFor ms ns := by
  constructor
  · intro h
    cases h with
    | refl => exact ⟨ns, rfl, List.forall₂_same.mpr fun n _ => .refl n⟩
    | @plain s _ kept =>
      have resolved := Plain.kept?_eq_some kept
      rcases Plain.resolve_cases s with e | ⟨b, e⟩ | ⟨n, e⟩ | e <;> rw [e] at resolved <;>
        cases resolved
    | seq items => exact ⟨_, rfl, itemsStandFor_iff.mp items⟩
  · rintro ⟨ms, rfl, items⟩
    exact .seq (itemsStandFor_iff.mpr items)

theorem standsFor_map_iff {fs' : List (Node × Node)} : m.StandsFor (.map fs') ↔
    ∃ es fs, m = .map es ∧ List.Forall₂ EntryStandsFor es fs ∧ fs.Perm fs' := by
  constructor
  · intro h
    cases h with
    | refl =>
      exact ⟨fs', fs', rfl, List.forall₂_same.mpr fun f _ => ⟨.refl f.1, .refl f.2⟩, .refl fs'⟩
    | @plain s _ kept =>
      have resolved := Plain.kept?_eq_some kept
      rcases Plain.resolve_cases s with e | ⟨b, e⟩ | ⟨n, e⟩ | e <;> rw [e] at resolved <;>
        cases resolved
    | map entries perm => exact ⟨_, _, rfl, entriesStandFor_iff.mp entries, perm⟩
  · rintro ⟨es, fs, rfl, entries, perm⟩
    exact .map (entriesStandFor_iff.mpr entries) perm

/-- A map that was written from a list stands in the order of some other list of the same items. -/
theorem standsFor_map_map_iff {β : Type} {g : β → Node × Node} {ws : List β} :
    m.StandsFor (.map (ws.map g)) ↔ ∃ es ws', m = .map es ∧ ws'.Perm ws ∧
      List.Forall₂ (fun e w => EntryStandsFor e (g w)) es ws' := by
  rw [standsFor_map_iff]
  constructor
  · rintro ⟨es, fs, rfl, entries, perm⟩
    have images : List.Forall₂ (fun f w => f = g w) (ws.map g) ws :=
      List.forall₂_map_left_iff.mpr (List.forall₂_same.mpr fun _ _ => rfl)
    obtain ⟨ws', images, perm'⟩ := List.perm_comp_forall₂ perm images
    have same : fs = ws'.map g := by
      rwa [← List.forall₂_map_right_iff, List.forall₂_eq_eq_eq] at images
    rw [same, List.forall₂_map_right_iff] at entries
    exact ⟨es, ws', rfl, perm', entries⟩
  · rintro ⟨es, ws', rfl, perm, entries⟩
    exact ⟨es, ws'.map g, rfl, List.forall₂_map_right_iff.mpr entries, perm.map g⟩

/-! ### Settled trees -/

theorem settledItems?_self_iff {ns : List Node} :
    settledItems? ns = some ns ↔ ∀ n ∈ ns, n.settled? = some n := by
  induction ns with
  | nil => simp [settledItems?]
  | cons n rest ih =>
    rw [List.forall_mem_cons, ← ih, settledItems?]
    cases n.settled? <;> cases settledItems? rest <;> simp

theorem settledEntries?_self_iff {es : List (Node × Node)} : settledEntries? es = some es ↔
    ∀ e ∈ es, e.1.settled? = some e.1 ∧ e.2.settled? = some e.2 := by
  induction es with
  | nil => simp [settledEntries?]
  | cons e rest ih =>
    rw [List.forall_mem_cons, ← ih, settledEntries?]
    cases e.1.settled? <;> cases e.2.settled? <;> cases settledEntries? rest <;>
      simp [Prod.ext_iff, and_assoc]

theorem settled?_seq_self_iff {ns : List Node} :
    (seq ns).settled? = some (seq ns) ↔ ∀ n ∈ ns, n.settled? = some n := by
  rw [← settledItems?_self_iff, settled?]
  cases settledItems? ns <;> simp

theorem settled?_map_self_iff {es : List (Node × Node)} : (map es).settled? = some (map es) ↔
    ∀ e ∈ es, e.1.settled? = some e.1 ∧ e.2.settled? = some e.2 := by
  rw [← settledEntries?_self_iff, settled?]
  cases settledEntries? es <;> simp

mutual

/-- A tree that stands for a settled one can be settled, and stands for it still. -/
theorem StandsFor.settles : ∀ {m n : Node}, StandsFor m n → n.settled? = some n →
    ∃ m', m.settled? = some m' ∧ m'.StandsFor n
  | _, _, .refl n, h => ⟨n, h, .refl n⟩
  | _, _, .plain kept, _ => ⟨_, kept, .refl _⟩
  | _, _, @StandsFor.seq ms ns items, h => by
    obtain ⟨ms', settled, stands⟩ :=
      items.settles (settledItems?_self_iff.mpr (settled?_seq_self_iff.mp h))
    exact ⟨.seq ms', by rw [settled?, settled]; rfl, .seq stands⟩
  | _, _, @StandsFor.map es _ _ entries perm, h => by
    have each := settled?_map_self_iff.mp h
    obtain ⟨es', settled, stands⟩ := entries.settles
      (settledEntries?_self_iff.mpr fun e mem => each e (perm.mem_iff.mp mem))
    exact ⟨.map es', by rw [settled?, settled]; rfl, .map stands perm⟩

theorem ItemsStandFor.settles : ∀ {ms ns : List Node}, ItemsStandFor ms ns →
    settledItems? ns = some ns → ∃ ms', settledItems? ms = some ms' ∧ ItemsStandFor ms' ns
  | _, _, .nil, _ => ⟨[], rfl, .nil⟩
  | _, _, .cons head tail, h => by
    have each := settledItems?_self_iff.mp h
    obtain ⟨m', first, stands⟩ := head.settles (each _ List.mem_cons_self)
    obtain ⟨ms', rest, others⟩ := tail.settles
      (settledItems?_self_iff.mpr fun n mem => each n (List.mem_cons_of_mem _ mem))
    exact ⟨m' :: ms', by rw [settledItems?, first, rest], .cons stands others⟩

theorem EntriesStandFor.settles : ∀ {es fs : List (Node × Node)}, EntriesStandFor es fs →
    settledEntries? fs = some fs → ∃ es', settledEntries? es = some es' ∧ EntriesStandFor es' fs
  | _, _, .nil, _ => ⟨[], rfl, .nil⟩
  | _, _, .cons key value tail, h => by
    have each := settledEntries?_self_iff.mp h
    have own := each _ List.mem_cons_self
    obtain ⟨k', first, named⟩ := key.settles own.1
    obtain ⟨v', second, stands⟩ := value.settles own.2
    obtain ⟨es', rest, others⟩ := tail.settles
      (settledEntries?_self_iff.mpr fun e mem => each e (List.mem_cons_of_mem _ mem))
    exact ⟨(k', v') :: es', by rw [settledEntries?, first, second, rest],
      .cons named stands others⟩

end

theorem tagged?_ne_tagged {type s tag : String} {content : Node} :
    Plain.tagged? type s ≠ some (.tagged tag content) := by
  intro h
  unfold Plain.tagged? at h
  split at h
  · split at h <;> cases h
  split at h
  · obtain ⟨b, -, h⟩ := Option.map_eq_some_iff.mp h
    cases h
  split at h
  · obtain ⟨n, -, h⟩ := Option.bind_eq_some_iff.mp h
    cases Plain.kept?_eq_some h
  split at h
  · obtain ⟨bits, -, h⟩ := Option.map_eq_some_iff.mp h
    cases h
  · cases h

theorem settled?_ne_tagged {tag : String} {content : Node} :
    ∀ {m : Node}, m.settled? ≠ some (.tagged tag content)
  | .plain s, h => by
    rcases Plain.resolve_cases s with e | ⟨b, e⟩ | ⟨n, e⟩ | e <;>
      cases e.symm.trans (Plain.kept?_eq_some h)
  | .seq ms, h => by
    rw [settled?] at h
    obtain ⟨_, -, h⟩ := Option.map_eq_some_iff.mp h
    cases h
  | .map es, h => by
    rw [settled?] at h
    obtain ⟨_, -, h⟩ := Option.map_eq_some_iff.mp h
    cases h
  | .tagged type inner, h => by
    cases inner with
    | plain s =>
      rw [settled?] at h
      split at h
      · cases h
      · exact tagged?_ne_tagged h
    | text s =>
      rw [settled?] at h
      split at h
      · cases h
      · exact tagged?_ne_tagged h
    | _ =>
      rw [settled?] at h
      · split at h
        · cases h
        · exact settled?_ne_tagged h
      all_goals nofun

/-- A tree that stands for a value other than null is not taken for null, nor is it tagged. -/
theorem StandsFor.present {n : Node} (h : m.StandsFor n) (settled : n.settled? = some n)
    (present : n ≠ .null) : m ≠ .null ∧ (∀ s, m = .plain s → Plain.isNull s = false) ∧
      ∀ tag content, m ≠ .tagged tag content := by
  cases h with
  | refl =>
    refine ⟨present, ?_, ?_⟩
    · rintro s rfl
      rcases Plain.resolve_cases s with e | ⟨b, e⟩ | ⟨n, e⟩ | e <;>
        cases e.symm.trans (Plain.kept?_eq_some settled)
    · rintro tag content rfl
      exact settled?_ne_tagged settled
  | @plain s n kept =>
    refine ⟨nofun, ?_, nofun⟩
    rintro _ ⟨⟩
    by_contra null
    rw [Bool.not_eq_false] at null
    apply present
    rw [← Plain.kept?_eq_some kept, Plain.resolve, if_pos null]
  | seq => exact ⟨nofun, nofun, nofun⟩
  | map => exact ⟨nofun, nofun, nofun⟩

mutual

/-- What can be settled is well formed to the end. -/
theorem intact_of_settled? : ∀ {m : Node}, m.settled?.isSome = true → m.intact = true
  | .null, _ => rfl
  | .bool _, _ => rfl
  | .num _, _ => rfl
  | .text _, _ => rfl
  | .plain _, _ => rfl
  | .seq ms, h => by
    rw [settled?, Option.isSome_map] at h
    exact intact_of_settledItems? h
  | .map es, h => by
    rw [settled?, Option.isSome_map] at h
    exact intact_of_settledEntries? h
  | .tagged tag content, h => by
    rw [intact]
    cases content with
    | plain s => rfl
    | text s => rfl
    | _ =>
      rw [settled?] at h
      · split at h
        · cases h
        · exact intact_of_settled? h
      all_goals nofun
  | .broken, h => nomatch h
  | .unreadable, _ => rfl

theorem intact_of_settledItems? : ∀ {ms : List Node}, (settledItems? ms).isSome = true →
    intactItems ms = true
  | [], _ => rfl
  | m :: rest, h => by
    rw [settledItems?] at h
    cases first : m.settled? with
    | none => simp [first] at h
    | some m' =>
      cases others : settledItems? rest with
      | none => simp [first, others] at h
      | some rest' =>
        rw [intactItems, intact_of_settled? (by rw [first]; rfl),
          intact_of_settledItems? (by rw [others]; rfl)]
        rfl

theorem intact_of_settledEntries? : ∀ {es : List (Node × Node)},
    (settledEntries? es).isSome = true → intactEntries es = true
  | [], _ => rfl
  | (k, v) :: rest, h => by
    rw [settledEntries?] at h
    cases first : k.settled? with
    | none => simp [first] at h
    | some k' =>
      cases second : v.settled? with
      | none => simp [first, second] at h
      | some v' =>
        cases others : settledEntries? rest with
        | none => simp [first, second, others] at h
        | some rest' =>
          rw [intactEntries, intact_of_settled? (by rw [first]; rfl),
            intact_of_settled? (by rw [second]; rfl),
            intact_of_settledEntries? (by rw [others]; rfl)]
          rfl

end

end Node

end GatewayPlan.Tree
