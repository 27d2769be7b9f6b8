import GatewayPlan.Proofs.Tree.Faithful
import GatewayPlan.Tree.Fields
import Mathlib.Data.Option.Basic

/-!
# Faithful records

The fields of a record keep a value if it can be built again from any trees that stand for what was
written under their names. Fields that keep their parts keep the whole, provided that no two of them
go by one name, and a record is then read back from its entries in any order.
-/

namespace GatewayPlan.Tree

/-- The names that a field goes by. -/
def Slot.labels (s : Slot) : List String :=
  s.name :: s.alias?.toList

theorem exists_of_rel_some {o : Option Node} {n : Node}
    (h : Option.Rel Node.StandsFor o (some n)) : ∃ m, o = some m ∧ m.StandsFor n := by
  cases h with
  | some stands => exact ⟨_, rfl, stands⟩

theorem eq_none_of_rel_none {o : Option Node} (h : Option.Rel Node.StandsFor o none) :
    o = none := by
  cases h
  rfl

namespace Fields

variable {ρ α β : Type} {keys : String → Prop} {depth : Nat}

/-- What it takes to build `a` again from what is written of `r`. -/
structure Keeps (f : Fields ρ α) (keys : String → Prop) (depth : Nat) (r : ρ) (a : α) : Prop where
  names : ((f.write r).map Prod.fst).Sublist (f.slots.map Slot.name)
  written : ∀ e ∈ f.write r, e.2.Written keys depth
  checks : ∀ s ∈ f.slots, ∀ n, (f.write r).lookup s.name = some n →
    ∀ src m, m.StandsFor n → s.check src m = .ok ()
  builds : ∀ met : Met, met.positional = false →
    (∀ s ∈ f.slots, Option.Rel Node.StandsFor (met.find? s.name) ((f.write r).lookup s.name)) →
    f.build met = .ok a

theorem Keeps.lookup_eq_none {f : Fields ρ α} {r : ρ} {a : α} (h : f.Keeps keys depth r a)
    {name : String} (other : name ∉ f.slots.map Slot.name) : (f.write r).lookup name = none :=
  Keyed.lookup_eq_none_iff_notMem.mpr fun mem => other (h.names.subset mem)

/-- Fields of different names that keep a value. -/
def Faithful (f : Fields ρ α) (keys : String → Prop) (depth : Nat) (r : ρ) (a : α) : Prop :=
  (f.slots.map Slot.name).Nodup → f.Keeps keys depth r a

namespace Faithful

variable {r : ρ}

theorem map {f : Fields ρ α} {g : α → β} {a : α} {b : β} (h : f.Faithful keys depth r a)
    (built : g a = b) : (g <$> f).Faithful keys depth r b := by
  intro distinct
  have kept := h distinct
  refine ⟨kept.names, kept.written, kept.checks, fun met byName answers => ?_⟩
  rw [← built]
  exact congrArg (Except.map g) (kept.builds met byName answers)

/-- What one part wrote is not found under the names of the other. -/
theorem seq {f : Fields ρ (α → β)} {x : Fields ρ α} {g : α → β} {a : α} {b : β}
    (hf : f.Faithful keys depth r g) (hx : x.Faithful keys depth r a) (built : g a = b) :
    (f <*> x).Faithful keys depth r b := by
  intro distinct
  have slots : (f <*> x).slots = f.slots ++ x.slots := rfl
  have write : (f <*> x).write r = f.write r ++ x.write r := rfl
  rw [slots, List.map_append, List.nodup_append] at distinct
  obtain ⟨first, second, apart⟩ := distinct
  have first := hf first
  have second := hx second
  have left : ∀ s ∈ f.slots, ((f <*> x).write r).lookup s.name = (f.write r).lookup s.name := by
    intro s mem
    have other : s.name ∉ x.slots.map Slot.name :=
      fun mem' => apart s.name (List.mem_map_of_mem mem) s.name mem' rfl
    rw [write, List.lookup_append, second.lookup_eq_none other, Option.or_none]
  have right : ∀ s ∈ x.slots, ((f <*> x).write r).lookup s.name = (x.write r).lookup s.name := by
    intro s mem
    have other : s.name ∉ f.slots.map Slot.name :=
      fun mem' => apart s.name mem' s.name (List.mem_map_of_mem mem) rfl
    rw [write, List.lookup_append, first.lookup_eq_none other, Option.none_or]
  refine ⟨?_, ?_, ?_, ?_⟩
  · rw [write, slots, List.map_append, List.map_append]
    exact first.names.append second.names
  · rw [write]
    intro e mem
    rcases List.mem_append.mp mem with mem | mem
    · exact first.written e mem
    · exact second.written e mem
  · rw [slots]
    intro s mem
    rcases List.mem_append.mp mem with mem | mem
    · rw [left s mem]
      exact first.checks s mem
    · rw [right s mem]
      exact second.checks s mem
  · rw [slots]
    intro met byName answers
    have function : f.build met = .ok g := by
      apply first.builds met byName
      intro s mem
      rw [← left s mem]
      exact answers s (List.mem_append_left _ mem)
    have argument : x.build met = .ok a := by
      apply second.builds met byName
      intro s mem
      rw [← right s mem]
      exact answers s (List.mem_append_right _ mem)
    refine Except.bind_eq_ok_iff.mpr ⟨g, function, ?_⟩
    exact Except.bind_eq_ok_iff.mpr ⟨a, argument, congrArg Except.ok built⟩

end Faithful

/-- A single field keeps a value that is written faithfully, or left out because it is the default.
-/
theorem faithful_of_slot {f : Fields ρ β} {r : ρ} {name : String} {c : Codec β}
    {alias? : Option String} {x : β} (slots : f.slots = [slot name c alias?])
    (write : (f.write r = [(name, c.encode x)] ∧ c.Faithful keys depth x) ∨ f.write r = [])
    (present : ∀ met n, met.find? name = some n → f.build met = c.decode met.source n)
    (absent : ∀ met, f.write r = [] → met.positional = false → met.find? name = none →
      f.build met = .ok x) : f.Faithful keys depth r x := by
  intro _
  rcases write with ⟨write, faithful⟩ | write
  · have found : (f.write r).lookup name = some (c.encode x) := by
      simp [write]
    refine ⟨?_, ?_, ?_, ?_⟩
    · rw [write, slots]
      exact .refl _
    · rw [write]
      rintro e mem
      rw [List.mem_singleton.mp mem]
      exact faithful.written
    · rw [slots]
      rintro s mem n written src m stands
      rw [List.mem_singleton.mp mem] at written ⊢
      cases found.symm.trans written
      simp only [slot, faithful.reads src m stands]
      rfl
    · intro met _ answers
      have answer := answers (slot name c alias?) (by simp [slots])
      rw [show (slot name c alias?).name = name from rfl, found] at answer
      obtain ⟨m, found, stands⟩ := exists_of_rel_some answer
      rw [present met m found, faithful.reads _ m stands]
  · refine ⟨?_, ?_, ?_, ?_⟩
    · rw [write]
      exact List.nil_sublist _
    · simp [write]
    · simp [write]
    · intro met byName answers
      have answer := answers (slot name c alias?) (by simp [slots])
      rw [show (slot name c alias?).name = name from rfl, write] at answer
      exact absent met write byName (eq_none_of_rel_none answer)

section Fields

variable {r : ρ} {name : String}

theorem required_faithful {get : ρ → β} {c : Codec β} {alias? : Option String}
    (h : c.Faithful keys depth (get r)) :
    (required name get c alias?).Faithful keys depth r (get r) := by
  refine faithful_of_slot rfl (.inl ⟨rfl, h⟩) ?_ nofun
  intro met n found
  simp only [required, found]

theorem defaulted_faithful {get : ρ → β} {c : Codec β} {default : β}
    (h : c.Faithful keys depth (get r)) :
    (defaulted name get c default).Faithful keys depth r (get r) := by
  refine faithful_of_slot rfl (.inl ⟨rfl, h⟩) ?_ nofun
  intro met n found
  simp only [defaulted, found]

theorem omitted_faithful {get : ρ → β} {c : Codec β} {default : β} {skip : β → Bool}
    (skipped : skip (get r) = true → get r = default)
    (h : skip (get r) = false → c.Faithful keys depth (get r)) :
    (omitted name get c default skip).Faithful keys depth r (get r) := by
  have write : (omitted name get c default skip).write r =
      if skip (get r) then [] else [(name, c.encode (get r))] := rfl
  refine faithful_of_slot rfl ?_ ?_ ?_
  · cases written : skip (get r) with
    | true => exact .inr (by rw [write, written]; rfl)
    | false => exact .inl ⟨by rw [write, written]; rfl, h written⟩
  · intro met n found
    simp only [omitted, found]
  · intro met nothing _ missing
    cases written : skip (get r) with
    | true => simp only [omitted, missing, skipped written]
    | false => simp [write, written] at nothing

theorem optional_faithful {get : ρ → Option β} {c : Codec β}
    (h : ∀ x ∈ get r, c.Faithful keys depth x ∧ c.encode x ≠ .null) :
    (optional name get c).Faithful keys depth r (get r) := by
  refine omitted_faithful Option.isNone_iff_eq_none.mp fun written => ?_
  cases own : get r with
  | none => simp [own] at written
  | some x =>
    obtain ⟨faithful, present⟩ := h x own
    exact Codec.option_some_faithful faithful present

theorem optionalInMap_faithful {get : ρ → Option β} {c : Codec β}
    (h : ∀ x ∈ get r, c.Faithful keys depth x ∧ c.encode x ≠ .null) :
    (optionalInMap name get c).Faithful keys depth r (get r) := by
  refine faithful_of_slot rfl ?_ ?_ ?_
  · cases own : get r with
    | none => exact .inr (by simp only [optionalInMap, own])
    | some x =>
      obtain ⟨faithful, present⟩ := h x own
      refine .inl ⟨?_, Codec.option_some_faithful faithful present⟩
      simp only [optionalInMap, own]
      rfl
  · intro met n found
    simp only [optionalInMap, found]
  · intro met nothing byName missing
    cases own : get r with
    | none => simp [optionalInMap, missing, byName]
    | some x => simp [optionalInMap, own] at nothing

theorem many_faithful {get : ρ → List β} {c : Codec β} (h : ∀ x ∈ get r, c.Faithful keys depth x) :
    (many name get c).Faithful keys (depth + 1) r (get r) :=
  omitted_faithful List.isEmpty_iff.mp fun _ => Codec.list_faithful h

theorem keyed_faithful {get : ρ → Keyed β} {c : Codec β}
    (h : ∀ e ∈ (get r).entries, c.Faithful Node.anyKey depth e.2) :
    (keyed name get c).Faithful Node.anyKey (depth + 1) r (get r) := by
  refine omitted_faithful (fun empty => ?_) fun _ => Codec.keyed_faithful h
  exact Keyed.ext (List.isEmpty_iff.mp empty)

end Fields

/-! ### Reading entries -/

theorem answersTo_iff {s : Slot} {name : String} : s.answersTo name = true ↔ name ∈ s.labels := by
  simp only [Slot.answersTo, Slot.labels, Bool.or_eq_true, decide_eq_true_eq, List.mem_cons,
    Option.mem_toList]
  exact or_congr eq_comm Iff.rfl

theorem find?_answersTo {slots : List Slot} (labels : (slots.flatMap Slot.labels).Nodup) {s : Slot}
    (mem : s ∈ slots) : slots.find? (·.answersTo s.name) = some s := by
  induction slots with
  | nil => cases mem
  | cons first rest ih =>
    rw [List.flatMap_cons, List.nodup_append] at labels
    obtain ⟨-, others, apart⟩ := labels
    rw [List.find?_cons]
    rcases List.mem_cons.mp mem with rfl | later
    · rw [answersTo_iff.mpr List.mem_cons_self]
    · have foreign : first.answersTo s.name = false := by
        rw [Bool.eq_false_iff, ne_eq, answersTo_iff]
        exact fun own => apart s.name own s.name
          (List.mem_flatMap.mpr ⟨s, later, List.mem_cons_self⟩) rfl
      rw [foreign]
      exact ih others later

theorem find?_answersTo_eq_none {slots : List Slot} {name : String}
    (foreign : name ∉ slots.flatMap Slot.labels) :
    slots.find? (·.answersTo name) = none := by
  rw [List.find?_eq_none]
  intro s mem
  rw [answersTo_iff]
  exact fun own => foreign (List.mem_flatMap.mpr ⟨s, mem, own⟩)

theorem slotOf_of_standsFor (slots : List Slot) {k : Node} {name : String}
    (h : k.StandsFor (.text name)) : slotOf slots k = .ok (slots.find? (·.answersTo name)) := by
  rcases Node.standsFor_text_iff.mp h with rfl | ⟨rfl, -⟩ <;> rfl

/-- An entry that its reader takes in, or one that it may pass over. -/
inductive Fits (slots : List Slot) (w : String × Node) : Prop
  | own (s : Slot) : s ∈ slots → s.name = w.1 →
      (∀ src m, m.StandsFor w.2 → s.check src m = .ok ()) → Fits slots w
  | foreign : w.1 ∉ slots.flatMap Slot.labels → w.2.settled? = some w.2 → Fits slots w

/-- A field was met if there is something under its name. -/
theorem any_met_iff {met : List (String × Node)} {name : String} :
    met.any (fun e => decide (e.1 = name)) = true ↔ name ∈ met.map Prod.fst := by
  rw [List.any_eq_true, List.mem_map]
  simp only [decide_eq_true_eq]

theorem collect_cons_own {slots : List Slot} {src : Source} {met : List (String × Node)}
    {k v : Node} {s : Slot} (key : slotOf slots k = .ok (some s))
    (unmet : s.name ∉ met.map Prod.fst) (checked : s.check src v = .ok ())
    (rest : List (Node × Node)) : collect slots src met ((k, v) :: rest) =
      collect slots src (met ++ [(s.name, v)]) rest := by
  have fresh : met.any (fun e => decide (e.1 = s.name)) = false :=
    Bool.eq_false_iff.mpr fun known => unmet (any_met_iff.mp known)
  rw [collect, key]
  simp only [bind, Except.bind, fresh, checked]
  rfl

theorem collect_cons_foreign {slots : List Slot} {src : Source} {met : List (String × Node)}
    {k v : Node} (key : slotOf slots k = .ok none) (intact : v.intact = true)
    (rest : List (Node × Node)) :
    collect slots src met ((k, v) :: rest) = collect slots src met rest := by
  rw [collect, key]
  simp only [bind, Except.bind, intact]
  rfl

/-- Going through the entries of a map finds for each field what was written of it. -/
theorem collect_of_fits {slots : List Slot} (labels : (slots.flatMap Slot.labels).Nodup)
    (src : Source) {es : List (Node × Node)} {ws : List (String × Node)}
    (entries : List.Forall₂ (fun e w => Node.EntryStandsFor e (.text w.1, w.2)) es ws)
    (fits : ∀ w ∈ ws, Fits slots w) (distinct : (ws.map Prod.fst).Nodup)
    (met : List (String × Node)) (fresh : ∀ w ∈ ws, w.1 ∉ met.map Prod.fst) :
    ∃ found, collect slots src met es = .ok (met ++ found) ∧ ∀ s ∈ slots,
      Option.Rel Node.StandsFor (found.lookup s.name) (ws.lookup s.name) := by
  induction entries generalizing met with
  | nil => exact ⟨[], by rw [List.append_nil]; rfl, fun _ _ => .none⟩
  | @cons e w es ws head _ ih =>
    obtain ⟨k, v⟩ := e
    obtain ⟨name, n⟩ := w
    obtain ⟨key, value⟩ := head
    obtain ⟨notMem, others⟩ := List.nodup_cons.mp distinct
    have fits' : ∀ w ∈ ws, Fits slots w := fun w mem => fits w (List.mem_cons_of_mem _ mem)
    have fresh' : ∀ w ∈ ws, w.1 ∉ met.map Prod.fst := fun w mem =>
      fresh w (List.mem_cons_of_mem _ mem)
    have slot := slotOf_of_standsFor slots key
    cases fits (name, n) List.mem_cons_self with
    | own s mem named check =>
      cases named
      rw [find?_answersTo labels mem] at slot
      have unmet : s.name ∉ met.map Prod.fst := fresh (s.name, n) List.mem_cons_self
      have apart : ∀ w ∈ ws, w.1 ∉ (met ++ [(s.name, v)]).map Prod.fst := by
        intro w mem
        rw [List.map_append, List.mem_append, not_or]
        refine ⟨fresh' w mem, fun same => notMem ?_⟩
        rw [← List.mem_singleton.mp same]
        exact List.mem_map_of_mem mem
      obtain ⟨found, collected, answers⟩ := ih fits' others _ apart
      refine ⟨(s.name, v) :: found, ?_, ?_⟩
      · rw [collect_cons_own slot unmet (check src v value), collected, List.append_assoc]
        rfl
      · intro t ht
        rw [Keyed.lookup_cons_eq, Keyed.lookup_cons_eq]
        split
        · exact .some value
        · exact answers t ht
    | foreign unknown settled =>
      rw [find?_answersTo_eq_none unknown] at slot
      obtain ⟨v', settles, -⟩ := value.settles settled
      have intact : v.intact = true := Node.intact_of_settled? (by rw [settles]; rfl)
      obtain ⟨found, collected, answers⟩ := ih fits' others met fresh'
      refine ⟨found, ?_, ?_⟩
      · rw [collect_cons_foreign slot intact, collected]
      · intro t ht
        have other : t.name ≠ name := by
          rintro rfl
          exact unknown (List.mem_flatMap.mpr ⟨t, ht, List.mem_cons_self⟩)
        rw [Keyed.lookup_cons_eq, if_neg other]
        exact answers t ht

theorem names_sublist_labels (slots : List Slot) :
    (slots.map Slot.name).Sublist (slots.flatMap Slot.labels) := by
  induction slots with
  | nil => exact .slnil
  | cons s rest ih =>
    exact (ih.trans (List.sublist_append_right s.alias?.toList _)).cons_cons s.name

theorem Faithful.mem_labels {f : Fields ρ α} {r : ρ} {a : α} (h : f.Faithful keys depth r a)
    (labels : (f.slots.flatMap Slot.labels).Nodup) {w : String × Node} (mem : w ∈ f.write r) :
    w.1 ∈ f.slots.flatMap Slot.labels := by
  have kept := h (labels.sublist (names_sublist_labels _))
  have named := kept.names.subset (List.mem_map_of_mem mem)
  exact (names_sublist_labels f.slots).subset named

/-- Fields that keep a value read it back from the entries that were written of it, in any order
and among others that they do not know. -/
theorem Faithful.ofEntries {f : Fields ρ α} {r : ρ} {a : α} (h : f.Faithful keys depth r a)
    (labels : (f.slots.flatMap Slot.labels).Nodup) (src : Source) {es : List (Node × Node)}
    {ws : List (String × Node)}
    (entries : List.Forall₂ (fun e w => Node.EntryStandsFor e (.text w.1, w.2)) es ws)
    (distinct : (ws.map Prod.fst).Nodup) (own : f.write r ⊆ ws)
    (others : ∀ w ∈ ws, w ∉ f.write r →
      w.1 ∉ f.slots.flatMap Slot.labels ∧ w.2.Written keys depth) :
    f.ofEntries src es = .ok a := by
  have names := labels.sublist (names_sublist_labels _)
  have kept := h names
  have written : ((f.write r).map Prod.fst).Nodup := names.sublist kept.names
  have fits : ∀ w ∈ ws, Fits f.slots w := by
    intro w mem
    by_cases mine : w ∈ f.write r
    · obtain ⟨s, hs, named⟩ := List.mem_map.mp (kept.names.subset (List.mem_map_of_mem mine))
      refine .own s hs named (kept.checks s hs w.2 ?_)
      rw [named, Keyed.lookup_eq_some_iff_of_nodup written]
      exact mine
    · obtain ⟨unknown, written⟩ := others w mem mine
      exact .foreign unknown written.settled?
  obtain ⟨found, collected, answers⟩ :=
    collect_of_fits labels src entries fits distinct [] (by simp)
  have same : ∀ s ∈ f.slots, ws.lookup s.name = (f.write r).lookup s.name := by
    intro s hs
    cases mine : (f.write r).lookup s.name with
    | some n =>
      rw [Keyed.lookup_eq_some_iff_of_nodup written] at mine
      exact (Keyed.lookup_eq_some_iff_of_nodup distinct).mpr (own mine)
    | none =>
      rw [Keyed.lookup_eq_none_iff_notMem] at mine ⊢
      intro mem
      obtain ⟨w, hw, named⟩ := List.mem_map.mp mem
      have foreign : w ∉ f.write r := fun mem => mine (named ▸ List.mem_map_of_mem mem)
      exact (others w hw foreign).1 (List.mem_flatMap.mpr ⟨s, hs, named ▸ List.mem_cons_self⟩)
  refine Except.bind_eq_ok_iff.mpr ⟨found, collected, kept.builds _ rfl ?_⟩
  intro s hs
  rw [← same s hs]
  exact answers s hs

section Both

variable {σ : Type} {f : Fields ρ α} {g : Fields σ β} {r : ρ} {t : σ} {a : α} {b : β}

theorem Faithful.written_both (hf : f.Faithful keys depth r a) (hg : g.Faithful keys depth t b)
    (names : ((f.slots ++ g.slots).map Slot.name).Nodup) :
    (∀ w ∈ f.write r ++ g.write t, w.2.Written keys depth) ∧
      ((f.write r ++ g.write t).map Prod.fst).Sublist ((f.slots ++ g.slots).map Slot.name) := by
  rw [List.map_append, List.nodup_append] at names
  have first := hf names.1
  have second := hg names.2.1
  constructor
  · intro w mem
    rcases List.mem_append.mp mem with mem | mem
    · exact first.written w mem
    · exact second.written w mem
  · rw [List.map_append, List.map_append]
    exact first.names.append second.names

/-- Under a name of the second record there stands only what was written of it. -/
theorem Faithful.mem_both_iff (hf : f.Faithful keys depth r a)
    (names : ((f.slots ++ g.slots).map Slot.name).Nodup) {s : Slot} (own : s ∈ g.slots) {n : Node} :
    (s.name, n) ∈ f.write r ++ g.write t ↔ (s.name, n) ∈ g.write t := by
  rw [List.map_append, List.nodup_append] at names
  obtain ⟨first, -, apart⟩ := names
  refine ⟨fun mem => (List.mem_append.mp mem).resolve_left fun other => ?_,
    List.mem_append_right _⟩
  exact apart s.name ((hf first).names.subset (List.mem_map_of_mem other)) s.name
    (List.mem_map_of_mem own) rfl

/-- Two records whose fields stand among each other in one map. Where all go by different names,
neither takes an entry of the other. -/
theorem Faithful.ofEntries_both (hf : f.Faithful keys depth r a) (hg : g.Faithful keys depth t b)
    (labels : ((f.slots ++ g.slots).flatMap Slot.labels).Nodup) (src : Source)
    {es : List (Node × Node)} {ws : List (String × Node)}
    (entries : List.Forall₂ (fun e w => Node.EntryStandsFor e (.text w.1, w.2)) es ws)
    (perm : ws.Perm (f.write r ++ g.write t)) :
    f.ofEntries src es = .ok a ∧ g.ofEntries src es = .ok b := by
  have names := labels.sublist (names_sublist_labels _)
  obtain ⟨written, sublist⟩ := hf.written_both hg names
  have distinct : (ws.map Prod.fst).Nodup :=
    (perm.map Prod.fst).nodup_iff.mpr (names.sublist sublist)
  rw [List.flatMap_append, List.nodup_append] at labels
  obtain ⟨first, second, apart⟩ := labels
  constructor
  · refine hf.ofEntries first src entries distinct
      (fun w mem => perm.mem_iff.mpr (List.mem_append_left _ mem)) fun w mem other => ?_
    have foreign := (List.mem_append.mp (perm.subset mem)).resolve_left other
    exact ⟨fun own => apart w.1 own w.1 (hg.mem_labels second foreign) rfl,
      written w (perm.subset mem)⟩
  · refine hg.ofEntries second src entries distinct
      (fun w mem => perm.mem_iff.mpr (List.mem_append_right _ mem)) fun w mem other => ?_
    have foreign := (List.mem_append.mp (perm.subset mem)).resolve_right other
    exact ⟨fun own => apart w.1 (hf.mem_labels first foreign) w.1 own rfl,
      written w (perm.subset mem)⟩

end Both

theorem record_faithful (label : String) {f : Fields α α} {x : α} (h : f.Faithful keys depth x x)
    (labels : (f.slots.flatMap Slot.labels).Nodup) (named : ∀ s ∈ f.slots, keys s.name) :
    (record label f).Faithful keys (depth + 1) x where
  written := by
    have kept := h (labels.sublist (names_sublist_labels _))
    refine .fields (fun w mem => ?_) kept.written
      ((labels.sublist (names_sublist_labels _)).sublist kept.names)
    obtain ⟨s, hs, own⟩ := List.mem_map.mp (kept.names.subset (List.mem_map_of_mem mem))
    exact own ▸ named s hs
  reads src m stands := by
    have names := labels.sublist (names_sublist_labels _)
    obtain ⟨es, ws, rfl, perm, entries⟩ := Node.standsFor_map_map_iff.mp stands
    have distinct : (ws.map Prod.fst).Nodup :=
      (perm.map Prod.fst).nodup_iff.mpr (names.sublist (h names).names)
    exact h.ofEntries labels src entries distinct perm.symm.subset
      fun w mem other => absurd (perm.subset mem) other

end Fields

end GatewayPlan.Tree
