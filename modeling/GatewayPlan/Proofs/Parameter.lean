import GatewayPlan.Parameter.Catalog
import GatewayPlan.Parameter.Dedupe
import GatewayPlan.Proofs.Except
import Mathlib.Data.List.Nodup

/-!
# Lists of parameters

A list without repeats keeps all its parameters, and what repeats them behind it is dropped, each
with a warning if it disagrees. Relaxing parameters by name leaves kinds and names as they are, so
it takes no part in which parameters repeat.
-/

namespace GatewayPlan.Parameter

/-- A parameter that was there before repeats were dropped has one of its identity after. -/
theorem exists_mem_dedupe {ps : List Parameter} {p : Parameter} (h : p ∈ ps) :
    ∃ q ∈ dedupe ps, q.identity = p.identity := by
  apply List.mem_map.mp
  exact mem_identities_dedupe.mpr (List.mem_map_of_mem h)

theorem nodup_identities_dedupe (ps : List Parameter) : ((dedupe ps).map identity).Nodup := by
  induction ps with
  | nil => exact .nil
  | cons p rest ih =>
    rw [dedupe, List.map_cons, List.nodup_cons]
    constructor
    · intro mem
      obtain ⟨q, hq, same⟩ := List.mem_map.mp mem
      simpa [same] using (List.mem_filter.mp hq).2
    · exact ih.sublist (List.filter_sublist.map identity)

theorem dedupe_append (ps qs : List Parameter) : dedupe (ps ++ qs) =
    dedupe ps ++ (dedupe qs).filter fun q => q.identity ∉ ps.map identity := by
  induction ps with
  | nil => simp [dedupe]
  | cons p rest ih =>
    have taken_together : ((dedupe qs).filter fun q => q.identity ∉ rest.map identity).filter
        (fun q => q.identity ≠ p.identity) =
        (dedupe qs).filter fun q => q.identity ∉ (p :: rest).map identity := by
      rw [List.filter_filter]
      congr 1
      funext q
      simp
    rw [List.cons_append, dedupe, ih, List.filter_append, taken_together, dedupe, List.cons_append]

theorem dedupe_of_nodup {ps : List Parameter} (h : (ps.map identity).Nodup) : dedupe ps = ps := by
  induction ps with
  | nil => rfl
  | cons p rest ih =>
    obtain ⟨fresh, distinct⟩ := List.nodup_cons.mp h
    rw [dedupe, ih distinct, List.filter_eq_self.mpr]
    intro q hq
    have other : q.identity ≠ p.identity := fun same => fresh (same ▸ List.mem_map_of_mem hq)
    simpa using other

/-- What repeats the parameters of a list without repeats adds nothing behind it. -/
theorem dedupe_append_of_covered {ps qs : List Parameter} (distinct : (ps.map identity).Nodup)
    (covered : ∀ q ∈ qs, q.identity ∈ ps.map identity) : dedupe (ps ++ qs) = ps := by
  have none : ((dedupe qs).filter fun q => q.identity ∉ ps.map identity) = [] := by
    rw [List.filter_eq_nil_iff]
    intro q hq
    simpa using covered q ((dedupe_sublist qs).subset hq)
  rw [dedupe_append, dedupe_of_nodup distinct, none, List.append_nil]

theorem first?_append (ps qs : List Parameter) (i : Identity) :
    first? (ps ++ qs) i = (first? ps i).or (first? qs i) :=
  List.find?_append

theorem first?_of_nodup {ps : List Parameter} (distinct : (ps.map identity).Nodup)
    {p : Parameter} (h : p ∈ ps) : first? ps p.identity = some p := by
  cases found : first? ps p.identity with
  | none => simpa using List.find?_eq_none.mp found p h
  | some q =>
    have same : q.identity = p.identity := by simpa using List.find?_some found
    rw [List.inj_on_of_nodup_map distinct (List.mem_of_find?_eq_some found) h same]

theorem first?_dedupe (ps : List Parameter) (i : Identity) :
    first? (dedupe ps) i = first? ps i := by
  induction ps with
  | nil => rfl
  | cons p rest ih =>
    unfold first? at ih ⊢
    rw [dedupe, List.find?_cons, List.find?_cons]
    by_cases same : p.identity = i
    · simp only [same, decide_true]
    · simp only [same, decide_false]
      rw [List.find?_filter, ← ih]
      congr 1
      funext q
      by_cases asked : q.identity = i
      · simp [asked, Ne.symm same]
      · simp [asked]

theorem dedupe_dedupe_append (ps qs : List Parameter) :
    dedupe (dedupe ps ++ qs) = dedupe (ps ++ qs) := by
  rw [dedupe_append, dedupe_append, dedupe_of_nodup (nodup_identities_dedupe ps)]
  simp only [mem_identities_dedupe]

theorem dropWarning?_congr {ps qs : List Parameter} {p : Parameter}
    (same : first? ps p.identity = first? qs p.identity) :
    dropWarning? ps p = dropWarning? qs p := by
  rw [dropWarning?, same, dropWarning?]

/-- What stands behind a parameter is never kept in its place. -/
theorem first?_append_of_mem {ps : List Parameter} (qs : List Parameter) {p : Parameter}
    (h : p ∈ ps) : first? (ps ++ qs) p.identity = first? ps p.identity := by
  rw [first?_append]
  cases found : first? ps p.identity with
  | none => simpa using List.find?_eq_none.mp found p h
  | some kept => rfl

theorem dropWarnings_append_eq (ps qs : List Parameter) :
    dropWarnings (ps ++ qs) = dropWarnings ps ++ qs.filterMap (dropWarning? (ps ++ qs)) := by
  rw [dropWarnings, List.filterMap_append, dropWarnings]
  congr 1
  apply List.filterMap_congr
  intro p hp
  exact dropWarning?_congr (first?_append_of_mem qs hp)

theorem dropWarnings_of_nodup {ps : List Parameter} (distinct : (ps.map identity).Nodup) :
    dropWarnings ps = [] := by
  rw [dropWarnings, List.filterMap_eq_nil_iff]
  intro p hp
  rw [dropWarning?, first?_of_nodup distinct hp]
  exact if_pos rfl

/-- Behind a list without repeats only what repeats its parameters is warned of. `kept` is what the
list says of a repeated one. -/
theorem dropWarnings_append {ps qs : List Parameter} (distinct : (ps.map identity).Nodup)
    {kept : Parameter → Bool}
    (found : ∀ q ∈ qs, ∃ p ∈ ps, p.identity = q.identity ∧ p.required = kept q) :
    dropWarnings (ps ++ qs) = qs.filterMap fun q =>
      if kept q = q.required then none else some (.dropped q (kept q)) := by
  rw [dropWarnings_append_eq, dropWarnings_of_nodup distinct, List.nil_append]
  apply List.filterMap_congr
  intro q hq
  obtain ⟨p, hp, same, required⟩ := found q hq
  rw [dropWarning?, ← same, first?_append_of_mem qs hp, first?_of_nodup distinct hp, ← required]
  rfl

/-- The parameter, relaxed if its name is among the given ones. -/
def relaxedIn (names : List String) (p : Parameter) : Parameter :=
  if p.name ∈ names then p.relaxed else p

@[simp] theorem identity_relaxedIn (names : List String) (p : Parameter) :
    (p.relaxedIn names).identity = p.identity := by
  unfold relaxedIn
  split <;> rfl

theorem required_relaxedIn (names : List String) (p : Parameter) :
    (p.relaxedIn names).required = (p.required && p.name ∉ names) := by
  unfold relaxedIn
  split
  · rename_i named
    simp [relaxed, named]
  · rename_i other
    simp [other]

theorem relaxedIn_relaxedIn (names : List String) (p : Parameter) :
    (p.relaxedIn names).relaxedIn names = p.relaxedIn names := by
  by_cases named : p.name ∈ names
  · simp [relaxedIn, named, relaxed]
  · simp [relaxedIn, named]

theorem identities_relaxedIn (names : List String) (ps : List Parameter) :
    (ps.map (relaxedIn names)).map identity = ps.map identity := by
  rw [List.map_map]
  congr 1
  funext p
  exact identity_relaxedIn names p

theorem nodup_relaxed (names : List String) (ps : List Parameter) :
    (((dedupe ps).map (relaxedIn names)).map identity).Nodup := by
  rw [identities_relaxedIn]
  exact nodup_identities_dedupe ps

/-- Merging is absorbed by a list that was merged before, whatever was relaxed in it since. -/
theorem dedupe_relaxed (declared own : List Parameter) (names : List String) :
    dedupe ((dedupe (declared ++ own)).map (relaxedIn names) ++ own) =
      (dedupe (declared ++ own)).map (relaxedIn names) := by
  apply dedupe_append_of_covered (nodup_relaxed names _)
  intro q hq
  rw [identities_relaxedIn, mem_identities_dedupe]
  exact List.mem_map_of_mem (List.mem_append_right declared hq)

theorem relaxNamed_eq_ok_iff {ps qs : List Parameter} {names : List String} :
    relaxNamed ps names = .ok qs ↔
      (∀ name ∈ names, ∃ p ∈ ps, p.name = name) ∧ qs = ps.map (relaxedIn names) := by
  have known : (names.find? fun name => !ps.any (·.name = name)) = none ↔
      ∀ name ∈ names, ∃ p ∈ ps, p.name = name := by
    simp
  rw [← known, relaxNamed]
  split
  · rename_i unknown found
    simp [found]
  · rename_i found
    rw [Except.ok.injEq, found]
    exact ⟨fun same => ⟨rfl, same.symm⟩, fun same => same.2.symm⟩

/-- The first unknown name is told. -/
theorem relaxNamed_eq_error_iff {ps : List Parameter} {names : List String} {name : String} :
    relaxNamed ps names = .error name ↔ ∃ before after, names = before ++ name :: after ∧
      (∀ p ∈ ps, p.name ≠ name) ∧ ∀ other ∈ before, ∃ p ∈ ps, p.name = other := by
  have first : (names.find? fun name => !ps.any (·.name = name)) = some name ↔
      ∃ before after, names = before ++ name :: after ∧
        (∀ p ∈ ps, p.name ≠ name) ∧ ∀ other ∈ before, ∃ p ∈ ps, p.name = other := by
    rw [List.find?_eq_some_iff_append]
    constructor
    · intro ⟨unknown, before, after, cut, known⟩
      exact ⟨before, after, cut, by simpa using unknown, by simpa using known⟩
    · intro ⟨before, after, cut, unknown, known⟩
      exact ⟨by simpa using unknown, before, after, cut, by simpa using known⟩
  rw [← first, relaxNamed]
  split
  · rename_i unknown found
    simp [found]
  · rename_i found
    simp [found]

theorem relaxNamed_of_relaxed {ps qs : List Parameter} {names : List String}
    (h : relaxNamed ps names = .ok qs) : relaxNamed qs names = .ok qs := by
  obtain ⟨known, rfl⟩ := relaxNamed_eq_ok_iff.mp h
  apply relaxNamed_eq_ok_iff.mpr
  constructor
  · intro name mem
    obtain ⟨p, hp, same⟩ := known name mem
    refine ⟨p.relaxedIn names, List.mem_map_of_mem hp, ?_⟩
    exact (Prod.mk.inj (identity_relaxedIn names p)).2.trans same
  · rw [List.map_map]
    apply List.map_congr_left
    intro p _
    exact (relaxedIn_relaxedIn names p).symm

/-- Neither the order of the names matters nor how often one is given. -/
theorem relaxNamed_of_same_names {ps qs : List Parameter} {names others : List String}
    (same : ∀ name, name ∈ others ↔ name ∈ names) (h : relaxNamed ps names = .ok qs) :
    relaxNamed ps others = .ok qs := by
  obtain ⟨known, rfl⟩ := relaxNamed_eq_ok_iff.mp h
  apply relaxNamed_eq_ok_iff.mpr
  constructor
  · intro name mem
    exact known name ((same name).mp mem)
  · apply List.map_congr_left
    intro p _
    simp only [relaxedIn, same]

theorem kind_of_named {kind : ParameterKind} {name : String} {required : Bool} {p : Parameter}
    (h : named kind name required = .ok p) : p.kind = kind := by
  unfold named at h
  split at h
  · cases h
    rfl
  · cases h

/-- Parameters that are declared by kind are none of a path. -/
theorem kind_ne_path_of_declared {queries multis headers contexts : List String}
    {ps : List Parameter} (h : declared queries multis headers contexts = .ok ps) :
    ∀ p ∈ ps, p.kind ≠ .path := by
  obtain ⟨qs, inQueries, h⟩ := Except.bind_eq_ok_iff.mp h
  obtain ⟨ms, inMultis, h⟩ := Except.bind_eq_ok_iff.mp h
  obtain ⟨hs, inHeaders, h⟩ := Except.bind_eq_ok_iff.mp h
  obtain ⟨cs, inContexts, h⟩ := Except.bind_eq_ok_iff.mp h
  cases h
  have each : ∀ {kind : ParameterKind} {names : List String} {own : List Parameter},
      names.mapM (named kind · true) = .ok own → ∀ p ∈ own, p.kind = kind := by
    intro kind names own read p hp
    obtain ⟨name, -, made⟩ := Except.exists_of_mem_results read p hp
    exact kind_of_named made
  intro p hp
  simp only [List.mem_append] at hp
  rcases hp with ((hp | hp) | hp) | hp
  · simp [each inQueries p hp]
  · simp [each inMultis p hp]
  · simp [each inHeaders p hp]
  · simp [each inContexts p hp]

end GatewayPlan.Parameter
