import GatewayPlan.Proofs.Logged
import GatewayPlan.Proofs.Parameter.Repeats
import GatewayPlan.Proofs.Template.Grammar

/-!
# Merging the parameters of a template

The placeholders of a template are added behind the parameters that are declared, as if they had
been declared there: what was declared before is kept as it is, and of a placeholder met again there
is a warning at most. So it makes no difference to merge a template twice, or to merge a template
that is put together at a slash part by part.
-/

namespace GatewayPlan

open Logged Parameter

namespace Parameter

variable {declared own : List Parameter} {template name : String}

/-- Whether a path parameter is required is for the first declaration of it to say, and a name that
is not declared is required. -/
def pathRequired (declared : List Parameter) (name : String) : Bool :=
  ((first? declared (.path, name)).map required).getD true

/-- Of a captured name the declared parameter is found first, if there is one, or else the path's
own. -/
theorem exists_first?_merged (declared : List Parameter)
    (read : Template.pathParameters template = .ok own)
    (captured : name ∈ Template.names template) :
    ∃ p, first? (declared ++ own) (.path, name) = some p ∧
      p.required = pathRequired declared name := by
  unfold pathRequired
  cases explicit : first? declared (.path, name) with
  | some p => exact ⟨p, by rw [first?_append, explicit, Option.some_or], rfl⟩
  | none =>
    rw [← Template.names_of_pathParameters read] at captured
    obtain ⟨q, hq, rfl⟩ := List.mem_map.mp captured
    have kind := Template.kind_of_pathParameters read q hq
    cases found : first? own (.path, q.name) with
    | none => simpa [identity, kind] using List.find?_eq_none.mp found q hq
    | some p =>
      refine ⟨p, by rw [first?_append, explicit, Option.none_or, found], ?_⟩
      exact Template.required_of_pathParameters read p (List.mem_of_find?_eq_some found)

theorem exists_mem_merged (declared : List Parameter)
    (read : Template.pathParameters template = .ok own)
    (captured : name ∈ Template.names template) :
    ∃ p ∈ dedupe (declared ++ own), p.kind = .path ∧ p.name = name ∧
      p.required = pathRequired declared name := by
  obtain ⟨p, found, required⟩ := exists_first?_merged declared read captured
  rw [← first?_dedupe] at found
  have same : p.identity = (.path, name) := by simpa using List.find?_some found
  obtain ⟨kind, rfl⟩ := Prod.mk.inj same
  exact ⟨p, List.mem_of_find?_eq_some found, kind, rfl, required⟩

theorem identity_mem_iff_of_path {p : Parameter} (path : p.kind = .path)
    (paths : ∀ q ∈ own, q.kind = .path) :
    p.identity ∈ own.map identity ↔ p.name ∈ own.map Parameter.name := by
  simp only [List.mem_map]
  constructor
  · rintro ⟨q, mem, same⟩
    exact ⟨q, mem, (Prod.mk.inj same).2⟩
  · rintro ⟨q, mem, same⟩
    exact ⟨q, mem, Prod.ext ((paths q mem).trans path.symm) same⟩

/-- Parameters of a path are told apart by their names. -/
theorem names_dedupe_of_path (paths : ∀ p ∈ own, p.kind = .path) :
    (dedupe own).map Parameter.name = (own.map Parameter.name).eraseDups := by
  induction own using List.reverseRecOn with
  | nil => rfl
  | append_singleton own p ih =>
    obtain ⟨others, last⟩ := List.forall_mem_append.mp paths
    have known := identity_mem_iff_of_path (last p List.mem_cons_self) others
    rw [dedupe_concat, List.map_append, ih others, List.map_append, List.eraseDups_append]
    congr 1
    by_cases again : p.identity ∈ own.map identity
    · rw [if_pos again]
      have new : [p.name].removeAll (own.map Parameter.name) = [] := by
        simpa [List.removeAll] using known.mp again
      exact (congrArg List.eraseDups new).symm
    · rw [if_neg again]
      have new : [p.name].removeAll (own.map Parameter.name) = [p.name] := by
        simpa [List.removeAll] using mt known.mpr again
      exact (congrArg List.eraseDups new).symm

end Parameter

namespace Template

variable {template a b : String} {declared own front back merged : List Parameter}

theorem merge_eq (template : String) (declared : List Parameter) :
    merge template declared = match pathParameters template with
      | .error e => .fail e
      | .ok own => ⟨dropWarnings (declared ++ own), .ok (dedupe (declared ++ own))⟩ := by
  unfold merge
  cases pathParameters template with
  | error e => rfl
  | ok own => rw [quiet_ok_bind, sifted_eq]

theorem merge_of_read (read : pathParameters template = .ok own) (declared : List Parameter) :
    merge template declared =
      ⟨dropWarnings (declared ++ own), .ok (dedupe (declared ++ own))⟩ := by
  rw [merge_eq, read]

theorem merge_of_error {e : Error} (failed : pathParameters template = .error e)
    (declared : List Parameter) : merge template declared = .fail e := by
  rw [merge_eq, failed]

theorem merge_ok_iff : (merge template declared).result = .ok merged ↔
    ∃ own, pathParameters template = .ok own ∧ dedupe (declared ++ own) = merged := by
  rw [merge_eq]
  cases pathParameters template with
  | error e => simp [Logged.fail]
  | ok own => simp

theorem merge_error_iff {e : Error} :
    (merge template declared).result = .error e ↔ pathParameters template = .error e := by
  rw [merge_eq]
  cases pathParameters template with
  | error e => simp [Logged.fail]
  | ok own => simp

/-- The placeholders that are new, once each, in the order of the template. -/
theorem added_of_read (read : pathParameters template = .ok own) (declared : List Parameter) :
    ∃ added, dedupe (declared ++ own) = dedupe declared ++ added ∧
      (∀ p ∈ added, p.kind = .path ∧ p.required = true) ∧
      added.map Parameter.name = (names template).eraseDups.filter fun name =>
        (.path, name) ∉ declared.map identity := by
  refine ⟨(dedupe own).filter fun q => q.identity ∉ declared.map identity,
    dedupe_append declared own, ?_, ?_⟩
  · intro p mem
    exact path_of_pathParameters read p ((dedupe_sublist own).subset (List.mem_filter.mp mem).1)
  · have paths := kind_of_pathParameters read
    rw [← names_of_pathParameters read, ← names_dedupe_of_path paths, List.filter_map]
    congr 1
    apply List.filter_congr
    intro q mem
    have kind := paths q ((dedupe_sublist own).subset mem)
    simp only [identity, kind, Function.comp_apply]

/-- Each placeholder is required, so just those with an optional parameter are warned of. -/
theorem warnings_of_read (read : pathParameters template = .ok own) (declared : List Parameter) :
    dropWarnings (declared ++ own) = dropWarnings declared ++
      (own.filter fun p => !pathRequired declared p.name).map (.dropped · false) := by
  rw [dropWarnings_append_eq, ← List.filterMap_eq_map, List.filterMap_filter]
  congr 1
  apply List.filterMap_congr
  intro q mem
  obtain ⟨kind, required⟩ := path_of_pathParameters read q mem
  have captured : q.name ∈ names template :=
    names_of_pathParameters read ▸ List.mem_map_of_mem mem
  obtain ⟨p, found, kept⟩ := exists_first?_merged declared read captured
  have first : first? (declared ++ own) q.identity = some p := by rw [identity, kind, found]
  rw [dropWarning?, first, Option.bind_some, kept, required]
  cases pathRequired declared q.name <;> rfl

/-- What was declared is found in the merged list as it was in the declared one. -/
theorem first?_merged {p : Parameter} (mem : p ∈ declared)
    (h : (merge template declared).result = .ok merged) :
    first? merged p.identity = first? declared p.identity := by
  obtain ⟨own, -, rfl⟩ := merge_ok_iff.mp h
  rw [first?_dedupe, first?_append_of_mem own mem]

/-- A template has nothing to add to a list that it was merged into. -/
theorem merge_merged (h : (merge template declared).result = .ok merged) :
    (merge template merged).result = .ok merged := by
  obtain ⟨own, read, rfl⟩ := merge_ok_iff.mp h
  refine merge_ok_iff.mpr ⟨own, read, ?_⟩
  apply dedupe_append_of_covered (nodup_identities_dedupe _)
  intro q mem
  exact mem_identities_dedupe.mpr (List.mem_map_of_mem (List.mem_append_right declared mem))

theorem merge_slash (inA : pathParameters a = .ok front) (inB : pathParameters b = .ok back)
    (declared : List Parameter) :
    merge (a ++ "/" ++ b) declared = merge a declared >>= merge b := by
  have whole := pathParameters_slash_eq_ok_iff.mpr ⟨front, back, inA, inB, rfl⟩
  rw [merge_of_read whole, merge_of_read inA, bind_ok rfl, merge_of_read inB,
    ← List.append_assoc, dropWarnings_append_dedupe, dedupe_dedupe_append]

/-- Merging fails just as reading the template does, without a word to the log. Else the declared
parameters come first, with repeats dropped, and the placeholders that they lack after them. A
declared parameter keeps its own word on being required, and each placeholder of an optional one
gives a warning. A template that was merged is absorbed, and one that is put together at a slash is
merged part by part, with the same warnings. -/
theorem merge_keeps_declared (template : String) (declared : List Parameter) :
    (∀ e, ((merge template declared).result = .error e ↔ pathParameters template = .error e) ∧
      (pathParameters template = .error e → (merge template declared).log = [])) ∧
    (∀ own, pathParameters template = .ok own →
      own.map Parameter.name = names template ∧
      (∀ p ∈ own, p.kind = .path ∧ p.required = true) ∧
      (merge template declared).log = dropWarnings declared ++
        (own.filter fun p => !pathRequired declared p.name).map (.dropped · false) ∧
      ∃ added, (merge template declared).result = .ok (dedupe declared ++ added) ∧
        (∀ p ∈ added, p.kind = .path ∧ p.required = true) ∧
        added.map Parameter.name = (names template).eraseDups.filter fun name =>
          (.path, name) ∉ declared.map identity) ∧
    (∀ merged, (merge template declared).result = .ok merged →
      (merged.map identity).Nodup ∧
      (∀ p ∈ declared, first? merged p.identity = first? declared p.identity) ∧
      (∀ name ∈ names template, ∃ p ∈ merged, p.kind = .path ∧ p.name = name ∧
        p.required = pathRequired declared name) ∧
      (merge template merged).result = .ok merged) ∧
    ∀ other, WellFormed template → WellFormed other →
      merge (template ++ "/" ++ other) declared = merge template declared >>= merge other ∧
        (merge (template ++ "/" ++ other) declared).Succeeds := by
  refine ⟨fun e => ⟨merge_error_iff, fun failed => ?_⟩, fun own read => ?_, fun merged h => ?_,
    fun other hereFormed otherFormed => ?_⟩
  · rw [merge_of_error failed]
    rfl
  · obtain ⟨added, result, required, new⟩ := added_of_read read declared
    refine ⟨names_of_pathParameters read, path_of_pathParameters read, ?_, added, ?_, required, new⟩
    · rw [merge_of_read read]
      exact warnings_of_read read declared
    · rw [merge_of_read read, result]
  · refine ⟨?_, fun p mem => first?_merged mem h, ?_, merge_merged h⟩
    · obtain ⟨own, -, rfl⟩ := merge_ok_iff.mp h
      exact nodup_identities_dedupe _
    · intro name captured
      obtain ⟨own, read, rfl⟩ := merge_ok_iff.mp h
      exact exists_mem_merged declared read captured
  · obtain ⟨front, inHere⟩ := (exists_pathParameters_iff template).mpr hereFormed
    obtain ⟨back, inOther⟩ := (exists_pathParameters_iff other).mpr otherFormed
    have whole := pathParameters_slash_eq_ok_iff.mpr ⟨front, back, inHere, inOther, rfl⟩
    exact ⟨merge_slash inHere inOther declared, _, merge_ok_iff.mpr ⟨_, whole, rfl⟩⟩

end Template

end GatewayPlan
