import GatewayPlan.Proofs.Logged
import GatewayPlan.Proofs.Parameter
import Mathlib.Data.List.Induction

/-!
# Repeats in a list of parameters

A parameter repeats another if one of its identity stands before it. Dropping repeats keeps just the
others, in their order, and warns of each repeat that disagrees with the one kept. The front of a
list may be freed of repeats before the rest is added: no later parameter is kept, dropped or warned
of for that.
-/

namespace GatewayPlan.Parameter

variable {ps : List Parameter} {p : Parameter}

/-- The parameter at a place of the list has the identity of an earlier one. -/
def Repeats (ps : List Parameter) (entry : Parameter × Nat) : Prop :=
  entry.1.identity ∈ (ps.take entry.2).map identity

instance (ps : List Parameter) : DecidablePred (Repeats ps) :=
  fun _ => inferInstanceAs (Decidable (_ ∈ _))

/-- The parameters of a list that are the first of their identity. -/
def firsts (ps : List Parameter) : List Parameter :=
  (ps.zipIdx.filter fun entry => !decide (Repeats ps entry)).map Prod.fst

/-- All others, in their order. -/
def repeats (ps : List Parameter) : List Parameter :=
  (ps.zipIdx.filter fun entry => decide (Repeats ps entry)).map Prod.fst

/-! ### One parameter more

What stands behind a parameter has no part in whether it is a repeat, so a list is gone through from
its front.
-/

theorem repeats_concat_iff {entry : Parameter × Nat} (h : entry ∈ ps.zipIdx) :
    Repeats (ps ++ [p]) entry ↔ Repeats ps entry := by
  have inside : entry.2 ≤ ps.length := by
    have bound := (List.mem_zipIdx h).2.1
    omega
  rw [Repeats, List.take_append_of_le_length inside, Repeats]

/-- `test` is what a filter asks of being a repeat: that it is one, or that it is none. -/
theorem filter_concat (test : Bool → Bool) (ps : List Parameter) (p : Parameter) :
    ((ps ++ [p]).zipIdx.filter fun entry => test (Repeats (ps ++ [p]) entry)).map Prod.fst =
      ((ps.zipIdx.filter fun entry => test (Repeats ps entry)).map Prod.fst) ++
        if test (p.identity ∈ ps.map identity) then [p] else [] := by
  have before : ps.zipIdx.filter (fun entry => test (Repeats (ps ++ [p]) entry)) =
      ps.zipIdx.filter fun entry => test (Repeats ps entry) := by
    apply List.filter_congr
    intro entry mem
    simp only [repeats_concat_iff mem]
  have last : Repeats (ps ++ [p]) (p, ps.length) ↔ p.identity ∈ ps.map identity := by
    rw [Repeats, List.take_left]
  rw [List.zipIdx_append, List.filter_append, before, List.map_append, Nat.zero_add]
  congr 1
  by_cases asked : test (p.identity ∈ ps.map identity) = true
  · simp only [List.zipIdx_cons, List.zipIdx_nil, List.filter_cons, last, asked, if_true]
    rfl
  · simp only [List.zipIdx_cons, List.zipIdx_nil, List.filter_cons, last, asked]
    rfl

theorem firsts_concat (ps : List Parameter) (p : Parameter) : firsts (ps ++ [p]) =
    firsts ps ++ if p.identity ∈ ps.map identity then [] else [p] := by
  have step := filter_concat not ps p
  by_cases known : p.identity ∈ ps.map identity
  · rw [if_pos known]
    rwa [decide_eq_true known] at step
  · rw [if_neg known]
    rwa [decide_eq_false known] at step

theorem repeats_concat (ps : List Parameter) (p : Parameter) : repeats (ps ++ [p]) =
    repeats ps ++ if p.identity ∈ ps.map identity then [p] else [] := by
  have step := filter_concat id ps p
  by_cases known : p.identity ∈ ps.map identity
  · rw [if_pos known]
    rwa [decide_eq_true known] at step
  · rw [if_neg known]
    rwa [decide_eq_false known] at step

theorem dedupe_concat (ps : List Parameter) (p : Parameter) : dedupe (ps ++ [p]) =
    dedupe ps ++ if p.identity ∈ ps.map identity then [] else [p] := by
  rw [dedupe_append]
  by_cases known : p.identity ∈ ps.map identity
  · rw [if_pos known, dedupe, List.filter_cons_of_neg (by simpa using known)]
    rfl
  · rw [if_neg known, dedupe, List.filter_cons_of_pos (by simpa using known)]
    rfl

theorem dropWarning?_dedupe (ps : List Parameter) : dropWarning? (dedupe ps) = dropWarning? ps :=
  funext fun p => dropWarning?_congr (first?_dedupe ps p.identity)

theorem dropWarning?_of_fresh (fresh : p.identity ∉ ps.map identity) :
    dropWarning? ps p = none := by
  have missing : first? ps p.identity = none := by simpa [first?] using fresh
  rw [dropWarning?, missing]
  rfl

/-- No parameter is warned of for itself. -/
theorem dropWarning?_concat (ps : List Parameter) (p : Parameter) :
    dropWarning? (ps ++ [p]) p = dropWarning? ps p := by
  rw [dropWarning?, dropWarning?, first?_append]
  cases first? ps p.identity with
  | some kept => rfl
  | none => simp [first?]

theorem dropWarnings_concat (ps : List Parameter) (p : Parameter) :
    dropWarnings (ps ++ [p]) = dropWarnings ps ++ (dropWarning? ps p).toList := by
  rw [dropWarnings_append_eq, List.filterMap_cons, dropWarning?_concat]
  cases dropWarning? ps p <;> rfl

/-! ### The loop -/

/-- Behind `ps`, what was kept is the list without its repeats, and the identities that tell a
repeat are those of what was kept. -/
structure Sieve.Behind (s : Sieve) (ps : List Parameter) : Prop where
  kept_eq : s.kept = dedupe ps
  in_step : ∀ i, i ∈ s.seen ↔ i ∈ s.kept.map identity

theorem Sieve.Behind.seen_iff {s : Sieve} (h : s.Behind ps) (i : Identity) :
    i ∈ s.seen ↔ i ∈ ps.map identity := by
  rw [h.in_step, h.kept_eq, mem_identities_dedupe]

theorem Sieve.Behind.take {s : Sieve} (h : s.Behind ps) (p : Parameter) :
    ∃ s', s.take p = ⟨(dropWarning? ps p).toList, .ok s'⟩ ∧ s'.Behind (ps ++ [p]) := by
  unfold Sieve.take
  by_cases known : p.identity ∈ s.seen
  · have again := (h.seen_iff _).mp known
    have warned : dropWarning? s.kept p = dropWarning? ps p := by
      rw [h.kept_eq, dropWarning?_dedupe]
    refine ⟨s, ?_, ?_, h.in_step⟩
    · rw [if_pos known, warned, Logged.tell_bind]
      simp only [Logged.pure_log, List.append_nil]
      rfl
    · rw [h.kept_eq, dedupe_concat, if_pos again, List.append_nil]
  · have fresh := mt (h.seen_iff _).mpr known
    refine ⟨⟨p.identity :: s.seen, s.kept ++ [p]⟩, ?_, ?_, fun i => ?_⟩
    · rw [if_neg known, dropWarning?_of_fresh fresh]
      rfl
    · rw [dedupe_concat, if_neg fresh, h.kept_eq]
    · rw [List.mem_cons, h.in_step, List.map_append, List.mem_append, List.map_singleton,
        List.mem_singleton, or_comm]

theorem Sieve.exists_behind (ps : List Parameter) : ∃ s : Sieve,
    ps.foldlM Sieve.take .empty = (⟨dropWarnings ps, .ok s⟩ : Logged Sieve) ∧ s.Behind ps := by
  induction ps using List.reverseRecOn with
  | nil => exact ⟨.empty, rfl, rfl, fun i => .rfl⟩
  | append_singleton ps p ih =>
    obtain ⟨s, run, behind⟩ := ih
    obtain ⟨s', step, behind'⟩ := behind.take p
    refine ⟨s', ?_, behind'⟩
    rw [List.foldlM_append, run, Logged.bind_ok rfl, List.foldlM_cons, step, Logged.bind_ok rfl,
      dropWarnings_concat]
    simp

/-- Going through a list once keeps and tells what is said of the whole list. -/
theorem sifted_eq (ps : List Parameter) : sifted ps = ⟨dropWarnings ps, .ok (dedupe ps)⟩ := by
  obtain ⟨s, run, behind⟩ := Sieve.exists_behind ps
  rw [sifted, run, Logged.bind_ok rfl, behind.kept_eq]
  ext1
  · exact List.append_nil _
  · rfl

/-! ### All of a list -/

theorem dedupe_eq_firsts (ps : List Parameter) : dedupe ps = firsts ps := by
  induction ps using List.reverseRecOn with
  | nil => rfl
  | append_singleton ps p ih => rw [dedupe_concat, firsts_concat, ih]

theorem mem_of_mem_repeats {q : Parameter} (h : q ∈ repeats ps) : q ∈ ps := by
  obtain ⟨entry, mem, rfl⟩ := List.mem_map.mp h
  exact List.fst_mem_of_mem_zipIdx (List.mem_filter.mp mem).1

/-- Of the first of an identity no warning is due. -/
theorem dropWarnings_eq_repeats (ps : List Parameter) :
    dropWarnings ps = (repeats ps).filterMap (dropWarning? (dedupe ps)) := by
  rw [dropWarning?_dedupe]
  induction ps using List.reverseRecOn with
  | nil => rfl
  | append_singleton ps p ih =>
    have before : (repeats ps).filterMap (dropWarning? ps) =
        (repeats ps).filterMap (dropWarning? (ps ++ [p])) := by
      apply List.filterMap_congr
      intro q hq
      exact dropWarning?_congr (first?_append_of_mem [p] (mem_of_mem_repeats hq)).symm
    rw [dropWarnings_concat, ih, before, repeats_concat, List.filterMap_append]
    congr 1
    by_cases known : p.identity ∈ ps.map identity
    · rw [if_pos known, List.filterMap_cons, dropWarning?_concat]
      cases dropWarning? ps p <;> rfl
    · rw [if_neg known, dropWarning?_of_fresh known]
      rfl

theorem dropWarnings_append_dedupe (ps qs : List Parameter) :
    dropWarnings (ps ++ qs) = dropWarnings ps ++ dropWarnings (dedupe ps ++ qs) := by
  have front := dropWarnings_of_nodup (nodup_identities_dedupe ps)
  rw [dropWarnings_append_eq, dropWarnings_append_eq (dedupe ps), front, List.nil_append]
  congr 1
  apply List.filterMap_congr
  intro q _
  apply dropWarning?_congr
  rw [first?_append, first?_append, first?_dedupe]

/-- What a repeat was dropped for. -/
theorem exists_kept_of_mem_repeats {q : Parameter} (h : q ∈ repeats ps) :
    ∃ kept ∈ dedupe ps, kept.identity = q.identity ∧ dropWarning? (dedupe ps) q =
      if kept.required = q.required then none else some (.dropped q kept.required) := by
  obtain ⟨kept, mem, same⟩ := exists_mem_dedupe (mem_of_mem_repeats h)
  refine ⟨kept, mem, same, ?_⟩
  rw [dropWarning?, ← same, first?_of_nodup (nodup_identities_dedupe ps) mem]
  rfl

theorem exists_of_mem_dropWarnings {event : Event} (h : event ∈ dropWarnings ps) :
    ∃ p ∈ repeats ps, ∃ kept ∈ dedupe ps, kept.identity = p.identity ∧
      kept.required ≠ p.required ∧ event = .dropped p kept.required := by
  rw [dropWarnings_eq_repeats] at h
  obtain ⟨p, mem, warned⟩ := List.mem_filterMap.mp h
  obtain ⟨kept, hk, same, due⟩ := exists_kept_of_mem_repeats mem
  rw [due] at warned
  split at warned
  · cases warned
  · rename_i disagrees
    exact ⟨p, mem, kept, hk, same, disagrees, (Option.some.inj warned).symm⟩

end GatewayPlan.Parameter
