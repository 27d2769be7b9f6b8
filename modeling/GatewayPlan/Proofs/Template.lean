import GatewayPlan.Proofs.Except
import GatewayPlan.Template
import Mathlib.Data.List.Forall2

/-!
# What a template names

The parameters of a template are those of its placeholders, one by one. A slash ends a placeholder,
so the placeholders of a text with a path behind it are those of the text and those of the path, and
slashes at the end add none.
-/

namespace GatewayPlan.Template

/-- The template is told of in an error only. What a placeholder names is in its inner text. -/
theorem parameter_eq_ok_iff {template : String} {placeholder : List Char × List Char}
    {p : Parameter} : parameter template placeholder = .ok p ↔ flaw? placeholder.2 = none ∧
      p.kind = .path ∧ p.name = String.ofList placeholder.2 ∧ p.required = true := by
  unfold parameter
  split
  · rename_i flaw found
    simp [found]
  · rename_i sound
    rw [Except.ok.injEq]
    constructor
    · rintro rfl
      exact ⟨sound, rfl, rfl, rfl⟩
    · rintro ⟨-, kind, name, required⟩
      cases p
      cases kind
      cases name
      cases required
      rfl

theorem malformed_of_pathParameters {template : String} {e : Error}
    (h : pathParameters template = .error e) :
    ∃ segment reason, e = .malformedTemplate template segment reason := by
  obtain ⟨placeholder, -, failed⟩ := Except.exists_of_mapM_error h
  unfold parameter at failed
  split at failed
  · cases failed
    exact ⟨_, _, rfl⟩
  · cases failed

theorem path_of_pathParameters {template : String} {own : List Parameter}
    (h : pathParameters template = .ok own) :
    ∀ p ∈ own, p.kind = .path ∧ p.required = true := by
  intro p hp
  obtain ⟨placeholder, -, read⟩ := Except.exists_of_mem_results h p hp
  obtain ⟨-, kind, -, required⟩ := parameter_eq_ok_iff.mp read
  exact ⟨kind, required⟩

theorem kind_of_pathParameters {template : String} {own : List Parameter}
    (h : pathParameters template = .ok own) : ∀ p ∈ own, p.kind = .path :=
  fun p hp => (path_of_pathParameters h p hp).1

theorem required_of_pathParameters {template : String} {own : List Parameter}
    (h : pathParameters template = .ok own) : ∀ p ∈ own, p.required = true :=
  fun p hp => (path_of_pathParameters h p hp).2

/-- A placeholder of the template is read with this name. -/
def Names (template name : String) : Prop :=
  ∃ ps, pathParameters template = .ok ps ∧ ∃ p ∈ ps, p.name = name

theorem names_iff {template name : String} {ps : List Parameter}
    (h : pathParameters template = .ok ps) : Names template name ↔ ∃ p ∈ ps, p.name = name := by
  unfold Names
  simp [h]

instance (template name : String) : Decidable (Names template name) :=
  match h : pathParameters template with
  | .ok _ => decidable_of_iff _ (names_iff h).symm
  | .error _ => isFalse fun ⟨_, read, _⟩ => nomatch h.symm.trans read

theorem mapM_parameter_eq_ok_iff (s t : String) {places : List (List Char × List Char)}
    {ps : List Parameter} :
    places.mapM (parameter s) = .ok ps ↔ places.mapM (parameter t) = .ok ps := by
  simp only [Except.mapM_eq_ok_iff, parameter_eq_ok_iff]

theorem exists_of_isRooted {path : String} (h : isRooted path = true) :
    ∃ rest, path.toList = '/' :: rest := by
  rw [isRooted, decide_eq_true_iff, List.head?_eq_some_iff] at h
  exact h

theorem segments_append (s : String) {path : String} (rooted : isRooted path = true) :
    segments (s ++ path) = segments s ++ segments path := by
  obtain ⟨rest, chars⟩ := exists_of_isRooted rooted
  have nothing_before : pieces ('/' :: rest) = [] :: pieces rest := by rw [pieces, if_pos rfl]
  simp only [segments, String.toList_append, chars, pieces_append, nothing_before,
    List.filter_append]
  simp

theorem placeholders_append (s : String) {path : String} (rooted : isRooted path = true) :
    placeholders (s ++ path) = placeholders s ++ placeholders path := by
  rw [placeholders, segments_append s rooted, List.filterMap_append, placeholders, placeholders]

theorem pathParameters_append_eq_ok_iff (s : String) {path : String}
    (rooted : isRooted path = true) {ps : List Parameter} :
    pathParameters (s ++ path) = .ok ps ↔ ∃ front back, pathParameters s = .ok front ∧
      pathParameters path = .ok back ∧ ps = front ++ back := by
  rw [pathParameters, placeholders_append s rooted, List.mapM_append, Except.bind_eq_ok_iff]
  constructor
  · rintro ⟨front, inFront, h⟩
    obtain ⟨back, inBack, h⟩ := Except.bind_eq_ok_iff.mp h
    exact ⟨front, back, (mapM_parameter_eq_ok_iff (s ++ path) s).mp inFront,
      (mapM_parameter_eq_ok_iff (s ++ path) path).mp inBack, (Except.ok.inj h).symm⟩
  · rintro ⟨front, back, inFront, inBack, rfl⟩
    refine ⟨front, (mapM_parameter_eq_ok_iff (s ++ path) s).mpr inFront, ?_⟩
    have inBack := (mapM_parameter_eq_ok_iff (s ++ path) path).mpr inBack
    exact Except.bind_eq_ok_iff.mpr ⟨back, inBack, rfl⟩

theorem names_append (s : String) {path name : String} (rooted : isRooted path = true)
    (h : Names (s ++ path) name) : Names s name ∨ Names path name := by
  obtain ⟨ps, read, p, hp, rfl⟩ := h
  obtain ⟨front, back, hf, hb, rfl⟩ := (pathParameters_append_eq_ok_iff s rooted).mp read
  rcases List.mem_append.mp hp with inFront | inBack
  · exact .inl ⟨front, hf, p, inFront, rfl⟩
  · exact .inr ⟨back, hb, p, inBack, rfl⟩

/-- The text is held back to front here. -/
theorem filter_pieces_dropWhile (cs : List Char) :
    ((pieces (cs.dropWhile (· = '/')).reverse).filter fun s => !s.isEmpty) =
      (pieces cs.reverse).filter fun s => !s.isEmpty := by
  induction cs with
  | nil => rfl
  | cons c rest ih =>
    by_cases slash : c = '/'
    · subst slash
      have dropped : ('/' :: rest).dropWhile (· = '/') = rest.dropWhile (· = '/') := by simp
      rw [dropped, ih, List.reverse_cons, pieces_append, List.filter_append]
      exact (List.append_nil _).symm
    · rw [List.dropWhile_cons_of_neg (by simpa using slash)]

theorem segments_trimSlashes (s : String) : segments (trimSlashes s) = segments s := by
  have chars := filter_pieces_dropWhile s.toList.reverse
  rw [List.reverse_reverse] at chars
  rw [segments, trimSlashes, String.toList_ofList, chars, segments]

/-- Slashes that cut off nothing take no part in what a template names. -/
theorem pathParameters_congr {s t : String} (same : segments s = segments t)
    {ps : List Parameter} : pathParameters s = .ok ps ↔ pathParameters t = .ok ps := by
  have places : placeholders s = placeholders t := by rw [placeholders, same, placeholders]
  rw [pathParameters, places]
  exact mapM_parameter_eq_ok_iff s t

theorem names_trimSlashes_iff (s name : String) : Names (trimSlashes s) name ↔ Names s name := by
  unfold Names
  simp only [pathParameters_congr (segments_trimSlashes s)]

end GatewayPlan.Template
