import GatewayPlan.Parameter.Catalog
import GatewayPlan.Proofs.Template
import Mathlib.Data.List.Basic

/-!
# The grammar of templates

A segment is wrapped if an opening brace starts it and a closing brace ends it, and a template is
well formed if the text inside each of its wrapped segments is a name. Just the well-formed
templates are read. A text put together from two at a slash is read as the one and then the other.
-/

namespace GatewayPlan.Template

/-! ### Names -/

def Unbraced (text : List Char) : Prop :=
  '{' ∉ text ∧ '}' ∉ text

/-- Something other than whitespace is in the text. -/
def Filled (text : List Char) : Prop :=
  ∃ c ∈ text, Text.isSpace c = false

/-- The text begins or ends with whitespace. -/
def Padded (text : List Char) : Prop :=
  ∃ c, (text.head? = some c ∨ text.getLast? = some c) ∧ Text.isSpace c = true

/-- What may stand between the braces of a placeholder. -/
structure IsName (text : List Char) : Prop where
  unbraced : Unbraced text
  filled : Filled text
  unpadded : ¬ Padded text

/-- The first of the demands on a name that a text does not meet. -/
inductive Misses (text : List Char) : Flaw → Prop
  | braces : ¬ Unbraced text → Misses text .braces
  | empty : Unbraced text → ¬ Filled text → Misses text .empty
  | padding : Unbraced text → Filled text → Padded text → Misses text .padding

theorem any_isBrace_iff (text : List Char) : text.any isBrace = true ↔ ¬ Unbraced text := by
  have either : text.any isBrace = true ↔ '{' ∈ text ∨ '}' ∈ text := by
    simp [isBrace, and_or_left, exists_or]
  rw [either, Unbraced, not_and_or, not_not, not_not]

theorem all_isSpace_iff (text : List Char) :
    text.all Text.isSpace = true ↔ ¬ Filled text := by
  simp [Filled]

theorem isPadded_iff (text : List Char) : Text.isPadded text = true ↔ Padded text := by
  simp only [Text.isPadded, Padded, Bool.or_eq_true, Option.any_eq_true, or_and_right, exists_or]

/-- The checks of a name, one behind the other. -/
theorem flaw?_cases (text : List Char) :
    (flaw? text = none ∧ IsName text) ∨ ∃ flaw, flaw? text = some flaw ∧ Misses text flaw := by
  unfold flaw?
  split
  · rename_i found
    exact .inr ⟨.braces, rfl, .braces ((any_isBrace_iff text).mp found)⟩
  · rename_i found
    have unbraced : Unbraced text :=
      not_not.mp fun braced => found ((any_isBrace_iff text).mpr braced)
    split
    · rename_i blank
      exact .inr ⟨.empty, rfl, .empty unbraced ((all_isSpace_iff text).mp blank)⟩
    · rename_i blank
      have filled : Filled text :=
        not_not.mp fun unfilled => blank ((all_isSpace_iff text).mpr unfilled)
      split
      · rename_i padded
        exact .inr ⟨.padding, rfl, .padding unbraced filled ((isPadded_iff text).mp padded)⟩
      · rename_i padded
        exact .inl ⟨rfl, unbraced, filled, fun own => padded ((isPadded_iff text).mpr own)⟩

theorem IsName.not_misses {text : List Char} (name : IsName text) (flaw : Flaw) :
    ¬ Misses text flaw := by
  rintro (braced | ⟨-, unfilled⟩ | ⟨-, -, padded⟩)
  · exact braced name.unbraced
  · exact unfilled name.filled
  · exact name.unpadded padded

theorem Misses.unique {text : List Char} {a b : Flaw} (h : Misses text a) (h' : Misses text b) :
    a = b := by
  cases h with
  | braces braced =>
    cases h' with
    | braces => rfl
    | empty unbraced | padding unbraced => exact absurd unbraced braced
  | empty unbraced unfilled =>
    cases h' with
    | braces braced => exact absurd unbraced braced
    | empty => rfl
    | padding _ filled => exact absurd filled unfilled
  | padding unbraced filled =>
    cases h' with
    | braces braced => exact absurd unbraced braced
    | empty _ unfilled => exact absurd filled unfilled
    | padding => rfl

theorem flaw?_eq_none_iff (text : List Char) : flaw? text = none ↔ IsName text := by
  rcases flaw?_cases text with ⟨none, name⟩ | ⟨flaw, some, misses⟩
  · exact iff_of_true none name
  · rw [some]
    exact iff_of_false nofun fun name => name.not_misses flaw misses

theorem flaw?_eq_some_iff (text : List Char) (flaw : Flaw) :
    flaw? text = some flaw ↔ Misses text flaw := by
  rcases flaw?_cases text with ⟨none, name⟩ | ⟨own, some, misses⟩
  · rw [none]
    exact iff_of_false nofun (name.not_misses flaw)
  · rw [some, Option.some.injEq]
    exact ⟨fun same => same ▸ misses, misses.unique⟩

theorem IsName.not_blank {text : List Char} (name : IsName text) :
    Text.isBlank (String.ofList text) = false :=
  not_blank_of_flaw?_eq_none ((flaw?_eq_none_iff text).mpr name)

/-! ### Segments -/

theorem pieces_eq_splitOn (cs : List Char) : pieces cs = cs.splitOn '/' := by
  rw [List.splitOn_eq_splitOnP]
  induction cs with
  | nil => rfl
  | cons c rest ih =>
    rw [pieces, ih, List.splitOnP_cons_eq_if_modifyHead]
    simp only [beq_iff_eq]

theorem slash_notMem_pieces {cs : List Char} : ∀ piece ∈ pieces cs, '/' ∉ piece := by
  induction cs with
  | nil => simp [pieces]
  | cons c rest ih =>
    rw [pieces]
    split
    · exact List.forall_mem_cons.mpr ⟨List.not_mem_nil, ih⟩
    · rename_i other
      cases cut : pieces rest with
      | nil => exact absurd cut (pieces_ne_nil rest)
      | cons first later =>
        rw [cut] at ih
        obtain ⟨own, ih⟩ := List.forall_mem_cons.mp ih
        refine List.forall_mem_cons.mpr ⟨?_, ih⟩
        exact List.not_mem_cons_of_ne_of_not_mem (Ne.symm other) own

def braced (name : List Char) : List Char :=
  '{' :: (name ++ ['}'])

/-- An opening brace starts the segment and a closing brace ends it. -/
def IsWrapped (segment : List Char) : Prop :=
  segment.head? = some '{' ∧ segment.getLast? = some '}'

instance : DecidablePred IsWrapped :=
  fun _ => inferInstanceAs (Decidable (_ ∧ _))

/-- The two braces are different, so they do not stand in one place. -/
theorem isWrapped_iff (segment : List Char) :
    IsWrapped segment ↔ ∃ name, segment = braced name := by
  constructor
  · rintro ⟨first, last⟩
    obtain ⟨front, rfl⟩ := List.getLast?_eq_some_iff.mp last
    cases front with
    | nil => exact absurd first (by decide)
    | cons c name =>
      have opening : c = '{' := by simpa using first
      exact ⟨name, by rw [opening]; rfl⟩
  · rintro ⟨name, rfl⟩
    have last : (('{' :: name) ++ ['}']).getLast? = some '}' := List.getLast?_concat
    exact ⟨rfl, last⟩

theorem braced_injective : Function.Injective braced := by
  intro a b h
  exact List.append_cancel_right (List.cons.inj h).2

theorem inner?_eq_some_iff (segment name : List Char) :
    inner? segment = some name ↔ segment = braced name := by
  constructor
  · intro h
    unfold inner? at h
    split at h
    · rename_i rest
      split at h
      · rename_i closed
        obtain ⟨front, rfl⟩ := List.getLast?_eq_some_iff.mp closed
        rw [List.dropLast_concat, Option.some.injEq] at h
        rw [h]
        rfl
      · cases h
    · cases h
  · rintro rfl
    simp [inner?, braced]

/-- The wrapped segments of a template, left to right. -/
def wrapped (template : String) : List (List Char) :=
  (template.toList.splitOn '/').filter IsWrapped

/-- The texts inside the wrapped segments. -/
def inners (template : String) : List (List Char) :=
  (placeholders template).map Prod.snd

theorem filter_isWrapped (segments : List (List Char)) :
    segments.filter IsWrapped = (segments.filterMap inner?).map braced := by
  rw [List.map_filterMap, ← List.filterMap_eq_filter]
  apply List.filterMap_congr
  intro segment _
  by_cases own : IsWrapped segment
  · obtain ⟨name, rfl⟩ := (isWrapped_iff segment).mp own
    rw [(inner?_eq_some_iff (braced name) name).mpr rfl]
    exact Option.guard_eq_some_iff.mpr ⟨rfl, decide_eq_true own⟩
  · cases inside : inner? segment with
    | none => simp [own]
    | some name =>
      have same := (inner?_eq_some_iff segment name).mp inside
      exact absurd ((isWrapped_iff segment).mpr ⟨name, same⟩) own

theorem inners_eq (template : String) :
    inners template = (template.toList.splitOn '/').filterMap inner? := by
  have filled : ∀ segment : List Char, segment.isEmpty = true → inner? segment = none := by
    intro segment empty
    rw [List.isEmpty_iff.mp empty, inner?]
    exact nofun
  rw [inners, placeholders, segments, pieces_eq_splitOn, List.map_filterMap, List.filterMap_filter]
  apply List.filterMap_congr
  intro segment _
  by_cases empty : segment.isEmpty = true
  · simp [empty, filled segment empty]
  · rw [if_pos (by simpa using empty), Option.map_map]
    exact Option.map_id'

theorem wrapped_eq (template : String) : wrapped template = (inners template).map braced := by
  rw [wrapped, filter_isWrapped, inners_eq]

/-! ### Reading -/

/-- Each wrapped segment of the template holds a name. -/
def WellFormed (template : String) : Prop :=
  ∀ name, braced name ∈ template.toList.splitOn '/' → IsName name

theorem wellFormed_iff (template : String) :
    WellFormed template ↔ ∀ name ∈ inners template, IsName name := by
  unfold WellFormed
  apply forall_congr'
  intro name
  rw [inners_eq, List.mem_filterMap]
  simp only [inner?_eq_some_iff, exists_eq_right]

theorem pathParameters_eq (template : String) : pathParameters template =
    (inners template).mapM fun name => parameter template (braced name, name) := by
  have own : ∀ place ∈ placeholders template, (braced place.2, place.2) = place := by
    intro place mem
    obtain ⟨segment, -, inside⟩ := List.mem_filterMap.mp mem
    obtain ⟨name, inner, rfl⟩ := Option.map_eq_some_iff.mp inside
    rw [(inner?_eq_some_iff segment name).mp inner]
  have places :
      (inners template).map (fun name => (braced name, name)) = placeholders template := by
    rw [inners, List.map_map]
    exact (List.map_congr_left own).trans (List.map_id _)
  rw [pathParameters, ← places, List.mapM_map]
  rfl

theorem parameter_eq_error_iff {template : String} {name : List Char} {e : Error} :
    parameter template (braced name, name) = .error e ↔ ∃ flaw, Misses name flaw ∧
      e = .malformedTemplate template (String.ofList (braced name)) flaw.reason := by
  unfold parameter
  split
  · rename_i flaw found
    rw [flaw?_eq_some_iff] at found
    rw [Except.error.injEq]
    constructor
    · rintro rfl
      exact ⟨flaw, found, rfl⟩
    · rintro ⟨other, misses, rfl⟩
      rw [found.unique misses]
  · rename_i sound
    rw [flaw?_eq_none_iff] at sound
    refine ⟨nofun, ?_⟩
    rintro ⟨flaw, misses, -⟩
    exact absurd misses (sound.not_misses flaw)

theorem pathParameters_eq_ok_iff {template : String} {ps : List Parameter} :
    pathParameters template = .ok ps ↔ List.Forall₂ (fun name p => IsName name ∧
      p.kind = .path ∧ p.name = String.ofList name ∧ p.required = true) (inners template) ps := by
  rw [pathParameters_eq, Except.mapM_eq_ok_iff]
  simp only [parameter_eq_ok_iff, flaw?_eq_none_iff]

theorem exists_parameter_iff {template : String} {name : List Char} :
    (∃ p, parameter template (braced name, name) = .ok p) ↔ IsName name := by
  simp only [parameter_eq_ok_iff, flaw?_eq_none_iff]
  constructor
  · rintro ⟨p, own, -⟩
    exact own
  · intro own
    exact ⟨⟨.path, String.ofList name, true, own.not_blank⟩, own, rfl, rfl, rfl⟩

theorem pathParameters_eq_error_iff {template : String} {e : Error} :
    pathParameters template = .error e ↔ ∃ before name after flaw,
      inners template = before ++ name :: after ∧ (∀ n ∈ before, IsName n) ∧ Misses name flaw ∧
        e = .malformedTemplate template (String.ofList (braced name)) flaw.reason := by
  rw [pathParameters_eq, Except.mapM_eq_error_iff]
  simp only [parameter_eq_error_iff, exists_parameter_iff, exists_and_left]

/-- A template is read to its end just if it is well formed. -/
theorem exists_pathParameters_iff (template : String) :
    (∃ ps, pathParameters template = .ok ps) ↔ WellFormed template := by
  rw [wellFormed_iff]
  constructor
  · rintro ⟨ps, read⟩
    have each := pathParameters_eq_ok_iff.mp read
    exact ((List.forall₂_and_left _ _).mp each).1
  · intro own
    cases read : pathParameters template with
    | ok ps => exact ⟨ps, rfl⟩
    | error e =>
      obtain ⟨before, name, after, flaw, cut, -, misses, -⟩ := pathParameters_eq_error_iff.mp read
      have mem : name ∈ inners template := cut ▸ List.mem_append_right before List.mem_cons_self
      exact absurd misses ((own name mem).not_misses flaw)

theorem wellFormed_of_read {template : String} {ps : List Parameter}
    (h : pathParameters template = .ok ps) : WellFormed template :=
  (exists_pathParameters_iff template).mp ⟨ps, h⟩

theorem not_wellFormed_of_error {template : String} {e : Error}
    (h : pathParameters template = .error e) : ¬ WellFormed template := by
  intro own
  obtain ⟨ps, read⟩ := (exists_pathParameters_iff template).mpr own
  cases h.symm.trans read

/-- The names in the wrapped segments of a template, left to right. -/
def names (template : String) : List String :=
  (inners template).map String.ofList

theorem names_of_pathParameters {template : String} {ps : List Parameter}
    (h : pathParameters template = .ok ps) : ps.map Parameter.name = names template := by
  have each := pathParameters_eq_ok_iff.mp h
  symm
  rw [names, ← List.forall₂_eq_eq_eq, List.forall₂_map_left_iff, List.forall₂_map_right_iff]
  apply each.imp
  rintro name p ⟨-, -, same, -⟩
  exact same.symm

/-- What is read of a template are its wrapped segments, each by the name inside. -/
theorem braced_of_pathParameters {template : String} {ps : List Parameter}
    (h : pathParameters template = .ok ps) :
    ps.map (fun p => braced p.name.toList) = wrapped template := by
  calc ps.map (fun p => braced p.name.toList)
      = (ps.map Parameter.name).map (fun name => braced name.toList) := by
        rw [List.map_map]
        rfl
    _ = (inners template).map braced := by
        rw [names_of_pathParameters h, names, List.map_map]
        simp only [Function.comp_def, String.toList_ofList]
    _ = wrapped template := (wrapped_eq template).symm

theorem slash_notMem_of_inners {template : String} {name : List Char}
    (h : name ∈ inners template) : '/' ∉ name := by
  rw [inners_eq, List.mem_filterMap] at h
  obtain ⟨segment, mem, inside⟩ := h
  rw [inner?_eq_some_iff] at inside
  rw [← pieces_eq_splitOn, inside] at mem
  intro slash
  apply slash_notMem_pieces _ mem
  exact List.mem_cons_of_mem _ (List.mem_append_left _ slash)

/-- A slash ends a segment, so no segment reaches over it. -/
theorem inners_slash (a b : String) : inners (a ++ "/" ++ b) = inners a ++ inners b := by
  have chars : (a ++ "/" ++ b).toList = a.toList ++ '/' :: b.toList := by
    simp only [String.toList_append, List.append_assoc]
    rfl
  simp only [inners_eq, chars, ← pieces_eq_splitOn, pieces_append, List.filterMap_append]

theorem inners_braced {name : List Char} (slashless : '/' ∉ name) :
    inners (String.ofList (braced name)) = [name] := by
  have whole : '/' ∉ braced name := by
    simpa [braced] using slashless
  rw [inners_eq, String.toList_ofList, List.splitOn_eq_singleton whole]
  exact List.filterMap_cons_some ((inner?_eq_some_iff _ name).mpr rfl)

/-- A name that was read is read again, as the same parameter, where it stands alone. -/
theorem pathParameters_braced {template : String} {ps : List Parameter}
    (h : pathParameters template = .ok ps) {p : Parameter} (mem : p ∈ ps) :
    pathParameters ("/\x7b" ++ p.name ++ "\x7d") = .ok [p] := by
  rw [pathParameters_eq] at h
  obtain ⟨name, inside, read⟩ := Except.exists_of_mem_results h p mem
  obtain ⟨sound, kind, same, required⟩ := parameter_eq_ok_iff.mp read
  have text : "/\x7b" ++ p.name ++ "\x7d" = "" ++ "/" ++ String.ofList (braced name) := by
    rw [same, braced, String.ofList_cons, String.ofList_append]
    rfl
  have alone : inners ("/\x7b" ++ p.name ++ "\x7d") = [name] := by
    rw [text, inners_slash, inners_braced (slash_notMem_of_inners inside)]
    rfl
  rw [pathParameters_eq_ok_iff, alone]
  exact .cons ⟨(flaw?_eq_none_iff name).mp sound, kind, same, required⟩ .nil

/-- The first wrapped segment without a name is blamed, for the first demand that it misses. -/
theorem blamed_iff {template : String} {e : Error} :
    pathParameters template = .error e ↔ ∃ before name after flaw,
      wrapped template = before ++ braced name :: after ∧
        (∀ n, braced n ∈ before → IsName n) ∧ Misses name flaw ∧
        e = .malformedTemplate template (String.ofList (braced name)) flaw.reason := by
  rw [pathParameters_eq_error_iff, wrapped_eq]
  constructor
  · rintro ⟨before, name, after, flaw, cut, sound, misses, rfl⟩
    refine ⟨before.map braced, name, after.map braced, flaw, ?_, ?_, misses, rfl⟩
    · rw [cut, List.map_append, List.map_cons]
    · intro n mem
      exact sound n ((List.mem_map_of_injective braced_injective).mp mem)
  · rintro ⟨front, name, back, flaw, cut, sound, misses, rfl⟩
    obtain ⟨before, rest, split, rfl, tail⟩ := List.map_eq_append_iff.mp cut
    obtain ⟨own, after, rfl, same, -⟩ := List.map_eq_cons_iff.mp tail
    cases braced_injective same
    refine ⟨before, name, after, flaw, split, ?_, misses, rfl⟩
    intro n mem
    exact sound n (List.mem_map_of_mem mem)

section

variable {a b segment reason : String} {front ps : List Parameter}

theorem pathParameters_slash_eq_ok_iff : pathParameters (a ++ "/" ++ b) = .ok ps ↔
    ∃ front back, pathParameters a = .ok front ∧ pathParameters b = .ok back ∧
      ps = front ++ back := by
  have rooted : isRooted ("/" ++ b) = true := by simp [isRooted]
  have behind : ∀ back, pathParameters ("/" ++ b) = .ok back ↔ pathParameters b = .ok back := by
    intro back
    have same : inners ("/" ++ b) = inners b := inners_slash "" b
    rw [pathParameters_eq_ok_iff, same, ← pathParameters_eq_ok_iff]
  rw [String.append_assoc, pathParameters_append_eq_ok_iff a rooted]
  simp only [behind]

theorem pathParameters_slash_of_front
    (h : pathParameters a = .error (.malformedTemplate a segment reason)) :
    pathParameters (a ++ "/" ++ b) =
      .error (.malformedTemplate (a ++ "/" ++ b) segment reason) := by
  obtain ⟨before, name, after, flaw, cut, sound, misses, blamed⟩ :=
    pathParameters_eq_error_iff.mp h
  cases blamed
  refine pathParameters_eq_error_iff.mpr
    ⟨before, name, after ++ inners b, flaw, ?_, sound, misses, rfl⟩
  rw [inners_slash, cut, List.append_assoc, List.cons_append]

theorem pathParameters_slash_of_back (read : pathParameters a = .ok front)
    (h : pathParameters b = .error (.malformedTemplate b segment reason)) :
    pathParameters (a ++ "/" ++ b) =
      .error (.malformedTemplate (a ++ "/" ++ b) segment reason) := by
  obtain ⟨before, name, after, flaw, cut, sound, misses, blamed⟩ :=
    pathParameters_eq_error_iff.mp h
  cases blamed
  have names := (wellFormed_iff a).mp (wellFormed_of_read read)
  refine pathParameters_eq_error_iff.mpr
    ⟨inners a ++ before, name, after, flaw, ?_, ?_, misses, rfl⟩
  · rw [inners_slash, cut, List.append_assoc]
  · exact List.forall_mem_append.mpr ⟨names, sound⟩

end

/-- The constructor that looks for a blank name has nothing to refuse. -/
theorem exists_path_of_isName {name : List Char} (own : IsName name) :
    ∃ p, Parameter.path (String.ofList name) = .ok p :=
  ⟨_, Parameter.named_eq_ok own.not_blank⟩

theorem path_of_mem_pathParameters {template : String} {ps : List Parameter}
    (h : pathParameters template = .ok ps) {p : Parameter} (mem : p ∈ ps) :
    Parameter.path p.name = .ok p := by
  obtain ⟨kind, required⟩ := path_of_pathParameters h p mem
  obtain ⟨_, name, _, filled⟩ := p
  cases kind
  cases required
  exact Parameter.named_eq_ok filled

end GatewayPlan.Template
