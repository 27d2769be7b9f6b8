import GatewayPlan.Template
import Mathlib.Data.List.DropRight

/-!
# Slashes at the end of a text

What is trimmed is all there is of slashes behind the last other character. Of two texts put
together the second is trimmed alone, unless it has nothing but slashes.
-/

namespace GatewayPlan.Template

section RDropWhile

variable {α : Type} {p : α → Bool} {a b : List α}

theorem rdropWhile_append_of_all (h : ∀ x ∈ b, p x = true) :
    (a ++ b).rdropWhile p = a.rdropWhile p := by
  rw [List.rdropWhile, List.reverse_append, List.dropWhile_append_of_pos, List.rdropWhile]
  simpa using h

theorem rdropWhile_append_of_not_all (h : ¬ ∀ x ∈ b, p x = true) :
    (a ++ b).rdropWhile p = a ++ b.rdropWhile p := by
  have stops : (b.reverse.dropWhile p).isEmpty = false := by
    rw [List.isEmpty_eq_false_iff]
    simpa [List.dropWhile_eq_nil_iff] using h
  rw [List.rdropWhile, List.reverse_append, List.dropWhile_append, stops]
  simp [List.rdropWhile]

end RDropWhile

/-- Slashes and nothing else. -/
def slashes (n : Nat) : String :=
  String.ofList (List.replicate n '/')

/-- The characters of a text without the slashes at its end. -/
def trimmed (cs : List Char) : List Char :=
  cs.rdropWhile (· = '/')

theorem toList_trimSlashes (s : String) : (trimSlashes s).toList = trimmed s.toList := by
  rw [trimSlashes, String.toList_ofList, trimmed, List.rdropWhile]

theorem trimmed_append_of_all {a b : List Char} (h : ∀ c ∈ b, c = '/') :
    trimmed (a ++ b) = trimmed a :=
  rdropWhile_append_of_all (by simpa using h)

theorem trimmed_append_of_not_all {a b : List Char} (h : ¬ ∀ c ∈ b, c = '/') :
    trimmed (a ++ b) = a ++ trimmed b :=
  rdropWhile_append_of_not_all (by simpa using h)

theorem trimmed_eq_nil_iff {cs : List Char} : trimmed cs = [] ↔ ∀ c ∈ cs, c = '/' := by
  rw [trimmed, List.rdropWhile_eq_nil_iff]
  simp

/-- A text without slashes is kept whatever is trimmed behind it. -/
theorem trimmed_append_of_notMem {a b : List Char} (h : '/' ∉ a) :
    trimmed (a ++ b) = a ++ trimmed b := by
  by_cases all : ∀ c ∈ b, c = '/'
  · have behind : trimmed b = [] := trimmed_eq_nil_iff.mpr all
    have own : trimmed a = a := by
      refine List.rdropWhile_eq_self_iff.mpr fun filled slash => h ?_
      rw [← of_decide_eq_true slash]
      exact List.getLast_mem filled
    rw [trimmed_append_of_all all, own, behind, List.append_nil]
  · exact trimmed_append_of_not_all all

/-- What is trimmed ends at the last other character at the latest. -/
theorem trimmed_append_cons {a b : List Char} {c : Char} (h : c ≠ '/') :
    trimmed (a ++ c :: b) = a ++ c :: trimmed b := by
  have alone : '/' ∉ [c] := fun mem => h (List.mem_singleton.mp mem).symm
  rw [trimmed_append_of_not_all fun all => h (all c List.mem_cons_self),
    ← List.singleton_append, trimmed_append_of_notMem alone, List.singleton_append]

theorem getLast?_trimmed (cs : List Char) : (trimmed cs).getLast? ≠ some '/' := by
  intro ends
  have filled : trimmed cs ≠ [] := by
    intro empty
    rw [empty] at ends
    cases ends
  have last := List.rdropWhile_last_not (· = '/') cs filled
  rw [List.getLast?_eq_some_getLast filled, Option.some.injEq] at ends
  exact last (decide_eq_true ends)

theorem trimmed_prefix (cs : List Char) : trimmed cs <+: cs :=
  List.rdropWhile_prefix _ cs

theorem trimmed_trimmed (cs : List Char) : trimmed (trimmed cs) = trimmed cs :=
  List.rdropWhile_idempotent _ cs

theorem exists_eq_trimSlashes_append (s : String) : ∃ n, s = trimSlashes s ++ slashes n := by
  let tail := s.toList.rtakeWhile (· = '/')
  have cut : trimmed s.toList ++ tail = s.toList := List.rdropWhile_append_rtakeWhile
  have all : ∀ c ∈ tail, c = '/' := by
    intro c mem
    simpa using List.mem_rtakeWhile_imp mem
  refine ⟨tail.length, String.toList_inj.mp ?_⟩
  rw [String.toList_append, toList_trimSlashes, slashes, String.toList_ofList,
    ← List.eq_replicate_of_mem all, cut]

end GatewayPlan.Template
