import GatewayPlan.Mapping.Set
import GatewayPlan.Parameter.Catalog
import Mathlib.Algebra.BigOperators.Group.List.Basic
import Mathlib.Algebra.GroupWithZero.Nat
import Mathlib.Data.List.Basic
import Mathlib.Data.List.Induction

/-!
# Lines of the body template

The template hands the body on in its first line and sets a header for each name from the context,
in a line of its own. A name stands twice in its line as it is, so each line feed in it breaks the
line twice. Where no name has one, the lines tell the names.
-/

namespace GatewayPlan.Mapping

/-! ### The line of a name -/

/-- The name stands twice in its line, so the length of the line tells the length of the name. -/
theorem contextLine_injective : Function.Injective contextLine := by
  intro a b h
  have chars := congrArg String.toList h
  unfold contextLine contextHeader at chars
  simp only [String.toList_append, List.append_assoc, List.append_cancel_left_eq] at chars
  have lengths := congrArg List.length chars
  simp only [List.length_append] at lengths
  have length : a.toList.length = b.toList.length := by omega
  exact String.toList_inj.mp (List.append_inj chars length).1

theorem count_contextLine (name : String) :
    (contextLine name).toList.count '\n' = 2 * name.toList.count '\n' := by
  have first : "#set($context.requestOverride.header.".toList.count '\n' = 0 := by decide +kernel
  have second : "authorizer-".toList.count '\n' = 0 := by decide +kernel
  have third : " = $context.authorizer.".toList.count '\n' = 0 := by decide +kernel
  have last : ")".toList.count '\n' = 0 := by decide +kernel
  unfold contextLine contextHeader
  simp only [String.toList_append, List.count_append]
  omega

theorem linefeed_notMem_contextLine {name : String} (h : '\n' ∉ name.toList) :
    '\n' ∉ (contextLine name).toList := by
  rw [← List.count_eq_zero, count_contextLine, List.count_eq_zero_of_not_mem h]

/-! ### Lines of a text -/

theorem length_splitOn (c : Char) (text : List Char) :
    (text.splitOn c).length = text.count c + 1 := by
  induction text with
  | nil => rfl
  | cons d rest ih =>
    rw [List.splitOn_cons_eq_if_modifyHead, List.count_cons]
    split
    · rw [List.length_cons, ih]
    · rw [List.length_modifyHead, ih, Nat.add_zero]

/-- Lines that are each ended by a line feed, one after the other. -/
def ended (lines : List (List Char)) : List Char :=
  lines.flatMap (· ++ ['\n'])

theorem splitOn_ended (lines : List (List Char)) :
    (ended lines).splitOn '\n' = lines.flatMap (List.splitOn '\n') ++ [[]] := by
  induction lines with
  | nil => rfl
  | cons line rest ih =>
    have text : ended (line :: rest) = line ++ '\n' :: ended rest := by simp [ended]
    rw [text, List.splitOn_append_cons_self, ih, List.flatMap_cons, List.append_assoc]

/-- The lines of a text, which line feeds stand between. -/
def lines (text : String) : List String :=
  (text.toList.splitOn '\n').map String.ofList

theorem length_lines (text : String) : (lines text).length = text.toList.count '\n' + 1 := by
  rw [lines, List.length_map, length_splitOn]

theorem lines_of_unbroken {text : String} (h : '\n' ∉ text.toList) : lines text = [text] := by
  rw [lines, List.splitOn_eq_singleton h, List.map_singleton, String.ofList_toList]

/-! ### Lines of the template -/

/-- A script with a line feed behind it is its lines, the body line first. -/
theorem toList_script (names : List String) : (script names).toList ++ ['\n'] =
    ended (bodyLine.toList :: names.map fun name => (contextLine name).toList) := by
  unfold script
  generalize bodyLine = text
  induction names generalizing text with
  | nil => simp [ended]
  | cons name rest ih =>
    rw [List.foldl_cons, ih]
    simp [ended]

theorem lines_script (names : List String) :
    lines (script names) = bodyLine :: names.flatMap fun name => lines (contextLine name) := by
  have body : '\n' ∉ bodyLine.toList := by decide +kernel
  have cut := congrArg (List.splitOn '\n') (toList_script names)
  rw [List.splitOn_append_cons_self, splitOn_ended] at cut
  rw [lines, List.append_cancel_right cut, List.flatMap_cons, List.splitOn_eq_singleton body,
    List.singleton_append, List.map_cons, String.ofList_toList, List.flatMap_map, List.map_flatMap]
  rfl

theorem lines_script_of_unbroken {names : List String} (h : ∀ name ∈ names, '\n' ∉ name.toList) :
    lines (script names) = bodyLine :: names.map contextLine := by
  have each : names.flatMap (fun name => lines (contextLine name)) = names.map contextLine := by
    rw [List.map_eq_flatMap]
    apply List.flatMap_congr
    intro name mem
    exact lines_of_unbroken (linefeed_notMem_contextLine (h name mem))
  rw [lines_script, each]

theorem script_inj {as bs : List String} (ha : ∀ a ∈ as, '\n' ∉ a.toList)
    (hb : ∀ b ∈ bs, '\n' ∉ b.toList) (h : script as = script bs) : as = bs := by
  have same := congrArg lines h
  rw [lines_script_of_unbroken ha, lines_script_of_unbroken hb] at same
  exact contextLine_injective.list_map (List.cons.inj same).2

/-- Each line feed in a name adds two lines. -/
theorem length_lines_script (names : List String) : (lines (script names)).length =
    names.length + 1 + 2 * (names.map fun name => name.toList.count '\n').sum := by
  rw [lines_script, List.length_cons]
  induction names with
  | nil => rfl
  | cons name rest ih =>
    rw [List.flatMap_cons, List.length_append, length_lines, count_contextLine, List.length_cons,
      List.map_cons, List.sum_cons]
    omega

theorem length_lines_script_iff (names : List String) :
    (lines (script names)).length = names.length + 1 ↔ ∀ name ∈ names, '\n' ∉ name.toList := by
  have added : (lines (script names)).length = names.length + 1 ↔
      (names.map fun name => name.toList.count '\n').sum = 0 := by
    rw [length_lines_script]
    omega
  rw [added, List.sum_eq_zero_iff_forall_eq_nat, List.forall_mem_map]
  simp only [List.count_eq_zero]

theorem exists_closed_script (names : List String) : ∃ text, script names = text ++ ")" := by
  induction names using List.reverseRecOn with
  | nil => exact ⟨"$input.json(\"$\"", rfl⟩
  | append_singleton names name _ =>
    obtain ⟨text, closed⟩ : ∃ text, contextLine name = text ++ ")" := ⟨_, rfl⟩
    refine ⟨script names ++ "\n" ++ text, ?_⟩
    unfold script
    simp only [List.foldl_concat, closed, String.append_assoc]

theorem getLast?_script (names : List String) : (script names).toList.getLast? = some ')' := by
  obtain ⟨text, closed⟩ := exists_closed_script names
  have close : ")".toList = [')'] := by decide +kernel
  rw [closed, String.toList_append, close, List.getLast?_concat]

/-- The template has the body line and then a line for each name from the context, in their order,
just if no name has a line feed. Each line feed adds two lines. The script never ends in one. -/
theorem templates_lines (ps : List Parameter) :
    (templates ps = if contextNames ps = [] then none
      else some (.ofList [(templateContentType, script (contextNames ps))])) ∧
    (lines (script (contextNames ps)) = bodyLine :: (contextNames ps).map contextLine ↔
      ∀ p ∈ ps, p.kind = .context → '\n' ∉ p.name.toList) ∧
    ((lines (script (contextNames ps))).length = (contextNames ps).length + 1 ↔
      ∀ p ∈ ps, p.kind = .context → '\n' ∉ p.name.toList) ∧
    (lines (script (contextNames ps))).length = (contextNames ps).length + 1 +
      2 * ((contextNames ps).map fun name => name.toList.count '\n').sum ∧
    (script (contextNames ps)).toList.getLast? ≠ some '\n' := by
  have names : (∀ name ∈ contextNames ps, '\n' ∉ name.toList) ↔
      ∀ p ∈ ps, p.kind = .context → '\n' ∉ p.name.toList := by
    simp only [contextNames, List.forall_mem_map, List.mem_filter, Parameter.isContext,
      decide_eq_true_iff, and_imp]
  refine ⟨?_, ?_, ?_, length_lines_script _, ?_⟩
  · unfold templates
    split
    · rename_i none
      rw [none, if_pos rfl]
    · rename_i some
      rw [if_neg some]
  · rw [← names]
    refine ⟨fun same => ?_, lines_script_of_unbroken⟩
    apply (length_lines_script_iff _).mp
    rw [same, List.length_cons, List.length_map]
  · rw [length_lines_script_iff, names]
  · rw [getLast?_script]
    decide

/-- A name may end its own statement and add others. -/
theorem script_broken_by_name : ∃ p, Parameter.context "a)\n#set($b" = .ok p ∧
    contextNames [p] = [p.name] ∧ lines (script (contextNames [p])) =
      [bodyLine, "#set($context.requestOverride.header.authorizer-a)",
        "#set($b = $context.authorizer.a)", "#set($b)"] := by
  refine ⟨⟨.context, _, true, by decide +kernel⟩, Parameter.named_eq_ok (by decide +kernel), rfl,
    ?_⟩
  decide +kernel

end GatewayPlan.Mapping
