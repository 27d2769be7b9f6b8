import GatewayPlan.Proofs.Yaml.Plain
import GatewayPlan.Yaml.Writer

/-!
# The layout of a written tree

With which characters the parts of a tree are written, and in which column the next token stands.
The tokens of a block stand in its column or right of it, but a list below a key stands in the
column of the key.
-/

namespace GatewayPlan.Yaml

open GatewayPlan.Tree

variable {indent : Nat} {tail : List Char} {n v : Node} {k : String} {ws : List (String × Node)}

/-! ### Characters -/

theorem toList_pad (n : Nat) : (pad n).toList = List.replicate n ' ' :=
  String.toList_ofList

theorem toList_items_cons (indent : Nat) (n : Node) (ns : List Node) :
    (items indent (n :: ns)).toList =
      List.replicate indent ' ' ++ '-' :: ((item indent n).toList ++ (items indent ns).toList) := by
  simp [items, toList_pad]

theorem toList_entries_cons (indent : Nat) (k v : Node) (es : List (Node × Node)) :
    (entries indent ((k, v) :: es)).toList = List.replicate indent ' ' ++
      ((keyOf k).toList ++ ':' :: ((value indent v).toList ++ (entries indent es).toList)) := by
  simp [entries, toList_pad]

theorem toList_value_seq (indent : Nat) (n : Node) (ns : List Node) :
    (value indent (.seq (n :: ns))).toList = '\n' :: (items indent (n :: ns)).toList := by
  simp [value, items]

theorem toList_value_map (indent : Nat) (e : Node × Node) (es : List (Node × Node)) :
    (value indent (.map (e :: es))).toList = '\n' :: (entries (indent + 2) (e :: es)).toList := by
  simp [value, entries]

theorem toList_item_seq (indent : Nat) (n : Node) (ns : List Node) :
    (item indent (.seq (n :: ns))).toList =
      ' ' :: '-' :: ((item (indent + 2) n).toList ++ (items (indent + 2) ns).toList) := by
  simp [item]

theorem toList_item_map (indent : Nat) (k v : Node) (es : List (Node × Node)) :
    (item indent (.map ((k, v) :: es))).toList = ' ' :: ((keyOf k).toList ++
      ':' :: ((value (indent + 2) v).toList ++ (entries (indent + 2) es).toList)) := by
  simp [item]

theorem leaf_head (indent : Nat) (n : Node) : ∃ cs, (leaf indent n).toList = ' ' :: cs := by
  cases n <;> simp [leaf]
  case bool b => cases b <;> simp

theorem item_head (indent : Nat) (n : Node) : ∃ cs, (item indent n).toList = ' ' :: cs := by
  unfold item
  split
  case h_4 => exact leaf_head indent n
  all_goals simp

theorem value_head (indent : Nat) (n : Node) :
    ∃ c cs, (value indent n).toList = c :: cs ∧ isSpaceOrBreak c = true := by
  unfold value
  split
  case h_4 =>
    obtain ⟨cs, eq⟩ := leaf_head indent n
    exact ⟨' ', cs, eq, by decide⟩
  all_goals simp [isSpaceOrBreak, isBreak]

/-- A tree that is written on the line where it starts. -/
def OnLine (n : Node) : Prop :=
  ∀ indent, value indent n = leaf indent n ∧ item indent n = leaf indent n

/-- Entries under names. -/
def named (ws : List (String × Node)) : List (Node × Node) :=
  ws.map fun w => (.text w.1, w.2)

/-- What is written of a list from its first dash on, and what comes after it. -/
def itemText (indent : Nat) (n : Node) (ns : List Node) (tail : List Char) : List Char :=
  '-' :: ((item indent n).toList ++ ((items indent ns).toList ++ tail))

/-- What is written of a map from its first colon on, and what comes after it. -/
def entryText (indent : Nat) (v : Node) (ws : List (String × Node)) (tail : List Char) :
    List Char :=
  ':' :: ((value indent v).toList ++ ((entries indent (named ws)).toList ++ tail))

/-! ### Names -/

theorem IsName.plainly (h : IsName k) : Plainly k.toList :=
  (plainly_of_style h.2.1).1

theorem IsName.length_pos (h : IsName k) : 0 < k.toList.length := by
  obtain ⟨c, rest, own, -⟩ := h.plainly.head
  rw [own]
  exact Nat.succ_pos _

theorem keyText_of_isName (h : IsName k) : keyText k = k := by
  rw [keyText, h.2.1]

theorem IsName.token (h : IsName k) (more : List Char) : Token (k.toList ++ more) := by
  obtain ⟨c, rest, eq, solid, -⟩ := h.plainly.head
  have own : c.isAlpha || c = '_' := by
    have all := h.1
    rw [eq, List.all_cons, Bool.and_eq_true] at all
    exact all.1
  have dash : c ≠ '-' := by
    rintro rfl
    exact absurd own (by decide)
  have dot : c ≠ '.' := by
    rintro rfl
    exact absurd own (by decide)
  rw [eq]
  refine ⟨⟨c, rest ++ more, rfl, solid⟩, fun line column => ?_⟩
  rw [List.cons_append, place_cons (isBreak_of_isSolid solid)]
  exact atBoundary_cons dash dot _

theorem atGap_value (indent : Nat) (n : Node) (more : List Char) (line column : Nat) :
    Placed.atGap (place line column ((value indent n).toList ++ more)) = true := by
  obtain ⟨c, cs, eq, gap⟩ := value_head indent n
  have own : (isBlank c || isBreak c) = true := by
    rw [isSpaceOrBreak, Bool.or_eq_true] at gap
    rcases gap with space | broken
    · simp [isBlank, of_decide_eq_true space]
    · simp [broken]
  rw [eq, List.cons_append, place, Placed.atGap]
  simpa using own

theorem toList_items_append (indent : Nat) (n : Node) (ns : List Node) (tail : List Char) :
    (items indent (n :: ns)).toList ++ tail =
      List.replicate indent ' ' ++ itemText indent n ns tail := by
  simp [toList_items_cons, itemText]

theorem toList_entries_append (name : IsName k) (indent : Nat) (v : Node)
    (ws : List (String × Node)) (tail : List Char) :
    (entries indent (named ((k, v) :: ws))).toList ++ tail =
      List.replicate indent ' ' ++ (k.toList ++ entryText indent v ws tail) := by
  rw [named, List.map_cons, toList_entries_cons, keyOf, keyText_of_isName name]
  simp [entryText, named]

theorem length_items (indent : Nat) (n : Node) (ns : List Node) :
    (items indent (n :: ns)).toList.length = indent + (itemText indent n ns []).length := by
  have text := congrArg List.length (toList_items_append indent n ns [])
  simpa using text

theorem length_entries (name : IsName k) (indent : Nat) (v : Node) (ws : List (String × Node)) :
    (entries indent (named ((k, v) :: ws))).toList.length =
      indent + (k.toList.length + (entryText indent v ws []).length) := by
  have text := congrArg List.length (toList_entries_append name indent v ws [])
  simpa using text

/-! ### Columns -/

/-- What comes after a block in `column` stands left of it. After a list below a key it may also be
the next key. -/
inductive After (belowKey : Bool) (column : Nat) : List Char → Prop
  | below {tail : List Char} : Below column tail → After belowKey column tail
  | key {cs : List Char} : belowKey = true → Token cs →
      (∀ line column, Placed.startsWithMark '-' (place line column cs) = false) →
      After belowKey column (List.replicate column ' ' ++ cs)

theorem After.below_succ {belowKey : Bool} (h : After belowKey column tail) :
    Below (column + 1) tail := by
  cases h with
  | below h => exact h.mono (Nat.le_succ column)
  | key _ own => exact .token (Nat.lt_succ_self column) own

theorem token_dash (cs : List Char) : Token ('-' :: ' ' :: cs) := by
  refine ⟨⟨'-', _, rfl, rfl⟩, fun line column => ?_⟩
  rw [place_cons (by decide), place_cons (by decide), Placed.atBoundary,
    atMarker_cons_of_ne (c := '.') (by simp)]
  cases cs with
  | nil => rfl
  | cons c cs => simp [place, Placed.atMarker]

theorem token_itemText (indent : Nat) (n : Node) (ns : List Node) (tail : List Char) :
    Token (itemText indent n ns tail) := by
  obtain ⟨cs, head⟩ := item_head indent n
  rw [itemText, head]
  exact token_dash _

theorem startsWithMark_itemText (indent : Nat) (n : Node) (ns : List Node) (tail : List Char)
    (line column : Nat) :
    Placed.startsWithMark '-' (place line column (itemText indent n ns tail)) = true := by
  obtain ⟨cs, head⟩ := item_head indent n
  rw [itemText, head]
  rfl

theorem items_below {ns : List Node} (h : Below (indent + 1) tail) :
    Below (indent + 1) ((items indent ns).toList ++ tail) := by
  cases ns with
  | nil => simpa [items] using h
  | cons n ns =>
    rw [toList_items_append]
    exact .token (Nat.lt_succ_self indent) (token_itemText ..)

theorem entries_after (names : ∀ w ∈ ws, IsName w.1) (h : Below indent tail) :
    After true indent ((entries indent (named ws)).toList ++ tail) := by
  cases ws with
  | nil => exact .below (by simpa [entries, named] using h)
  | cons w ws =>
    have name := names w List.mem_cons_self
    rw [toList_entries_append name]
    exact .key rfl (name.token _) (opens_plain name.plainly _).dash

end GatewayPlan.Yaml
