import GatewayPlan.Proofs.Tree.Written
import GatewayPlan.Proofs.Yaml.Layout
import GatewayPlan.Proofs.Yaml.Scalar

/-!
# Written trees are read back

A reader of blocks is given what was written of a tree and any text that may come after it. It gives
a tree that stands for the one that was written, and stops at the first token of what comes after.
-/

namespace GatewayPlan.Yaml

open GatewayPlan.Tree Reading

variable {indent depth line column fuel least : Nat} {tail : List Char} {n v : Node} {k : String}
  {ws : List (String × Node)}

/-- A reader gives a tree that shows `n`, and goes on to the first token of `tail` on a later line.
-/
def Takes (r : Reading Node) (g : Gap) (depth : Nat) (n : Node) (line : Nat) (tail : List Char) :
    Prop :=
  ∃ m line', line < line' ∧ Shows depth m n ∧ Runs r g m ⟨start line' tail, true⟩

/-- A tree is read back as a value after a key and as an item after a dash. -/
structure Reads (depth : Nat) (n : Node) : Prop where
  value : ∀ (indent fuel line column : Nat) {tail : List Char}, indent < column →
    After true indent tail → 2 * (value indent n).toList.length ≤ fuel →
    Takes (blockNode fuel (indent + 1) true .none)
      ⟨place line column ((value indent n).toList ++ tail), false⟩ depth n line tail
  item : ∀ (indent fuel line : Nat) {tail : List Char}, Below (indent + 1) tail →
    2 * (item indent n).toList.length ≤ fuel →
    Takes (blockNode fuel (indent + 1) false .none)
      ⟨place line (indent + 1) ((item indent n).toList ++ tail), true⟩ depth n line tail

/-! ### Scalars -/

theorem skipGap_space {cs : List Char} (own : ∃ c rest, cs = c :: rest ∧ isSolid c = true)
    (fresh : Bool) (line column : Nat) :
    skipGap false false fresh (place line column (' ' :: cs)) =
      ⟨place line (column + 1) cs, fresh⟩ := by
  obtain ⟨c, rest, rfl, solid⟩ := own
  exact (skipGap_spaces fresh line column 1 (c :: rest)).trans (skipGap_solid solid ..)

theorem Inline.takes {cs : List Char} (own : Inline indent depth cs n)
    (after : Below (indent + 1) tail) (inside : indent < column) (fuel line : Nat) (fresh : Bool)
    (belowKey : Bool) : Takes (blockNode (fuel + 2) (indent + 1) belowKey .none)
      ⟨place line column (' ' :: (cs ++ tail)), fresh⟩ depth n line tail := by
  have inside' : 0 < column + 1 := Nat.succ_pos column
  obtain ⟨m, g, line', lt, shows, read, next⟩ :=
    own.reads fuel line (column + 1) fresh inside' after
  obtain ⟨c, rest, eq, solid, -⟩ := (own.opens tail).head
  have gap := skipGap_space ⟨c, rest, eq, solid⟩ fresh line column
  refine ⟨m, line', lt, shows, .blockNode_opens (own.opens tail)
    (atBoundary_of_column line inside' _) gap (by omega) read next
    (fun c => .atColon_start after lt) ?_⟩
  simp

theorem reads_inline (text : OnLine n)
    (own : ∀ indent, ∃ cs, (leaf indent n).toList = ' ' :: cs ∧ Inline indent depth cs n) :
    Reads depth n where
  value indent fuel line column tail inside after enough := by
    obtain ⟨cs, written, own⟩ := own indent
    rw [(text indent).1, written] at enough ⊢
    obtain ⟨fuel, rfl⟩ : ∃ k, fuel = k + 2 :=
      ⟨fuel - 2, by rw [List.length_cons] at enough; omega⟩
    exact own.takes after.below_succ inside fuel line false true
  item indent fuel line tail after enough := by
    obtain ⟨cs, written, own⟩ := own indent
    rw [(text indent).2, written] at enough ⊢
    obtain ⟨fuel, rfl⟩ : ∃ k, fuel = k + 2 :=
      ⟨fuel - 2, by rw [List.length_cons] at enough; omega⟩
    exact own.takes after (Nat.lt_succ_self indent) fuel line true false

/-! ### Lists -/

/-- The items of a list are read from its first dash on. -/
theorem blockItems_itemText {ns : List Node} (each : ∀ m ∈ n :: ns, Reads depth m)
    {belowKey : Bool} (after : After belowKey indent tail) (fuel line : Nat)
    (enough : 2 * (itemText indent n ns []).length ≤ fuel) :
    ∃ ms line', line < line' ∧ List.Forall₂ (Shows depth) ms (n :: ns) ∧
      Runs (blockItems fuel indent belowKey)
        ⟨place line indent (itemText indent n ns tail), true⟩ ms ⟨start line' tail, true⟩ := by
  induction ns generalizing n fuel line with
  | nil =>
    simp only [itemText, List.length_cons, List.length_append] at enough
    obtain ⟨fuel, rfl⟩ : ∃ k, fuel = k + 1 := ⟨fuel - 1, by omega⟩
    obtain ⟨m, line', lt, shows, read⟩ :=
      (each n List.mem_cons_self).item indent fuel line after.below_succ (by omega)
    refine ⟨[m], line', lt, .cons shows .nil, ?_⟩
    rw [itemText, place_cons (by decide), blockItems]
    refine .bind .drop (.bind read (.bind (.skip false _) ?_))
    rw [skipGap_start after.below_succ]
    cases after with
    | below h => exact .bind (.outside_start h) (.pure _ _)
    | @key cs below own other =>
      have dash := other line' indent
      rw [start_token line' indent own]
      refine .bind (.outside_token own (Nat.le_refl indent)) ?_
      obtain ⟨c, rest, rfl, solid⟩ := own.solid
      rw [place_cons (isBreak_of_isSolid solid)] at dash ⊢
      refine .bind .here (.bind (.require (by simp) _) (.bind (.rest _) ?_))
      rw [dash]
      exact .bind (.require below _) (.pure _ _)
  | cons n' ns ih =>
    have below : Below (indent + 1) ((items indent (n' :: ns)).toList ++ tail) :=
      items_below after.below_succ
    rw [itemText, List.append_nil, List.length_cons, List.length_append, length_items] at enough
    obtain ⟨fuel, rfl⟩ : ∃ k, fuel = k + 1 := ⟨fuel - 1, by omega⟩
    obtain ⟨m, line₁, lt₁, shows, read⟩ :=
      (each n List.mem_cons_self).item indent fuel line below (by omega)
    obtain ⟨ms, line', lt, others, next⟩ :=
      ih (fun m mem => each m (List.mem_cons_of_mem _ mem)) fuel line₁ (by omega)
    have token := token_itemText indent n' ns tail
    have dash := startsWithMark_itemText indent n' ns tail line₁ indent
    refine ⟨m :: ms, line', by omega, .cons shows others, ?_⟩
    rw [itemText, place_cons (by decide), blockItems]
    refine .bind .drop (.bind read (.bind (.skip false _) ?_))
    rw [skipGap_start below, toList_items_append, start_token line₁ indent token]
    refine .bind (.outside_token token (Nat.le_refl indent)) ?_
    rw [itemText, place_cons (by decide)] at dash next ⊢
    refine .bind .here (.bind (.require (by simp) _) (.bind (.rest _) ?_))
    rw [dash]
    exact .get fun _ _ => .bind (.require rfl _) (.bind next (.pure _ _))

theorem shows_seq {ms ns : List Node} (h : List.Forall₂ (Shows depth) ms ns) :
    Shows (depth + 1) (.seq ms) (.seq ns) where
  standsFor := .seq (Node.itemsStandFor_iff.mpr (h.imp fun _ _ shows => shows.standsFor))
  limited := by
    have items : Node.limitedItems depth ms = ms := by
      induction h with
      | nil => rfl
      | cons head _ ih => rw [Node.limitedItems, head.limited, ih]
    rw [Node.limited, items]

theorem skipGap_newLine {cs : List Char} (own : Token cs) (indent : Nat) (fresh : Bool)
    (line column : Nat) :
    skipGap false false fresh (place line column ('\n' :: (List.replicate indent ' ' ++ cs))) =
      ⟨place (line + 1) indent cs, true⟩ := by
  rw [skipGap_break (by decide), skipGap_tail (.token (Nat.lt_succ_self indent) own),
    start_token _ _ own]

theorem reads_seq {ns : List Node} (each : ∀ m ∈ n :: ns, Reads depth m) :
    Reads (depth + 1) (.seq (n :: ns)) where
  value indent fuel line column tail inside after enough := by
    have token := token_itemText indent n ns tail
    have boundary := token.inside (line + 1) indent
    have dash := startsWithMark_itemText indent n ns tail (line + 1) indent
    rw [toList_value_seq, List.length_cons, length_items] at enough
    obtain ⟨fuel, rfl⟩ : ∃ k, fuel = k + 2 := ⟨fuel - 2, by omega⟩
    obtain ⟨ms, line', lt, shows, read⟩ :=
      blockItems_itemText each after fuel (line + 1) (by omega)
    refine ⟨.seq ms, line', by omega, shows_seq shows, ?_⟩
    rw [toList_value_seq, List.cons_append, toList_items_append, blockNode]
    refine .bind (.skip false _) ?_
    rw [skipGap_newLine token]
    refine .bind (.rest _) (.bind (.outside_before token (Nat.lt_succ_self indent)) ?_)
    rw [itemText, place_cons (by decide)] at boundary dash read ⊢
    refine .bind ?_ (.dress_none _ _)
    rw [outsideNode]
    refine .bind (.rest _) ?_
    simp only [List.head?_cons, Option.any_some, decide_true, boundary, Bool.not_true, Bool.or_self,
      Bool.false_eq_true, if_false, dash]
    exact .get fun _ _ => .bind read (.pure _ _)
  item indent fuel line tail after enough := by
    have token := token_itemText (indent + 2) n ns tail
    have dash := startsWithMark_itemText (indent + 2) n ns tail line (indent + 2)
    have text : (item indent (.seq (n :: ns))).toList ++ tail =
        ' ' :: itemText (indent + 2) n ns tail := by
      simp [toList_item_seq, itemText]
    have length : (item indent (.seq (n :: ns))).toList.length =
        (itemText (indent + 2) n ns []).length + 1 := by
      simp [toList_item_seq, itemText]
    have below : After false (indent + 2) tail := .below (after.mono (Nat.le_succ (indent + 1)))
    obtain ⟨fuel, rfl⟩ : ∃ k, fuel = k + 1 := ⟨fuel - 1, by omega⟩
    obtain ⟨ms, line', lt, shows, read⟩ := blockItems_itemText each below fuel line (by omega)
    refine ⟨.seq ms, line', lt, shows_seq shows, ?_⟩
    rw [text, blockNode]
    refine .bind (.skip false _) ?_
    rw [skipGap_space token.solid]
    refine .bind (.rest _) (.bind (.outside_token token (Nat.le_succ (indent + 1))) ?_)
    rw [itemText, place_cons (by decide)] at dash read ⊢
    simp only [Bool.false_eq_true, if_false, dash, if_true]
    exact .get fun _ _ => .bind (.require rfl _) (.bind .here (.bind read (.dress_none _ _)))

/-! ### Keys -/

/-- The end of a key, where its colon stands. -/
def atValue (line column indent : Nat) (k : String) (v : Node) (ws : List (String × Node))
    (tail : List Char) : Gap :=
  ⟨place line (column + k.toList.length) (entryText indent v ws tail), false⟩

theorem content_key (name : IsName k) (fuel least line column indent : Nat) (fresh : Bool)
    (v : Node) (ws : List (String × Node)) (tail : List Char) :
    Runs (content (fuel + 1) false least false)
      ⟨place line column (k.toList ++ entryText indent v ws tail), fresh⟩ (.plain k)
      (atValue line column indent k v ws tail) := by
  have boundary := (name.token (entryText indent v ws tail)).inside line column
  have read : scanPlain false least [] .none
      (place line column (k.toList ++ entryText indent v ws tail)) =
      some ⟨k, (atValue line column indent k v ws tail).rest, false⟩ := by
    obtain ⟨c, rest, eq, -⟩ := name.plainly.head
    rw [scanPlain_text name.plainly line column _ boundary, entryText,
      scanPlain_colon _ _ _ (by simp [eq]) (atGap_value ..)]
    simp [Backwards.text, atValue, entryText]
  exact .content_plain name.plainly boundary read

theorem skipGap_atValue (line column indent : Nat) (k : String) (v : Node)
    (ws : List (String × Node)) (tail : List Char) :
    skipGap false false (atValue line column indent k v ws tail).fresh
      (atValue line column indent k v ws tail).rest = atValue line column indent k v ws tail :=
  skipGap_solid rfl false line _ _

theorem atColon_atValue (name : IsName k) (c : Char) :
    Runs (atColon false ⟨c, line, column⟩) (atValue line column indent k v ws tail) true
      (atValue line column indent k v ws tail) := by
  have short : k.toList.length ≤ 1024 := by
    rw [String.length_toList]
    exact name.2.2
  exact .atColon_key (by omega) (atGap_value ..)

theorem blockKey_name (name : IsName k) (fuel line column indent : Nat) (fresh : Bool)
    (v : Node) (ws : List (String × Node)) (tail : List Char) :
    Runs (blockKey (fuel + 2) column)
      ⟨place line column (k.toList ++ entryText indent v ws tail), fresh⟩ (.plain k)
      (atValue line column indent k v ws tail) := by
  have read := content_key name fuel (column + 1) line column indent fresh v ws tail
  have opens := opens_plain name.plainly (entryText indent v ws tail)
  have properties : Runs (properties false)
      ⟨place line column (k.toList ++ entryText indent v ws tail), fresh⟩ .none _ :=
    .properties_opens opens
  obtain ⟨c, cs, own, solid, -⟩ := opens.head
  rw [own, place_cons (isBreak_of_isSolid solid)] at properties read ⊢
  rw [blockKey]
  refine .bind .here (.bind properties (.bind (.atColon_cons rfl) (.bind read ?_)))
  refine .bind (.skip false _) ?_
  rw [skipGap_atValue]
  exact .bind (atColon_atValue name c) (.bind (.require rfl _) (.dress_none _ _))

/-! ### Maps -/

/-- An entry has a name and its value is read back. -/
def ReadsEntry (depth : Nat) (w : String × Node) : Prop :=
  IsName w.1 ∧ Reads depth w.2

def ShowsEntry (depth : Nat) (e : Node × Node) (w : String × Node) : Prop :=
  Shows depth e.1 (.text w.1) ∧ Shows depth e.2 w.2

theorem shows_fields {es : List (Node × Node)} (h : List.Forall₂ (ShowsEntry depth) es ws) :
    Shows (depth + 1) (.map es) (.fields ws) where
  standsFor := by
    refine .map (Node.entriesStandFor_iff.mpr ?_) (.refl _)
    rw [List.forall₂_map_right_iff]
    exact h.imp fun _ _ shows => ⟨shows.1.standsFor, shows.2.standsFor⟩
  limited := by
    have entries : Node.limitedEntries depth es = es := by
      induction h with
      | nil => rfl
      | cons head _ ih => rw [Node.limitedEntries, head.1.limited, head.2.limited, ih]
    rw [Node.limited, entries]

/-- The first of some entries is read from its colon on, given that the others are. -/
theorem blockEntries_entryText (name : IsName k) (names : ∀ w ∈ ws, IsName w.1)
    (own : Reads depth v) (after : Below indent tail) (inside : indent < column) (fuel line : Nat)
    (enough : 2 * (entryText indent v ws []).length ≤ fuel)
    (others : ∀ fuel line : Nat, 2 * (entries indent (named ws)).toList.length + 1 ≤ fuel →
      ∃ es line', line ≤ line' ∧ List.Forall₂ (ShowsEntry depth) es ws ∧
        Runs (moreEntries fuel indent)
          ⟨start line ((entries indent (named ws)).toList ++ tail), true⟩ es
          ⟨start line' tail, true⟩) :
    ∃ es line', line < line' ∧ List.Forall₂ (ShowsEntry depth) es ((k, v) :: ws) ∧
      Runs (blockEntries fuel indent (.plain k) false)
        ⟨place line column (entryText indent v ws tail), false⟩ es ⟨start line' tail, true⟩ := by
  simp only [entryText, List.append_nil, List.length_cons, List.length_append] at enough
  obtain ⟨fuel, rfl⟩ : ∃ k, fuel = k + 1 := ⟨fuel - 1, by omega⟩
  obtain ⟨m, line₁, lt, shows, read⟩ := own.value indent fuel line (column + 1)
    (Nat.lt_succ_of_lt inside) (entries_after names after) (by omega)
  obtain ⟨es, line', le, rest, next⟩ := others fuel line₁ (by omega)
  have key : Shows depth (.plain k) (.text k) := ⟨standsFor_text_of_style name.2.1, rfl⟩
  refine ⟨(.plain k, m) :: es, line', by omega, .cons ⟨key, shows⟩ rest, ?_⟩
  rw [entryText, place_cons (by decide), blockEntries]
  exact .bind .drop (.bind read (.bind next (.pure _ _)))

/-- The further entries of a map are read up to its end. -/
theorem moreEntries_entries (each : ∀ w ∈ ws, ReadsEntry depth w) (after : Below indent tail)
    (fuel line : Nat) (enough : 2 * (entries indent (named ws)).toList.length + 1 ≤ fuel) :
    ∃ es line', line ≤ line' ∧ List.Forall₂ (ShowsEntry depth) es ws ∧
      Runs (moreEntries fuel indent)
        ⟨start line ((entries indent (named ws)).toList ++ tail), true⟩ es
        ⟨start line' tail, true⟩ := by
  induction ws generalizing fuel line with
  | nil =>
    obtain ⟨fuel, rfl⟩ : ∃ k, fuel = k + 1 := ⟨fuel - 1, by omega⟩
    have empty : (entries indent (named [])).toList ++ tail = tail := by simp [named, entries]
    refine ⟨[], line, Nat.le_refl line, .nil, ?_⟩
    rw [empty, moreEntries]
    refine .bind (.skip false _) ?_
    rw [skipGap_start after]
    exact .bind (.outside_start after) (.pure _ _)
  | cons w ws ih =>
    obtain ⟨k, v⟩ := w
    have name : IsName k := (each _ List.mem_cons_self).1
    have own : Reads depth v := (each _ List.mem_cons_self).2
    have others : ∀ w ∈ ws, ReadsEntry depth w := fun w mem => each w (List.mem_cons_of_mem _ mem)
    have names : ∀ w ∈ ws, IsName w.1 := fun w mem => (others w mem).1
    have some := name.length_pos
    have token := name.token (entryText indent v ws tail)
    have question := (opens_plain name.plainly (entryText indent v ws tail)).question line indent
    have below : Below (indent + 1)
        (List.replicate indent ' ' ++ (k.toList ++ entryText indent v ws tail)) :=
      .token (Nat.lt_succ_self indent) token
    have room : 0 < (entryText indent v ws []).length := Nat.succ_pos _
    rw [length_entries name] at enough
    obtain ⟨fuel, rfl⟩ : ∃ k, fuel = k + 3 := ⟨fuel - 3, by omega⟩
    have key := blockKey_name name fuel line indent indent true v ws tail
    obtain ⟨es, line', lt, shows, read⟩ := blockEntries_entryText name names own after
      (Nat.lt_add_of_pos_right some) (fuel + 2) line (by omega) (ih others)
    refine ⟨es, line', Nat.le_of_lt lt, shows, ?_⟩
    rw [toList_entries_append name, moreEntries]
    refine .bind (.skip false _) ?_
    rw [skipGap_start below, start_token line indent token]
    refine .bind (.outside_token token (Nat.le_refl indent)) ?_
    obtain ⟨c, cs, head, solid⟩ := token.solid
    rw [head, place_cons (isBreak_of_isSolid solid)] at question key ⊢
    refine .bind .here (.get fun _ _ => .bind (.require (by simp) _) (.bind (.rest _) ?_))
    rw [question]
    exact .bind key read

/-- A map is read from its first key on, wherever that stands. -/
theorem blockNode_entries (each : ∀ w ∈ (k, v) :: ws, ReadsEntry depth w)
    (after : Below indent tail) (le : least ≤ indent) {before : List Placed} {fresh : Bool}
    (gap : skipGap false false fresh before =
      ⟨place line indent (k.toList ++ entryText indent v ws tail), true⟩)
    (fuel : Nat) (enough : 2 * (entryText indent v ws []).length ≤ fuel) (belowKey : Bool) :
    ∃ m line', line < line' ∧ Shows (depth + 1) m (.fields ((k, v) :: ws)) ∧
      Runs (blockNode (fuel + 1) least belowKey .none) ⟨before, fresh⟩ m
        ⟨start line' tail, true⟩ := by
  have name : IsName k := (each _ List.mem_cons_self).1
  have own : Reads depth v := (each _ List.mem_cons_self).2
  have others : ∀ w ∈ ws, ReadsEntry depth w := fun w mem => each w (List.mem_cons_of_mem _ mem)
  have names : ∀ w ∈ ws, IsName w.1 := fun w mem => (others w mem).1
  have token := name.token (entryText indent v ws tail)
  have key := content_key name fuel least line indent indent true v ws tail
  obtain ⟨es, line', lt, shows, read⟩ := blockEntries_entryText name names own after
    (Nat.lt_add_of_pos_right name.length_pos) fuel line enough (moreEntries_entries others after)
  refine ⟨.map es, line', lt, shows_fields shows, .blockNode_opens
    (opens_plain name.plainly _) (token.inside line indent) gap le key (skipGap_atValue ..)
    (atColon_atValue name) ?_⟩
  rw [Bool.and_self, if_pos rfl]
  exact ⟨es, rfl, read⟩

theorem reads_fields {w : String × Node} (each : ∀ e ∈ w :: ws, ReadsEntry depth e) :
    Reads (depth + 1) (.fields (w :: ws)) where
  value indent fuel line column tail inside after enough := by
    obtain ⟨k, v⟩ := w
    have name : IsName k := (each _ List.mem_cons_self).1
    have token := name.token (entryText (indent + 2) v ws tail)
    have text : (value indent (.fields ((k, v) :: ws))).toList =
        '\n' :: (entries (indent + 2) (named ((k, v) :: ws))).toList :=
      toList_value_map indent _ _
    rw [text, List.length_cons, length_entries name] at enough
    obtain ⟨fuel, rfl⟩ : ∃ k, fuel = k + 1 := ⟨fuel - 1, by omega⟩
    have below : Below (indent + 2) tail := after.below_succ.mono (Nat.le_succ (indent + 1))
    obtain ⟨m, line', lt, shows, read⟩ := blockNode_entries each below (Nat.le_succ (indent + 1))
      (skipGap_newLine token (indent + 2) false line column) fuel (by omega) true
    refine ⟨m, line', Nat.lt_of_succ_lt lt, shows, ?_⟩
    rw [text, List.cons_append, toList_entries_append name]
    exact read
  item indent fuel line tail after enough := by
    obtain ⟨k, v⟩ := w
    have name : IsName k := (each _ List.mem_cons_self).1
    have token := name.token (entryText (indent + 2) v ws tail)
    have text : ∀ tail, (item indent (.fields ((k, v) :: ws))).toList ++ tail =
        ' ' :: (k.toList ++ entryText (indent + 2) v ws tail) := by
      intro tail
      rw [Node.fields, List.map_cons, toList_item_map, keyOf, keyText_of_isName name]
      simp [entryText, named]
    have length := congrArg List.length (text [])
    rw [List.append_nil, List.length_cons, List.length_append] at length
    obtain ⟨fuel, rfl⟩ : ∃ k, fuel = k + 1 := ⟨fuel - 1, by omega⟩
    have below : Below (indent + 2) tail := after.mono (Nat.le_succ (indent + 1))
    obtain ⟨m, line', lt, shows, read⟩ := blockNode_entries each below (Nat.le_succ (indent + 1))
      (skipGap_space token.solid true line (indent + 1)) fuel (by omega) false
    refine ⟨m, line', lt, shows, ?_⟩
    rw [text]
    exact read

/-! ### Trees -/

/-- A written tree is read back wherever it stands in a block. -/
theorem reads_of_written (h : n.Written IsName depth) : Reads depth n := by
  induction h with
  | null =>
    exact reads_inline (by simp [OnLine, value, item]) fun _ => ⟨_, by simp [leaf], inline_null⟩
  | bool b =>
    refine reads_inline (by simp [OnLine, value, item]) fun _ => ⟨_, ?_, inline_bool b⟩
    cases b <;> simp [leaf]
  | natural fits =>
    refine reads_inline (by simp [OnLine, value, item]) fun _ => ⟨_, ?_, inline_natural fits⟩
    simp [leaf, Numeral.text]
  | text s =>
    refine reads_inline (by simp [OnLine, value, item]) fun indent =>
      ⟨_, ?_, inline_textLine indent _ s⟩
    simp [leaf]
  | @seq depth ns _ ih =>
    cases ns with
    | nil =>
      exact reads_inline (by simp [OnLine, value, item]) fun _ =>
        ⟨_, by simp [leaf], inline_emptyList⟩
    | cons n ns => exact reads_seq ih
  | @fields depth ws names _ _ ih =>
    cases ws with
    | nil =>
      exact reads_inline (by simp [OnLine, Node.fields, value, item]) fun _ =>
        ⟨_, by simp [Node.fields, leaf], inline_emptyMap⟩
    | cons w ws => exact reads_fields fun e mem => ⟨names e mem, ih e mem⟩

end GatewayPlan.Yaml
