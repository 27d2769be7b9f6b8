import GatewayPlan.Json.Document
import GatewayPlan.Proofs.Json.Token
import GatewayPlan.Proofs.Tree.Faithful

/-!
# Written JSON is read back

The tokens of a tree are put together to that tree. With the tokens of a written text known, the
text layer of JSON is the inverse of writing: on one line or on many, a tree is read back from its
text as it is.
-/

namespace GatewayPlan.Json

open GatewayPlan.Tree

def keyToken : Node → Token
  | .text s => .string (some s)
  | _ => .garbage

mutual

/-- The tokens of a tree in which every scalar says its type. -/
def valueTokens : Node → List Token
  | .text s => [.string (some s)]
  | .seq [] => [.mark '[', .mark ']']
  | .seq (n :: rest) => .mark '[' :: (valueTokens n ++ itemTokens rest)
  | .map [] => [.mark '\x7b', .mark '\x7d']
  | .map ((k, v) :: rest) =>
    .mark '\x7b' :: keyToken k :: .mark ':' :: (valueTokens v ++ entryTokens rest)
  | n => [.leaf n]

/-- What follows an item of a list, up to its end. -/
def itemTokens : List Node → List Token
  | [] => [.mark ']']
  | n :: rest => .mark ',' :: (valueTokens n ++ itemTokens rest)

/-- What follows an entry of a map, up to its end. -/
def entryTokens : List (Node × Node) → List Token
  | [] => [.mark '\x7d']
  | (k, v) :: rest => .mark ',' :: keyToken k :: .mark ':' :: (valueTokens v ++ entryTokens rest)

end

/-! ### From the text to its tokens -/

def Blank (bs : List Char) : Prop :=
  ∀ c ∈ bs, isBlank c = true

/-- A layout adds nothing but blanks to the marks that it has to set. -/
structure Layout.Fair (l : Layout) : Prop where
  first : ∀ depth, Blank (l.first depth).toList
  between : ∀ depth, ∃ bs, Blank bs ∧ (l.between depth).toList = ',' :: bs
  last : ∀ depth, Blank (l.last depth).toList
  colon : ∃ bs, Blank bs ∧ l.colon.toList = ':' :: bs

theorem blank_indent (depth : Nat) : Blank (indent depth).toList := by
  intro c mem
  simp only [indent, String.toList_ofList, List.mem_cons, List.mem_replicate] at mem
  rcases mem with rfl | ⟨-, rfl⟩ <;> decide

theorem Layout.line_fair : Layout.line.Fair where
  first _ := nofun
  between _ := ⟨[], nofun, by simp [Layout.line]⟩
  last _ := nofun
  colon := ⟨[], nofun, by simp [Layout.line]⟩

theorem Layout.block_fair : Layout.block.Fair where
  first _ := blank_indent _
  between depth := ⟨(indent (depth + 1)).toList, blank_indent _, by simp [Layout.block]⟩
  last _ := blank_indent _
  colon := ⟨[' '], by simp [Blank, isBlank], by simp [Layout.block]⟩

theorem ends_cons_of_mark {cs : List Char} {c : Char} (own : isMark c = true) : Ends (c :: cs) := by
  rintro _ ⟨⟩
  simp only [isMark, decide_eq_true_eq] at own
  fin_cases own <;> decide

theorem ends_of_mark {bs cs : List Char} {c : Char} (blank : Blank bs) (own : isMark c = true) :
    Ends (bs ++ c :: cs) := by
  cases bs with
  | nil => exact ends_cons_of_mark own
  | cons b bs =>
    rintro _ ⟨⟩
    have own := blank b List.mem_cons_self
    simp only [isBlank, Bool.or_eq_true, decide_eq_true_eq] at own
    rcases own with ((rfl | rfl) | rfl) | rfl <;> decide

variable {l : Layout} (fair : l.Fair)

/-- The items of a list after the first, and its end. -/
def itemsText (l : Layout) (depth : Nat) (ns : List Node) : List Char :=
  (writeItems l depth ns).toList ++ ((l.last depth).toList ++ [']'])

/-- The entries of a map after the first, and its end. -/
def entriesText (l : Layout) (depth : Nat) (es : List (Node × Node)) : List Char :=
  (writeEntries l depth es).toList ++ ((l.last depth).toList ++ ['\x7d'])

include fair

theorem ends_itemsText (depth : Nat) (ns : List Node) : Ends (itemsText l depth ns) := by
  cases ns with
  | nil => exact ends_of_mark (fair.last depth) (by decide)
  | cons n ns =>
    obtain ⟨bs, -, between⟩ := fair.between depth
    simp only [itemsText, writeItems, String.toList_append, between, List.cons_append]
    exact ends_cons_of_mark (by decide)

theorem lexes_itemsText {depth : Nat} {ns : List Node}
    (items : ∀ n ∈ ns, Lexes (write l (depth + 1) n).toList (valueTokens n)) :
    Lexes (itemsText l depth ns) (itemTokens ns) := by
  induction ns with
  | nil => exact (Lexes.nil.mark (by decide)).blank (fair.last depth)
  | cons n ns ih =>
    obtain ⟨bs, blank, between⟩ := fair.between depth
    have rest := ih fun n mem => items n (List.mem_cons_of_mem _ mem)
    have first := (items n List.mem_cons_self).append rest (ends_itemsText fair depth ns)
    rw [itemTokens]
    simp only [itemsText, writeItems, String.toList_append, between, List.cons_append,
      List.append_assoc]
    exact (first.blank blank).mark (by decide)

theorem lexes_entry {depth : Nat} (name : String) {v : Node} {cs : List Char} {ts : List Token}
    (value : Lexes (write l (depth + 1) v).toList (valueTokens v)) (rest : Lexes cs ts)
    (ends : Ends cs) :
    Lexes ((quote name).toList ++ (l.colon.toList ++ ((write l (depth + 1) v).toList ++ cs)))
      (keyToken (.text name) :: .mark ':' :: (valueTokens v ++ ts)) := by
  obtain ⟨bs, blank, colon⟩ := fair.colon
  rw [colon, List.cons_append]
  have after := ((value.append rest ends).blank blank).mark (c := ':') (by decide)
  exact (Lexes.quote name).append after (ends_cons_of_mark rfl)

theorem ends_entriesText (depth : Nat) (es : List (Node × Node)) :
    Ends (entriesText l depth es) := by
  cases es with
  | nil => exact ends_of_mark (fair.last depth) (by decide)
  | cons e es =>
    obtain ⟨bs, -, between⟩ := fair.between depth
    simp only [entriesText, writeEntries, String.toList_append, between, List.cons_append]
    exact ends_cons_of_mark (by decide)

theorem lexes_entriesText {depth : Nat} {ws : List (String × Node)}
    (values : ∀ w ∈ ws, Lexes (write l (depth + 1) w.2).toList (valueTokens w.2)) :
    Lexes (entriesText l depth (ws.map fun w => (.text w.1, w.2)))
      (entryTokens (ws.map fun w => (.text w.1, w.2))) := by
  induction ws with
  | nil => exact (Lexes.nil.mark (by decide)).blank (fair.last depth)
  | cons w ws ih =>
    obtain ⟨bs, blank, between⟩ := fair.between depth
    have rest := ih fun w mem => values w (List.mem_cons_of_mem _ mem)
    have first := lexes_entry fair w.1 (values w List.mem_cons_self) rest
      (ends_entriesText fair depth _)
    rw [List.map_cons, entryTokens]
    simp only [entriesText, writeEntries, keyText, String.toList_append, between, List.cons_append,
      List.append_assoc]
    exact (first.blank blank).mark (by decide)

omit fair in
theorem lexes_word {s : String} {c : Char} {cs : List Char} {n : Node} (text : s.toList = c :: cs)
    (shown : isBlank c = false) (unmarked : isMark c = false)
    (read : ∀ rest, scanScalar c (cs ++ rest) = some (.leaf n, rest)) :
    Lexes s.toList [.leaf n] := by
  rw [text]
  exact .scalar shown unmarked fun rest _ => read rest

/-- A tree is written as text that has its tokens. -/
theorem lexes_write {keys : String → Prop} {d : Nat} {n : Node} (written : n.Written keys d)
    (depth : Nat) : Lexes (write l depth n).toList (valueTokens n) := by
  induction written generalizing depth with
  | null => exact lexes_word (s := "null") rfl (by decide) (by decide) fun _ => rfl
  | bool b =>
    cases b
    · exact lexes_word (s := "false") rfl (by decide) (by decide) fun _ => rfl
    · exact lexes_word (s := "true") rfl (by decide) (by decide) fun _ => rfl
  | natural fits => exact .natural fits
  | text s => exact .quote s
  | @seq _ ns _ ih =>
    cases ns with
    | nil =>
      have whole := (Lexes.nil.mark (c := ']') (by decide)).mark (c := '[') (by decide)
      simpa [write, valueTokens] using whole
    | cons n ns =>
      have rest := lexes_itemsText fair fun n mem => ih n (List.mem_cons_of_mem _ mem) (depth + 1)
      have first := (ih n List.mem_cons_self (depth + 1)).append rest (ends_itemsText fair depth ns)
      have whole := (first.blank (fair.first depth)).mark (c := '[') (by decide)
      rw [valueTokens]
      simpa [write, itemsText] using whole
  | @fields _ ws _ _ _ ih =>
    cases ws with
    | nil =>
      have whole := (Lexes.nil.mark (c := '\x7d') (by decide)).mark (c := '\x7b') (by decide)
      simpa [write, valueTokens, Node.fields] using whole
    | cons w ws =>
      have rest := lexes_entriesText fair fun w mem =>
        ih w (List.mem_cons_of_mem _ mem) (depth + 1)
      have first := lexes_entry fair w.1 (ih w List.mem_cons_self (depth + 1)) rest
        (ends_entriesText fair depth _)
      have whole := (first.blank (fair.first depth)).mark (c := '\x7b') (by decide)
      rw [Node.fields, List.map_cons, valueTokens]
      simpa [write, entriesText, keyText] using whole

omit fair in
theorem Lexes.tokens_eq {s : String} {ts : List Token} (h : Lexes s.toList ts) : tokens s = ts := by
  obtain ⟨n, -, read⟩ := h [] nofun s.length (by rw [List.append_nil, String.length_toList])
  have done : tokensWithin n [] = [] := by cases n <;> rfl
  rw [List.append_nil, done, List.append_nil] at read
  exact read

/-! ### From the tokens to the tree -/

namespace State

omit fair

variable {keys : String → Prop} {d : Nat} {stack : List Frame}

theorem close_eq (n : Node) (shallow : stack.length < depthLimit) :
    close n stack = accept n stack := by
  rw [close, if_neg (by omega)]

/-- What the tokens of a value do in a place where a value may stand. -/
def Takes (d : Nat) (n : Node) : Prop :=
  ∀ (stack : List Frame) (expected : Expected) (ts : List Token),
    expected = .value ∨ expected = .valueOrClose → stack.length + d ≤ depthLimit →
    (valueTokens n ++ ts).foldl step (.reading stack expected) =
      ts.foldl step (accept n stack)

theorem foldl_itemTokens {ns : List Node} (items : ∀ n ∈ ns, Takes d n)
    (shallow : stack.length + (d + 1) ≤ depthLimit) (before : List Node) (ts : List Token) :
    (itemTokens ns ++ ts).foldl step (.reading (.seq before :: stack) .commaOrClose) =
      ts.foldl step (accept (.seq (before.reverse ++ ns)) stack) := by
  induction ns generalizing before with
  | nil =>
    rw [← close_eq _ (by omega), List.append_nil]
    rfl
  | cons n ns ih =>
    have next := ih (fun n mem => items n (List.mem_cons_of_mem _ mem)) (n :: before)
    rw [List.reverse_cons, List.append_assoc] at next
    rw [itemTokens, List.cons_append, List.append_assoc, List.foldl_cons]
    have comma : step (.reading (.seq before :: stack) .commaOrClose) (.mark ',') =
      .reading (.seq before :: stack) .value := rfl
    rw [comma, items n List.mem_cons_self _ _ _ (.inl rfl) (by simp; omega)]
    exact next

theorem foldl_entry {name : String} {v : Node} (value : Takes d v) {expected : Expected}
    (open_ : expected = .key ∨ expected = .keyOrClose)
    (shallow : stack.length + (d + 1) ≤ depthLimit) (before : List (Node × Node)) (key : Node)
    (ts : List Token) :
    (keyToken (.text name) :: .mark ':' :: (valueTokens v ++ ts)).foldl step
        (.reading (.map before key :: stack) expected) =
      ts.foldl step
        (.reading (.map ((.text name, v) :: before) (.text name) :: stack) .commaOrClose) := by
  have opened : step (step (.reading (.map before key :: stack) expected) (keyToken (.text name)))
      (.mark ':') = .reading (.map before (.text name) :: stack) .value := by
    rcases open_ with rfl | rfl <;> rfl
  rw [List.foldl_cons, List.foldl_cons, opened, value _ _ _ (.inl rfl) (by simp; omega)]
  rfl

theorem foldl_entryTokens {ws : List (String × Node)} (values : ∀ w ∈ ws, Takes d w.2)
    (shallow : stack.length + (d + 1) ≤ depthLimit) (before : List (Node × Node)) (key : Node)
    (ts : List Token) :
    (entryTokens (ws.map fun w => (.text w.1, w.2)) ++ ts).foldl step
        (.reading (.map before key :: stack) .commaOrClose) =
      ts.foldl step (accept (.map (before.reverse ++ ws.map fun w => (.text w.1, w.2))) stack) := by
  induction ws generalizing before key with
  | nil =>
    rw [← close_eq _ (by omega), List.map_nil, List.append_nil]
    rfl
  | cons w ws ih =>
    have next := ih (fun w mem => values w (List.mem_cons_of_mem _ mem))
      ((.text w.1, w.2) :: before) (.text w.1)
    rw [List.reverse_cons, List.append_assoc] at next
    rw [List.map_cons, entryTokens, List.cons_append, List.cons_append, List.cons_append,
      List.append_assoc, List.foldl_cons]
    have comma : step (.reading (.map before key :: stack) .commaOrClose) (.mark ',') =
      .reading (.map before key :: stack) .key := rfl
    rw [comma, foldl_entry (values w List.mem_cons_self) (.inl rfl) shallow]
    exact next

theorem takes_of_written {n : Node} (written : n.Written keys d) : Takes d n := by
  induction written with
  | null => rintro stack _ ts (rfl | rfl) _ <;> rfl
  | bool => rintro stack _ ts (rfl | rfl) _ <;> rfl
  | natural => rintro stack _ ts (rfl | rfl) _ <;> rfl
  | text => rintro stack _ ts (rfl | rfl) _ <;> rfl
  | @seq d ns _ ih =>
    intro stack expected ts expects shallow
    have opened : step (.reading stack expected) (.mark '[') =
        .reading (.seq [] :: stack) .valueOrClose := by
      rcases expects with rfl | rfl <;> rfl
    cases ns with
    | nil =>
      rw [← close_eq _ (by omega), valueTokens, List.cons_append, List.foldl_cons, opened]
      rfl
    | cons n ns =>
      have others :=
        foldl_itemTokens (fun n mem => ih n (List.mem_cons_of_mem _ mem)) shallow [n] ts
      rw [valueTokens, List.cons_append, List.append_assoc, List.foldl_cons, opened,
        ih n List.mem_cons_self _ _ _ (.inr rfl) (by simp; omega)]
      exact others
  | @fields d ws _ _ _ ih =>
    intro stack expected ts expects shallow
    have opened : step (.reading stack expected) (.mark '\x7b') =
        .reading (.map [] .broken :: stack) .keyOrClose := by
      rcases expects with rfl | rfl <;> rfl
    cases ws with
    | nil =>
      rw [← close_eq _ (by omega), Node.fields, List.map_nil, valueTokens, List.cons_append,
        List.foldl_cons, opened]
      rfl
    | cons w ws =>
      have others := foldl_entryTokens (fun w mem => ih w (List.mem_cons_of_mem _ mem)) shallow
        [(.text w.1, w.2)] (.text w.1) ts
      rw [Node.fields, List.map_cons, valueTokens, List.cons_append, List.cons_append,
        List.cons_append, List.append_assoc, List.foldl_cons, opened,
        foldl_entry (ih w List.mem_cons_self) (.inr rfl) shallow]
      exact others

end State

/-- A tree of no more than the depth that is read comes back from its text, in any layout. -/
theorem ofText_write {keys : String → Prop} {d : Nat} {n : Node} (written : n.Written keys d)
    (shallow : d ≤ State.depthLimit) : Document.ofText (write l 0 n) = ⟨n, true⟩ := by
  have taken := State.takes_of_written written [] .value [] (.inl rfl) (by simpa using shallow)
  rw [List.append_nil] at taken
  rw [Document.ofText, (lexes_write fair written 0).tokens_eq, taken]
  rfl

/-- A value comes back from the text that it is written as. -/
theorem decode_write {α : Type} {c : Codec α} {keys : String → Prop} {d : Nat} {x : α}
    (h : c.Faithful keys d x) (shallow : d ≤ State.depthLimit) :
    decode c (write l 0 (c.encode x)) = .ok x := by
  rw [decode, ofText_write fair h.written shallow]
  exact Except.bind_eq_ok_iff.mpr ⟨x, h.decode_encode _, rfl⟩

omit fair

theorem decode_block {α : Type} {c : Codec α} {keys : String → Prop} {d : Nat} {x : α}
    (h : c.Faithful keys d x) (shallow : d ≤ State.depthLimit) :
    decode c (block (c.encode x)) = .ok x :=
  decode_write Layout.block_fair h shallow

theorem decode_line {α : Type} {c : Codec α} {keys : String → Prop} {d : Nat} {x : α}
    (h : c.Faithful keys d x) (shallow : d ≤ State.depthLimit) :
    decode c (line (c.encode x)) = .ok x :=
  decode_write Layout.line_fair h shallow

end GatewayPlan.Json
