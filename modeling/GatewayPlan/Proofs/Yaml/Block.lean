import GatewayPlan.Proofs.Yaml.Plain

/-!
# Blocks of text are read back

A text with line breaks is written as the lines of a block. Its breaks are read back as they come,
those at its end by what the head of the block says about them.
-/

namespace GatewayPlan.Yaml

namespace Block

/-- A block with one more character of its text. -/
def take (b : Block) (c : Char) : Block :=
  if b.inLine then
    if isBreak c then { b with ending := some c, inLine := false } else { b with acc := c :: b.acc }
  else if isBreak c then { b with blankLines := b.blankLines ++ [c] }
  else b.startLine false c

/-- A block at the end of its text. A line that has no break of its own is given one. -/
def ended (b : Block) : Block :=
  if b.inLine then { b with ending := some '\n', inLine := false } else b

/-- All that was read of a block. -/
def chars (b : Block) : List Char :=
  b.acc.reverse ++ b.ending.toList ++ b.blankLines

/-- In a line nothing has been read after its characters. -/
def Settled (b : Block) : Prop :=
  b.inLine = true → b.ending = none ∧ b.blankLines = []

theorem inLine_take (b : Block) (c : Char) : (b.take c).inLine = !isBreak c := by
  unfold take
  cases line : b.inLine <;> cases broken : isBreak c <;> simp [startLine]

theorem settled_take {b : Block} (h : b.Settled) (c : Char) : (b.take c).Settled := by
  intro line
  rw [inLine_take, Bool.not_eq_true'] at line
  unfold take
  cases before : b.inLine with
  | true => simpa [line] using h before
  | false => simp [line, startLine]

theorem chars_take {b : Block} (h : b.Settled) (c : Char) : (b.take c).chars = b.chars ++ [c] := by
  unfold take
  cases line : b.inLine with
  | true =>
    obtain ⟨ending, blank⟩ := h line
    cases broken : isBreak c <;> simp [chars, ending, blank]
  | false =>
    cases broken : isBreak c <;> simp [chars, startLine]

theorem settled_foldl {b : Block} (h : b.Settled) (cs : List Char) :
    (cs.foldl take b).Settled ∧ (cs.foldl take b).chars = b.chars ++ cs := by
  induction cs generalizing b with
  | nil => exact ⟨h, by simp⟩
  | cons c cs ih =>
    obtain ⟨settled, chars⟩ := ih (settled_take h c)
    refine ⟨settled, ?_⟩
    rw [List.foldl_cons, chars, chars_take h, List.append_assoc]
    rfl

end Block

/-! ### The lines of a block -/

variable {m : Nat} {tail : List Char}

theorem scanLines_spaces {b : Block} (between : b.inLine = false) (line column k : Nat)
    (room : column + k ≤ m) (cs : List Char) :
    scanLines false m b (place line column (List.replicate k ' ' ++ cs)) =
      scanLines false m b (place line (column + k) cs) := by
  induction k generalizing column with
  | zero => rfl
  | succ k ih =>
    have left : column < m := by omega
    rw [List.replicate_succ, List.cons_append, place_cons (by decide), scanLines]
    simp only [between, left, decide_true, Bool.and_self, Bool.false_eq_true, if_false, if_true]
    rw [ih (column + 1) (by omega), Nat.add_right_comm, Nat.add_assoc]

/-- A block ends before a token that stands left of it. -/
theorem scanLines_tail {b : Block} (between : b.inLine = false) (after : Below m tail)
    (line : Nat) : scanLines false m b (place line 0 tail) = some (b, start line tail) := by
  cases after with
  | nothing => rfl
  | @token k cs lt own =>
    rw [scanLines_spaces between line 0 k (by omega), Nat.zero_add, start_token line k own]
    obtain ⟨c, rest, rfl, solid⟩ := own.solid
    have tab : c ≠ '\t' := by
      rintro rfl
      exact absurd solid (by decide)
    have other : k ≠ m := by omega
    rw [place_cons (isBreak_of_isSolid solid), scanLines]
    simp [between, ne_space_of_isSolid solid, tab, isBreak_of_isSolid solid, other]

theorem scanLines_break {c : Char} (broken : isBreak c = true) (b : Block) (line column : Nat)
    (cs : List Char) : scanLines false m b (place line column (c :: cs)) =
      scanLines false m (b.take c) (place (line + 1) 0 cs) := by
  have space : c ≠ ' ' := by
    rintro rfl
    exact absurd broken (by decide)
  have tab : c ≠ '\t' := by
    rintro rfl
    exact absurd broken (by decide)
  rw [place_break broken, scanLines, Block.take]
  cases line : b.inLine <;> simp [broken, space, tab]

theorem scanLines_char {c : Char} (unbroken : isBreak c = false) (b : Block) (line column : Nat)
    (inside : b.inLine = false → column = m) (cs : List Char) :
    scanLines false m b (place line column (c :: cs)) =
      scanLines false m (b.take c) (place line (column + 1) cs) := by
  rw [place_cons unbroken, scanLines, Block.take]
  cases own : b.inLine with
  | true => simp [unbroken]
  | false => simp [unbroken, inside own]

theorem scanLines_rest {b : Block} (cs : List Char) (after : Below m tail) (line column : Nat)
    (inside : b.inLine = false → column = 0) :
    ∃ line', line ≤ line' ∧ scanLines false m b
        (place line column (blockRest (List.replicate m ' ') (!b.inLine) cs ++ tail)) =
      some ((cs.foldl Block.take b).ended, start line' tail) := by
  induction cs generalizing b line column with
  | nil =>
    cases own : b.inLine with
    | true =>
      refine ⟨line + 1, Nat.le_succ line, ?_⟩
      have ended : b.take '\n' = b.ended := by
        simp [Block.take, Block.ended, own, show isBreak '\n' = true by decide]
      rw [Bool.not_true, blockRest, if_neg (by simp), List.singleton_append,
        scanLines_break (by decide), ended, List.foldl_nil]
      exact scanLines_tail (by simp [Block.ended, own]) after (line + 1)
    | false =>
      refine ⟨line, Nat.le_refl line, ?_⟩
      have ended : b.ended = b := by simp [Block.ended, own]
      rw [Bool.not_false, blockRest, if_pos rfl, List.nil_append, inside own, List.foldl_nil, ended]
      exact scanLines_tail own after line
  | cons c cs ih =>
    rw [List.foldl_cons]
    have next := b.inLine_take c
    cases broken : isBreak c with
    | true =>
      rw [broken, Bool.not_true] at next
      obtain ⟨line', le, read⟩ := ih (line + 1) 0 fun _ => rfl
      rw [next, Bool.not_false] at read
      refine ⟨line', by omega, ?_⟩
      rw [blockRest, if_pos broken, List.cons_append, scanLines_break broken, read]
    | false =>
      rw [broken, Bool.not_false] at next
      have rest : ∀ column, (b.inLine = false → column = m) → ∃ line', line ≤ line' ∧
          scanLines false m b (place line column
            (c :: (blockRest (List.replicate m ' ') false cs ++ tail))) =
          some ((cs.foldl Block.take (b.take c)).ended, start line' tail) := by
        intro column inside
        obtain ⟨line', le, read⟩ := ih (b := b.take c) line (column + 1) (by simp [next])
        rw [next, Bool.not_true] at read
        exact ⟨line', le, by rw [scanLines_char broken b line column inside, read]⟩
      rw [blockRest, if_neg (by simp [broken])]
      cases own : b.inLine with
      | true => exact rest column (by simp [own])
      | false =>
        obtain ⟨line', le, read⟩ := rest m fun _ => rfl
        refine ⟨line', le, ?_⟩
        rw [Bool.not_false, if_pos rfl, List.append_assoc, List.cons_append, inside own,
          scanLines_spaces own line 0 m (by omega), Nat.zero_add, read]

/-! ### The head of a block -/

/-- Whether the text begins in a way that hides its indentation. -/
def opensBlank (cs : List Char) : Bool :=
  cs.head?.any isSpaceOrBreak

/-- What the end of the text asks for. -/
def chompingOf (cs : List Char) : Chomping :=
  match cs.reverse with
  | [] => .strip
  | c :: rest => if !isBreak c then .strip else if rest.head?.all isBreak then .keep else .clip

def Chomping.mark : Chomping → List Char
  | .strip => ['-']
  | .clip => []
  | .keep => ['+']

theorem blockHints_toList (cs : List Char) : (blockHints cs).toList =
    (if opensBlank cs then ['2'] else []) ++ (chompingOf cs).mark := by
  have hint : (if cs.head?.any isSpaceOrBreak then "2" else "" : String).toList =
      if opensBlank cs then ['2'] else [] := by
    rw [opensBlank]
    split <;> rfl
  rw [blockHints, String.toList_append, hint]
  congr 1
  unfold chompingOf
  cases cs.reverse with
  | nil => rfl
  | cons c rest =>
    cases broken : isBreak c
    case false => simp [Chomping.mark, broken]
    case true =>
      cases more : rest.head?.all isBreak <;> simp [Chomping.mark, broken, more]

theorem blockHeader_hints (cs : List Char) (line column : Nat) (more : List Char) :
    ∃ column', blockHeader (place line column ((blockHints cs).toList ++ '\n' :: more)) =
      (chompingOf cs, if opensBlank cs then some 2 else none,
        place line column' ('\n' :: more)) := by
  rw [blockHints_toList]
  cases opensBlank cs
  case true => cases chompingOf cs <;> exact ⟨_, rfl⟩
  case false =>
    cases chompingOf cs
    case strip => exact ⟨_, rfl⟩
    case keep => exact ⟨_, rfl⟩
    case clip =>
      refine ⟨column, ?_⟩
      cases more with
      | nil => rfl
      | cons c more =>
        rw [Chomping.mark, List.append_nil, if_neg (by simp), List.nil_append,
          place_break (by decide), place, blockHeader]
        simp [show chomping? '\n' = none from rfl, show hint? '\n' = none from rfl]

theorem skipLine_break (line column : Nat) (more : List Char) :
    skipLine false (place line column ('\n' :: more)) = some (place (line + 1) 0 more) := by
  have broken : isBreak '\n' = true := by decide
  rw [place_break broken, skipLine, if_pos broken]

theorem detectIndent_margin {c : Char} (shown : isShown c = true) (space : c ≠ ' ')
    (unbroken : isBreak c = false) (least line column k : Nat) (more : List Char) :
    detectIndent least 0 (place line column (List.replicate k ' ' ++ c :: more)) =
      some (max least (column + k)) := by
  induction k generalizing column with
  | zero =>
    have tab := (inLine_of_isShown shown unbroken).2
    rw [List.replicate_zero, List.nil_append, place_cons unbroken, detectIndent]
    simp [space, tab, unbroken]
  | succ k ih =>
    have some : (place line (column + 1) (List.replicate k ' ' ++ c :: more)).isEmpty = false := by
      rw [List.isEmpty_eq_false_iff, ← List.length_pos_iff, length_place, List.length_append]
      exact Nat.lt_add_left _ (Nat.succ_pos _)
    rw [List.replicate_succ, List.cons_append, place_cons (by decide), detectIndent, some]
    simp only [if_true, Bool.false_eq_true, if_false]
    rw [ih, Nat.add_right_comm, Nat.add_assoc]

/-! ### Whole blocks -/

theorem Block.finish_keep (b : Block) : b.finish .keep = String.ofList b.chars := by
  cases h : b.ending <;> simp [finish, Backwards.text, chars, h]

theorem Block.finish_strip {b : Block} (ending : b.ending = none) (blank : b.blankLines = []) :
    b.ended.finish .strip = String.ofList b.chars := by
  have acc : b.ended.acc = b.acc := by
    unfold ended
    split <;> rfl
  simp [finish, acc, Backwards.text, chars, ending, blank]

theorem Block.finish_clip {b : Block} (blank : b.blankLines = []) :
    b.finish .clip = String.ofList b.chars := by
  cases h : b.ending <;> simp [finish, Backwards.text, chars, blank, h]

/-- A block that was read to its end is the text it was written for. -/
theorem finish_foldl {cs : List Char} (some : cs ≠ []) :
    (cs.foldl Block.take .empty).ended.finish (chompingOf cs) = String.ofList cs := by
  obtain ⟨settled, chars⟩ := Block.settled_foldl (b := .empty) nofun cs
  obtain rfl | ⟨before, c, rfl⟩ := List.eq_nil_or_concat' cs
  · contradiction
  rw [List.foldl_concat] at settled chars ⊢
  have line := Block.inLine_take (before.foldl Block.take .empty) c
  have chomping : chompingOf (before ++ [c]) = if !isBreak c then .strip
      else if before.reverse.head?.all isBreak then .keep else .clip := by
    rw [chompingOf, List.reverse_concat]
  have all : before ++ [c] = Block.chars ((before.foldl Block.take .empty).take c) := chars.symm
  rw [chomping]
  cases broken : isBreak c with
  | false =>
    rw [broken, Bool.not_false] at line
    obtain ⟨ending, blank⟩ := settled line
    rw [all]
    exact Block.finish_strip ending blank
  | true =>
    rw [broken, Bool.not_true] at line
    have ended : ((before.foldl Block.take .empty).take c).ended =
        (before.foldl Block.take .empty).take c := by
      simp [Block.ended, line]
    rw [ended, all]
    cases more : before.reverse.head?.all isBreak with
    | true => exact Block.finish_keep _
    | false =>
      obtain rfl | ⟨first, d, rfl⟩ := List.eq_nil_or_concat' before
      · cases more
      have last : isBreak d = false := by simpa using more
      obtain ⟨settled', -⟩ := Block.settled_foldl (b := .empty) nofun (first ++ [d])
      rw [List.foldl_concat] at settled' ⊢
      have line' := Block.inLine_take (first.foldl Block.take .empty) d
      rw [last, Bool.not_false] at line'
      refine Block.finish_clip ?_
      rw [Block.take, if_pos line', if_pos broken]
      exact (settled' line').2

/-- The indentation of a block that does not open with a blank can be seen. -/
theorem detectIndent_block {cs : List Char} (some : cs ≠ []) (shown : ∀ c ∈ cs, isShown c = true)
    (seen : opensBlank cs = false) (line i : Nat) (more : List Char) :
    detectIndent (i + 1) 0
      (place line 0 (blockRest (List.replicate (i + 2) ' ') true cs ++ more)) =
      Option.some (i + 2) := by
  cases cs with
  | nil => contradiction
  | cons c cs =>
    simp only [opensBlank, List.head?_cons, Option.any_some, isSpaceOrBreak, Bool.or_eq_false_iff,
      decide_eq_false_iff_not] at seen
    rw [blockRest, if_neg (by simp [seen.2]), if_pos rfl, List.append_assoc, List.cons_append,
      detectIndent_margin (shown c List.mem_cons_self) seen.1 seen.2]
    congr 1
    omega

/-- A block is read back, from what is said about its layout on. -/
theorem scanBlock_block {s : String} (style : Style.ofText s = .block) {i : Nat}
    (after : Below (i + 2) tail) (line column : Nat) : ∃ line', line < line' ∧
      scanBlock false (i + 1) (place line column ((blockHints s.toList).toList ++
        '\n' :: (blockRest (List.replicate (i + 2) ' ') true s.toList ++ tail))) =
      some ⟨s, start line' tail, true⟩ := by
  have fits := style_fits s
  rw [style] at fits
  obtain ⟨fed, fits⟩ := fits
  have some : s.toList ≠ [] := List.ne_nil_of_mem fed
  have shown : ∀ c ∈ s.toList, isShown c = true := by
    simp only [fitsBlock, isStrange, Bool.and_eq_true, Bool.not_eq_true', Bool.or_eq_false_iff,
      Bool.not_eq_false'] at fits
    exact List.all_eq_true.mp fits.1.1
  obtain ⟨column', head⟩ := blockHeader_hints s.toList line column
    (blockRest (List.replicate (i + 2) ' ') true s.toList ++ tail)
  obtain ⟨line', le, lines⟩ := scanLines_rest (b := .empty) s.toList after (line + 1) 0
    fun _ => rfl
  refine ⟨line', le, ?_⟩
  have text : (s.toList.foldl Block.take .empty).ended.finish (chompingOf s.toList) = s := by
    rw [finish_foldl some, String.ofList_toList]
  rw [show (!Block.empty.inLine) = true from rfl] at lines
  cases seen : opensBlank s.toList with
  | true => simp [scanBlock, head, seen, skipLine_break, lines, text]
  | false =>
    have indent := detectIndent_block some shown seen (line + 1) i tail
    simp [scanBlock, head, seen, skipLine_break, indent, lines, text]

end GatewayPlan.Yaml
