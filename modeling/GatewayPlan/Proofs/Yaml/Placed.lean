import GatewayPlan.Yaml.Placed
import Mathlib.Data.List.Basic

/-!
# Where the tokens of a text start

A written text starts every token after blanks alone, in a column that says which block it belongs
to. What matters of a text that goes on after a line is where its first token stands.
-/

namespace GatewayPlan.Yaml

theorem length_place (line column : Nat) (cs : List Char) :
    (place line column cs).length = cs.length := by
  induction cs generalizing line column with
  | nil => rfl
  | cons c cs ih =>
    rw [place]
    split
    · rw [List.length_cons, ih, List.length_cons]
    · rw [List.length_cons, ih, List.length_cons]

theorem place_cons {c : Char} (unbroken : isBreak c = false) (line column : Nat)
    (cs : List Char) :
    place line column (c :: cs) = ⟨c, line, column⟩ :: place line (column + 1) cs := by
  rw [place, unbroken]
  rfl

theorem place_break {c : Char} (broken : isBreak c = true) (line column : Nat) (cs : List Char) :
    place line column (c :: cs) = ⟨c, line, column⟩ :: place (line + 1) 0 cs := by
  rw [place, if_pos broken]

/-! ### Boundaries of documents -/

theorem atMarker_cons_of_ne {c : Char} {p : Placed} (other : p.char ≠ c) (rest : List Placed) :
    Placed.atMarker c (p :: rest) = false := by
  unfold Placed.atMarker
  split
  case h_1 heq =>
    cases heq
    simp [other]
  case h_2 => rfl

theorem atMarker_cons_of_column {c : Char} {p : Placed} (inside : 0 < p.column)
    (rest : List Placed) : Placed.atMarker c (p :: rest) = false := by
  unfold Placed.atMarker
  split
  case h_1 heq =>
    cases heq
    simp [Nat.ne_of_gt inside]
  case h_2 => rfl

theorem atBoundary_of_column (line : Nat) {column : Nat} (inside : 0 < column) (cs : List Char) :
    Placed.atBoundary (place line column cs) = false := by
  cases cs with
  | nil => rfl
  | cons c cs =>
    rw [place, Placed.atBoundary, atMarker_cons_of_column inside, atMarker_cons_of_column inside]
    rfl

theorem atBoundary_cons {p : Placed} (dash : p.char ≠ '-') (dot : p.char ≠ '.')
    (rest : List Placed) : Placed.atBoundary (p :: rest) = false := by
  rw [Placed.atBoundary, atMarker_cons_of_ne dash, atMarker_cons_of_ne dot]
  rfl

/-! ### Tokens -/

/-- A character that starts a token wherever it stands. -/
def isSolid (c : Char) : Bool :=
  !(isBlank c || isBreak c || c = '#' || c = '\uFEFF')

theorem isBlank_of_isSolid {c : Char} (h : isSolid c = true) : isBlank c = false := by
  simp only [isSolid, Bool.not_eq_true', Bool.or_eq_false_iff] at h
  exact h.1.1.1

theorem isBreak_of_isSolid {c : Char} (h : isSolid c = true) : isBreak c = false := by
  simp only [isSolid, Bool.not_eq_true', Bool.or_eq_false_iff] at h
  exact h.1.1.2

theorem ne_space_of_isSolid {c : Char} (h : isSolid c = true) : c ≠ ' ' := by
  rintro rfl
  exact absurd h (by decide)

/-- A token in a place where it is none of the marks of a document's boundary. -/
structure Token (cs : List Char) : Prop where
  solid : ∃ c rest, cs = c :: rest ∧ isSolid c = true
  inside : ∀ line column, Placed.atBoundary (place line column cs) = false

/-- The rest of a text after a line has no token, or the first one in a column before `limit`. -/
inductive Below (limit : Nat) : List Char → Prop
  | nothing : Below limit []
  | token {column : Nat} {cs : List Char} : column < limit → Token cs →
      Below limit (List.replicate column ' ' ++ cs)

theorem Below.mono {limit limit' : Nat} (le : limit ≤ limit') {cs : List Char}
    (h : Below limit cs) : Below limit' cs := by
  cases h with
  | nothing => exact .nothing
  | token lt own => exact .token (Nat.lt_of_lt_of_le lt le) own

/-- The first token of a text that starts a line, and what follows it. -/
def start (line : Nat) (cs : List Char) : List Placed :=
  (place line 0 cs).dropWhile (·.char = ' ')

theorem dropWhile_place {c : Char} {cs : List Char} (solid : c ≠ ' ') (line column k : Nat) :
    (place line column (List.replicate k ' ' ++ c :: cs)).dropWhile (·.char = ' ') =
      place line (column + k) (c :: cs) := by
  induction k generalizing column with
  | zero =>
    rw [List.replicate_zero, List.nil_append, place,
      List.dropWhile_cons_of_neg (by simpa using solid)]
    rfl
  | succ k ih =>
    rw [List.replicate_succ, List.cons_append, place_cons (by decide),
      List.dropWhile_cons_of_pos rfl, ih, Nat.add_right_comm, Nat.add_assoc]

theorem start_token (line k : Nat) {cs : List Char} (h : Token cs) :
    start line (List.replicate k ' ' ++ cs) = place line k cs := by
  obtain ⟨c, rest, rfl, solid⟩ := h.solid
  rw [start, dropWhile_place (ne_space_of_isSolid solid), Nat.zero_add]

/-- A text that starts with the content of a node: it is no item of a list, no key that is marked as
one, and has no name and no tag. -/
structure Opens (cs : List Char) : Prop where
  head : ∃ c rest, cs = c :: rest ∧ isSolid c = true ∧ c ≠ '&' ∧ c ≠ '!'
  dash : ∀ line column, Placed.startsWithMark '-' (place line column cs) = false
  question : ∀ line column, Placed.startsWithMark '?' (place line column cs) = false

theorem opens_of_ne {c : Char} (solid : isSolid c = true) (marks : c ∉ ['&', '!', '-', '?'])
    (cs : List Char) : Opens (c :: cs) := by
  simp only [List.mem_cons, List.not_mem_nil, or_false, not_or] at marks
  obtain ⟨anchor, tag, dash, question⟩ := marks
  refine ⟨⟨c, cs, rfl, solid, anchor, tag⟩, ?_, ?_⟩ <;>
  · intro line column
    rw [place_cons (isBreak_of_isSolid solid), Placed.startsWithMark]
    simp [dash, question]

/-! ### Skipping gaps -/

theorem skipGap_solid {c : Char} (solid : isSolid c = true) (fresh : Bool) (line column : Nat)
    (cs : List Char) :
    skipGap false false fresh (place line column (c :: cs)) =
      ⟨place line column (c :: cs), fresh⟩ := by
  have unbroken := isBreak_of_isSolid solid
  simp only [isSolid, isBlank, Bool.not_eq_true', Bool.or_eq_false_iff,
    decide_eq_false_iff_not] at solid
  obtain ⟨⟨⟨⟨space, tab⟩, -⟩, comment⟩, mark⟩ := solid
  rw [place_cons unbroken, skipGap]
  simp [unbroken, space, tab, comment, mark]

theorem skipGap_spaces (fresh : Bool) (line column k : Nat) (cs : List Char) :
    skipGap false false fresh (place line column (List.replicate k ' ' ++ cs)) =
      skipGap false false fresh (place line (column + k) cs) := by
  induction k generalizing column with
  | zero => rfl
  | succ k ih =>
    rw [List.replicate_succ, List.cons_append, place_cons (by decide), skipGap]
    simp only [show isBreak ' ' = false by decide, Bool.false_eq_true, if_false, decide_true,
      Bool.true_or, if_true]
    rw [ih, Nat.add_right_comm, Nat.add_assoc]

theorem skipGap_break {c : Char} (broken : isBreak c = true) (fresh : Bool) (line column : Nat)
    (cs : List Char) : skipGap false false fresh (place line column (c :: cs)) =
      skipGap false false true (place (line + 1) 0 cs) := by
  rw [place_break broken, skipGap, if_pos broken, Bool.not_false, Bool.or_true]

variable {limit : Nat} {tail : List Char}

theorem skipGap_tail (h : Below limit tail) (line : Nat) :
    skipGap false false true (place line 0 tail) = ⟨start line tail, true⟩ := by
  cases h with
  | nothing => rfl
  | token lt own =>
    obtain ⟨c, rest, rfl, solid⟩ := own.solid
    rw [skipGap_spaces, skipGap_solid solid, start_token line _ own, Nat.zero_add]

theorem skipGap_start (h : Below limit tail) (line : Nat) :
    skipGap false false true (start line tail) = ⟨start line tail, true⟩ := by
  cases h with
  | nothing => rfl
  | token lt own =>
    rw [start_token line _ own]
    obtain ⟨c, rest, rfl, solid⟩ := own.solid
    rw [skipGap_solid solid]

end GatewayPlan.Yaml
