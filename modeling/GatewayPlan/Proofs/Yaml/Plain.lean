import GatewayPlan.Proofs.Yaml.Placed
import GatewayPlan.Yaml.Scalar
import GatewayPlan.Yaml.Style
import Mathlib.Tactic.FinCases

/-!
# Scalars without quotes are read back

A text that is fit to stand without quotes is read to its end, whether a line ends there or a colon
makes it a key.
-/

namespace GatewayPlan.Yaml

/-- A key of letters and underscores, which is written as it is and is not too long for a key. -/
def IsName (s : String) : Prop :=
  (s.toList.all fun c => c.isAlpha || c = '_') = true ∧ Style.ofText s = .plain ∧ s.length ≤ 1024

instance (s : String) : Decidable (IsName s) :=
  inferInstanceAs (Decidable (_ ∧ _ ∧ _))

/-! ### Inside a line -/

/-- Blanks between two words. -/
def spaces : List Char → Spacing
  | [] => .none
  | bs => .blanks bs

theorem blank_spaces (bs : List Char) (c : Char) : (spaces bs).blank c = spaces (bs ++ [c]) := by
  cases bs <;> rfl

theorem endOn_spaces (bs : List Char) (acc : Backwards) :
    (spaces bs).endOn acc = bs.reverse ++ acc := by
  cases bs <;> rfl

theorem isNone_spaces (bs : List Char) : (spaces bs).isNone = bs.isEmpty := by
  cases bs <;> rfl

theorem crosses_spaces (bs : List Char) : (spaces bs).crosses = false := by
  cases bs <;> rfl

/-- A character of one line. -/
def InLine (c : Char) : Prop :=
  isBreak c = false ∧ c ≠ '\t'

theorem isBlank_eq_false {c : Char} (own : InLine c) (other : c ≠ ' ') : isBlank c = false := by
  simp [isBlank, own.2, other]

theorem atGap_append {cs : List Char} (own : ∀ c ∈ cs, InLine c) (gap : isGap cs = false)
    (more : List Char) (line column : Nat) :
    Placed.atGap (place line column (cs ++ more)) = false := by
  cases cs with
  | nil => cases gap
  | cons c cs =>
    have inLine := own c List.mem_cons_self
    simp only [isGap, List.head?_cons, Option.all_some, isSpaceOrBreak, Bool.or_eq_false_iff,
      decide_eq_false_iff_not] at gap
    rw [List.cons_append, place_cons inLine.1, Placed.atGap]
    simp [isBlank_eq_false inLine gap.1, inLine.1]

theorem scanPlain_space {least : Nat} (bs : List Char) (acc : Backwards) (line column : Nat)
    (inside : 0 < column) (more : List Char) :
    scanPlain false least acc (spaces bs) (place line column (' ' :: more)) =
      scanPlain false least acc (spaces (bs ++ [' '])) (place line (column + 1) more) := by
  have boundary := atBoundary_of_column line inside (' ' :: more)
  rw [place_cons (by decide)] at boundary ⊢
  rw [scanPlain, ← blank_spaces]
  simp [boundary, show isBlank ' ' = true by decide]

/-- A character is read on from if it starts no comment and ends no key. -/
theorem scanPlain_char {least : Nat} {c : Char} (own : InLine c) (space : c ≠ ' ') {bs : List Char}
    (acc : Backwards) {line column : Nat} {more : List Char}
    (boundary : Placed.atBoundary (place line column (c :: more)) = false)
    (comment : c = '#' → bs = [])
    (colon : c = ':' → Placed.atGap (place line (column + 1) more) = false) :
    scanPlain false least acc (spaces bs) (place line column (c :: more)) =
      scanPlain false least (c :: (bs.reverse ++ acc)) (spaces [])
        (place line (column + 1) more) := by
  have comment : (c = '#' && !(spaces bs).isNone) = false := by
    by_cases hash : c = '#'
    · rw [isNone_spaces, comment hash, List.isEmpty_nil, Bool.not_true, Bool.and_false]
    · simp [hash]
  have colon : (c = ':' && Placed.atGap (place line (column + 1) more)) = false := by
    by_cases key : c = ':'
    · rw [colon key, Bool.and_false]
    · simp [key]
  rw [place_cons own.1] at boundary ⊢
  rw [scanPlain]
  simp only [boundary, isBlank_eq_false own space, own.1, crosses_spaces, comment, colon,
    endOn_spaces, Bool.false_eq_true, if_false, Bool.false_and]
  rfl

/-- A text is read on to its end where nothing in it is a mark. `prev` stands before the text, and
`bs` are blanks that have been read and may yet be the end of the scalar. -/
theorem scanPlain_append {least : Nat} {cs more : List Char} (own : ∀ c ∈ cs, InLine c)
    {prev : Char} (unmarked : hasMark (prev :: cs) = false) {bs : List Char}
    (before : bs ≠ [] → prev = ' ') (ends : (bs ++ cs).getLast? ≠ some ' ')
    (blanks : ∀ b ∈ bs, b = ' ') (acc : Backwards) (line column : Nat) (inside : 0 < column) :
    scanPlain false least acc (spaces bs) (place line column (cs ++ more)) =
      scanPlain false least ((bs ++ cs).reverse ++ acc) .none
        (place line (column + cs.length) more) := by
  induction cs generalizing prev bs acc column with
  | nil =>
    have empty : bs = [] := by
      by_contra some
      rw [List.append_nil, List.getLast?_eq_some_getLast some] at ends
      exact ends (congrArg Option.some (blanks _ (List.getLast_mem some)))
    subst empty
    rfl
  | cons c cs ih =>
    have others : ∀ c ∈ cs, InLine c := fun c mem => own c (List.mem_cons_of_mem _ mem)
    rw [hasMark, Bool.or_eq_false_iff, Bool.or_eq_false_iff] at unmarked
    obtain ⟨⟨key, hash⟩, unmarked⟩ := unmarked
    rw [List.cons_append, List.length_cons]
    by_cases space : c = ' '
    · subst space
      have blanks' : ∀ b ∈ bs ++ [' '], b = ' ' := by
        intro b mem
        rcases List.mem_append.mp mem with mem | mem
        · exact blanks b mem
        · exact List.mem_singleton.mp mem
      rw [scanPlain_space bs acc line column inside,
        ih others unmarked (fun _ => rfl) (by simpa using ends) blanks' _ _ (by omega),
        Nat.add_right_comm, Nat.add_assoc]
      simp
    · have comment : c = '#' → bs = [] := by
        rintro rfl
        by_contra some
        simp [before some, isSpaceOrBreak] at hash
      have colon : c = ':' → Placed.atGap (place line (column + 1) (cs ++ more)) = false := by
        rintro rfl
        exact atGap_append others (by simpa using key) more line (column + 1)
      have last : ([] ++ cs).getLast? ≠ some ' ' := by
        cases cs with
        | nil => simp
        | cons d ds => simpa using ends
      rw [scanPlain_char (own c List.mem_cons_self) space acc
          (atBoundary_of_column line inside _) comment colon,
        ih others unmarked (fun no => absurd rfl no) last nofun _ _ (by omega),
        Nat.add_right_comm, Nat.add_assoc]
      simp

/-! ### Where a scalar ends -/

/-- Where a line has ended, a scalar without quotes goes on only in a column of its own block. -/
theorem scanPlain_gap {least : Nat} {tail : List Char} (after : Below least tail) (acc : Backwards)
    (line : Nat) : scanPlain false least acc (.breaks '\n' []) (place line 0 tail) =
      some ⟨acc.text, start line tail, true⟩ := by
  cases after with
  | nothing => rfl
  | @token k cs lt own =>
    have read : ∀ column j, column + j < least →
        scanPlain false least acc (.breaks '\n' [])
          (place line column (List.replicate j ' ' ++ cs)) =
        scanPlain false least acc (.breaks '\n' []) (place line (column + j) cs) := by
      intro column j
      induction j generalizing column with
      | zero => exact fun _ => rfl
      | succ j ih =>
        intro bound
        have boundary := atBoundary_cons (p := ⟨' ', line, column⟩) (by decide : ' ' ≠ '-')
          (by decide : ' ' ≠ '.') (place line (column + 1) (List.replicate j ' ' ++ cs))
        rw [List.replicate_succ, List.cons_append, place_cons (by decide), scanPlain]
        simp only [boundary, show isBlank ' ' = true by decide, Spacing.blank, Bool.false_eq_true,
          if_false, if_true, show (' ' : Char) ≠ '\t' by decide, decide_false, Bool.and_false]
        rw [ih (column + 1) (by omega), Nat.add_right_comm, Nat.add_assoc]
    rw [read 0 k (by omega), Nat.zero_add, start_token line k own]
    obtain ⟨c, rest, rfl, solid⟩ := own.solid
    have boundary := own.inside line k
    rw [place_cons (isBreak_of_isSolid solid)] at boundary ⊢
    rw [scanPlain]
    simp [boundary, isBlank_of_isSolid solid, isBreak_of_isSolid solid, Spacing.crosses, lt]

theorem scanPlain_line {least : Nat} {tail : List Char} (after : Below least tail) (acc : Backwards)
    (line column : Nat) (inside : 0 < column) :
    scanPlain false least acc .none (place line column ('\n' :: tail)) =
      some ⟨acc.text, start (line + 1) tail, true⟩ := by
  have boundary := atBoundary_of_column line inside ('\n' :: tail)
  rw [place_break (by decide)] at boundary ⊢
  rw [scanPlain]
  simp only [boundary, show isBlank '\n' = false by decide, show isBreak '\n' = true by decide,
    Spacing.lineBreak, Bool.false_eq_true, if_false, if_true]
  exact scanPlain_gap after acc (line + 1)

theorem scanPlain_colon {least : Nat} {more : List Char} (acc : Backwards) (line column : Nat)
    (inside : 0 < column) (gap : Placed.atGap (place line (column + 1) more) = true) :
    scanPlain false least acc .none (place line column (':' :: more)) =
      some ⟨acc.text, place line column (':' :: more), false⟩ := by
  have boundary := atBoundary_of_column line inside (':' :: more)
  rw [place_cons (by decide)] at boundary ⊢
  rw [scanPlain]
  simp [boundary, show isBlank ':' = false by decide, show isBreak ':' = false by decide,
    Spacing.crosses, gap]

/-! ### The start of a scalar -/

theorem inLine_of_isShown {c : Char} (shown : isShown c = true) (unbroken : isBreak c = false) :
    InLine c := by
  refine ⟨unbroken, ?_⟩
  rintro rfl
  exact absurd shown (by decide)

/-- What a text is like that is written without quotes. -/
structure Plainly (cs : List Char) : Prop where
  inLine : ∀ c ∈ cs, InLine c
  head : ∃ c rest, cs = c :: rest ∧ isSolid c = true ∧ c ∉ leadingMarks ∧
    (c = '?' ∨ c = ':' ∨ c = '-' → isGap rest = false)
  unmarked : hasMark cs = false
  last : cs.getLast? ≠ some ' '

theorem plainly_of_fitsPlain {cs : List Char} (fits : fitsPlain cs = true) (some : cs ≠ []) :
    Plainly cs := by
  simp only [fitsPlain, isStrange, Bool.and_eq_true, Bool.not_eq_true', Bool.or_eq_false_iff,
    Bool.not_eq_false'] at fits
  obtain ⟨⟨⟨⟨⟨⟨shown, -⟩, unbroken⟩, front⟩, back⟩, leads⟩, unmarked⟩ := fits
  have inLine : ∀ c ∈ cs, InLine c := fun c mem =>
    inLine_of_isShown (List.all_eq_true.mp shown c mem)
      (by simpa using List.any_eq_false.mp unbroken c mem)
  obtain ⟨c, rest, rfl⟩ := List.exists_cons_of_ne_nil some
  have own := inLine c List.mem_cons_self
  simp only [leadsWithMark, Bool.or_eq_false_iff, decide_eq_false_iff_not] at leads
  obtain ⟨⟨⟨mark, gap⟩, -⟩, -⟩ := leads
  refine ⟨inLine, ⟨c, rest, rfl, ?_, mark, ?_⟩, unmarked, ?_⟩
  · have space : c ≠ ' ' := by simpa using front
    have comment : c ≠ '#' := by
      rintro rfl
      exact mark (by decide)
    have order : c ≠ '\uFEFF' := by
      rintro rfl
      exact absurd (List.all_eq_true.mp shown _ List.mem_cons_self) (by decide)
    simp [isSolid, isBlank_eq_false own space, own.1, comment, order]
  · intro special
    by_contra all
    rw [Bool.not_eq_false] at all
    rcases special with rfl | rfl | rfl <;> simp [all] at gap
  · intro last
    rw [last] at back
    cases back

/-- A text is fit for the style in which it is written. -/
theorem style_fits (s : String) : match Style.ofText s with
    | .plain => fitsPlain s.toList = true ∧ isAmbiguous s = false
    | .single => '\n' ∉ s.toList ∧ fitsSingle s.toList = true
    | .double => True
    | .block => '\n' ∈ s.toList ∧ fitsBlock s.toList = true := by
  by_cases broken : '\n' ∈ s.toList
  · by_cases block : fitsBlock s.toList = true
    · simp [Style.ofText, broken, block]
    · simp [Style.ofText, broken, block]
  · by_cases plain : (fitsPlain s.toList && !isAmbiguous s) = true
    · have style : Style.ofText s = .plain := by simp [Style.ofText, broken, plain]
      rw [style]
      simpa using plain
    · by_cases single : fitsSingle s.toList = true
      · simp [Style.ofText, broken, plain, single]
      · simp [Style.ofText, broken, plain, single]

theorem plainly_of_style {s : String} (h : Style.ofText s = .plain) :
    Plainly s.toList ∧ isAmbiguous s = false := by
  have fits := style_fits s
  rw [h] at fits
  refine ⟨plainly_of_fitsPlain fits.1 ?_, fits.2⟩
  intro empty
  obtain rfl : s = "" := String.toList_eq_nil_iff.mp empty
  exact absurd fits.2 (by decide)

theorem startsPlain_of_plainly {cs : List Char} (own : Plainly cs) (line column : Nat)
    (more : List Char) : startsPlain false (place line column (cs ++ more)) = true := by
  obtain ⟨c, rest, rfl, solid, mark, special⟩ := own.head
  have unbroken := isBreak_of_isSolid solid
  have inLine : ∀ c ∈ rest, InLine c := fun c mem => own.inLine c (List.mem_cons_of_mem _ mem)
  rw [List.cons_append, place_cons unbroken, startsPlain]
  by_cases indicator : c ∈ indicators
  · have dashed : c = '?' ∨ c = ':' ∨ c = '-' := by
      revert mark
      fin_cases indicator <;> decide
    have gap := atGap_append inLine (special dashed) more line (column + 1)
    rcases dashed with rfl | rfl | rfl <;> simp [gap]
  · simp [isBlank_of_isSolid solid, unbroken, indicator]

theorem opens_plain {cs : List Char} (own : Plainly cs) (tail : List Char) :
    Opens (cs ++ tail) := by
  obtain ⟨c, rest, rfl, solid, mark, special⟩ := own.head
  have inLine : ∀ c ∈ rest, InLine c := fun c mem => own.inLine c (List.mem_cons_of_mem _ mem)
  have anchor : c ≠ '&' := by
    rintro rfl
    exact mark (by decide)
  have tag : c ≠ '!' := by
    rintro rfl
    exact mark (by decide)
  have marked : ∀ d ∈ ['-', '?'], ∀ line column,
      Placed.startsWithMark d (place line column (c :: rest ++ tail)) = false := by
    intro d mem line column
    rw [List.cons_append, place_cons (isBreak_of_isSolid solid), Placed.startsWithMark]
    by_cases own : c = d
    · subst own
      have gap := special (by fin_cases mem <;> simp)
      rw [atGap_append inLine gap, Bool.and_false]
    · simp [own]
  exact ⟨⟨c, rest ++ tail, rfl, solid, anchor, tag⟩, marked '-' (by simp), marked '?' (by simp)⟩

/-- A scalar without quotes is read to the end of its text. -/
theorem scanPlain_text {least : Nat} {cs : List Char} (own : Plainly cs) (line column : Nat)
    (more : List Char) (boundary : Placed.atBoundary (place line column (cs ++ more)) = false) :
    scanPlain false least [] .none (place line column (cs ++ more)) =
      scanPlain false least cs.reverse .none (place line (column + cs.length) more) := by
  obtain ⟨c, rest, rfl, solid, -, special⟩ := own.head
  have inLine : ∀ c ∈ rest, InLine c := fun c mem => own.inLine c (List.mem_cons_of_mem _ mem)
  have space : c ≠ ' ' := by
    rintro rfl
    exact absurd solid (by decide)
  have colon : c = ':' → Placed.atGap (place line (column + 1) (rest ++ more)) = false :=
    fun key => atGap_append inLine (special (.inr (.inl key))) more line (column + 1)
  have last : ([] ++ rest).getLast? ≠ some ' ' := by
    cases rest with
    | nil => simp
    | cons d ds => simpa using own.last
  rw [List.cons_append] at boundary ⊢
  have first : scanPlain false least [] .none (place line column (c :: (rest ++ more))) =
      scanPlain false least [c] (spaces []) (place line (column + 1) (rest ++ more)) :=
    scanPlain_char (own.inLine c List.mem_cons_self) space [] boundary (fun _ => rfl) colon
  rw [first, scanPlain_append inLine own.unmarked nofun last nofun _ _ _ (by omega),
    List.length_cons, Nat.add_right_comm, Nat.add_assoc]
  simp

end GatewayPlan.Yaml
