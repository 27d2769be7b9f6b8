import GatewayPlan.Proofs.Yaml.Plain

/-!
# Quoted scalars are read back

In double quotes every character that is not shown as it is has an escape. In single quotes a line
break keeps its place, and the margin after it is not part of the text.
-/

namespace GatewayPlan.Yaml

/-! ### Double quotes -/

/-- The number that digits add to the one before them. -/
def hexNumber (value : Nat) (ds : List Char) : Nat :=
  ds.foldl (fun v d => v * 16 + (Json.hex? d).getD 0) value

/-- Whether a text of digits is one character's number. -/
def isCode (n : Nat) (ds : List Char) : Bool :=
  hexNumber 0 ds = n && ds.all fun d => (Json.hex? d).isSome && !isBreak d

theorem scanDouble_digits {ds : List Char} (some : ds ≠ [])
    (digits : (ds.all fun d => (Json.hex? d).isSome && !isBreak d) = true) (value : Nat)
    (valid : (hexNumber value ds).isValidChar) (acc : Backwards) (line column : Nat)
    (tail : List Char) :
    scanDouble acc .none (.digits ds.length value) (place line column (ds ++ tail)) =
      scanDouble (Char.ofNat (hexNumber value ds) :: acc) .none .outside
        (place line (column + ds.length) tail) := by
  induction ds generalizing value column with
  | nil => exact absurd rfl some
  | cons d ds ih =>
    rw [List.all_cons, Bool.and_eq_true, Bool.and_eq_true, Bool.not_eq_true'] at digits
    obtain ⟨⟨digit, unbroken⟩, others⟩ := digits
    obtain ⟨x, hex⟩ := Option.isSome_iff_exists.mp digit
    have number : hexNumber value (d :: ds) = hexNumber (value * 16 + x) ds := by
      rw [hexNumber, List.foldl_cons, hex]
      rfl
    rw [number] at valid ⊢
    rw [List.cons_append, place_cons unbroken, scanDouble]
    simp only [hex]
    cases ds with
    | nil =>
      rw [hexNumber, List.foldl_nil] at valid
      rw [if_neg (by simp), if_pos valid]
      rfl
    | cons e es =>
      have more : 1 < (d :: e :: es).length := by simp
      rw [if_pos more]
      have rest := ih (by simp) others (value * 16 + x) valid (column + 1)
      simpa [Nat.add_assoc, Nat.add_comm 1] using rest

theorem isCode_hexDigits {n : Nat} (h : n < 0xA0) :
    isCode n (hexDigits 2 n) = true ∧ (hexDigits 2 n).length = 2 := by
  revert h n
  decide +kernel

theorem not_isShown {c : Char} (h : isShown c = false) :
    c.toNat < 0xA0 ∨ c.toNat = 0xFEFF ∨ c.toNat = 0xFFFE ∨ c.toNat = 0xFFFF := by
  simp only [isShown, Bool.or_eq_false_iff, Bool.and_eq_false_iff, decide_eq_false_iff_not,
    Nat.not_le, ne_eq, not_not] at h
  omega

theorem scanDouble_code {c : Char} (h : isShown c = false) (acc : Backwards) (line column : Nat)
    (tail : List Char) :
    scanDouble acc .none .backslash (place line column (escapeCode c ++ tail)) =
      scanDouble (c :: acc) .none .outside
        (place line (column + (escapeCode c).length) tail) := by
  have valid : c.toNat.isValidChar := c.valid
  have back : Char.ofNat c.toNat = c := Char.ofNat_toNat c
  have read_letter : ∀ (letter : Char) (ds : List Char), escapeLength? letter = some ds.length →
      isBreak letter = false → isCode c.toNat ds = true → ds ≠ [] →
      scanDouble acc .none .backslash (place line column (letter :: ds ++ tail)) =
        scanDouble (c :: acc) .none .outside
          (place line (column + (letter :: ds).length) tail) := by
    intro letter ds length unbroken code some
    simp only [isCode, Bool.and_eq_true, decide_eq_true_eq] at code
    obtain ⟨number, digits⟩ := code
    rw [List.cons_append, place_cons unbroken, scanDouble]
    simp only [unbroken, Bool.false_eq_true, if_false, length]
    rw [scanDouble_digits some digits 0 (by rwa [number]), number, back, List.length_cons,
      Nat.add_right_comm, Nat.add_assoc]
  rcases not_isShown h with small | big
  · have code := isCode_hexDigits small
    rw [escapeCode, if_pos (by omega)]
    exact read_letter 'x' _ (by rw [code.2]; rfl) (by decide) code.1 (by
      intro nil
      have := code.2
      rw [nil] at this
      cases this)
  · have four : isCode c.toNat (hexDigits 4 c.toNat) = true ∧ (hexDigits 4 c.toNat).length = 4 := by
      rcases big with e | e | e <;> rw [e] <;> decide +kernel
    rw [escapeCode, if_neg (by omega)]
    exact read_letter 'u' _ (by rw [four.2]; rfl) (by decide) four.1 (by
      intro nil
      have := four.2
      rw [nil] at this
      cases this)

theorem scanDouble_letter {letter c : Char} (own : escape? letter = some c)
    (short : escapeLength? letter = none) (unbroken : isBreak letter = false) (acc : Backwards)
    (line column : Nat) (tail : List Char) :
    scanDouble acc .none .backslash (place line column (letter :: tail)) =
      scanDouble (c :: acc) .none .outside (place line (column + 1) tail) := by
  rw [place_cons unbroken, scanDouble]
  simp only [unbroken, Bool.false_eq_true, if_false, short, own]

/-- The characters that are escaped by a letter. -/
def lettered : List Char :=
  ['\x00', '\x07', '\x08', '\t', '\n', '\x0b', '\x0c', '\r', '\x1b', '"', '\\', '\u0085', '\u2028',
    '\u2029']

/-- A character is escaped by a letter or by its number. -/
theorem escape_cases {c : Char}
    (h : (!isShown c || isBreak c || c = '"' || c = '\\') = true) :
    c ∈ lettered ∨ (escape c = '\\' :: escapeCode c ∧ isShown c = false) := by
  by_cases special : c ∈ lettered
  · exact .inl special
  · refine .inr ⟨?_, ?_⟩
    · unfold escape
      split <;> first | rfl | exact absurd (by decide) special
    · by_contra shown
      rw [Bool.not_eq_false] at shown
      apply special
      simp only [shown, Bool.not_true, Bool.false_or, isBreak, Bool.or_eq_true,
        decide_eq_true_eq] at h
      rcases h with (((rfl | rfl) | rfl) | rfl) | rfl <;> decide

theorem scanDouble_escape {c : Char} (h : (!isShown c || isBreak c || c = '"' || c = '\\') = true)
    (bs : List Char) (acc : Backwards) (line column : Nat) (inside : 0 < column)
    (tail : List Char) :
    scanDouble acc (spaces bs) .outside (place line column (escape c ++ tail)) =
      scanDouble (c :: (bs.reverse ++ acc)) .none .outside
        (place line (column + (escape c).length) tail) := by
  have first : ∀ cs, scanDouble acc (spaces bs) .outside (place line column ('\\' :: cs)) =
      scanDouble (bs.reverse ++ acc) .none .backslash (place line (column + 1) cs) := by
    intro cs
    have boundary := atBoundary_of_column line inside ('\\' :: cs)
    rw [place_cons (by decide)] at boundary ⊢
    rw [scanDouble]
    simp only [boundary, show isBlank '\\' = false by decide, show isBreak '\\' = false by decide,
      endOn_spaces, Bool.false_eq_true, if_false, if_true]
  rcases escape_cases h with special | ⟨code, hidden⟩
  · fin_cases special <;>
      exact (first _).trans (scanDouble_letter rfl rfl (by decide) _ _ _ _)
  · rw [code, List.cons_append, first, scanDouble_code hidden, List.length_cons,
      Nat.add_right_comm, Nat.add_assoc]

theorem scanDouble_shown {c : Char} (h : (!isShown c || isBreak c || c = '"' || c = '\\') = false)
    (bs : List Char) (acc : Backwards) (line column : Nat) (inside : 0 < column)
    (tail : List Char) : scanDouble acc (spaces bs) .outside (place line column (c :: tail)) =
      if c = ' ' then
        scanDouble acc (spaces (bs ++ [' '])) .outside (place line (column + 1) tail)
      else scanDouble (c :: (bs.reverse ++ acc)) .none .outside (place line (column + 1) tail) := by
  simp only [Bool.or_eq_false_iff, Bool.not_eq_false', decide_eq_false_iff_not] at h
  obtain ⟨⟨⟨shown, unbroken⟩, quote⟩, escaped⟩ := h
  have boundary := atBoundary_of_column line inside (c :: tail)
  rw [place_cons unbroken] at boundary ⊢
  rw [scanDouble]
  by_cases space : c = ' '
  · subst space
    simp only [boundary, show isBlank ' ' = true by decide, blank_spaces, Bool.false_eq_true,
      if_false, if_true]
  · have inLine := inLine_of_isShown shown unbroken
    simp only [boundary, isBlank_eq_false inLine space, unbroken, escaped, quote, space,
      endOn_spaces, Bool.false_eq_true, if_false]

/-- A text in double quotes is read back, whatever its characters are. -/
theorem scanDouble_text (cs bs : List Char) (acc : Backwards) (line column : Nat)
    (inside : 0 < column) (tail : List Char) :
    scanDouble acc (spaces bs) .outside
        (place line column (cs.flatMap doubleChar ++ '"' :: tail)) =
      some ⟨Backwards.text ((bs ++ cs).reverse ++ acc),
        place line (column + (cs.flatMap doubleChar).length + 1) tail, false⟩ := by
  induction cs generalizing bs acc column with
  | nil =>
    have boundary := atBoundary_of_column line inside ('"' :: tail)
    rw [List.flatMap_nil, List.nil_append]
    rw [place_cons (by decide)] at boundary ⊢
    rw [scanDouble]
    simp [boundary, show isBlank '"' = false by decide, show isBreak '"' = false by decide,
      endOn_spaces]
  | cons c cs ih =>
    rw [List.flatMap_cons, List.append_assoc, doubleChar]
    cases h : !isShown c || isBreak c || c = '"' || c = '\\' with
    | true =>
      have next := ih [] (c :: (bs.reverse ++ acc)) (column + (escape c).length) (by omega)
      rw [if_pos rfl, scanDouble_escape h bs acc line column inside]
      simpa [spaces, Nat.add_assoc] using next
    | false =>
      rw [if_neg (by simp), List.singleton_append, scanDouble_shown h bs acc line column inside]
      split
      case isTrue space =>
        have next := ih (bs ++ [' ']) acc (column + 1) (by omega)
        rw [next, space]
        simp [Nat.add_assoc, Nat.add_comm 1]
      case isFalse =>
        have next := ih [] (c :: (bs.reverse ++ acc)) (column + 1) (by omega)
        simpa [spaces, Nat.add_assoc, Nat.add_comm 1] using next

/-! ### Single quotes -/

/-- What is held back between the words of a text in single quotes, after the character `prev`: the
blanks of a line, or the breaks of lines that are none of them a line feed. -/
inductive Held (prev : Char) : Bool → Spacing → List Char → Prop
  | blanks {bs : List Char} : (bs ≠ [] → prev = ' ') → Held prev false (spaces bs) bs
  | breaks {b : Char} {bs : List Char} : b ≠ '\n' → isBreak prev = true →
      Held prev true (.breaks b bs) (b :: bs)

theorem Held.endOn {prev : Char} {broken : Bool} {s : Spacing} {ps : List Char}
    (h : Held prev broken s ps) (acc : Backwards) : s.endOn acc = ps.reverse ++ acc := by
  cases h with
  | blanks => exact endOn_spaces _ acc
  | @breaks b bs feed =>
    have folded : (Spacing.breaks b bs).folded = b :: bs := by
      unfold Spacing.folded
      split <;> simp_all
    rw [Spacing.endOn, folded]

theorem scanSingle_margin (b : Char) (bs : List Char) (acc : Backwards) (line column k : Nat)
    (cs : List Char) :
    scanSingle acc (.breaks b bs) (place line column (List.replicate k ' ' ++ cs)) =
      scanSingle acc (.breaks b bs) (place line (column + k) cs) := by
  induction k generalizing column with
  | zero => rfl
  | succ k ih =>
    have boundary := atBoundary_cons (p := ⟨' ', line, column⟩) (by decide : ' ' ≠ '-')
      (by decide : ' ' ≠ '.') (place line (column + 1) (List.replicate k ' ' ++ cs))
    rw [List.replicate_succ, List.cons_append, place_cons (by decide),
      scanSingle.eq_def]
    simp only [boundary, show isBlank ' ' = true by decide, Spacing.blank, Bool.false_eq_true,
      if_false, if_true]
    rw [ih, Nat.add_right_comm, Nat.add_assoc]

theorem scanSingle_space (bs : List Char) (acc : Backwards) (line column : Nat)
    (inside : 0 < column) (tail : List Char) :
    scanSingle acc (spaces bs) (place line column (' ' :: tail)) =
      scanSingle acc (spaces (bs ++ [' '])) (place line (column + 1) tail) := by
  have boundary := atBoundary_of_column line inside (' ' :: tail)
  rw [place_cons (by decide)] at boundary ⊢
  rw [scanSingle.eq_def]
  simp only [boundary, show isBlank ' ' = true by decide, blank_spaces, Bool.false_eq_true,
    if_false, if_true]

theorem scanSingle_char {c : Char} (own : InLine c) (space : c ≠ ' ') (s : Spacing)
    (acc : Backwards) (line column : Nat) (inside : 0 < column) (tail : List Char) :
    scanSingle acc s
        (place line column ((if c = '\'' then ['\'', '\''] else [c]) ++ tail)) =
      scanSingle (c :: s.endOn acc) .none
        (place line (column + if c = '\'' then 2 else 1) tail) := by
  by_cases quote : c = '\''
  · subst quote
    have boundary := atBoundary_of_column line inside ('\'' :: '\'' :: tail)
    rw [if_pos rfl, if_pos rfl, List.cons_append, List.singleton_append]
    rw [place_cons (by decide), place_cons (by decide)] at boundary ⊢
    rw [scanSingle]
    simp [boundary, show isBlank '\'' = false by decide, show isBreak '\'' = false by decide]
  · have boundary := atBoundary_of_column line inside (c :: tail)
    rw [if_neg quote, if_neg quote, List.singleton_append]
    rw [place_cons own.1] at boundary ⊢
    rw [scanSingle.eq_def]
    simp [boundary, isBlank_eq_false own space, own.1, quote]

theorem scanSingle_close (s : Spacing) (acc : Backwards) (line column : Nat) (inside : 0 < column)
    (tail : List Char) :
    scanSingle acc s (place line column ('\'' :: '\n' :: tail)) =
      some ⟨(s.endOn acc).text, place line (column + 1) ('\n' :: tail), false⟩ := by
  have boundary := atBoundary_of_column line inside ('\'' :: '\n' :: tail)
  rw [place_cons (by decide), place_break (by decide)] at boundary ⊢
  rw [scanSingle]
  simp [boundary, show isBlank '\'' = false by decide, show isBreak '\'' = false by decide]

/-- A break stands for itself, whatever is held back before it. -/
theorem scanSingle_break {c prev : Char} (broken : isBreak c = true) (feed : c ≠ '\n')
    {after : Bool} {s : Spacing} {ps : List Char} (held : Held prev after s ps)
    (pair : (prev = ' ' && isBreak c) = false) (acc : Backwards) (line column : Nat)
    (tail : List Char) : ∃ s', Held c true s' (ps ++ [c]) ∧
      scanSingle acc s (place line column (c :: tail)) =
        scanSingle acc s' (place (line + 1) 0 tail) := by
  have solid : isBlank c = false := by
    simp only [isBreak, Bool.or_eq_true, decide_eq_true_eq] at broken
    rcases broken with (rfl | rfl) | rfl <;> decide
  have dash : c ≠ '-' := by
    rintro rfl
    exact absurd broken (by decide)
  have dot : c ≠ '.' := by
    rintro rfl
    exact absurd broken (by decide)
  have boundary := atBoundary_cons (p := ⟨c, line, column⟩) dash dot (place (line + 1) 0 tail)
  have read : scanSingle acc s (place line column (c :: tail)) =
      scanSingle acc (s.lineBreak c) (place (line + 1) 0 tail) := by
    rw [place_break broken, scanSingle.eq_def]
    simp only [boundary, solid, broken, Bool.false_eq_true, if_false, if_true]
  cases held with
  | blanks before =>
    have empty : ps = [] := by
      by_contra some
      simp [before some, broken] at pair
    subst empty
    exact ⟨.breaks c [], .breaks feed broken, read⟩
  | @breaks b bs first => exact ⟨.breaks b (bs ++ [c]), .breaks first broken, read⟩

/-- The next word of a text stands after the margin of its line, if the line is a new one. -/
theorem scanSingle_word {k : Nat} (margin : 0 < k) {prev : Char} {broken : Bool} {s : Spacing}
    {ps : List Char} (held : Held prev broken s ps) (acc : Backwards) (line column : Nat)
    (inside : broken = false → 0 < column) (cs : List Char) : ∃ column', 0 < column' ∧
      scanSingle acc s (place line column
        ((if broken then List.replicate k ' ' else []) ++ cs)) =
      scanSingle acc s (place line column' cs) := by
  cases held with
  | blanks => exact ⟨column, inside rfl, rfl⟩
  | breaks => exact ⟨column + k, by omega, scanSingle_margin _ _ acc line column k cs⟩

/-- A text in single quotes is read back if no blank in it stands next to a break. -/
theorem scanSingle_text {k : Nat} (margin : 0 < k) {cs : List Char}
    (shown : ∀ c ∈ cs, isShown c = true) (fed : '\n' ∉ cs) {prev : Char}
    (trailing : hasPair (· = ' ') isBreak (prev :: cs) = false)
    (leading : hasPair isBreak (· = ' ') (prev :: cs) = false) {broken : Bool} {s : Spacing}
    {ps : List Char} (held : Held prev broken s ps) (acc : Backwards) (line column : Nat)
    (inside : broken = false → 0 < column) (tail : List Char) :
    ∃ line' column', line ≤ line' ∧
      scanSingle acc s (place line column
        (singleRest (List.replicate k ' ') broken cs ++ '\n' :: tail)) =
      some ⟨Backwards.text ((ps ++ cs).reverse ++ acc), place line' column' ('\n' :: tail),
        false⟩ := by
  induction cs generalizing prev broken s ps acc line column with
  | nil =>
    obtain ⟨column', inside', skipped⟩ :=
      scanSingle_word margin held acc line column inside ('\'' :: '\n' :: tail)
    refine ⟨line, column' + 1, Nat.le_refl _, ?_⟩
    rw [singleRest, List.append_assoc, List.singleton_append, skipped,
      scanSingle_close s acc line column' inside', held.endOn, List.append_nil]
  | cons c cs ih =>
    have shown' : ∀ c ∈ cs, isShown c = true := fun c mem => shown c (List.mem_cons_of_mem _ mem)
    have fed' : '\n' ∉ cs := fun mem => fed (List.mem_cons_of_mem _ mem)
    have feed : c ≠ '\n' := fun eq => fed (eq ▸ List.mem_cons_self)
    rw [hasPair, Bool.or_eq_false_iff] at trailing leading
    obtain ⟨trail, trailing⟩ := trailing
    obtain ⟨lead, leading⟩ := leading
    cases break_ : isBreak c with
    | true =>
      rw [singleRest, if_pos break_, List.cons_append]
      obtain ⟨s', held', read⟩ := scanSingle_break break_ feed held trail acc line column
        (singleRest (List.replicate k ' ') true cs ++ '\n' :: tail)
      obtain ⟨line', column', le, rest⟩ :=
        ih shown' fed' trailing leading held' acc (line + 1) 0 nofun
      refine ⟨line', column', by omega, ?_⟩
      rw [read, rest, List.append_assoc]
      rfl
    | false =>
      have inLine := inLine_of_isShown (shown c List.mem_cons_self) break_
      rw [singleRest, if_neg (by simp [break_]), List.append_assoc, List.append_assoc]
      obtain ⟨column₁, inside₁, skipped⟩ := scanSingle_word margin held acc line column inside
        ((if c = '\'' then ['\'', '\''] else [c]) ++
          (singleRest (List.replicate k ' ') false cs ++ '\n' :: tail))
      rw [skipped]
      by_cases space : c = ' '
      · subst space
        cases held with
        | breaks _ last => simp [last] at lead
        | blanks before =>
          obtain ⟨line', column', le, rest⟩ := ih shown' fed' trailing leading
            (.blanks fun _ => rfl) acc line (column₁ + 1) fun _ => by omega
          refine ⟨line', column', le, ?_⟩
          rw [if_neg (by decide), List.singleton_append,
            scanSingle_space ps acc line column₁ inside₁, rest, List.append_assoc]
          rfl
      · have none : Held c false (spaces []) [] := .blanks fun no => absurd rfl no
        obtain ⟨line', column', le, rest⟩ := ih shown' fed' trailing leading none
          (c :: s.endOn acc) line (column₁ + if c = '\'' then 2 else 1) fun _ => by omega
        refine ⟨line', column', le, ?_⟩
        rw [scanSingle_char inLine space s acc line column₁ inside₁]
        refine rest.trans ?_
        rw [held.endOn]
        simp

theorem scanSingle_single {s : String} (style : Style.ofText s = .single) {k : Nat}
    (margin : 0 < k) (line column : Nat) (inside : 0 < column) (tail : List Char) :
    ∃ line' column', line ≤ line' ∧
      scanSingle [] .none (place line column
        (singleRest (List.replicate k ' ') false s.toList ++ '\n' :: tail)) =
      some ⟨s, place line' column' ('\n' :: tail), false⟩ := by
  have fits := style_fits s
  rw [style] at fits
  obtain ⟨fed, fits⟩ := fits
  simp only [fitsSingle, isStrange, Bool.and_eq_true, Bool.not_eq_true', Bool.or_eq_false_iff,
    Bool.not_eq_false'] at fits
  obtain ⟨⟨shown, trailing⟩, leading⟩ := fits
  have first : ∀ (p q : Char → Bool) (cs : List Char), p '\'' = false → hasPair p q cs = false →
      hasPair p q ('\'' :: cs) = false := by
    intro p q cs other rest
    cases cs with
    | nil => rfl
    | cons c cs => rw [hasPair, other, rest]; rfl
  have none : Held '\'' false (spaces []) [] := .blanks fun no => absurd rfl no
  obtain ⟨line', column', le, read⟩ := scanSingle_text margin
    (fun c mem => List.all_eq_true.mp shown c mem) fed (first _ _ _ (by decide) trailing)
    (first _ _ _ (by decide) leading) none [] line column (fun _ => inside) tail
  refine ⟨line', column', le, read.trans ?_⟩
  simp [Backwards.text]

end GatewayPlan.Yaml
