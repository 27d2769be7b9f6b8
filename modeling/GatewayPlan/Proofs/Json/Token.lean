import GatewayPlan.Json.Token
import GatewayPlan.Json.Writer
import GatewayPlan.Proofs.Decimal.Digits
import GatewayPlan.Proofs.Tree.Written
import Mathlib.Tactic.FinCases

/-!
# The tokens of written JSON

A text that was written of a tree has the tokens of that tree, however it is set. Every character
of a string is read back from the way it is escaped, and every whole number from its digits.
-/

namespace GatewayPlan.Json

open GatewayPlan.Tree Decimal

/-! ### Strings -/

theorem hex?_hexDigit {n : Nat} (h : n < 16) : hex? (hexDigit n) = some n := by
  revert h n
  decide

theorem hex4?_escape {n : Nat} (h : n < 0x20) :
    hex4? '0' '0' (hexDigit (n / 16)) (hexDigit (n % 16)) = some n := by
  have zero : hex? '0' = some 0 := by decide
  have high : hex? (hexDigit (n / 16)) = some (n / 16) := hex?_hexDigit (by omega)
  have low : hex? (hexDigit (n % 16)) = some (n % 16) := hex?_hexDigit (by omega)
  simp only [hex4?, zero, high, low, Option.pure_def, Option.bind_eq_bind, Option.bind_some,
    Option.some.injEq]
  omega

theorem scanString_escape {c : Char} (control : c.toNat < 0x20) (acc rest : List Char) :
    scanString (some acc) ('\\' :: 'u' :: '0' :: '0' :: hexDigit (c.toNat / 16) ::
      hexDigit (c.toNat % 16) :: rest) = scanString (some (c :: acc)) rest := by
  have high : isHighSurrogate c.toNat = false := by
    simp only [isHighSurrogate, Bool.and_eq_false_iff, decide_eq_false_iff_not]
    omega
  have low : isLowSurrogate c.toNat = false := by
    simp only [isLowSurrogate, Bool.and_eq_false_iff, decide_eq_false_iff_not]
    omega
  rw [scanString]
  simp only [hex4?_escape control, high, low, Bool.false_eq_true, if_false, Option.map_some,
    Char.ofNat_toNat]

theorem scanString_escapedChar (c : Char) (acc rest : List Char) :
    scanString (some acc) ((escapedChar c).toList ++ rest) = scanString (some (c :: acc)) rest := by
  by_cases own : c ∈ ['"', '\\', '\n', '\r', '\t', '\x08', '\x0c']
  · fin_cases own <;> simp [escapedChar, scanString, escape?]
  · simp only [List.mem_cons, List.not_mem_nil, or_false, not_or] at own
    obtain ⟨quote, backslash, newline, return_, tab, backspace, feed⟩ := own
    by_cases control : c.toNat < 0x20
    · have escaped : (escapedChar c).toList =
          ['\\', 'u', '0', '0', hexDigit (c.toNat / 16), hexDigit (c.toNat % 16)] := by
        simp [escapedChar, quote, backslash, newline, return_, tab, backspace, feed, control]
      rw [escaped]
      exact scanString_escape control acc rest
    · have itself : (escapedChar c).toList = [c] := by
        simp [escapedChar, quote, backslash, newline, return_, tab, backspace, feed, control]
      rw [itself]
      simp [scanString, backslash, control]

theorem toList_quote (s : String) :
    (quote s).toList = '"' :: (s.toList.flatMap (fun c => (escapedChar c).toList) ++ ['"']) := by
  have folded : ∀ (cs : List Char) (text : String),
      (cs.foldl (fun text c => text ++ escapedChar c) text).toList =
        text.toList ++ cs.flatMap fun c => (escapedChar c).toList := by
    intro cs
    induction cs with
    | nil => simp
    | cons c rest ih =>
      intro text
      rw [List.foldl_cons, ih, String.toList_append, List.flatMap_cons, List.append_assoc]
  rw [quote, String.toList_append, folded]
  rfl

theorem scanString_flatMap (cs acc rest : List Char) :
    scanString (some acc) (cs.flatMap (fun c => (escapedChar c).toList) ++ '"' :: rest) =
      some (some (acc.reverse ++ cs), rest) := by
  induction cs generalizing acc with
  | nil => simp [scanString]
  | cons c cs ih =>
    rw [List.flatMap_cons, List.append_assoc, scanString_escapedChar, ih, List.reverse_cons,
      List.append_assoc]
    rfl

/-! ### Whole numbers -/

theorem absorb_eq {s : Nat} {cs : List Char} (fits : Nat.ofDigitChars 10 cs s < UInt64.size) :
    absorb s cs = (Nat.ofDigitChars 10 cs s, cs.length, 0) := by
  induction cs generalizing s with
  | nil => rfl
  | cons c rest ih =>
    have digit : Nat.ofDigitChars 10 (c :: rest) s =
        Nat.ofDigitChars 10 rest (s * 10 + (c.toNat - 48)) := by
      rw [Nat.ofDigitChars_cons, Nat.mul_comm 10 s]
      rfl
    rw [digit] at fits ⊢
    have smaller : s * 10 + (c.toNat - 48) < UInt64.size := by
      refine Nat.lt_of_le_of_lt ?_ fits
      rw [Nat.ofDigitChars_eq_ofDigitChars_zero]
      exact (Nat.le_mul_of_pos_left _ (Nat.pow_pos (by decide))).trans (Nat.le_add_right _ _)
    rw [absorb]
    simp only [if_pos smaller, ih fits, List.length_cons]

/-- What a number ends at: it would go on with any other character. -/
def endsNumber (c : Char) : Bool :=
  !(c.isDigit || c = '.' || c = 'e' || c = 'E')

def Ends (cs : List Char) : Prop :=
  ∀ c ∈ cs.head?, endsNumber c = true

theorem Ends.append {cs rest : List Char} (h : Ends cs) (after : Ends rest) :
    Ends (cs ++ rest) := by
  cases cs with
  | nil => exact after
  | cons c cs => exact h

theorem digits_toDigits (n : Nat) {rest : List Char} (ends : Ends rest) :
    digits (Nat.toDigits 10 n ++ rest) = (Nat.toDigits 10 n, rest) := by
  have own : ∀ c ∈ Nat.toDigits 10 n, c.isDigit = true := fun c mem => isDigit_of_mem mem
  rw [digits, List.takeWhile_append_of_pos own, List.dropWhile_append_of_pos own]
  cases rest with
  | nil => simp
  | cons c rest =>
    have other : c.isDigit = false := by
      have := ends c rfl
      simp only [endsNumber, Bool.not_eq_true', Bool.or_eq_false_iff] at this
      exact this.1.1.1
    simp [other]

theorem whole?_toDigits (n : Nat) {rest : List Char} (ends : Ends rest) :
    whole? (Nat.toDigits 10 n ++ rest) = some (Nat.toDigits 10 n, rest) := by
  unfold whole?
  rw [digits_toDigits n ends]
  split
  case h_1 nil => exact absurd (Prod.mk.inj nil).1 Nat.toDigits_ne_nil
  case h_2 c _ _ zero =>
    have zero := (Prod.mk.inj zero).1
    rcases Nat.eq_zero_or_pos n with rfl | pos
    · cases zero
    · exact absurd (by rw [zero]; rfl) (head?_toDigits_ne_zero pos)
  case h_3 own =>
    cases own
    rfl

theorem fraction?_of_ends {rest : List Char} (ends : Ends rest) :
    fraction? rest = some ([], rest) := by
  unfold fraction?
  split
  · exact absurd (ends '.' rfl) (by decide)
  · rfl

theorem exponent?_of_ends {rest : List Char} (ends : Ends rest) :
    exponent? rest = some (none, rest) := by
  cases rest with
  | nil => rfl
  | cons c rest =>
    have other : ¬(c = 'e' || c = 'E') = true := by
      have := ends c rfl
      simp only [endsNumber, Bool.not_eq_true', Bool.or_eq_false_iff] at this
      simp [of_decide_eq_false this.1.2, of_decide_eq_false this.2]
    unfold exponent?
    simp only [if_neg other]

theorem scanNumber_toDigits {n : Nat} (fits : n < UInt64.size) {rest : List Char}
    (ends : Ends rest) :
    scanNumber (Nat.toDigits 10 n ++ rest) = some (.num (.natural n), rest) := by
  have value : Nat.ofDigitChars 10 (Nat.toDigits 10 n) 0 = n := Nat.ofDigitChars_ten_toDigits
  have absorbed := absorb_eq (value.symm ▸ fits)
  have whole := whole?_toDigits n ends
  obtain ⟨c, cs, own, digit⟩ := exists_toDigits n
  rw [own, List.cons_append] at whole ⊢
  have unsigned : c ≠ '-' := ne_of_isDigit digit (by decide)
  rw [own] at value absorbed
  simp [scanNumber, unsigned, whole, fraction?_of_ends ends, exponent?_of_ends ends, absorbed,
    value, wholeNode]

/-! ### Tokens -/

/-- The text starts with these tokens, wherever a number may end after it. -/
def Lexes (cs : List Char) (ts : List Token) : Prop :=
  ∀ rest, Ends rest → ∀ n, (cs ++ rest).length ≤ n →
    ∃ n', rest.length ≤ n' ∧ tokensWithin n (cs ++ rest) = ts ++ tokensWithin n' rest

namespace Lexes

theorem nil : Lexes [] [] :=
  fun _ _ n le => ⟨n, le, rfl⟩

theorem append {cs cs' : List Char} {ts ts' : List Token} (h : Lexes cs ts) (h' : Lexes cs' ts')
    (ends : Ends cs') : Lexes (cs ++ cs') (ts ++ ts') := by
  intro rest after n le
  rw [List.append_assoc] at le ⊢
  obtain ⟨n₁, le₁, first⟩ := h (cs' ++ rest) (ends.append after) n le
  obtain ⟨n₂, le₂, second⟩ := h' rest after n₁ le₁
  exact ⟨n₂, le₂, by rw [first, second, List.append_assoc]⟩

/-- One character less to read takes one step less. -/
theorem cons {c : Char} {cs : List Char} {ts us : List Token} (h : Lexes cs ts)
    (step : ∀ n rest, tokensWithin (n + 1) (c :: rest) = us ++ tokensWithin n rest) :
    Lexes (c :: cs) (us ++ ts) := by
  intro rest after n le
  cases n with
  | zero => cases le
  | succ n =>
    obtain ⟨n', le', read⟩ := h rest after n (Nat.le_of_succ_le_succ le)
    refine ⟨n', le', ?_⟩
    rw [List.cons_append, step, read, List.append_assoc]

theorem mark {c : Char} {cs : List Char} {ts : List Token} (h : Lexes cs ts)
    (own : isMark c = true) : Lexes (c :: cs) (.mark c :: ts) := by
  have shown : isBlank c = false := by
    simp only [isMark, decide_eq_true_eq] at own
    fin_cases own <;> decide
  change Lexes (c :: cs) ([.mark c] ++ ts)
  refine h.cons fun n rest => ?_
  simp only [tokensWithin, shown, own, Bool.false_eq_true, if_false, if_true]
  rfl

theorem blank {bs cs : List Char} {ts : List Token} (h : Lexes cs ts)
    (own : ∀ c ∈ bs, isBlank c = true) : Lexes (bs ++ cs) ts := by
  induction bs with
  | nil => exact h
  | cons c bs ih =>
    have rest := ih fun c mem => own c (List.mem_cons_of_mem _ mem)
    change Lexes (c :: (bs ++ cs)) ([] ++ ts)
    refine rest.cons fun n rest => ?_
    simp only [tokensWithin, own c List.mem_cons_self, if_true]
    rfl

theorem scalar {c : Char} {cs : List Char} {t : Token} (shown : isBlank c = false)
    (own : isMark c = false)
    (read : ∀ rest, Ends rest → scanScalar c (cs ++ rest) = some (t, rest)) :
    Lexes (c :: cs) [t] := by
  intro rest after n le
  cases n with
  | zero => cases le
  | succ n =>
    refine ⟨n, ?_, ?_⟩
    · simp only [List.cons_append, List.length_cons, List.length_append] at le
      omega
    · simp only [List.cons_append, tokensWithin, shown, own, read rest after, Bool.false_eq_true,
        if_false]
      rfl

theorem quote (s : String) : Lexes (quote s).toList [.string (some s)] := by
  rw [toList_quote]
  refine scalar (by decide) (by decide) fun rest _ => ?_
  rw [List.append_assoc, scanScalar, if_pos rfl]
  have read := scanString_flatMap s.toList [] rest
  simp only [List.reverse_nil, List.nil_append] at read
  rw [List.singleton_append, read]
  simp

theorem natural {n : Nat} (fits : n < UInt64.size) :
    Lexes (toString n).toList [.leaf (.num (.natural n))] := by
  obtain ⟨c, cs, own, digit⟩ := exists_toDigits n
  have shown : isBlank c = false := by
    simp only [isBlank, Bool.or_eq_false_iff, decide_eq_false_iff_not]
    exact ⟨⟨⟨ne_of_isDigit digit (by decide), ne_of_isDigit digit (by decide)⟩,
      ne_of_isDigit digit (by decide)⟩, ne_of_isDigit digit (by decide)⟩
  have unmarked : isMark c = false := by
    simp only [isMark, decide_eq_false_iff_not]
    intro mem
    fin_cases mem <;> exact ne_of_isDigit digit (by decide) rfl
  have unquoted : c ≠ '"' := ne_of_isDigit digit (by decide)
  rw [toList_toString, own]
  refine scalar shown unmarked fun rest after => ?_
  have read := scanNumber_toDigits fits after
  rw [own, List.cons_append] at read
  simp [scanScalar, unquoted, digit, read]

end Lexes

end GatewayPlan.Json
