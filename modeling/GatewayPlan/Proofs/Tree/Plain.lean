import GatewayPlan.Proofs.Decimal.Digits
import GatewayPlan.Proofs.Tree.StandsFor

/-!
# Numbers without quotes

The digits of a whole number stand for that number.
-/

namespace GatewayPlan.Tree.Plain

open Decimal

theorem digit?_of_isDigit {c : Char} (digit : c.isDigit = true) :
    digit? 10 c = some (c.toNat - 48) := by
  have range : '0' ≤ c ∧ c ≤ '9' := by simpa [Char.isDigit, Char.le_def] using digit
  have small : c.toNat - 48 < 10 := by
    have high : c.toNat ≤ 57 := UInt32.le_iff_toNat_le.mp range.2
    omega
  simp [digit?, range, small]

theorem nat?_eq {cs : List Char} (some : cs ≠ []) (digits : ∀ c ∈ cs, c.isDigit = true) :
    nat? 10 cs = Option.some (Nat.ofDigitChars 10 cs 0) := by
  have folded : ∀ (cs : List Char) (n : Nat), (∀ c ∈ cs, c.isDigit = true) →
      cs.foldl (fun acc c => do return (← acc) * 10 + (← digit? 10 c)) (Option.some n) =
        Option.some (Nat.ofDigitChars 10 cs n) := by
    intro cs
    induction cs with
    | nil => exact fun _ _ => rfl
    | cons c cs ih =>
      intro n digits
      rw [List.foldl_cons, digit?_of_isDigit (digits c List.mem_cons_self),
        Nat.ofDigitChars_cons, Nat.mul_comm]
      exact ih _ fun c mem => digits c (List.mem_cons_of_mem _ mem)
  rw [nat?, if_neg (by simpa using some), folded cs 0 digits]

theorem unsigned?_toDigits (n : Nat) : unsigned? (Nat.toDigits 10 n) = some n := by
  have own : unsigned? (Nat.toDigits 10 n) = nat? 10 (Nat.toDigits 10 n) := by
    have digits : ∀ c ∈ Nat.toDigits 10 n, c.isDigit = true := fun c mem => isDigit_of_mem mem
    unfold unsigned?
    split
    case h_1 eq | h_2 eq | h_3 eq =>
      rw [eq] at digits
      exact absurd (digits _ (List.mem_cons_of_mem _ List.mem_cons_self)) (by decide)
    case h_4 => rfl
  rw [own, nat?_eq Nat.toDigits_ne_nil fun c mem => isDigit_of_mem mem,
    Nat.ofDigitChars_ten_toDigits]

theorem hasNeedlessZero_toDigits (n : Nat) : hasNeedlessZero (Nat.toDigits 10 n) = false := by
  rcases Nat.eq_zero_or_pos n with rfl | pos
  · rfl
  · obtain ⟨c, cs, own, digit⟩ := exists_toDigits n
    have lead := head?_toDigits_ne_zero pos
    rw [own] at lead ⊢
    have minus : c ≠ '-' := ne_of_isDigit digit (by decide)
    have plus : c ≠ '+' := ne_of_isDigit digit (by decide)
    have zero : c ≠ '0' := by simpa using lead
    simp [hasNeedlessZero, minus, plus, zero]

/-- No scalar that is known by its name starts with a digit. -/
theorem resolve_toString {n : Nat} (fits : n < Nat.pow 2 128) :
    resolve (toString n) = .num (.natural n) := by
  obtain ⟨c, cs, own, digit⟩ := exists_toDigits n
  have listed := toList_toString n
  have whole : integer? (toString n).toList = some (.natural n) := by
    have minus : c ≠ '-' := ne_of_isDigit digit (by decide)
    have plus : c ≠ '+' := ne_of_isDigit digit (by decide)
    have number := unsigned?_toDigits n
    have zero := hasNeedlessZero_toDigits n
    rw [listed]
    rw [own] at number zero ⊢
    simp [integer?, zero, minus, plus, integer?.natural, number, fits]
  have other : ∀ s : String, s.toList.head?.any Char.isDigit = false → toString n ≠ s := by
    rintro s head rfl
    simp only [listed, own, List.head?_cons, Option.any_some, digit, Bool.true_eq_false] at head
  generalize toString n = s at whole other ⊢
  have null : isNull s = false := by
    simp [isNull, other "" rfl, other "~" rfl, other "null" rfl, other "Null" rfl,
      other "NULL" rfl]
  have bool : bool? s = none := by
    simp [bool?, other "true" rfl, other "True" rfl, other "TRUE" rfl, other "false" rfl,
      other "False" rfl, other "FALSE" rfl]
  rw [resolve, null, bool, whole]
  rfl

end GatewayPlan.Tree.Plain
