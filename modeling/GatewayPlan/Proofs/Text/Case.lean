/-!
# ASCII letters by their code points

Only the letters of ASCII have another case, and the two cases of one are 32 code points apart.
-/

namespace GatewayPlan.Text

theorem isUpper_iff {c : Char} : c.isUpper = true ↔ 65 ≤ c.toNat ∧ c.toNat ≤ 90 :=
  decide_eq_true_iff.trans (and_congr UInt32.le_iff_toNat_le UInt32.le_iff_toNat_le)

theorem isLower_iff {c : Char} : c.isLower = true ↔ 97 ≤ c.toNat ∧ c.toNat ≤ 122 :=
  Bool.and_eq_true_iff.trans <| and_congr
    (decide_eq_true_iff.trans UInt32.le_iff_toNat_le)
    (decide_eq_true_iff.trans UInt32.le_iff_toNat_le)

theorem toNat_toLower (c : Char) :
    c.toLower.toNat = if 65 ≤ c.toNat ∧ c.toNat ≤ 90 then c.toNat + 32 else c.toNat := by
  have bounds : c.val ≥ 'A'.val ∧ c.val ≤ 'Z'.val ↔ 65 ≤ c.toNat ∧ c.toNat ≤ 90 :=
    and_congr UInt32.le_iff_toNat_le UInt32.le_iff_toNat_le
  split
  case isTrue within =>
    have moved : c.toLower.val = c.val + 32 := congrArg Char.val (dif_pos (bounds.mpr within))
    have shift : (c.val + 32).toNat = (c.toNat + 32) % 2 ^ 32 := UInt32.toNat_add c.val 32
    calc c.toLower.toNat = (c.toNat + 32) % 2 ^ 32 := (congrArg UInt32.toNat moved).trans shift
      _ = c.toNat + 32 := by omega
  case isFalse outside =>
    have same : c.toLower = c := dif_neg (mt bounds.mp outside)
    rw [same]

theorem toNat_toUpper (c : Char) :
    c.toUpper.toNat = if 97 ≤ c.toNat ∧ c.toNat ≤ 122 then c.toNat - 32 else c.toNat := by
  have bounds : c.val ≥ 'a'.val ∧ c.val ≤ 'z'.val ↔ 97 ≤ c.toNat ∧ c.toNat ≤ 122 :=
    and_congr UInt32.le_iff_toNat_le UInt32.le_iff_toNat_le
  split
  case isTrue within =>
    have moved : c.toUpper.val = c.val + ('A'.val - 'a'.val) := by
      delta Char.toUpper
      rw [dif_pos (bounds.mpr within)]
    have shift : (c.val + ('A'.val - 'a'.val)).toNat = (c.toNat + (2 ^ 32 - 32)) % 2 ^ 32 :=
      UInt32.toNat_add c.val _
    calc c.toUpper.toNat = (c.toNat + (2 ^ 32 - 32)) % 2 ^ 32 :=
          (congrArg UInt32.toNat moved).trans shift
      _ = c.toNat - 32 := by omega
  case isFalse outside =>
    have same : c.toUpper = c := dif_neg (mt bounds.mp outside)
    rw [same]

theorem isLower_toLower {c : Char} (h : c.isUpper = true) : c.toLower.isLower = true := by
  have upper : 65 ≤ c.toNat ∧ c.toNat ≤ 90 := isUpper_iff.mp h
  rw [isLower_iff, toNat_toLower, if_pos upper]
  omega

theorem toLower_eq_self {c : Char} (h : ¬ c.isUpper = true) : c.toLower = c := by
  rw [isUpper_iff] at h
  rw [← Char.toNat_inj, toNat_toLower, if_neg h]

theorem toUpper_toLower (c : Char) : c.toLower.toUpper = c.toUpper := by
  by_cases upper : c.isUpper = true
  · rw [isUpper_iff] at upper
    have lower : c.toLower.toNat = c.toNat + 32 := by rw [toNat_toLower, if_pos upper]
    rw [← Char.toNat_inj, toNat_toUpper, toNat_toUpper, lower, if_pos (by omega),
      if_neg (by omega), Nat.add_sub_cancel]
  · rw [toLower_eq_self upper]

theorem toUpper_eq_self_of_not_ascii {c : Char} (h : 128 ≤ c.toNat) : c.toUpper = c := by
  rw [← Char.toNat_inj, toNat_toUpper, if_neg (by omega)]

end GatewayPlan.Text
