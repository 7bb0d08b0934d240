/-! The letters and digits of ASCII as ranges of code points. -/

namespace ClientGen.Text

variable {c : Char}

theorem isUpper_iff : c.isUpper ↔ 65 ≤ c.toNat ∧ c.toNat ≤ 90 :=
  decide_eq_true_iff.trans (and_congr UInt32.le_iff_toNat_le UInt32.le_iff_toNat_le)

theorem isLower_iff : c.isLower ↔ 97 ≤ c.toNat ∧ c.toNat ≤ 122 :=
  Bool.and_eq_true_iff.trans (and_congr (decide_eq_true_iff.trans UInt32.le_iff_toNat_le)
    (decide_eq_true_iff.trans UInt32.le_iff_toNat_le))

theorem isDigit_iff : c.isDigit ↔ 48 ≤ c.toNat ∧ c.toNat ≤ 57 :=
  Bool.and_eq_true_iff.trans (and_congr (decide_eq_true_iff.trans UInt32.le_iff_toNat_le)
    (decide_eq_true_iff.trans UInt32.le_iff_toNat_le))

theorem isAlpha_iff : c.isAlpha ↔ c.isUpper ∨ c.isLower := Bool.or_eq_true_iff

theorem isAlphanum_iff : c.isAlphanum ↔ c.isAlpha ∨ c.isDigit := Bool.or_eq_true_iff

theorem toUpper_of_not_isLower (h : ¬ c.isLower) : c.toUpper = c := by
  unfold Char.toUpper
  refine dif_neg fun hrange => h (isLower_iff.mpr ?_)
  have hlow : 97 ≤ c.toNat := UInt32.le_iff_toNat_le.mp hrange.1
  have hhigh : c.toNat ≤ 122 := UInt32.le_iff_toNat_le.mp hrange.2
  exact ⟨hlow, hhigh⟩

theorem toUpper_eq_self (h : c.isUpper ∨ c.isDigit) : c.toUpper = c := by
  refine toUpper_of_not_isLower ?_
  rw [isUpper_iff, isDigit_iff] at h
  rw [isLower_iff]
  omega

theorem toNat_toUpper (h : c.isLower) : c.toUpper.toNat = c.toNat - 32 := by
  have hrange := Bool.and_eq_true_iff.mp h
  have hnat : 97 ≤ c.val.toNat ∧ c.val.toNat ≤ 122 := isLower_iff.mp h
  unfold Char.toUpper
  rw [dif_pos ⟨of_decide_eq_true hrange.1, of_decide_eq_true hrange.2⟩]
  change (c.val + 4294967264).toNat = c.val.toNat - 32
  rw [UInt32.toNat_add]
  change (c.val.toNat + 4294967264) % 4294967296 = _
  omega

theorem toLower_of_not_isUpper (h : ¬ c.isUpper) : c.toLower = c := by
  unfold Char.toLower
  exact dif_neg fun hrange => h (decide_eq_true hrange)

theorem toLower_eq_self (h : c.isLower ∨ c.isDigit) : c.toLower = c := by
  refine toLower_of_not_isUpper ?_
  rw [isLower_iff, isDigit_iff] at h
  rw [isUpper_iff]
  omega

theorem toNat_toLower (h : c.isUpper) : c.toLower.toNat = c.toNat + 32 := by
  have hnat : 65 ≤ c.val.toNat ∧ c.val.toNat ≤ 90 := isUpper_iff.mp h
  unfold Char.toLower
  rw [dif_pos (of_decide_eq_true h)]
  change (c.val + 32).toNat = c.val.toNat + 32
  rw [UInt32.toNat_add]
  change (c.val.toNat + 32) % 4294967296 = _
  omega

end ClientGen.Text
