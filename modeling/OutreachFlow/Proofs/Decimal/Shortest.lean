import OutreachFlow.Proofs.Decimal.Conversion

/-! The shortest decimal of a double is held by the double, whichever grid it stands on. -/
namespace OutreachFlow.Decimal

/-- The number that a decimal is. -/
def value (decimal : Decimal) : Rat := decimal.digits * 10 ^ decimal.exponent

variable {double : Binary} {decimal : Decimal}

theorem value_stripZeros (fuel : Nat) (decimal : Decimal) : (stripZeros fuel decimal).value = decimal.value := by
  fun_induction stripZeros fuel decimal with
  | case1 => rfl
  | case2 fuel decimal trailing ih =>
    have whole : decimal.digits = decimal.digits / 10 * 10 := by omega
    have whole' : (decimal.digits : Rat) = (decimal.digits / 10 : Nat) * 10 := by exact_mod_cast whole
    rw [ih, value, value, whole', zpow_add_one₀ (by norm_num)]
    ring
  | case3 => rfl

theorem value_exact (double : Binary) : (exact double).value = double.mantissa * 2 ^ double.exponent := by
  rw [value, exact]
  simp only [Binary.scaleUp, Nat.pow_eq]
  rcases le_total 0 double.exponent with whole | fraction
  · obtain ⟨count, same⟩ := Int.eq_ofNat_of_zero_le whole
    simp [same]
  · obtain ⟨count, same⟩ := Int.eq_ofNat_of_zero_le (Int.neg_nonneg.mpr fraction)
    have same' : double.exponent = -count := by omega
    have ten : (10 : Rat) = 5 * 2 := by norm_num
    rw [same', min_eq_left (by omega), zpow_neg, zpow_neg, zpow_natCast, zpow_natCast, ten, mul_pow]
    simp
    field_simp

/-- What is found on a grid reads back. -/
theorem onGrid?_holds {tens : Int} (found : onGrid? double tens = some decimal) : double.Holds decimal.value := by
  dsimp only [onGrid?] at found
  split at found
  · rename_i backs _
    exact Option.some.inj found ▸ Binary.readsBack_iff.mp backs
  · rename_i _ backs
    exact Option.some.inj found ▸ Binary.readsBack_iff.mp backs
  · contradiction
  · rename_i lower upper
    replace lower := Binary.readsBack_iff.mp lower
    replace upper := Binary.readsBack_iff.mp upper
    split at found
    · exact Option.some.inj found ▸ lower
    · exact Option.some.inj found ▸ upper
    · obtain rfl := Option.some.inj found
      rw [value]
      dsimp only
      split
      · exact lower
      · exact upper

/-- The double holds its shortest decimal. -/
theorem shortest_holds (isDouble : double.IsDouble) : double.Holds (shortest double).value := by
  rw [shortest, value_stripZeros]
  cases found : (List.range 17).findSome? fun (n : Nat) => onGrid? double (double.magnitude - (n + 1)) with
  | none =>
    rw [Option.getD_none, value_exact]
    exact isDouble.holds_self
  | some decimal =>
    obtain ⟨n, _, here⟩ := List.exists_of_findSome?_eq_some found
    exact onGrid?_holds here

end OutreachFlow.Decimal
