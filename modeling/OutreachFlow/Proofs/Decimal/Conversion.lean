import OutreachFlow.Number
import OutreachFlow.Proofs.Decimal.Doubles

/-! Decimals become doubles. A decimal in the range of a double is read as that double, whether it is found by one
exact operation on doubles or, with more digits, by whole numbers. -/
namespace OutreachFlow

open Float.Model Float.Model.UnpackedFloat

/-- A quotient has bits enough if its dividend was shifted to have them. -/
theorem le_endExponent_div {dividend divisor : Nat} {exponent : Int} {count : Nat} (some : 0 < dividend)
    (other : 0 < divisor)
    (target : exponent ≤ max ((dividend.log2 - divisor.log2 + count + exponent : Int) - 53) (-1074)) :
    exponent ≤ endExponent (dividend * 2 ^ count / divisor) exponent := by
  rw [endExponent]
  by_cases short : dividend.log2 + count ≤ divisor.log2
  · omega
  · have below : divisor < 2 ^ (divisor.log2 + 1) := Nat.lt_log2_self
    have full : 2 ^ (dividend.log2 + count) ≤ dividend * 2 ^ count := by
      rw [pow_add]
      exact Nat.mul_le_mul_right _ (Nat.log2_self_le some.ne')
    have large : 2 ^ (dividend.log2 + count - (divisor.log2 + 1)) ≤ dividend * 2 ^ count / divisor := by
      rw [Nat.le_div_iff_mul_le other]
      calc 2 ^ (dividend.log2 + count - (divisor.log2 + 1)) * divisor
          ≤ 2 ^ (dividend.log2 + count - (divisor.log2 + 1)) * 2 ^ (divisor.log2 + 1) :=
            Nat.mul_le_mul_left _ below.le
        _ = 2 ^ (dividend.log2 + count) := by rw [← pow_add, Nat.sub_add_cancel (by omega)]
        _ ≤ dividend * 2 ^ count := full
    have bits := (Nat.le_log2 (Nat.pos_of_ne_zero fun none => by simp [none] at large).ne').mpr large
    omega

namespace Binary

variable {double : Binary} {value : Rat}

/-! Comparisons -/

theorem pow_toNat {base : Nat} (positive : 0 < base) (exponent : Int) :
    (base : Rat) ^ exponent.toNat = base ^ exponent * base ^ (-exponent).toNat := by
  have nonzero : (base : Rat) ≠ 0 := by exact_mod_cast positive.ne'
  rw [← zpow_natCast, ← zpow_natCast, ← zpow_add₀ nonzero]
  congr 1
  omega

theorem cast_scaleUp {base : Nat} (positive : 0 < base) (number : Nat) (exponent : Int) :
    (scaleUp base number exponent : Rat) = number * base ^ exponent * base ^ (-exponent).toNat := by
  rw [scaleUp, Nat.pow_eq, Nat.cast_mul, Nat.cast_pow, pow_toNat positive, mul_assoc]

theorem compare_mul_pos {scale : Rat} (positive : 0 < scale) (left right : Rat) :
    compare (left * scale) (right * scale) = compare left right := by
  simpa only [cmp_eq_compare] using cmp_mul_pos_right positive left right

theorem compare_natCast (left right : Nat) : compare (left : Rat) right = compare left right := by
  simpa only [cmp_eq_compare] using (Nat.strictMono_cast (α := Rat)).cmp_map_eq left right

/-- The factor by which two scaled numbers are compared as natural numbers. -/
def commonScale (tens twos : Int) : Rat := 2 ^ (-twos).toNat * 10 ^ (-tens).toNat

theorem commonScale_pos (tens twos : Int) : 0 < commonScale tens twos := by
  unfold commonScale
  positivity

theorem cast_decimalSide (digits : Nat) (tens twos : Int) :
    (scaleUp 2 (scaleUp 10 digits tens) (-twos) : Rat) = digits * 10 ^ tens * commonScale tens twos := by
  rw [scaleUp, Nat.pow_eq, Nat.cast_mul, cast_scaleUp (by decide), commonScale]
  push_cast
  ring

theorem cast_binarySide (units : Nat) (twos tens : Int) :
    (scaleUp 10 (scaleUp 2 units twos) (-tens) : Rat) = units * 2 ^ twos * commonScale tens twos := by
  rw [scaleUp, Nat.pow_eq, Nat.cast_mul, cast_scaleUp (by decide), commonScale]
  push_cast
  ring

theorem compareScaled_eq (digits : Nat) (tens : Int) (units : Nat) (twos : Int) :
    compareScaled digits tens units twos = compare (digits * 10 ^ tens : Rat) (units * 2 ^ twos) := by
  have decimal := cast_decimalSide digits tens twos
  have binary := cast_binarySide units twos tens
  rw [compareScaled, ← compare_natCast, decimal, binary, compare_mul_pos (commonScale_pos tens twos)]

/-- A decimal is found to read back exactly if it is held by the double. -/
theorem readsBack_iff {digits : Nat} {tens : Int} :
    double.readsBack digits tens = true ↔ double.Holds (digits * 10 ^ tens) := by
  obtain ⟨amount, amountEq⟩ : ∃ amount : Rat, amount = 4 * (digits * 10 ^ tens / 2 ^ double.exponent) :=
    ⟨_, rfl⟩
  have quarter : (0 : Rat) < 2 ^ (double.exponent - 2) := two_zpow_pos _
  have value : (digits * 10 ^ tens : Rat) = amount * 2 ^ (double.exponent - 2) := by
    have power := (two_zpow_pos double.exponent).ne'
    rw [amountEq, zpow_sub₀ (by norm_num)]
    norm_num
    field_simp
  have compared (units : Nat) : compareScaled digits tens units (double.exponent - 2) = compare amount units := by
    rw [compareScaled_eq, value, compare_mul_pos quarter]
  have low : (if double.narrowBelow then 4 * double.mantissa - 1 else 4 * double.mantissa - 2) = double.lowQuarters :=
    rfl
  have high : ((4 * double.mantissa + 2 : Nat) : Rat) = 4 * double.mantissa + 2 := by push_cast; rfl
  simp only [readsBack, low, compared, compare_gt_iff_gt, compare_eq_iff_eq, compare_lt_iff_lt, decide_eq_true_eq,
    Bool.decide_and, Bool.decide_or, Bool.and_eq_true, Bool.or_eq_true, high]
  constructor
  · rintro ⟨above, below⟩
    refine ⟨?_, ?_, ?_⟩ <;> rw [← amountEq]
    · rcases above with more | ⟨_, same⟩
      · exact more.le
      · exact same.ge
    · rcases below with less | ⟨_, same⟩
      · exact less.le
      · exact same.le
    · rintro (same | same)
      · exact above.elim (fun more => absurd same more.ne') And.left
      · exact below.elim (fun less => absurd same less.ne) And.left
  · rintro ⟨above, below, closed⟩
    rw [← amountEq] at above below closed
    exact ⟨above.lt_or_eq.imp_right fun same => ⟨closed (.inl same.symm), same.symm⟩,
      below.lt_or_eq.imp_right fun same => ⟨closed (.inr same), same⟩⟩

namespace IsDouble

theorem holds_self (isDouble : double.IsDouble) : double.Holds (double.mantissa * 2 ^ double.exponent) := by
  have positive := isDouble.positive
  have amount : (double.mantissa * 2 ^ double.exponent / 2 ^ double.exponent : Rat) = double.mantissa :=
    mul_div_cancel_right₀ _ (two_zpow_pos _).ne'
  have low : double.lowQuarters < 4 * double.mantissa := by
    unfold lowQuarters
    split <;> omega
  have low' : (double.lowQuarters : Rat) < 4 * double.mantissa := by exact_mod_cast low
  refine ⟨?_, ?_, ?_⟩ <;> rw [amount]
  · exact low'.le
  · linarith
  · rintro (same | same) <;> linarith

/-! Products and quotients -/

theorem mul_eq (isDouble : double.IsDouble) {first second : Nat} {firstExponent secondExponent : Int}
    (some : 0 < first) (other : 0 < second) (large : 2 ^ 52 ≤ first * second)
    (holds : double.Holds (first * 2 ^ firstExponent * (second * 2 ^ secondExponent))) :
    UnpackedFloat.mul .binary64 (.finite .positive first firstExponent some)
        (.finite .positive second secondExponent other) =
      .finite .positive double.mantissa double.exponent isDouble.positive := by
  have bits : 52 ≤ (first * second).log2 := (Nat.le_log2 (Nat.mul_pos some other).ne').mpr large
  have value : (first * 2 ^ firstExponent * (second * 2 ^ secondExponent) : Rat) =
      (first * second : Nat) * 2 ^ (firstExponent + secondExponent) := by
    rw [zpow_add₀ (by norm_num)]
    push_cast
    ring
  rw [value] at holds
  exact isDouble.roundWithAccuracy holds (describes_exact _ _) (by rw [endExponent]; omega) .positive

/-- A quotient is found with bits enough. -/
theorem div_eq (isDouble : double.IsDouble) {first second : Nat} {firstExponent secondExponent : Int}
    (some : 0 < first) (other : 0 < second)
    (holds : double.Holds (first * 2 ^ firstExponent / (second * 2 ^ secondExponent))) :
    UnpackedFloat.div .binary64 (.finite .positive first firstExponent some)
        (.finite .positive second secondExponent other) =
      .finite .positive double.mantissa double.exponent isDouble.positive := by
  obtain ⟨target, targetEq⟩ : ∃ target, target = min (firstExponent - secondExponent)
      (Format.binary64.targetExponent (totalExponent first firstExponent - totalExponent second secondExponent)) :=
    ⟨_, rfl⟩
  obtain ⟨count, countEq⟩ : ∃ count : Nat, firstExponent - secondExponent - target = count :=
    Int.eq_ofNat_of_zero_le (by rw [targetEq]; omega)
  have core : divCore .binary64 first firstExponent second secondExponent =
      (first * 2 ^ count / second, target, accuracyOfFraction (first * 2 ^ count % second) second) := by
    rw [divCore, ← targetEq, countEq, Int.toNat_natCast, Nat.shiftLeft_eq]
  have enough : target ≤ endExponent (first * 2 ^ count / second) target := by
    apply le_endExponent_div some other
    simp only [Format.targetExponent, totalExponent, Format.mantissaBits, Format.minExponent] at targetEq
    norm_num at targetEq
    omega
  have value : (first * 2 ^ firstExponent / (second * 2 ^ secondExponent) : Rat) =
      (first * 2 ^ count : Nat) / second * 2 ^ target := by
    have scale : firstExponent = secondExponent + count + target := by omega
    have nonzero : (second : Rat) ≠ 0 := by exact_mod_cast other.ne'
    rw [scale, zpow_add₀ (by norm_num), zpow_add₀ (by norm_num), zpow_natCast]
    push_cast
    field_simp
  rw [value] at holds
  rw [UnpackedFloat.div, core]
  exact isDouble.roundWithAccuracy holds (describes_quotient _ other _) enough .positive

theorem round_eq (isDouble : double.IsDouble) {mantissa : Nat} {exponent : Int} (some : 0 < mantissa)
    (holds : double.Holds (mantissa * 2 ^ exponent)) :
    UnpackedFloat.round .binary64 .positive mantissa exponent =
      .finite .positive double.mantissa double.exponent isDouble.positive := by
  obtain ⟨count, countEq⟩ : ∃ count, (exponent - endExponent mantissa exponent).toNat = count := ⟨_, rfl⟩
  have enough : exponent - count ≤ endExponent (mantissa * 2 ^ count) (exponent - count) := by
    rw [endExponent] at countEq ⊢
    rw [log2_mul_two_pow some]
    push_cast
    omega
  have value : (mantissa * 2 ^ exponent : Rat) = (mantissa * 2 ^ count : Nat) * 2 ^ (exponent - count) := by
    rw [zpow_sub₀ (by norm_num), zpow_natCast]
    push_cast
    field_simp
  rw [value] at holds
  rw [UnpackedFloat.round, targetExponent_eq, decreaseExponent]
  simp only [countEq, Nat.shiftLeft_eq]
  exact isDouble.roundWithAccuracy holds (describes_exact _ _) enough .positive

end IsDouble

/-! Exact operations -/

/-- A double is a number that takes all its bits. -/
def IsExactly (value : Float) (amount : Rat) : Prop :=
  ∃ (double : Binary) (isDouble : double.IsDouble), 2 ^ 52 ≤ double.mantissa ∧
    amount = double.mantissa * 2 ^ double.exponent ∧ value = isDouble.signed .positive

/-- The product of two doubles is the double that holds the product of their numbers. -/
theorem IsDouble.mul_exact (isDouble : double.IsDouble) {left right : Float} {first second : Rat}
    (leftExact : IsExactly left first) (rightExact : IsExactly right second) (holds : double.Holds (first * second)) :
    left * right = isDouble.signed .positive := by
  obtain ⟨firstDouble, firstIs, firstLarge, rfl, rfl⟩ := leftExact
  obtain ⟨secondDouble, secondIs, secondLarge, rfl, rfl⟩ := rightExact
  have large : 2 ^ 52 ≤ firstDouble.mantissa * secondDouble.mantissa :=
    le_trans firstLarge (Nat.le_mul_of_pos_right _ secondIs.positive)
  have same : firstIs.signed .positive * secondIs.signed .positive = .ofModel (Float.Model.pack
      (UnpackedFloat.mul .binary64 (firstIs.signed .positive).toModel.unpack
        (secondIs.signed .positive).toModel.unpack)) := rfl
  rw [same, firstIs.unpack_signed, secondIs.unpack_signed,
    isDouble.mul_eq firstIs.positive secondIs.positive large holds]
  rfl

theorem IsDouble.div_exact (isDouble : double.IsDouble) {left right : Float} {first second : Rat}
    (leftExact : IsExactly left first) (rightExact : IsExactly right second) (holds : double.Holds (first / second)) :
    left / right = isDouble.signed .positive := by
  obtain ⟨firstDouble, firstIs, _, rfl, rfl⟩ := leftExact
  obtain ⟨secondDouble, secondIs, _, rfl, rfl⟩ := rightExact
  have same : firstIs.signed .positive / secondIs.signed .positive = .ofModel (Float.Model.pack
      (UnpackedFloat.div .binary64 (firstIs.signed .positive).toModel.unpack
        (secondIs.signed .positive).toModel.unpack)) := rfl
  rw [same, firstIs.unpack_signed, secondIs.unpack_signed, isDouble.div_eq firstIs.positive secondIs.positive holds]
  rfl

/-- A natural number that has no more bits than a double is a double. -/
theorem isExactly_toFloat {number : Nat} (some : 0 < number) (small : number < 2 ^ 53) :
    IsExactly number.toUInt64.toFloat number := by
  have bits : number.log2 < 53 := (Nat.log2_lt some.ne').mpr small
  obtain ⟨count, countEq⟩ : ∃ count, number.log2 + count = 52 := ⟨52 - number.log2, by omega⟩
  have large : 2 ^ 52 ≤ number * 2 ^ count := by
    rw [← countEq, pow_add]
    exact Nat.mul_le_mul_right _ (Nat.log2_self_le some.ne')
  have short : number * 2 ^ count < 2 ^ 53 := by
    calc number * 2 ^ count < 2 ^ (number.log2 + 1) * 2 ^ count :=
          Nat.mul_lt_mul_of_pos_right Nat.lt_log2_self (by positivity)
      _ = 2 ^ 53 := by rw [← pow_add, show number.log2 + 1 + count = 53 by omega]
  have isDouble : (Binary.mk (number * 2 ^ count) (-count) (number * 2 ^ count = 2 ^ 52)).IsDouble := by
    constructor <;> simp <;> omega
  have value : (number : Rat) = (number * 2 ^ count : Nat) * 2 ^ (-count : Int) := by
    rw [zpow_neg, zpow_natCast]
    push_cast
    field_simp
  have whole : number.toUInt64.toNat = number := Nat.mod_eq_of_lt (by omega)
  have rounded : UnpackedFloat.ofUInt64 .binary64 number.toUInt64 =
      .finite .positive (number * 2 ^ count) (-count) isDouble.positive := by
    have above : compare (number : Int) 0 = .gt := compare_gt_iff_gt.mpr (by exact_mod_cast some)
    rw [UnpackedFloat.ofUInt64, UnpackedFloat.ofNat, UnpackedFloat.ofInt, UnpackedFloat.normalize, whole, above]
    refine isDouble.round_eq some ?_
    have holds := isDouble.holds_self
    rw [zpow_zero, mul_one]
    exact value ▸ holds
  refine ⟨_, isDouble, large, value, ?_⟩
  rw [IsDouble.signed, ← rounded]
  rfl

/-- The table of powers of ten, checked entry by entry. -/
theorem powers_table : ∀ index : Fin Float.exactlyRepresentablePowersOfTen.size,
    let power := Float.exactlyRepresentablePowersOfTen[index]
    power.isNaN = false ∧ power.isInf = false ∧ power.toBits >>> 63 ≠ 1 ∧
      2 ^ 52 ≤ (ofFloat power).mantissa ∧
        compareScaled 1 index (ofFloat power).mantissa (ofFloat power).exponent = .eq := by
  decide +kernel

/-- The powers of ten in the table are exact. -/
theorem isExactly_power {tens : Nat} (inside : tens < Float.exactlyRepresentablePowersOfTen.size) :
    IsExactly Float.exactlyRepresentablePowersOfTen[tens] (10 ^ tens) := by
  obtain ⟨number, finite, plus, large, same⟩ := powers_table ⟨tens, inside⟩
  rw [compareScaled_eq, compare_eq_iff_eq, Nat.cast_one, one_mul, zpow_natCast] at same
  rcases ofFloat_cases number finite with ⟨zero, _⟩ | ⟨isDouble, value⟩
  · rw [zero] at large
    contradiction
  · rw [signOf_eq, if_neg plus] at value
    exact ⟨_, isDouble, large, same, value⟩

/-! Decimals -/

theorem length_toString (digits : Nat) : (toString digits).length = (Nat.toDigits 10 digits).length := by
  rw [← String.length_toList]
  exact congrArg List.length Nat.toList_repr

theorem length_pos (digits : Nat) : 0 < (toString digits).length := by
  rw [length_toString]
  exact List.length_pos_of_ne_nil Nat.toDigits_ne_nil

theorem lt_pow_length (digits : Nat) : digits < 10 ^ (toString digits).length :=
  (Nat.length_toDigits_le_iff (by decide) (length_pos digits)).mp (length_toString digits).ge

theorem pow_length_le {digits : Nat} (some : 0 < digits) : 10 ^ ((toString digits).length - 1) ≤ digits := by
  by_contra small
  rw [length_toString] at small
  by_cases one : (Nat.toDigits 10 digits).length - 1 = 0
  · rw [one] at small
    omega
  · have shorter := (Nat.length_toDigits_le_iff (by decide) (Nat.pos_of_ne_zero one)).mpr (Nat.not_le.mp small)
    omega

theorem length_le_log2 {digits : Nat} (some : 0 < digits) : (toString digits).length ≤ digits.log2 + 1 := by
  have twos : 2 ^ ((toString digits).length - 1) ≤ digits :=
    le_trans (Nat.pow_le_pow_left (by decide) _) (pow_length_le some)
  have bits := (Nat.le_log2 some.ne').mpr twos
  omega

/-- Three bits are less than a decimal digit. -/
theorem two_zpow_lt {twos tens : Nat} (some : 0 < tens) (enough : twos ≤ 3 * tens) :
    (2 : Rat) ^ (twos : Int) < 10 ^ (tens : Int) := by
  rw [zpow_natCast, zpow_natCast]
  calc (2 : Rat) ^ twos ≤ 2 ^ (3 * tens) := pow_le_pow_right₀ (by norm_num) enough
    _ = 8 ^ tens := by rw [pow_mul]; norm_num
    _ < 10 ^ tens := pow_lt_pow_left₀ (by norm_num) (by norm_num) some.ne'

namespace IsDouble

/-- Values in the range of a double are neither too small nor too large for doubles. -/
theorem bounds (isDouble : double.IsDouble) (holds : double.Holds value) :
    (2 : Rat) ^ (-1075 : Int) ≤ value ∧ value < 2 ^ (1024 : Int) := by
  have power := two_zpow_pos double.exponent
  have scaled : value = value / 2 ^ double.exponent * 2 ^ double.exponent := (div_mul_cancel₀ _ power.ne').symm
  have positive : (1 : Rat) ≤ double.mantissa := by exact_mod_cast isDouble.positive
  have small : (double.mantissa + 1 : Rat) ≤ 2 ^ (53 : Int) := by exact_mod_cast isDouble.small
  have low := isDouble.lowQuarters_ge
  have above := holds.low
  have below := holds.high
  constructor
  · calc (2 : Rat) ^ (-1075 : Int)
      _ = 2 ^ (-1 : Int) * 2 ^ (-1074 : Int) := by rw [← zpow_add₀ (by norm_num)]; norm_num
      _ ≤ 2 ^ (-1 : Int) * 2 ^ double.exponent := by
        gcongr
        · norm_num
        · exact isDouble.least
      _ ≤ value / 2 ^ double.exponent * 2 ^ double.exponent := by
        gcongr
        norm_num
        linarith
      _ = value := scaled.symm
  · calc value = value / 2 ^ double.exponent * 2 ^ double.exponent := scaled
      _ < 2 ^ (53 : Int) * 2 ^ double.exponent := by
        gcongr
        linarith
      _ ≤ 2 ^ (53 : Int) * 2 ^ (971 : Int) := by
        gcongr
        · norm_num
        · exact isDouble.most
      _ = 2 ^ (1024 : Int) := by rw [← zpow_add₀ (by norm_num)]; norm_num

theorem digits_pos (isDouble : double.IsDouble) {digits : Nat} {tens : Int}
    (holds : double.Holds (digits * 10 ^ tens)) : 0 < digits := by
  have above := (isDouble.bounds holds).1
  by_contra none
  rw [Nat.eq_zero_of_not_pos none, Nat.cast_zero, zero_mul] at above
  exact absurd above (not_le.mpr (two_zpow_pos _))

/-- With many digits a decimal is converted by whole numbers. -/
theorem modelOfScientific_eq (isDouble : double.IsDouble) {digits : Nat} {tens : Int} (some : 0 < digits)
    (low : -(2 ^ 11 + digits.log2) ≤ tens) (high : tens ≤ 2 ^ 11) (holds : double.Holds (digits * 10 ^ tens)) :
    UnpackedFloat.ofScientific .binary64 digits tens =
      .finite .positive double.mantissa double.exponent isDouble.positive := by
  have bits : Format.binary64.exponentBits = 11 := rfl
  rw [UnpackedFloat.ofScientific, dif_neg some.ne', bits, if_neg (by omega), if_neg (by omega)]
  split
  · rename_i nonneg
    have lead : digits <<< Format.binary64.mantissaBits = digits * 2 ^ 53 := Nat.shiftLeft_eq _ _
    have value : (digits * 10 ^ tens : Rat) = (digits * 2 ^ 53 : Nat) * 2 ^ (-(Format.binary64.mantissaBits : Int)) *
        ((10 ^ tens.toNat : Nat) * 2 ^ (0 : Int)) := by
      have power := pow_toNat (show 0 < 10 by decide) tens
      rw [show (-tens).toNat = 0 by omega, pow_zero, mul_one, Nat.cast_ofNat] at power
      have room : (Format.binary64.mantissaBits : Int) = (53 : Nat) := rfl
      rw [Nat.cast_pow, Nat.cast_ofNat, power, zpow_neg, room, zpow_natCast, zpow_zero, mul_one]
      push_cast
      field_simp
      norm_num
    rw [value] at holds
    simp only [lead]
    refine isDouble.mul_eq _ _ ?_ holds
    calc 2 ^ 52 ≤ 1 * 2 ^ 53 * 1 := by norm_num
      _ ≤ digits * 2 ^ 53 * 10 ^ tens.toNat :=
        Nat.mul_le_mul (Nat.mul_le_mul_right _ some) (Nat.pos_of_ne_zero (by positivity))
  · rename_i negative
    have value : (digits * 10 ^ tens : Rat) =
        digits * 2 ^ (0 : Int) / ((10 ^ (-tens).toNat : Nat) * 2 ^ (0 : Int)) := by
      have power := pow_toNat (show 0 < 10 by decide) (-tens)
      rw [show (- -tens).toNat = 0 by omega, pow_zero, mul_one, Nat.cast_ofNat] at power
      rw [Nat.cast_pow, Nat.cast_ofNat, power, zpow_zero, mul_one, mul_one, zpow_neg, div_inv_eq_mul]
    rw [value] at holds
    exact isDouble.div_eq _ _ holds

/-- A decimal is converted to the double that holds it. -/
theorem ofScientific_eq (isDouble : double.IsDouble) {digits : Nat} {tens : Int} (some : 0 < digits)
    (low : -(2 ^ 11 + digits.log2) ≤ tens) (high : tens ≤ 2 ^ 11) (holds : double.Holds (digits * 10 ^ tens)) :
    Float.ofScientific digits (tens < 0) tens.natAbs = isDouble.signed .positive := by
  rw [Float.ofScientific]
  split
  · rename_i short
    have exact := isExactly_toFloat some short.1
    have inside : tens.natAbs < Float.exactlyRepresentablePowersOfTen.size := Nat.lt_succ_of_le short.2
    have power := isExactly_power inside
    split
    · rename_i negative
      have scale : tens = -(tens.natAbs : Int) := by
        have less := of_decide_eq_true negative
        omega
      rw [scale, zpow_neg, zpow_natCast, ← div_eq_mul_inv] at holds
      exact isDouble.div_exact exact power holds
    · rename_i nonneg
      have scale : tens = tens.natAbs := by
        have least := of_decide_eq_false (eq_false_of_ne_true nonneg)
        omega
      rw [scale, zpow_natCast] at holds
      exact isDouble.mul_exact exact power holds
  · have same : (if decide (tens < 0) = true then Int.negOfNat tens.natAbs else Int.ofNat tens.natAbs) = tens := by
      simp only [decide_eq_true_eq, Int.negOfNat_eq, Int.ofNat_eq_natCast]
      split <;> omega
    simp only [same, Float.Model.ofScientific, isDouble.modelOfScientific_eq some low high holds]
    rfl

/-- No double holds a decimal that is too small to be read, nor one that is too large. -/
theorem size_ge (isDouble : double.IsDouble) {digits : Nat} {tens : Int}
    (holds : double.Holds (digits * 10 ^ tens)) : -400 ≤ (toString digits).length + tens := by
  by_contra small
  have digitsBelow : (digits : Rat) < 10 ^ ((toString digits).length : Int) := by
    exact_mod_cast lt_pow_length digits
  have value : (digits * 10 ^ tens : Rat) < 2 ^ (-1075 : Int) := by
    calc (digits * 10 ^ tens : Rat) < 10 ^ ((toString digits).length : Int) * 10 ^ tens := by gcongr
      _ = 10 ^ ((toString digits).length + tens) := (zpow_add₀ (by norm_num) _ _).symm
      _ ≤ 10 ^ (-401 : Int) := by
        gcongr
        · norm_num
        · omega
      _ < 2 ^ (-1075 : Int) := by
        rw [zpow_neg, zpow_neg]
        exact inv_strictAnti₀ (two_zpow_pos _) (two_zpow_lt (by decide) (by decide))
  exact absurd (isDouble.bounds holds).1 (not_le.mpr value)

theorem size_le (isDouble : double.IsDouble) {digits : Nat} {tens : Int}
    (holds : double.Holds (digits * 10 ^ tens)) : (toString digits).length + tens ≤ 400 := by
  by_contra large
  have digitsAbove : (10 : Rat) ^ ((toString digits).length - 1 : Int) ≤ digits := by
    have positive := length_pos digits
    have le := pow_length_le (isDouble.digits_pos holds)
    rw [show ((toString digits).length - 1 : Int) = ((toString digits).length - 1 : Nat) by omega, zpow_natCast]
    exact_mod_cast le
  have value : (2 ^ (1024 : Int) : Rat) < digits * 10 ^ tens := by
    calc (2 ^ (1024 : Int) : Rat) < 10 ^ (400 : Int) := two_zpow_lt (by decide) (by decide)
      _ ≤ 10 ^ ((toString digits).length - 1 + tens : Int) := by
        gcongr
        · norm_num
        · omega
      _ = 10 ^ ((toString digits).length - 1 : Int) * 10 ^ tens := zpow_add₀ (by norm_num) _ _
      _ ≤ digits * 10 ^ tens := by gcongr
  exact absurd (isDouble.bounds holds).2 value.not_gt

/-- A decimal is read as the double that holds it. -/
theorem floatOfScientific_eq (isDouble : double.IsDouble) {digits : Nat} {tens : Int}
    (holds : double.Holds (digits * 10 ^ tens)) :
    Number.floatOfScientific digits tens = isDouble.signed .positive := by
  have some := isDouble.digits_pos holds
  have ge := isDouble.size_ge holds
  have le := isDouble.size_le holds
  have length := length_le_log2 some
  have inside : ¬ (digits = 0 ∨ (toString digits).length + tens < -400) := by omega
  rw [Number.floatOfScientific, if_neg inside, if_neg (by omega)]
  exact isDouble.ofScientific_eq some (by omega) (by omega) holds

end IsDouble

end Binary

end OutreachFlow
