import OutreachFlow.Proofs.Decimal.Rounding

/-! Doubles as bits. A double is fixed by its sign and its magnitude, where it has one: a finite double is a zero or
`mantissa * 2 ^ exponent` with a sign, and there is one double only that is no number. -/
namespace OutreachFlow

open Float.Model Float.Model.UnpackedFloat

namespace Binary

/-! Parts of the bits -/

/-- The sign of a double, read off its bits. -/
def signOf (value : Float) : Sign := Sign.ofBitVec (@unpackSign .binary64 value.toBits.toBitVec)

def exponentBits (value : Float) : BitVec 11 := @unpackExponent .binary64 value.toBits.toBitVec

def fractionBits (value : Float) : BitVec 52 := @unpackMantissa .binary64 value.toBits.toBitVec

theorem toNat_exponentBits_lt {value : Float} (notAll : exponentBits value ≠ -1#11) :
    (exponentBits value).toNat < 2047 := by
  have bound : (exponentBits value).toNat < 2 ^ 11 := (exponentBits value).isLt
  have most : (-1#11).toNat = 2047 := by decide
  have other : (exponentBits value).toNat ≠ 2047 := fun same => notAll (BitVec.eq_of_toNat_eq (same.trans most.symm))
  omega

theorem toNat_fractionBits_lt (value : Float) : (fractionBits value).toNat < 2 ^ 52 := (fractionBits value).isLt

theorem signOf_eq (value : Float) : signOf value = if value.toBits >>> 63 = 1 then .negative else .positive := by
  have bit : (@unpackSign .binary64 value.toBits.toBitVec).toNat = (value.toBits >>> 63).toNat := by
    have small : value.toBits.toNat >>> 63 < 2 := by
      rw [Nat.shiftRight_eq_div_pow]
      have bound := value.toBits.toNat_lt
      omega
    simp only [unpackSign, BitVec.toNat_cast, BitVec.extractLsb_toNat, UInt64.toNat_shiftRight]
    exact Nat.mod_eq_of_lt small
  rw [signOf]
  generalize @unpackSign .binary64 value.toBits.toBitVec = sign at bit
  have same : value.toBits >>> 63 = 1 ↔ sign = 1#1 := by
    rw [← UInt64.toNat_inj, ← BitVec.toNat_inj, bit]
    rfl
  simp only [same]
  rcases BitVec.eq_zero_or_eq_one sign with rfl | rfl <;> rfl

/-- The magnitude of a double by the parts of its bits. -/
theorem ofFloat_eq (value : Float) : ofFloat value =
    if (exponentBits value).toNat = 0 then ⟨(fractionBits value).toNat, -1074, false⟩
    else ⟨2 ^ 52 + (fractionBits value).toNat, (exponentBits value).toNat - 1075,
      (fractionBits value).toNat = 0 ∧ 1 < (exponentBits value).toNat⟩ := by
  have exponent : ((value.toBits >>> 52) &&& 0x7FF).toNat = (exponentBits value).toNat := by
    have cut := Nat.and_two_pow_sub_one_eq_mod (value.toBits.toNat >>> 52) 11
    simp only [UInt64.toNat_and, UInt64.toNat_shiftRight, exponentBits, unpackExponent, BitVec.toNat_cast,
      BitVec.extractLsb_toNat]
    exact cut
  have fraction : (value.toBits &&& 0xFFFFFFFFFFFFF).toNat = (fractionBits value).toNat := by
    have cut := Nat.and_two_pow_sub_one_eq_mod value.toBits.toNat 52
    simp only [UInt64.toNat_and, fractionBits, unpackMantissa, BitVec.toNat_cast, BitVec.extractLsb_toNat]
    exact cut
  rw [ofFloat, exponent, fraction]
  rfl

/-! Packing -/

/-- The exponent as it is packed. -/
def biased (double : Binary) : Nat := if 2 ^ 52 ≤ double.mantissa then (double.exponent + 1075).toNat else 0

theorem toNat_lead (fraction : BitVec 52) : (1#1 ++ fraction).toNat = 2 ^ 52 + fraction.toNat := by
  rw [BitVec.toNat_append, ← Nat.shiftLeft_add_eq_or_of_lt fraction.isLt]
  rfl

/-- A zero with a sign. -/
def signedZero (sign : Sign) : Float := .ofModel (Float.Model.pack (.zero sign))

theorem neg_signedZero : -signedZero .positive = signedZero .negative := by
  decide +kernel

namespace IsDouble

variable {double : Binary}

/-- The double of a magnitude and a sign. -/
def signed (isDouble : double.IsDouble) (sign : Sign) : Float :=
  .ofModel (Float.Model.pack (.finite sign double.mantissa double.exponent isDouble.positive))

theorem biased_lt (isDouble : double.IsDouble) : double.biased < 2047 := by
  have most := isDouble.most
  rw [biased]
  split <;> omega

theorem toBits_signed (isDouble : double.IsDouble) (sign : Sign) : (isDouble.signed sign).toBits.toBitVec =
    packComponents .binary64 sign (BitVec.ofNat 11 double.biased) (BitVec.ofNat 52 double.mantissa) := by
  have least := isDouble.least
  have most := isDouble.most
  have bits : double.mantissa.log2 < 53 := (Nat.log2_lt isDouble.positive.ne').mpr isDouble.small
  have full : 52 ≤ double.mantissa.log2 ↔ 2 ^ 52 ≤ double.mantissa := Nat.le_log2 isDouble.positive.ne'
  have bias : Format.binary64.exponentBias = 1023 := by decide
  have room : Format.binary64.mantissaBits = 53 := by decide
  change UnpackedFloat.pack .binary64 (.finite sign double.mantissa double.exponent isDouble.positive) = _
  simp only [UnpackedFloat.pack, bias, room]
  rw [if_neg (by omega)]
  by_cases large : 2 ^ 52 ≤ double.mantissa
  · have lead := full.mpr large
    rw [if_pos (by omega), biased, if_pos large, add_assoc]
    rfl
  · have lead := mt full.mp large
    rw [if_neg (by omega), biased, if_neg large]

/-- A double is unpacked as it was packed. -/
theorem unpack_signed (isDouble : double.IsDouble) (sign : Sign) : (isDouble.signed sign).toModel.unpack =
    .finite sign double.mantissa double.exponent isDouble.positive := by
  have lt := isDouble.biased_lt
  have positive := isDouble.positive
  have small := isDouble.small
  have least := isDouble.least
  have bias : Format.binary64.exponentBias = 1023 := by decide
  have exponent : (BitVec.ofNat 11 double.biased).toNat = double.biased := by
    rw [BitVec.toNat_ofNat, Nat.mod_eq_of_lt (by omega)]
  have notAll : BitVec.ofNat 11 double.biased ≠ -1#11 := by
    intro all
    rw [all] at exponent
    have ones : (-1#11).toNat = 2047 := by decide
    omega
  have zero : BitVec.ofNat 11 double.biased = 0#11 ↔ double.biased = 0 := by
    rw [← BitVec.toNat_inj, exponent]
    rfl
  have packed : (isDouble.signed sign).toModel.toBits.toBitVec =
      packComponents .binary64 sign (BitVec.ofNat 11 double.biased) (BitVec.ofNat 52 double.mantissa) :=
    isDouble.toBits_signed sign
  rw [Float.Model.unpack, packed, UnpackedFloat.unpack]
  simp only [unpackMantissa_packComponents, unpackExponent_packComponents, unpackSign_packComponents,
    Sign.ofBitVec_toBitVec, if_neg notAll, exponent, bias, toNat_lead, BitVec.toNat_ofNat, zero]
  by_cases large : 2 ^ 52 ≤ double.mantissa
  · have biased : (double.biased : Int) = double.exponent + 1075 := by
      rw [Binary.biased, if_pos large]
      omega
    rw [if_neg (by omega)]
    simp only [biased, UnpackedFloat.finite.injEq, true_and]
    omega
  · have biased : double.biased = 0 := if_neg large
    have subnormal := isDouble.full.resolve_right large
    have same : (BitVec.ofNat 52 double.mantissa).toNat = double.mantissa :=
      Nat.mod_eq_of_lt (Nat.not_le.mp large)
    have nonzero : BitVec.ofNat 52 double.mantissa ≠ 0#52 := by
      intro none
      rw [none] at same
      exact positive.ne same
    rw [if_pos biased, dif_neg nonzero]
    simp only [BitVec.toNat_ofNat] at same
    simp only [biased, same, subnormal, UnpackedFloat.finite.injEq, true_and]
    norm_num

theorem neg_signed (isDouble : double.IsDouble) : -isDouble.signed .positive = isDouble.signed .negative := by
  have same : -isDouble.signed .positive =
      .ofModel (Float.Model.pack (UnpackedFloat.neg (isDouble.signed .positive).toModel.unpack)) := rfl
  rw [same, isDouble.unpack_signed]
  rfl

end IsDouble

/-! Kinds of doubles -/

/-- A double is unpacked by the parts of its bits. -/
theorem unpack_eq (value : Float) : value.toModel.unpack =
    if exponentBits value = -1#11 then
      if fractionBits value = 0#52 then .infinity (signOf value) else .notANumber
    else if some : 0 < (ofFloat value).mantissa then
      .finite (signOf value) (ofFloat value).mantissa (ofFloat value).exponent some
    else .zero (signOf value) := by
  have parts := ofFloat_eq value
  have unpacked : value.toModel.unpack = UnpackedFloat.unpack .binary64 value.toBits.toBitVec := rfl
  rw [unpacked, UnpackedFloat.unpack]
  change (if exponentBits value = -1#11 then _ else if exponentBits value = 0#11 then _ else _) = _
  refine if_congr Iff.rfl rfl ?_
  by_cases least : exponentBits value = 0#11
  · rw [least, if_pos (by decide)] at parts
    rw [if_pos least]
    by_cases none : fractionBits value = 0#52
    · rw [dif_pos (by exact none), dif_neg (by rw [parts, none]; decide)]
      rfl
    · have some : 0 < (fractionBits value).toNat :=
        Nat.pos_of_ne_zero fun zero => none (BitVec.eq_of_toNat_eq zero)
      rw [dif_neg (by exact none), dif_pos (by rwa [parts]), UnpackedFloat.finite.injEq, parts]
      refine ⟨rfl, rfl, ?_⟩
      change ((exponentBits value).toNat : Int) - (1023 + 52) + 1 = -1074
      rw [least]
      decide
  · have some : (exponentBits value).toNat ≠ 0 := fun zero => least (BitVec.eq_of_toNat_eq zero)
    rw [if_neg some] at parts
    rw [if_neg least, dif_pos (by rw [parts]; positivity), UnpackedFloat.finite.injEq, parts]
    refine ⟨rfl, toNat_lead _, rfl⟩

theorem eq_pack (value : Float) : value = .ofModel (Float.Model.pack value.toModel.unpack) :=
  Float.toBits_inj.mp (UInt64.toBitVec_inj.mp (pack_unpack_of_valid value.toModel.valid).symm)

/-- A double that is no number is the one that has no number. -/
theorem eq_nan {value : Float} (nan : value.isNaN = true) : value = 0.0 / 0.0 := by
  rw [Float.isNaN_eq_decide_eq_nan, decide_eq_true_eq] at nan
  rw [nan]
  decide +kernel

theorem eq_infinity {value : Float} (infinite : value.isInf = true) :
    value = if value.toBits >>> 63 = 1 then -(1.0 / 0.0) else 1.0 / 0.0 := by
  have unpacked : value.toModel.unpack = .infinity (signOf value) := by
    rw [Float.isInf, Float.Model.isInf, unpack_eq] at infinite
    rw [unpack_eq]
    repeat' split at infinite
    · rw [if_pos ‹_›, if_pos ‹_›]
    all_goals contradiction
  have packed := eq_pack value
  rw [unpacked, signOf_eq] at packed
  conv_lhs => rw [packed]
  split <;> decide +kernel

/-- A finite double is a zero or has the magnitude of a double. -/
theorem ofFloat_cases {value : Float} (number : value.isNaN = false) (finite : value.isInf = false) :
    (ofFloat value).mantissa = 0 ∧ value = signedZero (signOf value) ∨
      ∃ isDouble : (ofFloat value).IsDouble, value = isDouble.signed (signOf value) := by
  have packed := eq_pack value
  rw [Float.isNaN, Float.Model.isNaN] at number
  rw [Float.isInf, Float.Model.isInf] at finite
  rw [unpack_eq] at packed number finite
  by_cases all : exponentBits value = -1#11
  · rw [if_pos all] at number finite
    split at number
    · rw [if_pos ‹_›] at finite
      contradiction
    · contradiction
  · rw [if_neg all] at packed
    have small := toNat_exponentBits_lt all
    have short := toNat_fractionBits_lt value
    by_cases some : 0 < (ofFloat value).mantissa
    · rw [dif_pos some] at packed
      have isDouble : (ofFloat value).IsDouble := by
        rw [ofFloat_eq] at some ⊢
        split at some
        · rw [if_pos ‹_›]
          constructor <;> simp <;> omega
        · rw [if_neg ‹_›]
          constructor <;> simp <;> omega
      exact .inr ⟨isDouble, packed⟩
    · rw [dif_neg some] at packed
      exact .inl ⟨Nat.eq_zero_of_not_pos some, packed⟩

end Binary

end OutreachFlow
