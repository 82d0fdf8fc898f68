import Mathlib
import OutreachFlow.Decimal.Binary

/-! How doubles are rounded. A mantissa with the bits that were cut off behind it stands for an exact amount, and
what is rounded is the number nearest to it, from the middle the even one. So whatever stands for a value in the range
of a double is rounded to that double, however many bits it comes with. -/
namespace OutreachFlow

open Float.Model Float.Model.UnpackedFloat

/-- The mantissa and the bits behind it are those of this amount. -/
structure Cuts (cut : ExtendedMantissa) (amount : Rat) : Prop where
  low : 2 * cut.mantissa + cut.roundBit.toNat ≤ 2 * amount
  high : 2 * amount < 2 * cut.mantissa + cut.roundBit.toNat + 1
  sticky : cut.stickyBit = false ↔ 2 * amount = 2 * cut.mantissa + cut.roundBit.toNat

namespace Cuts

variable {cut : ExtendedMantissa} {amount : Rat}

theorem shiftRightOne (cuts : Cuts cut amount) : Cuts cut.shiftRightOne (amount / 2) := by
  obtain ⟨mantissa, roundBit, stickyBit⟩ := cut
  obtain ⟨low, high, sticky⟩ := cuts
  have halves : 2 * ((mantissa / 2 : Nat) : Rat) + ((mantissa % 2 != 0).toNat : Nat) = mantissa := by
    have bit : (mantissa % 2 != 0).toNat = mantissa % 2 := by
      rcases Nat.mod_two_eq_zero_or_one mantissa with same | same <;> simp [same]
    rw [bit]
    exact_mod_cast Nat.div_add_mod mantissa 2
  have bit : (roundBit.toNat : Rat) = 0 ∨ (roundBit.toNat : Rat) = 1 := by
    cases roundBit <;> simp
  simp only at low high sticky
  refine ⟨?_, ?_, ?_⟩ <;> simp only [ExtendedMantissa.shiftRightOne, halves]
  · rcases bit with bit | bit <;> rw [bit] at low <;> linarith
  · rcases bit with bit | bit <;> rw [bit] at high <;> linarith
  · cases roundBit with
    | false =>
      simp only [Bool.toNat_false, Nat.cast_zero, add_zero, Bool.false_or] at sticky ⊢
      rw [sticky]
      constructor <;> intro same <;> linarith
    | true =>
      simp only [Bool.toNat_true, Nat.cast_one] at low
      simp only [Bool.true_or, Bool.true_eq_false, false_iff]
      intro same
      linarith

theorem shiftRight (cuts : Cuts cut amount) (count : Nat) : Cuts (cut >>> count) (amount / 2 ^ count) := by
  induction count with
  | zero => simpa [HShiftRight.hShiftRight, Nat.repeat] using cuts
  | succ count ih =>
    have next := ih.shiftRightOne
    rw [div_div, ← pow_succ] at next
    exact next

end Cuts

/-- To the nearest number, and from the middle to the even one. -/
structure RoundsTo (amount : Rat) (rounded : Nat) : Prop where
  low : 2 * rounded ≤ 2 * amount + 1
  high : 2 * amount ≤ 2 * rounded + 1
  even : 2 * amount + 1 = 2 * rounded ∨ 2 * amount = 2 * rounded + 1 → rounded % 2 = 0

theorem RoundsTo.unique {amount : Rat} {first second : Nat} (rounds : RoundsTo amount first)
    (other : RoundsTo amount second) : first = second := by
  have le : (first : Rat) ≤ second + 1 := by linarith [rounds.low, other.high]
  have ge : (second : Rat) ≤ first + 1 := by linarith [other.low, rounds.high]
  have le' : first ≤ second + 1 := by exact_mod_cast le
  have ge' : second ≤ first + 1 := by exact_mod_cast ge
  by_contra different
  rcases Nat.lt_or_gt_of_ne different with less | more
  · obtain rfl : second = first + 1 := by omega
    have middle : 2 * amount = 2 * first + 1 := by
      have := rounds.high
      have := other.low
      push_cast at *
      linarith
    have even := rounds.even (.inr middle)
    have odd := other.even (.inl (by push_cast; linarith))
    omega
  · obtain rfl : first = second + 1 := by omega
    have middle : 2 * amount = 2 * second + 1 := by
      have := other.high
      have := rounds.low
      push_cast at *
      linarith
    have even := other.even (.inr middle)
    have odd := rounds.even (.inl (by push_cast; linarith))
    omega

/-- What is nearer than any middle is rounded to. -/
theorem RoundsTo.of_near {amount : Rat} {rounded : Nat} (low : 2 * rounded < 2 * amount + 1)
    (high : 2 * amount < 2 * rounded + 1) : RoundsTo amount rounded := by
  refine ⟨low.le, high.le, ?_⟩
  rintro (same | same)
  · exact absurd same low.ne'
  · exact absurd same high.ne

theorem Cuts.rounded {cut : ExtendedMantissa} {amount : Rat} (cuts : Cuts cut amount) :
    RoundsTo amount cut.roundedMantissa := by
  obtain ⟨mantissa, roundBit, stickyBit⟩ := cut
  obtain ⟨low, high, sticky⟩ := cuts
  simp only at low high sticky
  cases roundBit with
  | false =>
    -- Nothing is added below the middle.
    simp only [Bool.toNat_false, Nat.cast_zero, add_zero] at low high
    have stays : (ExtendedMantissa.mk mantissa false stickyBit).roundedMantissa = mantissa := by
      cases stickyBit <;> rfl
    rw [stays]
    exact .of_near (by linarith) high
  | true =>
    simp only [Bool.toNat_true, Nat.cast_one] at low high sticky
    cases stickyBit with
    | true =>
      have above : 2 * mantissa + 1 < 2 * amount := lt_of_le_of_ne low fun same => by
        simpa using sticky.mpr same.symm
      refine .of_near ?_ ?_ <;>
        · simp only [ExtendedMantissa.roundedMantissa, ExtendedMantissa.accuracy, Accuracy.roundToNearestEven]
          push_cast
          linarith
    | false =>
      have middle : 2 * amount = 2 * mantissa + 1 := sticky.mp rfl
      have evens : (ExtendedMantissa.mk mantissa true false).roundedMantissa = mantissa + mantissa % 2 := rfl
      have bit : ((mantissa % 2 : Nat) : Rat) = 0 ∨ ((mantissa % 2 : Nat) : Rat) = 1 := by
        exact_mod_cast Nat.mod_two_eq_zero_or_one mantissa
      rw [evens]
      refine ⟨?_, ?_, fun _ => by omega⟩ <;>
        · push_cast at bit ⊢
          rcases bit with bit | bit <;> rw [bit] <;> linarith

/-! Exponents -/

/-- A value is cut off to this mantissa, as accurately as is said. -/
def Describes (mantissa : Nat) (exponent : Int) (accuracy : Accuracy) (value : Rat) : Prop :=
  Cuts (.ofMantissaAndAccuracy mantissa accuracy) (value / 2 ^ exponent)

theorem two_zpow_pos (exponent : Int) : (0 : Rat) < 2 ^ exponent := zpow_pos (by norm_num) exponent

theorem describes_exact (mantissa : Nat) (exponent : Int) :
    Describes mantissa exponent .exact (mantissa * 2 ^ exponent) := by
  have same : (mantissa * 2 ^ exponent / 2 ^ exponent : Rat) = mantissa :=
    mul_div_cancel_right₀ _ (two_zpow_pos exponent).ne'
  rw [Describes, same]
  constructor <;> simp [ExtendedMantissa.ofMantissaAndAccuracy]

/-- Where an amount between two numbers stands to the middle of them. -/
def StandsTo (amount middle : Rat) : Ordering → Prop
  | .lt => amount < middle
  | .eq => amount = middle
  | .gt => middle < amount

theorem cuts_inexact {mantissa : Nat} {amount : Rat} {order : Ordering} (beyond : mantissa < amount)
    (under : amount < mantissa + 1) (stands : StandsTo (2 * amount) (2 * mantissa + 1) order) :
    Cuts (.ofMantissaAndAccuracy mantissa (.inexact order)) amount := by
  cases order <;> simp only [StandsTo] at stands <;>
    refine ⟨?_, ?_, ?_⟩ <;> simp only [ExtendedMantissa.ofMantissaAndAccuracy, Bool.toNat_false, Bool.toNat_true,
      Nat.cast_zero, Nat.cast_one, Bool.true_eq_false, false_iff, true_iff] <;> linarith

/-- A quotient is described by what division gives. -/
theorem describes_quotient (dividend : Nat) {divisor : Nat} (positive : 0 < divisor) (exponent : Int) :
    Describes (dividend / divisor) exponent (accuracyOfFraction (dividend % divisor) divisor)
      (dividend / divisor * 2 ^ exponent) := by
  have same : (dividend / divisor * 2 ^ exponent / 2 ^ exponent : Rat) = dividend / divisor :=
    mul_div_cancel_right₀ _ (two_zpow_pos exponent).ne'
  have above : (0 : Rat) < divisor := by exact_mod_cast positive
  have less : ((dividend % divisor : Nat) : Rat) < divisor := by
    exact_mod_cast Nat.mod_lt dividend positive
  have amount : (dividend / divisor : Rat) =
      (dividend / divisor : Nat) + ((dividend % divisor : Nat) : Rat) / divisor := by
    have divided : (dividend : Rat) = (dividend / divisor : Nat) * divisor + (dividend % divisor : Nat) := by
      exact_mod_cast (Nat.div_add_mod' dividend divisor).symm
    rw [eq_comm, eq_div_iff above.ne', add_mul, div_mul_cancel₀ _ above.ne', ← divided]
  rw [Describes, same, amount]
  generalize dividend / divisor = quotient
  generalize dividend % divisor = rest at less ⊢
  have below : (rest / divisor : Rat) < 1 := (div_lt_one above).mpr less
  rw [accuracyOfFraction]
  split
  · rename_i nothing
    subst nothing
    constructor <;> simp [ExtendedMantissa.ofMantissaAndAccuracy]
  · have some : (0 : Rat) < rest / divisor := by positivity
    refine cuts_inexact (by linarith) (by linarith) ?_
    cases order : compare (2 * rest) divisor with
    | lt =>
      have small : (2 * rest : Rat) < divisor := by exact_mod_cast Nat.compare_eq_lt.mp order
      have under : 2 * (rest / divisor : Rat) < 1 := by rwa [← mul_div_assoc, div_lt_one above]
      show _ < _
      linarith
    | eq =>
      have middle : (2 * rest : Rat) = divisor := by exact_mod_cast Nat.compare_eq_eq.mp order
      have exactly : 2 * (rest / divisor : Rat) = 1 := by rwa [← mul_div_assoc, div_eq_one_iff_eq above.ne']
      show _ = _
      linarith
    | gt =>
      have large : (divisor : Rat) < 2 * rest := by exact_mod_cast Nat.compare_eq_gt.mp order
      have beyond : 1 < 2 * (rest / divisor : Rat) := by rwa [← mul_div_assoc, one_lt_div above]
      show _ < _
      linarith

/-! Doubles -/

/-- The exponent with which a value has as many bits as a double, or the least one. -/
structure Fits (value : Rat) (exponent : Int) : Prop where
  least : -1074 ≤ exponent
  below : value / 2 ^ exponent < 2 ^ 53
  full : exponent = -1074 ∨ 2 ^ 52 ≤ value / 2 ^ exponent

/-- The exponent at which a mantissa has 53 bits, or the least one. -/
def endExponent (mantissa : Nat) (exponent : Int) : Int := max (mantissa.log2 + exponent - 52) (-1074)

theorem targetExponent_eq (mantissa : Nat) (exponent : Int) :
    Format.binary64.targetExponent (totalExponent mantissa exponent) = endExponent mantissa exponent := by
  simp only [Format.targetExponent, totalExponent, Format.mantissaBits, Format.minExponent, endExponent]
  norm_num
  ring_nf

theorem Cuts.bounds {cut : ExtendedMantissa} {amount : Rat} (cuts : Cuts cut amount) :
    cut.mantissa ≤ amount ∧ amount < cut.mantissa + 1 := by
  obtain ⟨low, high, _⟩ := cuts
  cases bit : cut.roundBit <;>
    simp only [bit, Bool.toNat_false, Bool.toNat_true, Nat.cast_zero, Nat.cast_one] at low high <;>
    constructor <;> linarith

theorem mantissa_ofMantissaAndAccuracy (mantissa : Nat) (accuracy : Accuracy) :
    (ExtendedMantissa.ofMantissaAndAccuracy mantissa accuracy).mantissa = mantissa := by
  cases accuracy with
  | exact => rfl
  | inexact order => cases order <;> rfl

theorem div_two_zpow_add (value : Rat) (exponent : Int) (count : Nat) :
    value / 2 ^ (exponent + count) = value / 2 ^ exponent / 2 ^ count := by
  rw [div_div, zpow_add₀ (by norm_num), zpow_natCast]

/-- A value that is described with bits enough is cut off where a double ends. -/
theorem Describes.shiftToTargetExponent {mantissa : Nat} {exponent : Int} {accuracy : Accuracy} {value : Rat}
    (describes : Describes mantissa exponent accuracy value) (enough : exponent ≤ endExponent mantissa exponent) :
    ∃ cut, UnpackedFloat.shiftToTargetExponent .binary64 mantissa exponent accuracy =
        (cut, endExponent mantissa exponent) ∧ Cuts cut (value / 2 ^ endExponent mantissa exponent) ∧
      Fits value (endExponent mantissa exponent) := by
  obtain ⟨count, ends⟩ := Int.eq_ofNat_of_zero_le (Int.sub_nonneg.mpr enough)
  replace ends : endExponent mantissa exponent = exponent + count := by omega
  have steps : (endExponent mantissa exponent - exponent).toNat = count := by omega
  obtain ⟨low, high⟩ := describes.bounds
  rw [mantissa_ofMantissaAndAccuracy] at low high
  refine ⟨ExtendedMantissa.ofMantissaAndAccuracy mantissa accuracy >>> count, ?_, ?_, ?_⟩
  · rw [UnpackedFloat.shiftToTargetExponent, targetExponent_eq, shiftToExponent, steps, ends]
  · rw [ends, div_two_zpow_add]
    exact describes.shiftRight count
  · have shift : value / 2 ^ endExponent mantissa exponent = value / 2 ^ exponent / 2 ^ count := by
      rw [ends, div_two_zpow_add]
    have power : (0 : Rat) < 2 ^ count := by positivity
    refine ⟨le_max_right _ _, ?_, ?_⟩
    · have bits : mantissa + 1 ≤ 2 ^ (53 + count) := by
        have more : mantissa.log2 + 1 ≤ 53 + count := by
          rw [endExponent] at ends
          omega
        exact le_trans Nat.lt_log2_self (Nat.pow_le_pow_right (by decide) more)
      have bits' : (mantissa + 1 : Rat) ≤ 2 ^ 53 * 2 ^ count := by
        rw [← pow_add]
        exact_mod_cast bits
      rw [shift, div_lt_iff₀ power]
      linarith
    · by_cases least : endExponent mantissa exponent = -1074
      · exact .inl least
      · have bits : mantissa.log2 = 52 + count := by
          rw [endExponent] at ends least
          omega
        have something : mantissa ≠ 0 := by
          rintro rfl
          rw [Nat.log2_zero] at bits
          omega
        have full : 2 ^ (52 + count) ≤ mantissa := bits ▸ Nat.log2_self_le something
        have full' : (2 ^ 52 * 2 ^ count : Rat) ≤ mantissa := by
          rw [← pow_add]
          exact_mod_cast full
        refine .inr ?_
        rw [shift, le_div_iff₀ power]
        linarith

/-- The magnitude of a finite double that is not zero. -/
structure Binary.IsDouble (double : Binary) : Prop where
  positive : 0 < double.mantissa
  small : double.mantissa < 2 ^ 53
  least : -1074 ≤ double.exponent
  most : double.exponent ≤ 971
  full : double.exponent = -1074 ∨ 2 ^ 52 ≤ double.mantissa
  narrow : double.narrowBelow = true ↔ double.mantissa = 2 ^ 52 ∧ -1074 < double.exponent

namespace Binary

variable {double : Binary} {value : Rat} {exponent : Int}

/-- Where the values begin that are rounded to a double, in quarters of its last place. -/
def lowQuarters (double : Binary) : Nat :=
  if double.narrowBelow then 4 * double.mantissa - 1 else 4 * double.mantissa - 2

/-- The value is one of those that are rounded to the double. -/
structure Holds (double : Binary) (value : Rat) : Prop where
  low : double.lowQuarters ≤ 4 * (value / 2 ^ double.exponent)
  high : 4 * (value / 2 ^ double.exponent) ≤ 4 * double.mantissa + 2
  closed : 4 * (value / 2 ^ double.exponent) = double.lowQuarters ∨
    4 * (value / 2 ^ double.exponent) = 4 * double.mantissa + 2 → double.mantissa % 2 = 0

theorem IsDouble.lowQuarters_ge (isDouble : double.IsDouble) :
    (4 * double.mantissa - 2 : Rat) ≤ double.lowQuarters := by
  have positive := isDouble.positive
  have bound : 4 * double.mantissa ≤ double.lowQuarters + 2 := by
    unfold lowQuarters
    split <;> omega
  have bound' : (4 * double.mantissa : Rat) ≤ double.lowQuarters + 2 := by exact_mod_cast bound
  linarith

theorem IsDouble.rounds_same (isDouble : double.IsDouble) (holds : double.Holds value) :
    RoundsTo (value / 2 ^ double.exponent) double.mantissa := by
  have ge := isDouble.lowQuarters_ge
  obtain ⟨low, high, closed⟩ := holds
  refine ⟨by linarith, by linarith, ?_⟩
  rintro (same | same)
  · exact closed (.inl (by linarith))
  · exact closed (.inr (by linarith))

/-- With one more bit the values just below a power of two are rounded to that power. -/
theorem IsDouble.rounds_below (isDouble : double.IsDouble) (holds : double.Holds value)
    (narrow : double.narrowBelow = true) (below : value / 2 ^ double.exponent < double.mantissa) :
    RoundsTo (2 * (value / 2 ^ double.exponent)) (2 * double.mantissa) := by
  have positive := isDouble.positive
  have lowest : double.lowQuarters + 1 = 4 * double.mantissa := by
    rw [lowQuarters, if_pos narrow]
    omega
  have lowest' : (double.lowQuarters + 1 : Rat) = 4 * double.mantissa := by exact_mod_cast lowest
  have low := holds.low
  refine ⟨?_, ?_, fun _ => by omega⟩ <;>
    · push_cast
      linarith

theorem IsDouble.exponent_le_of_fits (isDouble : double.IsDouble) (holds : double.Holds value)
    (fits : Fits value exponent) : exponent ≤ double.exponent := by
  by_contra more
  have small : (double.mantissa + 1 : Rat) ≤ 2 ^ 53 := by exact_mod_cast isDouble.small
  have high := holds.high
  have full := fits.full.resolve_left (by have := isDouble.least; omega)
  obtain ⟨count, steps⟩ := Int.eq_ofNat_of_zero_le (show 0 ≤ exponent - double.exponent - 1 by omega)
  have shift : value / 2 ^ exponent = value / 2 ^ double.exponent / 2 ^ (count + 1) := by
    rw [show exponent = double.exponent + (count + 1 : Nat) by push_cast; omega, div_two_zpow_add]
  have power : (0 : Rat) < 2 ^ (count + 1) := by positivity
  rw [shift, le_div_iff₀ power, pow_succ (2 : Rat) count] at full
  have twice : (1 : Rat) ≤ 2 ^ count := one_le_pow₀ (by norm_num)
  linarith

/-- A value fits with one more bit than its double only just below a power of two. -/
theorem IsDouble.narrow_of_fits (isDouble : double.IsDouble) (holds : double.Holds value) (fits : Fits value exponent)
    (less : exponent < double.exponent) : exponent + 1 = double.exponent ∧ double.narrowBelow = true ∧
      value / 2 ^ double.exponent < double.mantissa := by
  have low := holds.low
  have ge := isDouble.lowQuarters_ge
  have large : 2 ^ 52 ≤ double.mantissa := isDouble.full.resolve_left (by have := fits.least; omega)
  have large' : (2 ^ 52 : Rat) ≤ double.mantissa := by exact_mod_cast large
  obtain ⟨count, steps⟩ := Int.eq_ofNat_of_zero_le (show 0 ≤ double.exponent - exponent - 1 by omega)
  have shift : value / 2 ^ exponent = value / 2 ^ double.exponent * 2 * 2 ^ count := by
    rw [show double.exponent = exponent + (count + 1 : Nat) by push_cast; omega, div_two_zpow_add, pow_succ]
    field_simp
  have below := fits.below
  rw [shift] at below
  cases count with
  | zero =>
    rw [pow_zero, mul_one] at below
    -- A double with further bits would be too large.
    have power : double.mantissa = 2 ^ 52 := by
      refine Nat.le_antisymm (Nat.le_of_not_lt fun further => ?_) large
      have further' : (2 ^ 52 + 1 : Rat) ≤ double.mantissa := by exact_mod_cast further
      linarith
    exact ⟨by push_cast at steps; omega, isDouble.narrow.mpr ⟨power, by have := fits.least; omega⟩, by linarith⟩
  | succ count =>
    have twice : (1 : Rat) ≤ 2 ^ count := one_le_pow₀ (by norm_num)
    have grown : (2 ^ 52 - 1 : Rat) * 2 * 2 ≤ value / 2 ^ double.exponent * 2 * 2 ^ (count + 1) := by
      rw [pow_succ (2 : Rat) count]
      nlinarith
    linarith

/-- A value that is rounded where it fits is rounded to the double that holds it. -/
theorem IsDouble.rounds (isDouble : double.IsDouble) (holds : double.Holds value) (fits : Fits value exponent)
    {rounded : Nat} (rounds : RoundsTo (value / 2 ^ exponent) rounded) :
    ∃ count : Nat, rounded = double.mantissa * 2 ^ count ∧ exponent + count = double.exponent := by
  rcases (isDouble.exponent_le_of_fits holds fits).lt_or_eq with less | rfl
  · obtain ⟨next, narrow, below⟩ := isDouble.narrow_of_fits holds fits less
    have shift : value / 2 ^ exponent = 2 * (value / 2 ^ double.exponent) := by
      rw [← next, show exponent + 1 = exponent + (1 : Nat) from rfl, div_two_zpow_add, pow_one]
      ring
    rw [shift] at rounds
    refine ⟨1, ?_, next⟩
    rw [rounds.unique (isDouble.rounds_below holds narrow below), pow_one, Nat.mul_comm]
  · exact ⟨0, by rw [rounds.unique (isDouble.rounds_same holds), pow_zero, Nat.mul_one], by simp⟩

end Binary

theorem log2_mul_two_pow {number : Nat} (positive : 0 < number) (count : Nat) :
    (number * 2 ^ count).log2 = number.log2 + count := by
  induction count with
  | zero => simp
  | succ count ih =>
    have more : number * 2 ^ count ≠ 0 := (Nat.mul_pos positive (Nat.two_pow_pos count)).ne'
    rw [Nat.pow_succ', Nat.mul_left_comm, Nat.log2_two_mul more, ih, Nat.add_assoc]

namespace Binary.IsDouble

variable {double : Binary}

theorem endExponent_eq (isDouble : double.IsDouble) :
    endExponent double.mantissa double.exponent = double.exponent := by
  have bits : double.mantissa.log2 < 53 := (Nat.log2_lt isDouble.positive.ne').mpr isDouble.small
  have least := isDouble.least
  rw [endExponent]
  rcases isDouble.full with same | large
  · omega
  · have full : 52 ≤ double.mantissa.log2 := (Nat.le_log2 isDouble.positive.ne').mpr large
    omega

/-- A double with more bits ends where it did. -/
theorem endExponent_mul (isDouble : double.IsDouble) {exponent : Int} {count : Nat}
    (ends : exponent + count = double.exponent) :
    endExponent (double.mantissa * 2 ^ count) exponent = double.exponent := by
  rw [← isDouble.endExponent_eq, endExponent, endExponent, log2_mul_two_pow isDouble.positive, ← ends]
  congr 1
  push_cast
  ring

/-- What is described with bits enough is rounded to the double that holds it. -/
theorem roundWithAccuracy {value : Rat} {mantissa : Nat} {exponent : Int} {accuracy : Accuracy}
    (isDouble : double.IsDouble) (holds : double.Holds value) (describes : Describes mantissa exponent accuracy value)
    (enough : exponent ≤ endExponent mantissa exponent) (sign : Sign) :
    UnpackedFloat.roundWithAccuracy .binary64 sign mantissa exponent accuracy =
      .finite sign double.mantissa double.exponent isDouble.positive := by
  obtain ⟨cut, shifted, cuts, fits⟩ := describes.shiftToTargetExponent enough
  obtain ⟨count, rounded, ends⟩ := isDouble.rounds holds fits cuts.rounded
  have target := isDouble.endExponent_mul ends
  obtain ⟨last, again, lastCuts, _⟩ := (describes_exact (double.mantissa * 2 ^ count) _).shiftToTargetExponent
    (show endExponent mantissa exponent ≤ _ by rw [target, ← ends]; omega)
  have mantissa' : last.mantissa = double.mantissa := by
    have amount : ((double.mantissa * 2 ^ count : Nat) * 2 ^ endExponent mantissa exponent : Rat) /
        2 ^ double.exponent = double.mantissa := by
      rw [← ends, div_two_zpow_add, mul_div_cancel_right₀ _ (two_zpow_pos _).ne']
      push_cast
      field_simp
    rw [target, amount] at lastCuts
    have low : last.mantissa ≤ double.mantissa := by exact_mod_cast lastCuts.bounds.1
    have high : double.mantissa < last.mantissa + 1 := by exact_mod_cast lastCuts.bounds.2
    omega
  rw [UnpackedFloat.roundWithAccuracy, shifted]
  dsimp only
  rw [rounded, again]
  simp only [mantissa', target, dif_neg isDouble.positive.ne']

end Binary.IsDouble

end OutreachFlow
