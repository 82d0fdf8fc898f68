import OutreachFlow.Decimal.Style
import OutreachFlow.Proofs.Decimal.Shortest

/-! What written numbers look like. Digits before a point begin with a zero only where nothing else stands
there, and a double that is a number has a point or an exponent, by which it differs from an integer. The decimal
of a finite double becomes this double again. -/
namespace OutreachFlow

def AllDigits (text : List Char) : Prop := ∀ c ∈ text, c.isDigit = true

/-- Digits that can stand before a point. -/
def IsWhole (text : List Char) : Prop :=
  text = ['0'] ∨ AllDigits text ∧ ∃ first rest, text = first :: rest ∧ first ≠ '0'

/-- The number that digits stand for. -/
def digitsValue (text : List Char) : Nat := Nat.ofDigitChars 10 text 0

/-- An exponent with its sign. -/
def signedValue (sign : Char) (text : List Char) : Int := if sign = '-' then -digitsValue text else digitsValue text

/-- A decimal without its sign, by the number of all its digits and the exponent of the last one of them. -/
inductive IsDecimal : List Char → Nat → Int → Prop where
  | pointed {whole fraction : List Char} (wholeFits : IsWhole whole) (digits : AllDigits fraction)
      (some : fraction ≠ []) :
      IsDecimal (whole ++ '.' :: fraction) (digitsValue (whole ++ fraction)) (-fraction.length)
  | scaled {whole exponent : List Char} {sign : Char} (wholeFits : IsWhole whole)
      (signed : sign = '+' ∨ sign = '-') (digits : AllDigits exponent) (some : exponent ≠ []) :
      IsDecimal (whole ++ 'e' :: sign :: exponent) (digitsValue whole) (signedValue sign exponent)
  | pointedScaled {whole fraction exponent : List Char} {sign : Char} (wholeFits : IsWhole whole)
      (digits : AllDigits fraction) (some : fraction ≠ []) (signed : sign = '+' ∨ sign = '-')
      (exponentDigits : AllDigits exponent) (someExponent : exponent ≠ []) :
      IsDecimal (whole ++ '.' :: fraction ++ 'e' :: sign :: exponent) (digitsValue (whole ++ fraction))
        (signedValue sign exponent - fraction.length)

/-! Digits of natural numbers -/

theorem allDigits_append {front back : List Char} :
    AllDigits (front ++ back) ↔ AllDigits front ∧ AllDigits back := List.forall_mem_append

theorem allDigits_toDigits (n : Nat) : AllDigits (Nat.toDigits 10 n) := fun _ member =>
  Nat.isDigit_of_mem_toDigits (by decide) (by decide) member

theorem allDigits_zeros (count : Nat) : AllDigits (List.replicate count '0') := by
  intro c member
  rw [List.eq_of_mem_replicate member]
  decide

theorem toDigits_leads {n : Nat} (positive : 0 < n) :
    ∃ first rest, Nat.toDigits 10 n = first :: rest ∧ first ≠ '0' := by
  induction n using Nat.strongRecOn with
  | ind n ih =>
    by_cases small : n < 10
    · refine ⟨n.digitChar, [], Nat.toDigits_of_lt_base small, ?_⟩
      rw [Ne, Nat.digitChar_eq_zero]
      omega
    · obtain ⟨first, rest, shape, nonzero⟩ := ih (n / 10) (by omega) (by omega)
      rw [Nat.toDigits_of_base_le (by decide) (Nat.le_of_not_lt small), shape]
      exact ⟨first, _, rfl, nonzero⟩

theorem isWhole_toDigits (n : Nat) : IsWhole (Nat.toDigits 10 n) := by
  rcases Nat.eq_zero_or_pos n with rfl | positive
  · exact .inl (Nat.toDigits_zero 10)
  · exact .inr ⟨allDigits_toDigits n, toDigits_leads positive⟩

theorem digitsValue_toDigits (n : Nat) : digitsValue (Nat.toDigits 10 n) = n := Nat.ofDigitChars_ten_toDigits

theorem digitsValue_append (front back : List Char) :
    digitsValue (front ++ back) = 10 ^ back.length * digitsValue front + digitsValue back := by
  rw [digitsValue, Nat.ofDigitChars_append, Nat.ofDigitChars_eq_ofDigitChars_zero]
  rfl

theorem digitsValue_zeros (count : Nat) : digitsValue (List.replicate count '0') = 0 := by
  rw [digitsValue, Nat.ofDigitChars_replicate_zero, mul_zero]

/-! Layouts -/

namespace FloatStyle

theorem toList_zeros (count : Nat) : (zeros count).toList = List.replicate count '0' :=
  String.toList_ofList

theorem toList_toString (n : Nat) : (toString n).toList = Nat.toDigits 10 n := Nat.toList_repr

theorem toList_paddedTo (width n : Nat) :
    (paddedTo width (toString n)).toList =
      List.replicate (width - (toString n).length) '0' ++ Nat.toDigits 10 n := by
  rw [paddedTo, String.toList_append, toList_zeros, toList_toString]

/-- A written exponent, with as many digits as the style asks for. -/
theorem allDigits_paddedTo (width n : Nat) :
    AllDigits (paddedTo width (toString n)).toList ∧ (paddedTo width (toString n)).toList ≠ [] := by
  rw [toList_paddedTo, allDigits_append]
  refine ⟨⟨allDigits_zeros _, allDigits_toDigits n⟩, ?_⟩
  simp [Nat.toDigits_ne_nil]

theorem isWhole_of_leads {first : Char} {rest : List Char} (digits : AllDigits (first :: rest))
    (nonzero : first ≠ '0') : IsWhole (first :: rest) := .inr ⟨digits, first, rest, rfl, nonzero⟩

theorem digitsValue_paddedTo (width n : Nat) : digitsValue (paddedTo width (toString n)).toList = n := by
  rw [toList_paddedTo, digitsValue_append, digitsValue_zeros, mul_zero, zero_add, digitsValue_toDigits]

/-- A written exponent. -/
theorem exists_sign (exponent : Int) (width : Nat) : ∃ sign : Char,
    (if exponent < 0 then "-" else "+") = String.ofList [sign] ∧ (sign = '+' ∨ sign = '-') ∧
      signedValue sign (paddedTo width (toString exponent.natAbs)).toList = exponent := by
  simp only [signedValue, digitsValue_paddedTo]
  split
  · exact ⟨'-', rfl, .inr rfl, by rw [if_pos rfl]; omega⟩
  · exact ⟨'+', rfl, .inl rfl, by rw [if_neg (by decide)]; omega⟩

section Layouts

variable {first : Char} {rest : List Char}

theorem isDecimal_small {digits : List Char} (all : AllDigits digits) (some : digits ≠ []) (count : Nat) :
    IsDecimal ("0." ++ zeros count ++ String.ofList digits).toList (digitsValue digits)
      (-(count + digits.length : Nat)) := by
  have decimal := IsDecimal.pointed (.inl rfl : IsWhole ['0'])
    (allDigits_append.mpr ⟨allDigits_zeros count, all⟩) (by simp [some])
  have value : digitsValue (['0'] ++ (List.replicate count '0' ++ digits)) = digitsValue digits := by
    rw [digitsValue_append, digitsValue_append, digitsValue_zeros]
    exact (congrArg (· + _) (Nat.mul_zero _)).trans (by simp)
  simp only [String.toList_append, String.toList_ofList, toList_zeros]
  rw [value, List.length_append, List.length_replicate] at decimal
  exact decimal

theorem isDecimal_integral (all : AllDigits (first :: rest)) (nonzero : first ≠ '0') (count : Nat) :
    IsDecimal (String.ofList (first :: rest) ++ zeros count ++ ".0").toList
      (10 ^ (count + 1) * digitsValue (first :: rest)) (-1) := by
  simp only [String.toList_append, String.toList_ofList, toList_zeros]
  have whole : IsWhole (first :: rest ++ List.replicate count '0') :=
    .inr ⟨allDigits_append.mpr ⟨all, allDigits_zeros count⟩, first, _, rfl, nonzero⟩
  have decimal := IsDecimal.pointed whole (allDigits_zeros 1) (by simp)
  have value : digitsValue (first :: rest ++ List.replicate count '0' ++ List.replicate 1 '0') =
      10 ^ (count + 1) * digitsValue (first :: rest) := by
    rw [List.append_assoc, ← List.replicate_add, digitsValue_append, digitsValue_zeros, List.length_replicate,
      add_zero]
  rw [value] at decimal
  exact decimal

theorem isDecimal_split (all : AllDigits (first :: rest)) (nonzero : first ≠ '0') {count : Nat}
    (inside : count < rest.length) :
    IsDecimal (String.ofList ((first :: rest).take (count + 1)) ++ "." ++
      String.ofList ((first :: rest).drop (count + 1))).toList (digitsValue (first :: rest))
      (-(rest.length - count : Nat)) := by
  have point : ".".toList = ['.'] := rfl
  have whole : AllDigits (first :: rest.take count) := fun c member =>
    all c (List.mem_of_mem_take (i := count + 1) member)
  have fraction : AllDigits (rest.drop count) := fun c member =>
    all c (List.mem_cons_of_mem _ (List.mem_of_mem_drop member))
  have some : rest.drop count ≠ [] := by
    rw [Ne, List.drop_eq_nil_iff]
    omega
  have decimal := IsDecimal.pointed (isWhole_of_leads whole nonzero) fraction some
  have joined : first :: rest.take count ++ rest.drop count = first :: rest :=
    congrArg (first :: ·) (List.take_append_drop count rest)
  rw [joined, List.length_drop] at decimal
  simp only [String.toList_append, String.toList_ofList, List.take_succ_cons, List.drop_succ_cons, point,
    List.append_assoc, List.singleton_append]
  exact decimal

theorem isDecimal_scientific (all : AllDigits (first :: rest)) (nonzero : first ≠ '0') {sign : Char}
    (signed : sign = '+' ∨ sign = '-') (width exponent : Nat) :
    IsDecimal ((match first :: rest with
        | first :: second :: rest => String.ofList (first :: '.' :: second :: rest)
        | short => String.ofList short) ++ "e" ++ String.ofList [sign] ++
      paddedTo width (toString exponent)).toList (digitsValue (first :: rest))
      (signedValue sign (paddedTo width (toString exponent)).toList - rest.length) := by
  have mark : "e".toList = ['e'] := rfl
  have lone : IsWhole [first] :=
    isWhole_of_leads (List.forall_mem_singleton.mpr (all first List.mem_cons_self)) nonzero
  have tail : AllDigits rest := fun c member => all c (List.mem_cons_of_mem _ member)
  obtain ⟨exponentDigits, someExponent⟩ := allDigits_paddedTo width exponent
  cases rest with
  | nil =>
    simp only [String.toList_append, String.toList_ofList, mark, List.append_assoc, List.singleton_append,
      List.length_nil, Nat.cast_zero, sub_zero]
    exact IsDecimal.scaled lone signed exponentDigits someExponent
  | cons second rest =>
    have decimal := IsDecimal.pointedScaled lone tail (by simp) signed exponentDigits someExponent
    simpa only [String.toList_append, String.toList_ofList, mark, List.append_assoc,
      List.singleton_append, List.cons_append, List.nil_append] using decimal

end Layouts

/-- The text of a decimal is a decimal of the same value. -/
theorem exists_isDecimal_layOut (style : FloatStyle) {decimal : Decimal} (positive : 0 < decimal.digits) :
    ∃ digits exponent, IsDecimal (style.layOut decimal).toList digits exponent ∧
      (digits * 10 ^ exponent : Rat) = decimal.value := by
  have all := allDigits_toDigits decimal.digits
  have value := digitsValue_toDigits decimal.digits
  obtain ⟨first, rest, shape, nonzero⟩ := toDigits_leads positive
  rw [shape] at all value
  dsimp only [layOut]
  rw [toList_toString, shape]
  generalize lead : decimal.exponent + ((first :: rest).length : Int) - 1 = leading
  rw [List.length_cons] at lead
  split
  · split
    · refine ⟨_, _, isDecimal_small all (List.cons_ne_nil _ _) _, ?_⟩
      have scale : -((-leading - 1).toNat + (first :: rest).length : Nat) = decimal.exponent := by
        rw [List.length_cons]
        omega
      rw [value, Decimal.value, scale]
    · split
      · rename_i whole
        refine ⟨_, _, isDecimal_integral all nonzero _, ?_⟩
        rw [value, Decimal.value, pow_succ, zpow_neg_one]
        conv_rhs => rw [← Int.toNat_of_nonneg whole, zpow_natCast]
        push_cast
        field_simp
      · rename_i inner
        refine ⟨_, _, isDecimal_split all nonzero (by omega), ?_⟩
        rw [value, Decimal.value, show -(rest.length - leading.toNat : Nat) = decimal.exponent by omega]
  · obtain ⟨sign, same, signed, exponent⟩ := exists_sign leading style.exponentWidth
    rw [same]
    refine ⟨_, _, isDecimal_scientific all nonzero signed _ _, ?_⟩
    rw [exponent, value, Decimal.value, show leading - rest.length = decimal.exponent by omega]

/-! Doubles -/

def mark (negative : Bool) : String := if negative then "-" else ""

def withSign (negative : Bool) (magnitude : Float) : Float := if negative then -magnitude else magnitude

/-- The texts of doubles, each with the double that is read there: a word, or a decimal, with or without a sign. -/
inductive Writes (style : FloatStyle) : Float → String → Prop where
  | nan : Writes style (0.0 / 0.0) style.nan
  | infinity (negative : Bool) : Writes style (withSign negative (1.0 / 0.0)) (mark negative ++ style.infinity)
  | decimal (negative : Bool) {body : String} {digits : Nat} {exponent : Int}
      (isDecimal : IsDecimal body.toList digits exponent) :
      Writes style (withSign negative (Number.floatOfScientific digits exponent)) (mark negative ++ body)

theorem isDecimal_zero : IsDecimal "0.0".toList 0 (-1) :=
  IsDecimal.pointed (.inl rfl : IsWhole ['0']) (allDigits_zeros 1) (by simp)

/-- A finite double has the text of its sign and of a decimal that becomes its magnitude. -/
theorem writes_finite (style : FloatStyle) {value : Float} (number : value.isNaN = false)
    (finite : value.isInf = false) {negative : Bool}
    (sign : Binary.signOf value = if negative then .negative else .positive) :
    style.Writes value (if (Binary.ofFloat value).mantissa = 0 then mark negative ++ "0.0"
      else mark negative ++ style.layOut (Decimal.shortest (Binary.ofFloat value))) := by
  rcases Binary.ofFloat_cases number finite with ⟨zero, same⟩ | ⟨isDouble, same⟩
  · have signed : value = withSign negative (Number.floatOfScientific 0 (-1)) := by
      have none : Number.floatOfScientific 0 (-1) = Binary.signedZero .positive := by decide +kernel
      rw [same, sign, none, withSign, Binary.neg_signedZero]
      split <;> rfl
    rw [if_pos zero, signed]
    exact .decimal negative isDecimal_zero
  · have holds := Decimal.shortest_holds isDouble
    obtain ⟨digits, exponent, isDecimal, value'⟩ := exists_isDecimal_layOut style (isDouble.digits_pos holds)
    have signed : value = withSign negative (Number.floatOfScientific digits exponent) := by
      rw [← value'] at holds
      rw [same, sign, isDouble.floatOfScientific_eq holds, withSign, isDouble.neg_signed]
      split <;> rfl
    rw [if_neg isDouble.positive.ne']
    conv => arg 2; rw [signed]
    exact .decimal negative isDecimal

/-- Every double has the text that it is read from. -/
theorem writes_write (style : FloatStyle) (value : Float) : style.Writes value (style.write value) := by
  cases nan : value.isNaN with
  | true =>
    rw [write, if_pos nan, Binary.eq_nan nan]
    exact .nan
  | false =>
    obtain ⟨negative, negativeEq⟩ : ∃ negative : Bool, negative = decide (value.toBits >>> 63 = 1) := ⟨_, rfl⟩
    have marked : (if value.toBits >>> 63 = 1 then "-" else "") = mark negative := by
      rw [negativeEq, mark]
      simp
    rw [write, if_neg (ne_true_of_eq_false nan)]
    simp only [marked]
    cases infinite : value.isInf with
    | true =>
      have same : value = withSign negative (1.0 / 0.0) := by
        rw [withSign, negativeEq]
        simpa using Binary.eq_infinity infinite
      rw [if_pos rfl, same]
      exact .infinity negative
    | false =>
      have sign : Binary.signOf value = if negative then .negative else .positive := by
        rw [Binary.signOf_eq, negativeEq]
        simp
      rw [if_neg (by decide)]
      exact writes_finite style nan infinite sign

end FloatStyle

end OutreachFlow
