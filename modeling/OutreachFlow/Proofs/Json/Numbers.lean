import OutreachFlow.Json.Reader
import OutreachFlow.Proofs.Decimal.Written
import OutreachFlow.Proofs.Text.Quoting

/-! Written numbers are read back as themselves. What follows a number must not look like a part of it. -/
namespace OutreachFlow

namespace Json

/-- The text does not go on with a digit. -/
def EndsDigits (text : List Char) : Prop := ∀ c ∈ text.head?, c.isDigit = false

/-- The text does not go on with what could belong to a number. -/
def EndsNumber (text : List Char) : Prop :=
  ∀ c ∈ text.head?, c.isDigit = false ∧ c ≠ '.' ∧ c ≠ 'e' ∧ c ≠ 'E'

theorem EndsNumber.digits {text : List Char} (ends : EndsNumber text) : EndsDigits text :=
  fun c same => (ends c same).1

theorem endsDigits_cons {c : Char} {text : List Char} (other : c.isDigit = false) : EndsDigits (c :: text) := by
  intro d same
  exact Option.mem_some.mp same ▸ other

variable {digits rest : List Char}

theorem takeWhile_digits (all : AllDigits digits) (ends : EndsDigits rest) :
    (digits ++ rest).takeWhile Char.isDigit = digits := by
  rw [List.takeWhile_append_of_pos all]
  cases rest with
  | nil => simp
  | cons c rest => simp [ends c rfl]

theorem dropWhile_digits (all : AllDigits digits) (ends : EndsDigits rest) :
    (digits ++ rest).dropWhile Char.isDigit = rest := by
  rw [List.dropWhile_append_of_pos all]
  cases rest with
  | nil => rfl
  | cons c rest => simp [ends c rfl]

/-! The parts of a number -/

theorem wholePart_append {whole : List Char} (fits : IsWhole whole) (ends : EndsDigits rest) :
    wholePart (whole ++ rest) = some (whole, rest) := by
  rcases fits with rfl | ⟨all, first, others, rfl, nonzero⟩
  · rfl
  · have digit : first.isDigit = true := all first List.mem_cons_self
    have found := takeWhile_digits all ends
    have left := dropWhile_digits all ends
    rw [List.cons_append] at found left ⊢
    simp only [wholePart, digit, if_true, found, left]

theorem fractionPart_pointed (all : AllDigits digits) (some : digits ≠ []) (ends : EndsDigits rest) :
    fractionPart ('.' :: digits ++ rest) = (digits, rest) := by
  obtain ⟨first, others, rfl⟩ := List.exists_cons_of_ne_nil some
  have digit : first.isDigit = true := all first List.mem_cons_self
  have found := takeWhile_digits all ends
  have left := dropWhile_digits all ends
  rw [List.cons_append] at found left
  simp only [List.cons_append, fractionPart, digit, if_true, found, left]

theorem fractionPart_none (other : ∀ c ∈ rest.head?, c ≠ '.') : fractionPart rest = ([], rest) := by
  unfold fractionPart
  split
  · exact absurd rfl (other '.' rfl)
  · rfl

theorem natOf_eq (text : List Char) : natOf text = digitsValue text := rfl

theorem exponentPart_scaled {sign : Char} (isSign : sign = '+' ∨ sign = '-') (all : AllDigits digits)
    (some : digits ≠ []) (ends : EndsDigits rest) :
    exponentPart ('e' :: sign :: digits ++ rest) = (.some (signedValue sign digits), rest) := by
  have found := takeWhile_digits all ends
  have left := dropWhile_digits all ends
  obtain ⟨first, others, rfl⟩ := List.exists_cons_of_ne_nil some
  rw [List.cons_append] at found left
  rcases isSign with rfl | rfl <;> simp [exponentPart, found, left, signed, signedValue, natOf_eq]

theorem exponentPart_none (ends : EndsNumber rest) : exponentPart rest = (none, rest) := by
  cases rest with
  | nil => rfl
  | cons c rest =>
    obtain ⟨_, _, small, capital⟩ := ends c rfl
    simp [exponentPart, small, capital]

/-! Numbers -/

theorem number_of_parts {text afterWhole afterFraction whole fraction rest : List Char}
    {exponent : Option Int} (wholeRead : wholePart text = some (whole, afterWhole))
    (fractionRead : fractionPart afterWhole = (fraction, afterFraction))
    (exponentRead : exponentPart afterFraction = (exponent, rest))
    (fractional : fraction ≠ [] ∨ exponent.isSome) (negative : Bool) :
    number negative text = some (.ok (.double (FloatStyle.withSign negative
      (Number.floatOfScientific (digitsValue (whole ++ fraction)) (exponent.getD 0 - fraction.length))), rest)) := by
  have double : ¬ (fraction.isEmpty ∧ exponent.isNone) := by
    rintro ⟨empty, none⟩
    simp_all
  simp only [number, wholeRead, Option.map_some, fractionRead, exponentRead, if_neg double, natOf_eq]
  rfl

/-- A decimal is read as the double of its digits and its exponent. -/
theorem number_decimal {body : List Char} {all : Nat} {scale : Int} (decimal : IsDecimal body all scale)
    (negative : Bool) (ends : EndsNumber rest) : number negative (body ++ rest) =
      some (.ok (.double (FloatStyle.withSign negative (Number.floatOfScientific all scale)), rest)) := by
  cases decimal with
  | @pointed whole fraction wholeFits digits some =>
    have read := number_of_parts (wholePart_append wholeFits (endsDigits_cons rfl))
      (fractionPart_pointed digits some ends.digits) (exponentPart_none ends) (.inl some) negative
    rw [Option.getD_none, Int.zero_sub] at read
    rw [List.append_assoc]
    exact read
  | @scaled whole exponent sign wholeFits signed digits some =>
    have noPoint : ∀ c ∈ ('e' :: sign :: exponent ++ rest).head?, c ≠ '.' := by
      intro c same
      obtain rfl := Option.mem_some.mp same
      decide
    have read := number_of_parts (wholePart_append wholeFits (endsDigits_cons rfl))
      (fractionPart_none noPoint) (exponentPart_scaled signed digits some ends.digits) (.inr rfl) negative
    rw [List.append_nil, Option.getD_some, List.length_nil, Int.natCast_zero, Int.sub_zero] at read
    rw [List.append_assoc]
    exact read
  | @pointedScaled whole fraction exponent sign wholeFits digits some signed exponentDigits someExponent =>
    rw [List.append_assoc, List.append_assoc]
    exact number_of_parts (wholePart_append wholeFits (endsDigits_cons rfl))
      (fractionPart_pointed digits some (endsDigits_cons rfl))
      (exponentPart_scaled signed exponentDigits someExponent ends.digits) (.inl some) negative

theorem natOf_toDigits (n : Nat) : natOf (Nat.toDigits 10 n) = n := digitsValue_toDigits n

/-- An integer is read as itself, unless it is too long. -/
theorem number_int {n : Nat} (short : (Nat.toDigits 10 n).length ≤ Number.maxIntegerDigits) (negative : Bool)
    (ends : EndsNumber rest) :
    number negative (Nat.toDigits 10 n ++ rest) = some (.ok (.int (signed negative n), rest)) := by
  have noPoint : ∀ c ∈ rest.head?, c ≠ '.' := fun c same => (ends c same).2.1
  simp only [number, wholePart_append (isWhole_toDigits n) ends.digits, Option.map_some,
    fractionPart_none noPoint, exponentPart_none ends, natOf_toDigits]
  simp [Nat.not_lt.mpr short]

/-! Values -/

variable {c : Char} {found : Number} {left : List Char}

theorem value_of_digit (digit : c.isDigit = true) (read : number false (c :: rest) = some (.ok (found, left)))
    (limit fuel : Nat) : value limit (fuel + 1) (c :: rest) = .ok (.num found, left) := by
  rw [value]
  · simp only [read]
    rfl
  all_goals
    rintro other ⟨⟩
    exact absurd digit (by decide)

theorem value_of_minus (digit : c.isDigit = true) (read : number true (c :: rest) = some (.ok (found, left)))
    (limit fuel : Nat) : value limit (fuel + 1) ('-' :: c :: rest) = .ok (.num found, left) := by
  rw [value]
  · simp only [read]
    rfl
  all_goals
    rintro other ⟨⟩
  exact absurd digit (by decide)

theorem leads_of_isWhole {whole : List Char} (fits : IsWhole whole) :
    ∃ first rest, whole = first :: rest ∧ first.isDigit = true := by
  rcases fits with rfl | ⟨all, first, rest, rfl, _⟩
  · exact ⟨'0', [], rfl, rfl⟩
  · exact ⟨first, rest, rfl, all first List.mem_cons_self⟩

theorem leads_of_isDecimal {body : List Char} {all : Nat} {scale : Int} (decimal : IsDecimal body all scale) :
    ∃ first rest, body = first :: rest ∧ first.isDigit = true := by
  cases decimal with
  | pointed wholeFits =>
    obtain ⟨first, others, rfl, digit⟩ := leads_of_isWhole wholeFits
    exact ⟨first, _, rfl, digit⟩
  | scaled wholeFits =>
    obtain ⟨first, others, rfl, digit⟩ := leads_of_isWhole wholeFits
    exact ⟨first, _, rfl, digit⟩
  | pointedScaled wholeFits =>
    obtain ⟨first, others, rfl, digit⟩ := leads_of_isWhole wholeFits
    exact ⟨first, _, rfl, digit⟩

/-- A double is read as itself, wherever it stands. -/
theorem value_double (written : Float) (limit fuel : Nat) (ends : EndsNumber rest) :
    value limit (fuel + 1) ((FloatStyle.json.write written).toList ++ rest) = .ok (.num (.double written), rest) := by
  have writes := FloatStyle.json.writes_write written
  generalize FloatStyle.json.write written = text at writes
  cases writes with
  | nan => rfl
  | infinity negative => cases negative <;> rfl
  | @decimal negative body digits exponent isDecimal =>
    obtain ⟨first, others, shape, digit⟩ := leads_of_isDecimal isDecimal
    have read := number_decimal isDecimal negative ends
    rw [shape] at read
    rw [String.toList_append, shape]
    cases negative with
    | false => exact value_of_digit digit read limit fuel
    | true => exact value_of_minus digit read limit fuel

theorem toList_int (value : Int) :
    (toString value).toList = (if value < 0 then ['-'] else []) ++ Nat.toDigits 10 value.natAbs := by
  cases value with
  | ofNat n =>
    have nonneg : ¬ Int.ofNat n < 0 := Int.not_lt.mpr (Int.natCast_nonneg n)
    rw [if_neg nonneg]
    exact Nat.toList_repr
  | negSucc n =>
    have minus : toString (Int.negSucc n) = "-" ++ toString (n + 1) := rfl
    rw [if_pos (Int.negSucc_lt_zero n), minus, String.toList_append, FloatStyle.toList_toString]
    rfl

theorem value_int {written : Int} (short : written.natAbs < 10 ^ Number.maxIntegerDigits)
    (limit fuel : Nat) (ends : EndsNumber rest) :
    value limit (fuel + 1) ((toString written).toList ++ rest) = .ok (.num (.int written), rest) := by
  have read (negative : Bool) := number_int ((Nat.length_toDigits_le_iff (by decide) (by decide)).mpr short)
    negative ends
  obtain ⟨first, others, shape, digit⟩ := leads_of_isWhole (isWhole_toDigits written.natAbs)
  rw [shape] at read
  rw [toList_int, shape]
  split
  · have same : signed true written.natAbs = written := by
      simp only [signed, if_true]
      omega
    have found := value_of_minus digit (read true) limit fuel
    rwa [same] at found
  · have same : signed false written.natAbs = written := by
      simp only [signed, Bool.false_eq_true, if_false]
      omega
    have found := value_of_digit digit (read false) limit fuel
    rwa [same] at found

end Json

namespace Number

theorem isShort_int {value : Int} : (int value).IsShort ↔ value.natAbs < 10 ^ maxIntegerDigits := by
  rw [IsShort, Nat.pow_eq]

/-- A written number is read up to where it ends. -/
theorem value_write {number : Number} (short : number.IsShort) (limit fuel : Nat) {rest : List Char}
    (ends : Json.EndsNumber rest) :
    Json.value limit (fuel + 1) ((number.write .json).toList ++ rest) = .ok (.num number, rest) := by
  cases number with
  | int value => exact Json.value_int (isShort_int.mp short) limit fuel ends
  | double value => exact Json.value_double value limit fuel ends

end Number

end OutreachFlow
