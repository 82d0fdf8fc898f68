import OutreachFlow.Json.Reader
import OutreachFlow.Text.Quoted

/-! Quoted text is read back as the text that was quoted. Escapes are plain ASCII, and a character beyond
the basic plane comes back from the two surrogates that stand for it. -/
namespace OutreachFlow

namespace Text

theorem charOf_toNat (c : Char) : charOf c.toNat = c := by
  have scalar : c.toNat < 0xD800 ∨ (0xE000 ≤ c.toNat ∧ c.toNat < 0x110000) := by
    rcases c.valid with low | ⟨above, below⟩
    · exact .inl low
    · exact .inr ⟨by change 0xDFFF < c.toNat at above; omega, below⟩
  rw [charOf, if_pos scalar, Char.ofNat_toNat]

/-- The last digit stands behind the others, also where those are zeros. -/
theorem hex_succ {width : Nat} (wide : 0 < width) (n : Nat) :
    hex (width + 1) n = hex width (n / 16) ++ [(n % 16).digitChar] := by
  unfold hex
  by_cases small : n < 16
  · rw [Nat.toDigits_of_lt_base small, Nat.div_eq_of_lt small, Nat.toDigits_zero, Nat.mod_eq_of_lt small]
    obtain ⟨more, rfl⟩ : ∃ more, width = more + 1 := ⟨width - 1, by omega⟩
    simp [List.replicate_succ']
  · rw [Nat.toDigits_of_base_le (by decide) (Nat.le_of_not_lt small)]
    simp

theorem hex_four {n : Nat} (small : n < 0x10000) :
    hex 4 n = [(n / 16 / 16 / 16).digitChar, (n / 16 / 16 % 16).digitChar, (n / 16 % 16).digitChar,
      (n % 16).digitChar] := by
  have first : hex 1 (n / 16 / 16 / 16) = [(n / 16 / 16 / 16).digitChar] := by
    rw [hex, Nat.toDigits_of_lt_base (by omega)]
    rfl
  rw [hex_succ (by decide), hex_succ (by decide), hex_succ (by decide), first]
  rfl

theorem toNat_lt (c : Char) : c.toNat < 0x110000 := by
  rcases c.valid with low | ⟨_, below⟩
  · exact Nat.lt_trans low (by decide)
  · exact below

/-- A character is one unit, or two surrogates that share the bits beyond the basic plane. -/
theorem units_cases (c : Char) :
    (c.toNat < 0x10000 ∧ units c = [c.toNat]) ∨ ∃ high low, high < 0x400 ∧ low < 0x400 ∧
      c.toNat = 0x10000 + high * 0x400 + low ∧ units c = [0xD800 + high, 0xDC00 + low] := by
  by_cases basic : c.toNat < 0x10000
  · exact .inl ⟨basic, by rw [units, if_pos basic]⟩
  · have bound := toNat_lt c
    obtain ⟨offset, code⟩ := Nat.exists_eq_add_of_le (Nat.le_of_not_lt basic)
    refine .inr ⟨offset / 0x400, offset % 0x400, by omega, by omega, by omega, ?_⟩
    rw [units, if_neg basic, code, Nat.add_sub_cancel_left]

/-- A character is quoted by a letter behind a backslash, as itself, or by its units. -/
theorem jsonEscape_cases (c : Char) :
    (∃ letter, jsonEscape c = ['\\', letter] ∧ Json.unescape? letter = some c) ∨
      (jsonEscape c = [c] ∧ (' ' ≤ c ∧ c ≤ '~') ∧ c ≠ '"' ∧ c ≠ '\\') ∨
      jsonEscape c = (units c).flatMap fun unit => '\\' :: 'u' :: hex 4 unit := by
  unfold jsonEscape
  split
  · rename_i quote
    exact .inl ⟨c, rfl, by rcases quote with rfl | rfl <;> rfl⟩
  · rename_i plain
    rw [not_or] at plain
    iterate 5
      split
      · rename_i same
        exact .inl ⟨_, rfl, same ▸ rfl⟩
    split
    · rename_i printable
      exact .inr (.inl ⟨rfl, printable, plain⟩)
    · exact .inr (.inr rfl)

/-! What is quoted is printable ASCII -/

def IsPrintableAscii (c : Char) : Prop := ' ' ≤ c ∧ c ≤ '~'

instance (c : Char) : Decidable (IsPrintableAscii c) := inferInstanceAs (Decidable (_ ∧ _))

theorem printable_digitChar {n : Nat} (small : n < 16) : IsPrintableAscii n.digitChar := by
  revert n
  decide

theorem printable_toDigits {n : Nat} {c : Char} (member : c ∈ Nat.toDigits 16 n) : IsPrintableAscii c := by
  induction n using Nat.strongRecOn with
  | ind n ih =>
    rw [Nat.toDigits_eq_if (by decide)] at member
    split at member
    · rename_i small
      exact List.mem_singleton.mp member ▸ printable_digitChar small
    · rcases List.mem_append.mp member with front | last
      · exact ih (n / 16) (by omega) front
      · exact List.mem_singleton.mp last ▸ printable_digitChar (Nat.mod_lt n (by decide))

theorem printable_hex {width n : Nat} {c : Char} (member : c ∈ hex width n) : IsPrintableAscii c := by
  rcases List.mem_append.mp member with zero | digit
  · rw [List.eq_of_mem_replicate zero]
    decide
  · exact printable_toDigits digit

theorem printable_of_unescape {letter c : Char} (escapes : Json.unescape? letter = some c) :
    IsPrintableAscii letter := by
  unfold Json.unescape? at escapes
  split at escapes <;> first | decide | contradiction

theorem printable_jsonEscape {c d : Char} (member : d ∈ jsonEscape c) : IsPrintableAscii d := by
  rcases jsonEscape_cases c with ⟨letter, shape, escapes⟩ | ⟨shape, printable, _⟩ | shape
  · simp only [shape, List.mem_cons, List.not_mem_nil, or_false] at member
    rcases member with rfl | rfl
    · decide
    · exact printable_of_unescape escapes
  · rw [shape, List.mem_singleton] at member
    exact member ▸ printable
  · rw [shape, List.mem_flatMap] at member
    obtain ⟨unit, _, member⟩ := member
    rw [List.mem_cons, List.mem_cons] at member
    rcases member with rfl | rfl | digit
    · decide
    · decide
    · exact printable_hex digit

end Text

/-! Reading -/

namespace Json

theorem hexDigit?_digitChar {n : Nat} (small : n < 16) : hexDigit? n.digitChar = some n := by
  revert n
  decide

theorem hexUnit?_digits {n : Nat} (small : n < 0x10000) :
    hexUnit? (n / 16 / 16 / 16).digitChar (n / 16 / 16 % 16).digitChar (n / 16 % 16).digitChar
      (n % 16).digitChar = some n := by
  unfold hexUnit?
  rw [hexDigit?_digitChar (by omega), hexDigit?_digitChar (by omega), hexDigit?_digitChar (by omega),
    hexDigit?_digitChar (by omega)]
  simp
  omega

/-- The last code point that was read does not wait for a low surrogate. -/
def Settled (read : List Nat) : Prop := ∀ code ∈ read.head?, code < 0xD800 ∨ 0xE000 ≤ code

theorem settled_cons (c : Char) (read : List Nat) : Settled (c.toNat :: read) := by
  intro code same
  obtain rfl := Option.mem_some.mp same
  rcases c.valid with low | ⟨above, _⟩
  · exact .inl low
  · exact .inr above

theorem pushCode_settled {read : List Nat} (settled : Settled read) (code : Nat) :
    pushCode code read = code :: read := by
  unfold pushCode
  split
  · rename_i high rest
    have free := settled high rfl
    rw [if_neg (by omega)]
  · rfl

/-- Two surrogates in a row are one code point. -/
theorem pushCode_pair {high low : Nat} (highFits : high < 0x400) (lowFits : low < 0x400) (read : List Nat) :
    pushCode (0xDC00 + low) ((0xD800 + high) :: read) = (0x10000 + high * 0x400 + low) :: read := by
  rw [pushCode, if_pos (by omega), Nat.add_sub_cancel_left, Nat.add_sub_cancel_left]

variable {opening : Nat} {read : List Nat} {next : Char} {text : List Char}

/-- An escaped unit is read as its code, provided that something follows. -/
theorem stringRest_unit {unit : Nat} (small : unit < 0x10000) :
    stringRest opening read ('\\' :: 'u' :: (Text.hex 4 unit ++ next :: text)) =
      stringRest opening (pushCode unit read) (next :: text) := by
  rw [Text.hex_four small]
  simp only [List.cons_append, List.nil_append, stringRest, hexUnit?_digits small]

theorem stringRest_units (settled : Settled read) (c : Char) :
    stringRest opening read
        ((Text.units c).flatMap (fun unit => '\\' :: 'u' :: Text.hex 4 unit) ++ next :: text) =
      stringRest opening (c.toNat :: read) (next :: text) := by
  rcases Text.units_cases c with ⟨basic, shape⟩ | ⟨high, low, highFits, lowFits, code, shape⟩
  · simp only [shape, List.flatMap_cons, List.flatMap_nil, List.append_nil, List.cons_append]
    rw [stringRest_unit basic, pushCode_settled settled]
  · simp only [shape, List.flatMap_cons, List.flatMap_nil, List.append_nil, List.cons_append,
      List.append_assoc]
    rw [stringRest_unit (by omega), stringRest_unit (by omega), pushCode_settled settled,
      pushCode_pair highFits lowFits, code]

/-- Whatever stands for a character is read as it. -/
theorem stringRest_escape (settled : Settled read) (c : Char) :
    stringRest opening read (Text.jsonEscape c ++ next :: text) =
      stringRest opening (c.toNat :: read) (next :: text) := by
  rcases Text.jsonEscape_cases c with ⟨letter, shape, escapes⟩ | ⟨shape, printable, quote, slash⟩ | shape
  · have other : letter ≠ 'u' := by
      rintro rfl
      contradiction
    rw [shape]
    simp [stringRest, other, escapes]
  · have visible : ¬ c.toNat < 0x20 := Nat.not_lt.mpr printable.1
    rw [shape]
    simp [stringRest, slash, visible]
  · rw [shape]
    exact stringRest_units settled c

theorem stringRest_escapes (settled : Settled read) (chars : List Char) :
    stringRest opening read (chars.flatMap Text.jsonEscape ++ '"' :: text) =
      .ok (String.ofList (read.reverse.map Text.charOf ++ chars), text) := by
  induction chars generalizing read with
  | nil =>
    rw [List.append_nil]
    rfl
  | cons c rest ih =>
    obtain ⟨first, others, shape⟩ :
        ∃ first others, rest.flatMap Text.jsonEscape ++ '"' :: text = first :: others := by
      cases rest.flatMap Text.jsonEscape with
      | nil => exact ⟨_, _, rfl⟩
      | cons first others => exact ⟨_, _, rfl⟩
    rw [List.flatMap_cons, List.append_assoc, shape, stringRest_escape settled, ← shape,
      ih (settled_cons c read)]
    simp [Text.charOf_toNat]

/-- Behind the opening quote a quoted text is read up to its closing quote. -/
theorem stringRest_jsonQuoted (content : String) (text : List Char) :
    ∃ rest, (Text.jsonQuoted content).toList ++ text = '"' :: rest ∧
      ∀ opening, stringRest opening [] rest = .ok (content, text) := by
  refine ⟨content.toList.flatMap Text.jsonEscape ++ '"' :: text, ?_, fun opening => ?_⟩
  · simp [Text.jsonQuoted]
  · have settled : Settled [] := by simp [Settled]
    rw [stringRest_escapes settled]
    simp

end Json

end OutreachFlow
