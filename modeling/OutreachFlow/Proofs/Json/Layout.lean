import OutreachFlow.Json.Writer
import OutreachFlow.Proofs.Json.Storable

/-! The layout of indented text: blocks of parts on lines of their own, and nothing but printable ASCII between
the line feeds. -/
namespace OutreachFlow

namespace Json

/-! Blocks -/

/-- A field in an indented block. -/
def indentedField (level : Nat) (field : String × Json) : String :=
  Text.jsonQuoted field.1 ++ ": " ++ indented level field.2

theorem indentedItems_eq (level : Nat) (items : List Json) :
    indentedItems level items = items.map (indented level) := by
  induction items with
  | nil => rfl
  | cons item rest ih => rw [indentedItems, ih, List.map_cons]

theorem indentedFields_eq (level : Nat) (fields : Fields) :
    indentedFields level fields = fields.map (indentedField level) := by
  induction fields with
  | nil => rfl
  | cons field rest ih => rw [indentedFields, ih, List.map_cons, indentedField]

/-- Parts of a block, each but the first behind a comma and a new line. -/
def joined (level : Nat) (parts : List String) : List Char :=
  (',' :: (margin level).toList).intercalate (parts.map String.toList)

theorem toList_block (opening closing : String) (level : Nat) {parts : List String} (some : parts ≠ []) :
    (block opening closing level parts).toList = opening.toList ++ ((margin (level + 1)).toList ++
      (joined (level + 1) parts ++ ((margin level).toList ++ closing.toList))) := by
  obtain ⟨first, others, rfl⟩ := List.exists_cons_of_ne_nil some
  simp [block, joined, String.toList_intercalate]

theorem joined_cons_cons (level : Nat) (first second : String) (others : List String) :
    joined level (first :: second :: others) =
      first.toList ++ (',' :: ((margin level).toList ++ joined level (second :: others))) := by
  simp [joined, List.intercalate_cons_cons]

theorem joined_leads (level : Nat) (first : String) (others : List String) :
    ∃ tail, joined level (first :: others) = first.toList ++ tail := by
  cases others with
  | nil => exact ⟨[], by simp [joined]⟩
  | cons second others => exact ⟨_, joined_cons_cons level first second others⟩

theorem length_margin (level : Nat) : 1 ≤ (margin level).toList.length := by simp [margin]

theorem length_block (opening closing : String) (level : Nat) {parts : List String} (some : parts ≠ []) :
    (joined (level + 1) parts).length + 2 + opening.toList.length + closing.toList.length ≤
      (block opening closing level parts).toList.length := by
  have first := length_margin level
  have last := length_margin (level + 1)
  rw [toList_block _ _ _ some]
  simp only [List.length_append]
  omega

/-! What is written is ASCII -/

/-- A character of indented text. -/
def IsWritten (c : Char) : Prop := c = '\n' ∨ Text.IsPrintableAscii c

instance (c : Char) : Decidable (IsWritten c) := inferInstanceAs (Decidable (_ ∨ _))

def AllWritten (text : List Char) : Prop := ∀ c ∈ text, IsWritten c

instance (text : List Char) : Decidable (AllWritten text) := List.decidableBAll IsWritten text

theorem allWritten_append {front back : List Char} :
    AllWritten (front ++ back) ↔ AllWritten front ∧ AllWritten back := List.forall_mem_append

theorem allWritten_cons {c : Char} {rest : List Char} :
    AllWritten (c :: rest) ↔ IsWritten c ∧ AllWritten rest := List.forall_mem_cons

theorem isWritten_of_digit {c : Char} (digit : c.isDigit = true) : IsWritten c := by
  simp only [Char.isDigit, Bool.and_eq_true, decide_eq_true_eq] at digit
  exact .inr ⟨Nat.le_trans (by decide) digit.1, Nat.le_trans digit.2 (by decide)⟩

theorem allWritten_of_digits {digits : List Char} (all : AllDigits digits) : AllWritten digits :=
  fun c member => isWritten_of_digit (all c member)

theorem allWritten_of_isWhole {whole : List Char} (fits : IsWhole whole) : AllWritten whole := by
  rcases fits with rfl | ⟨all, _⟩
  · exact allWritten_of_digits (allDigits_zeros 1)
  · exact allWritten_of_digits all

theorem isWritten_of_sign {sign : Char} (signed : sign = '+' ∨ sign = '-') : IsWritten sign := by
  rcases signed with rfl | rfl <;> exact .inr (by decide)

theorem allWritten_of_isDecimal {body : List Char} {all : Nat} {scale : Int} (decimal : IsDecimal body all scale) :
    AllWritten body := by
  have point : IsWritten '.' := .inr (by decide)
  have mark : IsWritten 'e' := .inr (by decide)
  cases decimal with
  | pointed wholeFits digits =>
    simp only [allWritten_append, allWritten_cons]
    exact ⟨allWritten_of_isWhole wholeFits, point, allWritten_of_digits digits⟩
  | scaled wholeFits signed digits =>
    simp only [allWritten_append, allWritten_cons]
    exact ⟨allWritten_of_isWhole wholeFits, mark, isWritten_of_sign signed, allWritten_of_digits digits⟩
  | pointedScaled wholeFits digits _ signed exponentDigits =>
    simp only [allWritten_append, allWritten_cons]
    exact ⟨⟨allWritten_of_isWhole wholeFits, point, allWritten_of_digits digits⟩, mark,
      isWritten_of_sign signed, allWritten_of_digits exponentDigits⟩

theorem allWritten_mark (negative : Bool) : AllWritten (FloatStyle.mark negative).toList := by
  cases negative <;> decide

theorem allWritten_number {style : FloatStyle} (nan : AllWritten style.nan.toList)
    (infinity : AllWritten style.infinity.toList) (number : Number) : AllWritten (number.write style).toList := by
  cases number with
  | int value =>
    rw [Number.write, toList_int, allWritten_append]
    refine ⟨?_, allWritten_of_digits (allDigits_toDigits _)⟩
    split <;> decide
  | double value =>
    rw [Number.write]
    have writes := style.writes_write value
    generalize style.write value = text at writes
    cases writes with
    | nan => exact nan
    | infinity negative =>
      rw [String.toList_append, allWritten_append]
      exact ⟨allWritten_mark negative, infinity⟩
    | decimal negative isDecimal =>
      rw [String.toList_append, allWritten_append]
      exact ⟨allWritten_mark negative, allWritten_of_isDecimal isDecimal⟩

theorem allWritten_jsonQuoted (content : String) : AllWritten (Text.jsonQuoted content).toList := by
  have quote : IsWritten '"' := .inr (by decide)
  simp only [Text.jsonQuoted, String.toList_ofList, List.cons_append, allWritten_cons, allWritten_append]
  refine ⟨quote, ?_, quote, by decide⟩
  intro c member
  obtain ⟨d, _, escaped⟩ := List.mem_flatMap.mp member
  exact .inr (Text.printable_jsonEscape escaped)

theorem allWritten_margin (level : Nat) : AllWritten (margin level).toList := by
  rw [margin, String.toList_ofList, allWritten_cons]
  refine ⟨.inl rfl, fun c member => .inr ?_⟩
  rw [List.eq_of_mem_replicate member]
  decide

theorem allWritten_joined (level : Nat) {parts : List String} (all : ∀ part ∈ parts, AllWritten part.toList) :
    AllWritten (joined level parts) := by
  induction parts with
  | nil => simp [joined, AllWritten]
  | cons first others ih =>
    obtain ⟨firstWritten, othersWritten⟩ := List.forall_mem_cons.mp all
    cases others with
    | nil => simpa [joined] using firstWritten
    | cons second others =>
      rw [joined_cons_cons, allWritten_append, allWritten_cons, allWritten_append]
      exact ⟨firstWritten, .inr (by decide), allWritten_margin level, ih othersWritten⟩

theorem allWritten_block {opening closing : String} (level : Nat) {parts : List String}
    (opens : AllWritten opening.toList) (closes : AllWritten closing.toList)
    (all : ∀ part ∈ parts, AllWritten part.toList) :
    AllWritten (block opening closing level parts).toList := by
  cases parts with
  | nil =>
    rw [block, String.toList_append, allWritten_append]
    exact ⟨opens, closes⟩
  | cons first others =>
    rw [toList_block _ _ _ (List.cons_ne_nil _ _)]
    simp only [allWritten_append]
    exact ⟨opens, allWritten_margin _, allWritten_joined _ all, allWritten_margin _, closes⟩

theorem allWritten_indented {item : Json} (storable : item.Storable) (level : Nat) :
    AllWritten (indented level item).toList := by
  induction storable generalizing level with
  | null =>
    rw [indented]
    decide
  | bool value =>
    rw [indented]
    cases value <;> decide
  | @num value short =>
    rw [indented]
    exact allWritten_number (by decide) (by decide) value
  | str value =>
    rw [indented]
    exact allWritten_jsonQuoted value
  | @arr parts _ ih =>
    rw [indented, indentedItems_eq]
    refine allWritten_block level (by decide) (by decide) ?_
    intro part member
    obtain ⟨item, inside, rfl⟩ := List.mem_map.mp member
    exact ih item inside (level + 1)
  | @obj fields _ _ ih =>
    rw [indented, indentedFields_eq]
    refine allWritten_block level (by decide) (by decide) ?_
    intro part member
    obtain ⟨field, inside, rfl⟩ := List.mem_map.mp member
    simp only [indentedField, String.toList_append, allWritten_append]
    exact ⟨⟨allWritten_jsonQuoted field.1, by decide⟩, ih field inside (level + 1)⟩

end Json

end OutreachFlow
