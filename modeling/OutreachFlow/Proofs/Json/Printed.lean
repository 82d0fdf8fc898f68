import OutreachFlow.Json.Finite
import OutreachFlow.Proofs.Json.Layout

/-! What messages show. A literal form has no stand-in, since a text in it is escaped where it is not printable. So
a message has one only where a text stands bare. -/
namespace OutreachFlow

namespace Text

theorem hasStandIn_append (front back : String) :
    hasStandIn (front ++ back) = (hasStandIn front || hasStandIn back) := by
  simp [hasStandIn]

theorem hasStandIn_eq_false {text : String} :
    hasStandIn text = false ↔ ∀ c ∈ text.toList, isStandIn c = false := by
  simp [hasStandIn]

theorem isStandIn_of_printable {c : Char} (printable : IsPrintableAscii c) : isStandIn c = false := by
  have small : c.toNat ≤ '~'.toNat := printable.2
  rw [isStandIn, decide_eq_false_iff_not, Nat.not_le]
  exact Nat.lt_of_le_of_lt small (by decide)

theorem hasStandIn_of_allWritten {text : String} (written : Json.AllWritten text.toList) :
    hasStandIn text = false := by
  rw [hasStandIn_eq_false]
  intro c member
  rcases written c member with rfl | printable
  · decide
  · exact isStandIn_of_printable printable

theorem hasStandIn_intercalate {separator : String} (clean : hasStandIn separator = false) {parts : List String}
    (all : ∀ part ∈ parts, hasStandIn part = false) : hasStandIn (separator.intercalate parts) = false := by
  induction parts with
  | nil => rfl
  | cons first others ih =>
    obtain ⟨own, behind⟩ := List.forall_mem_cons.mp all
    cases others with
    | nil => simpa using own
    | cons second others =>
      rw [String.intercalate_cons_cons, hasStandIn_append, hasStandIn_append, own, clean, ih behind]
      rfl

/-- No character of an escape is a stand-in, also where a stand-in is escaped. -/
theorem isStandIn_messageEscape {quote c d : Char} (plain : isStandIn quote = false)
    (member : d ∈ messageEscape quote c) : isStandIn d = false := by
  have escaped {letter : Char} (plain : isStandIn letter = false) (member : d ∈ ['\\', letter]) :
      isStandIn d = false := by
    simp only [List.mem_cons, List.not_mem_nil, or_false] at member
    rcases member with rfl | rfl
    · decide
    · exact plain
  have coded {letter : Char} {width n : Nat} (plain : isStandIn letter = false)
      (member : d ∈ '\\' :: letter :: hex width n) : isStandIn d = false := by
    rcases List.mem_cons.mp member with rfl | member
    · decide
    · rcases List.mem_cons.mp member with rfl | digit
      · exact plain
      · exact isStandIn_of_printable (printable_hex digit)
  unfold messageEscape at member
  split at member
  · rename_i own
    refine escaped ?_ member
    rcases own with rfl | rfl
    · decide
    · exact plain
  repeat' split at member
  · exact escaped (by decide) member
  · exact escaped (by decide) member
  · exact escaped (by decide) member
  · exact coded (by decide) member
  · rename_i other _
    exact List.mem_singleton.mp member ▸ eq_false_of_ne_true other
  · exact coded (by decide) member
  · exact coded (by decide) member
  · exact coded (by decide) member

theorem hasStandIn_quoted (text : String) : hasStandIn (quoted text) = false := by
  have quote : isStandIn (messageQuote text.toList) = false := by
    unfold messageQuote
    split <;> decide
  rw [hasStandIn_eq_false, quoted, String.toList_ofList]
  intro c member
  rcases List.mem_cons.mp member with rfl | member
  · exact quote
  · rcases List.mem_append.mp member with inside | last
    · obtain ⟨d, _, escape⟩ := List.mem_flatMap.mp inside
      exact isStandIn_messageEscape quote escape
    · exact List.mem_singleton.mp last ▸ quote

end Text

namespace Json

theorem hasStandIn_typeName (value : Json) : Text.hasStandIn value.typeName = false := by
  unfold typeName
  split <;> decide +kernel

theorem hasStandIn_comma : Text.hasStandIn ", " = false := by decide +kernel

mutual

theorem hasStandIn_literal : (value : Json) → Text.hasStandIn value.literal = false
  | .null => by decide +kernel
  | .bool value => by cases value <;> decide +kernel
  | .num value => Text.hasStandIn_of_allWritten (allWritten_number (by decide) (by decide) value)
  | .str value => Text.hasStandIn_quoted value
  | .arr items => by
    have inside := Text.hasStandIn_intercalate hasStandIn_comma (hasStandIn_literalItems items)
    rw [literal, Text.hasStandIn_append, Text.hasStandIn_append, inside]
    decide +kernel
  | .obj fields => by
    have inside := Text.hasStandIn_intercalate hasStandIn_comma (hasStandIn_literalFields fields)
    rw [literal, Text.hasStandIn_append, Text.hasStandIn_append, inside]
    decide +kernel

theorem hasStandIn_literalItems : (items : List Json) →
    ∀ part ∈ literalItems items, Text.hasStandIn part = false
  | [] => by simp [literalItems]
  | item :: rest => List.forall_mem_cons.mpr ⟨hasStandIn_literal item, hasStandIn_literalItems rest⟩

theorem hasStandIn_literalFields : (fields : Fields) →
    ∀ part ∈ literalFields fields, Text.hasStandIn part = false
  | [] => by simp [literalFields]
  | (key, value) :: rest => by
    refine List.forall_mem_cons.mpr ⟨?_, hasStandIn_literalFields rest⟩
    rw [Text.hasStandIn_append, Text.hasStandIn_append, Text.hasStandIn_quoted, hasStandIn_literal value]
    decide +kernel

end

/-- A value stands bare with the stand-ins that it has. -/
theorem hasStandIn_bare {value : Json} (whole : value.hasStandIn = false) : Text.hasStandIn value.bare = false := by
  cases value with
  | str text => exact whole
  | _ => exact hasStandIn_literal _

end Json

end OutreachFlow
