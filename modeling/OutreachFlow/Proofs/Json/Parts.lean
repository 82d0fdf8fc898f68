import OutreachFlow.Json.Literal
import OutreachFlow.Proofs.Json.Depth

/-! What passes from a document to its parts. Being nested no deeper than some level does, and so does being
printable. -/
namespace OutreachFlow.Json

/-- Whatever holds of a document holds of all that is found in it, and of null where nothing is found. -/
structure IsHereditary (holds : Json → Prop) : Prop where
  null : holds .null
  items : ∀ {items : List Json}, holds (.arr items) → ∀ item ∈ items, holds item
  fields : ∀ {fields : Fields}, holds (.obj fields) → ∀ field ∈ fields, holds field.2

/-- What holds of a document with some number of levels holds of its parts with one level less. -/
structure PassesDown (holds : Nat → Json → Prop) : Prop where
  items : ∀ {level : Nat} {items : List Json}, holds (level + 1) (.arr items) → ∀ item ∈ items, holds level item
  fields : ∀ {level : Nat} {fields : Fields}, holds (level + 1) (.obj fields) → ∀ field ∈ fields, holds level field.2

namespace IsHereditary

variable {holds : Json → Prop} {fields : Fields}

theorem get? (all : ∀ field ∈ fields, holds field.2) {key : String} {value : Json}
    (found : fields.get? key = some value) : holds value := by
  obtain ⟨field, first, rfl⟩ := Option.map_eq_some_iff.mp found
  exact all field (List.mem_of_find?_eq_some first)

theorem valueOf (hereditary : IsHereditary holds) (all : ∀ field ∈ fields, holds field.2) (key : String) :
    holds (fields.valueOf key) := by
  rw [Fields.valueOf]
  cases found : fields.get? key with
  | none => exact hereditary.null
  | some value => exact get? all found

end IsHereditary

/-! Depth and printing -/

theorem isHereditary_depth_le (n : Nat) : IsHereditary fun value => value.depth ≤ n where
  null := Nat.zero_le n
  items flat item inside :=
    itemsDepth_le.mp (Nat.le_trans (Nat.le_succ _) flat) item inside
  fields flat field inside :=
    fieldsDepth_le.mp (Nat.le_trans (Nat.le_succ _) flat) field inside

theorem itemsPrintFault?_ne_tooDeep {limit : Nat} {items : List Json}
    (all : ∀ item ∈ items, item.printFault? limit ≠ some .tooDeep) :
    itemsPrintFault? limit items ≠ some .tooDeep := by
  induction items with
  | nil => simp [itemsPrintFault?]
  | cons item rest ih =>
    obtain ⟨first, others⟩ := List.forall_mem_cons.mp all
    rw [itemsPrintFault?, Ne, Option.or_eq_some_iff]
    rintro (here | ⟨_, later⟩)
    · exact first here
    · exact ih others later

theorem fieldsPrintFault?_ne_tooDeep {limit : Nat} {fields : Fields}
    (all : ∀ field ∈ fields, field.2.printFault? limit ≠ some .tooDeep) :
    fieldsPrintFault? limit fields ≠ some .tooDeep := by
  induction fields with
  | nil => simp [fieldsPrintFault?]
  | cons field rest ih =>
    obtain ⟨first, others⟩ := List.forall_mem_cons.mp all
    rw [fieldsPrintFault?, Ne, Option.or_eq_some_iff]
    rintro (here | ⟨_, later⟩)
    · exact first here
    · exact ih others later

/-- A value that is nested less deep than there are levels can be printed but for its integers. -/
theorem printFault?_ne_tooDeep : {limit : Nat} → {value : Json} → value.depth < limit →
    value.printFault? limit ≠ some .tooDeep
  | _ + 1, .null, _ | _ + 1, .bool _, _ | _ + 1, .str _, _ => by simp [printFault?]
  | _ + 1, .num number, _ => by
    rw [printFault?]
    split <;> simp
  | _ + 1, .arr items, flat => by
    have parts : ∀ item ∈ items, item.printFault? _ ≠ some .tooDeep := fun item inside =>
      printFault?_ne_tooDeep (Nat.lt_of_le_of_lt (itemsDepth_le.mp (Nat.le_refl _) item inside)
        (Nat.lt_of_succ_lt_succ flat))
    rw [printFault?]
    exact itemsPrintFault?_ne_tooDeep parts
  | _ + 1, .obj fields, flat => by
    have parts : ∀ field ∈ fields, field.2.printFault? _ ≠ some .tooDeep := fun field inside =>
      printFault?_ne_tooDeep (Nat.lt_of_le_of_lt (fieldsDepth_le.mp (Nat.le_refl _) field inside)
        (Nat.lt_of_succ_lt_succ flat))
    rw [printFault?]
    exact fieldsPrintFault?_ne_tooDeep parts

end OutreachFlow.Json
