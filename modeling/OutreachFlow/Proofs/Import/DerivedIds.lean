import OutreachFlow.Import.Draft

/-! Ids that an import makes up. The id of a branch's check determines its condition and its
index, whatever the id of the condition holds, and the id of an edge determines its place. Both
rest on digits being free of the separator. -/
namespace OutreachFlow

theorem dash_notMem_repr (n : Nat) : '-' ∉ (Nat.repr n).toList := by
  intro member
  rw [Nat.toList_repr] at member
  have digit := Nat.isDigit_of_mem_toDigits (by decide) (by decide) member
  exact absurd digit (by decide)

theorem toList_repr_inj {i j : Nat} (same : (Nat.repr i).toList = (Nat.repr j).toList) : i = j := by
  rw [Nat.toList_repr, Nat.toList_repr] at same
  rw [← Nat.ofDigitChars_ten_toDigits (n := i), same, Nat.ofDigitChars_ten_toDigits]

/-- A separator that both tails are free of splits a list in one way only. -/
theorem append_separator_inj {α : Type} {mark : α} {front front' tail tail' : List α}
    (free : mark ∉ tail) (free' : mark ∉ tail')
    (same : front ++ mark :: tail = front' ++ mark :: tail') : front = front' ∧ tail = tail' := by
  rcases List.append_eq_append_iff.mp same with ⟨between, rfl, rest⟩ | ⟨between, rfl, rest⟩
  · cases between with
    | nil => exact ⟨by simp, List.tail_eq_of_cons_eq rest⟩
    | cons head between =>
      obtain ⟨rfl, rfl⟩ := List.cons_eq_cons.mp rest
      exact absurd (by simp) free
  · cases between with
    | nil => exact ⟨by simp, (List.tail_eq_of_cons_eq rest).symm⟩
    | cons head between =>
      obtain ⟨rfl, rfl⟩ := List.cons_eq_cons.mp rest
      exact absurd (by simp) free'

theorem toList_checkNodeId (condition : String) (index : Nat) :
    (checkNodeId condition index).toList =
      (condition.toList ++ ['-', 'c', 'h', 'e', 'c', 'k']) ++ '-' :: (Nat.repr index).toList := by
  simp [checkNodeId, checkIdSeparator, String.toList_append]

/-- No two branches share the id of their check, also when condition ids look like such ids. -/
theorem checkNodeId_inj {a b : String} {i j : Nat} :
    checkNodeId a i = checkNodeId b j ↔ a = b ∧ i = j := by
  constructor
  · intro same
    have lists := congrArg String.toList same
    rw [toList_checkNodeId, toList_checkNodeId] at lists
    obtain ⟨fronts, digits⟩ :=
      append_separator_inj (dash_notMem_repr i) (dash_notMem_repr j) lists
    exact ⟨String.toList_injective (List.append_cancel_right fronts), toList_repr_inj digits⟩
  · rintro ⟨rfl, rfl⟩
    rfl

theorem checkNodeId_ne_self (condition : String) (index : Nat) :
    checkNodeId condition index ≠ condition := by
  intro same
  have lengths := congrArg (fun text => text.toList.length) same
  rw [toList_checkNodeId] at lengths
  simp only [List.length_append, List.length_cons, List.length_nil] at lengths
  omega

theorem checkNodeId_ne_empty (condition : String) (index : Nat) :
    checkNodeId condition index ≠ "" := by
  intro same
  have lists := congrArg String.toList same
  rw [toList_checkNodeId] at lists
  simp at lists

namespace Draft

theorem toList_edgeId (place : Nat) (source target : String) :
    (edgeId place source target).toList =
      ['e', 'd', 'g', 'e', '-'] ++ ((Nat.repr place).toList ++ '-' :: (source ++ "-" ++ target).toList) := by
  simp [edgeId, String.toList_append]

/-- Digits end at the first dash, so the rest of an edge id cannot hide its place. -/
theorem place_of_edgeId {place place' : Nat} {source source' target target' : String}
    (same : edgeId place source target = edgeId place' source' target') : place = place' := by
  have lists := congrArg String.toList same
  rw [toList_edgeId, toList_edgeId] at lists
  -- Read backwards, the digits stand behind a dash as they do in the id of a check.
  have backwards := congrArg List.reverse (List.append_cancel_left lists)
  simp only [List.reverse_append, List.reverse_cons, List.append_assoc, List.singleton_append] at backwards
  have free (n : Nat) : '-' ∉ (Nat.repr n).toList.reverse := by
    simpa using dash_notMem_repr n
  have digits := (append_separator_inj (free place) (free place') backwards).2
  exact toList_repr_inj (List.reverse_inj.mp digits)

end Draft

end OutreachFlow
