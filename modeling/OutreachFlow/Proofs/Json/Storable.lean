import OutreachFlow.Proofs.Import.Reading
import OutreachFlow.Proofs.Json.Fields
import OutreachFlow.Proofs.Json.Numbers

/-! Documents that can be stored: those that a text can be read as. -/
namespace OutreachFlow

namespace Json

/-- A document that the reader takes when it is written: its integers are not too long, and no key comes
twice. -/
inductive Storable : Json → Prop where
  | null : Storable .null
  | bool (value : Bool) : Storable (.bool value)
  | num {value : Number} (short : value.IsShort) : Storable (.num value)
  | str (value : String) : Storable (.str value)
  | arr {items : List Json} (all : ∀ item ∈ items, Storable item) : Storable (.arr items)
  | obj {fields : Fields} (distinct : (fields.map Prod.fst).Nodup) (all : ∀ field ∈ fields, Storable field.2) :
      Storable (.obj fields)

/-! What is read is storable -/

theorem fst_eq_of_ok {ε α β : Type} {found result : α} {rest left : β}
    (read : (Except.ok (found, rest) : Except ε (α × β)) = .ok (result, left)) : found = result :=
  congrArg Prod.fst (Except.ok.inj read)

theorem allDigits_wholePart {text whole rest : List Char} (read : wholePart text = some (whole, rest)) :
    AllDigits whole := by
  unfold wholePart at read
  split at read
  · obtain ⟨rfl, _⟩ := Prod.mk.inj (Option.some.inj read)
    exact allDigits_zeros 1
  · split at read
    · obtain ⟨rfl, _⟩ := Prod.mk.inj (Option.some.inj read)
      exact fun c member => List.all_eq_true.mp List.all_takeWhile c member
    · contradiction
  · contradiction

theorem foldl_digits_lt {digits : List Char} (all : AllDigits digits) (front : Nat) :
    digits.foldl (fun n c => 10 * n + (c.toNat - 48)) front < (front + 1) * 10 ^ digits.length := by
  induction digits generalizing front with
  | nil => simp
  | cons c rest ih =>
    obtain ⟨digit, others⟩ := List.forall_mem_cons.mp all
    have small : c.toNat - 48 < 10 := by
      simp only [Char.isDigit, Bool.and_eq_true, decide_eq_true_eq] at digit
      have below : c.toNat ≤ 57 := digit.2
      omega
    calc (c :: rest).foldl (fun n c => 10 * n + (c.toNat - 48)) front
      _ < (10 * front + (c.toNat - 48) + 1) * 10 ^ rest.length := ih others _
      _ ≤ ((front + 1) * 10) * 10 ^ rest.length := Nat.mul_le_mul_right _ (by omega)
      _ = (front + 1) * 10 ^ (c :: rest).length := by rw [List.length_cons, Nat.pow_succ', Nat.mul_assoc]

theorem isShort_of_number {negative : Bool} {text left : List Char} {found : Number}
    (read : number negative text = some (.ok (found, left))) : found.IsShort := by
  obtain ⟨⟨whole, after⟩, wholeRead, rest⟩ := Option.map_eq_some_iff.mp read
  dsimp only at rest
  split at rest
  · split at rest
    · contradiction
    · rename_i short
      obtain rfl := fst_eq_of_ok rest
      have below : natOf whole < 10 ^ whole.length := by
        simpa [natOf] using foldl_digits_lt (allDigits_wholePart wholeRead) 0
      have same : (signed negative (natOf whole)).natAbs = natOf whole := by
        rw [signed]
        split <;> omega
      rw [Number.isShort_int, same]
      exact Nat.lt_of_lt_of_le below (Nat.pow_le_pow_right (by decide) (Nat.le_of_not_lt short))
  · obtain rfl := fst_eq_of_ok rest
    trivial

/-- What a reader returns with `fuel` steps is storable. -/
structure ReadsStorable (fuel : Nat) : Prop where
  value : ∀ limit text found left, Json.value limit fuel text = .ok (found, left) → found.Storable
  items : ∀ limit text found left, Json.items limit fuel text = .ok (found, left) →
    ∀ item ∈ found, item.Storable
  entries : ∀ limit text found left, Json.entries limit fuel text = .ok (found, left) →
    ∀ entry ∈ found, entry.2.Storable

theorem storable_of_value {limit fuel : Nat} (reads : ReadsStorable fuel) {text left : List Char} {found : Json}
    (read : Json.value limit (fuel + 1) text = .ok (found, left)) : found.Storable := by
  unfold Json.value at read
  split at read
  · obtain ⟨⟨content, rest⟩, _, done⟩ := bind_eq_ok.mp read
    obtain rfl := fst_eq_of_ok done
    exact .str content
  · obtain ⟨limit, _, read⟩ := bind_eq_ok.mp read
    split at read
    · obtain rfl := fst_eq_of_ok read
      exact .arr (by simp)
    · obtain ⟨⟨parts, rest⟩, inner, done⟩ := bind_eq_ok.mp read
      obtain rfl := fst_eq_of_ok done
      exact .arr (reads.items _ _ _ _ inner)
  · obtain ⟨limit, _, read⟩ := bind_eq_ok.mp read
    split at read
    · obtain rfl := fst_eq_of_ok read
      exact .obj (by simp) (by simp)
    · obtain ⟨⟨parts, rest⟩, inner, done⟩ := bind_eq_ok.mp read
      obtain rfl := fst_eq_of_ok done
      exact .obj (Fields.distinct_ofEntries parts) fun field member =>
        reads.entries _ _ _ _ inner field (Fields.mem_ofEntries member)
  · obtain rfl := fst_eq_of_ok read
    exact .null
  · obtain rfl := fst_eq_of_ok read
    exact .bool true
  · obtain rfl := fst_eq_of_ok read
    exact .bool false
  iterate 3
    · obtain rfl := fst_eq_of_ok read
      exact .num trivial
  · dsimp only at read
    split at read
    · rename_i found numbered
      obtain ⟨⟨number, rest⟩, rfl, done⟩ := map_eq_ok.mp read
      obtain ⟨rfl, _⟩ := Prod.mk.inj done
      exact .num (isShort_of_number numbered)
    · contradiction

theorem storable_of_items {limit fuel : Nat} (reads : ReadsStorable fuel) {text left : List Char}
    {found : List Json} (read : Json.items limit (fuel + 1) text = .ok (found, left)) :
    ∀ item ∈ found, item.Storable := by
  unfold Json.items at read
  obtain ⟨⟨first, rest⟩, head, read⟩ := bind_eq_ok.mp read
  have headStorable := reads.value _ _ _ _ head
  dsimp only at read
  split at read
  · obtain rfl := fst_eq_of_ok read
    exact List.forall_mem_singleton.mpr headStorable
  · obtain ⟨⟨others, rest⟩, tail, done⟩ := bind_eq_ok.mp read
    obtain rfl := fst_eq_of_ok done
    exact List.forall_mem_cons.mpr ⟨headStorable, reads.items _ _ _ _ tail⟩
  · contradiction

theorem storable_of_entries {limit fuel : Nat} (reads : ReadsStorable fuel) {text left : List Char}
    {found : List (String × Json)} (read : Json.entries limit (fuel + 1) text = .ok (found, left)) :
    ∀ entry ∈ found, entry.2.Storable := by
  unfold Json.entries at read
  split at read
  · obtain ⟨⟨key, rest⟩, _, read⟩ := bind_eq_ok.mp read
    dsimp only at read
    split at read
    · obtain ⟨⟨content, rest⟩, head, read⟩ := bind_eq_ok.mp read
      have headStorable := reads.value _ _ _ _ head
      dsimp only at read
      split at read
      · obtain rfl := fst_eq_of_ok read
        exact List.forall_mem_singleton.mpr headStorable
      · obtain ⟨⟨others, rest⟩, tail, done⟩ := bind_eq_ok.mp read
        obtain rfl := fst_eq_of_ok done
        exact List.forall_mem_cons.mpr ⟨headStorable, reads.entries _ _ _ _ tail⟩
      · contradiction
    · contradiction
  · contradiction

theorem readsStorable (fuel : Nat) : ReadsStorable fuel := by
  induction fuel with
  | zero => constructor <;> (intros; contradiction)
  | succ fuel ih =>
    exact ⟨fun _ _ _ _ => storable_of_value ih, fun _ _ _ _ => storable_of_items ih,
      fun _ _ _ _ => storable_of_entries ih⟩

/-- Whatever a text is read as can be stored. -/
theorem storable_of_ofChars {limit : Nat} {text : List Char} {found : Json}
    (read : ofChars limit text = .ok found) :
    found.Storable := by
  unfold ofChars at read
  split at read
  · rename_i whole
    obtain rfl := Except.ok.inj read
    obtain ⟨⟨value, rest⟩, first, done⟩ := bind_eq_ok.mp whole
    dsimp only at done
    split at done
    · exact Except.ok.inj done ▸ (readsStorable _).value _ _ _ _ first
    · contradiction
  all_goals contradiction

theorem storable_of_ofBytes {limit : Nat} {bytes : List UInt8} {found : Json}
    (read : ofBytes limit bytes = .ok found) :
    found.Storable := by
  unfold ofBytes at read
  split at read
  · exact storable_of_ofChars read
  · contradiction

end Json

end OutreachFlow
